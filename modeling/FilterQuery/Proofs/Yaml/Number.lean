import FilterQuery.Proofs.Digits
import FilterQuery.Yaml.Access

namespace FilterQuery

namespace Number

theorem isAlphanum_of_mem_digits {n : Nat} : ∀ c ∈ digits n, c.isAlphanum = true := by
  intro c hc
  rw [Char.isAlphanum, Nat.isDigit_of_mem_toDigits (by decide) (by decide) hc, Bool.or_true]

end Number

namespace Yaml

open Number

theorem digitsIn?_of_isDigit {cs : List Char} (hne : cs ≠ []) (h : ∀ c ∈ cs, isDigit c = true) :
    digitsIn? 10 cs = some (ofDigits cs) := by
  have hfold : ∀ m : Nat, cs.foldlM (fun n c =>
      (digitUpTo36? c).bind fun d => if d < 10 then some (10 * n + d) else none) m =
        some (cs.foldl (fun n c => 10 * n + digitValue c) m) := by
    clear hne
    induction cs with
    | nil => exact fun _ => rfl
    | cons c cs ih =>
      intro m
      obtain ⟨hc, hcs⟩ := List.forall_mem_cons.1 h
      have hvalue : digitUpTo36? c = some (digitValue c) := if_pos hc
      rw [List.foldlM_cons, hvalue, Option.bind_some, if_pos (digitValue_lt hc), Option.bind_eq_bind,
        Option.bind_some, ih hcs, List.foldl_cons]
  rw [digitsIn?, if_neg (by simpa using hne), hfold]
  rfl

theorem magnitude?_digits (n : Nat) : magnitude? (digits n) = some n := by
  have hdigits : digitsIn? 10 (digits n) = some n := by
    rw [digitsIn?_of_isDigit (digits_ne_nil n) isDigit_of_mem_digits, ofDigits_digits]
  unfold magnitude?
  split
  · next h => exact absurd h (digits_ne_zero_cons n 'x' _)
  · next h => exact absurd h (digits_ne_zero_cons n 'o' _)
  · next h => exact absurd h (digits_ne_zero_cons n 'b' _)
  · exact hdigits

theorem head_digits (n : Nat) : ∃ c cs, digits n = c :: cs ∧ isDigit c = true ∧ c ≠ '-' ∧ c ≠ '+' := by
  obtain ⟨c, cs, h⟩ := List.exists_cons_of_ne_nil (digits_ne_nil n)
  have hc := isDigit_of_mem_digits c (h ▸ List.mem_cons_self)
  refine ⟨c, cs, h, hc, ?_, ?_⟩ <;> (rintro rfl; cases hc)

theorem isZeroFilled_digits (n : Nat) : isZeroFilled (digits n) = false ∧ isZeroFilled ('-' :: digits n) = false := by
  have hzero : (decide (1 < (digits n).length) && (digits n).head? == some '0' && (digits n).all isDigit) = false := by
    obtain ⟨c, cs, h, -⟩ := head_digits n
    rw [h]
    rcases cs with _ | ⟨d, ds⟩
    · rfl
    · have hc : c ≠ '0' := fun hc => digits_ne_zero_cons n d ds (hc ▸ h)
      simp [hc]
  refine ⟨?_, hzero⟩
  obtain ⟨c, cs, h, -, hminus, hplus⟩ := head_digits n
  rw [h] at hzero ⊢
  unfold isZeroFilled
  split
  · next heq => exact absurd (List.cons.inj heq).1 hminus
  · next heq => exact absurd (List.cons.inj heq).1 hplus
  · exact hzero

theorem whole?_toString (n : Int) : whole? (toString n).toList = some n := by
  rw [toList_toString]
  cases n with
  | ofNat m =>
    obtain ⟨c, cs, h, -, hminus, hplus⟩ := head_digits m
    have hfilled := (isZeroFilled_digits m).1
    have hread := magnitude?_digits m
    dsimp only
    rw [h] at hfilled hread ⊢
    rw [whole?, hfilled, if_neg Bool.false_ne_true, hread]
    · rfl
    · exact fun ds heq => hminus (List.cons.inj heq).1
    · exact fun ds heq => hplus (List.cons.inj heq).1
  | negSucc m =>
    dsimp only
    rw [whole?, (isZeroFilled_digits (m + 1)).2, if_neg Bool.false_ne_true, magnitude?_digits]
    rfl

theorem int64?_toString {n : Int} (h : fitsInt n = true) : int64? (toString n).toList = some n := by
  rw [int64?, whole?_toString, Option.bind_some, if_pos h]

theorem natBelow?_toString {limit n : Nat} (h : n < limit) : natBelow? limit (toString (n : Int)).toList = some n := by
  have hhead : (toString (n : Int)).toList.head? ≠ some '-' := by
    rw [toList_toString]
    obtain ⟨c, cs, hcs, -, hminus, -⟩ := head_digits n
    change (digits n).head? ≠ _
    rw [hcs]
    exact fun hc => hminus (Option.some.inj hc)
  rw [natBelow?, if_neg hhead, whole?_toString, Option.bind_some, Int.toNat_natCast, if_pos h]

theorem natBelow?_lt {limit n : Nat} {cs : List Char} (h : natBelow? limit cs = some n) : n < limit := by
  unfold natBelow? at h
  split at h
  · cases h
  · obtain ⟨m, -, h⟩ := Option.bind_eq_some_iff.1 h
    split at h
    · next hm =>
      cases h
      exact hm
    · cases h

theorem fitsInt_of_int64? {n : Int} {cs : List Char} (h : int64? cs = some n) : fitsInt n = true := by
  obtain ⟨m, -, h⟩ := Option.bind_eq_some_iff.1 h
  split at h
  · next hm =>
    cases h
    exact hm
  · cases h

theorem asNatBelow?_lt {limit n : Nat} {y : Yaml} (h : y.asNatBelow? limit = some n) : n < limit := by
  obtain ⟨cs, -, h⟩ := Option.bind_eq_some_iff.1 h
  exact natBelow?_lt h

theorem fitsInt_of_asInt64? {n : Int} {y : Yaml} (h : y.asInt64? = some n) : fitsInt n = true := by
  obtain ⟨cs, -, h⟩ := Option.bind_eq_some_iff.1 h
  exact fitsInt_of_int64? h

section

variable {α : Type} {read : Yaml → Option α} {p : α → Prop} {key : String} {members : List (String × Yaml)}
  (hread : ∀ y a, read y = some a → p a)

include hread

theorem forall_of_asOption? {y : Yaml} {v : Option α} (h : asOption? read y = some v) : ∀ a ∈ v, p a := by
  have hmap : (read y).map some = some v → ∀ a ∈ v, p a := by
    intro h
    obtain ⟨a, ha, rfl⟩ := Option.map_eq_some_iff.1 h
    exact fun b hb => Option.some.inj hb ▸ hread y a ha
  unfold asOption? at h
  split at h
  · split at h
    · exact hmap h
    · split at h
      · cases h
        exact nofun
      · cases h
  · split at h
    · cases h
      exact nofun
    · exact hmap h

theorem forall_of_mapM {ys : List Yaml} {as : List α} (h : ys.mapM read = some as) : ∀ a ∈ as, p a := by
  induction ys generalizing as with
  | nil =>
    cases h
    exact nofun
  | cons y ys ih =>
    rw [List.mapM_cons] at h
    obtain ⟨a, ha, h⟩ := Option.bind_eq_some_iff.1 h
    obtain ⟨bs, hbs, h⟩ := Option.bind_eq_some_iff.1 h
    cases h
    exact List.forall_mem_cons.2 ⟨hread y a ha, ih hbs⟩

theorem of_required? {a : α} (h : required? read key members = some a) : p a := by
  obtain ⟨v, -, h⟩ := Option.bind_eq_some_iff.1 h
  obtain ⟨y, -, h⟩ := Option.bind_eq_some_iff.1 h
  exact hread y a h

theorem of_withDefault? {a default : α} (hdefault : p default)
    (h : withDefault? read key default members = some a) : p a := by
  obtain ⟨v, -, h⟩ := Option.bind_eq_some_iff.1 h
  cases v with
  | none =>
    cases h
    exact hdefault
  | some y => exact hread y a h

theorem forall_of_optional? {v : Option α} (h : optional? read key members = some v) : ∀ a ∈ v, p a :=
  of_withDefault? (p := fun v => ∀ a ∈ v, p a) (fun _ _ => forall_of_asOption? hread) (fun _ ha => by cases ha) h

end

theorem isNull_toString (n : Int) : isNull (toString n).toList = false := by
  have hword : ∀ w ∈ ["null", "Null", "NULL", "~"], whole? w.toList = none := by decide
  refine Bool.eq_false_iff.2 fun h => ?_
  obtain ⟨w, hw, he⟩ := List.any_eq_true.1 h
  rw [beq_iff_eq] at he
  cases (hword w hw).symm.trans (he ▸ whole?_toString n)

end Yaml

end FilterQuery
