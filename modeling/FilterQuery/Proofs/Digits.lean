import FilterQuery.Clause
import FilterQuery.Proofs.Lexemes

namespace FilterQuery

namespace Number

theorem isDigit_iff {c : Char} : isDigit c = true ↔ '0' ≤ c ∧ c ≤ '9' := by simp [isDigit]

theorem isDigit_of_mem_digits {n : Nat} : ∀ c ∈ digits n, isDigit c = true := by
  intro c hc
  have h := Nat.isDigit_of_mem_toDigits (by decide) (by decide) hc
  simpa [isDigit, Char.isDigit, Char.le_def] using h

theorem digits_ne_nil (n : Nat) : digits n ≠ [] := Nat.toDigits_ne_nil

theorem toList_toString (n : Int) : (toString n).toList = match n with
    | .ofNat m => digits m
    | .negSucc m => '-' :: digits (m + 1) := by
  cases n with
  | ofNat m => exact Nat.toList_repr
  | negSucc m =>
    change ("-" ++ Nat.repr (m + 1)).toList = _
    rw [String.toList_append, Nat.toList_repr]
    rfl

theorem ofDigits_append (cs ds : List Char) :
    ofDigits (cs ++ ds) = 10 ^ ds.length * ofDigits cs + ofDigits ds := by
  change Nat.ofDigitChars 10 (cs ++ ds) 0 = _
  rw [Nat.ofDigitChars_append, Nat.ofDigitChars_eq_ofDigitChars_zero]
  rfl

@[simp] theorem ofDigits_digits (n : Nat) : ofDigits (digits n) = n := Nat.ofDigitChars_ten_toDigits

@[simp] theorem ofDigits_padded (w n : Nat) : ofDigits (padded w n) = n := by
  have hz : ∀ k, ofDigits (List.replicate k '0') = 0 := fun k => by
    change Nat.ofDigitChars 10 _ 0 = 0
    simp
  rw [padded, ofDigits_append, hz, ofDigits_digits]
  simp

theorem isDigit_of_mem_padded {w n : Nat} : ∀ c ∈ padded w n, isDigit c = true := by
  intro c hc
  rw [padded, List.mem_append] at hc
  rcases hc with hc | hc
  · rw [(List.mem_replicate.1 hc).2]
    decide
  · exact isDigit_of_mem_digits c hc

theorem length_padded (w n : Nat) : (padded w n).length = max w (digits n).length := by
  rw [padded, List.length_append, List.length_replicate]
  omega

theorem length_padded_of_lt {w n : Nat} (hw : 0 < w) (h : n < 10 ^ w) : (padded w n).length = w := by
  have hl := (Nat.length_toDigits_le_iff (by decide) hw).2 h
  rw [length_padded]
  exact Nat.max_eq_left hl

theorem le_length_padded (w n : Nat) : w ≤ (padded w n).length := by
  rw [length_padded]
  exact Nat.le_max_left ..

theorem span_digits {ds : List Char} (h : ∀ c ∈ ds, isDigit c = true) :
    ds.takeWhile isDigit = ds ∧ ds.dropWhile isDigit = [] := by
  have hspan := Token.span_append h (fun c (hc : ([] : List Char).head? = some c) => nomatch hc)
  rwa [List.append_nil] at hspan

theorem digits?_eq_some {cs : List Char} (hne : cs ≠ []) (h : ∀ c ∈ cs, isDigit c = true) :
    digits? cs = some (ofDigits cs) := by
  have hall : cs.all isDigit = true := List.all_eq_true.2 h
  simp [digits?, hne, hall]

theorem natBelow?_digits {limit n : Nat} (h : n < limit) : natBelow? limit (digits n) = some n := by
  have hd := isDigit_of_mem_digits (n := n)
  have hdigits := digits?_eq_some (digits_ne_nil n) hd
  rw [ofDigits_digits] at hdigits
  unfold natBelow?
  split
  · next ds heq =>
    rw [heq] at hd
    cases hd '+' List.mem_cons_self
  · rw [hdigits]
    simp [h]

theorem digitValue_lt {c : Char} (h : isDigit c = true) : digitValue c < 10 := by
  have hbounds : '0'.toNat = 48 ∧ '9'.toNat = 57 := by decide
  simp only [isDigit, Bool.and_eq_true, decide_eq_true_eq, Char.le_def, UInt32.le_iff_toNat_le, Char.toNat_val] at h
  rw [digitValue]
  omega

theorem ofDigits_lt {cs : List Char} (h : ∀ c ∈ cs, isDigit c = true) : ofDigits cs < 10 ^ cs.length := by
  induction cs with
  | nil => decide
  | cons c cs ih =>
    obtain ⟨hc, hcs⟩ := List.forall_mem_cons.1 h
    have hrest := ih hcs
    have hfirst : ofDigits [c] = digitValue c := Nat.zero_add _
    have hbound := Nat.mul_le_mul_left (10 ^ cs.length) (Nat.le_of_lt_succ (digitValue_lt hc))
    rw [← List.singleton_append, ofDigits_append, hfirst, List.length_append, List.length_singleton, Nat.pow_add]
    omega

theorem digits_ne_zero_cons (n : Nat) (d : Char) (ds : List Char) : digits n ≠ '0' :: d :: ds := by
  intro h
  have hall : ∀ c ∈ d :: ds, isDigit c = true := fun c hc => isDigit_of_mem_digits c (h ▸ List.mem_cons_of_mem '0' hc)
  have hvalue : n = ofDigits (d :: ds) := by
    rw [← ofDigits_digits n, h]
    rfl
  have hlen : (digits n).length ≤ (d :: ds).length :=
    (Nat.length_toDigits_le_iff (by decide) (Nat.succ_pos ds.length)).2 (hvalue ▸ ofDigits_lt hall)
  rw [h] at hlen
  exact Nat.not_succ_le_self _ hlen

theorem digitValue_inj {c d : Char} (hc : isDigit c = true) (hd : isDigit d = true)
    (h : digitValue c = digitValue d) : c = d := by
  have hzero : '0'.toNat = 48 := by decide
  simp only [isDigit, Bool.and_eq_true, decide_eq_true_eq, Char.le_def, UInt32.le_iff_toNat_le, Char.toNat_val]
    at hc hd
  unfold digitValue at h
  exact Char.toNat_inj.1 (by omega)

theorem ofDigits_inj {cs ds : List Char} (hc : ∀ c ∈ cs, isDigit c = true) (hd : ∀ d ∈ ds, isDigit d = true)
    (hlen : cs.length = ds.length) (h : ofDigits cs = ofDigits ds) : cs = ds := by
  induction cs generalizing ds with
  | nil => exact (List.eq_nil_of_length_eq_zero hlen.symm).symm
  | cons c cs ih =>
    cases ds with
    | nil => cases hlen
    | cons d ds =>
      obtain ⟨hc, hcs⟩ := List.forall_mem_cons.1 hc
      obtain ⟨hd, hds⟩ := List.forall_mem_cons.1 hd
      have hlen : cs.length = ds.length := Nat.succ.inj hlen
      have hfirst : ∀ c, ofDigits [c] = digitValue c := fun c => Nat.zero_add _
      have hlt := ofDigits_lt hcs
      have hlt' := ofDigits_lt hds
      rw [← List.singleton_append, ← List.singleton_append (l := ds), ofDigits_append, ofDigits_append, hfirst, hfirst,
        hlen] at h
      rw [hlen] at hlt
      have hvalue : digitValue c = digitValue d := by
        have hquot := congrArg (· / 10 ^ ds.length) h
        have hpos : 0 < 10 ^ ds.length := by omega
        simpa only [Nat.mul_add_div hpos, Nat.div_eq_of_lt hlt, Nat.div_eq_of_lt hlt', Nat.add_zero] using hquot
      rw [hvalue] at h
      rw [digitValue_inj hc hd hvalue, ih hcs hds hlen (Nat.add_left_cancel h)]

end Number

namespace Token

theorem startsWord_of_isDigit {c : Char} (h : Number.isDigit c = true) : startsWord c = true := by
  simp [startsWord, Text.isAlphanumeric_of_isDigit h]

theorem continuesWord_of_isDigit {c : Char} (h : Number.isDigit c = true) (next : Option Char) :
    continuesWord c next = true := by
  simp [continuesWord, Text.isAlphanumeric_of_isDigit h]

theorem isWord_of_digits {c : Char} {cs : List Char} (hc : Number.isDigit c = true)
    (hcs : ∀ d ∈ cs, Number.isDigit d = true ∨ d = '-') : IsWord (c :: cs) := by
  refine ⟨startsWord_of_isDigit hc, isWhole_of_forall fun d hd next => ?_⟩
  rcases hcs d hd with hd | rfl
  · exact continuesWord_of_isDigit hd next
  · simp [continuesWord]

theorem isWord_of_isDigit {cs : List Char} (hne : cs ≠ []) (h : ∀ c ∈ cs, Number.isDigit c = true) :
    IsWord cs := by
  cases cs with
  | nil => exact absurd rfl hne
  | cons c cs =>
    exact isWord_of_digits (h c List.mem_cons_self) fun d hd => .inl (h d (List.mem_cons_of_mem c hd))

theorem mem_of_isDate {cs : List Char} (h : isDate cs = true) : '-' ∈ cs := by
  unfold isDate at h
  split at h
  · simp
  · simp
  · cases h

theorem not_mem_star {cs : List Char} (h : ∀ c ∈ cs, Number.isDigit c = true) : '*' ∉ cs :=
  fun hm => nomatch h '*' hm

theorem bareValue?_classify {cs : List Char} (h : '*' ∉ cs) :
    Clause.bareValue? (classify cs) = some (String.ofList cs) := by
  unfold classify
  dsimp only
  repeat' split
  all_goals first
    | rfl
    | next hs => exact absurd (List.contains_iff_mem.1 hs) h

theorem classify_number {cs : List Char} (h : '-' ∉ cs) (hn : isNumber cs = true) :
    classify cs = .number (String.ofList cs) := by
  have hd : isDate cs = false := Bool.eq_false_iff.2 fun hd => h (mem_of_isDate hd)
  rw [classify, hd, hn]
  rfl

end Token

end FilterQuery
