import FilterQuery.Json.Access
import FilterQuery.Proofs.Double.Overflow
import FilterQuery.Proofs.Json.Read

namespace FilterQuery

open Number

namespace Json

theorem ofDigits_cons (c : Char) (cs : List Char) :
    ofDigits (c :: cs) = 10 ^ cs.length * digitValue c + ofDigits cs := by
  have hone : ofDigits [c] = digitValue c := Nat.zero_add _
  rw [← List.singleton_append, ofDigits_append, hone]

theorem takeDigits_eq {s : Nat} {cs : List Char} (h : s * 10 ^ cs.length + ofDigits cs < wordLimit) :
    takeDigits s cs = (s * 10 ^ cs.length + ofDigits cs, cs.length, []) := by
  induction cs generalizing s with
  | nil =>
    have hnone : ofDigits [] = 0 := rfl
    rw [takeDigits, List.length_nil, pow_zero, Nat.mul_one, hnone, Nat.add_zero]
  | cons c cs ih =>
    have hvalue : (s * 10 + digitValue c) * 10 ^ cs.length + ofDigits cs =
        s * 10 ^ (c :: cs).length + ofDigits (c :: cs) := by
      rw [ofDigits_cons, List.length_cons, pow_succ]
      ring
    rw [← hvalue] at h ⊢
    have hle : s * 10 + digitValue c ≤ (s * 10 + digitValue c) * 10 ^ cs.length :=
      Nat.le_mul_of_pos_right _ (Nat.pow_pos (by decide))
    rw [takeDigits, if_pos (by omega), ih h]
    rfl

theorem takeDigits_zero {cs : List Char} (h : ofDigits cs < wordLimit) :
    takeDigits 0 cs = (ofDigits cs, cs.length, []) := by
  have htake : takeDigits 0 cs = _ := takeDigits_eq (by rwa [Nat.zero_mul, Nat.zero_add])
  rwa [Nat.zero_mul, Nat.zero_add] at htake

structure IsWhole (ds : List Char) : Prop where
  digits : ∀ c ∈ ds, isDigit c = true
  nonempty : ds ≠ []
  plain : ds.length = 1 ∨ ds.head? ≠ some '0'

theorem IsWhole.guard {ds : List Char} (h : IsWhole ds) :
    (ds.isEmpty || (ds.head? == some '0' && ds.length != 1)) = false := by
  have hempty : ds.isEmpty = false := by simpa using h.nonempty
  rcases h.plain with hp | hp
  · simp [hempty, hp]
  · simp [hempty, hp]

theorem isWhole_digits (n : Nat) : IsWhole (digits n) where
  digits := isDigit_of_mem_digits
  nonempty := digits_ne_nil n
  plain := by
    obtain ⟨c, cs, h⟩ := List.exists_cons_of_ne_nil (digits_ne_nil n)
    rw [h]
    rcases cs with _ | ⟨d, ds⟩
    · exact .inl rfl
    · refine .inr fun hc => digits_ne_zero_cons n d ds ?_
      rw [h, Option.some.inj hc]

theorem number?_of_ne {cs : List Char} (h : cs.head? ≠ some '-') : number? cs = unsigned? false cs := by
  unfold number?
  split
  · exact absurd rfl h
  · rfl

theorem exponent?_toString (n : Int) : Double.exponent? ('e' :: (toString n).toList) = some n := by
  have hdigits : ∀ m : Nat, digits? (digits m) = some m := fun m => by
    rw [digits?_eq_some (digits_ne_nil m) isDigit_of_mem_digits, ofDigits_digits]
  rw [toList_toString, Double.exponent?, if_pos (.inl rfl)]
  cases n with
  | ofNat m =>
    have hsign : Double.splitSign (digits m) = (false, digits m) := by
      have hm := isDigit_of_mem_digits (n := m)
      unfold Double.splitSign
      split
      · next heq => cases hm '-' (heq ▸ List.mem_cons_self)
      · next heq => cases hm '+' (heq ▸ List.mem_cons_self)
      · rfl
    dsimp only
    rw [hsign]
    dsimp only
    rw [hdigits]
    rfl
  | negSucc m =>
    simp only [Double.splitSign]
    rw [hdigits]
    rfl

theorem span_exponent {ds : List Char} (h : ∀ c ∈ ds, isDigit c = true) (cs : List Char) :
    (ds ++ 'e' :: cs).takeWhile isDigit = ds ∧ (ds ++ 'e' :: cs).dropWhile isDigit = 'e' :: cs := by
  refine Token.span_append h fun c hc => ?_
  cases hc
  decide

section

variable {ds fs : List Char} (h : IsWhole ds) (negative : Bool)

include h

theorem unsigned?_exponent (hword : ofDigits ds < wordLimit) (n : Int) :
    unsigned? negative (ds ++ 'e' :: (toString n).toList) = (fromParts? negative (ofDigits ds) n).map .real := by
  obtain ⟨htake, hdrop⟩ := span_exponent h.digits (toString n).toList
  unfold unsigned?
  simp only [htake, hdrop, takeDigits_zero hword, h.guard, Bool.false_eq_true, if_false, List.length_nil,
    Nat.cast_zero, Int.zero_add]
  split
  · next heq => cases heq
  · next heq => cases heq
  · rw [exponent?_toString, Option.bind_some]

variable (hfs : ∀ c ∈ fs, isDigit c = true) (hne : fs ≠ []) (hword : ofDigits (ds ++ fs) < wordLimit)

include hfs hne hword

theorem unsigned?_point {cs : List Char} {e : Int} (he : Double.exponent? cs = some e)
    (hcs : ∀ c, cs.head? = some c → isDigit c = false) : unsigned? negative (ds ++ '.' :: (fs ++ cs)) =
      (fromParts? negative (ofDigits (ds ++ fs)) (e - fs.length)).map .real := by
  obtain ⟨htake, hdrop⟩ := Double.span_point h.digits (fs ++ cs)
  obtain ⟨htake', hdrop'⟩ := Token.span_append hfs hcs
  rw [ofDigits_append, Nat.mul_comm] at hword ⊢
  have hle : ofDigits ds ≤ ofDigits ds * 10 ^ fs.length := Nat.le_mul_of_pos_right _ (Nat.pow_pos (by decide))
  have hempty : fs.isEmpty = false := by simpa using hne
  have hexponent : -((fs.length : Nat) : Int) + e = e - fs.length := by omega
  unfold unsigned?
  simp only [htake, hdrop, htake', hdrop', takeDigits_zero (show ofDigits ds < wordLimit by omega),
    takeDigits_eq hword, h.guard, hempty, he, Bool.false_eq_true, if_false, Option.bind_some, List.length_nil,
    Nat.cast_zero, Int.zero_sub, hexponent]

end

theorem head?_ne_of_isDigit {ds : List Char} (h : ∀ c ∈ ds, isDigit c = true) (hne : ds ≠ []) (cs : List Char) :
    (ds ++ cs).head? ≠ some '-' := by
  rw [List.head?_append_of_ne_nil _ hne]
  intro hc
  have hdigit := h '-' (List.mem_of_head? hc)
  cases hdigit

theorem head?_positional_ne (d : Nat) (k : Int) (cs : List Char) : (Double.positional d k ++ cs).head? ≠ some '-' := by
  unfold Double.positional
  split
  · exact head?_ne_of_isDigit isDigit_of_mem_digits (digits_ne_nil _) cs
  · have hlen := length_padded ((-k).toNat + 1) d
    rw [List.append_assoc]
    refine head?_ne_of_isDigit (fun c hc => isDigit_of_mem_padded c (List.mem_of_mem_take hc)) ?_ _
    rw [← List.length_pos_iff, List.length_take]
    omega

theorem head?_realDigits_ne (d : Nat) (k : Int) : (realDigits d k).head? ≠ some '-' := by
  unfold realDigits
  dsimp only
  split
  · exact head?_positional_ne d k _
  · split
    · simpa using head?_positional_ne d k []
    · rw [List.append_assoc]
      refine head?_ne_of_isDigit (fun c hc => isDigit_of_mem_digits c (List.mem_of_mem_take hc)) ?_ _
      rw [← List.length_pos_iff, List.length_take, lt_min_iff]
      exact ⟨Nat.one_pos, List.length_pos_iff.2 (digits_ne_nil d)⟩

def numeral (d : Nat) (k : Int) : Nat × Int :=
  if 0 ≤ k ∧ (digits d).length + k ≤ 16 then (d * tenTo k.toNat * 10, -1) else (d, k)

theorem unsigned?_positional {d : Nat} {k : Int} (hk : k < 0) (hd : d < wordLimit) (negative : Bool) :
    unsigned? negative (Double.positional d k) = (fromParts? negative d k).map .real := by
  have hplaces : (((-k).toNat : Nat) : Int) = -k := by omega
  generalize hp : (-k).toNat = places at hplaces
  have hpadded := ofDigits_padded (places + 1) d
  have hlen := length_padded (places + 1) d
  have hchars := isDigit_of_mem_padded (w := places + 1) (n := d)
  have hwhole : IsWhole ((padded (places + 1) d).take ((padded (places + 1) d).length - places)) := by
    refine ⟨fun c hc => hchars c (List.mem_of_mem_take hc), ?_, ?_⟩
    · rw [← List.length_pos_iff, List.length_take]
      omega
    · -- More than one digit in front of the point are the first digits of the number itself.
      by_cases hlong : places + 1 < (digits d).length
      · have hsame : padded (places + 1) d = digits d := by
          rw [padded, Nat.sub_eq_zero_of_le hlong.le, List.replicate_zero, List.nil_append]
        refine .inr fun hhead => ?_
        rw [hsame, List.head?_take, if_neg (by omega)] at hhead
        rcases (isWhole_digits d).plain with hone | hplain
        · omega
        · exact hplain hhead
      · left
        rw [List.length_take]
        omega
  have hdrop : ((padded (places + 1) d).drop ((padded (places + 1) d).length - places)).length = places := by
    rw [List.length_drop]
    omega
  have hdigits : ∀ c ∈ (padded (places + 1) d).drop ((padded (places + 1) d).length - places), isDigit c = true :=
    fun c hc => hchars c (List.mem_of_mem_drop hc)
  have hpoint := unsigned?_point hwhole negative hdigits (List.ne_nil_of_length_pos (by omega))
    (by rwa [List.take_append_drop, hpadded]) (show Double.exponent? [] = some 0 from rfl) (by rintro _ ⟨⟩)
  rw [List.append_nil, List.take_append_drop, hpadded, hdrop] at hpoint
  have hexponent : (0 : Int) - places = k := by omega
  rw [Double.positional, if_neg (by omega), hp]
  rw [hexponent] at hpoint
  exact hpoint

theorem unsigned?_realDigits {d : Nat} {k : Int} (hword : (numeral d k).1 < wordLimit) (negative : Bool) :
    unsigned? negative (realDigits d k) = (fromParts? negative (numeral d k).1 (numeral d k).2).map .real := by
  by_cases hk : 0 ≤ k ∧ (digits d).length + k ≤ 16
  · have hnumeral : numeral d k = (d * tenTo k.toNat * 10, -1) := if_pos hk
    rw [hnumeral] at hword ⊢
    have hnought : ∀ c ∈ ['0'], isDigit c = true := List.forall_mem_singleton.2 rfl
    have hdigits : ofDigits (digits (d * tenTo k.toNat) ++ ['0']) = d * tenTo k.toNat * 10 := by
      rw [ofDigits_append, ofDigits_digits, Nat.mul_comm]
      rfl
    have hpoint := unsigned?_point (isWhole_digits (d * tenTo k.toNat)) negative hnought (List.cons_ne_nil _ _)
      (hdigits ▸ hword) (show Double.exponent? [] = some 0 from rfl) nofun
    rw [hdigits] at hpoint
    rw [realDigits, if_pos hk, Double.positional, if_pos hk.1]
    exact hpoint
  · have hnumeral : numeral d k = (d, k) := if_neg hk
    rw [hnumeral] at hword ⊢
    rw [realDigits, if_neg hk]
    split
    · next hpoint => exact unsigned?_positional (by omega) hword negative
    · obtain ⟨c, cs, hdigits⟩ := List.exists_cons_of_ne_nil (digits_ne_nil d)
      have hchars := isDigit_of_mem_digits (n := d)
      have hvalue := ofDigits_digits d
      rw [hdigits] at hchars hvalue ⊢
      obtain ⟨hc, hcs⟩ := List.forall_mem_cons.1 hchars
      have hwhole : IsWhole [c] := ⟨List.forall_mem_singleton.2 hc, List.cons_ne_nil _ _, .inl rfl⟩
      cases cs with
      | nil =>
        have hpower : (([c].length : Nat) : Int) + k - 1 = k := by simp
        have hexponent := unsigned?_exponent hwhole negative (hvalue ▸ hword) k
        rw [hvalue] at hexponent
        rw [hpower]
        exact hexponent
      | cons f fs =>
        have hexponent := unsigned?_point hwhole negative hcs (List.cons_ne_nil _ _) (hvalue ▸ hword)
          (exponent?_toString ((c :: f :: fs).length + k - 1)) (by rintro _ ⟨⟩; decide)
        have hpower : ((c :: f :: fs).length : Int) + k - 1 - (f :: fs).length = k := by
          simp only [List.length_cons]
          omega
        have hall : ofDigits ([c] ++ f :: fs) = d := hvalue
        rw [List.singleton_append, hall, hpower] at hexponent
        have hlong : ¬(c :: f :: fs).length = 1 := by simp
        rw [if_neg hlong]
        simpa using hexponent

theorem ofRatio_congr {num den num' den' : Nat} (hn : num ≠ 0) (hd : 0 < den) (hd' : 0 < den')
    (h : num * den' = num' * den) : Double.ofRatio false num den = Double.ofRatio false num' den' := by
  have hn' : num' ≠ 0 := by
    rintro rfl
    rw [Nat.zero_mul] at h
    exact (Nat.mul_ne_zero hn hd'.ne') h
  calc Double.ofRatio false num den
      = Double.ofRatio false (num * den') (den * den') := (Double.ofRatio_mul hn hd hd').symm
    _ = Double.ofRatio false (num' * den) (den' * den) := by rw [h, Nat.mul_comm den]
    _ = Double.ofRatio false num' den' := Double.ofRatio_mul hn' hd' hd

def IsExact (n : Nat) : Prop := 0 < (nearest n 1).2 ∧ (nearest n 1).1 = n * (nearest n 1).2

theorem isExact_of_eq {n m : Nat} {e : Int} (hm : m ≠ 0) (hnormal : Double.IsNormal m e) (h : (n : ℚ) = m * 2 ^ e) :
    IsExact n := by
  have hvalue : ((n : Nat) : ℚ) / (1 : Nat) = m * 2 ^ e := by rw [Nat.cast_one, div_one, h]
  have hratio : nearest n 1 = Double.ratio m e := by rw [nearest, Double.ofRatio_eq hm hnormal Nat.one_pos hvalue]
  rw [IsExact, hratio]
  refine ⟨Double.twoTo_pos _, ?_⟩
  have hcast := Double.cast_twoTo_toNat e
  have hq : ((m * twoTo e.toNat : Nat) : ℚ) = (n * twoTo (-e).toNat : Nat) := by
    rw [Nat.cast_mul, Nat.cast_mul, hcast, h]
    ring
  exact_mod_cast hq

theorem isExact_of_le {n : Nat} (hn : n ≠ 0) (h : n ≤ twoTo 53) : IsExact n := by
  have h53 : twoTo 53 = 2 ^ 53 := rfl
  rcases h.lt_or_eq with hlt | heq
  · have hlog : n.log2 < 53 := (Nat.log2_lt hn).2 hlt
    have hpower : 2 ^ n.log2 * 2 ^ (52 - n.log2) = 2 ^ 52 := by rw [← pow_add, Nat.add_sub_cancel' (by omega)]
    have hlow : 2 ^ 52 ≤ n * 2 ^ (52 - n.log2) := hpower ▸ Nat.mul_le_mul_right _ (Nat.log2_self_le hn)
    have hhigh : n * 2 ^ (52 - n.log2) < 2 ^ 53 := by
      have hstep : 2 ^ 53 = 2 ^ (n.log2 + 1) * 2 ^ (52 - n.log2) := by rw [← pow_add]; congr 1; omega
      rw [hstep]
      exact Nat.mul_lt_mul_of_pos_right Nat.lt_log2_self (Nat.pow_pos (by decide))
    refine isExact_of_eq (m := n * 2 ^ (52 - n.log2)) (e := n.log2 - 52) (by omega) ⟨h53 ▸ hhigh, ?_, ?_, .inl hlow⟩ ?_
    · unfold Double.leastExponent
      omega
    · unfold Double.greatestExponent
      omega
    · have hexponent : ((n.log2 : Nat) : Int) - 52 = -((52 - n.log2 : Nat) : Int) := by omega
      rw [hexponent, zpow_neg, zpow_natCast, Nat.cast_mul, Nat.cast_pow, Nat.cast_ofNat, mul_assoc,
        mul_inv_cancel₀ (by positivity), mul_one]
  · refine isExact_of_eq (m := 2 ^ 52) (e := 1) (by decide) (by decide) ?_
    rw [heq, h53]
    norm_num

theorem isExact_tenTo : ∀ k ≤ 22, IsExact (tenTo k) := by
  unfold IsExact
  decide +kernel

theorem ofRatio_zero (den : Nat) : Double.ofRatio false 0 den = .zero false := if_pos rfl

theorem fromParts?_eq {d : Nat} {k : Int} {m : Nat} {e : Int} {hnormal : Double.IsNormal m e} (hd : d ≤ twoTo 53)
    (hlow : -22 ≤ k) (hhigh : k ≤ 22) (h : Double.ofDecimal false d k = .finite false m e hnormal) :
    fromParts? false d k = some (.finite false m e hnormal) := by
  have hgreatest : ((greatestPower : Nat) : Int) = 308 := rfl
  have hsteps : ((-k).toNat - 1) / greatestPower = 0 := Nat.div_eq_of_lt (by unfold greatestPower; omega)
  unfold fromParts?
  dsimp only
  rw [if_neg (by omega), hsteps, descend, Nat.mul_zero, Nat.sub_zero]
  by_cases hzero : d = 0
  · subst hzero
    have hnearest : (nearest 0 1).1 = 0 := by decide
    have hread : Double.zero false = .finite false m e hnormal := h
    rw [hnearest, Nat.zero_mul, Nat.zero_mul, ofRatio_zero, ofRatio_zero, hread]
    split <;> rfl
  · obtain ⟨hpos, hexact⟩ := isExact_of_le hzero hd
    have hone : tenTo 0 = 1 := rfl
    have hne : (nearest d 1).1 ≠ 0 := hexact ▸ Nat.mul_ne_zero hzero hpos.ne'
    rw [Double.ofDecimal_eq_ofRatio hzero (by omega) (by omega)] at h
    split
    · next hk =>
      obtain ⟨hpos', hexact'⟩ := isExact_tenTo k.toNat (by omega)
      have hneg : (-k).toNat = 0 := by omega
      rw [hneg, hone] at h
      have hsame : Double.ofRatio false ((nearest d 1).1 * (nearest (tenTo k.toNat) 1).1)
          ((nearest d 1).2 * (nearest (tenTo k.toNat) 1).2) = .finite false m e hnormal := by
        refine (ofRatio_congr ?_ (Nat.mul_pos hpos hpos') Nat.one_pos ?_).trans h
        · exact Nat.mul_ne_zero hne (hexact' ▸ Nat.mul_ne_zero (Nat.pow_pos (by decide)).ne' hpos'.ne')
        · rw [hexact, hexact']
          ring
      rw [hsame]
    · next hk =>
      obtain ⟨hpos', hexact'⟩ := isExact_tenTo (-k).toNat (by omega)
      have hnonneg : k.toNat = 0 := by omega
      have hpower : 0 < (nearest (tenTo (-k).toNat) 1).1 := hexact' ▸ Nat.mul_pos (Nat.pow_pos (by decide)) hpos'
      rw [hnonneg, hone, Nat.mul_one] at h
      have hten : 0 < tenTo (-k).toNat := Nat.pow_pos (by decide)
      refine congrArg some ((ofRatio_congr (Nat.mul_ne_zero hne hpos'.ne') (Nat.mul_pos hpos hpower) hten ?_).trans h)
      rw [hexact, hexact']
      ring

-- Sixteen digits that are read as the next number.
example : fromParts? false 9452706955539223 (-16) ≠ some (.ofDecimal false 9452706955539223 (-16)) := by
  decide +kernel

end Json

namespace Double

def numeral : Double → Nat × Int
  | .finite _ m e _ =>
    let (d, k) := if m = 0 then (0, 0) else shortest m e
    Json.numeral d k
  | .infinite _ | .nan => (0, 0)

def IsShort (x : Double) : Prop := x.numeral.1 ≤ twoTo 53 ∧ -22 ≤ x.numeral.2 ∧ x.numeral.2 ≤ 22

def IsLegible (x : Double) : Prop := (Json.read? (Json.realText x)).bind Json.asDouble? = some x

variable {d m : Nat} {k e : Int} {hnormal : IsNormal m e}

theorem ofDecimal_numeral (h : ofDecimal false d k = .finite false m e hnormal) :
    ofDecimal false (Json.numeral d k).1 (Json.numeral d k).2 = .finite false m e hnormal := by
  unfold Json.numeral
  split
  · next hk =>
    by_cases hd : d = 0
    · subst hd
      rw [← h]
      simp [ofDecimal]
    · have hne : d * tenTo k.toNat ≠ 0 := Nat.mul_ne_zero hd (Nat.pow_pos (by decide)).ne'
      have hten : tenTo (-(-1 : Int)).toNat = 10 ∧ tenTo (-1 : Int).toNat = 1 := by decide
      have hneg : (-k).toNat = 0 := by omega
      have hone : tenTo 0 = 1 := rfl
      have hscaled := ofRatio_mul (c := 10) hne Nat.one_pos (by decide)
      rw [ofDecimal_eq_ofRatio hd (by omega) (by omega), hneg, hone] at h
      dsimp only
      rw [ofDecimal_eq_ofRatio (Nat.mul_ne_zero hne (by decide)) (by omega) (by omega), hten.1, hten.2,
        Nat.mul_one, ← h]
      rwa [Nat.one_mul] at hscaled
  · exact h

theorem ofDecimal_decimal (hnormal : IsNormal m e) :
    ofDecimal false (if m = 0 then (0, 0) else shortest m e).1 (if m = 0 then (0, 0) else shortest m e).2 =
      .finite false m e hnormal := by
  split
  · next hm =>
    subst hm
    obtain rfl : e = leastExponent := hnormal.2.2.2.resolve_left (by decide)
    rfl
  · next hm => exact ofDecimal_shortest hm hnormal

theorem IsShort.isLegible (h : (finite false m e hnormal).IsShort) : (finite false m e hnormal).IsLegible := by
  have hword : twoTo 53 < wordLimit := by decide
  have hread := ofDecimal_numeral (ofDecimal_decimal hnormal)
  unfold IsShort numeral at h
  dsimp only at h
  obtain ⟨hdigits, hlow, hhigh⟩ := h
  have htext : (Json.real (finite false m e hnormal)).received? = some (.real (finite false m e hnormal)) := by
    rw [Json.received?, isFinite, if_pos rfl, Json.realText, String.toList_ofList, if_neg Bool.false_ne_true,
      List.nil_append, Json.number?_of_ne (Json.head?_realDigits_ne _ _),
      Json.unsigned?_realDigits (hdigits.trans_lt hword), Json.fromParts?_eq hdigits hlow hhigh hread]
    rfl
  rw [← Json.read?_compact] at htext
  exact congrArg (Option.bind · Json.asDouble?) htext

end Double

end FilterQuery
