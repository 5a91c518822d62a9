import FilterQuery.Number
import FilterQuery.Proofs.Digits

namespace FilterQuery.Double

open Number (twoTo tenTo)

theorem two_zpow_pos (x : Int) : (0 : ℚ) < 2 ^ x := zpow_pos (by norm_num) x

theorem two_zpow_lt {x y : Int} : (2 : ℚ) ^ x < 2 ^ y ↔ x < y := zpow_lt_zpow_iff_right₀ (by norm_num)

theorem two_zpow_le {x y : Int} : (2 : ℚ) ^ x ≤ 2 ^ y ↔ x ≤ y := zpow_le_zpow_iff_right₀ (by norm_num)

theorem two_zpow_add (x y : Int) : (2 : ℚ) ^ (x + y) = 2 ^ x * 2 ^ y := zpow_add₀ (by norm_num) x y

theorem cast_twoTo (k : Nat) : ((twoTo k : Nat) : ℚ) = 2 ^ (k : Int) := by
  rw [zpow_natCast]
  exact Nat.cast_pow 2 k

theorem cast_twoTo_toNat (x : Int) : ((twoTo x.toNat : Nat) : ℚ) = (twoTo (-x).toNat : Nat) * 2 ^ x := by
  have hx : ((x.toNat : Nat) : Int) = ((-x).toNat : Nat) + x := by omega
  rw [cast_twoTo, cast_twoTo, hx, two_zpow_add]

theorem cast_lt_two_zpow (n : Nat) : (n : ℚ) < 2 ^ ((n.log2 : Int) + 1) := by
  have h := Nat.lt_log2_self (n := n)
  have hexp : ((n.log2 : Int) + 1) = ((n.log2 + 1 : Nat) : Int) := by omega
  rw [hexp, zpow_natCast]
  exact_mod_cast h

theorem twoTo_pos (k : Nat) : 0 < twoTo k := Nat.pow_pos (by decide)

section

variable {num den m : Nat} {e : Int}

theorem scaled_le_iff (hd : 0 < den) (x : Int) (k : Nat) :
    den * twoTo x.toNat * k ≤ num * twoTo (-x).toNat ↔ 2 ^ x * (k : ℚ) ≤ num / den := by
  have ha : (0 : ℚ) < (twoTo (-x).toNat : Nat) := by exact_mod_cast twoTo_pos _
  have hd : (0 : ℚ) < den := by exact_mod_cast hd
  have hleft : (den : ℚ) * (twoTo x.toNat : Nat) * k = (2 ^ x * k * den) * (twoTo (-x).toNat : Nat) := by
    rw [cast_twoTo_toNat]
    ring
  rw [le_div_iff₀ hd, ← mul_le_mul_iff_of_pos_right ha, ← hleft]
  exact_mod_cast Iff.rfl

theorem scaled_lt_iff (hd : 0 < den) (x : Int) :
    num * twoTo (-x).toNat < den * twoTo x.toNat * twoTo 52 ↔ (num : ℚ) / den < 2 ^ (x + 52) := by
  rw [← not_le, scaled_le_iff hd, not_le, cast_twoTo, two_zpow_add]
  rfl

theorem ratio_bounds (hn : num ≠ 0) (hd : 0 < den) :
    (2 : ℚ) ^ ((num.log2 : Int) - den.log2 - 1) < num / den ∧
      (num : ℚ) / den < 2 ^ ((num.log2 : Int) - den.log2 + 1) := by
  have hcast : (0 : ℚ) < den := by exact_mod_cast hd
  have hlow : ∀ {n : Nat}, n ≠ 0 → (2 : ℚ) ^ (n.log2 : Int) ≤ n := fun hn => by
    rw [zpow_natCast]
    exact_mod_cast Nat.log2_self_le hn
  constructor
  · rw [lt_div_iff₀ hcast]
    calc (2 : ℚ) ^ ((num.log2 : Int) - den.log2 - 1) * den
        < 2 ^ ((num.log2 : Int) - den.log2 - 1) * 2 ^ ((den.log2 : Int) + 1) :=
          mul_lt_mul_of_pos_left (cast_lt_two_zpow den) (two_zpow_pos _)
      _ = 2 ^ (num.log2 : Int) := by
          rw [← two_zpow_add]
          congr 1
          omega
      _ ≤ num := hlow hn
  · rw [div_lt_iff₀ hcast]
    calc (num : ℚ) < 2 ^ ((num.log2 : Int) + 1) := cast_lt_two_zpow num
      _ = 2 ^ ((num.log2 : Int) - den.log2 + 1) * 2 ^ (den.log2 : Int) := by
          rw [← two_zpow_add]
          congr 1
          omega
      _ ≤ 2 ^ ((num.log2 : Int) - den.log2 + 1) * den :=
          mul_le_mul_of_nonneg_left (hlow hd.ne') (two_zpow_pos _).le

structure IsScale (q : ℚ) (e : Int) : Prop where
  least : leastExponent ≤ e
  top : q < 2 ^ (e + 53)
  bottom : e = leastExponent ∨ (2 : ℚ) ^ (e + 52) ≤ q

theorem IsScale.le {q : ℚ} {e' : Int} (h : IsScale q e) (h' : IsScale q e') : e' ≤ e := by
  rcases h'.bottom with rfl | hle
  · exact h.least
  · have hlt := two_zpow_lt.1 (hle.trans_lt h.top)
    omega

theorem IsScale.unique {q : ℚ} {e' : Int} (h : IsScale q e) (h' : IsScale q e') : e = e' :=
  Int.le_antisymm (h'.le h) (h.le h')

theorem isScale_scale (hn : num ≠ 0) (hd : 0 < den) : IsScale ((num : ℚ) / den) (scale num den) := by
  obtain ⟨hlow, hhigh⟩ := ratio_bounds hn hd
  simp only [scale, scaled_lt_iff hd]
  generalize hx : (num.log2 : Int) - den.log2 - 52 = x
  have hlog : (num.log2 : Int) - den.log2 = x + 52 := by omega
  rw [hlog] at hlow hhigh
  refine ⟨le_max_left _ _, ?_, ?_⟩
  · split
    · next hlt => exact hlt.trans_le (two_zpow_le.2 (by omega))
    · exact hhigh.trans_le (two_zpow_le.2 (by omega))
  · rcases max_choice leastExponent (if (num : ℚ) / den < 2 ^ (x + 52) then x - 1 else x) with hmax | hmax
    · exact .inl hmax
    · right
      rw [hmax]
      split
      · exact (two_zpow_le.2 (by omega)).trans hlow.le
      · next hge => exact not_lt.1 hge

theorem scale_eq (hm : m ≠ 0) (hnormal : IsNormal m e) (hd : 0 < den) (h : (num : ℚ) / den = m * 2 ^ e) :
    scale num den = e := by
  have hn : num ≠ 0 := by
    rintro rfl
    have hpos := two_zpow_pos e
    have hm' : (m : ℚ) ≠ 0 := by exact_mod_cast hm
    simp [hm', hpos.ne'] at h
  obtain ⟨hm53, hleast, -, hm52⟩ := hnormal
  refine (isScale_scale hn hd).unique ⟨hleast, ?_, ?_⟩
  · have hcast : (m : ℚ) < 2 ^ (53 : Int) := by exact_mod_cast hm53
    rw [h, two_zpow_add, mul_comm]
    exact mul_lt_mul_of_pos_left hcast (two_zpow_pos e)
  · refine hm52.symm.imp_right fun hm52 => ?_
    have hcast : (2 : ℚ) ^ (52 : Int) ≤ m := by exact_mod_cast hm52
    rw [h, two_zpow_add, mul_comm]
    exact mul_le_mul_of_nonneg_right hcast (two_zpow_pos e).le

theorem scale_mul {c : Nat} (hn : num ≠ 0) (hd : 0 < den) (hc : 0 < c) :
    scale (num * c) (den * c) = scale num den := by
  have hscale := isScale_scale (Nat.mul_ne_zero hn hc.ne') (Nat.mul_pos hd hc)
  have hcast : (c : ℚ) ≠ 0 := by exact_mod_cast hc.ne'
  rw [Nat.cast_mul, Nat.cast_mul, mul_div_mul_right _ _ hcast] at hscale
  exact hscale.unique (isScale_scale hn hd)

theorem roundDiv_mul (hd : 0 < den) : roundDiv (m * den) den = m := by
  rw [roundDiv, Nat.mul_div_cancel _ hd, Nat.mul_mod_left]
  simp [hd]

theorem roundDiv_mul_mul {c : Nat} (hc : 0 < c) : roundDiv (num * c) (den * c) = roundDiv num den := by
  have htwice : 2 * (num % den * c) = 2 * (num % den) * c := (Nat.mul_assoc ..).symm
  rw [roundDiv, Nat.mul_div_mul_right _ _ hc, Nat.mul_mod_mul_right, htwice]
  simp only [Nat.mul_lt_mul_right hc, Nat.mul_left_inj hc.ne', roundDiv]

theorem ofRatio_mul {c : Nat} (hn : num ≠ 0) (hd : 0 < den) (hc : 0 < c) :
    ofRatio false (num * c) (den * c) = ofRatio false num den := by
  rw [ofRatio, if_neg (Nat.mul_ne_zero hn hc.ne'), ofRatio, if_neg hn]
  simp only [scale_mul hn hd hc, Nat.mul_right_comm _ c, roundDiv_mul_mul hc]

theorem ofRatio_eq (hm : m ≠ 0) (hnormal : IsNormal m e) (hd : 0 < den) (h : (num : ℚ) / den = m * 2 ^ e) :
    ofRatio false num den = .finite false m e hnormal := by
  have hcast : (den : ℚ) ≠ 0 := by exact_mod_cast hd.ne'
  have hnum : num * twoTo (-e).toNat = m * (den * twoTo e.toNat) := by
    have hq : (num : ℚ) * (twoTo (-e).toNat : Nat) = m * (den * (twoTo e.toNat : Nat)) := by
      rw [cast_twoTo_toNat e, (div_eq_iff hcast).1 h]
      ring
    exact_mod_cast hq
  have hn : num ≠ 0 := by
    rintro rfl
    simp [hm, hd.ne', (twoTo_pos _).ne'] at hnum
  rw [ofRatio, if_neg hn]
  simp only [scale_eq hm hnormal hd h, hnum, roundDiv_mul (Nat.mul_pos hd (twoTo_pos _)), hnormal, dif_pos]

theorem ofDecimal_eq_ofRatio {d : Nat} {k : Int} (hd : d ≠ 0) (hhigh : k ≤ 400)
    (hlow : -400 - (d.log2 : Int) ≤ k) :
    ofDecimal false d k = ofRatio false (d * tenTo k.toNat) (tenTo (-k).toNat) := by
  rw [ofDecimal, if_neg hd, if_neg (by omega), if_neg (by omega)]
  split
  · have hk : (-k).toNat = 0 := by omega
    rw [hk]
    rfl
  · have hk : k.toNat = 0 := by omega
    rw [hk]
    exact congrArg (ofRatio false · _) (Nat.mul_one d).symm

theorem ofDecimal_of_nonneg (hm : m ≠ 0) (hnormal : IsNormal m e) (he : 0 ≤ e) :
    ofDecimal false (m * twoTo e.toNat) 0 = .finite false m e hnormal := by
  have hne : m * twoTo e.toNat ≠ 0 := Nat.mul_ne_zero hm (twoTo_pos _).ne'
  have hone : tenTo 0 = 1 := rfl
  have hcast := cast_twoTo_toNat e
  have hneg : (-e).toNat = 0 := by omega
  have htwo : twoTo 0 = 1 := rfl
  rw [hneg, htwo, Nat.cast_one, one_mul] at hcast
  rw [ofDecimal_eq_ofRatio hne (by omega) (by omega)]
  refine ofRatio_eq hm hnormal (Nat.pow_pos (by decide)) ?_
  simp only [Int.toNat_zero, neg_zero, hone, mul_one, Nat.cast_one, div_one, Nat.cast_mul, hcast]

theorem ofDecimal_of_neg (hm : m ≠ 0) (hnormal : IsNormal m e) (he : e < 0) :
    ofDecimal false (m * Nat.pow 5 (-e).toNat) e = .finite false m e hnormal := by
  have hne : m * Nat.pow 5 (-e).toNat ≠ 0 := Nat.mul_ne_zero hm (Nat.pow_pos (by decide)).ne'
  have hpow : 2 ^ (-e).toNat ≤ m * 5 ^ (-e).toNat :=
    (Nat.pow_le_pow_left (by decide) _).trans (Nat.le_mul_of_pos_left _ (Nat.pos_of_ne_zero hm))
  have hlog : (-e).toNat ≤ (m * Nat.pow 5 (-e).toNat).log2 := (Nat.le_log2 hne).2 hpow
  have hzero : e.toNat = 0 := by omega
  have hone : tenTo 0 = 1 := rfl
  have hcast := cast_twoTo_toNat e
  have htwo : twoTo 0 = 1 := rfl
  rw [hzero, htwo, Nat.cast_one] at hcast
  rw [ofDecimal_eq_ofRatio hne (by omega) (by omega), hzero, hone, Nat.mul_one]
  have hten : tenTo (-e).toNat = twoTo (-e).toNat * Nat.pow 5 (-e).toNat := Nat.mul_pow 2 5 _
  have hfive : ((Nat.pow 5 (-e).toNat : Nat) : ℚ) ≠ 0 := by
    exact_mod_cast (Nat.pow_pos (n := (-e).toNat) (by decide : 0 < 5)).ne'
  have hpos : ((twoTo (-e).toNat : Nat) : ℚ) ≠ 0 := by exact_mod_cast (twoTo_pos _).ne'
  refine ofRatio_eq hm hnormal (Nat.pow_pos (by decide)) ?_
  rw [hten, Nat.cast_mul, Nat.cast_mul, mul_div_mul_right _ _ hfive, div_eq_iff hpos, mul_assoc, mul_comm (2 ^ e),
    ← hcast, mul_one]

theorem ofRatio_ne_negative (hnormal : IsNormal m e) : ofRatio false num den ≠ .finite true m e hnormal := by
  simp only [ofRatio, zero]
  repeat' split
  all_goals nofun

theorem ofDecimal_ne_negative (d : Nat) (k : Int) (hnormal : IsNormal m e) :
    ofDecimal false d k ≠ .finite true m e hnormal := by
  unfold ofDecimal
  repeat' split
  all_goals first | exact ofRatio_ne_negative hnormal | nofun

theorem eq_of_mem_gridPoints {k : Int} {d : Nat} (hnormal : IsNormal m e) (h : d ∈ gridPoints m e k) :
    ofDecimal false d k = .finite false m e hnormal := by
  have hd := (List.mem_filter.1 h).2
  revert hd
  cases heq : ofDecimal false d k with
  | finite s m' e' h' =>
    intro hd
    obtain ⟨rfl, rfl⟩ := of_decide_eq_true hd
    cases s with
    | false => rfl
    | true => exact absurd heq (ofDecimal_ne_negative d k h')
  | infinite => nofun
  | nan => nofun

theorem ofDecimal_shortestFrom (hm : m ≠ 0) (hnormal : IsNormal m e) (tries : Nat) (k : Int) :
    ofDecimal false (shortestFrom m e tries k).1 (shortestFrom m e tries k).2 = .finite false m e hnormal := by
  induction tries generalizing k with
  | zero =>
    unfold shortestFrom
    split
    · exact ofDecimal_of_nonneg hm hnormal ‹_›
    · exact ofDecimal_of_neg hm hnormal (by omega)
  | succ tries ih =>
    rw [shortestFrom]
    split
    · next d ds heq => exact eq_of_mem_gridPoints hnormal (heq ▸ List.mem_cons_self)
    · exact ih (k - 1)

theorem ofDecimal_shortest (hm : m ≠ 0) (hnormal : IsNormal m e) :
    ofDecimal false (shortest m e).1 (shortest m e).2 = .finite false m e hnormal :=
  ofDecimal_shortestFrom hm hnormal _ _

end

inductive IsPositional : List Char → Nat → Int → Prop
  | whole : ds ≠ [] → (∀ c ∈ ds, Number.isDigit c = true) → IsPositional ds (Number.ofDigits ds) 0
  | point : ds ≠ [] → fs ≠ [] → (∀ c ∈ ds, Number.isDigit c = true) → (∀ c ∈ fs, Number.isDigit c = true) →
      IsPositional (ds ++ '.' :: fs) (Number.ofDigits (ds ++ fs)) (-(fs.length : Int))

theorem isPositional_positional {d m : Nat} {k e : Int} {hnormal : IsNormal m e}
    (h : ofDecimal false d k = .finite false m e hnormal) :
    ∃ d' k', IsPositional (positional d k) d' k' ∧ ofDecimal false d' k' = .finite false m e hnormal := by
  unfold positional
  split
  · next hk =>
    have hds := Number.isDigit_of_mem_digits (n := d * tenTo k.toNat)
    refine ⟨_, _, .whole (Number.digits_ne_nil _) hds, ?_⟩
    rw [Number.ofDigits_digits, ← h]
    by_cases hd : d = 0
    · simp [ofDecimal, hd]
    · have hhigh : k ≤ 400 := by
        by_contra hlt
        rw [ofDecimal, if_neg hd, if_pos (by omega)] at h
        cases h
      have hne : d * tenTo k.toNat ≠ 0 := Nat.mul_ne_zero hd (Nat.pow_pos (by decide)).ne'
      rw [ofDecimal_eq_ofRatio hd hhigh (by omega), ofDecimal_eq_ofRatio hne (by omega) (by omega)]
      have hneg : (-k).toNat = 0 := by omega
      rw [hneg]
      exact congrArg (ofRatio false · _) (Nat.mul_one _)
  · next hk =>
    dsimp only
    have hlen := Number.le_length_padded ((-k).toNat + 1) d
    have hds := Number.isDigit_of_mem_padded (w := (-k).toNat + 1) (n := d)
    have hd := Number.ofDigits_padded ((-k).toNat + 1) d
    generalize Number.padded ((-k).toNat + 1) d = ds at hlen hds hd
    have hdrop : (ds.drop (ds.length - (-k).toNat)).length = (-k).toNat := by
      rw [List.length_drop]
      omega
    have hpoint : IsPositional (ds.take (ds.length - (-k).toNat) ++ '.' :: ds.drop (ds.length - (-k).toNat))
        (Number.ofDigits (ds.take (ds.length - (-k).toNat) ++ ds.drop (ds.length - (-k).toNat)))
        (-((ds.drop (ds.length - (-k).toNat)).length : Int)) := by
      refine .point ?_ ?_ (fun c hc => hds c (List.mem_of_mem_take hc)) fun c hc => hds c (List.mem_of_mem_drop hc)
      · rw [← List.length_pos_iff, List.length_take]
        omega
      · rw [← List.length_pos_iff, hdrop]
        omega
    have hneg : -(((-k).toNat : Nat) : Int) = k := by omega
    rw [List.take_append_drop, hd, hdrop, hneg] at hpoint
    exact ⟨d, k, hpoint, h⟩

theorem isPositional_text {m : Nat} {e : Int} (hnormal : IsNormal m e) :
    ∃ d k, IsPositional (text (.finite false m e hnormal)) d k ∧
      ofDecimal false d k = .finite false m e hnormal := by
  by_cases hm : m = 0
  · subst hm
    have he : e = leastExponent := by
      rcases hnormal.2.2.2 with h | h
      · cases h
      · exact h
    subst he
    exact isPositional_positional (d := 0) (k := 0) rfl
  · have h := isPositional_positional (ofDecimal_shortest hm hnormal)
    simpa [text, hm] using h

section

variable {cs : List Char} {d : Nat} {k : Int}

theorem isDigit_point : Number.isDigit '.' = false := by decide

theorem span_point {ds : List Char} (h : ∀ c ∈ ds, Number.isDigit c = true) (fs : List Char) :
    (ds ++ '.' :: fs).takeWhile Number.isDigit = ds ∧ (ds ++ '.' :: fs).dropWhile Number.isDigit = '.' :: fs := by
  refine Token.span_append h fun c hc => ?_
  cases hc
  exact isDigit_point

theorem IsPositional.head (h : IsPositional cs d k) : ∃ c cs', cs = c :: cs' ∧ Number.isDigit c = true := by
  have hhead : ∀ {ds : List Char}, ds ≠ [] → (∀ c ∈ ds, Number.isDigit c = true) → ∀ tail : List Char,
      ∃ c cs', ds ++ tail = c :: cs' ∧ Number.isDigit c = true := by
    intro ds hne h tail
    cases ds with
    | nil => exact absurd rfl hne
    | cons c ds => exact ⟨c, ds ++ tail, rfl, h c List.mem_cons_self⟩
  cases h with
  | whole hne h =>
    have hwhole := hhead hne h []
    rwa [List.append_nil] at hwhole
  | point hne _ h _ => exact hhead hne h _

theorem IsPositional.mem (h : IsPositional cs d k) : ∀ c ∈ cs, Number.isDigit c = true ∨ c = '.' := by
  intro c hc
  cases h with
  | whole _ h => exact .inl (h c hc)
  | point _ _ h h' =>
    rw [List.mem_append, List.mem_cons] at hc
    rcases hc with hc | rfl | hc
    · exact .inl (h c hc)
    · exact .inr rfl
    · exact .inl (h' c hc)

theorem IsPositional.not_mem {c : Char} (h : IsPositional cs d k) (hc : Number.isDigit c = false) (hp : c ≠ '.') :
    c ∉ cs := by
  intro hm
  rcases h.mem c hm with hd | hd
  · rw [hc] at hd
    cases hd
  · exact hp hd

theorem IsPositional.positional? (h : IsPositional cs d k) :
    Double.positional? false cs = some (ofDecimal false d k) := by
  cases h with
  | whole hne h =>
    obtain ⟨htake, hdrop⟩ := Number.span_digits h
    simp [Double.positional?, htake, hdrop, hne, exponent?]
  | @point ds fs hne hne' h h' =>
    obtain ⟨htake, hdrop⟩ := span_point h fs
    obtain ⟨htake', hdrop'⟩ := Number.span_digits h'
    simp [Double.positional?, htake, hdrop, htake', hdrop', hne, exponent?]

theorem toLower_of_isDigit {c : Char} (h : Number.isDigit c = true) : c.toLower = c := by
  obtain ⟨-, h⟩ := Number.isDigit_iff.1 h
  have hc : ¬ (c.val ≥ 'A'.val ∧ c.val ≤ 'Z'.val) := by
    rintro ⟨hc, -⟩
    exact absurd (UInt32.le_trans hc h) (by decide)
  exact dif_neg hc

theorem IsPositional.read? (h : IsPositional cs d k) : Double.read? cs = some (ofDecimal false d k) := by
  obtain ⟨c, cs', hcs, hc⟩ := h.head
  have hsign : splitSign cs = (false, cs) := by
    rw [hcs]
    unfold splitSign
    split
    · next heq =>
      cases heq
      cases hc
    · next heq =>
      cases heq
      cases hc
    · rfl
  have hname : ∀ (d : Char) (name : List Char), Number.isDigit d = false →
      String.ofList (cs.map Char.toLower) ≠ String.ofList (d :: name) := by
    intro d name hd heq
    have hlist := congrArg String.toList heq
    rw [String.toList_ofList, String.toList_ofList, hcs, List.map_cons, toLower_of_isDigit hc] at hlist
    rw [(List.cons.inj hlist).1, hd] at hc
    cases hc
  have hinf := hname 'i' ['n', 'f'] (by decide)
  have hinfinity := hname 'i' ['n', 'f', 'i', 'n', 'i', 't', 'y'] (by decide)
  have hnan := hname 'n' ['a', 'n'] (by decide)
  unfold Double.read?
  rw [hsign]
  simp only
  rw [if_neg, if_neg hnan, h.positional?]
  rintro (heq | heq)
  · exact hinf heq
  · exact hinfinity heq

theorem IsPositional.isWord (h : IsPositional cs d k) : Token.IsWord cs := by
  have hdigits : ∀ {ds : List Char}, (∀ c ∈ ds, Number.isDigit c = true) →
      ∀ c ∈ ds, ∀ next, Token.continuesWord c next = true :=
    fun h c hc _ => Token.continuesWord_of_isDigit (h c hc) _
  have hword : Token.IsWhole cs := by
    cases h with
    | whole hne h => exact Token.isWhole_of_forall (hdigits h)
    | @point ds fs hne hne' h h' =>
      have hfs : Token.IsWhole fs := Token.isWhole_of_forall (hdigits h')
      refine Token.isWhole_append (hdigits h) (Token.isWhole_cons_iff.2 ⟨?_, hfs⟩)
      cases fs with
      | nil => exact absurd rfl hne'
      | cons f fs => simp [Token.continuesWord, Text.isAlphanumeric_of_isDigit (h' f List.mem_cons_self)]
  obtain ⟨c, cs', rfl, hc⟩ := h.head
  exact ⟨Token.startsWord_of_isDigit hc, (Token.isWhole_cons_iff.1 hword).2⟩

theorem IsPositional.classify (h : IsPositional cs d k) : Token.classify cs = .number (String.ofList cs) := by
  refine Token.classify_number (h.not_mem (by decide) (by decide)) ?_
  cases h with
  | whole hne h =>
    obtain ⟨htake, hdrop⟩ := Number.span_digits h
    simp [Token.isNumber, htake, hdrop, hne]
  | @point ds fs hne hne' h h' =>
    obtain ⟨htake, hdrop⟩ := span_point h fs
    simp [Token.isNumber, htake, hdrop, hne, hne']
    exact h'

end

theorem isPositional_of_isNumber {cs : List Char} (h : Token.isNumber cs = true) : ∃ d k, IsPositional cs d k := by
  rw [Token.isNumber, Bool.and_eq_true] at h
  obtain ⟨hne, h⟩ := h
  have hsplit := List.takeWhile_append_dropWhile (p := Number.isDigit) (l := cs)
  have hne : cs.takeWhile Number.isDigit ≠ [] := by simpa using hne
  have hds : ∀ c ∈ cs.takeWhile Number.isDigit, Number.isDigit c = true := Token.of_mem_takeWhile
  split at h
  · next hrest =>
    rw [hrest, List.append_nil] at hsplit
    rw [hsplit] at hne hds
    exact ⟨_, _, .whole hne hds⟩
  · next fs hrest =>
    rw [hrest] at hsplit
    simp only [Bool.and_eq_true, Bool.not_eq_true', List.isEmpty_eq_false_iff, List.all_eq_true] at h
    rw [← hsplit]
    exact ⟨_, _, .point hne h.1 hds h.2⟩
  · cases h

theorem ofRatio_positive (num den : Nat) :
    (∃ m e hnormal, ofRatio false num den = .finite false m e hnormal) ∨ ofRatio false num den = .infinite false := by
  unfold ofRatio
  split
  · exact .inl ⟨0, leastExponent, by decide, rfl⟩
  · dsimp only
    split
    · next h => exact .inl ⟨_, _, h, rfl⟩
    · split
      · next h => exact .inl ⟨_, _, h, rfl⟩
      · exact .inr rfl

theorem ofDecimal_positive (d : Nat) (k : Int) :
    (∃ m e hnormal, ofDecimal false d k = .finite false m e hnormal) ∨ ofDecimal false d k = .infinite false := by
  unfold ofDecimal
  split
  · exact .inl ⟨0, leastExponent, by decide, rfl⟩
  · split
    · exact .inr rfl
    · split
      · exact .inl ⟨0, leastExponent, by decide, rfl⟩
      · split <;> exact ofRatio_positive _ _

theorem eq_of_same {m m' : Nat} {e e' : Int} {h : IsNormal m e} {h' : IsNormal m' e'}
    (hs : same (.finite false m e h) (.finite false m' e' h') = true) :
    Double.finite false m e h = .finite false m' e' h' := by
  have hrank : rank (.finite false m e h) = rank (.finite false m' e' h') := by
    simp only [same, Bool.and_eq_true, beq_iff_eq] at hs
    exact hs.2
  have hzero : ∀ {m : Nat} {e : Int}, IsNormal m e → m = 0 → e = leastExponent := by
    rintro m e h rfl
    rcases h.2.2.2 with h | h
    · cases h
    · exact h
  have hpow : twoTo 53 = 9007199254740992 := by decide
  have hm := h.1
  have hm' := h'.1
  have he := h.2.1
  have he' := h'.2.1
  have hboth : m = m' ∧ e = e' := by
    simp only [rank, Bool.false_eq_true, if_false, hpow] at hrank hm hm'
    split at hrank
    · next hm0 =>
      rw [hzero h hm0] at he ⊢
      split at hrank
      · next hm0' => exact ⟨hm0.trans hm0'.symm, (hzero h' hm0').symm⟩
      · omega
    · split at hrank
      · omega
      · omega
  obtain ⟨rfl, rfl⟩ := hboth
  rfl

theorem read?_text {m : Nat} {e : Int} (hnormal : IsNormal m e) :
    read? (text (.finite false m e hnormal)) = some (.finite false m e hnormal) := by
  obtain ⟨d, k, h, heq⟩ := isPositional_text hnormal
  rw [h.read?, heq]

end FilterQuery.Double
