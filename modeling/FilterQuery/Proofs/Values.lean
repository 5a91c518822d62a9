import FilterQuery.Proofs.Parts

namespace FilterQuery

namespace Calendar

namespace Date

variable {d e : Date}

theorem toDays_lt (hd : d.exists? = true) (he : e.exists? = true)
    (h : d.year < e.year ∨ d.year = e.year ∧ d.month < e.month) : d.toDays < e.toDays := by
  obtain ⟨-, k, length, hm, hk, -, hle⟩ := exists?_iff.1 hd
  obtain ⟨-, k', length', hm', hk', hpos, -⟩ := exists?_iff.1 he
  have hyear := sum_monthLengths d.year
  rw [toDays_eq hm, toDays_eq hm']
  rcases h with h | ⟨h, hlt⟩
  · have hstart := yearStart_le (show d.year + 1 ≤ e.year by omega)
    have htake := sum_take_add_le hk
    omega
  · -- the month of `d` is among those before the month of `e`
    have hget : ((monthLengths d.year).take k')[k]? = some length := by
      rw [List.getElem?_take_of_lt (by omega), hk]
    have htake := sum_take_add_le hget
    rw [List.take_take, Nat.min_eq_left (by omega)] at htake
    rw [h] at htake ⊢
    omega

theorem of?_eq_some {y : Int} {m k : Nat} (h : of? y m k = some d) : d = ⟨y, m, k⟩ ∧ d.exists? = true := by
  unfold of? at h
  dsimp only at h
  split at h
  · cases h
    exact ⟨rfl, ‹_›⟩
  · cases h

theorem monthAfter?_eq_some (hd : d.exists? = true) (h : d.monthAfter? = some e) :
    e.exists? = true ∧ d.toDays < e.toDays := by
  unfold monthAfter? at h
  split at h
  · obtain ⟨rfl, he⟩ := of?_eq_some h
    exact ⟨he, toDays_lt hd he (.inl (Int.lt_succ _))⟩
  · obtain ⟨rfl, he⟩ := of?_eq_some h
    exact ⟨he, toDays_lt hd he (.inr ⟨rfl, Nat.lt_succ_self _⟩)⟩

theorem dayAfter?_eq_some (h : d.dayAfter? = some e) : e.exists? = true ∧ d.toDays < e.toDays := by
  unfold dayAfter? at h
  dsimp only at h
  split at h
  · cases h
    rw [toDays_ofDays]
    exact ⟨‹_›, Int.lt_succ _⟩
  · cases h

theorem year_nonneg_of_read? {c : Char} {cs : List Char} (hc : Token.startsWord c = true)
    (h : read? (c :: cs) = some d) : d.exists? = true ∧ 0 ≤ d.year := by
  have htrim : Text.trimStart (c :: cs) = c :: cs := by
    rw [Text.trimStart, List.dropWhile_cons, Token.isBlank_of_startsWord hc]
    rfl
  have hyear : ∀ y rest, year? (c :: cs) = some (y, rest) → 0 ≤ y := by
    intro y rest hy
    unfold year? at hy
    rw [htrim] at hy
    split at hy
    · next heq =>
      cases heq
      exact absurd hc (by decide +kernel)
    · next heq =>
      cases heq
      exact absurd hc (by decide +kernel)
    · obtain ⟨⟨n, rest'⟩, -, heq⟩ := Option.map_eq_some_iff.1 hy
      cases heq
      exact Int.natCast_nonneg n
  simp only [read?, Option.bind_eq_bind, Option.bind_eq_some_iff, Prod.exists] at h
  obtain ⟨y, rest, hy, _, -, m, _, -, _, -, k, _, -, h⟩ := h
  split at h
  · obtain ⟨rfl, he⟩ := of?_eq_some h
    exact ⟨he, hyear y rest hy⟩
  · cases h

theorem yearOf_toDays (hd : d.exists? = true) : yearOf d.toDays = d.year := by
  have h := (ofDays_spec d.toDays).1
  rw [ofDays_toDays hd] at h
  exact h.symm

end Date

namespace Period

theorem read?_eq_some {cs : List Char} {p : Period} (hcs : Token.IsWord cs) (h : read? cs = some p) :
    (∃ n : Nat, Number.fitsInt n = true ∧ p = ⟨n, n⟩) ∨ ∃ d next : Date, d.exists? = true ∧ next.exists? = true ∧
      0 ≤ d.year ∧ d.toDays < next.toDays ∧ p = between d next := by
  cases cs with
  | nil => cases hcs
  | cons c cs =>
    unfold read? at h
    split at h
    · unfold instant? at h
      dsimp only at h
      split at h
      · cases h
        exact .inl ⟨_, ‹_›, rfl⟩
      · cases h
    · right
      split at h
      · simp only [year?, Option.bind_eq_bind, Option.bind_eq_some_iff] at h
        obtain ⟨d, hd, next, hnext, heq⟩ := h
        cases heq
        obtain ⟨hd, he⟩ := Date.of?_eq_some hd
        obtain ⟨hnext, he'⟩ := Date.of?_eq_some hnext
        refine ⟨d, next, he, he', ?_, Date.toDays_lt he he' (.inl ?_), rfl⟩
        · rw [hd]
          exact Int.natCast_nonneg _
        · rw [hd, hnext]
          exact Int.lt_succ _
      · split at h
        · simp only [month?, Option.bind_eq_bind, Option.bind_eq_some_iff] at h
          obtain ⟨d, hd, next, hnext, heq⟩ := h
          cases heq
          obtain ⟨he, hy⟩ := Date.year_nonneg_of_read? hcs.1 hd
          obtain ⟨he', hlt⟩ := Date.monthAfter?_eq_some he hnext
          exact ⟨d, next, he, he', hy, hlt, rfl⟩
        · split at h
          · simp only [day?, Option.bind_eq_bind, Option.bind_eq_some_iff] at h
            obtain ⟨d, hd, next, hnext, heq⟩ := h
            cases heq
            obtain ⟨he, hy⟩ := Date.year_nonneg_of_read? hcs.1 hd
            obtain ⟨he', hlt⟩ := Date.dayAfter?_eq_some hnext
            exact ⟨d, next, he, he', hy, hlt, rfl⟩
          · cases h

end Period

end Calendar

namespace Compiled

open Calendar (Date Period millisPerDay yearOf yearStart)

theorem toDays_bounds {d : Date} (hd : d.exists? = true) (hy : 0 ≤ d.year) :
    -719528 ≤ d.toDays ∧ d.toDays < 95026237 := by
  have hspec := Calendar.yearOf_spec d.toDays
  rw [Date.yearOf_toDays hd] at hspec
  have hyear := (Date.exists?_iff.1 hd).1.2
  have hlow := Calendar.yearStart_le hy
  have hhigh := Calendar.yearStart_le (show d.year + 1 ≤ Date.greatestYear + 1 by omega)
  have hfirst : yearStart 0 = -719528 := by decide +kernel
  have hlast : yearStart (Date.greatestYear + 1) = 95026237 := by decide +kernel
  omega

theorem fitsInt_of_days {k : Int} (h : -719528 ≤ k ∧ k < 95026237) :
    Number.fitsInt (k * millisPerDay) = true ∧ Number.fitsInt (k * millisPerDay - 1) = true := by
  have hlimit : Number.intLimit = 9223372036854775808 := by decide +kernel
  simp only [Number.fitsInt, hlimit, millisPerDay, Bool.and_eq_true, decide_eq_true_eq]
  omega

theorem isCommon_ofDays {n : Int} (h : 0 ≤ yearOf n) (h' : n < 0) : (Date.ofDays n).IsCommon := by
  have hle := Calendar.yearOf_le h'.le
  have hepoch : yearOf 0 = 1970 := by decide +kernel
  have hyear := (Date.ofDays_spec n).1
  refine ⟨Date.exists?_ofDays ?_ ?_, ?_, ?_⟩
  · unfold Date.leastYear
    omega
  · unfold Date.greatestYear
    omega
  · omega
  · omega

theorem isWritable_between {d next : Date} (hd : d.exists? = true) (hnext : next.exists? = true)
    (hy : 0 ≤ d.year) (hlt : d.toDays < next.toDays) :
    (Number.fitsInt (Period.between d next).first = true ∧ IsWritable (·.first) (Period.between d next).first) ∧
      (Number.fitsInt (Period.between d next).last = true ∧ IsWritable (·.last) (Period.between d next).last) := by
  have hyear := Date.yearOf_toDays hd
  have hyear' := Date.yearOf_toDays hnext
  have hle := Calendar.yearOf_le hlt.le
  have hfits := fitsInt_of_days (toDays_bounds hd hy)
  have hfits' := fitsInt_of_days (toDays_bounds hnext (by omega))
  refine ⟨⟨hfits.1, ?_⟩, hfits'.2, ?_⟩
  · rcases Int.lt_or_le d.toDays 0 with hneg | hpos
    · have hcommon := isCommon_ofDays (by omega) hneg
      rw [Date.ofDays_toDays hd] at hcommon
      exact .inr ⟨d, hcommon, rfl⟩
    · exact .inl (Int.mul_nonneg hpos (by decide))
  · rcases Int.lt_or_le (next.toDays - 1) 0 with hneg | hpos
    · have hlater := Calendar.yearOf_le (show d.toDays ≤ next.toDays - 1 by omega)
      refine .inr ⟨Date.ofDays (next.toDays - 1), isCommon_ofDays (by omega) hneg, ?_⟩
      simp only [Date.toDays_ofDays, Int.sub_add_cancel]
      rfl
    · left
      simp only [Period.between, millisPerDay]
      omega

theorem isWritable_of_read? {cs : List Char} {p : Period} (hcs : Token.IsWord cs) (h : Period.read? cs = some p) :
    (Number.fitsInt p.first = true ∧ IsWritable (·.first) p.first) ∧
      (Number.fitsInt p.last = true ∧ IsWritable (·.last) p.last) := by
  obtain ⟨n, hn, rfl⟩ | ⟨d, next, hd, hnext, hy, hlt, rfl⟩ := Period.read?_eq_some hcs h
  · exact ⟨⟨hn, .inl (Int.natCast_nonneg n)⟩, hn, .inl (Int.natCast_nonneg n)⟩
  · exact isWritable_between hd hnext hy hlt

end Compiled

theorem Number.lt_of_word? {cs : List Char} {n : Nat} (h : Number.word? cs = some n) : n < Number.wordLimit := by
  simp only [Number.word?, Number.natBelow?, Option.bind_eq_bind, Option.bind_eq_some_iff] at h
  obtain ⟨m, -, h⟩ := h
  split at h
  · cases h
    assumption
  · cases h

def Double.IsUnsigned (x : Double) : Prop := x.IsPositive ∨ x = .infinite false

theorem Double.isUnsigned_of_read? {cs : List Char} {x : Double} (hcs : Token.isNumber cs = true)
    (h : Double.read? cs = some x) : x.IsUnsigned := by
  obtain ⟨d, k, hpos⟩ := Double.isPositional_of_isNumber hcs
  rw [hpos.read?, Option.some_inj] at h
  rw [← h]
  exact Double.ofDecimal_positive d k

end FilterQuery
