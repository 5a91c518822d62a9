import FilterQuery.Proofs.Calendar

namespace FilterQuery.Calendar

def IsLeapYear (y : Int) : Prop := 4 ∣ y ∧ (100 ∣ y → 400 ∣ y)

instance (y : Int) : Decidable (IsLeapYear y) := inferInstanceAs (Decidable (_ ∧ _))

def monthLength (y : Int) (m : Nat) : Nat :=
  if m = 2 then if IsLeapYear y then 29 else 28
  else if m = 4 ∨ m = 6 ∨ m = 9 ∨ m = 11 then 30
  else 31

theorem isLeap_iff {y : Int} : isLeap y = true ↔ IsLeapYear y := by
  simp only [isLeap, IsLeapYear, Bool.and_eq_true, Bool.or_eq_true, beq_iff_eq, bne_iff_ne]
  omega

theorem getElem?_monthLengths {y : Int} {k : Nat} (hk : k < 12) :
    (monthLengths y)[k]? = some (monthLength y (k + 1)) := by
  have hleap : (if IsLeapYear y then 29 else 28) = if isLeap y then 29 else 28 := by simp only [isLeap_iff]
  unfold monthLengths monthLength
  rw [hleap]
  generalize isLeap y = leap
  revert k leap
  decide

theorem getElem?_monthLengths_iff {y : Int} {k n : Nat} :
    (monthLengths y)[k]? = some n ↔ k < 12 ∧ n = monthLength y (k + 1) := by
  constructor
  · intro h
    obtain ⟨hk, -⟩ := List.getElem?_eq_some_iff.1 h
    have hk : k < 12 := hk
    rw [getElem?_monthLengths hk, Option.some.injEq] at h
    exact ⟨hk, h.symm⟩
  · rintro ⟨hk, rfl⟩
    exact getElem?_monthLengths hk

theorem monthLength_bounds (y : Int) (m : Nat) : 28 ≤ monthLength y m ∧ monthLength y m ≤ 31 := by
  unfold monthLength
  repeat' split
  all_goals omega

namespace Date

def IsProper (d : Date) : Prop :=
  (1 ≤ d.month ∧ d.month ≤ 12) ∧ 1 ≤ d.day ∧ d.day ≤ monthLength d.year d.month

theorem isProper_iff {d : Date} : d.IsProper ↔ ∃ k length, d.month = k + 1 ∧
    (monthLengths d.year)[k]? = some length ∧ 1 ≤ d.day ∧ d.day ≤ length := by
  simp only [getElem?_monthLengths_iff]
  constructor
  · rintro ⟨⟨hm, hm'⟩, hd, hd'⟩
    have hsucc : d.month = d.month - 1 + 1 := by omega
    exact ⟨d.month - 1, _, hsucc, ⟨by omega, rfl⟩, hd, hsucc ▸ hd'⟩
  · rintro ⟨k, -, hk, ⟨hlt, rfl⟩, hd, hd'⟩
    exact ⟨by omega, hd, hk ▸ hd'⟩

theorem isProper_ofDays (n : Int) : (ofDays n).IsProper := isProper_iff.2 (ofDays_spec n).2.2

theorem exists?_iff_isProper {d : Date} :
    d.exists? = true ↔ (leastYear ≤ d.year ∧ d.year ≤ greatestYear) ∧ d.IsProper := by
  rw [exists?_iff, isProper_iff]

theorem isCommon_iff {d : Date} : d.IsCommon ↔ (0 ≤ d.year ∧ d.year ≤ 9999) ∧ d.IsProper := by
  rw [IsCommon, exists?_iff_isProper]
  unfold leastYear greatestYear
  constructor
  · rintro ⟨⟨-, hd⟩, hy⟩
    exact ⟨hy, hd⟩
  · rintro ⟨⟨hy, hy'⟩, hd⟩
    exact ⟨⟨⟨by omega, by omega⟩, hd⟩, hy, hy'⟩

theorem toDays_of_year (y : Int) : toDays ⟨y, 1, 1⟩ = yearStart y := by
  rw [toDays_eq (k := 0) rfl, List.take_zero, List.sum_nil]
  dsimp only
  omega

theorem toDays_of_month {d : Date} (hm : 1 ≤ d.month) : d.toDays = toDays ⟨d.year, d.month, 1⟩ + d.day - 1 := by
  have hsucc : d.month = d.month - 1 + 1 := by omega
  rw [toDays_eq hsucc, toDays_eq (d := ⟨d.year, d.month, 1⟩) hsucc]
  dsimp only
  omega

theorem toDays_monthAfter {y : Int} {m : Nat} (hm : 1 ≤ m) (hm' : m ≤ 12) :
    (if m = 12 then toDays ⟨y + 1, 1, 1⟩ else toDays ⟨y, m + 1, 1⟩) = toDays ⟨y, m, 1⟩ + monthLength y m := by
  have hsucc : m = m - 1 + 1 := by omega
  have hlength := getElem?_monthLengths (y := y) (show m - 1 < 12 by omega)
  rw [← hsucc] at hlength
  have htake : (((monthLengths y).take m).sum : Int) = ((monthLengths y).take (m - 1)).sum + monthLength y m := by
    rw [hsucc, List.take_add_one, Nat.add_sub_cancel, ← hsucc, hlength, List.sum_append]
    simp
  have hstart : toDays ⟨y, m, 1⟩ = yearStart y + ((monthLengths y).take (m - 1)).sum := by
    rw [toDays_eq hsucc]
    dsimp only
    omega
  split
  · next hdecember =>
    subst hdecember
    have hsum := sum_monthLengths y
    have hall : (monthLengths y).take 12 = monthLengths y := rfl
    rw [hall] at htake
    rw [toDays_of_year]
    omega
  · rw [toDays_eq rfl]
    dsimp only
    omega

variable {d : Date}

theorem IsProper.ofDays_toDays (h : d.IsProper) : ofDays d.toDays = d := by
  obtain ⟨k, length, hm, hk, hpos, hle⟩ := isProper_iff.1 h
  exact ofDays_eq hm hk hpos hle

theorem isProper_first (y : Int) {m : Nat} (hm : 1 ≤ m) (hm' : m ≤ 12) : IsProper ⟨y, m, 1⟩ := by
  have hlength := (monthLength_bounds y m).1
  refine ⟨⟨hm, hm'⟩, Nat.le_refl 1, ?_⟩
  dsimp only
  omega

section

variable {y : Int} {m d : Nat}

theorem of?_of_isProper (hy : 0 ≤ y) (hy' : y ≤ 10000) (h : IsProper ⟨y, m, d⟩) : of? y m d = some ⟨y, m, d⟩ := by
  have hexists : exists? ⟨y, m, d⟩ = true := by
    rw [exists?_iff_isProper]
    unfold leastYear greatestYear
    exact ⟨⟨by dsimp only; omega, by dsimp only; omega⟩, h⟩
  exact if_pos hexists

theorem of?_eq_none (h : ¬ IsProper ⟨y, m, d⟩) : of? y m d = none :=
  if_neg fun hexists => h (exists?_iff_isProper.1 hexists).2

theorem monthAfter?_first (hy : 0 ≤ y) (hy' : y ≤ 9999) (hm : 1 ≤ m) (hm' : m ≤ 12) :
    ∃ next, monthAfter? ⟨y, m, 1⟩ = some next ∧ next.toDays = toDays ⟨y, m, 1⟩ + monthLength y m := by
  have hmonth := toDays_monthAfter (y := y) hm hm'
  unfold monthAfter?
  dsimp only
  split
  · next hdecember =>
    rw [if_pos hdecember] at hmonth
    exact ⟨_, of?_of_isProper (by omega) (by omega) (isProper_first _ (by decide) (by decide)), hmonth⟩
  · next hother =>
    rw [if_neg hother] at hmonth
    exact ⟨_, of?_of_isProper hy (by omega) (isProper_first _ (by omega) (by omega)), hmonth⟩

end

end Date

end FilterQuery.Calendar
