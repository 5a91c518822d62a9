import FilterQuery.Compiled.Text
import FilterQuery.Proofs.Calendar.Rules

namespace FilterQuery.Calendar

def IsDigits (width : Nat) (cs : List Char) : Prop :=
  cs.length = width ∧ ∀ c ∈ cs, Number.isDigit c = true

/-- A year, a month of a year or a day of a month. -/
inductive Span where
  | year (y : Nat)
  | month (y m : Nat)
  | day (y m d : Nat)

namespace Span

/-- `YYYY`, `YYYY-MM` or `YYYY-MM-DD`, in digits. -/
inductive IsText : List Char → Span → Prop
  | year {ys : List Char} (hy : IsDigits 4 ys) : IsText ys (year (Number.ofDigits ys))
  | month {ys ms : List Char} (hy : IsDigits 4 ys) (hm : IsDigits 2 ms) :
      IsText (ys ++ '-' :: ms) (month (Number.ofDigits ys) (Number.ofDigits ms))
  | day {ys ms ds : List Char} (hy : IsDigits 4 ys) (hm : IsDigits 2 ms) (hd : IsDigits 2 ds) :
      IsText (ys ++ '-' :: (ms ++ '-' :: ds))
        (day (Number.ofDigits ys) (Number.ofDigits ms) (Number.ofDigits ds))

/-- Whether the calendar has it. -/
def Exists : Span → Prop
  | year _ => True
  | month _ m => 1 ≤ m ∧ m ≤ 12
  | day y m d => (1 ≤ m ∧ m ≤ 12) ∧ 1 ≤ d ∧ d ≤ monthLength y m

def Has : Span → Date → Prop
  | year y, date => date.year = y
  | month y m, date => date.year = y ∧ date.month = m
  | day y m d, date => date.year = y ∧ date.month = m ∧ date.day = d

def first : Span → Date
  | year y => ⟨y, 1, 1⟩
  | month y m => ⟨y, m, 1⟩
  | day y m d => ⟨y, m, d⟩

def days : Span → Nat
  | year y => if IsLeapYear y then 366 else 365
  | month y m => monthLength y m
  | day .. => 1

def period (s : Span) : Period :=
  ⟨s.first.toDays * millisPerDay, (s.first.toDays + s.days) * millisPerDay - 1⟩

variable {s : Span} {v : List Char}

theorem exists_iff : s.Exists ↔ s.first.IsProper := by
  cases s with
  | year y => exact iff_of_true trivial (Date.isProper_first y (by decide) (by decide))
  | month y m => exact ⟨fun h => Date.isProper_first y h.1 h.2, And.left⟩
  | day y m d => exact Iff.rfl

theorem days_year (y : Nat) : ((year y).days : Int) = yearStart (y + 1) - yearStart y := by
  rw [yearStart_succ, days]
  simp only [isLeap_iff]
  split <;> omega

theorem has_ofDays_iff (he : s.Exists) {n : Int} :
    s.Has (Date.ofDays n) ↔ s.first.toDays ≤ n ∧ n < s.first.toDays + s.days := by
  have hdays : (Date.ofDays n).toDays = n := Date.toDays_ofDays n
  obtain ⟨⟨hmonth, -⟩, hday, hday'⟩ := Date.isProper_ofDays n
  cases s with
  | year y =>
    have hlength := days_year y
    have hfirst : (year y).first.toDays = yearStart y := Date.toDays_of_year y
    rw [hfirst, hlength, Has, (Date.ofDays_spec n).1]
    constructor
    · intro hy
      have hspec := yearOf_spec n
      rw [hy] at hspec
      omega
    · exact fun ⟨hlow, hhigh⟩ => yearOf_eq hlow (by omega)
  | month y m =>
    change _ ↔ Date.toDays ⟨y, m, 1⟩ ≤ n ∧ n < Date.toDays ⟨y, m, 1⟩ + monthLength y m
    constructor
    · rintro ⟨hy, hm⟩
      have hfirst := Date.toDays_of_month hmonth
      rw [hdays, hy, hm] at hfirst
      rw [hy, hm] at hday'
      omega
    · rintro ⟨hlow, hhigh⟩
      obtain ⟨k, hk⟩ := Int.eq_ofNat_of_zero_le (show 0 ≤ n - Date.toDays ⟨y, m, 1⟩ by omega)
      have hproper : Date.IsProper ⟨y, m, k + 1⟩ := ⟨he, by simp, by dsimp only; omega⟩
      have hn : Date.toDays ⟨y, m, k + 1⟩ = n := by
        rw [Date.toDays_of_month he.1]
        dsimp only
        omega
      rw [← hn, hproper.ofDays_toDays]
      exact ⟨rfl, rfl⟩
  | day y m d =>
    have hproper : Date.IsProper ⟨y, m, d⟩ := he
    change _ ↔ Date.toDays ⟨y, m, d⟩ ≤ n ∧ n < Date.toDays ⟨y, m, d⟩ + 1
    constructor
    · rintro ⟨hy, hm, hd⟩
      have hdate : Date.ofDays n = ⟨y, m, d⟩ := by rw [← hy, ← hm, ← hd]
      rw [hdate] at hdays
      omega
    · rintro ⟨hlow, hhigh⟩
      have hn : Date.toDays ⟨y, m, d⟩ = n := by omega
      rw [← hn, hproper.ofDays_toDays]
      exact ⟨rfl, rfl, rfl⟩

end Span

section

variable {ys ms ds : List Char} {w : Nat}

theorem IsDigits.ne_nil (h : IsDigits (w + 1) ds) : ds ≠ [] := Date.ne_nil_of_length h.1

theorem IsDigits.value_lt (h : IsDigits w ds) : Number.ofDigits ds < 10 ^ w := h.1 ▸ Number.ofDigits_lt h.2

theorem IsDigits.isHyphenated (h : IsDigits w ds) : IsHyphenated ds := isHyphenated_of_isDigit h.2

theorem Date.read?_fields (hy : IsDigits 4 ys) (hm : IsDigits 2 ms) (hd : IsDigits 2 ds) :
    Date.read? (ys ++ '-' :: (ms ++ '-' :: ds)) =
      Date.of? (Number.ofDigits ys) (Number.ofDigits ms) (Number.ofDigits ds) := by
  have hday : Date.field? 2 (ds ++ []) = _ := Date.field?_digits hd.ne_nil hd.2 hd.1
  rw [List.append_nil] at hday
  rw [Date.read?, Date.year?_digits hy.ne_nil hy.2 hy.1]
  simp [Date.hyphen?, Date.field?_digits hm.ne_nil hm.2 hm.1, hday]

theorem Period.read?_hyphen {cs : List Char} (hmem : '-' ∈ cs) (h : IsHyphenated cs) :
    Period.read? cs = if cs.length = 7 then Period.month? cs else if cs.length = 10 then Period.day? cs else none := by
  have hchars : ∀ c ∈ cs, isDateChar c = true := by
    intro c hc
    rcases h c hc with hd | rfl
    · simp [isDateChar, hd]
    · rfl
  rw [Period.read?_of_not_digit hmem (by decide), utf8Length_eq hchars]

end

namespace Span

variable {s : Span} {v : List Char}

def after? (s : Span) (d : Date) : Option Date :=
  match s with
  | year _ => Date.of? (d.year + 1) 1 1
  | month .. => d.monthAfter?
  | day .. => d.dayAfter?

theorem after?_first (h : s.first.IsCommon) :
    ∃ next, s.after? s.first = some next ∧ next.toDays = s.first.toDays + s.days := by
  have hdate := Date.isCommon_iff.1 h
  cases s with
  | year y =>
    have hy : (y : Int) ≤ 9999 := hdate.1.2
    have hnext : Date.IsProper ⟨(y : Int) + 1, 1, 1⟩ := Date.isProper_first _ (by decide) (by decide)
    have hof : Date.of? ((y : Int) + 1) 1 1 = some ⟨(y : Int) + 1, 1, 1⟩ :=
      Date.of?_of_isProper (by omega) (by omega) hnext
    refine ⟨_, hof, ?_⟩
    rw [days_year, first, Date.toDays_of_year, Date.toDays_of_year]
    omega
  | month y m =>
    obtain ⟨⟨hlow, hhigh⟩, ⟨hm, hm'⟩, -⟩ := hdate
    exact Date.monthAfter?_first hlow hhigh hm hm'
  | day y m d => exact h.dayAfter?

theorem IsText.read?_eq (h : IsText v s) : Period.read? v =
    (Date.of? s.first.year s.first.month s.first.day).bind fun d =>
      (s.after? d).bind fun next => some (Period.between d next) := by
  cases h with
  | year hy =>
    have hall : v.all Number.isDigit = true := List.all_eq_true.2 hy.2
    have hyear : Period.read? v = Period.year? (Number.ofDigits v) := by simp [Period.read?, hall, hy.1]
    have hlt := hy.value_lt
    have hof : Date.of? (Number.ofDigits v) 1 1 = some ⟨Number.ofDigits v, 1, 1⟩ :=
      Date.of?_of_isProper (by omega) (by omega) (Date.isProper_first _ (by decide) (by decide))
    have hfirst : (Span.year (Number.ofDigits v)).first = ⟨Number.ofDigits v, 1, 1⟩ := rfl
    rw [hyear, Period.year?, hof, hfirst]
    dsimp only
    rw [hof, Option.bind_eq_bind, Option.bind_some, Option.bind_some, after?]
  | @month ys ms hy hm =>
    have hone : IsDigits 2 ['0', '1'] := ⟨rfl, by simp [Number.isDigit]⟩
    have htext : ys ++ '-' :: ms ++ "-01".toList = ys ++ '-' :: (ms ++ '-' :: ['0', '1']) := by simp
    have hlength : (ys ++ '-' :: ms).length = 7 := by simp [hy.1, hm.1]
    have hchars : IsHyphenated (ys ++ '-' :: ms) := hy.isHyphenated.join hm.isHyphenated
    rw [Period.read?_hyphen (by simp) hchars, if_pos hlength, Period.month?, htext, Date.read?_fields hy hm hone]
    rfl
  | @day ys ms ds hy hm hd =>
    have hlength : (ys ++ '-' :: (ms ++ '-' :: ds)).length = 10 := by simp [hy.1, hm.1, hd.1]
    have hchars : IsHyphenated (ys ++ '-' :: (ms ++ '-' :: ds)) :=
      hy.isHyphenated.join (hm.isHyphenated.join hd.isHyphenated)
    rw [Period.read?_hyphen (by simp) hchars, if_neg (by omega), if_pos hlength, Period.day?,
      Date.read?_fields hy hm hd]
    rfl

theorem IsText.isCommon (h : IsText v s) (he : s.Exists) : s.first.IsCommon := by
  refine Date.isCommon_iff.2 ⟨?_, exists_iff.1 he⟩
  cases h with
  | year hy | month hy | day hy =>
    have hlt := hy.value_lt
    dsimp only [first]
    omega

theorem IsText.read?_of_exists (h : IsText v s) (he : s.Exists) : Period.read? v = some s.period := by
  have hcommon := h.isCommon he
  obtain ⟨next, hnext, hdays⟩ := after?_first hcommon
  rw [h.read?_eq, Date.of?, if_pos hcommon.1, Option.bind_some, hnext, Option.bind_some, Period.between, hdays,
    period]

theorem IsText.read?_of_not_exists (h : IsText v s) (he : ¬ s.Exists) : Period.read? v = none := by
  have hnone : Date.of? s.first.year s.first.month s.first.day = none :=
    Date.of?_eq_none fun hproper => he (exists_iff.2 hproper)
  rw [h.read?_eq, hnone, Option.bind_none]

theorem IsText.period_eq_of_read? (h : IsText v s) {p : Period} (hp : Period.read? v = some p) :
    s.Exists ∧ s.period = p := by
  by_cases he : s.Exists
  · rw [h.read?_of_exists he] at hp
    exact ⟨he, Option.some.inj hp⟩
  · rw [h.read?_of_not_exists he] at hp
    cases hp

end Span

theorem hyphen_append_inj {as bs cs ds : List Char} (h : as.length = cs.length) :
    as ++ '-' :: bs = cs ++ '-' :: ds ↔ as = cs ∧ bs = ds := by
  constructor
  · intro heq
    obtain ⟨hfront, hback⟩ := List.append_inj heq h
    exact ⟨hfront, (List.cons.inj hback).2⟩
  · rintro ⟨rfl, rfl⟩
    rfl

theorem isDigits_padded {w n : Nat} (h : (Number.padded w n).length = w) : IsDigits w (Number.padded w n) :=
  ⟨h, Number.isDigit_of_mem_padded⟩

theorem IsDigits.eq_padded_iff {w n : Nat} {ds : List Char} (h : IsDigits w ds)
    (hn : (Number.padded w n).length = w) : ds = Number.padded w n ↔ Number.ofDigits ds = n := by
  constructor
  · rintro rfl
    exact Number.ofDigits_padded w n
  · intro hvalue
    refine Number.ofDigits_inj h.2 Number.isDigit_of_mem_padded (h.1.trans hn.symm) ?_
    rw [hvalue, Number.ofDigits_padded]

section

variable {d : Date} {s : Span} {v : List Char}

theorem Date.IsCommon.take_year (h : d.IsCommon) : d.text.take 4 = Number.padded 4 d.year.toNat := by
  obtain ⟨hy, -, -⟩ := h.lengths
  rw [h.text_eq, List.take_left' hy]

theorem Date.IsCommon.take_month (h : d.IsCommon) :
    d.text.take 7 = Number.padded 4 d.year.toNat ++ '-' :: Number.padded 2 d.month := by
  obtain ⟨hy, hm, -⟩ := h.lengths
  rw [h.text_eq, ← List.cons_append, ← List.append_assoc, List.take_left' (by simp [hy, hm])]

theorem Span.IsText.prefix_iff (h : IsText v s) (hd : d.IsCommon) : v <+: d.text ↔ s.Has d := by
  obtain ⟨hy, hm, hday⟩ := hd.lengths
  have hyear : ((d.year.toNat : Nat) : Int) = d.year := Int.toNat_of_nonneg hd.2.1
  rw [List.prefix_iff_eq_take]
  cases h with
  | year hys =>
    rw [hys.1, hd.take_year, hys.eq_padded_iff hy, Has]
    omega
  | @month ys ms hys hms =>
    have hlength : (ys ++ '-' :: ms).length = 7 := by simp [hys.1, hms.1]
    rw [hlength, hd.take_month, hyphen_append_inj (hys.1.trans hy.symm), hys.eq_padded_iff hy,
      hms.eq_padded_iff hm, Has]
    omega
  | @day ys ms ds hys hms hds =>
    have hlength : (ys ++ '-' :: (ms ++ '-' :: ds)).length = d.text.length := by
      simp [hys.1, hms.1, hds.1, hd.length_text]
    rw [hlength, List.take_length, hd.text_eq, hyphen_append_inj (hys.1.trans hy.symm),
      hyphen_append_inj (hms.1.trans hm.symm), hys.eq_padded_iff hy, hms.eq_padded_iff hm, hds.eq_padded_iff hday, Has]
    omega

theorem Span.exists_of_has (hd : d.IsProper) (h : s.Has d) : s.Exists := by
  obtain ⟨hm, hday, hday'⟩ := hd
  cases s with
  | year => trivial
  | month =>
    obtain ⟨-, rfl⟩ := h
    exact hm
  | day y m n =>
    obtain ⟨hy, rfl, rfl⟩ := h
    exact ⟨hm, hday, hy ▸ hday'⟩

theorem Span.IsText.isCommon_of_has (h : IsText v s) (hd : d.IsProper) (hs : s.Has d) : d.IsCommon := by
  obtain ⟨⟨hlow, hhigh⟩, -⟩ := Date.isCommon_iff.1 (h.isCommon (exists_of_has hd hs))
  have hyear : d.year = s.first.year := by
    cases s with
    | year => exact hs
    | month | day => exact hs.1
  exact Date.isCommon_iff.2 ⟨by omega, hd⟩

end

def Period.Contains (p : Period) (n : Int) : Prop := p.first ≤ n ∧ n ≤ p.last

/-- `0000-01-01T00:00:00.000`. -/
def leastInstant : Int := -62167219200000

/-- `9999-12-31T23:59:59.999`. -/
def greatestInstant : Int := 253402300799999

theorem isCommonInstant_of_bounds {n : Int} (h : leastInstant ≤ n) (h' : n ≤ greatestInstant) :
    IsCommonInstant (Date.ofDays (n / millisPerDay)) n := by
  have hleast : yearOf (-719528) = 0 := by decide +kernel
  have hgreatest : yearOf 2932896 = 9999 := by decide +kernel
  unfold leastInstant at h
  unfold greatestInstant at h'
  have hlow := yearOf_le (show -719528 ≤ n / millisPerDay by unfold millisPerDay; omega)
  have hhigh := yearOf_le (show n / millisPerDay ≤ 2932896 by unfold millisPerDay; omega)
  refine ⟨Date.isCommon_iff.2 ⟨?_, Date.isProper_ofDays _⟩, ?_⟩
  · rw [(Date.ofDays_spec _).1]
    omega
  · rw [Date.toDays_ofDays]
    unfold millisPerDay
    omega

namespace Span

variable {s : Span} {v : List Char} {p : Period} {n : Int}

theorem contains_period_iff (he : s.Exists) : s.period.Contains n ↔ s.Has (Date.ofDays (n / millisPerDay)) := by
  rw [has_ofDays_iff he, Period.Contains, period]
  unfold millisPerDay
  dsimp only
  omega

theorem IsText.contains_iff (h : IsText v s) (hp : Period.read? v = some p) : p.Contains n ↔
    (Date.ofDays (n / millisPerDay)).IsCommon ∧ v <+: (Date.ofDays (n / millisPerDay)).text := by
  obtain ⟨he, rfl⟩ := h.period_eq_of_read? hp
  rw [contains_period_iff he]
  constructor
  · intro hs
    have hd := h.isCommon_of_has (Date.isProper_ofDays _) hs
    exact ⟨hd, (h.prefix_iff hd).2 hs⟩
  · exact fun ⟨hd, hprefix⟩ => (h.prefix_iff hd).1 hprefix

theorem has_first (s : Span) : s.Has s.first := by
  cases s with
  | year => rfl
  | month => exact ⟨rfl, rfl⟩
  | day => exact ⟨rfl, rfl, rfl⟩

theorem days_eq_of_period_eq {t : Span} (h : s.period = t.period) : s.days = t.days := by
  obtain ⟨hfirst, hlast⟩ := Period.mk.inj h
  unfold millisPerDay at hfirst hlast
  omega

theorem days_year_bound (y : Nat) : 365 ≤ (year y).days := by
  unfold days
  dsimp only
  split <;> omega

theorem isText_take_year {d : Date} (hd : d.IsCommon) : IsText (d.text.take 4) (year d.year.toNat) := by
  have htext := IsText.year (isDigits_padded hd.lengths.1)
  rwa [Number.ofDigits_padded, ← hd.take_year] at htext

theorem isText_take_month {d : Date} (hd : d.IsCommon) : IsText (d.text.take 7) (month d.year.toNat d.month) := by
  have htext := IsText.month (isDigits_padded hd.lengths.1) (isDigits_padded hd.lengths.2.1)
  rwa [Number.ofDigits_padded, Number.ofDigits_padded, ← hd.take_month] at htext

theorem isText_date {d : Date} (hd : d.IsCommon) : IsText d.text (day d.year.toNat d.month d.day) := by
  obtain ⟨hy, hm, hday⟩ := hd.lengths
  have htext := IsText.day (isDigits_padded hy) (isDigits_padded hm) (isDigits_padded hday)
  rwa [Number.ofDigits_padded, Number.ofDigits_padded, Number.ofDigits_padded, ← hd.text_eq] at htext

theorem IsText.read?_ne {w : List Char} {t : Span} (ht : IsText w t) (he : t.Exists) (h : s.days < t.days) :
    Period.read? w ≠ some s.period := by
  rw [ht.read?_of_exists he, Ne, Option.some.injEq]
  exact fun heq => Nat.ne_of_gt h (days_eq_of_period_eq heq)

theorem IsText.exactPeriod?_eq (h : IsText v s) (hp : Period.read? v = some p) :
    Compiled.exactPeriod? p.first p.last = some v := by
  obtain ⟨he, rfl⟩ := h.period_eq_of_read? hp
  have hd := h.isCommon he
  have hinstant : IsCommonInstant s.first s.period.first := by
    refine ⟨hd, Int.le_refl _, ?_⟩
    unfold period millisPerDay
    dsimp only
    omega
  let found (cs : List Char) : Bool := decide (Period.read? cs = some s.period)
  have hfound : found v = true := decide_eq_true (h.read?_of_exists he)
  have hv : s.first.text.take v.length = v := (List.prefix_iff_eq_take.1 ((h.prefix_iff hd).2 s.has_first)).symm
  have hyear : s.days < 365 → ¬ found (s.first.text.take 4) = true := fun hlt =>
    (decide_eq_true_iff ..).not.2 ((isText_take_year hd).read?_ne trivial (Nat.lt_of_lt_of_le hlt (days_year_bound _)))
  have hmonth : s.days < 28 → ¬ found (s.first.text.take 7) = true := fun hlt =>
    (decide_eq_true_iff ..).not.2 ((isText_take_month hd).read?_ne (Date.isCommon_iff.1 hd).2.1
      (Nat.lt_of_lt_of_le hlt (monthLength_bounds _ _).1))
  unfold Compiled.exactPeriod?
  rw [hinstant.dayOf?]
  change [s.first.text.take 4, s.first.text.take 7, s.first.text].find? found = some v
  cases h with
  | year hys =>
    rw [hys.1] at hv
    rw [hv]
    exact List.find?_cons_of_pos hfound
  | @month ys ms hys hms =>
    have hlength : (ys ++ '-' :: ms).length = 7 := by simp [hys.1, hms.1]
    have hshort := (monthLength_bounds (Number.ofDigits ys) (Number.ofDigits ms)).2
    rw [hlength] at hv
    rw [List.find?_cons_of_neg (hyear (Nat.lt_of_le_of_lt hshort (by decide))), hv]
    exact List.find?_cons_of_pos hfound
  | @day ys ms ds hys hms hds =>
    have hlength : (ys ++ '-' :: (ms ++ '-' :: ds)).length = 10 := by simp [hys.1, hms.1, hds.1]
    rw [hlength, ← hd.length_text, List.take_length] at hv
    rw [List.find?_cons_of_neg (hyear (show 1 < 365 by decide)),
      List.find?_cons_of_neg (hmonth (show 1 < 28 by decide)), hv]
    exact List.find?_cons_of_pos hfound

theorem IsText.part {ds : List Char} (h : IsText v s) (hv : v.length < 10) (hds : IsDigits 2 ds) :
    ∃ t, IsText (v ++ '-' :: ds) t := by
  cases h with
  | year hy => exact ⟨_, .month hy hds⟩
  | month hy hm =>
    rw [List.append_assoc, List.cons_append]
    exact ⟨_, .day hy hm hds⟩
  | day hy hm hd =>
    simp only [List.length_append, List.length_cons, hy.1, hm.1, hd.1] at hv
    omega

theorem IsText.exists_part {d : Date} (h : IsText v s) (hv : v.length < 10) (hd : d.IsCommon) (hp : v <+: d.text) :
    ∃ ds, IsDigits 2 ds ∧ v ++ '-' :: ds <+: d.text := by
  obtain ⟨-, hmonth, hday⟩ := hd.lengths
  have htake := List.prefix_iff_eq_take.1 hp
  cases h with
  | year hy =>
    rw [hy.1, hd.take_year] at htake
    refine ⟨_, isDigits_padded hmonth, ?_⟩
    rw [htake, ← hd.take_month]
    exact List.take_prefix 7 _
  | @month ys ms hy hm =>
    have hlength : (ys ++ '-' :: ms).length = 7 := by simp [hy.1, hm.1]
    rw [hlength, hd.take_month] at htake
    refine ⟨_, isDigits_padded hday, ?_⟩
    rw [htake, List.append_assoc, List.cons_append, ← hd.text_eq]
  | day hy hm hd =>
    simp only [List.length_append, List.length_cons, hy.1, hm.1, hd.1] at hv
    omega

end Span

/-- The texts that go on from `v` with two digits more divide the period: each of its instants is in the
period of one of them, these have no other instants, and none is empty or shares an instant with another. -/
structure Period.IsDivided (v : List Char) (p : Period) : Prop where
  covered : ∀ n, p.Contains n ↔
    ∃ ds q, IsDigits 2 ds ∧ Period.read? (v ++ '-' :: ds) = some q ∧ q.Contains n
  disjoint : ∀ ds ds' q q' n, IsDigits 2 ds → IsDigits 2 ds' → Period.read? (v ++ '-' :: ds) = some q →
    Period.read? (v ++ '-' :: ds') = some q' → q.Contains n → q'.Contains n → ds = ds'
  inhabited : ∀ ds q, IsDigits 2 ds → Period.read? (v ++ '-' :: ds) = some q → q.first ≤ q.last

namespace Span

variable {s : Span} {v : List Char} {p : Period}

theorem days_pos (he : s.Exists) : 0 < s.days := by
  have hfirst : s.Has (Date.ofDays s.first.toDays) := by
    rw [(exists_iff.1 he).ofDays_toDays]
    exact s.has_first
  have hspec := (has_ofDays_iff he).1 hfirst
  omega

theorem IsText.isDivided (h : IsText v s) (hv : v.length < 10) (hp : Period.read? v = some p) : p.IsDivided v where
  covered n := by
    rw [h.contains_iff hp]
    constructor
    · rintro ⟨hd, hprefix⟩
      obtain ⟨ds, hds, hpart⟩ := h.exists_part hv hd hprefix
      obtain ⟨t, ht⟩ := h.part hv hds
      have he := exists_of_has (Date.isProper_ofDays _) ((ht.prefix_iff hd).1 hpart)
      have hread := ht.read?_of_exists he
      exact ⟨ds, _, hds, hread, (ht.contains_iff hread).2 ⟨hd, hpart⟩⟩
    · rintro ⟨ds, q, hds, hread, hn⟩
      obtain ⟨t, ht⟩ := h.part hv hds
      obtain ⟨hd, hpart⟩ := (ht.contains_iff hread).1 hn
      exact ⟨hd, (List.prefix_append _ _).trans hpart⟩
  disjoint ds ds' q q' n hds hds' hread hread' hn hn' := by
    obtain ⟨t, ht⟩ := h.part hv hds
    obtain ⟨t', ht'⟩ := h.part hv hds'
    have hpart := ((ht.contains_iff hread).1 hn).2
    have hpart' := ((ht'.contains_iff hread').1 hn').2
    have hlength : (v ++ '-' :: ds).length = (v ++ '-' :: ds').length := by simp [hds.1, hds'.1]
    have heq := (List.prefix_of_prefix_length_le hpart hpart' (Nat.le_of_eq hlength)).eq_of_length hlength
    exact ((hyphen_append_inj rfl).1 heq).2
  inhabited ds q hds hread := by
    obtain ⟨t, ht⟩ := h.part hv hds
    obtain ⟨he, rfl⟩ := ht.period_eq_of_read? hread
    have hpos := days_pos he
    unfold period millisPerDay
    dsimp only
    omega

/-- Date texts follow the calendar. -/
theorem follows_calendar (h : IsText v s) : ((Period.read? v).isSome = true ↔ s.Exists) ∧
    ∀ p, Period.read? v = some p →
      (∀ n, leastInstant ≤ n → n ≤ greatestInstant →
        (p.Contains n ↔ ∃ d, dayOf? n = some d ∧ v <+: d.text)) ∧
      (v.length < 10 → p.IsDivided v) ∧
      Compiled.exactPeriod? p.first p.last = some v := by
  refine ⟨⟨fun hsome => ?_, fun he => ?_⟩, fun p hp => ⟨fun n hleast hgreatest => ?_, fun hv => ?_, ?_⟩⟩
  · obtain ⟨p, hp⟩ := Option.isSome_iff_exists.1 hsome
    exact (h.period_eq_of_read? hp).1
  · rw [h.read?_of_exists he]
    rfl
  · have hinstant := isCommonInstant_of_bounds hleast hgreatest
    simp [h.contains_iff hp, hinstant.dayOf?, hinstant.1]
  · exact h.isDivided hv hp
  · exact h.exactPeriod?_eq hp

theorem follows_calendar_february : IsText ['2', '0', '2', '4', '-', '0', '2'] (month 2024 2) ∧
    Period.read? ['2', '0', '2', '4', '-', '0', '2'] = some ⟨1706745600000, 1709251199999⟩ ∧
    (∀ n, leastInstant ≤ n → n ≤ greatestInstant → (Period.Contains ⟨1706745600000, 1709251199999⟩ n ↔
      ∃ d, dayOf? n = some d ∧ ['2', '0', '2', '4', '-', '0', '2'] <+: d.text)) ∧
    Period.IsDivided ['2', '0', '2', '4', '-', '0', '2'] ⟨1706745600000, 1709251199999⟩ ∧
    Compiled.exactPeriod? 1706745600000 1709251199999 = some ['2', '0', '2', '4', '-', '0', '2'] := by
  have hyear : IsDigits 4 ['2', '0', '2', '4'] := ⟨rfl, by simp [Number.isDigit]⟩
  have hmonth : IsDigits 2 ['0', '2'] := ⟨rfl, by simp [Number.isDigit]⟩
  have htext : IsText ['2', '0', '2', '4', '-', '0', '2'] (month 2024 2) := .month hyear hmonth
  have hread : Period.read? ['2', '0', '2', '4', '-', '0', '2'] = some ⟨1706745600000, 1709251199999⟩ := by
    decide +kernel
  obtain ⟨hinstants, hdivided, hexact⟩ := (follows_calendar htext).2 _ hread
  exact ⟨htext, hread, hinstants, hdivided (by decide), hexact⟩

end Span

end FilterQuery.Calendar
