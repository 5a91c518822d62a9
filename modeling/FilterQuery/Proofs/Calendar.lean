import FilterQuery.Calendar
import FilterQuery.Proofs.Digits

namespace FilterQuery.Calendar

theorem yearStart_succ (y : Int) : yearStart (y + 1) = yearStart y + if isLeap y then 366 else 365 := by
  unfold yearStart isLeap
  split
  · next h =>
    simp only [Bool.and_eq_true, Bool.or_eq_true, beq_iff_eq, bne_iff_ne] at h
    omega
  · next h =>
    simp only [Bool.and_eq_true, Bool.or_eq_true, beq_iff_eq, bne_iff_ne, not_and, not_or] at h
    omega

theorem sum_monthLengths (y : Int) : ((monthLengths y).sum : Int) = yearStart (y + 1) - yearStart y := by
  rw [yearStart_succ]
  cases h : isLeap y with
  | true =>
    simp only [monthLengths, h, if_true, List.sum_cons, List.sum_nil]
    omega
  | false =>
    simp only [monthLengths, h, Bool.false_eq_true, if_false, List.sum_cons, List.sum_nil]
    omega

theorem yearStart_le {y z : Int} (h : y ≤ z) : yearStart y ≤ yearStart z := by
  unfold yearStart
  omega

theorem yearOf_spec (n : Int) : yearStart (yearOf n) ≤ n ∧ n < yearStart (yearOf n + 1) := by
  unfold yearOf
  dsimp only
  split
  · next h =>
    unfold yearStart at h ⊢
    omega
  · next h =>
    split
    · next h' =>
      unfold yearStart at h h' ⊢
      omega
    · omega

theorem yearOf_eq {n y : Int} (h : yearStart y ≤ n) (h' : n < yearStart (y + 1)) : yearOf n = y := by
  obtain ⟨hlow, hhigh⟩ := yearOf_spec n
  rcases Int.lt_trichotomy (yearOf n) y with hlt | heq | hlt
  · have := yearStart_le (show yearOf n + 1 ≤ y by omega)
    omega
  · exact heq
  · have := yearStart_le (show y + 1 ≤ yearOf n by omega)
    omega

theorem yearOf_le {m n : Int} (h : m ≤ n) : yearOf m ≤ yearOf n := by
  obtain ⟨hlow, -⟩ := yearOf_spec m
  obtain ⟨-, hhigh⟩ := yearOf_spec n
  refine Int.not_lt.1 fun hlt => ?_
  have := yearStart_le (show yearOf n + 1 ≤ yearOf m by omega)
  omega

theorem yearOf_succ_le (n : Int) : yearOf (n + 1) ≤ yearOf n + 1 := by
  obtain ⟨-, hhigh⟩ := yearOf_spec n
  obtain ⟨hlow, -⟩ := yearOf_spec (n + 1)
  have hstep := yearStart_succ (yearOf n + 1)
  refine Int.not_lt.1 fun hlt => ?_
  have := yearStart_le (show yearOf n + 1 + 1 ≤ yearOf (n + 1) by omega)
  split at hstep <;> omega

namespace Date

theorem foldl_add_eq_sum (ls : List Nat) : ls.foldl (· + ·) 0 = ls.sum := List.sum_eq_foldl.symm

theorem splitMonths_spec (month : Nat) {rest : Nat} {ls : List Nat} (h : rest < ls.sum) :
    ∃ k length, ls[k]? = some length ∧ (splitMonths month ls rest).1 = month + k ∧
      1 ≤ (splitMonths month ls rest).2 ∧ (splitMonths month ls rest).2 ≤ length ∧
      (ls.take k).sum + (splitMonths month ls rest).2 = rest + 1 := by
  induction ls generalizing month rest with
  | nil => simp at h
  | cons length ls ih =>
    rw [List.sum_cons] at h
    rw [splitMonths]
    split
    · exact ⟨0, length, rfl, rfl, by simp, by simpa, by simp⟩
    · obtain ⟨k, len, hk, h1, h2, h3, h4⟩ := ih (month + 1) (show rest - length < ls.sum by omega)
      refine ⟨k + 1, len, hk, by omega, h2, h3, ?_⟩
      rw [List.take_succ_cons, List.sum_cons]
      omega

theorem splitMonths_eq {month k d length : Nat} {ls : List Nat} (hk : ls[k]? = some length) (hd : 1 ≤ d)
    (hl : d ≤ length) : splitMonths month ls ((ls.take k).sum + d - 1) = (month + k, d) := by
  induction ls generalizing month k with
  | nil => cases hk
  | cons len ls ih =>
    cases k with
    | zero =>
      cases hk
      rw [List.take_zero, List.sum_nil, splitMonths, if_pos (by omega)]
      congr 1
      omega
    | succ k =>
      have hrest : len + (ls.take k).sum + d - 1 - len = (ls.take k).sum + d - 1 := by omega
      rw [List.take_succ_cons, List.sum_cons, splitMonths, if_neg (by omega), hrest, ih hk]
      congr 1
      omega

theorem exists?_iff {d : Date} : d.exists? = true ↔ (leastYear ≤ d.year ∧ d.year ≤ greatestYear) ∧
    ∃ k length, d.month = k + 1 ∧ (monthLengths d.year)[k]? = some length ∧ 1 ≤ d.day ∧ d.day ≤ length := by
  unfold exists?
  cases hm : d.month with
  | zero => simp
  | succ k =>
    cases hl : (monthLengths d.year)[k]? with
    | none => simp [hl]
    | some length => simp [hl]

theorem toDays_eq {d : Date} {k : Nat} (hm : d.month = k + 1) :
    d.toDays = yearStart d.year + ((monthLengths d.year).take k).sum + d.day - 1 := by
  rw [toDays, foldl_add_eq_sum, hm, Nat.add_sub_cancel]

theorem sum_take_add_le {k length : Nat} {ls : List Nat} (hk : ls[k]? = some length) :
    (ls.take k).sum + length ≤ ls.sum := by
  induction ls generalizing k with
  | nil => cases hk
  | cons len ls ih =>
    cases k with
    | zero =>
      cases hk
      simp
    | succ k =>
      have := ih (k := k) hk
      rw [List.take_succ_cons, List.sum_cons, List.sum_cons]
      omega

theorem ofDays_spec (n : Int) : (ofDays n).year = yearOf n ∧ (ofDays n).toDays = n ∧
    ∃ k length, (ofDays n).month = k + 1 ∧ (monthLengths (ofDays n).year)[k]? = some length ∧
      1 ≤ (ofDays n).day ∧ (ofDays n).day ≤ length := by
  obtain ⟨hlow, hhigh⟩ := yearOf_spec n
  have hsum := sum_monthLengths (yearOf n)
  have hrest : (n - yearStart (yearOf n)).toNat < (monthLengths (yearOf n)).sum := by omega
  obtain ⟨k, length, hk, hmonth, hpos, hle, hdays⟩ := splitMonths_spec 1 hrest
  have hm : (ofDays n).month = k + 1 := by
    rw [← Nat.add_comm 1 k]
    exact hmonth
  refine ⟨rfl, ?_, k, length, hm, hk, hpos, hle⟩
  rw [toDays_eq hm]
  change yearStart (yearOf n) + ((monthLengths (yearOf n)).take k).sum +
    ((splitMonths 1 (monthLengths (yearOf n)) (n - yearStart (yearOf n)).toNat).2 : Int) - 1 = n
  omega

theorem toDays_ofDays (n : Int) : (ofDays n).toDays = n := (ofDays_spec n).2.1

theorem ofDays_eq {d : Date} {k length : Nat} (hm : d.month = k + 1)
    (hk : (monthLengths d.year)[k]? = some length) (hpos : 1 ≤ d.day) (hle : d.day ≤ length) :
    ofDays d.toDays = d := by
  have hsum := sum_monthLengths d.year
  have htake := sum_take_add_le hk
  have hdays := toDays_eq hm
  have hyear : yearOf d.toDays = d.year := yearOf_eq (by omega) (by omega)
  have hrest : (d.toDays - yearStart d.year).toNat = ((monthLengths d.year).take k).sum + d.day - 1 := by omega
  rw [ofDays, hyear, hrest, splitMonths_eq hk hpos hle]
  cases d with
  | mk year month day =>
    cases hm
    simp [Nat.add_comm]

theorem ofDays_toDays {d : Date} (h : d.exists? = true) : ofDays d.toDays = d := by
  obtain ⟨-, k, length, hm, hk, hpos, hle⟩ := exists?_iff.1 h
  exact ofDays_eq hm hk hpos hle

theorem exists?_ofDays {n : Int} (h : leastYear ≤ yearOf n) (h' : yearOf n ≤ greatestYear) :
    (ofDays n).exists? = true :=
  exists?_iff.2 ⟨⟨h, h'⟩, (ofDays_spec n).2.2⟩

section

variable {ds rest : List Char}

theorem isDigit_of_eq {c : Char} {cs : List Char} (hne : ds ≠ []) (h : ∀ c ∈ ds, Number.isDigit c = true)
    (heq : ds ++ rest = c :: cs) : Number.isDigit c = true := by
  cases ds with
  | nil => exact absurd rfl hne
  | cons d ds =>
    cases heq
    exact h c List.mem_cons_self

theorem trimStart_digits (hne : ds ≠ []) (h : ∀ c ∈ ds, Number.isDigit c = true) :
    Text.trimStart (ds ++ rest) = ds ++ rest := by
  cases ds with
  | nil => exact absurd rfl hne
  | cons c ds =>
    have hc := Token.isBlank_of_startsWord (Token.startsWord_of_isDigit (h c List.mem_cons_self))
    simp [Text.trimStart, hc]

theorem field?_digits {w : Nat} (hne : ds ≠ []) (h : ∀ c ∈ ds, Number.isDigit c = true) (hw : ds.length = w) :
    field? w (ds ++ rest) = some (Number.ofDigits ds, rest) := by
  simp [field?, trimStart_digits hne h, ← hw, (Number.span_digits h).1, hne]

theorem year?_digits (hne : ds ≠ []) (h : ∀ c ∈ ds, Number.isDigit c = true) (hw : ds.length = 4) :
    year? (ds ++ rest) = some ((Number.ofDigits ds : Int), rest) := by
  unfold year?
  rw [trimStart_digits hne h]
  split
  · next heq =>
    cases isDigit_of_eq hne h heq
  · next heq =>
    cases isDigit_of_eq hne h heq
  · rw [field?_digits hne h hw]
    rfl

end

def IsCommon (d : Date) : Prop := d.exists? = true ∧ 0 ≤ d.year ∧ d.year ≤ 9999

section

variable {d : Date}

theorem IsCommon.month_day (h : d.IsCommon) : d.month ≤ 12 ∧ d.day ≤ 31 := by
  obtain ⟨-, k, length, hm, hk, -, hle⟩ := exists?_iff.1 h.1
  obtain ⟨hlt, hget⟩ := List.getElem?_eq_some_iff.1 hk
  have hlength : ∀ l ∈ monthLengths d.year, l ≤ 31 := by
    cases hleap : isLeap d.year <;> simp [monthLengths, hleap]
  have hl := hlength length (hget ▸ List.getElem_mem hlt)
  simp only [monthLengths, List.length_cons, List.length_nil] at hlt
  omega

theorem IsCommon.text_eq (h : d.IsCommon) : d.text =
    Number.padded 4 d.year.toNat ++ '-' :: (Number.padded 2 d.month ++ '-' :: Number.padded 2 d.day) := by
  obtain ⟨-, hlow, hhigh⟩ := h
  obtain ⟨y, hy⟩ := Int.eq_ofNat_of_zero_le hlow
  rw [text, if_neg (by omega), if_neg (by omega), hy, List.append_assoc]
  rfl

theorem IsCommon.lengths (h : d.IsCommon) : (Number.padded 4 d.year.toNat).length = 4 ∧
    (Number.padded 2 d.month).length = 2 ∧ (Number.padded 2 d.day).length = 2 := by
  obtain ⟨hm, hd⟩ := h.month_day
  obtain ⟨-, hlow, hhigh⟩ := h
  exact ⟨Number.length_padded_of_lt (by omega) (by omega), Number.length_padded_of_lt (by omega) (by omega),
    Number.length_padded_of_lt (by omega) (by omega)⟩

theorem ne_nil_of_length {cs : List Char} {n : Nat} (h : cs.length = n + 1) : cs ≠ [] := by
  rintro rfl
  cases h

theorem IsCommon.read?_text (h : d.IsCommon) : read? d.text = some d := by
  obtain ⟨hy, hm, hd⟩ := h.lengths
  have hyear : ((d.year.toNat : Nat) : Int) = d.year := Int.toNat_of_nonneg h.2.1
  have hday : field? 2 (Number.padded 2 d.day ++ []) = _ :=
    field?_digits (ne_nil_of_length hd) Number.isDigit_of_mem_padded hd
  rw [List.append_nil] at hday
  rw [h.text_eq, read?, year?_digits (ne_nil_of_length hy) Number.isDigit_of_mem_padded hy]
  simp [hyphen?, field?_digits (ne_nil_of_length hm) Number.isDigit_of_mem_padded hm, hday, hyear, of?, h.1]

theorem IsCommon.dayAfter? (h : d.IsCommon) : ∃ next, d.dayAfter? = some next ∧ next.toDays = d.toDays + 1 := by
  have hyear := (ofDays_spec d.toDays).1
  rw [ofDays_toDays h.1] at hyear
  obtain ⟨-, hy, hy'⟩ := h
  have hge := yearOf_le (show d.toDays ≤ d.toDays + 1 by omega)
  have hle := yearOf_succ_le d.toDays
  have hexists : (ofDays (d.toDays + 1)).exists? = true := by
    refine exists?_ofDays ?_ ?_
    · unfold leastYear
      omega
    · unfold greatestYear
      omega
  refine ⟨ofDays (d.toDays + 1), ?_, toDays_ofDays _⟩
  rw [Date.dayAfter?]
  simp only [hexists, if_true]

end

end Date

def isDateChar (c : Char) : Bool := Number.isDigit c || c == '-' || c == '+'

theorem utf8Length_eq {cs : List Char} (h : ∀ c ∈ cs, isDateChar c = true) : Period.utf8Length cs = cs.length := by
  have hsize : ∀ c, isDateChar c = true → c.utf8Size = 1 := by
    intro c hc
    simp only [isDateChar, Bool.or_eq_true, beq_iff_eq, Number.isDigit_iff] at hc
    rcases hc with (⟨-, hc⟩ | rfl) | rfl
    · have hle : c.val ≤ 0x7F := UInt32.le_trans hc (by decide)
      simp [Char.utf8Size, hle]
    · rfl
    · rfl
  have hfold : ∀ n, cs.foldl (fun n c => n + c.utf8Size) n = n + cs.length := by
    induction cs with
    | nil => simp
    | cons c cs ih =>
      intro n
      rw [List.foldl_cons, hsize c (h c List.mem_cons_self), ih fun d hd => h d (List.mem_cons_of_mem c hd),
        List.length_cons]
      omega
  rw [Period.utf8Length, hfold, Nat.zero_add]

def IsHyphenated (cs : List Char) : Prop := ∀ c ∈ cs, Number.isDigit c = true ∨ c = '-'

section

variable {cs ds : List Char}

theorem isHyphenated_of_isDigit (h : ∀ c ∈ cs, Number.isDigit c = true) : IsHyphenated cs := fun c hc => .inl (h c hc)

theorem IsHyphenated.join (h : IsHyphenated cs) (h' : IsHyphenated ds) : IsHyphenated (cs ++ '-' :: ds) := by
  intro c hc
  rcases List.mem_append.1 hc with hc | hc
  · exact h c hc
  · rcases List.mem_cons.1 hc with rfl | hc
    · exact .inr rfl
    · exact h' c hc

end

namespace Date

variable {d : Date}

theorem IsCommon.isHyphenated_text (h : d.IsCommon) : IsHyphenated d.text := by
  have hpadded : ∀ {w n : Nat}, IsHyphenated (Number.padded w n) := isHyphenated_of_isDigit Number.isDigit_of_mem_padded
  rw [h.text_eq]
  exact hpadded.join (hpadded.join hpadded)

theorem IsCommon.length_text (h : d.IsCommon) : d.text.length = 10 := by
  obtain ⟨hy, hm, hd⟩ := h.lengths
  rw [h.text_eq, List.length_append, List.length_cons, List.length_append, List.length_cons, hy, hm, hd]

theorem IsCommon.period (h : d.IsCommon) : Period.read? d.text =
    some ⟨d.toDays * millisPerDay, (d.toDays + 1) * millisPerDay - 1⟩ := by
  obtain ⟨next, hnext, hdays⟩ := h.dayAfter?
  have hall : d.text.all Number.isDigit = false := by
    rw [List.all_eq_false]
    refine ⟨'-', ?_, by decide⟩
    rw [h.text_eq]
    simp
  have hlength : Period.utf8Length d.text = 10 := by
    rw [utf8Length_eq, h.length_text]
    intro c hc
    rcases h.isHyphenated_text c hc with hd | rfl
    · simp [isDateChar, hd]
    · rfl
  rw [Period.read?, hall, hlength]
  simp [Period.day?, h.read?_text, hnext, Period.between, hdays]

theorem text_of_lt (h : 9999 < d.year) : ∃ ys, 5 ≤ ys.length ∧ (∀ c ∈ ys, Number.isDigit c = true) ∧
    d.text = '+' :: (ys ++ '-' :: (Number.padded 2 d.month ++ '-' :: Number.padded 2 d.day)) := by
  obtain ⟨y, hy⟩ := Int.eq_ofNat_of_zero_le (show 0 ≤ d.year by omega)
  refine ⟨Number.padded 4 y, ?_, Number.isDigit_of_mem_padded, ?_⟩
  · have hlen : ¬ (Number.digits y).length ≤ 4 := fun hle => by
      have := (Nat.length_toDigits_le_iff (by decide) (by decide)).1 hle
      omega
    rw [Number.length_padded]
    omega
  · rw [text, if_pos h, hy]
    change ('+' :: Number.padded 4 y ++ '-' :: Number.padded 2 d.month) ++ '-' :: Number.padded 2 d.day = _
    simp

theorem le_length_text_of_lt (h : 9999 < d.year) : 12 ≤ d.text.length := by
  obtain ⟨ys, hlen, -, htext⟩ := text_of_lt h
  have hmonth := Number.le_length_padded 2 d.month
  have hday := Number.le_length_padded 2 d.day
  rw [htext]
  simp only [List.length_cons, List.length_append]
  omega

theorem year?_plus {ds rest : List Char} (hne : ds ≠ []) (h : ∀ c ∈ ds, Number.isDigit c = true)
    (hr : ∀ c, rest.head? = some c → Number.isDigit c = false) :
    year? ('+' :: (ds ++ rest)) = some ((Number.ofDigits ds : Int), rest) := by
  obtain ⟨htake, -⟩ := Token.span_append h hr
  have hblank : Text.isBlank '+' = false := by decide +kernel
  simp [year?, Text.trimStart, hblank, htake, Number.digits?_eq_some hne h]

theorem month?_text_of_lt (h : 9999 < d.year) : Period.month? (d.text.take 7) = none := by
  obtain ⟨ys, hlen, hys, htext⟩ := text_of_lt h
  have hread : read? (d.text.take 7 ++ "-01".toList) = none := by
    by_cases h5 : ys.length = 5
    · -- the hyphen behind the year is followed by that of the first day
      have htake : d.text.take 7 ++ "-01".toList = '+' :: (ys ++ ['-', '-', '0', '1']) := by
        have hrest : ∀ tail, (ys ++ '-' :: tail).take 6 = ys ++ ['-'] := fun tail => by
          rw [List.take_append, h5, List.take_of_length_le (by omega)]
          rfl
        rw [htext, List.take_succ_cons, hrest]
        simp
      have hhead : ∀ c, (['-', '-', '0', '1'] : List Char).head? = some c → Number.isDigit c = false := by
        rintro c ⟨⟩
        decide
      rw [read?, htake, year?_plus (fun hnil => by simp [hnil] at hlen) hys hhead]
      have hfield : field? 2 ['-', '0', '1'] = none := by decide +kernel
      simp [hyphen?, hfield]
    · -- the year fills the seven characters
      have htake : d.text.take 7 ++ "-01".toList = '+' :: (ys.take 6 ++ ['-', '0', '1']) := by
        rw [htext, List.take_succ_cons, List.take_append_of_le_length (by omega)]
        simp
      have hhead : ∀ c, (['-', '0', '1'] : List Char).head? = some c → Number.isDigit c = false := by
        rintro c ⟨⟩
        decide
      have hne : ys.take 6 ≠ [] := fun hnil => by
        rw [List.take_eq_nil_iff] at hnil
        rcases hnil with hnil | rfl
        · cases hnil
        · cases hlen
      rw [read?, htake, year?_plus hne (fun c hc => hys c (List.mem_of_mem_take hc)) hhead]
      have hfield : field? 2 ['0', '1'] = some (1, []) := by decide +kernel
      simp [hyphen?, hfield]
  rw [Period.month?, hread]
  rfl

end Date

namespace Period

theorem read?_of_not_digit {cs : List Char} {c : Char} (hc : c ∈ cs) (hd : Number.isDigit c = false) :
    read? cs = if utf8Length cs = 7 then month? cs else if utf8Length cs = 10 then day? cs else none := by
  have hall : cs.all Number.isDigit = false := List.all_eq_false.2 ⟨c, hc, by simp [hd]⟩
  rw [read?, hall]
  rfl

theorem read?_take_text_of_lt {d : Date} (h : 9999 < d.year) {k : Nat} (hk : k + 1 ≠ 10) :
    read? (d.text.take (k + 1)) = none := by
  obtain ⟨ys, -, hys, htext⟩ := Date.text_of_lt h
  have hchars : ∀ c ∈ d.text, isDateChar c = true := by
    intro c hc
    rw [htext] at hc
    simp only [List.mem_cons, List.mem_append] at hc
    rcases hc with rfl | hc | rfl | hc | rfl | hc
    · rfl
    · simp [isDateChar, hys c hc]
    · rfl
    · simp [isDateChar, Number.isDigit_of_mem_padded c hc]
    · rfl
    · simp [isDateChar, Number.isDigit_of_mem_padded c hc]
  have hlength := Date.le_length_text_of_lt h
  have hplus : '+' ∈ d.text.take (k + 1) := by
    rw [htext, List.take_succ_cons]
    exact List.mem_cons_self
  rw [read?_of_not_digit hplus (by decide), utf8Length_eq fun c hc => hchars c (List.mem_of_mem_take hc),
    List.length_take]
  split
  · next h7 =>
    have hk6 : k = 6 := by omega
    rw [hk6]
    exact Date.month?_text_of_lt h
  · rw [if_neg (by omega)]

theorem read?_text_of_lt {d : Date} (h : 9999 < d.year) : read? d.text = none := by
  have hlength := Date.le_length_text_of_lt h
  have hsucc : d.text.length = (d.text.length - 1) + 1 := by omega
  rw [← List.take_length (l := d.text), hsucc]
  exact read?_take_text_of_lt h (by omega)

theorem read?_padded {n : Nat} (h : Number.fitsInt n = true) : read? (Number.padded 5 n) = some ⟨n, n⟩ := by
  have hall : (Number.padded 5 n).all Number.isDigit = true := List.all_eq_true.2 Number.isDigit_of_mem_padded
  have hlen := Number.le_length_padded 5 n
  have hlt : 4 < (Number.padded 5 n).length := by omega
  simp [read?, hall, hlt, instant?, h]

end Period

namespace Date

variable {d : Date}

theorem IsCommon.text_cons (h : d.IsCommon) :
    ∃ c cs, d.text = c :: cs ∧ Number.isDigit c = true ∧ IsHyphenated cs := by
  have hmem := h.isHyphenated_text
  have hy := h.lengths.1
  have hdigits := Number.isDigit_of_mem_padded (w := 4) (n := d.year.toNat)
  rw [h.text_eq] at hmem ⊢
  cases hp : Number.padded 4 d.year.toNat with
  | nil =>
    rw [hp] at hy
    cases hy
  | cons c cs =>
    rw [hp] at hmem hdigits
    exact ⟨c, _, rfl, hdigits c List.mem_cons_self, fun e he => hmem e (List.mem_cons_of_mem c he)⟩

theorem IsCommon.take_text (h : d.IsCommon) (k : Nat) : Token.IsWord (d.text.take (k + 1)) ∧
    '*' ∉ d.text.take (k + 1) := by
  obtain ⟨c, cs, htext, hc, hcs⟩ := h.text_cons
  have htake : d.text.take (k + 1) = c :: cs.take k := by rw [htext, List.take_succ_cons]
  constructor
  · rw [htake]
    exact Token.isWord_of_digits hc fun e he => hcs e (List.mem_of_mem_take he)
  · intro hm
    rcases h.isHyphenated_text '*' (List.mem_of_mem_take hm) with hd | hd <;> cases hd

theorem IsCommon.isWord_text (h : d.IsCommon) : Token.IsWord d.text ∧ '*' ∉ d.text := by
  have htake := h.take_text 9
  rwa [List.take_of_length_le (Nat.le_of_eq h.length_text)] at htake

end Date

def IsCommonInstant (d : Date) (n : Int) : Prop :=
  d.IsCommon ∧ d.toDays * millisPerDay ≤ n ∧ n < (d.toDays + 1) * millisPerDay

theorem IsCommonInstant.dayOf? {d : Date} {n : Int} (h : IsCommonInstant d n) : dayOf? n = some d := by
  obtain ⟨hd, hlow, hhigh⟩ := h
  have hday : n / millisPerDay = d.toDays := by
    unfold millisPerDay at *
    omega
  rw [Calendar.dayOf?, hday, Date.ofDays_toDays hd.1]
  simp [hd.1]

theorem isCommon_of_dayOf? {n : Int} {d : Date} (h : dayOf? n = some d)
    (hn : 0 ≤ n ∨ ∃ d', IsCommonInstant d' n) : 9999 < d.year ∨ d.IsCommon := by
  rcases hn with hn | ⟨d', hd'⟩
  · have hd : d = Date.ofDays (n / millisPerDay) ∧ d.exists? = true := by
      unfold dayOf? at h
      dsimp only at h
      split at h
      · cases h
        exact ⟨rfl, ‹_›⟩
      · cases h
    have hyear : yearOf 0 ≤ d.year := by
      rw [hd.1, (Date.ofDays_spec _).1]
      refine yearOf_le ?_
      unfold millisPerDay
      omega
    have hepoch : yearOf 0 = 1970 := by decide +kernel
    by_cases hy : d.year ≤ 9999
    · exact .inr ⟨hd.2, by omega, hy⟩
    · exact .inl (by omega)
  · rw [hd'.dayOf?] at h
    cases h
    exact .inr hd'.1

end FilterQuery.Calendar
