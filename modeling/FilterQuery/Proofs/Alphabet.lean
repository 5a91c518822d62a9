import FilterQuery.Number
import FilterQuery.Text.Alphabetic
import FilterQuery.Text.Ranges
import FilterQuery.Text.LowerCase
import Mathlib

namespace FilterQuery.Text

theorem Ranges.holds_of_mem {rs : Ranges} {r : Nat × Nat} {c : Char} (hr : r ∈ rs)
    (h : r.1 ≤ c.toNat ∧ c.toNat ≤ r.2) : rs.holds c = true :=
  List.any_eq_true.2 ⟨r, hr, by simpa using h⟩

theorem isLetter_of_isAlpha {c : Char} (h : c.isAlpha = true) : isLetter c = true := by
  rw [isLetter, Bool.or_eq_true]
  left
  simp only [Char.isAlpha, Char.isUpper, Char.isLower, Bool.or_eq_true, Bool.and_eq_true,
    decide_eq_true_eq] at h
  rcases h with h | h
  · exact Ranges.holds_of_mem (r := (0x41, 0x5A)) (List.Mem.head _) h
  · exact Ranges.holds_of_mem (r := (0x61, 0x7A)) (.tail _ (.head _)) h

theorem isNumber_of_isDigit {c : Char} (h : Number.isDigit c = true) : isNumber c = true := by
  simp only [Number.isDigit, Bool.and_eq_true, decide_eq_true_eq] at h
  exact Ranges.holds_of_mem (r := (0x30, 0x39)) (List.Mem.head _) h

theorem isAlphanumeric_of_isAlpha {c : Char} (h : c.isAlpha = true) : isAlphanumeric c = true :=
  isAlphanumeric_of_isLetter (isLetter_of_isAlpha h)

theorem isAlphanumeric_of_isDigit {c : Char} (h : Number.isDigit c = true) : isAlphanumeric c = true :=
  isAlphanumeric_of_isNumber (isNumber_of_isDigit h)

def alphanumericRanges : Ranges :=
  lowLetterRanges ++ highLetterRanges ++ wordMarkRanges ++ recentLetterRanges ++ numberRanges
    ++ recentNumberRanges

theorem isAlphanumeric_eq_holds (c : Char) : isAlphanumeric c = alphanumericRanges.holds c := by
  simp only [isAlphanumeric, isAlphabetic, isLetter, isNumber, alphanumericRanges, Ranges.holds_append]

theorem alphanumericRanges_valid :
    ∀ r ∈ alphanumericRanges, r.2 < 0xD800 ∨ 0xDFFF < r.1 ∧ r.2 < 0x110000 := by
  decide +kernel

theorem toNat_ofNat_of_mem {r : Nat × Nat} (hr : r ∈ alphanumericRanges) {n : Nat}
    (h : r.1 ≤ n ∧ n ≤ r.2) : (Char.ofNat n).toNat = n := by
  have hv : n.isValidChar := by
    rcases alphanumericRanges_valid r hr with hv | hv
    · left; omega
    · right; omega
  rw [Char.ofNat, dif_pos hv]
  rfl

theorem isAlphanumeric_ofNat {r : Nat × Nat} (hr : r ∈ alphanumericRanges) {n : Nat}
    (h : r.1 ≤ n ∧ n ≤ r.2) : isAlphanumeric (Char.ofNat n) = true := by
  rw [isAlphanumeric_eq_holds]
  exact Ranges.holds_of_mem hr ((toNat_ofNat_of_mem hr h).symm ▸ h)

theorem asciiRanges_eq : (alphanumericRanges.filter fun r => r.1.blt 128) =
    [(0x41, 0x5A), (0x61, 0x7A), (0x30, 0x39)] := by
  decide +kernel

theorem isAlphanumeric_ascii {c : Char} (h : c.toNat < 128) :
    isAlphanumeric c = (c.isAlpha || Number.isDigit c) := by
  cases hc : c.isAlpha || Number.isDigit c with
  | true =>
    rcases (Bool.or_eq_true ..).mp hc with hc | hc
    · exact isAlphanumeric_of_isAlpha hc
    · exact isAlphanumeric_of_isDigit hc
  | false =>
    rw [isAlphanumeric_eq_holds, Bool.eq_false_iff]
    intro hholds
    obtain ⟨r, hr, hle⟩ := List.any_eq_true.1 hholds
    simp only [Bool.and_eq_true, decide_eq_true_eq] at hle
    have hlow : r ∈ alphanumericRanges.filter fun r => r.1.blt 128 := by
      rw [List.mem_filter, Nat.blt_eq]
      exact ⟨hr, hle.1.trans_lt h⟩
    rw [asciiRanges_eq] at hlow
    refine Bool.eq_false_iff.1 hc ?_
    simp only [Char.isAlpha, Char.isUpper, Char.isLower, Number.isDigit, Bool.or_eq_true, Bool.and_eq_true,
      decide_eq_true_eq]
    simp only [List.mem_cons, List.not_mem_nil, or_false] at hlow
    rcases hlow with rfl | rfl | rfl
    · exact .inl (.inl hle)
    · exact .inl (.inr hle)
    · exact .inr hle

def CaseRun.codes (r : CaseRun) : List Nat :=
  (List.range ((r.last - r.first) / r.step + 1)).map (r.first + · * r.step)

def Ranges.spans (rs : Ranges) (a b : Nat) : Bool := rs.any fun s => s.1.ble a && b.ble s.2

def CaseRun.staysWithin (r : CaseRun) (rs : Ranges) : Bool :=
  rs.spans (r.first + r.shift).toNat (r.last + r.shift).toNat ||
    r.codes.all fun n => rs.spans (n + r.shift).toNat (n + r.shift).toNat

theorem caseRuns_staysWithin : ∀ r ∈ caseRuns, r.staysWithin alphanumericRanges = true := by
  decide +kernel

theorem CaseRun.mem_codes {r : CaseRun} {n : Nat} (h : r.holds n = true) : n ∈ r.codes := by
  simp only [CaseRun.holds, Bool.and_eq_true, decide_eq_true_eq, beq_iff_eq] at h
  obtain ⟨⟨h1, h2⟩, h3⟩ := h
  refine List.mem_map.2 ⟨(n - r.first) / r.step, ?_, ?_⟩
  · exact List.mem_range.2 (Nat.lt_succ_of_le (Nat.div_le_div_right (by omega)))
  · rw [Nat.div_mul_cancel (Nat.dvd_of_mod_eq_zero h3)]
    omega

theorem Ranges.exists_of_spans {rs : Ranges} {a b : Nat} (h : rs.spans a b = true) :
    ∃ s ∈ rs, s.1 ≤ a ∧ b ≤ s.2 := by
  obtain ⟨s, hs, hle⟩ := List.any_eq_true.1 h
  exact ⟨s, hs, by simpa [Nat.ble_eq] using hle⟩

theorem CaseRun.exists_range {r : CaseRun} {rs : Ranges} (hr : r.staysWithin rs = true) {n : Nat}
    (h : r.holds n = true) : ∃ s ∈ rs, s.1 ≤ (n + r.shift).toNat ∧ (n + r.shift).toNat ≤ s.2 := by
  rcases Bool.or_eq_true .. ▸ hr with hr | hr
  · obtain ⟨s, hs, hle⟩ := Ranges.exists_of_spans hr
    simp only [CaseRun.holds, Bool.and_eq_true, decide_eq_true_eq] at h
    exact ⟨s, hs, by omega, by omega⟩
  · exact Ranges.exists_of_spans (List.all_eq_true.1 hr n (mem_codes h))

def aboveDot : Char := '\u0307'

theorem isAlphanumeric_aboveDot : isAlphanumeric aboveDot = false := by decide +kernel

theorem lowerChar_eq (c : Char) : lowerChar c = [c] ∨
    ∃ d, isAlphanumeric d = true ∧ (lowerChar c = [d] ∨ lowerChar c = [d, aboveDot]) := by
  unfold lowerChar
  split
  · exact .inr ⟨'i', isAlphanumeric_of_isAlpha rfl, .inr rfl⟩
  · split
    · next r hf =>
      have hr := caseRuns_staysWithin r (List.mem_of_find?_eq_some hf)
      have hn : r.holds c.toNat = true := by simpa using List.find?_some hf
      obtain ⟨s, hs, hle⟩ := CaseRun.exists_range hr hn
      exact .inr ⟨_, isAlphanumeric_ofNat hs hle, .inl rfl⟩
    · exact .inl rfl

def lowerAt (before : List Char) (c : Char) (cs : List Char) : List Char :=
  if c = 'Σ' then [if meetsCased before && !meetsCased cs then 'ς' else 'σ'] else lowerChar c

theorem lowerFrom_cons (before : List Char) (c : Char) (cs : List Char) :
    lowerFrom before (c :: cs) = lowerAt before c cs ++ lowerFrom (c :: before) cs := rfl

theorem lowerAt_eq (before : List Char) (c : Char) (cs : List Char) : lowerAt before c cs = [c] ∨
    ∃ d, isAlphanumeric d = true ∧ (lowerAt before c cs = [d] ∨ lowerAt before c cs = [d, aboveDot]) := by
  unfold lowerAt
  split
  · refine .inr ⟨_, ?_, .inl rfl⟩
    split <;> decide +kernel
  · exact lowerChar_eq c

theorem blankRanges_apart : ∀ r ∈ blankRanges, ∀ s ∈ alphanumericRanges, r.2 < s.1 ∨ s.2 < r.1 := by
  have h : (blankRanges.all fun r => alphanumericRanges.all fun s => r.2.blt s.1 || s.2.blt r.1) = true := by
    decide +kernel
  simpa only [List.all_eq_true, Bool.or_eq_true, Nat.blt_eq] using h

theorem isBlank_of_isAlphanumeric {c : Char} (h : isAlphanumeric c = true) : isBlank c = false := by
  rw [isAlphanumeric_eq_holds] at h
  obtain ⟨s, hs, hc⟩ := List.any_eq_true.1 h
  cases hb : isBlank c with
  | false => rfl
  | true =>
    obtain ⟨r, hr, hc'⟩ := List.any_eq_true.1 hb
    have := blankRanges_apart r hr s hs
    simp only [Bool.and_eq_true, decide_eq_true_eq] at hc hc'
    omega

end FilterQuery.Text
