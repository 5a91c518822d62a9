import FilterQuery.Proofs.Yaml.Scan

namespace FilterQuery.Yaml

open Glyph

def isWordChar (c : Char) : Bool := c.isAlphanum || c == '-' || c == '_'

theorem notMem_of_any (cs : List Char) {p : Char → Bool} {c : Char} (h : p c = true) (hcs : cs.any p = false) :
    c ∉ cs := by
  intro hc
  rw [List.any_eq_true.2 ⟨c, hc, h⟩] at hcs
  cases hcs

section

variable {c : Char} (h : isWordChar c = true)

include h

theorem isGap_of_isWordChar : isGap c = false := by
  have hc := notMem_of_any [' ', '\t', '\n', '\u2028', '\u2029'] h rfl
  simp_all [isGap, isBlank, isBreak]

theorem isBreak_of_isWordChar : isBreak c = false := (Bool.or_eq_false_iff.1 (isGap_of_isWordChar h)).2

theorem isFlowSign_of_isWordChar : isFlowSign c = false := by
  have hc := notMem_of_any [',', '[', ']', '\x7b', '\x7d'] h rfl
  simp_all [isFlowSign]

theorem startsToken_of_isWordChar : startsToken c = true := by
  have hc := notMem_of_any ['#', '\ufeff'] h rfl
  simp_all [startsToken, isGap_of_isWordChar h]

theorem endsPlain_of_isWordChar (inFlow : Bool) (least index line column : Nat) (gs : List Glyph) :
    endsPlain inFlow least .none (⟨c, index, line, column⟩ :: gs) = false := by
  have hc := notMem_of_any ['#', ':'] h rfl
  simp_all [endsPlain, Gap.crossesLine, Gap.none, isFlowSign_of_isWordChar h]

theorem readPlainFrom_cons (inFlow : Bool) (least index line column : Nat) (before : List Char) (gs : List Glyph) :
    readPlainFrom inFlow least .none before (⟨c, index, line, column⟩ :: gs) =
      readPlainFrom inFlow least .none (c :: before) gs := by
  have hc := notMem_of_any [':'] h rfl
  rw [readPlainFrom, if_neg (Bool.eq_false_iff.1 (isGap_of_isWordChar h)),
    if_neg (Bool.eq_false_iff.1 (endsPlain_of_isWordChar h ..))]
  simp_all

end

theorem isWordChar_of_isAlphanum {c : Char} (h : c.isAlphanum = true) : isWordChar c = true := by
  rw [isWordChar, h]
  rfl

inductive IsWord : List Char → Prop
  | bare {cs : List Char} (hne : cs ≠ []) (h : ∀ c ∈ cs, c.isAlphanum = true) : IsWord cs
  | minus {cs : List Char} (hne : cs ≠ []) (h : ∀ c ∈ cs, c.isAlphanum = true) : IsWord ('-' :: cs)

theorem IsWord.isWordChar {cs : List Char} (h : IsWord cs) : ∀ c ∈ cs, isWordChar c = true := by
  cases h with
  | bare _ h => exact fun c hc => isWordChar_of_isAlphanum (h c hc)
  | minus _ h => exact List.forall_mem_cons.2 ⟨rfl, fun c hc => isWordChar_of_isAlphanum (h c hc)⟩

theorem isInline_of_isWordChar {c : Char} (h : isWordChar c = true) : isInline c = true := by
  rw [isInline, isBreak_of_isWordChar h, Bool.not_false, Bool.and_true]
  delta isWordChar Char.isAlphanum Char.isAlpha Char.isUpper Char.isLower Char.isDigit at h
  simp only [Bool.or_eq_true, Bool.and_eq_true, decide_eq_true_eq, beq_iff_eq, ge_iff_le, UInt32.le_iff_toNat_le,
    Char.toNat_val] at h
  simp only [isPrintable, Bool.or_eq_true, Bool.and_eq_true, decide_eq_true_eq, beq_iff_eq]
  rcases h with (h | rfl) | rfl
  · have hbounds : '0'.toNat = 48 ∧ '9'.toNat = 57 ∧ 'A'.toNat = 65 ∧ 'Z'.toNat = 90 ∧ 'a'.toNat = 97 ∧
        'z'.toNat = 122 := by decide
    omega
  · decide
  · decide

theorem beginsPlain_of_isAlphanum {c : Char} (h : c.isAlphanum = true) (inFlow : Bool) (next : Option Char) :
    beginsPlain inFlow c next = true := by
  have hgap := isGap_of_isWordChar (isWordChar_of_isAlphanum h)
  have hflow := isFlowSign_of_isWordChar (isWordChar_of_isAlphanum h)
  have hc := notMem_of_any ['-', '?', ':', '#', '&', '*', '!', '|', '>', '\x27', '"', '%', '@', '\x60'] h rfl
  simp_all [beginsPlain, isIndicator]

theorem readPlainFrom_word {cs : List Char} (h : ∀ c ∈ cs, isWordChar c = true) (inFlow : Bool)
    (least index line column : Nat) (before ds : List Char) :
    readPlainFrom inFlow least .none before (listFrom index line column (cs ++ ds)) =
      readPlainFrom inFlow least .none (cs.reverse ++ before)
        (listFrom (index + cs.length) line (column + cs.length) ds) := by
  induction cs generalizing index column before with
  | nil => rfl
  | cons c cs ih =>
    obtain ⟨hc, hcs⟩ := List.forall_mem_cons.1 h
    rw [List.cons_append, listFrom_cons (isBreak_of_isWordChar hc), readPlainFrom_cons hc, ih hcs, List.reverse_cons,
      List.append_assoc, List.singleton_append, List.length_cons, Nat.add_right_comm index, Nat.add_right_comm column]
    rfl

theorem readPlain_word {cs : List Char} (h : ∀ c ∈ cs, isWordChar c = true) {d : Char} (hd : isFlowSign d = true)
    (least index line column : Nat) (ds : List Char) :
    readPlain true least (listFrom index line column (cs ++ d :: ds)) =
      some (cs, false, listFrom (index + cs.length) line (column + cs.length) (d :: ds)) := by
  have hgap : isGap d = false := by
    simp only [isFlowSign, Bool.or_eq_true, beq_iff_eq] at hd
    rcases hd with (((rfl | rfl) | rfl) | rfl) | rfl <;> rfl
  rw [readPlain, readPlainFrom_word h, listFrom_cons (Bool.or_eq_false_iff.1 hgap).2, readPlainFrom,
    if_neg (Bool.eq_false_iff.1 hgap), if_pos (by simp [endsPlain, hd]), List.append_nil, List.reverse_reverse]
  rfl

end FilterQuery.Yaml
