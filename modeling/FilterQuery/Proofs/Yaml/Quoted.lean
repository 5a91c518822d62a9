import FilterQuery.Yaml.Scalar
import Mathlib.Tactic.IntervalCases

namespace FilterQuery.Yaml

namespace Glyph

variable {index line column : Nat} {cs ds : List Char}

theorem length_listFrom (index line column : Nat) (cs : List Char) :
    (listFrom index line column cs).length = cs.length := by
  rw [← List.length_map char, map_char_listFrom]

theorem length_listFrom_le {index' line' column' : Nat} (h : ds <:+ cs) :
    (listFrom index' line' column' ds).length ≤ (listFrom index line column cs).length := by
  rw [length_listFrom, length_listFrom]
  exact h.length_le

theorem listFrom_cons {c : Char} (h : isBreak c = false) (cs : List Char) : listFrom index line column (c :: cs) =
    ⟨c, index, line, column⟩ :: listFrom (index + 1) line (column + 1) cs := by
  rw [listFrom, if_neg (Bool.eq_false_iff.1 h)]

theorem listFrom_append (h : ∀ c ∈ cs, isBreak c = false) (ds : List Char) :
    listFrom index line column (cs ++ ds) =
      listFrom index line column cs ++ listFrom (index + cs.length) line (column + cs.length) ds := by
  induction cs generalizing index column with
  | nil => rfl
  | cons c cs ih =>
    obtain ⟨hc, hcs⟩ := List.forall_mem_cons.1 h
    rw [List.cons_append, listFrom_cons hc, listFrom_cons hc, ih hcs, List.cons_append, List.length_cons,
      Nat.add_right_comm index, Nat.add_right_comm column]
    rfl

theorem chars_take_listFrom {n : Nat} (hn : cs.length = n) (ds : List Char) :
    chars ((listFrom index line column (cs ++ ds)).take n) = cs := by
  rw [chars, List.map_take, map_char_listFrom, List.take_left' hn]

theorem drop_listFrom {n : Nat} (hn : cs.length = n) (h : ∀ c ∈ cs, isBreak c = false) (ds : List Char) :
    (listFrom index line column (cs ++ ds)).drop n = listFrom (index + n) line (column + n) ds := by
  rw [listFrom_append h, List.drop_left' ((length_listFrom ..).trans hn), hn]

section

variable {c : Char} (h : column ≠ 0)

include h

theorem isRule_of_column (sign : Char) (gs : List Glyph) : isRule sign (⟨c, index, line, column⟩ :: gs) = false := by
  rcases gs with _ | ⟨b, _ | ⟨d, gs⟩⟩
  · rfl
  · rfl
  · simp [isRule, h]

theorem isMarker_of_column (gs : List Glyph) : isMarker (⟨c, index, line, column⟩ :: gs) = false := by
  rw [isMarker, isRule_of_column h, isRule_of_column h, Bool.or_false]

end

end Glyph

theorem hexDigit?_digitChar {n : Nat} (h : n < 16) : hexDigit? (Nat.digitChar n).toUpper = some n := by
  interval_cases n <;> rfl

def isInline (c : Char) : Bool := isPrintable c && !isBreak c

theorem isBreak_of_isInline {c : Char} (h : isInline c = true) : isBreak c = false :=
  Bool.not_eq_true' _ ▸ (Bool.and_eq_true_iff.1 h).2

theorem isInline_digitChar {n : Nat} (h : n < 16) : isInline (Nat.digitChar n).toUpper = true := by
  interval_cases n <;> rfl

theorem length_hexDigits (n width : Nat) : (hexDigits n width).length = width := by
  induction width generalizing n with
  | zero => rfl
  | succ width ih => rw [hexDigits, List.length_append, ih, List.length_singleton]

theorem isInline_of_mem_hexDigits {n width : Nat} : ∀ c ∈ hexDigits n width, isInline c = true := by
  induction width generalizing n with
  | zero => exact nofun
  | succ width ih =>
    intro c hc
    rcases List.mem_append.1 hc with hc | hc
    · exact ih c hc
    · rw [List.mem_singleton.1 hc]
      exact isInline_digitChar (Nat.mod_lt n (by decide))

theorem foldlM_hexDigits (n width : Nat) :
    (hexDigits n width).foldlM (fun n d => (hexDigit? d).map (16 * n + ·)) 0 = some (n % 16 ^ width) := by
  induction width generalizing n with
  | zero => rw [Nat.pow_zero, Nat.mod_one]; rfl
  | succ width ih =>
    have hdigit : 16 * (n / 16 % 16 ^ width) + n % 16 = n % 16 ^ (width + 1) := by
      rw [Nat.pow_succ, Nat.mul_comm (16 ^ width), Nat.mod_mul]
      omega
    rw [hexDigits, List.foldlM_append, ih, Option.bind_eq_bind, Option.bind_some, List.foldlM_cons,
      hexDigit?_digitChar (Nat.mod_lt n (by decide)), ← hdigit]
    rfl

theorem hexChar?_hexDigits {c : Char} {width : Nat} (h : c.toNat < 16 ^ width) :
    hexChar? width (hexDigits c.toNat width) = some c := by
  have hvalid : c.toNat.isValidChar := c.valid
  rw [hexChar?, foldlM_hexDigits, Nat.mod_eq_of_lt h, length_hexDigits]
  simp [hvalid]

theorem unescape?_of_mem {p : Char × Char} (h : p ∈ escapes) :
    (escapeLetter? p.2).all (fun e => isInline e && escapeWidth? e == none && unescape? e == some p.2) = true := by
  revert p
  decide +kernel

theorem unescape?_of_escapeLetter? {c e : Char} (h : escapeLetter? c = some e) :
    isInline e = true ∧ escapeWidth? e = none ∧ unescape? e = some c := by
  obtain ⟨p, hp, -⟩ := Option.map_eq_some_iff.1 h
  have hc : p.2 = c := by simpa using List.find?_some hp
  have hall := unescape?_of_mem (List.mem_of_find?_eq_some hp)
  rw [hc, h] at hall
  simpa [and_assoc] using hall

theorem isInline_of_escapeWidth? {e : Char} {width : Nat} (h : escapeWidth? e = some width) : isInline e = true := by
  unfold escapeWidth? at h
  split at h
  · next he => rw [he]; rfl
  · split at h
    · next he => rw [he]; rfl
    · split at h
      · next he => rw [he]; rfl
      · cases h

inductive Escaped (c : Char) : List Char → Prop
  | letter {e : Char} (h : escapeLetter? c = some e) : Escaped c ['\\', e]
  | digits {e : Char} {width : Nat} (hw : escapeWidth? e = some width) (hc : c.toNat < 16 ^ width) :
    Escaped c ('\\' :: e :: hexDigits c.toNat width)

theorem escaped_escape (c : Char) : Escaped c (escape c) := by
  unfold escape
  cases he : escapeLetter? c with
  | some e => exact .letter he
  | none =>
    have hvalid : c.toNat < 0x110000 := by
      rcases c.valid with h | h
      · exact Nat.lt_trans h (by decide)
      · exact h.2
    dsimp only
    split
    · exact .digits rfl (by omega)
    · split
      · exact .digits rfl (by omega)
      · exact .digits rfl (by omega)

theorem Escaped.isInline {c : Char} {cs : List Char} (h : Escaped c cs) : ∀ d ∈ cs, isInline d = true := by
  cases h with
  | letter h => exact List.forall_mem_cons.2 ⟨rfl, List.forall_mem_singleton.2 (unescape?_of_escapeLetter? h).1⟩
  | digits hw =>
    rw [List.forall_mem_cons, List.forall_mem_cons]
    exact ⟨rfl, isInline_of_escapeWidth? hw, isInline_of_mem_hexDigits⟩

section

variable {index line column : Nat} {gap : List Char} {before ds : List Char}

open Glyph

theorem readDouble_blank {c : Char} (h : isBlank c = true) (hb : isBreak c = false) :
    readDouble (.blanks gap) before (listFrom index line column (c :: ds)) =
      readDouble (.blanks (gap ++ [c])) before (listFrom (index + 1) line (column + 1) ds) := by
  rw [listFrom_cons hb, readDouble]
  simp [isGap, h, Gap.add, hb]

variable (hcol : column ≠ 0)

include hcol

theorem readDouble_end : readDouble (.blanks gap) before (listFrom index line column ('"' :: ds)) =
    some (before.reverse ++ gap, listFrom (index + 1) line (column + 1) ds) := by
  rw [listFrom_cons rfl, readDouble]
  simp [show isGap '"' = false from rfl, isMarker_of_column hcol, Gap.text]

theorem readDouble_char {c : Char} (hg : isGap c = false) (hq : c ≠ '"') (hs : c ≠ '\\') :
    readDouble (.blanks gap) before (listFrom index line column (c :: ds)) =
      readDouble .none (c :: (gap.reverse ++ before)) (listFrom (index + 1) line (column + 1) ds) := by
  have hb : isBreak c = false := (Bool.or_eq_false_iff.1 hg).2
  rw [listFrom_cons hb, readDouble]
  simp [hg, isMarker_of_column hcol, hq, hs, Gap.text]

theorem readDouble_escaped {c : Char} {cs : List Char} (h : Escaped c cs) :
    readDouble (.blanks gap) before (listFrom index line column (cs ++ ds)) =
      readDouble .none (c :: (gap.reverse ++ before))
        (listFrom (index + cs.length) line (column + cs.length) ds) := by
  cases h with
  | @letter e h =>
    obtain ⟨he, hw, hu⟩ := unescape?_of_escapeLetter? h
    have hb := isBreak_of_isInline he
    rw [List.cons_append, List.singleton_append, listFrom_cons rfl, listFrom_cons hb, readDouble]
    simp [show isGap '\\' = false from rfl, isMarker_of_column hcol, hb, hw, hu, Gap.text]
  | @digits e width hw hc =>
    have hb := isBreak_of_isInline (isInline_of_escapeWidth? hw)
    have hlen := length_hexDigits c.toNat width
    have hline : ∀ d ∈ hexDigits c.toNat width, isBreak d = false :=
      fun d hd => isBreak_of_isInline (isInline_of_mem_hexDigits d hd)
    rw [List.cons_append, List.cons_append, listFrom_cons rfl, listFrom_cons hb, readDouble]
    simp [show isGap '\\' = false from rfl, isMarker_of_column hcol, hb, hw, chars_take_listFrom hlen,
      drop_listFrom hlen hline, hexChar?_hexDigits hc, Gap.text, hlen, Nat.add_comm,
      Nat.add_left_comm]

end

def quotedInside (cs : List Char) : List Char := cs.flatMap fun c => if needsEscape c then escape c else [c]

theorem doubleQuoted_eq (cs : List Char) : doubleQuoted cs = '"' :: quotedInside cs ++ ['"'] := rfl

theorem quotedInside_cons (c : Char) (cs : List Char) :
    quotedInside (c :: cs) = (if needsEscape c then escape c else [c]) ++ quotedInside cs := List.flatMap_cons

theorem isInline_of_mem_quotedInside {cs : List Char} : ∀ c ∈ quotedInside cs, isInline c = true := by
  intro c hc
  obtain ⟨d, -, hc⟩ := List.mem_flatMap.1 hc
  split at hc
  · exact (escaped_escape d).isInline c hc
  · next h =>
    rw [List.mem_singleton.1 hc]
    simp only [needsEscape, Bool.or_eq_true, Bool.not_eq_true', not_or, Bool.not_eq_true, Bool.not_eq_false] at h
    rw [isInline, h.1.1.1, h.1.1.2]
    rfl

theorem readDouble_quotedInside {index line column : Nat} (hcol : column ≠ 0) (gap before cs ds : List Char) :
    readDouble (.blanks gap) before (Glyph.listFrom index line column (quotedInside cs ++ '"' :: ds)) =
      some (before.reverse ++ gap ++ cs,
        Glyph.listFrom (index + (quotedInside cs).length + 1) line (column + (quotedInside cs).length + 1) ds) := by
  induction cs generalizing index column gap before with
  | nil =>
    rw [List.append_nil]
    exact readDouble_end hcol
  | cons c cs ih =>
    rw [quotedInside_cons]
    by_cases h : needsEscape c = true
    · rw [if_pos h, List.append_assoc, readDouble_escaped hcol (escaped_escape c), Gap.none, ih (by omega)]
      simp [Nat.add_assoc]
    · have hc := h
      simp only [needsEscape, Bool.or_eq_true, not_or, Bool.not_eq_true, beq_eq_false_iff_ne] at hc
      rw [if_neg h, List.singleton_append, List.cons_append]
      cases hblank : isBlank c with
      | true =>
        rw [readDouble_blank hblank hc.1.1.2, ih (by omega)]
        simp [Nat.add_assoc, Nat.add_comm]
      | false =>
        have hgap : isGap c = false := by rw [isGap, hblank, hc.1.1.2, Bool.or_false]
        rw [readDouble_char hcol hgap hc.1.2 hc.2, Gap.none, ih (by omega)]
        simp [Nat.add_assoc, Nat.add_comm]

theorem readDouble_doubleQuoted {index line column : Nat} (hcol : column ≠ 0) (cs ds : List Char) :
    readDouble .none [] (Glyph.listFrom index line column (quotedInside cs ++ '"' :: ds)) =
      some (cs, Glyph.listFrom (index + (quotedInside cs).length + 1) line
        (column + (quotedInside cs).length + 1) ds) :=
  readDouble_quotedInside hcol [] [] cs ds

end FilterQuery.Yaml
