import FilterQuery.Proofs.Yaml.Plain
import FilterQuery.Yaml.Style

namespace FilterQuery.Yaml

open Glyph

def AtMargin (ds : List Char) : Prop := ∀ c ∈ ds.head?, isGap c = false

theorem atMargin_nil : AtMargin [] := nofun

inductive Suits (cs : List Char) : Style → Prop
  | plain (hne : cs ≠ []) (h : allowsPlain cs = true) : Suits cs .plain
  | single (hfeed : '\n' ∉ cs) (h : allowsSingle cs = true) : Suits cs .single
  | double : Suits cs .double
  | literal (hne : cs ≠ []) (h : ∀ c ∈ cs, isPrintable c = true) : Suits cs .literal

theorem suits_ofText (cs : List Char) : Suits cs (Style.ofText cs) := by
  unfold Style.ofText
  cases hfeed : cs.contains '\n' with
  | true =>
    have hmem : '\n' ∈ cs := List.contains_iff_mem.1 hfeed
    cases hliteral : allowsLiteral cs with
    | true =>
      simp only [allowsLiteral, Bool.and_eq_true, List.all_eq_true] at hliteral
      exact .literal (List.ne_nil_of_mem hmem) hliteral.1.1
    | false => exact .double
  | false =>
    have hmem : '\n' ∉ cs := fun h => absurd (List.contains_iff_mem.2 h) (by rw [hfeed]; decide)
    cases hplain : allowsPlain cs && !isAmbiguous cs with
    | true =>
      rw [Bool.and_eq_true] at hplain
      have hne : cs ≠ [] := by
        rintro rfl
        exact absurd hplain.2 (by decide)
      exact .plain hne hplain.1
    | false =>
      cases hsingle : allowsSingle cs with
      | true => exact .single hmem hsingle
      | false => exact .double

theorem isAmbiguous_of_ofText {cs : List Char} (h : Style.ofText cs = .plain) : isAmbiguous cs = false := by
  unfold Style.ofText at h
  split at h
  · split at h <;> cases h
  · split at h
    · next hcs => simpa using (Bool.and_eq_true_iff.1 hcs).2
    · split at h <;> cases h

namespace Glyph

theorem listFrom_break {c : Char} (h : isBreak c = true) (index line column : Nat) (cs : List Char) :
    listFrom index line column (c :: cs) = ⟨c, index, line, column⟩ :: listFrom (index + 1) (line + 1) 0 cs := by
  rw [listFrom, if_pos h]

theorem listFrom_ne_nil {cs : List Char} (h : cs ≠ []) (index line column : Nat) :
    listFrom index line column cs ≠ [] := by
  rw [← List.length_pos_iff, length_listFrom]
  exact List.length_pos_iff.2 h

theorem next_listFrom (index line column : Nat) (cs : List Char) : next (listFrom index line column cs) = cs.head? := by
  rw [next, ← List.head?_map, map_char_listFrom]

end Glyph

theorem isGap_of_isPrintable {c : Char} (h : isPrintable c = true) : isGap c = (c == ' ' || isBreak c) := by
  have htab : (c == '\t') = false := by simpa using notMem_of_any ['\t'] h rfl
  rw [isGap, isBlank, htab, Bool.or_false]

theorem hasInnerSign_of_afterBlank {cs : List Char} (h : hasInnerSign true cs = false) (afterBlank : Bool) :
    hasInnerSign afterBlank cs = false := by
  cases cs with
  | nil => rfl
  | cons c cs =>
    simp only [hasInnerSign, Bool.or_eq_false_iff, Bool.and_true] at h ⊢
    exact ⟨⟨h.1.1, by rw [h.1.2, Bool.false_and]⟩, h.2⟩

theorem hasInnerSign_of_isWordChar {cs : List Char} (h : ∀ c ∈ cs, isWordChar c = true) (afterBlank : Bool) :
    hasInnerSign afterBlank cs = false := by
  induction cs generalizing afterBlank with
  | nil => rfl
  | cons c cs ih =>
    obtain ⟨hc, hcs⟩ := List.forall_mem_cons.1 h
    have hsign := notMem_of_any [':', '#'] hc rfl
    simp only [List.mem_cons, List.not_mem_nil, or_false, not_or] at hsign
    rw [hasInnerSign, beq_false_of_ne hsign.1, beq_false_of_ne hsign.2, ih hcs]
    rfl

theorem hasFirstSign_of_isWord {cs : List Char} (h : IsWord cs) : hasFirstSign cs = false := by
  have hfirst : ∀ c : Char, c.isAlphanum = true →
      c ∉ ['-', '?', ':', '.', '#', '&', '*', '!', '|', '>', '\x27', '"', '%', '@', '\x60'] :=
    fun c hc => notMem_of_any _ hc rfl
  cases h with
  | @bare cs hne h =>
    obtain ⟨c, cs, rfl⟩ := List.exists_cons_of_ne_nil hne
    have hc := h c List.mem_cons_self
    have hsign := hfirst c hc
    have hflow := isFlowSign_of_isWordChar (isWordChar_of_isAlphanum hc)
    simp_all [hasFirstSign, isIndicator]
  | @minus cs hne h =>
    obtain ⟨c, cs, rfl⟩ := List.exists_cons_of_ne_nil hne
    have hc := h c List.mem_cons_self
    have hsign := hfirst c hc
    have hgap := isGap_of_isWordChar (isWordChar_of_isAlphanum hc)
    simp_all [hasFirstSign, isIndicator, isFlowSign, startsGap]

theorem allowsPlain_of_isWord {cs : List Char} (h : IsWord cs) : allowsPlain cs = true := by
  have hmargin : ∀ c : Option Char, (∀ d ∈ c, d ∈ cs) → isMargin c = false := by
    intro c hc
    cases c with
    | none => rfl
    | some d =>
      have hgap := isGap_of_isWordChar (h.isWordChar d (hc d rfl))
      rw [isGap, isBlank] at hgap
      simp_all [isMargin]
  have hinline : ∀ c ∈ cs, (isPrintable c && !isBreak c) = true :=
    fun c hc => isInline_of_isWordChar (h.isWordChar c hc)
  rw [allowsPlain, List.all_eq_true.2 hinline, hmargin _ fun d hd => List.mem_of_mem_head? hd,
    hmargin _ fun d hd => List.mem_of_mem_getLast? hd, hasFirstSign_of_isWord h,
    hasInnerSign_of_isWordChar h.isWordChar]
  rfl

theorem beginsPlain_of_hasFirstSign {c : Char} {cs : List Char} (hgap : isGap c = false)
    (h : hasFirstSign (c :: cs) = false) {next : Option Char} (hnext : startsGap next = startsGap cs.head?) :
    (c = '-' → startsGap next = false) ∧ beginsPlain false c next = true := by
  simp only [hasFirstSign, Bool.or_eq_false_iff, ← hnext] at h
  obtain ⟨⟨⟨hindicator, hsign⟩, -⟩, -⟩ := h
  have halone : c = '-' ∨ c = '?' ∨ c = ':' → startsGap next = false := by
    rintro (rfl | rfl | rfl) <;> exact hsign
  refine ⟨fun h => halone (.inl h), ?_⟩
  unfold beginsPlain
  split
  · next hdash =>
    have hnext := halone (.inl hdash)
    cases next with
    | none => rfl
    | some d =>
      rw [startsGap, Option.all_some] at hnext
      rw [Option.any_some, (Bool.or_eq_false_iff.1 hnext).1]
      rfl
  · split
    · next hother =>
      rw [halone (.inr hother)]
      rfl
    · rw [hgap, hindicator]
      rfl

theorem readPlainFrom_indent (least index line column : Nat) (first : Option Char) (others before ds : List Char)
    (k : Nat) :
    readPlainFrom false least (.lines first others) before (listFrom index line column (List.replicate k ' ' ++ ds)) =
      readPlainFrom false least (.lines first others) before (listFrom (index + k) line (column + k) ds) := by
  induction k generalizing index column with
  | zero => rfl
  | succ k ih =>
    have hindex : index + (k + 1) = index + 1 + k := by omega
    have hcolumn : column + (k + 1) = column + 1 + k := by omega
    rw [List.replicate_succ, List.cons_append, listFrom_cons rfl, readPlainFrom, hindex, hcolumn, ← ih]
    simp [Gap.add, show isGap ' ' = true from rfl, show isBreak ' ' = false from rfl]

theorem readPlainFrom_break {ds : List Char} (h : AtMargin ds) {k least : Nat} (hk : k < least)
    (index line column : Nat) (before : List Char) :
    readPlainFrom false least .none before (listFrom index line column ('\n' :: (List.replicate k ' ' ++ ds))) =
      some (before.reverse, true, listFrom (index + 1 + k) (line + 1) k ds) := by
  have hgap : Gap.none.add '\n' = .lines (some '\n') [] := rfl
  rw [listFrom_break rfl, readPlainFrom]
  simp only [show isGap '\n' = true from rfl, if_true, hgap, show Gap.none.crossesLine = false from rfl,
    Bool.false_and, if_neg Bool.false_ne_true]
  rw [readPlainFrom_indent, Nat.zero_add]
  cases ds with
  | nil => rfl
  | cons d ds =>
    have hd : isGap d = false := h d rfl
    rw [listFrom_cons (Bool.or_eq_false_iff.1 hd).2]
    simp [readPlainFrom, Gap.crossesLine, hd, endsPlain, hk]

theorem readPlainFrom_line {cs ds spaces : List Char} (hcs : ∀ c ∈ cs, isInline c = true) (hds : AtMargin ds)
    (hspaces : ∀ c ∈ spaces, c = ' ') (hinner : hasInnerSign (!spaces.isEmpty) cs = false)
    (hlast : isMargin (spaces ++ cs).getLast? = false) {k least : Nat} (hk : k < least) (index line column : Nat)
    (before : List Char) : ∃ index' line', readPlainFrom false least (.blanks spaces) before
      (listFrom index line column (cs ++ '\n' :: (List.replicate k ' ' ++ ds))) =
        some (before.reverse ++ spaces ++ cs, true, listFrom index' line' k ds) := by
  -- Spaces are kept as the gap `spaces` until a character behind them shows that they are text.
  induction cs generalizing spaces index column before with
  | nil =>
    have hnone : spaces = [] := by
      rcases List.eq_nil_or_concat spaces with h | ⟨spaces, c, rfl⟩
      · exact h
      · rw [hspaces c (by simp), List.append_nil] at hlast
        simp [isMargin] at hlast
    subst hnone
    refine ⟨index + 1 + k, line + 1, ?_⟩
    rw [List.append_nil, List.append_nil]
    exact readPlainFrom_break hds hk ..
  | cons c cs ih =>
    obtain ⟨hc, hrest⟩ := List.forall_mem_cons.1 hcs
    have hbreak := isBreak_of_isInline hc
    have hgap := isGap_of_isPrintable (Bool.and_eq_true_iff.1 hc).1
    rw [hbreak, Bool.or_false] at hgap
    simp only [hasInnerSign, Bool.or_eq_false_iff, hgap] at hinner
    obtain ⟨⟨hcolon, hcomment⟩, hinner⟩ := hinner
    rw [List.cons_append, listFrom_cons hbreak, readPlainFrom]
    dsimp only
    rw [hgap]
    cases hspace : c == ' ' with
    | true =>
      cases beq_iff_eq.1 hspace
      have hlast' : isMargin ((spaces ++ [' ']) ++ cs).getLast? = false := by
        rwa [List.append_assoc, List.singleton_append]
      have hinner' : hasInnerSign (!(spaces ++ [' ']).isEmpty) cs = false := by
        cases spaces <;> exact hinner
      obtain ⟨index', line', h⟩ := ih hrest (List.forall_mem_append.2 ⟨hspaces, by simp⟩) hinner' hlast'
        (index + 1) (column + 1) before
      exact ⟨index', line', by simpa [Gap.crossesLine, Gap.add, hbreak] using h⟩
    | false =>
      have hend : endsPlain false least (.blanks spaces) (⟨c, index, line, column⟩ ::
          listFrom (index + 1) line (column + 1) (cs ++ '\n' :: (List.replicate k ' ' ++ ds))) = false := by
        have hnext : startsGap (cs ++ '\n' :: (List.replicate k ' ' ++ ds)).head? = startsGap cs.head? := by
          cases cs <;> rfl
        have hnone : (Gap.blanks spaces != .none) = !spaces.isEmpty := by cases spaces <;> rfl
        rw [endsPlain, next_listFrom, hnext, hnone, hcomment, hcolon]
        rfl
      have hlast' : isMargin ([] ++ cs).getLast? = false := by
        cases cs with
        | nil => rfl
        | cons d cs =>
          have hsome := List.getLast?_eq_some_getLast (List.cons_ne_nil d cs)
          rw [List.getLast?_append, List.getLast?_cons_cons, hsome] at hlast
          rwa [List.nil_append, hsome]
      rw [hspace] at hinner
      obtain ⟨index', line', h⟩ := @ih [] hrest (List.forall_mem_nil _) hinner hlast' (index + 1) (column + 1)
        (c :: (spaces.reverse ++ before))
      refine ⟨index', line', ?_⟩
      rw [if_neg Bool.false_ne_true, hend, if_neg Bool.false_ne_true]
      simpa [Gap.text, Gap.none] using h

theorem readPlain_of_allowsPlain {cs ds : List Char} (h : allowsPlain cs = true) (hds : AtMargin ds) {k least : Nat}
    (hk : k < least) (index line column : Nat) : ∃ index' line',
      readPlain false least (listFrom index line column (cs ++ '\n' :: (List.replicate k ' ' ++ ds))) =
        some (cs, true, listFrom index' line' k ds) := by
  simp only [allowsPlain, Bool.and_eq_true, Bool.not_eq_true', List.all_eq_true] at h
  obtain ⟨⟨⟨⟨hinline, -⟩, hlast⟩, -⟩, hinner⟩ := h
  exact @readPlainFrom_line cs ds [] (fun c hc => by simpa [isInline] using hinline c hc) hds nofun
    (hasInnerSign_of_afterBlank hinner _) hlast k least hk index line column []

section

variable {h : Glyph} {gs : List Glyph} {gap : Gap} {before : List Char} {index line column : Nat}

theorem readSingle_gap {c : Char} (hc : isGap c = true) (hgs : gs ≠ []) :
    readSingle gap before (⟨c, index, line, column⟩ :: gs) = readSingle (gap.add c) before gs := by
  obtain ⟨h, rest, rfl⟩ := List.exists_cons_of_ne_nil hgs
  rw [readSingle, if_pos hc]

theorem readSingle_indent {first : Option Char} {others ds : List Char} (hds : ds ≠ []) (width : Nat) :
    readSingle (.lines first others) before (listFrom index line column (List.replicate width ' ' ++ ds)) =
      readSingle (.lines first others) before (listFrom (index + width) line (column + width) ds) := by
  induction width generalizing index column with
  | zero => rfl
  | succ width ih =>
    have hindex : index + (width + 1) = index + 1 + width := by omega
    have hcolumn : column + (width + 1) = column + 1 + width := by omega
    have hne : List.replicate width ' ' ++ ds ≠ [] := List.append_ne_nil_of_right_ne_nil _ hds
    rw [List.replicate_succ, List.cons_append, listFrom_cons rfl, readSingle_gap rfl (listFrom_ne_nil hne _ _ _),
      hindex, hcolumn]
    exact ih

theorem readSingle_end (hh : h.char ≠ '\x27') (hcol : column ≠ 0) :
    readSingle gap before (⟨'\x27', index, line, column⟩ :: h :: gs) = some (before.reverse ++ gap.text, h :: gs) := by
  rw [readSingle]
  simp [isMarker_of_column hcol, hh, show isGap '\x27' = false from rfl]

def singleChar (c : Char) : List Char := if c = '\x27' then ['\x27', '\x27'] else [c]

theorem readSingle_singleChar {c : Char} {ds : List Char} (hc : isGap c = false)
    (hds : ds ≠ []) (hcol : column ≠ 0) : ∃ index' column', column' ≠ 0 ∧
      readSingle gap before (listFrom index line column (singleChar c ++ ds)) =
        readSingle .none (c :: (gap.text.reverse ++ before)) (listFrom index' line column' ds) := by
  have hbreak : isBreak c = false := (Bool.or_eq_false_iff.1 hc).2
  unfold singleChar
  split
  · next hquote =>
    subst hquote
    refine ⟨index + 2, column + 2, by omega, ?_⟩
    rw [List.cons_append, List.singleton_append, listFrom_cons hbreak, listFrom_cons hbreak, readSingle]
    simp [hc, isMarker_of_column hcol]
  · next hquote =>
    refine ⟨index + 1, column + 1, by omega, ?_⟩
    obtain ⟨h, rest, hrest⟩ := List.exists_cons_of_ne_nil (listFrom_ne_nil hds (index + 1) line (column + 1))
    rw [List.singleton_append, listFrom_cons hbreak, hrest, readSingle]
    simp [hc, isMarker_of_column hcol, hquote]

end

inductive Behind : Gap → Bool → Char → Prop
  | visible {c : Char} (h : isGap c = false) : Behind .none false c
  | spaces (cs : List Char) : Behind (.blanks (cs ++ [' '])) false ' '
  | line {c d : Char} (others : List Char) (hc : isBreak c = true) (hd : d ≠ '\n') :
    Behind (.lines (some d) others) true c

theorem Gap.text_lines {d : Char} (hd : d ≠ '\n') (others : List Char) :
    (Gap.lines (some d) others).text = d :: others := by
  unfold Gap.text
  split
  · next h => cases h
  · next h => cases h; exact absurd rfl hd
  · next h => cases h; exact absurd rfl hd
  · next h => cases h; rfl

section

variable {gap : Gap} {atStart : Bool} {last : Char} (hb : Behind gap atStart last)

include hb

theorem Behind.add_break {c : Char} (hc : isBreak c = true) (hfeed : c ≠ '\n') (hspace : last ≠ ' ') :
    Behind (gap.add c) true c ∧ (gap.add c).text = gap.text ++ [c] := by
  cases hb with
  | visible =>
    rw [Gap.none, Gap.add, if_pos hc]
    exact ⟨.line [] hc hfeed, Gap.text_lines hfeed []⟩
  | spaces => exact absurd rfl hspace
  | line others _ hd =>
    rw [Gap.add, if_pos hc]
    exact ⟨.line _ hc hd, by rw [Gap.text_lines hd, Gap.text_lines hd]; rfl⟩

theorem Behind.add_space (hbreak : isBreak last = false) :
    atStart = false ∧ Behind (gap.add ' ') false ' ' ∧ (gap.add ' ').text = gap.text ++ [' '] := by
  cases hb with
  | visible => exact ⟨rfl, .spaces [], rfl⟩
  | spaces cs => exact ⟨rfl, .spaces (cs ++ [' ']), rfl⟩
  | line _ hc => exact absurd hbreak (by rw [hc]; decide)

theorem Behind.indented {ds : List Char} (hds : ds ≠ []) {width : Nat} (hwidth : width ≠ 0) (index line : Nat)
    {column : Nat} (hcol : atStart = false → column ≠ 0) (before : List Char) : ∃ index' column', column' ≠ 0 ∧
      readSingle gap before (listFrom index line column (indent width atStart ++ ds)) =
        readSingle gap before (listFrom index' line column' ds) := by
  cases hb with
  | visible | spaces => exact ⟨index, column, hcol rfl, rfl⟩
  | line others =>
    refine ⟨index + width, column + width, by omega, ?_⟩
    exact readSingle_indent hds ..

end

theorem singleQuotedFrom_visible {c : Char} (hc : isBreak c = false) (width : Nat) (atStart : Bool) (cs : List Char) :
    singleQuotedFrom width atStart (c :: cs) =
      indent width atStart ++ (singleChar c ++ singleQuotedFrom width false cs) := by
  rw [singleQuotedFrom, if_neg (Bool.eq_false_iff.1 hc), List.append_assoc]
  rfl

theorem readSingle_singleQuotedFrom {cs : List Char} (hcs : ∀ c ∈ cs, isPrintable c = true ∧ c ≠ '\n') {width : Nat}
    (hwidth : width ≠ 0) {gap : Gap} {atStart : Bool} {last : Char} (hb : Behind gap atStart last)
    (hbefore : hasSpaceAt true (last :: cs) = false) (hafter : hasSpaceAt false (last :: cs) = false)
    (index line : Nat) {column : Nat} (hcol : atStart = false → column ≠ 0) (before ds : List Char) :
    ∃ index' line' column',
      readSingle gap before (listFrom index line column (singleQuotedFrom width atStart cs ++ '\x27' :: '\n' :: ds)) =
        some (before.reverse ++ gap.text ++ cs, listFrom index' line' column' ('\n' :: ds)) := by
  -- The character in front is kept as `last`, for a space next to a break would be lost.
  induction cs generalizing gap atStart last index line column before with
  | nil =>
    obtain ⟨index', column', hcol', hindent⟩ :=
      hb.indented (List.cons_ne_nil '\x27' ('\n' :: ds)) hwidth index line hcol before
    refine ⟨index' + 1, line, column' + 1, ?_⟩
    rw [singleQuotedFrom, hindent, listFrom_cons rfl, listFrom_break rfl,
      readSingle_end (show '\n' ≠ '\x27' by decide) hcol', List.append_nil]
  | cons c cs ih =>
    obtain ⟨⟨hprint, hfeed⟩, hrest⟩ := List.forall_mem_cons.1 hcs
    have hne : singleQuotedFrom width false cs ++ '\x27' :: '\n' :: ds ≠ [] := by simp
    have hne' : singleQuotedFrom width true cs ++ '\x27' :: '\n' :: ds ≠ [] := by simp
    simp only [hasSpaceAt, Bool.or_eq_false_iff, if_true, if_neg Bool.false_ne_true] at hbefore hafter
    have hgap := isGap_of_isPrintable hprint
    cases hbreak : isBreak c with
    | true =>
      have hspace : last ≠ ' ' := by
        rintro rfl
        rw [hbreak] at hbefore
        exact absurd hbefore.1 (by decide)
      obtain ⟨hb', htext⟩ := hb.add_break hbreak hfeed hspace
      obtain ⟨index', line', column', h⟩ := ih hrest hb' hbefore.2 hafter.2 (index + 1) (line + 1) nofun before
      refine ⟨index', line', column', ?_⟩
      rw [singleQuotedFrom, if_pos hbreak, List.cons_append, listFrom_break hbreak,
        readSingle_gap (by rw [hgap, hbreak, Bool.or_true]) (listFrom_ne_nil hne' _ _ _), h, htext]
      simp
    | false =>
      rw [hbreak, Bool.or_false] at hgap
      rw [singleQuotedFrom_visible hbreak, List.append_assoc, List.append_assoc]
      cases hspace : c == ' ' with
      | true =>
        cases beq_iff_eq.1 hspace
        have hlast : isBreak last = false := by simpa using hafter.1
        obtain ⟨rfl, hb', htext⟩ := hb.add_space hlast
        obtain ⟨index', line', column', h⟩ := ih hrest hb' hbefore.2 hafter.2 (index + 1) line
          (fun _ => Nat.succ_ne_zero column) before
        refine ⟨index', line', column', ?_⟩
        rw [htext] at h
        rw [indent, if_neg Bool.false_ne_true, List.nil_append, singleChar, if_neg (by decide), List.singleton_append,
          listFrom_cons rfl, readSingle_gap rfl (listFrom_ne_nil hne _ _ _), h]
        simp
      | false =>
        rw [hspace] at hgap
        obtain ⟨i, j, hj, hindent⟩ :=
          hb.indented (List.append_ne_nil_of_right_ne_nil (singleChar c) hne) hwidth index line hcol before
        obtain ⟨i', j', hj', hchar⟩ := readSingle_singleChar hgap hne hj
        obtain ⟨index', line', column', h⟩ := ih hrest (.visible hgap) hbefore.2 hafter.2 i' line (fun _ => hj')
          (c :: (gap.text.reverse ++ before))
        refine ⟨index', line', column', ?_⟩
        rw [hindent, hchar, h]
        simp

theorem readSingle_of_allowsSingle {cs : List Char} (h : allowsSingle cs = true) (hfeed : '\n' ∉ cs)
    {width : Nat} (hwidth : width ≠ 0) (index line : Nat) {column : Nat} (hcol : column ≠ 0) (ds : List Char) :
    ∃ index' line' column',
      readSingle .none [] (listFrom index line column (singleQuotedFrom width false cs ++ '\x27' :: '\n' :: ds)) =
        some (cs, listFrom index' line' column' ('\n' :: ds)) := by
  simp only [allowsSingle, Bool.and_eq_true, Bool.not_eq_true', List.all_eq_true] at h
  obtain ⟨⟨hprint, hbefore⟩, hafter⟩ := h
  have hquote : ∀ beforeBreak, hasSpaceAt beforeBreak ('\x27' :: cs) = hasSpaceAt beforeBreak cs := by
    intro beforeBreak
    cases cs with
    | nil => rfl
    | cons c cs => cases beforeBreak <;> rfl
  exact readSingle_singleQuotedFrom (fun c hc => ⟨hprint c hc, fun hn => hfeed (hn ▸ hc)⟩) hwidth
    (Behind.visible (c := '\x27') rfl) ((hquote _).trans hbefore) ((hquote _).trans hafter) index line (fun _ => hcol)
    [] ds

end FilterQuery.Yaml
