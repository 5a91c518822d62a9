import FilterQuery.Proofs.Yaml.Block
import FilterQuery.Proofs.Yaml.Document
import FilterQuery.Yaml.Access

namespace FilterQuery.Yaml

open Glyph

namespace Scan

def atStart (ts : List (Token String)) (blocks : List Nat) (gs : List Glyph) : Scan :=
  ⟨gs, ts.reverse, ts.length, blocks, true, none, []⟩

def atValue (ts : List (Token String)) (blocks : List Nat) (gs : List Glyph) : Scan :=
  ⟨gs, ts.reverse, ts.length, blocks, false, none, []⟩

variable {s s' : Scan} {r : Option (List (Token String))} {ts : List (Token String)} {blocks outer : List Nat}
  {margin index line column k : Nat} {ds : List Char}

theorem Finds.of_skip (hskip : s.skip = s'.skip) (hlen : s'.rest.length ≤ s.rest.length) (h : s'.Finds r) :
    s.Finds r := by
  intro fuel hfuel
  rw [← h fuel (Nat.lt_of_le_of_lt hlen hfuel)]
  cases fuel with
  | zero => rfl
  | succ fuel => rw [run, run, hskip]

theorem skipFrom_indent (flow allowed : Bool) (k : Nat) (index line column : Nat) (ds : List Char) :
    skipFrom flow false allowed (listFrom index line column (List.replicate k ' ' ++ ds)) =
      skipFrom flow false allowed (listFrom (index + k) line (column + k) ds) := by
  induction k generalizing index column with
  | zero => rfl
  | succ k ih =>
    have hindex : index + (k + 1) = index + 1 + k := by omega
    have hcolumn : column + (k + 1) = column + 1 + k := by omega
    rw [List.replicate_succ, List.cons_append, listFrom_cons rfl, hindex, hcolumn, ← ih]
    rfl

theorem finds_of_indent (h : (atStart ts blocks (listFrom (index + k) line (column + k) ds)).Finds r) :
    (atStart ts blocks (listFrom index line column (List.replicate k ' ' ++ ds))).Finds r := by
  refine .of_skip ?_ (length_listFrom_le (List.suffix_append ..)) h
  rw [skip, skip]
  simp only [atStart, skipFrom_indent]
  rfl

theorem finds_of_space (h : (atValue ts blocks (listFrom (index + 1) line (column + 1) ds)).Finds r) :
    (atValue ts blocks (listFrom index line column (' ' :: ds))).Finds r := by
  refine .of_skip ?_ ?_ h
  · rfl
  · exact length_listFrom_le (List.suffix_cons ..)

theorem finds_of_break (h : (atStart ts blocks (listFrom (index + 1) (line + 1) 0 ds)).Finds r) :
    (atValue ts blocks (listFrom index line column ('\n' :: ds))).Finds r := by
  refine .of_skip ?_ ?_ h
  · rfl
  · exact length_listFrom_le (List.suffix_cons ..)

theorem unrollFrom_of_forall (h : ∀ n ∈ blocks, n ≤ column) (s : Scan) :
    s.unrollFrom (some column) blocks = { s with blocks := blocks } := by
  cases blocks with
  | nil => rfl
  | cons n blocks =>
    rw [unrollFrom, if_neg]
    simpa using h n List.mem_cons_self

theorem finds_of_value {c : Char} (hc : startsToken c = true) (hcol : ∀ n ∈ blocks, n ≤ column)
    (htoken : (atValue ts blocks (listFrom index line column (c :: ds))).token ⟨c, index, line, column⟩
      (listFrom (index + 1) line (column + 1) ds) = some s')
    (hless : s'.rest.length ≤ (listFrom (index + 1) line (column + 1) ds).length)
    (h : s'.Finds r) : (atValue ts blocks (listFrom index line column (c :: ds))).Finds r := by
  have hrest : (atValue ts blocks (listFrom index line column (c :: ds))).rest =
      ⟨c, index, line, column⟩ :: listFrom (index + 1) line (column + 1) ds :=
        listFrom_cons (isBreak_of_startsToken hc) ds
  refine .of_start hrest hc rfl ?_ hless h
  exact (congrArg _ (unrollFrom_of_forall hcol _)).trans htoken

def ReadsAs (margin : Nat) (value : List Char) (t : Token String) : Prop :=
  ∀ ⦃index line column k : Nat⦄ ⦃outer : List Nat⦄ ⦃ts : List (Token String)⦄ ⦃ds : List Char⦄
    ⦃r : Option (List (Token String))⦄,
    (∀ n ∈ outer, n < margin) → margin < column → k ≤ margin → AtMargin ds →
    (∀ index' line', (atStart (ts ++ [t]) (margin :: outer) (listFrom index' line' k ds)).Finds r) →
    (atValue ts (margin :: outer) (listFrom index line column (value ++ (List.replicate k ' ' ++ ds)))).Finds r

theorem le_of_mem_blocks (houter : ∀ n ∈ outer, n < margin) (hcol : margin < column) :
    ∀ n ∈ margin :: outer, n ≤ column :=
  List.forall_mem_cons.2 ⟨hcol.le, fun n hn => ((houter n hn).trans hcol).le⟩

section

variable {g : Glyph} {gs gs' rest : List Glyph} {cs : List Char}

theorem keyable_atValue {t : Token String} :
    (atValue ts blocks gs).keyable g (some (t, rest)) = some (atValue (ts ++ [t]) blocks rest) := by
  simp [keyable, saveKey, emit, atValue]

theorem plainScalar_atValue (h : readPlain false (margin + 1) gs' = some (cs, true, rest)) :
    (atValue ts (margin :: outer) gs).plainScalar g gs' =
      some (atStart (ts ++ [.scalar .plain (String.ofList cs)]) (margin :: outer) rest) := by
  have hsave : (atValue ts (margin :: outer) gs).saveKey g = some (atValue ts (margin :: outer) gs) := rfl
  rw [plainScalar_eq hsave h]
  simp [emit, atValue, atStart]

theorem blockScalar_atValue (h : readBlock false (margin + 1) gs' = some (cs, rest)) :
    (atValue ts (margin :: outer) gs).blockScalar .literal gs' =
      some (atStart (ts ++ [.scalar .literal (String.ofList cs)]) (margin :: outer) rest) := by
  have hread : readBlock (Style.literal == .folded) (atValue ts (margin :: outer) gs).least gs' = some (cs, rest) := h
  rw [blockScalar, dropKey_of_isLoose isLoose_none]
  simp only [Option.bind_eq_bind, Option.bind_some, scalarOf]
  rw [show ({ atValue ts (margin :: outer) gs with key := none } : Scan) = atValue ts (margin :: outer) gs from rfl,
    hread]
  simp [emit, atValue, atStart]

end

theorem readsAs_plain {cs : List Char} (hne : cs ≠ []) (h : allowsPlain cs = true) :
    ReadsAs margin (cs ++ ['\n']) (.scalar .plain (String.ofList cs)) := by
  intro index line column k outer ts ds r houter hcol hk hds finds
  obtain ⟨c, cs, rfl⟩ := List.exists_cons_of_ne_nil hne
  obtain ⟨index', line', hread⟩ := readPlain_of_allowsPlain h hds (Nat.lt_succ_of_le hk) index line column
  simp only [allowsPlain, Bool.and_eq_true, Bool.not_eq_true', List.all_eq_true, List.head?_cons] at h
  obtain ⟨⟨⟨⟨hinline, hmargin⟩, -⟩, hfirst⟩, -⟩ := h
  obtain ⟨hprint, hbreak⟩ := hinline c List.mem_cons_self
  have hgap : isGap c = false := by
    rw [isGap_of_isPrintable hprint]
    exact hmargin
  have hmark : c ≠ '\ufeff' := fun h => absurd hprint (h ▸ by decide)
  have hcomment : c ≠ '#' := by
    rintro rfl
    simp [hasFirstSign, isIndicator] at hfirst
  generalize hbehind : List.replicate k ' ' ++ ds = behind at hread ⊢
  have hnext : startsGap (next (listFrom (index + 1) line (column + 1) (cs ++ '\n' :: behind))) =
      startsGap cs.head? := by
    rw [next_listFrom]
    cases cs <;> rfl
  rw [List.append_assoc, List.singleton_append, List.cons_append]
  rw [List.cons_append, listFrom_cons hbreak] at hread
  obtain ⟨hminus, hbegins⟩ := beginsPlain_of_hasFirstSign hgap hfirst hnext
  have hpos : column ≠ 0 := Nat.ne_zero_of_lt hcol
  have htoken := token_of_plain
    (s := atValue ts (margin :: outer) (listFrom index line column (c :: (cs ++ '\n' :: behind))))
    (g := ⟨c, index, line, column⟩) (isRule_of_column hpos _ _) (isRule_of_column hpos _ _) hminus hbegins
  have hsuffix : ds <:+ cs ++ '\n' :: behind :=
    ((hbehind ▸ List.suffix_append ..).trans (List.suffix_cons ..)).trans (List.suffix_append ..)
  exact finds_of_value (by simp [startsToken, hgap, hcomment, hmark]) (le_of_mem_blocks houter hcol)
    (htoken.trans (plainScalar_atValue hread)) (length_listFrom_le hsuffix) (finds index' line')

theorem readsAs_quoted {quote : Char} {style : Style} {inside text : List Char}
    {read : List Glyph → Option (List Char × List Glyph)} (hquote : startsToken quote = true)
    (htoken : ∀ {g : Glyph}, g.char = quote → ∀ (s : Scan) (rest : List Glyph),
      s.token g rest = s.keyable g (scalarOf style (read rest)))
    (hread : ∀ index line column ds, column ≠ 0 → ∃ index' line' column',
      read (listFrom index line column (inside ++ quote :: '\n' :: ds)) =
        some (text, listFrom index' line' column' ('\n' :: ds))) :
    ReadsAs margin ((quote :: inside ++ [quote]) ++ ['\n']) (.scalar style (String.ofList text)) := by
  intro index line column k outer ts ds r houter hcol _ _ finds
  generalize hbehind : List.replicate k ' ' ++ ds = behind
  obtain ⟨index', line', column', h⟩ := hread (index + 1) line (column + 1) behind (Nat.succ_ne_zero column)
  have htext : ((quote :: inside ++ [quote]) ++ ['\n']) ++ behind =
      quote :: (inside ++ quote :: '\n' :: behind) := by simp
  have hfound : (atValue ts (margin :: outer)
      (listFrom index line column (quote :: (inside ++ quote :: '\n' :: behind)))).token ⟨quote, index, line, column⟩
        (listFrom (index + 1) line (column + 1) (inside ++ quote :: '\n' :: behind)) =
          some (atValue (ts ++ [.scalar style (String.ofList text)]) (margin :: outer)
            (listFrom index' line' column' ('\n' :: behind))) := by
    rw [htoken rfl, h]
    exact keyable_atValue
  rw [htext]
  have hsuffix : '\n' :: behind <:+ inside ++ quote :: '\n' :: behind :=
    (List.suffix_cons ..).trans (List.suffix_append ..)
  refine finds_of_value hquote (le_of_mem_blocks houter hcol) hfound (length_listFrom_le hsuffix) (finds_of_break ?_)
  rw [← hbehind]
  refine finds_of_indent ?_
  rw [Nat.zero_add]
  exact finds (index' + 1 + k) (line' + 1)

theorem readsAs_double (cs : List Char) :
    ReadsAs margin (doubleQuoted cs ++ ['\n']) (.scalar .double (String.ofList cs)) :=
  readsAs_quoted rfl (fun hg => token_of_double hg) fun _ _ _ ds hcol =>
    ⟨_, _, _, readDouble_doubleQuoted hcol cs ('\n' :: ds)⟩

theorem readsAs_single {cs : List Char} (h : allowsSingle cs = true) (hfeed : '\n' ∉ cs) :
    ReadsAs margin (singleQuoted (margin + 2) cs ++ ['\n']) (.scalar .single (String.ofList cs)) :=
  readsAs_quoted rfl (fun hg => token_of_single hg) fun index line _ ds hcol =>
    readSingle_of_allowsSingle h hfeed (Nat.succ_ne_zero _) index line hcol ds

theorem readsAs_literal {cs : List Char} (hne : cs ≠ []) (h : ∀ c ∈ cs, isPrintable c = true) :
    ReadsAs margin ('|' :: literalSigns cs ++ '\n' :: literalLines (margin + 2) true cs)
      (.scalar .literal (String.ofList cs)) := by
  intro index line column k outer ts ds r houter hcol hk hds finds
  obtain ⟨index', line', hread⟩ := @readBlock_literal cs ds margin (index + 1) line (column + 1) k hne h hds hk
  generalize hbehind : List.replicate k ' ' ++ ds = behind at hread ⊢
  have htext : ('|' :: literalSigns cs ++ '\n' :: literalLines (margin + 2) true cs) ++ behind =
      '|' :: (literalSigns cs ++ '\n' :: (literalLines (margin + 2) true cs ++ behind)) := by simp
  have hsuffix : ds <:+ literalSigns cs ++ '\n' :: (literalLines (margin + 2) true cs ++ behind) :=
    (((hbehind ▸ List.suffix_append ..).trans (List.suffix_append ..)).trans (List.suffix_cons ..)).trans
      (List.suffix_append ..)
  rw [htext]
  exact finds_of_value rfl (le_of_mem_blocks houter hcol)
    ((token_of_literal rfl rfl _).trans (blockScalar_atValue hread))
    (length_listFrom_le hsuffix) (finds index' line')

theorem readsAs_lines {cs : List Char} {style : Style} (h : Suits cs style) :
    ReadsAs margin (style.lines (margin + 2) cs) (.scalar style (String.ofList cs)) := by
  cases h with
  | plain hne h => exact readsAs_plain hne h
  | single hfeed h => exact readsAs_single h hfeed
  | double => exact readsAs_double cs
  | literal hne h => exact readsAs_literal hne h

def isName (key : List Char) : Bool :=
  key.head?.any Char.isAlphanum && key.all isWordChar && key.length ≤ keyLimit

theorem of_isName {key : List Char} (h : isName key = true) : (∃ c cs, key = c :: cs ∧ c.isAlphanum = true) ∧
    (∀ c ∈ key, isWordChar c = true) ∧ key.length ≤ keyLimit := by
  simp only [isName, Bool.and_eq_true, List.all_eq_true, decide_eq_true_eq] at h
  obtain ⟨⟨hhead, hword⟩, hshort⟩ := h
  cases key with
  | nil => cases hhead
  | cons c cs => exact ⟨⟨c, cs, rfl, hhead⟩, hword, hshort⟩

theorem readPlain_name {key : List Char} (h : ∀ c ∈ key, isWordChar c = true) (least index line column : Nat)
    (ds : List Char) : readPlain false least (listFrom index line column (key ++ ':' :: ' ' :: ds)) =
      some (key, false, listFrom (index + key.length) line (column + key.length) (':' :: ' ' :: ds)) := by
  rw [readPlain, readPlainFrom_word h, List.append_nil, listFrom_cons rfl, listFrom_cons rfl, readPlainFrom]
  simp [endsPlain, Glyph.next, Gap.none, Gap.crossesLine, show isGap ':' = false from rfl,
    show startsGap (some ' ') = true from rfl]

def atColon (ts : List (Token String)) (blocks : List Nat) (key : List Char) (index line column : Nat)
    (gs : List Glyph) : Scan :=
  ⟨gs, .scalar .plain (String.ofList key) :: ts.reverse, ts.length + 1, blocks, false,
    some ⟨ts.length, index, line, column, blocks.head? == some column⟩, []⟩

def blocksAt (first : Bool) (margin : Nat) (outer : List Nat) : List Nat := if first then outer else margin :: outer

variable {key : List Char} {first : Bool}

theorem le_of_mem_blocksAt (houter : ∀ n ∈ outer, n < margin) (hcol : margin ≤ column) :
    ∀ n ∈ blocksAt first margin outer, n ≤ column := by
  have hle : ∀ n ∈ outer, n ≤ column := fun n hn => (houter n hn).le.trans hcol
  cases first with
  | true => exact hle
  | false => exact List.forall_mem_cons.2 ⟨hcol, hle⟩

theorem plainScalar_atStart {c : Char} {gs gs' rest : List Glyph}
    (h : readPlain false (atStart ts blocks gs).least gs' = some (key, false, rest)) :
    (atStart ts blocks gs).plainScalar ⟨c, index, line, column⟩ gs' =
      some (atColon ts blocks key index line column rest) := by
  have hsave : (atStart ts blocks gs).saveKey ⟨c, index, line, column⟩ =
      some { atStart ts blocks gs with key := some ⟨ts.length, index, line, column, blocks.head? == some column⟩ } := by
    rw [saveKey, if_pos (show (atStart ts blocks gs).keyAllowed = true from rfl), dropKey_of_isLoose isLoose_none]
    rfl
  rw [plainScalar_eq hsave h]
  rfl

theorem finds_of_name (hkey : isName key = true) (houter : ∀ n ∈ outer, n < margin)
    (h : (atColon ts (blocksAt first margin outer) key index line margin
      (listFrom (index + key.length) line (margin + key.length) (':' :: ' ' :: ds))).Finds r) :
    (atStart ts (blocksAt first margin outer) (listFrom index line margin (key ++ ':' :: ' ' :: ds))).Finds r := by
  obtain ⟨⟨c, cs, rfl, hc⟩, hall, -⟩ := of_isName hkey
  have hword := hall c List.mem_cons_self
  have hsign := notMem_of_any ['-', '.'] hc rfl
  simp only [List.mem_cons, List.not_mem_nil, or_false, not_or] at hsign
  have hfirst : listFrom index line margin (c :: cs ++ ':' :: ' ' :: ds) =
      ⟨c, index, line, margin⟩ :: listFrom (index + 1) line (margin + 1) (cs ++ ':' :: ' ' :: ds) :=
    listFrom_cons (isBreak_of_isWordChar hword) _
  have hread := fun least => readPlain_name hall least index line margin ds
  simp only [hfirst] at hread
  rw [hfirst]
  refine .of_start rfl (startsToken_of_isWordChar hword) rfl ?_ (length_listFrom_le (List.suffix_append ..)) h
  refine (congrArg _ (unrollFrom_of_forall (le_of_mem_blocksAt houter (Nat.le_refl margin)) _)).trans ?_
  exact (token_of_plain (isRule_of_char hsign.1 _) (isRule_of_char hsign.2 _) (fun h => absurd h hsign.1)
    (beginsPlain_of_isAlphanum hc ..)).trans (plainScalar_atStart (hread _))

def openingTokens (first : Bool) : List (Token String) := if first then [.blockMapping] else []

def keyTokens (first : Bool) (key : List Char) : List (Token String) :=
  openingTokens first ++ [.key, .scalar .plain (String.ofList key), .value]

theorem value_atColon (houter : ∀ n ∈ outer, n < margin) (g : Glyph) (gs rest : List Glyph) :
    (atColon ts (blocksAt first margin outer) key index line margin gs).value g rest =
      some (atValue (ts ++ keyTokens first key) (margin :: outer) rest) := by
  have hnewer : ts.length + 1 + 1 - ts.length = 2 := by omega
  cases first with
  | true =>
    have hroll : outer.all (· < margin) = true := by simpa using houter
    simp [value, atColon, blocksAt, insert, roll, emit, inFlow, atValue, keyTokens, openingTokens, hnewer, hroll]
  | false => simp [value, atColon, blocksAt, insert, roll, emit, inFlow, atValue, keyTokens, openingTokens]

theorem finds_of_colon (hkey : isName key = true) (houter : ∀ n ∈ outer, n < margin)
    (h : (atValue (ts ++ keyTokens first key) (margin :: outer)
      (listFrom (index + key.length + 1) line (margin + key.length + 1) (' ' :: ds))).Finds r) :
    (atColon ts (blocksAt first margin outer) key index line margin
      (listFrom (index + key.length) line (margin + key.length) (':' :: ' ' :: ds))).Finds r := by
  have hfirst : listFrom (index + key.length) line (margin + key.length) (':' :: ' ' :: ds) =
      ⟨':', index + key.length, line, margin + key.length⟩ ::
        listFrom (index + key.length + 1) line (margin + key.length + 1) (' ' :: ds) := listFrom_cons rfl _
  rw [hfirst]
  have hkeys : ∀ gs, (atColon ts (blocksAt first margin outer) key index line margin gs).refreshKeys
      ⟨':', index + key.length, line, margin + key.length⟩ =
        some (atColon ts (blocksAt first margin outer) key index line margin gs) := by
    intro gs
    rw [refreshKeys, show (atColon ts (blocksAt first margin outer) key index line margin gs).key = some _ from rfl,
      refreshKey_of_near (Nat.le_refl line) (Nat.add_le_add_left (of_isName hkey).2.2 index)]
    rfl
  have hle : ∀ n ∈ blocksAt first margin outer, n ≤ margin + key.length :=
    le_of_mem_blocksAt houter (Nat.le_add_right ..)
  refine .of_start rfl rfl (hkeys _) ?_ (Nat.le_refl _) h
  exact (congrArg _ (unrollFrom_of_forall hle _)).trans
    ((token_of_colon rfl rfl).trans (value_atColon houter _ _ _))

theorem unrollFrom_none (blocks : List Nat) (s : Scan) :
    s.unrollFrom none blocks = { s with
      tokens := List.replicate blocks.length .blockEnd ++ s.tokens
      count := s.count + blocks.length
      blocks := [] } := by
  induction blocks generalizing s with
  | nil => rfl
  | cons n blocks ih =>
    rw [unrollFrom, Option.all_none, if_pos rfl, ih, List.length_cons, List.replicate_succ']
    simp [emit, Nat.add_assoc, Nat.add_comm 1]

theorem finds_of_end (ts : List (Token String)) (blocks : List Nat) :
    (atStart ts blocks []).Finds (some (ts ++ List.replicate blocks.length .blockEnd)) := by
  refine .of_finish rfl ?_
  have hunroll : (atStart ts blocks []).skip.unroll none = (atStart ts blocks []).unrollFrom none blocks := rfl
  rw [finish, hunroll, unrollFrom_none]
  simp [dropKey, atStart]

end Scan

theorem isPrintable_of_mem_indent (width : Nat) (atStart : Bool) :
    ∀ c ∈ indent width atStart, isPrintable c = true := by
  cases atStart with
  | false => exact nofun
  | true =>
    intro c hc
    rw [List.eq_of_mem_replicate hc]
    rfl

section

variable {cs : List Char} (h : ∀ c ∈ cs, isPrintable c = true) (width : Nat) (atStart : Bool)

include h

theorem isPrintable_of_mem_singleQuotedFrom : ∀ c ∈ singleQuotedFrom width atStart cs, isPrintable c = true := by
  induction cs generalizing atStart with
  | nil => exact isPrintable_of_mem_indent width atStart
  | cons c cs ih =>
    obtain ⟨hc, hcs⟩ := List.forall_mem_cons.1 h
    cases hbreak : isBreak c with
    | true =>
      rw [singleQuotedFrom, if_pos hbreak]
      exact List.forall_mem_cons.2 ⟨hc, ih hcs true⟩
    | false =>
      rw [singleQuotedFrom_visible hbreak, List.forall_mem_append, List.forall_mem_append]
      refine ⟨isPrintable_of_mem_indent width atStart, ?_, ih hcs false⟩
      unfold singleChar
      split
      · exact List.all_eq_true.1 rfl
      · exact List.forall_mem_singleton.2 hc

theorem isPrintable_of_mem_literalLines : ∀ c ∈ literalLines width atStart cs, isPrintable c = true := by
  induction cs generalizing atStart with
  | nil => cases atStart <;> exact List.all_eq_true.1 rfl
  | cons c cs ih =>
    obtain ⟨hc, hcs⟩ := List.forall_mem_cons.1 h
    rw [literalLines]
    split
    · exact List.forall_mem_cons.2 ⟨hc, ih hcs true⟩
    · exact List.forall_mem_append.2
        ⟨isPrintable_of_mem_indent width atStart, List.forall_mem_cons.2 ⟨hc, ih hcs false⟩⟩

end

theorem isPrintable_of_mem_lines {cs : List Char} {style : Style} (h : Suits cs style) (width : Nat) :
    ∀ c ∈ style.lines width cs, isPrintable c = true := by
  cases h with
  | plain _ h =>
    simp only [allowsPlain, Bool.and_eq_true, List.all_eq_true] at h
    exact List.forall_mem_append.2 ⟨fun c hc => (h.1.1.1.1 c hc).1, List.forall_mem_singleton.2 rfl⟩
  | single _ h =>
    simp only [allowsSingle, Bool.and_eq_true, List.all_eq_true] at h
    rw [Style.lines, singleQuoted, List.forall_mem_append, List.forall_mem_append, List.forall_mem_cons]
    exact ⟨⟨⟨rfl, isPrintable_of_mem_singleQuotedFrom h.1.1 width false⟩, List.forall_mem_singleton.2 rfl⟩,
      List.forall_mem_singleton.2 rfl⟩
  | double =>
    exact List.forall_mem_append.2
      ⟨fun c hc => (Bool.and_eq_true_iff.1 (isInline_of_mem_doubleQuoted c hc)).1, List.forall_mem_singleton.2 rfl⟩
  | literal _ h =>
    have hsigns : ∀ c ∈ literalSigns cs, isPrintable c = true := by
      rw [literalSigns_eq]
      cases isMargin cs.head? <;> cases Chomp.ofText cs <;> exact List.all_eq_true.1 rfl
    rw [Style.lines, List.cons_append, List.forall_mem_cons, List.forall_mem_append, List.forall_mem_cons]
    exact ⟨rfl, hsigns, rfl, isPrintable_of_mem_literalLines h width true⟩

namespace Line

def tokens {α : Type} (l : Line) : List (Token α) := [.key, .scalar .plain l.key, .value, .scalar l.style l.text]

def value (l : Line) : Yaml := .scalar .none l.style l.text

def pair (l : Line) : Yaml × Yaml := (plain l.key, l.value)

structure Reads (l : Line) : Prop where
  name : Scan.isName l.key.toList = true
  suits : Suits l.text.toList l.style

theorem reads_word {key : String} (hkey : Scan.isName key.toList = true) {cs : List Char} (h : IsWord cs) :
    (word key cs).Reads where
  name := hkey
  suits := by
    have hne : cs ≠ [] := by
      cases h with
      | bare hne => exact hne
      | minus => exact List.cons_ne_nil _ _
    rw [word, String.toList_ofList]
    exact .plain hne (allowsPlain_of_isWord h)

theorem reads_string {key : String} (hkey : Scan.isName key.toList = true) (text : String) :
    (string key text).Reads := ⟨hkey, suits_ofText text.toList⟩

theorem Reads.isPrintable {l : Line} (h : l.Reads) (margin : Nat) : ∀ c ∈ l.chars margin, isPrintable c = true := by
  rw [Line.chars, List.forall_mem_append, List.forall_mem_cons, List.forall_mem_cons]
  exact ⟨fun c hc => (Bool.and_eq_true_iff.1 (isInline_of_isWordChar ((Scan.of_isName h.name).2.1 c hc))).1, rfl, rfl,
    isPrintable_of_mem_lines h.suits (margin + 2)⟩

theorem Reads.atMargin {l : Line} (h : l.Reads) (margin : Nat) (ds : List Char) : AtMargin (l.chars margin ++ ds) := by
  obtain ⟨⟨c, cs, hkey, hc⟩, -⟩ := Scan.of_isName h.name
  rw [Line.chars, hkey]
  rintro d ⟨⟩
  exact isGap_of_isWordChar (isWordChar_of_isAlphanum hc)

end Line

open Scan

variable {l : Line} {lines : List Line} {margin k : Nat} {outer : List Nat} {ts : List (Token String)} {ds : List Char}
  {r : Option (List (Token String))} {first : Bool}

theorem Line.Reads.finds (h : l.Reads) (houter : ∀ n ∈ outer, n < margin) (hk : k ≤ margin) (hds : AtMargin ds)
    (finds : ∀ index line, (atStart (ts ++ (openingTokens first ++ l.tokens)) (margin :: outer)
      (listFrom index line k ds)).Finds r) (index line : Nat) :
    (atStart ts (blocksAt first margin outer)
      (listFrom index line margin (l.chars margin ++ (List.replicate k ' ' ++ ds)))).Finds r := by
  rw [Line.chars, List.append_assoc, List.cons_append, List.cons_append]
  refine finds_of_name h.name houter (finds_of_colon h.name houter (finds_of_space ?_))
  refine readsAs_lines h.suits houter (by omega) hk hds fun index' line' => ?_
  have htokens : ts ++ keyTokens first l.key.toList ++ [.scalar l.style (String.ofList l.text.toList)] =
      ts ++ (openingTokens first ++ l.tokens) := by
    rw [keyTokens, String.ofList_toList, String.ofList_toList, List.append_assoc, List.append_assoc]
    rfl
  rw [htokens]
  exact finds index' line'

def furtherText (margin : Nat) (lines : List Line) : List Char :=
  lines.flatMap fun l => List.replicate margin ' ' ++ l.chars margin

theorem finds_of_lines (hl : l.Reads) (hlines : ∀ l ∈ lines, l.Reads) (houter : ∀ n ∈ outer, n < margin)
    (hk : k ≤ margin) (hds : AtMargin ds)
    (finds : ∀ index line, (atStart (ts ++ (openingTokens first ++ (l :: lines).flatMap Line.tokens)) (margin :: outer)
      (listFrom index line k ds)).Finds r) (index line : Nat) :
    (atStart ts (blocksAt first margin outer) (listFrom index line margin
      (l.chars margin ++ (furtherText margin lines ++ (List.replicate k ' ' ++ ds))))).Finds r := by
  induction lines generalizing l ts first index line with
  | nil =>
    refine hl.finds houter hk hds (fun index line => ?_) index line
    simpa using finds index line
  | cons l' lines ih =>
    obtain ⟨hl', hlines⟩ := List.forall_mem_cons.1 hlines
    rw [furtherText, List.flatMap_cons, List.append_assoc, List.append_assoc]
    refine hl.finds houter (Nat.le_refl margin) (hl'.atMargin margin _) (fun index line => ?_) index line
    refine @ih l' _ false hl' hlines (fun index line => ?_) index line
    simpa [openingTokens] using finds index line

theorem tokens?_lines (hl : l.Reads) (hlines : ∀ l ∈ lines, l.Reads) : tokens? (mappingText (l :: lines)) =
    some (.blockMapping :: (l :: lines).flatMap Line.tokens ++ [.blockEnd]) := by
  have htext : mappingText (l :: lines) = l.chars 0 ++ (furtherText 0 lines ++ (List.replicate 0 ' ' ++ [])) := by
    simp [mappingText, furtherText]
  have hfinds : (atStart [] [] (listFrom 0 0 0 (mappingText (l :: lines)))).Finds
      (some (.blockMapping :: (l :: lines).flatMap Line.tokens ++ [.blockEnd])) := by
    rw [htext]
    exact @finds_of_lines l lines 0 0 [] [] [] _ true hl hlines (List.forall_mem_nil _) (Nat.le_refl 0) atMargin_nil
      (fun _ _ => finds_of_end _ [0]) 0 0
  exact hfinds _ (Nat.lt_succ_of_le (Nat.le_of_eq (length_listFrom ..)))

section

variable {handles : Handles} {fuel : Nat} {ts : List (Token Nat)}

theorem readPairs_cons (l : Line) {pairs : List (Yaml × Yaml)} {ts' : List (Token Nat)}
    (h : readPairs handles (fuel + 3) ts = some (pairs, ts')) :
    readPairs handles (fuel + 4) (l.tokens ++ ts) = some (l.pair :: pairs, ts') := by
  have hkey : readPart handles .blockPair endsPart (fuel + 3)
      (.scalar .plain l.key :: .value :: .scalar l.style l.text :: ts) =
        some (plain l.key, .value :: .scalar l.style l.text :: ts) := readNode_scalar ..
  have hvalue : readValue handles .blockPair endsPart (fuel + 3) (.value :: .scalar l.style l.text :: ts) =
      some (.scalar .none l.style l.text, ts) := readNode_scalar ..
  simp [Line.tokens, readPairs, hkey, hvalue, h, Line.pair, Line.value]

theorem readPairs_lines (lines : List Line) (hfuel : lines.length + 4 ≤ fuel) (handles : Handles)
    (ts : List (Token Nat)) :
    readPairs handles fuel (lines.flatMap Line.tokens ++ .blockEnd :: ts) = some (lines.map Line.pair, ts) := by
  obtain ⟨fuel, rfl⟩ := Nat.exists_eq_add_of_le' (Nat.le_of_add_left_le hfuel)
  induction lines generalizing fuel with
  | nil => simp [readPairs]
  | cons l ls ih =>
    rw [List.length_cons] at hfuel
    obtain ⟨fuel, rfl⟩ := Nat.exists_eq_succ_of_ne_zero (show fuel ≠ 0 by omega)
    rw [List.flatMap_cons, List.append_assoc]
    exact readPairs_cons l (ih fuel (by omega))

theorem length_le_tokens (lines : List Line) :
    lines.length ≤ (lines.flatMap Line.tokens : List (Token Nat)).length := by
  induction lines with
  | nil => exact Nat.le_refl 0
  | cons l ls ih =>
    rw [List.flatMap_cons, List.length_append, List.length_cons]
    simp only [Line.tokens, List.length_cons, List.length_nil]
    omega

theorem readDocument_blockMapping {pairs : List (Yaml × Yaml)}
    (h : readPairs standardHandles (4 * ts.length + 7) ts = some (pairs, [])) :
    readDocument (.blockMapping :: ts) = some (.mapping .none pairs, []) := by
  have hnode : readNode standardHandles .block (4 * ts.length + 7 + 1) (.blockMapping :: ts) =
      some (.mapping .none pairs, []) := by
    simp [readNode, readProperties, h]
  exact hnode

end

theorem numbersTo_lines (lines : List Line) :
    NumbersTo (lines.flatMap Line.tokens) (lines.flatMap Line.tokens) := by
  induction lines with
  | nil => exact .nil
  | cons l ls ih =>
    rw [List.flatMap_cons, List.flatMap_cons]
    refine .append ?_ ih
    exact .cons (fun _ _ => rfl) (.cons (fun _ _ => rfl) (.cons (fun _ _ => rfl) (.cons (fun _ _ => rfl) .nil)))

theorem read?_lines (hl : l.Reads) (hlines : ∀ l ∈ lines, l.Reads) {text : String}
    (htext : text.toList = mappingText (l :: lines)) :
    read? text = some (.ofRoot (.mapping .none ((l :: lines).map Line.pair))) := by
  have hnumbers : NumbersTo (.blockMapping :: (l :: lines).flatMap Line.tokens ++ [.blockEnd])
      (.blockMapping :: (l :: lines).flatMap Line.tokens ++ [.blockEnd]) :=
    .append (.cons (fun _ _ => rfl) (numbersTo_lines _)) (.cons (fun _ _ => rfl) .nil)
  have hprint : ∀ c ∈ text.toList, isPrintable c = true := by
    rw [htext]
    intro c hc
    obtain ⟨k, hk, hc⟩ := List.mem_flatMap.1 hc
    exact (List.forall_mem_cons.2 ⟨hl, hlines⟩ k hk).isPrintable 0 c hc
  refine read?_of_tokens? hprint (htext ▸ tokens?_lines hl hlines) hnumbers (readDocument_blockMapping ?_)
  refine readPairs_lines (l :: lines) ?_ standardHandles []
  have hlength := length_le_tokens (l :: lines)
  change _ ≤ 4 * ((l :: lines).flatMap Line.tokens ++ [Token.blockEnd] : List (Token Nat)).length + 7
  rw [List.length_append]
  omega

end FilterQuery.Yaml
