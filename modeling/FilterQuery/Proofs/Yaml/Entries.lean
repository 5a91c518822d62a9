import FilterQuery.Proofs.Yaml.Lines

namespace FilterQuery.Yaml

open Glyph Scan

variable {l : Line} {lines entry : List Line} {entries : List (List Line)} {ts : List (Token String)} {ds : List Char}
  {r : Option (List (Token String))} {first : Bool} {index line : Nat}

namespace Scan

theorem token_of_dash {g : Glyph} {rest : List Glyph} (h : g.char = '-') (hnext : next rest = some ' ') (s : Scan) :
    s.token g rest = s.blockEntry g rest := by
  have hdash : isRule '-' (g :: rest) = false := isRule_of_next (by rw [hnext]; decide) g
  have hgap : startsGap (some ' ') = true := rfl
  simp [token, h, hdash, hnext, hgap, isRule_of_char]

def blocksAtEntry (first : Bool) : List Nat := if first then [] else [2, 0]

def entryOpening (first : Bool) : List (Token String) := [if first then .blockSequence else .blockEnd, .blockEntry]

theorem finds_of_dash (h : (atStart (ts ++ entryOpening first) [0] (listFrom (index + 2) line 2 ds)).Finds r) :
    (atStart ts (blocksAtEntry first) (listFrom index line 0 ('-' :: ' ' :: ds))).Finds r := by
  have hstart : (atStart (ts ++ entryOpening first) [0] (listFrom (index + 1) line 1 (' ' :: ds))).Finds r :=
    @finds_of_indent r (ts ++ entryOpening first) [0] (index + 1) line 1 1 ds h
  have hrest : (atStart ts (blocksAtEntry first) (listFrom index line 0 ('-' :: ' ' :: ds))).rest =
      ⟨'-', index, line, 0⟩ :: listFrom (index + 1) line 1 (' ' :: ds) := listFrom_cons rfl _
  refine .of_start hrest rfl rfl ?_ (Nat.le_refl _) hstart
  rw [token_of_dash rfl (next_listFrom ..)]
  cases first <;> simp [blocksAtEntry, entryOpening, atStart, unroll, unrollFrom, blockEntry, roll, insert,
    dropKey, emit, inFlow]

end Scan

def entryTokens {α : Type} (entry : List Line) : List (Token α) :=
  .blockEntry :: .blockMapping :: entry.flatMap Line.tokens ++ [.blockEnd]

theorem finds_of_entry (hl : l.Reads) (hlines : ∀ l ∈ lines, l.Reads) (hds : AtMargin ds)
    (finds : ∀ index line, (atStart (ts ++ (entryOpening first ++ .blockMapping :: (l :: lines).flatMap Line.tokens))
      [2, 0] (listFrom index line 0 ds)).Finds r) (index line : Nat) :
    (atStart ts (blocksAtEntry first) (listFrom index line 0 (entryText (l :: lines) ++ ds))).Finds r := by
  have htext : entryText (l :: lines) ++ ds =
      '-' :: ' ' :: (l.chars 2 ++ (furtherText 2 lines ++ (List.replicate 0 ' ' ++ ds))) := by
    simp [entryText, furtherText, List.replicate]
  rw [htext]
  refine finds_of_dash ?_
  refine @finds_of_lines l lines 2 0 [0] _ ds r true hl hlines (by decide) (Nat.zero_le 2) hds (fun index line => ?_)
    (index + 2) line
  rw [List.append_assoc]
  exact finds index line

theorem atMargin_entries (h : ∀ e ∈ entries, e ≠ []) : AtMargin (entries.flatMap entryText) := by
  cases entries with
  | nil => exact atMargin_nil
  | cons e entries =>
    obtain ⟨l, lines, rfl⟩ := List.exists_cons_of_ne_nil (h e List.mem_cons_self)
    rintro d ⟨⟩
    rfl

theorem finds_of_entries (hne : ∀ e ∈ entries, e ≠ []) (h : ∀ e ∈ entries, ∀ l ∈ e, l.Reads)
    (ts : List (Token String)) (index line : Nat) :
    (atStart ts [2, 0] (listFrom index line 0 (entries.flatMap entryText))).Finds
      (some (ts ++ .blockEnd :: entries.flatMap entryTokens ++ [.blockEnd])) := by
  -- The tokens of the entries in front are kept in `ts`.
  induction entries generalizing ts index line with
  | nil =>
    rw [List.flatMap_nil, List.flatMap_nil, List.append_assoc]
    exact finds_of_end ts [2, 0]
  | cons e entries ih =>
    obtain ⟨he, hnext⟩ := List.forall_mem_cons.1 hne
    obtain ⟨hreads, hrest⟩ := List.forall_mem_cons.1 h
    obtain ⟨l, lines, rfl⟩ := List.exists_cons_of_ne_nil he
    obtain ⟨hl, hlines⟩ := List.forall_mem_cons.1 hreads
    rw [List.flatMap_cons]
    refine @finds_of_entry l lines ts (entries.flatMap entryText) _ false hl hlines (atMargin_entries hnext)
      (fun index line => ?_) index line
    have hfinds := ih hnext hrest
      (ts ++ (entryOpening false ++ .blockMapping :: (l :: lines).flatMap Line.tokens)) index line
    simpa [entryOpening, entryTokens] using hfinds

theorem tokens?_entries (he : entry ≠ []) (hreads : ∀ l ∈ entry, l.Reads) (hne : ∀ e ∈ entries, e ≠ [])
    (h : ∀ e ∈ entries, ∀ l ∈ e, l.Reads) : tokens? ((entry :: entries).flatMap entryText) =
      some (.blockSequence :: (entry :: entries).flatMap entryTokens ++ [.blockEnd]) := by
  obtain ⟨l, lines, rfl⟩ := List.exists_cons_of_ne_nil he
  obtain ⟨hl, hlines⟩ := List.forall_mem_cons.1 hreads
  have hfinds : (atStart [] [] (listFrom 0 0 0 (((l :: lines) :: entries).flatMap entryText))).Finds
      (some (.blockSequence :: ((l :: lines) :: entries).flatMap entryTokens ++ [.blockEnd])) := by
    rw [List.flatMap_cons]
    refine @finds_of_entry l lines [] (entries.flatMap entryText) _ true hl hlines (atMargin_entries hne)
      (fun index line => ?_) 0 0
    have hrest := finds_of_entries hne h
      (entryOpening true ++ .blockMapping :: (l :: lines).flatMap Line.tokens) index line
    simpa [entryOpening, entryTokens] using hrest
  exact hfinds _ (Nat.lt_succ_of_le (Nat.le_of_eq (length_listFrom ..)))

def entryNode (entry : List Line) : Yaml := .mapping .none (entry.map Line.pair)

section

variable {handles : Handles} {fuel : Nat} {ts : List (Token Nat)}

theorem readPart_entry (hfuel : entry.length + 6 ≤ fuel) (handles : Handles) (ts : List (Token Nat)) :
    readPart handles .block endsItem fuel (.blockMapping :: (entry.flatMap Line.tokens ++ .blockEnd :: ts)) =
      some (entryNode entry, ts) := by
  obtain ⟨fuel, rfl⟩ : ∃ n, fuel = n + 2 := ⟨fuel - 2, by omega⟩
  have hpairs := readPairs_lines entry (show entry.length + 4 ≤ fuel by omega) handles ts
  have hnode : readNode handles .block (fuel + 1) (.blockMapping :: (entry.flatMap Line.tokens ++ .blockEnd :: ts)) =
      some (entryNode entry, ts) := by
    simp [readNode, readProperties, hpairs, entryNode]
  rw [readPart]
  exact hnode

theorem readItems_entries (hlen : entries.length < fuel)
    (hfuel : ∀ e ∈ entries, e.length + entries.length + 6 ≤ fuel) (handles : Handles) (ts : List (Token Nat)) :
    readItems handles fuel (entries.flatMap entryTokens ++ .blockEnd :: ts) = some (entries.map entryNode, ts) := by
  induction entries generalizing fuel with
  | nil =>
    obtain ⟨fuel, rfl⟩ := Nat.exists_eq_succ_of_ne_zero (Nat.ne_zero_of_lt hlen)
    simp [readItems]
  | cons e entries ih =>
    obtain ⟨fuel, rfl⟩ := Nat.exists_eq_succ_of_ne_zero (Nat.ne_zero_of_lt hlen)
    simp only [List.length_cons] at hlen hfuel
    obtain ⟨he, hfuel⟩ := List.forall_mem_cons.1 hfuel
    have hpart := readPart_entry (show e.length + 6 ≤ fuel by omega) handles
      (entries.flatMap entryTokens ++ .blockEnd :: ts)
    have hless : ∀ e' ∈ entries, e'.length + entries.length + 6 ≤ fuel := by
      intro e' he'
      have hlength := hfuel e' he'
      omega
    have hitems := ih (show entries.length < fuel by omega) hless
    simp [readItems, entryTokens, hpart, hitems]

theorem readDocument_blockSequence {items : List Yaml}
    (h : readItems standardHandles (4 * ts.length + 7) ts = some (items, [])) :
    readDocument (.blockSequence :: ts) = some (.sequence .none items, []) := by
  have hnode : readNode standardHandles .block (4 * ts.length + 7 + 1) (.blockSequence :: ts) =
      some (.sequence .none items, []) := by
    simp [readNode, readProperties, h]
  exact hnode

end

theorem length_le_entryTokens (entries : List (List Line)) :
    entries.length ≤ (entries.flatMap entryTokens : List (Token Nat)).length ∧
      ∀ e ∈ entries, e.length + entries.length ≤ (entries.flatMap entryTokens : List (Token Nat)).length := by
  induction entries with
  | nil => exact ⟨Nat.le_refl 0, nofun⟩
  | cons e entries ih =>
    obtain ⟨hlen, hall⟩ := ih
    have htokens := length_le_tokens e
    have hentry : (entryTokens e : List (Token Nat)).length =
        (e.flatMap Line.tokens : List (Token Nat)).length + 3 := by
      simp [entryTokens]
    rw [List.flatMap_cons, List.length_append, List.length_cons, hentry]
    refine ⟨by omega, List.forall_mem_cons.2 ⟨by omega, fun e' he' => ?_⟩⟩
    have hlength := hall e' he'
    omega

theorem numbersTo_entries (entries : List (List Line)) :
    NumbersTo (entries.flatMap entryTokens) (entries.flatMap entryTokens) := by
  induction entries with
  | nil => exact .nil
  | cons e entries ih =>
    rw [List.flatMap_cons, List.flatMap_cons]
    refine .append (.append ?_ (.cons (fun _ _ => rfl) .nil)) ih
    exact .cons (fun _ _ => rfl) (.cons (fun _ _ => rfl) (numbersTo_lines e))

theorem isPrintable_of_mem_entryText (h : ∀ l ∈ entry, l.Reads) : ∀ c ∈ entryText entry, isPrintable c = true := by
  cases entry with
  | nil => exact nofun
  | cons l lines =>
    obtain ⟨hl, hlines⟩ := List.forall_mem_cons.1 h
    refine List.forall_mem_append.2 ⟨List.forall_mem_cons.2 ⟨rfl, List.forall_mem_cons.2 ⟨rfl, hl.isPrintable 2⟩⟩, ?_⟩
    intro c hc
    obtain ⟨k, hk, hc⟩ := List.mem_flatMap.1 hc
    have hspaced : ∀ d ∈ ' ' :: ' ' :: k.chars 2, isPrintable d = true :=
      List.forall_mem_cons.2 ⟨rfl, List.forall_mem_cons.2 ⟨rfl, (hlines k hk).isPrintable 2⟩⟩
    exact hspaced c hc

theorem read?_entries (hsome : entries ≠ []) (hne : ∀ e ∈ entries, e ≠ []) (h : ∀ e ∈ entries, ∀ l ∈ e, l.Reads)
    {text : String} (htext : text.toList = entries.flatMap entryText) :
    read? text = some (.ofRoot (.sequence .none (entries.map entryNode))) := by
  obtain ⟨e, entries, rfl⟩ := List.exists_cons_of_ne_nil hsome
  have hprint : ∀ c ∈ text.toList, isPrintable c = true := by
    rw [htext]
    intro c hc
    obtain ⟨k, hk, hc⟩ := List.mem_flatMap.1 hc
    exact isPrintable_of_mem_entryText (h k hk) c hc
  have hnumbers : NumbersTo (.blockSequence :: (e :: entries).flatMap entryTokens ++ [.blockEnd])
      (.blockSequence :: (e :: entries).flatMap entryTokens ++ [.blockEnd]) :=
    .append (.cons (fun _ _ => rfl) (numbersTo_entries _)) (.cons (fun _ _ => rfl) .nil)
  have htokens := tokens?_entries (hne e List.mem_cons_self) (h e List.mem_cons_self)
    (fun k hk => hne k (List.mem_cons_of_mem e hk)) fun k hk => h k (List.mem_cons_of_mem e hk)
  obtain ⟨hlen, hall⟩ := length_le_entryTokens (e :: entries)
  have hread : readDocument (.blockSequence :: (e :: entries).flatMap entryTokens ++ [.blockEnd]) =
      some (.sequence .none ((e :: entries).map entryNode), []) := by
    refine readDocument_blockSequence (readItems_entries ?_ (fun k hk => ?_) standardHandles [])
    · rw [List.append_eq, List.length_append]
      omega
    · have hlength := hall k hk
      rw [List.append_eq, List.length_append]
      omega
  exact read?_of_tokens? hprint (htext ▸ htokens) hnumbers hread

end FilterQuery.Yaml
