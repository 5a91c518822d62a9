import FilterQuery.Proofs.Canonical.Read
import FilterQuery.Proofs.Grammar.Comparisons

/-! From a query to the canonical text of what it compiles to, and back. The text is read and compiles to the
same again just in case the query searches for words with single blanks between them, asks for no number that is
too great to be one, and names no field whose lower case is no word. -/

namespace FilterQuery

open Grammar (IsSound IsValue Unary)
open Token (Kind Scans)

namespace Text

theorem isSearchWord_of_mem_blankSplitFrom {cs run w : List Char} (hrun : ∀ c ∈ run, isBlank c = false)
    (h : w ∈ blankSplitFrom run cs) : IsSearchWord w := by
  have hlast : w ∈ (if run.isEmpty then [] else [run]) → IsSearchWord w := by
    intro hw
    split at hw
    · cases hw
    · next hne =>
      rw [List.mem_singleton.1 hw]
      exact ⟨by simpa using hne, hrun⟩
  induction cs generalizing run with
  | nil => exact hlast h
  | cons c cs ih =>
    rw [blankSplitFrom] at h
    split at h
    · rcases List.mem_append.1 h with h | h
      · exact hlast h
      · exact ih (by simp) h (by simp)
    · next hc =>
      have hrun' : ∀ d ∈ run ++ [c], isBlank d = false := by
        refine List.forall_mem_append.2 ⟨hrun, List.forall_mem_singleton.2 ?_⟩
        simpa using hc
      refine ih hrun' h fun hw => ?_
      rw [if_neg (by simp), List.mem_singleton] at hw
      rw [hw]
      exact ⟨by simp, hrun'⟩

theorem isSearchWord_of_mem_blankSplit {cs w : List Char} (h : w ∈ blankSplit cs) : IsSearchWord w :=
  isSearchWord_of_mem_blankSplitFrom (by simp) h

end Text

namespace Compiled

def IsCollapsed (c : Compiled) : Prop := ∀ s, c.search = some s → ∃ ws : List String, ws ≠ [] ∧
  s = " ".intercalate ws ∧ ∀ w ∈ ws, Text.IsSearchWord w.toList

def collapsed (c : Compiled) : Compiled :=
  { c with search := if c.searchWords.isEmpty then none else some (" ".intercalate c.searchWords) }

theorem isSearchWord_of_mem {c : Compiled} : ∀ w ∈ c.searchWords, Text.IsSearchWord w.toList := by
  intro w hw
  obtain ⟨cs, hcs, rfl⟩ := List.mem_map.1 hw
  rw [String.toList_ofList]
  exact Text.isSearchWord_of_mem_blankSplit hcs

theorem searchWords_intercalate {c : Compiled} {ws : List String} (h : c.search = some (" ".intercalate ws))
    (hws : ∀ w ∈ ws, Text.IsSearchWord w.toList) : c.searchWords = ws := by
  have hsplit : Text.blankSplit (" ".intercalate ws).toList = ws.map String.toList := by
    rw [String.toList_intercalate]
    exact Text.blankSplit_intercalate (List.forall_mem_map.2 hws)
  rw [searchWords, h, Option.map_some, Option.getD_some, hsplit, List.map_map]
  simp

theorem searchWords_collapsed (c : Compiled) : c.collapsed.searchWords = c.searchWords := by
  cases hw : c.searchWords with
  | nil =>
    have hnone : c.collapsed.search = none := by simp [collapsed, hw]
    rw [searchWords, hnone]
    rfl
  | cons w ws =>
    have hsome : c.collapsed.search = some (" ".intercalate c.searchWords) := by simp [collapsed, hw]
    rw [searchWords_intercalate hsome isSearchWord_of_mem, hw]

theorem isCollapsed_collapsed (c : Compiled) : c.collapsed.IsCollapsed := by
  intro s h
  unfold collapsed at h
  dsimp only at h
  split at h
  · cases h
  · next hne => exact ⟨c.searchWords, by simpa using hne, (Option.some.inj h).symm, isSearchWord_of_mem⟩

theorem collapsed_eq_iff {c : Compiled} : c.collapsed = c ↔ c.IsCollapsed := by
  constructor
  · intro h
    rw [← h]
    exact isCollapsed_collapsed c
  · intro h
    have hsearch : (if c.searchWords.isEmpty then none else some (" ".intercalate c.searchWords)) = c.search := by
      cases hs : c.search with
      | none =>
        have hwords : c.searchWords = [] := by
          rw [searchWords, hs]
          rfl
        rw [hwords]
        rfl
      | some s =>
        obtain ⟨ws, hne, rfl, hws⟩ := h s hs
        rw [searchWords_intercalate hs hws, if_neg (by simpa using hne)]
    rw [collapsed, hsearch]

theorem leaves_collapsed (c : Compiled) : c.collapsed.leaves = c.leaves := by
  rw [leaves, searchWords_collapsed]
  rfl

theorem toQuery_collapsed (c : Compiled) : c.collapsed.toQuery = c.toQuery := by
  rw [toQuery, toQuery, texts_eq, texts_eq, leaves_collapsed]

end Compiled

theorem Node.readsAlone_of_unary {n : Node} (hn : n.isGroup = false) {ks : List Kind} (hs : Scans n.text ks)
    (hu : Unary ks none (some n)) : n.ReadsAlone := by
  have hquery : n.toQuery.toList = n.text := String.toList_ofList
  rw [← hquery] at hs
  obtain ⟨t, ht, hp, hr⟩ := hs.exists_parse (.one (.one hu))
  refine ⟨t, ht, hp, ?_⟩
  cases n with
  | group => cases hn
  | _ => exact hr

theorem Leaf.readsAlone {l : Leaf} {ks : List Kind} (hs : Scans l.text ks) (hu : Unary ks none (some (.leaf l))) :
    (Node.leaf l).ReadsAlone := Node.readsAlone_of_unary rfl hs hu

theorem readsAlone_wildcard {p : String} (h : (Kind.wildcard p).IsLexed) :
    (Node.leaf (.wildcard p none)).ReadsAlone := by
  obtain ⟨hw, heq⟩ := h.isWord rfl
  exact Leaf.readsAlone (Leaf.scans ⟨⟨hw, heq.symm⟩, nofun⟩) (.plain (.wildcard rfl))

theorem readsAlone_regex {p f : String} {field : Option String} (h : (Leaf.regex p f field).IsRead)
    (hf : Leaf.FieldIsWord field) : (Node.leaf (.regex p f field)).ReadsAlone := by
  obtain ⟨hlexed, hregex, hfield⟩ := h
  have hs := Leaf.scans (l := .regex p f field) ⟨hlexed.isRegexLiteral, hf⟩
  cases field with
  | none => exact Leaf.readsAlone hs (.plain (.regex hregex rfl))
  | some g =>
    obtain ⟨w, hw, hcomparable, hcontent, rfl⟩ := hfield g rfl
    have hkinds : (Leaf.regex p f (some (Text.lower w))).kinds = [.word (Text.lower w), .colon, .regex p f] := by
      rw [← Token.classify_lower (hw.isWord rfl).2.symm]
      rfl
    have hcomparable' : Clause.comparable? (Text.lower w) = none := by
      rw [Clause.comparable?, Text.ofName?_lower]
      exact hcomparable
    have hlower : Clause.fieldOf (Text.lower w) = some (Text.lower w) := by
      rw [Clause.fieldOf, Text.ofName?_lower, if_neg hcontent, Text.lower_lower]
    rw [hkinds] at hs
    refine Leaf.readsAlone hs (.plain (.fieldRegex hcomparable' hregex ?_))
    rw [hlower]
    rfl

namespace Compiled

structure IsExpressible (c : Compiled) : Prop where
  fields : ∀ r ∈ c.regexes, Leaf.FieldIsWord r.field
  quality : AllBounds (· ≠ .infinite false) c.quality
  similarity : AllBounds (· ≠ .infinite false) c.similarity

/-- What a query that was compiled from text asks for is what its canonical text asks for. -/
structure IsFaithful (c : Compiled) : Prop extends c.IsExpressible where
  search : c.IsCollapsed

theorem AllBounds.isPositive {b : Bounds Double} (h : AllBounds Double.IsUnsigned b)
    (hb : AllBounds (· ≠ .infinite false) b) : AllBounds Double.IsPositive b :=
  ⟨fun x hx => (h.1 x hx).resolve_right (hb.1 x hx), fun x hx => (h.2 x hx).resolve_right (hb.2 x hx)⟩

theorem IsRead.isCanonical_collapsed {c : Compiled} (h : c.IsRead) (he : c.IsExpressible) :
    c.collapsed.IsCanonical where
  sources := h.sources
  excludedSources := h.excludedSources
  spanningSources := h.spanningSources
  uncategorizedSources := h.uncategorizedSources
  formats := h.formats
  excludedFormats := h.excludedFormats
  search := isCollapsed_collapsed c
  excludedTerms := h.excludedTerms
  regexes := ⟨h.regexes.1, fun r hr => readsAlone_regex (h.regexes.2 r hr) (he.fields r hr)⟩
  phrases := h.phrases
  wildcards := ⟨h.wildcards.1, fun p hp => readsAlone_wildcard (h.wildcards.2 p hp)⟩
  tags := h.tags
  excludedTags := h.excludedTags
  dates := h.dates
  words := h.words
  quality := h.quality.isPositive he.quality
  similarity := h.similarity.isPositive he.similarity

theorem exists_parse_of_parts {query : String} {ls : List Leaf} (h : ∀ l ∈ ls, l.IsPart)
    (hquery : query.toList = [' '].intercalate (ls.map Leaf.partText)) :
    ∃ t, Tree.parse query = .ok t ∧ t.problems = [] ∧
      ∀ page, ofNode? page t.root = ofLeaves page (ls.map fun l => (l, false)) := by
  by_cases hnil : ls = []
  · subst hnil
    rw [List.map_nil, List.intercalate_nil] at hquery
    have hts : Token.scanFrom 0 query.toList = .ok [] := by rw [hquery, Token.scanFrom]
    refine ⟨_, Grammar.parse_of_scanFrom hts, ?_⟩
    rw [Grammar.ofClauses_readAll, Grouping.runTokens_nil]
    exact ⟨rfl, fun _ => rfl⟩
  · obtain ⟨ks, hs, hc⟩ := conjunction_of_parts hnil h
    rw [← hquery] at hs
    obtain ⟨t, ht, hp, hr⟩ := hs.scans.exists_parse (.one (hc none endsTerm_none))
    refine ⟨t, ht, hp, fun page => ?_⟩
    rw [hr, root_of_leaves, ofNode?, leaves_of_join]

end Compiled

def Leaf.IsLegible (l : Leaf) : Prop := (∃ ks, Spells l.partText ks) ∨ ∃ r : RegexTest,
  l = .regex r.pattern r.flags r.field ∧ (Leaf.regex r.pattern r.flags r.field).IsRead

theorem Leaf.isLegible_of_isPart {l : Leaf} (h : l.IsPart) : l.IsLegible := by
  obtain ⟨ks, hs, -⟩ := h
  exact .inl ⟨ks, hs⟩

theorem isSound_of_mem_fieldKinds {field : Option String} : ∀ k ∈ Leaf.fieldKinds field, IsSound k := by
  cases field with
  | none => nofun
  | some f => exact List.forall_mem_cons.2 ⟨fun _ => Token.classify_ne rfl, List.forall_mem_singleton.2 nofun⟩

theorem Leaf.spells_regex {r : RegexTest} (h : (Leaf.regex r.pattern r.flags r.field).IsRead) {tail : List Char}
    {ks : List Kind} (hs : Scans ((Leaf.regex r.pattern r.flags r.field).partText ++ tail) ks)
    (hks : ∀ k ∈ ks, IsSound k) :
    Leaf.FieldIsWord r.field ∧ ∃ us, Spells (Leaf.regex r.pattern r.flags r.field).partText us := by
  obtain ⟨hlexed, -, hfield⟩ := h
  have hfrom : FieldFrom Kind.IsLexed r.field := by
    intro g hg
    obtain ⟨w, hw, -, -, heq⟩ := hfield g hg
    exact ⟨w, hw, heq⟩
  have htext : (Leaf.regex r.pattern r.flags r.field).partText =
      Text.fieldMark r.field ++ Text.regexLiteral r.pattern.toList r.flags.toList := rfl
  rw [htext, List.append_assoc] at hs
  have hword := fieldIsWord_of_scans hfrom hs hks
  have hspelled : (Leaf.regex r.pattern r.flags r.field).IsSpelled := ⟨hlexed.isRegexLiteral, hword⟩
  refine ⟨hword, (Leaf.regex r.pattern r.flags r.field).kinds, Leaf.scans hspelled, ?_⟩
  exact List.forall_mem_append.2 ⟨isSound_of_mem_fieldKinds, List.forall_mem_singleton.2 nofun⟩

theorem Leaf.infix_of_scans {ls : List Leaf} (hls : ∀ l ∈ ls, l.IsLegible) {ks : List Kind}
    (hs : Scans ([' '].intercalate (ls.map Leaf.partText)) ks) (hks : ∀ k ∈ ks, IsSound k) :
    ∀ l ∈ ls, ∃ us, Spells l.partText us ∧ us <:+: ks := by
  induction ls generalizing ks with
  | nil => nofun
  | cons l ls ih =>
    obtain ⟨hl, hls⟩ := List.forall_mem_cons.1 hls
    -- What follows a leaf is nothing or a blank, and no token runs over either.
    have htail : ∃ tail, [' '].intercalate ((l :: ls).map Leaf.partText) = l.partText ++ tail ∧ Token.Breaks tail ∧
        ∀ us, Scans tail us → Scans ([' '].intercalate (ls.map Leaf.partText)) us := by
      cases ls with
      | nil => exact ⟨[], by simp, nofun, fun us hus => hus⟩
      | cons m ls =>
        refine ⟨' ' :: [' '].intercalate ((m :: ls).map Leaf.partText), ?_, ?_, fun us hus => ?_⟩
        · rw [List.map_cons, List.map_cons, List.intercalate_cons_cons, List.append_assoc]
          rfl
        · exact Token.breaks_cons (by decide +kernel) _
        · cases hus with
          | blank _ hus => exact hus
          | token hb => exact absurd hb (by decide +kernel)
    obtain ⟨tail, htext, hbreaks, htail⟩ := htail
    rw [htext] at hs
    have hspells : ∃ us, Spells l.partText us := by
      rcases hl with hl | ⟨r, rfl, hr⟩
      · exact hl
      · exact (Leaf.spells_regex hr hs hks).2
    obtain ⟨us, hus⟩ := hspells
    obtain ⟨vs, rfl, hvs⟩ := hus.scans.append_inv hus.isOpen hbreaks hs
    refine List.forall_mem_cons.2 ⟨⟨us, hus, (List.prefix_append us vs).isInfix⟩, fun m hm => ?_⟩
    obtain ⟨ws, hws, hin⟩ := ih hls (htail vs hvs) (fun k hk => hks k (List.mem_append_right us hk)) m hm
    exact ⟨ws, hws, hin.trans (List.suffix_append us vs).isInfix⟩

namespace Double

theorem rank_lt_infinite {m : Nat} {e : Int} (hnormal : IsNormal m e) :
    rank (.finite false m e hnormal) < rank (.infinite false) := by
  obtain ⟨hm, hleast, hgreatest, -⟩ := hnormal
  have hpow : Number.twoTo 53 = 9007199254740992 := by decide
  simp only [rank, Bool.false_eq_true, if_false, hpow] at hm ⊢
  unfold leastExponent greatestExponent at *
  split <;> omega

theorem eq_of_same_of_isUnsigned {x y : Double} (hx : x.IsUnsigned) (hy : y.IsUnsigned)
    (h : x.same y = true) : x = y := by
  have hrank : x.rank = y.rank := by
    simp only [same, Bool.and_eq_true, beq_iff_eq] at h
    exact h.2
  rcases hx with ⟨m, e, hnormal, rfl⟩ | rfl
  · rcases hy with ⟨m', e', hnormal', rfl⟩ | rfl
    · exact eq_of_same h
    · exact absurd hrank (rank_lt_infinite hnormal).ne
  · rcases hy with ⟨m', e', hnormal', rfl⟩ | rfl
    · exact absurd hrank (rank_lt_infinite hnormal').ne'
    · rfl

theorem isWord_text {x : Double} (hx : x.IsUnsigned) : Token.IsWord x.text := by
  rcases hx with hx | rfl
  · exact (Compiled.isValue_number (.inl rfl) hx).1
  · exact ⟨by decide +kernel, by unfold Token.IsWhole; decide +kernel⟩

end Double

theorem not_isValue_infinite {c : Category} {v : String} :
    ¬ IsValue c (Token.classify (Double.infinite false).text) v := by
  have hword : Token.classify (Double.infinite false).text = .word "inf" := by decide +kernel
  rw [hword]
  rintro ⟨hv, h⟩
  cases hv
  cases c with
  | date => exact absurd h (by decide +kernel)
  | words => exact absurd h (by decide +kernel)
  | _ => exact absurd h.1 (by decide)

namespace Compiled

theorem spells_mark {category : Category} {op : Comparator} (hop : op ≠ .within) {x : Double} (hx : x.IsUnsigned) :
    Spells (Leaf.comparison category op (String.ofList x.text) none).partText
      [.word category.name, .colon, .compare op, Token.classify x.text] := by
  have hspelled : (Leaf.comparison category op (String.ofList x.text) none).IsSpelled := by
    refine ⟨?_, nofun⟩
    rw [String.toList_ofList]
    exact Double.isWord_text hx
  have hkinds : (Leaf.comparison category op (String.ofList x.text) none).kinds =
      [.word category.name, .colon, .compare op, Token.classify x.text] := by
    cases op <;> first | exact absurd rfl hop | simp [Leaf.kinds]
  have hs := Leaf.scans hspelled
  rw [hkinds] at hs
  refine ⟨hs, ?_⟩
  simp only [List.forall_mem_cons, List.not_mem_nil, false_implies, implies_true, and_true]
  refine ⟨?_, ?_, ?_, fun _ => Token.classify_ne rfl⟩
  all_goals rintro f ⟨⟩

theorem exists_mark_of_end {α : Type} {category : Category} {same : α → α → Bool} {text : α → List Char}
    {b : Bounds α} (hsame : ∀ a a', b.least = some a → b.greatest = some a' → same a a' = true → a = a') {x : α}
    (hx : b.least = some x ∨ b.greatest = some x) : ∃ op, op ≠ Comparator.within ∧
      .comparison category op (String.ofList (text x)) none ∈ boundLeaves category same text b := by
  unfold boundLeaves
  rcases b with ⟨_ | a, _ | a'⟩
  · rcases hx with hx | hx <;> cases hx
  · rcases hx with hx | hx <;> cases hx
    exact ⟨.atMost, nofun, List.mem_singleton_self _⟩
  · rcases hx with hx | hx <;> cases hx
    exact ⟨.atLeast, nofun, List.mem_singleton_self _⟩
  · dsimp only
    split
    · next h =>
      obtain rfl := hsame a a' rfl rfl h
      rcases hx with hx | hx <;> cases hx <;> exact ⟨.equal, nofun, List.mem_singleton_self _⟩
    · rcases hx with hx | hx <;> cases hx
      · exact ⟨.atLeast, nofun, List.mem_cons_self⟩
      · exact ⟨.atMost, nofun, List.mem_cons_of_mem _ (List.mem_singleton_self _)⟩

theorem ne_infinite_of_infix {category : Category} {b : Bounds Double} (hb : AllBounds Double.IsUnsigned b)
    {ks : List Kind} (hks : Grammar.Derivable ks)
    (hin : ∀ l ∈ boundLeaves category Double.same Double.text b, ∃ us, Spells l.partText us ∧ us <:+: ks) :
    AllBounds (· ≠ .infinite false) b := by
  have hend : ∀ x, b.least = some x ∨ b.greatest = some x → x ≠ .infinite false := by
    rintro x hx rfl
    have hsame : ∀ a a', b.least = some a → b.greatest = some a' → Double.same a a' = true → a = a' :=
      fun a a' ha ha' => Double.eq_of_same_of_isUnsigned (hb.1 a ha) (hb.2 a' ha')
    obtain ⟨op, hop, hmem⟩ := exists_mark_of_end hsame hx
    obtain ⟨us, hus, hinfix⟩ := hin _ hmem
    rw [hus.scans.unique (spells_mark hop (.inr rfl)).scans] at hinfix
    have hpair : [.compare op, Token.classify (Double.infinite false).text] <:+: ks :=
      List.IsInfix.trans ⟨[.word category.name, .colon], [], rfl⟩ hinfix
    rcases hks with rfl | ⟨ns, h⟩
    · cases List.infix_nil.1 hpair
    · obtain ⟨c, v, hv⟩ := h.isValue_of_infix hop hpair
      exact not_isValue_infinite hv
  exact ⟨fun x hx => hend x (.inl hx), fun x hx => hend x (.inr hx)⟩

def legible (c : Compiled) : Compiled := { c with regexes := [], quality := .all, similarity := .all }

namespace IsRead

variable {c : Compiled} (h : c.IsRead)

include h

theorem isLegible : ∀ l ∈ c.leaves, l.IsLegible := by
  -- Without its regexes and decimal numbers a query is canonical but for its blanks, wherever it was read from.
  have hread : c.legible.IsRead :=
    { h with regexes := ⟨List.nodup_nil, nofun⟩, quality := allBounds_all, similarity := allBounds_all }
  have hcanonical := hread.isCanonical_collapsed ⟨nofun, allBounds_all, allBounds_all⟩
  have hparts := hcanonical.isPart
  rw [leaves_collapsed] at hparts
  have hlegible : ∀ l ∈ c.legible.leaves, l.IsLegible := fun l hl => Leaf.isLegible_of_isPart (hparts l hl)
  have hregexes : ∀ l ∈ c.regexes.map fun r => Leaf.regex r.pattern r.flags r.field, l.IsLegible :=
    List.forall_mem_map.2 fun r hr => .inr ⟨r, rfl, h.regexes.2 r hr⟩
  have hnumbers : ∀ {category : Category} {b : Bounds Double}, AllBounds Double.IsUnsigned b →
      ∀ l ∈ boundLeaves category Double.same Double.text b, l.IsLegible := by
    intro category b hb l hl
    obtain ⟨op, x, hop, hx, rfl⟩ := mem_boundLeaves hl
    exact .inl ⟨_, spells_mark hop (hx.elim (hb.1 x) (hb.2 x))⟩
  simp only [leaves, List.flatten_cons, List.flatten_nil, List.append_nil, List.forall_mem_append] at hlegible ⊢
  obtain ⟨hsources, hexcluded, hspanning, huncategorized, hformats, hexcludedFormats, hsearch, hterms, hphrases, -,
    hwildcards, htags, hexcludedTags, hdates, hwords, -⟩ := hlegible
  exact ⟨hsources, hexcluded, hspanning, huncategorized, hformats, hexcludedFormats, hsearch, hterms, hphrases,
    hregexes, hwildcards, htags, hexcludedTags, hdates, hwords, hnumbers h.quality, hnumbers h.similarity⟩

theorem isExpressible_of_parse {t : Tree} (ht : Tree.parse c.toQuery = .ok t) (hp : t.problems = []) :
    c.IsExpressible := by
  obtain ⟨ts, hs, rfl⟩ := Tree.parse_eq_ok ht
  rw [toQuery, String.toList_ofList, texts_eq] at hs
  have hderivable := Grammar.derivable_of_problems hp
  have hsound : ∀ k ∈ ts.map (·.kind), IsSound k := by
    rcases hderivable with hnil | ⟨ns, ha⟩
    · rw [hnil]
      exact List.forall_mem_nil _
    · exact ha.isSound
  have hin := Leaf.infix_of_scans h.isLegible hs hsound
  simp only [leaves, List.flatten_cons, List.flatten_nil, List.append_nil, List.forall_mem_append] at hin
  obtain ⟨-, -, -, -, -, -, -, -, -, hregexes, -, -, -, -, -, hquality, hsimilarity⟩ := hin
  refine ⟨fun r hr => ?_, ne_infinite_of_infix h.quality hderivable hquality,
    ne_infinite_of_infix h.similarity hderivable hsimilarity⟩
  obtain ⟨us, hus, -⟩ := hregexes _ (List.mem_map_of_mem hr)
  have htext := hus.scans
  rw [← List.append_nil (Leaf.regex r.pattern r.flags r.field).partText] at htext
  exact (Leaf.spells_regex (h.regexes.2 r hr) htext hus.sound).1

theorem exists_parse (he : c.IsExpressible) :
    ∃ t, Tree.parse c.toQuery = .ok t ∧ t.problems = [] ∧ ofNode? c.page t.root = c.collapsed := by
  have hcanonical := h.isCanonical_collapsed he
  have hquery : c.toQuery.toList = [' '].intercalate (c.collapsed.leaves.map Leaf.partText) := by
    rw [← toQuery_collapsed, toQuery, String.toList_ofList, texts_eq]
  obtain ⟨t, ht, hp, hc⟩ := exists_parse_of_parts hcanonical.isPart hquery
  exact ⟨t, ht, hp, (hc c.page).trans hcanonical.ofLeaves⟩

end IsRead

/-- A query without problems, the canonical text of what it compiles to, and what that compiles to: the text has
no problems and compiles to the same again if and only if the query is faithful. -/
theorem parse_toQuery_iff_isFaithful {query : String} {t : Tree} (ht : Tree.parse query = .ok t)
    (hp : t.problems = []) (page : Page) :
    (∃ t', Tree.parse (ofNode? page t.root).toQuery = .ok t' ∧ t'.problems = [] ∧
      ofNode? page t'.root = ofNode? page t.root) ↔ (ofNode? page t.root).IsFaithful := by
  have hread : (ofNode? page t.root).IsRead := isRead_ofLeaves (Tree.isRead_of_parse ht hp) page
  have hpage : (ofNode? page t.root).page = page := rfl
  generalize ofNode? page t.root = c at hread hpage ⊢
  subst hpage
  constructor
  · rintro ⟨t', ht', hp', hc⟩
    have he := hread.isExpressible_of_parse ht' hp'
    obtain ⟨u, hu, -, hcu⟩ := hread.exists_parse he
    rw [ht'] at hu
    cases hu
    exact ⟨he, collapsed_eq_iff.1 (hcu.symm.trans hc)⟩
  · rintro ⟨he, hsearch⟩
    obtain ⟨u, hu, hpu, hcu⟩ := hread.exists_parse he
    exact ⟨u, hu, hpu, hcu.trans (collapsed_eq_iff.2 hsearch)⟩

theorem parse_toQuery_iff_isFaithful_doubled_blank :
    ∃ t, Tree.parse "content:\"a  b\" -source:web" = .ok t ∧ t.problems = [] ∧
      ((∃ t', Tree.parse (ofNode? .standard t.root).toQuery = .ok t' ∧ t'.problems = [] ∧
        ofNode? .standard t'.root = ofNode? .standard t.root) ↔ (ofNode? .standard t.root).IsFaithful) := by
  have hread : ((Tree.parse "content:\"a  b\" -source:web").toOption.any (·.problems.isEmpty)) = true := by
    decide +kernel
  cases ht : Tree.parse "content:\"a  b\" -source:web" with
  | error o => rw [ht] at hread; cases hread
  | ok t =>
    rw [ht] at hread
    have hp : t.problems = [] := List.isEmpty_iff.1 hread
    exact ⟨t, rfl, hp, parse_toQuery_iff_isFaithful ht hp .standard⟩

theorem search_of_toQuery_doubled_blank :
    (do let t ← Tree.parse "content:\"a  b\""
        let c := ofNode? .standard t.root
        let t' ← Tree.parse c.toQuery
        return (t.problems.isEmpty, c.search, c.toQuery, t'.problems.isEmpty, (ofNode? .standard t'.root).search))
      = .ok (true, some "a  b", "a b", true, some "a b") := by
  decide +kernel

end Compiled

end FilterQuery
