import FilterQuery.Proofs.Parts

namespace FilterQuery

open Calendar (Period)
open Grammar (Conjunction IsValue)

namespace Text

def IsSearchWord (w : List Char) : Prop := w ≠ [] ∧ ∀ c ∈ w, isBlank c = false

theorem isSearchWord_iff {w : List Char} : IsSearchWord w ↔ w ≠ [] ∧ w.all (!isBlank ·) = true := by
  simp [IsSearchWord]

instance : DecidablePred IsSearchWord := fun _ => decidable_of_iff _ isSearchWord_iff.symm

theorem blankSplitFrom_append {w : List Char} (hw : ∀ c ∈ w, isBlank c = false) (run cs : List Char) :
    blankSplitFrom run (w ++ cs) = blankSplitFrom (run ++ w) cs := by
  induction w generalizing run with
  | nil => simp
  | cons c w ih =>
    have hc := hw c List.mem_cons_self
    have hrest := ih (fun d hd => hw d (List.mem_cons_of_mem c hd)) (run ++ [c])
    rw [List.append_assoc, List.singleton_append] at hrest
    rw [List.cons_append, blankSplitFrom, hc, ← hrest]
    rfl

theorem blankSplit_intercalate {ws : List (List Char)} (h : ∀ w ∈ ws, IsSearchWord w) :
    blankSplit ([' '].intercalate ws) = ws := by
  induction ws with
  | nil => rfl
  | cons w ws ih =>
    obtain ⟨hne, hw⟩ := h w List.mem_cons_self
    have hblank : isBlank ' ' = true := by decide +kernel
    have hempty : w.isEmpty = false := by simpa using hne
    cases ws with
    | nil =>
      have hsplit := blankSplitFrom_append hw [] []
      rw [List.append_nil] at hsplit
      rw [List.intercalate_singleton, blankSplit, hsplit]
      simp [blankSplitFrom, hne]
    | cons v ws =>
      have hrest := ih fun u hu => h u (List.mem_cons_of_mem w hu)
      rw [blankSplit] at hrest
      rw [List.intercalate_cons_cons, List.append_assoc, blankSplit, blankSplitFrom_append hw, List.cons_append,
        List.nil_append, List.nil_append, blankSplitFrom, hblank, if_pos rfl, hempty, hrest]
      rfl

end Text

theorem eraseDups_of_nodup {α : Type} [DecidableEq α] {as : List α} (h : as.Nodup) : as.eraseDups = as := by
  induction as with
  | nil => rfl
  | cons a as ih =>
    obtain ⟨ha, has⟩ := List.nodup_cons.1 h
    have hfilter : (as.filter fun b => !b == a) = as := by
      rw [List.filter_eq_self]
      intro b hb
      have hne : b ≠ a := fun heq => ha (heq ▸ hb)
      simp [hne]
    rw [List.eraseDups_cons, hfilter, ih has]

namespace Compiled

def termLeaves (c : Category) (s : Stance) (vs : List String) : List Leaf := vs.map fun v => .term c v s

def boundLeaves (category : Category) (same : α → α → Bool) (text : α → List Char) (b : Bounds α) : List Leaf :=
  let mark (op : Comparator) (a : α) : Leaf := .comparison category op (String.ofList (text a)) none
  match b with
  | ⟨some a, some b⟩ => if same a b then [mark .equal a] else [mark .atLeast a, mark .atMost b]
  | ⟨least, greatest⟩ => (least.map (mark .atLeast)).toList ++ (greatest.map (mark .atMost)).toList

def dateLeaves (b : Bounds Int) : List Leaf :=
  let mark (op : Comparator) (cs : List Char) : Leaf := .comparison .date op (String.ofList cs) none
  let ends := (b.least.map fun n => mark .atLeast (instantText (·.first) n)).toList
    ++ (b.greatest.map fun n => mark .atMost (instantText (·.last) n)).toList
  match b with
  | ⟨some first, some last⟩ => match exactPeriod? first last with
    | some period => [.term .date (String.ofList period) .is]
    | none => ends
  | _ => ends

def searchWords (c : Compiled) : List String :=
  (Text.blankSplit ((c.search.map String.toList).getD [])).map String.ofList

def leaves (c : Compiled) : List Leaf := List.flatten [
  termLeaves .source .is c.sources,
  termLeaves .source .isNot c.excludedSources,
  termLeaves .source .both c.spanningSources,
  termLeaves .source .neither c.uncategorizedSources,
  termLeaves .format .is c.formats,
  termLeaves .format .isNot c.excludedFormats,
  termLeaves .content .is c.searchWords,
  termLeaves .content .isNot c.excludedTerms,
  c.phrases.map (.phrase · none),
  c.regexes.map fun r => .regex r.pattern r.flags r.field,
  c.wildcards.map (.wildcard · none),
  termLeaves .tags .is c.tags,
  termLeaves .tags .isNot c.excludedTags,
  (c.dates.map dateLeaves).getD [],
  boundLeaves .words (· == ·) Number.digits c.words,
  boundLeaves .quality Double.same Double.text c.quality,
  boundLeaves .sim Double.same Double.text c.similarity]

theorem mem_boundLeaves {category : Category} {same : α → α → Bool} {text : α → List Char} {b : Bounds α} {l : Leaf}
    (hl : l ∈ boundLeaves category same text b) : ∃ op a, op ≠ Comparator.within ∧
      (b.least = some a ∨ b.greatest = some a) ∧ l = .comparison category op (String.ofList (text a)) none := by
  unfold boundLeaves at hl
  rcases b with ⟨_ | a, _ | b⟩
  · cases hl
  · exact ⟨.atMost, b, nofun, .inr rfl, List.mem_singleton.1 hl⟩
  · exact ⟨.atLeast, a, nofun, .inl rfl, List.mem_singleton.1 hl⟩
  · dsimp only at hl
    split at hl
    · exact ⟨.equal, a, nofun, .inl rfl, List.mem_singleton.1 hl⟩
    · simp only [List.mem_cons, List.not_mem_nil, or_false] at hl
      rcases hl with hl | hl
      · exact ⟨.atLeast, a, nofun, .inl rfl, hl⟩
      · exact ⟨.atMost, b, nofun, .inr rfl, hl⟩

theorem mem_dateLeaves {b : Bounds Int} {l : Leaf} (hl : l ∈ dateLeaves b) :
    (∃ n, b.least = some n ∧ l = .comparison .date .atLeast (String.ofList (instantText (·.first) n)) none) ∨
      (∃ n, b.greatest = some n ∧ l = .comparison .date .atMost (String.ofList (instantText (·.last) n)) none) ∨
      ∃ first last cs, b = ⟨some first, some last⟩ ∧ exactPeriod? first last = some cs ∧
        l = .term .date (String.ofList cs) .is := by
  unfold dateLeaves at hl
  rcases b with ⟨_ | first, _ | last⟩
  · cases hl
  · exact .inr (.inl ⟨last, rfl, List.mem_singleton.1 hl⟩)
  · exact .inl ⟨first, rfl, List.mem_singleton.1 hl⟩
  · dsimp only at hl
    cases hperiod : exactPeriod? first last with
    | some cs =>
      rw [hperiod, List.mem_singleton] at hl
      exact .inr (.inr ⟨first, last, cs, rfl, hperiod, hl⟩)
    | none =>
      rw [hperiod] at hl
      simp only [Option.map_some, Option.toList_some, List.cons_append, List.nil_append, List.mem_cons,
        List.not_mem_nil, or_false] at hl
      rcases hl with hl | hl
      · exact .inl ⟨first, rfl, hl⟩
      · exact .inr (.inl ⟨last, rfl, hl⟩)

theorem map_partText_terms {c : Category} (hc : c ≠ .date) (s : Stance) (vs : List String) :
    (termLeaves c s vs).map Leaf.partText = vs.map fun v => Text.term c v.toList s := by
  rw [termLeaves, List.map_map]
  refine List.map_congr_left fun v _ => ?_
  cases c <;> first | rfl | exact absurd rfl hc

theorem map_partText_boundLeaves (category : Category) (same : α → α → Bool) (text : α → List Char)
    (b : Bounds α) : (boundLeaves category same text b).map Leaf.partText = boundTexts category same text b := by
  have hmark : ∀ (op : Comparator) (a : α), op ≠ .within →
      (Leaf.comparison category op (String.ofList (text a)) none).partText =
        category.name.toList ++ ':' :: op.symbol.toList ++ text a := by
    intro op a hop
    cases op <;> first | exact absurd rfl hop | simp [Leaf.partText, Leaf.text]
  unfold boundLeaves boundTexts
  rcases b with ⟨_ | a, _ | b⟩
  · rfl
  · simp [hmark, Comparator.symbol]
  · simp [hmark, Comparator.symbol]
  · dsimp only
    split <;> simp [hmark, Comparator.symbol]

theorem map_partText_dateLeaves (b : Bounds Int) : (dateLeaves b).map Leaf.partText = dateTexts b := by
  have hmark : ∀ (op : Comparator) (cs : List Char), op ≠ .within →
      (Leaf.comparison .date op (String.ofList cs) none).partText = "date:".toList ++ op.symbol.toList ++ cs := by
    intro op cs hop
    cases op <;> first | exact absurd rfl hop | simp [Leaf.partText, Leaf.text, Category.name]
  unfold dateLeaves dateTexts
  rcases b with ⟨_ | first, _ | last⟩
  · rfl
  · simp [hmark, Comparator.symbol]
  · simp [hmark, Comparator.symbol]
  · dsimp only
    cases exactPeriod? first last with
    | none => simp [hmark, Comparator.symbol]
    | some period => simp [Leaf.partText, Category.name]

theorem texts_eq (c : Compiled) : c.texts = c.leaves.map Leaf.partText := by
  have hsearch : (termLeaves .content .is c.searchWords).map Leaf.partText =
      (Text.blankSplit ((c.search.map String.toList).getD [])).map (Text.term .content · .is) := by
    rw [map_partText_terms (by decide), searchWords, List.map_map]
    simp
  have hphrases : (c.phrases.map (Leaf.phrase · none)).map Leaf.partText =
      c.phrases.map fun p => Text.quote p.toList := by
    rw [List.map_map]
    rfl
  have hregexes : (c.regexes.map fun r => Leaf.regex r.pattern r.flags r.field).map Leaf.partText =
      c.regexes.map regexText := by
    rw [List.map_map]
    rfl
  have hwildcards : (c.wildcards.map (Leaf.wildcard · none)).map Leaf.partText = c.wildcards.map String.toList := by
    rw [List.map_map]
    rfl
  have hdates : ((c.dates.map dateLeaves).getD []).map Leaf.partText = (c.dates.map dateTexts).getD [] := by
    cases c.dates with
    | none => rfl
    | some b => exact map_partText_dateLeaves b
  simp only [leaves, List.flatten_cons, List.flatten_nil, List.append_nil, List.map_append, hsearch, hphrases,
    hregexes, hwildcards, hdates, map_partText_boundLeaves,
    map_partText_terms (show Category.source ≠ .date by decide),
    map_partText_terms (show Category.format ≠ .date by decide),
    map_partText_terms (show Category.content ≠ .date by decide),
    map_partText_terms (show Category.tags ≠ .date by decide), ← List.append_assoc]
  rfl

def AreNames (vs : List String) : Prop := vs.Nodup ∧ ∀ v ∈ vs, Text.lower v = v

structure AreDates (b : Bounds Int) : Prop where
  bounded : b.least.isSome = true ∨ b.greatest.isSome = true
  least : ∀ n, b.least = some n → Number.fitsInt n = true ∧ IsWritable (·.first) n
  greatest : ∀ n, b.greatest = some n → Number.fitsInt n = true ∧ IsWritable (·.last) n

def AllBounds (p : α → Prop) (b : Bounds α) : Prop := (∀ a, b.least = some a → p a) ∧ ∀ a, b.greatest = some a → p a

/-- A compiled query whose canonical text says all that it holds. -/
structure IsCanonical (c : Compiled) : Prop where
  sources : AreNames c.sources
  excludedSources : AreNames c.excludedSources
  spanningSources : AreNames c.spanningSources
  uncategorizedSources : AreNames c.uncategorizedSources
  formats : AreNames c.formats
  excludedFormats : AreNames c.excludedFormats
  search : ∀ s, c.search = some s → ∃ ws : List String, ws ≠ [] ∧ s = " ".intercalate ws ∧
    ∀ w ∈ ws, Text.IsSearchWord w.toList
  excludedTerms : c.excludedTerms.Nodup
  regexes : c.regexes.Nodup ∧ ∀ r ∈ c.regexes, (Node.leaf (.regex r.pattern r.flags r.field)).ReadsAlone
  phrases : c.phrases.Nodup
  wildcards : c.wildcards.Nodup ∧ ∀ p ∈ c.wildcards, (Node.leaf (.wildcard p none)).ReadsAlone
  tags : AreNames c.tags
  excludedTags : AreNames c.excludedTags
  dates : ∀ b, c.dates = some b → AreDates b
  words : AllBounds (· < Number.wordLimit) c.words
  quality : AllBounds Double.IsPositive c.quality
  similarity : AllBounds Double.IsPositive c.similarity

theorem isPart_of_mem_terms {c : Category} {s : Stance} (hs : s ≠ .neutral) (hc : c.isComparable = false)
    {vs : List String} (hvs : c.foldsCase = true → ∀ v ∈ vs, Text.lower v = v) :
    ∀ l ∈ termLeaves c s vs, l.IsPart := by
  intro l hl
  obtain ⟨v, hv, rfl⟩ := List.mem_map.1 hl
  exact Leaf.isPart_term hs hc fun hf => hvs hf v hv

theorem isPart_mark {category : Category} (hc : category.isComparable = true) {cs : List Char}
    (h : Token.IsWord cs ∧ IsValue category (Token.classify cs) (String.ofList cs)) {op : Comparator}
    (hop : op ≠ .within) : (Leaf.comparison category op (String.ofList cs) none).IsPart := by
  refine Leaf.isPart_comparison hc hop ?_ ?_
  · rw [String.toList_ofList]
    exact h.1
  · rw [String.toList_ofList]
    exact h.2

theorem isPart_of_mem_boundLeaves {category : Category} (hc : category.isComparable = true)
    (same : α → α → Bool) {text : α → List Char} {b : Bounds α}
    (h : AllBounds (fun a => Token.IsWord (text a) ∧
      IsValue category (Token.classify (text a)) (String.ofList (text a))) b) :
    ∀ l ∈ boundLeaves category same text b, l.IsPart := by
  intro l hl
  obtain ⟨op, a, hop, ha, rfl⟩ := mem_boundLeaves hl
  rcases ha with ha | ha
  · exact isPart_mark hc (h.1 a ha) hop
  · exact isPart_mark hc (h.2 a ha) hop

def ReadsAt (edge : Calendar.Period → Int) (n n' : Int) : Prop :=
  Token.IsWord (instantText edge n) ∧ '*' ∉ instantText edge n ∧
    (Period.read? (instantText edge n)).map edge = some n'

structure AreReadAs (b b' : Bounds Int) : Prop where
  bounded : b.least.isSome = true ∨ b.greatest.isSome = true
  least : Option.Rel (ReadsAt (·.first)) b.least b'.least
  greatest : Option.Rel (ReadsAt (·.last)) b.greatest b'.greatest
  period : ∀ first last cs, b = ⟨some first, some last⟩ → exactPeriod? first last = some cs →
    (Token.IsWord cs ∧ '*' ∉ cs ∧ Period.read? cs = some ⟨first, last⟩) ∧ b' = b

theorem AreDates.areReadAs {b : Bounds Int} (h : AreDates b) : AreReadAs b b where
  bounded := h.bounded
  least := by
    cases hn : b.least with
    | none => exact .none
    | some n => exact .some (instantText_spec isEdge_first (h.least n hn).1 (h.least n hn).2)
  greatest := by
    cases hn : b.greatest with
    | none => exact .none
    | some n => exact .some (instantText_spec isEdge_last (h.greatest n hn).1 (h.greatest n hn).2)
  period := by
    rintro first last cs rfl hperiod
    exact ⟨exactPeriod?_spec hperiod (h.least first rfl).2, rfl⟩

theorem isPart_instant {edge : Calendar.Period → Int} {n n' : Int} (h : ReadsAt edge n n') {op : Comparator}
    (hop : op ≠ .within) : (Leaf.comparison .date op (String.ofList (instantText edge n)) none).IsPart := by
  obtain ⟨hword, hstar, hread⟩ := h
  have hsome : (Period.read? (instantText edge n)).isSome = true := by
    obtain ⟨p, hp, -⟩ := Option.map_eq_some_iff.1 hread
    rw [hp]
    rfl
  exact isPart_mark rfl ⟨hword, isValue_date hstar hsome⟩ hop

theorem isPart_of_mem_dateLeaves {b b' : Bounds Int} (h : AreReadAs b b') : ∀ l ∈ dateLeaves b, l.IsPart := by
  obtain ⟨-, hleast, hgreatest, hperiods⟩ := h
  rcases b' with ⟨least', greatest'⟩
  intro l hl
  obtain ⟨n, hn, rfl⟩ | ⟨n, hn, rfl⟩ | ⟨first, last, cs, rfl, hperiod, rfl⟩ := mem_dateLeaves hl
  · rw [hn] at hleast
    cases hleast with
    | some hread => exact isPart_instant hread nofun
  · rw [hn] at hgreatest
    cases hgreatest with
    | some hread => exact isPart_instant hread nofun
  · obtain ⟨⟨hword, hstar, hread⟩, -⟩ := hperiods first last cs rfl hperiod
    have hsome : (Period.read? cs).isSome = true := by rw [hread]; rfl
    refine Leaf.isPart_period ?_ ?_ ?_
    all_goals
      rw [String.toList_ofList]
      assumption

theorem isPart_of_mem_words {b : Bounds Nat} (hb : AllBounds (· < Number.wordLimit) b) :
    ∀ l ∈ boundLeaves .words (· == ·) Number.digits b, l.IsPart := by
  have hvalue : ∀ n, n < Number.wordLimit → Token.IsWord (Number.digits n) ∧
      IsValue .words (Token.classify (Number.digits n)) (String.ofList (Number.digits n)) := fun n hn =>
    ⟨Token.isWord_of_isDigit (Number.digits_ne_nil n) Number.isDigit_of_mem_digits, isValue_words hn⟩
  exact isPart_of_mem_boundLeaves rfl _ ⟨fun n hn => hvalue n (hb.1 n hn), fun n hn => hvalue n (hb.2 n hn)⟩

theorem isPart_of_mem_numbers {category : Category} {b : Bounds Double} (hc : category = .quality ∨ category = .sim)
    (hb : AllBounds Double.IsPositive b) : ∀ l ∈ boundLeaves category Double.same Double.text b, l.IsPart := by
  refine isPart_of_mem_boundLeaves ?_ _ ⟨fun x hx => isValue_number hc (hb.1 x hx),
    fun x hx => isValue_number hc (hb.2 x hx)⟩
  rcases hc with rfl | rfl <;> rfl

theorem IsCanonical.isPart {c : Compiled} (h : c.IsCanonical) : ∀ l ∈ c.leaves, l.IsPart := by
  have hnames : ∀ {category : Category} {s : Stance} {vs : List String}, AreNames vs → s ≠ .neutral →
      category.isComparable = false → ∀ l ∈ termLeaves category s vs, l.IsPart :=
    fun hvs hs hc => isPart_of_mem_terms hs hc fun _ => hvs.2
  have hcontent : ∀ {s : Stance} {vs : List String}, s ≠ .neutral →
      ∀ l ∈ termLeaves .content s vs, l.IsPart :=
    fun hs => isPart_of_mem_terms hs rfl fun hf => nomatch hf
  have hphrases : ∀ l ∈ c.phrases.map (Leaf.phrase · none), l.IsPart := by
    intro l hl
    obtain ⟨p, -, rfl⟩ := List.mem_map.1 hl
    exact Leaf.isPart_phrase p
  have hregexes : ∀ l ∈ c.regexes.map fun r => Leaf.regex r.pattern r.flags r.field, l.IsPart := by
    intro l hl
    obtain ⟨r, hr, rfl⟩ := List.mem_map.1 hl
    exact Leaf.isPart_of_readsAlone (h.regexes.2 r hr) rfl rfl rfl
  have hwildcards : ∀ l ∈ c.wildcards.map (Leaf.wildcard · none), l.IsPart := by
    intro l hl
    obtain ⟨p, hp, rfl⟩ := List.mem_map.1 hl
    have hkinds : (Leaf.wildcard p none).kinds = Leaf.fieldKinds none ++ [.wildcard p] := rfl
    exact Leaf.isPart_of_readsAlone (h.wildcards.2 p hp) rfl hkinds rfl
  have hdates : ∀ l ∈ (c.dates.map dateLeaves).getD [], l.IsPart := by
    cases hb : c.dates with
    | none => nofun
    | some b => exact isPart_of_mem_dateLeaves (h.dates b hb).areReadAs
  simp only [leaves, List.flatten_cons, List.flatten_nil, List.append_nil, List.forall_mem_append]
  exact ⟨hnames h.sources nofun rfl, hnames h.excludedSources nofun rfl, hnames h.spanningSources nofun rfl,
    hnames h.uncategorizedSources nofun rfl, hnames h.formats nofun rfl, hnames h.excludedFormats nofun rfl,
    hcontent nofun, hcontent nofun, hphrases, hregexes, hwildcards, hnames h.tags nofun rfl,
    hnames h.excludedTags nofun rfl, hdates, isPart_of_mem_words h.words,
    isPart_of_mem_numbers (.inl rfl) h.quality, isPart_of_mem_numbers (.inr rfl) h.similarity⟩

def select (f : SignedLeaf → Option α) (ls : List Leaf) : List α := ls.filterMap fun l => f (l, false)

theorem filterMap_eq_select (f : SignedLeaf → Option α) (ls : List Leaf) :
    (ls.map fun l => (l, false)).filterMap f = select f ls := by
  rw [List.filterMap_map]
  rfl

theorem select_append (f : SignedLeaf → Option α) (ls ms : List Leaf) :
    select f (ls ++ ms) = select f ls ++ select f ms := List.filterMap_append

theorem select_eq_nil {f : SignedLeaf → Option α} {ls : List Leaf} (h : ∀ l ∈ ls, f (l, false) = none) :
    select f ls = [] := List.filterMap_eq_nil_iff.2 h

theorem select_map {f : SignedLeaf → Option α} {g : β → Leaf} {k : β → α} (h : ∀ b, f (g b, false) = some (k b))
    (bs : List β) : select f (bs.map g) = bs.map k := by
  have hf : ((fun l => f (l, false)) ∘ g) = some ∘ k := funext h
  rw [select, List.filterMap_map, hf, List.filterMap_eq_map]

section

variable {f : SignedLeaf → Option α}

theorem select_map_eq_nil {g : β → Leaf} (h : ∀ b, f (g b, false) = none) (bs : List β) :
    select f (bs.map g) = [] := by
  refine select_eq_nil fun l hl => ?_
  obtain ⟨b, -, rfl⟩ := List.mem_map.1 hl
  exact h b

theorem select_terms_eq_nil {c : Category} {s : Stance} (h : ∀ v, f (.term c v s, false) = none) (vs : List String) :
    select f (termLeaves c s vs) = [] := select_map_eq_nil h vs

theorem select_phrases_eq_nil (h : ∀ v, f (.phrase v none, false) = none) (vs : List String) :
    select f (vs.map (Leaf.phrase · none)) = [] := select_map_eq_nil h vs

theorem select_regexes_eq_nil (h : ∀ r : RegexTest, f (.regex r.pattern r.flags r.field, false) = none)
    (rs : List RegexTest) : select f (rs.map fun r => Leaf.regex r.pattern r.flags r.field) = [] :=
  select_map_eq_nil h rs

theorem select_wildcards_eq_nil (h : ∀ v, f (.wildcard v none, false) = none) (vs : List String) :
    select f (vs.map (Leaf.wildcard · none)) = [] := select_map_eq_nil h vs

theorem select_bounds_eq_nil {c : Category} {same : β → β → Bool} {text : β → List Char}
    (h : ∀ op v, f (.comparison c op v none, false) = none) (b : Bounds β) :
    select f (boundLeaves c same text b) = [] := by
  refine select_eq_nil fun l hl => ?_
  obtain ⟨op, a, -, -, rfl⟩ := mem_boundLeaves hl
  exact h op _

theorem select_dates_eq_nil (h : ∀ op v, f (.comparison .date op v none, false) = none)
    (h' : ∀ v, f (.term .date v .is, false) = none) (b : Option (Bounds Int)) :
    select f ((b.map dateLeaves).getD []) = [] := by
  cases b with
  | none => rfl
  | some b =>
    refine select_eq_nil fun l hl => ?_
    obtain ⟨n, -, rfl⟩ | ⟨n, -, rfl⟩ | ⟨first, last, cs, -, -, rfl⟩ := mem_dateLeaves hl
    · exact h _ _
    · exact h _ _
    · exact h' _

end

section

open SignedLeaf

theorem select_terms (category : Category) (s : Stance) (c' : Category) (s' : Stance) (vs : List String) :
    select (term? category s) (termLeaves c' s' vs) = if c' = category ∧ s' = s then vs else [] := by
  split
  · next h =>
    have hterm : ∀ v, term? category s (.term c' v s', false) = some (id v) := fun v => if_pos h
    rw [termLeaves, select_map hterm, List.map_id]
  · next h => exact select_terms_eq_nil (fun v => if_neg h) vs

theorem select_term_leaves {category : Category} (hc : category ≠ .date) (s : Stance) (c : Compiled) :
    select (term? category s) c.leaves = List.flatten [
      if Category.source = category ∧ Stance.is = s then c.sources else [],
      if Category.source = category ∧ Stance.isNot = s then c.excludedSources else [],
      if Category.source = category ∧ Stance.both = s then c.spanningSources else [],
      if Category.source = category ∧ Stance.neither = s then c.uncategorizedSources else [],
      if Category.format = category ∧ Stance.is = s then c.formats else [],
      if Category.format = category ∧ Stance.isNot = s then c.excludedFormats else [],
      if Category.content = category ∧ Stance.is = s then c.searchWords else [],
      if Category.content = category ∧ Stance.isNot = s then c.excludedTerms else [],
      if Category.tags = category ∧ Stance.is = s then c.tags else [],
      if Category.tags = category ∧ Stance.isNot = s then c.excludedTags else []] := by
  have hdate : ∀ v, term? category s (.term .date v .is, false) = none := fun v => if_neg fun h => hc h.1.symm
  simp only [leaves, List.flatten_cons, List.flatten_nil, select_append, select_terms,
    select_phrases_eq_nil (f := term? category s) (fun _ => rfl),
    select_regexes_eq_nil (f := term? category s) (fun _ => rfl),
    select_wildcards_eq_nil (f := term? category s) (fun _ => rfl),
    select_bounds_eq_nil (f := term? category s) (fun _ _ => rfl),
    select_dates_eq_nil (f := term? category s) (fun _ _ => rfl) hdate, List.nil_append, List.append_nil]

theorem select_phrases (c : Compiled) : select phrase? c.leaves = c.phrases := by
  have hphrase : ∀ v, phrase? (.phrase v none, false) = some (id v) := fun _ => rfl
  simp only [leaves, List.flatten_cons, List.flatten_nil, select_append,
    select_terms_eq_nil (f := phrase?) (fun _ => rfl), select_map hphrase,
    select_regexes_eq_nil (f := phrase?) (fun _ => rfl), select_wildcards_eq_nil (f := phrase?) (fun _ => rfl),
    select_bounds_eq_nil (f := phrase?) (fun _ _ => rfl),
    select_dates_eq_nil (f := phrase?) (fun _ _ => rfl) (fun _ => rfl), List.append_nil, List.nil_append, List.map_id]

theorem select_regexes (c : Compiled) : select regex? c.leaves = c.regexes := by
  have hregex : ∀ r : RegexTest, regex? (.regex r.pattern r.flags r.field, false) = some (id r) := fun _ => rfl
  simp only [leaves, List.flatten_cons, List.flatten_nil, select_append,
    select_terms_eq_nil (f := regex?) (fun _ => rfl), select_map hregex,
    select_phrases_eq_nil (f := regex?) (fun _ => rfl), select_wildcards_eq_nil (f := regex?) (fun _ => rfl),
    select_bounds_eq_nil (f := regex?) (fun _ _ => rfl),
    select_dates_eq_nil (f := regex?) (fun _ _ => rfl) (fun _ => rfl), List.append_nil, List.nil_append, List.map_id]

theorem select_wildcards (c : Compiled) : select wildcard? c.leaves = c.wildcards := by
  have hwildcard : ∀ v, wildcard? (.wildcard v none, false) = some (id v) := fun _ => rfl
  simp only [leaves, List.flatten_cons, List.flatten_nil, select_append,
    select_terms_eq_nil (f := wildcard?) (fun _ => rfl), select_map hwildcard,
    select_phrases_eq_nil (f := wildcard?) (fun _ => rfl), select_regexes_eq_nil (f := wildcard?) (fun _ => rfl),
    select_bounds_eq_nil (f := wildcard?) (fun _ _ => rfl),
    select_dates_eq_nil (f := wildcard?) (fun _ _ => rfl) (fun _ => rfl), List.append_nil, List.nil_append, List.map_id]

theorem term?_of_ne {c k : Category} (h : c ≠ k) (s s' : Stance) (v : String) :
    term? k s (.term c v s', false) = none := if_neg fun h' => h h'.1

theorem comparison?_of_ne {c k : Category} (h : c ≠ k) (op : Comparator) (v : String) :
    comparison? k (.comparison c op v none, false) = none := if_neg h

theorem dates?_term {c : Category} (h : c ≠ .date) (s : Stance) (v : String) :
    dates? (.term c v s, false) = none := by
  rw [dates?, term?_of_ne h]
  rfl

theorem dates?_comparison {c : Category} (h : c ≠ .date) (op : Comparator) (v : String) :
    dates? (.comparison c op v none, false) = none := by
  have hcomparison := comparison?_of_ne h op v
  rw [dates?, hcomparison]
  rfl

theorem numbers?_comparison {c k : Category} (h : c ≠ k) (read : List Char → Option α) (op : Comparator) (v : String) :
    numbers? k read (.comparison c op v none, false) = none := by
  rw [numbers?, comparison?_of_ne h]
  rfl

theorem select_dates (c : Compiled) : select dates? c.leaves = select dates? ((c.dates.map dateLeaves).getD []) := by
  have hterms : ∀ {k : Category}, k ≠ .date → ∀ s vs, select dates? (termLeaves k s vs) = [] :=
    fun hk s vs => select_terms_eq_nil (dates?_term hk s) vs
  have hbounds : ∀ {k : Category}, k ≠ .date → ∀ {α : Type} (same : α → α → Bool) (text : α → List Char) (b : Bounds α),
      select dates? (boundLeaves k same text b) = [] :=
    fun hk _ _ _ b => select_bounds_eq_nil (dates?_comparison hk) b
  simp only [leaves, List.flatten_cons, List.flatten_nil, select_append,
    hterms (show Category.source ≠ .date by decide),
    hterms (show Category.format ≠ .date by decide), hterms (show Category.content ≠ .date by decide),
    hterms (show Category.tags ≠ .date by decide), hbounds (show Category.words ≠ .date by decide),
    hbounds (show Category.quality ≠ .date by decide), hbounds (show Category.sim ≠ .date by decide),
    select_phrases_eq_nil (f := dates?) (fun _ => rfl), select_regexes_eq_nil (f := dates?) (fun _ => rfl),
    select_wildcards_eq_nil (f := dates?) (fun _ => rfl), List.append_nil, List.nil_append]

theorem select_numbers_boundLeaves {k c : Category} {same : β → β → Bool} {text : β → List Char}
    (read : List Char → Option α) (b : Bounds β) : select (numbers? k read) (boundLeaves c same text b) =
      if c = k then select (numbers? k read) (boundLeaves c same text b) else [] := by
  split
  · rfl
  · next h => exact select_bounds_eq_nil (numbers?_comparison h read) b

theorem select_numbers {k : Category} (hk : k ≠ .date) (read : List Char → Option α) (c : Compiled) :
    select (numbers? k read) c.leaves =
      (if Category.words = k then select (numbers? k read) (boundLeaves .words (· == ·) Number.digits c.words) else [])
      ++ (if Category.quality = k then select (numbers? k read) (boundLeaves .quality Double.same Double.text c.quality)
        else [])
      ++ if Category.sim = k then select (numbers? k read) (boundLeaves .sim Double.same Double.text c.similarity)
        else [] := by
  rw [← select_numbers_boundLeaves, ← select_numbers_boundLeaves, ← select_numbers_boundLeaves]
  simp only [leaves, List.flatten_cons, List.flatten_nil, select_append,
    select_terms_eq_nil (f := numbers? k read) (fun _ => rfl),
    select_phrases_eq_nil (f := numbers? k read) (fun _ => rfl),
    select_regexes_eq_nil (f := numbers? k read) (fun _ => rfl),
    select_wildcards_eq_nil (f := numbers? k read) (fun _ => rfl),
    select_dates_eq_nil (numbers?_comparison hk.symm read) (fun _ => rfl), List.append_nil, List.nil_append,
    List.append_assoc]

theorem numbers?_mark (k : Category) (read : List Char → Option α) (op : Comparator) (cs : List Char) :
    numbers? k read (.comparison k op (String.ofList cs) none, false) =
      some (numberBounds read op (String.ofList cs) none) := by
  simp [numbers?, comparison?]

theorem meetAll?_boundLeaves (k : Category) {same : α → α → Bool} {text : α → List Char}
    {read : List Char → Option α} (greater lesser : α → α → α) {b : Bounds α}
    (hread : AllBounds (fun a => read (text a) = some a) b)
    (hsame : ∀ a a', b.least = some a → b.greatest = some a' → same a a' = true → a = a') :
    (meetAll? greater lesser (select (numbers? k read) (boundLeaves k same text b))).getD .all = b := by
  obtain ⟨hleast, hgreatest⟩ := hread
  unfold boundLeaves
  rcases b with ⟨_ | a, _ | b⟩
  · rfl
  · simp [select, numbers?_mark, numberBounds, meetAll?, hgreatest b rfl]
  · simp [select, numbers?_mark, numberBounds, meetAll?, hleast a rfl]
  · dsimp only
    split
    · next h =>
      obtain rfl := hsame a b rfl rfl h
      simp [select, numbers?_mark, numberBounds, meetAll?, hleast a rfl]
    · simp [select, numbers?_mark, numberBounds, meetAll?, hleast a rfl, hgreatest b rfl, Bounds.meet, Bounds.tighter]

theorem dates?_mark {op : Comparator} {cs : List Char} {p : Period} (h : Period.read? cs = some p) :
    dates? (.comparison .date op (String.ofList cs) none, false) = some (dateBounds op p none) := by
  simp [dates?, term?, comparison?, h]

theorem dates?_period {cs : List Char} {p : Period} (h : Period.read? cs = some p) :
    dates? (.term .date (String.ofList cs) .is, false) = some ⟨some p.first, some p.last⟩ := by
  simp [dates?, term?, h]

theorem dates?_least {n n' : Int} (h : ReadsAt (·.first) n n') :
    dates? (.comparison .date .atLeast (String.ofList (instantText (·.first) n)) none, false) =
      some ⟨some n', none⟩ := by
  obtain ⟨p, hp, rfl⟩ := Option.map_eq_some_iff.1 h.2.2
  exact dates?_mark hp

theorem dates?_greatest {n n' : Int} (h : ReadsAt (·.last) n n') :
    dates? (.comparison .date .atMost (String.ofList (instantText (·.last) n)) none, false) = some ⟨none, some n'⟩ := by
  obtain ⟨p, hp, rfl⟩ := Option.map_eq_some_iff.1 h.2.2
  exact dates?_mark hp

theorem meetAll?_dateLeaves {b b' : Bounds Int} (h : AreReadAs b b') :
    meetAll? max min (select dates? (dateLeaves b)) = some b' := by
  obtain ⟨hbounded, hleast, hgreatest, hperiods⟩ := h
  unfold dateLeaves
  rcases b with ⟨least, greatest⟩
  rcases b' with ⟨least', greatest'⟩
  dsimp only at hleast hgreatest hbounded
  cases hleast with
  | none =>
    cases hgreatest with
    | none => simp at hbounded
    | @some last last' hlast =>
      have hselect : select dates? [.comparison .date .atMost (String.ofList (instantText (·.last) last)) none] =
          [⟨none, some last'⟩] := by
        simp only [select, List.filterMap_cons, dates?_greatest hlast, List.filterMap_nil]
      exact congrArg (meetAll? max min) hselect
  | @some first first' hfirst =>
    cases hgreatest with
    | none =>
      have hselect : select dates? [.comparison .date .atLeast (String.ofList (instantText (·.first) first)) none] =
          [⟨some first', none⟩] := by
        simp only [select, List.filterMap_cons, dates?_least hfirst, List.filterMap_nil]
      exact congrArg (meetAll? max min) hselect
    | @some last last' hlast =>
      dsimp only
      cases hperiod : exactPeriod? first last with
      | some cs =>
        obtain ⟨⟨-, -, hread⟩, hsame⟩ := hperiods first last cs rfl hperiod
        rw [hsame]
        simp only [select, List.filterMap_cons, dates?_period hread, List.filterMap_nil]
        rfl
      | none =>
        simp only [select, Option.map_some, Option.toList_some, List.cons_append, List.nil_append,
          List.filterMap_cons, dates?_least hfirst, dates?_greatest hlast, List.filterMap_nil]
        rfl

end

theorem IsCanonical.search_eq {c : Compiled} (h : c.IsCanonical) :
    (if c.searchWords.isEmpty then none else some (" ".intercalate c.searchWords)) = c.search := by
  cases hs : c.search with
  | none =>
    have hwords : c.searchWords = [] := by
      rw [searchWords, hs]
      rfl
    rw [hwords]
    rfl
  | some s =>
    obtain ⟨ws, hne, rfl, hws⟩ := h.search s hs
    have hsplit : Text.blankSplit (" ".intercalate ws).toList = ws.map String.toList := by
      rw [String.toList_intercalate]
      refine Text.blankSplit_intercalate fun w hw => ?_
      obtain ⟨v, hv, rfl⟩ := List.mem_map.1 hw
      exact hws v hv
    have hwords : c.searchWords = ws := by
      rw [searchWords, hs, Option.map_some, Option.getD_some, hsplit, List.map_map]
      simp
    rw [hwords, if_neg (by simpa using hne)]

theorem meetAll?_numbers {b : Bounds Double} (k : Category) (hb : AllBounds Double.IsPositive b) :
    (meetAll? Double.greater Double.lesser (select (SignedLeaf.numbers? k Double.read?)
      (boundLeaves k Double.same Double.text b))).getD .all = b := by
  have hread : ∀ x : Double, x.IsPositive → Double.read? x.text = some x := by
    rintro x ⟨m, e, hnormal, rfl⟩
    exact Double.read?_text hnormal
  refine meetAll?_boundLeaves k _ _ ⟨fun x hx => hread x (hb.1 x hx), fun x hx => hread x (hb.2 x hx)⟩ ?_
  intro x y hx hy hsame
  obtain ⟨m, e, hnormal, rfl⟩ := hb.1 x hx
  obtain ⟨m', e', hnormal', rfl⟩ := hb.2 y hy
  exact Double.eq_of_same hsame

theorem IsCanonical.ofLeaves {c : Compiled} (h : c.IsCanonical) :
    Compiled.ofLeaves c.page (c.leaves.map fun l => (l, false)) = c := by
  have hsource := fun s => select_term_leaves (show Category.source ≠ .date by decide) s c
  have hformat := fun s => select_term_leaves (show Category.format ≠ .date by decide) s c
  have hcontent := fun s => select_term_leaves (show Category.content ≠ .date by decide) s c
  have htags := fun s => select_term_leaves (show Category.tags ≠ .date by decide) s c
  have hdates : meetAll? max min (select SignedLeaf.dates? c.leaves) = c.dates := by
    rw [select_dates]
    cases hb : c.dates with
    | none => rfl
    | some b => exact meetAll?_dateLeaves (h.dates b hb).areReadAs
  have hwords : (meetAll? max min (select (SignedLeaf.numbers? .words Number.word?) c.leaves)).getD .all = c.words := by
    simp only [select_numbers (show Category.words ≠ .date by decide), if_true, reduceCtorEq, if_false, List.append_nil]
    have hread : ∀ n, n < Number.wordLimit → Number.word? (Number.digits n) = some n :=
      fun n hn => Number.natBelow?_digits hn
    exact meetAll?_boundLeaves .words max min
      ⟨fun n hn => hread n (h.words.1 n hn), fun n hn => hread n (h.words.2 n hn)⟩
      fun n m _ _ hsame => eq_of_beq hsame
  have hquality : (meetAll? Double.greater Double.lesser
      (select (SignedLeaf.numbers? .quality Double.read?) c.leaves)).getD .all = c.quality := by
    simp only [select_numbers (show Category.quality ≠ .date by decide), if_true, reduceCtorEq, if_false,
      List.append_nil, List.nil_append]
    exact meetAll?_numbers .quality h.quality
  have hsimilarity : (meetAll? Double.greater Double.lesser
      (select (SignedLeaf.numbers? .sim Double.read?) c.leaves)).getD .all = c.similarity := by
    simp only [select_numbers (show Category.sim ≠ .date by decide), if_true, reduceCtorEq, if_false,
      List.append_nil, List.nil_append]
    exact meetAll?_numbers .sim h.similarity
  unfold Compiled.ofLeaves
  simp only [filterMap_eq_select, hsource, hformat, hcontent, htags, hdates, hwords, hquality, hsimilarity,
    select_phrases, select_regexes, select_wildcards, List.flatten_cons, List.flatten_nil, reduceCtorEq, and_true,
    and_false, if_true, if_false, List.append_nil, List.nil_append, and_self, h.search_eq,
    eraseDups_of_nodup h.sources.1, eraseDups_of_nodup h.excludedSources.1, eraseDups_of_nodup h.spanningSources.1,
    eraseDups_of_nodup h.uncategorizedSources.1, eraseDups_of_nodup h.formats.1,
    eraseDups_of_nodup h.excludedFormats.1, eraseDups_of_nodup h.excludedTerms, eraseDups_of_nodup h.regexes.1,
    eraseDups_of_nodup h.phrases, eraseDups_of_nodup h.wildcards.1, eraseDups_of_nodup h.tags.1,
    eraseDups_of_nodup h.excludedTags.1]

theorem allLeavesFrom_leaves (walked : Walked) (ls : List Leaf) :
    Node.allLeavesFrom false walked (ls.map .leaf) = (ls.map fun l => (l, false), walked) := by
  induction ls with
  | nil => rfl
  | cons l ls ih =>
    simp only [List.map_cons, Node.allLeavesFrom, Node.leavesFrom, ih]
    rfl

theorem join_leaves (ls : List Leaf) : Node.join .and (ls.map .leaf) =
    match ls with
    | [] => none
    | [l] => some (.leaf l)
    | ls => some (.group .and false (ls.map .leaf)) := by
  have hparts : (ls.map Node.leaf).flatMap (Node.parts .and) = ls.map .leaf := by
    rw [List.flatMap_map, List.map_eq_flatMap]
    rfl
  rw [Node.join, hparts]
  cases ls with
  | nil => rfl
  | cons l ls => cases ls <;> rfl

theorem root_of_leaves (ls : List Leaf) :
    Node.join .and (Node.join .or (Node.join .and (ls.map .leaf)).toList).toList = Node.join .and (ls.map .leaf) := by
  rw [join_leaves]
  match ls with
  | [] => rfl
  | [l] => rfl
  | l :: m :: ls =>
    have hor : Node.join .or [.group .and false ((l :: m :: ls).map .leaf)] =
        some (.group .and false ((l :: m :: ls).map .leaf)) := rfl
    rw [Option.toList_some, hor]
    simp [Node.join, Node.parts]

theorem leaves_of_join (ls : List Leaf) : ((Node.join .and (ls.map .leaf)).map Node.leaves).getD [] =
    ls.map fun l => (l, false) := by
  rw [join_leaves]
  match ls with
  | [] => rfl
  | [l] => rfl
  | l :: m :: ls => exact congrArg Prod.fst (allLeavesFrom_leaves [] (l :: m :: ls))

/-- The canonical text of a compiled query is read without problems, and compiles to the query. -/
theorem parse_toQuery_of_isCanonical {c : Compiled} (h : c.IsCanonical) :
    ∃ t, Tree.parse c.toQuery = .ok t ∧ t.problems = [] ∧ ofNode? c.page t.root = c := by
  have hchars : c.toQuery.toList = [' '].intercalate (c.leaves.map Leaf.partText) := by
    rw [toQuery, String.toList_ofList, texts_eq]
  have hparts := h.isPart
  have hcompile := h.ofLeaves
  generalize c.leaves = ls at hchars hparts hcompile
  by_cases hnil : ls = []
  · subst hnil
    have hts : Token.scanFrom 0 c.toQuery.toList = .ok [] := by
      rw [hchars, List.map_nil, List.intercalate_nil, Token.scanFrom]
    refine ⟨_, Grammar.parse_of_scanFrom hts, ?_⟩
    rw [Grammar.ofClauses_readAll, Grouping.runTokens_nil]
    exact ⟨rfl, hcompile⟩
  · obtain ⟨ks, hs, hc⟩ := conjunction_of_parts hnil hparts
    have hc := hc none endsTerm_none
    obtain ⟨ts, hts, hks⟩ := hs.scans.scanFrom 0
    rw [← hchars] at hts
    rw [← hks] at hc
    obtain ⟨hp, hr⟩ := Grammar.Alternatives.tree c.toQuery c.toQuery.length (.one hc)
    refine ⟨_, Grammar.parse_of_scanFrom hts, hp, ?_⟩
    rw [hr, root_of_leaves, ofNode?, leaves_of_join, hcompile]

theorem parse_toQuery_of_isCanonical_mixed :
    ∃ t, Tree.parse { unfiltered Page.standard with
        sources := ["a b"], search := some "two words", wildcards := ["w*"],
        dates := some ⟨some (-86400000), some 5⟩, words := ⟨some 7, some 7⟩,
        quality := ⟨some (.finite false (2 ^ 52) (-53) (by decide)), none⟩ : Compiled }.toQuery = .ok t ∧
      t.problems = [] ∧ ofNode? Page.standard t.root = { unfiltered Page.standard with
        sources := ["a b"], search := some "two words", wildcards := ["w*"],
        dates := some ⟨some (-86400000), some 5⟩, words := ⟨some 7, some 7⟩,
        quality := ⟨some (.finite false (2 ^ 52) (-53) (by decide)), none⟩ } := by
  have hnone : AreNames [] := ⟨List.nodup_nil, nofun⟩
  have hall : AllBounds Double.IsPositive .all := by simp [AllBounds, Bounds.all]
  have hwildcard : (Node.leaf (.wildcard "w*" none)).ReadsAlone :=
    ⟨⟨some (.leaf (.wildcard "w*" none)), "w*", [], []⟩, by decide +kernel, rfl, rfl⟩
  have hday : IsWritable (·.first) (-86400000) :=
    .inr ⟨⟨1969, 12, 31⟩, ⟨by decide +kernel, by decide, by decide⟩, by decide +kernel⟩
  refine parse_toQuery_of_isCanonical
    { sources := ⟨by simp, by simpa using (by decide +kernel)⟩
      excludedSources := hnone
      spanningSources := hnone
      uncategorizedSources := hnone
      formats := hnone
      excludedFormats := hnone
      search := ?_
      excludedTerms := List.nodup_nil
      regexes := ⟨List.nodup_nil, nofun⟩
      phrases := List.nodup_nil
      wildcards := ⟨by simp, by simpa using hwildcard⟩
      tags := hnone
      excludedTags := hnone
      dates := ?_
      words := ?_
      quality := ⟨?_, hall.2⟩
      similarity := hall }
  · rintro s ⟨⟩
    refine ⟨["two", "words"], by simp, by decide +kernel, ?_⟩
    simp only [List.forall_mem_cons, List.not_mem_nil, false_implies, implies_true, and_true]
    exact ⟨by decide +kernel, by decide +kernel⟩
  · rintro b ⟨⟩
    refine ⟨.inl rfl, ?_, ?_⟩
    · intro n hn
      rw [← Option.some.inj hn]
      exact ⟨by decide +kernel, hday⟩
    · rintro n ⟨⟩
      exact ⟨by decide +kernel, .inl (by decide)⟩
  · constructor <;>
    · rintro n ⟨⟩
      decide +kernel
  · intro x hx
    exact ⟨_, _, _, (Option.some.inj hx).symm⟩

end Compiled

end FilterQuery
