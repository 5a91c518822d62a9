import FilterQuery.Proofs.Calendar.Spans
import FilterQuery.Proofs.Canonical.RoundTrip

namespace FilterQuery.Compiled

open Calendar (Date Period Span leastInstant millisPerDay)

def dayPeriod (n : Int) : Period := ⟨n / millisPerDay * millisPerDay, (n / millisPerDay + 1) * millisPerDay - 1⟩

theorem dayPeriod_bounds (n : Int) : (dayPeriod n).first ≤ n ∧ n ≤ (dayPeriod n).last := by
  unfold dayPeriod millisPerDay
  dsimp only
  omega

/-- An instant that is a number of 64 bits and not before the year 0. -/
def IsBound (n : Int) : Prop := leastInstant ≤ n ∧ Number.fitsInt n = true

def outward (edge : Period → Int) (n : Int) : Int := if 0 ≤ n then n else edge (dayPeriod n)

section

variable {edge : Period → Int} {n : Int}

theorem exists_isCommonInstant (h : leastInstant ≤ n) : 0 ≤ n ∨ ∃ d, Calendar.IsCommonInstant d n := by
  rcases Int.lt_or_le n 0 with hneg | hpos
  · refine .inr ⟨_, Calendar.isCommonInstant_of_bounds h ?_⟩
    unfold Calendar.greatestInstant
    omega
  · exact .inl hpos

theorem readsAt_outward (hedge : IsEdge edge) (h : IsBound n) : ReadsAt edge n (outward edge n) := by
  unfold outward
  split
  · next hpos => exact instantText_spec hedge h.2 (.inl hpos)
  · next hneg =>
    obtain ⟨d, hd⟩ := (exists_isCommonInstant h.1).resolve_left hneg
    have htext : instantText edge n = d.text := by
      unfold instantText
      rw [hd.dayOf?]
      simp only [Option.map_some]
      split
      · rfl
      · rw [if_pos (by omega)]
    have hday : n / millisPerDay = d.toDays := by
      obtain ⟨-, hlow, hhigh⟩ := hd
      unfold millisPerDay at *
      omega
    rw [ReadsAt, htext, hd.1.period, dayPeriod, hday]
    exact ⟨hd.1.isWord_text.1, hd.1.isWord_text.2, rfl⟩

end

theorem exactPeriod?_outward {first last : Int} {cs : List Char} (h : exactPeriod? first last = some cs)
    (hfirst : leastInstant ≤ first) : (Token.IsWord cs ∧ '*' ∉ cs ∧ Period.read? cs = some ⟨first, last⟩) ∧
      outward (·.first) first = first ∧ outward (·.last) last = last := by
  obtain ⟨d, hd, hcs, hread⟩ := exactPeriod?_of_instant h (exists_isCommonInstant hfirst)
  obtain ⟨hword, hstar⟩ := isWord_of_prefix hd hcs
  have hspan : ∃ s, Span.IsText cs s := by
    rcases hcs with rfl | rfl | rfl
    · exact ⟨_, Span.isText_take_year hd⟩
    · exact ⟨_, Span.isText_take_month hd⟩
    · exact ⟨_, Span.isText_date hd⟩
  obtain ⟨s, hs⟩ := hspan
  obtain ⟨-, hperiod⟩ := hs.period_eq_of_read? hread
  obtain ⟨rfl, rfl⟩ := Period.mk.inj hperiod
  refine ⟨⟨hword, hstar, hread⟩, ?_, ?_⟩
  all_goals
    unfold outward dayPeriod millisPerDay
    dsimp only
    split <;> omega

def outwardBounds (b : Bounds Int) : Bounds Int :=
  ⟨b.least.map (outward (·.first)), b.greatest.map (outward (·.last))⟩

theorem areReadAs_outwardBounds {b : Bounds Int} (hb : b.least.isSome = true ∨ b.greatest.isSome = true)
    (h : AllBounds IsBound b) : AreReadAs b (outwardBounds b) where
  bounded := hb
  least := by
    cases hn : b.least with
    | none =>
      rw [outwardBounds, hn]
      exact .none
    | some n =>
      rw [outwardBounds, hn]
      exact .some (readsAt_outward isEdge_first (h.1 n hn))
  greatest := by
    cases hn : b.greatest with
    | none =>
      rw [outwardBounds, hn]
      exact .none
    | some n =>
      rw [outwardBounds, hn]
      exact .some (readsAt_outward isEdge_last (h.2 n hn))
  period := by
    rintro first last cs rfl hperiod
    obtain ⟨hread, hfirst, hlast⟩ := exactPeriod?_outward hperiod (h.1 first rfl).1
    refine ⟨hread, ?_⟩
    rw [outwardBounds, Option.map_some, Option.map_some, hfirst, hlast]

theorem ofLeaves_dateLeaves (page : Page) (b : Bounds Int) : ofLeaves page ((dateLeaves b).map fun l => (l, false)) =
    { unfiltered page with dates := meetAll? max min (select SignedLeaf.dates? (dateLeaves b)) } := by
  have hnil : ∀ {α : Type} {f : SignedLeaf → Option α}, (∀ op v, f (.comparison .date op v none, false) = none) →
      (∀ v, f (.term .date v .is, false) = none) → select f (dateLeaves b) = [] :=
    fun h h' => select_dates_eq_nil h h' (some b)
  have hterms : ∀ {c : Category}, Category.date ≠ c → ∀ s, select (SignedLeaf.term? c s) (dateLeaves b) = [] :=
    fun hc s => hnil (fun _ _ => rfl) (term?_of_ne hc s .is)
  have hnumbers : ∀ {α : Type} {c : Category}, Category.date ≠ c → ∀ read : List Char → Option α,
      select (SignedLeaf.numbers? c read) (dateLeaves b) = [] :=
    fun hc read => hnil (numbers?_comparison hc read) fun _ => rfl
  unfold ofLeaves
  simp only [filterMap_eq_select, hterms (show Category.date ≠ .source by decide),
    hterms (show Category.date ≠ .format by decide), hterms (show Category.date ≠ .content by decide),
    hterms (show Category.date ≠ .tags by decide), hnumbers (show Category.date ≠ .words by decide),
    hnumbers (show Category.date ≠ .quality by decide), hnumbers (show Category.date ≠ .sim by decide),
    hnil (f := SignedLeaf.regex?) (fun _ _ => rfl) fun _ => rfl,
    hnil (f := SignedLeaf.phrase?) (fun _ _ => rfl) fun _ => rfl,
    hnil (f := SignedLeaf.wildcard?) (fun _ _ => rfl) fun _ => rfl]
  rfl

/-- What is read for a bound that is written at this edge: the bound itself from 1970 on and where it is the
edge of its day, and that edge where it is another instant of a day before. -/
structure IsOutward (edge : Period → Int) (n n' : Int) : Prop where
  kept : 0 ≤ n ∨ n = edge (dayPeriod n) → n' = n
  moved : n < 0 → n ≠ edge (dayPeriod n) → n' = edge (dayPeriod n)

theorem isOutward_outward (edge : Period → Int) (n : Int) : IsOutward edge n (outward edge n) where
  kept h := by
    unfold outward
    split
    · rfl
    · next hneg => exact (h.resolve_left hneg).symm
  moved h _ := if_neg (Int.not_le.2 h)

/-- Bounds of time that are written are read again, and what is read is at least as wide. -/
theorem exists_parse_dateTexts {b : Bounds Int} (hb : b.least.isSome = true ∨ b.greatest.isSome = true)
    (h : AllBounds IsBound b) :
    ∃ t b', Tree.parse (String.ofList ([' '].intercalate (dateTexts b))) = .ok t ∧ t.problems = [] ∧
      (∀ page, ofNode? page t.root = { unfiltered page with dates := some b' }) ∧
      Option.Rel (fun n n' => n' ≤ n ∧ IsOutward (·.first) n n') b.least b'.least ∧
      Option.Rel (fun n n' => n ≤ n' ∧ IsOutward (·.last) n n') b.greatest b'.greatest := by
  have hread := areReadAs_outwardBounds hb h
  have hquery : (String.ofList ([' '].intercalate (dateTexts b))).toList =
      [' '].intercalate ((dateLeaves b).map Leaf.partText) := by
    rw [String.toList_ofList, map_partText_dateLeaves]
  obtain ⟨t, ht, hp, hc⟩ := exists_parse_of_parts (isPart_of_mem_dateLeaves hread) hquery
  refine ⟨t, outwardBounds b, ht, hp, fun page => ?_, ?_, ?_⟩
  · rw [hc page, ofLeaves_dateLeaves, meetAll?_dateLeaves hread]
  · unfold outwardBounds
    cases b.least with
    | none => exact .none
    | some n =>
      refine .some ⟨?_, isOutward_outward _ n⟩
      have hday := (dayPeriod_bounds n).1
      unfold outward
      split <;> omega
  · unfold outwardBounds
    cases b.greatest with
    | none => exact .none
    | some n =>
      refine .some ⟨?_, isOutward_outward _ n⟩
      have hday := (dayPeriod_bounds n).2
      unfold outward
      split <;> omega

theorem exists_parse_dateTexts_noon :
    String.ofList ([' '].intercalate (dateTexts ⟨some (-43200000), some 5⟩)) = "date:>=1969-12-31 date:<=00005" ∧
    ∃ t b', Tree.parse "date:>=1969-12-31 date:<=00005" = .ok t ∧ t.problems = [] ∧
      (∀ page, ofNode? page t.root = { unfiltered page with dates := some b' }) ∧
      Option.Rel (fun n n' => n' ≤ n ∧ IsOutward (·.first) n n') (some (-43200000)) b'.least ∧
      Option.Rel (fun n n' => n ≤ n' ∧ IsOutward (·.last) n n') (some 5) b'.greatest := by
  have htext : String.ofList ([' '].intercalate (dateTexts ⟨some (-43200000), some 5⟩)) =
      "date:>=1969-12-31 date:<=00005" := by decide +kernel
  have hbounds : AllBounds IsBound ⟨some (-43200000), some 5⟩ := by
    constructor
    · rintro _ ⟨⟩
      exact ⟨by decide, by decide +kernel⟩
    · rintro _ ⟨⟩
      exact ⟨by decide, by decide +kernel⟩
  have hparse := exists_parse_dateTexts (.inl rfl) hbounds
  rw [htext] at hparse
  exact ⟨htext, hparse⟩

end FilterQuery.Compiled
