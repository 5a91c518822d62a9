import FilterQuery.Proofs.Walk.Ranges

namespace FilterQuery

open Calendar (Period)
open Grammar (IsValue Term)

def Category.Accepts : Category → String → Prop
  | .date, v => (Period.read? v.toList).isSome = true
  | .words, v => (Number.word? v.toList).isSome = true
  | .quality, v | .sim, v => (Double.read? v.toList).isSome = true
  | .source, _ | .format, _ | .tags, _ | .content, _ => False

/-- Whether a leaf is one that compiling understands. -/
def Leaf.IsUnderstood : Leaf → Prop
  | .term c v s => s ≠ .neutral ∧ c.isNumeric = false ∧ (c = .date → c.Accepts v)
  | .comparison c comparator v upper => c.isComparable = true ∧ (upper.isSome = true ↔ comparator = .within) ∧
      c.Accepts v ∧ ∀ u ∈ upper, c.Accepts u
  | .regex .. | .phrase .. | .wildcard .. => True

namespace Grammar

variable {s : Option Stance} {ks : List Token.Kind} {next : Option Token.Kind} {n : Node}

theorem IsValue.accepts {c : Category} {k : Token.Kind} {v : String} (h : IsValue c k v) (hc : c.isComparable = true) :
    c.Accepts v := by
  cases c with
  | date | words => exact h.2
  | quality | sim => exact h.2.2
  | source | format | tags | content => cases hc

theorem isUnderstood_categoryTerm {w : String} {c : Category} (hw : Clause.comparable? w = none)
    (hc : Category.ofName? w = some c) (v : String) (hs : s.getD .is ≠ .neutral) :
    ∀ a ∈ (categoryTerm c v s).atoms, a.OfLeaf Leaf.IsUnderstood := by
  intro a ha
  rw [List.mem_singleton.1 ha]
  have hcomparable : c.isComparable = false := by
    simpa [Clause.comparable?, hc] using hw
  refine ⟨hs, ?_, fun h => absurd h (ne_date_of_comparable? hw hc)⟩
  exact (Bool.or_eq_false_iff.1 hcomparable).1

theorem Term.isUnderstood (h : Term s ks next n) (hs : s ≠ some .neutral) :
    ∀ a ∈ n.atoms, a.OfLeaf Leaf.IsUnderstood := by
  have hstance : s.getD .is ≠ .neutral := by
    cases s with
    | none => exact nofun
    | some s => exact fun heq => hs (congrArg some heq)
  have hcontent : ∀ v, ∀ a ∈ (content v s).atoms, a.OfLeaf Leaf.IsUnderstood := by
    intro v a ha
    rw [List.mem_singleton.1 ha]
    exact ⟨hstance, rfl, nofun⟩
  have hcompared : ∀ {w c k v op}, Clause.comparable? w = some c → op ≠ .within → IsValue c k v →
      signed? s (.comparison c op v none) = some n → ∀ a ∈ n.atoms, a.OfLeaf Leaf.IsUnderstood := by
    intro w c k v op hw hop hv h
    have hc := isComparable_of_comparable? hw
    exact ofLeaf_of_signed? h ⟨hc, ⟨nofun, fun heq => absurd heq hop⟩, hv.accepts hc, nofun⟩
  cases h with
  | word _ | number | date => exact hcontent _
  | phrase =>
    intro a ha
    rw [List.mem_singleton.1 ha]
    split
    · trivial
    · exact ⟨hstance, rfl, nofun⟩
  | regex _ h | wildcard h | fieldPhrase _ h | fieldRegex _ _ h | fieldWildcard _ h => exact ofLeaf_of_signed? h trivial
  | named hw _ =>
    unfold namedValue
    split
    · next c hc => exact isUnderstood_categoryTerm hw hc _ hstance
    · exact hcontent _
  | quoted hw hc => exact isUnderstood_categoryTerm hw hc _ hstance
  | compared hw hop hv h | comparedBare hw hop hv h => exact hcompared hw hop hv h
  | upTo hw hv h | upFrom hw hv _ h | equal hw _ hv h => exact hcompared hw (by decide) hv h
  | range hw hv _ hu h =>
    have hc := isComparable_of_comparable? hw
    refine ofLeaf_of_signed? h ⟨hc, ⟨fun _ => rfl, fun _ => rfl⟩, hv.accepts hc, ?_⟩
    rintro _ ⟨⟩
    exact hu.accepts hc
  | period hw hv =>
    intro a ha
    rw [List.mem_singleton.1 ha]
    exact ⟨hstance, rfl, fun _ => hv.accepts rfl⟩

end Grammar

structure Bounds.Heeds {α : Type} (S : Scale α) (b : Bounds α) (c : Comparison) : Prop where
  below : c.bindsBelow = true → ∃ p ∈ S.read? c.value.toList, ∃ a ∈ b.least, S.le p.1 a
  above : c.bindsAbove = true → ∃ q ∈ S.read? (c.upper.getD c.value).toList, ∃ a ∈ b.greatest, S.le a q.2

/-- Whether the range of a category heeds a comparison; only some categories have a range. -/
def Compiled.Heeds (c : Compiled) : Category → Comparison → Prop
  | .date, k => (c.dates.getD .all).Heeds .dates k
  | .words, k => c.words.Heeds .words k
  | .quality, k => c.quality.Heeds .doubles k
  | .sim, k => c.similarity.Heeds .doubles k
  | .source, _ | .format, _ | .tags, _ | .content, _ => False

theorem IsTightest.exists_of_mem {α : Type} {R : α → α → Prop} {as : List α} {e : Option α} {b : α}
    (h : IsTightest R as e) (hb : b ∈ as) : ∃ a ∈ e, R b a := by
  cases e with
  | none =>
    rw [show as = [] from h] at hb
    cases hb
  | some a => exact ⟨a, rfl, h.2 b hb⟩

namespace Comparison

variable {α : Type} {S : Scale α} {P : α → Prop} {greater lesser : α → α → α} {c : Comparison} {cs : List Comparison}

theorem least_bounds (S : Scale α) (h : c.bindsBelow = true) :
    (c.bounds S).least = (S.read? c.value.toList).map Prod.fst := by
  unfold bounds
  unfold bindsBelow at h
  cases hc : c.comparator with
  | below | atMost => rw [hc] at h; cases h
  | _ => rfl

theorem greatest_bounds (S : Scale α) (h : c.bindsAbove = true)
    (hupper : c.upper.isSome = true ↔ c.comparator = .within) :
    (c.bounds S).greatest = (S.read? (c.upper.getD c.value).toList).map Prod.snd := by
  unfold bounds
  unfold bindsAbove at h
  cases hc : c.comparator with
  | above | atLeast => rw [hc] at h; cases h
  | within =>
    obtain ⟨u, hu⟩ := Option.isSome_iff_exists.1 (hupper.2 hc)
    simp [hu]
  | _ =>
    rw [hc] at hupper
    have hnone : c.upper = none := Option.not_isSome_iff_eq_none.1 fun h => by cases hupper.1 h
    simp [hnone]

theorem heeds_common (hS : S.IsLawful P greater lesser) (hcs : ∀ c ∈ cs, c.IsReadable S P) (hc : c ∈ cs)
    (hupper : c.upper.isSome = true ↔ c.comparator = .within) : (common S greater lesser cs).Heeds S c := by
  obtain ⟨hleast, hgreatest⟩ := isTightest_common hS hcs
  have hread := hcs c hc
  constructor
  · intro hbinds
    obtain ⟨p, hp, -⟩ := hread.value
    have hend : (c.bounds S).least = some p.1 := by
      rw [least_bounds S hbinds, Option.mem_def.1 hp]
      rfl
    exact ⟨p, hp, hleast.exists_of_mem (List.mem_filterMap.2 ⟨c, hc, hend⟩)⟩
  · intro hbinds
    have hlast : ∃ q, S.read? (c.upper.getD c.value).toList = some q := by
      rcases hread.exists_upper with hu | ⟨u, q, hu, hq, -⟩
      · obtain ⟨p, hp, -⟩ := hread.value
        rw [hu]
        exact ⟨p, hp⟩
      · rw [hu]
        exact ⟨q, hq⟩
    obtain ⟨q, hq⟩ := hlast
    have hend : (c.bounds S).greatest = some q.2 := by
      rw [greatest_bounds S hbinds hupper, hq]
      rfl
    exact ⟨q, hq, hgreatest.exists_of_mem (List.mem_filterMap.2 ⟨c, hc, hend⟩)⟩

end Comparison

namespace SignedLeaf

variable {x : SignedLeaf} {category : Category} {k : Comparator} {v : String} {upper : Option String}

theorem comparison_of_isUnderstood (h : x.1.IsUnderstood) (hx : x.comparison? category = some (k, v, upper)) :
    category.isComparable = true ∧ (upper.isSome = true ↔ k = .within) ∧ category.Accepts v := by
  obtain ⟨l, negated⟩ := x
  cases l with
  | comparison c comparator v' upper' =>
    obtain ⟨hc, hupper, hv, -⟩ := h
    unfold comparison? at hx
    rw [Option.ite_none_right_eq_some, Option.map_eq_some_iff] at hx
    obtain ⟨rfl, k', hk, heq⟩ := hx
    cases heq
    refine ⟨hc, ?_, hv⟩
    cases negated with
    | false =>
      cases hk
      exact hupper
    | true => cases comparator <;> cases hk <;> simpa using hupper
  | _ => cases hx

theorem accepts_of_term? (h : x.1.IsUnderstood) {s : Stance} (hx : x.term? .date s = some v) :
    Category.date.Accepts v := by
  obtain ⟨l, negated⟩ := x
  cases l with
  | term c v' stance =>
    unfold term? at hx
    rw [Option.ite_none_right_eq_some] at hx
    obtain ⟨⟨rfl, -⟩, heq⟩ := hx
    cases heq
    exact h.2.2 rfl
  | _ => cases hx

theorem exists_effective_of_comparison? (hx : x.comparison? category = some (k, v, upper)) :
    ∃ l ∈ x.effective?, l.comparison? category = some ⟨k, v, upper⟩ := by
  obtain ⟨l, negated⟩ := x
  cases l with
  | comparison c comparator v' upper' =>
    rw [comparison?_eq] at hx
    obtain ⟨d, hd, heq⟩ := Option.map_eq_some_iff.1 hx
    cases heq
    exact Option.bind_eq_some_iff.1 hd
  | _ => cases hx

end SignedLeaf

namespace Tree

variable {t : Tree}

theorem IsParsed.isUnderstood (h : t.IsParsed) : ∀ n ∈ t.root, ∀ l ∈ n.tests, l.IsUnderstood :=
  (Node.keptByReading_tests fun h _ hs => h.isUnderstood hs).root h

theorem IsParsed.isUnderstood_of_mem_copies (h : t.IsParsed) : ∀ x ∈ t.copies, x.1.IsUnderstood := by
  intro x hx
  rw [copies] at hx
  cases hroot : t.root with
  | none =>
    rw [hroot] at hx
    cases hx
  | some n =>
    rw [hroot] at hx
    refine h.isUnderstood n hroot x.1 ?_
    rw [← Node.map_fst_copies false]
    exact List.mem_map_of_mem hx

theorem IsParsed.isUnderstood_of_mem_leaves (h : t.IsParsed) :
    ∀ x ∈ (t.root.map Node.leaves).getD [], x.1.IsUnderstood := by
  intro x hx
  refine h.isUnderstood_of_mem_copies x ?_
  rw [← List.mem_eraseDups, ← h.eraseDups_leaves, List.mem_eraseDups]
  exact hx

theorem IsParsed.heeds (h : t.IsParsed) (page : Page) {x : SignedLeaf} (hx : x ∈ t.copies) {category : Category}
    {k : Comparator} {v : String} {upper : Option String} (hk : x.comparison? category = some (k, v, upper)) :
    (Compiled.ofNode? page t.root).Heeds category ⟨k, v, upper⟩ := by
  obtain ⟨hcomparable, hupper, -⟩ := SignedLeaf.comparison_of_isUnderstood (h.isUnderstood_of_mem_copies x hx) hk
  have hmem : ⟨k, v, upper⟩ ∈ t.comparisons category := by
    obtain ⟨l, hl, hc⟩ := SignedLeaf.exists_effective_of_comparison? hk
    exact List.mem_filterMap.2 ⟨l, List.mem_filterMap.2 ⟨x, hx, hl⟩, hc⟩
  have heq := h.ranges page
  simp only [Compiled.ranges, Compiled.commonRanges, Prod.mk.injEq] at heq
  obtain ⟨hdates, hwords, hquality, hsimilarity⟩ := heq
  cases category with
  | date =>
    unfold Compiled.Heeds
    rw [hdates]
    exact Comparison.heeds_common (Scale.isLawful_of_linearOrder _) (h.isReadable fun _ => IsReadValue.read_dates)
      hmem hupper
  | words =>
    unfold Compiled.Heeds
    rw [hwords]
    exact Comparison.heeds_common (Scale.isLawful_of_linearOrder _) (h.isReadable fun _ => IsReadValue.read_words)
      hmem hupper
  | quality =>
    unfold Compiled.Heeds
    rw [hquality]
    exact Comparison.heeds_common Scale.isLawful_doubles (h.isReadable fun _ => IsReadValue.read_doubles (.inl rfl))
      hmem hupper
  | sim =>
    unfold Compiled.Heeds
    rw [hsimilarity]
    exact Comparison.heeds_common Scale.isLawful_doubles (h.isReadable fun _ => IsReadValue.read_doubles (.inr rfl))
      hmem hupper
  | source | format | tags | content => cases hcomparable

/-- Every test in a tree that was read, also in what its references stand for, is one that compiling understands. No
date that is compiled is without a period, and the range of a category has every end that a comparison sets. -/
theorem understood_of_isParsed (h : t.IsParsed) (page : Page) :
    (∀ n ∈ t.root, ∀ l ∈ n.tests, l.IsUnderstood) ∧
    (∀ x ∈ (t.root.map Node.leaves).getD [],
      (∀ v, x.term? .date .is = some v → (Period.read? v.toList).isSome = true) ∧
      ∀ k v upper, x.comparison? .date = some (k, v, upper) → (Period.read? v.toList).isSome = true) ∧
    ∀ x ∈ t.copies, ∀ category k v upper, x.comparison? category = some (k, v, upper) →
      (upper.isSome = true ↔ k = .within) ∧ (Compiled.ofNode? page t.root).Heeds category ⟨k, v, upper⟩ := by
  refine ⟨h.isUnderstood, fun x hx => ⟨fun v hv => ?_, fun k v upper hk => ?_⟩, fun x hx category k v upper hk => ?_⟩
  · exact SignedLeaf.accepts_of_term? (h.isUnderstood_of_mem_leaves x hx) hv
  · exact (SignedLeaf.comparison_of_isUnderstood (h.isUnderstood_of_mem_leaves x hx) hk).2.2
  · obtain ⟨-, hupper, -⟩ := SignedLeaf.comparison_of_isUnderstood (h.isUnderstood_of_mem_copies x hx) hk
    exact ⟨hupper, h.heeds page hx hk⟩

theorem understood_recent :
    ∃ t, parseWith recent 10 none "!@recent sim:0.5..0.9 ~words:<3 date:2020" = .ok t ∧
      (∀ n ∈ t.root, ∀ l ∈ n.tests, l.IsUnderstood) ∧
      (Compiled.ofNode? .standard t.root).Heeds .words ⟨.atMost, "5", none⟩ ∧
      (Compiled.ofNode? .standard t.root).Heeds .sim ⟨.within, "0.5", some "0.9"⟩ := by
  have hcopies : (parseWith recent 10 none "!@recent sim:0.5..0.9 ~words:<3 date:2020").map copies =
      .ok [(.comparison .words .above "5" none, true), (.comparison .date .atLeast "2019-03" none, true),
        (.comparison .sim .within "0.5" (some "0.9"), false), (.term .date "2020" .is, false)] := by
    decide +kernel
  cases ht : parseWith recent 10 none "!@recent sim:0.5..0.9 ~words:<3 date:2020" with
  | error o =>
    rw [ht] at hcopies
    cases hcopies
  | ok t =>
    rw [ht] at hcopies
    obtain ⟨hunderstood, -, hheeds⟩ := understood_of_isParsed (.within ht) .standard
    rw [Except.ok.inj hcopies] at hheeds
    refine ⟨t, rfl, hunderstood, ?_, ?_⟩
    · exact (hheeds (.comparison .words .above "5" none, true) (by simp) .words .atMost "5" none rfl).2
    · exact (hheeds (.comparison .sim .within "0.5" (some "0.9"), false) (by simp) .sim .within "0.5" (some "0.9")
        rfl).2

end Tree

end FilterQuery
