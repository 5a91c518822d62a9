import FilterQuery.Proofs.Expansion.Read
import FilterQuery.Proofs.Walk.Comparisons
import FilterQuery.Proofs.Walk.Compiled
import FilterQuery.Proofs.Walk.Lists

namespace FilterQuery

open Calendar (Period)

def Leaf.comparison? (category : Category) : Leaf → Option Comparison
  | .comparison c comparator v upper => if c = category then some ⟨comparator, v, upper⟩ else none
  | .term .date v .is => if category = .date then some ⟨.equal, v, none⟩ else none
  | _ => none

/-- Whether the ranges of a compiled query are what leaves ask for. -/
structure Compiled.Ranges (c : Compiled) (ls : List Leaf) : Prop where
  words : c.words.IsCommon .words (ls.filterMap (Leaf.comparison? .words))
  dates : (c.dates.getD .all).IsCommon .dates (ls.filterMap (Leaf.comparison? .date))
  dated : c.dates.isSome = true ↔ ls.filterMap (Leaf.comparison? .date) ≠ []
  quality : c.quality.IsCommon .doubles (ls.filterMap (Leaf.comparison? .quality))
  similarity : c.similarity.IsCommon .doubles (ls.filterMap (Leaf.comparison? .sim))

namespace IsReadValue

variable {v : String}

theorem read_words (h : IsReadValue .words v) : ∃ p ∈ Scale.words.read? v.toList, True ∧ True := by
  obtain ⟨k, -, -, hsome⟩ := h
  obtain ⟨n, hn⟩ := Option.isSome_iff_exists.1 hsome
  exact ⟨(n, n), Option.map_eq_some_iff.2 ⟨n, hn, rfl⟩, trivial, trivial⟩

theorem read_dates (h : IsReadValue .date v) : ∃ p ∈ Scale.dates.read? v.toList, True ∧ True := by
  obtain ⟨k, -, -, hsome⟩ := h
  obtain ⟨p, hp⟩ := Option.isSome_iff_exists.1 hsome
  exact ⟨(p.first, p.last), Option.map_eq_some_iff.2 ⟨p, hp, rfl⟩, trivial, trivial⟩

theorem read_doubles {c : Category} (hc : c = .quality ∨ c = .sim) (h : IsReadValue c v) :
    ∃ p ∈ Scale.doubles.read? v.toList, p.1.IsUnsigned ∧ p.2.IsUnsigned := by
  have hnumber := h.isNumber hc
  obtain ⟨k, -, -, hsome⟩ := h
  have hsome : (Double.read? v.toList).isSome := by
    rcases hc with rfl | rfl <;> exact hsome.2
  obtain ⟨x, hx⟩ := Option.isSome_iff_exists.1 hsome
  have hunsigned := Double.isUnsigned_of_read? hnumber hx
  exact ⟨(x, x), Option.map_eq_some_iff.2 ⟨x, hx, rfl⟩, hunsigned, hunsigned⟩

end IsReadValue

variable {α : Type} {S : Scale α} {P : α → Prop} {category : Category}

theorem SignedLeaf.isRead_of_effective? {x : SignedLeaf} (h : x.1.IsRead) : ∀ l ∈ x.effective?, l.IsRead := by
  intro l hl
  obtain ⟨k, negated⟩ := x
  cases negated with
  | false => exact Option.some.inj hl ▸ h
  | true =>
    cases k with
    | term => exact Option.some.inj hl ▸ h
    | comparison c comparator v upper =>
      obtain ⟨opposite, -, rfl⟩ := Option.map_eq_some_iff.1 hl
      exact h
    | regex | phrase | wildcard => cases hl

theorem Leaf.IsRead.isReadValue {l : Leaf} (h : l.IsRead) : ∀ c ∈ l.comparison? category,
    IsReadValue category c.value ∧ ∀ u ∈ c.upper, IsReadValue category u := by
  intro c hc
  unfold Leaf.comparison? at hc
  split at hc
  · rw [Option.mem_def, Option.ite_none_right_eq_some] at hc
    obtain ⟨rfl, hc⟩ := hc
    cases hc
    exact h
  · rw [Option.mem_def, Option.ite_none_right_eq_some] at hc
    obtain ⟨rfl, hc⟩ := hc
    cases hc
    exact ⟨h.2 rfl, nofun⟩
  · cases hc

theorem Leaf.comparison?_term (category c : Category) (v : String) (s : Stance) :
    (Leaf.term c v s).comparison? category
      = if c = .date ∧ s = .is ∧ category = .date then some ⟨.equal, v, none⟩ else none := by
  cases c <;> cases s <;> simp [comparison?]

namespace Comparison

theorem bounds_of_numberBounds {read : List Char → Option α} (hS : ∀ cs, S.read? cs = (read cs).map fun a => (a, a))
    (c : Comparison) : SignedLeaf.numberBounds read c.comparator c.value c.upper = c.bounds S := by
  cases hc : c.comparator <;>
    simp [SignedLeaf.numberBounds, bounds, hc, hS, Option.map_map, Function.comp_def]

theorem bounds_of_dateBounds (c : Comparison) {p : Period} (hp : Period.read? c.value.toList = some p) :
    SignedLeaf.dateBounds c.comparator p c.upper = c.bounds .dates := by
  cases hc : c.comparator <;>
    simp [SignedLeaf.dateBounds, bounds, hc, Scale.dates, hp, Option.map_map, Function.comp_def]

end Comparison

namespace SignedLeaf

theorem comparison?_eq (category : Category) (c : Category) (comparator : Comparator) (v : String)
    (upper : Option String) (negated : Bool) :
    comparison? category (.comparison c comparator v upper, negated)
      = ((effective? (.comparison c comparator v upper, negated)).bind (Leaf.comparison? category)).map
          fun k => (k.comparator, k.value, k.upper) := by
  by_cases hc : c = category
  · cases negated <;> cases comparator <;>
      simp [comparison?, effective?, Leaf.negated?, Leaf.comparison?, Comparator.negate?, hc]
  · cases negated <;> cases comparator <;>
      simp [comparison?, effective?, Leaf.negated?, Leaf.comparison?, Comparator.negate?, hc]

theorem numbers?_eq {read : List Char → Option α} (hS : ∀ cs, S.read? cs = (read cs).map fun a => (a, a))
    (hc : category ≠ .date) (x : SignedLeaf) :
    x.numbers? category read = (x.effective?.bind (Leaf.comparison? category)).map (Comparison.bounds S) := by
  obtain ⟨l, negated⟩ := x
  cases l with
  | comparison c comparator v upper =>
    rw [numbers?, comparison?_eq, Option.map_map]
    congr 1
    exact funext (Comparison.bounds_of_numberBounds hS)
  | term c v s => cases negated <;> simp [numbers?, comparison?, effective?, Leaf.negated?, Leaf.comparison?_term, hc]
  | regex | phrase | wildcard => cases negated <;> rfl

theorem dates?_eq {x : SignedLeaf} (h : x.1.IsRead) :
    x.dates? = (x.effective?.bind (Leaf.comparison? .date)).map (Comparison.bounds .dates) := by
  have hread : ∀ k, x.effective?.bind (Leaf.comparison? .date) = some k →
      ∃ p, Period.read? k.value.toList = some p ∧ SignedLeaf.dateBounds k.comparator p k.upper = k.bounds .dates := by
    intro k hk
    obtain ⟨l, hl, hk⟩ := Option.bind_eq_some_iff.1 hk
    obtain ⟨q, hq, -⟩ := ((isRead_of_effective? h l hl).isReadValue k hk).1.read_dates
    obtain ⟨p, hp, -⟩ := Option.map_eq_some_iff.1 hq
    exact ⟨p, hp, k.bounds_of_dateBounds hp⟩
  obtain ⟨l, negated⟩ := x
  cases l with
  | comparison c comparator v upper =>
    have hterm : term? .date .is (.comparison c comparator v upper, negated) = none := rfl
    rw [dates?, hterm, comparison?_eq]
    cases hk : (effective? (.comparison c comparator v upper, negated)).bind (Leaf.comparison? .date) with
    | none => rfl
    | some k =>
      obtain ⟨p, hp, hbounds⟩ := hread k hk
      simp [hp, hbounds]
  | term c v s =>
    have heffective : effective? (.term c v s, negated) = some (.term c v (if negated then s.negate else s)) := by
      cases negated <;> rfl
    have hterm : term? .date .is (.term c v s, negated)
        = if c = .date ∧ (if negated then s.negate else s) = .is then some v else none := rfl
    have hcompare : comparison? .date (.term c v s, negated) = none := rfl
    rw [heffective, Option.bind_some, Leaf.comparison?_term] at hread ⊢
    rw [dates?, hterm, hcompare]
    by_cases hc : c = .date ∧ (if negated then s.negate else s) = .is
    · have hdate : c = .date ∧ (if negated then s.negate else s) = .is ∧ Category.date = .date := ⟨hc.1, hc.2, rfl⟩
      rw [if_pos hdate] at hread ⊢
      rw [if_pos hc]
      obtain ⟨p, hp, hbounds⟩ := hread _ rfl
      rw [Option.map_some, ← hbounds]
      exact congrArg (Option.map fun p => (⟨some p.first, some p.last⟩ : Bounds Int)) hp
    · rw [if_neg hc, if_neg fun h => hc ⟨h.1, h.2.1⟩]
      rfl
  | regex | phrase | wildcard => cases negated <;> rfl

end SignedLeaf

namespace Compiled

open Comparison (common)

def ranges (c : Compiled) : Option (Bounds Int) × Bounds Nat × Bounds Double × Bounds Double :=
  (c.dates, c.words, c.quality, c.similarity)

def commonRanges (ls : List Leaf) : Option (Bounds Int) × Bounds Nat × Bounds Double × Bounds Double :=
  let comparisons := fun category => ls.filterMap (Leaf.comparison? category)
  (meetAll? max min ((comparisons .date).map (Comparison.bounds .dates)),
    common .words max min (comparisons .words),
    common .doubles Double.greater Double.lesser (comparisons .quality),
    common .doubles Double.greater Double.lesser (comparisons .sim))

section

variable {greater lesser : α → α → α} {ls ks : List SignedLeaf}

theorem isReadValue_of_mem (hks : ∀ x ∈ ks, x.1.IsRead) :
    ∀ c ∈ (ks.filterMap SignedLeaf.effective?).filterMap (Leaf.comparison? category),
      IsReadValue category c.value ∧ ∀ u ∈ c.upper, IsReadValue category u := by
  intro c hc
  obtain ⟨l, hl, hc⟩ := List.mem_filterMap.1 hc
  obtain ⟨x, hx, hl⟩ := List.mem_filterMap.1 hl
  exact (SignedLeaf.isRead_of_effective? (hks x hx) l hl).isReadValue c hc

theorem meetAll?_walked [DecidableEq α] (hg : Absorbs greater) (hl : Absorbs lesser)
    (h : ls.eraseDups = ks.eraseDups) {f : SignedLeaf → Option (Bounds α)}
    (hf : ∀ x ∈ ks, f x = (x.effective?.bind (Leaf.comparison? category)).map (Comparison.bounds S)) :
    meetAll? greater lesser (ls.filterMap f) = meetAll? greater lesser
      (((ks.filterMap SignedLeaf.effective?).filterMap (Leaf.comparison? category)).map (Comparison.bounds S)) := by
  rw [meetAll?_congr hg hl (eraseDups_filterMap_congr h f), List.filterMap_congr hf, List.filterMap_filterMap,
    List.map_filterMap]

theorem isSome_meetAll? {bs : List (Bounds α)} : (meetAll? greater lesser bs).isSome = true ↔ bs ≠ [] := by
  cases bs <;> simp [meetAll?]

theorem meetAll?_bounds_congr {cs ds : List Comparison} (hS : S.IsLawful P greater lesser)
    (hcs : ∀ c ∈ cs, c.IsReadable S P) (hmem : ∀ c, c ∈ cs ↔ c ∈ ds) :
    meetAll? greater lesser (cs.map (Comparison.bounds S)) =
      meetAll? greater lesser (ds.map (Comparison.bounds S)) := by
  have hcommon := Comparison.common_congr hS hcs hmem
  cases cs with
  | nil =>
    have hds : ds = [] := List.eq_nil_iff_forall_not_mem.2 fun c hc => List.not_mem_nil ((hmem c).2 hc)
    rw [hds]
  | cons c cs =>
    cases ds with
    | nil => exact absurd ((hmem c).1 List.mem_cons_self) List.not_mem_nil
    | cons d ds => exact congrArg some hcommon

theorem numbers_walked [DecidableEq α] (hg : Absorbs greater) (hl : Absorbs lesser)
    (h : ls.eraseDups = ks.eraseDups) {read : List Char → Option α}
    (hS : ∀ cs, S.read? cs = (read cs).map fun a => (a, a)) (hc : category ≠ .date) :
    (meetAll? greater lesser (ls.filterMap (SignedLeaf.numbers? category read))).getD .all
      = common S greater lesser ((ks.filterMap SignedLeaf.effective?).filterMap (Leaf.comparison? category)) :=
  congrArg (Option.getD · .all) (meetAll?_walked hg hl h fun x _ => SignedLeaf.numbers?_eq hS hc x)

theorem ranges_ofLeaves (page : Page) (h : ls.eraseDups = ks.eraseDups) (hks : ∀ x ∈ ks, x.1.IsRead) :
    (ofLeaves page ls).ranges = commonRanges (ks.filterMap SignedLeaf.effective?) := by
  have hwords : (ofLeaves page ls).words = _ :=
    numbers_walked (S := .words) absorbs_max absorbs_min h (fun _ => rfl) (by decide)
  have hdates : (ofLeaves page ls).dates = _ :=
    meetAll?_walked absorbs_max absorbs_min h fun x hx => SignedLeaf.dates?_eq (hks x hx)
  have hquality : (ofLeaves page ls).quality = _ :=
    numbers_walked (S := .doubles) Double.absorbs_greater Double.absorbs_lesser h (fun _ => rfl) (by decide)
  have hsimilarity : (ofLeaves page ls).similarity = _ :=
    numbers_walked (S := .doubles) Double.absorbs_greater Double.absorbs_lesser h (fun _ => rfl) (by decide)
  rw [ranges, commonRanges, hwords, hdates, hquality, hsimilarity]

end

end Compiled

namespace Tree

variable {t t' : Tree}

/-- The leaves of a tree, where every reference has a copy of its subtree. -/
def copies (t : Tree) : List SignedLeaf := (t.root.map (Node.copies false)).getD []

/-- What the leaves of a tree ask for in the end. -/
def effective (t : Tree) : List Leaf := t.copies.filterMap SignedLeaf.effective?

theorem IsParsed.isRead_of_mem_copies (h : t.IsParsed) : ∀ x ∈ t.copies, x.1.IsRead := by
  intro x hx
  rw [copies] at hx
  cases hroot : t.root with
  | none =>
    rw [hroot] at hx
    cases hx
  | some n =>
    rw [hroot] at hx
    exact h.isRead n hroot x hx

theorem IsParsed.eraseDups_leaves (h : t.IsParsed) :
    ((t.root.map Node.leaves).getD []).eraseDups = t.copies.eraseDups := by
  obtain ⟨memory, hmemory⟩ := h.exists_backed
  rw [copies]
  cases hroot : t.root with
  | none => rfl
  | some n => exact Node.eraseDups_leaves (hmemory n hroot)

theorem IsParsed.ranges (h : t.IsParsed) (page : Page) :
    (Compiled.ofNode? page t.root).ranges = Compiled.commonRanges t.effective :=
  Compiled.ranges_ofLeaves page h.eraseDups_leaves h.isRead_of_mem_copies

/-- The comparisons that a tree makes in a category. -/
def comparisons (t : Tree) (category : Category) : List Comparison :=
  t.effective.filterMap (Leaf.comparison? category)

theorem IsParsed.isReadValue (h : t.IsParsed) : ∀ c ∈ t.comparisons category,
    IsReadValue category c.value ∧ ∀ u ∈ c.upper, IsReadValue category u :=
  Compiled.isReadValue_of_mem h.isRead_of_mem_copies

theorem IsParsed.isReadable (h : t.IsParsed)
    (hread : ∀ v, IsReadValue category v → ∃ p ∈ S.read? v.toList, P p.1 ∧ P p.2) :
    ∀ c ∈ t.comparisons category, c.IsReadable S P := fun c hc =>
  ⟨hread c.value (h.isReadValue c hc).1, fun u hu => hread u ((h.isReadValue c hc).2 u hu)⟩

theorem IsParsed.ranges_common (h : t.IsParsed) (page : Page) : (Compiled.ofNode? page t.root).Ranges t.effective := by
  have heq := h.ranges page
  simp only [Compiled.ranges, Compiled.commonRanges, Prod.mk.injEq] at heq
  obtain ⟨hdates, hwords, hquality, hsimilarity⟩ := heq
  constructor
  · rw [hwords]
    exact Comparison.isCommon_common (Scale.isLawful_of_linearOrder _) (h.isReadable fun _ => IsReadValue.read_words)
  · rw [hdates]
    exact Comparison.isCommon_common (Scale.isLawful_of_linearOrder _) (h.isReadable fun _ => IsReadValue.read_dates)
  · rw [hdates, Compiled.isSome_meetAll?, ne_eq, List.map_eq_nil_iff]
  · rw [hquality]
    exact Comparison.isCommon_common Scale.isLawful_doubles
      (h.isReadable fun _ => IsReadValue.read_doubles (.inl rfl))
  · rw [hsimilarity]
    exact Comparison.isCommon_common Scale.isLawful_doubles
      (h.isReadable fun _ => IsReadValue.read_doubles (.inr rfl))

theorem IsParsed.ranges_congr (h : t.IsParsed) (h' : t'.IsParsed)
    (hmem : ∀ category c, c ∈ t.comparisons category ↔ c ∈ t'.comparisons category) (page : Page) :
    (Compiled.ofNode? page t.root).ranges = (Compiled.ofNode? page t'.root).ranges := by
  rw [h.ranges page, h'.ranges page]
  refine congrArg₂ Prod.mk ?_ (congrArg₂ Prod.mk ?_ (congrArg₂ Prod.mk ?_ ?_))
  · exact Compiled.meetAll?_bounds_congr (Scale.isLawful_of_linearOrder _)
      (h.isReadable fun _ => IsReadValue.read_dates) (hmem .date)
  · exact Comparison.common_congr (Scale.isLawful_of_linearOrder _) (h.isReadable fun _ => IsReadValue.read_words)
      (hmem .words)
  · exact Comparison.common_congr Scale.isLawful_doubles (h.isReadable fun _ => IsReadValue.read_doubles (.inl rfl))
      (hmem .quality)
  · exact Comparison.common_congr Scale.isLawful_doubles (h.isReadable fun _ => IsReadValue.read_doubles (.inr rfl))
      (hmem .sim)

/-- In a tree that was read, ranges admit what every comparison admits, and have the ends that comparisons set. Trees
that make the same comparisons have the same ranges, however these are ordered, grouped and shared. -/
theorem ranges_of_isParsed (h : t.IsParsed) (page : Page) :
    (Compiled.ofNode? page t.root).Ranges t.effective ∧ ∀ t' : Tree, t'.IsParsed →
      (∀ category c, c ∈ t.comparisons category ↔ c ∈ t'.comparisons category) →
        (Compiled.ofNode? page t.root).ranges = (Compiled.ofNode? page t'.root).ranges :=
  ⟨h.ranges_common page, fun _ h' hmem => h.ranges_congr h' hmem page⟩

def recent : Stacks := fun name => [("recent", "words:>5 date:>=2019-03")].lookup name

theorem ranges_recent :
    ∃ t t', parseWith recent 10 none "@recent !(words:<9 & !@recent) | date:2020 quality:0.5..1" = .ok t ∧
      parse "quality:0.5..1 words:>=9 date:2020 (words:>5 date:>=2019-03)" = .ok t' ∧
      (∀ category c, c ∈ t.comparisons category ↔ c ∈ t'.comparisons category) ∧
      (Compiled.ofNode? .standard t.root).Ranges t.effective ∧
      (Compiled.ofNode? .standard t.root).ranges = (Compiled.ofNode? .standard t'.root).ranges := by
  have h : (do
      let t ← parseWith recent 10 none "@recent !(words:<9 & !@recent) | date:2020 quality:0.5..1"
      let t' ← parse "quality:0.5..1 words:>=9 date:2020 (words:>5 date:>=2019-03)"
      return Category.all.all fun category => (t.comparisons category).all (· ∈ t'.comparisons category) &&
        (t'.comparisons category).all (· ∈ t.comparisons category) : Except Token.Overrun Bool) = .ok true := by
    decide +kernel
  cases ht : parseWith recent 10 none "@recent !(words:<9 & !@recent) | date:2020 quality:0.5..1" with
  | error o => rw [ht] at h; cases h
  | ok t =>
    cases ht' : parse "quality:0.5..1 words:>=9 date:2020 (words:>5 date:>=2019-03)" with
    | error o => rw [ht, ht'] at h; cases h
    | ok t' =>
      rw [ht, ht'] at h
      have hall := List.all_eq_true.1 (Except.ok.inj h)
      have hmem : ∀ category c, c ∈ t.comparisons category ↔ c ∈ t'.comparisons category := by
        intro category c
        have hboth := hall category (by cases category <;> decide)
        simp only [Bool.and_eq_true, List.all_eq_true, decide_eq_true_eq] at hboth
        exact ⟨hboth.1 c, hboth.2 c⟩
      obtain ⟨hranges, hsame⟩ := ranges_of_isParsed (.within ht) .standard
      exact ⟨t, t', rfl, rfl, hmem, hranges, hsame t' (.alone ht') hmem⟩

end Tree

end FilterQuery
