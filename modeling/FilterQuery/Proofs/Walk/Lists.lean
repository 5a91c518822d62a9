import FilterQuery.Proofs.Walk

namespace FilterQuery

def Leaf.negated? : Leaf → Option Leaf
  | .term category v stance => some (.term category v stance.negate)
  | .comparison category comparator v upper =>
    comparator.negate?.map fun opposite => .comparison category opposite v upper
  | .regex .. | .phrase .. | .wildcard .. => none

namespace SignedLeaf

def effective? : SignedLeaf → Option Leaf
  | (l, false) => some l
  | (l, true) => l.negated?

end SignedLeaf

/-- What the leaves of a node ask for, where every reference has a copy of its subtree. -/
def Node.effective (n : Node) : List Leaf := (n.copies false).filterMap SignedLeaf.effective?

namespace Leaf

def value? (category : Category) (s : Stance) : Leaf → Option String
  | .term c v stance => if c = category ∧ stance = s then some v else none
  | _ => none

def regexTest? : Leaf → Option RegexTest
  | .regex pattern flags field => some ⟨pattern, flags, field⟩
  | _ => none

def phraseText? : Leaf → Option String
  | .phrase v _ => some v
  | _ => none

def wildcardPattern? : Leaf → Option String
  | .wildcard pattern _ => some pattern
  | _ => none

end Leaf

namespace SignedLeaf

theorem term?_eq (category : Category) (s : Stance) (l : SignedLeaf) :
    l.term? category s = l.effective?.bind (Leaf.value? category s) := by
  obtain ⟨l, negated⟩ := l
  cases l with
  | term => cases negated <;> rfl
  | comparison c comparator v upper => cases negated <;> cases comparator <;> rfl
  | regex | phrase | wildcard => cases negated <;> rfl

theorem eq_bind_effective? {α : Type} {f : SignedLeaf → Option α} {g : Leaf → Option α}
    (hbare : ∀ l, f (l, false) = g l) (hnegated : ∀ l, f (l, true) = none)
    (hterm : ∀ category v stance, g (.term category v stance) = none)
    (hcomparison : ∀ category comparator v upper, g (.comparison category comparator v upper) = none)
    (l : SignedLeaf) : f l = l.effective?.bind g := by
  obtain ⟨l, _ | _⟩ := l
  · exact hbare l
  · rw [hnegated]
    cases l with
    | term => exact (hterm ..).symm
    | comparison _ comparator => cases comparator <;> first | rfl | exact (hcomparison ..).symm
    | regex | phrase | wildcard => rfl

theorem regex?_eq (l : SignedLeaf) : l.regex? = l.effective?.bind Leaf.regexTest? :=
  eq_bind_effective? (fun l => by cases l <;> rfl) (fun l => by cases l <;> rfl) (fun _ _ _ => rfl)
    (fun _ _ _ _ => rfl) l

theorem phrase?_eq (l : SignedLeaf) : l.phrase? = l.effective?.bind Leaf.phraseText? :=
  eq_bind_effective? (fun l => by cases l <;> rfl) (fun l => by cases l <;> rfl) (fun _ _ _ => rfl)
    (fun _ _ _ _ => rfl) l

theorem wildcard?_eq (l : SignedLeaf) : l.wildcard? = l.effective?.bind Leaf.wildcardPattern? :=
  eq_bind_effective? (fun l => by cases l <;> rfl) (fun l => by cases l <;> rfl) (fun _ _ _ => rfl)
    (fun _ _ _ _ => rfl) l

end SignedLeaf

section

variable {α : Type} [DecidableEq α]

structure IsFirsts (vs us : List α) : Prop where
  nodup : us.Nodup
  mem_iff : ∀ v, v ∈ us ↔ v ∈ vs
  order : us.Pairwise fun a b => vs.idxOf a < vs.idxOf b

theorem pairwise_idxOf_eraseDups (vs : List α) :
    vs.eraseDups.Pairwise fun a b => vs.idxOf a < vs.idxOf b := by
  induction vs using List.reverseRecOn with
  | nil => exact .nil
  | append_singleton vs v ih =>
    -- values that are there before `v` keep their places
    have hold : vs.eraseDups.Pairwise fun a b => (vs ++ [v]).idxOf a < (vs ++ [v]).idxOf b := by
      refine ih.imp_of_mem fun ha hb hlt => ?_
      rwa [List.idxOf_append_of_mem (List.mem_eraseDups.1 ha),
        List.idxOf_append_of_mem (List.mem_eraseDups.1 hb)]
    by_cases hv : v ∈ vs
    · rwa [eraseDups_append_of_subset (List.cons_subset.2 ⟨hv, List.nil_subset vs⟩)]
    · rw [eraseDups_concat_of_notMem hv]
      refine List.pairwise_append.2 ⟨hold, List.pairwise_singleton _ _, fun a ha b hb => ?_⟩
      have ha : a ∈ vs := List.mem_eraseDups.1 ha
      rw [List.mem_singleton.1 hb, List.idxOf_append_of_mem ha, List.idxOf_append_of_notMem hv]
      have hlt := List.idxOf_lt_length_of_mem ha
      omega

theorem isFirsts_eraseDups (vs : List α) : IsFirsts vs vs.eraseDups where
  nodup := nodup_eraseDups vs
  mem_iff _ := List.mem_eraseDups
  order := pairwise_idxOf_eraseDups vs

theorem isFirsts_walked {ls ks : List SignedLeaf} (h : ls.eraseDups = ks.eraseDups)
    {f : SignedLeaf → Option α} {g : Leaf → Option α} (hf : ∀ l, f l = l.effective?.bind g) :
    IsFirsts ((ks.filterMap SignedLeaf.effective?).filterMap g) (ls.filterMap f).eraseDups := by
  rw [eraseDups_filterMap_congr h, List.filterMap_filterMap, ← funext hf]
  exact isFirsts_eraseDups _

end

namespace Compiled

/-- Whether the lists of a compiled query are the values that leaves ask for: terms by category and stance,
patterns by their kind. -/
structure Lists (c : Compiled) (ls : List Leaf) : Prop where
  sources : IsFirsts (ls.filterMap (Leaf.value? .source .is)) c.sources
  excludedSources : IsFirsts (ls.filterMap (Leaf.value? .source .isNot)) c.excludedSources
  spanningSources : IsFirsts (ls.filterMap (Leaf.value? .source .both)) c.spanningSources
  uncategorizedSources : IsFirsts (ls.filterMap (Leaf.value? .source .neither)) c.uncategorizedSources
  formats : IsFirsts (ls.filterMap (Leaf.value? .format .is)) c.formats
  excludedFormats : IsFirsts (ls.filterMap (Leaf.value? .format .isNot)) c.excludedFormats
  tags : IsFirsts (ls.filterMap (Leaf.value? .tags .is)) c.tags
  excludedTags : IsFirsts (ls.filterMap (Leaf.value? .tags .isNot)) c.excludedTags
  excludedTerms : IsFirsts (ls.filterMap (Leaf.value? .content .isNot)) c.excludedTerms
  phrases : IsFirsts (ls.filterMap Leaf.phraseText?) c.phrases
  wildcards : IsFirsts (ls.filterMap Leaf.wildcardPattern?) c.wildcards
  regexes : IsFirsts (ls.filterMap Leaf.regexTest?) c.regexes

theorem lists_ofLeaves (page : Page) {ls ks : List SignedLeaf} (h : ls.eraseDups = ks.eraseDups) :
    (ofLeaves page ls).Lists (ks.filterMap SignedLeaf.effective?) where
  sources := isFirsts_walked h (SignedLeaf.term?_eq _ _)
  excludedSources := isFirsts_walked h (SignedLeaf.term?_eq _ _)
  spanningSources := isFirsts_walked h (SignedLeaf.term?_eq _ _)
  uncategorizedSources := isFirsts_walked h (SignedLeaf.term?_eq _ _)
  formats := isFirsts_walked h (SignedLeaf.term?_eq _ _)
  excludedFormats := isFirsts_walked h (SignedLeaf.term?_eq _ _)
  tags := isFirsts_walked h (SignedLeaf.term?_eq _ _)
  excludedTags := isFirsts_walked h (SignedLeaf.term?_eq _ _)
  excludedTerms := isFirsts_walked h (SignedLeaf.term?_eq _ _)
  phrases := isFirsts_walked h SignedLeaf.phrase?_eq
  wildcards := isFirsts_walked h SignedLeaf.wildcard?_eq
  regexes := isFirsts_walked h SignedLeaf.regex?_eq

/-- The lists of a compiled node are what its leaves ask for in the end, in the order of the full tree, where
each site has one subtree wherever it stands. -/
theorem lists_ofNode? (page : Page) {memory : Site → Node} (n : Node) (h : n.Backed memory) :
    (ofNode? page (some n)).Lists n.effective :=
  lists_ofLeaves page (Node.eraseDups_leaves h)

def mixed : Node :=
  .group .or false [.leaf (.term .source "a" .both), .leaf (.term .tags "t" .is), .leaf (.phrase "x y" none),
    .leaf (.term .source "b" .isNot)]

def thrice : Node :=
  let shared := Node.expansion "s" (some ⟨"s", 0, none⟩) mixed
  .group .and false [.leaf (.term .source "b" .is), shared,
    .group .and true [shared, .leaf (.wildcard "w*" none)], shared]

theorem lists_thrice :
    thrice.Backed (fun _ => mixed) ∧ (ofNode? .standard (some thrice)).Lists thrice.effective := by
  have h : thrice.Backed fun _ => mixed := by
    intro x hx
    simp only [thrice, mixed, Node.shared, Node.allShared, List.append_nil, List.nil_append,
      List.singleton_append, List.mem_cons, List.not_mem_nil, or_false] at hx
    rcases hx with rfl | rfl | rfl <;> rfl
  exact ⟨h, lists_ofNode? .standard thrice h⟩

end Compiled

end FilterQuery
