import FilterQuery.Proofs.Expansion.Sites

/-! What sharing does to a compiled query. Lists of values and bounds take no notice of repeats, so that a
shared subtree may be walked once; the search is the text of all its terms, and loses those of a subtree
that is passed over. -/

namespace FilterQuery

structure Absorbs {α : Type} (op : α → α → α) : Prop where
  self : ∀ x, op x x = x
  again : ∀ a x, op (op a x) x = op a x
  stays : ∀ a x y, op a x = a → op (op a y) x = op a y

theorem absorbs_max {α : Type} [LinearOrder α] : Absorbs (max : α → α → α) where
  self := max_self
  again a x := by rw [max_assoc, max_self]
  stays a x y h := by rw [max_right_comm, h]

theorem absorbs_min {α : Type} [LinearOrder α] : Absorbs (min : α → α → α) where
  self := min_self
  again a x := by rw [min_assoc, min_self]
  stays a x y h := by rw [min_right_comm, h]

namespace Double

theorem absorbs_greater : Absorbs greater where
  self x := by simp [greater]
  again a x := by
    unfold greater
    split_ifs <;> simp_all
  stays a x y h := by
    unfold greater at *
    split_ifs at * <;> simp_all
    omega

theorem absorbs_lesser : Absorbs lesser where
  self x := by simp [lesser]
  again a x := by
    unfold lesser
    split_ifs <;> simp_all
  stays a x y h := by
    unfold lesser at *
    split_ifs at * <;> simp_all
    omega

end Double

namespace Bounds

variable {α : Type} {greater lesser pick : α → α → α}

theorem absorbs_tighter (h : Absorbs pick) : Absorbs (tighter pick) where
  self x := by cases x <;> simp [tighter, h.self]
  again a x := by cases a <;> cases x <;> simp [tighter, h.again, h.self]
  stays a x y hax := by
    cases a <;> cases x <;> cases y <;> simp_all [tighter, h.stays]

theorem absorbs_meet (hg : Absorbs greater) (hl : Absorbs lesser) : Absorbs (meet greater lesser) where
  self x := by
    simp only [meet, (absorbs_tighter hg).self, (absorbs_tighter hl).self]
  again a x := by
    simp only [meet, (absorbs_tighter hg).again, (absorbs_tighter hl).again]
  stays a x y h := by
    have hleast := (absorbs_tighter hg).stays _ _ y.least (congrArg Bounds.least h)
    have hgreatest := (absorbs_tighter hl).stays _ _ y.greatest (congrArg Bounds.greatest h)
    simp only [meet, hleast, hgreatest]

end Bounds

namespace Compiled

section

variable {α : Type} {greater lesser : α → α → α} {bs : List (Bounds α)}

theorem meetAll?_concat (bs : List (Bounds α)) (b : Bounds α) :
    meetAll? greater lesser (bs ++ [b])
      = some (((meetAll? greater lesser bs).map (Bounds.meet greater lesser · b)).getD b) := by
  cases bs with
  | nil => rfl
  | cons c bs => simp [meetAll?, List.foldl_append]

theorem meet_of_mem (hg : Absorbs greater) (hl : Absorbs lesser) {r : Bounds α}
    (hr : meetAll? greater lesser bs = some r) {b : Bounds α} (hb : b ∈ bs) :
    Bounds.meet greater lesser r b = r := by
  have hm := Bounds.absorbs_meet hg hl
  induction bs using List.reverseRecOn generalizing r with
  | nil => exact absurd hb List.not_mem_nil
  | append_singleton bs c ih =>
    rw [meetAll?_concat, Option.some_inj] at hr
    rw [← hr]
    cases hbs : meetAll? greater lesser bs with
    | none =>
      have hnil : bs = [] := by
        cases bs with
        | nil => rfl
        | cons => cases hbs
      rw [hnil, List.nil_append, List.mem_singleton] at hb
      rw [hb]
      exact hm.self c
    | some q =>
      rcases List.mem_append.1 hb with hb | hb
      · exact hm.stays q b c (ih hbs hb)
      · rw [List.mem_singleton.1 hb]
        exact hm.again q c

theorem meetAll?_eraseDups [DecidableEq α] (hg : Absorbs greater) (hl : Absorbs lesser)
    (bs : List (Bounds α)) : meetAll? greater lesser bs.eraseDups = meetAll? greater lesser bs := by
  induction bs using List.reverseRecOn with
  | nil => rfl
  | append_singleton bs b ih =>
    by_cases hb : b ∈ bs
    · rw [eraseDups_append_of_subset (List.cons_subset.2 ⟨hb, List.nil_subset bs⟩), ih, meetAll?_concat]
      cases hr : meetAll? greater lesser bs with
      | none =>
        cases bs with
        | nil => exact absurd hb List.not_mem_nil
        | cons => cases hr
      | some r => exact congrArg some (meet_of_mem hg hl hr hb).symm
    · rw [eraseDups_concat_of_notMem hb, meetAll?_concat, ih, meetAll?_concat]

theorem meetAll?_congr [DecidableEq α] (hg : Absorbs greater) (hl : Absorbs lesser) {cs : List (Bounds α)}
    (h : bs.eraseDups = cs.eraseDups) : meetAll? greater lesser bs = meetAll? greater lesser cs := by
  rw [← meetAll?_eraseDups hg hl, h, meetAll?_eraseDups hg hl]

end

theorem ofLeaves_congr (page : Page) {ls ks : List SignedLeaf} (h : ls.eraseDups = ks.eraseDups) :
    { ofLeaves page ls with search := none } = { ofLeaves page ks with search := none } := by
  have hterms := fun c s => eraseDups_filterMap_congr h (SignedLeaf.term? c s)
  have hdates := meetAll?_congr absorbs_max absorbs_min (eraseDups_filterMap_congr h SignedLeaf.dates?)
  have hwords := meetAll?_congr absorbs_max absorbs_min
    (eraseDups_filterMap_congr h (SignedLeaf.numbers? .words Number.word?))
  have hnumbers := fun c => meetAll?_congr Double.absorbs_greater Double.absorbs_lesser
    (eraseDups_filterMap_congr h (SignedLeaf.numbers? c Double.read?))
  simp only [ofLeaves, hterms, eraseDups_filterMap_congr h SignedLeaf.regex?,
    eraseDups_filterMap_congr h SignedLeaf.phrase?, eraseDups_filterMap_congr h SignedLeaf.wildcard?, hdates,
    hwords, hnumbers]

def spread (vs : List String) : Nat := (vs.map fun v => v.length + 1).sum

theorem length_intercalate {vs : List String} (h : vs ≠ []) :
    (" ".intercalate vs).length + 1 = spread vs := by
  induction vs with
  | nil => exact absurd rfl h
  | cons v vs ih =>
    cases vs with
    | nil => simp [spread]
    | cons u us =>
      have hrest := ih (List.cons_ne_nil u us)
      have hblank : (" " : String).length = 1 := rfl
      rw [spread, List.map_cons, List.sum_cons] at hrest ⊢
      rw [String.intercalate_cons_cons, String.length_append, String.length_append, hblank]
      rw [List.map_cons, List.sum_cons, ← hrest]
      omega

theorem spread_le_of_sublist {vs us : List String} (h : vs.Sublist us) : spread vs ≤ spread us :=
  (h.map _).sum_le_sum fun _ _ => Nat.zero_le _

theorem eq_of_spread {vs us : List String} (h : vs.Sublist us) (he : spread vs = spread us) : vs = us := by
  induction h with
  | slnil => rfl
  | cons u h ih =>
    have hle := spread_le_of_sublist h
    simp only [spread, List.map_cons, List.sum_cons] at he hle
    omega
  | cons_cons v h ih =>
    simp only [spread, List.map_cons, List.sum_cons] at he ih
    rw [ih (by omega)]

theorem search_ofLeaves (page : Page) (ls : List SignedLeaf) :
    (ofLeaves page ls).search =
      if (Node.searchTerms ls).isEmpty then none else some (" ".intercalate (Node.searchTerms ls)) := rfl

theorem search_eq_iff {page : Page} {ls ks : List SignedLeaf} (hsub : ls.Sublist ks)
    (h : ls.eraseDups = ks.eraseDups) :
    (ofLeaves page ls).search = (ofLeaves page ks).search ↔ Node.searchTerms ls = Node.searchTerms ks := by
  refine ⟨fun hs => ?_, fun ht => by rw [search_ofLeaves, search_ofLeaves, ht]⟩
  have hterms : (Node.searchTerms ls).Sublist (Node.searchTerms ks) := hsub.filterMap _
  have hdups := eraseDups_filterMap_congr h (SignedLeaf.term? .content .is)
  by_cases hnil : Node.searchTerms ls = []
  · rw [hnil, eq_comm, List.eq_nil_iff_forall_not_mem]
    intro v hv
    have hmem := (mem_iff_of_eraseDups_eq hdups).2 hv
    rw [Node.searchTerms] at hnil
    exact absurd hmem (hnil ▸ List.not_mem_nil)
  · have hne : Node.searchTerms ks ≠ [] := fun he => hnil (List.sublist_nil.1 (he ▸ hterms))
    rw [search_ofLeaves, search_ofLeaves, if_neg (by simpa using hnil), if_neg (by simpa using hne),
      Option.some_inj] at hs
    refine eq_of_spread hterms ?_
    rw [← length_intercalate hnil, hs, length_intercalate hne]

theorem leaves_unshared (n : Node) : n.unshared.leaves = n.copies false := by
  rw [Node.leaves, Node.leavesFrom_unshared]

theorem ofNode?_unshared (page : Page) (root : Option Node) :
    ofNode? page (root.map Node.unshared) = ofLeaves page ((root.map (Node.copies false)).getD []) := by
  rw [ofNode?, Option.map_map]
  congr 2
  exact congrArg (Option.map · root) (funext leaves_unshared)

theorem ofNode?_unshared_of_backed (page : Page) {memory : Site → Node} {root : Option Node}
    (h : ∀ n ∈ root, n.Backed memory) :
    { ofNode? page root with search := none }
      = { ofNode? page (root.map Node.unshared) with search := none } := by
  rw [ofNode?_unshared]
  cases root with
  | none => rfl
  | some n => exact ofLeaves_congr page (Node.eraseDups_leaves (h n rfl))

theorem eq_iff_search {c d : Compiled} (h : { c with search := none } = { d with search := none }) :
    c = d ↔ c.search = d.search := by
  refine ⟨fun he => he ▸ rfl, fun hs => ?_⟩
  cases c
  cases d
  simp only [mk.injEq] at h hs ⊢
  tauto

/-- Trees that are equal but for what they share compile to the same query but for the search; and the search
is that of the tree without sharing if and only if no shared subtree that asks for content is referred to
twice under one negation. -/
theorem ofNode?_eq_of_unshared_eq (page : Page) {memory memory' : Site → Node} {m n : Option Node}
    (hm : ∀ r ∈ m, r.Backed memory) (hn : ∀ r ∈ n, r.Backed memory')
    (h : m.map Node.unshared = n.map Node.unshared) :
    { ofNode? page m with search := none } = { ofNode? page n with search := none } ∧
      (ofNode? page m = ofNode? page (m.map Node.unshared) ↔
        ((m.map (Node.searchSites false)).getD []).Nodup) := by
  have hfields := ofNode?_unshared_of_backed page hm
  refine ⟨hfields.trans (h ▸ (ofNode?_unshared_of_backed page hn).symm), ?_⟩
  rw [eq_iff_search hfields, ofNode?_unshared]
  cases m with
  | none => exact ⟨fun _ => List.nodup_nil, fun _ => rfl⟩
  | some r =>
    exact (search_eq_iff (Node.leavesFrom_sublist false [] r) (Node.eraseDups_leaves (hm r rfl))).trans
      (Node.searchTerms_leaves_iff (hm r rfl))

def greeting : Stacks := fun name => [("a", "hello")].lookup name

theorem ofNode?_eq_of_unshared_eq_greeting :
    ∃ t, Tree.parseWith greeting 10 none "@a @a" = .ok t ∧
      { ofNode? .standard t.root with search := none }
        = { ofNode? .standard (t.root.map Node.unshared) with search := none } ∧
      (ofNode? .standard t.root = ofNode? .standard (t.root.map Node.unshared) ↔
        ((t.root.map (Node.searchSites false)).getD []).Nodup) := by
  have hread : (Tree.parseWith greeting 10 none "@a @a").isOk = true := by decide +kernel
  cases ht : Tree.parseWith greeting 10 none "@a @a" with
  | error o => rw [ht] at hread; cases hread
  | ok t =>
    obtain ⟨memory, hmemory⟩ := exists_backed_of_parseWith ht
    have hnone : ∀ r ∈ t.root.map Node.unshared, r.Backed memory := by
      intro r hr x hx
      obtain ⟨n, -, rfl⟩ := Option.mem_map.1 hr
      rw [Node.shared_unshared] at hx
      cases hx
    have hidem : t.root.map Node.unshared = (t.root.map Node.unshared).map Node.unshared := by
      rw [Option.map_map]
      exact congrArg (Option.map · t.root) (funext fun n => (Node.unshared_unshared n).symm)
    exact ⟨t, rfl, ofNode?_eq_of_unshared_eq .standard hmemory hnone hidem⟩

theorem search_greeting :
    (Tree.parseWith greeting 10 none "@a @a").map (fun t =>
      ((ofNode? .standard t.root).search, (ofNode? .standard (t.root.map Node.unshared)).search))
      = .ok (some "hello", some "hello hello") := by
  decide +kernel

end Compiled

end FilterQuery
