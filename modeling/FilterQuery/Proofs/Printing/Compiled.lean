import FilterQuery.Proofs.Printing.Alone
import FilterQuery.Proofs.Printing.Meaning
import FilterQuery.Proofs.Walk.Compiled

namespace FilterQuery

def Leaf.isNeutral : Leaf → Bool
  | term _ _ .neutral => true
  | _ => false

namespace SignedLeaf

def isNeutral (l : SignedLeaf) : Bool := l.1.isNeutral

variable {l : SignedLeaf}

theorem exists_of_isNeutral (h : l.isNeutral = true) : ∃ c v b, l = (.term c v .neutral, b) := by
  obtain ⟨l, b⟩ := l
  unfold isNeutral Leaf.isNeutral at h
  split at h
  · next c v hl => exact ⟨c, v, b, Prod.ext hl rfl⟩
  · cases h

theorem term?_of_isNeutral (h : l.isNeutral = true) {s : Stance} (hs : s ≠ .neutral) (c : Category) :
    term? c s l = none := by
  obtain ⟨c', v, b, rfl⟩ := exists_of_isNeutral h
  refine if_neg fun hc => hs ?_
  rw [← hc.2]
  cases b <;> rfl

theorem comparison?_of_isNeutral (h : l.isNeutral = true) (c : Category) : comparison? c l = none := by
  obtain ⟨c', v, b, rfl⟩ := exists_of_isNeutral h
  rfl

theorem dates?_of_isNeutral (h : l.isNeutral = true) : dates? l = none := by
  rw [dates?, term?_of_isNeutral h (s := .is) (by decide), comparison?_of_isNeutral h]
  rfl

theorem numbers?_of_isNeutral {α : Type} (h : l.isNeutral = true) (c : Category) (read : List Char → Option α) :
    numbers? c read l = none := by
  rw [numbers?, comparison?_of_isNeutral h]
  rfl

theorem filterMap_filter_isNeutral {β : Type} {f : SignedLeaf → Option β}
    (h : ∀ l : SignedLeaf, l.isNeutral = true → f l = none) (ls : List SignedLeaf) :
    (ls.filter fun l => !l.isNeutral).filterMap f = ls.filterMap f := by
  rw [List.filterMap_filter]
  refine List.filterMap_congr fun l _ => ?_
  cases hl : l.isNeutral with
  | false => rfl
  | true => exact (h l hl).symm

end SignedLeaf

open SignedLeaf in
theorem Compiled.ofLeaves_filter_isNeutral (page : Page) (ls : List SignedLeaf) :
    ofLeaves page (ls.filter fun l => !l.isNeutral) = ofLeaves page ls := by
  have hterms : ∀ c s, s ≠ .neutral →
      (ls.filter fun l => !l.isNeutral).filterMap (term? c s) = ls.filterMap (term? c s) := fun c s hs =>
    filterMap_filter_isNeutral (fun l hl => term?_of_isNeutral hl hs c) ls
  have hnumbers : ∀ {α : Type} c (read : List Char → Option α),
      (ls.filter fun l => !l.isNeutral).filterMap (numbers? c read) = ls.filterMap (numbers? c read) := fun c read =>
    filterMap_filter_isNeutral (fun l hl => numbers?_of_isNeutral hl c read) ls
  have hregexes : (ls.filter fun l => !l.isNeutral).filterMap regex? = ls.filterMap regex? :=
    filterMap_filter_isNeutral (fun l hl => by obtain ⟨c, v, b, rfl⟩ := exists_of_isNeutral hl; rfl) ls
  have hphrases : (ls.filter fun l => !l.isNeutral).filterMap phrase? = ls.filterMap phrase? :=
    filterMap_filter_isNeutral (fun l hl => by obtain ⟨c, v, b, rfl⟩ := exists_of_isNeutral hl; rfl) ls
  have hwildcards : (ls.filter fun l => !l.isNeutral).filterMap wildcard? = ls.filterMap wildcard? :=
    filterMap_filter_isNeutral (fun l hl => by obtain ⟨c, v, b, rfl⟩ := exists_of_isNeutral hl; rfl) ls
  have his := fun c => hterms c .is (by decide)
  have hnot := fun c => hterms c .isNot (by decide)
  have hboth := fun c => hterms c .both (by decide)
  have hneither := fun c => hterms c .neither (by decide)
  simp only [ofLeaves, his, hnot, hboth, hneither, hnumbers, hregexes, hphrases, hwildcards,
    filterMap_filter_isNeutral (fun l hl => dates?_of_isNeutral hl) ls]

namespace Node

variable {n : Node}

theorem unshared_of_atoms (h : ∀ a ∈ n.atoms, a.unshared = a) : n.unshared = n := by
  induction n using Node.induction with
  | atom n hn => exact h n (by rw [atoms_of_isGroup hn]; exact List.mem_singleton_self n)
  | group j negated ns ih =>
    rw [unshared_group]
    refine congrArg (group j negated) ((List.map_congr_left fun n hn => ih n hn fun a ha => ?_).trans (List.map_id ns))
    rw [atoms_group] at h
    exact h a (List.mem_flatMap.2 ⟨n, hn, ha⟩)

theorem leaves_of_atoms (h : ∀ a ∈ n.atoms, a.unshared = a) : n.leaves = n.copies false := by
  rw [← Compiled.leaves_unshared, unshared_of_atoms h]

theorem unshared_of_from {p : Token.Kind → Prop} (h : n.From p) : n.unshared = n := by
  cases n with
  | leaf | reference => rfl
  | expansion | group => exact h.elim

def isNeutral : Node → Bool
  | leaf l => l.isNeutral
  | _ => false

theorem exists_of_isNeutral (h : n.isNeutral = true) : ∃ c v, n = leaf (.term c v .neutral) := by
  unfold isNeutral Leaf.isNeutral at h
  split at h
  · split at h
    · exact ⟨_, _, rfl⟩
    · cases h
  · cases h

def asked (n : Node) (negated : Bool) : List SignedLeaf := (n.copies negated).filter fun l => !l.isNeutral

theorem asked_group (j : Junction) (flip : Bool) (ns : List Node) (negated : Bool) :
    (group j flip ns).asked negated = ns.flatMap (·.asked (negated != flip)) := by
  rw [asked, copies]
  induction ns with
  | nil => rfl
  | cons n ns ih => rw [allCopies, List.filter_append, ih, List.flatMap_cons, asked]

end Node

def Valuation.asked : Valuation (Bool → List SignedLeaf) where
  atom n := if n.isNeutral then none else some n.asked
  negate f b := f !b
  combine _ f g b := f b ++ g b
  negate_negate f := funext fun b => congrArg f (Bool.not_not b)
  assoc _ f g h := funext fun b => List.append_assoc (f b) (g b) (h b)

namespace Valuation

variable {n : Node} {ns : List Node}

theorem total_asked (j : Junction) (b : Bool) (h : ∀ n ∈ ns, ((asked.value n).map (· b)).getD [] = n.asked b) :
    ((asked.total j ns).map (· b)).getD [] = ns.flatMap (·.asked b) := by
  induction ns with
  | nil => rfl
  | cons n ns ih =>
    have hns := ih fun m hm => h m (List.mem_cons_of_mem n hm)
    rw [total, List.flatMap_cons, ← hns, ← h n List.mem_cons_self]
    cases asked.value n with
    | none => cases asked.total j ns <;> rfl
    | some f =>
      cases asked.total j ns with
      | none => exact (List.append_nil _).symm
      | some g => rfl

theorem value_asked (n : Node) (b : Bool) : ((asked.value n).map (· b)).getD [] = n.asked b := by
  induction n using Node.induction generalizing b with
  | atom n hn =>
    rw [value_of_isGroup _ hn]
    change ((if n.isNeutral then none else some n.asked).map (· b)).getD [] = n.asked b
    split
    · next h =>
      obtain ⟨c, v, rfl⟩ := Node.exists_of_isNeutral h
      rfl
    · rfl
  | group j negated ns ih =>
    rw [Node.asked_group, ← total_asked j _ fun n hn => ih n hn _, value_group]
    cases negated with
    | false => simp
    | true => cases asked.total j ns <;> simp [asked]

end Valuation

namespace Compiled

theorem ofNode?_eq_asked (page : Page) {root : Option Node} (h : ∀ n ∈ root, ∀ a ∈ n.atoms, a.unshared = a) :
    ofNode? page root = ofLeaves page (((root.bind Valuation.asked.value).map (· false)).getD []) := by
  cases root with
  | none => rfl
  | some n =>
    rw [Option.bind_some, Valuation.value_asked, Node.asked, ofLeaves_filter_isNeutral,
      ← Node.leaves_of_atoms (h n rfl)]
    rfl

end Compiled

namespace Node

/-- The text of a node, however it is grouped, is read without a problem and compiles to what the node does, where each
part that is no group is a neutral term or is read from its own text. -/
theorem ofNode?_parse_toQuery {n : Node} (h : ∀ a ∈ n.atoms, a.isNeutral = true ∨ a.IsReread) :
    ∃ t, Tree.parse n.toQuery = .ok t ∧ t.problems = [] ∧
      ∀ page, Compiled.ofNode? page t.root = Compiled.ofNode? page (some n) := by
  have hatoms : ∀ a ∈ n.atoms, a.ReadsAlone ∨ a.text = [] ∧ Valuation.asked.atom a = none := by
    intro a ha
    rcases h a ha with hneutral | hread
    · refine .inr ⟨?_, if_pos hneutral⟩
      obtain ⟨c, v, rfl⟩ := exists_of_isNeutral hneutral
      rfl
    · exact .inl (hread.readsAlone (isGroup_of_mem_atoms ha))
  have hunshared : ∀ a ∈ n.atoms, a.unshared = a := by
    intro a ha
    rcases h a ha with hneutral | hread
    · obtain ⟨c, v, rfl⟩ := exists_of_isNeutral hneutral
      rfl
    · exact unshared_of_from (hread.isLegible (isGroup_of_mem_atoms ha)).origin
  obtain ⟨t, ht, hp, hvalue⟩ := Valuation.exists_parse_toQuery Valuation.asked n hatoms (.inl rfl)
  refine ⟨t, ht, hp, fun page => ?_⟩
  have hroot : ∀ m ∈ t.root, ∀ a ∈ m.atoms, a.unshared = a := fun m hm a ha =>
    unshared_of_from ((Tree.normal_of_parse ht m hm).forall_atoms a ha).origin
  rw [Compiled.ofNode?_eq_asked page hroot, hvalue, Compiled.ofNode?_eq_asked page]
  · rfl
  · rintro _ ⟨⟩
    exact hunshared

def heaped : Node :=
  .group .and true [.group .or false [], .group .or true [.group .or true [.leaf (.term .source "a b" .both)]],
    .leaf (.term .tags "t" .neutral), .group .and false [.group .or false [.group .or false
      [.reference "s", .leaf (.comparison .words .atLeast "9" none)]], .leaf (.phrase "x" none)]]

theorem ofNode?_parse_toQuery_heaped :
    heaped.toQuery = "!(!(!~source:\"a b\") & @s | words:>=9 & \"x\")" ∧
      (∀ a ∈ heaped.atoms, a.isNeutral = true ∨ a.IsReread) ∧
      ∃ t, Tree.parse heaped.toQuery = .ok t ∧ t.problems = [] ∧
        ∀ page, Compiled.ofNode? page t.root = Compiled.ofNode? page (some heaped) := by
  have h : ∀ a ∈ heaped.atoms, a.isNeutral = true ∨ a.IsReread := by decide +kernel
  exact ⟨by decide +kernel, h, ofNode?_parse_toQuery h⟩

end Node

end FilterQuery
