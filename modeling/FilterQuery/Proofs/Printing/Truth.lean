import FilterQuery.Proofs.Printing.Alone
import FilterQuery.Proofs.Printing.Meaning

namespace FilterQuery

def Junction.connect : Junction → Bool → Bool → Bool
  | and => Bool.and
  | or => Bool.or

namespace Node

mutual
/-- Whether a node holds, where `v` says what holds of all that is no group. -/
def holds (v : Node → Bool) : Node → Bool
  | .leaf l => v (.leaf l)
  | .reference name => v (.reference name)
  | .expansion name site body => v (.expansion name site body)
  | .group j negated ns => holdsTogether v j ns != negated

def holdsTogether (v : Node → Bool) (j : Junction) : List Node → Bool
  | [] => j == .and
  | n :: ns => j.connect (n.holds v) (holdsTogether v j ns)
end

mutual
/-- Whether every group has a child. -/
def isFilled : Node → Bool
  | .leaf _ => true
  | .reference _ => true
  | .expansion .. => true
  | .group _ _ ns => !ns.isEmpty && allFilled ns

def allFilled : List Node → Bool
  | [] => true
  | n :: ns => n.isFilled && allFilled ns
end

theorem allFilled_iff {ns : List Node} : allFilled ns = true ↔ ∀ n ∈ ns, n.isFilled = true := by
  induction ns with
  | nil => simp [allFilled]
  | cons n ns ih => simp [allFilled, ih]

theorem holds_of_isGroup {n : Node} (h : n.isGroup = false) (v : Node → Bool) : n.holds v = v n := by
  cases n with
  | group => cases h
  | leaf | reference | expansion => rw [holds]

theorem Normal.isFilled {P : Node → Prop} {n : Node} (h : n.Normal P) : n.isFilled = true := by
  induction h with
  | @atom n hn _ =>
    cases n with
    | group => cases hn
    | leaf | reference | expansion => rw [Node.isFilled]
  | @group ns _ _ _ _ hl ih =>
    have hne : ns ≠ [] := by
      rintro rfl
      rcases hl with hl | ⟨-, -, n, hn, -⟩
      · cases hl
      · cases hn
    rw [Node.isFilled, Bool.and_eq_true, allFilled_iff]
    exact ⟨by simpa using hne, ih⟩

end Node

def Valuation.truth (v : Node → Bool) : Valuation Bool where
  atom n := some (v n)
  negate := not
  combine := Junction.connect
  negate_negate := Bool.not_not
  assoc
    | .and => Bool.and_assoc
    | .or => Bool.or_assoc

namespace Valuation

variable {v : Node → Bool} {ns : List Node}

theorem total_truth (j : Junction) (hne : ns ≠ []) (h : ∀ n ∈ ns, (truth v).value n = some (n.holds v)) :
    (truth v).total j ns = some (Node.holdsTogether v j ns) := by
  induction ns with
  | nil => exact absurd rfl hne
  | cons n ns ih =>
    rw [total, h n List.mem_cons_self, Node.holdsTogether]
    cases ns with
    | nil => cases j <;> simp [total, Node.holdsTogether, Junction.connect]
    | cons m ms =>
      rw [ih (List.cons_ne_nil m ms) fun m hm => h m (List.mem_cons_of_mem n hm)]
      rfl

theorem value_truth {n : Node} (h : n.isFilled = true) : (truth v).value n = some (n.holds v) := by
  induction n using Node.induction with
  | atom n hn =>
    rw [value_of_isGroup _ hn, Node.holds_of_isGroup hn]
    rfl
  | group j negated ns ih =>
    rw [Node.isFilled, Bool.and_eq_true, Node.allFilled_iff] at h
    have hne : ns ≠ [] := by simpa using h.1
    rw [value_group, total_truth j hne fun n hn => ih n hn (h.2 n hn), Node.holds]
    cases negated <;> simp [truth]

end Valuation

namespace Node

/-- The text of a node without empty groups is read without a problem, and holds of the same as the node, where no
conjunction takes in what shows alternatives. -/
theorem holds_parse_toQuery {n : Node} (reread : ∀ a ∈ n.atoms, a.IsReread) (filled : n.isFilled = true)
    (guarded : n.isGuarded = true) :
    ∃ t m, Tree.parse n.toQuery = .ok t ∧ t.problems = [] ∧ t.root = some m ∧ ∀ v, m.holds v = n.holds v := by
  have hatoms : ∀ a ∈ n.atoms, a.ReadsAlone := fun a ha => (reread a ha).readsAlone (isGroup_of_mem_atoms ha)
  have hread := fun v => Valuation.exists_parse_toQuery (Valuation.truth v) n (fun a ha => .inl (hatoms a ha))
    (.inr guarded)
  obtain ⟨t, ht, hp, hvalue⟩ := hread fun _ => true
  rw [Valuation.value_truth filled] at hvalue
  obtain ⟨m, hm, -⟩ := Option.bind_eq_some_iff.1 hvalue
  refine ⟨t, m, ht, hp, hm, fun v => ?_⟩
  obtain ⟨t', ht', -, hvalue'⟩ := hread v
  cases ht.symm.trans ht'
  have hfilled := (Tree.normal_of_parse ht m hm).isFilled
  rw [hm, Option.bind_some, Valuation.value_truth hfilled, Valuation.value_truth filled] at hvalue'
  exact Option.some.inj hvalue'

def layered : Node :=
  .group .or true [.group .and false [.leaf (.term .content "x" .is), .group .or false
    [.leaf (.regex "r" "" (some "title")), .group .or false [.leaf (.term .tags "b" .neither), .reference "s"]]],
    .group .and true [.group .or false [.leaf (.phrase "c" none)]]]

theorem holds_parse_toQuery_layered :
    layered.toQuery = "!(x & (title:/r/ | ?tags:b | @s) | !(\"c\"))" ∧ (∀ a ∈ layered.atoms, a.IsReread) ∧
      layered.isFilled = true ∧ layered.isGuarded = true ∧
      ∃ t m, Tree.parse layered.toQuery = .ok t ∧ t.problems = [] ∧ t.root = some m ∧
        ∀ v, m.holds v = layered.holds v := by
  have h : ∀ a ∈ layered.atoms, a.IsReread := by decide +kernel
  exact ⟨by decide +kernel, h, by decide +kernel, by decide +kernel,
    holds_parse_toQuery h (by decide +kernel) (by decide +kernel)⟩

theorem holds_of_toQuery_lone :
    let lone := group .and false [.leaf (.term .content "x" .is), .group .or false [.group .or false
      [.leaf (.term .content "a" .is), .leaf (.term .content "b" .is)]]]
    (∀ a ∈ lone.atoms, a.IsReread) ∧ lone.isFilled = true ∧ lone.toQuery = "x & a | b" ∧
      ∃ t m v, Tree.parse lone.toQuery = .ok t ∧ t.problems = [] ∧ t.root = some m ∧
        lone.holds v = false ∧ m.holds v = true := by
  intro lone
  let m : Node := .group .or false [.group .and false [.leaf (.term .content "x" .is),
    .leaf (.term .content "a" .is)], .leaf (.term .content "b" .is)]
  refine ⟨by decide +kernel, by decide +kernel, by decide +kernel, ⟨some m, "x & a | b", [], []⟩, m,
    fun n => n == .leaf (.term .content "b" .is), by decide +kernel, rfl, rfl, by decide +kernel, by decide +kernel⟩

end Node

end FilterQuery
