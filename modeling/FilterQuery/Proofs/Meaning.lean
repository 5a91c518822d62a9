import FilterQuery.Proofs.Normal

namespace FilterQuery

theorem Node.induction {P : Node → Prop} (atom : ∀ n : Node, n.isGroup = false → P n)
    (group : ∀ j negated ns, (∀ n ∈ ns, P n) → P (.group j negated ns)) : ∀ n, P n :=
  @Node.rec P (fun ns => ∀ n ∈ ns, P n) (fun l => atom (.leaf l) rfl) (fun name => atom (.reference name) rfl)
    (fun name site body _ => atom (.expansion name site body) rfl) group (List.forall_mem_nil P)
    fun _ _ hn hns => List.forall_mem_cons.2 ⟨hn, hns⟩

theorem Node.isGroup_of_mem_atoms {a n : Node} (h : a ∈ n.atoms) : a.isGroup = false := by
  induction n using Node.induction with
  | atom n hn =>
    rw [Node.atoms_of_isGroup hn, List.mem_singleton] at h
    exact h ▸ hn
  | group j negated ns ih =>
    rw [Node.atoms_group, List.mem_flatMap] at h
    obtain ⟨n, hn, h⟩ := h
    exact ih n hn h

structure Valuation (α : Type) where
  atom : Node → Option α
  negate : α → α
  combine : Junction → α → α → α
  negate_negate : ∀ a, negate (negate a) = a
  assoc : ∀ j a b c, combine j (combine j a b) c = combine j a (combine j b c)

namespace Valuation

variable {α : Type} (V : Valuation α)

mutual
def value : Node → Option α
  | .leaf l => V.atom (.leaf l)
  | .reference name => V.atom (.reference name)
  | .expansion name site body => V.atom (.expansion name site body)
  | .group j true ns => (total j ns).map V.negate
  | .group j false ns => total j ns

def total (j : Junction) : List Node → Option α
  | [] => none
  | n :: ns => Option.merge (V.combine j) (value n) (total j ns)
end

instance (j : Junction) : Std.Associative (V.combine j) := ⟨V.assoc j⟩

theorem merge_assoc (j : Junction) (a b c : Option α) :
    Option.merge (V.combine j) (Option.merge (V.combine j) a b) c
      = Option.merge (V.combine j) a (Option.merge (V.combine j) b c) := Std.Associative.assoc a b c

variable {j : Junction} {n : Node} {ms ns : List Node}

theorem value_of_isGroup (h : n.isGroup = false) : V.value n = V.atom n := by
  cases n with
  | group => cases h
  | leaf | reference | expansion => rw [value]

theorem value_group (j : Junction) (negated : Bool) (ns : List Node) :
    V.value (.group j negated ns) = if negated then (V.total j ns).map V.negate else V.total j ns := by
  cases negated with
  | false => rw [value, if_neg Bool.false_ne_true]
  | true => rw [value, if_pos rfl]

@[simp] theorem total_singleton (j : Junction) (n : Node) : V.total j [n] = V.value n := by
  rw [total, total, Option.merge_none_right]

theorem total_append (j : Junction) (ms ns : List Node) :
    V.total j (ms ++ ns) = Option.merge (V.combine j) (V.total j ms) (V.total j ns) := by
  induction ms with
  | nil => rw [List.nil_append, total, Option.merge_none_left]
  | cons m ms ih => rw [List.cons_append, total, ih, total, merge_assoc]

theorem map_negate_map_negate (a : Option α) : (a.map V.negate).map V.negate = a := by
  cases a with
  | none => rfl
  | some a => exact congrArg some (V.negate_negate a)

theorem value_negate (n : Node) : V.value n.negate = (V.value n).map V.negate := by
  cases n with
  | group j negated ns =>
    match negated, ns with
    | false, ns => rfl
    | true, [n] =>
      rw [value_group, total_singleton]
      exact (V.map_negate_map_negate _).symm
    | true, [] => rfl
    | true, m :: n :: ns => exact (V.map_negate_map_negate _).symm
  | leaf | reference | expansion =>
    rw [Node.negate_of_isGroup rfl, value_group, total_singleton]
    rfl

theorem total_parts (j : Junction) (n : Node) : V.total j (n.parts j) = V.value n := by
  by_cases hg : ∃ ms, n = .group j false ms
  · obtain ⟨ms, rfl⟩ := hg
    rw [Node.parts, if_pos rfl, value]
  · rw [Node.parts_of_ne fun ms hn => hg ⟨ms, hn⟩, total_singleton]

theorem total_flatMap_parts (j : Junction) (ns : List Node) :
    V.total j (ns.flatMap (Node.parts j)) = V.total j ns := by
  induction ns with
  | nil => rfl
  | cons n ns ih => rw [List.flatMap_cons, total_append, total_parts, ih, total]

theorem value_join (j : Junction) (ns : List Node) : (Node.join j ns).bind V.value = V.total j ns := by
  rw [← total_flatMap_parts]
  unfold Node.join
  split
  · next h => rw [h]; rfl
  · next h => rw [h, total_singleton]; rfl
  · rfl

theorem total_toList (j : Junction) (n : Option Node) : V.total j n.toList = n.bind V.value := by
  cases n with
  | none => rfl
  | some n => exact V.total_singleton j n

theorem total_filter {p : Node → Bool} (h : ∀ n ∈ ns, p n = false → V.value n = none) (j : Junction) :
    V.total j (ns.filter p) = V.total j ns := by
  induction ns with
  | nil => rfl
  | cons n ns ih =>
    have ih := ih fun m hm => h m (List.mem_cons_of_mem n hm)
    rw [List.filter_cons, total]
    split
    · rw [total, ih]
    · next hn => rw [ih, h n List.mem_cons_self (by simpa using hn), Option.merge_none_left]

end Valuation

end FilterQuery
