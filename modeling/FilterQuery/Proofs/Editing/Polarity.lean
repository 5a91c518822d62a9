import FilterQuery.Proofs.Editing

/-! What an edit leaves alone. A node is flattened to its atoms, from left to right, each with the parity of the
negated groups above it. Negating and joining nodes keep to that order and parity, however groups collapse, so that
an edit changes the atoms at its path and no others. -/

namespace FilterQuery

namespace Node

/-- A node that is no group, and whether an odd number of negations stands above it. -/
abbrev SignedAtom := Node × Bool

mutual
def signedAtoms (negated : Bool) : Node → List SignedAtom
  | leaf l => [(leaf l, negated)]
  | reference name => [(reference name, negated)]
  | expansion name site body => [(expansion name site body, negated)]
  | group _ flip ns => signedAtomsAll (negated != flip) ns

def signedAtomsAll (negated : Bool) : List Node → List SignedAtom
  | [] => []
  | n :: ns => n.signedAtoms negated ++ signedAtomsAll negated ns
end

variable {n : Node}

theorem signedAtomsAll_append (negated : Bool) (ms ns : List Node) :
    signedAtomsAll negated (ms ++ ns) = signedAtomsAll negated ms ++ signedAtomsAll negated ns := by
  induction ms with
  | nil => rfl
  | cons m ms ih => rw [List.cons_append, signedAtomsAll, ih, signedAtomsAll, List.append_assoc]

@[simp] theorem signedAtomsAll_singleton (negated : Bool) (n : Node) :
    signedAtomsAll negated [n] = n.signedAtoms negated := List.append_nil _

theorem signedAtoms_negate (negated : Bool) (n : Node) : n.negate.signedAtoms negated = n.signedAtoms !negated := by
  cases n with
  | group j flip ns =>
    match flip, ns with
    | true, [n] => simp [negate, signedAtoms]
    | false, _ | true, [] | true, _ :: _ :: _ => simp [negate, signedAtoms]
  | leaf | reference | expansion => cases negated <;> rfl

theorem signedAtomsAll_parts (negated : Bool) (j : Junction) (n : Node) :
    signedAtomsAll negated (n.parts j) = n.signedAtoms negated := by
  by_cases hg : ∃ ns, n = .group j false ns
  · obtain ⟨ns, rfl⟩ := hg
    rw [parts, if_pos rfl, signedAtoms, Bool.bne_false]
  · rw [parts_of_ne fun ns hn => hg ⟨ns, hn⟩, signedAtomsAll_singleton]

theorem signedAtomsAll_flatMap_parts (negated : Bool) (j : Junction) (ns : List Node) :
    signedAtomsAll negated (ns.flatMap (parts j)) = signedAtomsAll negated ns := by
  induction ns with
  | nil => rfl
  | cons n ns ih => rw [List.flatMap_cons, signedAtomsAll_append, signedAtomsAll_parts, ih, signedAtomsAll]

theorem signedAtomsAll_join (negated : Bool) (j : Junction) (ns : List Node) :
    signedAtomsAll negated (join j ns).toList = signedAtomsAll negated ns := by
  rw [← signedAtomsAll_flatMap_parts negated j ns]
  unfold join
  split
  · next h => rw [h]; rfl
  · next h => rw [h]; rfl
  · rw [Option.toList_some, signedAtomsAll_singleton, signedAtoms, Bool.bne_false]

theorem signedAtomsAll_regroup (negated : Bool) (j : Junction) (flip : Bool) (ns : List Node) :
    signedAtomsAll negated (regroup j flip ns).toList = signedAtomsAll (negated != flip) ns := by
  rw [← signedAtomsAll_join (negated != flip) j ns, regroup]
  cases join j ns with
  | none => rfl
  | some n =>
    rw [Option.map_some, Option.toList_some, Option.toList_some, signedAtomsAll_singleton, signedAtomsAll_singleton]
    cases flip with
    | false => rw [if_neg Bool.false_ne_true, Bool.bne_false]
    | true => rw [if_pos rfl, signedAtoms_negate, Bool.bne_true]

/-- What stands around a place in a node: the atoms to its left and to its right, and whether an odd number of
negations stands above it. -/
structure Surroundings where
  left : List SignedAtom
  negated : Bool
  right : List SignedAtom

def around? (negated : Bool) : List Nat → Node → Option Surroundings
  | [], _ => some ⟨[], negated, []⟩
  | i :: path, group _ flip ns => (ns[i]?.bind (around? (negated != flip) path)).map fun s =>
    ⟨signedAtomsAll (negated != flip) (ns.take i) ++ s.left, s.negated,
      s.right ++ signedAtomsAll (negated != flip) (ns.drop (i + 1))⟩
  | _ :: _, _ => none

theorem around?_eq_none_iff (negated : Bool) (path : List Nat) (n : Node) :
    n.around? negated path = none ↔ n.at? path = none := by
  induction path generalizing n negated with
  | nil => exact ⟨nofun, nofun⟩
  | cons i path ih =>
    cases n with
    | group j flip ns =>
      rw [around?, at?, children, Option.map_eq_none_iff]
      cases ns[i]? with
      | none => exact ⟨fun _ => rfl, fun _ => rfl⟩
      | some child => exact ih (negated != flip) child
    | leaf | reference | expansion => exact ⟨fun _ => rfl, fun _ => rfl⟩

theorem signedAtoms_of_around? {negated : Bool} {path : List Nat} {m : Node} (h : n.at? path = some m)
    {s : Surroundings} (hs : n.around? negated path = some s) :
    n.signedAtoms negated = s.left ++ m.signedAtoms s.negated ++ s.right := by
  induction path generalizing n negated s with
  | nil =>
    cases h
    cases hs
    rw [List.nil_append, List.append_nil]
  | cons i path ih =>
    cases n with
    | group j flip ns =>
      rw [at?, children] at h
      cases hi : ns[i]? with
      | none => rw [hi] at h; cases h
      | some child =>
        rw [hi] at h
        rw [around?, hi, Option.bind_some, Option.map_eq_some_iff] at hs
        obtain ⟨s, hs, rfl⟩ := hs
        have hsplit : ns = ns.take i ++ ([child] ++ ns.drop (i + 1)) := by
          obtain ⟨hlt, rfl⟩ := List.getElem?_eq_some_iff.1 hi
          rw [List.singleton_append, List.getElem_cons_drop, List.take_append_drop]
        rw [signedAtoms]
        conv_lhs => rw [hsplit, signedAtomsAll_append, signedAtomsAll_append, signedAtomsAll_singleton, ih h hs]
        simp only [List.append_assoc]
    | leaf | reference | expansion => cases hs

theorem signedAtomsAll_rebuild {negated : Bool} {path : List Nat} {s : Surroundings}
    (hs : n.around? negated path = some s) (replacement : Option Node) :
    signedAtomsAll negated (rebuild replacement path n).toList
      = s.left ++ signedAtomsAll s.negated replacement.toList ++ s.right := by
  induction path generalizing n negated s with
  | nil =>
    cases hs
    rw [rebuild, List.nil_append, List.append_nil]
  | cons i path ih =>
    cases n with
    | group j flip ns =>
      rw [around?, Option.map_eq_some_iff] at hs
      obtain ⟨s, hs, rfl⟩ := hs
      obtain ⟨child, hi, hs⟩ := Option.bind_eq_some_iff.1 hs
      rw [rebuild, signedAtomsAll_regroup, signedAtomsAll_append, signedAtomsAll_append, hi, Option.bind_some, ih hs]
      simp only [List.append_assoc]
    | leaf | reference | expansion => cases hs

end Node

namespace Tree

open Node (Surroundings SignedAtom signedAtomsAll)

/-- The atoms of a tree. -/
def signedAtoms (t : Tree) : List SignedAtom := signedAtomsAll false t.root.toList

/-- The surroundings of the place that a path leads to. -/
def around? (t : Tree) (path : List Nat) : Option Surroundings := t.root.bind (Node.around? false path)

variable {t : Tree} {path : List Nat}

theorem around?_eq_none_iff : t.around? path = none ↔ t.at? path = none := by
  rw [around?, at?]
  cases t.root with
  | none => exact ⟨fun _ => rfl, fun _ => rfl⟩
  | some root => exact Node.around?_eq_none_iff false path root

theorem signedAtoms_of_around? {n : Node} (h : t.at? path = some n) {s : Surroundings}
    (hs : t.around? path = some s) : t.signedAtoms = s.left ++ n.signedAtoms s.negated ++ s.right := by
  rw [at?, Option.bind_eq_some_iff] at h
  obtain ⟨root, hroot, h⟩ := h
  rw [around?, hroot, Option.bind_some] at hs
  rw [signedAtoms, hroot, Option.toList_some, Node.signedAtomsAll_singleton, Node.signedAtoms_of_around? h hs]

theorem signedAtoms_edit {s : Surroundings} (hs : t.around? path = some s) (replacement : Option Node) :
    (t.edit path replacement).signedAtoms
      = s.left ++ signedAtomsAll s.negated replacement.toList ++ s.right := by
  have hvalid : (t.at? path).isSome = true := by
    rw [← Option.ne_none_iff_isSome, Ne, ← around?_eq_none_iff, hs]
    exact nofun
  rw [around?, Option.bind_eq_some_iff] at hs
  obtain ⟨root, hroot, hs⟩ := hs
  rw [edit, if_pos hvalid, signedAtoms, withRoot, hroot, Option.bind_some, Node.signedAtomsAll_rebuild hs]

theorem edit_of_around? (h : t.around? path = none) (replacement : Option Node) : t.edit path replacement = t := by
  rw [around?_eq_none_iff] at h
  rw [edit, h, if_neg (by simp)]

/-- The atoms of a tree are those around a path and those of the node that it leads to. When that node is taken away,
those around it are left, in their order and each under the parity that it had; when another one takes its place, the
atoms of that one stand between them, under the parity of the place. A path that leads nowhere changes nothing. -/
theorem signedAtoms_of_edits (t : Tree) (path : List Nat) :
    match t.around? path with
    | some s => (∃ n, t.at? path = some n ∧ t.signedAtoms = s.left ++ n.signedAtoms s.negated ++ s.right) ∧
      (t.removeAt path).signedAtoms = s.left ++ s.right ∧
      ∀ r, (t.replaceAt path r).signedAtoms = s.left ++ r.signedAtoms s.negated ++ s.right
    | none => t.at? path = none ∧ t.removeAt path = t ∧ ∀ r, t.replaceAt path r = t := by
  cases hs : t.around? path with
  | none => exact ⟨around?_eq_none_iff.1 hs, edit_of_around? hs none, fun r => edit_of_around? hs (some r)⟩
  | some s =>
    have hvalid : t.at? path ≠ none := by
      rw [Ne, ← around?_eq_none_iff, hs]
      exact nofun
    obtain ⟨n, hn⟩ := Option.ne_none_iff_exists'.1 hvalid
    refine ⟨⟨n, hn, signedAtoms_of_around? hn hs⟩, ?_, fun r => ?_⟩
    · rw [removeAt, signedAtoms_edit hs, Option.toList_none, Node.signedAtomsAll, List.append_nil]
    · rw [replaceAt, signedAtoms_edit hs, Option.toList_some, Node.signedAtomsAll_singleton]

example :
    let a := Node.leaf (.term .content "a" .is)
    let b := Node.leaf (.term .content "b" .is)
    let t : Tree := ⟨some (.group .or true [a, .group .and true [b]]), "", [], []⟩
    t.signedAtoms = [(a, true), (b, false)] ∧ (t.removeAt [0]).root = some b := by decide +kernel

end Tree

end FilterQuery
