import FilterQuery.Proofs.Normal
import FilterQuery.Tree.Edit

namespace FilterQuery

namespace Node

variable {P : Node → Prop} {n : Node}

theorem Normal.regroup {j : Junction} {negated : Bool} {ns : List Node} (h : ∀ n ∈ ns, n.Normal P) :
    ∀ m ∈ regroup j negated ns, m.Normal P := by
  intro m hm
  obtain ⟨n, hn, rfl⟩ := Option.map_eq_some_iff.1 hm
  have hnormal := Normal.join h j n hn
  split
  · exact hnormal.negate
  · exact hnormal

theorem mem_rebuilt {ns : List Node} {i : Nat} {rebuilt : Option Node} {m : Node}
    (hm : m ∈ ns.take i ++ (rebuilt.toList ++ ns.drop (i + 1))) : m ∈ rebuilt ∨ m ∈ ns := by
  rcases List.mem_append.1 hm with hm | hm
  · exact .inr (List.mem_of_mem_take hm)
  · rcases List.mem_append.1 hm with hm | hm
    · exact .inl (Option.mem_toList.1 hm)
    · exact .inr (List.mem_of_mem_drop hm)

theorem Normal.rebuild {replacement : Option Node} (hr : ∀ m ∈ replacement, m.Normal P) (path : List Nat)
    (h : n.Normal P) : ∀ m ∈ rebuild replacement path n, m.Normal P := by
  induction path generalizing n with
  | nil => exact hr
  | cons i path ih =>
    cases n with
    | group j negated ns =>
      refine Normal.regroup fun m hm => ?_
      rcases mem_rebuilt hm with hm | hm
      · obtain ⟨child, hchild, hm⟩ := Option.bind_eq_some_iff.1 hm
        exact ih (h.children child (List.mem_of_getElem? hchild)) m hm
      · exact h.children m hm
    | _ =>
      rintro m ⟨⟩
      exact h

theorem IsWritten.readsAlone (h : n.IsWritten) (hj : join .and [n] = some n) : n.ReadsAlone := by
  obtain ⟨ks, hs, ha⟩ := h.alternatives
  obtain ⟨ns, ha, hor⟩ := ha none (Grammar.apart_of_lacks rfl)
  have hscans : Token.Scans n.toQuery.toList ks := by rw [toQuery, String.toList_ofList]; exact hs.scans
  obtain ⟨t, ht, hp, hroot⟩ := hscans.exists_parse ha
  rw [hor, Option.toList_some, hj] at hroot
  exact ⟨t, ht, hp, hroot⟩

end Node

namespace Tree

inductive Edit
  | remove (path : List Nat)
  | replace (path : List Nat) (n : Node)

/-- Where a tree is edited. -/
def Edit.path : Edit → List Nat
  | remove path => path
  | replace path _ => path

/-- What is put in the place of the node there. -/
def Edit.replacement : Edit → Option Node
  | remove _ => none
  | replace _ n => some n

def apply (t : Tree) : Edit → Tree
  | .remove path => t.removeAt path
  | .replace path n => t.replaceAt path n

/-- A tree that is what its query is read to: it is empty, as its query is, or its root is printable. -/
structure ReadsBack (t : Tree) : Prop where
  root : t.root = none ∧ t.query = "" ∨ ∃ n, t.root = some n ∧ n.Printable
  reads : ∃ t', parse t.query = .ok t' ∧ t'.problems = [] ∧ t'.root = t.root

variable {t : Tree}

theorem ReadsBack.printable (h : t.ReadsBack) : ∀ n ∈ t.root, n.Printable := by
  rcases h.root with ⟨hnone, -⟩ | ⟨n, hsome, hn⟩
  · rw [hnone]
    exact nofun
  · rw [hsome]
    rintro _ ⟨⟩
    exact hn

theorem readsBack_withRoot (t : Tree) {root : Option Node} (h : ∀ n ∈ root, n.Printable) :
    (t.withRoot root).ReadsBack := by
  cases root with
  | none =>
    have hempty : parse "" = .ok (ofClauses "" []) := by decide +kernel
    exact ⟨.inl ⟨rfl, rfl⟩, _, hempty, rfl, rfl⟩
  | some n =>
    have hn := h n rfl
    exact ⟨.inr ⟨n, rfl, hn⟩, hn.isWritten.readsAlone (hn.join .and)⟩

theorem readsBack_edit {path : List Nat} {replacement : Option Node} (hroot : ∀ n ∈ t.root, n.Printable)
    (hr : ∀ m ∈ replacement, m.Printable) (hpath : (t.at? path).isSome) :
    (t.edit path replacement).ReadsBack := by
  rw [edit, if_pos hpath]
  refine readsBack_withRoot t fun m hm => ?_
  obtain ⟨n, hn, hm⟩ := Option.bind_eq_some_iff.1 hm
  have hnormal := Node.normal_readsAlone_iff.2 (hroot n hn)
  exact Node.normal_readsAlone_iff.1
    (hnormal.rebuild (fun m hm => Node.normal_readsAlone_iff.2 (hr m hm)) path m hm)

theorem apply_eq_edit (t : Tree) (e : Edit) : t.apply e = t.edit e.path e.replacement := by cases e <;> rfl

theorem ReadsBack.apply (h : t.ReadsBack) {e : Edit} (hr : ∀ m ∈ e.replacement, m.Printable) :
    (t.apply e).ReadsBack := by
  rw [apply_eq_edit]
  by_cases hpath : (t.at? e.path).isSome
  · exact readsBack_edit h.printable hr hpath
  · rwa [edit, if_neg hpath]

theorem ReadsBack.edits (h : t.ReadsBack) {es : List Edit}
    (hr : ∀ e ∈ es, ∀ m ∈ e.replacement, m.Printable) : (es.foldl Tree.apply t).ReadsBack := by
  induction es generalizing t with
  | nil => exact h
  | cons e es ih =>
    obtain ⟨hfirst, hrest⟩ := List.forall_mem_cons.1 hr
    exact ih (h.apply hfirst) hrest

/-- A tree of a printable root that has been edited, once or more often, is what its query is read to. -/
theorem readsBack_of_edits {n : Node} (root : t.root = some n) (printable : n.Printable) {e : Edit}
    {es : List Edit} (valid : (t.at? e.path).isSome)
    (replacements : ∀ f ∈ e :: es, ∀ m ∈ f.replacement, m.Printable) :
    (es.foldl Tree.apply (t.apply e)).ReadsBack := by
  obtain ⟨hfirst, hrest⟩ := List.forall_mem_cons.1 replacements
  have hroot : ∀ m ∈ t.root, m.Printable := by
    rw [root]
    rintro _ ⟨⟩
    exact printable
  have hedited : (t.apply e).ReadsBack := by
    rw [apply_eq_edit]
    exact readsBack_edit hroot hfirst valid
  exact hedited.edits hrest

theorem readsBack_of_edits_collapse :
    let a := Node.leaf (.term .content "a" .is)
    let b := Node.leaf (.term .content "b" .is)
    let c := Node.leaf (.term .content "c" .is)
    let d := Node.leaf (.term .content "d" .is)
    let t : Tree := ⟨some (.group .or false [a, .group .and false [b, .group .or false [c, d]]]), "", [], []⟩
    let e : Edit := .remove [1, 1, 1]
    let f : Edit := .replace [1, 0] (.group .and true [b, d])
    (t.at? e.path).isSome ∧ ((t.apply e).apply f).root =
      some (.group .or false [a, .group .and false [.group .and true [b, d], c]]) ∧
    ((t.apply e).apply f).ReadsBack := by
  intro a b c d t e f
  have ha : a.Printable := .atom rfl ⟨⟨some a, "a", [], []⟩, by decide +kernel, rfl, rfl⟩
  have hb : b.Printable := .atom rfl ⟨⟨some b, "b", [], []⟩, by decide +kernel, rfl, rfl⟩
  have hc : c.Printable := .atom rfl ⟨⟨some c, "c", [], []⟩, by decide +kernel, rfl, rfl⟩
  have hd : d.Printable := .atom rfl ⟨⟨some d, "d", [], []⟩, by decide +kernel, rfl, rfl⟩
  have hpair : ∀ (j : Junction) (negated : Bool) (m n : Node), m.Printable → n.Printable →
      (∀ ms, m ≠ .group j false ms) → (∀ ms, n ≠ .group j false ms) →
      (Node.group j negated [m, n]).Printable := by
    intro j negated m n hm hn hm' hn'
    exact .group (by simpa using ⟨hm, hn⟩) (by simpa using ⟨hm', hn'⟩) (.inl (Nat.le_refl 2))
  have hinner := hpair .or false c d hc hd nofun nofun
  have hroot := hpair .or false a _ ha (hpair .and false b _ hb hinner nofun nofun) nofun nofun
  have hreplacement := hpair .and true b d hb hd nofun nofun
  have hvalid : (t.at? e.path).isSome := by decide +kernel
  have hreplacements : ∀ g ∈ [e, f], ∀ m ∈ g.replacement, m.Printable := by
    simpa [e, f, Edit.replacement] using hreplacement
  have hreads : ([f].foldl Tree.apply (t.apply e)).ReadsBack :=
    readsBack_of_edits rfl hroot hvalid hreplacements
  exact ⟨hvalid, by decide +kernel, hreads⟩

end Tree

end FilterQuery
