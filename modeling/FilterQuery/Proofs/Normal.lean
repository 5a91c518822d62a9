import FilterQuery.Proofs.Printing
import FilterQuery.Proofs.Sharing

namespace FilterQuery.Node

/-- Nodes made of atoms with the property `P`: a group has several children, or negates one that is no group, and
no child could be spliced into its group. -/
inductive Normal (P : Node → Prop) : Node → Prop
  | atom : n.isGroup = false → P n → Normal P n
  | group : (∀ n ∈ ns, Normal P n) → (∀ n ∈ ns, ∀ ms, n ≠ .group j false ms) →
      (2 ≤ ns.length ∨ negated = true ∧ j = .and ∧ ∃ n, ns = [n] ∧ n.isGroup = false) →
      Normal P (.group j negated ns)

theorem normal_readsAlone_iff {n : Node} : n.Normal ReadsAlone ↔ n.Printable := by
  constructor
  · intro h
    induction h with
    | atom hn h => exact .atom hn h
    | group _ hs hl ih => exact .group ih hs hl
  · intro h
    induction h with
    | atom hn h => exact .atom hn h
    | group _ hs hl ih => exact .group ih hs hl

section

variable {P : Node → Prop} {j : Junction} {negated : Bool} {n : Node} {ns : List Node}

theorem Normal.children (h : (Node.group j negated ns).Normal P) : ∀ n ∈ ns, n.Normal P := by
  cases h with
  | atom hn => cases hn
  | group hns => exact hns

theorem negate_group (h : 2 ≤ ns.length) : (group j negated ns).negate = group j (!negated) ns := by
  match negated, ns, h with
  | true, _ :: _ :: _, _ => rfl
  | false, _, _ => rfl

theorem Normal.negate (h : n.Normal P) : n.negate.Normal P := by
  cases h with
  | atom hn hp =>
    rw [negate_of_isGroup hn]
    refine .group (List.forall_mem_singleton.2 (.atom hn hp)) ?_ (.inr ⟨rfl, rfl, n, rfl, hn⟩)
    rw [List.forall_mem_singleton]
    rintro ms rfl
    cases hn
  | group hns hs hl =>
    obtain hl | ⟨rfl, rfl, n, rfl, -⟩ := hl
    · rw [negate_group hl]
      exact .group hns hs (.inl hl)
    · exact hns n (List.mem_singleton_self n)

theorem Normal.negate_negate (h : n.Normal P) : n.negate.negate = n := by
  cases h with
  | atom hn =>
    rw [negate_of_isGroup hn]
    rfl
  | @group ns negated j _ _ hl =>
    obtain hl | ⟨rfl, rfl, n, rfl, hn⟩ := hl
    · rw [negate_group hl, negate_group hl, Bool.not_not]
    · exact negate_of_isGroup hn

theorem Normal.parts (h : n.Normal P) (j : Junction) :
    ∀ m ∈ n.parts j, m.Normal P ∧ ∀ ms, m ≠ .group j false ms := by
  by_cases hg : ∃ ms, n = .group j false ms
  · obtain ⟨ms, rfl⟩ := hg
    rw [Node.parts, if_pos rfl]
    cases h with
    | atom hn => cases hn
    | group hns hs => exact fun m hm => ⟨hns m hm, hs m hm⟩
  · have hne : ∀ ms, n ≠ .group j false ms := fun ms hn => hg ⟨ms, hn⟩
    rw [parts_of_ne hne, List.forall_mem_singleton]
    exact ⟨h, hne⟩

theorem mem_join {m : Node} (h : m ∈ join j ns) :
    m ∈ ns.flatMap (parts j) ∨ 2 ≤ (ns.flatMap (parts j)).length ∧ m = group j false (ns.flatMap (parts j)) := by
  unfold join at h
  split at h
  · cases h
  · next hone =>
    cases h
    rw [hone]
    exact .inl (List.mem_singleton_self m)
  · next hnil hone =>
    cases h
    refine .inr ⟨?_, rfl⟩
    match hparts : ns.flatMap (Node.parts j) with
    | [] => exact absurd hparts hnil
    | [m] => exact absurd hparts (hone m)
    | _ :: _ :: _ => simp

theorem Normal.flatMap_parts (h : ∀ n ∈ ns, n.Normal P) (j : Junction) :
    ∀ m ∈ ns.flatMap (Node.parts j), m.Normal P ∧ ∀ ms, m ≠ .group j false ms := by
  intro m hm
  obtain ⟨n, hn, hm⟩ := List.mem_flatMap.1 hm
  exact (h n hn).parts j m hm

theorem Normal.join (h : ∀ n ∈ ns, n.Normal P) (j : Junction) : ∀ m ∈ join j ns, m.Normal P := by
  have hparts := Normal.flatMap_parts h j
  intro m hm
  obtain hm | ⟨hl, rfl⟩ := mem_join hm
  · exact (hparts m hm).1
  · exact .group (fun n hn => (hparts n hn).1) (fun n hn => (hparts n hn).2) (.inl hl)

theorem parts_join (h : ∀ n ∈ ns, n.Normal P) (j : Junction) :
    (Node.join j ns).toList.flatMap (Node.parts j) = ns.flatMap (Node.parts j) := by
  have hparts := Normal.flatMap_parts h j
  unfold Node.join
  split
  · next hnone =>
    rw [hnone]
    rfl
  · next m hone =>
    have hm := (hparts m (hone ▸ List.mem_singleton_self m)).2
    rw [hone, Option.toList_some, List.flatMap_singleton, parts_of_ne hm]
  · rw [Option.toList_some, List.flatMap_singleton, Node.parts, if_pos rfl]

theorem join_congr {ms : List Node} (h : ms.flatMap (parts j) = ns.flatMap (parts j)) : join j ms = join j ns := by
  unfold join
  rw [h]

theorem join_filterMap_join {nss : List (List Node)} (h : ∀ ns ∈ nss, ∀ n ∈ ns, n.Normal P) (j : Junction) :
    join j (nss.filterMap (join j)) = join j nss.flatten := by
  apply join_congr
  calc (nss.filterMap (join j)).flatMap (parts j)
    _ = nss.flatMap fun ns => (join j ns).toList.flatMap (parts j) := by
      rw [List.filterMap_eq_flatMap_toList, List.flatMap_assoc]
    _ = nss.flatMap fun ns => ns.flatMap (parts j) := List.flatMap_congr fun ns hns => parts_join (h ns hns) j
    _ = nss.flatten.flatMap (parts j) := by rw [← List.flatMap_id, List.flatMap_assoc]; rfl

end

/-- The algebra of nodes in normal form, whatever their atoms: negation is an involution on them, and joining them
bundle by bundle, where a bundle may come to nothing, is joining them all at once. -/
theorem normal_algebra (P : Node → Prop) :
    (∀ n : Node, n.Normal P → n.negate.Normal P ∧ n.negate.negate = n) ∧
      ∀ (j : Junction) (nss : List (List Node)), (∀ ns ∈ nss, ∀ n ∈ ns, n.Normal P) →
        join j (nss.filterMap (join j)) = join j nss.flatten ∧ ∀ m ∈ join j nss.flatten, m.Normal P := by
  refine ⟨fun n h => ⟨h.negate, h.negate_negate⟩, fun j nss h => ⟨join_filterMap_join h j, ?_⟩⟩
  refine Normal.join (fun n hn => ?_) j
  obtain ⟨ns, hns, hn⟩ := List.mem_flatten.1 hn
  exact h ns hns n hn

-- Outside the normal form a lone group comes out of its negation, which then has nothing to turn around.
example : (group .and true [group .or false [.reference "a", .reference "b"]]).negate.negate =
    group .or true [.reference "a", .reference "b"] := rfl

def bundles : List (List Node) :=
  [[group .or false [.reference "a", .reference "b"]], [], [group .and false [.reference "a", .reference "c"]],
    [group .and true [.reference "c"], group .or false [.reference "d", .reference "a"]]]

theorem normal_algebra_bundles :
    (∀ ns ∈ bundles, ∀ n ∈ ns, n.Normal fun _ => True) ∧
      join .or (bundles.filterMap (join .or)) = some (group .or false [.reference "a", .reference "b",
        group .and false [.reference "a", .reference "c"], group .and true [.reference "c"], .reference "d",
        .reference "a"]) ∧
      (group .and true [.reference "c"]).negate.negate = group .and true [.reference "c"] := by
  obtain ⟨hnegate, hjoin⟩ := normal_algebra fun _ => True
  have hname : ∀ s, (Node.reference s).Normal fun _ => True := fun s => .atom rfl trivial
  have hnot : (group .and true [.reference "c"]).Normal fun _ => True := (hname "c").negate
  have hpair : ∀ j s t, (group j false [.reference s, .reference t]).Normal fun _ => True :=
    fun j s t => .group (by simp [hname]) (by simp) (.inl (Nat.le_refl 2))
  have hbundles : ∀ ns ∈ bundles, ∀ n ∈ ns, n.Normal fun _ => True := by
    simp [bundles, hpair, hnot]
  exact ⟨hbundles, (hjoin .or bundles hbundles).1.trans rfl, (hnegate _ hnot).2⟩

end FilterQuery.Node
