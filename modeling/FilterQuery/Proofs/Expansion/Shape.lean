import FilterQuery.Proofs.Expansion.Read

namespace FilterQuery

namespace Node

mutual
/-- What the references in a node stand for, and the references in that in turn. -/
def bodies : Node → List Node
  | .leaf _ => []
  | .reference _ => []
  | .expansion _ _ body => body :: body.bodies
  | .group _ _ ns => bodiesAll ns

def bodiesAll : List Node → List Node
  | [] => []
  | n :: ns => n.bodies ++ bodiesAll ns
end

mutual
theorem flatMap_bodies_atoms : ∀ n : Node, n.atoms.flatMap bodies = n.bodies
  | .leaf _ | .reference _ | .expansion .. => List.flatMap_singleton ..
  | .group _ _ ns => by rw [atoms, bodies, flatMap_bodies_atomsAll ns]

theorem flatMap_bodies_atomsAll : ∀ ns : List Node, (atomsAll ns).flatMap bodies = bodiesAll ns
  | [] => rfl
  | n :: ns => by
    rw [atomsAll, bodiesAll, List.flatMap_append, flatMap_bodies_atoms n, flatMap_bodies_atomsAll ns]
end

def NormalThroughout (n : Node) : Prop :=
  (n.Normal fun _ => True) ∧ ∀ b ∈ n.bodies, b.Normal fun _ => True

variable {n : Node}

theorem normalThroughout_iff :
    n.NormalThroughout ↔ n.Normal fun a => ∀ b ∈ a.bodies, b.Normal fun _ => True := by
  constructor
  · rintro ⟨h, hbodies⟩
    refine h.imp fun a ha _ b hb => hbodies b ?_
    rw [← flatMap_bodies_atoms]
    exact List.mem_flatMap.2 ⟨a, ha, hb⟩
  · intro h
    refine ⟨h.imp fun _ _ _ => trivial, fun b hb => ?_⟩
    rw [← flatMap_bodies_atoms, List.mem_flatMap] at hb
    obtain ⟨a, ha, hb⟩ := hb
    exact h.forall_atoms a ha b hb

theorem stable_normalThroughout : Stable NormalThroughout := by
  have h := stable_normal fun a => ∀ b ∈ a.bodies, b.Normal fun _ => True
  constructor
  · intro n hn
    exact normalThroughout_iff.2 (h.negate n (normalThroughout_iff.1 hn))
  · intro j ns hns m hm
    exact normalThroughout_iff.2 (h.join j ns (fun n hn => normalThroughout_iff.1 (hns n hn)) m hm)

theorem normalThroughout_leaf (l : Leaf) : (leaf l).NormalThroughout := ⟨.atom rfl trivial, nofun⟩

theorem normalThroughout_reference (name : String) : (reference name).NormalThroughout :=
  ⟨.atom rfl trivial, nofun⟩

theorem NormalThroughout.expansion (h : n.NormalThroughout) (name : String) (site : Option Site) :
    (expansion name site n).NormalThroughout :=
  ⟨.atom rfl trivial, List.forall_mem_cons.2 h⟩

end Node

open Node (NormalThroughout)

theorem Clause.normalThroughout_of_mem_readAll {stop : Nat} {ts : List Token} {n : Node} {w : Option Warning}
    (h : .term n w ∈ Clause.readAll stop ts) : n.NormalThroughout := by
  obtain ⟨t, us, -, hread⟩ := exists_read_of_mem_readAll h
  obtain ⟨s, vs, next, -, hterm, -⟩ := exists_term_of_read hread
  obtain ⟨l, rfl | rfl⟩ := hterm.exists_leaf
  · exact Node.normalThroughout_leaf l
  · exact Node.stable_normalThroughout.negate _ (Node.normalThroughout_leaf l)

theorem Node.keptByReading_normalThroughout : KeptByReading NormalThroughout where
  stable := stable_normalThroughout
  term hcs hn := by
    obtain ⟨ts, -, rfl⟩ := Clause.ofQuery_eq_ok hcs
    exact Clause.normalThroughout_of_mem_readAll hn
  reference := normalThroughout_reference
  expansion name site h := h.expansion name site

namespace Tree

variable {query : String} {t : Tree}

theorem normalThroughout_of_parse (h : parse query = .ok t) : ∀ n ∈ t.root, n.NormalThroughout :=
  Node.keptByReading_normalThroughout.root (.alone h)

theorem normalThroughout_of_parseWith {saved : Stacks} {limit : Nat} {origin : Option String}
    (h : parseWith saved limit origin query = .ok t) : ∀ n ∈ t.root, n.NormalThroughout :=
  Node.keptByReading_normalThroughout.root (.within h)

/-- Every query is read to a tree in normal form, however it is written, whether there are stacks or not and whatever
its references come to. -/
theorem normal_of_read (h : parse query = .ok t ∨ ∃ saved limit origin, parseWith saved limit origin query = .ok t) :
    ∀ n ∈ t.root, (n.Normal fun _ => True) ∧ ∀ b ∈ n.bodies, b.Normal fun _ => True := by
  rcases h with h | ⟨saved, limit, origin, h⟩
  · exact normalThroughout_of_parse h
  · exact normalThroughout_of_parseWith h

def tangled : Stacks
  | "twice" => some "!(!(@odd b))"
  | "odd" => some "| x & (y z)) !!(-/r/ @twice"
  | _ => none

theorem normal_of_read_tangled :
    ∃ t n, parseWith tangled 3 none "(a) | !@twice ) -*w" = .ok t ∧ t.root = some n ∧ 2 ≤ n.bodies.length ∧
      (n.Normal fun _ => True) ∧ ∀ b ∈ n.bodies, b.Normal fun _ => True := by
  have h : (parseWith tangled 3 none "(a) | !@twice ) -*w").map (fun t => t.root.map (·.bodies.length))
      = .ok (some 2) := by decide +kernel
  cases ht : parseWith tangled 3 none "(a) | !@twice ) -*w" with
  | error o => rw [ht] at h; cases h
  | ok t =>
    rw [ht] at h
    obtain ⟨n, hn, hlen⟩ := Option.map_eq_some_iff.1 (Except.ok.inj h)
    exact ⟨t, n, rfl, hn, hlen.ge, normal_of_read (.inr ⟨tangled, 3, none, ht⟩) n hn⟩

end Tree

end FilterQuery
