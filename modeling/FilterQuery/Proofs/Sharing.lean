import FilterQuery.Tree.Parse
import Mathlib

/-! Trees up to sharing. The sites of a tree say which expansions are one subtree; reading does not look at
them, so that it gives equal trees for what is equal but for its sites. It does not look into anything that is no
group, so that the same is true of any change inside groups. -/

namespace FilterQuery

namespace Node

mutual
/-- The node without its sites: every expansion is a copy of its own. -/
def unshared : Node → Node
  | .leaf l => .leaf l
  | .reference name => .reference name
  | .expansion name _ body => .expansion name none body.unshared
  | .group j negated ns => .group j negated (unsharedAll ns)

def unsharedAll : List Node → List Node
  | [] => []
  | n :: ns => n.unshared :: unsharedAll ns
end

@[simp] theorem unsharedAll_eq_map (ns : List Node) : unsharedAll ns = ns.map unshared := by
  induction ns with
  | nil => rfl
  | cons n ns ih => simp [unsharedAll, ih]

@[simp] theorem unshared_group (j : Junction) (negated : Bool) (ns : List Node) :
    (group j negated ns).unshared = group j negated (ns.map unshared) := by simp [unshared]

mutual
theorem unshared_unshared : ∀ n : Node, n.unshared.unshared = n.unshared
  | .leaf _ | .reference _ => rfl
  | .expansion name _ body => congrArg (expansion name none) (unshared_unshared body)
  | .group j negated ns => congrArg (group j negated) (unsharedAll_unsharedAll ns)

theorem unsharedAll_unsharedAll : ∀ ns : List Node, unsharedAll (unsharedAll ns) = unsharedAll ns
  | [] => rfl
  | n :: ns => congrArg₂ List.cons (unshared_unshared n) (unsharedAll_unsharedAll ns)
end

structure KeepsGroups (φ : Node → Node) : Prop where
  group : ∀ j negated ns, φ (.group j negated ns) = .group j negated (ns.map φ)
  atom : ∀ n, n.isGroup = false → (φ n).isGroup = false

theorem keepsGroups_unshared : KeepsGroups unshared where
  group := unshared_group
  atom n hn := by
    cases n with
    | group => cases hn
    | _ => rfl

theorem negate_of_isGroup {n : Node} (h : n.isGroup = false) : n.negate = group .and true [n] := by
  cases n with
  | group => cases h
  | _ => rfl

theorem parts_of_isGroup {n : Node} (h : n.isGroup = false) (j : Junction) : n.parts j = [n] := by
  cases n with
  | group => cases h
  | _ => rfl

namespace KeepsGroups

variable {φ : Node → Node} (hφ : KeepsGroups φ)

include hφ

theorem negate (n : Node) : φ n.negate = (φ n).negate := by
  cases hn : n.isGroup with
  | false => rw [negate_of_isGroup hn, negate_of_isGroup (hφ.atom n hn), hφ.group, List.map_singleton]
  | true =>
    cases n with
    | group j negated ns =>
      match negated, ns with
      | false, ns => simp [Node.negate, hφ.group]
      | true, [] => simp [Node.negate, hφ.group]
      | true, [n] => simp [Node.negate, hφ.group]
      | true, _ :: _ :: _ => simp [Node.negate, hφ.group]
    | _ => cases hn

theorem parts (j : Junction) (n : Node) : (n.parts j).map φ = (φ n).parts j := by
  cases hn : n.isGroup with
  | false => rw [parts_of_isGroup hn, parts_of_isGroup (hφ.atom n hn), List.map_singleton]
  | true =>
    cases n with
    | group k negated ns =>
      cases negated with
      | false =>
        simp only [Node.parts, hφ.group]
        split <;> simp [hφ.group]
      | true => simp [Node.parts, hφ.group]
    | _ => cases hn

theorem join (j : Junction) (ns : List Node) : (Node.join j ns).map φ = Node.join j (ns.map φ) := by
  have h : (ns.map φ).flatMap (Node.parts j) = (ns.flatMap (Node.parts j)).map φ := by
    simp [List.flatMap_map, List.map_flatMap, hφ.parts]
  rw [Node.join, Node.join, h]
  match ns.flatMap (Node.parts j) with
  | [] => rfl
  | [n] => rfl
  | _ :: _ :: _ => simp [hφ.group]

theorem negateTimes (k : Nat) (n : Node) : φ (Level.negateTimes k n) = Level.negateTimes k (φ n) := by
  induction k with
  | zero => rfl
  | succ k ih => rw [Level.negateTimes, Level.negateTimes, hφ.negate, ih]

end KeepsGroups

end Node

def Tree.unshared (t : Tree) : Tree := { t with root := t.root.map Node.unshared }

def Referral.unshared (r : Referral) : Referral := { r with node := r.node.unshared }

def Tree.map (φ : Node → Node) (t : Tree) : Tree := { t with root := t.root.map φ }

def Referral.map (φ : Node → Node) (r : Referral) : Referral := { r with node := φ r.node }

def Clause.map (φ : Node → Node) : Clause → Clause
  | .term n warning => .term (φ n) warning
  | c => c

variable {φ : Node → Node}

namespace Level

def map (φ : Node → Node) (l : Level) : Level :=
  { l with alternatives := l.alternatives.map φ, conjuncts := l.conjuncts.map φ }

variable (hφ : Node.KeepsGroups φ)

include hφ

theorem map_push (l : Level) (n : Option Node) : (l.push n).map φ = (l.map φ).push (n.map φ) := by
  cases n <;> simp [push, map, hφ.negateTimes]

theorem map_alternate (l : Level) : l.alternate.map φ = (l.map φ).alternate := by
  simp only [alternate, map, List.map_append, ← hφ.join]
  cases Node.join .and l.conjuncts <;> simp

theorem map_node (l : Level) : l.node.map φ = (l.map φ).node := by
  rw [node, node, hφ.join, ← map_alternate hφ]
  rfl

end Level

namespace Grouping

def map (φ : Node → Node) (s : Grouping) : Grouping :=
  { s with
    level := s.level.map φ
    outer := s.outer.map fun o => (o.1, o.2.map φ)
    roots := s.roots.map φ }

theorem isBoundary_map (next : Option Clause) : isBoundary (next.map (Clause.map φ)) = isBoundary next := by
  rcases next with _ | c
  · rfl
  · cases c <;> rfl

theorem lacksTerm_map (next : Option Clause) : lacksTerm (next.map (Clause.map φ)) = lacksTerm next := by
  rcases next with _ | c
  · rfl
  · cases c <;> rfl

theorem map_report (s : Grouping) (b : Bool) (f : Fault) (t : Token) :
    (s.report b f t).map φ = (s.map φ).report b f t := by
  cases b <;> rfl

theorem map_level (s : Grouping) : (s.map φ).level = s.level.map φ := rfl

variable (hφ : Node.KeepsGroups φ)

include hφ

theorem map_push (s : Grouping) (n : Option Node) : (s.push n).map φ = (s.map φ).push (n.map φ) := by
  simp [push, map, Level.map_push hφ]

theorem map_takeRightParen (s : Grouping) (t : Token) : (s.takeRightParen t).map φ = (s.map φ).takeRightParen t := by
  rcases s with ⟨l, _ | ⟨⟨opening, around⟩, outer⟩, roots, ps, ws⟩
  · simp only [takeRightParen, map, List.map_nil, ← Level.map_node hφ]
    cases l.node <;> simp [report, Level.map, Level.empty]
  · simp only [takeRightParen, map, List.map_cons, Level.map_push hφ, Level.map_node hφ]
    rfl

theorem map_takeOr (s : Grouping) (t : Token) (next : Option Clause) :
    (s.takeOr t next).map φ = (s.map φ).takeOr t (next.map (Clause.map φ)) := by
  have ht : (s.map φ).level.touched = s.level.touched := rfl
  simp only [takeOr, ht, isBoundary_map, ← map_report]
  rw [map_level, ← Level.map_alternate hφ]
  rfl

theorem map_takeNot (s : Grouping) (t : Token) (next : Option Clause) :
    (s.takeNot t next).map φ = (s.map φ).takeNot t (next.map (Clause.map φ)) := by
  simp only [takeNot, lacksTerm_map, ← map_report]
  split
  · rw [map_push hφ]
    rfl
  · rfl

theorem map_take (s : Grouping) (next : Option Clause) (c : Clause) :
    (s.take next c).map φ = (s.map φ).take (next.map (Clause.map φ)) (c.map φ) := by
  cases c with
  | and t => simp only [take, takeAnd, Clause.map, lacksTerm_map, ← map_report]; rfl
  | or t => exact map_takeOr hφ s t next
  | not t => exact map_takeNot hφ s t next
  | leftParen t => rfl
  | rightParen t => exact map_takeRightParen hφ s t
  | term n warning =>
    have h := map_push hφ s (some n)
    simp only [take, Clause.map, Option.map_some] at h ⊢
    rw [← h]
    rfl
  | broken problem =>
    have h := map_push hφ s none
    simp only [take, Clause.map, Option.map_none] at h ⊢
    rw [← h]
    rfl
  | reference t name => rfl

theorem map_takeReference (s : Grouping) (t : Token) (r : Referral) :
    (s.takeReference t r).map φ = (s.map φ).takeReference t (r.map φ) := by
  have h := map_push hφ s (some r.node)
  simp only [takeReference, Referral.map, Option.map_some] at h ⊢
  rw [← h]
  rfl

theorem map_closeAll (s : Grouping) (outer : List (Token × Level)) :
    (s.closeAll outer).map φ = (s.map φ).closeAll (outer.map fun o => (o.1, o.2.map φ)) := by
  induction outer generalizing s with
  | nil => rfl
  | cons o outer ih =>
    obtain ⟨t, around⟩ := o
    simp only [closeAll, List.map_cons, ih, ← map_report, map_level, ← Level.map_node hφ, ← Level.map_push hφ]
    rfl

theorem map_tree (s : Grouping) (query : String) : (s.tree query).map φ = (s.map φ).tree query := by
  have h := map_closeAll hφ s s.outer
  have hroot : ∀ s : Grouping, s.root.map φ = (s.map φ).root := fun s => by
    rw [root, root, hφ.join, List.map_append, map_level, ← Level.map_node hφ]
    cases s.level.node <;> rfl
  rw [tree, tree, Tree.map, hroot, h]
  change Tree.mk _ _ ((s.closeAll s.outer).map φ).problems ((s.closeAll s.outer).map φ).warnings = _
  rw [h]
  rfl

end Grouping

namespace Grouping

def references : List Clause → List String
  | [] => []
  | .reference _ name :: cs => name :: references cs
  | _ :: cs => references cs

def fill : Grouping → List Clause → List Referral → Grouping
  | s, [], _ => s
  | s, .reference t _ :: cs, r :: rs => fill (s.takeReference t r) cs rs
  | s, .reference _ _ :: cs, [] => fill s cs []
  | s, c :: cs, rs => fill (s.take cs.head? c) cs rs

theorem run_eq_fill {m : Type → Type} [Monad m] [LawfulMonad m] (refer : String → m Referral)
    (s : Grouping) (cs : List Clause) :
    run refer s cs = (references cs).mapM refer >>= fun rs => pure (fill s cs rs) := by
  induction cs generalizing s with
  | nil => simp [run, references, fill]
  | cons c cs ih =>
    cases c with
    | reference t name => simp [run, references, fill, ih]
    | _ => simp [run, references, fill, ih]

theorem map_fill (hφ : Node.KeepsGroups φ) (s : Grouping) (cs : List Clause) (rs : List Referral) :
    (fill s cs rs).map φ = fill (s.map φ) (cs.map (Clause.map φ)) (rs.map (Referral.map φ)) := by
  fun_induction fill s cs rs with
  | case1 => rfl
  | case2 s t name cs r rs ih => rw [ih, map_takeReference hφ]; rfl
  | case3 s t name cs ih => exact ih
  | case4 s c cs rs h1 h2 ih =>
    rw [ih, map_take hφ, List.map_cons, ← List.head?_map]
    cases c with
    | reference t name =>
      cases rs with
      | nil => exact absurd rfl (h2 t name rfl)
      | cons r rs => exact absurd rfl (h1 t name r rs rfl)
    | _ => rfl

end Grouping

def Tree.ofReferrals (query : String) (cs : List Clause) (rs : List Referral) : Tree :=
  (Grouping.fill .start cs rs).tree query

theorem Tree.map_ofReferrals (hφ : Node.KeepsGroups φ) (query : String) (cs : List Clause) (rs : List Referral) :
    (ofReferrals query cs rs).map φ = ofReferrals query (cs.map (Clause.map φ)) (rs.map (Referral.map φ)) := by
  rw [ofReferrals, ofReferrals, Grouping.map_tree hφ, Grouping.map_fill hφ]
  rfl

theorem Tree.unshared_ofReferrals {rs rs' : List Referral}
    (h : rs.map Referral.unshared = rs'.map Referral.unshared) (query : String) (cs : List Clause) :
    (Tree.ofReferrals query cs rs).unshared = (Tree.ofReferrals query cs rs').unshared := by
  have hmap := Tree.map_ofReferrals Node.keepsGroups_unshared query cs
  change (ofReferrals query cs rs).map Node.unshared = (ofReferrals query cs rs').map Node.unshared
  rw [hmap, hmap]
  exact congrArg _ h

end FilterQuery
