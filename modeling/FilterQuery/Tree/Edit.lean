import FilterQuery.Node.Text
import FilterQuery.Tree

namespace FilterQuery

namespace Node

def at? : Node → List Nat → Option Node
  | n, [] => some n
  | n, i :: path => match n.children[i]? with
    | some child => child.at? path
    | none => none

def regroup (j : Junction) (negated : Bool) (ns : List Node) : Option Node :=
  (join j ns).map fun n => if negated then n.negate else n

def rebuild (replacement : Option Node) : List Nat → Node → Option Node
  | [], _ => replacement
  | i :: path, group j negated ns =>
    regroup j negated (ns.take i ++ ((ns[i]?.bind (rebuild replacement path)).toList ++ ns.drop (i + 1)))
  | _, n => some n

end Node

namespace Tree

def at? (t : Tree) (path : List Nat) : Option Node := t.root.bind (·.at? path)

def toQuery (t : Tree) : String := (t.root.map Node.toQuery).getD ""

def withRoot (t : Tree) (root : Option Node) : Tree :=
  ⟨root, (root.map Node.toQuery).getD "", [], t.warnings⟩

def edit (t : Tree) (path : List Nat) (replacement : Option Node) : Tree :=
  if (t.at? path).isSome then t.withRoot (t.root.bind (Node.rebuild replacement path)) else t

def removeAt (t : Tree) (path : List Nat) : Tree := t.edit path none

def replaceAt (t : Tree) (path : List Nat) (n : Node) : Tree := t.edit path (some n)

end Tree

end FilterQuery
