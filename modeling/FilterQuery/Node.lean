import FilterQuery.Vocabulary

namespace FilterQuery

inductive Leaf
  | term (category : Category) (value : String) (stance : Stance)
  | regex (pattern flags : String) (field : Option String)
  | phrase (text : String) (field : Option String)
  | wildcard (pattern : String) (field : Option String)
  | comparison (category : Category) (comparator : Comparator) (value : String) (upper : Option String)
  deriving DecidableEq

inductive Junction
  | and
  | or
  deriving DecidableEq

def Junction.name : Junction → String
  | and => "AND"
  | or => "OR"

/-- Where a reference was expanded: the stack, how many stacks were being expanded around it, and which
ones, if the expansion depends on them. Two expansions made at one site are one shared subtree. -/
structure Site where
  stack : String
  depth : Nat
  chain : Option (List String)
  deriving DecidableEq

inductive Node
  | leaf (l : Leaf)
  | reference (name : String)
  | expansion (name : String) (site : Option Site) (body : Node)
  | group (junction : Junction) (negated : Bool) (children : List Node)

namespace Node

mutual
def decEq : (m n : Node) → Decidable (m = n)
  | .leaf l, .leaf k => decidable_of_iff (l = k) (by simp)
  | .reference a, .reference b => decidable_of_iff (a = b) (by simp)
  | .expansion a s m, .expansion b t n =>
    have := decEq m n
    decidable_of_iff (a = b ∧ s = t ∧ m = n) (by simp)
  | .group j p ms, .group k q ns =>
    have := decEqAll ms ns
    decidable_of_iff (j = k ∧ p = q ∧ ms = ns) (by simp)
  | .leaf _, .reference _ | .leaf _, .expansion .. | .leaf _, .group ..
  | .reference _, .leaf _ | .reference _, .expansion .. | .reference _, .group ..
  | .expansion .., .leaf _ | .expansion .., .reference _ | .expansion .., .group ..
  | .group .., .leaf _ | .group .., .reference _ | .group .., .expansion .. => isFalse nofun

def decEqAll : (ms ns : List Node) → Decidable (ms = ns)
  | [], [] => isTrue rfl
  | [], _ :: _ | _ :: _, [] => isFalse nofun
  | m :: ms, n :: ns =>
    have := decEq m n
    have := decEqAll ms ns
    decidable_of_iff (m = n ∧ ms = ns) (by simp)
end

instance : DecidableEq Node := decEq

def isGroup : Node → Bool
  | group .. => true
  | _ => false

def children : Node → List Node
  | group _ _ ns => ns
  | _ => []

/-- Puts a negation around a node. A group turns its own negation around, and a negated group of one
child gives that child back. -/
def negate : Node → Node
  | group _ true [n] => n
  | group j negated ns => group j (!negated) ns
  | n => group .and true [n]

def parts (j : Junction) : Node → List Node
  | group k false ns => if k = j then ns else [group k false ns]
  | n => [n]

def join (j : Junction) (ns : List Node) : Option Node :=
  match ns.flatMap (parts j) with
  | [] => none
  | [n] => some n
  | ns => some (group j false ns)

end Node

end FilterQuery
