import FilterQuery.Clause
import FilterQuery.Tree

/-! Grouping of clauses. Clauses are taken in one after the other; what has been read of each open group is
kept until its parenthesis closes. Alternatives bind looser than conjunctions, and clauses side by side
are a conjunction. -/

namespace FilterQuery

/-- What has been read of one group: the finished alternatives, the nodes of the conjunction being read,
and the negations that wait for the next node. -/
structure Level where
  alternatives : List Node
  conjuncts : List Node
  negations : Nat
  touched : Bool
  termSeen : Bool

namespace Level

def empty : Level := ⟨[], [], 0, false, false⟩

def negateTimes : Nat → Node → Node
  | 0, n => n
  | k + 1, n => (negateTimes k n).negate

def push (l : Level) (n : Option Node) : Level :=
  { l with
    conjuncts := l.conjuncts ++ (n.map (negateTimes l.negations)).toList
    negations := 0
    touched := true
    termSeen := true }

def alternate (l : Level) : Level :=
  ⟨l.alternatives ++ (Node.join .and l.conjuncts).toList, [], 0, true, false⟩

def node (l : Level) : Option Node := Node.join .or l.alternate.alternatives

end Level

/-- Open groups from the innermost outwards, each with the parenthesis that opened the one inside it, and
what lies behind unmatched parentheses. -/
structure Grouping where
  level : Level
  outer : List (Token × Level)
  roots : List Node
  problems : List Problem
  warnings : List Warning

structure Referral where
  node : Node
  faults : List Fault
  warnings : List Warning

namespace Grouping

def start : Grouping := ⟨.empty, [], [], [], []⟩

def isBoundary : Option Clause → Bool
  | none | some (.or _) | some (.rightParen _) => true
  | _ => false

def lacksTerm : Option Clause → Bool
  | some (.and _) => true
  | c => isBoundary c

def report (s : Grouping) (when : Bool) (fault : Fault) (t : Token) : Grouping :=
  if when then { s with problems := s.problems ++ [.atToken fault t] } else s

def push (s : Grouping) (n : Option Node) : Grouping := { s with level := s.level.push n }

def takeAnd (s : Grouping) (t : Token) (next : Option Clause) : Grouping :=
  let s := (s.report (!s.level.termSeen) (.missingBefore t.kind) t).report (lacksTerm next)
    (.missingAfter t.kind) t
  { s with level := { s.level with touched := true } }

def takeOr (s : Grouping) (t : Token) (next : Option Clause) : Grouping :=
  let s := (s.report (!s.level.touched) (.missingBefore t.kind) t).report (isBoundary next)
    (.missingAfter t.kind) t
  { s with level := s.level.alternate }

def takeNot (s : Grouping) (t : Token) (next : Option Clause) : Grouping :=
  if lacksTerm next then (s.report true (.missingAfter t.kind) t).push none
  else { s with level := { s.level with
    negations := s.level.negations + 1, touched := true, termSeen := true } }

def takeLeftParen (s : Grouping) (t : Token) : Grouping :=
  { s with level := .empty, outer := (t, s.level) :: s.outer }

def takeRightParen (s : Grouping) (t : Token) : Grouping :=
  match s.outer with
  | [] =>
    { s.report true .unmatchedParen t with
      level := .empty, roots := s.roots ++ s.level.node.toList }
  | (opening, around) :: outer =>
    { s with
      level := around.push s.level.node
      outer := outer
      warnings := s.warnings ++ if s.level.touched then [] else [.emptyGroup opening.position] }

def take (s : Grouping) (next : Option Clause) : Clause → Grouping
  | .and t => s.takeAnd t next
  | .or t => s.takeOr t next
  | .not t => s.takeNot t next
  | .leftParen t => s.takeLeftParen t
  | .rightParen t => s.takeRightParen t
  | .term n warning => { s.push (some n) with warnings := s.warnings ++ warning.toList }
  | .broken problem => { s.push none with problems := s.problems ++ [problem] }
  | .reference _ _ => s

def takeReference (s : Grouping) (t : Token) (r : Referral) : Grouping :=
  { s.push (some r.node) with
    problems := s.problems ++ r.faults.map (.atToken · t)
    warnings := s.warnings ++ r.warnings }

def run {m : Type → Type} [Monad m] (refer : String → m Referral) : Grouping → List Clause → m Grouping
  | s, [] => pure s
  | s, .reference t name :: cs => do
    let r ← refer name
    run refer (s.takeReference t r) cs
  | s, c :: cs => run refer (s.take cs.head? c) cs

def closeAll (s : Grouping) : List (Token × Level) → Grouping
  | [] => s
  | (t, around) :: outer =>
    closeAll { s.report true .unclosedParen t with level := around.push s.level.node } outer

def root (s : Grouping) : Option Node :=
  Node.join .and (s.roots ++ s.level.node.toList)

def tree (s : Grouping) (query : String) : Tree :=
  let s := s.closeAll s.outer
  ⟨s.root, query, s.problems, s.warnings⟩

end Grouping

end FilterQuery
