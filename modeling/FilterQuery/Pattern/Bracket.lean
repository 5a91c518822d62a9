import FilterQuery.Pattern.Escape

namespace FilterQuery.Pattern

open Text (Ranges)

def asciiClasses : List (String × String) :=
  [("alnum", "30-39 41-5A 61-7A"), ("alpha", "41-5A 61-7A"), ("ascii", "0-7F"), ("blank", "9 20"),
    ("cntrl", "0-1F 7F"), ("digit", "30-39"), ("graph", "21-7E"), ("lower", "61-7A"),
    ("print", "20-7E"), ("punct", "21-2F 3A-40 5B-60 7B-7E"), ("space", "9-D 20"), ("upper", "41-5A"),
    ("word", "30-39 41-5A 5F 61-7A"), ("xdigit", "30-39 41-46 61-66")]

def asciiClass? : List Char → Option (Bool × Ranges × List Char)
  | ':' :: cs =>
    let (negated, cs) := match cs with
      | '^' :: cs => (true, cs)
      | cs => (false, cs)
    match cs.dropWhile (· != ':') with
    | ':' :: ']' :: rest =>
      (asciiClasses.lookup (String.ofList (cs.takeWhile (· != ':')))).map fun line =>
        (negated, Ranges.ofLine line, rest)
    | _ => none
  | _ => none

def Atom.bound? (m : Mode) : Atom → Option Nat
  | char c => if m.unicode || c.toNat < 128 then some c.toNat else none
  | set _ | look _ => none

def Atom.item? (m : Mode) : Atom → Option Ranges
  | set rs => some rs
  | a => (a.bound? m).map fun n => [(n, n)]

def classAtom? (m : Mode) : List Char → Option (Atom × List Char)
  | [] => none
  | '\\' :: cs => escape? m cs
  | c :: cs => some (.char c, cs)

/-- An item or a range, and what follows it. A hyphen makes no range in front of a closing bracket or
another hyphen. -/
def classRange? (m : Mode) (cs : List Char) : Option (Ranges × List Char) := do
  let (first, rest) ← classAtom? m cs
  let rest := m.skip rest
  match rest with
  | [] => none
  | '-' :: after =>
    if (m.peek after).any fun d => d == ']' || d == '-' then return (← first.item? m, rest)
    else
      let (last, rest) ← classAtom? m (m.skip after)
      let low ← first.bound? m
      let high ← last.bound? m
      if low ≤ high then return ([(low, high)], rest) else none
  | _ => return (← first.item? m, rest)

inductive SetOperation
  | inter
  | diff
  | symmetricDifference

def SetOperation.apply : SetOperation → Ranges → Ranges → Ranges
  | inter, rs, ss => rs.inter ss
  | diff, rs, ss => rs.diff ss
  | symmetricDifference, rs, ss => rs.symmetricDifference ss

def depthLimit : Nat := 250

structure Operand where
  set : Ranges
  depth : Nat

/-- A class that is open: whether it is negated, its items so far, how many these are and how deep the
deepest nests, and the operation that waits for them. -/
structure OpenClass where
  negated : Bool
  items : Ranges
  count : Nat
  deepest : Nat
  pending : Option (SetOperation × Operand)

namespace OpenClass

def add (rs : Ranges) (depth : Nat) (c : OpenClass) : OpenClass :=
  { c with items := rs ++ c.items, count := c.count + 1, deepest := max c.deepest depth }

/-- The value of what stands in a class so far. Several items nest one level deeper, and so does an
operation. -/
def operand (m : Mode) (c : OpenClass) : Operand :=
  let depth := if 2 ≤ c.count then c.deepest + 1 else c.deepest
  match c.pending with
  | none => ⟨c.items, depth⟩
  | some (op, left) => ⟨op.apply (m.closed left.set) (m.closed c.items), max left.depth depth + 1⟩

def operate (m : Mode) (op : SetOperation) (c : OpenClass) : OpenClass :=
  ⟨c.negated, [], 0, 0, some (op, c.operand m)⟩

def close? (m : Mode) (c : OpenClass) : Option Operand := do
  let v := c.operand m
  return ⟨← m.ofSet? c.negated v.set, v.depth + 1⟩

end OpenClass

def takeHyphens (m : Mode) (c : OpenClass) (cs : List Char) : OpenClass × List Char :=
  match cs with
  | '-' :: rest =>
    if _h : (m.skip rest).length < rest.length + 1 then
      takeHyphens m (c.add [(0x2D, 0x2D)] 0) (m.skip rest)
    else (c, cs)
  | cs => (c, cs)
  termination_by cs.length

/-- The start of a class, after its bracket: a caret, then hyphens or a closing bracket that stand for
themselves. -/
def openClass (m : Mode) (cs : List Char) : OpenClass × List Char :=
  let (negated, cs) := match m.skip cs with
    | '^' :: rest => (true, m.skip rest)
    | rest => (false, rest)
  let (c, cs) := takeHyphens m ⟨negated, [], 0, 0, none⟩ cs
  match cs with
  | ']' :: rest => if c.count = 0 then (c.add [(0x5D, 0x5D)] 0, m.skip rest) else (c, ']' :: rest)
  | cs => (c, cs)

def classBody? (m : Mode) (c : OpenClass) (outer : List OpenClass) (cs : List Char) :
    Option (Operand × List Char) :=
  let go (c : OpenClass) (outer : List OpenClass) (rest : List Char) :=
    if _h : rest.length < cs.length then classBody? m c outer rest else none
  match m.skip cs with
  | [] => none
  | '[' :: rest =>
    match asciiClass? rest with
    | some (negated, rs, rest) => (m.ofSet? negated rs).bind fun rs => go (c.add rs 0) outer rest
    | none =>
      if depthLimit ≤ outer.length then none else go (openClass m rest).1 (c :: outer) (openClass m rest).2
  | ']' :: rest => (c.close? m).bind fun v => match outer with
    | [] => some (v, rest)
    | c :: outer => go (c.add v.set v.depth) outer rest
  | '&' :: '&' :: rest => go (c.operate m .inter) outer rest
  | '~' :: '~' :: rest => go (c.operate m .symmetricDifference) outer rest
  | '-' :: '-' :: rest => go (c.operate m .diff) outer rest
  | rest => (classRange? m rest).bind fun (rs, rest) => go (c.add rs 0) outer rest
  termination_by cs.length

def class? (m : Mode) (cs : List Char) : Option (Operand × List Char) :=
  classBody? m (openClass m cs).1 [] (openClass m cs).2

end FilterQuery.Pattern
