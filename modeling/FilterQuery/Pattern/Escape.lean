import FilterQuery.Number
import FilterQuery.Pattern.Mode
import FilterQuery.Pattern.Property

namespace FilterQuery.Pattern

open Text (Ranges)

inductive Atom
  | char (c : Char)
  | set (rs : Ranges)
  | look (l : Look)

def isHexDigit (c : Char) : Bool :=
  Number.isDigit c || ('a' ≤ c && c ≤ 'f') || ('A' ≤ c && c ≤ 'F')

def hexValue (c : Char) : Nat := Ranges.hexValue c.toUpper

def hexFixed? (m : Mode) : Nat → Nat → List Char → Option (Nat × List Char)
  | 0, n, cs => some (n, cs)
  | count + 1, n, cs => match m.skip cs with
    | c :: rest => if isHexDigit c then hexFixed? m count (16 * n + hexValue c) rest else none
    | [] => none

def braced? (m : Mode) (cs : List Char) : Option (List Char × List Char) :=
  match (m.skip cs) with
  | [] => none
  | '}' :: rest => some ([], rest)
  | c :: rest =>
    if _h : rest.length < cs.length then (braced? m rest).map fun (text, rest) => (c :: text, rest)
    else none
  termination_by cs.length

def scalar? (n : Nat) (rest : List Char) : Option (Atom × List Char) :=
  if n.isValidChar then some (.char (Char.ofNat n), rest) else none

/-- A character by its number. Two digits stand for a byte where classes hold bytes, and a byte past ASCII
is no text. -/
def hexEscape? (m : Mode) (c : Char) (cs : List Char) : Option (Atom × List Char) :=
  match m.skip cs with
  | '{' :: rest => do
    let (text, rest) ← braced? m rest
    if text.isEmpty || !text.all isHexDigit then none
    else scalar? (text.foldl (fun n d => 16 * n + hexValue d) 0) rest
  | _ => do
    let (n, rest) ← hexFixed? m (if c = 'x' then 2 else if c = 'u' then 4 else 8) 0 cs
    if c = 'x' && !m.unicode && 0x80 ≤ n then none else scalar? n rest

def digitSet (unicode : Bool) : Ranges := if unicode then tabled ["nd"] else [(0x30, 0x39)]

def spaceSet (unicode : Bool) : Ranges :=
  if unicode then listed "wspace" else [(0x9, 0xD), (0x20, 0x20)]

def wordSet (unicode : Bool) : Ranges :=
  if unicode then alphabetic ++ marks ++ tabled ["nd", "pc"] ++ listed "joinc"
  else [(0x30, 0x39), (0x41, 0x5A), (0x5F, 0x5F), (0x61, 0x7A)]

def letterSet? (m : Mode) (c : Char) : Option Ranges :=
  match c with
  | 'd' => some (digitSet m.unicode).normal
  | 's' => some (spaceSet m.unicode).normal
  | 'w' => some (wordSet m.unicode).normal
  | 'D' => if m.unicode then some (digitSet true).complement else none
  | 'S' => if m.unicode then some (spaceSet true).complement else none
  | 'W' => if m.unicode then some (wordSet true).complement else none
  | _ => none

def propertyEscape? (m : Mode) (negated : Bool) (cs : List Char) : Option (Atom × List Char) :=
  if !m.unicode then none else
  match m.skip cs with
  | [] => none
  | '{' :: rest => do
    let (name, rest) ← braced? m rest
    let (turned, rs) ← namedSet? name
    return (.set (← m.ofSet? (negated != turned) rs), rest)
  | c :: rest => do
    if c = '\\' then none
    return (.set (← m.ofSet? negated (← property? [c])), rest)

def isBoundaryChar (c : Char) : Bool := c.isAlpha || c == '-'

def boundaryName (m : Mode) (cs : List Char) : List Char × List Char :=
  match m.skip cs with
  | [] => ([], [])
  | c :: rest =>
    if _h : isBoundaryChar c ∧ rest.length < cs.length then
      let (name, rest) := boundaryName m rest
      (c :: name, rest)
    else ([], c :: rest)
  termination_by cs.length
  decreasing_by exact _h.2

def Mode.boundary (m : Mode) (kind : String) : Atom :=
  .look (.boundary (if m.unicode then kind else "ascii " ++ kind))

def boundaryEscape? (m : Mode) : List Char → Option (Atom × List Char)
  | '{' :: cs => match m.skip cs with
    | [] => none
    | c :: _ =>
      if isBoundaryChar c then
        match boundaryName m cs with
        | (name, '}' :: rest) =>
          let kind := String.ofList name
          if ["start", "end", "start-half", "end-half"].contains kind then some (m.boundary kind, rest)
          else none
        | _ => none
      else some (m.boundary "edge", '{' :: cs)
  | cs => some (m.boundary "edge", cs)

def isEscapable (c : Char) : Bool :=
  c.toNat < 128 && !c.isAlphanum && c != '<' && c != '>'

def controls : List (Char × Char) :=
  [('a', '\x07'), ('f', '\x0c'), ('t', '\t'), ('n', '\n'), ('r', '\r'), ('v', '\x0b')]

def placeEscape? (m : Mode) (c : Char) : Option Atom :=
  match c with
  | 'A' => some (.look .textStart)
  | 'z' => some (.look .textEnd)
  | 'B' => some (m.boundary "inside")
  | '<' => some (m.boundary "start")
  | '>' => some (m.boundary "end")
  | _ => none

def escape? (m : Mode) : List Char → Option (Atom × List Char)
  | [] => none
  | c :: cs =>
    if c = 'x' ∨ c = 'u' ∨ c = 'U' then hexEscape? m c cs
    else if c = 'p' ∨ c = 'P' then propertyEscape? m (c == 'P') cs
    else if c = 'b' then boundaryEscape? m cs
    else if isEscapable c then some (.char c, cs)
    else match controls.lookup c, placeEscape? m c with
      | some control, _ => some (.char control, cs)
      | none, some a => some (a, cs)
      | none, none => (letterSet? m c).map fun rs => (.set rs, cs)

end FilterQuery.Pattern
