import FilterQuery.Pattern.Bracket
import FilterQuery.Pattern.Size
import FilterQuery.Text.Alphabetic

/-! Which regular expressions are well formed: groups with names and flags, counted repetitions, nested
character classes and Unicode properties, but neither look-around nor back-references. A pattern matches
text, so what could match half a character is refused, and so is a pattern that nests too deep or whose
automata grow too large. -/

namespace FilterQuery.Pattern

def digitRun (m : Mode) : List Char → List Char × List Char
  | [] => ([], [])
  | c :: rest =>
    if _h : Number.isDigit c ∧ (m.skip rest).length < rest.length + 1 then
      let (ds, rest) := digitRun m (m.skip rest)
      (c :: ds, rest)
    else ([], c :: rest)
  termination_by cs => cs.length
  decreasing_by exact _h.2

def count? (m : Mode) (cs : List Char) : Option (Nat × List Char) :=
  let (ds, rest) := digitRun m (Text.trimStart cs)
  let n := Number.ofDigits ds
  if ds.isEmpty || Number.twoTo 32 ≤ n then none else some (n, m.skip (Text.trimStart rest))

/-- The counts of a repetition, after its brace: the least, the most if there is a bound, and what follows
the closing brace. -/
def counts? (m : Mode) (cs : List Char) : Option (Nat × Option Nat × List Char) := do
  let (low, rest) ← count? m (m.skip cs)
  match rest with
  | ',' :: rest => match m.skip rest with
    | '}' :: rest => return (low, none, rest)
    | rest =>
      let (high, rest) ← count? m rest
      match rest with
      | '}' :: rest => if low ≤ high then return (low, some high, rest) else none
      | _ => none
  | '}' :: rest => return (low, some low, rest)
  | _ => none

def isGroupNameChar (first : Bool) (c : Char) : Bool :=
  if first then c == '_' || Text.isAlphabetic c
  else c == '_' || c == '.' || c == '[' || c == ']' || Text.isAlphanumeric c

def groupName? (cs : List Char) : Option (List Char × List Char) :=
  match cs.takeWhile (· != '>'), cs.dropWhile (· != '>') with
  | c :: name, '>' :: rest =>
    if isGroupNameChar true c && name.all (isGroupNameChar false) then some (c :: name, rest) else none
  | _, _ => none

/-- Flags up to a colon or a closing parenthesis: whether there are any, the mode they leave, the character
they end with, and the rest. No flag and no minus sign stands twice, and a minus sign is not the last. -/
def flags? (m : Mode) (negated : Bool) (seen : List Char) : List Char → Option (Bool × Mode × Char × List Char)
  | [] => none
  | c :: cs =>
    if c = ':' ∨ c = ')' then
      if seen.head? = some '-' then none else some (!seen.isEmpty, m, c, cs)
    else if seen.contains c then none
    else if c = '-' then flags? m true (c :: seen) cs
    else (m.put c !negated).bind fun m => flags? m negated (c :: seen) cs

inductive Opening
  | group (captures : Bool) (name : Option (List Char)) (inner : Mode) (rest : List Char)
  | setting (m : Mode) (rest : List Char)

def opening? (m : Mode) (cs : List Char) : Option Opening :=
  let cs := m.skip cs
  let named (start : String) :=
    (groupName? (cs.drop start.length)).map fun (name, rest) => Opening.group true (some name) m rest
  if ["?=", "?!", "?<=", "?<!"].any (·.toList.isPrefixOf cs) then none
  else if "?P<".toList.isPrefixOf cs then named "?P<"
  else if "?<".toList.isPrefixOf cs then named "?<"
  else match cs with
    | '?' :: cs => do
      let (any, inner, stop, rest) ← flags? m false [] cs
      if stop = ':' then some (.group false none inner rest)
      else if any then some (.setting inner rest)
      else none
    | cs => some (.group true none m cs)

structure Item where
  expression : Expression
  depth : Nat

namespace Item

def flat (e : Expression) : Item := ⟨e, 0⟩

def join (make : List Expression → Expression) : List Item → Item
  | [] => flat .empty
  | [i] => i
  | items => ⟨make (items.map (·.expression)), items.foldl (fun n i => max n i.depth) 0 + 1⟩

end Item

structure Frame where
  mode : Mode
  captures : Bool
  last : Option Item
  -- The items in front of it, and the alternatives in front of those, last ones first.
  items : List Item
  branches : List Item

namespace Frame

def start (m : Mode) (captures : Bool) : Frame := ⟨m, captures, none, [], []⟩

def push (i : Item) (f : Frame) : Frame := { f with last := some i, items := f.last.toList ++ f.items }

def pushExpression (e : Expression) (f : Frame) : Frame := f.push (.flat e)

def set (m : Mode) (f : Frame) : Frame :=
  { f with mode := m, last := none, items := .flat .empty :: (f.last.toList ++ f.items) }

def branch (f : Frame) : Item := .join .ofSequence (f.last.toList ++ f.items).reverse

def split (f : Frame) : Frame := { f with last := none, items := [], branches := f.branch :: f.branches }

def content (f : Frame) : Item := .join .ofChoice (f.branch :: f.branches).reverse

def close (f : Frame) : Item :=
  let i := f.content
  ⟨if f.captures then .capture i.expression else i.expression, i.depth + 1⟩

def repeated (least : Nat) (most : Option Nat) (shortest : Bool) (f : Frame) : Option Frame := do
  let i ← f.last
  if depthLimit ≤ i.depth then none
  else
    let e := Expression.ofRepetition least most (shortest == f.mode.lazy) i.expression
    return { f with last := some ⟨e, i.depth + 1⟩ }

def repeatThen (least : Nat) (most : Option Nat) (f : Frame) (cs : List Char) :
    Option (Frame × List Char) :=
  match cs with
  | '?' :: rest => (f.repeated least most true).map (·, rest)
  | rest => (f.repeated least most false).map (·, rest)

end Frame

structure Progress where
  frame : Frame
  outer : List Frame
  names : List (List Char)

def Progress.enter (p : Progress) (captures : Bool) (name : Option (List Char)) (inner : Mode) :
    Option Progress :=
  let next := { p with frame := .start inner captures, outer := p.frame :: p.outer }
  if depthLimit ≤ p.outer.length then none
  else match name with
  | some n => if p.names.contains n then none else some { next with names := n :: p.names }
  | none => some next

def Atom.expression (m : Mode) : Atom → Expression
  | char c => m.ofChar c
  | set rs => .ofSet rs
  | look l => .look l

def step? (p : Progress) (c : Char) (cs : List Char) : Option (Progress × List Char) :=
  let f := p.frame
  let m := f.mode
  let go (r : Option (Frame × List Char)) := r.map fun (f, rest) => ({ p with frame := f }, rest)
  match c with
  | '(' => (opening? m cs).bind fun
    | .group captures name inner rest => (p.enter captures name inner).map (·, rest)
    | .setting inner rest => go (some (f.set inner, rest))
  | ')' => match p.outer with
    | [] => none
    | g :: outer => some ({ p with frame := g.push f.close, outer := outer }, cs)
  | '|' => go (some (f.split, cs))
  | '[' => go ((class? m cs).map fun (v, rest) => (f.push ⟨.ofSet v.set, v.depth⟩, rest))
  | '?' => go (f.repeatThen 0 (some 1) cs)
  | '*' => go (f.repeatThen 0 none cs)
  | '+' => go (f.repeatThen 1 none cs)
  | '{' => go ((counts? m cs).bind fun (least, most, rest) => f.repeatThen least most (m.skip rest))
  | '\\' => go ((escape? m cs).map fun (a, rest) => (f.pushExpression (a.expression m), rest))
  | '.' => go (m.dot?.map fun e => (f.pushExpression e, cs))
  | '^' => go (some (f.pushExpression (.look m.lineStart), cs))
  | '$' => go (some (f.pushExpression (.look m.lineEnd), cs))
  | c => go (some (f.pushExpression (m.ofChar c), cs))

def run? : (fuel : Nat) → Progress → List Char → Option Item
  | 0, _, _ => none
  | fuel + 1, p, cs => match p.frame.mode.skip cs with
    | [] => if p.outer.isEmpty then some p.frame.content else none
    | c :: rest => (step? p c rest).bind fun (p, rest) => run? fuel p rest

def isWellFormed (flags pattern : List Char) : Bool :=
  (run? (pattern.length + 1) ⟨.start (.ofFlags flags) false, [], []⟩ pattern).any fun i =>
    i.depth ≤ depthLimit && i.expression.fits

end FilterQuery.Pattern
