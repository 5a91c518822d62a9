import FilterQuery.Yaml.Scalar
import FilterQuery.Yaml.Token.Name

/-! The tokens of a text. That a key begins is only seen at its colon, so that a place where a key may begin
is kept in mind until then; a key lies on one line and is not too long. -/

namespace FilterQuery.Yaml

open Glyph

structure KeyPlace where
  token : Nat
  index : Nat
  line : Nat
  column : Nat
  required : Bool

structure Scan where
  rest : List Glyph
  tokens : List (Token String)
  count : Nat
  -- The columns of the open blocks, innermost first.
  blocks : List Nat
  -- Whether a key may begin here.
  keyAllowed : Bool
  -- Where a key may begin in the innermost brackets, and in those around them.
  key : Option KeyPlace
  outerKeys : List (Option KeyPlace)

namespace Scan

def start (gs : List Glyph) : Scan := ⟨gs, [], 0, [], true, none, []⟩

def inFlow (s : Scan) : Bool := !s.outerKeys.isEmpty

def least (s : Scan) : Nat := match s.blocks with
  | [] => 0
  | n :: _ => n + 1

def emit (t : Token String) (s : Scan) : Scan := { s with tokens := t :: s.tokens, count := s.count + 1 }

def insert (n : Nat) (t : Token String) (s : Scan) : Scan :=
  let newer := s.count - n
  { s with tokens := s.tokens.take newer ++ t :: s.tokens.drop newer, count := s.count + 1 }

def keyLimit : Nat := 1024

def refreshKey (g : Glyph) : Option KeyPlace → Option (Option KeyPlace)
  | none => some none
  | some k =>
    if k.line < g.line ∨ k.index + keyLimit < g.index then if k.required then none else some none
    else some (some k)

def refreshKeys (g : Glyph) (s : Scan) : Option Scan := do
  return { s with key := ← refreshKey g s.key, outerKeys := ← s.outerKeys.mapM (refreshKey g) }

def dropKey (s : Scan) : Option Scan :=
  if s.key.any (·.required) then none else some { s with key := none }

def saveKey (g : Glyph) (s : Scan) : Option Scan :=
  if s.keyAllowed then do
    let s ← s.dropKey
    let required := !s.inFlow && s.blocks.head? == some g.column
    return { s with key := some ⟨s.count, g.index, g.line, g.column, required⟩ }
  else some s

def unrollFrom (column : Option Nat) (s : Scan) : List Nat → Scan
  | [] => { s with blocks := [] }
  | n :: outer =>
    if column.all (· < n) then unrollFrom column (s.emit .blockEnd) outer else { s with blocks := n :: outer }

def unroll (column : Option Nat) (s : Scan) : Scan :=
  if s.inFlow then s else s.unrollFrom column s.blocks

def roll (column n : Nat) (t : Token String) (s : Scan) : Scan :=
  if !s.inFlow && s.blocks.all (· < column) then
    { s.insert n t with blocks := column :: s.blocks }
  else s

/-- Passes over blanks, comments and line breaks. Behind a break outside brackets a key may begin; where one
may begin, tabs are no blanks. A byte order mark may begin a line. -/
def skipFrom (flow inComment keyAllowed : Bool) : List Glyph → Bool × List Glyph
  | [] => (keyAllowed, [])
  | g :: gs =>
    if isBreak g.char then skipFrom flow false (keyAllowed || !flow) gs
    else if inComment || (g.char == '\ufeff' && g.column == 0) then skipFrom flow inComment keyAllowed gs
    else if g.char == ' ' || (g.char == '\t' && (flow || !keyAllowed)) then
      skipFrom flow false keyAllowed gs
    else if g.char == '#' then skipFrom flow true keyAllowed gs
    else (keyAllowed, g :: gs)

def skip (s : Scan) : Scan :=
  let (keyAllowed, rest) := skipFrom s.inFlow false s.keyAllowed s.rest
  { s with keyAllowed := keyAllowed, rest := rest }

def topMark (t : Token String) (rest : List Glyph) (s : Scan) : Option Scan := do
  let s ← (s.unroll none).dropKey
  return { s.emit t with keyAllowed := false, rest := rest }

def openFlow (t : Token String) (g : Glyph) (rest : List Glyph) (s : Scan) : Option Scan := do
  let s ← s.saveKey g
  return { s.emit t with outerKeys := s.key :: s.outerKeys, key := none, keyAllowed := true, rest := rest }

def closeFlow (t : Token String) (rest : List Glyph) (s : Scan) : Option Scan := do
  let s ← s.dropKey
  let s := match s.outerKeys with
    | [] => s
    | k :: outer => { s with key := k, outerKeys := outer }
  return { s.emit t with keyAllowed := false, rest := rest }

def flowEntry (rest : List Glyph) (s : Scan) : Option Scan := do
  let s ← s.dropKey
  return { s.emit .flowEntry with keyAllowed := true, rest := rest }

def blockEntry (g : Glyph) (rest : List Glyph) (s : Scan) : Option Scan := do
  if !s.inFlow && !s.keyAllowed then none
  let s ← (s.roll g.column s.count .blockSequence).dropKey
  return { s.emit .blockEntry with keyAllowed := true, rest := rest }

def markedKey (g : Glyph) (rest : List Glyph) (s : Scan) : Option Scan := do
  if !s.inFlow && !s.keyAllowed then none
  let s ← (s.roll g.column s.count .blockMapping).dropKey
  return { s.emit .key with keyAllowed := !s.inFlow, rest := rest }

def value (g : Glyph) (rest : List Glyph) (s : Scan) : Option Scan := do
  let s ← match s.key with
    | some k =>
      let s := (s.insert k.token .key).roll k.column k.token .blockMapping
      some { s with key := none, keyAllowed := false }
    | none =>
      if !s.inFlow && !s.keyAllowed then none
      else some { s.roll g.column s.count .blockMapping with keyAllowed := !s.inFlow }
  return { s.emit .value with rest := rest }

def keyable (g : Glyph) (read : Option (Token String × List Glyph)) (s : Scan) : Option Scan := do
  let s ← s.saveKey g
  let (t, rest) ← read
  return { s.emit t with keyAllowed := false, rest := rest }

def named (make : String → Token String) (read : Option (String × List Glyph)) :
    Option (Token String × List Glyph) :=
  read.map fun (name, rest) => (make name, rest)

def scalarOf (style : Style) (read : Option (List Char × List Glyph)) :
    Option (Token String × List Glyph) :=
  read.map fun (text, rest) => (.scalar style (String.ofList text), rest)

def plainScalar (g : Glyph) (gs : List Glyph) (s : Scan) : Option Scan := do
  let s ← s.saveKey g
  let (text, crossed, rest) ← readPlain s.inFlow s.least gs
  return { s.emit (.scalar .plain (String.ofList text)) with keyAllowed := crossed, rest := rest }

def blockScalar (style : Style) (rest : List Glyph) (s : Scan) : Option Scan := do
  let s ← s.dropKey
  let (t, rest) ← scalarOf style (readBlock (style == .folded) s.least rest)
  return { s.emit t with keyAllowed := true, rest := rest }

def token (g : Glyph) (rest : List Glyph) (s : Scan) : Option Scan :=
  let gs := g :: rest
  let c := g.char
  let alone := s.inFlow || startsGap (next rest)
  if g.column = 0 ∧ c = '%' then do
    let (t, rest) ← Token.readDirective rest
    s.topMark t rest
  else if isRule '-' gs then s.topMark .documentStart (gs.drop 3)
  else if isRule '.' gs then s.topMark .documentEnd (gs.drop 3)
  else if c = '[' then s.openFlow .flowSequence g rest
  else if c = '\x7b' then s.openFlow .flowMapping g rest
  else if c = ']' then s.closeFlow .flowSequenceEnd rest
  else if c = '\x7d' then s.closeFlow .flowMappingEnd rest
  else if c = ',' then s.flowEntry rest
  else if c = '-' ∧ startsGap (next rest) then s.blockEntry g rest
  else if c = '?' ∧ alone then s.markedKey g rest
  else if c = ':' ∧ alone then s.value g rest
  else if c = '*' then s.keyable g (named .reference (Token.readName rest))
  else if c = '&' then s.keyable g (named .anchor (Token.readName rest))
  else if c = '!' then s.keyable g (Token.readTag s.inFlow gs)
  else if c = '|' ∧ !s.inFlow then s.blockScalar .literal rest
  else if c = '>' ∧ !s.inFlow then s.blockScalar .folded rest
  else if c = '\x27' then s.keyable g (scalarOf .single (readSingle .none [] rest))
  else if c = '"' then s.keyable g (scalarOf .double (readDouble .none [] rest))
  else if beginsPlain s.inFlow c (next rest) then s.plainScalar g gs
  else none

def finish (s : Scan) : Option (List (Token String)) := do
  let s ← (s.unroll none).dropKey
  return s.tokens.reverse

def run : (fuel : Nat) → Scan → Option (List (Token String))
  | 0, _ => none
  | fuel + 1, s =>
    let s := s.skip
    match s.rest with
    | [] => s.finish
    | g :: rest => do
      let s ← s.refreshKeys g
      run fuel (← (s.unroll (some g.column)).token g rest)

end Scan

def tokens? (cs : List Char) : Option (List (Token String)) :=
  Scan.run (cs.length + 1) (.start (Glyph.ofText cs))

end FilterQuery.Yaml
