/-! Characters of a text with their places. Where a character stands matters in YAML: its column tells the
depth of a block, and a key ends on the line on which it begins. -/

namespace FilterQuery.Yaml

def isBlank (c : Char) : Bool := c == ' ' || c == '\t'

def isBreak (c : Char) : Bool := c == '\n' || c == '\u2028' || c == '\u2029'

def isGap (c : Char) : Bool := isBlank c || isBreak c

def startsGap (next : Option Char) : Bool := next.all isGap

def normalBreaks : List Char → List Char
  | [] => []
  | '\r' :: '\n' :: cs => '\n' :: normalBreaks cs
  | c :: cs => (if c = '\r' ∨ c = '\x85' then '\n' else c) :: normalBreaks cs

structure Glyph where
  char : Char
  index : Nat
  line : Nat
  column : Nat
  deriving DecidableEq, Inhabited

namespace Glyph

def listFrom (index line column : Nat) : List Char → List Glyph
  | [] => []
  | c :: cs =>
    ⟨c, index, line, column⟩
      :: if isBreak c then listFrom (index + 1) (line + 1) 0 cs else listFrom (index + 1) line (column + 1) cs

def ofText (cs : List Char) : List Glyph := listFrom 0 0 0 cs

theorem map_char_listFrom (index line column : Nat) (cs : List Char) :
    (listFrom index line column cs).map char = cs := by
  induction cs generalizing index line column with
  | nil => rfl
  | cons c cs ih => simp only [listFrom]; split <;> simp [ih]

def chars (gs : List Glyph) : List Char := gs.map char

def next (gs : List Glyph) : Option Char := gs.head?.map char

def skipBlanks (gs : List Glyph) : List Glyph := gs.dropWhile (isBlank ·.char)

def skipLine (gs : List Glyph) : List Glyph := gs.dropWhile (!isBreak ·.char)

def endLine? (gs : List Glyph) : Option (List Glyph) :=
  let gs := skipBlanks gs
  match if next gs = some '#' then skipLine gs else gs with
  | [] => some []
  | g :: rest => if isBreak g.char then some rest else none

def isRule (sign : Char) : List Glyph → Bool
  | a :: b :: c :: rest =>
    a.column == 0 && a.char == sign && b.char == sign && c.char == sign && startsGap (next rest)
  | _ => false

def isMarker (gs : List Glyph) : Bool := isRule '-' gs || isRule '.' gs

end Glyph

inductive Gap
  | blanks (cs : List Char)
  -- A line break, which is missing if it was escaped, and those behind it.
  | lines (first : Option Char) (others : List Char)
  deriving DecidableEq

namespace Gap

def none : Gap := blanks []

def joined : Gap := lines Option.none []

def add (c : Char) : Gap → Gap
  | blanks cs => if isBreak c then lines (some c) [] else blanks (cs ++ [c])
  | lines first others => if isBreak c then lines first (others ++ [c]) else lines first others

def text : Gap → List Char
  | blanks cs => cs
  | lines (some '\n') [] => [' ']
  | lines (some '\n') others => others
  | lines first others => first.toList ++ others

def crossesLine : Gap → Bool
  | blanks _ => false
  | lines .. => true

@[simp] theorem text_none : none.text = [] := rfl

end Gap

end FilterQuery.Yaml
