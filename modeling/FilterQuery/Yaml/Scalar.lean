import FilterQuery.Yaml.Glyph

namespace FilterQuery.Yaml

open Glyph

def isFlowSign (c : Char) : Bool := c == ',' || c == '[' || c == ']' || c == '\x7b' || c == '\x7d'

def isIndicator (c : Char) : Bool :=
  isFlowSign c || ['#', '&', '*', '!', '|', '>', '\x27', '"', '%', '@', '\x60'].contains c

def beginsPlain (inFlow : Bool) (c : Char) (next : Option Char) : Bool :=
  if c = '-' then !next.any isBlank
  else if c = '?' ∨ c = ':' then !inFlow && !startsGap next
  else !isGap c && !isIndicator c

/-- Whether a plain scalar ends behind `gap` and in front of `gs`. Its lines have to be indented by `least`
columns if it is not in flow. -/
def endsPlain (inFlow : Bool) (least : Nat) (gap : Gap) (gs : List Glyph) : Bool :=
  match gs with
  | [] => true
  | g :: rest =>
    (gap.crossesLine && ((!inFlow && g.column < least) || isMarker gs))
      || (g.char == '#' && gap != .none)
      || (g.char == ':' && startsGap (next rest))
      || (inFlow && isFlowSign g.char)

/-- Reads on in a plain scalar, of which `before` has been read, last character first. Gives its text,
whether a line ends behind it, and what is left. -/
def readPlainFrom (inFlow : Bool) (least : Nat) (gap : Gap) (before : List Char) :
    List Glyph → Option (List Char × Bool × List Glyph)
  | [] => some (before.reverse, gap.crossesLine, [])
  | g :: gs =>
    if isGap g.char then
      if gap.crossesLine && g.char == '\t' && g.column < least then none
      else readPlainFrom inFlow least (gap.add g.char) before gs
    else if endsPlain inFlow least gap (g :: gs) then some (before.reverse, gap.crossesLine, g :: gs)
    else if inFlow && g.char == ':' && (next gs).any (fun c => isFlowSign c || c == '?') then none
    else readPlainFrom inFlow least .none (g.char :: (gap.text.reverse ++ before)) gs

def readPlain (inFlow : Bool) (least : Nat) (gs : List Glyph) : Option (List Char × Bool × List Glyph) :=
  readPlainFrom inFlow least .none [] gs

def isAllowed (c : Char) : Bool :=
  let n := c.toNat
  n == 0x9 || n == 0xa || n == 0xd || (0x20 ≤ n && n ≤ 0x7e) || n == 0x85 || (0xa0 ≤ n && n ≤ 0xfffd)
    || 0x10000 ≤ n

/-- The characters that are written as they are: no controls, no byte order mark and nothing beyond the
basic plane. -/
def isPrintable (c : Char) : Bool :=
  let n := c.toNat
  n == 0xa || (0x20 ≤ n && n ≤ 0x7e) || (0xa0 ≤ n && n ≤ 0xfffd && n != 0xfeff)

def escapes : List (Char × Char) :=
  [('0', '\x00'), ('a', '\x07'), ('b', '\x08'), ('t', '\t'), ('n', '\n'), ('v', '\x0b'), ('f', '\x0c'),
    ('r', '\r'), ('e', '\x1b'), ('"', '"'), ('\\', '\\'), ('N', '\x85'), ('_', '\xa0'), ('L', '\u2028'),
    ('P', '\u2029'), (' ', ' '), ('/', '/'), ('\t', '\t')]

def unescape? (c : Char) : Option Char := escapes.lookup c

def escapeLetter? (c : Char) : Option Char := (escapes.find? (·.2 == c)).map (·.1)

def hexDigit? (c : Char) : Option Nat :=
  if '0' ≤ c && c ≤ '9' then some (c.toNat - '0'.toNat)
  else if 'a' ≤ c && c ≤ 'f' then some (c.toNat - 'a'.toNat + 10)
  else if 'A' ≤ c && c ≤ 'F' then some (c.toNat - 'A'.toNat + 10)
  else none

def escapeWidth? (c : Char) : Option Nat :=
  if c = 'x' then some 2 else if c = 'u' then some 4 else if c = 'U' then some 8 else none

def hexChar? (width : Nat) (ds : List Char) : Option Char := do
  let n ← ds.foldlM (fun n d => (hexDigit? d).map (16 * n + ·)) 0
  if ds.length = width ∧ n.isValidChar then some (Char.ofNat n) else none

def hexDigits (n : Nat) : Nat → List Char
  | 0 => []
  | width + 1 => hexDigits (n / 16) width ++ [(Nat.digitChar (n % 16)).toUpper]

def escape (c : Char) : List Char :=
  match escapeLetter? c with
  | some e => ['\\', e]
  | none =>
    let n := c.toNat
    if n ≤ 0xff then '\\' :: 'x' :: hexDigits n 2
    else if n ≤ 0xffff then '\\' :: 'u' :: hexDigits n 4
    else '\\' :: 'U' :: hexDigits n 8

def needsEscape (c : Char) : Bool := !isPrintable c || isBreak c || c == '"' || c == '\\'

def doubleQuoted (cs : List Char) : List Char :=
  '"' :: cs.flatMap (fun c => if needsEscape c then escape c else [c]) ++ ['"']

def indent (width : Nat) (atStart : Bool) : List Char := if atStart then List.replicate width ' ' else []

def singleQuotedFrom (width : Nat) (atStart : Bool) : List Char → List Char
  | [] => indent width atStart
  | c :: cs =>
    if isBreak c then c :: singleQuotedFrom width true cs
    else indent width atStart ++ (if c = '\x27' then ['\x27', '\x27'] else [c]) ++ singleQuotedFrom width false cs

def singleQuoted (width : Nat) (cs : List Char) : List Char :=
  '\x27' :: singleQuotedFrom width false cs ++ ['\x27']

/-- Reads up to the closing double quote and gives what lies behind it. What has been read stands in
`before`, last character first. -/
def readDouble (gap : Gap) (before : List Char) (gs : List Glyph) : Option (List Char × List Glyph) :=
  match gs with
  | [] => none
  | g :: rest =>
    if isGap g.char then readDouble (gap.add g.char) before rest
    else if isMarker gs then none
    else
      let before := gap.text.reverse ++ before
      if g.char = '"' then some (before.reverse, rest)
      else if g.char = '\\' then match rest with
        | [] => none
        | e :: rest =>
          if isBreak e.char then readDouble .joined before rest
          else match escapeWidth? e.char with
            | some width => do
              let c ← hexChar? width (chars (rest.take width))
              readDouble .none (c :: before) (rest.drop width)
            | none => do readDouble .none ((← unescape? e.char) :: before) rest
      else readDouble .none (g.char :: before) rest
  termination_by gs.length
  decreasing_by all_goals simp_all; try omega

/-- Reads up to the closing single quote and gives what lies behind it. What has been read stands in
`before`, last character first. -/
def readSingle (gap : Gap) (before : List Char) : List Glyph → Option (List Char × List Glyph)
  | [] => none
  | [g] => if g.char = '\x27' then some ((gap.text.reverse ++ before).reverse, []) else none
  | g :: h :: rest =>
    if isGap g.char then readSingle (gap.add g.char) before (h :: rest)
    else if isMarker (g :: h :: rest) then none
    else
      let before := gap.text.reverse ++ before
      if g.char = '\x27' then
        if h.char = '\x27' then readSingle .none ('\x27' :: before) rest
        else some (before.reverse, h :: rest)
      else readSingle .none (g.char :: before) (h :: rest)

inductive Chomp
  | strip
  | clip
  | keep
  deriving DecidableEq

def Chomp.apply (leading others : List Char) : Chomp → List Char
  | strip => []
  | clip => leading
  | keep => leading ++ others

def chompSign? (g : Glyph) : Option Chomp :=
  if g.char = '-' then some .strip else if g.char = '+' then some .keep else none

def widthSign? (g : Glyph) : Option Nat :=
  if '0' ≤ g.char ∧ g.char ≤ '9' then some (g.char.toNat - '0'.toNat) else none

/-- Reads the signs behind the first one of a block scalar: what becomes of the last breaks, and by how many
columns its lines are indented more than those around, zero if that is not said. -/
def blockSigns? : List Glyph → Option (Chomp × Nat × List Glyph)
  | [] => some (.clip, 0, [])
  | g :: gs =>
    match chompSign? g, widthSign? g with
    | some chomp, _ => match gs.head?.bind widthSign? with
      | some 0 => none
      | some n => some (chomp, n, gs.tail)
      | none => some (chomp, 0, gs)
    | none, some 0 => none
    | none, some n => match gs.head?.bind chompSign? with
      | some chomp => some (chomp, n, gs.tail)
      | none => some (.clip, n, gs)
    | none, none => some (.clip, 0, g :: gs)

/-- Passes over the indentation of `width` columns and over empty lines. Gives the breaks of those, the column
that the deepest blanks reach, and what is left. While the width is still zero, all spaces are indentation;
a tab is none. -/
def readBreaks (width deepest : Nat) (breaks : List Char) : List Glyph →
    Option (List Char × Nat × List Glyph)
  | [] => some (breaks.reverse, deepest, [])
  | g :: gs =>
    let inside := width == 0 || g.column < width
    if inside && g.char == ' ' then readBreaks width (max deepest (g.column + 1)) breaks gs
    else if inside && g.char == '\t' then none
    else if isBreak g.char then readBreaks width deepest (g.char :: breaks) gs
    else some (breaks.reverse, deepest, g :: gs)

/-- How far the reading of a block scalar has come: the break behind the last line, whether that line began
with a blank, the breaks of the empty lines after it, and the text so far, last character first. -/
structure BlockState where
  leading : List Char
  afterBlank : Bool
  others : List Char
  before : List Char

def BlockState.joined (s : BlockState) (folded startsBlank : Bool) : List Char :=
  let breaks :=
    if folded && s.leading == ['\n'] && !s.afterBlank && !startsBlank then
      if s.others.isEmpty then [' '] else s.others
    else s.leading ++ s.others
  breaks.reverse ++ s.before

def readBlockLines (folded : Bool) (width : Nat) : (fuel : Nat) → BlockState → List Glyph →
    Option (BlockState × List Glyph)
  | 0, s, gs => some (s, gs)
  | fuel + 1, s, gs =>
    match gs with
    | [] => some (s, [])
    | g :: _ =>
      if g.column ≠ width then some (s, gs)
      else do
        let line := chars (gs.takeWhile (!isBreak ·.char))
        let behind := skipLine gs
        let leading := (next behind).toList
        let (others, _, rest) ← readBreaks width 0 [] behind.tail
        let before := line.reverse ++ s.joined folded (isBlank g.char)
        readBlockLines folded width fuel ⟨leading, isBlank g.char, others, before⟩ rest

/-- Reads a block scalar from behind its first sign on; `least` is by how many columns its lines are indented
at least. -/
def readBlock (folded : Bool) (least : Nat) (gs : List Glyph) : Option (List Char × List Glyph) := do
  let (chomp, given, gs) ← blockSigns? gs
  let gs ← endLine? gs
  let width := if given = 0 then 0 else least - 1 + given
  let (others, deepest, gs) ← readBreaks width 0 [] gs
  let width := if width = 0 then max (max deepest least) 1 else width
  let (s, rest) ← readBlockLines folded width gs.length ⟨[], false, others, []⟩ gs
  return (s.before.reverse ++ chomp.apply s.leading s.others, rest)

end FilterQuery.Yaml
