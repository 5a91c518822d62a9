import FilterQuery.Number
import FilterQuery.Yaml.Scalar
import FilterQuery.Yaml

namespace FilterQuery.Yaml.Token

open Glyph

def isNameChar (c : Char) : Bool :=
  ('a' ≤ c && c ≤ 'z') || ('A' ≤ c && c ≤ 'Z') || Number.isDigit c || c == '_' || c == '-'

def span (p : Char → Bool) (gs : List Glyph) : List Char × List Glyph :=
  (chars (gs.takeWhile (p ·.char)), gs.dropWhile (p ·.char))

def readName (gs : List Glyph) : Option (String × List Glyph) :=
  let (name, rest) := span isNameChar gs
  let ends := startsGap (next rest) || (next rest).any fun c => "?:,]\x7d%@\x60".toList.contains c
  if name.isEmpty || !ends then none else some (String.ofList name, rest)

def isTagChar (wide : Bool) (c : Char) : Bool :=
  isNameChar c || ";/?:@&=+$.%!~*\x27()".toList.contains c || (wide && ",[]".toList.contains c)

def bytesAfter? (first : Nat) : Option Nat :=
  if first < 0x80 then some 0
  else if 0xc0 ≤ first ∧ first < 0xe0 then some 1
  else if 0xe0 ≤ first ∧ first < 0xf0 then some 2
  else if 0xf0 ≤ first ∧ first < 0xf8 then some 3
  else none

/-- The bytes of a tag, in which a percent sign escapes a byte. So many bytes of a character are `missing`,
which all have to be escaped. -/
def tagBytes? (missing : Nat) : List Char → Option (List UInt8)
  | [] => if missing = 0 then some [] else none
  | '%' :: a :: b :: cs => do
    let n := 16 * (← hexDigit? a) + (← hexDigit? b)
    let missing ←
      if missing = 0 then bytesAfter? n else if 0x80 ≤ n ∧ n < 0xc0 then some (missing - 1) else none
    return n.toUInt8 :: (← tagBytes? missing cs)
  | c :: cs =>
    if c = '%' ∨ missing ≠ 0 then none else (tagBytes? 0 cs).map (c.toNat.toUInt8 :: ·)

def tagText? (cs : List Char) : Option String :=
  (tagBytes? 0 cs).map fun bytes => (String.fromUTF8? ⟨bytes.toArray⟩).getD "\ufffd"

def readTagText (wide : Bool) (gs : List Glyph) : Option (String × List Glyph) := do
  let (cs, rest) := span (isTagChar wide) gs
  if cs.isEmpty then none else return (← tagText? cs, rest)

def readHandle : List Glyph → Option (List Char × Bool × List Glyph)
  | [] => none
  | g :: gs =>
    if g.char ≠ '!' then none
    else
      let (name, rest) := span isNameChar gs
      if next rest = some '!' then some (name, true, rest.tail) else some (name, false, rest)

def handleText (name : List Char) : String := String.ofList ('!' :: name ++ ['!'])

def readTag (inFlow : Bool) (gs : List Glyph) : Option (Token String × List Glyph) := do
  let (t, rest) ←
    if next gs.tail = some '<' then do
      let (text, rest) ← readTagText true (gs.drop 2)
      if next rest = some '>' then some (tag "" text, rest.tail) else none
    else do
      let (name, isHandle, rest) ← readHandle gs
      if isHandle then do
        let (text, rest) ← readTagText false rest
        some (tag (handleText name) text, rest)
      else do
        let (cs, rest) := span (isTagChar false) rest
        let text ← tagText? (name ++ cs)
        some (if text.isEmpty then tag "" "!" else tag "!" text, rest)
  if startsGap (next rest) || (inFlow && next rest == some ',') then some (t, rest) else none

def readDigits (gs : List Glyph) : Option (Nat × List Glyph) :=
  let (ds, rest) := span Number.isDigit gs
  if ds.isEmpty || 9 < ds.length then none else some (Number.ofDigits ds, rest)

def readDirectiveValue (name : List Char) (gs : List Glyph) : Option (Token String × List Glyph) :=
  if name = "YAML".toList then do
    let (major, rest) ← readDigits (skipBlanks gs)
    if next rest ≠ some '.' then none
    let (minor, rest) ← readDigits rest.tail
    return (version major minor, rest)
  else if name = "TAG".toList then do
    let (name, isHandle, rest) ← readHandle (skipBlanks gs)
    if !isHandle && !name.isEmpty then none
    if !(next rest).any isBlank then none
    let (text, rest) ← readTagText true (skipBlanks rest)
    if !startsGap (next rest) then none
    return (tagPrefix (if isHandle then handleText name else "!") text, rest)
  else none

def readDirective (gs : List Glyph) : Option (Token String × List Glyph) := do
  let (name, rest) := span isNameChar gs
  if name.isEmpty || !startsGap (next rest) then none
  let (t, rest) ← readDirectiveValue name rest
  return (t, ← endLine? rest)

end FilterQuery.Yaml.Token
