import FilterQuery.Number
import FilterQuery.Text.LowerCase
import FilterQuery.Yaml
import FilterQuery.Yaml.Scalar

namespace FilterQuery.Yaml

def isReserved (cs : List Char) : Bool :=
  ["y", "yes", "n", "no", "on", "off", "true", "false", "null", "nil", "~", "nan"].any
    (·.toList == Text.lowerCase cs)

def isAmbiguous (cs : List Char) : Bool :=
  cs.head?.all (fun c => Number.isDigit c || c == '-' || c == '.' || c == '+') || isReserved cs

/-- Whether a colon or a comment sign inside a text would end a plain scalar; `afterBlank` tells of the
character in front. -/
def hasInnerSign (afterBlank : Bool) : List Char → Bool
  | [] => false
  | c :: cs => (c == ':' && startsGap cs.head?) || (c == '#' && afterBlank) || hasInnerSign (isGap c) cs

def hasFirstSign : List Char → Bool
  | [] => false
  | c :: cs => isIndicator c || ((c == '?' || c == ':' || c == '-') && startsGap cs.head?)
    || (c :: cs).take 3 == ['-', '-', '-'] || (c :: cs).take 3 == ['.', '.', '.']

def hasSpaceAt (beforeBreak : Bool) : List Char → Bool
  | c :: d :: cs =>
    (if beforeBreak then c == ' ' && isBreak d else isBreak c && d == ' ') || hasSpaceAt beforeBreak (d :: cs)
  | _ => false

def isMargin (c : Option Char) : Bool := c.any fun c => c == ' ' || isBreak c

def allowsPlain (cs : List Char) : Bool :=
  cs.all (fun c => isPrintable c && !isBreak c) && !isMargin cs.head? && !isMargin cs.getLast?
    && !hasFirstSign cs && !hasInnerSign true cs

def allowsSingle (cs : List Char) : Bool :=
  cs.all isPrintable && !hasSpaceAt true cs && !hasSpaceAt false cs

def allowsLiteral (cs : List Char) : Bool :=
  cs.all isPrintable && !hasSpaceAt true cs && cs.getLast? != some ' '

def Style.ofText (cs : List Char) : Style :=
  if cs.contains '\n' then if allowsLiteral cs then .literal else .double
  else if allowsPlain cs && !isAmbiguous cs then .plain
  else if allowsSingle cs then .single
  else .double

/-- The signs of a literal scalar: an indentation if its first line does not show one, and what becomes
of the line breaks at its end. -/
def literalSigns (cs : List Char) : List Char :=
  (if isMargin cs.head? then ['2'] else [])
    ++ match cs.reverse with
      | c :: rest =>
        if !isBreak c then ['-'] else match rest with
          | [] => ['+']
          | d :: _ => if isBreak d then ['+'] else []
      | [] => ['-']

def literalLines (width : Nat) (atStart : Bool) : List Char → List Char
  | [] => if atStart then [] else ['\n']
  | c :: cs =>
    if isBreak c then c :: literalLines width true cs
    else indent width atStart ++ c :: literalLines width false cs

/-- A scalar as the value of a key, and the end of its line. What it has of further lines is indented by
`width` columns. -/
def Style.lines (width : Nat) (cs : List Char) : Style → List Char
  | plain => cs ++ ['\n']
  | single => singleQuoted width cs ++ ['\n']
  | double => doubleQuoted cs ++ ['\n']
  | literal | folded => '|' :: literalSigns cs ++ '\n' :: literalLines width true cs

structure Line where
  key : String
  style : Style
  text : String

namespace Line

def word (key : String) (cs : List Char) : Line := ⟨key, .plain, String.ofList cs⟩

def int (key : String) (n : Int) : Line := word key (toString n).toList

def nat (key : String) (n : Nat) : Line := int key n

def bool (key : String) (b : Bool) : Line := word key (if b then "true" else "false").toList

def string (key text : String) : Line := ⟨key, .ofText text.toList, text⟩

def chars (margin : Nat) (l : Line) : List Char :=
  l.key.toList ++ ':' :: ' ' :: l.style.lines (margin + 2) l.text.toList

end Line

def mappingText (lines : List Line) : List Char := lines.flatMap (Line.chars 0)

/-- A mapping as an entry of a sequence at the left margin: the sign of the entry stands in front of its first
line, and the others are indented by as much. -/
def entryText : List Line → List Char
  | [] => []
  | l :: lines => '-' :: ' ' :: l.chars 2 ++ lines.flatMap fun l => ' ' :: ' ' :: l.chars 2

mutual
def flowText : Yaml → List Char
  | scalar _ .plain s => s.toList
  | scalar _ _ s => doubleQuoted s.toList
  | sequence _ items => '[' :: itemsText items ++ [']']
  | mapping _ pairs => '\x7b' :: pairsText pairs ++ ['\x7d']
  | reference _ => []

def itemsText : List Yaml → List Char
  | [] => []
  | [v] => v.flowText
  | v :: vs => v.flowText ++ ',' :: itemsText vs

def pairsText : List (Yaml × Yaml) → List Char
  | [] => []
  | [(k, v)] => k.flowText ++ ':' :: v.flowText
  | (k, v) :: ps => k.flowText ++ ':' :: v.flowText ++ ',' :: pairsText ps
end

def flowDocument (y : Yaml) : String := String.ofList (y.flowText ++ ['\n'])

end FilterQuery.Yaml
