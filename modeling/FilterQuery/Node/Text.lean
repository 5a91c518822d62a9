import FilterQuery.Node
import FilterQuery.Text.Alphabetic

/-! Canonical text of a node: a query that reads back as the node. Neutral terms and groups without
written children have no text. -/

namespace FilterQuery

namespace Text

def isPlain : List Char → Bool
  | [] => false
  | c :: cs => startsPlain c && cs.all fun d => startsPlain d || d == '/' || d == '-'
where
  startsPlain (c : Char) : Bool := isLetter c || isNumber c || c == '_'

def escapeQuotes : List Char → List Char
  | [] => []
  | c :: cs => if c = '"' ∨ c = '\\' then '\\' :: c :: escapeQuotes cs else c :: escapeQuotes cs

def quote (cs : List Char) : List Char := '"' :: escapeQuotes cs ++ ['"']

def value (cs : List Char) : List Char := if isPlain cs then cs else quote cs

def escapeSlashes : List Char → List Char
  | [] => []
  | c :: cs => if c = '/' then '\\' :: c :: escapeSlashes cs else c :: escapeSlashes cs

def regexLiteral (pattern flags : List Char) : List Char :=
  '/' :: escapeSlashes pattern ++ '/' :: flags

def fieldMark : Option String → List Char
  | some field => field.toList ++ [':']
  | none => []

def term (category : Category) (v : List Char) (stance : Stance) : List Char :=
  match stance.sign? with
  | none => []
  | some sign =>
    if category = .content && isPlain v then (if stance = .is then v else sign :: v)
    else sign :: category.name.toList ++ ':' :: value v

end Text

namespace Leaf

def text : Leaf → List Char
  | term category v stance => Text.term category v.toList stance
  | regex pattern flags field => Text.fieldMark field ++ Text.regexLiteral pattern.toList flags.toList
  | phrase v field => Text.fieldMark field ++ Text.quote v.toList
  | wildcard pattern field => Text.fieldMark field ++ pattern.toList
  | comparison category .within v (some upper) =>
    category.name.toList ++ ':' :: v.toList ++ '.' :: '.' :: upper.toList
  | comparison category .within v none =>
    category.name.toList ++ ':' :: '>' :: '=' :: v.toList
  | comparison category comparator v _ =>
    category.name.toList ++ ':' :: comparator.symbol.toList ++ v.toList

end Leaf

def Junction.separator : Junction → List Char
  | and => [' ', '&', ' ']
  | or => [' ', '|', ' ']

namespace Node

def needsParens (j : Junction) : Node → Bool
  | group .or false (_ :: _ :: _) => j == .and
  | _ => false

def parenthesized (cs : List Char) : List Char := '(' :: cs ++ [')']

/-- The text of a group from the texts of its children. A lone negated child stands behind its sign, but a
group among the children keeps the parentheses. -/
def groupText (j : Junction) (negated : Bool) (ns : List Node) (texts : List (List Char)) : List Char :=
  match texts, negated with
  | [], _ => []
  | [t], true => if ns.any isGroup then '!' :: parenthesized t else '!' :: t
  | ts, true => '!' :: parenthesized (j.separator.intercalate ts)
  | ts, false => j.separator.intercalate ts

mutual
def text : Node → List Char
  | leaf l => l.text
  | reference name => '@' :: name.toList
  | expansion name _ _ => '@' :: name.toList
  | group j negated ns => groupText j negated ns (childTexts j ns)

def childTexts (j : Junction) : List Node → List (List Char)
  | [] => []
  | n :: ns =>
    let t := if needsParens j n then parenthesized n.text else n.text
    if t.isEmpty then childTexts j ns else t :: childTexts j ns
end

def toQuery (n : Node) : String := String.ofList n.text

end Node

end FilterQuery
