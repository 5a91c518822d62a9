import FilterQuery.Number

namespace FilterQuery

inductive Json
  | null
  | bool (b : Bool)
  | int (n : Int)
  | real (x : Double)
  | string (s : String)
  | array (items : List Json)
  | object (members : List (String × Json))
  deriving Inhabited

namespace Json

def ofNat (n : Nat) : Json := .int n

def ofStrings (ss : List String) : Json := .array (ss.map .string)

def ofOption (f : α → Json) : Option α → Json
  | some a => f a
  | none => .null

def member? (key : String) (value : Option Json) : List (String × Json) :=
  match value with
  | some v => [(key, v)]
  | none => []

def ofDouble : Double → Json
  | .finite s m e h => .real (.finite s m e h)
  | _ => .null

def get? (key : String) : Json → Option Json
  | object members => (members.find? (·.1 == key)).map (·.2)
  | _ => none

def hexDigit (n : Nat) : Char := (Nat.digitChar n)

def escapeChar (c : Char) : List Char :=
  match c with
  | '"' => ['\\', '"']
  | '\\' => ['\\', '\\']
  | '\n' => ['\\', 'n']
  | '\r' => ['\\', 'r']
  | '\t' => ['\\', 't']
  | c =>
    if c = '\x08' then ['\\', 'b']
    else if c = '\x0c' then ['\\', 'f']
    else if c.toNat < 32 then ['\\', 'u', '0', '0', hexDigit (c.toNat / 16), hexDigit (c.toNat % 16)]
    else [c]

def quote (s : String) : String :=
  String.ofList ('"' :: s.toList.flatMap escapeChar ++ ['"'])

/-- The text of `d · 10 ^ k`: positional with a point, or with an exponent where the point would stand far from the
digits. -/
def realDigits (d : Nat) (k : Int) : List Char :=
  let ds := Number.digits d
  let point := ds.length + k
  if 0 ≤ k ∧ point ≤ 16 then Double.positional d k ++ ['.', '0']
  else if -5 < point ∧ point ≤ 16 then Double.positional d k
  else ds.take 1 ++ (if ds.length = 1 then [] else '.' :: ds.drop 1) ++ 'e' :: (toString (point - 1)).toList

def realText : Double → String
  | .finite negative m e _ =>
    let (d, k) := if m = 0 then (0, 0) else Double.shortest m e
    String.ofList ((if negative then ['-'] else []) ++ realDigits d k)
  | .infinite _ | .nan => "null"

mutual
def compact : Json → String
  | null => "null"
  | bool b => if b then "true" else "false"
  | int n => toString n
  | real x => realText x
  | string s => quote s
  | array items => "[" ++ compactItems items ++ "]"
  | object members => "\x7b" ++ compactMembers members ++ "\x7d"

def compactItems : List Json → String
  | [] => ""
  | [v] => v.compact
  | v :: vs => v.compact ++ "," ++ compactItems vs

def compactMembers : List (String × Json) → String
  | [] => ""
  | [(k, v)] => quote k ++ ":" ++ v.compact
  | (k, v) :: ms => quote k ++ ":" ++ v.compact ++ "," ++ compactMembers ms
end

def newline (depth : Nat) : String := "\n" ++ String.ofList (List.replicate (2 * depth) ' ')

mutual
def pretty (depth : Nat) : Json → String
  | array (v :: vs) => "[" ++ prettyItems (depth + 1) (v :: vs) ++ newline depth ++ "]"
  | object (m :: ms) => "\x7b" ++ prettyMembers (depth + 1) (m :: ms) ++ newline depth ++ "\x7d"
  | v => v.compact

def prettyItems (depth : Nat) : List Json → String
  | [] => ""
  | [v] => newline depth ++ v.pretty depth
  | v :: vs => newline depth ++ v.pretty depth ++ "," ++ prettyItems depth vs

def prettyMembers (depth : Nat) : List (String × Json) → String
  | [] => ""
  | [(k, v)] => newline depth ++ quote k ++ ": " ++ v.pretty depth
  | (k, v) :: ms => newline depth ++ quote k ++ ": " ++ v.pretty depth ++ "," ++ prettyMembers depth ms
end

mutual
def sorted : Json → Json
  | array vs => array (sortedItems vs)
  | object ms => object ((sortedMembers ms).mergeSort fun a b => !(b.1 < a.1))
  | j => j

def sortedItems : List Json → List Json
  | [] => []
  | v :: vs => v.sorted :: sortedItems vs

def sortedMembers : List (String × Json) → List (String × Json)
  | [] => []
  | (k, v) :: ms => (k, v.sorted) :: sortedMembers ms
end

end Json

end FilterQuery
