import FilterQuery.Json
import FilterQuery.Yaml.Access

namespace FilterQuery.Yaml

mutual
def ofJson : Json → Yaml
  | .null => plain "null"
  | .bool b => plain (if b then "true" else "false")
  | .int n => plain (toString n)
  | .real x => plain (Json.realText x)
  | .string s => quoted s
  | .array items => sequence .none (allOfJson items)
  | .object members => mapping .none (pairsOfJson members)

def allOfJson : List Json → List Yaml
  | [] => []
  | v :: vs => ofJson v :: allOfJson vs

def pairsOfJson : List (String × Json) → List (Yaml × Yaml)
  | [] => []
  | (k, v) :: ms => (quoted k, ofJson v) :: pairsOfJson ms
end

def wholeJson? (cs : List Char) : Option Json :=
  (whole? cs).bind fun n =>
    if -(Number.twoTo 127 : Int) ≤ n ∧ n < Number.twoTo 128 then some (.int n) else none

def realJson? (cs : List Char) : Option Json :=
  if isZeroFilled cs then none else (real? cs).map Json.ofDouble

def plainJson (s : String) : Json :=
  let cs := s.toList
  if cs.isEmpty || isNull cs then .null
  else ((truth? cs).map Json.bool <|> wholeJson? cs <|> realJson? cs).getD (.string s)

def taggedJson? (tag : String) (s : String) : Option Json :=
  let cs := s.toList
  if tag = coreTag "null" then if isNull cs then some .null else none
  else if tag = coreTag "bool" then (truth? cs).map .bool
  else if tag = coreTag "int" then wholeJson? cs
  else if tag = coreTag "float" then (real? cs).map Json.ofDouble
  else none

def scalarJson (p : Properties) (style : Style) (s : String) : Json :=
  match p.tag with
  | none => if style = .plain then plainJson s else .string s
  | some tag =>
    if tag.startsWith "!" && style == .plain then plainJson s else (taggedJson? tag s).getD (.string s)

def depthLimit : Nat := 128

/-- The value a node stands for if no type is asked for; `fuel` bounds the depth, for an alias may stand
inside its own node. Keys become strings. -/
def Document.jsonOf (d : Document) : (fuel : Nat) → Yaml → Json
  | 0, _ => .null
  | fuel + 1, y => match d.resolve y with
    | .scalar p style s => scalarJson p style s
    | .sequence _ items => .array (items.map (d.jsonOf fuel))
    | .mapping _ pairs =>
      .object (pairs.map fun (k, v) => (((d.resolve k).text?).getD "", d.jsonOf fuel v))
    | .reference _ => .null

def Document.toJson (d : Document) : Json := d.jsonOf depthLimit d.root

end FilterQuery.Yaml
