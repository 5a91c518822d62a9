import FilterQuery.Json.Access
import FilterQuery.Node
import FilterQuery.Tree

namespace FilterQuery

namespace Leaf

def members : Leaf → List (String × Json)
  | term category value stance =>
    [("type", .string "catuskoti"), ("category", .string category.name), ("value", .string value),
      ("state", .string stance.name)]
  | regex pattern flags field =>
    [("type", .string "regex"), ("pattern", .string pattern), ("flags", .string flags)]
      ++ Json.member? "field" (field.map .string)
  | phrase text field =>
    [("type", .string "phrase"), ("phrase", .string text)] ++ Json.member? "field" (field.map .string)
  | wildcard pattern field =>
    [("type", .string "wildcard"), ("pattern", .string pattern)]
      ++ Json.member? "field" (field.map .string)
  | comparison category comparator value upper =>
    [("type", .string "comparison"), ("category", .string category.name),
      ("operator", .string comparator.symbol), ("value", .string value)]
      ++ Json.member? "endValue" (upper.map .string)

end Leaf

namespace Node

mutual
def toJson : Node → Json
  | leaf l => .object l.members
  | reference name => .object [("type", .string "stackRef"), ("name", .string name)]
  | expansion name _ body =>
    .object [("type", .string "stackRef"), ("name", .string name), ("resolved", body.toJson)]
  | group j negated ns =>
    .object [("type", .string "group"), ("kind", .string j.name), ("children", .array (allToJson ns)),
      ("negated", .bool negated)]

def allToJson : List Node → List Json
  | [] => []
  | n :: ns => n.toJson :: allToJson ns
end

end Node

def Junction.ofName? : String → Option Junction
  | "AND" => some .and
  | "OR" => some .or
  | _ => none

namespace Node

inductive Form
  | term | regex | phrase | wildcard | comparison | reference | group
  deriving DecidableEq

namespace Form

def all : List Form := [term, regex, phrase, wildcard, comparison, reference, group]

def name : Form → String
  | term => "catuskoti"
  | regex => "regex"
  | phrase => "phrase"
  | wildcard => "wildcard"
  | comparison => "comparison"
  | reference => "stackRef"
  | group => "group"

def keys : Form → List String
  | term => ["category", "value", "state"]
  | regex => ["pattern", "flags", "field"]
  | phrase => ["phrase", "field"]
  | wildcard => ["pattern", "field"]
  | comparison => ["category", "operator", "value", "endValue"]
  | reference => ["name", "resolved"]
  | group => ["kind", "children", "negated"]

def ofJson? (numbered : Bool) : Json → Option Form
  | .string s => all.find? (·.name == s)
  | .int (.ofNat n) => if numbered then all[n]? else none
  | _ => none

end Form

def form? (numbered : Bool) : Json → Option Form
  | .array (v :: _) => Form.ofJson? numbered v
  | j => (j.get? "type").bind (Form.ofJson? numbered)

end Node

open Json in
def Leaf.ofJson? (form : Node.Form) (j : Json) : Option Leaf := do
  let categoryOf (v : Json) := (choice? isNullOrEmpty v).bind fun s => Category.all.find? (·.name == s)
  match form with
  | .term =>
    return .term (← required? categoryOf "category" j) (← required? asString? "value" j)
      (← required? (fun v => (choice? isNullOrEmpty v).bind Stance.ofName?) "state" j)
  | .regex =>
    return .regex (← required? asString? "pattern" j) (← required? asString? "flags" j)
      (← optional? asString? "field" j)
  | .phrase => return .phrase (← required? asString? "phrase" j) (← optional? asString? "field" j)
  | .wildcard => return .wildcard (← required? asString? "pattern" j) (← optional? asString? "field" j)
  | .comparison =>
    return .comparison (← required? categoryOf "category" j)
      (← required? (fun v => (choice? isNullOrEmpty v).bind Comparator.ofSymbol?) "operator" j)
      (← required? asString? "value" j) (← optional? asString? "endValue" j)
  | .reference | .group => none

open Json in
/-- Reads a node. Inside of a node, forms may be `numbered`. Subtrees of references are copies of their
own. -/
def Node.read? (numbered : Bool) (j : Json) : Option Node := do
  let form ← form? numbered j
  match _hr : j.record? ("type" :: form.keys) with
  | none => none
  | some r => match form with
    | .reference =>
      let name ← required? asString? "name" r
      match _h : r.get? "resolved" with
      | none | some .null => return .reference name
      | some body => return .expansion name none (← Node.read? true body)
    | .group =>
      let junction ← required? (fun v => (choice? isNullOrEmpty v).bind Junction.ofName?) "kind" r
      let negated ← withDefault? asBool? "negated" false r
      match _h : r.get? "children" with
      | some (.array items) =>
        let children ← items.attach.mapM fun ⟨v, _⟩ => Node.read? true v
        return .group junction negated children
      | _ => none
    | form => (Leaf.ofJson? form r).map .leaf
  termination_by sizeOf j
  decreasing_by
    · exact Json.sizeOf_get?_record? ‹_› ‹_›
    · have h1 := Json.sizeOf_get?_record? ‹_› ‹_›
      have h2 := List.sizeOf_lt_of_mem ‹_›
      simp only [Json.array.sizeOf_spec] at h1
      omega

def Node.ofJson? (j : Json) : Option Node := Node.read? false j

def Problem.toJson (p : Problem) : Json :=
  .object [("message", .string p.fault.message), ("position", .ofNat p.position),
    ("length", .ofNat p.length)]

open Json in
def Problem.ofJson? (j : Json) : Option Problem := do
  let j ← j.record? ["message", "position", "length"]
  return ⟨.reported (← required? asString? "message" j),
    ← required? (asNatBelow? Number.wordLimit) "position" j,
    ← required? (asNatBelow? Number.wordLimit) "length" j⟩

namespace Tree

def toJson (t : Tree) : Json :=
  .object [("root", Json.ofOption Node.toJson t.root), ("originalQuery", .string t.query),
    ("parseErrors", .array (t.problems.map Problem.toJson)),
    ("parseWarnings", .ofStrings (t.warnings.map Warning.message))]

open Json in
def ofJson? (j : Json) : Option Tree := do
  let j ← j.record? ["root", "originalQuery", "parseErrors", "parseWarnings"]
  let warnings ← withDefault? (listOf? asString?) "parseWarnings" [] j
  return ⟨← optional? Node.ofJson? "root" j, ← required? asString? "originalQuery" j,
    ← withDefault? (listOf? Problem.ofJson?) "parseErrors" [] j, warnings.map .reported⟩

end Tree

end FilterQuery
