import FilterQuery.Number
import FilterQuery.Yaml.Document

namespace FilterQuery.Yaml

def isNull (cs : List Char) : Bool :=
  ["null", "Null", "NULL", "~"].any (·.toList == cs)

def truth? (cs : List Char) : Option Bool :=
  if ["true", "True", "TRUE"].any (·.toList == cs) then some true
  else if ["false", "False", "FALSE"].any (·.toList == cs) then some false
  else none

def digitUpTo36? (c : Char) : Option Nat :=
  if '0' ≤ c && c ≤ '9' then some (c.toNat - '0'.toNat)
  else if 'a' ≤ c.toLower && c.toLower ≤ 'z' then some (c.toLower.toNat - 'a'.toNat + 10)
  else none

def digitsIn? (base : Nat) (cs : List Char) : Option Nat :=
  if cs.isEmpty then none
  else cs.foldlM (fun n c => (digitUpTo36? c).bind fun d => if d < base then some (base * n + d) else none) 0

def magnitude? (cs : List Char) : Option Nat :=
  match cs with
  | '0' :: 'x' :: ds => digitsIn? 16 ds
  | '0' :: 'o' :: ds => digitsIn? 8 ds
  | '0' :: 'b' :: ds => digitsIn? 2 ds
  | ds => digitsIn? 10 ds

def isZeroFilled (cs : List Char) : Bool :=
  let ds := match cs with
    | '-' :: ds | '+' :: ds => ds
    | ds => ds
  1 < ds.length && ds.head? == some '0' && ds.all Number.isDigit

def whole? (cs : List Char) : Option Int :=
  if isZeroFilled cs then none
  else match cs with
    | '-' :: ds => (magnitude? ds).map fun n => -(n : Int)
    | '+' :: ds => (magnitude? ds).map Int.ofNat
    | ds => (magnitude? ds).map Int.ofNat

def natBelow? (limit : Nat) (cs : List Char) : Option Nat :=
  if cs.head? = some '-' then none
  else (whole? cs).bind fun n => if n.toNat < limit then some n.toNat else none

def int64? (cs : List Char) : Option Int :=
  (whole? cs).bind fun n => if Number.fitsInt n then some n else none

def real? (cs : List Char) : Option Double :=
  let unsigned := match cs with
    | '+' :: ds => ds
    | ds => ds
  if [".inf", ".Inf", ".INF"].any (·.toList == unsigned) then some (.infinite false)
  else if ["-.inf", "-.Inf", "-.INF"].any (·.toList == cs) then some (.infinite true)
  else if [".nan", ".NaN", ".NAN"].any (·.toList == cs) then some .nan
  else match Double.read? cs with
    | some (.finite s m e h) => some (.finite s m e h)
    | _ => none

def coreTag (type : String) : String := "tag:yaml.org,2002:" ++ type

def isVoid : Yaml → Bool
  | scalar _ .plain s => s.isEmpty || isNull s.toList
  | _ => false

/-- The text of a scalar that may be read as a value of `type`: it is written plainly, or on lines of its own
behind the tag of the type. -/
def typedText? (type : String) : Yaml → Option (List Char)
  | scalar _ .plain s => some s.toList
  | scalar p .literal s => if p.tag = some (coreTag type) then some s.toList else none
  | _ => none

def asNatBelow? (limit : Nat) (y : Yaml) : Option Nat := (y.typedText? "int").bind (natBelow? limit)

def asInt64? (y : Yaml) : Option Int := (y.typedText? "int").bind int64?

def asBool? (y : Yaml) : Option Bool := (y.typedText? "bool").bind truth?

/-- Reads a value that may be null. A tag makes it a value, but for that of null, behind which nothing else
may stand. -/
def asOption? (read : Yaml → Option α) (y : Yaml) : Option (Option α) :=
  match y with
  | scalar ⟨_, some tag⟩ .plain s =>
    if tag ≠ coreTag "null" then (read y).map some else if isNull s.toList then some none else none
  | y => if y.isVoid then some none else (read y).map some

def asName? (y : Yaml) : Option String :=
  match y with
  | scalar ⟨_, some tag⟩ _ s =>
    match tag.toList with
    | '!' :: name => if y.isVoid then some (String.ofList (if name.isEmpty then ['!'] else name)) else none
    | _ => some s
  | y => y.text?

namespace Document

def items? (d : Document) : Yaml → Option (List Yaml)
  | sequence _ items => some (items.map d.resolve)
  | scalar _ .plain s => if s.isEmpty then some [] else none
  | _ => none

def members? (d : Document) : Yaml → Option (List (String × Yaml))
  | mapping _ pairs => pairs.mapM fun (k, v) => (d.resolve k).text?.map (·, d.resolve v)
  | scalar _ .plain s => if s.isEmpty then some [] else none
  | _ => none

def listOf? (d : Document) (read : Yaml → Option α) (y : Yaml) : Option (List α) := do
  (← d.items? y).mapM read

end Document

def member? (key : String) (members : List (String × Yaml)) : Option (Option Yaml) :=
  match members.filter (·.1 == key) with
  | [] => some none
  | [(_, v)] => some (some v)
  | _ => none

def required? (read : Yaml → Option α) (key : String) (members : List (String × Yaml)) : Option α := do
  read (← ← member? key members)

def withDefault? (read : Yaml → Option α) (key : String) (default : α)
    (members : List (String × Yaml)) : Option α := do
  match ← member? key members with
  | none => return default
  | some v => read v

def optional? (read : Yaml → Option α) (key : String) (members : List (String × Yaml)) :
    Option (Option α) :=
  withDefault? (asOption? read) key none members

end FilterQuery.Yaml
