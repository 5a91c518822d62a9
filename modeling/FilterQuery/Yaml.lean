namespace FilterQuery

namespace Yaml

inductive Style
  | plain
  | single
  | double
  | literal
  | folded
  deriving DecidableEq

/-- What may be said of a node in front of it: the number of its anchor, by which aliases refer to it, and
its tag. -/
structure Properties where
  anchor : Option Nat
  tag : Option String
  deriving DecidableEq, Inhabited

def Properties.none : Properties := ⟨Option.none, Option.none⟩

end Yaml

inductive Yaml
  | scalar (properties : Yaml.Properties) (style : Yaml.Style) (text : String)
  | sequence (properties : Yaml.Properties) (items : List Yaml)
  | mapping (properties : Yaml.Properties) (pairs : List (Yaml × Yaml))
  | reference (anchor : Nat)
  deriving Inhabited

namespace Yaml

def plain (text : String) : Yaml := scalar .none .plain text

def quoted (text : String) : Yaml := scalar .none .double text

def absent : Yaml := plain ""

def text? : Yaml → Option String
  | scalar _ _ text => some text
  | _ => Option.none

inductive Token (α : Type)
  | version (major minor : Nat)
  | tagPrefix (handle text : String)
  | documentStart
  | documentEnd
  | blockSequence
  | blockMapping
  | blockEnd
  | flowSequence
  | flowSequenceEnd
  | flowMapping
  | flowMappingEnd
  | blockEntry
  | flowEntry
  | key
  | value
  | reference (name : α)
  | anchor (name : α)
  | tag (handle suffix : String)
  | scalar (style : Style) (text : String)
  deriving DecidableEq

/-- Gives numbers to anchors, where `names` holds the names in use. An alias needs an anchor of its name
before it. -/
def numberAnchors (names : List (String × Nat)) : List (Token String) → Option (List (Token Nat))
  | [] => some []
  | t :: ts =>
    let go (u : Token Nat) := (numberAnchors names ts).map (u :: ·)
    match t with
    | .anchor name =>
      let n := names.length
      (numberAnchors ((name, n) :: names.filter (·.1 != name)) ts).map (.anchor n :: ·)
    | .reference name => (names.lookup name).bind fun n => go (.reference n)
    | .version major minor => go (.version major minor)
    | .tagPrefix handle text => go (.tagPrefix handle text)
    | .documentStart => go .documentStart
    | .documentEnd => go .documentEnd
    | .blockSequence => go .blockSequence
    | .blockMapping => go .blockMapping
    | .blockEnd => go .blockEnd
    | .flowSequence => go .flowSequence
    | .flowSequenceEnd => go .flowSequenceEnd
    | .flowMapping => go .flowMapping
    | .flowMappingEnd => go .flowMappingEnd
    | .blockEntry => go .blockEntry
    | .flowEntry => go .flowEntry
    | .key => go .key
    | .value => go .value
    | .tag handle suffix => go (.tag handle suffix)
    | .scalar style text => go (.scalar style text)

end Yaml

end FilterQuery
