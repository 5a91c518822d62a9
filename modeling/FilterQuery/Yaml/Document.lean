import FilterQuery.Yaml.Scalar
import FilterQuery.Yaml.Token.Scan

namespace FilterQuery.Yaml

inductive Place
  | block
  -- The key or the value of a pair in a block, where a sequence need not be indented.
  | blockPair
  | flow
  deriving DecidableEq

abbrev Handles := List (String × String)

def standardHandles : Handles := [("!", "!"), ("!!", "tag:yaml.org,2002:")]

def tagOf? (handles : Handles) (handle suffix : String) : Option String :=
  if handle.isEmpty then some suffix else (handles.lookup handle).map (· ++ suffix)

def readProperties (handles : Handles) : List (Token Nat) → Option (Properties × List (Token Nat))
  | .anchor n :: .tag handle suffix :: ts | .tag handle suffix :: .anchor n :: ts =>
    (tagOf? handles handle suffix).map fun tag => (⟨some n, some tag⟩, ts)
  | .tag handle suffix :: ts => (tagOf? handles handle suffix).map fun tag => (⟨none, some tag⟩, ts)
  | .anchor n :: ts => some (⟨some n, none⟩, ts)
  | ts => some (.none, ts)

def Properties.ofScalar (p : Properties) : Properties := if p.tag = some "!" then { p with tag := Option.none } else p

abbrev Follow := Token Nat → Bool

def endsItem (t : Token Nat) : Bool := t == .blockEntry || t == .blockEnd

def endsPart (t : Token Nat) : Bool := t == .key || t == .value || t == .blockEnd

def endsLooseItem (t : Token Nat) : Bool := t == .blockEntry || endsPart t

def endsFlowItem (t : Token Nat) : Bool := t == .flowEntry || t == .flowSequenceEnd

def endsFlowValue (t : Token Nat) : Bool := t == .flowEntry || t == .flowMappingEnd

def endsFlowKey (t : Token Nat) : Bool := t == .value || endsFlowValue t

mutual
def readNode (handles : Handles) (place : Place) :
    (fuel : Nat) → List (Token Nat) → Option (Yaml × List (Token Nat))
  | 0, _ => none
  | _ + 1, .reference n :: ts => some (.reference n, ts)
  | fuel + 1, ts => do
    let (p, ts) ← readProperties handles ts
    match ts with
    | .scalar style text :: ts => return (.scalar p.ofScalar style text, ts)
    | .flowSequence :: ts =>
      let (items, ts) ← readFlowItems handles fuel ts
      return (.sequence p items, ts)
    | .flowMapping :: ts =>
      let (pairs, ts) ← readFlowPairs handles fuel ts
      return (.mapping p pairs, ts)
    | ts =>
      if ts.head? == some .blockSequence && place != .flow then
        let (items, ts) ← readItems handles fuel ts.tail
        return (.sequence p items, ts)
      else if ts.head? == some .blockMapping && place != .flow then
        let (pairs, ts) ← readPairs handles fuel ts.tail
        return (.mapping p pairs, ts)
      else if ts.head? == some .blockEntry && place == .blockPair then
        let (items, ts) ← readLooseItems handles fuel ts
        return (.sequence p items, ts)
      else if p = .none then none
      else return (.scalar p .plain "", ts)

def readPart (handles : Handles) (place : Place) (follow : Follow) :
    (fuel : Nat) → List (Token Nat) → Option (Yaml × List (Token Nat))
  | 0, _ => none
  | fuel + 1, ts => if ts.head?.any follow then some (absent, ts) else readNode handles place fuel ts

def readItems (handles : Handles) : (fuel : Nat) → List (Token Nat) → Option (List Yaml × List (Token Nat))
  | fuel + 1, .blockEntry :: ts => do
    let (item, ts) ← readPart handles .block endsItem fuel ts
    let (items, ts) ← readItems handles fuel ts
    return (item :: items, ts)
  | _ + 1, .blockEnd :: ts => some ([], ts)
  | _, _ => none

def readLooseItems (handles : Handles) :
    (fuel : Nat) → List (Token Nat) → Option (List Yaml × List (Token Nat))
  | 0, _ => none
  | fuel + 1, .blockEntry :: ts => do
    let (item, ts) ← readPart handles .block endsLooseItem fuel ts
    let (items, ts) ← readLooseItems handles fuel ts
    return (item :: items, ts)
  | _ + 1, ts => some ([], ts)

def readPairs (handles : Handles) :
    (fuel : Nat) → List (Token Nat) → Option (List (Yaml × Yaml) × List (Token Nat))
  | fuel + 1, .key :: ts => do
    let (key, ts) ← readPart handles .blockPair endsPart fuel ts
    let (value, ts) ← readValue handles .blockPair endsPart fuel ts
    let (pairs, ts) ← readPairs handles fuel ts
    return ((key, value) :: pairs, ts)
  | _ + 1, .blockEnd :: ts => some ([], ts)
  | _, _ => none

def readValue (handles : Handles) (place : Place) (follow : Follow) :
    (fuel : Nat) → List (Token Nat) → Option (Yaml × List (Token Nat))
  | 0, _ => none
  | fuel + 1, .value :: ts => readPart handles place follow fuel ts
  | _ + 1, ts => some (absent, ts)

def readFlowItems (handles : Handles) :
    (fuel : Nat) → List (Token Nat) → Option (List Yaml × List (Token Nat))
  | 0, _ => none
  | _ + 1, .flowSequenceEnd :: ts => some ([], ts)
  | fuel + 1, ts => do
    let (item, ts) ← match ts with
      | .key :: ts => readSinglePair handles fuel ts
      | ts => readNode handles .flow fuel ts
    match ts with
    | .flowSequenceEnd :: ts => return ([item], ts)
    | .flowEntry :: ts =>
      let (items, ts) ← readFlowItems handles fuel ts
      return (item :: items, ts)
    | _ => none

/-- Reads a pair that is an item of a sequence, from behind the sign of its key on. A token in place of the
key is passed over. -/
def readSinglePair (handles : Handles) : (fuel : Nat) → List (Token Nat) → Option (Yaml × List (Token Nat))
  | 0, _ => none
  | fuel + 1, ts => do
    let (key, ts) ←
      if ts.head?.any fun t => t == .value || endsFlowItem t then some (absent, ts.tail)
      else readNode handles .flow fuel ts
    let (value, ts) ← readValue handles .flow endsFlowItem fuel ts
    return (.mapping .none [(key, value)], ts)

/-- Reads the pairs of a mapping in braces, from behind a brace or a comma on. A key that is not marked has
no value. -/
def readFlowPairs (handles : Handles) :
    (fuel : Nat) → List (Token Nat) → Option (List (Yaml × Yaml) × List (Token Nat))
  | 0, _ => none
  | _ + 1, .flowMappingEnd :: ts => some ([], ts)
  | fuel + 1, ts => do
    let (pair, ts) ← match ts with
      | .key :: ts => do
        let (key, ts) ← readPart handles .flow endsFlowKey fuel ts
        let (value, ts) ← readValue handles .flow endsFlowValue fuel ts
        pure ((key, value), ts)
      | ts => do
        let (key, ts) ← readNode handles .flow fuel ts
        pure ((key, absent), ts)
    match ts with
    | .flowMappingEnd :: ts => return ([pair], ts)
    | .flowEntry :: ts =>
      let (pairs, ts) ← readFlowPairs handles fuel ts
      return (pair :: pairs, ts)
    | _ => none
end

def readDirectives (versioned : Bool) (handles : Handles) :
    List (Token Nat) → Option (Handles × List (Token Nat))
  | .version major minor :: ts =>
    if versioned || major != 1 || (minor != 1 && minor != 2) then none else readDirectives true handles ts
  | .tagPrefix handle text :: ts =>
    if (handles.lookup handle).isSome then none else readDirectives versioned ((handle, text) :: handles) ts
  | ts => some (handles, ts)

def isDirective : Token Nat → Bool
  | .version .. | .tagPrefix .. => true
  | _ => false

def endsDocument (t : Token Nat) : Bool := isDirective t || t == .documentStart || t == .documentEnd

def readDocument (ts : List (Token Nat)) : Option (Yaml × List (Token Nat)) := do
  let fuel := 4 * ts.length + 4
  if ts.head?.any fun t => isDirective t || t == .documentStart then
    let (handles, ts) ← readDirectives false [] ts
    match ts with
    | .documentStart :: ts =>
      if ts.isEmpty then return (absent, [])
      else readPart (handles ++ standardHandles) .block endsDocument fuel ts
    | _ => none
  else if ts.isEmpty then return (absent, [])
  else readNode standardHandles .block fuel ts

mutual
def anchored : Yaml → List (Nat × Yaml)
  | y@(.scalar p _ _) => (p.anchor.map (·, y)).toList
  | y@(.sequence p items) => (p.anchor.map (·, y)).toList ++ anchoredItems items
  | y@(.mapping p pairs) => (p.anchor.map (·, y)).toList ++ anchoredPairs pairs
  | .reference _ => []

def anchoredItems : List Yaml → List (Nat × Yaml)
  | [] => []
  | y :: ys => anchored y ++ anchoredItems ys

def anchoredPairs : List (Yaml × Yaml) → List (Nat × Yaml)
  | [] => []
  | (k, v) :: ps => anchored k ++ (anchored v ++ anchoredPairs ps)
end

structure Document where
  root : Yaml
  anchors : List (Nat × Yaml)

def Document.ofRoot (root : Yaml) : Document := ⟨root, (anchored root).reverse⟩

def Document.resolve (d : Document) : Yaml → Yaml
  | .reference n => (d.anchors.lookup n).getD absent
  | y => y

def read? (text : String) : Option Document := do
  let cs := normalBreaks text.toList
  if !cs.all isAllowed then none
  else
    let ts ← numberAnchors [] (← tokens? cs)
    let (root, rest) ← readDocument ts
    if (rest.dropWhile (· == .documentEnd)).isEmpty then return .ofRoot root else none

end FilterQuery.Yaml
