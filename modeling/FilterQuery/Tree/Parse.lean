import FilterQuery.Text.LowerCase
import FilterQuery.Text.Ranges
import FilterQuery.Tree.Grouping

/-! From a query to its tree. A reference is expanded by reading the query of its stack in turn, down to a
limit of depth; what a stack expands to is remembered for the rest of the reading, so that references to
it share one subtree. -/

namespace FilterQuery

namespace StackName

def isPlain (c : Char) : Bool :=
  ('a' ≤ c && c ≤ 'z') || ('0' ≤ c && c ≤ '9') || c == '_' || c == '-'

def dropAt : List Char → List Char
  | '@' :: cs => cs
  | cs => cs

def normalizeChars (cs : List Char) : List Char :=
  (Text.lowerCase (dropAt (Text.trim cs))).map fun c => if isPlain c then c else '-'

/-- Drops blanks at the ends and one leading `@`, lower-cases, and puts a hyphen for every other
character. -/
def normalize (name : String) : String := String.ofList (normalizeChars name.toList)

def greatestLength : Nat := 100

def isAllowed (name : String) : Bool :=
  name.toList.any (fun c => c.isAlphanum || c == '_') && name.length ≤ greatestLength

def valid? (name : String) : Option String :=
  let n := normalize name
  if isAllowed n then some n else none

end StackName

def Clause.ofQuery (query : String) : Except Token.Overrun (List Clause) := do
  let tokens ← Token.scanFrom 0 query.toList
  .ok (Clause.readAll query.length tokens)

abbrev Stacks := String → Option String

structure Expansion where
  site : Site
  root : Option Node
  faults : List Fault
  warnings : List Warning
  cyclic : Bool

/-- The expansions made so far. What met no cycle is kept for its stack and depth, and what met one for
the whole chain of stacks that led to it. -/
structure Memo where
  byDepth : List ((String × Nat) × Expansion)
  byChain : List (List String × Expansion)

namespace Memo

def empty : Memo := ⟨[], []⟩

def find? (memo : Memo) (name : String) (depth : Nat) (chain : List String) : Option Expansion :=
  (memo.byDepth.lookup (name, depth)).or (memo.byChain.lookup chain)

def insert (memo : Memo) (name : String) (depth : Nat) (chain : List String) (e : Expansion) : Memo :=
  if e.cyclic then { memo with byChain := (chain, e) :: memo.byChain }
  else { memo with byDepth := ((name, depth), e) :: memo.byDepth }

end Memo

structure Journey where
  memo : Memo
  cyclic : Bool

abbrev Reading := StateT Journey (Except Token.Overrun)

namespace Expansion

def referral (e : Expansion) (raw : String) : Referral :=
  let faults := e.faults.map (.within raw)
  let warnings := e.warnings.map (.within raw)
  match e.root with
  | some body => ⟨.expansion raw (some e.site) body, faults, warnings⟩
  | none => ⟨.reference raw, faults, warnings ++ [.emptyStack raw]⟩

def ofTree (t : Tree) (name : String) (depth : Nat) (chain : List String) (cyclic : Bool) : Expansion :=
  ⟨⟨name, depth, if cyclic then some chain else none⟩, t.root, t.problems.map (·.fault), t.warnings, cyclic⟩

end Expansion

def Reading.tree (refer : String → Reading Referral) (query : String) : Reading Tree := do
  let clauses ← Clause.ofQuery query
  let s ← Grouping.run refer .start clauses
  return s.tree query

def Reading.expand (refer : String → Reading Referral) (query name : String) (depth : Nat)
    (chain : List String) : Reading Expansion := do
  let outside := (← get).cyclic
  modify fun j => { j with cyclic := false }
  let t ← Reading.tree refer query
  let e := Expansion.ofTree t name depth chain (← get).cyclic
  set (⟨(← get).memo.insert name depth chain e, outside⟩ : Journey)
  return e

def cycleOf (name : String) (chain : List String) : List String := chain.dropWhile (· != name)

/-- Looks up the reference `raw` inside the stacks of `chain`, the outermost first. There is room for so
many more stacks; `limit` is the room there was at the outset. -/
def Reading.refer (saved : Stacks) (limit : Nat) : Nat → List String → String → Reading Referral
  | room, chain, raw => do
    let name := StackName.normalize raw
    let cycle := cycleOf name chain
    if !cycle.isEmpty then
      modify fun j => { j with cyclic := true }
      return ⟨.reference raw, [.cycle (cycle ++ [name])], []⟩
    match room with
    | 0 => return ⟨.reference raw, [.tooDeep limit], []⟩
    | room + 1 =>
      let inner := chain ++ [name]
      match (← get).memo.find? name chain.length inner with
      | some e =>
        modify fun j => { j with cyclic := j.cyclic || e.cyclic }
        return e.referral raw
      | none => match saved name with
        | none => return ⟨.reference raw, [], [.unknownStack raw]⟩
        | some query =>
          let e ← Reading.expand (Reading.refer saved limit room inner) query name chain.length inner
          modify fun j => { j with cyclic := j.cyclic || e.cyclic }
          return e.referral raw

namespace Tree

def unresolved (raw : String) : Referral := ⟨.reference raw, [], [.noStacks raw]⟩

def ofClauses (query : String) (clauses : List Clause) : Tree :=
  (Id.run (Grouping.run unresolved .start clauses)).tree query

def parse (query : String) : Except Token.Overrun Tree := do
  .ok (ofClauses query (← Clause.ofQuery query))

/-- Reads a query against saved stacks. References nest at most `limit` deep, and at least once; `origin`
is the stack whose own query is read. -/
def parseWith (saved : Stacks) (limit : Nat) (origin : Option String) (query : String) :
    Except Token.Overrun Tree := do
  let chain := (origin.map StackName.normalize).toList
  let limit := max limit 1
  let refer := Reading.refer saved limit (limit - chain.length) chain
  let (t, _) ← (Reading.tree refer query).run ⟨.empty, false⟩
  return t

end Tree

end FilterQuery
