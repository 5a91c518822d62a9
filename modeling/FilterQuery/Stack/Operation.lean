import FilterQuery.Number
import FilterQuery.Stack
import FilterQuery.Text.Ranges

namespace FilterQuery

inductive Stack.Event
  | created (name : String)
  | updated (name : String)
  | renamed (origin target : String)
  | deleted (name : String)
  | shortcutChanged (name : String) (shortcut : Option Nat)
  | used (name : String)
  deriving DecidableEq

inductive Stack.Refusal
  | invalidName
  | duplicateName (name : String)
  | limitReached (limit : Nat)
  | invalidShortcut (shortcut : Nat)
  | notFound (name : String)
  | storage (cause : String)
  | overrun
  deriving DecidableEq

def Stack.Refusal.message : Stack.Refusal → String
  | invalidName =>
    s!"stack name must contain a letter, digit or '_' and be at most {StackName.greatestLength} characters"
  | duplicateName name => s!"a stack named @{name} already exists"
  | limitReached limit => s!"stack limit reached ({limit} stacks)"
  | invalidShortcut shortcut => s!"keyboard shortcut must be between 1 and 9, got {shortcut}"
  | notFound name => s!"stack not found: @{name}"
  | storage cause => s!"storage error: {cause}"
  | overrun => "query ends inside an escape"

namespace Stack

structure Draft where
  name : String
  query : String
  description : Option String
  resultCount : Option Nat
  shortcut : Option Nat

structure Revision where
  query : Option String
  description : Option String
  resultCount : Option Nat

inductive Operation
  | create (draft : Draft)
  | update (name : String) (revision : Revision)
  | rename (origin target : String)
  | delete (name : String)
  | assignShortcut (name : String) (shortcut : Option Nat)
  | recordUsage (name : String)
  | markSynced (name : String)

/-- What an operation makes of the stacks, the position of the stack it is about, if that still exists, and
what is told. -/
structure Change where
  entries : List Stack
  subject : Option Nat
  events : List Event

def allowedName (name : String) : Except Refusal String :=
  match StackName.valid? name with
  | some n => .ok n
  | none => .error .invalidName

def isShortcut (n : Nat) : Bool := 1 ≤ n && n ≤ 9

def allowedShortcut : Option Nat → Except Refusal (Option Nat)
  | none => .ok none
  | some n => if isShortcut n then .ok (some n) else .error (.invalidShortcut n)

def position (entries : List Stack) (name : String) : Except Refusal Nat :=
  match entries.findIdx? (·.name == name) with
  | some i => .ok i
  | none => .error (.notFound name)

def trimmed (s : String) : String := String.ofList (Text.trim s.toList)

def holds (shortcut : Option Nat) (keep : String) (s : Stack) : Bool :=
  shortcut.isSome && s.shortcut == shortcut && s.name != keep

def release (shortcut : Option Nat) (keep : String) (entries : List Stack) : List Stack :=
  entries.map fun s => if holds shortcut keep s then { s with shortcut := none, synced := false } else s

def releases (shortcut : Option Nat) (keep : String) (entries : List Stack) : List Event :=
  (entries.filter (holds shortcut keep)).map fun s => .shortcutChanged s.name none

def Draft.stack (draft : Draft) (name : String) (now : Nat) : Stack :=
  { id := Number.identifier now
    name
    query := trimmed draft.query
    description := draft.description
    resultCount := draft.resultCount
    createdAt := now
    updatedAt := now
    lastUsed := none
    synced := false
    shortcut := draft.shortcut
    tree := .empty }

def Revision.apply (r : Revision) (now : Nat) (s : Stack) : Stack :=
  { s with
    query := (r.query.map trimmed).getD s.query
    description := match r.description with
      | some d => if (Text.trim d.toList).isEmpty then none else some d
      | none => s.description
    resultCount := r.resultCount.or s.resultCount
    updatedAt := now
    synced := false }

def touch (now : Nat) (s : Stack) : Stack := { s with updatedAt := now, synced := false }

/-- What an operation makes of the stacks at a time, where there may be `limit` of them. Trees are left as
they are. -/
def Operation.change (limit now : Nat) (entries : List Stack) : Operation → Except Refusal Change
  | create draft => do
    let name ← allowedName draft.name
    let shortcut ← allowedShortcut draft.shortcut
    if entries.any (·.name == name) then .error (.duplicateName name)
    else if limit ≤ entries.length then .error (.limitReached limit)
    else return ⟨release shortcut name entries ++ [draft.stack name now], some entries.length,
      .created name :: releases shortcut name entries⟩
  | update name revision => do
    let name := StackName.normalize name
    let i ← position entries name
    return ⟨entries.modify i (revision.apply now), some i, [.updated name]⟩
  | rename origin target => do
    let origin := StackName.normalize origin
    let target ← allowedName target
    let i ← position entries origin
    if target != origin && entries.any (·.name == target) then .error (.duplicateName target)
    else return ⟨entries.modify i fun s => { s.touch now with name := target }, some i,
      [.renamed origin target]⟩
  | delete name => do
    let name := StackName.normalize name
    let i ← position entries name
    return ⟨entries.eraseIdx i, none, [.deleted name]⟩
  | assignShortcut name shortcut => do
    let name := StackName.normalize name
    let shortcut ← allowedShortcut shortcut
    let i ← position entries name
    return ⟨(release shortcut name entries).modify i fun s => { s.touch now with shortcut := shortcut },
      some i, releases shortcut name entries ++ [.shortcutChanged name shortcut]⟩
  | recordUsage name => do
    let name := StackName.normalize name
    let i ← position entries name
    return ⟨entries.modify i fun s => { s with lastUsed := some (now : Int) }, some i, [.used name]⟩
  | markSynced name => do
    let i ← position entries (StackName.normalize name)
    return ⟨entries.modify i fun s => { s with synced := true }, none, []⟩

end Stack

end FilterQuery
