import FilterQuery.Config.File
import FilterQuery.Stack.Operation
import FilterQuery.Stack
import FilterQuery.Storage

/-! The store of saved stacks, which owns them and their file. An operation either takes place as a whole,
in memory, in the file and towards the listeners, or changes nothing. -/

namespace FilterQuery

structure Store.Notice where
  listener : Nat
  event : Stack.Event
  size : Nat
  deriving DecidableEq

structure Store where
  entries : List Stack
  storage : Storage
  listeners : List Nat
  nextListener : Nat
  notices : List Store.Notice
  -- The time in milliseconds; every operation that takes place moves it on.
  clock : Nat
  maxStacks : Nat
  maxDepth : Nat

namespace Store

open Stack

def fileName : String := "stacks.yaml"

def bytes (entries : List Stack) : ByteArray := (Record.allText (entries.map (·.toRecord))).toUTF8

def derived (limit : Nat) (entries : List Stack) : Except Refusal (List Stack) :=
  match deriveAll limit entries with
  | .ok entries => .ok entries
  | .error _ => .error .overrun

def save (entries : List Stack) (s : Storage) : Except Refusal Storage :=
  match s.write fileName (bytes entries) with
  | .ok s => .ok s
  | .error _ => .error (.storage "the file of stacks cannot be written")

def load (s : Storage) : Except Refusal (List Record) := do
  let some data := s.content? fileName | .error (.storage "there is no file of stacks")
  let some text := String.fromUTF8? data | .error (.storage "the file of stacks is no text")
  let some records := Record.readAll? text | .error (.storage "the file of stacks holds no records")
  return records

def openOn (storage : Storage) (config : Config) (clock : Nat) : Except Refusal Store := do
  let storage ← if storage.contains fileName then pure storage else save [] storage
  let records ← load storage
  let entries ← derived config.maxReferenceDepth (records.map ofRecord)
  return ⟨entries, storage, [], 0, [], clock, config.maxStacks, config.maxReferenceDepth⟩

def settle (s : Store) (entries : List Stack) : Except Refusal (List Stack) :=
  if sources s.entries = sources entries then .ok entries else derived s.maxDepth entries

def announce (s : Store) (events : List Event) (size : Nat) : List Notice :=
  events.flatMap fun e => s.listeners.map fun l => ⟨l, e, size⟩

def perform (s : Store) (op : Operation) : Except Refusal (Store × Option Stack) := do
  let change ← op.change s.maxStacks s.clock s.entries
  let entries ← s.settle change.entries
  let storage ← save entries s.storage
  return ({ s with
    entries := entries
    storage := storage
    notices := s.notices ++ s.announce change.events entries.length
    clock := s.clock + 1 }, change.subject.bind (entries[·]?))

def subscribe (s : Store) : Store × Nat :=
  ({ s with listeners := s.listeners ++ [s.nextListener], nextListener := s.nextListener + 1 },
    s.nextListener)

def unsubscribe (s : Store) (listener : Nat) : Store :=
  { s with listeners := s.listeners.filter (· != listener) }

def turned (s : Store) (writable : Bool) : Store := { s with storage := s.storage.turned writable }

def size (s : Store) : Nat := s.entries.length

def get? (s : Store) (name : String) : Option Stack :=
  s.entries.find? (·.name == StackName.normalize name)

def byShortcut? (s : Store) (shortcut : Nat) : Option Stack :=
  s.entries.find? (·.shortcut == some shortcut)

def list (s : Store) : List Stack := s.entries.mergeSort fun a b => !(b.name < a.name)

/-- Whether a stack is suggested before another: the one used later, then the one used at all, then by
name. -/
def precedes (a b : Stack) : Bool :=
  match a.lastUsed, b.lastUsed with
  | some x, some y => if x = y then !(b.name < a.name) else y < x
  | some _, none => true
  | none, some _ => false
  | none, none => !(b.name < a.name)

def suggest (s : Store) (beginning : String) : List Stack :=
  let cs := (StackName.normalize beginning).toList
  (s.entries.filter fun t => cs.isPrefixOf t.name.toList).mergeSort precedes

end Store

end FilterQuery
