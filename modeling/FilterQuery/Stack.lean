import FilterQuery.Tree.Parse
import FilterQuery.Yaml.Json
import FilterQuery.Yaml.Style

namespace FilterQuery

structure Stack.Record where
  id : String
  name : String
  query : String
  description : Option String
  resultCount : Option Nat
  createdAt : Int
  updatedAt : Int
  lastUsed : Option Int
  -- Whether a remote copy has the stack as it is.
  synced : Bool
  shortcut : Option Nat
  deriving DecidableEq

structure Stack extends Stack.Record where
  tree : Tree
  deriving DecidableEq

namespace Stack

def queries (entries : List Stack) : Stacks := fun name => (entries.find? (·.name == name)).map (·.query)

def derive (saved : Stacks) (limit : Nat) (s : Stack) : Except Token.Overrun Stack := do
  return { s with tree := ← Tree.parseWith saved limit (some s.name) s.query }

def deriveAll (limit : Nat) (entries : List Stack) : Except Token.Overrun (List Stack) :=
  entries.mapM (derive (queries entries) limit)

def sources (entries : List Stack) : List (String × String) := entries.map fun s => (s.name, s.query)

def ofRecord (r : Record) : Stack := ⟨r, .empty⟩

open Json in
def Record.toJson (r : Record) : Json :=
  .object ([("id", .string r.id), ("name", .string r.name), ("query", .string r.query)]
    ++ member? "description" (r.description.map .string)
    ++ member? "resultCount" (r.resultCount.map ofNat)
    ++ [("createdAt", .int r.createdAt), ("updatedAt", .int r.updatedAt)]
    ++ member? "lastUsed" (r.lastUsed.map .int)
    ++ [("syncedToRemote", .bool r.synced)]
    ++ member? "keyboardShortcut" (r.shortcut.map ofNat))

def shortcutLimit : Nat := 256

open Yaml in
def Record.ofYaml? (d : Document) (y : Yaml) : Option Record := do
  let members ← d.members? y
  return ⟨← required? text? "id" members, ← required? text? "name" members,
    ← required? text? "query" members, ← optional? text? "description" members,
    ← optional? (asNatBelow? Number.wordLimit) "resultCount" members,
    ← required? asInt64? "createdAt" members, ← required? asInt64? "updatedAt" members,
    ← optional? asInt64? "lastUsed" members, ← withDefault? asBool? "syncedToRemote" false members,
    ← optional? (asNatBelow? shortcutLimit) "keyboardShortcut" members⟩

open Yaml in
def Record.lines (r : Record) : List Line :=
  [.string "id" r.id, .string "name" r.name, .string "query" r.query]
    ++ (r.description.map (Line.string "description")).toList
    ++ (r.resultCount.map (Line.nat "resultCount")).toList
    ++ [.int "createdAt" r.createdAt, .int "updatedAt" r.updatedAt]
    ++ (r.lastUsed.map (Line.int "lastUsed")).toList
    ++ [.bool "syncedToRemote" r.synced]
    ++ (r.shortcut.map (Line.nat "keyboardShortcut")).toList

def Record.allText (rs : List Record) : String :=
  if rs.isEmpty then Yaml.flowDocument (.sequence .none [])
  else String.ofList (rs.flatMap fun r => Yaml.entryText r.lines)

def Record.readAll? (text : String) : Option (List Record) :=
  (Yaml.read? text).bind fun d => d.listOf? (ofYaml? d) d.root

end Stack

end FilterQuery
