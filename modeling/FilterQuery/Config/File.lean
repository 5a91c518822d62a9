import FilterQuery.Compiled
import FilterQuery.Number
import FilterQuery.Storage
import FilterQuery.Text.Ranges
import FilterQuery.Yaml.Access
import FilterQuery.Yaml.Style

/-! The file of the settings. It is written where there is none, and written anew where its text is not
exactly that of the settings read from it. -/

namespace FilterQuery

structure Config where
  maxStacks : Nat
  historyCap : Nat
  maxReferenceDepth : Nat
  defaultLimit : Nat
  defaultOrderBy : String
  defaultOrderDirection : Direction
  deriving DecidableEq

namespace Config

def standard : Config := ⟨50, 20, 8, 50, "updated_at", .desc⟩

def page (c : Config) : Page := ⟨c.defaultLimit, 0, c.defaultOrderBy, c.defaultOrderDirection⟩

def repaired (c : Config) : Config :=
  { c with
    maxStacks := max c.maxStacks 1
    historyCap := max c.historyCap 1
    maxReferenceDepth := max c.maxReferenceDepth 1
    defaultOrderBy :=
      if (Text.trim c.defaultOrderBy.toList).isEmpty then standard.defaultOrderBy else c.defaultOrderBy }

open Yaml in
def lines (c : Config) : List Line := [
  .nat "max_stacks" c.maxStacks,
  .nat "history_cap" c.historyCap,
  .nat "max_reference_depth" c.maxReferenceDepth,
  .nat "default_limit" c.defaultLimit,
  .string "default_order_by" c.defaultOrderBy,
  .word "default_order_direction" c.defaultOrderDirection.name.toList]

def text (c : Config) : String := String.ofList (Yaml.mappingText c.lines)

open Yaml in
def ofYaml? (d : Document) : Option Config := do
  let members ← d.members? d.root
  let number (key : String) (default : Nat) :=
    withDefault? (asNatBelow? Number.wordLimit) key default members
  return ⟨← number "max_stacks" standard.maxStacks, ← number "history_cap" standard.historyCap,
    ← number "max_reference_depth" standard.maxReferenceDepth,
    ← number "default_limit" standard.defaultLimit,
    ← withDefault? text? "default_order_by" standard.defaultOrderBy members,
    ← withDefault? (fun v => v.asName?.bind Direction.ofName?) "default_order_direction"
      standard.defaultOrderDirection members⟩

def fileName : String := "config.yaml"

inductive Failure
  | unwritable
  | notText
  | malformed
  deriving DecidableEq

def Failure.message : Failure → String
  | unwritable => "failed to write config"
  | notText => "config file is not valid utf8"
  | malformed => "config is malformed"

def Failure.cause : Failure → String
  | unwritable => "the file cannot be written"
  | notText => "the file holds bytes that encode no character"
  | malformed => "the text is no mapping of settings to values"

def read? (text : String) : Option Config := (Yaml.read? text).bind ofYaml?

def save (c : Config) (s : Storage) : Except Failure Storage :=
  match s.write fileName c.text.toUTF8 with
  | .ok s => .ok s
  | .error _ => .error .unwritable

def load (s : Storage) : Except Failure (Config × Storage) :=
  match s.content? fileName with
  | none => do return (standard, ← standard.save s)
  | some data => do
    let some text := String.fromUTF8? data | .error .notText
    let some c := read? text | .error .malformed
    let c := c.repaired
    if text = c.text then return (c, s) else return (c, ← c.save s)

end Config

end FilterQuery
