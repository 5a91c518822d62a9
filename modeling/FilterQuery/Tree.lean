import FilterQuery.Node
import FilterQuery.Token
import FilterQuery.Vocabulary

namespace FilterQuery

inductive Fault
  | flawed (flaw : Flaw)
  | unmatchedParen
  | unclosedParen
  | missingBefore (sign : Token.Kind)
  | missingAfter (sign : Token.Kind)
  | missingTerm (sign found : Token.Kind)
  | unexpected (kind : Token.Kind)
  | misplacedStance (s : Stance)
  | unknownFlag (flag : Char)
  | invalidRegex
  | missingValue (name : String)
  | missingComparison (category : Category)
  | missingDate (before : String)
  | missingNumber (before : String)
  | invalidDate (value : String)
  | invalidCount (value : String)
  | invalidNumber (category : Category) (value : String)
  | cycle (names : List String)
  | tooDeep (limit : Nat)
  | within (name : String) (fault : Fault)
  | reported (message : String)
  deriving DecidableEq

namespace Fault

def message : Fault → String
  | flawed flaw => flaw.message
  | unmatchedParen => "unmatched ')'"
  | unclosedParen => "unclosed '('"
  | missingBefore sign => s!"expected a term before {sign.describe}"
  | missingAfter sign => s!"expected a term after {sign.describe}"
  | missingTerm sign found => s!"expected a term after {sign.describe}, found {found.describe}"
  | unexpected kind => s!"unexpected {kind.describe}"
  | misplacedStance s =>
    let sign := s.sign?.getD '?'
    s!"'{sign}' only applies to category terms; use '+' or '-' here"
  | unknownFlag flag => s!"unknown regex flag '{flag}'"
  | invalidRegex => "invalid regular expression"
  | missingValue name => s!"expected a value after '{name}:'"
  | missingComparison category => s!"expected a value or comparison after '{category.name}:'"
  | missingDate before => s!"expected a date after {before}"
  | missingNumber before => s!"expected a number after {before}"
  | invalidDate value => s!"invalid date '{value}'"
  | invalidCount value => s!"word count must be a whole number, got '{value}'"
  | invalidNumber category value => s!"expected a number for {category.name}, got '{value}'"
  | cycle names => "cyclic stack reference: " ++ " -> ".intercalate (names.map fun n => "@" ++ n)
  | tooDeep limit => s!"stack references nested deeper than {limit} levels"
  | within name fault => s!"in @{name}: {fault.message}"
  | reported message => message

end Fault

structure Problem where
  fault : Fault
  position : Nat
  length : Nat
  deriving DecidableEq

namespace Problem

def atToken (fault : Fault) (t : Token) : Problem := ⟨fault, t.position, max t.length 1⟩

def between (fault : Fault) (first stop : Nat) : Problem := ⟨fault, first, max (stop - first) 1⟩

end Problem

inductive Warning
  | emptyGroup (position : Nat)
  | unknownCategory (name value : String)
  | noStacks (name : String)
  | unknownStack (name : String)
  | emptyStack (name : String)
  | within (name : String) (warning : Warning)
  | reported (message : String)
  deriving DecidableEq

def Warning.message : Warning → String
  | emptyGroup position => s!"empty group at position {position} ignored"
  | unknownCategory name value => s!"unknown category '{name}', searching content for '{value}' instead"
  | noStacks name => s!"stack @{name} could not be resolved: no stack store available"
  | unknownStack name => s!"unknown stack @{name}"
  | emptyStack name => s!"stack @{name} has an empty query"
  | within name warning => s!"in @{name}: {warning.message}"
  | reported message => message

structure Tree where
  root : Option Node
  query : String
  problems : List Problem
  warnings : List Warning
  deriving DecidableEq

namespace Tree

def empty : Tree := ⟨none, "", [], []⟩

def hasProblems (t : Tree) : Bool := !t.problems.isEmpty

end Tree

end FilterQuery
