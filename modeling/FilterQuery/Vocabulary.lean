namespace FilterQuery

inductive Category
  | source
  | format
  | date
  | words
  | tags
  | quality
  | sim
  | content
  deriving DecidableEq

namespace Category

def all : List Category := [source, format, date, words, tags, quality, sim, content]

def name : Category → String
  | source => "source"
  | format => "format"
  | date => "date"
  | words => "words"
  | tags => "tags"
  | quality => "quality"
  | sim => "sim"
  | content => "content"

def ofName? (s : String) : Option Category :=
  all.find? fun c => s.toList.map Char.toLower == c.name.toList

def isNumeric : Category → Bool
  | words | quality | sim => true
  | _ => false

def isComparable (c : Category) : Bool := c.isNumeric || c == date

def foldsCase : Category → Bool
  | source | format | tags => true
  | _ => false

end Category

inductive Stance
  | neutral
  | is
  | isNot
  | both
  | neither
  deriving DecidableEq

namespace Stance

def name : Stance → String
  | neutral => "neutral"
  | is => "is"
  | isNot => "is-not"
  | both => "both"
  | neither => "neither"

def all : List Stance := [neutral, is, isNot, both, neither]

def ofName? (s : String) : Option Stance := all.find? (·.name == s)

def sign? : Stance → Option Char
  | neutral => none
  | is => some '+'
  | isNot => some '-'
  | both => some '~'
  | neither => some '?'

def ofSign? : Char → Option Stance
  | '+' => some is
  | '-' => some isNot
  | '~' => some both
  | '?' => some neither
  | _ => none

def negate : Stance → Stance
  | neutral => neutral
  | is => isNot
  | isNot => is
  | both => neither
  | neither => both

theorem ofSign?_eq_some_iff {c : Char} {s : Stance} : ofSign? c = some s ↔ s.sign? = some c := by
  constructor
  · intro h
    unfold ofSign? at h
    split at h <;> cases h <;> rfl
  · intro h
    cases s <;> cases h <;> rfl

end Stance

inductive Comparator
  | above
  | below
  | equal
  | atLeast
  | atMost
  | within
  deriving DecidableEq

namespace Comparator

def symbol : Comparator → String
  | above => ">"
  | below => "<"
  | equal => "="
  | atLeast => ">="
  | atMost => "<="
  | within => ".."

def all : List Comparator := [above, below, equal, atLeast, atMost, within]

def ofSymbol? (s : String) : Option Comparator := all.find? (·.symbol == s)

def negate? : Comparator → Option Comparator
  | above => some atMost
  | atLeast => some below
  | below => some atLeast
  | atMost => some above
  | equal | within => none

end Comparator

end FilterQuery
