import FilterQuery.Vocabulary

namespace FilterQuery

inductive Flaw
  | openPhrase
  | openRegex
  | bareAt
  | stray (c : Char)
  deriving DecidableEq

def Flaw.message : Flaw → String
  | openPhrase => "unterminated quoted phrase"
  | openRegex => "unterminated regular expression"
  | bareAt => "expected a stack name after '@'"
  | stray c => s!"unexpected character '{c}'"

inductive Token.Kind
  | stance (s : Stance)
  | and
  | or
  | not
  | leftParen
  | rightParen
  | colon
  | compare (c : Comparator)
  | regex (pattern flags : String)
  | phrase (text : String)
  | wildcard (pattern : String)
  | word (text : String)
  | number (text : String)
  | date (text : String)
  | reference (name : String)
  | flawed (flaw : Flaw)
  | finish
  deriving DecidableEq

def Token.Kind.describe : Token.Kind → String
  | stance s => match s.sign? with
    | some c => s!"'{c}'"
    | none => "state"
  | and => "'&'"
  | or => "'|'"
  | not => "'!'"
  | leftParen => "'('"
  | rightParen => "')'"
  | colon => "':'"
  | compare c => s!"'{c.symbol}'"
  | regex pattern flags => s!"regex /{pattern}/{flags}"
  | phrase text => s!"phrase \"{text}\""
  | wildcard pattern => s!"wildcard '{pattern}'"
  | word text => s!"'{text}'"
  | number text => s!"number {text}"
  | date text => s!"date {text}"
  | reference name => s!"'@{name}'"
  | flawed flaw => flaw.message
  | finish => "end of input"

structure Token where
  kind : Token.Kind
  text : String
  position : Nat
  deriving DecidableEq

namespace Token

def length (t : Token) : Nat := t.text.length

def stop (t : Token) : Nat := t.position + t.length

end Token

end FilterQuery
