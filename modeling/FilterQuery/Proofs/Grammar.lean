import FilterQuery.Clause
import Mathlib

/-! The grammar of queries over the kinds of their tokens. A derivation carries the filter that it stands
for, and the kind of the token behind it, since a word reads differently in front of a colon.

    alternatives = conjunction | alternatives "|" conjunction
    conjunction  = unary | conjunction ["&"] unary
    unary        = "!" unary | "(" ")" | "(" alternatives ")" | reference | [stance] term
-/

namespace FilterQuery.Grammar

open Token (Kind)
open Clause (bareValue? comparable? fieldOf rangeEnd?)

def signed? : Option Stance → Leaf → Option Node
  | some .isNot, l => some (Node.leaf l).negate
  | some .both, _ | some .neither, _ => none
  | _, l => some (.leaf l)

def IsRegex (pattern flags : String) : Prop :=
  (∀ c ∈ flags.toList, c ∈ Clause.regexFlags) ∧ Pattern.isWellFormed flags.toList pattern.toList = true

def IsValue (category : Category) (k : Kind) (v : String) : Prop :=
  bareValue? k = some v ∧ match category with
    | .date => (Calendar.Period.read? v.toList).isSome
    | .words => (Number.word? v.toList).isSome
    | _ => Clause.isNumberKind k ∧ (Double.read? v.toList).isSome

def StandsAlone (w : String) (next : Option Kind) : Prop :=
  next ≠ some .colon ∧ ((comparable? w).isSome → ∀ k, next = some k → Clause.isComparison k = false)

def content (v : String) (s : Option Stance) : Node := .leaf (.term .content v (s.getD .is))

def phrase (v : String) (s : Option Stance) : Node :=
  .leaf (if s.getD .is = .is then .phrase v none else .term .content v (s.getD .is))

def categoryTerm (c : Category) (v : String) (s : Option Stance) : Node :=
  .leaf (.term c (if c.foldsCase then Text.lower v else v) (s.getD .is))

def namedValue (w v : String) (s : Option Stance) : Node :=
  match Category.ofName? w with
  | some c => categoryTerm c v s
  | none => content v s

inductive Term (s : Option Stance) : List Kind → Option Kind → Node → Prop
  | word : StandsAlone w next → Term s [.word w] next (content w s)
  | number : Term s [.number v] next (content v s)
  | date : Term s [.date v] next (content v s)
  | phrase : Term s [.phrase v] next (phrase v s)
  | regex : IsRegex p f → signed? s (.regex p f none) = some n → Term s [.regex p f] next n
  | wildcard : signed? s (.wildcard p none) = some n → Term s [.wildcard p] next n
  | named : comparable? w = none → bareValue? k = some v →
      Term s [.word w, .colon, k] next (namedValue w v s)
  | quoted : comparable? w = none → Category.ofName? w = some c →
      Term s [.word w, .colon, .phrase v] next (categoryTerm c v s)
  | fieldPhrase : Category.ofName? w = none → signed? s (.phrase v (some (Text.lower w))) = some n →
      Term s [.word w, .colon, .phrase v] next n
  | fieldRegex : comparable? w = none → IsRegex p f → signed? s (.regex p f (fieldOf w)) = some n →
      Term s [.word w, .colon, .regex p f] next n
  | fieldWildcard : comparable? w = none → signed? s (.wildcard p (fieldOf w)) = some n →
      Term s [.word w, .colon, .wildcard p] next n
  | compared : comparable? w = some c → op ≠ .within → IsValue c k v →
      signed? s (.comparison c op v none) = some n → Term s [.word w, .colon, .compare op, k] next n
  | comparedBare : comparable? w = some c → op ≠ .within → IsValue c k v →
      signed? s (.comparison c op v none) = some n → Term s [.word w, .compare op, k] next n
  | upTo : comparable? w = some c → IsValue c k v → signed? s (.comparison c .atMost v none) = some n →
      Term s [.word w, .colon, .compare .within, k] next n
  | upFrom : comparable? w = some c → IsValue c k v → (∀ l, next = some l → rangeEnd? l = none) →
      signed? s (.comparison c .atLeast v none) = some n →
      Term s [.word w, .colon, k, .compare .within] next n
  | range : comparable? w = some c → IsValue c k v → rangeEnd? l = some u → IsValue c l u →
      signed? s (.comparison c .within v (some u)) = some n →
      Term s [.word w, .colon, k, .compare .within, l] next n
  | period : comparable? w = some .date → IsValue .date k v →
      Term s [.word w, .colon, k] next (categoryTerm .date v s)
  | equal : comparable? w = some c → c ≠ .date → IsValue c k v →
      signed? s (.comparison c .equal v none) = some n → Term s [.word w, .colon, k] next n

mutual
inductive Unary : List Kind → Option Kind → Option Node → Prop
  | not : Unary ks next n → Unary (.not :: ks) next (n.map Node.negate)
  | empty : Unary [.leftParen, .rightParen] next none
  | group : Alternatives ks (some .rightParen) ns →
      Unary (.leftParen :: (ks ++ [.rightParen])) next (Node.join .or ns)
  | reference : Unary [.reference name] next (some (.reference name))
  | plain : Term none ks next n → Unary ks next (some n)
  | signed : Term (some s) ks next n → Unary (.stance s :: ks) next (some n)

inductive Conjunction : List Kind → Option Kind → List Node → Prop
  | one : Unary ks next n → Conjunction ks next n.toList
  | beside : Conjunction ks us.head? ns → Unary us next n → Conjunction (ks ++ us) next (ns ++ n.toList)
  | and : Conjunction ks (some .and) ns → Unary us next n →
      Conjunction (ks ++ .and :: us) next (ns ++ n.toList)

inductive Alternatives : List Kind → Option Kind → List Node → Prop
  | one : Conjunction ks next ns → Alternatives ks next (Node.join .and ns).toList
  | or : Alternatives ks (some .or) ms → Conjunction us next ns →
      Alternatives (ks ++ .or :: us) next (ms ++ (Node.join .and ns).toList)
end

end FilterQuery.Grammar
