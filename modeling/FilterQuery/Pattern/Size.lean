import FilterQuery.Number
import FilterQuery.Pattern.Automaton
import FilterQuery.Pattern.Expression

/-! How many bytes the automata of an expression take, one that reads forwards and one that reads backwards.
Expressions whose automata grow past a limit are refused. -/

namespace FilterQuery.Pattern

def textSize (cs : List Char) : Nat := cs.foldl (fun n c => n + stateSize * c.utf8Size) 0

def segments : List (List Nat) → List (List (List Nat))
  | [] => [[]]
  | [] :: words => [] :: segments words
  | w :: words => match segments words with
    | [] => [[w]]
    | s :: rest => (w :: s) :: rest

def dropSecondEmpty (words : List (List Nat)) : List (List Nat) :=
  let rest := words.dropWhile (·.isEmpty)
  if rest.length < words.length then [] :: rest else rest

def tailsOf (b : Nat) (words : List (List Nat)) : List (List Nat) :=
  words.filterMap fun w => if w.head? = some b then some w.tail else none

def readSize (n : Nat) : Nat :=
  if n = 0 then 0 else if n = 1 then stateSize else stateSize + transitionSize * n

/-- The size of the tree for some words; `fuel` bounds its depth. Where a word ends before others go on, the
earlier words come first. -/
def treeSize : (fuel : Nat) → List (List Nat) → Nat
  | 0, _ => 0
  | fuel + 1, words =>
    if words.all (·.isEmpty) then 0
    else
      let runs := segments (dropSecondEmpty words)
      let branches := (runs.filter (!·.isEmpty)).length + (runs.length - 1)
      runs.foldl (fun n run =>
        let firsts := (run.filterMap (·.head?)).eraseDups
        firsts.foldl (fun n b => n + treeSize fuel (tailsOf b run)) (n + readSize firsts.length))
        (stateSize + branchSize * branches)

def textBytes (cs : List Char) : List Nat := cs.flatMap fun c => codeBytes c.toNat

def asTexts? (es : List Expression) : Option (List (List Nat)) :=
  es.mapM fun
    | .text cs => some (textBytes cs)
    | _ => none

def textsSize (backward : Bool) (words : List (List Nat)) : Nat :=
  let words := if backward then words.map (·.reverse) else words
  stateSize + treeSize (words.foldl (fun n w => max n w.length) 0 + 1) words

def forkSize : Nat := stateSize + 2 * branchSize

def repetitionSize (least : Nat) (most : Option Nat) (consumes : Bool) (n : Nat) : Nat :=
  match least, most with
  | 0, none => if consumes then n + forkSize else n + 2 * forkSize + stateSize
  | least, none => least * n + forkSize
  | 0, some 1 => n + forkSize + stateSize
  | least, some most =>
    if least = most then least * n
    else (if least = 0 then stateSize else least * n) + stateSize + (most - least) * (n + forkSize)

mutual
def Expression.size (backward : Bool) : Expression → Nat
  | .empty | .look _ => stateSize
  | .text cs => textSize cs
  | .set rs => setSize backward rs
  | .repetition least most _ e => repetitionSize least most e.consumes (e.size backward)
  | .capture e => e.size backward + if backward then 0 else 2 * stateSize
  | .sequence es => sequenceSize backward es
  | .choice es => match asTexts? es with
    | some words => textsSize backward words
    | none => 2 * stateSize + choiceSize backward es

def sequenceSize (backward : Bool) : List Expression → Nat
  | [] => 0
  | e :: es => e.size backward + sequenceSize backward es

def choiceSize (backward : Bool) : List Expression → Nat
  | [] => 0
  | e :: es => e.size backward + branchSize + choiceSize backward es
end

def skipSize : Nat := forkSize + 2 * stateSize + transitionSize

def wholeSize (backward : Bool) (e : Expression) : Nat :=
  let tied := if backward then e.hasEdge .textEnd true else e.hasEdge .textStart false
  (if tied then stateSize else skipSize) + e.size backward + (if backward then 0 else 2 * stateSize)
    + stateSize

def sizeLimit : Nat := 10 * Number.twoTo 20

def Expression.fits (e : Expression) : Bool := wholeSize false e ≤ sizeLimit && wholeSize true e ≤ sizeLimit

end FilterQuery.Pattern
