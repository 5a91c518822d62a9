import FilterQuery.Text.Ranges

/-! How many bytes the automaton of a set takes. An automaton reads the bytes of characters, so that a set
becomes sequences of byte ranges. Forwards, states from which the same can follow are one; backwards, states
to which the same bytes lead are one. -/

namespace FilterQuery.Pattern

open Text (Ranges)

abbrev ByteRange := Nat × Nat

def codeBytes (n : Nat) : List Nat :=
  if n < 0x80 then [n]
  else if n < 0x800 then [0xC0 + n / 64, 0x80 + n % 64]
  else if n < 0x10000 then [0xE0 + n / 4096, 0x80 + n / 64 % 64, 0x80 + n % 64]
  else [0xF0 + n / 262144, 0x80 + n / 4096 % 64, 0x80 + n / 64 % 64, 0x80 + n % 64]

/-- Where a range has to be cut, so that its bytes are independent of each other: between characters of
different length, and inside a byte unless all that follows it is complete. -/
def cut? (first last : Nat) : Option Nat :=
  match [0x80, 0x800, 0x10000].find? fun p => first < p && p ≤ last with
  | some p => some p
  | none =>
    if last < 0x80 then none
    else [64, 4096, 262144].findSome? fun width =>
      if first / width = last / width then none
      else if first % width ≠ 0 then some ((first / width + 1) * width)
      else if (last + 1) % width ≠ 0 then some (last / width * width)
      else none

def sequencesOf : (fuel : Nat) → (first last : Nat) → List (List ByteRange)
  | 0, _, _ => []
  | fuel + 1, first, last => match cut? first last with
    | some p => sequencesOf fuel first (p - 1) ++ sequencesOf fuel p last
    | none => [(codeBytes first).zip (codeBytes last)]

def characterRanges (r : Nat × Nat) : Ranges :=
  [(r.1, min r.2 0xD7FF), (max r.1 0xE000, r.2)].filter fun s => s.1 ≤ s.2

def sequences (rs : Ranges) : List (List ByteRange) :=
  (rs.flatMap characterRanges).flatMap fun r => sequencesOf 16 r.1 r.2

def byFirst : List (List ByteRange) → List (ByteRange × List (List ByteRange))
  | [] => []
  | [] :: rest => byFirst rest
  | (r :: tail) :: rest => match byFirst rest with
    | [] => [(r, [tail])]
    | (s, tails) :: groups =>
      if r = s then (r, tail :: tails) :: groups else (r, [tail]) :: (s, tails) :: groups

def stateSize : Nat := 32

def transitionSize : Nat := 8

def branchSize : Nat := 4

abbrev ByteState := List (ByteRange × Nat)

/-- Adds the states that read some sequences, unless there are such already, and gives the number of the
first one. -/
def addStates : (depth : Nat) → List (List ByteRange) → List ByteState → Nat × List ByteState
  | 0, _, states => (0, states)
  | depth + 1, seqs, states =>
    if seqs.all (·.isEmpty) then (0, states)
    else
      let (state, states) := (byFirst seqs).foldl (fun (state, states) (r, tails) =>
        let (next, states) := addStates depth tails states
        (state ++ [(r, next)], states)) (([], states) : ByteState × List ByteState)
      match states.idxOf? state with
      | some i => (i + 1, states)
      | none => (states.length + 1, states ++ [state])

def sequenceDepth : Nat := 5

def forwardSetSize (rs : Ranges) : Nat :=
  (addStates sequenceDepth (sequences rs) []).2.foldl
    (fun n state => n + stateSize + transitionSize * state.length) stateSize

def countBeginnings : (depth : Nat) → List (List ByteRange) → Nat
  | 0, _ => 0
  | depth + 1, seqs => (byFirst seqs).foldl (fun n (_, tails) => n + 1 + countBeginnings depth tails) 0

def backwardSetSize (rs : Ranges) : Nat :=
  let seqs := sequences rs
  2 * stateSize + stateSize * countBeginnings sequenceDepth seqs + branchSize * seqs.length

def setSize (backward : Bool) (rs : Ranges) : Nat :=
  if rs.all (·.2 < 0x80) then 2 * stateSize + transitionSize * rs.length
  else if backward then backwardSetSize rs
  else forwardSetSize rs

end FilterQuery.Pattern
