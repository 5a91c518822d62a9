import FilterQuery.Text.Ranges

namespace FilterQuery.Pattern

open Text (Ranges)

inductive Look
  | textStart
  | textEnd
  | lineStart
  | lineEnd
  | boundary (kind : String)
  deriving DecidableEq

inductive Expression
  | empty
  | text (cs : List Char)
  | set (rs : Ranges)
  | look (l : Look)
  | repetition (least : Nat) (most : Option Nat) (greedy : Bool) (e : Expression)
  | capture (e : Expression)
  | sequence (es : List Expression)
  | choice (es : List Expression)
  deriving Inhabited

namespace Expression

mutual
def isEmpty : Expression → Bool
  | empty | look _ => true
  | text _ | set _ => false
  | repetition _ _ _ e | capture e => e.isEmpty
  | sequence es | choice es => areEmpty es

def areEmpty : List Expression → Bool
  | [] => true
  | e :: es => e.isEmpty && areEmpty es
end

mutual
def least? : Expression → Option Nat
  | empty | look _ => some 0
  | text cs => some cs.length
  | set rs => if rs.isEmpty then none else some 1
  | repetition n _ _ e => e.least?.map (n * ·)
  | capture e => e.least?
  | sequence es => sumLeast? es
  | choice es => minLeast? es

def sumLeast? : List Expression → Option Nat
  | [] => some 0
  | e :: es => do return (← e.least?) + (← sumLeast? es)

def minLeast? : List Expression → Option Nat
  | [] => none
  | [e] => e.least?
  | e :: es => do return min (← e.least?) (← minLeast? es)
end

def consumes (e : Expression) : Bool := e.least?.any (0 < ·)

mutual
def hasEdge (l : Look) (atEnd : Bool) : Expression → Bool
  | look k => k == l
  | repetition n _ _ e => 0 < n && hasEdge l atEnd e
  | capture e => hasEdge l atEnd e
  | sequence es => if atEnd then lastHasEdge l es else firstHasEdge l es
  | choice es => !es.isEmpty && allHaveEdge l atEnd es
  | _ => false

def firstHasEdge (l : Look) : List Expression → Bool
  | [] => false
  | e :: es => hasEdge l false e || (e.isEmpty && firstHasEdge l es)

def lastHasEdge (l : Look) : List Expression → Bool
  | [] => false
  | e :: es => lastHasEdge l es || (areEmpty es && hasEdge l true e)

def allHaveEdge (l : Look) (atEnd : Bool) : List Expression → Bool
  | [] => true
  | e :: es => hasEdge l atEnd e && allHaveEdge l atEnd es
end

mutual
def same : Expression → Expression → Bool
  | empty, empty => true
  | text cs, text ds => cs == ds
  | set rs, set ss => rs == ss
  | look k, look l => k == l
  | repetition m n g e, repetition m' n' g' e' => m == m' && n == n' && g == g' && same e e'
  | sequence es, sequence fs | choice es, choice fs => allSame es fs
  | _, _ => false

def allSame : List Expression → List Expression → Bool
  | [], [] => true
  | e :: es, f :: fs => same e f && allSame es fs
  | _, _ => false
end

mutual
def nodes : Expression → Nat
  | repetition _ _ _ e | capture e => e.nodes + 1
  | sequence es | choice es => allNodes es + 1
  | _ => 1

def allNodes : List Expression → Nat
  | [] => 0
  | e :: es => e.nodes + allNodes es
end

def ofSet (rs : Ranges) : Expression :=
  match rs with
  | [(a, b)] => if a = b then text [Char.ofNat a] else set rs
  | _ => set rs

def consJoined (e : Expression) (es : List Expression) : List Expression :=
  match e, es with
  | text cs, text ds :: rest => text (cs ++ ds) :: rest
  | e, es => e :: es

def parts : Expression → List Expression
  | empty => []
  | sequence es => es
  | e => [e]

def ofSequence (es : List Expression) : Expression :=
  match (es.flatMap parts).foldr consJoined [] with
  | [] => empty
  | [e] => e
  | es => sequence es

def alternatives : Expression → List Expression
  | choice es => es
  | e => [e]

def asCharacter? : Expression → Option Ranges
  | text [c] => some [(c.toNat, c.toNat)]
  | _ => none

def asSet? : Expression → Option Ranges
  | set rs => some rs
  | _ => none

def asSequence? : Expression → Option (List Expression)
  | sequence es => some es
  | _ => none

def commonCount : List Expression → List Expression → Nat
  | e :: es, f :: fs => if same e f then commonCount es fs + 1 else 0
  | _, _ => 0

def commonPrefix : List (List Expression) → Nat
  | [] => 0
  | es :: rest => rest.foldl (fun n fs => min n (commonCount es fs)) es.length

/-- One of several expressions. Characters and sets become one set, and a common beginning is taken out;
`fuel` bounds how often. -/
def ofChoiceFrom : (fuel : Nat) → List Expression → Expression
  | 0, es => choice es
  | fuel + 1, es =>
    let es := es.flatMap alternatives
    match es with
    | [] => set []
    | [e] => e
    | es => match es.mapM asCharacter? <|> es.mapM asSet? with
      | some sets => ofSet (Ranges.normal (sets.flatMap id))
      | none => match es.mapM asSequence? with
        | some lists =>
          let n := commonPrefix lists
          if n = 0 then choice es
          else
            let rests := lists.map fun list => ofSequence (list.drop n)
            ofSequence ((lists.headD []).take n ++ [ofChoiceFrom fuel rests])
        | none => choice es

def ofChoice (es : List Expression) : Expression := ofChoiceFrom (allNodes es + 1) es

def ofRepetition (least : Nat) (most : Option Nat) (greedy : Bool) (e : Expression) : Expression :=
  let (least, most) := if e.isEmpty then (min least 1, some (min (most.getD 1) 1)) else (least, most)
  if most = some 0 then empty
  else if least = 1 ∧ most = some 1 then e
  else repetition least most greedy e

end Expression

end FilterQuery.Pattern
