import FilterQuery.Pattern.Expression
import FilterQuery.Text.LowerCase
import FilterQuery.Text.Ranges

namespace FilterQuery.Pattern

open Text (Ranges CaseRun)
open Text (Ranges)

def casePairs (r : CaseRun) : List (Nat × Nat) :=
  (List.range ((r.last - r.first) / r.step + 1)).map fun i =>
    let n := r.first + i * r.step
    (n, (n + r.shift : Int).toNat)

def variantPairs : List (Nat × Nat) := [
  (0xB5, 0x3BC), (0x17F, 0x73), (0x345, 0x3B9), (0x3C2, 0x3C3), (0x3D0, 0x3B2), (0x3D1, 0x3B8),
  (0x3D5, 0x3C6), (0x3D6, 0x3C0), (0x3F0, 0x3BA), (0x3F1, 0x3C1), (0x3F5, 0x3B5), (0x1C80, 0x432),
  (0x1C81, 0x434), (0x1C82, 0x43E), (0x1C83, 0x441), (0x1C84, 0x442), (0x1C85, 0x442),
  (0x1C86, 0x44A), (0x1C87, 0x463), (0x1C88, 0xA64B), (0x1E9B, 0x1E61), (0x1FBE, 0x3B9),
  (0x1FD3, 0x390), (0x1FE3, 0x3B0), (0xFB05, 0xFB06)]

def allCasePairs : List (Nat × Nat) := Text.caseRuns.flatMap casePairs ++ variantPairs

def asciiCasePairs : List (Nat × Nat) := casePairs ⟨0x41, 0x5A, 1, 32⟩

def caseSources : Ranges := allCasePairs.map fun p => (p.1, p.1)

def caseTargets : Ranges := allCasePairs.map fun p => (p.2, p.2)

def includes (rs : Ranges) (n : Nat) : Bool := rs.any fun r => r.1 ≤ n && n ≤ r.2

def closeOnce (pairs : List (Nat × Nat)) (rs : Ranges) : Ranges :=
  Ranges.normal (rs ++ pairs.flatMap fun (a, b) =>
    if includes rs a || includes rs b then [(a, a), (b, b)] else [])

/-- Adds all that differs from a character of the set only in case. Two pairs lead from any form of a letter
to any other, for all forms are paired with the small letter. -/
def closeCase (unicode : Bool) (rs : Ranges) : Ranges :=
  let pairs := if unicode then allCasePairs else asciiCasePairs
  closeOnce pairs (closeOnce pairs rs)

structure Mode where
  -- Blanks and comments are skipped.
  verbose : Bool
  -- Classes hold characters and not bytes.
  unicode : Bool
  caseless : Bool
  -- Lines, and not only the text, have a beginning and an end.
  multiline : Bool
  -- A dot stands for line breaks too.
  dotAll : Bool
  -- Carriage returns break lines too.
  crlf : Bool
  lazy : Bool
  deriving DecidableEq

namespace Mode

def ofFlags (flags : List Char) : Mode :=
  ⟨flags.contains 'x', true, flags.contains 'i', flags.contains 'm', flags.contains 's', false, false⟩

def put (m : Mode) (flag : Char) (value : Bool) : Option Mode :=
  match flag with
  | 'x' => some { m with verbose := value }
  | 'u' => some { m with unicode := value }
  | 'i' => some { m with caseless := value }
  | 'm' => some { m with multiline := value }
  | 's' => some { m with dotAll := value }
  | 'R' => some { m with crlf := value }
  | 'U' => some { m with lazy := value }
  | _ => none

end Mode

def skipVerbose (comment : Bool) : List Char → List Char
  | [] => []
  | c :: cs =>
    if comment then skipVerbose (c != '\n') cs
    else if Text.isBlank c then skipVerbose false cs
    else if c = '#' then skipVerbose true cs
    else c :: cs

def Mode.skip (m : Mode) (cs : List Char) : List Char :=
  if m.verbose then skipVerbose false cs else cs

def peekVerbose (comment : Bool) : List Char → Option Char
  | [] => none
  | c :: cs =>
    if Text.isBlank c then peekVerbose comment cs
    else if c = '#' ∧ !comment then peekVerbose true cs
    else some c

def Mode.peek (m : Mode) (cs : List Char) : Option Char :=
  if m.verbose then peekVerbose false cs <|> cs.head? else cs.head?

def Mode.closed (m : Mode) (rs : Ranges) : Ranges :=
  if m.caseless then closeCase m.unicode rs else rs.normal

def Mode.ofSet? (m : Mode) (negated : Bool) (rs : Ranges) : Option Ranges :=
  let rs := m.closed rs
  let rs := if negated then rs.complement else rs
  if m.unicode || rs.all (·.2 < 0x80) then some rs else none

def Mode.ofChar (m : Mode) (c : Char) : Expression :=
  if m.caseless && (m.unicode || c.toNat < 0x80) then .ofSet (m.closed [(c.toNat, c.toNat)]) else .text [c]

def Mode.dot? (m : Mode) : Option Expression :=
  if !m.unicode then none
  else if m.dotAll then some (.set Ranges.full)
  else if m.crlf then some (.set (Ranges.complement [(0xA, 0xA), (0xD, 0xD)]))
  else some (.set (Ranges.complement [(0xA, 0xA)]))

def Mode.lineStart (m : Mode) : Look :=
  if !m.multiline then .textStart else if m.crlf then .boundary "crlf start" else .lineStart

def Mode.lineEnd (m : Mode) : Look :=
  if !m.multiline then .textEnd else if m.crlf then .boundary "crlf end" else .lineEnd

end FilterQuery.Pattern
