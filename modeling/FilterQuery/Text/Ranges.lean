namespace FilterQuery.Text

abbrev Ranges := List (Nat × Nat)

namespace Ranges

def holds (rs : Ranges) (c : Char) : Bool :=
  rs.any fun r => r.1 ≤ c.toNat && c.toNat ≤ r.2

theorem holds_append (rs ss : Ranges) (c : Char) : holds (rs ++ ss) c = (holds rs c || holds ss c) := by
  simp [holds]

def joinFrom (r : Nat × Nat) : Ranges → Ranges
  | [] => [r]
  | s :: rest => if s.1 ≤ r.2 + 1 then joinFrom (r.1, max r.2 s.2) rest else r :: joinFrom s rest

def normal (rs : Ranges) : Ranges :=
  match rs.mergeSort fun r s => r.1 ≤ s.1 with
  | [] => []
  | r :: rest => joinFrom r rest

def lastCode : Nat := 0x10FFFF

def full : Ranges := [(0, lastCode)]

def gapsFrom (n : Nat) : Ranges → Ranges
  | [] => if n ≤ lastCode then [(n, lastCode)] else []
  | r :: rest => if n < r.1 then (n, r.1 - 1) :: gapsFrom (r.2 + 1) rest else gapsFrom (r.2 + 1) rest

def complement (rs : Ranges) : Ranges := gapsFrom 0 rs.normal

def union (rs ss : Ranges) : Ranges := normal (rs ++ ss)

def inter (rs ss : Ranges) : Ranges := complement (rs.complement ++ ss.complement)

def diff (rs ss : Ranges) : Ranges := rs.inter ss.complement

def symmetricDifference (rs ss : Ranges) : Ranges := (rs.union ss).diff (rs.inter ss)

def hexValue (c : Char) : Nat :=
  if '0' ≤ c && c ≤ '9' then c.toNat - '0'.toNat else c.toNat - 'A'.toNat + 10

def ofHex (s : String) : Nat := s.toList.foldl (fun n c => 16 * n + hexValue c) 0

def ofItem (s : String) : Ranges :=
  match s.splitOn "-", s.splitOn "+" with
  | [a, b], _ => [(ofHex a, ofHex b)]
  | _, [a, b] =>
    (List.range ((ofHex b - ofHex a) / 2 + 1)).map fun i => (ofHex a + 2 * i, ofHex a + 2 * i)
  | _, _ => [(ofHex s, ofHex s)]

def ofLine (s : String) : Ranges := (s.splitOn " ").flatMap ofItem

def ofLines (ss : List String) : Ranges := ss.flatMap ofLine

end Ranges

def blankRanges : Ranges := [
  (0x9, 0xD), (0x20, 0x20), (0x85, 0x85), (0xA0, 0xA0), (0x1680, 0x1680), (0x2000, 0x200A),
  (0x2028, 0x2029), (0x202F, 0x202F), (0x205F, 0x205F), (0x3000, 0x3000)]

def isBlank (c : Char) : Bool := blankRanges.holds c

def trimStart (cs : List Char) : List Char := cs.dropWhile isBlank

def trimEnd (cs : List Char) : List Char := (cs.reverse.dropWhile isBlank).reverse

def trim (cs : List Char) : List Char := trimEnd (trimStart cs)

def blankSplitFrom (run : List Char) : List Char → List (List Char)
  | [] => if run.isEmpty then [] else [run]
  | c :: cs =>
    if isBlank c then (if run.isEmpty then [] else [run]) ++ blankSplitFrom [] cs
    else blankSplitFrom (run ++ [c]) cs

def blankSplit (cs : List Char) : List (List Char) := blankSplitFrom [] cs

end FilterQuery.Text
