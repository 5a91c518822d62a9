/-! Double precision numbers as exact binary fractions. Reading a decimal rounds it once, to the
nearest number and from a tie to the even one; writing takes the coarsest decimal grid on which some
point reads back. -/

namespace FilterQuery

namespace Number

def isDigit (c : Char) : Bool := '0' ≤ c && c ≤ '9'

def digitValue (c : Char) : Nat := c.toNat - '0'.toNat

def ofDigits (cs : List Char) : Nat := cs.foldl (fun n c => 10 * n + digitValue c) 0

def digits? (cs : List Char) : Option Nat :=
  if !cs.isEmpty && cs.all isDigit then some (ofDigits cs) else none

def twoTo (k : Nat) : Nat := Nat.pow 2 k

def tenTo (k : Nat) : Nat := Nat.pow 10 k

def wordLimit : Nat := twoTo 64

def natBelow? (limit : Nat) (cs : List Char) : Option Nat := do
  let n ← digits? (match cs with | '+' :: ds => ds | ds => ds)
  if n < limit then some n else none

def word? (cs : List Char) : Option Nat := natBelow? wordLimit cs

def intLimit : Nat := twoTo 63

def fitsInt (n : Int) : Bool := -(intLimit : Int) ≤ n && n < intLimit

def digits (n : Nat) : List Char := Nat.toDigits 10 n

def padded (width n : Nat) : List Char :=
  List.replicate (width - (digits n).length) '0' ++ digits n

def identifier (now : Nat) : String := String.ofList (padded 26 now)

def paddedInt (width : Nat) : Int → List Char
  | .ofNat n => padded width n
  | .negSucc n => '-' :: padded (width - 1) (n + 1)

end Number

open Number (twoTo tenTo)

namespace Double

def leastExponent : Int := -1074

def greatestExponent : Int := 971

/-- `significand · 2 ^ exponent` has 53 bits, or fewer only at the least exponent, so a number has one
significand and exponent. -/
def IsNormal (significand : Nat) (exponent : Int) : Prop :=
  significand < twoTo 53 ∧ leastExponent ≤ exponent ∧ exponent ≤ greatestExponent ∧
    (twoTo 52 ≤ significand ∨ exponent = leastExponent)

instance (m : Nat) (e : Int) : Decidable (IsNormal m e) := by
  unfold IsNormal; infer_instance

end Double

inductive Double
  | finite (negative : Bool) (significand : Nat) (exponent : Int)
      (normal : Double.IsNormal significand exponent)
  | infinite (negative : Bool)
  | nan
  deriving DecidableEq

namespace Double

def zero (negative : Bool) : Double :=
  .finite negative 0 leastExponent (by decide)

def roundDiv (num den : Nat) : Nat :=
  let q := num / den
  let r := num % den
  if 2 * r < den ∨ (2 * r = den ∧ q % 2 = 0) then q else q + 1

def scale (num den : Nat) : Int :=
  let e : Int := (num.log2 : Int) - den.log2 - 52
  max leastExponent (if num * twoTo (-e).toNat < den * twoTo e.toNat * twoTo 52 then e - 1 else e)

def ofRatio (negative : Bool) (num den : Nat) : Double :=
  if num = 0 then zero negative else
  let e := scale num den
  let m := roundDiv (num * twoTo (-e).toNat) (den * twoTo e.toNat)
  if h : IsNormal m e then .finite negative m e h
  else if h : IsNormal (m / 2) (e + 1) then .finite negative (m / 2) (e + 1) h
  else .infinite negative

/-- The number nearest to `digits · 10 ^ exponent`. Exponents far outside the range are settled
without computing the power. -/
def ofDecimal (negative : Bool) (digits : Nat) (exponent : Int) : Double :=
  if digits = 0 then zero negative
  else if exponent > 400 then .infinite negative
  else if exponent < -400 - digits.log2 then zero negative
  else if 0 ≤ exponent then ofRatio negative (digits * tenTo exponent.toNat) 1
  else ofRatio negative digits (tenTo (-exponent).toNat)

def ofInt (n : Int) : Double := ofDecimal (n < 0) n.natAbs 0

def splitSign : List Char → Bool × List Char
  | '-' :: cs => (true, cs)
  | '+' :: cs => (false, cs)
  | cs => (false, cs)

def exponent? : List Char → Option Int
  | [] => some 0
  | c :: cs =>
    if c = 'e' ∨ c = 'E' then
      let (negative, ds) := splitSign cs
      (Number.digits? ds).map fun n => if negative then -(n : Int) else n
    else none

def positional? (negative : Bool) (cs : List Char) : Option Double :=
  let whole := cs.takeWhile Number.isDigit
  let rest := cs.dropWhile Number.isDigit
  let (fraction, rest) := match rest with
    | '.' :: fs => (fs.takeWhile Number.isDigit, fs.dropWhile Number.isDigit)
    | _ => ([], rest)
  if whole.isEmpty && fraction.isEmpty then none
  else (exponent? rest).map fun e =>
    ofDecimal negative (Number.ofDigits (whole ++ fraction)) (e - fraction.length)

def read? (cs : List Char) : Option Double :=
  let (negative, body) := splitSign cs
  let name := String.ofList (body.map Char.toLower)
  if name = "inf" ∨ name = "infinity" then some (.infinite negative)
  else if name = "nan" then some .nan
  else positional? negative body

def ratio (m : Nat) (e : Int) : Nat × Nat := (m * twoTo e.toNat, twoTo (-e).toNat)

/-- The neighbours of `num / den` on the grid of multiples of `10 ^ k` that read back as the number
with significand `m` and exponent `e`, the nearer one first. -/
def gridPoints (m : Nat) (e k : Int) : List Nat :=
  let (num, den) := ratio m e
  let num := num * tenTo (-k).toNat
  let den := den * tenTo k.toNat
  let low := num / den
  let order := if 2 * (num % den) < den then [low, low + 1] else [low + 1, low]
  order.filter fun d => match ofDecimal false d k with
    | .finite _ m' e' _ => m' = m ∧ e' = e
    | _ => false

def shortestFrom (m : Nat) (e : Int) : Nat → Int → Nat × Int
  | 0, _ => if 0 ≤ e then (m * twoTo e.toNat, 0) else (m * Nat.pow 5 (-e).toNat, e)
  | tries + 1, k => match gridPoints m e k with
    | d :: _ => (d, k)
    | [] => shortestFrom m e tries (k - 1)

def shortest (m : Nat) (e : Int) : Nat × Int :=
  let (num, den) := ratio m e
  let top := (Number.digits (num / den)).length
  shortestFrom m e (top + 345) top

def positional (d : Nat) (k : Int) : List Char :=
  if 0 ≤ k then Number.digits (d * tenTo k.toNat)
  else
    let places := (-k).toNat
    let ds := Number.padded (places + 1) d
    ds.take (ds.length - places) ++ '.' :: ds.drop (ds.length - places)

def text : Double → List Char
  | .finite negative m e _ =>
    let (d, k) := if m = 0 then (0, 0) else shortest m e
    (if negative then ['-'] else []) ++ positional d k
  | .infinite negative => (if negative then ['-'] else []) ++ "inf".toList
  | .nan => "NaN".toList

def rank : Double → Int
  | .finite negative m e _ =>
    let magnitude : Int := if m = 0 then 0 else (e - leastExponent) * twoTo 53 + m
    if negative then -magnitude else magnitude
  | .infinite negative =>
    let magnitude : Int := (greatestExponent - leastExponent + 1) * twoTo 53
    if negative then -magnitude else magnitude
  | .nan => 0

def same (x y : Double) : Bool := x != .nan && y != .nan && x.rank == y.rank

def greater (x y : Double) : Double :=
  if x = .nan then y else if y = .nan then x else if x.rank < y.rank then y else x

def lesser (x y : Double) : Double :=
  if x = .nan then y else if y = .nan then x else if y.rank < x.rank then y else x

end Double

end FilterQuery
