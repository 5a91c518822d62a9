import FilterQuery.Json

/-! Reading JSON text. A number with a point or an exponent is taken in as a word and a power of ten, which are rounded
apart and then multiplied or divided, so that it is not always the nearest number that is read. -/

namespace FilterQuery.Json

open Number (isDigit digitValue tenTo)

def takeDigits (significand : Nat) : List Char → Nat × Nat × List Char
  | [] => (significand, 0, [])
  | c :: cs =>
    if significand * 10 + digitValue c < Number.wordLimit then
      let (s, n, rest) := takeDigits (significand * 10 + digitValue c) cs
      (s, n + 1, rest)
    else (significand, 0, c :: cs)

def nearest (num den : Nat) : Nat × Nat :=
  match Double.ofRatio false num den with
  | .finite _ m e _ => Double.ratio m e
  | _ => (num, den)

def greatestPower : Nat := 308

def descend : Nat → Nat × Nat → Nat × Nat
  | 0, x => x
  | steps + 1, x =>
    if x.1 = 0 then x
    else
      let power := nearest (tenTo greatestPower) 1
      descend steps (nearest (x.1 * power.2) (x.2 * power.1))

def fromParts? (negative : Bool) (significand : Nat) (exponent : Int) : Option Double :=
  let x := nearest significand 1
  if greatestPower < exponent then if significand = 0 then some (.zero negative) else none
  else if 0 ≤ exponent then
    let power := nearest (tenTo exponent.toNat) 1
    match Double.ofRatio negative (x.1 * power.1) (x.2 * power.2) with
    | .infinite _ => none
    | y => some y
  else
    let steps := ((-exponent).toNat - 1) / greatestPower
    let x := descend steps x
    let power := nearest (tenTo ((-exponent).toNat - greatestPower * steps)) 1
    some (.ofRatio negative (x.1 * power.2) (x.2 * power.1))

def ofWord (negative : Bool) (n : Nat) : Json :=
  if !negative then .int n
  else if n ≠ 0 ∧ Number.fitsInt (-n) then .int (-n)
  else .real (.ofRatio true n 1)

def unsigned? (negative : Bool) (cs : List Char) : Option Json :=
  let whole := cs.takeWhile isDigit
  let (s, _, dropped) := takeDigits 0 whole
  if whole.isEmpty || (whole.head? == some '0' && whole.length != 1) then none
  else match cs.dropWhile isDigit with
    | [] =>
      if dropped.isEmpty then some (ofWord negative s)
      else (fromParts? negative s dropped.length).map .real
    | '.' :: rest =>
      let fraction := rest.takeWhile isDigit
      let (s, n, _) := takeDigits s fraction
      if fraction.isEmpty then none
      else (Double.exponent? (rest.dropWhile isDigit)).bind fun e =>
        (fromParts? negative s (dropped.length - n + e)).map .real
    | rest => (Double.exponent? rest).bind fun e => (fromParts? negative s (dropped.length + e)).map .real

def number? : List Char → Option Json
  | '-' :: cs => unsigned? true cs
  | cs => unsigned? false cs

def isNumberChar (c : Char) : Bool := isDigit c || c == '-' || c == '+' || c == '.' || c == 'e' || c == 'E'

def hexValue? (c : Char) : Option Nat :=
  if isDigit c then some (digitValue c)
  else if 'a' ≤ c && c ≤ 'f' then some (c.toNat - 'a'.toNat + 10)
  else if 'A' ≤ c && c ≤ 'F' then some (c.toNat - 'A'.toNat + 10)
  else none

def hexValues? (cs : List Char) : Option Nat :=
  cs.foldlM (fun n c => (hexValue? c).map (16 * n + ·)) 0

def unescape? : Char → Option Char
  | '"' => some '"'
  | '\\' => some '\\'
  | '/' => some '/'
  | 'b' => some '\x08'
  | 'f' => some '\x0c'
  | 'n' => some '\n'
  | 'r' => some '\r'
  | 't' => some '\t'
  | _ => none

def ofHalves (high low : Nat) : Char := Char.ofNat (0x10000 + (high - 0xd800) * 0x400 + (low - 0xdc00))

def quoted? : List Char → Option (List Char × List Char)
  | '"' :: cs => some ([], cs)
  | '\\' :: 'u' :: a :: b :: c :: d :: cs => (hexValues? [a, b, c, d]).bind fun n =>
    if n < 0xd800 ∨ 0xe000 ≤ n then (quoted? cs).map fun (s, rest) => (Char.ofNat n :: s, rest)
    else match cs with
      | '\\' :: 'u' :: a :: b :: c :: d :: cs => (hexValues? [a, b, c, d]).bind fun m =>
        if n < 0xdc00 ∧ 0xdc00 ≤ m ∧ m < 0xe000 then (quoted? cs).map fun (s, rest) => (ofHalves n m :: s, rest)
        else none
      | _ => none
  | '\\' :: c :: cs => (unescape? c).bind fun c => (quoted? cs).map fun (s, rest) => (c :: s, rest)
  | c :: cs => if c.toNat < 32 then none else (quoted? cs).map fun (s, rest) => (c :: s, rest)
  | [] => none

def isBlank (c : Char) : Bool := c == ' ' || c == '\n' || c == '\r' || c == '\t'

def word? : List Char → Option (Json × List Char)
  | 't' :: 'r' :: 'u' :: 'e' :: rest => some (.bool true, rest)
  | 'f' :: 'a' :: 'l' :: 's' :: 'e' :: rest => some (.bool false, rest)
  | 'n' :: 'u' :: 'l' :: 'l' :: rest => some (.null, rest)
  | _ => none

mutual
def value? : Nat → List Char → Option (Json × List Char)
  | 0, _ => none
  | fuel + 1, cs => match cs.dropWhile isBlank with
    | [] => none
    | c :: cs =>
      if c = '"' then (quoted? cs).map fun (s, rest) => (.string (String.ofList s), rest)
      else if c = '[' then match cs.dropWhile isBlank with
        | ']' :: rest => some (.array [], rest)
        | cs => (items? fuel cs).map fun (vs, rest) => (.array vs, rest)
      else if c = '{' then match cs.dropWhile isBlank with
        | '}' :: rest => some (.object [], rest)
        | cs => (members? fuel cs).map fun (ms, rest) => (.object ms, rest)
      else if isNumberChar c then
        (number? ((c :: cs).takeWhile isNumberChar)).map fun j => (j, (c :: cs).dropWhile isNumberChar)
      else word? (c :: cs)

def items? : Nat → List Char → Option (List Json × List Char)
  | 0, _ => none
  | fuel + 1, cs => (value? fuel cs).bind fun (v, rest) => match rest.dropWhile isBlank with
    | ',' :: rest => (items? fuel rest).map fun (vs, rest) => (v :: vs, rest)
    | ']' :: rest => some ([v], rest)
    | _ => none

def members? : Nat → List Char → Option (List (String × Json) × List Char)
  | 0, _ => none
  | fuel + 1, cs => match cs.dropWhile isBlank with
    | '"' :: cs => (quoted? cs).bind fun (key, rest) => match rest.dropWhile isBlank with
      | ':' :: rest => (value? fuel rest).bind fun (v, rest) => match rest.dropWhile isBlank with
        | ',' :: rest => (members? fuel rest).map fun (ms, rest) => ((String.ofList key, v) :: ms, rest)
        | '}' :: rest => some ([(String.ofList key, v)], rest)
        | _ => none
      | _ => none
    | _ => none
end

def read? (text : String) : Option Json :=
  let cs := text.toList
  match value? (2 * cs.length) cs with
  | some (j, rest) => if rest.all isBlank then some j else none
  | none => none

end FilterQuery.Json
