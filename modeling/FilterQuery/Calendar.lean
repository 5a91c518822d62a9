import FilterQuery.Number
import FilterQuery.Text.Ranges

namespace FilterQuery.Calendar

def isLeap (year : Int) : Bool :=
  year % 4 == 0 && (year % 100 != 0 || year % 400 == 0)

def monthLengths (year : Int) : List Nat :=
  [31, if isLeap year then 29 else 28, 31, 30, 31, 30, 31, 31, 30, 31, 30, 31]

def yearStart (year : Int) : Int :=
  365 * (year - 1) + (year - 1) / 4 - (year - 1) / 100 + (year - 1) / 400 - 719162

def yearOf (n : Int) : Int :=
  let guess := (n + 719162) * 400 / 146097 + 1
  if n < yearStart guess then guess - 1
  else if yearStart (guess + 1) ≤ n then guess + 1
  else guess

structure Date where
  year : Int
  month : Nat
  day : Nat
  deriving DecidableEq

namespace Date

def leastYear : Int := -262143

def greatestYear : Int := 262142

def exists? (d : Date) : Bool :=
  leastYear ≤ d.year && d.year ≤ greatestYear &&
    match d.month with
    | 0 => false
    | m + 1 => match (monthLengths d.year)[m]? with
      | some length => 1 ≤ d.day && d.day ≤ length
      | none => false

def of? (year : Int) (month day : Nat) : Option Date :=
  let d : Date := ⟨year, month, day⟩
  if d.exists? then some d else none

def toDays (d : Date) : Int :=
  let passed : Nat := ((monthLengths d.year).take (d.month - 1)).foldl (· + ·) 0
  yearStart d.year + passed + d.day - 1

/-- The month and day of the day that comes `rest` days after the first of `month`, where `lengths` are
the lengths of the months from there on. -/
def splitMonths (month : Nat) : List Nat → Nat → Nat × Nat
  | [], rest => (month, rest + 1)
  | length :: lengths, rest =>
    if rest < length then (month, rest + 1) else splitMonths (month + 1) lengths (rest - length)

def ofDays (n : Int) : Date :=
  let year := yearOf n
  let (month, day) := splitMonths 1 (monthLengths year) (n - yearStart year).toNat
  ⟨year, month, day⟩

def monthAfter? (d : Date) : Option Date :=
  if d.month = 12 then of? (d.year + 1) 1 1 else of? d.year (d.month + 1) 1

def dayAfter? (d : Date) : Option Date :=
  let next := ofDays (d.toDays + 1)
  if next.exists? then some next else none

def text (d : Date) : List Char :=
  (if 9999 < d.year then '+' :: Number.paddedInt 4 d.year
   else if d.year < 0 then Number.paddedInt 5 d.year
   else Number.paddedInt 4 d.year)
    ++ '-' :: Number.padded 2 d.month ++ '-' :: Number.padded 2 d.day

def field? (width : Nat) (cs : List Char) : Option (Nat × List Char) :=
  let ds := ((Text.trimStart cs).take width).takeWhile Number.isDigit
  if ds.isEmpty then none
  else some (Number.ofDigits ds, (Text.trimStart cs).drop ds.length)

def year? (cs : List Char) : Option (Int × List Char) :=
  match Text.trimStart cs with
  | '-' :: cs => do
    let ds := cs.takeWhile Number.isDigit
    let n ← Number.digits? ds
    some (-(n : Int), cs.drop ds.length)
  | '+' :: cs => do
    let ds := cs.takeWhile Number.isDigit
    let n ← Number.digits? ds
    some ((n : Int), cs.drop ds.length)
  | cs => (field? 4 cs).map fun (n, rest) => ((n : Int), rest)

def hyphen? : List Char → Option (List Char)
  | '-' :: cs => some cs
  | _ => none

/-- Reads a year, a month and a day with hyphens between them. Blanks may stand in front of each number
and leading zeros may be left out. -/
def read? (cs : List Char) : Option Date := do
  let (year, cs) ← year? cs
  let cs ← hyphen? cs
  let (month, cs) ← field? 2 cs
  let cs ← hyphen? cs
  let (day, cs) ← field? 2 cs
  if cs.isEmpty then of? year month day else none

end Date

structure Period where
  first : Int
  last : Int
  deriving DecidableEq

def millisPerDay : Int := 86400000

namespace Period

def between (d next : Date) : Period :=
  ⟨d.toDays * millisPerDay, next.toDays * millisPerDay - 1⟩

def year? (y : Int) : Option Period := do
  let first ← Date.of? y 1 1
  let next ← Date.of? (y + 1) 1 1
  some (between first next)

def month? (cs : List Char) : Option Period := do
  let first ← Date.read? (cs ++ "-01".toList)
  let next ← first.monthAfter?
  some (between first next)

def day? (cs : List Char) : Option Period := do
  let day ← Date.read? cs
  let next ← day.dayAfter?
  some (between day next)

def instant? (cs : List Char) : Option Period :=
  let n : Int := Number.ofDigits cs
  if Number.fitsInt n then some ⟨n, n⟩ else none

def utf8Length (cs : List Char) : Nat := cs.foldl (fun n c => n + c.utf8Size) 0

/-- What a date text denotes. Digits alone are a year if there are four of them and a number of
milliseconds if there are more; seven bytes are a month and ten are a day. -/
def read? (cs : List Char) : Option Period :=
  if cs.all Number.isDigit && 4 < cs.length then instant? cs
  else if cs.all Number.isDigit && cs.length == 4 then year? (Number.ofDigits cs)
  else if utf8Length cs = 7 then month? cs
  else if utf8Length cs = 10 then day? cs
  else none

end Period

def dayOf? (millis : Int) : Option Date :=
  let d := Date.ofDays (millis / millisPerDay)
  if d.exists? then some d else none

end FilterQuery.Calendar
