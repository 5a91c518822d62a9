import FilterQuery.Command

namespace FilterQuery.Command

inductive Rejection
  | usage
  | help
  | version
  deriving DecidableEq

inductive Kind
  | text
  -- An unsigned word of 64 bits.
  | word
  -- A number below 256.
  | byte

def byte? (s : String) : Option Nat :=
  match s.toList with
  | '-' :: cs => if Number.digits? cs = some 0 then some 0 else none
  | cs => Number.natBelow? 256 cs

def Kind.accepts (s : String) : Kind → Bool
  | text => true
  | word => (Number.word? s.toList).isSome
  | byte => (byte? s).isSome

structure Switch where
  name : String
  letter : Char
  value : Option Kind

structure Given where
  operands : List String
  switches : List (Char × String)

namespace Given

def empty : Given := ⟨[], []⟩

def text? (g : Given) (letter : Char) : Option String := g.switches.lookup letter

def word? (g : Given) (letter : Char) : Option Nat := (g.text? letter).bind (Number.word? ·.toList)

def byte? (g : Given) (letter : Char) : Option Nat := (g.text? letter).bind Command.byte?

def give (g : Given) (s : Switch) (value : String) : Except Rejection Given :=
  if (g.text? s.letter).isSome || !s.value.all (·.accepts value) then .error .usage
  else .ok { g with switches := g.switches ++ [(s.letter, value)] }

end Given

structure Form where
  words : List String
  operands : List Kind
  switches : List Switch
  build : Given → Option Command

namespace Form

def operate (f : Form) (g : Given) (value : String) : Except Rejection Given :=
  match f.operands[g.operands.length]? with
  | some kind =>
    if kind.accepts value then .ok { g with operands := g.operands ++ [value] } else .error .usage
  | none => .error .usage

/-- Takes in letters behind one dash. What stands behind the letter of a switch with a value is that value;
if nothing does, the switch waits for it. -/
def readLetters (f : Form) (g : Given) : List Char → Except Rejection (Given × Option Switch)
  | [] => .ok (g, none)
  | c :: cs =>
    if c = 'h' then .error .help
    else match f.switches.find? (·.letter == c) with
      | none => .error .usage
      | some s =>
        if s.value.isNone then do readLetters f (← g.give s "") cs
        else if cs.isEmpty then .ok (g, some s)
        else do
          let value := match cs with
            | '=' :: value => value
            | value => value
          return (← g.give s (String.ofList value), none)

def readName (f : Form) (g : Given) (cs : List Char) : Except Rejection (Given × Option Switch) :=
  let name := String.ofList (cs.takeWhile (· != '='))
  let attached := (cs.dropWhile (· != '=')).tail?
  if name = "help" then .error (if attached.isSome then .usage else .help)
  else match f.switches.find? (·.name == name) with
    | none => .error .usage
    | some s => match s.value, attached with
      | none, none => do return (← g.give s "", none)
      | none, some _ => .error .usage
      | some _, some value => do return (← g.give s (String.ofList value), none)
      | some _, none => .ok (g, some s)

/-- Takes in arguments. `waiting` is a switch whose value comes next; behind two dashes everything is an
operand. -/
def readFrom (f : Form) (g : Given) (waiting : Option Switch) (operandsOnly : Bool) :
    List String → Except Rejection Given
  | [] => if waiting.isSome then .error .usage else .ok g
  | arg :: args =>
    if operandsOnly then do readFrom f (← f.operate g arg) none true args
    else match arg.toList, waiting with
      | '-' :: _ :: _, some _ => .error .usage
      | ['-', '-'], none => readFrom f g none true args
      | '-' :: '-' :: cs, none => do
        let (g, waiting) ← f.readName g cs
        readFrom f g waiting false args
      | '-' :: c :: cs, none => do
        let (g, waiting) ← f.readLetters g (c :: cs)
        readFrom f g waiting false args
      | _, some s => do readFrom f (← g.give s arg) none false args
      | _, none => do readFrom f (← f.operate g arg) none false args

def read (f : Form) (args : List String) : Except Rejection Command := do
  match f.build (← f.readFrom .empty none false args) with
  | some c => .ok c
  | none => .error .usage

end Form

def forms : List Form := [
  ⟨["parse"], [.text], [], fun g => match g.operands with
    | [query] => some (parse query)
    | _ => none⟩,
  ⟨["compile"], [.text], [⟨"limit", 'l', some .word⟩, ⟨"offset", 'o', some .word⟩],
    fun g => match g.operands with
    | [query] => some (compile query (g.word? 'l') (g.word? 'o'))
    | _ => none⟩,
  ⟨["canonical"], [.text], [], fun g => match g.operands with
    | [query] => some (canonical query)
    | _ => none⟩,
  ⟨["stack", "list"], [], [], fun _ => some list⟩,
  ⟨["stack", "show"], [.text], [], fun g => match g.operands with
    | [name] => some (display name)
    | _ => none⟩,
  ⟨["stack", "add"], [.text, .text],
    [⟨"description", 'd', some .text⟩, ⟨"shortcut", 's', some .byte⟩], fun g => match g.operands with
    | [name, query] => some (add name query (g.text? 'd') (g.byte? 's'))
    | _ => none⟩,
  ⟨["stack", "update"], [.text],
    [⟨"query", 'q', some .text⟩, ⟨"description", 'd', some .text⟩], fun g => match g.operands with
    | [name] => some (update name (g.text? 'q') (g.text? 'd'))
    | _ => none⟩,
  ⟨["stack", "rename"], [.text, .text], [], fun g => match g.operands with
    | [origin, target] => some (rename origin target)
    | _ => none⟩,
  ⟨["stack", "delete"], [.text], [⟨"yes", 'y', none⟩], fun g => match g.operands with
    | [name] => some (delete name (g.text? 'y').isSome)
    | _ => none⟩,
  ⟨["stack", "shortcut"], [.text, .byte], [], fun g => match g.operands with
    | [name] => some (shortcut name none)
    | [name, key] => some (shortcut name (byte? key))
    | _ => none⟩,
  ⟨["stack", "run"], [.byte], [], fun g => match g.operands with
    | [key] => (byte? key).map run
    | _ => none⟩]

def isGroup (words : List String) : Bool :=
  forms.any fun f => words.isPrefixOf f.words && words.length < f.words.length

def isCommand (words : List String) : Bool := forms.any (·.words == words)

def hasHelp (words : List String) : Bool :=
  words.isEmpty || isGroup words || isCommand words
    || (words.getLast? == some "help" && (words.length == 1 || isGroup words.dropLast))

def outerSwitch (outermost : Bool) (cs : List Char) : Rejection :=
  let short := cs.take 1 != ['-']
  if (short && cs.head? == some 'h') || cs == "-help".toList then .help
  else if outermost && ((short && cs.head? == some 'V') || cs == "-version".toList) then .version
  else .usage

def readWords (words : List String) : List String → Except Rejection Command
  | [] => .error .usage
  | arg :: args =>
    match arg.toList with
    | '-' :: c :: cs => .error (outerSwitch words.isEmpty (c :: cs))
    | _ =>
      if arg = "help" then .error (if hasHelp (words ++ args) then .help else .usage)
      else match forms.find? (·.words == words ++ [arg]) with
        | some f => f.read args
        | none => if isGroup (words ++ [arg]) then readWords (words ++ [arg]) args else .error .usage

def ofArguments (args : List String) : Except Rejection Command := readWords [] args

def programName : String := "catus"

def versionText : String := s!"{programName} 0.1.0\n"

def Kind.placeholder : Kind → String
  | text => "TEXT"
  | word => "COUNT"
  | byte => "KEY"

def Form.usage (f : Form) : String :=
  let switches := f.switches.map fun s =>
    let value := (s.value.map fun kind => s!" {kind.placeholder}").getD ""
    s!"[--{s.name}{value}]"
  " ".intercalate (programName :: f.words ++ f.operands.map Kind.placeholder ++ switches)

def helpText : String := String.join (forms.map fun f => s!"{f.usage}\n")

namespace Rejection

def code : Rejection → Nat
  | usage => 2
  | help | version => 0

def output : Rejection → String
  | usage => ""
  | help => helpText
  | version => versionText

def errors : Rejection → String
  | usage => helpText
  | help | version => ""

end Rejection

end FilterQuery.Command
