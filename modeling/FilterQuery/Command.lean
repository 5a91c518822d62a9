import FilterQuery.Compiled.Json
import FilterQuery.Config.File
import FilterQuery.Session
import FilterQuery.Tree.Json

namespace FilterQuery

inductive Command
  | parse (query : String)
  | compile (query : String) (limit offset : Option Nat)
  | canonical (query : String)
  | list
  | display (name : String)
  | add (name query : String) (description : Option String) (key : Option Nat)
  | update (name : String) (query description : Option String)
  | rename (origin target : String)
  | delete (name : String) (confirmed : Bool)
  | shortcut (name : String) (key : Option Nat)
  | run (key : Nat)
  deriving DecidableEq

namespace Command

def mutates : Command → Bool
  | parse _ | compile .. | canonical _ | list | display _ => false
  | _ => true

def lockName : String := "catus.lock"

inductive Failure
  | config (failure : Config.Failure)
  | unlocked
  | refused (refusal : Stack.Refusal)
  | problems (count : Nat)
  | unknownStack (name : String)
  | unboundShortcut (key : Nat)
  | noTerminal
  | unprinted
  deriving DecidableEq

namespace Failure

def message : Failure → String
  | config failure => s!"{failure.message}\n\nCaused by:\n    {failure.cause}"
  | unlocked => "failed to lock the stack file"
  | refused refusal => refusal.message
  | problems count => s!"query has {count} parse error(s)"
  | unknownStack name => s!"stack not found: @{name}"
  | unboundShortcut key => s!"no stack is bound to shortcut {key}"
  | noTerminal => "The input device is not a TTY"
  | unprinted => "failed printing"

def code : Failure → Nat
  | refused .overrun | unprinted => 101
  | _ => 1

end Failure

structure Outcome where
  output : String
  remarks : String
  failure : Option Failure
  storage : Storage

namespace Outcome

def code (o : Outcome) : Nat := (o.failure.map Failure.code).getD 0

def errors (o : Outcome) : String :=
  o.remarks ++ match o.failure with
    | some failure => s!"Error: {failure.message}\n"
    | none => ""

end Outcome

inductive Line
  | output (text : String)
  | remark (text : String)

namespace Line

def output? : Line → Option String
  | output text => some text
  | remark _ => none

def remark? : Line → Option String
  | output _ => none
  | remark text => some text

def heard (prints : Nat → Bool) (n : Nat) : List Line → List Line
  | [] => []
  | l :: ls => if prints n then l :: heard prints (n + 1) ls else []

end Line

/-- What comes of a command in a session: what it prints before the stacks are changed, the session after the change,
what it prints then, and how it ends if all of this gets through. -/
structure Effect where
  before : List Line
  session : Session
  after : List Line
  failure : Option Failure

namespace Effect

def printed (s : Session) (lines : List Line) : Effect := ⟨[], s, lines, none⟩

def failed (s : Session) (failure : Failure) : Effect := ⟨[], s, [], some failure⟩

def noting (lines : List Line) (e : Effect) : Effect := { e with before := lines ++ e.before }

def outcome (s : Session) (prints : Nat → Bool) (e : Effect) : Outcome :=
  let lines := e.before ++ e.after
  let heard := Line.heard prints 0 lines
  { output := String.join (heard.filterMap Line.output?)
    remarks := String.join (heard.filterMap Line.remark?)
    failure := if heard.length < lines.length then some .unprinted else e.failure
    storage := (if heard.length < e.before.length then s else e.session).store.storage }

end Effect

def report (t : Tree) : List Line :=
  let warnings := t.warnings.map fun w => .remark s!"warning: {w.message}\n"
  let problems := t.problems.flatMap fun p =>
    let margin := String.ofList (List.replicate p.position ' ' ++ List.replicate (max p.length 1) '^')
    [.remark s!"error: {p.fault.message}\n", .remark s!"  {t.query}\n", .remark s!"  {margin}\n"]
  warnings ++ problems

def jsonText (j : Json) : String := j.pretty 0 ++ "\n"

def printJson (j : Json) : List Line := [.output (jsonText j)]

def listing (s : Stack) : Line :=
  let key := (s.shortcut.map fun n => s!"[{n}] ").getD ""
  .output s!"{key}@{s.name}\t{s.query}\n"

def withTree (s : Session) (query : String) (next : Tree → Effect) : Effect :=
  match s.parse query with
  | .ok t => next t
  | .error _ => .failed s (.refused .overrun)

def perform (s : Session) (op : Stack.Operation) : Effect :=
  match s.store.perform op with
  | .ok (store, subject) =>
    .printed { s with store := store } ((subject.map fun t => printJson t.toRecord.toJson).getD [])
  | .error refusal => .failed s (.refused refusal)

/-- Carries a command out. A deletion is carried out only if it is confirmed, by the command or by the
answer to a question. -/
def execute (s : Session) (answer : Option Bool) : Command → Effect
  | parse query => withTree s query fun t => .printed s (printJson t.toJson)
  | compile query limit offset => withTree s query fun t =>
    if t.hasProblems then (Effect.failed s (.problems t.problems.length)).noting (report t)
    else
      let page := { s.config.page with limit := limit.getD s.config.page.limit, offset := offset.getD 0 }
      (Effect.printed s (printJson (Compiled.ofNode? page t.root).toJson)).noting (report t)
  | canonical query => withTree s query fun t =>
    (Effect.printed s [.output ((s.compileTree t).toQuery ++ "\n")]).noting (report t)
  | list => .printed s (s.store.list.map listing)
  | display name => match s.store.get? name with
    | some t => .printed s (printJson (Json.object [("stack", t.toRecord.toJson), ("tree", t.tree.toJson)]).sorted)
    | none => .failed s (.unknownStack name)
  | add name query description key => withTree s query fun t =>
    (perform s (.create ⟨name, query, description, none, key⟩)).noting (report t)
  | update name query description =>
    let revised := perform s (.update name ⟨query, description, none⟩)
    match query with
    | some query => withTree s query fun t => revised.noting (report t)
    | none => revised
  | rename origin target => perform s (.rename origin target)
  | delete name confirmed =>
    if (s.store.get? name).isNone then .failed s (.unknownStack name)
    else match if confirmed then some true else answer with
      | none => .failed s .noTerminal
      | some false => .printed s []
      | some true =>
        let deleted := perform s (.delete name)
        if deleted.failure.isSome then deleted else { deleted with after := [.output s!"deleted @{name}\n"] }
  | shortcut name key => perform s (.assignShortcut name key)
  | run key => match s.markShortcut key with
    | .error refusal => .failed s (.refused refusal)
    | .ok none => .failed s (.unboundShortcut key)
    | .ok (some (s, stack)) => withTree s stack.query fun t =>
      .printed s (report stack.tree ++ printJson (s.compileTree t).toJson)

def question? (s : Session) : Command → Option String
  | delete name false => if (s.store.get? name).isSome then some s!"Delete stack @{name}? (y/n)" else none
  | _ => none

def locked (s : Storage) : Storage := if s.contains lockName then s else s.put lockName ByteArray.empty

/-- What may go wrong around a command: the lock is not got, a write of the settings, of an empty file of stacks or of
the stacks does not take place, or a line that is printed does not get through. -/
structure Conditions where
  locks : Bool
  configures : Bool
  creates : Bool
  saves : Bool
  prints : Nat → Bool

def Conditions.calm : Conditions := ⟨true, true, true, true, fun _ => true⟩

def prepare (c : Command) (storage : Storage) (clock : Nat) (w : Conditions := .calm) : Except Outcome Session :=
  match Config.load (storage.turned w.configures) with
  | .error failure => .error ⟨"", "", some (.config failure), storage⟩
  | .ok (config, storage) =>
    if c.mutates && !w.locks then .error ⟨"", "", some .unlocked, storage⟩
    else
      let storage := if c.mutates then locked storage else storage
      match Store.openOn (storage.turned w.creates) config clock with
      | .error refusal => .error ⟨"", "", some (.refused refusal), storage⟩
      | .ok store => .ok (Session.start config (store.turned w.saves))

def runOn (c : Command) (storage : Storage) (clock : Nat) (w : Conditions := .calm) : Outcome :=
  match c.prepare storage clock w with
  | .error outcome => outcome
  | .ok s => (c.execute s none).outcome s w.prints

end Command

end FilterQuery
