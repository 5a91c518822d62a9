import FilterQuery.Calendar
import FilterQuery.Node
import FilterQuery.Number
import FilterQuery.Pattern.Grammar
import FilterQuery.Tree
import FilterQuery.Text.LowerCase
import FilterQuery.Token.Scan

/-! The clauses of a query: connectives, parentheses, references and whole terms. Reading a term settles
everything about it but its place among the groups. -/

namespace FilterQuery

inductive Clause
  | and (t : Token)
  | or (t : Token)
  | not (t : Token)
  | leftParen (t : Token)
  | rightParen (t : Token)
  | reference (t : Token) (name : String)
  | term (node : Node) (warning : Option Warning)
  | broken (problem : Problem)

namespace Clause

abbrev Sign := Token × Stance

def stanceOf (sign : Option Sign) : Stance := (sign.map (·.2)).getD .is

def signed (sign : Option Sign) (leaf : Leaf) : Clause :=
  match sign with
  | some (_, .isNot) => .term (Node.leaf leaf).negate none
  | some (t, .both) => .broken (.atToken (.misplacedStance .both) t)
  | some (t, .neither) => .broken (.atToken (.misplacedStance .neither) t)
  | _ => .term (.leaf leaf) none

def plain (leaf : Leaf) : Clause := .term (.leaf leaf) none

/-- Skips the rest of a malformed term: up to a connective, a closing parenthesis or a blank. The token
before ends at `previous`. -/
def recover (previous : Nat) : List Token → List Token
  | [] => []
  | t :: ts =>
    if t.kind = .and ∨ t.kind = .or ∨ t.kind = .rightParen ∨ previous < t.position then t :: ts
    else recover t.stop ts

def regexFlags : List Char := ['i', 'm', 's', 'x', 'u', 'g']

def regexFault? (pattern flags : String) : Option Fault :=
  match flags.toList.find? (!regexFlags.contains ·) with
  | some c => some (.unknownFlag c)
  | none =>
    if Pattern.isWellFormed flags.toList pattern.toList then none else some .invalidRegex

def regex (sign : Option Sign) (t : Token) (pattern flags : String) (field : Option String) : Clause :=
  match regexFault? pattern flags with
  | some fault => .broken (.atToken fault t)
  | none => signed sign (.regex pattern flags field)

def bareValue? : Token.Kind → Option String
  | .word v | .number v | .date v => some v
  | _ => none

def isNumberKind : Token.Kind → Bool
  | .number _ => true
  | _ => false

def valueFault? (category : Category) (t : Token) (value : String) : Option Fault :=
  match category with
  | .date => if (Calendar.Period.read? value.toList).isSome then none else some (.invalidDate value)
  | .words => if (Number.word? value.toList).isSome then none else some (.invalidCount value)
  | _ =>
    if isNumberKind t.kind && (Double.read? value.toList).isSome then none
    else some (.invalidNumber category value)

def missingOperand (category : Category) (before : Token) : Fault :=
  if category = .date then .missingDate before.text else .missingNumber before.text

def operand (category : Category) (before : Token) (ts : List Token) :
    Except Problem String × List Token :=
  match ts with
  | [] => (.error (.atToken (missingOperand category before) before), [])
  | t :: rest => match bareValue? t.kind with
    | some v => match valueFault? category t v with
      | some fault => (.error (.atToken fault t), rest)
      | none => (.ok v, rest)
    | none => (.error (.atToken (missingOperand category before) before), recover before.stop ts)

def compared (sign : Option Sign) (category : Category) (comparator : Comparator) :
    Except Problem String → Clause
  | .ok v => signed sign (.comparison category comparator v none)
  | .error p => .broken p

def lone (sign : Option Sign) (category : Category) (v : String) : Clause :=
  if category = .date then plain (.term category v (stanceOf sign))
  else signed sign (.comparison category .equal v none)

def rangeEnd? : Token.Kind → Option String
  | .number v | .date v => some v
  | _ => none

def range (sign : Option Sign) (category : Category) (v : String) : List Token → Clause × List Token
  | [] => (lone sign category v, [])
  | t :: rest =>
    if t.kind ≠ .compare .within then (lone sign category v, t :: rest)
    else match rest with
      | [] => (signed sign (.comparison category .atLeast v none), [])
      | u :: after => match rangeEnd? u.kind with
        | none => (signed sign (.comparison category .atLeast v none), u :: after)
        | some w => match valueFault? category u w with
          | some fault => (.broken (.atToken fault u), after)
          | none => (signed sign (.comparison category .within v (some w)), after)

/-- Reads a date or a number behind its category: with a comparison sign, as a range, or alone. `first` is
where the term begins and `previous` where the token before ends. -/
def comparison (stop : Nat) (sign : Option Sign) (category : Category) (first previous : Nat) :
    List Token → Clause × List Token
  | [] => (.broken (.between (.missingComparison category) first stop), [])
  | t :: rest => match t.kind with
    | .compare comparator =>
      let comparator := if comparator = .within then .atMost else comparator
      (compared sign category comparator (operand category t rest).1, (operand category t rest).2)
    | kind => match bareValue? kind with
      | none =>
        (.broken (.between (.missingComparison category) first t.position), recover previous (t :: rest))
      | some v => match valueFault? category t v with
        | some fault => (.broken (.atToken fault t), rest)
        | none => range sign category v rest

def fieldOf (name : String) : Option String :=
  if Category.ofName? name = some .content then none else some (Text.lower name)

def categoryTerm (sign : Option Sign) (category : Category) (v : String) : Clause :=
  plain (.term category (if category.foldsCase then Text.lower v else v) (stanceOf sign))

/-- Reads what follows a name and a colon, for a name that is not compared. `stop` is the length of the
query. -/
def fieldValue (stop : Nat) (sign : Option Sign) (name : String) (first previous : Nat) :
    List Token → Clause × List Token
  | [] => (.broken (.between (.missingValue name) first stop), [])
  | t :: rest => match t.kind with
    | .word v | .number v | .date v => match Category.ofName? name with
      | some category => (categoryTerm sign category v, rest)
      | none =>
        (.term (.leaf (.term .content v (stanceOf sign))) (some (.unknownCategory name v)), rest)
    | .phrase v => match Category.ofName? name with
      | some category => (categoryTerm sign category v, rest)
      | none => (signed sign (.phrase v (some (Text.lower name))), rest)
    | .regex pattern flags => (regex sign t pattern flags (fieldOf name), rest)
    | .wildcard pattern => (signed sign (.wildcard pattern (fieldOf name)), rest)
    | _ => (.broken (.between (.missingValue name) first t.position), recover previous (t :: rest))

def isComparison : Token.Kind → Bool
  | .compare .within => false
  | .compare _ => true
  | _ => false

def comparable? (word : String) : Option Category :=
  (Category.ofName? word).filter Category.isComparable

def wordTerm (stop : Nat) (sign : Option Sign) (t : Token) (w : String) (ts : List Token) :
    Clause × List Token :=
  let first := ((sign.map (·.1)).getD t).position
  let alone := plain (.term .content w (stanceOf sign))
  match ts with
  | [] => (alone, [])
  | u :: rest =>
    if u.kind = .colon then
      match comparable? w with
      | some category => comparison stop sign category first u.stop rest
      | none => fieldValue stop sign w first u.stop rest
    else match comparable? w with
      | some category => if isComparison u.kind then comparison stop sign category first t.stop ts else (alone, ts)
      | none => (alone, ts)

def startsTerm : Token.Kind → Bool
  | .word _ | .number _ | .date _ | .phrase _ | .regex .. | .wildcard _ => true
  | _ => false

def readTerm (stop : Nat) (sign : Option Sign) (t : Token) (ts : List Token) : Clause × List Token :=
  match t.kind with
  | .word w => wordTerm stop sign t w ts
  | .number v | .date v => (plain (.term .content v (stanceOf sign)), ts)
  | .phrase v =>
    let stance := stanceOf sign
    (plain (if stance = .is then .phrase v none else .term .content v stance), ts)
  | .regex pattern flags => (regex sign t pattern flags none, ts)
  | .wildcard pattern => (signed sign (.wildcard pattern none), ts)
  | kind => (.broken (.atToken (.unexpected kind) t), ts)

def read (stop : Nat) (t : Token) (ts : List Token) : Clause × List Token :=
  match t.kind with
  | .and => (.and t, ts)
  | .or => (.or t, ts)
  | .not => (.not t, ts)
  | .leftParen => (.leftParen t, ts)
  | .rightParen => (.rightParen t, ts)
  | .reference name => (.reference t name, ts)
  | .flawed flaw => (.broken (.atToken (.flawed flaw) t), ts)
  | .stance s => match ts with
    | u :: rest =>
      if startsTerm u.kind then readTerm stop (some (t, s)) u rest
      else (.broken (.atToken (.missingTerm t.kind u.kind) t), ts)
    | [] => (.broken (.atToken (.missingTerm t.kind .finish) t), [])
  | .colon | .compare _ => (.broken (.atToken (.unexpected t.kind) t), recover t.stop ts)
  | _ => readTerm stop none t ts

theorem recover_suffix (previous : Nat) (ts : List Token) : recover previous ts <:+ ts := by
  induction ts generalizing previous with
  | nil => exact List.suffix_rfl
  | cons t ts ih =>
    unfold recover
    split
    · exact List.suffix_rfl
    · exact (ih _).trans (List.suffix_cons ..)

theorem operand_suffix (category : Category) (before : Token) (ts : List Token) :
    (operand category before ts).2 <:+ ts := by
  unfold operand
  split
  · exact List.suffix_rfl
  · split
    · split <;> exact List.suffix_cons ..
    · exact recover_suffix ..

theorem range_suffix (sign : Option Sign) (category : Category) (v : String) (ts : List Token) :
    (range sign category v ts).2 <:+ ts := by
  unfold range
  split
  · exact List.suffix_rfl
  · next t rest =>
    split
    · exact List.suffix_rfl
    · split
      · exact List.nil_suffix
      · next u after =>
        have h : after <:+ t :: u :: after := (List.suffix_cons u after).trans (List.suffix_cons ..)
        split
        · exact List.suffix_cons ..
        · split <;> exact h

theorem comparison_suffix (stop : Nat) (sign : Option Sign) (category : Category) (first previous : Nat)
    (ts : List Token) : (comparison stop sign category first previous ts).2 <:+ ts := by
  unfold comparison
  split
  · exact List.suffix_rfl
  · split
    · exact (operand_suffix ..).trans (List.suffix_cons ..)
    · split
      · exact recover_suffix ..
      · split
        · exact List.suffix_cons ..
        · exact (range_suffix ..).trans (List.suffix_cons ..)

theorem fieldValue_suffix (stop : Nat) (sign : Option Sign) (name : String) (first previous : Nat)
    (ts : List Token) : (fieldValue stop sign name first previous ts).2 <:+ ts := by
  unfold fieldValue
  split
  · exact List.suffix_rfl
  · split
    all_goals try split
    all_goals first
      | exact List.suffix_cons ..
      | exact recover_suffix ..

theorem wordTerm_suffix (stop : Nat) (sign : Option Sign) (t : Token) (w : String) (ts : List Token) :
    (wordTerm stop sign t w ts).2 <:+ ts := by
  unfold wordTerm
  split
  · exact List.suffix_rfl
  · split
    · split
      · exact (comparison_suffix ..).trans (List.suffix_cons ..)
      · exact (fieldValue_suffix ..).trans (List.suffix_cons ..)
    · split
      · split
        · exact comparison_suffix ..
        · exact List.suffix_rfl
      · exact List.suffix_rfl

theorem readTerm_suffix (stop : Nat) (sign : Option Sign) (t : Token) (ts : List Token) :
    (readTerm stop sign t ts).2 <:+ ts := by
  unfold readTerm
  split
  · exact wordTerm_suffix ..
  all_goals exact List.suffix_rfl

theorem read_suffix (stop : Nat) (t : Token) (ts : List Token) : (read stop t ts).2 <:+ ts := by
  unfold read
  split
  case h_8 =>
    split
    · split
      · exact (readTerm_suffix ..).trans (List.suffix_cons ..)
      · exact List.suffix_rfl
    · exact List.suffix_rfl
  case h_9 => exact recover_suffix ..
  case h_10 => exact recover_suffix ..
  case h_11 => exact readTerm_suffix ..
  all_goals exact List.suffix_rfl

def readAll (stop : Nat) : List Token → List Clause
  | [] => []
  | t :: ts => (read stop t ts).1 :: readAll stop (read stop t ts).2
  termination_by ts => ts.length
  decreasing_by
    have := (read_suffix stop t ts).length_le
    simp only [List.length_cons]; omega

end Clause

end FilterQuery
