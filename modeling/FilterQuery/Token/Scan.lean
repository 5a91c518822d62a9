import FilterQuery.Token
import FilterQuery.Text.Alphabetic
import FilterQuery.Text.Ranges
import FilterQuery.Number

/-! Splitting a query into tokens. Malformed text becomes a flawed token; only a regex that is never
closed and ends in an unpaired backslash stops the scan, because its last escape reaches past the end of
the text. -/

namespace FilterQuery.Token

inductive Overrun
  | overrun
  deriving DecidableEq

/-- Whether `c` continues a word. A point does so only in front of a word character, so that two points
in a row end the word. -/
def continuesWord (c : Char) (next : Option Char) : Bool :=
  Text.isAlphanumeric c || c == '_' || c == '*' || c == '-' || c == '/' ||
    (c == '.' && next.any fun d => Text.isAlphanumeric d || d == '_')

def splitWord : List Char → List Char × List Char
  | [] => ([], [])
  | c :: cs =>
    if continuesWord c cs.head? then
      let (w, rest) := splitWord cs
      (c :: w, rest)
    else ([], c :: cs)

def startsWord (c : Char) : Bool := Text.isAlphanumeric c || c == '_' || c == '*'

def isDate : List Char → Bool
  | [a, b, c, d, '-', e, f] => [a, b, c, d, e, f].all Number.isDigit
  | [a, b, c, d, '-', e, f, '-', g, h] => [a, b, c, d, e, f, g, h].all Number.isDigit
  | _ => false

def isNumber (cs : List Char) : Bool :=
  let whole := cs.takeWhile Number.isDigit
  !whole.isEmpty && match cs.dropWhile Number.isDigit with
    | [] => true
    | '.' :: fraction => !fraction.isEmpty && fraction.all Number.isDigit
    | _ => false

def classify (w : List Char) : Kind :=
  let text := String.ofList w
  if isDate w then .date text
  else if isNumber w then .number text
  else if w.contains '*' then .wildcard text
  else .word text

/-- What stands before the closing quote, and what follows it. A backslash takes the next character as
it is. -/
def phraseBody? : List Char → Option (List Char × List Char)
  | [] => none
  | '"' :: cs => some ([], cs)
  | '\\' :: c :: cs => (phraseBody? cs).map fun (text, rest) => (c :: text, rest)
  | c :: cs => (phraseBody? cs).map fun (text, rest) => (c :: text, rest)

inductive RegexEnd
  | closed (pattern rest : List Char)
  | unclosed
  | overrun

def RegexEnd.push (cs : List Char) : RegexEnd → RegexEnd
  | closed pattern rest => closed (cs ++ pattern) rest
  | unclosed => unclosed
  | overrun => overrun

def regexBody : List Char → RegexEnd
  | [] => .unclosed
  | '/' :: cs => .closed [] cs
  | '\\' :: [] => .overrun
  | '\\' :: '/' :: cs => (regexBody cs).push ['/']
  | '\\' :: c :: cs => (regexBody cs).push ['\\', c]
  | c :: cs => (regexBody cs).push [c]

def isFlag (c : Char) : Bool := c.isAlpha

def isNameChar (c : Char) : Bool := Text.isAlphanumeric c || c == '_' || c == '-'

def scanOne (c : Char) (cs : List Char) : Except Overrun (Kind × List Char) :=
  match c with
  | '"' => match phraseBody? cs with
    | some (text, rest) => .ok (.phrase (String.ofList text), rest)
    | none => .ok (.flawed .openPhrase, [])
  | '/' => match regexBody cs with
    | .closed pattern rest =>
      .ok (.regex (String.ofList pattern) (String.ofList (rest.takeWhile isFlag)), rest.dropWhile isFlag)
    | .unclosed => .ok (.flawed .openRegex, [])
    | .overrun => .error .overrun
  | '@' =>
    let name := cs.takeWhile isNameChar
    .ok (if name.isEmpty then .flawed .bareAt else .reference (String.ofList name), cs.dropWhile isNameChar)
  | '(' => .ok (.leftParen, cs)
  | ')' => .ok (.rightParen, cs)
  | '&' => .ok (.and, cs)
  | '|' => .ok (.or, cs)
  | '!' => .ok (.not, cs)
  | ':' => .ok (.colon, cs)
  | '=' => .ok (.compare .equal, cs)
  | '>' => match cs with
    | '=' :: rest => .ok (.compare .atLeast, rest)
    | _ => .ok (.compare .above, cs)
  | '<' => match cs with
    | '=' :: rest => .ok (.compare .atMost, rest)
    | _ => .ok (.compare .below, cs)
  | '.' => match cs with
    | '.' :: rest => .ok (.compare .within, rest)
    | _ => .ok (.flawed (.stray c), cs)
  | _ => match Stance.ofSign? c with
    | some s => .ok (.stance s, cs)
    | none =>
      if startsWord c then
        let (w, rest) := splitWord cs
        .ok (classify (c :: w), rest)
      else .ok (.flawed (.stray c), cs)

theorem splitWord_append (cs : List Char) : (splitWord cs).1 ++ (splitWord cs).2 = cs := by
  induction cs with
  | nil => rfl
  | cons c cs ih => unfold splitWord; split <;> simp [ih]

theorem phraseBody?_suffix {cs text rest : List Char} (h : phraseBody? cs = some (text, rest)) :
    rest <:+ cs := by
  fun_induction phraseBody? cs generalizing text rest with
  | case1 => cases h
  | case2 cs => cases h; exact List.suffix_cons ..
  | case3 c cs ih =>
    obtain ⟨⟨t, r⟩, hr, heq⟩ := Option.map_eq_some_iff.1 h
    cases heq
    exact (ih hr).trans ((List.suffix_cons c cs).trans (List.suffix_cons ..))
  | case4 c cs _ _ ih =>
    obtain ⟨⟨t, r⟩, hr, heq⟩ := Option.map_eq_some_iff.1 h
    cases heq
    exact (ih hr).trans (List.suffix_cons ..)

theorem RegexEnd.push_eq_closed {e : RegexEnd} {cs pattern rest : List Char}
    (h : e.push cs = .closed pattern rest) : ∃ p, e = .closed p rest ∧ pattern = cs ++ p := by
  cases e <;> cases h
  exact ⟨_, rfl, rfl⟩

theorem regexBody_suffix {cs pattern rest : List Char} (h : regexBody cs = .closed pattern rest) :
    rest <:+ cs := by
  fun_induction regexBody cs generalizing pattern rest with
  | case1 => cases h
  | case2 cs => cases h; exact List.suffix_cons ..
  | case3 => cases h
  | case4 cs ih =>
    obtain ⟨p, hp, -⟩ := RegexEnd.push_eq_closed h
    exact (ih hp).trans ((List.suffix_cons _ _).trans (List.suffix_cons ..))
  | case5 c cs _ ih =>
    obtain ⟨p, hp, -⟩ := RegexEnd.push_eq_closed h
    exact (ih hp).trans ((List.suffix_cons c cs).trans (List.suffix_cons ..))
  | case6 c cs _ _ _ _ ih =>
    obtain ⟨p, hp, -⟩ := RegexEnd.push_eq_closed h
    exact (ih hp).trans (List.suffix_cons ..)

theorem splitWord_suffix (cs : List Char) : (splitWord cs).2 <:+ cs :=
  ⟨_, splitWord_append cs⟩

theorem scanOne_suffix {c : Char} {cs rest : List Char} {kind : Kind}
    (h : scanOne c cs = .ok (kind, rest)) : rest <:+ cs := by
  unfold scanOne at h
  split at h
  case h_1 =>
    split at h <;> cases h
    · exact phraseBody?_suffix ‹_›
    · exact List.nil_suffix
  case h_2 =>
    split at h <;> cases h
    · exact (List.dropWhile_suffix _).trans (regexBody_suffix ‹_›)
    · exact List.nil_suffix
  case h_3 => cases h; exact List.dropWhile_suffix _
  case h_14 =>
    split at h
    · cases h; exact List.suffix_rfl
    · split at h <;> cases h
      · exact splitWord_suffix cs
      · exact List.suffix_rfl
  all_goals first
    | (cases h; exact List.suffix_rfl)
    | (split at h <;> cases h <;> simp)

def scanFrom (position : Nat) : List Char → Except Overrun (List Token)
  | [] => .ok []
  | c :: cs =>
    if Text.isBlank c then scanFrom (position + 1) cs
    else match _h : scanOne c cs with
      | .error e => .error e
      | .ok (kind, rest) => do
        let size := cs.length + 1 - rest.length
        let tokens ← scanFrom (position + size) rest
        .ok (⟨kind, String.ofList ((c :: cs).take size), position⟩ :: tokens)
  termination_by cs => cs.length
  decreasing_by
    · simp
    · have := (scanOne_suffix ‹_›).length_le
      simp only [List.length_cons]; omega

def finish (query : String) : Token := ⟨.finish, "", query.length⟩

def tokenize (query : String) : Except Overrun (List Token) := do
  return (← scanFrom 0 query.toList) ++ [finish query]

end FilterQuery.Token
