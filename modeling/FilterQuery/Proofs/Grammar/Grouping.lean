import FilterQuery.Proofs.Grammar.Clauses
import FilterQuery.Tree.Parse

namespace FilterQuery

open Token (Kind)
open Grammar (Follows nextKind)

def Fault.isCyclic : Fault → Bool
  | .cycle _ => true
  | .within _ f => f.isCyclic
  | _ => false

def Fault.isOwn : Fault → Bool
  | .cycle _ | .tooDeep _ | .within .. => false
  | _ => true

theorem Fault.isCyclic_of_isOwn {f : Fault} (h : f.isOwn = true) : f.isCyclic = false := by
  cases f with
  | cycle | within => cases h
  | _ => rfl

namespace Clause

def IsAtom : Clause → Prop
  | .term .. => True
  | .broken p => p.fault.isOwn = true
  | _ => False

theorem isOwn_of_valueFault? {c : Category} {t : Token} {v : String} {f : Fault}
    (h : valueFault? c t v = some f) : f.isOwn = true := by
  unfold valueFault? at h
  repeat' split at h
  all_goals cases h
  all_goals rfl

theorem isOwn_of_regexFault? {p fl : String} {f : Fault} (h : regexFault? p fl = some f) :
    f.isOwn = true := by
  unfold regexFault? at h
  repeat' split at h
  all_goals cases h
  all_goals rfl

theorem isOwn_of_operand {c : Category} {before : Token} {ts : List Token} {p : Problem}
    (h : (operand c before ts).1 = .error p) : p.fault.isOwn = true := by
  have hm : (missingOperand c before).isOwn = true := by
    unfold missingOperand
    split <;> rfl
  unfold operand at h
  repeat' split at h
  all_goals cases h
  · exact hm
  · exact isOwn_of_valueFault? ‹_›
  · exact hm

theorem isAtom_signed (sign : Option Sign) (l : Leaf) : (signed sign l).IsAtom := by
  unfold signed
  split <;> trivial

theorem isAtom_regex (sign : Option Sign) (t : Token) (p f : String) (field : Option String) :
    (Clause.regex sign t p f field).IsAtom := by
  unfold Clause.regex
  split
  · exact isOwn_of_regexFault? ‹_›
  · exact isAtom_signed ..

theorem isAtom_lone (sign : Option Sign) (c : Category) (v : String) : (lone sign c v).IsAtom := by
  unfold lone
  split
  · trivial
  · exact isAtom_signed ..

theorem isAtom_range (sign : Option Sign) (c : Category) (v : String) (ts : List Token) :
    (Clause.range sign c v ts).1.IsAtom := by
  unfold Clause.range
  repeat' split
  all_goals first | exact isAtom_signed .. | exact isAtom_lone .. | exact isOwn_of_valueFault? ‹_›

theorem isAtom_compared (sign : Option Sign) (c : Category) (op : Comparator) (before : Token)
    (ts : List Token) : (compared sign c op (operand c before ts).1).IsAtom := by
  cases h : (operand c before ts).1 with
  | ok v => exact isAtom_signed ..
  | error p => exact isOwn_of_operand h

theorem isAtom_comparison (stop : Nat) (sign : Option Sign) (c : Category) (first previous : Nat)
    (ts : List Token) : (comparison stop sign c first previous ts).1.IsAtom := by
  unfold comparison
  split
  · trivial
  · split
    · exact isAtom_compared ..
    · repeat' split
      all_goals first | exact isAtom_range .. | rfl | exact isOwn_of_valueFault? ‹_›

theorem isAtom_fieldValue (stop : Nat) (sign : Option Sign) (w : String) (first previous : Nat)
    (ts : List Token) : (fieldValue stop sign w first previous ts).1.IsAtom := by
  unfold fieldValue
  repeat' split
  all_goals first | trivial | exact isAtom_signed .. | exact isAtom_regex ..

theorem isAtom_wordTerm (stop : Nat) (sign : Option Sign) (t : Token) (w : String) (ts : List Token) :
    (wordTerm stop sign t w ts).1.IsAtom := by
  unfold wordTerm
  repeat' split
  all_goals first | trivial | exact isAtom_comparison .. | exact isAtom_fieldValue ..

theorem isAtom_readTerm (stop : Nat) (sign : Option Sign) (t : Token) (ts : List Token) :
    (readTerm stop sign t ts).1.IsAtom := by
  unfold readTerm
  split
  case h_1 => exact isAtom_wordTerm ..
  case h_5 => exact isAtom_regex ..
  case h_6 => exact isAtom_signed ..
  all_goals trivial

variable {t : Token} (stop : Nat) (ts : List Token)

theorem read_and (h : t.kind = .and) : read stop t ts = (.and t, ts) := by simp only [read, h]

theorem read_or (h : t.kind = .or) : read stop t ts = (.or t, ts) := by simp only [read, h]

theorem read_not (h : t.kind = .not) : read stop t ts = (.not t, ts) := by simp only [read, h]

theorem read_leftParen (h : t.kind = .leftParen) : read stop t ts = (.leftParen t, ts) := by
  simp only [read, h]

theorem read_rightParen (h : t.kind = .rightParen) : read stop t ts = (.rightParen t, ts) := by
  simp only [read, h]

theorem read_reference {name : String} (h : t.kind = .reference name) :
    read stop t ts = (.reference t name, ts) := by simp only [read, h]

theorem read_of_startsTerm (h : startsTerm t.kind = true) : read stop t ts = readTerm stop none t ts := by
  unfold read
  split <;> first | rfl | (next hk => rw [hk] at h; cases h)

theorem read_stance {u : Token} {s : Stance} (h : t.kind = .stance s) (hu : startsTerm u.kind = true) :
    read stop t (u :: ts) = readTerm stop (some (t, s)) u ts := by
  simp only [read, h, hu, if_true]

def isSign : Kind → Bool
  | .and | .or | .not | .leftParen | .rightParen | .reference _ => true
  | _ => false

theorem isAtom_read (h : isSign t.kind = false) : (read stop t ts).1.IsAtom := by
  unfold read
  split
  case h_7 => trivial
  case h_8 =>
    repeat' split
    all_goals first | trivial | exact isAtom_readTerm ..
  case h_9 | h_10 => trivial
  case h_11 => exact isAtom_readTerm ..
  all_goals
    next hk =>
      rw [hk] at h
      cases h

end Clause

namespace Grammar

def ends : Option Kind → Bool
  | none | some .or | some .rightParen => true
  | _ => false

def lacks : Option Kind → Bool
  | some .and => true
  | k => ends k

end Grammar

namespace Grouping

open Grammar (ends lacks)

theorem head?_readAll (stop : Nat) (t : Token) (ts : List Token) :
    (Clause.readAll stop (t :: ts)).head? = some (Clause.read stop t ts).1 := by
  rw [Clause.readAll, List.head?_cons]

theorem isBoundary_of_isAtom {c : Clause} (h : c.IsAtom) : isBoundary (some c) = false := by
  cases c <;> first | rfl | cases h

theorem lacksTerm_of_isAtom {c : Clause} (h : c.IsAtom) : lacksTerm (some c) = false := by
  cases c <;> first | rfl | cases h

theorem of_head?_readAll {f : Option Clause → Bool} {g : Option Kind → Bool} (hnone : f none = g none)
    (hatom : ∀ {c : Clause}, c.IsAtom → f (some c) = false)
    (hsign : ∀ t, f (some (.and t)) = g (some .and) ∧ f (some (.or t)) = g (some .or) ∧
      f (some (.not t)) = g (some .not) ∧ f (some (.leftParen t)) = g (some .leftParen) ∧
      f (some (.rightParen t)) = g (some .rightParen) ∧
      ∀ name, f (some (.reference t name)) = g (some (.reference name)))
    (hterm : ∀ k, Clause.isSign k = false → g (some k) = false) (stop : Nat) (ts : List Token) :
    f (Clause.readAll stop ts).head? = g (nextKind ts) := by
  cases ts with
  | nil => rw [Clause.readAll]; exact hnone
  | cons t ts =>
    obtain ⟨hand, hor, hnot, hleft, hright, hreference⟩ := hsign t
    rw [head?_readAll, nextKind, List.head?_cons, Option.map_some]
    cases hk : t.kind
    case and => rw [Clause.read_and stop ts hk, hand]
    case or => rw [Clause.read_or stop ts hk, hor]
    case not => rw [Clause.read_not stop ts hk, hnot]
    case leftParen => rw [Clause.read_leftParen stop ts hk, hleft]
    case rightParen => rw [Clause.read_rightParen stop ts hk, hright]
    case reference => rw [Clause.read_reference stop ts hk, hreference]
    all_goals rw [hatom (Clause.isAtom_read stop ts (by rw [hk]; rfl)), hterm _ rfl]

theorem isBoundary_readAll (stop : Nat) (ts : List Token) :
    isBoundary (Clause.readAll stop ts).head? = ends (nextKind ts) :=
  of_head?_readAll rfl isBoundary_of_isAtom (fun _ => ⟨rfl, rfl, rfl, rfl, rfl, fun _ => rfl⟩)
    (fun k hk => by cases k <;> first | rfl | cases hk) stop ts

theorem lacksTerm_readAll (stop : Nat) (ts : List Token) :
    lacksTerm (Clause.readAll stop ts).head? = lacks (nextKind ts) :=
  of_head?_readAll rfl lacksTerm_of_isAtom (fun _ => ⟨rfl, rfl, rfl, rfl, rfl, fun _ => rfl⟩)
    (fun k hk => by cases k <;> first | rfl | cases hk) stop ts

def step (s : Grouping) (next : Option Clause) : Clause → Grouping
  | .reference t name => s.takeReference t (Tree.unresolved name)
  | c => s.take next c

def runTokens (stop : Nat) (s : Grouping) (ts : List Token) : Grouping :=
  Id.run (run Tree.unresolved s (Clause.readAll stop ts))

theorem runTokens_nil (stop : Nat) (s : Grouping) : runTokens stop s [] = s := by
  rw [runTokens, Clause.readAll]
  rfl

theorem run_cons (s : Grouping) (c : Clause) (cs : List Clause) :
    Id.run (run Tree.unresolved s (c :: cs)) = Id.run (run Tree.unresolved (s.step cs.head? c) cs) := by
  cases c <;> rfl

theorem runTokens_cons {stop : Nat} {t : Token} {ts rest : List Token} {c : Clause}
    (h : Clause.read stop t ts = (c, rest)) (s : Grouping) :
    runTokens stop s (t :: ts) = runTokens stop (s.step (Clause.readAll stop rest).head? c) rest := by
  rw [runTokens, Clause.readAll, run_cons, h]
  rfl

def pushed (s : Grouping) (n : Option Node) (ws : List Warning) : Grouping :=
  { s with level := s.level.push n, warnings := s.warnings ++ ws }

theorem step_and (s : Grouping) (next : Option Clause) (t : Token) :
    s.step next (.and t) = s.takeAnd t next := rfl

theorem step_or (s : Grouping) (next : Option Clause) (t : Token) :
    s.step next (.or t) = s.takeOr t next := rfl

theorem step_not (s : Grouping) (next : Option Clause) (t : Token) :
    s.step next (.not t) = s.takeNot t next := rfl

theorem step_leftParen (s : Grouping) (next : Option Clause) (t : Token) :
    s.step next (.leftParen t) = s.takeLeftParen t := rfl

theorem step_rightParen (s : Grouping) (next : Option Clause) (t : Token) :
    s.step next (.rightParen t) = s.takeRightParen t := rfl

theorem step_term (s : Grouping) (next : Option Clause) (n : Node) (wn : Option Warning) :
    s.step next (.term n wn) = s.pushed (some n) wn.toList := rfl

theorem step_reference (s : Grouping) (next : Option Clause) (t : Token) (name : String) :
    s.step next (.reference t name) = s.pushed (some (.reference name)) [.noStacks name] := by
  simp [step, takeReference, Tree.unresolved, pushed, push]

end Grouping

namespace Level

theorem negateTimes_negate (k : Nat) (n : Node) : negateTimes k n.negate = (negateTimes k n).negate := by
  induction k with
  | zero => rfl
  | succ k ih => rw [negateTimes, ih, negateTimes]

def negated (l : Level) : Level :=
  { l with negations := l.negations + 1, touched := true, termSeen := true }

theorem push_negated (l : Level) (n : Option Node) : l.negated.push n = l.push (n.map Node.negate) := by
  cases n with
  | none => rfl
  | some n => simp [push, negated, negateTimes, negateTimes_negate]

def extend (l : Level) (ns : List Node) : Level :=
  { l with conjuncts := l.conjuncts ++ ns, negations := 0, touched := true, termSeen := true }

theorem push_eq_extend {l : Level} (h : l.negations = 0) (n : Option Node) :
    l.push n = l.extend n.toList := by
  cases n <;> simp [push, extend, h, negateTimes]

theorem extend_extend (l : Level) (ms ns : List Node) : (l.extend ms).extend ns = l.extend (ms ++ ns) := by
  simp [extend]

end Level

namespace Grouping

theorem report_false (s : Grouping) (f : Fault) (t : Token) : s.report false f t = s := rfl

theorem takeNot_of_term {next : Option Clause} (h : lacksTerm next = false) (s : Grouping) (t : Token) :
    s.takeNot t next = { s with level := s.level.negated } := by
  rw [takeNot, h]
  rfl

theorem takeAnd_of_term {next : Option Clause} (h : lacksTerm next = false) {s : Grouping}
    (hs : s.level.termSeen = true) (ht : s.level.touched = true) (t : Token) : s.takeAnd t next = s := by
  simp only [takeAnd, h, hs, Bool.not_true, report_false]
  rcases s with ⟨⟨_, _, _, _, _⟩, _, _, _, _⟩
  simp_all

theorem takeOr_of_term {next : Option Clause} (h : isBoundary next = false) {s : Grouping}
    (hs : s.level.touched = true) (t : Token) :
    s.takeOr t next = { s with level := s.level.alternate } := by
  simp only [takeOr, h, hs, Bool.not_true, report_false]

end Grouping

namespace Grammar

open Grouping (runTokens runTokens_cons)

theorem ends_of_not_lacks {k : Option Kind} (h : lacks k = false) : ends k = false := by
  rcases k with _ | k
  · cases h
  · cases k <;> first | rfl | cases h

theorem Term.starts {s : Option Stance} {ks : List Kind} {next : Option Kind} {n : Node}
    (h : Term s ks next n) : ∃ k ks', ks = k :: ks' ∧ Clause.startsTerm k = true := by
  cases h <;> exact ⟨_, _, rfl, rfl⟩

theorem Unary.starts {ks : List Kind} {next : Option Kind} {n : Option Node} (h : Unary ks next n) :
    ∃ k ks', ks = k :: ks' ∧ lacks (some k) = false ∧ Follows (some k) := by
  cases h with
  | plain h =>
    obtain ⟨k, ks', rfl, hk⟩ := h.starts
    refine ⟨k, ks', rfl, ?_, ?_⟩
    · cases k <;> first | rfl | cases hk
    · constructor
      · rintro ⟨⟩
        cases hk
      · rintro op ⟨⟩
        cases hk
  | _ => exact ⟨_, _, rfl, rfl, nofun, nofun⟩

theorem Conjunction.starts {ks : List Kind} {next : Option Kind} {ns : List Node} :
    Conjunction ks next ns → ∃ k ks', ks = k :: ks' ∧ lacks (some k) = false
  | .one h => by
    obtain ⟨k, ks', rfl, hk, -⟩ := h.starts
    exact ⟨k, ks', rfl, hk⟩
  | .beside h _ | .and h _ => by
    obtain ⟨k, ks', rfl, hk⟩ := h.starts
    exact ⟨k, _, rfl, hk⟩

theorem nextKind_append {us : List Token} {k : Kind} {ks : List Kind} (h : us.map (·.kind) = k :: ks)
    (ts : List Token) : nextKind (us ++ ts) = some k := by
  obtain ⟨u, us, rfl, rfl, -⟩ := List.map_eq_cons_iff.1 h
  rfl

mutual
theorem Unary.run (stop : Nat) : ∀ {ks : List Kind} {next : Option Kind} {n : Option Node},
    Unary ks next n → ∀ {us ts : List Token}, us.map (·.kind) = ks → nextKind ts = next →
      Follows next → ∀ s : Grouping,
      ∃ ws, runTokens stop s (us ++ ts) = runTokens stop (s.pushed n ws) ts
  | _, _, _, .not h, us, ts, hus, hn, hf, s => by
    obtain ⟨t, us, rfl, ht, hus⟩ := List.map_eq_cons_iff.1 hus
    obtain ⟨k, ks', hk, hl, -⟩ := h.starts
    obtain ⟨ws, hws⟩ := Unary.run stop h hus hn hf { s with level := s.level.negated }
    refine ⟨ws, ?_⟩
    have hnext : Grouping.lacksTerm (Clause.readAll stop (us ++ ts)).head? = false := by
      rw [Grouping.lacksTerm_readAll, nextKind_append (hus.trans hk), hl]
    rw [List.cons_append, runTokens_cons (Clause.read_not stop _ ht), Grouping.step_not,
      Grouping.takeNot_of_term hnext, hws, Grouping.pushed, Level.push_negated]
    rfl
  | _, _, _, .empty, us, ts, hus, _, _, s => by
    simp only [List.map_eq_cons_iff, List.map_eq_nil_iff] at hus
    obtain ⟨t, -, rfl, ht, u, -, rfl, hu, rfl⟩ := hus
    refine ⟨[.emptyGroup t.position], ?_⟩
    rw [List.cons_append, runTokens_cons (Clause.read_leftParen stop _ ht), List.cons_append,
      runTokens_cons (Clause.read_rightParen stop _ hu)]
    rfl
  | _, _, _, .group h, us, ts, hus, _, _, s => by
    obtain ⟨t, us, rfl, ht, hus⟩ := List.map_eq_cons_iff.1 hus
    obtain ⟨us, vs, rfl, hks, hvs⟩ := List.map_eq_append_iff.1 hus
    obtain ⟨u, rfl, hu⟩ := List.map_eq_singleton_iff.1 hvs
    have hn : nextKind (u :: ts) = some .rightParen := congrArg some hu
    obtain ⟨l, ws, -, ht', -, hl, hrun⟩ :=
      Alternatives.run stop h hks hn ⟨nofun, nofun⟩ (s.takeLeftParen t) rfl
    refine ⟨ws, ?_⟩
    rw [List.cons_append, List.append_assoc, runTokens_cons (Clause.read_leftParen stop _ ht),
      Grouping.step_leftParen]
    change runTokens stop (s.takeLeftParen t) (us ++ u :: ts) = _
    rw [hrun, runTokens_cons (Clause.read_rightParen stop _ hu), Grouping.step_rightParen]
    simp [Grouping.takeRightParen, Grouping.takeLeftParen, ht', Grouping.pushed, Level.node, hl]
  | _, _, _, @Unary.reference name _, us, ts, hus, _, _, s => by
    obtain ⟨t, rfl, ht⟩ := List.map_eq_singleton_iff.1 hus
    refine ⟨[.noStacks name], ?_⟩
    rw [List.cons_append, runTokens_cons (Clause.read_reference stop _ ht), Grouping.step_reference]
    rfl
  | _, _, _, .plain h, us, ts, hus, hn, hf, s => by
    obtain ⟨t, us, wn, rfl, ht, hread⟩ := h.readTerm none rfl hus hn hf stop
    refine ⟨wn.toList, ?_⟩
    rw [List.cons_append, runTokens_cons ((Clause.read_of_startsTerm stop _ ht).trans hread),
      Grouping.step_term]
  | _, _, _, @Unary.signed st _ _ _ h, us, ts, hus, hn, hf, s => by
    obtain ⟨t, us, rfl, ht, hus⟩ := List.map_eq_cons_iff.1 hus
    obtain ⟨u, us, wn, rfl, hu, hread⟩ := h.readTerm (some (t, st)) rfl hus hn hf stop
    refine ⟨wn.toList, ?_⟩
    rw [List.cons_append, List.cons_append,
      runTokens_cons ((Clause.read_stance stop _ ht hu).trans hread), Grouping.step_term]

theorem Conjunction.run (stop : Nat) : ∀ {ks : List Kind} {next : Option Kind} {ns : List Node},
    Conjunction ks next ns → ∀ {us ts : List Token}, us.map (·.kind) = ks → nextKind ts = next →
      Follows next → ∀ s : Grouping, s.level.negations = 0 →
      ∃ ws, runTokens stop s (us ++ ts) =
        runTokens stop { s with level := s.level.extend ns, warnings := s.warnings ++ ws } ts
  | _, _, _, .one h, us, ts, hus, hn, hf, s, hs => by
    obtain ⟨ws, hws⟩ := Unary.run stop h hus hn hf s
    exact ⟨ws, by rw [hws, Grouping.pushed, Level.push_eq_extend hs]⟩
  | _, _, _, .beside h h', us, ts, hus, hn, hf, s, hs => by
    obtain ⟨us, vs, rfl, hks, hvs⟩ := List.map_eq_append_iff.1 hus
    obtain ⟨k, ks', hk, -, hf'⟩ := h'.starts
    have hv : nextKind (vs ++ ts) = some k := nextKind_append (hvs.trans hk) ts
    obtain ⟨ws, hws⟩ := Conjunction.run stop h hks (hv.trans (by rw [hk]; rfl)) (by rw [hk]; exact hf') s hs
    obtain ⟨ws', hws'⟩ := Unary.run stop h' hvs hn hf
      { s with level := s.level.extend _, warnings := s.warnings ++ ws }
    refine ⟨ws ++ ws', ?_⟩
    rw [List.append_assoc, hws, hws', Grouping.pushed, Level.push_eq_extend rfl, Level.extend_extend,
      List.append_assoc]
  | _, _, _, .and h h', us, ts, hus, hn, hf, s, hs => by
    obtain ⟨us, vs, rfl, hks, hvs⟩ := List.map_eq_append_iff.1 hus
    obtain ⟨t, vs, rfl, ht, hvs⟩ := List.map_eq_cons_iff.1 hvs
    obtain ⟨k, ks', hk, hl, -⟩ := h'.starts
    have hand : nextKind (t :: (vs ++ ts)) = some .and := congrArg some ht
    obtain ⟨ws, hws⟩ := Conjunction.run stop h hks hand follows_and s hs
    obtain ⟨ws', hws'⟩ := Unary.run stop h' hvs hn hf
      { s with level := s.level.extend _, warnings := s.warnings ++ ws }
    refine ⟨ws ++ ws', ?_⟩
    have hnext : Grouping.lacksTerm (Clause.readAll stop (vs ++ ts)).head? = false := by
      rw [Grouping.lacksTerm_readAll, nextKind_append (hvs.trans hk), hl]
    rw [List.append_assoc, List.cons_append, hws, runTokens_cons (Clause.read_and stop _ ht),
      Grouping.step_and, Grouping.takeAnd_of_term hnext rfl rfl, hws', Grouping.pushed, Level.push_eq_extend rfl,
      Level.extend_extend, List.append_assoc]

theorem Alternatives.run (stop : Nat) : ∀ {ks : List Kind} {next : Option Kind} {ns : List Node},
    Alternatives ks next ns → ∀ {us ts : List Token}, us.map (·.kind) = ks → nextKind ts = next →
      Follows next → ∀ s : Grouping, s.level = .empty →
      ∃ l ws, l.negations = 0 ∧ l.touched = true ∧ l.termSeen = true ∧ l.alternate.alternatives = ns ∧
        runTokens stop s (us ++ ts) =
          runTokens stop { s with level := l, warnings := s.warnings ++ ws } ts
  | _, _, _, .one h, us, ts, hus, hn, hf, s, hs => by
    obtain ⟨ws, hws⟩ := Conjunction.run stop h hus hn hf s (by rw [hs]; rfl)
    exact ⟨_, ws, rfl, rfl, rfl, by rw [hs]; rfl, hws⟩
  | _, _, _, .or h h', us, ts, hus, hn, hf, s, hs => by
    obtain ⟨us, vs, rfl, hks, hvs⟩ := List.map_eq_append_iff.1 hus
    obtain ⟨t, vs, rfl, ht, hvs⟩ := List.map_eq_cons_iff.1 hvs
    obtain ⟨k, ks', hk, hl⟩ := h'.starts
    have hor : nextKind (t :: (vs ++ ts)) = some .or := congrArg some ht
    obtain ⟨l, ws, -, ht', -, hl', hws⟩ := Alternatives.run stop h hks hor ⟨nofun, nofun⟩ s hs
    obtain ⟨ws', hws'⟩ := Conjunction.run stop h' hvs hn hf
      { s with level := l.alternate, warnings := s.warnings ++ ws } rfl
    have hnext : Grouping.isBoundary (Clause.readAll stop (vs ++ ts)).head? = false := by
      rw [Grouping.isBoundary_readAll, nextKind_append (hvs.trans hk), ends_of_not_lacks hl]
    refine ⟨l.alternate.extend _, ws ++ ws', rfl, rfl, rfl, by rw [← hl']; rfl, ?_⟩
    rw [List.append_assoc, List.cons_append, hws, runTokens_cons (Clause.read_or stop _ ht),
      Grouping.step_or, Grouping.takeOr_of_term hnext ht', hws', List.append_assoc]
end

end Grammar

end FilterQuery
