import FilterQuery.Proofs.Grammar.Acceptance

namespace FilterQuery

open Token (Kind)
open Grammar (lacks)

namespace Clause

inductive Shape
  | and
  | or
  | not
  | leftParen
  | rightParen
  | reference (name : String)
  | term (node : Node) (warning : Option Warning)
  | broken

def shape : Clause → Shape
  | and _ => .and
  | or _ => .or
  | not _ => .not
  | leftParen _ => .leftParen
  | rightParen _ => .rightParen
  | reference _ name => .reference name
  | term n w => .term n w
  | broken _ => .broken

theorem shape_signed (sign : Option Sign) (l : Leaf) :
    (signed sign l).shape = (Grammar.signed? (sign.map (·.2)) l).elim .broken (.term · none) := by
  rcases sign with _ | ⟨t, s⟩
  · rfl
  · cases s <;> rfl

section

variable {sign sign' : Option Sign} (hsign : sign'.map (·.2) = sign.map (·.2))
include hsign

theorem stanceOf_congr : stanceOf sign' = stanceOf sign := by rw [stanceOf, hsign, stanceOf]

theorem shape_signed_congr (l : Leaf) : (signed sign' l).shape = (signed sign l).shape := by
  rw [shape_signed, shape_signed, hsign]

theorem shape_regex_congr (t t' : Token) (p f : String) (field : Option String) :
    (Clause.regex sign' t' p f field).shape = (Clause.regex sign t p f field).shape := by
  unfold Clause.regex
  split
  · rfl
  · exact shape_signed_congr hsign _

theorem shape_lone_congr (c : Category) (v : String) : (lone sign' c v).shape = (lone sign c v).shape := by
  unfold lone
  split
  · rw [stanceOf_congr hsign]
  · exact shape_signed_congr hsign _

theorem shape_compared_congr (c : Category) (op : Comparator) {x y : Except Problem String}
    (h : x.toOption = y.toOption) : (compared sign' c op x).shape = (compared sign c op y).shape := by
  cases x with
  | ok v =>
    cases y with
    | ok w =>
      cases h
      exact shape_signed_congr hsign _
    | error => cases h
  | error =>
    cases y with
    | ok => cases h
    | error => rfl

end

structure Shifts (d : Nat) (tail : List Token) (r r' : Clause × List Token) : Prop where
  shape : r'.1.shape = r.1.shape
  rest : r'.2 = r.2.map (Token.shift d) ++ tail

section

variable (d : Nat) {q : Token} (qs : List Token) {sign sign' : Option Sign}

theorem kind_of_lacks {k : Kind} (h : lacks (some k) = true) : k = .and ∨ k = .or ∨ k = .rightParen := by
  cases k with
  | and | or | rightParen => simp
  | _ => cases h

theorem recover_shift (hq : lacks (some q.kind) = true) (previous : Nat) (ts : List Token) :
    recover (previous + d) (ts.map (Token.shift d) ++ q :: qs) =
      (recover previous ts).map (Token.shift d) ++ q :: qs := by
  induction ts generalizing previous with
  | nil =>
    have hstops : q.kind = .and ∨ q.kind = .or ∨ q.kind = .rightParen ∨ previous + d < q.position := by
      rcases kind_of_lacks hq with hk | hk | hk <;> simp [hk]
    simp only [List.map_nil, List.nil_append, recover, if_pos hstops]
  | cons t ts ih =>
    simp only [List.map_cons, List.cons_append, recover, Token.shift_kind, Token.shift_position, Token.shift_stop,
      Nat.add_lt_add_iff_right, ih]
    split <;> rfl

theorem bareValue?_of_lacks {k : Kind} (h : lacks (some k) = true) : bareValue? k = none := by
  rcases kind_of_lacks h with rfl | rfl | rfl <;> rfl

theorem rangeEnd?_of_lacks {k : Kind} (h : lacks (some k) = true) : rangeEnd? k = none := by
  rcases kind_of_lacks h with rfl | rfl | rfl <;> rfl

theorem operand_shift (hq : lacks (some q.kind) = true) (c : Category) (before : Token) (ts : List Token) :
    (operand c (before.shift d) (ts.map (Token.shift d) ++ q :: qs)).1.toOption = (operand c before ts).1.toOption ∧
      (operand c (before.shift d) (ts.map (Token.shift d) ++ q :: qs)).2 =
        (operand c before ts).2.map (Token.shift d) ++ q :: qs := by
  have hrecover := recover_shift d qs hq before.stop ts
  rw [← Token.shift_stop] at hrecover
  cases ts with
  | nil =>
    simp only [List.map_nil, List.nil_append, operand, bareValue?_of_lacks hq]
    exact ⟨rfl, hrecover⟩
  | cons t ts =>
    have hfault : ∀ v, valueFault? c (t.shift d) v = valueFault? c t v := fun _ => rfl
    simp only [List.map_cons, List.cons_append, operand, Token.shift_kind, hfault]
    split
    · split
      · exact ⟨rfl, rfl⟩
      · exact ⟨rfl, rfl⟩
    · exact ⟨rfl, hrecover⟩

theorem range_shift (hq : lacks (some q.kind) = true) (hsign : sign'.map (·.2) = sign.map (·.2)) (c : Category)
    (v : String) (ts : List Token) :
    Shifts d (q :: qs) (Clause.range sign c v ts) (Clause.range sign' c v (ts.map (Token.shift d) ++ q :: qs)) := by
  have hpoints : q.kind ≠ .compare .within := by
    rcases kind_of_lacks hq with hk | hk | hk <;> simp [hk]
  match ts with
  | [] =>
    simp only [List.map_nil, List.nil_append, Clause.range, if_pos hpoints]
    exact ⟨shape_lone_congr hsign c v, rfl⟩
  | [t] =>
    simp only [List.map_cons, List.map_nil, List.cons_append, List.nil_append, Clause.range, Token.shift_kind,
      rangeEnd?_of_lacks hq]
    split
    · exact ⟨shape_lone_congr hsign c v, rfl⟩
    · exact ⟨shape_signed_congr hsign _, rfl⟩
  | t :: u :: ts =>
    have hfault : ∀ w, valueFault? c (u.shift d) w = valueFault? c u w := fun _ => rfl
    simp only [List.map_cons, List.cons_append, Clause.range, Token.shift_kind, hfault]
    split
    · exact ⟨shape_lone_congr hsign c v, rfl⟩
    · split
      · exact ⟨shape_signed_congr hsign _, rfl⟩
      · split
        · exact ⟨rfl, rfl⟩
        · exact ⟨shape_signed_congr hsign _, rfl⟩

theorem comparison_shift (hq : lacks (some q.kind) = true) (hsign : sign'.map (·.2) = sign.map (·.2)) (c : Category)
    (stop stop' first first' previous : Nat) (ts : List Token) :
    Shifts d (q :: qs) (comparison stop sign c first previous ts)
      (comparison stop' sign' c first' (previous + d) (ts.map (Token.shift d) ++ q :: qs)) := by
  have hrecover := recover_shift d qs hq previous ts
  cases ts with
  | nil =>
    have hread : comparison stop' sign' c first' (previous + d) (q :: qs) =
        (.broken (.between (.missingComparison c) first' q.position), recover (previous + d) (q :: qs)) := by
      rcases kind_of_lacks hq with hk | hk | hk <;> simp only [comparison, hk, bareValue?]
    rw [List.map_nil, List.nil_append, hread]
    exact ⟨rfl, hrecover⟩
  | cons t ts =>
    have hfault : ∀ v, valueFault? c (t.shift d) v = valueFault? c t v := fun _ => rfl
    obtain ⟨hvalue, hrest⟩ := operand_shift d qs hq c t ts
    simp only [List.map_cons, List.cons_append, comparison, Token.shift_kind, hfault]
    split
    · exact ⟨shape_compared_congr hsign c _ hvalue, hrest⟩
    · split
      · exact ⟨rfl, hrecover⟩
      · split
        · exact ⟨rfl, rfl⟩
        · exact range_shift d qs hq hsign c _ ts

theorem fieldValue_shift (hq : lacks (some q.kind) = true) (hsign : sign'.map (·.2) = sign.map (·.2)) (name : String)
    (stop stop' first first' previous : Nat) (ts : List Token) :
    Shifts d (q :: qs) (fieldValue stop sign name first previous ts)
      (fieldValue stop' sign' name first' (previous + d) (ts.map (Token.shift d) ++ q :: qs)) := by
  have hrecover := recover_shift d qs hq previous ts
  cases ts with
  | nil =>
    have hread : fieldValue stop' sign' name first' (previous + d) (q :: qs) =
        (.broken (.between (.missingValue name) first' q.position), recover (previous + d) (q :: qs)) := by
      rcases kind_of_lacks hq with hk | hk | hk <;> simp only [fieldValue, hk]
    rw [List.map_nil, List.nil_append, hread]
    exact ⟨rfl, hrecover⟩
  | cons t ts =>
    simp only [List.map_cons, List.cons_append, fieldValue, Token.shift_kind, categoryTerm, stanceOf_congr hsign]
    split
    case h_1 | h_2 | h_3 => split <;> exact ⟨rfl, rfl⟩
    case h_4 =>
      split
      · exact ⟨rfl, rfl⟩
      · exact ⟨shape_signed_congr hsign _, rfl⟩
    case h_5 => exact ⟨shape_regex_congr hsign .., rfl⟩
    case h_6 => exact ⟨shape_signed_congr hsign _, rfl⟩
    case h_7 => exact ⟨rfl, hrecover⟩

theorem wordTerm_shift (hq : lacks (some q.kind) = true) (hsign : sign'.map (·.2) = sign.map (·.2)) (stop stop' : Nat)
    (t : Token) (w : String) (ts : List Token) :
    Shifts d (q :: qs) (wordTerm stop sign t w ts)
      (wordTerm stop' sign' (t.shift d) w (ts.map (Token.shift d) ++ q :: qs)) := by
  cases ts with
  | nil =>
    have hcolon : q.kind ≠ .colon := by
      rcases kind_of_lacks hq with hk | hk | hk <;> simp [hk]
    have hcompare : ¬isComparison q.kind = true := by
      rcases kind_of_lacks hq with hk | hk | hk <;> simp [hk, isComparison]
    simp only [List.map_nil, List.nil_append, wordTerm, if_neg hcolon, if_neg hcompare, stanceOf_congr hsign]
    split <;> exact ⟨rfl, rfl⟩
  | cons u ts =>
    simp only [List.map_cons, List.cons_append, wordTerm, Token.shift_kind, Token.shift_stop, stanceOf_congr hsign]
    split
    · split
      · exact comparison_shift d qs hq hsign ..
      · exact fieldValue_shift d qs hq hsign ..
    · split
      · split
        · exact comparison_shift d qs hq hsign _ _ _ _ _ _ (u :: ts)
        · exact ⟨rfl, rfl⟩
      · exact ⟨rfl, rfl⟩

theorem readTerm_shift (hq : lacks (some q.kind) = true) (hsign : sign'.map (·.2) = sign.map (·.2)) (stop stop' : Nat)
    (t : Token) (ts : List Token) :
    Shifts d (q :: qs) (readTerm stop sign t ts)
      (readTerm stop' sign' (t.shift d) (ts.map (Token.shift d) ++ q :: qs)) := by
  simp only [readTerm, Token.shift_kind, stanceOf_congr hsign]
  split
  case h_1 => exact wordTerm_shift d qs hq hsign ..
  case h_5 => exact ⟨shape_regex_congr hsign .., rfl⟩
  case h_6 => exact ⟨shape_signed_congr hsign _, rfl⟩
  all_goals exact ⟨rfl, rfl⟩

theorem startsTerm_of_lacks {k : Kind} (h : lacks (some k) = true) : startsTerm k = false := by
  rcases kind_of_lacks h with rfl | rfl | rfl <;> rfl

theorem read_shift (hq : lacks (some q.kind) = true) (stop stop' : Nat) (t : Token) (ts : List Token) :
    Shifts d (q :: qs) (read stop t ts) (read stop' (t.shift d) (ts.map (Token.shift d) ++ q :: qs)) := by
  have hrecover := recover_shift d qs hq t.stop ts
  rw [← Token.shift_stop] at hrecover
  simp only [read, Token.shift_kind]
  split
  case h_8 s _ =>
    have hsign : (some (t.shift d, s) : Option Sign).map (·.2) = (some (t, s) : Option Sign).map (·.2) := rfl
    cases ts with
    | nil =>
      simp only [List.map_nil, List.nil_append, startsTerm_of_lacks hq]
      exact ⟨rfl, rfl⟩
    | cons u ts =>
      simp only [List.map_cons, List.cons_append, Token.shift_kind]
      split
      · exact readTerm_shift d qs hq hsign ..
      · exact ⟨rfl, rfl⟩
  case h_9 | h_10 => exact ⟨rfl, hrecover⟩
  case h_11 => exact readTerm_shift d qs hq rfl ..
  all_goals exact ⟨rfl, rfl⟩

theorem readAll_shift (hq : lacks (some q.kind) = true) (stop stop' : Nat) (ts : List Token) :
    ∃ cs, readAll stop' (ts.map (Token.shift d) ++ q :: qs) = cs ++ readAll stop' (q :: qs) ∧
      cs.map shape = (readAll stop ts).map shape := by
  fun_induction readAll stop ts with
  | case1 => exact ⟨[], rfl, rfl⟩
  | case2 t ts ih =>
    obtain ⟨cs, hcs, hshapes⟩ := ih
    obtain ⟨hshape, hrest⟩ := read_shift d qs hq stop stop' t ts
    refine ⟨(read stop' (t.shift d) (ts.map (Token.shift d) ++ q :: qs)).1 :: cs, ?_, ?_⟩
    · rw [List.map_cons, List.cons_append, readAll, hrest, hcs, List.cons_append]
    · rw [List.map_cons, List.map_cons, hshape, hshapes]

end

def Shape.isNoise : Shape → Bool
  | .and | .not | .broken => true
  | _ => false

end Clause

namespace Grouping

structure Keeps (s s' : Grouping) : Prop where
  alternatives : s'.level.alternatives = s.level.alternatives
  conjuncts : s'.level.conjuncts = s.level.conjuncts
  outer : s'.outer = s.outer
  roots : s'.roots = s.roots

theorem Keeps.trans {s s' s'' : Grouping} (h : Keeps s s') (h' : Keeps s' s'') : Keeps s s'' where
  alternatives := h'.alternatives.trans h.alternatives
  conjuncts := h'.conjuncts.trans h.conjuncts
  outer := h'.outer.trans h.outer
  roots := h'.roots.trans h.roots

theorem report_ne_nil (s : Grouping) {b : Bool} (h : b = true) (f : Fault) (t : Token) :
    (s.report b f t).problems ≠ [] := by
  subst h
  simp [report]

structure Idles (s : Grouping) (next : Option Clause) (s' : Grouping) : Prop where
  keeps : Keeps s s'
  pending : s'.level.negations ≠ 0 → lacksTerm next = false
  reported : lacksTerm next = true → s'.problems ≠ []

theorem keeps_takeAnd (s : Grouping) (t : Token) (next : Option Clause) : Keeps s (s.takeAnd t next) := by
  unfold takeAnd
  cases !s.level.termSeen <;> cases lacksTerm next <;> exact ⟨rfl, rfl, rfl, rfl⟩

theorem negations_takeAnd (s : Grouping) (t : Token) (next : Option Clause) :
    (s.takeAnd t next).level.negations = s.level.negations := by
  unfold takeAnd
  cases !s.level.termSeen <;> cases lacksTerm next <;> rfl

theorem idles_takeAnd (s : Grouping) (t : Token) (next : Option Clause) (h : s.level.negations = 0) :
    Idles s next (s.takeAnd t next) where
  keeps := keeps_takeAnd s t next
  pending hne := absurd ((negations_takeAnd s t next).trans h) hne
  reported hnext := report_ne_nil _ hnext _ t

theorem idles_takeNot (s : Grouping) (t : Token) (next : Option Clause) : Idles s next (s.takeNot t next) := by
  unfold takeNot
  split
  · next hnext =>
    refine ⟨⟨rfl, List.append_nil _, rfl, rfl⟩, fun hne => absurd rfl hne, fun _ => ?_⟩
    exact report_ne_nil s rfl _ t
  · next hnext =>
    exact ⟨⟨rfl, rfl, rfl, rfl⟩, fun _ => by simpa using hnext, fun h => absurd h hnext⟩

theorem idles_broken (s : Grouping) (p : Problem) (next : Option Clause) :
    Idles s next (s.step next (.broken p)) where
  keeps := ⟨rfl, List.append_nil _, rfl, rfl⟩
  pending hne := absurd rfl hne
  reported _ := by simp [step, take]

theorem idles_step {c : Clause} (hc : c.shape.isNoise = true) {s : Grouping}
    (hs : s.level.negations ≠ 0 → lacksTerm (some c) = false) (next : Option Clause) :
    Idles s next (s.step next c) := by
  cases c with
  | and t =>
    refine idles_takeAnd s t next ?_
    by_contra hne
    cases hs hne
  | not t => exact idles_takeNot s t next
  | broken p => exact idles_broken s p next
  | _ => cases hc

theorem run_noise {cs : List Clause} (hcs : cs ≠ []) (hnoise : ∀ c ∈ cs, c.shape.isNoise = true) {d : Clause}
    (hd : lacksTerm (some d) = true) (ds : List Clause) {s : Grouping}
    (hs : s.level.negations ≠ 0 → lacksTerm cs.head? = false) :
    ∃ s', Id.run (run Tree.unresolved s (cs ++ d :: ds)) = Id.run (run Tree.unresolved s' (d :: ds)) ∧
      Keeps s s' ∧ s'.level.negations = 0 ∧ s'.problems ≠ [] := by
  induction cs generalizing s with
  | nil => exact absurd rfl hcs
  | cons c cs ih =>
    obtain ⟨hc, hnoise⟩ := List.forall_mem_cons.1 hnoise
    have hidles := idles_step hc hs (cs ++ d :: ds).head?
    rw [List.cons_append, run_cons]
    cases cs with
    | nil =>
      refine ⟨_, rfl, hidles.keeps, ?_, hidles.reported hd⟩
      by_contra hne
      have hnext := hidles.pending hne
      rw [List.nil_append, List.head?_cons, hd] at hnext
      cases hnext
    | cons c' cs =>
      obtain ⟨s', hrun, hkeeps, hzero, hproblems⟩ := ih (List.cons_ne_nil c' cs) hnoise hidles.pending
      exact ⟨s', hrun, hidles.keeps.trans hkeeps, hzero, hproblems⟩

end Grouping

end FilterQuery
