import FilterQuery.Proofs.Grammar.Grouping
import FilterQuery.Proofs.Scan

/-! A query is read without problems just in case its tokens are derived from the grammar. What has been
read of each open group is kept as a derivation that lacks its end, and each clause carries it on. -/

namespace FilterQuery.Grammar

open Token (Kind tokenize_eq_ok)
open Level (negateTimes)

inductive Before : List Kind → List Node → Prop
  | nil : Before [] []
  | or : Alternatives ks (some .or) ns → Before (ks ++ [.or]) ns

inductive Partial : List Kind → Option Kind → List Node → Prop
  | nil : Partial [] next []
  | whole : Conjunction ks next ns → Partial ks next ns
  | and : Conjunction ks (some .and) ns → lacks next = false → Partial (ks ++ [.and]) next ns

structure Reads (l : Level) (ks : List Kind) (next : Option Kind) : Prop where
  split : ∃ pre mid, ks = pre ++ (mid ++ List.replicate l.negations .not) ∧ Before pre l.alternatives ∧
    Partial mid (if l.negations = 0 then next else some .not) l.conjuncts ∧
    (ks ≠ [] → mid = [] → l.negations = 0 → ends next = false) ∧
    (l.termSeen = true → mid ≠ [] ∨ l.negations ≠ 0)
  pending : l.negations ≠ 0 → lacks next = false
  touched : l.touched = true ↔ ks ≠ []

theorem reads_empty (next : Option Kind) : Reads .empty [] next where
  split := ⟨[], [], rfl, .nil, .nil, nofun, nofun⟩
  pending := nofun
  touched := ⟨nofun, nofun⟩

theorem lacks_of_ends {k : Option Kind} (h : ends k = true) : lacks k = true := by
  rcases k with _ | k
  · rfl
  · cases k <;> first | rfl | cases h

theorem Before.alternatives {pre ks : List Kind} {next : Option Kind} {ms ns : List Node}
    (h : Before pre ms) (hc : Conjunction ks next ns) :
    Alternatives (pre ++ ks) next (ms ++ (Node.join .and ns).toList) := by
  cases h with
  | nil => exact .one hc
  | or h =>
    rw [List.append_assoc]
    exact .or h hc

theorem Before.eq_nil {ns : List Node} (h : Before [] ns) : ns = [] := by
  generalize hks : ([] : List Kind) = ks at h
  cases h with
  | nil => rfl
  | or _ => simp at hks

theorem Partial.eq_nil_or_conjunction {ks : List Kind} {next : Option Kind} {ns : List Node}
    (h : Partial ks next ns) (hl : lacks next = true) :
    ks = [] ∧ ns = [] ∨ Conjunction ks next ns := by
  cases h with
  | nil => exact .inl ⟨rfl, rfl⟩
  | whole h => exact .inr h
  | and _ hn => rw [hl] at hn; cases hn

theorem Partial.unary {mid us : List Kind} {next : Option Kind} {ns : List Node} {n : Option Node}
    (h : Partial mid us.head? ns) (hu : Unary us next n) : Conjunction (mid ++ us) next (ns ++ n.toList) := by
  generalize hk : us.head? = k at h
  cases h with
  | nil => exact .one hu
  | whole h =>
    subst hk
    exact .beside h hu
  | and h _ =>
    rw [List.append_assoc]
    exact .and h hu

theorem Unary.negated {us : List Kind} {next : Option Kind} {n : Option Node} (h : Unary us next n) :
    ∀ k, Unary (List.replicate k .not ++ us) next (n.map (negateTimes k))
  | 0 => by cases n <;> exact h
  | k + 1 => by
    have h' := Unary.not (h.negated k)
    rw [Option.map_map] at h'
    exact h'

section

variable {l : Level} {ks : List Kind} {next : Option Kind}

theorem Reads.negations_eq_zero (h : Reads l ks next) (hl : lacks next = true) : l.negations = 0 := by
  cases hk : l.negations with
  | zero => rfl
  | succ k =>
    have := h.pending (by omega)
    rw [hl] at this
    cases this

theorem Reads.settled (h : Reads l ks next) (hl : lacks next = true) :
    ∃ pre mid, ks = pre ++ mid ∧ Before pre l.alternatives ∧ (l.termSeen = true → mid ≠ []) ∧
      (mid = [] ∧ l.conjuncts = [] ∧ (ks ≠ [] → ends next = false) ∨ Conjunction mid next l.conjuncts) := by
  have h0 := h.negations_eq_zero hl
  obtain ⟨⟨pre, mid, hks, hb, hp, hm, ht⟩, -, -⟩ := h
  simp only [h0, List.replicate_zero, List.append_nil] at hks hp
  refine ⟨pre, mid, hks, hb, fun h => (ht h).resolve_right (· h0), ?_⟩
  rcases hp.eq_nil_or_conjunction hl with ⟨hmid, hc⟩ | hc
  · exact .inl ⟨hmid, hc, fun hk => hm hk hmid h0⟩
  · exact .inr hc

theorem Reads.push {us : List Kind} {n : Option Node} (h : Reads l ks us.head?) (hu : Unary us next n) :
    Reads (l.push n) (ks ++ us) next := by
  obtain ⟨⟨pre, mid, rfl, hb, hp, -, -⟩, -, -⟩ := h
  have hus : us ≠ [] := by
    obtain ⟨k, ks', rfl, -⟩ := hu.starts
    nofun
  have hhead : (if l.negations = 0 then us.head? else some .not) =
      (List.replicate l.negations Kind.not ++ us).head? := by
    cases l.negations <;> rfl
  rw [hhead] at hp
  refine ⟨⟨pre, mid ++ (List.replicate l.negations .not ++ us), ?_, hb, .whole (hp.unary (hu.negated _)),
    ?_, ?_⟩, nofun, ?_⟩
  · simp [Level.push]
  · intro _ hmid
    exact absurd hmid (by simp [hus])
  · intro _
    exact .inl (by simp [hus])
  · simp [Level.push, hus]

theorem Reads.not (h : Reads l ks (some .not)) (hn : lacks next = false) :
    Reads l.negated (ks ++ [.not]) next := by
  obtain ⟨⟨pre, mid, rfl, hb, hp, -, -⟩, -, -⟩ := h
  rw [ite_self] at hp
  refine ⟨⟨pre, mid, ?_, hb, ?_, ?_, ?_⟩, fun _ => hn, ?_⟩
  · simp [Level.negated, List.replicate_succ']
  · simpa [Level.negated] using hp
  · intro _ _ h0
    cases h0
  · intro _
    exact .inr (Nat.succ_ne_zero _)
  · simp [Level.negated]

theorem Reads.and (h : Reads l ks (some .and)) (hs : l.termSeen = true) (hn : lacks next = false) :
    Reads { l with touched := true } (ks ++ [.and]) next := by
  have h0 := h.negations_eq_zero rfl
  obtain ⟨pre, mid, rfl, hb, ht, hc⟩ := h.settled rfl
  have hc := hc.resolve_left (fun h => ht hs h.1)
  refine ⟨⟨pre, mid ++ [.and], ?_, hb, ?_, ?_, ?_⟩, ?_, ?_⟩
  · simp [h0]
  · simp only [h0, if_true]
    exact .and hc hn
  · intro _ hmid
    simp at hmid
  · intro _
    exact .inl (by simp)
  · intro hne
    exact absurd h0 hne
  · simp

theorem Reads.or (h : Reads l ks (some .or)) (hs : l.touched = true) (hn : ends next = false) :
    Reads l.alternate (ks ++ [.or]) next := by
  have hne := h.touched.1 hs
  obtain ⟨pre, mid, rfl, hb, -, hc⟩ := h.settled rfl
  have hc := hc.resolve_left (fun h => nomatch h.2.2 hne)
  refine ⟨⟨pre ++ mid ++ [.or], [], ?_, .or (hb.alternatives hc), .nil, fun _ _ _ => hn, nofun⟩, nofun, ?_⟩
  · simp [Level.alternate]
  · simp [Level.alternate]

theorem Reads.close (h : Reads l ks next) (he : ends next = true) :
    ks = [] ∧ l.touched = false ∧ l.node = none ∨ Alternatives ks next l.alternate.alternatives := by
  have ht := h.touched
  obtain ⟨pre, mid, rfl, hb, -, ⟨rfl, hcs, hk⟩ | hc⟩ := h.settled (lacks_of_ends he)
  · left
    rw [List.append_nil] at ht hk ⊢
    have hpre : pre = [] := Decidable.byContradiction fun hne => by
      have := hk hne
      rw [he] at this
      cases this
    subst hpre
    refine ⟨rfl, ?_, ?_⟩
    · simpa using ht
    · simp [Level.node, Level.alternate, hb.eq_nil, hcs, Node.join]
  · exact .inr (hb.alternatives hc)

end

inductive Outside : List (Token × Level) → List Kind → Prop
  | nil : Outside [] []
  | cons : Outside outer ps → Reads l ks (some .leftParen) →
      Outside ((t, l) :: outer) (ps ++ (ks ++ [.leftParen]))

structure Clean (s : Grouping) (ks : List Kind) (next : Option Kind) : Prop where
  split : ∃ ps ls, ks = ps ++ ls ∧ Outside s.outer ps ∧ Reads s.level ls next
  roots : s.roots = []

theorem clean_start (next : Option Kind) : Clean .start [] next :=
  ⟨⟨[], [], rfl, .nil, reads_empty next⟩, rfl⟩

section

variable {s : Grouping} {ks : List Kind} {next : Option Kind}

theorem Clean.level {l : Level} {us : List Kind} {next' : Option Kind} {ps : List Problem} {ws : List Warning}
    (h : Clean s ks next) (hl : ∀ ls, Reads s.level ls next → Reads l (ls ++ us) next') :
    Clean { s with level := l, problems := ps, warnings := ws } (ks ++ us) next' := by
  obtain ⟨⟨ps, ls, rfl, ho, hr⟩, hs⟩ := h
  exact ⟨⟨ps, ls ++ us, by rw [List.append_assoc], ho, hl ls hr⟩, hs⟩

theorem Clean.leftParen (h : Clean s ks (some .leftParen)) (t : Token) (next : Option Kind) :
    Clean (s.takeLeftParen t) (ks ++ [.leftParen]) next := by
  obtain ⟨⟨ps, ls, rfl, ho, hr⟩, hs⟩ := h
  have ho' : Outside ((t, s.level) :: s.outer) (ps ++ (ls ++ [.leftParen])) := .cons ho hr
  refine ⟨⟨_, [], ?_, ho', reads_empty next⟩, hs⟩
  simp

theorem unary_group {l : Level} (h : Reads l ks (some .rightParen)) (next : Option Kind) :
    Unary (.leftParen :: (ks ++ [.rightParen])) next l.node := by
  rcases h.close rfl with ⟨rfl, -, hn⟩ | ha
  · rw [hn]
    exact .empty
  · exact .group ha

theorem Clean.rightParen {t : Token} (h : Clean s ks (some .rightParen))
    (hp : (s.takeRightParen t).problems = []) (next : Option Kind) :
    Clean (s.takeRightParen t) (ks ++ [.rightParen]) next := by
  obtain ⟨⟨ps, ls, rfl, ho, hr⟩, hs⟩ := h
  revert hp
  generalize hs' : s.outer = outer at ho
  cases ho with
  | nil =>
    intro hp
    simp [Grouping.takeRightParen, hs', Grouping.report] at hp
  | @cons outer ps l ks t' ho hl =>
    intro _
    simp only [Grouping.takeRightParen, hs']
    have hl : Reads l ks (List.head? (.leftParen :: (ls ++ [.rightParen]))) := hl
    have hl := hl.push (unary_group hr next)
    refine ⟨⟨ps, ks ++ (.leftParen :: (ls ++ [.rightParen])), ?_, ho, hl⟩, hs⟩
    simp

end

theorem problems_report (s : Grouping) (b : Bool) (f : Fault) (t : Token) :
    s.problems <+: (s.report b f t).problems := by
  cases b with
  | false => exact List.prefix_refl _
  | true => exact List.prefix_append ..

theorem problems_step (s : Grouping) (next : Option Clause) (c : Clause) :
    s.problems <+: (s.step next c).problems := by
  cases c with
  | and t => exact (problems_report s _ _ t).trans (problems_report _ _ _ t)
  | or t => exact (problems_report s _ _ t).trans (problems_report _ _ _ t)
  | not t =>
    rw [Grouping.step_not, Grouping.takeNot]
    split
    · exact problems_report s _ _ t
    · exact List.prefix_refl _
  | leftParen t => exact List.prefix_refl _
  | rightParen t =>
    rw [Grouping.step_rightParen, Grouping.takeRightParen]
    split
    · exact problems_report s _ _ t
    · exact List.prefix_refl _
  | term n wn => exact List.prefix_refl _
  | broken p => exact List.prefix_append ..
  | reference t name => exact List.prefix_append ..

theorem problems_run (s : Grouping) (cs : List Clause) :
    s.problems <+: (Id.run (Grouping.run Tree.unresolved s cs)).problems := by
  induction cs generalizing s with
  | nil => exact List.prefix_refl _
  | cons c cs ih =>
    rw [Grouping.run_cons]
    exact (problems_step s _ c).trans (ih _)

theorem problems_closeAll (s : Grouping) (outer : List (Token × Level)) :
    s.problems <+: (s.closeAll outer).problems := by
  induction outer generalizing s with
  | nil => exact List.prefix_refl _
  | cons o outer ih =>
    obtain ⟨t, around⟩ := o
    rw [Grouping.closeAll]
    refine List.IsPrefix.trans ?_ (ih _)
    exact problems_report s true .unclosedParen t

section

variable {s : Grouping} {ks : List Kind} {t : Token} {f : Fault}

theorem eq_false_of_report {b : Bool} (h : (s.report b f t).problems = []) : b = false := by
  cases b with
  | false => rfl
  | true => simp [Grouping.report] at h

theorem eq_nil_of_report {b : Bool} (h : (s.report b f t).problems = []) : s.problems = [] :=
  List.prefix_nil.1 (h ▸ problems_report s b f t)

theorem Clean.unary {us : List Kind} {n : Option Node} {next : Option Kind} {ws : List Warning}
    (h : Clean s ks us.head?) (hu : Unary us next n) : Clean (s.pushed n ws) (ks ++ us) next :=
  h.level fun _ hr => hr.push hu

theorem Clean.not {next : Option Clause} {k : Option Kind} (h : Clean s ks (some .not))
    (hk : Grouping.lacksTerm next = lacks k) (hp : (s.takeNot t next).problems = []) :
    Clean (s.takeNot t next) (ks ++ [.not]) k := by
  cases hn : Grouping.lacksTerm next with
  | true => simp [Grouping.takeNot, hn, Grouping.push, Grouping.report] at hp
  | false =>
    rw [Grouping.takeNot_of_term hn]
    exact h.level fun _ hr => hr.not (hk.symm.trans hn)

theorem Clean.and {next : Option Clause} {k : Option Kind} (h : Clean s ks (some .and))
    (hk : Grouping.lacksTerm next = lacks k) (hp : (s.takeAnd t next).problems = []) :
    Clean (s.takeAnd t next) (ks ++ [.and]) k := by
  have hn := eq_false_of_report hp
  have hs := eq_false_of_report (eq_nil_of_report hp)
  simp only [Grouping.takeAnd, hn, hs, Grouping.report_false]
  exact h.level fun _ hr => hr.and (by simpa using hs) (hk.symm.trans hn)

theorem Clean.or {next : Option Clause} {k : Option Kind} (h : Clean s ks (some .or))
    (hk : Grouping.isBoundary next = ends k) (hp : (s.takeOr t next).problems = []) :
    Clean (s.takeOr t next) (ks ++ [.or]) k := by
  have hn := eq_false_of_report hp
  have hs := eq_false_of_report (eq_nil_of_report hp)
  simp only [Grouping.takeOr, hn, hs, Grouping.report_false]
  exact h.level fun _ hr => hr.or (by simpa using hs) (hk.symm.trans hn)

theorem Clean.step {stop : Nat} {ts rest : List Token} {c : Clause} (h : Clean s ks (some t.kind))
    (hread : Clause.read stop t ts = (c, rest))
    (hp : (s.step (Clause.readAll stop rest).head? c).problems = []) :
    ∃ us, ts = us ++ rest ∧
      Clean (s.step (Clause.readAll stop rest).head? c) (ks ++ t.kind :: us.map (·.kind)) (nextKind rest) := by
  -- Only a term takes in more tokens than its first.
  cases hk : t.kind with
  | and =>
    rw [Clause.read_and stop ts hk] at hread
    cases hread
    rw [hk] at h
    exact ⟨[], rfl, h.and (Grouping.lacksTerm_readAll stop ts) hp⟩
  | or =>
    rw [Clause.read_or stop ts hk] at hread
    cases hread
    rw [hk] at h
    exact ⟨[], rfl, h.or (Grouping.isBoundary_readAll stop ts) hp⟩
  | not =>
    rw [Clause.read_not stop ts hk] at hread
    cases hread
    rw [hk] at h
    exact ⟨[], rfl, h.not (Grouping.lacksTerm_readAll stop ts) hp⟩
  | leftParen =>
    rw [Clause.read_leftParen stop ts hk] at hread
    cases hread
    rw [hk] at h
    exact ⟨[], rfl, h.leftParen t _⟩
  | rightParen =>
    rw [Clause.read_rightParen stop ts hk] at hread
    cases hread
    rw [hk] at h
    exact ⟨[], rfl, h.rightParen hp _⟩
  | reference name =>
    rw [Clause.read_reference stop ts hk] at hread
    cases hread
    rw [hk] at h
    have hu : Unary [Kind.reference name] (nextKind ts) (some (.reference name)) := .reference
    have h : Clean s ks [Kind.reference name].head? := h
    rw [Grouping.step_reference]
    exact ⟨[], rfl, h.unary hu⟩
  | _ =>
    have ha : (Clause.read stop t ts).1.IsAtom := Clause.isAtom_read stop ts (by rw [hk]; rfl)
    rw [hread] at ha
    cases c with
    | term n wn =>
      obtain ⟨us, rfl, hu⟩ := unary_of_read_eq_term hread
      have h : Clean s ks (List.head? (t.kind :: us.map (·.kind))) := h
      rw [Grouping.step_term, ← hk]
      exact ⟨us, rfl, h.unary hu⟩
    | broken p => simp [Grouping.step, Grouping.take] at hp
    | _ => cases ha

end

theorem Clean.runTokens (stop : Nat) : ∀ (n : Nat) {ts : List Token} {s : Grouping} {ks : List Kind},
    ts.length ≤ n → Clean s ks (nextKind ts) → (Grouping.runTokens stop s ts).problems = [] →
    Clean (Grouping.runTokens stop s ts) (ks ++ ts.map (·.kind)) none
  | _, [], s, ks, _, h, _ => by
    rw [Grouping.runTokens_nil, List.map_nil, List.append_nil]
    exact h
  | n + 1, t :: ts, s, ks, hn, h, hp => by
    rcases hread : Clause.read stop t ts with ⟨c, rest⟩
    rw [Grouping.runTokens_cons hread] at hp ⊢
    have hstep : (s.step (Clause.readAll stop rest).head? c).problems = [] :=
      List.prefix_nil.1 (hp ▸ problems_run _ _)
    obtain ⟨us, rfl, h'⟩ := h.step hread hstep
    have hrun := h'.runTokens stop n (by simp at hn; omega) hp
    rwa [List.append_assoc, List.cons_append, ← List.map_append] at hrun

theorem ofClauses_readAll (query : String) (stop : Nat) (ts : List Token) :
    Tree.ofClauses query (Clause.readAll stop ts) = (Grouping.runTokens stop .start ts).tree query := rfl

/-- A text of these tokens is a query: it is empty, or its tokens are alternatives. -/
def Derivable (ks : List Kind) : Prop := ks = [] ∨ ∃ ns, Alternatives ks none ns

theorem Clean.tree {s : Grouping} {ks : List Kind} {query : String} (h : Clean s ks none)
    (hp : (s.tree query).problems = []) : Derivable ks := by
  obtain ⟨⟨ps, ls, rfl, ho, hr⟩, -⟩ := h
  rw [Grouping.tree] at hp
  generalize hs : s.outer = outer at ho hp
  cases ho with
  | nil =>
    rcases hr.close rfl with ⟨rfl, -, -⟩ | ha
    · exact .inl rfl
    · exact .inr ⟨_, ha⟩
  | @cons outer ps l ks t' ho hl =>
    have hp : (s.closeAll ((t', l) :: outer)).problems = [] := hp
    rw [Grouping.closeAll] at hp
    have hcl := problems_closeAll { s.report true .unclosedParen t' with level := l.push s.level.node } outer
    rw [hp] at hcl
    simp [Grouping.report] at hcl

theorem derivable_of_problems {query : String} {stop : Nat} {ts : List Token}
    (h : (Tree.ofClauses query (Clause.readAll stop ts)).problems = []) :
    Derivable (ts.map (·.kind)) := by
  rw [ofClauses_readAll] at h
  have hrun : (Grouping.runTokens stop .start ts).problems = [] :=
    List.prefix_nil.1 (h ▸ problems_closeAll _ _)
  exact ((clean_start _).runTokens _ ts.length (Nat.le_refl _) hrun).tree h

theorem Alternatives.tree (query : String) (stop : Nat) {ts : List Token} {ns : List Node}
    (h : Alternatives (ts.map (·.kind)) none ns) :
    (Tree.ofClauses query (Clause.readAll stop ts)).problems = [] ∧
      (Tree.ofClauses query (Clause.readAll stop ts)).root = Node.join .and (Node.join .or ns).toList := by
  have hend : nextKind ([] : List Token) = none := rfl
  obtain ⟨l, ws, -, -, -, hl, hrun⟩ := h.run stop rfl hend follows_none .start rfl
  rw [List.append_nil, Grouping.runTokens_nil] at hrun
  rw [ofClauses_readAll, hrun]
  subst hl
  exact ⟨rfl, rfl⟩

theorem parse_of_scanFrom {query : String} {ts : List Token} (h : Token.scanFrom 0 query.toList = .ok ts) :
    Tree.parse query = .ok (Tree.ofClauses query (Clause.readAll query.length ts)) := by
  simp [Tree.parse, Clause.ofQuery, h, bind, Except.bind]

/-- A query is read without problems just in case its tokens, up to the one that ends it, are derived from
the grammar. -/
theorem parse_accepts_iff_derivable {query : String} {tokens : List Token}
    (h : Token.tokenize query = .ok tokens) :
    ∃ t, Tree.parse query = .ok t ∧ (t.problems = [] ↔ Derivable (tokens.dropLast.map (·.kind))) := by
  obtain ⟨ts, hts, rfl⟩ := tokenize_eq_ok h
  rw [List.dropLast_concat]
  refine ⟨_, parse_of_scanFrom hts, ?_, ?_⟩
  · exact derivable_of_problems
  · rintro (hnil | ⟨ns, h⟩)
    · rw [List.map_eq_nil_iff.1 hnil, ofClauses_readAll, Grouping.runTokens_nil]
      rfl
    · exact (h.tree query _).1

theorem parse_accepts_iff_derivable_range :
    Token.tokenize "!(words:9..)" = .ok [⟨.not, "!", 0⟩, ⟨.leftParen, "(", 1⟩, ⟨.word "words", "words", 2⟩,
      ⟨.colon, ":", 7⟩, ⟨.number "9", "9", 8⟩, ⟨.compare .within, "..", 9⟩, ⟨.rightParen, ")", 11⟩,
      ⟨.finish, "", 12⟩] ∧
    ∃ t, Tree.parse "!(words:9..)" = .ok t ∧ (t.problems = [] ↔
      Derivable [.not, .leftParen, .word "words", .colon, .number "9", .compare .within, .rightParen]) :=
  have h : Token.tokenize "!(words:9..)" = .ok [⟨.not, "!", 0⟩, ⟨.leftParen, "(", 1⟩,
      ⟨.word "words", "words", 2⟩, ⟨.colon, ":", 7⟩, ⟨.number "9", "9", 8⟩, ⟨.compare .within, "..", 9⟩,
      ⟨.rightParen, ")", 11⟩, ⟨.finish, "", 12⟩] := by decide +kernel
  ⟨h, parse_accepts_iff_derivable h⟩

end FilterQuery.Grammar
