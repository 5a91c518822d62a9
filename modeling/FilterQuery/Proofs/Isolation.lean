import FilterQuery.Proofs.Composition
import FilterQuery.Proofs.Grammar.Recovery
import FilterQuery.Proofs.Printing.Alone

namespace FilterQuery

open Token (Kind Lexes)
open Grammar (Unary apart_of_lacks)

namespace Clause

def node? : Clause → Option Node
  | .term n _ => some n
  | .reference _ name => some (.reference name)
  | _ => none

end Clause

namespace Grouping

variable {s : Grouping} {a n : Node}

theorem Holds.step (h : s.Holds a) (next : Option Clause) (c : Clause) : (s.step next c).Holds a := by
  cases c with
  | reference t name => exact h.push _
  | _ => exact h.take next _

theorem Holds.run (h : s.Holds a) (cs : List Clause) : (Id.run (run Tree.unresolved s cs)).Holds a := by
  induction cs generalizing s with
  | nil => exact h
  | cons c cs ih =>
    rw [run_cons]
    exact ih (h.step _ c)

theorem holds_run {cs : List Clause} {c : Clause} (hc : c ∈ cs) (hn : c.node? = some n) (ha : a ∈ n.atoms)
    (s : Grouping) : (Id.run (Grouping.run Tree.unresolved s cs)).Holds a := by
  induction cs generalizing s with
  | nil => cases hc
  | cons d cs ih =>
    rw [run_cons]
    rcases List.mem_cons.1 hc with rfl | hc
    · refine Holds.run ?_ cs
      cases c with
      | term m w =>
        cases hn
        exact holds_push ha
      | reference t name =>
        cases hn
        exact holds_push ha
      | _ => cases hn
    · exact ih hc _

end Grouping

theorem Tree.root_ne_none {query : String} {cs : List Clause} {c : Clause} {n : Node} (hc : c ∈ cs)
    (hn : c.node? = some n) (ha : n.atoms ≠ []) : (ofClauses query cs).root ≠ none := by
  obtain ⟨a, ha⟩ := List.exists_mem_of_ne_nil _ ha
  have hroot := Grouping.mem_root_closeAll (Grouping.holds_run hc hn ha .start)
  intro hnone
  change a ∈ (ofClauses query cs).root.toList.flatMap Node.atoms at hroot
  rw [hnone] at hroot
  cases hroot

theorem Grammar.Term.atoms_ne_nil {s : Option Stance} {ks : List Kind} {next : Option Kind} {n : Node}
    (h : Term s ks next n) : n.atoms ≠ [] := by
  obtain ⟨l, rfl | rfl⟩ := h.exists_leaf
  · exact List.cons_ne_nil _ []
  · exact List.cons_ne_nil _ []

theorem Clause.isNoise_of_root {query : String} {stop : Nat} {ts : List Token}
    (hroot : (Tree.ofClauses query (readAll stop ts)).root = none)
    (hts : ∀ t ∈ ts, t.kind ≠ .leftParen ∧ t.kind ≠ .rightParen ∧ t.kind ≠ .or) :
    ∀ c ∈ readAll stop ts, c.shape.isNoise = true := by
  intro c hc
  have hnode : ∀ n, c.node? = some n → n.atoms = [] := by
    intro n hn
    by_contra ha
    exact Tree.root_ne_none hc hn ha hroot
  obtain ⟨t, us, hsuffix, rfl⟩ := exists_read_of_mem_readAll hc
  obtain ⟨hleft, hright, hor⟩ := hts t (hsuffix.subset List.mem_cons_self)
  cases hk : t.kind with
  | or => exact absurd hk hor
  | leftParen => exact absurd hk hleft
  | rightParen => exact absurd hk hright
  | and => rw [read_and stop us hk]; rfl
  | not => rw [read_not stop us hk]; rfl
  | reference name =>
    rw [read_reference stop us hk] at hnode
    cases hnode _ rfl
  | _ =>
    have hatom : (read stop t us).1.IsAtom := isAtom_read stop us (by rw [hk]; rfl)
    cases hread : (read stop t us).1 with
    | term n w =>
      obtain ⟨s, vs, next, -, hterm, -⟩ := exists_term_of_read hread
      rw [hread] at hnode
      exact absurd (hnode n rfl) hterm.atoms_ne_nil
    | broken p => rfl
    | _ => rw [hread] at hatom; cases hatom

namespace Grouping

variable {s s' : Grouping} {ns : List Node}

structure Conjoins (ns : List Node) (s : Grouping) : Prop where
  alternatives : s.level.alternatives = []
  conjuncts : s.level.conjuncts = ns
  negations : s.level.negations = 0
  outer : s.outer = []
  roots : s.roots = []

theorem conjoins_start : Conjoins [] start := ⟨rfl, rfl, rfl, rfl, rfl⟩

theorem Conjoins.keeps (h : Conjoins ns s) (hs : Keeps s s') (hzero : s'.level.negations = 0) : Conjoins ns s' where
  alternatives := hs.alternatives.trans h.alternatives
  conjuncts := hs.conjuncts.trans h.conjuncts
  negations := hzero
  outer := hs.outer.trans h.outer
  roots := hs.roots.trans h.roots

theorem Conjoins.pushed (h : Conjoins ns s) (n : Option Node) (ws : List Warning) :
    Conjoins (ns ++ n.toList) (s.pushed n ws) := by
  rw [Grouping.pushed, Level.push_eq_extend h.negations]
  exact ⟨h.alternatives, congrArg (· ++ n.toList) h.conjuncts, rfl, h.outer, h.roots⟩

theorem Conjoins.takeAnd (h : Conjoins ns s) (t : Token) (next : Option Clause) : Conjoins ns (s.takeAnd t next) :=
  h.keeps (keeps_takeAnd s t next) ((negations_takeAnd s t next).trans h.negations)

theorem Conjoins.root_tree (h : Conjoins ns s) (query : String) :
    (s.tree query).root = Node.join .and (Node.join .or (Node.join .and ns).toList).toList := by
  rw [tree, h.outer, closeAll, root, h.roots, Level.node, Level.alternate, h.alternatives, h.conjuncts]
  rfl

theorem Conjoins.unary_and (h : Conjoins ns s) {stop : Nat} {us ts : List Token} {q : Token} {n : Option Node}
    (hq : q.kind = .and) (hn : Unary (us.map (·.kind)) (some .and) n) :
    ∃ s', Conjoins (ns ++ n.toList) s' ∧ runTokens stop s (us ++ q :: ts) = runTokens stop s' ts := by
  have hnext : Grammar.nextKind (q :: ts) = some .and := congrArg some hq
  obtain ⟨ws, hws⟩ := hn.run stop rfl hnext Grammar.follows_and s
  refine ⟨_, (h.pushed n ws).takeAnd q (Clause.readAll stop ts).head?, ?_⟩
  rw [hws, runTokens_cons (Clause.read_and stop ts hq), step_and]

theorem tree_isolated {query : String} {stop : Nat} {us ts vs : List Token} {q q' : Token} {m n : Option Node}
    {cs : List Clause} (hq : q.kind = .and) (hq' : q'.kind = .and)
    (hm : Unary (us.map (·.kind)) (some .and) m) (hn : Unary (vs.map (·.kind)) none n)
    (hread : Clause.readAll stop (ts ++ q' :: vs) = cs ++ Clause.readAll stop (q' :: vs)) (hcs : cs ≠ [])
    (hnoise : ∀ c ∈ cs, c.shape.isNoise = true) :
    ((runTokens stop .start (us ++ q :: (ts ++ q' :: vs))).tree query).problems ≠ [] ∧
      ((runTokens stop .start (us ++ q :: (ts ++ q' :: vs))).tree query).root =
        Node.join .and (Node.join .or (Node.join .and (m.toList ++ n.toList)).toList).toList := by
  obtain ⟨s, hs, hfirst⟩ := conjoins_start.unary_and hq hm
  have hclauses : Clause.readAll stop (q' :: vs) = .and q' :: Clause.readAll stop vs := by
    rw [Clause.readAll, Clause.read_and stop vs hq']
  obtain ⟨s', hrun, hkeeps, hzero, hproblems⟩ :=
    run_noise (d := .and q') hcs hnoise rfl (Clause.readAll stop vs) (fun hne => absurd hs.negations hne)
  have hs' := hs.keeps hkeeps hzero
  have hbad : runTokens stop s (ts ++ q' :: vs) = runTokens stop s' (q' :: vs) := by
    rw [runTokens, hread, hclauses, hrun, runTokens, hclauses]
  rw [hfirst, hbad]
  constructor
  · intro hnil
    have hkept := Grammar.problems_tree query stop s' (q' :: vs)
    rw [hnil] at hkept
    exact hproblems (List.prefix_nil.1 hkept)
  · have hend : Grammar.nextKind [] = none := rfl
    obtain ⟨ws, hlast⟩ := hn.run stop rfl hend Grammar.follows_none
      (s'.takeAnd q' (Clause.readAll stop vs).head?)
    rw [List.append_nil, runTokens_nil] at hlast
    rw [runTokens_cons (Clause.read_and stop vs hq'), step_and, hlast]
    exact ((hs'.takeAnd q' _).pushed n ws).root_tree query

end Grouping

/-- A text that is read to nothing and reported, with every phrase and regex closed, in which neither a group nor an
alternative begins or ends. -/
structure IsMalformed (text : String) : Prop where
  tokens : ∃ ts, Token.tokenize text = .ok ts ∧
    ∀ t ∈ ts, t.kind ≠ .leftParen ∧ t.kind ≠ .rightParen ∧ t.kind ≠ .or ∧ t.kind.isOpen = false
  tree : ∃ t, Tree.parse text = .ok t ∧ t.problems ≠ [] ∧ t.root = none

theorem IsMalformed.exists_clauses {text : String} (h : IsMalformed text) :
    ∃ ts, Lexes 0 text.toList ts ∧ (∀ t ∈ ts, t.kind.isOpen = false) ∧
      ∀ (d stop : Nat) {q : Token} (qs : List Token), q.kind = .and →
        ∃ cs, Clause.readAll stop (ts.map (Token.shift d) ++ q :: qs) = cs ++ Clause.readAll stop (q :: qs) ∧
          cs ≠ [] ∧ ∀ c ∈ cs, c.shape.isNoise = true := by
  obtain ⟨⟨tokens, htokens, hkinds⟩, ⟨t, ht, hp, hr⟩⟩ := h
  obtain ⟨ts, hts, rfl⟩ := Token.tokenize_eq_ok htokens
  obtain ⟨hkinds, -⟩ := List.forall_mem_append.1 hkinds
  rw [Grammar.parse_of_scanFrom hts] at ht
  cases ht
  have hnoise := Clause.isNoise_of_root hr fun t ht => ⟨(hkinds t ht).1, (hkinds t ht).2.1, (hkinds t ht).2.2.1⟩
  refine ⟨ts, Token.lexes_of_scanFrom hts, fun t ht => (hkinds t ht).2.2.2, fun d stop q qs hq => ?_⟩
  have hlacks : Grammar.lacks (some q.kind) = true := by rw [hq]; rfl
  obtain ⟨cs, hread, hshapes⟩ := Clause.readAll_shift d qs hlacks text.length stop ts
  refine ⟨cs, hread, ?_, fun c hc => ?_⟩
  · rintro rfl
    rw [List.map_nil, eq_comm, List.map_eq_nil_iff] at hshapes
    rw [hshapes] at hp
    exact hp rfl
  · have hmem := List.mem_map_of_mem (f := Clause.shape) hc
    rw [hshapes] at hmem
    obtain ⟨c', hc', heq⟩ := List.mem_map.1 hmem
    rw [← heq]
    exact hnoise c' hc'

theorem Spells.exists_lexes_between {front text back : List Char} {ks ls : List Kind} {ts : List Token}
    (hfront : Spells front ks) (htext : Lexes 0 text ts) (hopen : ∀ t ∈ ts, t.kind.isOpen = false)
    (hback : Spells back ls) (hbreak : Token.Breaks back) :
    ∃ d us vs, us.map (·.kind) = ks ∧ vs.map (·.kind) = ls ∧
      Lexes 0 (front ++ ' ' :: (text ++ back)) (us ++ (ts.map (Token.shift d) ++ vs)) := by
  obtain ⟨us, hus, hkinds⟩ := hfront.scans.scanFrom 0
  obtain ⟨vs, hvs, hkinds'⟩ := hback.scans.scanFrom (0 + front.length + 1 + text.length)
  refine ⟨0 + front.length + 1, us, vs, hkinds, hkinds', ?_⟩
  have hmoved := htext.shift (0 + front.length + 1)
  rw [Nat.zero_add (0 + front.length + 1)] at hmoved
  have hopen' : ∀ t ∈ ts.map (Token.shift (0 + front.length + 1)), t.kind.isOpen = false := List.forall_mem_map.2 hopen
  have hrest := hmoved.append hopen' hbreak (Token.lexes_of_scanFrom hvs)
  have husOpen : ∀ t ∈ us, t.kind.isOpen = false := by
    rw [← hkinds] at hfront
    exact List.forall_mem_map.1 hfront.isOpen
  refine (Token.lexes_of_scanFrom hus).append husOpen ?_ (.blank (by decide +kernel) hrest)
  exact Token.breaks_cons (by decide +kernel) _

/-- A malformed text between two queries in parentheses is reported, and what is read of the whole are the nodes of
the two queries. -/
theorem parse_isolates_malformed {a b text : String} {m n : Option Node} (ha : ReadsTo a m) (hb : ReadsTo b n)
    (htext : IsMalformed text) :
    ∃ t, Tree.parse ("(" ++ a ++ ") & " ++ text ++ " & (" ++ b ++ ")") = .ok t ∧ t.problems ≠ [] ∧
      t.root = Node.join .and (m.toList ++ n.toList) := by
  obtain ⟨ks, hks, hm⟩ := ha.parenthesized
  obtain ⟨ls, hls, hn⟩ := hb.parenthesized
  have hm := (hm (some .and) (apart_of_lacks rfl)).1
  have hn := (hn none (apart_of_lacks rfl)).1
  obtain ⟨ts, hts, hopen, hclauses⟩ := htext.exists_clauses
  -- the tokens of the whole text
  have hand : Spells [' ', '&'] [.and] :=
    .blank (.sign (by decide +kernel) (by rintro f ⟨⟩) rfl ⟨.nil, List.forall_mem_nil _⟩)
  have hfront := hks.append (Token.breaks_cons (by decide +kernel) _) hand
  have hback := hls.separator .and
  obtain ⟨d, us, vs, hus, hvs, hlexes⟩ := hfront.exists_lexes_between hts hopen hback (breaks_separator .and _)
  obtain ⟨us, qs, rfl, rfl, hqs⟩ := List.map_eq_append_iff.1 hus
  obtain ⟨q, rfl, hq⟩ := List.map_eq_singleton_iff.1 hqs
  obtain ⟨q', vs, rfl, hq', rfl⟩ := List.map_eq_cons_iff.1 hvs
  -- the tree of these tokens
  obtain ⟨cs, hread, hcs, hnoise⟩ :=
    hclauses d ("(" ++ a ++ ") & " ++ text ++ " & (" ++ b ++ ")").length vs hq'
  have hscan : Token.scanFrom 0 ("(" ++ a ++ ") & " ++ text ++ " & (" ++ b ++ ")").toList =
      .ok (us ++ q :: (ts.map (Token.shift d) ++ q' :: vs)) := by
    have hscan := hlexes.scanFrom
    simpa [Node.parenthesized, Junction.separator] using hscan
  obtain ⟨hproblems, hroot⟩ := Grouping.tree_isolated hq hq' hm hn hread hcs hnoise
  refine ⟨_, Grammar.parse_of_scanFrom hscan, hproblems, hroot.trans ?_⟩
  have hnodes : ∀ k ∈ m.toList ++ n.toList, k.Normal fun _ => True := by
    refine List.forall_mem_append.2 ⟨fun k hk => ?_, fun k hk => ?_⟩
    · exact hm.isNormal k (Option.mem_toList.1 hk)
    · exact hn.isNormal k (Option.mem_toList.1 hk)
  have hjoin := Node.Normal.join hnodes .and
  rw [Node.join_toList hjoin, Node.join_toList hjoin]

theorem parse_isolates_malformed_comparison :
    ∃ t, Tree.parse "(x | y) & !words:>= & @ ! & (-z)" = .ok t ∧ t.problems ≠ [] ∧
      t.root = some (.group .and false [.group .or false [.leaf (.term .content "x" .is),
        .leaf (.term .content "y" .is)], .leaf (.term .content "z" .isNot)]) := by
  have ha : ReadsTo "x | y" (some (.group .or false [.leaf (.term .content "x" .is),
      .leaf (.term .content "y" .is)])) := ⟨⟨_, "x | y", [], []⟩, by decide +kernel, rfl, rfl⟩
  have hb : ReadsTo "-z" (some (.leaf (.term .content "z" .isNot))) := ⟨⟨_, "-z", [], []⟩, by decide +kernel, rfl, rfl⟩
  have htext : IsMalformed "!words:>= & @ !" := by
    refine ⟨⟨[⟨.not, "!", 0⟩, ⟨.word "words", "words", 1⟩, ⟨.colon, ":", 6⟩, ⟨.compare .atLeast, ">=", 7⟩,
      ⟨.and, "&", 10⟩, ⟨.flawed .bareAt, "@", 12⟩, ⟨.not, "!", 14⟩, ⟨.finish, "", 15⟩], by decide +kernel,
      by decide⟩, ?_⟩
    have hread : (Tree.parse "!words:>= & @ !").map (fun t => (t.problems.length, t.root)) = .ok (3, none) := by
      decide +kernel
    cases ht : Tree.parse "!words:>= & @ !" with
    | error e => rw [ht] at hread; cases hread
    | ok t =>
      rw [ht] at hread
      obtain ⟨hlength, hroot⟩ := Prod.mk.inj (Except.ok.inj hread)
      refine ⟨t, rfl, fun hnil => ?_, hroot⟩
      rw [hnil] at hlength
      cases hlength
  have hquery : "(" ++ "x | y" ++ ") & " ++ "!words:>= & @ !" ++ " & (" ++ "-z" ++ ")" =
      "(x | y) & !words:>= & @ ! & (-z)" := by decide +kernel
  have hisolates := parse_isolates_malformed ha hb htext
  rw [hquery] at hisolates
  exact hisolates

end FilterQuery
