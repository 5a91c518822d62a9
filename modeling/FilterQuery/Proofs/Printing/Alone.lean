import FilterQuery.Proofs.Printing.RoundTrip

namespace FilterQuery

open Token (Kind Scans)

namespace Level

def atoms (l : Level) : List Node := l.alternatives.flatMap Node.atoms ++ l.conjuncts.flatMap Node.atoms

theorem atoms_negateTimes (k : Nat) (n : Node) : (negateTimes k n).atoms = n.atoms := by
  induction k with
  | zero => rfl
  | succ k ih => rw [negateTimes, Node.atoms_negate, ih]

theorem atoms_push (l : Level) (n : Option Node) : (l.push n).atoms = l.atoms ++ n.toList.flatMap Node.atoms := by
  cases n with
  | none => simp [atoms, push]
  | some n => simp [atoms, push, atoms_negateTimes]

theorem atoms_alternate (l : Level) : l.alternate.atoms = l.atoms := by
  simp [atoms, alternate, Node.flatMap_atoms_join]

theorem atoms_node (l : Level) : l.node.toList.flatMap Node.atoms = l.atoms := by
  rw [node, Node.flatMap_atoms_join, ← atoms_alternate, atoms]
  exact (List.append_nil _).symm

end Level

namespace Grouping

def Holds (s : Grouping) (a : Node) : Prop :=
  a ∈ s.level.atoms ∨ (∃ o ∈ s.outer, a ∈ o.2.atoms) ∨ a ∈ s.roots.flatMap Node.atoms

variable {s : Grouping} {a : Node}

theorem holds_report (s : Grouping) (b : Bool) (f : Fault) (t : Token) : (s.report b f t).Holds a ↔ s.Holds a := by
  cases b with
  | false => rfl
  | true => rfl

theorem Holds.push (h : s.Holds a) (n : Option Node) : (s.push n).Holds a := by
  refine h.imp_left fun h => ?_
  change a ∈ (s.level.push n).atoms
  rw [Level.atoms_push]
  exact List.mem_append_left _ h

theorem holds_push {n : Node} (h : a ∈ n.atoms) : (s.push (some n)).Holds a := by
  refine .inl ?_
  change a ∈ (s.level.push (some n)).atoms
  rw [Level.atoms_push]
  exact List.mem_append_right _ (by simpa using h)

theorem Holds.takeRightParen (h : s.Holds a) (t : Token) : (s.takeRightParen t).Holds a := by
  unfold Grouping.takeRightParen
  split
  · next hnil =>
    refine .inr (.inr ?_)
    rw [List.flatMap_append, Level.atoms_node, List.mem_append]
    rcases h with h | ⟨o, ho, -⟩ | h
    · exact .inr h
    · rw [hnil] at ho
      cases ho
    · exact .inl h
  · next opening around outer hcons =>
    unfold Holds
    rw [Level.atoms_push, Level.atoms_node, List.mem_append]
    rcases h with h | ⟨o, ho, h⟩ | h
    · exact .inl (.inr h)
    · rw [hcons] at ho
      rcases List.mem_cons.1 ho with rfl | ho
      · exact .inl (.inl h)
      · exact .inr (.inl ⟨o, ho, h⟩)
    · exact .inr (.inr h)

theorem Holds.take (h : s.Holds a) (next : Option Clause) (c : Clause) : (s.take next c).Holds a := by
  cases c with
  | and t =>
    rw [Grouping.take, takeAnd]
    exact (holds_report _ _ _ _).2 ((holds_report _ _ _ _).2 h)
  | or t =>
    rw [Grouping.take, takeOr]
    have hs := (holds_report (s.report (!s.level.touched) (.missingBefore t.kind) t) (isBoundary next)
      (.missingAfter t.kind) t).2 ((holds_report _ _ _ _).2 h)
    refine hs.imp_left fun hs => ?_
    rw [Level.atoms_alternate]
    exact hs
  | not t =>
    rw [Grouping.take, takeNot]
    split
    · exact ((holds_report _ _ _ _).2 h).push none
    · exact h
  | leftParen t =>
    rcases h with h | ⟨o, ho, h⟩ | h
    · exact .inr (.inl ⟨_, List.mem_cons_self, h⟩)
    · exact .inr (.inl ⟨o, List.mem_cons_of_mem _ ho, h⟩)
    · exact .inr (.inr h)
  | rightParen t => exact h.takeRightParen t
  | term n w => exact h.push (some n)
  | broken problem => exact h.push none
  | reference => exact h

theorem Holds.fill (h : s.Holds a) (cs : List Clause) (rs : List Referral) : (s.fill cs rs).Holds a := by
  fun_induction Grouping.fill s cs rs with
  | case1 => exact h
  | case2 s t name cs r rs ih => exact ih (h.push _)
  | case3 s t name cs ih => exact ih h
  | case4 s c cs rs h1 h2 ih => exact ih (h.take _ c)

theorem holds_fill {cs : List Clause} {n : Node} {w : Option Warning} (hc : .term n w ∈ cs) (ha : a ∈ n.atoms)
    (s : Grouping) (rs : List Referral) : (s.fill cs rs).Holds a := by
  fun_induction Grouping.fill s cs rs with
  | case1 => cases hc
  | case2 s t name cs r rs ih =>
    rcases List.mem_cons.1 hc with hc | hc
    · cases hc
    · exact ih hc
  | case3 s t name cs ih =>
    rcases List.mem_cons.1 hc with hc | hc
    · cases hc
    · exact ih hc
  | case4 s c cs rs h1 h2 ih =>
    rcases List.mem_cons.1 hc with rfl | hc
    · have htaken : (s.take cs.head? (.term n w)).Holds a := holds_push ha
      exact htaken.fill cs rs
    · exact ih hc

theorem mem_root_closeAll {outer : List (Token × Level)}
    (h : a ∈ s.level.atoms ∨ (∃ o ∈ outer, a ∈ o.2.atoms) ∨ a ∈ s.roots.flatMap Node.atoms) :
    a ∈ (s.closeAll outer).root.toList.flatMap Node.atoms := by
  induction outer generalizing s with
  | nil =>
    rw [Grouping.closeAll, root, Node.flatMap_atoms_join, List.flatMap_append, Level.atoms_node, List.mem_append]
    rcases h with h | ⟨o, ho, -⟩ | h
    · exact .inr h
    · cases ho
    · exact .inl h
  | cons o outer ih =>
    obtain ⟨t, around⟩ := o
    refine ih ?_
    change a ∈ (around.push s.level.node).atoms ∨ _
    rw [Level.atoms_push, Level.atoms_node, List.mem_append]
    rcases h with h | ⟨o, ho, h⟩ | h
    · exact .inl (.inr h)
    · rcases List.mem_cons.1 ho with rfl | ho
      · exact .inl (.inl h)
      · exact .inr (.inl ⟨o, ho, h⟩)
    · exact .inr (.inr h)

end Grouping

theorem Tree.mem_atoms_of_term {query : String} {cs : List Clause} {rs : List Referral} {m n : Node}
    {w : Option Warning} (hc : .term n w ∈ cs) (hr : (ofReferrals query cs rs).root = some m) :
    ∀ a ∈ n.atoms, a ∈ m.atoms := by
  intro a ha
  have hroot : a ∈ (ofReferrals query cs rs).root.toList.flatMap Node.atoms :=
    Grouping.mem_root_closeAll (Grouping.holds_fill hc ha .start rs)
  rw [hr] at hroot
  simpa using hroot

theorem Token.classify_cases (cs : List Char) : classify cs = .date (String.ofList cs) ∨
    classify cs = .number (String.ofList cs) ∨ classify cs = .wildcard (String.ofList cs) ∨
    classify cs = .word (String.ofList cs) := by
  unfold classify
  split
  · exact .inl rfl
  · split
    · exact .inr (.inl rfl)
    · split
      · exact .inr (.inr (.inl rfl))
      · exact .inr (.inr (.inr rfl))

namespace Clause

variable {stop : Nat} {t u : Token} {ts : List Token} {f : Flaw}

theorem wordTerm_of_flawed (hu : u.kind = .flawed f) (w : String) :
    (wordTerm stop none t w (u :: ts)).1 = .term (.leaf (.term .content w .is)) none := by
  have hcolon : u.kind ≠ .colon := by
    rw [hu]
    intro heq
    cases heq
  have hcompare : ¬isComparison u.kind = true := by
    rw [hu]
    intro heq
    cases heq
  simp only [wordTerm, if_neg hcolon, if_neg hcompare]
  split
  · rfl
  · rfl

theorem exists_term_of_classify (stop : Nat) (ts : List Token) {cs : List Char} (ht : t.kind = Token.classify cs)
    (hu : u.kind = .flawed f) : ∃ l : Leaf, .term (.leaf l) none ∈ readAll stop (t :: u :: ts) ∧ l.field = none := by
  suffices hread : ∃ l : Leaf, (read stop t (u :: ts)).1 = .term (.leaf l) none ∧ l.field = none by
    obtain ⟨l, hl, hfield⟩ := hread
    refine ⟨l, ?_, hfield⟩
    rw [readAll, hl]
    exact List.mem_cons_self
  rcases Token.classify_cases cs with hk | hk | hk | hk
  · exact ⟨.term .content (String.ofList cs) .is, by simp only [read, readTerm, ht, hk]; rfl, rfl⟩
  · exact ⟨.term .content (String.ofList cs) .is, by simp only [read, readTerm, ht, hk]; rfl, rfl⟩
  · exact ⟨.wildcard (String.ofList cs) none, by simp only [read, readTerm, ht, hk]; rfl, rfl⟩
  · refine ⟨.term .content (String.ofList cs) .is, ?_, rfl⟩
    simp only [read, readTerm, ht, hk]
    exact wordTerm_of_flawed hu _

end Clause

theorem Leaf.exists_text_eq (l : Leaf) : ∃ tail, l.text = Text.fieldMark l.field ++ tail := by
  cases l with
  | regex | phrase | wildcard => exact ⟨_, rfl⟩
  | term | comparison => exact ⟨_, rfl⟩

theorem Leaf.fieldFrom_of_from {p : Kind → Prop} {l : Leaf} (h : l.From p) : FieldFrom p l.field := by
  cases l with
  | regex | wildcard => exact h.2
  | phrase => exact h
  | term | comparison =>
    intro f hf
    cases hf

namespace Node

variable {n : Node}

/-- Whether a node is what its text is read as, with problems or without. -/
def IsReread (n : Node) : Prop := (Tree.parse n.toQuery).map (·.root) = .ok (some n)

instance : DecidablePred IsReread := fun n =>
  inferInstanceAs (Decidable ((Tree.parse n.toQuery).map (·.root) = .ok (some n)))

theorem IsReread.exists_tree (h : n.IsReread) : ∃ t, Tree.parse n.toQuery = .ok t ∧ t.root = some n := by
  unfold IsReread at h
  cases ht : Tree.parse n.toQuery with
  | error o =>
    rw [ht] at h
    cases h
  | ok t =>
    rw [ht] at h
    exact ⟨t, rfl, Except.ok.inj h⟩

theorem IsReread.isLegible (h : n.IsReread) (hn : n.isGroup = false) : n.IsLegible := by
  obtain ⟨t, ht, hr⟩ := h.exists_tree
  refine (Tree.normal_of_parse ht n hr).forall_atoms n ?_
  rw [atoms_of_isGroup hn]
  exact List.mem_singleton_self n

theorem fieldIsWord_of_isReread {l : Leaf} (h : (leaf l).IsReread) : Leaf.FieldIsWord l.field := by
  have hfrom := (h.isLegible rfl).origin
  obtain ⟨t, ht, hr⟩ := h.exists_tree
  obtain ⟨ts, hs, rfl⟩ := Tree.parse_eq_ok ht
  obtain ⟨tail, htail⟩ := l.exists_text_eq
  rw [toQuery, String.toList_ofList, text, htail] at hs
  rcases fieldIsWord_or_of_scans (Leaf.fieldFrom_of_from hfrom) hs with hword | ⟨cs, f, ls, hks⟩
  · exact hword
  -- otherwise the word in front of the flaw would be another term of the tree
  obtain ⟨u, us, rfl, hu, hrest⟩ := List.map_eq_cons_iff.1 hks
  obtain ⟨v, vs, rfl, hv, -⟩ := List.map_eq_cons_iff.1 hrest
  obtain ⟨m, hm, hfield⟩ := Clause.exists_term_of_classify (leaf l).toQuery.length vs hu hv
  rw [Tree.ofClauses_eq_ofReferrals] at hr
  have hmem := Tree.mem_atoms_of_term hm hr _ (List.mem_singleton_self _)
  have hsame : leaf m = leaf l := List.mem_singleton.1 hmem
  cases hsame
  rw [hfield]
  intro g hg
  cases hg

theorem IsReread.readsAlone (h : n.IsReread) (hn : n.isGroup = false) : n.ReadsAlone := by
  refine (h.isLegible hn).readsAlone fun l hl => ?_
  rw [atoms_of_isGroup hn, List.mem_singleton] at hl
  subst hl
  exact fieldIsWord_of_isReread h

end Node

end FilterQuery
