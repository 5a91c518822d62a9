import FilterQuery.Proofs.Expansion.Sites
import FilterQuery.Proofs.References

namespace FilterQuery

structure Memo.All (Q : String → Nat → Expansion → Prop) (m : Memo) : Prop where
  byDepth : ∀ name depth e, m.byDepth.lookup (name, depth) = some e → Q name depth e
  byChain : ∀ (v : Visit) e, m.byChain.lookup v.chain = some e → Q v.name v.outer.length e

inductive Answer (saved : Stacks) (limit : Nat) (Q : String → Nat → Expansion → Prop) (chain : List String)
    (raw : String) : Referral → Prop
  | cycle : (cycleOf (StackName.normalize raw) chain).isEmpty = false → Answer saved limit Q chain raw
      ⟨.reference raw, [.cycle (cycleOf (StackName.normalize raw) chain ++ [StackName.normalize raw])], []⟩
  | full : (cycleOf (StackName.normalize raw) chain).isEmpty = true → chain.length = limit →
      Answer saved limit Q chain raw ⟨.reference raw, [.tooDeep limit], []⟩
  | unknown : (cycleOf (StackName.normalize raw) chain).isEmpty = true →
      saved (StackName.normalize raw) = none →
      Answer saved limit Q chain raw ⟨.reference raw, [], [.unknownStack raw]⟩
  | expansion : (cycleOf (StackName.normalize raw) chain).isEmpty = true → chain.length < limit →
      Q (StackName.normalize raw) chain.length e → Answer saved limit Q chain raw (e.referral raw)

structure Reading.Invariant (saved : Stacks) (limit : Nat) (C : List String → String → Prop)
    (Q : String → Nat → Expansion → Prop) : Prop where
  descend : ∀ {chain query raw query'}, C chain query → raw ∈ references query →
    (cycleOf (StackName.normalize raw) chain).isEmpty = true → saved (StackName.normalize raw) = some query' →
    C (chain ++ [StackName.normalize raw]) query'
  expand : ∀ {chain name query cs rs}, saved name = some query → chain.length < limit →
    C (chain ++ [name]) query → Clause.ofQuery query = .ok cs →
    List.Forall₂ (Answer saved limit Q (chain ++ [name])) (Grouping.references cs) rs → ∀ cyclic,
    Q name chain.length (.ofTree (.ofReferrals query cs rs) name chain.length (chain ++ [name]) cyclic)

inductive Reading.LooksUp (saved : Stacks) (limit : Nat) (chain : List String) (raw : String) (j : Journey) :
    Nat → Except Token.Overrun (Referral × Journey) → Prop
  | cycle (hc : (cycleOf (StackName.normalize raw) chain).isEmpty = false) : LooksUp saved limit chain raw j room
      (.ok (⟨.reference raw, [.cycle (cycleOf (StackName.normalize raw) chain ++ [StackName.normalize raw])], []⟩,
        ⟨j.memo, true⟩))
  | full (hc : (cycleOf (StackName.normalize raw) chain).isEmpty = true) :
      LooksUp saved limit chain raw j 0 (.ok (⟨.reference raw, [.tooDeep limit], []⟩, j))
  | remembered (hc : (cycleOf (StackName.normalize raw) chain).isEmpty = true)
      (he : j.memo.find? (StackName.normalize raw) chain.length (chain ++ [StackName.normalize raw]) = some e) :
      LooksUp saved limit chain raw j (room + 1) (.ok (e.referral raw, ⟨j.memo, j.cyclic || e.cyclic⟩))
  | unknown (hc : (cycleOf (StackName.normalize raw) chain).isEmpty = true)
      (hs : saved (StackName.normalize raw) = none) :
      LooksUp saved limit chain raw j (room + 1) (.ok (⟨.reference raw, [], [.unknownStack raw]⟩, j))
  | read {t : Tree} {j' : Journey} {e : Expansion}
      (hc : (cycleOf (StackName.normalize raw) chain).isEmpty = true)
      (hs : saved (StackName.normalize raw) = some query)
      (ht : Reading.tree (Reading.refer saved limit room (chain ++ [StackName.normalize raw])) query
        ⟨j.memo, false⟩ = .ok (t, j'))
      (he : e = .ofTree t (StackName.normalize raw) chain.length (chain ++ [StackName.normalize raw]) j'.cyclic) :
      LooksUp saved limit chain raw j (room + 1)
        (.ok (e.referral raw, ⟨j'.memo.keep ⟨chain, StackName.normalize raw⟩ e, j.cyclic || e.cyclic⟩))
  | overrun (hc : (cycleOf (StackName.normalize raw) chain).isEmpty = true)
      (hs : saved (StackName.normalize raw) = some query)
      (ht : Reading.tree (Reading.refer saved limit room (chain ++ [StackName.normalize raw])) query
        ⟨j.memo, false⟩ = .error o) : LooksUp saved limit chain raw j (room + 1) (.error o)

theorem looksUp_refer (saved : Stacks) (limit room : Nat) (chain : List String) (raw : String) (j : Journey) :
    Reading.LooksUp saved limit chain raw j room (Reading.refer saved limit room chain raw j) := by
  cases hc : (cycleOf (StackName.normalize raw) chain).isEmpty with
  | false =>
    rw [refer_of_cycle hc]
    exact .cycle hc
  | true =>
    cases room with
    | zero =>
      rw [refer_of_full hc]
      exact .full hc
    | succ room =>
      cases he : j.memo.find? (StackName.normalize raw) chain.length (chain ++ [StackName.normalize raw]) with
      | some e =>
        rw [refer_of_find? hc he]
        exact .remembered hc he
      | none =>
        cases hs : saved (StackName.normalize raw) with
        | none =>
          rw [refer_of_unknown hc hs he]
          exact .unknown hc hs
        | some query =>
          cases ht : Reading.tree (Reading.refer saved limit room (chain ++ [StackName.normalize raw])) query
              ⟨j.memo, false⟩ with
          | error o =>
            rw [refer_of_overrun hc hs he ht]
            exact .overrun hc hs ht
          | ok p =>
            rw [refer_of_tree hc hs he ht]
            exact .read hc hs ht rfl

section

variable {saved : Stacks} {limit : Nat} {C : List String → String → Prop}
  {Q : String → Nat → Expansion → Prop} {f : String → Reading Referral} {o : Token.Overrun}

namespace Memo

variable {m : Memo} {v : Visit} {e : Expansion}

theorem all_empty : Memo.empty.All Q := ⟨nofun, nofun⟩

theorem All.of_find? (h : m.All Q) (he : m.find? v.name v.outer.length v.chain = some e) :
    Q v.name v.outer.length e := by
  rcases Option.or_eq_some_iff.1 he with he | ⟨-, he⟩
  · exact h.byDepth _ _ e he
  · exact h.byChain v e he

theorem All.keep (h : m.All Q) (he : Q v.name v.outer.length e) : (m.keep v e).All Q := by
  unfold Memo.keep Memo.insert
  split
  · refine ⟨h.byDepth, fun u e' he' => ?_⟩
    rcases lookup_cons_eq_some he' with ⟨hu, rfl⟩ | he'
    · cases Visit.eq_of_chain hu
      exact he
    · exact h.byChain u e' he'
  · refine ⟨fun name depth e' he' => ?_, h.byChain⟩
    rcases lookup_cons_eq_some he' with ⟨hk, rfl⟩ | he'
    · cases hk
      exact he
    · exact h.byDepth name depth e' he'

end Memo

theorem references_of_ofQuery {query : String} {cs : List Clause} (h : Clause.ofQuery query = .ok cs) :
    references query = Grouping.references cs := by rw [references, h]

theorem answers_mapM {A : String → Referral → Prop} {names : List String}
    (hf : ∀ raw ∈ names, ∀ j r j', f raw j = .ok (r, j') → j.memo.All Q → A raw r ∧ j'.memo.All Q)
    {j j' : Journey} {rs : List Referral} (h : names.mapM f j = .ok (rs, j')) (hj : j.memo.All Q) :
    List.Forall₂ A names rs ∧ j'.memo.All Q := by
  induction names generalizing j rs with
  | nil =>
    cases h
    exact ⟨.nil, hj⟩
  | cons raw names ih =>
    obtain ⟨r, j₁, rs, hr, hrs, rfl⟩ := mapM_run_cons_eq_ok h
    obtain ⟨hfirst, hj₁⟩ := hf raw List.mem_cons_self j r j₁ hr hj
    obtain ⟨hrest, hj'⟩ := ih (fun raw' hraw' => hf raw' (List.mem_cons_of_mem raw hraw')) hrs hj₁
    exact ⟨.cons hfirst hrest, hj'⟩

theorem answers_tree {A : String → Referral → Prop} {query : String}
    (hf : ∀ raw ∈ references query, ∀ j r j', f raw j = .ok (r, j') → j.memo.All Q → A raw r ∧ j'.memo.All Q)
    {j j' : Journey} {t : Tree} (h : Reading.tree f query j = .ok (t, j')) (hj : j.memo.All Q) :
    (∃ cs rs, Clause.ofQuery query = .ok cs ∧ List.Forall₂ A (Grouping.references cs) rs ∧
      t = .ofReferrals query cs rs) ∧ j'.memo.All Q := by
  obtain ⟨cs, rs, hcs, hrs, rfl⟩ := tree_run_eq_ok h
  rw [references_of_ofQuery hcs] at hf
  obtain ⟨hA, hj'⟩ := answers_mapM hf hrs hj
  exact ⟨⟨cs, rs, hcs, hA, rfl⟩, hj'⟩

theorem answers_refer (h : Reading.Invariant saved limit C Q) (room : Nat) : ∀ (chain : List String)
    (query raw : String) (j : Journey) (r : Referral) (j' : Journey), chain.length + room = limit →
    C chain query → raw ∈ references query → Reading.refer saved limit room chain raw j = .ok (r, j') →
    j.memo.All Q → Answer saved limit Q chain raw r ∧ j'.memo.All Q := by
  induction room with
  | zero =>
    intro chain query raw j r j' hroom hC hraw hr hj
    have hlooks := looksUp_refer saved limit 0 chain raw j
    rw [hr] at hlooks
    cases hlooks with
    | cycle hc => exact ⟨.cycle hc, hj⟩
    | full hc => exact ⟨.full hc hroom, hj⟩
  | succ room ih =>
    intro chain query raw j r j' hroom hC hraw hr hj
    have hlooks := looksUp_refer saved limit (room + 1) chain raw j
    rw [hr] at hlooks
    have hlt : chain.length < limit := by omega
    cases hlooks with
    | cycle hc => exact ⟨.cycle hc, hj⟩
    | remembered hc he => exact ⟨.expansion hc hlt (hj.of_find? (v := ⟨chain, _⟩) he), hj⟩
    | unknown hc hs => exact ⟨.unknown hc hs, hj⟩
    | read hc hs ht he =>
      have hC' := h.descend hC hraw hc hs
      have hroom' : (chain ++ [StackName.normalize raw]).length + room = limit := by
        rw [List.length_append, List.length_singleton]
        omega
      obtain ⟨⟨cs, rs, hcs, hA, rfl⟩, hj'⟩ := answers_tree
        (fun raw' hraw' j r j' => ih _ _ raw' j r j' hroom' hC' hraw') ht hj
      refine ⟨.expansion hc hlt ?made, hj'.keep ?made⟩
      rw [he]
      exact h.expand hs hlt hC' hcs hA _

theorem overrun_mapM {names : List String} {j : Journey} (h : names.mapM f j = .error o) :
    ∃ raw ∈ names, ∃ j', f raw j' = .error o := by
  induction names generalizing j with
  | nil => cases h
  | cons raw names ih =>
    rw [List.mapM_cons] at h
    simp only [bind, StateT.bind, Except.bind] at h
    cases hf : f raw j with
    | error e =>
      rw [hf] at h
      cases h
      exact ⟨raw, List.mem_cons_self, j, hf⟩
    | ok p =>
      rw [hf] at h
      obtain ⟨r, j₁⟩ := p
      dsimp only at h
      cases hfs : names.mapM f j₁ with
      | error e =>
        rw [hfs] at h
        cases h
        obtain ⟨raw', hraw', hj⟩ := ih hfs
        exact ⟨raw', List.mem_cons_of_mem raw hraw', hj⟩
      | ok p =>
        rw [hfs] at h
        cases h

theorem overrun_tree {query : String} {j : Journey} (h : Reading.tree f query j = .error o) :
    Clause.ofQuery query = .error o ∨ ∃ raw ∈ references query, ∃ j', f raw j' = .error o := by
  cases hcs : Clause.ofQuery query with
  | error e =>
    unfold Reading.tree at h
    rw [hcs] at h
    cases h
    exact .inl rfl
  | ok cs =>
    cases hrs : (Grouping.references cs).mapM f j with
    | error e =>
      have htree : Reading.tree f query j = .error e := by
        unfold Reading.tree
        rw [hcs]
        simp only [Grouping.run_eq_fill]
        simp [bind, StateT.bind, Except.bind, hrs, pure, Except.pure, liftM, monadLift, MonadLift.monadLift,
          StateT.lift]
      cases htree.symm.trans h
      rw [references_of_ofQuery hcs]
      exact .inr (overrun_mapM hrs)
    | ok p =>
      rw [tree_of_mapM hcs hrs] at h
      cases h

theorem overrun_refer (h : Reading.Invariant saved limit C Q) (room : Nat) : ∀ (chain : List String)
    (query raw : String) (j : Journey), C chain query → raw ∈ references query →
    Reading.refer saved limit room chain raw j = .error o →
    ∃ chain' query', C chain' query' ∧ Clause.ofQuery query' = .error o := by
  induction room with
  | zero =>
    intro chain query raw j hC hraw hr
    have hlooks := looksUp_refer saved limit 0 chain raw j
    rw [hr] at hlooks
    cases hlooks
  | succ room ih =>
    intro chain query raw j hC hraw hr
    have hlooks := looksUp_refer saved limit (room + 1) chain raw j
    rw [hr] at hlooks
    cases hlooks with
    | overrun hc hs ht =>
      have hC' := h.descend hC hraw hc hs
      rcases overrun_tree ht with ho | ⟨raw', hraw', j', ho⟩
      · exact ⟨_, _, hC', ho⟩
      · exact ih _ _ raw' j' hC' hraw' ho

def originChain (origin : Option String) : List String := (origin.map StackName.normalize).toList

variable {origin : Option String} {query : String}

theorem answers_parseWith (h : Reading.Invariant saved (max limit 1) C Q) (hC : C (originChain origin) query)
    {t : Tree} (ht : Tree.parseWith saved limit origin query = .ok t) :
    ∃ cs rs, Clause.ofQuery query = .ok cs ∧
      List.Forall₂ (Answer saved (max limit 1) Q (originChain origin)) (Grouping.references cs) rs ∧
      t = .ofReferrals query cs rs := by
  obtain ⟨j, hrun⟩ := parseWith_eq_ok_iff.1 ht
  have hroom := length_origin_add origin limit
  exact (answers_tree (fun raw hraw j r j' => answers_refer h _ _ query raw j r j' hroom hC hraw) hrun
    Memo.all_empty).1

theorem overrun_parseWith (h : Reading.Invariant saved (max limit 1) C Q) (hC : C (originChain origin) query)
    (ho : Tree.parseWith saved limit origin query = .error o) :
    ∃ chain query', C chain query' ∧ Clause.ofQuery query' = .error o := by
  rcases overrun_tree (parseWith_eq_error_iff.1 ho) with ho | ⟨raw, hraw, j, ho⟩
  · exact ⟨_, query, hC, ho⟩
  · exact overrun_refer h _ _ query raw j hC hraw ho

end

end FilterQuery
