import FilterQuery.Proofs.Assembly
import FilterQuery.Proofs.Expansion.Simulation
import FilterQuery.Proofs.Leaves
import FilterQuery.Proofs.Walk

namespace FilterQuery

namespace Node

mutual
theorem flatMap_shared_atoms : ∀ n : Node, n.atoms.flatMap shared = n.shared
  | leaf _ => rfl
  | reference _ => rfl
  | expansion .. => by rw [atoms, List.flatMap_singleton]
  | group _ _ ns => flatMap_shared_atomsAll ns

theorem flatMap_shared_atomsAll : ∀ ns : List Node, (atomsAll ns).flatMap shared = allShared ns
  | [] => rfl
  | n :: ns => by
    rw [atomsAll, List.flatMap_append, flatMap_shared_atoms n, flatMap_shared_atomsAll ns, allShared]
end

theorem stable_of_atoms {P Q : Node → Prop} (h : ∀ n, P n ↔ ∀ a ∈ n.atoms, Q a) : Stable P where
  negate n hn := by
    rw [h, atoms_negate]
    exact (h n).1 hn
  join j ns hns m hm := by
    have hatoms := flatMap_atoms_join j ns
    rw [Option.mem_def.1 hm, Option.toList_some, List.flatMap_singleton] at hatoms
    rw [h, hatoms]
    intro a ha
    obtain ⟨n, hn, ha⟩ := List.mem_flatMap.1 ha
    exact (h n).1 (hns n hn) a ha

end Node

def Site.Alike (s t : Site) : Prop := s.chain = t.chain ∧ (s.chain = none → s = t)

def Visit.site (v : Visit) (cyclic : Bool) : Site :=
  ⟨v.name, v.outer.length, if cyclic then some v.chain else none⟩

def Memo.at? (m : Memo) (s : Site) : Option Expansion :=
  match s.chain with
  | none => m.byDepth.lookup (s.stack, s.depth)
  | some chain => m.byChain.lookup chain

def Memo.Holds (m : Memo) (n : Node) : Prop := ∀ x ∈ n.shared, ∃ e, m.at? x.1 = some e ∧ e.root = some x.2

structure Memo.Filed (m : Memo) : Prop where
  site : ∀ s e, m.at? s = some e → s.Alike e.site
  closed : ∀ s e, m.at? s = some e → ∀ n ∈ e.root, m.Holds n

structure Memo.Grows (depth : Nat) (m m' : Memo) : Prop where
  kept : ∀ s e, m.at? s = some e → m'.at? s = some e
  byDepth : ∀ name d, d < depth → m'.byDepth.lookup (name, d) = m.byDepth.lookup (name, d)
  byChain : ∀ c, c.length ≤ depth → m'.byChain.lookup c = m.byChain.lookup c

namespace Memo

variable {m m' m'' : Memo} {depth : Nat}

theorem Grows.refl (depth : Nat) (m : Memo) : Grows depth m m :=
  ⟨fun _ _ => id, fun _ _ _ => rfl, fun _ _ => rfl⟩

theorem Grows.trans (h : Grows depth m m') (h' : Grows depth m' m'') : Grows depth m m'' where
  kept s e he := h'.kept s e (h.kept s e he)
  byDepth name d hd := (h'.byDepth name d hd).trans (h.byDepth name d hd)
  byChain c hc := (h'.byChain c hc).trans (h.byChain c hc)

theorem Grows.mono {depth' : Nat} (h : Grows depth m m') (hle : depth' ≤ depth) : Grows depth' m m' where
  kept := h.kept
  byDepth name d hd := h.byDepth name d (hd.trans_le hle)
  byChain c hc := h.byChain c (hc.trans hle)

theorem Grows.holds (h : Grows depth m m') {n : Node} (hn : m.Holds n) : m'.Holds n := by
  intro x hx
  obtain ⟨e, he, hroot⟩ := hn x hx
  exact ⟨e, h.kept _ e he, hroot⟩

theorem at?_congr {s t : Site} (h : s.Alike t) : m.at? s = m.at? t := by
  unfold at?
  rw [← h.1]
  split
  · next hc => rw [h.2 hc]
  · rfl

theorem at?_empty (s : Site) : Memo.empty.at? s = none := by
  unfold at?
  split <;> rfl

theorem filed_empty : Memo.empty.Filed where
  site s e he := by
    rw [at?_empty] at he
    cases he
  closed s e he := by
    rw [at?_empty] at he
    cases he

theorem Filed.at?_of_find? (h : m.Filed) {name : String} {chain : List String} {e : Expansion}
    (he : m.find? name depth chain = some e) : m.at? e.site = some e := by
  rcases Option.or_eq_some_iff.1 he with he | ⟨-, he⟩
  · rw [← at?_congr (h.site ⟨name, depth, none⟩ e he)]
    exact he
  · rw [← at?_congr (h.site ⟨name, depth, some chain⟩ e he)]
    exact he

theorem holds_referral {e : Expansion} (h : m.at? e.site = some e) (hroot : ∀ n ∈ e.root, m.Holds n)
    (raw : String) : m.Holds (e.referral raw).node := by
  unfold Expansion.referral
  cases hr : e.root with
  | none => exact nofun
  | some body => exact List.forall_mem_cons.2 ⟨⟨e, h, hr⟩, hroot body hr⟩

theorem stable_holds (m : Memo) : Node.Stable m.Holds := by
  refine Node.stable_of_atoms (Q := m.Holds) fun n => ?_
  unfold Holds
  rw [← Node.flatMap_shared_atoms n]
  simp only [List.mem_flatMap, forall_exists_index, and_imp]
  exact ⟨fun h a ha x hx => h x a ha hx, fun h x a ha hx => h a ha x hx⟩

section

variable {v : Visit} {e : Expansion} (hsite : e.site = v.site e.cyclic)

include hsite

theorem at?_keep : (m.keep v e).at? e.site = some e := by
  unfold keep insert
  split
  · next hc => simp [hsite, Visit.site, at?, hc]
  · next hc => simp [hsite, Visit.site, at?, hc]

theorem of_at?_keep {s : Site} {e' : Expansion} (h : (m.keep v e).at? s = some e') :
    e' = e ∧ s.Alike e.site ∨ m.at? s = some e' := by
  rw [hsite]
  unfold keep insert at h
  unfold at? at h ⊢
  split at h
  · next hs =>
    split at h
    · exact .inr h
    · next hc =>
      refine (lookup_cons_eq_some h).imp_left fun he => ⟨he.2, ?_, fun _ => ?_⟩
      · simp [Visit.site, hc, hs]
      · cases s
        obtain ⟨rfl, rfl⟩ := Prod.mk.inj he.1
        simpa [Visit.site, hc] using hs
  · next c hs =>
    split at h
    · next hc =>
      refine (lookup_cons_eq_some h).imp_left fun he => ⟨he.2, ?_, fun hn => ?_⟩
      · simp [Visit.site, hc, hs, he.1]
      · rw [hs] at hn
        cases hn
    · exact .inr h

omit hsite in
theorem grows_keep (h : m.find? v.name v.outer.length v.chain = none) :
    Grows v.outer.length m (m.keep v e) := by
  obtain ⟨hdepth, hchain⟩ := Option.or_eq_none_iff.1 h
  unfold keep insert
  split
  · refine ⟨fun s e' he' => ?_, fun _ _ _ => rfl, fun c hc => ?_⟩
    · unfold at? at he' ⊢
      split at he'
      · exact he'
      · next c _ =>
        have hne : c ≠ v.chain := fun heq => by rw [heq, hchain] at he'; cases he'
        rwa [List.lookup_cons, beq_false_of_ne hne]
    · have hne : c ≠ v.chain := fun heq => by
        rw [heq, Visit.length_chain] at hc
        omega
      rw [List.lookup_cons, beq_false_of_ne hne]
  · refine ⟨fun s e' he' => ?_, fun name d hd => ?_, fun _ _ => rfl⟩
    · unfold at? at he' ⊢
      split at he'
      · have hne : (s.stack, s.depth) ≠ (v.name, v.outer.length) := fun heq => by
          rw [heq, hdepth] at he'
          cases he'
        rwa [List.lookup_cons, beq_false_of_ne hne]
      · exact he'
    · have hne : (name, d) ≠ (v.name, v.outer.length) := fun heq => by
        cases heq
        omega
      rw [List.lookup_cons, beq_false_of_ne hne]

theorem Filed.keep (h : m.Filed) (hnone : m.find? v.name v.outer.length v.chain = none)
    (hroot : ∀ n ∈ e.root, m.Holds n) : (m.keep v e).Filed where
  site s e' he' := by
    rcases of_at?_keep hsite he' with ⟨rfl, hs⟩ | he'
    · exact hs
    · exact h.site s e' he'
  closed s e' he' n hn := by
    have hgrows := grows_keep (e := e) hnone
    rcases of_at?_keep hsite he' with ⟨rfl, -⟩ | he'
    · exact hgrows.holds (hroot n hn)
    · exact hgrows.holds (h.closed s e' he' n hn)

end

end Memo

theorem Clause.shared_of_mem_readAll {stop : Nat} {ts : List Token} {n : Node} {w : Option Warning}
    (h : .term n w ∈ Clause.readAll stop ts) : n.shared = [] := by
  rw [← Node.flatMap_shared_atoms, List.flatMap_eq_nil_iff]
  intro a ha
  have hfrom := Grammar.from_of_mem_readAll (p := fun _ => True) (fun _ _ => trivial) h a ha
  cases a with
  | leaf | reference => rfl
  | expansion | group => exact hfrom.elim

structure Memo.Files (depth : Nat) (m m' : Memo) (ns : List Node) : Prop where
  filed : m'.Filed
  grows : Memo.Grows depth m m'
  holds : ∀ n ∈ ns, m'.Holds n

section

variable {saved : Stacks} {limit depth : Nat} {f : String → Reading Referral}

theorem files_reference {m : Memo} (h : m.Filed) (depth : Nat) (name : String) :
    Memo.Files depth m m [.reference name] where
  filed := h
  grows := .refl depth m
  holds n hn := by
    rw [List.mem_singleton.1 hn]
    exact nofun

theorem mapM_run_cons_eq_ok {raw : String} {names : List String} {j j' : Journey} {rs : List Referral}
    (h : (raw :: names).mapM f j = .ok (rs, j')) :
    ∃ r j₁ rs', f raw j = .ok (r, j₁) ∧ names.mapM f j₁ = .ok (rs', j') ∧ rs = r :: rs' := by
  rw [List.mapM_cons] at h
  simp only [bind, StateT.bind, Except.bind] at h
  cases hf : f raw j with
  | error e => rw [hf] at h; cases h
  | ok p =>
    rw [hf] at h
    obtain ⟨r, j₁⟩ := p
    dsimp only at h
    cases hfs : names.mapM f j₁ with
    | error e => rw [hfs] at h; cases h
    | ok p =>
      rw [hfs] at h
      cases h
      exact ⟨r, j₁, p.1, rfl, hfs, rfl⟩

theorem tree_run_eq_ok {query : String} {j j' : Journey} {t : Tree} (h : Reading.tree f query j = .ok (t, j')) :
    ∃ cs rs, Clause.ofQuery query = .ok cs ∧ (Grouping.references cs).mapM f j = .ok (rs, j') ∧
      t = .ofReferrals query cs rs := by
  cases hcs : Clause.ofQuery query with
  | error e =>
    unfold Reading.tree at h
    rw [hcs] at h
    cases h
  | ok cs =>
    cases hrs : (Grouping.references cs).mapM f j with
    | error e =>
      unfold Reading.tree at h
      rw [hcs] at h
      simp only [Grouping.run_eq_fill] at h
      simp [bind, StateT.bind, Except.bind, hrs, pure, Except.pure, liftM, monadLift, MonadLift.monadLift,
        StateT.lift] at h
    | ok p =>
      have ht := tree_of_mapM hcs hrs
      rw [h] at ht
      cases ht
      exact ⟨cs, p.1, rfl, hrs, rfl⟩

variable (hf : ∀ raw j r j', f raw j = .ok (r, j') → j.memo.Filed → Memo.Files depth j.memo j'.memo [r.node])

include hf

theorem files_mapM {names : List String} {j j' : Journey} {rs : List Referral}
    (h : names.mapM f j = .ok (rs, j')) (hj : j.memo.Filed) :
    Memo.Files depth j.memo j'.memo (rs.map (·.node)) := by
  induction names generalizing j rs with
  | nil =>
    cases h
    exact ⟨hj, .refl _ _, nofun⟩
  | cons raw names ih =>
    obtain ⟨r, j₁, rs, hr, hrs, rfl⟩ := mapM_run_cons_eq_ok h
    have hfirst := hf raw j r j₁ hr hj
    have hrest := ih hrs hfirst.filed
    refine ⟨hrest.filed, hfirst.grows.trans hrest.grows, List.forall_mem_cons.2 ⟨?_, hrest.holds⟩⟩
    exact hrest.grows.holds (hfirst.holds _ (List.mem_singleton_self _))

theorem files_tree {query : String} {j j' : Journey} {t : Tree} (h : Reading.tree f query j = .ok (t, j'))
    (hj : j.memo.Filed) : Memo.Files depth j.memo j'.memo t.root.toList := by
  obtain ⟨cs, rs, hcs, hrs, rfl⟩ := tree_run_eq_ok h
  have hfiles := files_mapM hf hrs hj
  refine ⟨hfiles.filed, hfiles.grows, fun n hn => ?_⟩
  refine Tree.root_of_stable (Memo.stable_holds j'.memo) ?_ ?_ n (Option.mem_toList.1 hn)
  · intro m w hm x hx
    obtain ⟨ts, -, rfl⟩ := Clause.ofQuery_eq_ok hcs
    rw [Clause.shared_of_mem_readAll hm] at hx
    cases hx
  · exact fun r hr => hfiles.holds _ (List.mem_map_of_mem hr)

omit hf

theorem files_keep {m m' : Memo} {v : Visit} {t : Tree} (hnone : m.find? v.name v.outer.length v.chain = none)
    (h : Memo.Files v.chain.length m m' t.root.toList) (cyclic : Bool) (raw : String) :
    let e := Expansion.ofTree t v.name v.outer.length v.chain cyclic
    Memo.Files v.outer.length m (m'.keep v e) [(e.referral raw).node] := by
  intro e
  obtain ⟨hdepth, hchain⟩ := Option.or_eq_none_iff.1 hnone
  have hsite : e.site = v.site e.cyclic := rfl
  have hlt : v.outer.length < v.chain.length := by
    rw [v.length_chain]
    exact Nat.lt_succ_self _
  have hnone' : m'.find? v.name v.outer.length v.chain = none := by
    rw [Memo.find?, h.grows.byDepth _ _ hlt, h.grows.byChain _ (Nat.le_refl _), hdepth, hchain]
    rfl
  have hroot : ∀ n ∈ e.root, m'.Holds n := fun n hn => h.holds n (Option.mem_toList.2 hn)
  have hkeep := Memo.grows_keep (e := e) hnone'
  refine ⟨h.filed.keep hsite hnone' hroot, (h.grows.mono hlt.le).trans hkeep, fun n hn => ?_⟩
  rw [List.mem_singleton.1 hn]
  exact Memo.holds_referral (Memo.at?_keep hsite) (fun b hb => hkeep.holds (hroot b hb)) raw

theorem files_find? {m : Memo} (hm : m.Filed) {name : String} {chain : List String} {e : Expansion}
    (he : m.find? name depth chain = some e) (raw : String) : Memo.Files depth m m [(e.referral raw).node] := by
  have hat := hm.at?_of_find? he
  refine ⟨hm, .refl depth m, fun n hn => ?_⟩
  rw [List.mem_singleton.1 hn]
  exact Memo.holds_referral hat (hm.closed _ e hat) raw

theorem files_refer (room : Nat) : ∀ (chain : List String) (raw : String) (j : Journey) (r : Referral)
    (j' : Journey), Reading.refer saved limit room chain raw j = .ok (r, j') → j.memo.Filed →
    Memo.Files chain.length j.memo j'.memo [r.node] := by
  induction room with
  | zero =>
    intro chain raw j r j' h hj
    cases hc : (cycleOf (StackName.normalize raw) chain).isEmpty with
    | false =>
      cases (refer_of_cycle hc 0).symm.trans h
      exact files_reference hj _ raw
    | true =>
      cases (refer_of_full hc).symm.trans h
      exact files_reference hj _ raw
  | succ room ih =>
    intro chain raw j r j' h hj
    cases hc : (cycleOf (StackName.normalize raw) chain).isEmpty with
    | false =>
      cases (refer_of_cycle hc _).symm.trans h
      exact files_reference hj _ raw
    | true =>
      cases he : j.memo.find? (StackName.normalize raw) chain.length (chain ++ [StackName.normalize raw]) with
      | some e =>
        cases (refer_of_find? hc he).symm.trans h
        exact files_find? hj he raw
      | none =>
        cases hs : saved (StackName.normalize raw) with
        | none =>
          cases (refer_of_unknown hc hs he).symm.trans h
          exact files_reference hj _ raw
        | some query =>
          cases ht : Reading.tree (Reading.refer saved limit room (chain ++ [StackName.normalize raw])) query
              ⟨j.memo, false⟩ with
          | error o =>
            rw [refer_of_overrun hc hs he ht] at h
            cases h
          | ok p =>
            cases (refer_of_tree hc hs he ht).symm.trans h
            have hfiles := files_tree (ih (chain ++ [StackName.normalize raw])) ht hj
            exact files_keep (v := ⟨chain, StackName.normalize raw⟩) he hfiles _ raw

theorem exists_backed_of_parseWith {origin : Option String} {query : String} {t : Tree}
    (h : Tree.parseWith saved limit origin query = .ok t) : ∃ memory, ∀ n ∈ t.root, n.Backed memory := by
  obtain ⟨j, hrun⟩ := parseWith_eq_ok_iff.1 h
  have hfiles := files_tree (files_refer _ _) hrun Memo.filed_empty
  refine ⟨fun s => ((j.memo.at? s).bind (·.root)).getD (.reference s.stack), fun n hn x hx => ?_⟩
  obtain ⟨e, he, hroot⟩ := hfiles.holds n (Option.mem_toList.2 hn) x hx
  simp only [he, hroot, Option.bind_some, Option.getD_some]

end

end FilterQuery
