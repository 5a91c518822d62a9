import FilterQuery.Proofs.Expansion.Memory

/-! A reading that remembers, against one that remembers nothing. An expansion that met no cycle is taken wherever
its stack is referred to at the same depth, even where the chain of stacks that leads there would have met one;
but for that, what is remembered cannot be told from reading anew. -/

namespace FilterQuery

section

variable {saved : Stacks} {limit : Nat}

theorem simulates_mapM {f : String → Reading Referral} {g : String → Except Token.Overrun Referral}
    {visit : List Visit → String → List Visit}
    (h : ∀ raw j log r₀, g raw = .ok r₀ → j.memo.Lossy saved limit → ∃ r j', f raw j = .ok (r, j') ∧
      Simulates saved limit j log r.faults r₀.faults (r.unshared = r₀.unshared) j' (visit log raw)) :
    ∀ (names : List String) (j : Journey) (log : List Visit) (rs₀ : List Referral),
      names.mapM g = .ok rs₀ → j.memo.Lossy saved limit →
      ∃ rs j', names.mapM f j = .ok (rs, j') ∧ rs.length = rs₀.length ∧
        Simulates saved limit j log (rs.flatMap (·.faults)) (rs₀.flatMap (·.faults))
          (rs.map Referral.unshared = rs₀.map Referral.unshared) j' (names.foldl visit log)
  | [], j, log, rs₀, hrs, hm => by
    cases hrs
    have hnil := simulates_nil hm log
    exact ⟨[], j, rfl, rfl, by simpa using hnil⟩
  | raw :: names, j, log, rs₀, hrs, hm => by
    obtain ⟨r₀, rs₀, hr, hrs', rfl⟩ := mapM_cons_eq_ok hrs
    obtain ⟨r, j₁, hf, hsim⟩ := h raw j log r₀ hr hm
    obtain ⟨rs, j', hfs, hlen, hsim'⟩ := simulates_mapM h names j₁ (visit log raw) rs₀ hrs' hsim.lossy
    refine ⟨r :: rs, j', ?_, congrArg Nat.succ hlen, ?_⟩
    · rw [List.mapM_cons]
      simp [bind, StateT.bind, Except.bind, hf, hfs, pure, StateT.pure, Except.pure]
    · have happ := hsim.append hsim'
      simpa using happ

theorem tree_of_mapM {f : String → Reading Referral} {query : String} {cs : List Clause}
    {rs : List Referral} {j j' : Journey} (hcs : Clause.ofQuery query = .ok cs)
    (h : (Grouping.references cs).mapM f j = .ok (rs, j')) :
    Reading.tree f query j = .ok (.ofReferrals query cs rs, j') := by
  unfold Reading.tree
  rw [hcs]
  simp only [Grouping.run_eq_fill]
  simp [bind, StateT.bind, Except.bind, h, pure, StateT.pure, Except.pure, liftM, monadLift, MonadLift.monadLift,
    StateT.lift]
  rfl

theorem simulates_tree {f : String → Reading Referral} {g : String → Except Token.Overrun Referral}
    {visit : List Visit → String → List Visit}
    (h : ∀ raw j log r₀, g raw = .ok r₀ → j.memo.Lossy saved limit → ∃ r j', f raw j = .ok (r, j') ∧
      Simulates saved limit j log r.faults r₀.faults (r.unshared = r₀.unshared) j' (visit log raw))
    {query : String} {t₀ : Tree} (ht : Direct.tree g query = .ok t₀) (j : Journey) (log : List Visit)
    (hm : j.memo.Lossy saved limit) :
    ∃ t j' fs fs₀ alike, Reading.tree f query j = .ok (t, j') ∧ cycles (t.problems.map (·.fault)) = cycles fs ∧
      cycles (t₀.problems.map (·.fault)) = cycles fs₀ ∧ (alike → t.unshared = t₀.unshared) ∧
      Simulates saved limit j log fs fs₀ alike j' ((references query).foldl visit log) := by
  obtain ⟨cs, rs₀, hcs, href, hrs₀, rfl⟩ := Direct.tree_eq_ok ht
  obtain ⟨rs, j', hrs, hlen, hsim⟩ := simulates_mapM h (references query) j log rs₀ hrs₀ hm
  have hlen₀ := length_of_mapM hrs₀
  rw [href] at hrs hlen₀
  exact ⟨_, j', _, _, _, tree_of_mapM hcs hrs, cycles_ofReferrals hcs (hlen.trans hlen₀),
    cycles_ofReferrals hcs hlen₀, fun ha => Tree.unshared_ofReferrals ha query cs, hsim⟩

section

variable {chain : List String} {raw : String} {j : Journey}

theorem refer_of_cycle (h : (cycleOf (StackName.normalize raw) chain).isEmpty = false) (room : Nat) :
    Reading.refer saved limit room chain raw j = .ok
      (⟨.reference raw, [.cycle (cycleOf (StackName.normalize raw) chain ++ [StackName.normalize raw])], []⟩,
        ⟨j.memo, true⟩) := by
  cases room <;> simp [Reading.refer, h] <;> rfl

theorem visits_of_cycle (h : (cycleOf (StackName.normalize raw) chain).isEmpty = false) (room : Nat)
    (log : List Visit) : visits saved limit room chain log raw = log := by
  cases room <;> simp [visits, h]

theorem refer_of_full (h : (cycleOf (StackName.normalize raw) chain).isEmpty = true) :
    Reading.refer saved limit 0 chain raw j = .ok (⟨.reference raw, [.tooDeep limit], []⟩, j) := by
  simp [Reading.refer, h]
  rfl

variable {room : Nat} (hc : (cycleOf (StackName.normalize raw) chain).isEmpty = true)

include hc

theorem refer_of_find? {e : Expansion}
    (he : j.memo.find? (StackName.normalize raw) chain.length (chain ++ [StackName.normalize raw]) = some e) :
    Reading.refer saved limit (room + 1) chain raw j =
      .ok (e.referral raw, ⟨j.memo, j.cyclic || e.cyclic⟩) := by
  simp only [Reading.refer, hc]
  simp [bind, StateT.bind, Except.bind, get, getThe, MonadStateOf.get, StateT.get, pure, StateT.pure,
    Except.pure, he, modify, modifyGet, MonadStateOf.modifyGet, StateT.modifyGet]

theorem refer_of_unknown (hs : saved (StackName.normalize raw) = none)
    (he : j.memo.find? (StackName.normalize raw) chain.length (chain ++ [StackName.normalize raw]) = none) :
    Reading.refer saved limit (room + 1) chain raw j = .ok (⟨.reference raw, [], [.unknownStack raw]⟩, j) := by
  simp only [Reading.refer, hc, hs]
  simp [bind, StateT.bind, Except.bind, get, getThe, MonadStateOf.get, StateT.get, pure, StateT.pure,
    Except.pure, he]

theorem refer_of_overrun {query : String} {o : Token.Overrun} (hs : saved (StackName.normalize raw) = some query)
    (he : j.memo.find? (StackName.normalize raw) chain.length (chain ++ [StackName.normalize raw]) = none)
    (ht : Reading.tree (Reading.refer saved limit room (chain ++ [StackName.normalize raw])) query
      ⟨j.memo, false⟩ = .error o) : Reading.refer saved limit (room + 1) chain raw j = .error o := by
  simp only [Reading.refer, hc, hs]
  simp [bind, StateT.bind, Except.bind, get, getThe, MonadStateOf.get, StateT.get, pure, Except.pure, he,
    modify, modifyGet, MonadStateOf.modifyGet, StateT.modifyGet, Reading.expand, ht]

theorem refer_of_tree {query : String} {t : Tree} {j' : Journey}
    (hs : saved (StackName.normalize raw) = some query)
    (he : j.memo.find? (StackName.normalize raw) chain.length (chain ++ [StackName.normalize raw]) = none)
    (ht : Reading.tree (Reading.refer saved limit room (chain ++ [StackName.normalize raw])) query
      ⟨j.memo, false⟩ = .ok (t, j')) :
    let v : Visit := ⟨chain, StackName.normalize raw⟩
    let e := Expansion.ofTree t v.name v.outer.length v.chain j'.cyclic
    Reading.refer saved limit (room + 1) chain raw j =
      .ok (e.referral raw, ⟨j'.memo.keep v e, j.cyclic || e.cyclic⟩) := by
  simp only [Reading.refer, hc, hs]
  simp [bind, StateT.bind, Except.bind, get, getThe, MonadStateOf.get, StateT.get, pure, StateT.pure,
    Except.pure, he, modify, modifyGet, MonadStateOf.modifyGet, StateT.modifyGet, Reading.expand, ht, set,
    StateT.set, Memo.keep, Visit.chain]

end

theorem simulates_cycle {room : Nat} {chain : List String} {raw : String} {j : Journey} {log : List Visit}
    {r₀ : Referral} (hc : (cycleOf (StackName.normalize raw) chain).isEmpty = false)
    (hr : Direct.refer saved limit room chain raw = .ok r₀) (hm : j.memo.Lossy saved limit) :
    ∃ r j', Reading.refer saved limit room chain raw j = .ok (r, j') ∧
      Simulates saved limit j log r.faults r₀.faults (r.unshared = r₀.unshared) j'
        (visits saved limit room chain log raw) := by
  rw [Direct.refer_eq_of_cycle hc] at hr
  cases hr
  refine ⟨_, _, refer_of_cycle hc room, ?_⟩
  rw [visits_of_cycle hc]
  exact simulates_same hm log _ (by simp [cycles, Fault.isCyclic])

theorem simulates_saved {room : Nat} {chain : List String} {raw query : String} {j : Journey}
    {log : List Visit} {r₀ : Referral} (hc : (cycleOf (StackName.normalize raw) chain).isEmpty = true)
    (hs : saved (StackName.normalize raw) = some query) (hroom : chain.length + (room + 1) = limit)
    (h : ∀ raw' j log r₀, Direct.refer saved limit room (chain ++ [StackName.normalize raw]) raw' = .ok r₀ →
      j.memo.Lossy saved limit → ∃ r j',
        Reading.refer saved limit room (chain ++ [StackName.normalize raw]) raw' j = .ok (r, j') ∧
        Simulates saved limit j log r.faults r₀.faults (r.unshared = r₀.unshared) j'
          (visits saved limit room (chain ++ [StackName.normalize raw]) log raw'))
    (hr : Direct.refer saved limit (room + 1) chain raw = .ok r₀) (hm : j.memo.Lossy saved limit) :
    ∃ r j', Reading.refer saved limit (room + 1) chain raw j = .ok (r, j') ∧
      Simulates saved limit j log r.faults r₀.faults (r.unshared = r₀.unshared) j'
        (visits saved limit (room + 1) chain log raw) := by
  obtain ⟨t₀, ht₀, rfl⟩ := Direct.refer_eq_ok hc hs hr
  have hlen : (chain ++ [StackName.normalize raw]).length = chain.length + 1 := List.length_append
  have hroom' : limit - (chain ++ [StackName.normalize raw]).length = room := by omega
  have hy : (Visit.mk chain (StackName.normalize raw)).Yields saved limit t₀ :=
    ⟨query, hs, by rw [Visit.chain, hroom']; exact ht₀⟩
  let inside := (references query).foldl (visits saved limit room (chain ++ [StackName.normalize raw])) log
  have hv : visits saved limit (room + 1) chain log raw =
      (if Visit.remembered saved limit log ⟨chain, StackName.normalize raw⟩ then log else inside) ++
        [⟨chain, StackName.normalize raw⟩] := by
    simp [visits, hc, hs, inside]
  have hlog : log <+: if Visit.remembered saved limit log ⟨chain, StackName.normalize raw⟩ then log
      else inside := by
    split
    · exact List.prefix_refl _
    · exact prefix_foldl (prefix_visits saved limit room _) _ log
  rw [hv]
  cases he : j.memo.find? (StackName.normalize raw) chain.length (chain ++ [StackName.normalize raw]) with
  | some e =>
    have hsim := simulates_hit (v := ⟨chain, StackName.normalize raw⟩) hm he hy hlog
      (fun hrem => if_pos hrem) raw
    exact ⟨_, _, refer_of_find? hc he, hsim⟩
  | none =>
    obtain ⟨t, j', fs, fs₀, alike, hrun, hfs, hfs₀, halike, hsim⟩ := simulates_tree h ht₀ ⟨j.memo, false⟩ log hm
    -- What is visited on the way lies deeper, and so is never the same visit again.
    have hdeep : ∀ u ∈ inside, u ∈ log ∨ chain.length < u.outer.length := by
      have hmem := mem_foldl (mem_visits saved limit room (chain ++ [StackName.normalize raw]))
        (references query) log
      rwa [hlen] at hmem
    have hsim' := simulates_expand (v := ⟨chain, StackName.normalize raw⟩) he hsim hfs hfs₀ halike hy hdeep
      hlog (fun hrem => if_neg (by rw [hrem]; exact Bool.false_ne_true)) raw
    exact ⟨_, _, refer_of_tree hc hs he hrun, hsim'⟩

theorem simulates_refer (room : Nat) : ∀ (chain : List String) (raw : String) (j : Journey)
    (log : List Visit) (r₀ : Referral), chain.length + room = limit →
    Direct.refer saved limit room chain raw = .ok r₀ → j.memo.Lossy saved limit →
    ∃ r j', Reading.refer saved limit room chain raw j = .ok (r, j') ∧
      Simulates saved limit j log r.faults r₀.faults (r.unshared = r₀.unshared) j'
        (visits saved limit room chain log raw) := by
  -- By the room that is left: each stack of the chain takes some of it.
  induction room with
  | zero =>
    intro chain raw j log r₀ hroom hr hm
    cases hc : (cycleOf (StackName.normalize raw) chain).isEmpty with
    | false => exact simulates_cycle hc hr hm
    | true =>
      simp [Direct.refer, hc] at hr
      subst hr
      refine ⟨_, _, refer_of_full hc, ?_⟩
      have hv : visits saved limit 0 chain log raw = log := by simp [visits]
      rw [hv]
      exact simulates_same hm log _ (by simp [cycles, Fault.isCyclic])
  | succ room ih =>
    intro chain raw j log r₀ hroom hr hm
    cases hc : (cycleOf (StackName.normalize raw) chain).isEmpty with
    | false => exact simulates_cycle hc hr hm
    | true =>
      cases hs : saved (StackName.normalize raw) with
      | none =>
        simp [Direct.refer, hc, hs] at hr
        subst hr
        have hnone : j.memo.find? (StackName.normalize raw) chain.length
            (chain ++ [StackName.normalize raw]) = none := by
          cases he : j.memo.find? (StackName.normalize raw) chain.length
            (chain ++ [StackName.normalize raw]) with
          | none => rfl
          | some e =>
            have := hm.isSaved (v := ⟨chain, StackName.normalize raw⟩) he
            rw [hs] at this
            cases this
        refine ⟨_, _, refer_of_unknown hc hs hnone, ?_⟩
        have hv : visits saved limit (room + 1) chain log raw = log := by simp [visits, hc, hs]
        rw [hv]
        exact simulates_same hm log _ (by simp [cycles])
      | some query =>
        refine simulates_saved hc hs hroom (fun raw' j log r₀ => ih _ raw' j log r₀ ?_) hr hm
        rw [List.length_append, List.length_singleton]
        omega

theorem lossy_empty : Memo.empty.Lossy saved limit := ⟨nofun, nofun⟩

theorem sound_empty : Memo.empty.Sound saved limit [] := ⟨nofun, nofun, nofun, nofun⟩

variable {origin : Option String} {query : String} {t₀ : Tree}

theorem length_origin_add (origin : Option String) (limit : Nat) :
    (origin.map StackName.normalize).toList.length +
      (max limit 1 - (origin.map StackName.normalize).toList.length) = max limit 1 := by
  cases origin with
  | none => simp
  | some _ =>
    simp only [Option.map_some, Option.toList_some, List.length_singleton]
    omega

theorem parseWith_eq_ok_iff {t : Tree} : Tree.parseWith saved limit origin query = .ok t ↔
    ∃ j, Reading.tree (Reading.refer saved (max limit 1) (max limit 1 - (origin.map StackName.normalize).toList.length)
      (origin.map StackName.normalize).toList) query ⟨.empty, false⟩ = .ok (t, j) := by
  unfold Tree.parseWith
  simp only [StateT.run]
  cases Reading.tree _ query ⟨Memo.empty, false⟩ with
  | error o => exact ⟨nofun, fun ⟨_, h⟩ => nomatch h⟩
  | ok p =>
    obtain ⟨t', j⟩ := p
    constructor
    · rintro ⟨⟩
      exact ⟨j, rfl⟩
    · rintro ⟨_, ⟨⟩⟩
      rfl

theorem parseWith_eq_error_iff {o : Token.Overrun} : Tree.parseWith saved limit origin query = .error o ↔
    Reading.tree (Reading.refer saved (max limit 1) (max limit 1 - (origin.map StackName.normalize).toList.length)
      (origin.map StackName.normalize).toList) query ⟨.empty, false⟩ = .error o := by
  unfold Tree.parseWith
  simp only [StateT.run]
  cases Reading.tree _ query ⟨Memo.empty, false⟩ with
  | error o' =>
    constructor <;>
    · rintro ⟨⟩
      rfl
  | ok p => exact ⟨nofun, nofun⟩

theorem simulates_parse (h : Direct.parse saved limit origin query = .ok t₀) :
    ∃ t, Tree.parseWith saved limit origin query = .ok t ∧
      (Consistent saved (max limit 1) (journey saved limit origin query) ∧ t.unshared = t₀.unshared ∨
        ¬ Consistent saved (max limit 1) (journey saved limit origin query) ∧
          cycles (t.problems.map (·.fault)) < cycles (t₀.problems.map (·.fault))) := by
  obtain ⟨t, j', fs, fs₀, alike, hrun, hfs, hfs₀, halike, hsim⟩ := simulates_tree
    (fun raw j log r₀ => simulates_refer _ _ raw j log r₀ (length_origin_add origin limit)) h ⟨.empty, false⟩ []
    lossy_empty
  refine ⟨t, parseWith_eq_ok_iff.2 ⟨j', hrun⟩, ?_⟩
  rw [hfs, hfs₀]
  rcases hsim.sound sound_empty .nil with ⟨hc, ha, -⟩ | hlt
  · exact .inl ⟨hc, halike ha⟩
  · exact .inr hlt

/-- What is remembered cannot be told from reading anew just in case no stack, in which a cycle is met, comes
after the same stack at the same depth, in which none is met. -/
theorem parseWith_eq_parse_iff_consistent (h : Direct.parse saved limit origin query = .ok t₀) :
    ∃ t, Tree.parseWith saved limit origin query = .ok t ∧
      (t.unshared = t₀.unshared ↔
        Consistent saved (max limit 1) (journey saved limit origin query)) := by
  obtain ⟨t, ht, ⟨hc, heq⟩ | ⟨hc, hlt⟩⟩ := simulates_parse h
  · exact ⟨t, ht, fun _ => hc, fun _ => heq⟩
  · refine ⟨t, ht, fun heq => ?_, fun hc' => absurd hc' hc⟩
    have hproblems : t.unshared.problems = t₀.unshared.problems := by rw [heq]
    have hproblems : t.problems = t₀.problems := hproblems
    rw [hproblems] at hlt
    exact absurd hlt (Nat.lt_irrefl _)

end

def crossing : Stacks := fun name => [("a", "@n"), ("n", "@s"), ("s", "@n")].lookup name

theorem parseWith_eq_parse_iff_consistent_crossing :
    Direct.parse crossing 2 none "@a @s" = .ok ⟨some (.group .and false [
        .expansion "a" none (.expansion "n" none (.reference "s")),
        .expansion "s" none (.expansion "n" none (.reference "s"))]), "@a @s",
      [⟨.within "a" (.within "n" (.tooDeep 2)), 0, 2⟩,
        ⟨.within "s" (.within "n" (.cycle ["s", "n", "s"])), 3, 2⟩], []⟩ ∧
    ∃ t, Tree.parseWith crossing 2 none "@a @s" = .ok t ∧
      (t.unshared = Tree.unshared ⟨some (.group .and false [
        .expansion "a" none (.expansion "n" none (.reference "s")),
        .expansion "s" none (.expansion "n" none (.reference "s"))]), "@a @s",
      [⟨.within "a" (.within "n" (.tooDeep 2)), 0, 2⟩,
        ⟨.within "s" (.within "n" (.cycle ["s", "n", "s"])), 3, 2⟩], []⟩ ↔
        Consistent crossing (max 2 1) (journey crossing 2 none "@a @s")) :=
  have h : Direct.parse crossing 2 none "@a @s" = .ok ⟨some (.group .and false [
        .expansion "a" none (.expansion "n" none (.reference "s")),
        .expansion "s" none (.expansion "n" none (.reference "s"))]), "@a @s",
      [⟨.within "a" (.within "n" (.tooDeep 2)), 0, 2⟩,
        ⟨.within "s" (.within "n" (.cycle ["s", "n", "s"])), 3, 2⟩], []⟩ := by decide +kernel
  ⟨h, parseWith_eq_parse_iff_consistent h⟩

theorem parseWith_crossing :
    (Tree.parseWith crossing 2 none "@a @s").map (·.problems.map (·.fault)) = .ok [
      .within "a" (.within "n" (.tooDeep 2)), .within "s" (.within "n" (.tooDeep 2))] ∧
    (Direct.parse crossing 2 none "@a @s").map (·.problems.map (·.fault)) = .ok [
      .within "a" (.within "n" (.tooDeep 2)), .within "s" (.within "n" (.cycle ["s", "n", "s"]))] := by
  decide +kernel

end FilterQuery
