import FilterQuery.Proofs.Expansion

namespace FilterQuery

section

variable (saved : Stacks) (limit : Nat)

def Visit.Yields (v : Visit) (t : Tree) : Prop :=
  ∃ query, saved v.name = some query ∧
    Direct.tree (Direct.refer saved limit (limit - v.chain.length) v.chain) query = .ok t

structure Expansion.StandsFor (e : Expansion) (t : Tree) : Prop where
  root : e.root.map Node.unshared = t.root.map Node.unshared
  faults : e.faults = t.problems.map (·.fault)
  warnings : e.warnings = t.warnings

structure Memo.Lossy (m : Memo) : Prop where
  byDepth : ∀ name depth e, m.byDepth.lookup (name, depth) = some e →
    e.cyclic = false ∧ cycles e.faults = 0 ∧ (saved name).isSome
  byChain : ∀ (v : Visit) e, m.byChain.lookup v.chain = some e →
    e.cyclic = true ∧ 0 < cycles e.faults ∧ (saved v.name).isSome ∧
      ∀ t, v.Yields saved limit t → cycles e.faults ≤ cycles (t.problems.map (·.fault))

structure Memo.Sound (m : Memo) (log : List Visit) : Prop where
  byDepth : ∀ name depth e, m.byDepth.lookup (name, depth) = some e →
    ∃ v ∈ log, v.name = name ∧ v.outer.length = depth ∧ v.cyclic saved limit = false ∧
      ∃ t, v.Yields saved limit t ∧ e.StandsFor t
  byChain : ∀ chain e, m.byChain.lookup chain = some e →
    ∃ v ∈ log, v.chain = chain ∧ ∃ t, v.Yields saved limit t ∧ e.StandsFor t
  acyclic : ∀ v ∈ log, v.cyclic saved limit = false → (m.byDepth.lookup (v.name, v.outer.length)).isSome
  cyclic : ∀ v ∈ log, v.cyclic saved limit = true → (m.byChain.lookup v.chain).isSome

structure Simulates (j : Journey) (log : List Visit) (fs fs₀ : List Fault) (alike : Prop) (j' : Journey)
    (log' : List Visit) : Prop where
  lossy : j'.memo.Lossy saved limit
  flag : j'.cyclic = (j.cyclic || decide (0 < cycles fs))
  fewer : cycles fs ≤ cycles fs₀
  extends_log : log <+: log'
  sound : j.memo.Sound saved limit log → Consistent saved limit log →
    (Consistent saved limit log' ∧ alike ∧ j'.memo.Sound saved limit log') ∨
      (¬ Consistent saved limit log' ∧ cycles fs < cycles fs₀)

end

section

variable {saved : Stacks} {limit : Nat}

theorem Consistent.of_prefix {log log' : List Visit} (h : log <+: log') (hc : Consistent saved limit log') :
    Consistent saved limit log :=
  List.Pairwise.sublist h.sublist hc

theorem simulates_nil {j : Journey} (h : j.memo.Lossy saved limit) (log : List Visit) :
    Simulates saved limit j log [] [] True j log where
  lossy := h
  flag := by simp [cycles]
  fewer := Nat.le_refl _
  extends_log := List.prefix_refl _
  sound hs hc := .inl ⟨hc, trivial, hs⟩

theorem Simulates.append {j j' j'' : Journey} {log log' log'' : List Visit}
    {fs gs fs₀ gs₀ : List Fault} {p q : Prop} (h : Simulates saved limit j log fs fs₀ p j' log')
    (h' : Simulates saved limit j' log' gs gs₀ q j'' log'') :
    Simulates saved limit j log (fs ++ gs) (fs₀ ++ gs₀) (p ∧ q) j'' log'' where
  lossy := h'.lossy
  flag := by
    rw [h'.flag, h.flag, cycles_append, Bool.or_assoc]
    congr 1
    simp only [← Bool.decide_or]
    congr 1
    exact propext (by omega)
  fewer := by
    rw [cycles_append, cycles_append]
    exact Nat.add_le_add h.fewer h'.fewer
  extends_log := h.extends_log.trans h'.extends_log
  sound hs hc := by
    have hle := h.fewer
    have hle' := h'.fewer
    rw [cycles_append, cycles_append]
    rcases h.sound hs hc with ⟨hc', hp, hs'⟩ | ⟨hc', hlt⟩
    · rcases h'.sound hs' hc' with ⟨hc'', hq, hs''⟩ | ⟨hc'', hlt⟩
      · exact .inl ⟨hc'', ⟨hp, hq⟩, hs''⟩
      · exact .inr ⟨hc'', by omega⟩
    · exact .inr ⟨fun hc'' => hc' (hc''.of_prefix h'.extends_log), by omega⟩

theorem simulates_same {j : Journey} (h : j.memo.Lossy saved limit) (log : List Visit) (r : Referral)
    {c : Bool} (hc : c = (j.cyclic || decide (0 < cycles r.faults))) :
    Simulates saved limit j log r.faults r.faults (r.unshared = r.unshared) ⟨j.memo, c⟩ log where
  lossy := h
  flag := hc
  fewer := Nat.le_refl _
  extends_log := List.prefix_refl _
  sound hs hc := .inl ⟨hc, rfl, hs⟩

theorem Visit.eq_of_chain {u v : Visit} (h : u.chain = v.chain) : u = v := by
  obtain ⟨ho, hn⟩ := List.append_inj' h rfl
  cases u
  cases v
  cases ho
  cases hn
  rfl

theorem Visit.length_chain (v : Visit) : v.chain.length = v.outer.length + 1 := by simp [chain]

theorem Visit.Yields.unique {v : Visit} {t t' : Tree} (h : v.Yields saved limit t)
    (h' : v.Yields saved limit t') : t = t' := by
  obtain ⟨query, hq, ht⟩ := h
  obtain ⟨query', hq', ht'⟩ := h'
  rw [hq] at hq'
  cases hq'
  rw [ht] at ht'
  cases ht'
  rfl

theorem Visit.Yields.cycles_pos_iff {v : Visit} {t : Tree} (h : v.Yields saved limit t) :
    0 < cycles (t.problems.map (·.fault)) ↔ v.cyclic saved limit = true := by
  obtain ⟨query, hq, ht⟩ := h
  rw [Visit.cyclic, hq]
  exact Direct.cycles_tree (fun _ _ => Direct.cycles_refer _) ht

theorem Visit.Yields.eq_of_level {u v : Visit} {t t' : Tree} (h : u.Yields saved limit t)
    (h' : v.Yields saved limit t') (hl : u.level v) (hu : u.cyclic saved limit = false)
    (hv : v.cyclic saved limit = false) : t = t' := by
  obtain ⟨query, hq, ht⟩ := h
  obtain ⟨query', hq', ht'⟩ := h'
  have hq'' := hq
  rw [hl.1, hq'] at hq''
  cases hq''
  simp only [Visit.cyclic, hq, hq', List.any_eq_false, Bool.not_eq_true] at hu hv
  have hlen : limit - v.chain.length = limit - u.chain.length := by
    rw [u.length_chain, v.length_chain, hl.2]
  rw [hlen] at ht' hv
  rw [Direct.tree_congr fun raw hraw => Direct.refer_eq_of_acyclic _ (hu raw hraw) (hv raw hraw)] at ht
  rw [ht] at ht'
  cases ht'
  rfl

theorem Expansion.StandsFor.referral {e : Expansion} {t : Tree} (h : e.StandsFor t) (raw : String) :
    (e.referral raw).unshared = (Referral.ofTree raw t).unshared := by
  obtain ⟨hr, hf, hw⟩ := h
  have hf' : e.faults.map (Fault.within raw) = t.problems.map fun p => .within raw p.fault := by
    rw [hf, List.map_map]
    rfl
  rcases e with ⟨site, root, fs, ws, c⟩
  rcases t with ⟨root', query, ps, ws'⟩
  cases root <;> cases root' <;> simp_all [Expansion.referral, Referral.ofTree, Referral.unshared, Node.unshared]

theorem Expansion.faults_referral (e : Expansion) (raw : String) :
    (e.referral raw).faults = e.faults.map (.within raw) := by
  unfold Expansion.referral
  cases e.root <;> rfl

theorem cycles_referral (e : Expansion) (raw : String) :
    cycles (e.referral raw).faults = cycles e.faults := by
  rw [e.faults_referral, cycles_within]

theorem Consistent.concat {log : List Visit} {v : Visit} (h : Consistent saved limit log)
    (hv : ∀ u ∈ log, u.level v → v.cyclic saved limit = true → u.cyclic saved limit = true) :
    Consistent saved limit (log ++ [v]) :=
  List.pairwise_append.2 ⟨h, List.pairwise_singleton .., fun u hu w hw => by
    cases List.mem_singleton.1 hw
    exact hv u hu⟩

theorem Consistent.of_concat {log : List Visit} {u v : Visit} (h : Consistent saved limit (log ++ [v]))
    (hu : u ∈ log) (hl : u.level v) (hv : v.cyclic saved limit = true) : u.cyclic saved limit = true :=
  (List.pairwise_append.1 h).2.2 u hu v (List.mem_singleton_self v) hl hv

theorem Memo.Sound.concat {m m' : Memo} {log : List Visit} {v : Visit} (h : m.Sound saved limit log)
    (hdepth : ∀ k e, m'.byDepth.lookup k = some e → m.byDepth.lookup k = some e ∨
      k = (v.name, v.outer.length) ∧ v.cyclic saved limit = false ∧ ∃ t, v.Yields saved limit t ∧ e.StandsFor t)
    (hchain : ∀ k e, m'.byChain.lookup k = some e → m.byChain.lookup k = some e ∨
      k = v.chain ∧ ∃ t, v.Yields saved limit t ∧ e.StandsFor t)
    (hdepths : ∀ k, (m.byDepth.lookup k).isSome → (m'.byDepth.lookup k).isSome)
    (hchains : ∀ k, (m.byChain.lookup k).isSome → (m'.byChain.lookup k).isSome)
    (ha : v.cyclic saved limit = false → (m'.byDepth.lookup (v.name, v.outer.length)).isSome)
    (hc : v.cyclic saved limit = true → (m'.byChain.lookup v.chain).isSome) :
    m'.Sound saved limit (log ++ [v]) where
  byDepth name depth e he := by
    rcases hdepth _ e he with he | ⟨hk, hnew⟩
    · obtain ⟨u, hu, hrest⟩ := h.byDepth name depth e he
      exact ⟨u, List.mem_append_left _ hu, hrest⟩
    · cases hk
      exact ⟨v, List.mem_append_right _ (List.mem_singleton_self v), rfl, rfl, hnew⟩
  byChain chain e he := by
    rcases hchain _ e he with he | ⟨rfl, hnew⟩
    · obtain ⟨u, hu, hrest⟩ := h.byChain chain e he
      exact ⟨u, List.mem_append_left _ hu, hrest⟩
    · exact ⟨v, List.mem_append_right _ (List.mem_singleton_self v), rfl, hnew⟩
  acyclic u hu := by
    rcases List.mem_append.1 hu with hu | hu
    · exact fun hu' => hdepths _ (h.acyclic u hu hu')
    · cases List.mem_singleton.1 hu
      exact ha
  cyclic u hu := by
    rcases List.mem_append.1 hu with hu | hu
    · exact fun hu' => hchains _ (h.cyclic u hu hu')
    · cases List.mem_singleton.1 hu
      exact hc

theorem Memo.Sound.revisit {m : Memo} {log : List Visit} {v : Visit} (h : m.Sound saved limit log)
    (ha : v.cyclic saved limit = false → (m.byDepth.lookup (v.name, v.outer.length)).isSome)
    (hc : v.cyclic saved limit = true → (m.byChain.lookup v.chain).isSome) :
    m.Sound saved limit (log ++ [v]) :=
  h.concat (fun _ _ => .inl) (fun _ _ => .inl) (fun _ => id) (fun _ => id) ha hc

theorem Memo.Lossy.flag {m : Memo} (h : m.Lossy saved limit) {v : Visit} {e : Expansion}
    (he : m.find? v.name v.outer.length v.chain = some e) : e.cyclic = decide (0 < cycles e.faults) := by
  rcases Option.or_eq_some_iff.1 he with he | ⟨-, he⟩
  · obtain ⟨hf, h0, -⟩ := h.byDepth _ _ e he
    rw [hf, h0]
    rfl
  · obtain ⟨hf, h0, -⟩ := h.byChain v e he
    simp [hf, h0]

theorem Memo.Lossy.isSaved {m : Memo} (h : m.Lossy saved limit) {v : Visit} {e : Expansion}
    (he : m.find? v.name v.outer.length v.chain = some e) : (saved v.name).isSome := by
  rcases Option.or_eq_some_iff.1 he with he | ⟨-, he⟩
  · exact (h.byDepth _ _ e he).2.2
  · exact (h.byChain v e he).2.2.1

theorem Memo.Lossy.fewer {m : Memo} (h : m.Lossy saved limit) {v : Visit} {e : Expansion} {t : Tree}
    (he : m.find? v.name v.outer.length v.chain = some e) (ht : v.Yields saved limit t) :
    cycles e.faults ≤ cycles (t.problems.map (·.fault)) := by
  rcases Option.or_eq_some_iff.1 he with he | ⟨-, he⟩
  · rw [(h.byDepth _ _ e he).2.1]
    exact Nat.zero_le _
  · exact (h.byChain v e he).2.2.2 t ht

theorem Memo.Sound.remembered {m : Memo} {log : List Visit} (h : m.Sound saved limit log) (v : Visit) :
    Visit.remembered saved limit log v = (m.find? v.name v.outer.length v.chain).isSome := by
  rw [Bool.eq_iff_iff]
  constructor
  · intro hr
    obtain ⟨u, hu, huv⟩ := List.any_eq_true.1 hr
    simp only [Bool.or_eq_true, decide_eq_true_eq, Bool.and_eq_true, Bool.not_eq_true'] at huv
    have hd : u.level v → u.cyclic saved limit = false → (m.byDepth.lookup (v.name, v.outer.length)).isSome :=
      fun hl ha => hl.1 ▸ hl.2 ▸ h.acyclic u hu ha
    have hf : (m.byDepth.lookup (v.name, v.outer.length)).isSome → (m.find? v.name v.outer.length v.chain).isSome :=
      fun h' => by simp [Memo.find?, h']
    rcases huv with rfl | ⟨hl, ha⟩
    · cases hc : u.cyclic saved limit with
      | false => exact hf (hd ⟨rfl, rfl⟩ hc)
      | true => simp [Memo.find?, h.cyclic u hu hc]
    · exact hf (hd hl ha)
  · intro hs
    obtain ⟨e, he⟩ := Option.isSome_iff_exists.1 hs
    rw [Visit.remembered, List.any_eq_true]
    rcases Option.or_eq_some_iff.1 he with he | ⟨-, he⟩
    · obtain ⟨u, hu, hn, hl, hc, -⟩ := h.byDepth _ _ e he
      exact ⟨u, hu, by simp [Visit.level, hn, hl, hc]⟩
    · obtain ⟨u, hu, hc, -⟩ := h.byChain _ e he
      exact ⟨u, hu, by simp [Visit.eq_of_chain hc]⟩

theorem Memo.Sound.hit {m : Memo} {log : List Visit} (h : m.Sound saved limit log)
    (hm : m.Lossy saved limit) (hc : Consistent saved limit log) {v : Visit} {e : Expansion} {t : Tree}
    (he : m.find? v.name v.outer.length v.chain = some e) (ht : v.Yields saved limit t) :
    (Consistent saved limit (log ++ [v]) ∧ e.StandsFor t ∧ m.Sound saved limit (log ++ [v])) ∨
      (¬ Consistent saved limit (log ++ [v]) ∧ cycles e.faults < cycles (t.problems.map (·.fault))) := by
  rcases Option.or_eq_some_iff.1 he with he | ⟨hd, he⟩
  · obtain ⟨u, hu, hn, hl, hua, tu, htu, hstands⟩ := h.byDepth _ _ e he
    cases hv : v.cyclic saved limit with
    | false =>
      cases htu.eq_of_level ht ⟨hn, hl⟩ hua hv
      refine .inl ⟨hc.concat (fun _ _ _ hv' => nomatch hv.symm.trans hv'), hstands, h.revisit ?_ ?_⟩
      · exact fun _ => Option.isSome_of_eq_some he
      · exact fun hv' => nomatch hv.symm.trans hv'
    | true =>
      refine .inr ⟨fun hc' => (nomatch hua.symm.trans (hc'.of_concat hu ⟨hn, hl⟩ hv)), ?_⟩
      rw [(hm.byDepth _ _ e he).2.1]
      exact ht.cycles_pos_iff.2 hv
  · obtain ⟨u, hu, huv, tu, htu, hstands⟩ := h.byChain _ e he
    cases Visit.eq_of_chain huv
    cases htu.unique ht
    refine .inl ⟨hc.concat fun w hw hl _ => ?_, hstands, h.revisit ?_ fun _ => Option.isSome_of_eq_some he⟩
    · cases hwc : w.cyclic saved limit with
      | true => rfl
      | false =>
        have hlook := h.acyclic w hw hwc
        rw [hl.1, hl.2, hd] at hlook
        cases hlook
    · exact h.acyclic _ hu

theorem simulates_hit {j : Journey} {log log' : List Visit} {v : Visit} {e : Expansion} {t : Tree}
    (hm : j.memo.Lossy saved limit) (he : j.memo.find? v.name v.outer.length v.chain = some e)
    (ht : v.Yields saved limit t) (hlog : log <+: log')
    (hr : Visit.remembered saved limit log v = true → log' = log) (raw : String) :
    Simulates saved limit j log (e.referral raw).faults (Referral.ofTree raw t).faults
      ((e.referral raw).unshared = (Referral.ofTree raw t).unshared)
      ⟨j.memo, j.cyclic || e.cyclic⟩ (log' ++ [v]) where
  lossy := hm
  flag := by rw [hm.flag he, cycles_referral]
  fewer := by
    rw [cycles_referral, Direct.cycles_ofTree]
    exact hm.fewer he ht
  extends_log := hlog.trans (List.prefix_append ..)
  sound hs hc := by
    have hrem : Visit.remembered saved limit log v = true := by rw [hs.remembered, he]; rfl
    rw [hr hrem, cycles_referral, Direct.cycles_ofTree]
    rcases hs.hit hm hc he ht with ⟨hc', hstands, hs'⟩ | hlt
    · exact .inl ⟨hc', hstands.referral raw, hs'⟩
    · exact .inr hlt

theorem lookup_cons_eq_some {α β : Type} [BEq α] [LawfulBEq α] {k k' : α} {b b' : β} {es : List (α × β)}
    (h : List.lookup k ((k', b') :: es) = some b) : k = k' ∧ b = b' ∨ es.lookup k = some b := by
  rw [List.lookup_cons] at h
  split at h
  · next hk => exact .inl ⟨eq_of_beq hk, (Option.some.inj h).symm⟩
  · exact .inr h

theorem lookup_cons_isSome {α β : Type} [BEq α] [LawfulBEq α] {k : α} {es : List (α × β)}
    (h : (es.lookup k).isSome) (e : α × β) : (List.lookup k (e :: es)).isSome := by
  rw [List.lookup_cons]
  split
  · rfl
  · exact h

def Memo.keep (m : Memo) (v : Visit) (e : Expansion) : Memo := m.insert v.name v.outer.length v.chain e

theorem Memo.Lossy.keep {m : Memo} (h : m.Lossy saved limit) {v : Visit} {e : Expansion}
    (hs : (saved v.name).isSome) (hf : e.cyclic = decide (0 < cycles e.faults))
    (hle : ∀ t, v.Yields saved limit t → cycles e.faults ≤ cycles (t.problems.map (·.fault))) :
    (m.keep v e).Lossy saved limit := by
  unfold Memo.keep Memo.insert
  split
  · next hc =>
    refine ⟨h.byDepth, fun u e' he' => ?_⟩
    rcases lookup_cons_eq_some he' with ⟨hu, rfl⟩ | he'
    · cases Visit.eq_of_chain hu
      exact ⟨hc, by simpa [hc] using hf.symm, hs, hle⟩
    · exact h.byChain u e' he'
  · next hc =>
    refine ⟨fun name depth e' he' => ?_, h.byChain⟩
    rcases lookup_cons_eq_some he' with ⟨hk, rfl⟩ | he'
    · cases hk
      have h0 : e'.cyclic = false := by simpa using hc
      exact ⟨h0, by simpa [h0] using hf.symm, hs⟩
    · exact h.byDepth name depth e' he'

theorem Memo.Sound.keep {m : Memo} {log : List Visit} (h : m.Sound saved limit log) {v : Visit}
    {e : Expansion} {t : Tree} (ht : v.Yields saved limit t) (hstands : e.StandsFor t)
    (hc : e.cyclic = v.cyclic saved limit) : (m.keep v e).Sound saved limit (log ++ [v]) := by
  unfold Memo.keep Memo.insert
  cases hv : v.cyclic saved limit with
  | true =>
    rw [hc, hv, if_pos rfl]
    refine h.concat (fun _ _ => .inl) ?_ (fun _ => id) (fun k hk => lookup_cons_isSome hk _) ?_ ?_
    · intro k e' he'
      rcases lookup_cons_eq_some he' with ⟨rfl, rfl⟩ | he'
      · exact .inr ⟨rfl, t, ht, hstands⟩
      · exact .inl he'
    · intro ha
      cases hv.symm.trans ha
    · simp
  | false =>
    rw [hc, hv, if_neg (by simp)]
    refine h.concat ?_ (fun _ _ => .inl) (fun k hk => lookup_cons_isSome hk _) (fun _ => id) ?_ ?_
    · intro k e' he'
      rcases lookup_cons_eq_some he' with ⟨rfl, rfl⟩ | he'
      · exact .inr ⟨rfl, hv, t, ht, hstands⟩
      · exact .inl he'
    · simp
    · intro ha
      cases hv.symm.trans ha

theorem simulates_expand {j j' : Journey} {log log' log'' : List Visit} {v : Visit} {fs fs₀ : List Fault}
    {alike : Prop} {t t₀ : Tree}
    (hnone : j.memo.find? v.name v.outer.length v.chain = none)
    (h : Simulates saved limit ⟨j.memo, false⟩ log fs fs₀ alike j' log')
    (ht : cycles (t.problems.map (·.fault)) = cycles fs) (ht₀ : cycles (t₀.problems.map (·.fault)) = cycles fs₀)
    (halike : alike → t.unshared = t₀.unshared) (hy : v.Yields saved limit t₀)
    (hdeep : ∀ u ∈ log', u ∈ log ∨ v.outer.length < u.outer.length) (hlog : log <+: log'')
    (hr : Visit.remembered saved limit log v = false → log'' = log') (raw : String) :
    let e := Expansion.ofTree t v.name v.outer.length v.chain j'.cyclic
    Simulates saved limit j log (e.referral raw).faults (Referral.ofTree raw t₀).faults
      ((e.referral raw).unshared = (Referral.ofTree raw t₀).unshared)
      ⟨j'.memo.keep v e, j.cyclic || e.cyclic⟩ (log'' ++ [v]) := by
  intro e
  have hcycles : cycles e.faults = cycles fs := ht
  have hflag : e.cyclic = decide (0 < cycles e.faults) := by
    rw [hcycles]
    exact h.flag.trans (Bool.false_or _)
  have hle : cycles e.faults ≤ cycles (t₀.problems.map (·.fault)) := by
    rw [hcycles, ht₀]
    exact h.fewer
  constructor
  case lossy =>
    obtain ⟨query, hq, -⟩ := id hy
    exact h.lossy.keep (Option.isSome_of_eq_some hq) hflag fun t' ht' => hy.unique ht' ▸ hle
  case flag => rw [cycles_referral, hflag]
  case fewer => rwa [cycles_referral, Direct.cycles_ofTree]
  case extends_log => exact hlog.trans (List.prefix_append ..)
  case sound =>
    intro hs hc
    have hrem : Visit.remembered saved limit log v = false := by rw [hs.remembered, hnone]; rfl
    rw [hr hrem, cycles_referral, Direct.cycles_ofTree, hcycles, ht₀]
    rcases h.sound hs hc with ⟨hc', ha, hs'⟩ | ⟨hc', hlt⟩
    · have hu := halike ha
      have hroot : t.unshared.root = t₀.unshared.root := by rw [hu]
      have hproblems : t.unshared.problems = t₀.unshared.problems := by rw [hu]
      have hwarnings : t.unshared.warnings = t₀.unshared.warnings := by rw [hu]
      have hstands : e.StandsFor t₀ := ⟨hroot, congrArg (List.map Problem.fault) hproblems, hwarnings⟩
      have hev : e.cyclic = v.cyclic saved limit := by
        rw [hflag, Bool.eq_iff_iff, decide_eq_true_eq, ← hy.cycles_pos_iff, hstands.faults]
      refine .inl ⟨hc'.concat fun u hu hl _ => ?_, hstands.referral raw, hs'.keep hy hstands hev⟩
      -- what was done since is nested deeper, and what meets no cycle would be remembered
      rcases hdeep u hu with hu | hlt
      · cases huc : u.cyclic saved limit with
        | true => rfl
        | false =>
          have hlook := hs.acyclic u hu huc
          rw [hl.1, hl.2] at hlook
          rw [Memo.find?, Option.or_eq_none_iff] at hnone
          rw [hnone.1] at hlook
          cases hlook
      · rw [hl.2] at hlt
        exact absurd hlt (Nat.lt_irrefl _)
    · exact .inr ⟨fun hc'' => hc' (hc''.of_prefix (List.prefix_append ..)), hlt⟩

end

end FilterQuery
