import FilterQuery.Proofs.Store.Run

namespace FilterQuery.Stack

variable {limit now : Nat} {entries entries' : List Stack}

def trees (entries : List Stack) : List Tree := entries.map (·.tree)

def IsCurrent (limit : Nat) (entries : List Stack) : Prop :=
  ∀ s ∈ entries, Tree.parseWith (queries entries) limit (some s.name) s.query = .ok s.tree

theorem queries_eq (entries : List Stack) (name : String) :
    queries entries name = ((sources entries).find? (·.1 == name)).map Prod.snd := by
  rw [queries, sources, List.find?_map, Option.map_map]
  rfl

theorem queries_congr (h : sources entries' = sources entries) : queries entries' = queries entries := by
  funext name
  rw [queries_eq, queries_eq, h]

theorem isCurrent_iff : IsCurrent limit entries ↔
    List.Forall₂ (fun s t => Tree.parseWith (queries entries) limit (some s.1) s.2 = .ok t)
      (sources entries) (trees entries) := by
  rw [sources, trees, List.forall₂_map_left_iff, List.forall₂_map_right_iff, List.forall₂_same]
  rfl

theorem IsCurrent.congr (h : IsCurrent limit entries) (hs : sources entries' = sources entries)
    (ht : trees entries' = trees entries) : IsCurrent limit entries' := by
  rw [isCurrent_iff] at h ⊢
  rwa [queries_congr hs, hs, ht]

theorem trees_release {shortcut : Option Nat} (keep : String) (entries : List Stack) :
    trees (release shortcut keep entries) = trees entries :=
  map_release (fun _ => rfl) entries

theorem trees_append_cons (before : List Stack) (s : Stack) (after : List Stack) :
    trees (before ++ s :: after) = trees before ++ s.tree :: trees after := by
  simp [trees]

theorem Operation.Makes.trees_eq {op : Operation} {c : Change} (hm : op.Makes limit now entries c)
    (hlen : c.entries.length = entries.length) : trees c.entries = trees entries := by
  cases hm with
  | create =>
    rw [List.length_append, length_release] at hlen
    exact absurd hlen (Nat.succ_ne_self _)
  | update => rw [trees_append_cons, trees_append_cons]; rfl
  | rename => rw [trees_append_cons, trees_append_cons]; rfl
  | delete =>
    rw [List.length_append, List.length_append, List.length_cons] at hlen
    omega
  | assignShortcut =>
    rw [trees_append_cons, trees_append_cons, trees_release, trees_release]
    rfl
  | recordUsage => rw [trees_append_cons, trees_append_cons]
  | markSynced => rw [trees_append_cons, trees_append_cons]

theorem sources_of_records (h : entries'.map (·.toRecord) = entries.map (·.toRecord)) :
    sources entries' = sources entries := by
  have hs := congrArg (List.map fun r => (r.name, r.query)) h
  rwa [List.map_map, List.map_map] at hs

end FilterQuery.Stack

namespace FilterQuery.Store

open Stack

variable {s s' s₀ : Store} {limit : Nat} {entries entries' : List Stack}

theorem isCurrent_of_derived (h : derived limit entries = .ok entries') : IsCurrent limit entries' := by
  have hrel := derived_eq_ok h
  have hs := sources_of_records (records_of_derive hrel)
  rw [isCurrent_iff, queries_congr hs, hs, sources, trees, List.forall₂_map_left_iff,
    List.forall₂_map_right_iff]
  refine hrel.imp fun s s' hd => ?_
  obtain ⟨tree, htree, rfl⟩ := derive_eq_ok hd
  exact htree

theorem isCurrent_of_perform {op : Operation} {result : Option Stack}
    (h : s.perform op = .ok (s', result)) (hs : IsCurrent s.maxDepth s.entries) :
    IsCurrent s.maxDepth s'.entries := by
  obtain ⟨c, entries, storage, hm, hsettle, -, -, rfl⟩ := perform_eq_ok h
  unfold settle at hsettle
  split at hsettle
  · next hsame =>
    cases hsettle
    have hlen := congrArg List.length hsame
    rw [sources, sources, List.length_map, List.length_map] at hlen
    exact hs.congr hsame.symm (hm.trees_eq hlen.symm)
  · exact isCurrent_of_derived hsettle

theorem mem_of_perform {op : Operation} {t : Stack} (h : s.perform op = .ok (s', some t)) :
    t ∈ s'.entries := by
  obtain ⟨c, entries, storage, -, -, -, hresult, rfl⟩ := perform_eq_ok h
  obtain ⟨i, -, hi⟩ := Option.bind_eq_some_iff.1 hresult.symm
  exact List.mem_of_getElem? hi

theorem Run.maxDepth {ops : List Operation} (run : Run s ops s') : s'.maxDepth = s.maxDepth := by
  induction run with
  | refl => rfl
  | performed run h ih =>
    obtain ⟨c, entries, storage, -, -, -, -, rfl⟩ := perform_eq_ok h
    exact ih
  | idle run h ih => exact h.maxDepth.trans ih

theorem Run.isCurrent {ops : List Operation} (run : Run s ops s') (hs : IsCurrent s.maxDepth s.entries) :
    IsCurrent s.maxDepth s'.entries := by
  induction run with
  | refl => exact hs
  | performed run h ih => exact run.maxDepth ▸ isCurrent_of_perform h (run.maxDepth.symm ▸ ih)
  | idle run h ih => exact h.entries ▸ ih

theorem openOn_loads {storage : Storage} {config : Config} {clock : Nat}
    (h : openOn storage config clock = .ok s₀) : ∃ records, s₀.maxDepth = config.maxReferenceDepth ∧
      load s₀.storage = .ok records ∧ derived config.maxReferenceDepth (records.map ofRecord) = .ok s₀.entries := by
  rw [openOn] at h
  obtain ⟨opened, h⟩ : ∃ opened, (do
      let records ← load opened
      let entries ← derived config.maxReferenceDepth (records.map ofRecord)
      pure (⟨entries, opened, [], 0, [], clock, config.maxStacks, config.maxReferenceDepth⟩ : Store))
        = .ok s₀ := by
    split at h
    · exact (bind_eq_ok h).imp fun _ => And.right
    · exact (bind_eq_ok h).imp fun _ => And.right
  obtain ⟨records, hrecords, h⟩ := bind_eq_ok h
  obtain ⟨entries, he, h⟩ := bind_eq_ok h
  cases h
  exact ⟨records, rfl, hrecords, he⟩

theorem openOn_eq_ok {storage : Storage} {config : Config} {clock : Nat}
    (h : openOn storage config clock = .ok s₀) :
    s₀.maxDepth = config.maxReferenceDepth ∧
      ∃ entries, derived config.maxReferenceDepth entries = .ok s₀.entries := by
  obtain ⟨records, hdepth, -, he⟩ := openOn_loads h
  exact ⟨hdepth, _, he⟩

/-- Whatever file a store is opened on and whatever is done with it, every stack, and every stack that an
operation gives back, has the tree of its query among the stacks of that moment. -/
theorem trees_current_of_run {storage : Storage} {config : Config} {clock : Nat} {ops : List Operation}
    (opened : openOn storage config clock = .ok s₀) (run : Run s₀ ops s) :
    (∀ t ∈ s.entries,
      Tree.parseWith (queries s.entries) config.maxReferenceDepth (some t.name) t.query = .ok t.tree) ∧
    ∀ op s' t, s.perform op = .ok (s', some t) →
      Tree.parseWith (queries s'.entries) config.maxReferenceDepth (some t.name) t.query
        = .ok t.tree := by
  obtain ⟨hdepth, entries, hentries⟩ := openOn_eq_ok opened
  have hcurrent : IsCurrent s₀.maxDepth s₀.entries := hdepth ▸ isCurrent_of_derived hentries
  refine ⟨hdepth ▸ run.isCurrent hcurrent, fun op s' t h => ?_⟩
  exact (hdepth ▸ (run.performed h).isCurrent hcurrent) t (mem_of_perform h)

theorem trees_current_of_run_pair :
    ∃ s₀ s s' t, openOn (.empty .memory) .standard 0 = .ok s₀ ∧
      Run s₀ [.create ⟨"b", "@a", none, none, none⟩] s ∧
      s.perform (.create ⟨"a", "x", none, none, none⟩) = .ok (s', some t) ∧ names s.entries = ["b"] ∧
      (∀ u ∈ s.entries, Tree.parseWith (queries s.entries) 8 (some u.name) u.query = .ok u.tree) ∧
      Tree.parseWith (queries s'.entries) 8 (some t.name) t.query = .ok t.tree := by
  have h : (openOn (.empty .memory) .standard 0 >>= fun s₀ =>
      s₀.perform (.create ⟨"b", "@a", none, none, none⟩) >>= fun r =>
        r.1.perform (.create ⟨"a", "x", none, none, none⟩) >>= fun r' =>
          .ok (names r.1.entries, r'.2.isSome)) = .ok (["b"], true) := by
    decide +kernel
  obtain ⟨s₀, opened, h⟩ := bind_eq_ok h
  obtain ⟨⟨s, _⟩, hs, h⟩ := bind_eq_ok h
  obtain ⟨⟨s', t⟩, hs', h⟩ := bind_eq_ok h
  obtain ⟨hnames, hsome⟩ := Prod.mk.inj (Except.ok.inj h)
  obtain ⟨t, rfl⟩ := Option.isSome_iff_exists.1 hsome
  have run := Run.performed (.refl s₀) hs
  obtain ⟨hcurrent, hresult⟩ := trees_current_of_run opened run
  exact ⟨s₀, s, s', t, opened, run, hs', hnames, hcurrent, hresult _ s' t hs'⟩

end FilterQuery.Store
