import FilterQuery.Proofs.Store.Trees

/-! Operations step by step, and what is left of them where they stop. Stacks are changed in a copy; the copy is
written before it takes the place of the stacks, and listeners are told last. So the file always holds the stacks
that are in memory. -/

namespace FilterQuery.Stack

def Operation.subjectName : Operation → String
  | .create draft => StackName.normalize draft.name
  | .rename _ target => StackName.normalize target
  | .update name _ | .delete name | .assignShortcut name _ | .recordUsage name | .markSynced name =>
    StackName.normalize name

theorem Operation.Makes.subject_lt {limit now : Nat} {entries : List Stack} {op : Operation} {c : Change}
    (h : op.Makes limit now entries c) : ∀ i ∈ c.subject, i < c.entries.length := by
  cases h with
  | create =>
    rintro _ ⟨⟩
    rw [List.length_append, length_release]
    exact Nat.lt_succ_self _
  | assignShortcut =>
    rintro _ ⟨⟩
    rw [List.length_append, length_release]
    exact Nat.lt_add_of_pos_right (Nat.succ_pos _)
  | update | rename | recordUsage =>
    rintro _ ⟨⟩
    rw [List.length_append]
    exact Nat.lt_add_of_pos_right (Nat.succ_pos _)
  | delete | markSynced => exact nofun

end FilterQuery.Stack

namespace FilterQuery

section

variable {ε σ α β : Type} {s s' : σ} {x : ExceptT ε (StateM σ) α} {f : α → ExceptT ε (StateM σ) β}

theorem run_bind_of_ok {a : α} (h : x.run.run s = (.ok a, s')) : (x >>= f).run.run s = (f a).run.run s' := by
  change (fun p : Except ε α × σ => ExceptT.bindCont f p.1 p.2) (x.run.run s) = _
  rw [h]
  rfl

theorem run_bind_of_error {r : ε} (h : x.run.run s = (.error r, s')) : (x >>= f).run.run s = (.error r, s') := by
  change (fun p : Except ε α × σ => ExceptT.bindCont f p.1 p.2) (x.run.run s) = _
  rw [h]
  rfl

theorem run_get (s : σ) : (get : ExceptT ε (StateM σ) σ).run.run s = (.ok s, s) := rfl

theorem run_ofExcept_ok (a : α) (s : σ) : (ofExcept (.ok a) : ExceptT ε (StateM σ) α).run.run s = (.ok a, s) := rfl

theorem run_ofExcept_error (r : ε) (s : σ) :
    (ofExcept (.error r) : ExceptT ε (StateM σ) α).run.run s = (.error r, s) := rfl

end

end FilterQuery

namespace FilterQuery.Store

open Stack

abbrev Step := ExceptT Refusal (StateM Store)

def Step.persist (entries : List Stack) : Step Unit := do
  let storage ← ofExcept (save entries (← get).storage)
  modify fun s => { s with storage := storage }

def Step.swap (entries : List Stack) : Step Unit :=
  modify fun s => { s with entries := entries, clock := s.clock + 1 }

def Step.tell (n : Notice) : Step Unit := modify fun s => { s with notices := s.notices ++ [n] }

def Step.notify (events : List Event) (size : Nat) : Step Unit := do
  let listeners := (← get).listeners
  events.forM fun e => listeners.forM fun l => Step.tell ⟨l, e, size⟩

def Step.mutate (op : Operation) : Step (Option Stack) := do
  let s ← get
  let change ← ofExcept (op.change s.maxStacks s.clock s.entries)
  let entries ← ofExcept (s.settle change.entries)
  Step.persist entries
  Step.swap entries
  Step.notify change.events entries.length
  match change.subject with
  | none => return none
  | some i => match entries[i]? with
    | some t => return some t
    | none => throw (.notFound op.subjectName)

/-- Tries an operation. Gives its outcome and the store that it leaves. -/
def attempt (op : Operation) (s : Store) : Except Refusal (Option Stack) × Store := (Step.mutate op).run.run s

variable {s s' s'' s₀ : Store} {op : Operation}

theorem run_forM {α : Type} {g : α → Step Unit} {f : α → List Notice}
    (hg : ∀ a s, (g a).run.run s = (.ok (), { s with notices := s.notices ++ f a })) (as : List α) (s : Store) :
    (as.forM g).run.run s = (.ok (), { s with notices := s.notices ++ as.flatMap f }) := by
  induction as generalizing s with
  | nil =>
    rw [List.flatMap_nil, List.append_nil]
    rfl
  | cons a as ih =>
    have hrest := run_bind_of_ok (f := fun _ => as.forM g) (hg a s)
    rw [ih] at hrest
    rw [List.flatMap_cons, ← List.append_assoc]
    exact hrest

theorem run_notify (events : List Event) (size : Nat) (s : Store) :
    (Step.notify events size).run.run s = (.ok (), { s with notices := s.notices ++ s.announce events size }) := by
  have hevent : ∀ e s', (s.listeners.forM fun l => Step.tell ⟨l, e, size⟩).run.run s' =
      (.ok (), { s' with notices := s'.notices ++ s.listeners.map fun l => ⟨l, e, size⟩ }) := by
    intro e s'
    rw [List.map_eq_flatMap]
    exact run_forM (fun l s => rfl) s.listeners s'
  exact run_forM hevent events s

theorem run_persist (entries : List Stack) (s : Store) : (Step.persist entries).run.run s =
    match save entries s.storage with
    | .ok storage => (.ok (), { s with storage := storage })
    | .error r => (.error r, s) := by
  unfold Step.persist
  rw [run_bind_of_ok (run_get s)]
  cases save entries s.storage with
  | ok storage => exact run_bind_of_ok (run_ofExcept_ok storage s)
  | error r => exact run_bind_of_error (run_ofExcept_error r s)

theorem run_swap (entries : List Stack) (s : Store) : (Step.swap entries).run.run s =
    (.ok (), { s with entries := entries, clock := s.clock + 1 }) := rfl

section

variable {c : Change} {entries : List Stack} {storage : Storage} {r : Refusal}

theorem attempt_of_change_error (h : op.change s.maxStacks s.clock s.entries = .error r) :
    attempt op s = (.error r, s) := by
  unfold attempt Step.mutate
  rw [run_bind_of_ok (run_get s), h]
  exact run_bind_of_error (run_ofExcept_error r s)

variable (hc : op.change s.maxStacks s.clock s.entries = .ok c)

include hc

theorem attempt_of_settle_error (h : s.settle c.entries = .error r) : attempt op s = (.error r, s) := by
  unfold attempt Step.mutate
  rw [run_bind_of_ok (run_get s), hc, run_bind_of_ok (run_ofExcept_ok c s), h]
  exact run_bind_of_error (run_ofExcept_error r s)

variable (he : s.settle c.entries = .ok entries)

include he

theorem attempt_of_save_error (h : save entries s.storage = .error r) : attempt op s = (.error r, s) := by
  unfold attempt Step.mutate
  rw [run_bind_of_ok (run_get s), hc, run_bind_of_ok (run_ofExcept_ok c s), he,
    run_bind_of_ok (run_ofExcept_ok entries s)]
  have hpersist := run_persist entries s
  rw [h] at hpersist
  exact run_bind_of_error hpersist

theorem attempt_of_save (h : save entries s.storage = .ok storage) :
    attempt op s = (.ok (c.subject.bind (entries[·]?)), { s with
      entries := entries
      storage := storage
      notices := s.notices ++ s.announce c.events entries.length
      clock := s.clock + 1 }) := by
  unfold attempt Step.mutate
  rw [run_bind_of_ok (run_get s), hc, run_bind_of_ok (run_ofExcept_ok c s), he,
    run_bind_of_ok (run_ofExcept_ok entries s)]
  have hpersist := run_persist entries s
  rw [h] at hpersist
  rw [run_bind_of_ok hpersist, run_bind_of_ok (run_swap ..), run_bind_of_ok (run_notify ..)]
  cases hsubject : c.subject with
  | none => rfl
  | some i =>
    have hlen := congrArg List.length (records_of_settle he)
    rw [List.length_map, List.length_map] at hlen
    have hi : i < entries.length := hlen ▸ (Operation.makes_of_change hc).subject_lt i hsubject
    simp only [List.getElem?_eq_getElem hi, Option.bind_some]
    rfl

end

theorem attempt_eq_perform (op : Operation) (s : Store) : attempt op s =
    match s.perform op with
    | .ok (s', result) => (.ok result, s')
    | .error r => (.error r, s) := by
  unfold perform
  cases hc : op.change s.maxStacks s.clock s.entries with
  | error r => exact attempt_of_change_error hc
  | ok c =>
    simp only [bind, Except.bind]
    cases he : s.settle c.entries with
    | error r => exact attempt_of_settle_error hc he
    | ok entries =>
      dsimp only
      cases hs : save entries s.storage with
      | error r => exact attempt_of_save_error hc he hs
      | ok storage => exact attempt_of_save hc he hs

theorem attempt_eq_error {r : Refusal} (h : attempt op s = (.error r, s')) : s' = s := by
  rw [attempt_eq_perform] at h
  split at h
  · cases h
  · cases h
    rfl

theorem attempt_eq_ok {result : Option Stack} (h : attempt op s = (.ok result, s')) :
    s.perform op = .ok (s', result) := by
  rw [attempt_eq_perform] at h
  split at h
  · next hp =>
    cases h
    exact hp
  · cases h

structure Mirrored (s : Store) : Prop where
  stored : load s.storage = .ok (s.entries.map (·.toRecord))
  current : IsCurrent s.maxDepth s.entries

theorem load_congr {storage storage' : Storage} (h : storage'.content? fileName = storage.content? fileName) :
    load storage' = load storage := by
  unfold load
  rw [h]

theorem contains_of_load {storage : Storage} {records : List Record} (h : load storage = .ok records) :
    storage.contains fileName = true := by
  unfold load at h
  rw [Storage.contains]
  cases hdata : storage.content? fileName with
  | some data => rfl
  | none =>
    rw [hdata] at h
    cases h

theorem fromUTF8?_toUTF8 (text : String) : String.fromUTF8? text.toUTF8 = some text := by
  rw [String.fromUTF8?, String.toUTF8_eq_toByteArray, dif_pos text.isValidUTF8]
  rfl

theorem load_of_save {storage storage' : Storage} {entries : List Stack} (h : save entries storage = .ok storage')
    (readBack : Record.readAll? (Record.allText (entries.map (·.toRecord))) = some (entries.map (·.toRecord))) :
    load storage' = .ok (entries.map (·.toRecord)) := by
  have hcontent : storage'.content? fileName = some (bytes entries) := by
    unfold save Storage.write at h
    cases hw : storage.writeFailure? fileName with
    | some e =>
      rw [hw] at h
      cases h
    | none =>
      rw [hw] at h
      cases h
      exact Storage.content?_put_self ..
  unfold load
  rw [hcontent, bytes]
  dsimp only
  rw [fromUTF8?_toUTF8]
  dsimp only
  rw [readBack]
  rfl

theorem derived_ofRecord {limit : Nat} {entries : List Stack} (h : IsCurrent limit entries) :
    derived limit ((entries.map (·.toRecord)).map ofRecord) = .ok entries := by
  have hsources : sources ((entries.map (·.toRecord)).map ofRecord) = sources entries :=
    sources_of_records (by simp [Function.comp_def, ofRecord])
  have hderive : ∀ s ∈ entries, derive (queries entries) limit (ofRecord s.toRecord) = .ok s := by
    intro s hs
    have htree := h s hs
    unfold derive
    change (Tree.parseWith (queries entries) limit (some s.name) s.query >>= fun t => _) = _
    rw [htree]
    rfl
  have hall : ∀ es ⊆ entries, ((es.map (·.toRecord)).map ofRecord).mapM (derive (queries entries) limit) = .ok es := by
    intro es hes
    induction es with
    | nil => rfl
    | cons s es ih =>
      obtain ⟨hs, hes⟩ := List.cons_subset.1 hes
      rw [List.map_cons, List.map_cons, List.mapM_cons, hderive s hs, ih hes]
      rfl
  rw [derived, deriveAll, queries_congr hsources, hall entries (List.Subset.refl _)]

theorem Mirrored.openOn (h : s.Mirrored) {config : Config} (hdepth : config.maxReferenceDepth = s.maxDepth)
    (clock : Nat) : openOn s.storage config clock = .ok
      ⟨s.entries, s.storage, [], 0, [], clock, config.maxStacks, config.maxReferenceDepth⟩ := by
  rw [Store.openOn, if_pos (contains_of_load h.stored)]
  change (load s.storage >>= fun records => _) = _
  rw [h.stored]
  change (derived config.maxReferenceDepth ((s.entries.map (·.toRecord)).map ofRecord) >>= fun entries => _) = _
  rw [hdepth, derived_ofRecord h.current]
  rfl

theorem mirrored_of_openOn {storage : Storage} {config : Config} {clock : Nat}
    (h : Store.openOn storage config clock = .ok s) : s.Mirrored := by
  obtain ⟨records, hdepth, hload, hderived⟩ := openOn_loads h
  have hrecords := records_of_derive (derived_eq_ok hderived)
  rw [List.map_map] at hrecords
  refine ⟨?_, hdepth ▸ isCurrent_of_derived hderived⟩
  rw [hload, hrecords]
  exact congrArg Except.ok (List.map_id records).symm

theorem Mirrored.performed {result : Option Stack} (hs : s.Mirrored) (h : s.perform op = .ok (s', result))
    (readBack : Record.readAll? (Record.allText (s'.entries.map (·.toRecord)))
      = some (s'.entries.map (·.toRecord))) : s'.Mirrored := by
  have hcurrent := isCurrent_of_perform h hs.current
  obtain ⟨c, entries, storage, -, -, hsave, -, rfl⟩ := perform_eq_ok h
  exact ⟨load_of_save hsave readBack, hcurrent⟩

inductive Meanwhile : Store → Store → Prop
  | subscribed (s : Store) : Meanwhile s s.subscribe.1
  | unsubscribed (s : Store) (listener : Nat) : Meanwhile s (s.unsubscribe listener)
  | later (s : Store) (clock : Nat) : Meanwhile s { s with clock := clock }
  | turned (s : Store) (writable : Bool) :
      Meanwhile s { s with storage := { s.storage with writable := writable } }

/-- How a store comes from one to another when operations are tried, with the records that are written on the way. -/
inductive Trials : Store → List (List Record) → Store → Prop
  | refl (s : Store) : Trials s [] s
  | taken {s s' s'' : Store} {written : List (List Record)} {op : Operation} {result : Option Stack}
      (run : Trials s written s') (h : attempt op s' = (.ok result, s'')) :
      Trials s (written ++ [s''.entries.map (·.toRecord)]) s''
  | refused {s s' s'' : Store} {written : List (List Record)} {op : Operation} {r : Refusal}
      (run : Trials s written s') (h : attempt op s' = (.error r, s'')) : Trials s written s''
  | meanwhile {s s' s'' : Store} {written : List (List Record)} (run : Trials s written s')
      (h : Meanwhile s' s'') : Trials s written s''

theorem Meanwhile.mirrored (h : Meanwhile s s') (hs : s.Mirrored) : s'.Mirrored := by
  cases h with
  | subscribed | unsubscribed | later => exact ⟨hs.stored, hs.current⟩
  | turned => exact ⟨(load_congr rfl).trans hs.stored, hs.current⟩

theorem Meanwhile.maxDepth (h : Meanwhile s s') : s'.maxDepth = s.maxDepth := by cases h <;> rfl

theorem Trials.maxDepth {written : List (List Record)} (run : Trials s written s') :
    s'.maxDepth = s.maxDepth := by
  induction run with
  | refl => rfl
  | taken run h ih =>
    obtain ⟨c, entries, storage, -, -, -, -, rfl⟩ := perform_eq_ok (attempt_eq_ok h)
    exact ih
  | refused run h ih => exact attempt_eq_error h ▸ ih
  | meanwhile run h ih => exact h.maxDepth.trans ih

theorem Trials.mirrored {written : List (List Record)} (run : Trials s written s')
    (readBack : ∀ rs ∈ written, Record.readAll? (Record.allText rs) = some rs) (hs : s.Mirrored) :
    s'.Mirrored := by
  induction run with
  | refl => exact hs
  | taken run h ih =>
    obtain ⟨hbefore, hlast⟩ := List.forall_mem_append.1 readBack
    exact (ih hbefore).performed (attempt_eq_ok h) (hlast _ (List.mem_singleton_self _))
  | refused run h ih => exact attempt_eq_error h ▸ ih readBack
  | meanwhile run h ih => exact h.mirrored (ih readBack)

/-- However operations fail on the way, one that is refused leaves the store as it was, its file and what listeners
were told included, and whenever a store is opened on the same storage it has the same stacks. -/
theorem mirrored_of_trials {storage : Storage} {config : Config} {clock : Nat} {written : List (List Record)}
    (opened : Store.openOn storage config clock = .ok s₀) (run : Trials s₀ written s)
    (readBack : ∀ rs ∈ written, Record.readAll? (Record.allText rs) = some rs) :
    (∀ op r s', attempt op s = (.error r, s') → s' = s) ∧
      ∀ clock', ∃ s', Store.openOn s.storage config clock' = .ok s' ∧ s'.entries = s.entries := by
  refine ⟨fun op r s' => attempt_eq_error, fun clock' => ?_⟩
  have hmirrored := run.mirrored readBack (mirrored_of_openOn opened)
  have hdepth : config.maxReferenceDepth = s.maxDepth := (openOn_eq_ok opened).1.symm.trans run.maxDepth.symm
  exact ⟨_, hmirrored.openOn hdepth clock', rfl⟩

theorem mirrored_of_trials_rename :
    ∃ s₀ s s' written, Store.openOn (.empty .memory) .standard 0 = .ok s₀ ∧ Trials s₀ written s ∧
      (∀ rs ∈ written, Record.readAll? (Record.allText rs) = some rs) ∧ names s.entries = ["a"] ∧
      attempt (.rename "a" "b") s = (.error (.storage "the file of stacks cannot be written"), s) ∧
      Store.openOn s.storage .standard 5 = .ok s' ∧ s'.entries = s.entries := by
  have h : (Store.openOn (.empty .memory) .standard 0 >>= fun s₀ =>
      s₀.perform (.create ⟨"a", "x", none, some 2, some 1⟩) >>= fun p =>
        let rs := p.1.entries.map (·.toRecord)
        let refusing := { p.1 with storage := { p.1.storage with writable := false } }
        .ok (names p.1.entries, decide (Record.readAll? (Record.allText rs) = some rs),
          (attempt (.create ⟨"b", "/\\", none, none, none⟩) p.1).1, (attempt (.rename "a" "b") refusing).1)) =
      .ok (["a"], true, .error .overrun, .error (.storage "the file of stacks cannot be written")) := by
    decide +kernel
  obtain ⟨s₀, opened, h⟩ := bind_eq_ok h
  obtain ⟨⟨s, t⟩, hs, h⟩ := bind_eq_ok h
  simp only [Except.ok.injEq, Prod.mk.injEq, decide_eq_true_eq] at h
  obtain ⟨hnames, hread, hoverrun, hrename⟩ := h
  have hcreate : attempt (.create ⟨"a", "x", none, some 2, some 1⟩) s₀ = (.ok t, s) := by
    rw [attempt_eq_perform, hs]
  have hrefused : attempt (.create ⟨"b", "/\\", none, none, none⟩) s = (.error .overrun, s) :=
    Prod.ext hoverrun (attempt_eq_error (Prod.ext hoverrun rfl))
  have run := (((Trials.refl s₀).taken hcreate).refused hrefused).meanwhile (.turned s false)
  have hwritten : ∀ rs ∈ [] ++ [s.entries.map (·.toRecord)], Record.readAll? (Record.allText rs) = some rs :=
    List.forall_mem_singleton.2 hread
  obtain ⟨hleaves, hopen⟩ := mirrored_of_trials opened run hwritten
  obtain ⟨s', hs', hentries⟩ := hopen 5
  have hleft := hleaves _ _ _ (Prod.ext hrename rfl)
  exact ⟨s₀, _, s', _, opened, run, hwritten, hnames, Prod.ext hrename hleft, hs', hentries⟩

end FilterQuery.Store
