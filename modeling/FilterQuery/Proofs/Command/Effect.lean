import FilterQuery.Command
import FilterQuery.Proofs.Config
import FilterQuery.Proofs.Store.Records
import FilterQuery.Proofs.Store.Shortcut

namespace FilterQuery

open Stack

namespace Command

def operation? (s : Store) : Command → Option Operation
  | add name query description key => some (.create ⟨name, query, description, none, key⟩)
  | update name query description => some (.update name ⟨query, description, none⟩)
  | rename origin target => some (.rename origin target)
  | delete name _ => some (.delete name)
  | shortcut name key => some (.assignShortcut name key)
  | run key => (s.byShortcut? key).map fun t => .recordUsage t.name
  | _ => none

inductive Effect.Follows (s : Store) (op : Option Operation) (e : Effect) : Prop
  | same (h : e.session.store = s)
  | performed {o : Operation} {subject : Option Stack} (hop : op = some o)
    (h : s.perform o = .ok (e.session.store, subject)) (hf : e.failure = none)

namespace Effect.Follows

variable {s : Session} {store : Store} {op : Option Operation} {e : Effect}

theorem noting {lines : List Line} (h : e.Follows store op) : (e.noting lines).Follows store op := by
  cases h with
  | same h => exact .same h
  | performed hop h hf => exact .performed hop h hf

theorem printing {lines : List Line} (h : e.Follows store op) : Effect.Follows store op { e with after := lines } := by
  cases h with
  | same h => exact .same h
  | performed hop h hf => exact .performed hop h hf

theorem withTree {query : String} {next : Tree → Effect} (h : ∀ t, (next t).Follows s.store op) :
    (Command.withTree s query next).Follows s.store op := by
  unfold Command.withTree
  split
  · exact h _
  · exact .same rfl

theorem perform (s : Session) (o : Operation) : (Command.perform s o).Follows s.store (some o) := by
  unfold Command.perform
  split
  · next h => exact .performed rfl h rfl
  · exact .same rfl

end Effect.Follows

theorem execute_follows {s : Session} (hreads : ∀ {key s' t}, s.markShortcut key = .ok (some (s', t)) →
      ∃ tree, s'.parse t.query = .ok tree) (answer : Option Bool) (c : Command) :
    (c.execute s answer).Follows s.store (c.operation? s.store) := by
  cases c with
  | parse | canonical => exact .withTree fun t => .same rfl
  | compile =>
    refine .withTree fun t => ?_
    split
    · exact .same rfl
    · exact .same rfl
  | list => exact .same rfl
  | display =>
    rw [execute]
    split
    · exact .same rfl
    · exact .same rfl
  | add => exact .withTree fun t => .noting (.perform ..)
  | update name query =>
    cases query with
    | none => exact .perform ..
    | some query => exact .withTree fun t => .noting (.perform ..)
  | rename | shortcut => exact .perform ..
  | delete name confirmed =>
    have hperform := Effect.Follows.perform s (.delete name)
    unfold execute
    dsimp only
    split
    · exact .same rfl
    · split
      · exact .same rfl
      · exact .same rfl
      · split
        · exact hperform
        · exact hperform.printing
  | run key =>
    unfold execute
    dsimp only
    split
    · exact .same rfl
    · exact .same rfl
    · next hmark =>
      obtain ⟨t, hkey, hperform, -⟩ := Session.markShortcut_eq_ok hmark
      obtain ⟨tree, htree⟩ := hreads hmark
      unfold withTree
      rw [htree]
      exact .performed (congrArg (Option.map _) hkey) hperform rfl

namespace Effect

variable {s : Session} {prints : Nat → Bool} {e : Effect}

theorem storage_outcome (s : Session) (prints : Nat → Bool) (e : Effect) :
    (e.outcome s prints).storage = s.store.storage ∨ (e.outcome s prints).storage = e.session.store.storage := by
  unfold outcome
  dsimp only
  split
  · exact .inl rfl
  · exact .inr rfl

end Effect

end Command

namespace Store

variable {entries : List Stack} {storage storage' : Storage} {config : Config} {clock : Nat} {store : Store}

theorem save_eq_ok (h : save entries storage = .ok storage') : storage' = storage.put fileName (bytes entries) := by
  unfold save at h
  split at h
  · next hw =>
    cases h
    exact Storage.write_eq_ok hw
  · cases h

theorem openOn_of_load {records : List Record} (hload : load storage = .ok records)
    (htrees : derived config.maxReferenceDepth (records.map ofRecord) = .ok entries) (clock : Nat) :
    openOn storage config clock =
      .ok ⟨entries, storage, [], 0, [], clock, config.maxStacks, config.maxReferenceDepth⟩ := by
  rw [openOn, if_pos (contains_of_load hload)]
  change (load storage >>= fun records => _) = _
  rw [hload]
  change (derived config.maxReferenceDepth (records.map ofRecord) >>= fun entries => _) = _
  rw [htrees]
  rfl

theorem save_of_writable (h : storage.writable = true) (entries : List Stack) :
    save entries storage = .ok (storage.put fileName (bytes entries)) := by
  have hfailure : storage.writeFailure? fileName = none := by
    unfold Storage.writeFailure?
    rw [h]
    cases storage.medium
    · rfl
    · decide +kernel
  rw [save, Storage.write, hfailure]

theorem openOn_of_none (hnone : storage.content? fileName = none) (hwritable : storage.writable = true)
    (htrees : derived config.maxReferenceDepth [] = .ok entries) (clock : Nat) :
    openOn storage config clock = .ok ⟨entries, storage.put fileName (bytes []), [], 0, [], clock, config.maxStacks,
      config.maxReferenceDepth⟩ := by
  have hsave := save_of_writable hwritable []
  have hload : load (storage.put fileName (bytes [])) = .ok [] := load_of_save hsave (Record.readAll?_allText nofun)
  have hopen := openOn_of_load hload htrees clock
  rw [openOn, if_pos (contains_of_load hload)] at hopen
  rw [openOn, if_neg (by rw [Storage.contains, hnone]; decide), hsave]
  exact hopen

theorem openOn_refused (hnone : storage.content? fileName = none) (hwritable : storage.writable = false) :
    ∃ r, openOn storage config clock = .error r := by
  have hsave : ∃ r, save [] storage = .error r := by
    unfold save Storage.write Storage.writeFailure?
    rw [hwritable]
    exact ⟨_, rfl⟩
  obtain ⟨r, hr⟩ := hsave
  rw [openOn, if_neg (by rw [Storage.contains, hnone]; decide), hr]
  exact ⟨r, rfl⟩

theorem inRange_of_load {records : List Record} (h : load storage = .ok records) : ∀ r ∈ records, r.InRange := by
  unfold load at h
  split at h
  · split at h
    · split at h
      · next hread =>
        cases h
        exact Record.inRange_of_readAll? hread
      · cases h
    · cases h
  · cases h

end Store

namespace Command

/-- What is kept of the file of stacks: it is as it was, or, where there was none, holds no stacks. -/
def Spares (before after : Storage) : Prop :=
  after.content? Store.fileName = before.content? Store.fileName ∨
    before.content? Store.fileName = none ∧ after.content? Store.fileName = some (Store.bytes [])

variable {c : Command} {storage storage' : Storage} {config : Config} {clock : Nat} {w : Conditions} {s : Session}

theorem spares_refl (storage : Storage) : Spares storage storage := .inl rfl

theorem content?_locked {name : String} (h : name ≠ lockName) (storage : Storage) :
    (locked storage).content? name = storage.content? name := by
  unfold locked
  split
  · rfl
  · exact Storage.content?_put_of_ne _ _ h

def lockedFor (c : Command) (storage : Storage) : Storage := if c.mutates then locked storage else storage

theorem content?_lockedFor {name : String} (h : name ≠ lockName) (c : Command) (storage : Storage) :
    (c.lockedFor storage).content? name = storage.content? name := by
  unfold lockedFor
  split
  · exact content?_locked h storage
  · rfl

theorem prepare_eq (h : Config.load (storage.turned w.configures) = .ok (config, storage')) :
    c.prepare storage clock w = if c.mutates && !w.locks then .error ⟨"", "", some .unlocked, storage'⟩
      else match Store.openOn ((c.lockedFor storage').turned w.creates) config clock with
        | .error refusal => .error ⟨"", "", some (.refused refusal), c.lockedFor storage'⟩
        | .ok store => .ok (Session.start config (store.turned w.saves)) := by
  unfold prepare
  rw [h]
  rfl

theorem prepare_of_config_error {f : Config.Failure} (h : Config.load (storage.turned w.configures) = .error f) :
    c.prepare storage clock w = .error ⟨"", "", some (.config f), storage⟩ := by
  unfold prepare
  rw [h]

theorem runOn_of_ok (h : c.prepare storage clock w = .ok s) :
    c.runOn storage clock w = (c.execute s none).outcome s w.prints := by
  rw [runOn, h]

theorem runOn_of_error {o : Outcome} (h : c.prepare storage clock w = .error o) : c.runOn storage clock w = o := by
  rw [runOn, h]

end Command

end FilterQuery
