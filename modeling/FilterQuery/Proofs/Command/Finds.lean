import FilterQuery.Proofs.Command.Effect
import FilterQuery.Proofs.Config.Loading

namespace FilterQuery

open Stack

namespace Config

variable {s s' : Storage} {c : Config}

theorem gives_of_load (h : load s = .ok (c, s')) : Gives s c := by
  by_cases hgives : ∃ c', Gives s c'
  · obtain ⟨c', hc'⟩ := hgives
    obtain ⟨hload, -⟩ | ⟨s'', hload, -⟩ := loads_or_fails hc'
    · cases h.symm.trans hload
    · cases h.symm.trans hload
      exact hc'
  · obtain ⟨e, he, -⟩ := load_of_not_gives (not_exists.1 hgives)
    cases h.symm.trans he

theorem Gives.congr (h : Gives s c) (hsame : s'.content? fileName = s.content? fileName) : Gives s' c := by
  obtain ⟨members, hsays, hc⟩ := h
  refine ⟨members, ?_, hc⟩
  cases hsays with
  | nothing hnone => exact .nothing (hsame.trans hnone)
  | members hdata htext hd hmembers => exact .members (hsame.trans hdata) htext hd hmembers

end Config

namespace Command

variable {c : Command} {storage storage' : Storage} {config : Config} {records : List Record} {clock : Nat}
  {w : Conditions} {s : Session}

theorem invariant_tokenizes {saved : Stacks}
    (h : ∀ name query, saved name = some query → ∃ cs, Clause.ofQuery query = .ok cs) (limit : Nat) :
    Reading.Invariant saved limit (fun _ query => ∃ cs, Clause.ofQuery query = .ok cs) fun _ _ _ => True where
  descend _ _ _ hs := h _ _ hs
  expand _ _ _ _ _ _ := trivial

theorem parse_of_isCurrent {limit : Nat} {entries : List Stack} (h : IsCurrent limit entries) {t : Stack}
    (ht : t ∈ entries) : ∃ tree, Tree.parseWith (queries entries) limit none t.query = .ok tree := by
  have htokens : ∀ u ∈ entries, ∃ cs, Clause.ofQuery u.query = .ok cs := by
    intro u hu
    have hinvariant : Reading.Invariant (queries entries) (max limit 1) (fun _ _ => True) fun _ _ _ => True :=
      ⟨fun _ _ _ _ => trivial, fun _ _ _ _ _ _ => trivial⟩
    obtain ⟨cs, -, hcs, -, -⟩ := answers_parseWith hinvariant trivial (h u hu)
    exact ⟨cs, hcs⟩
  have hsaved : ∀ name query, queries entries name = some query → ∃ cs, Clause.ofQuery query = .ok cs := by
    intro name query hq
    obtain ⟨u, hu, rfl⟩ := Option.map_eq_some_iff.1 hq
    exact htokens u (List.mem_of_find?_eq_some hu)
  cases hparse : Tree.parseWith (queries entries) limit none t.query with
  | ok tree => exact ⟨tree, rfl⟩
  | error o =>
    obtain ⟨chain, query, ⟨cs, hcs⟩, ho⟩ := overrun_parseWith (invariant_tokenizes hsaved _) (htokens t ht) hparse
    cases hcs.symm.trans ho

/-- The settings and the saved stacks in a storage, all of which can be read. There may be no file of stacks. -/
structure Finds (storage : Storage) (config : Config) (records : List Record) : Prop where
  settings : Config.Gives storage config
  saved : Store.load storage = .ok records ∨ storage.content? Store.fileName = none ∧ records = []
  trees : ∃ entries, Store.derived config.maxReferenceDepth (records.map ofRecord) = .ok entries

theorem Finds.congr (h : Finds storage config records) (hsettings : Config.Gives storage' config)
    (hsaved : storage'.content? Store.fileName = storage.content? Store.fileName) : Finds storage' config records where
  settings := hsettings
  saved := h.saved.imp (Store.load_congr hsaved).trans fun hnone => ⟨hsaved.trans hnone.1, hnone.2⟩
  trees := h.trees

structure Begins (s : Session) (config : Config) (records : List Record) (clock : Nat) (saves : Bool) : Prop where
  configured : s.config = config
  entries : s.store.entries.map (·.toRecord) = records
  inRange : ∀ r ∈ records, Record.InRange r
  mirrored : s.store.Mirrored
  maxDepth : s.store.maxDepth = config.maxReferenceDepth
  begun : s.store.clock = clock
  writable : s.store.storage.writable = saves
  settings : Config.Gives s.store.storage config

theorem Finds.openOn (h : Finds storage config records) (clock : Nat) :
    (∃ store, Store.openOn storage config clock = .ok store ∧ store.entries.map (·.toRecord) = records ∧
      store.clock = clock ∧ (∀ r ∈ records, r.InRange) ∧ Config.Gives store.storage config) ∨
    storage.writable = false ∧ ∃ r, Store.openOn storage config clock = .error r := by
  obtain ⟨entries, htrees⟩ := h.trees
  have hrecords : entries.map (·.toRecord) = records := by
    rw [Store.records_of_derive (Store.derived_eq_ok htrees), List.map_map]
    exact List.map_id records
  rcases h.saved with hload | ⟨hnone, rfl⟩
  · exact .inl ⟨_, Store.openOn_of_load hload htrees clock, hrecords, rfl, Store.inRange_of_load hload, h.settings⟩
  · cases hwritable : storage.writable with
    | true =>
      exact .inl ⟨_, Store.openOn_of_none hnone hwritable htrees clock, hrecords, rfl, nofun,
        h.settings.congr (Storage.content?_put_of_ne _ _ (by decide))⟩
    | false => exact .inr ⟨rfl, Store.openOn_refused hnone hwritable⟩

def Conditions.Opens (w : Conditions) : Prop := w.locks = true ∧ w.configures = true ∧ w.creates = true

theorem Finds.prepare (h : Finds storage config records) (c : Command) (clock : Nat) (w : Conditions) :
    (∃ s, c.prepare storage clock w = .ok s ∧ Begins s config records clock w.saves) ∨
      ¬w.Opens ∧ ∃ o, c.prepare storage clock w = .error o ∧ Finds o.storage config records := by
  have hgives : Config.Gives (storage.turned w.configures) config := h.settings.congr rfl
  obtain ⟨hload, hfails⟩ | ⟨storage', hload, -⟩ := Config.loads_or_fails hgives
  · refine .inr ⟨?_, _, prepare_of_config_error hload, h⟩
    cases hfails with
    | unwritable _ _ hrefused =>
      intro hopens
      cases hopens.2.1.symm.trans hrefused
  · have hsaved : storage'.content? Store.fileName = storage.content? Store.fileName :=
      Config.content?_of_load hload (by decide)
    have hsettings : ∀ {storage'' : Storage}, storage''.content? Config.fileName = storage'.content? Config.fileName →
        Config.Gives storage'' config := fun hsame => Config.gives_of_load (Config.load_again hload hsame)
    have hlocked : Finds (c.lockedFor storage') config records := h.congr
      (hsettings (content?_lockedFor (by decide) c storage')) ((content?_lockedFor (by decide) c storage').trans hsaved)
    have hturned : Finds ((c.lockedFor storage').turned w.creates) config records :=
      hlocked.congr (hlocked.settings.congr rfl) rfl
    rw [prepare_eq hload]
    cases hlock : c.mutates && !w.locks with
    | true =>
      rw [Bool.and_eq_true, Bool.not_eq_true'] at hlock
      refine .inr ⟨fun hopens => ?_, _, if_pos rfl, h.congr (hsettings rfl) hsaved⟩
      cases hopens.1.symm.trans hlock.2
    | false =>
      rw [if_neg Bool.false_ne_true]
      obtain ⟨store, hopen, hentries, hclock, hrange, hstore⟩ | ⟨hrefused, r, hr⟩ := hturned.openOn clock
      · rw [hopen]
        have hmirrored := Store.mirrored_of_openOn hopen
        exact .inl ⟨_, rfl, rfl, hentries, hrange, ⟨hmirrored.stored, hmirrored.current⟩,
          (Store.openOn_eq_ok hopen).1, hclock, rfl, hstore.congr rfl⟩
      · rw [hr]
        refine .inr ⟨fun hopens => ?_, _, rfl, hlocked⟩
        cases hopens.2.2.symm.trans hrefused

theorem finds_of_mirrored {store : Store} (hm : store.Mirrored) (hdepth : store.maxDepth = config.maxReferenceDepth)
    (hconfig : Config.Gives store.storage config) :
    Finds store.storage config (store.entries.map (·.toRecord)) where
  settings := hconfig
  saved := .inl hm.stored
  trees := ⟨_, hdepth ▸ Store.derived_ofRecord hm.current⟩

theorem resultCount_operation? {store : Store} {o : Operation} (h : c.operation? store = some o) :
    o.resultCount = none := by
  cases c with
  | parse | compile | canonical | list | display => cases h
  | add | update | rename | delete | shortcut =>
    cases h
    rfl
  | run key =>
    obtain ⟨t, -, rfl⟩ := Option.map_eq_some_iff.1 h
    rfl

section

variable {saves : Bool}

theorem Begins.finds_of_perform (h : Begins s config records clock saves) (hclock : clock < Number.intLimit)
    {o : Operation} (hcount : o.resultCount = none) {store : Store} {subject : Option Stack}
    (hperform : s.store.perform o = .ok (store, subject)) :
    Finds store.storage config (store.entries.map (·.toRecord)) := by
  obtain ⟨change, entries, storage, hmakes, hsettle, hsave, -, rfl⟩ := Store.perform_eq_ok hperform
  have hbefore : ∀ t ∈ s.store.entries, t.toRecord.InRange :=
    fun t ht => h.inRange _ (h.entries ▸ List.mem_map_of_mem ht)
  have hafter := hmakes.inRange (fun n hn => by rw [hcount] at hn; cases hn) (h.begun.symm ▸ hclock) hbefore
  have hrange : ∀ r ∈ entries.map (·.toRecord), r.InRange := by
    rw [Store.records_of_settle hsettle]
    exact List.forall_mem_map.2 hafter
  have hmirrored := h.mirrored.performed hperform (Record.readAll?_allText hrange)
  refine finds_of_mirrored hmirrored h.maxDepth (h.settings.congr ?_)
  cases Store.save_eq_ok hsave
  exact Storage.content?_put_of_ne _ _ (by decide)

theorem Begins.finds (h : Begins s config records clock saves) : Finds s.store.storage config records :=
  h.entries ▸ finds_of_mirrored h.mirrored h.maxDepth h.settings

theorem Begins.reads (h : Begins s config records clock saves) {key : Nat} {s' : Session} {t : Stack}
    (hmark : s.markShortcut key = .ok (some (s', t))) : ∃ tree, s'.parse t.query = .ok tree := by
  obtain ⟨u, -, hperform, hconfig⟩ := Session.markShortcut_eq_ok hmark
  have hcurrent := Store.isCurrent_of_perform hperform h.mirrored.current
  rw [h.maxDepth, ← h.configured, ← hconfig] at hcurrent
  exact parse_of_isCurrent hcurrent (Store.mem_of_perform hperform)

theorem Begins.execute_follows (h : Begins s config records clock saves) (answer : Option Bool) (c : Command) :
    (c.execute s answer).Follows s.store (c.operation? s.store) := Command.execute_follows h.reads answer c

theorem Begins.finds_execute (h : Begins s config records clock saves) (hclock : clock < Number.intLimit)
    (c : Command) (answer : Option Bool) : ∃ found, Finds (c.execute s answer).session.store.storage config found := by
  cases h.execute_follows answer c with
  | same hsame => exact ⟨records, hsame ▸ h.finds⟩
  | performed hop hperform => exact ⟨_, h.finds_of_perform hclock (resultCount_operation? hop) hperform⟩

end

theorem Finds.runOn (h : Finds storage config records) (hclock : clock < Number.intLimit) (c : Command)
    (w : Conditions) : ∃ found, Finds (c.runOn storage clock w).storage config found := by
  obtain ⟨s, hprepare, hbegins⟩ | ⟨-, o, hprepare, hfinds⟩ := h.prepare c clock w
  · rw [runOn_of_ok hprepare]
    obtain hstorage | hstorage := (c.execute s none).storage_outcome s w.prints
    · exact ⟨records, hstorage ▸ hbegins.finds⟩
    · exact hstorage ▸ hbegins.finds_execute hclock c none
  · exact ⟨records, runOn_of_error hprepare ▸ hfinds⟩

/-- The same conditions, but that every line gets through. -/
def Conditions.heard (w : Conditions) : Conditions := { w with prints := fun _ => true }

end Command

end FilterQuery
