import FilterQuery.Proofs.Command.Finds

namespace FilterQuery

open Stack

namespace Store

variable {store : Store} {name : String} {i : Nat}

theorem perform_of_save {op : Operation} {c : Change} {entries : List Stack} {storage : Storage}
    (hc : op.change store.maxStacks store.clock store.entries = .ok c) (he : store.settle c.entries = .ok entries)
    (hs : save entries store.storage = .ok storage) : store.perform op = .ok ({ store with
      entries := entries
      storage := storage
      notices := store.notices ++ store.announce c.events entries.length
      clock := store.clock + 1 }, c.subject.bind (entries[·]?)) := by
  unfold perform
  simp only [hc, bind, Except.bind, he, hs]
  rfl

theorem perform_recordUsage (hi : store.entries.findIdx? (·.name == StackName.normalize name) = some i)
    (hwritable : store.storage.writable = true) : ∃ store' u, store.perform (.recordUsage name) = .ok (store', some u) ∧
      store'.entries = store.entries.modify i fun t => { t with lastUsed := some (store.clock : Int) } := by
  have hposition : position store.entries (StackName.normalize name) = .ok i := by rw [position, hi]
  obtain ⟨before, u, after, hentries, rfl, -⟩ := position_eq_ok hposition
  have hmodify := modify_length_append (fun t : Stack => { t with lastUsed := some (store.clock : Int) }) before u after
  rw [← hentries] at hmodify
  have hchange : (Operation.recordUsage name).change store.maxStacks store.clock store.entries =
      .ok ⟨store.entries.modify before.length fun t => { t with lastUsed := some (store.clock : Int) },
        some before.length, [.used (StackName.normalize name)]⟩ := by
    unfold Operation.change
    simp only [hposition, bind, Except.bind]
    rfl
  have hsources : sources store.entries =
      sources (store.entries.modify before.length fun t => { t with lastUsed := some (store.clock : Int) }) := by
    rw [hmodify, hentries]
    simp [sources]
  have hperform := perform_of_save hchange (if_pos hsources) (save_of_writable hwritable _)
  rw [Option.bind_some, hmodify, List.getElem?_append_right (Nat.le_refl _), Nat.sub_self,
    List.getElem?_cons_zero] at hperform
  exact ⟨_, _, hperform, hmodify.symm⟩

theorem perform_recordUsage_error (h : store.entries.findIdx? (·.name == StackName.normalize name) = none ∨
    store.storage.writable = false) : ∃ r, store.perform (.recordUsage name) = .error r := by
  cases hperform : store.perform (.recordUsage name) with
  | error r => exact ⟨r, rfl⟩
  | ok p =>
    obtain ⟨change, entries, storage, hmakes, -, hsave, -, -⟩ := perform_eq_ok hperform
    rcases h with hnone | hwritable
    · generalize store.entries = es at hmakes hnone
      cases hmakes with
      | recordUsage named => simp [named] at hnone
    · unfold save Storage.write Storage.writeFailure? at hsave
      rw [hwritable] at hsave
      cases hsave

end Store

namespace Command

variable {storage : Storage} {config : Config} {records : List Record} {clock : Nat} {w : Conditions} {saves : Bool}
  {s : Session}

section

variable {answer : Option Bool} {key : Nat} {t u : Stack} {store : Store}

variable (hkey : s.store.byShortcut? key = some t)

include hkey

end

/-- How a query is read against saved stacks. -/
def readAgainst (config : Config) (records : List Record) (query : String) : Except Token.Overrun Tree :=
  Tree.parseWith (queries (records.map ofRecord)) config.maxReferenceDepth none query

theorem Begins.parse (h : Begins s config records clock saves) (query : String) :
    s.parse query = readAgainst config records query := by
  have hrecords : s.store.entries.map (·.toRecord) = (records.map ofRecord).map (·.toRecord) := by
    rw [h.entries, List.map_map]
    exact (List.map_id records).symm
  rw [Session.parse, readAgainst, queries_congr (sources_of_records hrecords), h.configured]

/-- Runs commands, each at its time and under its conditions, and gives the storage that they leave. -/
def runAll (storage : Storage) (cs : List (Command × Nat × Conditions)) : Storage :=
  cs.foldl (fun storage c => (c.1.runOn storage c.2.1 c.2.2).storage) storage

theorem Finds.runAll (h : Finds storage config records) {cs : List (Command × Nat × Conditions)}
    (hcs : ∀ c ∈ cs, c.2.1 < Number.intLimit) : ∃ found, Finds (runAll storage cs) config found := by
  induction cs generalizing storage records with
  | nil => exact ⟨records, h⟩
  | cons c cs ih =>
    obtain ⟨hc, hcs⟩ := List.forall_mem_cons.1 hcs
    obtain ⟨found, hfound⟩ := h.runOn hc c.1 c.2.2
    exact ih hfound hcs

end Command

end FilterQuery
