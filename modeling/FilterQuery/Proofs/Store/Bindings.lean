import FilterQuery.Proofs.Store.Run

namespace FilterQuery.Stack

/-- The shortcuts of the stacks, by name. -/
abbrev Bindings := String → Option (Option Nat)

/-- Of stacks of one name the first counts. -/
def bindings (entries : List Stack) : Bindings := fun n => (entries.find? (·.name == n)).map (·.shortcut)

section

variable {entries before after : List Stack} {s s' : Stack} {shortcut : Option Nat} {keep : String}

theorem bindings_nil : bindings [] = fun _ => none := rfl

theorem bindings_cons (s : Stack) (entries : List Stack) :
    bindings (s :: entries) = Function.update (bindings entries) s.name (some s.shortcut) := by
  funext n
  by_cases h : n = s.name
  · simp [bindings, h]
  · rw [bindings, List.find?_cons_of_neg (by simpa using Ne.symm h), Function.update_of_ne h, bindings]

theorem bindings_eq_none (h : keep ∉ names entries) : bindings entries keep = none := by
  rw [bindings, Option.map_eq_none_iff, List.find?_eq_none]
  intro s hs he
  exact h (beq_iff_eq.1 he ▸ List.mem_map_of_mem hs)

theorem bindings_append_cons (h : s.name ∉ names before) (after : List Stack) :
    bindings (before ++ s :: after) = Function.update (bindings (before ++ after)) s.name (some s.shortcut) := by
  induction before with
  | nil => exact bindings_cons s after
  | cons b before ih =>
    rw [names, List.map_cons, List.mem_cons, not_or] at h
    rw [List.cons_append, bindings_cons, ih h.2, List.cons_append, bindings_cons, Function.update_comm h.1]

theorem bindings_of_records {entries' : List Stack}
    (h : entries'.map (·.toRecord) = entries.map (·.toRecord)) : bindings entries' = bindings entries := by
  induction entries' generalizing entries with
  | nil => rw [List.map_eq_nil_iff.1 h.symm]
  | cons s' entries' ih =>
    cases entries with
    | nil => cases h
    | cons s entries =>
      rw [List.map_cons, List.map_cons, List.cons.injEq] at h
      rw [bindings_cons, bindings_cons, ih h.2, h.1]

theorem bindings_congr (hn : s'.name = s.name) (hk : s'.shortcut = s.shortcut) :
    bindings (before ++ s' :: after) = bindings (before ++ s :: after) := by
  induction before with
  | nil => rw [List.nil_append, List.nil_append, bindings_cons, bindings_cons, hn, hk]
  | cons b before ih => rw [List.cons_append, List.cons_append, bindings_cons, bindings_cons, ih]

section

variable (apart : (names (before ++ s :: after)).Nodup)

include apart

theorem name_not_mem_names : s.name ∉ names before ∧ s.name ∉ names (before ++ after) := by
  rw [names_append_cons, List.nodup_middle, List.nodup_cons] at apart
  have hrest : s.name ∉ names (before ++ after) := by
    rw [names, List.map_append]
    exact apart.1
  exact ⟨fun h => apart.1 (List.mem_append_left _ h), hrest⟩

theorem update_bindings_none :
    Function.update (bindings (before ++ s :: after)) s.name none = bindings (before ++ after) := by
  obtain ⟨hbefore, hrest⟩ := name_not_mem_names apart
  rw [bindings_append_cons hbefore, Function.update_idem, ← bindings_eq_none hrest, Function.update_eq_self]

theorem bindings_replace (s' : Stack) (h : s'.name ∉ names before) :
    bindings (before ++ s' :: after)
      = Function.update (Function.update (bindings (before ++ s :: after)) s.name none) s'.name (some s'.shortcut) := by
  rw [update_bindings_none apart]
  exact bindings_append_cons h after

end

theorem bindings_self (h : s.name ∉ names before) (after : List Stack) :
    bindings (before ++ s :: after) s.name = some s.shortcut := by
  rw [bindings_append_cons h, Function.update_self]

end

def Bindings.follow (reported : String → Option Nat) (m : Bindings) : Event → Bindings
  | .created n => Function.update m n (some (reported n))
  | .renamed a b => match m a with
    | some k => Function.update (Function.update m a none) b (some k)
    | none => m
  | .deleted n => Function.update m n none
  | .shortcutChanged n k => Function.update m n (some k)
  | .updated _ | .used _ => m

section

variable {reported : String → Option Nat} {limit now : Nat} {entries : List Stack}

theorem foldl_releases_update (reported : String → Option Nat) {n : String} (h : n ∉ names entries)
    (shortcut : Option Nat) (keep : String) (m : Bindings) (k : Option (Option Nat)) :
    (releases shortcut keep entries).foldl (Bindings.follow reported) (Function.update m n k)
      = Function.update ((releases shortcut keep entries).foldl (Bindings.follow reported) m) n k := by
  induction entries generalizing m with
  | nil => rfl
  | cons s entries ih =>
    rw [names, List.map_cons, List.mem_cons, not_or] at h
    rw [releases, List.filter_cons]
    split
    · rw [List.map_cons, List.foldl_cons, List.foldl_cons]
      simp only [Bindings.follow]
      rw [Function.update_comm h.1]
      exact ih h.2 _
    · exact ih h.2 m

theorem foldl_releases (apart : (names entries).Nodup) (shortcut : Option Nat) (keep : String) :
    (releases shortcut keep entries).foldl (Bindings.follow reported) (bindings entries)
      = bindings (release shortcut keep entries) := by
  induction entries with
  | nil => rfl
  | cons s entries ih =>
    rw [names, List.map_cons, List.nodup_cons] at apart
    have hrest := ih apart.2
    rw [releases] at hrest
    rw [releases, release, List.filter_cons, List.map_cons, bindings_cons, bindings_cons]
    have hapart := fun k => foldl_releases_update reported apart.1 shortcut keep (bindings entries) k
    rw [releases, hrest] at hapart
    split
    · rw [List.map_cons, List.foldl_cons]
      simp only [Bindings.follow, Function.update_idem]
      exact hapart _
    · exact hapart _

theorem Operation.Makes.foldl_follow {op : Operation} {c : Change} (h : op.Makes limit now entries c)
    (kept : IsKept limit entries) (told : ∀ n ∈ names c.entries, bindings c.entries n = some (reported n)) :
    c.events.foldl (Bindings.follow reported) (bindings entries) = bindings c.entries := by
  cases h with
  | @create _ draft name normal allowed key fresh room =>
    have hnew := not_mem_names fresh
    have hrelease : name ∉ names (release draft.shortcut name entries) := by rwa [names_release]
    have hlast := bindings_append_cons (s := draft.stack name now) hrelease []
    rw [List.append_nil] at hlast
    have hreported := told name (by rw [names_append_cons]; exact List.mem_append_right _ List.mem_cons_self)
    rw [hlast] at hreported
    dsimp only
    rw [hlast, List.foldl_cons, Bindings.follow, ← hreported, foldl_releases_update reported hnew,
      foldl_releases kept.apart]
    exact congrArg _ (Function.update_self ..)
  | @rename before s after origin target name named normal allowed fresh =>
    obtain ⟨hbefore, -⟩ := name_not_mem_names kept.apart
    have hself := bindings_self hbefore after
    have hname : name ∉ names before := by
      rcases fresh with rfl | fresh
      · exact hbefore
      · exact not_mem_names fun t ht => fresh t (List.mem_append_left _ ht)
    simp only [List.foldl_cons, List.foldl_nil, Bindings.follow, hself]
    exact (bindings_replace kept.apart { s.touch now with name := name } hname).symm
  | delete => exact update_bindings_none kept.apart
  | @assignShortcut before s after name shortcut named key =>
    have hreleased : (names (release shortcut s.name before ++ s :: release shortcut s.name after)).Nodup := by
      rw [names_append_cons, names_release, names_release, ← names_append_cons]
      exact kept.apart
    have hreplace := bindings_replace hreleased { s.touch now with shortcut := shortcut }
      (name_not_mem_names hreleased).1
    rw [List.foldl_append, foldl_releases kept.apart, release_of_name rfl]
    exact (hreplace.trans (Function.update_idem ..)).symm
  | update | recordUsage | markSynced =>
    symm
    apply bindings_congr
    · rfl
    · rfl

end

end FilterQuery.Stack
