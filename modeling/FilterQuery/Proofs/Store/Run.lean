import FilterQuery.Proofs.Store.Operation

/-! Runs of a store. What a run from an empty store keeps: the names of the stacks are allowed and apart, so
are their shortcuts, there are not too many of them, and a stack stays the same one for as long as it
exists. -/

namespace FilterQuery.Stack

def names (entries : List Stack) : List String := entries.map (·.name)

def shortcuts (entries : List Stack) : List Nat := entries.filterMap (·.shortcut)

/-- What holds of stacks that operations alone have made, where there may be `limit` of them. -/
structure IsKept (limit : Nat) (entries : List Stack) : Prop where
  named : ∀ n ∈ names entries, StackName.IsName n
  apart : (names entries).Nodup
  keys : ∀ k ∈ shortcuts entries, 1 ≤ k ∧ k ≤ 9
  keysApart : (shortcuts entries).Nodup
  room : entries.length ≤ limit

section

variable {limit now : Nat} {entries before after : List Stack} {s : Stack} {shortcut : Option Nat}

theorem names_append_cons (before : List Stack) (s : Stack) (after : List Stack) :
    names (before ++ s :: after) = names before ++ s.name :: names after := by
  simp [names]

theorem shortcuts_append_cons (before : List Stack) (s : Stack) (after : List Stack) :
    shortcuts (before ++ s :: after) = shortcuts before ++ (s.shortcut.toList ++ shortcuts after) := by
  cases h : s.shortcut <;> simp [shortcuts, h]

theorem names_release (keep : String) (entries : List Stack) :
    names (release shortcut keep entries) = names entries :=
  map_release (fun _ => rfl) entries

theorem not_mem_names {name : String} (h : ∀ s ∈ entries, s.name ≠ name) : name ∉ names entries := by
  intro hm
  obtain ⟨s, hs, he⟩ := List.mem_map.1 hm
  exact h s hs he

theorem shortcuts_release {keep : String} (h : keep ∉ names entries) :
    shortcuts (release shortcut keep entries)
      = (shortcuts entries).filter fun k => shortcut ≠ some k := by
  rw [shortcuts, shortcuts, release, List.filterMap_map, List.filter_filterMap]
  refine List.filterMap_congr fun s hs => ?_
  have hne : s.name ≠ keep := fun he => h (he ▸ List.mem_map_of_mem hs)
  rw [Function.comp_apply]
  cases hk : s.shortcut with
  | none => cases shortcut <;> simp [holds, hk]
  | some k =>
    by_cases he : shortcut = some k
    · simp [holds, he, hk, hne, Option.filter]
    · have hheld : holds shortcut keep s = false := by simp [holds, hk, Ne.symm he]
      simp [hheld, hk, he, Option.filter]

theorem nodup_toList_append_filter {keys : List Nat} (h : keys.Nodup) :
    (shortcut.toList ++ keys.filter fun k => shortcut ≠ some k).Nodup := by
  cases shortcut with
  | none => simpa using h
  | some n =>
    rw [Option.toList_some, List.singleton_append, List.nodup_cons]
    exact ⟨by simp, h.filter _⟩

theorem isShortcut_iff {n : Nat} : isShortcut n = true ↔ 1 ≤ n ∧ n ≤ 9 := by
  simp [isShortcut]

theorem isKept_nil (limit : Nat) : IsKept limit [] where
  named := nofun
  apart := List.nodup_nil
  keys := nofun
  keysApart := List.nodup_nil
  room := Nat.zero_le limit

theorem IsKept.congr {entries' : List Stack} (h : IsKept limit entries) (hn : names entries' = names entries)
    (hk : shortcuts entries' = shortcuts entries) : IsKept limit entries' where
  named := hn ▸ h.named
  apart := hn ▸ h.apart
  keys := hk ▸ h.keys
  keysApart := hk ▸ h.keysApart
  room := by
    have hlen := congrArg List.length hn
    rw [names, names, List.length_map, List.length_map] at hlen
    exact hlen ▸ h.room

theorem IsKept.of_records {entries' : List Stack} (h : IsKept limit entries)
    (hr : entries'.map (·.toRecord) = entries.map (·.toRecord)) : IsKept limit entries' := by
  have hn := congrArg (List.map (·.name)) hr
  have hk := congrArg (List.filterMap (·.shortcut)) hr
  rw [List.map_map, List.map_map] at hn
  rw [List.filterMap_map, List.filterMap_map] at hk
  exact h.congr hn hk

theorem IsKept.update {s' : Stack} (h : IsKept limit (before ++ s :: after)) (hn : s'.name = s.name)
    (hk : s'.shortcut = s.shortcut) : IsKept limit (before ++ s' :: after) :=
  h.congr (by rw [names_append_cons, names_append_cons, hn])
    (by rw [shortcuts_append_cons, shortcuts_append_cons, hk])

theorem IsKept.sublist {entries' : List Stack} (h : IsKept limit entries) (hs : entries'.Sublist entries) :
    IsKept limit entries' where
  named n hn := h.named n ((hs.map _).subset hn)
  apart := h.apart.sublist (hs.map _)
  keys k hk := h.keys k ((hs.filterMap _).subset hk)
  keysApart := h.keysApart.sublist (hs.filterMap _)
  room := hs.length_le.trans h.room

theorem IsKept.create {draft : Draft} {name : String} (h : IsKept limit entries)
    (hname : StackName.IsName name) (hkey : ∀ n, draft.shortcut = some n → isShortcut n = true)
    (fresh : name ∉ names entries) (hroom : entries.length < limit) :
    IsKept limit (release draft.shortcut name entries ++ [draft.stack name now]) := by
  have hn : names (release draft.shortcut name entries ++ [draft.stack name now])
      = names entries ++ [name] := by
    rw [names_append_cons, names_release]
    rfl
  have hk : shortcuts (release draft.shortcut name entries ++ [draft.stack name now])
      = (shortcuts entries).filter (fun k => draft.shortcut ≠ some k) ++ draft.shortcut.toList := by
    rw [shortcuts_append_cons, shortcuts_release fresh]
    simp [shortcuts, Draft.stack]
  constructor
  case named =>
    rw [hn]
    intro n hm
    rcases List.mem_append.1 hm with hm | hm
    · exact h.named n hm
    · exact List.mem_singleton.1 hm ▸ hname
  case apart =>
    rw [hn, List.nodup_append_comm, List.singleton_append, List.nodup_cons]
    exact ⟨fresh, h.apart⟩
  case keys =>
    rw [hk]
    intro k hm
    rcases List.mem_append.1 hm with hm | hm
    · exact h.keys k (List.mem_of_mem_filter hm)
    · exact isShortcut_iff.1 (hkey k (Option.mem_toList.1 hm))
  case keysApart =>
    rw [hk, List.nodup_append_comm]
    exact nodup_toList_append_filter h.keysApart
  case room =>
    rw [List.length_append, length_release]
    exact hroom

theorem IsKept.rename {s' : Stack} (h : IsKept limit (before ++ s :: after))
    (hname : StackName.IsName s'.name) (hk : s'.shortcut = s.shortcut)
    (fresh : s'.name = s.name ∨ s'.name ∉ names (before ++ s :: after)) :
    IsKept limit (before ++ s' :: after) := by
  rcases fresh with he | fresh
  · exact h.update he hk
  have hkeys : shortcuts (before ++ s' :: after) = shortcuts (before ++ s :: after) := by
    rw [shortcuts_append_cons, shortcuts_append_cons, hk]
  constructor
  case named =>
    intro n hm
    rw [names_append_cons, List.mem_append, List.mem_cons] at hm
    have hnamed := h.named n
    rw [names_append_cons, List.mem_append, List.mem_cons] at hnamed
    rcases hm with hm | rfl | hm
    · exact hnamed (.inl hm)
    · exact hname
    · exact hnamed (.inr (.inr hm))
  case apart =>
    have hapart := h.apart
    rw [names_append_cons, List.nodup_middle, List.nodup_cons] at hapart ⊢
    refine ⟨fun hm => fresh ?_, hapart.2⟩
    rw [names_append_cons]
    exact List.mem_append.2 ((List.mem_append.1 hm).imp_right (List.mem_cons_of_mem _))
  case keys => exact hkeys ▸ h.keys
  case keysApart => exact hkeys ▸ h.keysApart
  case room => simpa using h.room

theorem IsKept.assignShortcut {s' : Stack} (h : IsKept limit (before ++ s :: after))
    (hkey : ∀ n, shortcut = some n → isShortcut n = true) (hn : s'.name = s.name)
    (hk : s'.shortcut = shortcut) :
    IsKept limit (release shortcut s.name before ++ s' :: release shortcut s.name after) := by
  have hnames : names (release shortcut s.name before ++ s' :: release shortcut s.name after)
      = names (before ++ s :: after) := by
    rw [names_append_cons, names_release, names_release, names_append_cons, hn]
  have hapart := h.apart
  rw [names_append_cons, List.nodup_middle, List.nodup_cons, List.mem_append, not_or] at hapart
  have hkeys : (shortcuts (release shortcut s.name before ++ s' :: release shortcut s.name after)).Perm
      (shortcut.toList ++ (shortcuts (before ++ after)).filter fun k => shortcut ≠ some k) := by
    rw [shortcuts_append_cons, shortcuts_release hapart.1.1, shortcuts_release hapart.1.2, hk,
      shortcuts, shortcuts, shortcuts, List.filterMap_append, List.filter_append]
    exact List.perm_append_comm_assoc _ _ _
  have hrest : IsKept limit (before ++ after) :=
    h.sublist ((List.Sublist.refl before).append (List.sublist_cons_self s after))
  constructor
  case named => exact hnames ▸ h.named
  case apart => exact hnames ▸ h.apart
  case keys =>
    intro k hm
    rcases List.mem_append.1 (hkeys.mem_iff.1 hm) with hm | hm
    · exact isShortcut_iff.1 (hkey k (Option.mem_toList.1 hm))
    · exact hrest.keys k (List.mem_of_mem_filter hm)
  case keysApart => exact hkeys.nodup_iff.2 (nodup_toList_append_filter hrest.keysApart)
  case room => simpa [length_release] using h.room

theorem Operation.Makes.isKept {op : Operation} {c : Change} (hm : op.Makes limit now entries c)
    (h : IsKept limit entries) : IsKept limit c.entries := by
  cases hm with
  | create normal allowed key fresh room =>
    exact h.create (normal ▸ StackName.isName_normalize (normal ▸ allowed)) key (not_mem_names fresh) room
  | update named revision => exact h.update rfl rfl
  | rename named normal allowed fresh =>
    exact h.rename (normal ▸ StackName.isName_normalize (normal ▸ allowed)) rfl (fresh.imp_right not_mem_names)
  | delete named => exact h.sublist ((List.Sublist.refl _).append (List.sublist_cons_self _ _))
  | assignShortcut named key => exact h.assignShortcut key rfl rfl
  | recordUsage named => exact h.update rfl rfl
  | markSynced named => exact h.update rfl rfl

/-- The name that the stack of a name has after an operation, if it still exists. -/
def Operation.nameAfter (op : Operation) (name : String) : Option String :=
  match op with
  | .rename origin target =>
    some (if name = StackName.normalize origin then StackName.normalize target else name)
  | .delete gone => if name = StackName.normalize gone then none else some name
  | _ => some name

/-- The name that the stack of a name has after some operations in order. -/
def nameAfterAll (ops : List Operation) (name : String) : Option String :=
  ops.foldlM (fun n op => op.nameAfter n) name

theorem nameAfterAll_concat (ops : List Operation) (op : Operation) (name : String) :
    nameAfterAll (ops ++ [op]) name = (nameAfterAll ops name).bind op.nameAfter := by
  simp [nameAfterAll, List.foldlM_append]

def birth (s : Stack) : String × Int := (s.id, s.createdAt)

def Lives (entries : List Stack) (name : String) (born : String × Int) : Prop :=
  ∃ s ∈ entries, s.name = name ∧ s.birth = born

section

variable {name : String} {born : String × Int}

theorem lives_iff_mem :
    Lives entries name born ↔ (name, born) ∈ entries.map fun s => (s.name, s.birth) := by
  simp [Lives]

theorem Lives.of_records {entries' : List Stack} (h : Lives entries name born)
    (hr : entries'.map (·.toRecord) = entries.map (·.toRecord)) : Lives entries' name born := by
  have hmap := congrArg (List.map fun r => (r.name, r.id, r.createdAt)) hr
  rw [List.map_map, List.map_map] at hmap
  rw [lives_iff_mem] at h ⊢
  exact hmap ▸ h

theorem lives_release {keep : String} :
    Lives (release shortcut keep entries) name born ↔ Lives entries name born := by
  rw [lives_iff_mem, lives_iff_mem, map_release fun _ => rfl]

theorem lives_append :
    Lives (before ++ after) name born ↔ Lives before name born ∨ Lives after name born := by
  simp [Lives, or_and_right, exists_or]

theorem lives_append_cons : Lives (before ++ s :: after) name born ↔
    Lives before name born ∨ (s.name = name ∧ s.birth = born) ∨ Lives after name born := by
  simp [Lives, or_and_right, exists_or]

theorem Lives.mem_names (h : Lives entries name born) : name ∈ names entries := by
  obtain ⟨s, hs, rfl, -⟩ := h
  exact List.mem_map_of_mem hs

theorem Lives.update {s' : Stack} (h : Lives (before ++ s :: after) name born) (hn : s'.name = s.name)
    (hborn : s'.birth = s.birth) : Lives (before ++ s' :: after) name born := by
  rw [lives_append_cons] at h ⊢
  rwa [hn, hborn]

theorem Operation.Makes.lives {op : Operation} {c : Change} (hm : op.Makes limit now entries c)
    (hapart : (names entries).Nodup) {n : String} (hn : op.nameAfter name = some n)
    (h : Lives entries name born) : Lives c.entries n born := by
  cases hm with
  | create normal allowed key fresh room =>
    cases hn
    exact lives_append_cons.2 (.inl (lives_release.2 h))
  | update named revision =>
    cases hn
    exact h.update rfl rfl
  | @rename before s after origin target renamed named normal allowed fresh =>
    rw [names_append_cons, List.nodup_middle, List.nodup_cons, List.mem_append, not_or] at hapart
    have hn := Option.some.inj hn
    rw [← named, ← normal] at hn
    refine lives_append_cons.2 ((lives_append_cons.1 h).imp ?_ (Or.imp ?_ ?_))
    · intro h
      have hne : name ≠ s.name := fun he => hapart.1.1 (he ▸ h.mem_names)
      rwa [← hn, if_neg hne]
    · rintro ⟨he, hborn⟩
      rw [if_pos he.symm] at hn
      exact ⟨hn, hborn⟩
    · intro h
      have hne : name ≠ s.name := fun he => hapart.1.2 (he ▸ h.mem_names)
      rwa [← hn, if_neg hne]
  | delete named =>
    rw [nameAfter, ← named] at hn
    split at hn
    · cases hn
    · next hne =>
      cases hn
      rcases lives_append_cons.1 h with h | ⟨he, -⟩ | h
      · exact lives_append.2 (.inl h)
      · exact absurd he.symm hne
      · exact lives_append.2 (.inr h)
  | assignShortcut named key =>
    cases hn
    refine lives_append_cons.2 ((lives_append_cons.1 h).imp lives_release.2 (Or.imp_right lives_release.2))
  | recordUsage named =>
    cases hn
    exact h.update rfl rfl
  | markSynced named =>
    cases hn
    exact h.update rfl rfl

end

end

end FilterQuery.Stack

namespace FilterQuery.Store

open Stack

inductive Idle : Store → Store → Prop
  | refused {s : Store} {op : Operation} {r : Refusal} (h : s.perform op = .error r) : Idle s s
  | subscribed (s : Store) : Idle s s.subscribe.1
  | unsubscribed (s : Store) (listener : Nat) : Idle s (s.unsubscribe listener)
  | elsewhere (s : Store) (storage : Storage) (clock : Nat) :
      Idle s { s with storage := storage, clock := clock }

/-- How a store comes from one to another, with the operations that take place on the way. -/
inductive Run : Store → List Operation → Store → Prop
  | refl (s : Store) : Run s [] s
  | performed {s s' s'' : Store} {ops : List Operation} {op : Operation} {result : Option Stack}
      (run : Run s ops s') (h : s'.perform op = .ok (s'', result)) : Run s (ops ++ [op]) s''
  | idle {s s' s'' : Store} {ops : List Operation} (run : Run s ops s') (h : Idle s' s'') : Run s ops s''

variable {s s' s₀ : Store}

theorem Idle.entries (h : Idle s s') : s'.entries = s.entries := by cases h <;> rfl

theorem Idle.maxStacks (h : Idle s s') : s'.maxStacks = s.maxStacks := by cases h <;> rfl

theorem Idle.maxDepth (h : Idle s s') : s'.maxDepth = s.maxDepth := by cases h <;> rfl

theorem Run.maxStacks {ops : List Operation} (run : Run s ops s') : s'.maxStacks = s.maxStacks := by
  induction run with
  | refl => rfl
  | performed run h ih =>
    obtain ⟨c, entries, storage, -, -, -, -, rfl⟩ := perform_eq_ok h
    exact ih
  | idle run h ih => exact h.maxStacks.trans ih

theorem isKept_of_perform {op : Operation} {result : Option Stack} (h : s.perform op = .ok (s', result))
    (hs : IsKept s.maxStacks s.entries) : IsKept s.maxStacks s'.entries := by
  obtain ⟨c, entries, storage, hm, hsettle, -, -, rfl⟩ := perform_eq_ok h
  exact (hm.isKept hs).of_records (records_of_settle hsettle)

theorem lives_of_perform {op : Operation} {result : Option Stack} (h : s.perform op = .ok (s', result))
    (hapart : (names s.entries).Nodup) {name n : String} {born : String × Int}
    (hn : op.nameAfter name = some n) (hs : Lives s.entries name born) : Lives s'.entries n born := by
  obtain ⟨c, entries, storage, hm, hsettle, -, -, rfl⟩ := perform_eq_ok h
  exact (hm.lives hapart hn hs).of_records (records_of_settle hsettle)

theorem Run.isKept {ops : List Operation} (run : Run s ops s') (hs : IsKept s.maxStacks s.entries) :
    IsKept s.maxStacks s'.entries := by
  induction run with
  | refl => exact hs
  | performed run h ih => exact run.maxStacks ▸ isKept_of_perform h (run.maxStacks.symm ▸ ih)
  | idle run h ih => exact h.entries ▸ ih

theorem Run.lives {ops : List Operation} (run : Run s ops s') (hs : IsKept s.maxStacks s.entries)
    {name n : String} {born : String × Int} (hn : nameAfterAll ops name = some n)
    (h : Lives s.entries name born) : Lives s'.entries n born := by
  induction run generalizing n with
  | refl =>
    cases hn
    exact h
  | performed run hp ih =>
    rw [nameAfterAll_concat] at hn
    obtain ⟨m, hm, hn⟩ := Option.bind_eq_some_iff.1 hn
    exact lives_of_perform hp (run.isKept hs).apart hn (ih hm)
  | idle run hi ih => exact hi.entries ▸ ih hn

/-- A run from an empty store keeps the stacks in order, and each stack, followed by its name, keeps its
identifier and its time of creation for as long as it exists. -/
theorem kept_of_run {past : List Operation} (empty : s₀.entries = []) (run : Run s₀ past s) :
    IsKept s₀.maxStacks s.entries ∧
      ∀ ops s', Run s ops s' → ∀ t ∈ s.entries, ∀ n, nameAfterAll ops t.name = some n →
        ∃ t' ∈ s'.entries, t'.name = n ∧ t'.id = t.id ∧ t'.createdAt = t.createdAt := by
  have hkept := run.isKept (empty ▸ isKept_nil s₀.maxStacks)
  refine ⟨hkept, fun ops s' rest t ht n hn => ?_⟩
  obtain ⟨t', ht', hname, hborn⟩ := rest.lives (run.maxStacks.symm ▸ hkept) hn ⟨t, ht, rfl, rfl⟩
  exact ⟨t', ht', hname, congrArg Prod.fst hborn, congrArg Prod.snd hborn⟩

theorem kept_of_run_rename :
    ∃ s s', Run ⟨[], .empty .memory, [], 0, [], 0, 1, 3⟩ [.create ⟨"@To Do", "x", none, none, some 1⟩] s ∧
      Run s [.rename "to do" "Later"] s' ∧ IsKept 1 s.entries ∧ names s.entries = ["to-do"] ∧
      ∃ t ∈ s.entries, ∃ t' ∈ s'.entries, t'.name = "later" ∧ t'.id = t.id ∧ t'.createdAt = t.createdAt := by
  have h : (perform ⟨[], .empty .memory, [], 0, [], 0, 1, 3⟩
      (.create ⟨"@To Do", "x", none, none, some 1⟩) >>= fun r =>
        (r.1.perform (.rename "to do" "Later")).map fun _ => names r.1.entries) = .ok ["to-do"] := by
    decide +kernel
  obtain ⟨⟨s, t⟩, hs, h⟩ := bind_eq_ok h
  dsimp only at h
  cases hr : s.perform (.rename "to do" "Later") with
  | error r => rw [hr] at h; cases h
  | ok r =>
    rw [hr] at h
    have hnames : names s.entries = ["to-do"] := Except.ok.inj h
    have run := Run.performed (.refl _) hs
    have rest := Run.performed (.refl s) hr
    obtain ⟨hkept, hlives⟩ := kept_of_run rfl run
    obtain ⟨u, hu, hname⟩ : ∃ u ∈ s.entries, u.name = "to-do" :=
      List.mem_map.1 (hnames ▸ List.mem_singleton.2 rfl : "to-do" ∈ names s.entries)
    exact ⟨s, r.1, run, rest, hkept, hnames, u, hu, hlives _ _ rest u hu "later" (hname ▸ by decide +kernel)⟩

end FilterQuery.Store
