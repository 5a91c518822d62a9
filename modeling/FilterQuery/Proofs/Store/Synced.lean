import FilterQuery.Proofs.Store.Run

namespace FilterQuery.Stack

def Operation.sought : Operation → Option String
  | .create _ => none
  | .rename origin _ => some (StackName.normalize origin)
  | .update name _ | .delete name | .assignShortcut name _ | .recordUsage name | .markSynced name =>
    some (StackName.normalize name)

/-- Whether an operation is about the stack at a place. -/
def Operation.IsAbout (op : Operation) (entries : List Stack) (i : Nat) : Prop :=
  ∃ name ∈ op.sought, position entries name = .ok i

def Operation.place (op : Operation) (entries : List Stack) (i : Nat) : Option Nat :=
  match op with
  | .delete name => match position entries (StackName.normalize name) with
    | .ok j => if i = j then none else some (if i < j then i else i - 1)
    | .error _ => some i
  | _ => some i

def Operation.turn (op : Operation) (now : Nat) (s : Stack) : Stack :=
  match op with
  | .create _ | .delete _ => s
  | .update _ revision => revision.apply now s
  | .rename _ target => { s.touch now with name := StackName.normalize target }
  | .assignShortcut _ shortcut => { s.touch now with shortcut := shortcut }
  | .recordUsage _ => { s with lastUsed := some (now : Int) }
  | .markSynced _ => { s with synced := true }

def Operation.IsUse (op : Operation) : Prop := ∃ name, op = .recordUsage name

def Record.Spared (r r' : Record) : Prop := r' = r ∨ r' = { r with shortcut := none, synced := false }

section

variable {limit now i j : Nat} {entries : List Stack} {s : Stack} {op : Operation} {c : Change}

theorem name_of_position {name : String} (h : position entries name = .ok i) (hs : entries[i]? = some s) :
    s.name = name := by
  obtain ⟨before, t, after, rfl, rfl, ht⟩ := position_eq_ok h
  rw [List.getElem?_append_right (Nat.le_refl _), Nat.sub_self] at hs
  cases hs
  exact ht

theorem getElem?_release (shortcut : Option Nat) (keep : String) (entries : List Stack) (i : Nat) :
    (release shortcut keep entries)[i]? = entries[i]?.map fun s =>
      if holds shortcut keep s then { s with shortcut := none, synced := false } else s :=
  List.getElem?_map

theorem spared_release (shortcut : Option Nat) (keep : String) (s : Stack) : s.toRecord.Spared
    (if holds shortcut keep s then { s with shortcut := none, synced := false } else s).toRecord := by
  split
  · exact .inr rfl
  · exact .inl rfl

theorem isAbout_iff {name : String} {k : Nat} (hname : op.sought = some name)
    (hk : position entries name = .ok k) : op.IsAbout entries i ↔ k = i := by
  constructor
  · rintro ⟨n, hn, hi⟩
    cases hname.symm.trans hn
    exact Except.ok.inj (hk.symm.trans hi)
  · rintro rfl
    exact ⟨name, hname, hk⟩

theorem turned_of_modify (op : Operation) {name : String} {k : Nat} {others : List Stack} {s' : Stack}
    (hname : op.sought = some name) (hk : position entries name = .ok k) (hs : others[i]? = some s')
    (hspared : s.toRecord.Spared s'.toRecord) (hsame : k = i → s' = s) :
    ∃ t, (others.modify k (op.turn now))[i]? = some t ∧ (op.IsAbout entries i → t = op.turn now s) ∧
      (¬op.IsAbout entries i → s.toRecord.Spared t.toRecord) := by
  rw [List.getElem?_modify, hs, isAbout_iff hname hk]
  by_cases hi : k = i
  · exact ⟨op.turn now s', by simp [hi], fun _ => hsame hi ▸ rfl, fun h => absurd hi h⟩
  · exact ⟨s', by simp [hi], fun h => absurd h hi, fun _ => hspared⟩

theorem turned_of_change (h : op.change limit now entries = .ok c) (hs : entries[i]? = some s)
    (hj : op.place entries i = some j) : ∃ t, c.entries[j]? = some t ∧
      (op.IsAbout entries i → t = op.turn now s) ∧ (¬op.IsAbout entries i → s.toRecord.Spared t.toRecord) := by
  cases op with
  | create draft =>
    obtain ⟨name, -, h⟩ := bind_eq_ok h
    obtain ⟨shortcut, -, h⟩ := bind_eq_ok h
    cases hj
    split at h
    · cases h
    split at h
    · cases h
    cases h
    -- The new stack goes to the end, so all others keep their places.
    have hi : i < (release shortcut name entries).length :=
      length_release entries ▸ (List.getElem?_eq_some_iff.1 hs).1
    refine ⟨_, ?_, nofun, fun _ => spared_release shortcut name s⟩
    rw [List.getElem?_append_left hi, getElem?_release, hs]
    rfl
  | delete name =>
    obtain ⟨k, hk, h⟩ := bind_eq_ok h
    cases h
    rw [Operation.place, hk] at hj
    dsimp only at hj
    split at hj
    · cases hj
    · next hne =>
      cases hj
      refine ⟨s, ?_, fun ⟨n, hn, hp⟩ => ?_, fun _ => .inl rfl⟩
      · rw [List.getElem?_eraseIdx, ← hs]
        by_cases hlt : i < k
        · rw [if_pos hlt, if_pos hlt]
        · rw [if_neg hlt, if_neg (by omega), Nat.sub_add_cancel (by omega)]
      · cases hn
        exact absurd (Except.ok.inj (hp.symm.trans hk)) hne
  | update name revision =>
    obtain ⟨k, hk, h⟩ := bind_eq_ok h
    cases h
    cases hj
    exact turned_of_modify (.update name revision) rfl hk hs (.inl rfl) fun _ => rfl
  | rename origin target =>
    obtain ⟨name, hname, h⟩ := bind_eq_ok h
    obtain ⟨k, hk, h⟩ := bind_eq_ok h
    obtain ⟨rfl, -⟩ := allowedName_eq_ok hname
    split at h
    · cases h
    cases h
    cases hj
    exact turned_of_modify (.rename origin target) rfl hk hs (.inl rfl) fun _ => rfl
  | assignShortcut name shortcut =>
    obtain ⟨key, hkey, h⟩ := bind_eq_ok h
    obtain ⟨k, hk, h⟩ := bind_eq_ok h
    cases h
    cases hj
    obtain ⟨rfl, -⟩ := allowedShortcut_eq_ok hkey
    refine turned_of_modify (.assignShortcut name key) rfl hk ?_ (spared_release key (StackName.normalize name) s) ?_
    · rw [getElem?_release, hs]
      rfl
    · -- The stack that gets the shortcut is not one that it is taken from.
      rintro rfl
      rw [holds, name_of_position hk hs, bne_self_eq_false, Bool.and_false]
      rfl
  | recordUsage name =>
    obtain ⟨k, hk, h⟩ := bind_eq_ok h
    cases h
    cases hj
    exact turned_of_modify (.recordUsage name) rfl hk hs (.inl rfl) fun _ => rfl
  | markSynced name =>
    obtain ⟨k, hk, h⟩ := bind_eq_ok h
    cases h
    cases hj
    exact turned_of_modify (.markSynced name) rfl hk hs (.inl rfl) fun _ => rfl

theorem exists_place (h : op.change limit now entries = .ok c) (hj : j < c.entries.length) :
    (∃ i < entries.length, op.place entries i = some j) ∨
      ∃ draft, op = .create draft ∧ j = entries.length := by
  cases op with
  | create draft =>
    obtain ⟨name, -, h⟩ := bind_eq_ok h
    obtain ⟨shortcut, -, h⟩ := bind_eq_ok h
    split at h
    · cases h
    split at h
    · cases h
    cases h
    rw [List.length_append, length_release, List.length_singleton] at hj
    rcases Nat.lt_or_ge j entries.length with hlt | hge
    · exact .inl ⟨j, hlt, rfl⟩
    · exact .inr ⟨draft, rfl, by omega⟩
  | delete name =>
    obtain ⟨k, hk, h⟩ := bind_eq_ok h
    cases h
    rw [List.length_eraseIdx] at hj
    have hstood : ∀ i, i ≠ k → Operation.place (.delete name) entries i = some (if i < k then i else i - 1) := by
      intro i hi
      rw [Operation.place, hk]
      exact if_neg hi
    refine .inl ?_
    by_cases hlt : j < k
    · refine ⟨j, by split at hj <;> omega, ?_⟩
      rw [hstood j (by omega), if_pos hlt]
    · refine ⟨j + 1, ?_, ?_⟩
      · obtain ⟨before, t, after, rfl, rfl, -⟩ := position_eq_ok hk
        simp only [List.length_append, List.length_cons] at hj ⊢
        split at hj <;> omega
      · rw [hstood (j + 1) (by omega), if_neg (by omega), Nat.add_sub_cancel]
  | update | rename | assignShortcut | recordUsage | markSynced =>
    have hlength : c.entries.length = entries.length := by
      cases Operation.makes_of_change h
      simp [length_release]
    exact .inl ⟨j, hlength ▸ hj, rfl⟩

end

end FilterQuery.Stack

namespace FilterQuery.Store

open Stack

/-- A stack followed through what happens to the store: where it stands before and behind it, and the operations on
the way that are about it. -/
inductive Follows : Store → Nat → List Operation → Store → Nat → Prop
  | refl (s : Store) (i : Nat) : Follows s i [] s i
  | about {s s' s'' : Store} {i j k : Nat} {ops : List Operation} {op : Operation} {result : Option Stack}
      (life : Follows s i ops s' j) (h : s'.perform op = .ok (s'', result)) (hop : op.IsAbout s'.entries j)
      (stays : op.place s'.entries j = some k) : Follows s i (ops ++ [op]) s'' k
  | beside {s s' s'' : Store} {i j k : Nat} {ops : List Operation} {op : Operation} {result : Option Stack}
      (life : Follows s i ops s' j) (h : s'.perform op = .ok (s'', result)) (hop : ¬op.IsAbout s'.entries j)
      (stays : op.place s'.entries j = some k) : Follows s i ops s'' k
  | idle {s s' s'' : Store} {i j : Nat} {ops : List Operation} (life : Follows s i ops s' j) (h : Idle s' s'') :
      Follows s i ops s'' j

/-- What is said of a stack that is followed: where it is synced at the end it was so at the beginning, it has only
been used meanwhile, and nothing else is kept of it than before but when it was used. -/
structure Intact (r : Record) (ops : List Operation) (r' : Record) : Prop where
  synced : r.synced = true
  used : ∀ op ∈ ops, op.IsUse
  same : r' = { r with lastUsed := r'.lastUsed }
  lastUsed : ops = [] → r'.lastUsed = r.lastUsed

variable {s s' s₀ : Store} {i j : Nat} {op : Operation} {t t' : Stack}

theorem turned_of_perform {result : Option Stack} (h : s.perform op = .ok (s', result))
    (ht : s.entries[i]? = some t) (hj : op.place s.entries i = some j) : ∃ t', s'.entries[j]? = some t' ∧
      (op.IsAbout s.entries i → t'.toRecord = (op.turn s.clock t).toRecord) ∧
      (¬op.IsAbout s.entries i → t.toRecord.Spared t'.toRecord) := by
  obtain ⟨c, hc, h⟩ := bind_eq_ok h
  obtain ⟨entries, hentries, h⟩ := bind_eq_ok h
  obtain ⟨storage, -, h⟩ := bind_eq_ok h
  cases h
  obtain ⟨u, hu, hturn, hspare⟩ := turned_of_change hc ht hj
  have hrecord : entries[j]?.map (·.toRecord) = some u.toRecord := by
    rw [← List.getElem?_map, records_of_settle hentries, List.getElem?_map, hu]
    rfl
  obtain ⟨t', ht', he⟩ := Option.map_eq_some_iff.1 hrecord
  exact ⟨t', ht', fun hop => he.trans (congrArg _ (hturn hop)), fun hop => he ▸ hspare hop⟩

theorem Follows.getElem? {ops : List Operation} (life : Follows s i ops s' j) (ht : s.entries[i]? = some t) :
    ∃ t', s'.entries[j]? = some t' := by
  induction life with
  | refl => exact ⟨t, ht⟩
  | about life h hop stays ih | beside life h hop stays ih =>
    obtain ⟨u, hu⟩ := ih ht
    exact (turned_of_perform h hu stays).imp fun _ => And.left
  | idle life h ih => exact h.entries ▸ ih ht

theorem Intact.used_again {r r' r'' : Record} {ops : List Operation} (h : Intact r ops r') (hop : op.IsUse)
    (hsame : r'' = { r' with lastUsed := r''.lastUsed }) : Intact r (ops ++ [op]) r'' where
  synced := h.synced
  used := List.forall_mem_append.2 ⟨h.used, List.forall_mem_singleton.2 hop⟩
  same := by rw [hsame, h.same]
  lastUsed he := absurd he (List.append_ne_nil_of_right_ne_nil _ (List.cons_ne_nil _ _))

theorem use_of_synced {now : Nat} (hop : op.IsAbout s.entries i) (hstays : op.place s.entries i = some j)
    (hmark : ∀ name, op ≠ .markSynced name) (h : (op.turn now t).synced = true) :
    op.IsUse ∧ t.synced = true ∧
      (op.turn now t).toRecord = { t.toRecord with lastUsed := (op.turn now t).lastUsed } := by
  cases op with
  | recordUsage name => exact ⟨⟨name, rfl⟩, h, rfl⟩
  | markSynced name => exact absurd rfl (hmark name)
  | update | rename | assignShortcut => cases h
  | create =>
    obtain ⟨_, hname, -⟩ := hop
    cases hname
  | delete name =>
    obtain ⟨_, hname, hi⟩ := hop
    cases hname
    rw [Operation.place, hi] at hstays
    simp at hstays

theorem Follows.intact {ops : List Operation} (life : Follows s i ops s' j)
    (unmarked : ∀ name, .markSynced name ∉ ops) (ht : s.entries[i]? = some t) (ht' : s'.entries[j]? = some t')
    (synced : t'.synced = true) : Intact t.toRecord ops t'.toRecord := by
  induction life generalizing t' with
  | refl =>
    cases ht.symm.trans ht'
    exact ⟨synced, fun _ h => absurd h List.not_mem_nil, rfl, fun _ => rfl⟩
  | about life h hop stays ih =>
    obtain ⟨u, hu⟩ := life.getElem? ht
    obtain ⟨v, hv, hturn, -⟩ := turned_of_perform h hu stays
    cases hv.symm.trans ht'
    have hrecord := hturn hop
    have hmark : ∀ name, _ ≠ Operation.markSynced name := fun name he =>
      unmarked name (List.mem_append_right _ (he ▸ List.mem_singleton_self _))
    obtain ⟨huse, hsynced, hsame⟩ := use_of_synced hop stays hmark (congrArg Record.synced hrecord ▸ synced)
    have hbefore := ih (fun name hn => unmarked name (List.mem_append_left _ hn)) ht hu hsynced
    exact hbefore.used_again huse (hrecord ▸ hsame)
  | beside life h hop stays ih =>
    obtain ⟨u, hu⟩ := life.getElem? ht
    obtain ⟨v, hv, -, hspare⟩ := turned_of_perform h hu stays
    cases hv.symm.trans ht'
    rcases hspare hop with he | he
    · rw [he] at synced ⊢
      exact ih unmarked ht hu synced
    · rw [he] at synced
      cases synced
  | idle life h ih => exact ih unmarked ht (h.entries ▸ ht') synced

inductive Origin (s₀ : Store) : Store → Nat → Prop
  | start (i : Nat) : Origin s₀ s₀ i
  | created {s s' : Store} {past : List Operation} {draft : Draft} {result : Option Stack} (run : Run s₀ past s)
      (h : s.perform (.create draft) = .ok (s', result)) : Origin s₀ s' s.entries.length
  | marked {s s' : Store} {past : List Operation} {name : String} {result : Option Stack} {i : Nat}
      (run : Run s₀ past s) (h : s.perform (.markSynced name) = .ok (s', result))
      (hi : (Operation.markSynced name).IsAbout s.entries i) : Origin s₀ s' i

theorem Run.origin {past : List Operation} (run : Run s₀ past s) (hj : j < s.entries.length) :
    ∃ s₁ i ops, Origin s₀ s₁ i ∧ Follows s₁ i ops s j ∧ ∀ name, .markSynced name ∉ ops := by
  induction run generalizing j with
  | refl => exact ⟨s₀, j, [], .start j, .refl s₀ j, fun _ => List.not_mem_nil⟩
  | @performed s s' past op result run h ih =>
    obtain ⟨c, hc, h'⟩ := bind_eq_ok h
    obtain ⟨entries, hentries, h'⟩ := bind_eq_ok h'
    obtain ⟨storage, -, h'⟩ := bind_eq_ok h'
    have hlength : s'.entries.length = c.entries.length := by
      cases h'
      simpa using congrArg List.length (records_of_settle hentries)
    rcases exists_place hc (hlength ▸ hj) with ⟨i, hi, hplace⟩ | ⟨draft, rfl, rfl⟩
    · obtain ⟨s₁, k, ops, origin, life, unmarked⟩ := ih hi
      -- A mark begins the story again; any other operation goes on with it.
      by_cases hop : op.IsAbout s.entries i
      · by_cases hmark : ∃ name, op = .markSynced name
        · obtain ⟨name, rfl⟩ := hmark
          cases hplace
          exact ⟨s', _, [], .marked run h hop, .refl s' _, fun _ => List.not_mem_nil⟩
        · refine ⟨s₁, k, _, origin, life.about h hop hplace, fun name hn => ?_⟩
          rcases List.mem_append.1 hn with hn | hn
          · exact unmarked name hn
          · exact hmark ⟨name, (List.mem_singleton.1 hn).symm⟩
      · exact ⟨s₁, k, ops, origin, life.beside h hop hplace, unmarked⟩
    · exact ⟨s', _, [], .created run h, .refl s' _, fun _ => List.not_mem_nil⟩
  | idle run h ih =>
    obtain ⟨s₁, i, ops, origin, life, unmarked⟩ := ih (h.entries ▸ hj)
    exact ⟨s₁, i, ops, origin, life.idle h, unmarked⟩

theorem created_of_perform {draft : Draft} {result : Option Stack}
    (h : s.perform (.create draft) = .ok (s', result)) :
    ∃ t, s'.entries[s.entries.length]? = some t ∧ t.synced = false := by
  obtain ⟨c, hc, h⟩ := bind_eq_ok h
  obtain ⟨entries, hentries, h⟩ := bind_eq_ok h
  obtain ⟨storage, -, h⟩ := bind_eq_ok h
  cases h
  obtain ⟨name, -, hc⟩ := bind_eq_ok hc
  obtain ⟨shortcut, -, hc⟩ := bind_eq_ok hc
  split at hc
  · cases hc
  split at hc
  · cases hc
  cases hc
  have hrecord : entries[s.entries.length]?.map (·.toRecord) = some (draft.stack name s.clock).toRecord := by
    rw [← List.getElem?_map, records_of_settle hentries, List.getElem?_map, ← length_release s.entries,
      List.getElem?_concat_length]
    rfl
  obtain ⟨t, ht, he⟩ := Option.map_eq_some_iff.1 hrecord
  exact ⟨t, ht, congrArg Record.synced he⟩

/-- In a run, a stack that is synced has been marked, unless it was there as synced when the run began, and from
then on, or from any later moment, it has only been used, and nothing that is kept of it has changed but when it was
used. -/
theorem intact_of_run {past : List Operation} (run : Run s₀ past s) (ht : s.entries[j]? = some t)
    (synced : t.synced = true) :
    (∃ s₁ i ops, Follows s₁ i ops s j ∧ (∀ name, .markSynced name ∉ ops) ∧
      (s₁ = s₀ ∨ ∃ s₂ before name result, Run s₀ before s₂ ∧
        s₂.perform (.markSynced name) = .ok (s₁, result) ∧ (Operation.markSynced name).IsAbout s₂.entries i)) ∧
    ∀ s₁ i ops t₁, Follows s₁ i ops s j → (∀ name, .markSynced name ∉ ops) → s₁.entries[i]? = some t₁ →
      Intact t₁.toRecord ops t.toRecord := by
  refine ⟨?_, fun s₁ i ops t₁ life unmarked ht₁ => life.intact unmarked ht₁ ht synced⟩
  obtain ⟨s₁, i, ops, origin, life, unmarked⟩ := run.origin (List.getElem?_eq_some_iff.1 ht).1
  refine ⟨s₁, i, ops, life, unmarked, ?_⟩
  cases origin with
  | start => exact .inl rfl
  | marked before h hi => exact .inr ⟨_, _, _, _, before, h, hi⟩
  | created before h =>
    obtain ⟨t₁, ht₁, hnew⟩ := created_of_perform h
    have hsynced := (life.intact unmarked ht₁ ht synced).synced
    rw [hnew] at hsynced
    cases hsynced

theorem intact_of_run_beside :
    ∃ s₀ s t, openOn (.empty .memory) .standard 0 = .ok s₀ ∧
      Run s₀ [.create ⟨"a", "x", none, none, none⟩, .markSynced "a", .create ⟨"b", "y", none, none, none⟩] s ∧
      s.entries[0]? = some t ∧ t.synced = true ∧
      ∀ s₁ i ops t₁, Follows s₁ i ops s 0 → (∀ name, .markSynced name ∉ ops) → s₁.entries[i]? = some t₁ →
        Intact t₁.toRecord ops t.toRecord := by
  have h : (openOn (.empty .memory) .standard 0 >>= fun s₀ =>
      s₀.perform (.create ⟨"a", "x", none, none, none⟩) >>= fun r₁ => r₁.1.perform (.markSynced "a") >>= fun r₂ =>
        r₂.1.perform (.create ⟨"b", "y", none, none, none⟩) >>= fun r₃ => .ok (r₃.1.entries.map (·.synced))) =
      .ok [true, false] := by
    decide +kernel
  obtain ⟨s₀, opened, h⟩ := bind_eq_ok h
  obtain ⟨r₁, h₁, h⟩ := bind_eq_ok h
  obtain ⟨r₂, h₂, h⟩ := bind_eq_ok h
  obtain ⟨r₃, h₃, h⟩ := bind_eq_ok h
  obtain ⟨t, rest, ht, hsynced, -⟩ := List.map_eq_cons_iff.1 (Except.ok.inj h)
  have run := (((Run.refl s₀).performed h₁).performed h₂).performed h₃
  have hfirst : r₃.1.entries[0]? = some t := by rw [ht]; rfl
  exact ⟨s₀, r₃.1, t, opened, run, hfirst, hsynced, (intact_of_run run hfirst hsynced).2⟩

theorem synced_after_use :
    ∃ s₀ s₁ s₂ s₃ result t t', openOn (.empty .memory) .standard 0 = .ok s₀ ∧
      Run s₀ [.create ⟨"a", "x", none, none, none⟩] s₁ ∧ s₁.perform (.markSynced "a") = .ok (s₂, result) ∧
      Follows s₂ 0 [.recordUsage "a"] s₃ 0 ∧ s₂.entries[0]? = some t ∧ s₃.entries[0]? = some t' ∧
      t'.synced = true ∧ t.lastUsed = none ∧ t'.lastUsed = some 2 := by
  have h : (openOn (.empty .memory) .standard 0 >>= fun s₀ =>
      s₀.perform (.create ⟨"a", "x", none, none, none⟩) >>= fun r₁ => r₁.1.perform (.markSynced "a") >>= fun r₂ =>
        r₂.1.perform (.recordUsage "a") >>= fun r₃ =>
          .ok (r₂.1.entries.map fun t => (t.name, t.lastUsed), r₃.1.entries.map fun t => (t.synced, t.lastUsed))) =
      .ok ([("a", none)], [(true, some 2)]) := by
    decide +kernel
  obtain ⟨s₀, opened, h⟩ := bind_eq_ok h
  obtain ⟨r₁, h₁, h⟩ := bind_eq_ok h
  obtain ⟨⟨s₂, result⟩, h₂, h⟩ := bind_eq_ok h
  obtain ⟨r₃, h₃, h⟩ := bind_eq_ok h
  obtain ⟨hbefore, hafter⟩ := Prod.mk.inj (Except.ok.inj h)
  obtain ⟨t, ht, hrecord⟩ := List.map_eq_singleton_iff.1 hbefore
  obtain ⟨t', ht', hrecord'⟩ := List.map_eq_singleton_iff.1 hafter
  obtain ⟨hname, hunused⟩ := Prod.mk.inj hrecord
  obtain ⟨hsynced, hused⟩ := Prod.mk.inj hrecord'
  dsimp only at ht h₃
  have hfirst : (Operation.recordUsage "a").IsAbout s₂.entries 0 := by
    refine ⟨"a", by decide +kernel, ?_⟩
    rw [ht, position]
    simp [hname]
  exact ⟨s₀, r₁.1, s₂, r₃.1, result, t, t', opened, .performed (.refl s₀) h₁, h₂,
    .about (.refl s₂ 0) h₃ hfirst rfl, by rw [ht]; rfl, by rw [ht']; rfl, hsynced, hunused, hused⟩

end FilterQuery.Store
