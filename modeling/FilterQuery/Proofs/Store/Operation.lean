import FilterQuery.Proofs.Expansion
import FilterQuery.Proofs.StackName
import FilterQuery.Store

namespace FilterQuery.Stack

section

variable {α : Type} {f : Stack → α} {shortcut : Option Nat} {keep : String}

theorem map_release (hf : ∀ s : Stack, f { s with shortcut := none, synced := false } = f s)
    (entries : List Stack) : (release shortcut keep entries).map f = entries.map f := by
  rw [release, List.map_map]
  refine List.map_congr_left fun s _ => ?_
  rw [Function.comp_apply]
  split
  · exact hf s
  · rfl

theorem release_of_name {s : Stack} (h : s.name = keep) (before after : List Stack) :
    release shortcut keep (before ++ s :: after)
      = release shortcut keep before ++ s :: release shortcut keep after := by
  simp [release, holds, h]

theorem length_release (entries : List Stack) :
    (release shortcut keep entries).length = entries.length :=
  List.length_map _

end

theorem position_eq_ok {entries : List Stack} {name : String} {i : Nat}
    (h : position entries name = .ok i) :
    ∃ before s after, entries = before ++ s :: after ∧ before.length = i ∧ s.name = name := by
  unfold position at h
  split at h
  · next j hj =>
    cases h
    rw [List.findIdx?_eq_some_iff_getElem] at hj
    obtain ⟨hlt, hname, -⟩ := hj
    refine ⟨entries.take i, entries[i], entries.drop (i + 1), ?_, ?_, by simpa using hname⟩
    · rw [List.getElem_cons_drop, List.take_append_drop]
    · rw [List.length_take]
      omega
  · cases h

theorem modify_length_append {α : Type} (f : α → α) (before : List α) (s : α) (after : List α) :
    (before ++ s :: after).modify before.length f = before ++ f s :: after := by
  induction before with
  | nil => rfl
  | cons b before ih => rw [List.cons_append, List.length_cons, List.modify_succ_cons, ih]; rfl

theorem eraseIdx_length_append {α : Type} (before : List α) (s : α) (after : List α) :
    (before ++ s :: after).eraseIdx before.length = before ++ after := by
  induction before with
  | nil => rfl
  | cons b before ih => rw [List.cons_append, List.length_cons, List.eraseIdx_cons_succ, ih]; rfl

theorem allowedName_eq_ok {name n : String} (h : allowedName name = .ok n) :
    n = StackName.normalize name ∧ StackName.isAllowed n = true := by
  unfold allowedName at h
  split at h
  · next m hm =>
    cases h
    exact StackName.valid?_eq_some_iff.1 hm
  · cases h

theorem allowedShortcut_eq_ok {k l : Option Nat} (h : allowedShortcut k = .ok l) :
    l = k ∧ ∀ n, k = some n → isShortcut n = true := by
  unfold allowedShortcut at h
  split at h
  · cases h
    exact ⟨rfl, nofun⟩
  · next n =>
    split at h
    · next hn =>
      cases h
      exact ⟨rfl, fun m hm => Option.some.inj hm ▸ hn⟩
    · cases h

inductive Operation.Makes (limit now : Nat) : List Stack → Operation → Change → Prop
  | create {entries : List Stack} {draft : Draft} {name : String}
      (normal : name = StackName.normalize draft.name) (allowed : StackName.isAllowed name = true)
      (key : ∀ n, draft.shortcut = some n → isShortcut n = true)
      (fresh : ∀ s ∈ entries, s.name ≠ name) (room : entries.length < limit) :
      Makes limit now entries (.create draft)
        ⟨release draft.shortcut name entries ++ [draft.stack name now], some entries.length,
          .created name :: releases draft.shortcut name entries⟩
  | update {before : List Stack} {s : Stack} {after : List Stack} {name : String}
      (named : s.name = StackName.normalize name) (revision : Revision) :
      Makes limit now (before ++ s :: after) (.update name revision)
        ⟨before ++ revision.apply now s :: after, some before.length, [.updated s.name]⟩
  | rename {before : List Stack} {s : Stack} {after : List Stack} {origin target : String} {name : String}
      (named : s.name = StackName.normalize origin)
      (normal : name = StackName.normalize target) (allowed : StackName.isAllowed name = true)
      (fresh : name = s.name ∨ ∀ t ∈ before ++ s :: after, t.name ≠ name) :
      Makes limit now (before ++ s :: after) (.rename origin target)
        ⟨before ++ { s.touch now with name := name } :: after, some before.length,
          [.renamed s.name name]⟩
  | delete {before : List Stack} {s : Stack} {after : List Stack} {name : String}
      (named : s.name = StackName.normalize name) :
      Makes limit now (before ++ s :: after) (.delete name) ⟨before ++ after, none, [.deleted s.name]⟩
  | assignShortcut {before : List Stack} {s : Stack} {after : List Stack} {name : String}
      {shortcut : Option Nat} (named : s.name = StackName.normalize name)
      (key : ∀ n, shortcut = some n → isShortcut n = true) :
      Makes limit now (before ++ s :: after) (.assignShortcut name shortcut)
        ⟨release shortcut s.name before ++ { s.touch now with shortcut := shortcut }
            :: release shortcut s.name after, some before.length,
          releases shortcut s.name (before ++ s :: after) ++ [.shortcutChanged s.name shortcut]⟩
  | recordUsage {before : List Stack} {s : Stack} {after : List Stack} {name : String}
      (named : s.name = StackName.normalize name) :
      Makes limit now (before ++ s :: after) (.recordUsage name)
        ⟨before ++ { s with lastUsed := some (now : Int) } :: after, some before.length, [.used s.name]⟩
  | markSynced {before : List Stack} {s : Stack} {after : List Stack} {name : String}
      (named : s.name = StackName.normalize name) :
      Makes limit now (before ++ s :: after) (.markSynced name)
        ⟨before ++ { s with synced := true } :: after, none, []⟩

theorem bind_eq_ok {ε α β : Type} {x : Except ε α} {f : α → Except ε β} {b : β} (h : x >>= f = .ok b) :
    ∃ a, x = .ok a ∧ f a = .ok b := by
  cases x with
  | error e => cases h
  | ok a => exact ⟨a, rfl, h⟩

theorem eq_ok_of_mapError {ε ε' α : Type} {f : ε → ε'} {x : Except ε α} {a : α} (h : x.mapError f = .ok a) :
    x = .ok a := by
  cases x with
  | error e => cases h
  | ok b => exact congrArg Except.ok (Except.ok.inj h)

theorem forall₂_of_mapM {ε α β : Type} {f : α → Except ε β} {as : List α} {bs : List β}
    (h : as.mapM f = .ok bs) : List.Forall₂ (fun a b => f a = .ok b) as bs := by
  induction as generalizing bs with
  | nil =>
    cases h
    exact .nil
  | cons a as ih =>
    obtain ⟨b, bs', ha, has, rfl⟩ := mapM_cons_eq_ok h
    exact .cons ha (ih has)

theorem derive_eq_ok {saved : Stacks} {limit : Nat} {s s' : Stack} (h : derive saved limit s = .ok s') :
    ∃ t, Tree.parseWith saved limit (some s.name) s.query = .ok t ∧ s' = { s with tree := t } := by
  obtain ⟨t, ht, h⟩ := bind_eq_ok h
  cases h
  exact ⟨t, ht, rfl⟩

theorem Operation.makes_of_change {limit now : Nat} {entries : List Stack} {op : Operation} {c : Change}
    (h : op.change limit now entries = .ok c) : op.Makes limit now entries c := by
  cases op with
  | create draft =>
    obtain ⟨name, hname, h⟩ := bind_eq_ok h
    obtain ⟨shortcut, hkey, h⟩ := bind_eq_ok h
    obtain ⟨hn, ha⟩ := allowedName_eq_ok hname
    obtain ⟨rfl, hk⟩ := allowedShortcut_eq_ok hkey
    split at h
    · cases h
    · next hfresh =>
      split at h
      · cases h
      · next hroom =>
        cases h
        exact .create hn ha hk (by simpa using hfresh) (by omega)
  | update name revision =>
    obtain ⟨i, hi, h⟩ := bind_eq_ok h
    obtain ⟨before, s, after, rfl, rfl, hs⟩ := position_eq_ok hi
    cases h
    rw [modify_length_append, ← hs]
    exact .update hs revision
  | rename origin target =>
    obtain ⟨name, hname, h⟩ := bind_eq_ok h
    obtain ⟨i, hi, h⟩ := bind_eq_ok h
    obtain ⟨hn, ha⟩ := allowedName_eq_ok hname
    obtain ⟨before, s, after, rfl, rfl, hs⟩ := position_eq_ok hi
    split at h
    · cases h
    · next hfresh =>
      cases h
      rw [modify_length_append, ← hs]
      refine .rename hs hn ha ?_
      rw [← hs] at hfresh
      by_cases he : name = s.name
      · exact .inl he
      · refine .inr fun t ht hname => hfresh ?_
        rw [Bool.and_eq_true, bne_iff_ne]
        exact ⟨he, List.any_eq_true.2 ⟨t, ht, beq_iff_eq.2 hname⟩⟩
  | delete name =>
    obtain ⟨i, hi, h⟩ := bind_eq_ok h
    obtain ⟨before, s, after, rfl, rfl, hs⟩ := position_eq_ok hi
    cases h
    rw [eraseIdx_length_append, ← hs]
    exact .delete hs
  | assignShortcut name shortcut =>
    obtain ⟨k, hkey, h⟩ := bind_eq_ok h
    obtain ⟨i, hi, h⟩ := bind_eq_ok h
    obtain ⟨rfl, hk⟩ := allowedShortcut_eq_ok hkey
    obtain ⟨before, s, after, rfl, rfl, hs⟩ := position_eq_ok hi
    cases h
    rw [← hs, release_of_name rfl, ← length_release before, modify_length_append, length_release]
    exact .assignShortcut hs hk
  | recordUsage name =>
    obtain ⟨i, hi, h⟩ := bind_eq_ok h
    obtain ⟨before, s, after, rfl, rfl, hs⟩ := position_eq_ok hi
    cases h
    rw [modify_length_append, ← hs]
    exact .recordUsage hs
  | markSynced name =>
    obtain ⟨i, hi, h⟩ := bind_eq_ok h
    obtain ⟨before, s, after, rfl, rfl, hs⟩ := position_eq_ok hi
    cases h
    rw [modify_length_append]
    exact .markSynced hs

end FilterQuery.Stack

namespace FilterQuery.Store

open Stack

theorem derived_eq_ok {limit : Nat} {entries entries' : List Stack}
    (h : derived limit entries = .ok entries') :
    List.Forall₂ (fun s s' => derive (queries entries) limit s = .ok s') entries entries' := by
  unfold derived at h
  split at h
  · next ha =>
    cases h
    exact forall₂_of_mapM ha
  · cases h

theorem records_of_derive {saved : Stacks} {limit : Nat} {entries entries' : List Stack}
    (h : List.Forall₂ (fun s s' => derive saved limit s = .ok s') entries entries') :
    entries'.map (·.toRecord) = entries.map (·.toRecord) := by
  induction h with
  | nil => rfl
  | cons hs _ ih =>
    obtain ⟨t, -, rfl⟩ := derive_eq_ok hs
    rw [List.map_cons, List.map_cons, ih]

theorem records_of_settle {s : Store} {entries entries' : List Stack}
    (h : s.settle entries = .ok entries') :
    entries'.map (·.toRecord) = entries.map (·.toRecord) := by
  unfold settle at h
  split at h
  · cases h
    rfl
  · exact records_of_derive (derived_eq_ok h)

theorem perform_eq_ok {s s' : Store} {op : Operation} {result : Option Stack}
    (h : s.perform op = .ok (s', result)) :
    ∃ c entries storage, op.Makes s.maxStacks s.clock s.entries c ∧ s.settle c.entries = .ok entries ∧
      save entries s.storage = .ok storage ∧ result = c.subject.bind (entries[·]?) ∧
      s' = { s with
        entries := entries
        storage := storage
        notices := s.notices ++ s.announce c.events entries.length
        clock := s.clock + 1 } := by
  obtain ⟨c, hc, h⟩ := bind_eq_ok h
  obtain ⟨entries, he, h⟩ := bind_eq_ok h
  obtain ⟨storage, hs, h⟩ := bind_eq_ok h
  cases h
  exact ⟨c, entries, storage, Operation.makes_of_change hc, he, hs, rfl, rfl⟩

end FilterQuery.Store
