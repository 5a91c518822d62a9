import FilterQuery.Proofs.StackName
import FilterQuery.Proofs.Store.Run

namespace FilterQuery.Stack

/-- Whether a stack comes no later than another among suggestions: it was used later, or used at all where the other
never was, or they were used at the same time, or both never, and its name comes first. -/
inductive Ahead (s t : Stack) : Prop
  | later {m n : Int} (hs : s.lastUsed = some m) (ht : t.lastUsed = some n) (h : n < m)
  | used {m : Int} (hs : s.lastUsed = some m) (ht : t.lastUsed = none)
  | named (h : s.lastUsed = t.lastUsed) (hn : s.name ≤ t.name)

section

variable {s t u : Stack}

theorem not_decide_lt_iff {a b : String} : (!decide (b < a)) = true ↔ a ≤ b := by
  rw [Bool.not_eq_true', decide_eq_false_iff_not, not_lt]

theorem ahead_of_precedes (h : Store.precedes s t = true) : s.Ahead t := by
  unfold Store.precedes at h
  split at h
  · next m n hs ht =>
    split at h
    · next he => exact .named (hs.trans (he ▸ ht.symm)) (not_decide_lt_iff.1 h)
    · exact .later hs ht (of_decide_eq_true h)
  · next hs ht => exact .used hs ht
  · cases h
  · next hs ht => exact .named (hs.trans ht.symm) (not_decide_lt_iff.1 h)

theorem precedes_of_ahead (h : s.Ahead t) : Store.precedes s t = true := by
  unfold Store.precedes
  cases h with
  | later hs ht h => simp [hs, ht, h, h.ne']
  | used hs ht => simp [hs, ht]
  | named h hn =>
    have hlast : (!decide (t.name < s.name)) = true := by rwa [not_decide_lt_iff]
    cases ht : t.lastUsed <;> simp [-String.lt_iff_ltb, h, ht, hlast]

theorem precedes_iff : Store.precedes s t = true ↔ s.Ahead t := ⟨ahead_of_precedes, precedes_of_ahead⟩

theorem Ahead.trans (h : s.Ahead t) (h' : t.Ahead u) : s.Ahead u := by
  cases h with
  | later hs ht h =>
    cases h' with
    | later ht' hu h' =>
      cases ht.symm.trans ht'
      exact .later hs hu (h'.trans h)
    | used ht' hu => exact .used hs hu
    | named h' hn => exact .later hs (h'.symm.trans ht) h
  | used hs ht =>
    cases h' with
    | later ht' | used ht' => cases ht.symm.trans ht'
    | named h' hn => exact .used hs (h'.symm.trans ht)
  | named h hn =>
    cases h' with
    | later ht hu h' => exact .later (h.trans ht) hu h'
    | used ht hu => exact .used (h.trans ht) hu
    | named h' hn' => exact .named (h.trans h') (hn.trans hn')

theorem Ahead.total (s t : Stack) : s.Ahead t ∨ t.Ahead s := by
  have htie : s.lastUsed = t.lastUsed → s.Ahead t ∨ t.Ahead s := fun h =>
    (le_total s.name t.name).imp (.named h) (.named h.symm)
  cases hs : s.lastUsed with
  | none =>
    cases ht : t.lastUsed with
    | none => exact htie (hs.trans ht.symm)
    | some n => exact .inr (.used ht hs)
  | some m =>
    cases ht : t.lastUsed with
    | none => exact .inl (.used hs ht)
    | some n =>
      rcases lt_trichotomy m n with hlt | rfl | hgt
      · exact .inr (.later ht hs hlt)
      · exact htie (hs.trans ht.symm)
      · exact .inl (.later hs ht hgt)

end

theorem Draft.name_stack (draft : Draft) (name : String) (now : Nat) : (draft.stack name now).name = name := rfl

def bearers (name : String) (entries : List Stack) : List (String × Int) :=
  (entries.filter (·.name == name)).map birth

section

variable {limit now : Nat} {entries before after : List Stack} {s : Stack} {name : String} {born : String × Int}

theorem bearers_eq (name : String) (entries : List Stack) : bearers name entries =
    ((entries.map fun s => (s.name, s.birth)).filter (·.1 == name)).map Prod.snd := by
  rw [bearers, List.filter_map, List.map_map]
  rfl

theorem bearers_of_records {entries' : List Stack} (h : entries'.map (·.toRecord) = entries.map (·.toRecord)) :
    bearers name entries' = bearers name entries := by
  have hmap := congrArg (List.map fun r => (r.name, r.id, r.createdAt)) h
  rw [List.map_map, List.map_map] at hmap
  rw [bearers_eq, bearers_eq]
  exact congrArg (fun l => List.map Prod.snd (List.filter (·.1 == name) l)) hmap

theorem bearers_release (name : String) (shortcut : Option Nat) (keep : String) (entries : List Stack) :
    bearers name (release shortcut keep entries) = bearers name entries := by
  rw [bearers_eq, bearers_eq, map_release fun _ => rfl]

theorem bearers_append (name : String) (before after : List Stack) :
    bearers name (before ++ after) = bearers name before ++ bearers name after := by
  rw [bearers, List.filter_append, List.map_append]
  rfl

theorem bearers_cons (name : String) (s : Stack) (entries : List Stack) :
    bearers name (s :: entries) = (if s.name = name then [s.birth] else []) ++ bearers name entries := by
  unfold bearers
  by_cases h : s.name = name <;> simp [h]

theorem bearers_eq_nil (h : name ∉ names entries) : bearers name entries = [] := by
  rw [bearers, List.filter_eq_nil_iff.2, List.map_nil]
  intro s hs he
  exact h (beq_iff_eq.1 he ▸ List.mem_map_of_mem hs)

theorem mem_names_of_bearers (h : bearers name entries ≠ []) : name ∈ names entries := by
  by_contra hm
  exact h (bearers_eq_nil hm)

theorem Operation.Makes.bearers_eq {op : Operation} {c : Change} (hm : op.Makes limit now entries c)
    (kept : op.nameAfter name = some name) (h : name ∈ names entries) :
    bearers name c.entries = bearers name entries := by
  cases hm with
  | create normal allowed key fresh room =>
    have hne : ∀ n, (∀ s ∈ entries, s.name ≠ n) → n ≠ name := by
      rintro n hn rfl
      exact not_mem_names hn h
    rw [bearers_append, bearers_release, bearers_cons, Draft.name_stack, if_neg (hne _ fresh)]
    exact List.append_nil _
  | update | recordUsage | markSynced =>
    rw [bearers_append, bearers_append, bearers_cons, bearers_cons]
    rfl
  | @rename before s after origin target renamed named normal allowed fresh =>
    rw [bearers_append, bearers_append, bearers_cons, bearers_cons]
    have hrenamed : s.name = name ↔ renamed = name := by
      rw [nameAfter, ← named, ← normal] at kept
      constructor
      · rintro rfl
        simpa using kept
      · rintro rfl
        rcases fresh with he | fresh
        · exact he.symm
        · exact absurd h (not_mem_names fresh)
    rw [if_congr hrenamed.symm rfl rfl]
    rfl
  | @delete before s after gone named =>
    have hne : s.name ≠ name := by
      rintro rfl
      rw [nameAfter, ← named] at kept
      simp at kept
    rw [bearers_append, bearers_append, bearers_cons, if_neg hne]
    rfl
  | assignShortcut =>
    rw [bearers_append, bearers_append, bearers_cons, bearers_cons, bearers_release, bearers_release]
    rfl

end

end FilterQuery.Stack

namespace FilterQuery.Store

open Stack

variable {s s' s₁ s₂ : Store} {name : String} {born : String × Int}

theorem bearers_of_perform {op : Operation} {result : Option Stack} (h : s.perform op = .ok (s', result))
    (kept : op.nameAfter name = some name) (hs : bearers name s.entries = [born]) :
    bearers name s'.entries = [born] := by
  obtain ⟨c, entries, storage, hm, hsettle, -, -, rfl⟩ := perform_eq_ok h
  have hmem := mem_names_of_bearers (hs ▸ List.cons_ne_nil born [])
  exact (bearers_of_records (records_of_settle hsettle)).trans ((hm.bearers_eq kept hmem).trans hs)

theorem Run.bearers {ops : List Operation} (run : Run s ops s')
    (kept : ∀ op ∈ ops, op.nameAfter name = some name) (hs : bearers name s.entries = [born]) :
    bearers name s'.entries = [born] := by
  induction run with
  | refl => exact hs
  | performed run h ih =>
    obtain ⟨hbefore, hlast⟩ := List.forall_mem_append.1 kept
    exact bearers_of_perform h (hlast _ (List.mem_singleton_self _)) (ih hbefore)
  | idle run h ih => exact h.entries ▸ ih kept

theorem bearers_of_create {draft : Draft} {result : Option Stack}
    (h : s.perform (.create draft) = .ok (s', result)) : ∃ t, result = some t ∧
      t.name = StackName.normalize draft.name ∧ bearers (StackName.normalize draft.name) s'.entries = [t.birth] := by
  obtain ⟨c, entries, storage, hm, hsettle, -, rfl, rfl⟩ := perform_eq_ok h
  have hrecords := records_of_settle hsettle
  generalize s.entries = before at hm
  cases hm with
  | @create _ _ name normal allowed key fresh room =>
    rw [← normal]
    have hrecord : entries[before.length]?.map (·.toRecord) = some (draft.stack name s.clock).toRecord := by
      rw [← List.getElem?_map, hrecords, List.getElem?_map, ← length_release before, List.getElem?_concat_length,
        Option.map_some]
    obtain ⟨t, ht, he⟩ := Option.map_eq_some_iff.1 hrecord
    refine ⟨t, ht, congrArg Record.name he, ?_⟩
    have hborn : (draft.stack name s.clock).birth = t.birth := congrArg (fun r => (r.id, r.createdAt)) he.symm
    rw [bearers_of_records hrecords, bearers_append, bearers_release, bearers_eq_nil (not_mem_names fresh),
      bearers_cons, Draft.name_stack, if_pos rfl, hborn]
    rfl

theorem find?_of_bearers {entries : List Stack} (h : bearers name entries = [born]) :
    ∃ t ∈ entries, entries.find? (·.name == name) = some t ∧ t.name = name ∧ t.birth = born := by
  obtain ⟨t, ht, hborn⟩ := List.map_eq_singleton_iff.1 h
  have hmem : t ∈ entries.filter (·.name == name) := ht ▸ List.mem_singleton_self t
  obtain ⟨hin, hname⟩ := List.mem_filter.1 hmem
  refine ⟨t, hin, ?_, beq_iff_eq.1 hname, hborn⟩
  rw [← List.head?_filter, ht, List.head?_cons]

theorem suggest_perm (s : Store) (beginning : String) : (s.suggest beginning).Perm (s.entries.filter fun t =>
    (StackName.normalize beginning).toList.isPrefixOf t.name.toList) :=
  List.mergeSort_perm ..

theorem suggest_pairwise (s : Store) (beginning : String) : (s.suggest beginning).Pairwise Ahead := by
  have hsorted := @List.pairwise_mergeSort _ precedes
    (fun _ _ _ h h' => precedes_of_ahead ((ahead_of_precedes h).trans (ahead_of_precedes h')))
    (fun t u => by
      rw [Bool.or_eq_true, precedes_iff, precedes_iff]
      exact Ahead.total t u)
    (s.entries.filter fun t => (StackName.normalize beginning).toList.isPrefixOf t.name.toList)
  exact hsorted.imp ahead_of_precedes

theorem mem_suggest {beginning : String} {t : Stack} : t ∈ s.suggest beginning ↔
    t ∈ s.entries ∧ (StackName.normalize beginning).toList <+: t.name.toList := by
  rw [(suggest_perm s beginning).mem_iff, List.mem_filter, List.isPrefixOf_iff_prefix]

/-- However a name was written under which a stack was created, and whatever has been done since but to rename or delete
that stack, it is found by the name and suggested for all that the name begins with. What is suggested are the stacks
whose names begin so, each once, those used later first. -/
theorem suggested_while_named {draft : Draft} {result : Option Stack} {ops : List Operation}
    (created : s.perform (.create draft) = .ok (s₁, result)) (run : Run s₁ ops s₂)
    (kept : ∀ op ∈ ops, op.nameAfter (StackName.normalize draft.name) = some (StackName.normalize draft.name)) :
    (∃ t u, result = some t ∧ s₂.get? draft.name = some u ∧ u.id = t.id ∧ u.createdAt = t.createdAt ∧
      ∀ beginning : String, beginning.toList <+: draft.name.toList → u ∈ s₂.suggest beginning) ∧
    ∀ beginning, (s₂.suggest beginning).Pairwise Ahead ∧ (s₂.suggest beginning).Perm (s₂.entries.filter fun u =>
      (StackName.normalize beginning).toList.isPrefixOf u.name.toList) := by
  refine ⟨?_, fun beginning => ⟨suggest_pairwise s₂ beginning, suggest_perm s₂ beginning⟩⟩
  obtain ⟨t, rfl, -, hcreated⟩ := bearers_of_create created
  obtain ⟨u, hu, hfind, hname, hborn⟩ := find?_of_bearers (run.bearers kept hcreated)
  refine ⟨t, u, rfl, hfind, congrArg Prod.fst hborn, congrArg Prod.snd hborn, fun beginning hb => ?_⟩
  rw [mem_suggest, hname]
  exact ⟨hu, StackName.normalize_mono hb⟩

theorem suggested_while_named_sigma :
    ∃ (s s₁ s₂ : Store) (t u : Stack), s.perform (.create ⟨" @To DΣ Σ", "x", none, none, some 1⟩) = .ok (s₁, some t) ∧
      Run s₁ [.recordUsage "b", .rename "to dσ ς" "TO-D- -", .assignShortcut "b" (some 1), .delete "b"] s₂ ∧
      names s₁.entries = ["b", "to-d---"] ∧ names s₂.entries = ["to-d---"] ∧
      s₂.get? " @To DΣ Σ" = some u ∧ u.id = t.id ∧ u.createdAt = t.createdAt ∧ u ∈ s₂.suggest " @To DΣ " ∧
      (s₂.suggest " @To DΣ ").Pairwise Ahead := by
  have h : (perform ⟨[], .empty .memory, [], 0, [], 0, 5, 3⟩ (.create ⟨"b", "y", none, none, none⟩) >>= fun r =>
      r.1.perform (.create ⟨" @To DΣ Σ", "x", none, none, some 1⟩) >>= fun r₁ =>
        r₁.1.perform (.recordUsage "b") >>= fun r₂ => r₂.1.perform (.rename "to dσ ς" "TO-D- -") >>= fun r₃ =>
          r₃.1.perform (.assignShortcut "b" (some 1)) >>= fun r₄ => r₄.1.perform (.delete "b") >>= fun r₅ =>
            .ok (names r₁.1.entries, names r₅.1.entries)) = .ok (["b", "to-d---"], ["to-d---"]) := by
    decide +kernel
  obtain ⟨⟨s, _⟩, -, h⟩ := bind_eq_ok h
  obtain ⟨⟨s₁, result⟩, h₁, h⟩ := bind_eq_ok h
  obtain ⟨⟨s₂, _⟩, h₂, h⟩ := bind_eq_ok h
  obtain ⟨⟨s₃, _⟩, h₃, h⟩ := bind_eq_ok h
  obtain ⟨⟨s₄, _⟩, h₄, h⟩ := bind_eq_ok h
  obtain ⟨⟨s₅, _⟩, h₅, h⟩ := bind_eq_ok h
  obtain ⟨hbefore, hafter⟩ := Prod.mk.inj (Except.ok.inj h)
  have run := ((((Run.refl s₁).performed h₂).performed h₃).performed h₄).performed h₅
  obtain ⟨⟨t, u, rfl, hfound, hid, hcreated, htyped⟩, hsuggest⟩ := suggested_while_named h₁ run (by decide +kernel)
  exact ⟨s, s₁, s₅, t, u, h₁, run, hbefore, hafter, hfound, hid, hcreated, htyped " @To DΣ " (by decide +kernel),
    (hsuggest _).1⟩

end FilterQuery.Store
