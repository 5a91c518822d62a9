import FilterQuery.Proofs.Commands
import FilterQuery.Proofs.Store.Bindings
import FilterQuery.Session

namespace FilterQuery.Store

open Stack

structure Noted (used : List String) (first stop : Nat) (t u : Stack) : Prop where
  same : u = { t with lastUsed := u.lastUsed }
  noted : t.name ∈ used → ∃ n : Nat, first ≤ n ∧ n < stop ∧ u.lastUsed = some (n : Int)
  others : t.name ∉ used → u.lastUsed = t.lastUsed

section

variable {used later : List String} {first middle stop : Nat} {t u v : Stack}

theorem noted_nil (t : Stack) : Noted [] first stop t t := ⟨rfl, nofun, fun _ => rfl⟩

theorem Noted.name (h : Noted used first stop t u) : u.name = t.name := by rw [h.same]

theorem Noted.trans (h : Noted used first middle t u) (h' : Noted later middle stop u v) (hfirst : first ≤ middle)
    (hstop : middle ≤ stop) : Noted (used ++ later) first stop t v where
  same := by
    rw [h'.same, h.same]
  noted hm := by
    by_cases hlater : u.name ∈ later
    · obtain ⟨n, hlow, hhigh, hn⟩ := h'.noted hlater
      exact ⟨n, hfirst.trans hlow, hhigh, hn⟩
    · rw [h.name] at hlater
      obtain ⟨n, hlow, hhigh, hn⟩ := h.noted ((List.mem_append.1 hm).resolve_right hlater)
      exact ⟨n, hlow, hhigh.trans_le hstop, (h'.others (h.name.symm ▸ hlater)).trans hn⟩
  others hm := by
    rw [List.mem_append, not_or] at hm
    exact (h'.others (h.name.symm ▸ hm.2)).trans (h.others hm.1)

end

variable {s : Store} {name : String}

theorem modify_eq_map {entries : List Stack} {i : Nat} (apart : (names entries).Nodup)
    (hi : entries.findIdx? (·.name == name) = some i) (f : Stack → Stack) :
    entries.modify i f = entries.map fun t => if t.name = name then f t else t := by
  have hposition : position entries name = .ok i := by rw [position, hi]
  obtain ⟨before, t, after, rfl, rfl, rfl⟩ := position_eq_ok hposition
  obtain ⟨hbefore, hrest⟩ := name_not_mem_names apart
  have hothers : ∀ us : List Stack, t.name ∉ names us → us.map (fun u => if u.name = t.name then f u else u) = us := by
    intro us hus
    refine (List.map_congr_left fun u hu => if_neg ?_).trans (List.map_id us)
    exact fun he => hus (he ▸ List.mem_map_of_mem hu)
  rw [names, List.map_append, List.mem_append, not_or] at hrest
  rw [modify_length_append, List.map_append, List.map_cons, if_pos rfl, hothers before hbefore, hothers after hrest.2]

theorem noteUsage_of_ok {takes : Bool} {result : Option Stack} {s' : Store}
    (h : (s.turned takes).perform (.recordUsage name) = .ok (s', result)) :
    Session.noteUsage s (name, takes) = s'.turned s.storage.writable := by
  rw [Session.noteUsage, h]

theorem noteUsage_of_error {takes : Bool} {r : Refusal}
    (h : (s.turned takes).perform (.recordUsage name) = .error r) : Session.noteUsage s (name, takes) = s := by
  rw [Session.noteUsage, h]

theorem noteUsage_refused (s : Store) (name : String) : Session.noteUsage s (name, false) = s := by
  obtain ⟨r, hr⟩ : ∃ r, (s.turned false).perform (.recordUsage name) = .error r := perform_recordUsage_error (.inr rfl)
  exact noteUsage_of_error hr

theorem clock_le_noteUsage (s : Store) (use : String × Bool) : s.clock ≤ (Session.noteUsage s use).clock := by
  obtain ⟨name, takes⟩ := use
  cases h : (s.turned takes).perform (.recordUsage name) with
  | error r => rw [noteUsage_of_error h]
  | ok p =>
    rw [noteUsage_of_ok h]
    obtain ⟨c, entries, storage, -, -, -, -, hs'⟩ := perform_eq_ok h
    rw [hs']
    exact Nat.le_succ s.clock

def written (uses : List (String × Bool)) : List String :=
  (uses.filter (·.2)).map fun use => StackName.normalize use.1

theorem noted_noteUsage (apart : (names s.entries).Nodup) (use : String × Bool) :
    List.Forall₂ (Noted (written [use]) s.clock (Session.noteUsage s use).clock) s.entries
      (Session.noteUsage s use).entries := by
  obtain ⟨name, takes⟩ := use
  cases takes with
  | false =>
    rw [noteUsage_refused, List.forall₂_same]
    exact fun t _ => noted_nil t
  | true =>
    have hwritten : written [(name, true)] = [StackName.normalize name] := rfl
    rw [hwritten]
    cases hi : s.entries.findIdx? (·.name == StackName.normalize name) with
    | none =>
      obtain ⟨r, hr⟩ : ∃ r, (s.turned true).perform (.recordUsage name) = .error r :=
        perform_recordUsage_error (.inl hi)
      rw [noteUsage_of_error hr, List.forall₂_same]
      intro t ht
      have hne : t.name ∉ [StackName.normalize name] := by
        rw [List.mem_singleton]
        simpa using List.findIdx?_eq_none_iff.1 hi t ht
      exact ⟨rfl, fun hm => absurd hm hne, fun _ => rfl⟩
    | some i =>
      have hplace : (s.turned true).entries.findIdx? (·.name == StackName.normalize name) = some i := hi
      obtain ⟨s', u, hperform, hentries⟩ := perform_recordUsage hplace rfl
      obtain ⟨c, entries, storage, -, -, -, -, hs'⟩ := perform_eq_ok hperform
      have hclock : (s'.turned s.storage.writable).clock = s.clock + 1 := by
        rw [hs']
        rfl
      have hafter : (s'.turned s.storage.writable).entries = _ := hentries
      rw [noteUsage_of_ok hperform, hafter]
      dsimp only [turned]
      rw [modify_eq_map apart hi, List.forall₂_map_right_iff, List.forall₂_same]
      intro t ht
      by_cases hname : t.name = StackName.normalize name
      · rw [if_pos hname]
        exact ⟨rfl, fun _ => ⟨s.clock, Nat.le_refl _, hclock ▸ Nat.lt_succ_self _, rfl⟩,
          fun hm => absurd (List.mem_singleton.2 hname) hm⟩
      · rw [if_neg hname]
        exact ⟨rfl, fun hm => absurd (List.mem_singleton.1 hm) hname, fun _ => rfl⟩

theorem names_of_noted {used : List String} {first stop : Nat} {before after : List Stack}
    (h : List.Forall₂ (Noted used first stop) before after) : names after = names before := by
  induction h with
  | nil => rfl
  | cons ht _ ih => rw [names, names, List.map_cons, List.map_cons, ht.name, ← names, ih, ← names]

theorem Noted.forall₂_trans {used later : List String} {first middle stop : Nat} {ts us vs : List Stack}
    (h : List.Forall₂ (Noted used first middle) ts us) (h' : List.Forall₂ (Noted later middle stop) us vs)
    (hfirst : first ≤ middle) (hstop : middle ≤ stop) :
    List.Forall₂ (Noted (used ++ later) first stop) ts vs := by
  induction h generalizing vs with
  | nil =>
    cases h'
    exact .nil
  | cons ht _ ih =>
    cases h' with
    | cons hu hrest => exact .cons (ht.trans hu hfirst hstop) (ih hrest)

theorem noted_foldl_noteUsage (apart : (names s.entries).Nodup) (uses : List (String × Bool)) :
    List.Forall₂ (Noted (written uses) s.clock (uses.foldl Session.noteUsage s).clock) s.entries
        (uses.foldl Session.noteUsage s).entries ∧
      s.clock ≤ (uses.foldl Session.noteUsage s).clock := by
  induction uses generalizing s with
  | nil => exact ⟨List.forall₂_same.2 fun t _ => noted_nil t, Nat.le_refl _⟩
  | cons use uses ih =>
    have hone := noted_noteUsage apart use
    have hclock := clock_le_noteUsage s use
    obtain ⟨hrest, hlater⟩ := ih (names_of_noted hone ▸ apart)
    have hwritten : written (use :: uses) = written [use] ++ written uses := by
      rw [written, written, written, ← List.map_append, ← List.filter_append, List.singleton_append]
    rw [hwritten]
    exact ⟨Noted.forall₂_trans hone hrest hclock hlater, hclock.trans hlater⟩

end FilterQuery.Store
