import FilterQuery.Proofs.Store.Run
import FilterQuery.Proofs.Yaml.Entries
import FilterQuery.Proofs.Yaml.Members
import FilterQuery.Stack

namespace FilterQuery

namespace Stack.Record

open Yaml

structure InRange (r : Record) : Prop where
  resultCount : ∀ n ∈ r.resultCount, n < Number.wordLimit
  createdAt : Number.fitsInt r.createdAt = true
  updatedAt : Number.fitsInt r.updatedAt = true
  lastUsed : ∀ n ∈ r.lastUsed, Number.fitsInt n = true
  shortcut : ∀ n ∈ r.shortcut, n < shortcutLimit

def slots (r : Record) : List (String × Option Line) :=
  [("id", some (.string "id" r.id)), ("name", some (.string "name" r.name)), ("query", some (.string "query" r.query)),
    ("description", r.description.map (.string "description")),
    ("resultCount", r.resultCount.map (.nat "resultCount")),
    ("createdAt", some (.int "createdAt" r.createdAt)), ("updatedAt", some (.int "updatedAt" r.updatedAt)),
    ("lastUsed", r.lastUsed.map (.int "lastUsed")), ("syncedToRemote", some (.bool "syncedToRemote" r.synced)),
    ("keyboardShortcut", r.shortcut.map (.nat "keyboardShortcut"))]

theorem lines_eq (r : Record) : r.lines = r.slots.flatMap fun s => s.2.toList := by
  simp [lines, slots]

theorem lines_ne_nil (r : Record) : r.lines ≠ [] := by
  simp [lines]

theorem forall_mem_map {α : Type} {f : α → Line} {p : Line → Prop} (h : ∀ x, p (f x)) (a : Option α) :
    ∀ l ∈ a.map f, p l := by
  intro l hl
  obtain ⟨x, -, rfl⟩ := Option.map_eq_some_iff.1 hl
  exact h x

theorem isSlotted_slots (r : Record) : IsSlotted r.slots where
  nodup := by
    simp only [slots, List.map_cons, List.map_nil]
    decide
  keyed := by
    simp only [slots, List.forall_mem_cons]
    refine ⟨?id, ?name, ?query, ?description, ?resultCount, ?createdAt, ?updatedAt, ?lastUsed, ?synced,
      ?shortcut, nofun⟩
    case description | resultCount | lastUsed | shortcut =>
      refine forall_mem_map (fun _ => ?_) _
      rfl
    all_goals
      rintro l ⟨⟩
      rfl

theorem reads_of_mem_lines (r : Record) : ∀ l ∈ r.lines, l.Reads := by
  have hslots : ∀ s ∈ r.slots, ∀ l ∈ s.2, l.Reads := by
    simp only [slots, List.forall_mem_cons]
    refine ⟨?id, ?name, ?query, ?description, ?resultCount, ?createdAt, ?updatedAt, ?lastUsed, ?synced,
      ?shortcut, nofun⟩
    case description => exact forall_mem_map (Line.reads_string (by decide +kernel)) _
    case resultCount | shortcut => exact forall_mem_map (Line.reads_nat (by decide +kernel)) _
    case lastUsed => exact forall_mem_map (Line.reads_int (by decide +kernel)) _
    case createdAt | updatedAt =>
      rintro l ⟨⟩
      exact Line.reads_int (by decide +kernel) _
    case synced =>
      rintro l ⟨⟩
      exact Line.reads_bool (by decide +kernel) _
    all_goals
      rintro l ⟨⟩
      exact Line.reads_string (by decide +kernel) _
  intro l hl
  rw [lines_eq] at hl
  obtain ⟨s, hs, hl⟩ := List.mem_flatMap.1 hl
  exact hslots s hs l (Option.mem_toList.1 hl)

theorem ofYaml?_entryNode {r : Record} (h : r.InRange) (d : Document) : ofYaml? d (entryNode r.lines) = some r := by
  have hslotted := r.isSlotted_slots
  have hslots : ∀ s ∈ r.slots, s ∈ r.slots := fun _ hs => hs
  nth_rewrite 1 [slots] at hslots
  simp only [List.forall_mem_cons] at hslots
  obtain ⟨hid, hname, hquery, hdescription, hcount, hcreated, hupdated, hused, hsynced, hshortcut, -⟩ := hslots
  have hdescription' := hslotted.optional?_eq hdescription fun s _ => asOption?_string "description" s
  have hcount' := hslotted.optional?_eq hcount fun n hn => asOption?_int (asNatBelow?_nat (h.resultCount n hn))
  have hused' := hslotted.optional?_eq hused fun n hn => asOption?_int (asInt64?_int (h.lastUsed n hn))
  have hshortcut' := hslotted.optional?_eq hshortcut fun n hn => asOption?_int (asNatBelow?_nat (h.shortcut n hn))
  rw [ofYaml?, entryNode, members?_lines, lines_eq]
  simp only [Option.bind_eq_bind, Option.bind_some, hslotted.required?_eq hid, hslotted.required?_eq hname,
    hslotted.required?_eq hquery, hdescription', hcount', hslotted.required?_eq hcreated,
    hslotted.required?_eq hupdated, hused', hslotted.withDefault?_eq hsynced, hshortcut', asInt64?_int h.createdAt,
    asInt64?_int h.updatedAt, asBool?_bool]
  rfl

theorem read?_allText (rs : List Record) :
    read? (allText rs) = some (.ofRoot (.sequence .none (rs.map fun r => entryNode r.lines))) := by
  cases rs with
  | nil => exact read?_flowDocument (List.forall_mem_nil _)
  | cons r rs =>
    have htext : (allText (r :: rs)).toList = ((r :: rs).map lines).flatMap entryText := by
      rw [allText, if_neg (by simp), String.toList_ofList, List.flatMap_map]
    have hread := read?_entries (List.map_cons ▸ List.cons_ne_nil _ _) ?_ ?_ htext
    · rw [hread, List.map_map]
      rfl
    · intro e he
      obtain ⟨s, -, rfl⟩ := List.mem_map.1 he
      exact s.lines_ne_nil
    · intro e he
      obtain ⟨s, -, rfl⟩ := List.mem_map.1 he
      exact s.reads_of_mem_lines

theorem readAll?_allText {rs : List Record} (h : ∀ r ∈ rs, r.InRange) : readAll? (allText rs) = some rs := by
  have hread : ∀ d : Document,
      ((rs.map fun r => entryNode r.lines).map d.resolve).mapM (ofYaml? d) = some rs := by
    intro d
    induction rs with
    | nil => rfl
    | cons r rs ih =>
      obtain ⟨hr, hrs⟩ := List.forall_mem_cons.1 h
      have hnode : d.resolve (entryNode r.lines) = entryNode r.lines := rfl
      simp only [List.map_cons, List.mapM_cons, hnode, ofYaml?_entryNode hr, ih hrs]
      rfl
  rw [readAll?, read?_allText, Option.bind_some]
  exact hread _

theorem inRange_of_ofYaml? {d : Document} {y : Yaml} {r : Record} (h : ofYaml? d y = some r) : r.InRange := by
  unfold ofYaml? at h
  simp only [Option.bind_eq_bind, Option.bind_eq_some_iff] at h
  obtain ⟨members, -, id, -, name, -, query, -, description, -, count, hcount, created, hcreated, updated, hupdated,
    used, hused, synced, -, shortcut, hshortcut, h⟩ := h
  cases h
  exact ⟨forall_of_optional? (fun _ _ => asNatBelow?_lt) hcount, of_required? (fun _ _ => fitsInt_of_asInt64?) hcreated,
    of_required? (fun _ _ => fitsInt_of_asInt64?) hupdated, forall_of_optional? (fun _ _ => fitsInt_of_asInt64?) hused,
    forall_of_optional? (fun _ _ => asNatBelow?_lt) hshortcut⟩

theorem inRange_of_readAll? {text : String} {rs : List Record} (h : readAll? text = some rs) : ∀ r ∈ rs, r.InRange := by
  obtain ⟨d, -, h⟩ := Option.bind_eq_some_iff.1 h
  obtain ⟨items, -, h⟩ := Option.bind_eq_some_iff.1 h
  exact forall_of_mapM (fun _ _ => inRange_of_ofYaml?) h

end Stack.Record

namespace Stack

def Operation.resultCount : Operation → Option Nat
  | .create draft => draft.resultCount
  | .update _ revision => revision.resultCount
  | _ => none

theorem lt_shortcutLimit {k : Option Nat} (h : ∀ n, k = some n → isShortcut n = true) :
    ∀ n ∈ k, n < shortcutLimit := by
  intro n hn
  exact Nat.lt_of_le_of_lt (isShortcut_iff.1 (h n hn)).2 (by decide)

section

variable {entries before after : List Stack} {s s' : Stack}

theorem inRange_release (h : ∀ s ∈ entries, s.toRecord.InRange) (shortcut : Option Nat) (keep : String) :
    ∀ s ∈ release shortcut keep entries, s.toRecord.InRange := by
  intro s hs
  obtain ⟨t, ht, rfl⟩ := List.mem_map.1 hs
  have htr := h t ht
  split
  · exact ⟨htr.resultCount, htr.createdAt, htr.updatedAt, htr.lastUsed, nofun⟩
  · exact htr

theorem inRange_replace (h : ∀ t ∈ before ++ s :: after, t.toRecord.InRange)
    (hs : s.toRecord.InRange → s'.toRecord.InRange) : ∀ t ∈ before ++ s' :: after, t.toRecord.InRange := by
  obtain ⟨hbefore, hrest⟩ := List.forall_mem_append.1 h
  obtain ⟨hfirst, hafter⟩ := List.forall_mem_cons.1 hrest
  exact List.forall_mem_append.2 ⟨hbefore, List.forall_mem_cons.2 ⟨hs hfirst, hafter⟩⟩

end

theorem Operation.Makes.inRange {limit now : Nat} {entries : List Stack} {op : Operation} {c : Change}
    (hm : op.Makes limit now entries c) (hcount : ∀ n ∈ op.resultCount, n < Number.wordLimit)
    (hnow : now < Number.intLimit) (h : ∀ s ∈ entries, s.toRecord.InRange) : ∀ s ∈ c.entries, s.toRecord.InRange := by
  have hfits : Number.fitsInt (now : Int) = true := by
    simp only [Number.fitsInt, Bool.and_eq_true, decide_eq_true_eq]
    omega
  cases hm with
  | create _ _ key =>
    refine List.forall_mem_append.2 ⟨inRange_release h _ _, List.forall_mem_singleton.2 ?_⟩
    exact ⟨hcount, hfits, hfits, nofun, lt_shortcutLimit key⟩
  | update _ revision =>
    refine inRange_replace h fun hs => ⟨fun n hn => ?_, hs.createdAt, hfits, hs.lastUsed, hs.shortcut⟩
    rcases Option.or_eq_some_iff.1 hn with hn | ⟨-, hn⟩
    · exact hcount n hn
    · exact hs.resultCount n hn
  | rename => exact inRange_replace h fun hs => ⟨hs.resultCount, hs.createdAt, hfits, hs.lastUsed, hs.shortcut⟩
  | delete =>
    obtain ⟨hbefore, hrest⟩ := List.forall_mem_append.1 h
    exact List.forall_mem_append.2 ⟨hbefore, (List.forall_mem_cons.1 hrest).2⟩
  | @assignShortcut before s after name k named key =>
    have hreleased := inRange_release h k s.name
    rw [release_of_name rfl] at hreleased
    exact inRange_replace hreleased fun hs =>
      ⟨hs.resultCount, hs.createdAt, hfits, hs.lastUsed, lt_shortcutLimit key⟩
  | recordUsage =>
    exact inRange_replace h fun hs =>
      ⟨hs.resultCount, hs.createdAt, hs.updatedAt, fun n hn => Option.some.inj hn ▸ hfits, hs.shortcut⟩
  | markSynced =>
    exact inRange_replace h fun hs => ⟨hs.resultCount, hs.createdAt, hs.updatedAt, hs.lastUsed, hs.shortcut⟩

end Stack

end FilterQuery
