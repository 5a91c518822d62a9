import FilterQuery.Config.File
import FilterQuery.Proofs.Store.Atomic
import FilterQuery.Proofs.Yaml.Members

namespace FilterQuery

theorem Storage.write_eq_ok {s s' : Storage} {name : String} {data : ByteArray} (h : s.write name data = .ok s') :
    s' = s.put name data := by
  unfold write at h
  split at h
  · cases h
    rfl
  · cases h

namespace Config

structure InRange (c : Config) : Prop where
  maxStacks : c.maxStacks < Number.wordLimit
  historyCap : c.historyCap < Number.wordLimit
  maxReferenceDepth : c.maxReferenceDepth < Number.wordLimit
  defaultLimit : c.defaultLimit < Number.wordLimit

open Yaml

theorem isWord_directionName (d : Direction) : IsWord d.name.toList := by
  cases d <;> exact .bare (by simp [Direction.name]) (by simp [Direction.name])

theorem reads_of_mem_lines (c : Config) : ∀ l ∈ c.lines, l.Reads := by
  unfold lines
  simp only [List.forall_mem_cons]
  exact ⟨Line.reads_nat (by decide +kernel) _, Line.reads_nat (by decide +kernel) _,
    Line.reads_nat (by decide +kernel) _, Line.reads_nat (by decide +kernel) _,
    Line.reads_string (by decide +kernel) _, Line.reads_word (by decide +kernel) (isWord_directionName _), nofun⟩

theorem nodup_keys_lines (c : Config) : (c.lines.map Line.key).Nodup := by
  change ["max_stacks", "history_cap", "max_reference_depth", "default_limit", "default_order_by",
    "default_order_direction"].Nodup
  decide

theorem read?_text {c : Config} (h : c.InRange) : read? c.text = some c := by
  have hall := c.reads_of_mem_lines
  have htext : c.text.toList = mappingText c.lines := String.toList_ofList
  have hread := fun {α : Type} {l : Line} (hl : l ∈ c.lines) (read : Yaml → Option α) (default : α) =>
    withDefault?_of_mem c.nodup_keys_lines hl read default
  have hnumber : ∀ {key : String} {n default : Nat}, Line.nat key n ∈ c.lines → n < Number.wordLimit →
      withDefault? (asNatBelow? Number.wordLimit) key default (c.lines.map fun l => (l.key, l.value)) = some n :=
    fun hl hn => (hread hl _ _).trans (asNatBelow?_nat hn)
  have hname : ∀ d : Direction,
      (asName? (Line.word "default_order_direction" d.name.toList).value).bind Direction.ofName? = some d := by
    intro d
    cases d <;> rfl
  have hlines : ∀ l ∈ c.lines, l ∈ c.lines := fun _ hl => hl
  nth_rewrite 1 [lines] at hlines
  simp only [List.forall_mem_cons] at hlines
  obtain ⟨hmaxStacks, hhistoryCap, hmaxDepth, hlimit, horder, hdirection, -⟩ := hlines
  have horder' : withDefault? text? "default_order_by" standard.defaultOrderBy
      (c.lines.map fun l => (l.key, l.value)) = some c.defaultOrderBy := hread horder _ _
  have hdirection' : withDefault? (fun v => v.asName?.bind Direction.ofName?) "default_order_direction"
      standard.defaultOrderDirection (c.lines.map fun l => (l.key, l.value)) = some c.defaultOrderDirection :=
    (hread hdirection _ _).trans (hname _)
  rw [read?, read?_lines (hall _ List.mem_cons_self) (fun l hl => hall l (List.mem_cons_of_mem _ hl)) htext,
    Option.bind_some, ofYaml?, Document.ofRoot]
  change (Document.members? _ (.mapping .none (c.lines.map Line.pair))).bind _ = _
  rw [members?_lines]
  simp only [Option.bind_eq_bind, Option.bind_some, hnumber hmaxStacks h.maxStacks, hnumber hhistoryCap h.historyCap,
    hnumber hmaxDepth h.maxReferenceDepth, hnumber hlimit h.defaultLimit, horder', hdirection']
  rfl

theorem inRange_standard : InRange standard := ⟨by decide, by decide, by decide, by decide⟩

theorem inRange_of_ofYaml? {d : Yaml.Document} {c : Config} (h : ofYaml? d = some c) : c.InRange := by
  unfold ofYaml? at h
  simp only [Option.bind_eq_bind, Option.bind_eq_some_iff] at h
  obtain ⟨members, -, maxStacks, h₁, historyCap, h₂, maxDepth, h₃, limit, h₄, orderBy, -, direction, -, h⟩ := h
  cases h
  have hlt : ∀ y n, asNatBelow? Number.wordLimit y = some n → n < Number.wordLimit := fun _ _ => asNatBelow?_lt
  exact ⟨of_withDefault? hlt (by decide) h₁, of_withDefault? hlt (by decide) h₂, of_withDefault? hlt (by decide) h₃,
    of_withDefault? hlt (by decide) h₄⟩

theorem InRange.repaired {c : Config} (h : c.InRange) : c.repaired.InRange where
  maxStacks := Nat.max_lt.2 ⟨h.maxStacks, by decide⟩
  historyCap := Nat.max_lt.2 ⟨h.historyCap, by decide⟩
  maxReferenceDepth := Nat.max_lt.2 ⟨h.maxReferenceDepth, by decide⟩
  defaultLimit := h.defaultLimit

@[simp] theorem repaired_repaired (c : Config) : c.repaired.repaired = c.repaired := by
  have hstandard : (Text.trim standard.defaultOrderBy.toList).isEmpty = false := by decide +kernel
  unfold repaired
  by_cases h : (Text.trim c.defaultOrderBy.toList).isEmpty = true
  · simp [h, hstandard]
  · simp [h]

theorem repaired_standard : standard.repaired = standard := by decide +kernel

variable {s s' : Storage} {c : Config}

theorem save_eq_ok (h : c.save s = .ok s') : s' = s.put fileName c.text.toUTF8 := by
  unfold save at h
  split at h
  · next hw =>
    cases h
    exact Storage.write_eq_ok hw
  · cases h

inductive Loads (s : Storage) : Config → Storage → Prop
  | kept {c : Config} {data : ByteArray} (hdata : s.content? fileName = some data)
      (htext : String.fromUTF8? data = some c.repaired.text) (hread : read? c.repaired.text = some c) :
      Loads s c.repaired s
  | written {c : Config} (hrepaired : c.repaired = c) (hrange : c.InRange) :
      Loads s c (s.put fileName c.text.toUTF8)

theorem loads_of_load (h : load s = .ok (c, s')) : Loads s c s' := by
  unfold load at h
  split at h
  · obtain ⟨t, ht, h⟩ := Stack.bind_eq_ok h
    cases h
    cases save_eq_ok ht
    exact .written repaired_standard inRange_standard
  · next data hdata =>
    split at h
    · next text htext =>
      split at h
      · next c₀ hread =>
        dsimp only at h
        split at h
        · next hsame =>
          cases h
          exact .kept hdata (hsame ▸ htext) (hsame ▸ hread)
        · obtain ⟨t, ht, h⟩ := Stack.bind_eq_ok h
          cases h
          cases save_eq_ok ht
          obtain ⟨d, -, hd⟩ := Option.bind_eq_some_iff.1 hread
          exact .written (repaired_repaired c₀) (inRange_of_ofYaml? hd).repaired
      · cases h
    · cases h

theorem load_of_text {data : ByteArray} (hdata : s.content? fileName = some data)
    (htext : String.fromUTF8? data = some c.repaired.text) (hread : read? c.repaired.text = some c) :
    load s = .ok (c.repaired, s) := by
  unfold load
  rw [hdata]
  dsimp only
  rw [htext]
  dsimp only
  rw [hread]
  dsimp only
  rw [if_pos rfl]
  rfl

theorem load_again (h : load s = .ok (c, s')) {s'' : Storage}
    (hsame : s''.content? fileName = s'.content? fileName) : load s'' = .ok (c, s'') := by
  cases loads_of_load h with
  | kept hdata htext hread => exact load_of_text (hsame.trans hdata) htext hread
  | written hrepaired hrange =>
    have hdata := hsame.trans (Storage.content?_put_self ..)
    have hload := load_of_text (c := c) hdata (by rw [hrepaired]; exact Store.fromUTF8?_toUTF8 _)
      (by rw [hrepaired]; exact read?_text hrange)
    rwa [hrepaired] at hload

theorem content?_of_load (h : load s = .ok (c, s')) {name : String} (hname : name ≠ fileName) :
    s'.content? name = s.content? name := by
  cases loads_of_load h with
  | kept => rfl
  | written => exact Storage.content?_put_of_ne _ _ hname

end Config

end FilterQuery
