import FilterQuery.Proofs.Yaml.Lines
import FilterQuery.Proofs.Yaml.Number

namespace FilterQuery.Yaml

theorem members?_lines (d : Document) (lines : List Line) :
    d.members? (.mapping .none (lines.map Line.pair)) = some (lines.map fun l => (l.key, l.value)) := by
  rw [Document.members?]
  induction lines with
  | nil => rfl
  | cons l ls ih =>
    rw [List.map_cons, List.mapM_cons, ih]
    rfl

structure IsSlotted (slots : List (String × Option Line)) : Prop where
  nodup : (slots.map Prod.fst).Nodup
  keyed : ∀ s ∈ slots, ∀ l ∈ s.2, l.key = s.1

namespace IsSlotted

variable {α : Type} {slots : List (String × Option Line)} {key : String} {read : Yaml → Option α}

theorem tail {s : String × Option Line} (h : IsSlotted (s :: slots)) : IsSlotted slots :=
  ⟨(List.nodup_cons.1 h.nodup).2, fun t ht => h.keyed t (List.mem_cons_of_mem s ht)⟩

theorem filter_of_notMem (h : IsSlotted slots) (hkey : key ∉ slots.map Prod.fst) :
    (slots.flatMap fun s => s.2.toList).filter (·.key == key) = [] := by
  refine List.filter_eq_nil_iff.2 fun l hl => ?_
  obtain ⟨s, hs, hl⟩ := List.mem_flatMap.1 hl
  have hne : l.key ≠ key := fun heq => hkey (heq ▸ h.keyed s hs l (Option.mem_toList.1 hl) ▸ List.mem_map_of_mem hs)
  simp [hne]

theorem filter_eq (h : IsSlotted slots) :
    ∀ s ∈ slots, (slots.flatMap fun s => s.2.toList).filter (·.key == s.1) = s.2.toList := by
  induction slots with
  | nil => exact nofun
  | cons s slots ih =>
    obtain ⟨hs, -⟩ := List.nodup_cons.1 h.nodup
    have hkeyed := h.keyed s List.mem_cons_self
    simp only [List.flatMap_cons, List.filter_append]
    refine List.forall_mem_cons.2 ⟨?_, fun t ht => ?_⟩
    · rw [h.tail.filter_of_notMem hs, List.append_nil, List.filter_eq_self]
      intro l hl
      exact beq_iff_eq.2 (hkeyed l (Option.mem_toList.1 hl))
    · have hne : s.1 ≠ t.1 := fun heq => hs (heq ▸ List.mem_map_of_mem ht)
      rw [ih h.tail t ht, List.filter_eq_nil_iff.2, List.nil_append]
      intro l hl
      rw [hkeyed l (Option.mem_toList.1 hl)]
      simpa using hne

theorem member?_eq (h : IsSlotted slots) {a : Option Line} (hs : (key, a) ∈ slots) :
    member? key ((slots.flatMap fun s => s.2.toList).map fun l => (l.key, l.value)) = some (a.map Line.value) := by
  have hfilter : ((slots.flatMap fun s => s.2.toList).map fun l => (l.key, l.value)).filter (·.1 == key) =
      a.toList.map fun l => (l.key, l.value) := by
    rw [List.filter_map, ← h.filter_eq (key, a) hs]
    rfl
  rw [member?, hfilter]
  cases a <;> rfl

theorem required?_eq (h : IsSlotted slots) {l : Line} (hs : (key, some l) ∈ slots) :
    required? read key ((slots.flatMap fun s => s.2.toList).map fun l => (l.key, l.value)) = read l.value := by
  rw [required?, h.member?_eq hs]
  rfl

theorem withDefault?_eq (h : IsSlotted slots) {l : Line} (hs : (key, some l) ∈ slots) (default : α) :
    withDefault? read key default ((slots.flatMap fun s => s.2.toList).map fun l => (l.key, l.value)) =
      read l.value := by
  rw [withDefault?, h.member?_eq hs]
  rfl

theorem optional?_eq (h : IsSlotted slots) {a : Option α} {f : α → Line} (hs : (key, a.map f) ∈ slots)
    (hread : ∀ x ∈ a, asOption? read (f x).value = some (some x)) :
    optional? read key ((slots.flatMap fun s => s.2.toList).map fun l => (l.key, l.value)) = some a := by
  rw [optional?, withDefault?, h.member?_eq hs]
  cases a with
  | none => rfl
  | some x => exact hread x rfl

end IsSlotted

theorem withDefault?_of_mem {α : Type} {lines : List Line} (hnodup : (lines.map Line.key).Nodup) {l : Line}
    (hl : l ∈ lines) (read : Yaml → Option α) (default : α) :
    withDefault? read l.key default (lines.map fun l => (l.key, l.value)) = read l.value := by
  have hslotted : IsSlotted (lines.map fun l => (l.key, some l)) := by
    refine ⟨by rwa [List.map_map], fun s hs l hl => ?_⟩
    obtain ⟨l', -, rfl⟩ := List.mem_map.1 hs
    exact congrArg Line.key (Option.some.inj hl).symm
  have hlines : (lines.map fun l => (l.key, some l)).flatMap (fun s => s.2.toList) = lines := by
    rw [List.flatMap_map]
    exact List.flatMap_singleton' lines
  have hread := @IsSlotted.withDefault?_eq α _ l.key read hslotted l (List.mem_map_of_mem hl) default
  rwa [hlines] at hread

theorem isWord_toString (n : Int) : IsWord (toString n).toList := by
  rw [Number.toList_toString]
  cases n with
  | ofNat m => exact .bare (Number.digits_ne_nil m) Number.isAlphanum_of_mem_digits
  | negSucc m => exact .minus (Number.digits_ne_nil (m + 1)) Number.isAlphanum_of_mem_digits

theorem isWord_bool (b : Bool) : IsWord (if b then "true" else "false").toList := by
  cases b
  · rw [if_neg Bool.false_ne_true]
    exact .bare (by simp) (by simp)
  · rw [if_pos rfl]
    exact .bare (by simp) (by simp)

variable {key : String}

theorem Line.reads_int (hkey : Scan.isName key.toList = true) (n : Int) : (int key n).Reads :=
  reads_word hkey (isWord_toString n)

theorem Line.reads_nat (hkey : Scan.isName key.toList = true) (n : Nat) : (nat key n).Reads := reads_int hkey n

theorem Line.reads_bool (hkey : Scan.isName key.toList = true) (b : Bool) : (bool key b).Reads :=
  reads_word hkey (isWord_bool b)

theorem value_int (key : String) (n : Int) : (Line.int key n).value = plain (toString n) := by
  rw [Line.int, Line.word, Line.value, String.ofList_toList]
  rfl

theorem asInt64?_int {n : Int} (h : Number.fitsInt n = true) : (Line.int key n).value.asInt64? = some n := by
  rw [value_int]
  exact int64?_toString h

theorem asNatBelow?_nat {limit n : Nat} (h : n < limit) : (Line.nat key n).value.asNatBelow? limit = some n := by
  rw [Line.nat, value_int]
  exact natBelow?_toString h

theorem asBool?_bool (b : Bool) : (Line.bool key b).value.asBool? = some b := by
  cases b <;> simp [Line.bool, Line.word, Line.value, asBool?, typedText?, truth?]

theorem isVoid_string (key s : String) : (Line.string key s).value.isVoid = false := by
  have hplain : ∀ style, style = Style.ofText s.toList → (scalar .none style s).isVoid = false := by
    intro style hstyle
    cases style with
    | plain =>
      have hambiguous := isAmbiguous_of_ofText hstyle.symm
      have hempty : s.isEmpty = false := by
        refine Bool.eq_false_iff.2 fun hempty => ?_
        rw [String.isEmpty_iff.1 hempty] at hambiguous
        cases hambiguous
      have hnull : isNull s.toList = false := by
        refine Bool.eq_false_iff.2 fun hnull => ?_
        obtain ⟨w, hw, heq⟩ := List.any_eq_true.1 hnull
        have hall : ∀ w ∈ ["null", "Null", "NULL", "~"], isReserved w.toList = true := by decide +kernel
        rw [isAmbiguous, ← beq_iff_eq.1 heq, hall w hw, Bool.or_true] at hambiguous
        cases hambiguous
      rw [isVoid, hempty, hnull]
      rfl
    | single | double | literal | folded => rfl
  exact hplain _ rfl

theorem asOption?_string (key s : String) : asOption? text? (Line.string key s).value = some (some s) := by
  have hvoid := isVoid_string key s
  change (if (Line.string key s).value.isVoid then some none else some (some s)) = _
  rw [hvoid]
  rfl

theorem asOption?_int {α : Type} {read : Yaml → Option α} {n : Int} {x : α}
    (h : read (Line.int key n).value = some x) : asOption? read (Line.int key n).value = some (some x) := by
  have hempty : (toString n).isEmpty = false := by
    refine Bool.eq_false_iff.2 fun hempty => ?_
    cases (String.isEmpty_iff.1 hempty ▸ whole?_toString n : whole? "".toList = some n)
  have hvoid : (Line.int key n).value.isVoid = false := by
    rw [value_int]
    change ((toString n).isEmpty || isNull (toString n).toList) = false
    rw [hempty, isNull_toString]
    rfl
  change (if (Line.int key n).value.isVoid then some none else (read (Line.int key n).value).map some) = _
  rw [hvoid, h]
  rfl

end FilterQuery.Yaml
