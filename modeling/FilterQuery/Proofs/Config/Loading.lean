import FilterQuery.Proofs.Config

namespace FilterQuery

open Yaml

/-- Whether a text has a character that is no blank. -/
def Text.IsVisible (text : String) : Prop := ∃ c ∈ text.toList, isBlank c = false

theorem Text.isEmpty_trim {cs : List Char} : (trim cs).isEmpty = true ↔ ∀ c ∈ cs, isBlank c = true := by
  have hstart : (∀ c ∈ cs.dropWhile isBlank, isBlank c = true) ↔ ∀ c ∈ cs, isBlank c = true := by
    constructor
    · intro h c hc
      rw [← List.takeWhile_append_dropWhile (p := isBlank) (l := cs), List.mem_append] at hc
      exact hc.elim List.mem_takeWhile_imp (h c)
    · exact fun h c hc => h c (List.dropWhile_subset _ hc)
  rw [← hstart, trim, trimEnd, trimStart]
  simp

theorem Text.isVisible_iff {text : String} : IsVisible text ↔ (trim text.toList).isEmpty = false := by
  rw [← Bool.not_eq_true, isEmpty_trim, IsVisible]
  simp

namespace Config

variable {α : Type}

inductive Sets (members : List (String × Yaml)) (key : String) (read : Yaml → Option α) (useful : α → Prop)
    (instead default : α) : α → Prop
  | given {y : Yaml} {a : α} (hy : members.filter (·.1 == key) = [(key, y)]) (hread : read y = some a)
      (huse : useful a) : Sets members key read useful instead default a
  | replaced {y : Yaml} {a : α} (hy : members.filter (·.1 == key) = [(key, y)]) (hread : read y = some a)
      (huse : ¬useful a) : Sets members key read useful instead default instead
  | leftOut (h : ∀ m ∈ members, m.1 ≠ key) : Sets members key read useful instead default default

structure Settles (members : List (String × Yaml)) (c : Config) : Prop where
  maxStacks : Sets members "max_stacks" (asNatBelow? Number.wordLimit) (0 < ·) 1 50 c.maxStacks
  historyCap : Sets members "history_cap" (asNatBelow? Number.wordLimit) (0 < ·) 1 20 c.historyCap
  maxReferenceDepth :
    Sets members "max_reference_depth" (asNatBelow? Number.wordLimit) (0 < ·) 1 8 c.maxReferenceDepth
  defaultLimit : Sets members "default_limit" (asNatBelow? Number.wordLimit) (fun _ => True) 50 50 c.defaultLimit
  defaultOrderBy :
    Sets members "default_order_by" text? Text.IsVisible "updated_at" "updated_at" c.defaultOrderBy
  defaultOrderDirection : Sets members "default_order_direction" (fun y => y.asName?.bind Direction.ofName?)
    (fun _ => True) .desc .desc c.defaultOrderDirection

inductive Says (s : Storage) : List (String × Yaml) → Prop
  | nothing (h : s.content? fileName = none) : Says s []
  | members {data : ByteArray} {text : String} {d : Document} {members : List (String × Yaml)}
      (hdata : s.content? fileName = some data) (htext : String.fromUTF8? data = some text)
      (hd : Yaml.read? text = some d) (h : d.members? d.root = some members) : Says s members

/-- Whether the file of the settings makes these settings. -/
def Gives (s : Storage) (c : Config) : Prop := ∃ members, Says s members ∧ Settles members c

section

variable {members : List (String × Yaml)} {key : String} {read : Yaml → Option α} {useful : α → Prop}
  {instead default a b : α}

theorem member?_eq_none : member? key members = some none ↔ ∀ m ∈ members, m.1 ≠ key := by
  have hnil : members.filter (·.1 == key) = [] ↔ ∀ m ∈ members, m.1 ≠ key := by simp [List.filter_eq_nil_iff]
  rw [← hnil, member?]
  split
  · next hfilter => exact iff_of_true rfl hfilter
  · next hfilter => simp [hfilter]
  · next hnone _ => exact iff_of_false (by simp) hnone

theorem member?_eq_some {y : Yaml} : member? key members = some (some y) ↔
    members.filter (·.1 == key) = [(key, y)] := by
  have hkey : ∀ m ∈ members.filter (·.1 == key), m.1 = key := fun m hm => beq_iff_eq.1 (List.mem_filter.1 hm).2
  rw [member?]
  split
  · next hfilter => simp [hfilter]
  · next name z hfilter =>
    rw [hfilter] at hkey
    cases hkey _ List.mem_cons_self
    simp [hfilter]
  · next hmore => exact iff_of_false (by simp) (hmore key y)

theorem withDefault?_of_none (h : ∀ m ∈ members, m.1 ≠ key) : withDefault? read key default members = some default := by
  rw [withDefault?, member?_eq_none.2 h]
  rfl

theorem withDefault?_of_some {y : Yaml} (h : members.filter (·.1 == key) = [(key, y)]) :
    withDefault? read key default members = read y := by
  rw [withDefault?, member?_eq_some.2 h]
  rfl

theorem Sets.satisfies (h : Sets members key read useful instead default b) (hinstead : useful instead)
    (hdefault : useful default) : useful b := by
  cases h with
  | given _ _ huse => exact huse
  | replaced => exact hinstead
  | leftOut => exact hdefault

theorem sets_iff [DecidablePred useful] (hdefault : useful default) :
    Sets members key read useful instead default b ↔
      ∃ a, withDefault? read key default members = some a ∧ (if useful a then a else instead) = b := by
  constructor
  · intro h
    cases h with
    | given hy hread huse => exact ⟨b, (withDefault?_of_some hy).trans hread, if_pos huse⟩
    | replaced hy hread huse => exact ⟨_, (withDefault?_of_some hy).trans hread, if_neg huse⟩
    | leftOut h => exact ⟨_, withDefault?_of_none h, if_pos hdefault⟩
  · rintro ⟨a, ha, rfl⟩
    obtain ⟨v, hv, ha⟩ := Option.bind_eq_some_iff.1 ha
    cases v with
    | none =>
      cases ha
      rw [if_pos hdefault]
      exact .leftOut (member?_eq_none.1 hv)
    | some y =>
      by_cases huse : useful a
      · rw [if_pos huse]
        exact .given (member?_eq_some.1 hv) ha huse
      · rw [if_neg huse]
        exact .replaced (member?_eq_some.1 hv) ha huse

end

theorem sets_count {members : List (String × Yaml)} {key : String} {default n : Nat} (hdefault : 0 < default) :
    Sets members key (asNatBelow? Number.wordLimit) (0 < ·) 1 default n ↔
      ∃ m, withDefault? (asNatBelow? Number.wordLimit) key default members = some m ∧ max m 1 = n := by
  rw [sets_iff hdefault]
  refine exists_congr fun m => and_congr_right fun _ => ?_
  split <;> omega

theorem sets_any {members : List (String × Yaml)} {key : String} {read : Yaml → Option α} {default a : α} :
    Sets members key read (fun _ => True) default default a ↔ withDefault? read key default members = some a := by
  rw [sets_iff trivial]
  simp

theorem isVisible_standard : Text.IsVisible "updated_at" := Text.isVisible_iff.2 (by decide +kernel)

theorem sets_order {members : List (String × Yaml)} {orderBy : String} :
    Sets members "default_order_by" text? Text.IsVisible "updated_at" "updated_at" orderBy ↔
      ∃ text, withDefault? text? "default_order_by" "updated_at" members = some text ∧
        (if (Text.trim text.toList).isEmpty then "updated_at" else text) = orderBy := by
  classical
  rw [sets_iff isVisible_standard]
  refine exists_congr fun text => and_congr_right fun _ => ?_
  by_cases h : (Text.trim text.toList).isEmpty <;> simp [Text.isVisible_iff, h]

theorem settles_iff {members : List (String × Yaml)} {d : Document} (h : d.members? d.root = some members)
    {c : Config} : Settles members c ↔ ∃ c₀, ofYaml? d = some c₀ ∧ c₀.repaired = c := by
  constructor
  · obtain ⟨_, _, _, limit, _, direction⟩ := c
    rintro ⟨hstacks, hcap, hdepth, hlimit, horder, hdirection⟩
    obtain ⟨maxStacks, h₁, rfl⟩ := (sets_count (by decide)).1 hstacks
    obtain ⟨historyCap, h₂, rfl⟩ := (sets_count (by decide)).1 hcap
    obtain ⟨maxDepth, h₃, rfl⟩ := (sets_count (by decide)).1 hdepth
    have h₄ := sets_any.1 hlimit
    obtain ⟨orderBy, h₅, rfl⟩ := sets_order.1 horder
    have h₆ := sets_any.1 hdirection
    refine ⟨⟨maxStacks, historyCap, maxDepth, limit, orderBy, direction⟩, ?_, rfl⟩
    rw [ofYaml?, h]
    simp [standard, h₁, h₂, h₃, h₄, h₅, h₆]
  · rintro ⟨c₀, hread, rfl⟩
    unfold ofYaml? at hread
    simp only [h, Option.bind_eq_bind, Option.bind_some, Option.bind_eq_some_iff] at hread
    obtain ⟨maxStacks, h₁, historyCap, h₂, maxDepth, h₃, limit, h₄, orderBy, h₅, direction, h₆, hread⟩ := hread
    cases hread
    exact ⟨(sets_count (by decide)).2 ⟨_, h₁, rfl⟩, (sets_count (by decide)).2 ⟨_, h₂, rfl⟩,
      (sets_count (by decide)).2 ⟨_, h₃, rfl⟩, sets_any.2 h₄, sets_order.2 ⟨_, h₅, rfl⟩, sets_any.2 h₆⟩

theorem sets_nil {key : String} {read : Yaml → Option α} {useful : α → Prop} {instead default a : α} :
    Sets [] key read useful instead default a ↔ a = default := by
  constructor
  · intro h
    cases h with
    | given hy | replaced hy => cases hy
    | leftOut => rfl
  · rintro rfl
    exact .leftOut nofun

theorem settles_nil {c : Config} : Settles [] c ↔ c = standard := by
  constructor
  · rintro ⟨h₁, h₂, h₃, h₄, h₅, h₆⟩
    rw [sets_nil] at h₁ h₂ h₃ h₄ h₅ h₆
    obtain ⟨_, _, _, _, _, _⟩ := c
    cases h₁
    cases h₂
    cases h₃
    cases h₄
    cases h₅
    cases h₆
    rfl
  · rintro rfl
    exact ⟨sets_nil.2 rfl, sets_nil.2 rfl, sets_nil.2 rfl, sets_nil.2 rfl, sets_nil.2 rfl, sets_nil.2 rfl⟩

variable {s s' : Storage} {c c' : Config} {e : Failure} {data : ByteArray} {text : String}

theorem gives_of_none (h : s.content? fileName = none) : Gives s c ↔ c = standard := by
  constructor
  · rintro ⟨members, hsays, hc⟩
    cases hsays with
    | nothing => exact settles_nil.1 hc
    | members hdata => cases h.symm.trans hdata
  · rintro rfl
    exact ⟨[], .nothing h, settles_nil.2 rfl⟩

theorem gives_of_some (h : s.content? fileName = some data) : Gives s c ↔
    ∃ text c₀, String.fromUTF8? data = some text ∧ read? text = some c₀ ∧ c₀.repaired = c := by
  constructor
  · rintro ⟨members, hsays, hc⟩
    cases hsays with
    | nothing hnone => cases h.symm.trans hnone
    | members hdata htext hd hmembers =>
      cases h.symm.trans hdata
      obtain ⟨c₀, hc₀, rfl⟩ := (settles_iff hmembers).1 hc
      exact ⟨_, c₀, htext, by rw [read?, hd, Option.bind_some, hc₀], rfl⟩
  · rintro ⟨text, c₀, htext, hread, rfl⟩
    obtain ⟨d, hd, hc₀⟩ := Option.bind_eq_some_iff.1 hread
    obtain ⟨members, hmembers, -⟩ := Option.bind_eq_some_iff.1 hc₀
    exact ⟨members, .members h htext hd hmembers, (settles_iff hmembers).2 ⟨c₀, hc₀, rfl⟩⟩

theorem Gives.unique (h : Gives s c) (h' : Gives s c') : c' = c := by
  cases hdata : s.content? fileName with
  | none => rw [(gives_of_none hdata).1 h, (gives_of_none hdata).1 h']
  | some data =>
    obtain ⟨text, c₀, htext, hread, rfl⟩ := (gives_of_some hdata).1 h
    obtain ⟨text', c₀', htext', hread', rfl⟩ := (gives_of_some hdata).1 h'
    cases htext.symm.trans htext'
    cases hread.symm.trans hread'
    rfl

theorem Gives.usable (h : Gives s c) :
    0 < c.maxStacks ∧ 0 < c.historyCap ∧ 0 < c.maxReferenceDepth ∧ Text.IsVisible c.defaultOrderBy := by
  obtain ⟨members, -, hc⟩ := h
  exact ⟨hc.maxStacks.satisfies (by decide) (by decide), hc.historyCap.satisfies (by decide) (by decide),
    hc.maxReferenceDepth.satisfies (by decide) (by decide),
    hc.defaultOrderBy.satisfies isVisible_standard isVisible_standard⟩

abbrev Step := ExceptT Failure (StateM Storage)

def Step.save (c : Config) : Step Unit := do set (← ofExcept (c.save (← get)))

def Step.ensure : Step Unit := do
  unless (← get).contains fileName do Step.save standard

def decode (data : ByteArray) : Except Failure (String × Config) :=
  match String.fromUTF8? data with
  | none => .error .notText
  | some text => match read? text with
    | none => .error .malformed
    | some c => .ok (text, c)

def Step.read : Step Config := do
  let (text, c) ← ofExcept (decode (((← get).content? fileName).getD .empty))
  let c := c.repaired
  unless text = c.text do Step.save c
  return c

def Step.load : Step Config := do
  Step.ensure
  Step.read

/-- Tries to load the settings. Gives the outcome and the storage that is left. -/
def attempt (s : Storage) : Except Failure Config × Storage := Step.load.run.run s

theorem run_save_of_ok (h : c.save s = .ok s') : (Step.save c).run.run s = (.ok (), s') := by
  unfold Step.save
  rw [run_bind_of_ok (run_get s), h]
  exact run_bind_of_ok (run_ofExcept_ok s' s)

theorem run_save_of_error (h : c.save s = .error e) : (Step.save c).run.run s = (.error e, s) := by
  unfold Step.save
  rw [run_bind_of_ok (run_get s), h]
  exact run_bind_of_error (run_ofExcept_error e s)

theorem run_ensure (s : Storage) : Step.ensure.run.run s =
    if (s.content? fileName).isSome then (.ok (), s) else (Step.save standard).run.run s := by
  unfold Step.ensure
  rw [run_bind_of_ok (run_get s), Storage.contains]
  cases s.content? fileName with
  | none | some data => rfl

def outcome (s : Storage) : Except Failure (Config × Storage) → Except Failure Config × Storage
  | .ok (c, s') => (.ok c, s')
  | .error e => (.error e, s)

theorem load_of_none (h : s.content? fileName = none) :
    load s = (standard.save s).map fun s' => (standard, s') := by
  unfold load
  rw [h]
  rfl

theorem load_of_some (h : s.content? fileName = some data) : load s =
    match decode data with
    | .error e => .error e
    | .ok (text, c) =>
      if text = c.repaired.text then .ok (c.repaired, s) else (c.repaired.save s).map fun s' => (c.repaired, s') := by
  unfold load decode
  rw [h]
  dsimp only
  cases String.fromUTF8? data with
  | none => rfl
  | some text =>
    dsimp only
    cases read? text with
    | none | some c => rfl

theorem run_read (h : s.content? fileName = some data) : Step.read.run.run s = outcome s (load s) := by
  unfold Step.read
  rw [run_bind_of_ok (run_get s), h, Option.getD_some, load_of_some h]
  cases decode data with
  | error e => exact run_bind_of_error (run_ofExcept_error e s)
  | ok p =>
    obtain ⟨text, c⟩ := p
    rw [run_bind_of_ok (run_ofExcept_ok _ s)]
    dsimp only
    by_cases htext : text = c.repaired.text
    · rw [if_pos htext, if_pos htext]
      rfl
    · rw [if_neg htext, if_neg htext]
      cases hsave : c.repaired.save s with
      | ok s' => exact run_bind_of_ok (run_save_of_ok hsave)
      | error e => exact run_bind_of_error (run_save_of_error hsave)

theorem attempt_eq_load (s : Storage) : attempt s = outcome s (load s) := by
  unfold attempt Step.load
  have hensure := run_ensure s
  cases hdata : s.content? fileName with
  | some data =>
    rw [hdata] at hensure
    exact (run_bind_of_ok hensure).trans (run_read hdata)
  | none =>
    rw [hdata] at hensure
    have hload := load_of_none hdata
    cases hsave : standard.save s with
    | error e =>
      rw [hsave] at hload
      rw [hload]
      exact run_bind_of_error (hensure.trans (run_save_of_error hsave))
    | ok s' =>
      rw [hsave] at hload
      rw [hload, run_bind_of_ok (hensure.trans (run_save_of_ok hsave))]
      -- the file that has just been made is read back as it is
      cases save_eq_ok hsave
      rw [run_read (Storage.content?_put_self ..), load_again hload rfl]
      rfl

/-- Why the settings in a storage cannot be loaded: the file holds no text, or its text makes no settings, or its text
is not the one that its settings have and it cannot be written. -/
inductive Fails (s : Storage) : Failure → Prop
  | notText {data : ByteArray} (hdata : s.content? fileName = some data) (h : String.fromUTF8? data = none) :
      Fails s .notText
  | malformed {data : ByteArray} {text : String} (hdata : s.content? fileName = some data)
      (htext : String.fromUTF8? data = some text) (h : ∀ c, ¬Gives s c) : Fails s .malformed
  | unwritable {c : Config} (hc : Gives s c) (hfile : s.content? fileName ≠ some c.text.toUTF8)
      (h : s.writable = false) : Fails s .unwritable

theorem save_eq (c : Config) (s : Storage) :
    c.save s = if s.writable then .ok (s.put fileName c.text.toUTF8) else .error .unwritable := by
  have hdraft : Storage.draftFailure? fileName = none := by decide +kernel
  unfold save Storage.write Storage.writeFailure?
  cases s.writable with
  | false => rfl
  | true => cases s.medium <;> simp [hdraft]

theorem toUTF8_of_fromUTF8? (h : String.fromUTF8? data = some text) : text.toUTF8 = data := by
  unfold String.fromUTF8? at h
  split at h
  · cases h
    rfl
  · cases h

theorem content?_eq_iff (hdata : s.content? fileName = some data) (htext : String.fromUTF8? data = some text) :
    s.content? fileName = some c.text.toUTF8 ↔ text = c.text := by
  rw [hdata, Option.some_inj]
  constructor
  · rintro rfl
    exact Option.some.inj (htext.symm.trans (Store.fromUTF8?_toUTF8 _))
  · rintro rfl
    exact (toUTF8_of_fromUTF8? htext).symm

theorem load_of_gives (h : Gives s c) : load s =
    if s.content? fileName = some c.text.toUTF8 then .ok (c, s) else (c.save s).map fun s' => (c, s') := by
  cases hdata : s.content? fileName with
  | none =>
    cases (gives_of_none hdata).1 h
    rw [load_of_none hdata, if_neg nofun]
  | some data =>
    obtain ⟨text, c₀, htext, hread, rfl⟩ := (gives_of_some hdata).1 h
    have hdecode : decode data = .ok (text, c₀) := by
      rw [decode, htext]
      dsimp only
      rw [hread]
    rw [load_of_some hdata, hdecode, ← hdata]
    exact if_congr (content?_eq_iff hdata htext).symm rfl rfl

theorem load_of_not_gives (h : ∀ c, ¬Gives s c) : ∃ e, load s = .error e ∧ Fails s e := by
  cases hdata : s.content? fileName with
  | none => exact absurd ((gives_of_none hdata).2 rfl) (h standard)
  | some data =>
    rw [load_of_some hdata, decode]
    cases htext : String.fromUTF8? data with
    | none => exact ⟨_, rfl, .notText hdata htext⟩
    | some text =>
      dsimp only
      cases hread : read? text with
      | none => exact ⟨_, rfl, .malformed hdata htext h⟩
      | some c₀ => exact absurd ((gives_of_some hdata).2 ⟨text, c₀, htext, hread, rfl⟩) (h c₀.repaired)

theorem loads_or_fails (h : Gives s c) :
    load s = .error .unwritable ∧ Fails s .unwritable ∨
    ∃ s', load s = .ok (c, s') ∧ s'.content? fileName = some c.text.toUTF8 ∧
      (s.content? fileName = some c.text.toUTF8 → s' = s) := by
  rw [load_of_gives h, save_eq]
  by_cases hfile : s.content? fileName = some c.text.toUTF8
  · rw [if_pos hfile]
    exact .inr ⟨s, rfl, hfile, fun _ => rfl⟩
  · rw [if_neg hfile]
    cases hw : s.writable with
    | false => exact .inl ⟨rfl, .unwritable h hfile hw⟩
    | true => exact .inr ⟨_, rfl, Storage.content?_put_self .., fun hsame => absurd hsame hfile⟩

/-- Loading either fails for one of three reasons, and then leaves the storage as it was, or gives the settings that the
file makes, of which each is of use, and leaves a file with just their text; no other file is changed, and the
storage not at all if the text was there. Whatever else is written later, loading then gives them again and changes
nothing. -/
theorem attempt_normalizes (s : Storage) :
    (∃ e, attempt s = (.error e, s) ∧ Fails s e) ∨
    ∃ c s', attempt s = (.ok c, s') ∧ Gives s c ∧ (∀ c', Gives s c' → c' = c) ∧
      0 < c.maxStacks ∧ 0 < c.historyCap ∧ 0 < c.maxReferenceDepth ∧ Text.IsVisible c.defaultOrderBy ∧
      s'.content? fileName = some c.text.toUTF8 ∧ (∀ name ≠ fileName, s'.content? name = s.content? name) ∧
      (s.content? fileName = some c.text.toUTF8 → s' = s) ∧
      ∀ later : Storage, later.content? fileName = s'.content? fileName → attempt later = (.ok c, later) := by
  have hattempt := attempt_eq_load s
  by_cases h : ∃ c, Gives s c
  · obtain ⟨c, hc⟩ := h
    obtain ⟨hload, hfails⟩ | ⟨s', hload, hfile, hsame⟩ := loads_or_fails hc
    · rw [hload] at hattempt
      exact .inl ⟨_, hattempt, hfails⟩
    · rw [hload] at hattempt
      obtain ⟨hstacks, hcap, hdepth, horder⟩ := hc.usable
      refine .inr ⟨c, s', hattempt, hc, fun _ => hc.unique, hstacks, hcap, hdepth, horder, hfile,
        fun _ => content?_of_load hload, hsame, fun later hlater => ?_⟩
      rw [attempt_eq_load, load_again hload hlater]
      rfl
  · obtain ⟨e, he, hfails⟩ := load_of_not_gives (not_exists.1 h)
    rw [he] at hattempt
    exact .inl ⟨e, hattempt, hfails⟩

example : (load ⟨.directory, [(fileName, "history_cap: 0\ndefault_order_direction: asc\n".toUTF8)], true⟩).map (·.1) =
    .ok ⟨50, 1, 8, 50, "updated_at", .asc⟩ := by
  decide +kernel

end Config

end FilterQuery
