import Mathlib
import FilterQuery.Storage

namespace FilterQuery.Storage

inductive Request
  | write (name : String) (data : ByteArray)
  | read (name : String)
  | probe (name : String)
  | delete (name : String)

inductive Reply
  | done
  | bytes (data : ByteArray)
  | there (isThere : Bool)
  | failed (e : Failure)
  deriving DecidableEq

def Request.name : Request → String
  | write name _ | read name | probe name | delete name => name

def serve (s : Storage) : Request → Reply × Storage
  | .write name data => match s.write name data with
    | .ok s' => (.done, s')
    | .error e => (.failed e, s)
  | .read name => match s.read name with
    | .ok data => (.bytes data, s)
    | .error e => (.failed e, s)
  | .probe name => (.there (s.reaches name), s)
  | .delete name => match s.delete name with
    | .ok s' => (.done, s')
    | .error e => (.failed e, s)

/-- The answers to requests, one after the other. -/
def replies (s : Storage) : List Request → List Reply
  | [] => []
  | r :: rs => (s.serve r).1 :: (s.serve r).2.replies rs

/-- Whether a name is that of a file rather than a path. -/
structure IsPlain (name : String) : Prop where
  nonempty : name.toList ≠ []
  flat : '/' ∉ name.toList
  notBase : name.toList ≠ ['.']
  notAbove : name.toList ≠ ['.', '.']

def IsNameable (name : String) : Prop := '\x00' ∉ name.toList ∧ byteLength name.toList ≤ segmentLimit

def IsDraftable (name : String) : Prop :=
  '\x00' ∉ name.toList ∧ draftLength + byteLength name.toList ≤ segmentLimit

def Request.leaves (name : String) (there : Bool) : Request → Bool
  | .write other _ => other == name || there
  | .delete other => other != name && there
  | .read _ | .probe _ => there

/-- Whether a file of a name is there after requests on no files, if all are done. -/
def isThere (requests : List Request) (name : String) : Bool := requests.foldl (Request.leaves name) false

/-- Whether a request is one for storages of both kinds where these files are there. -/
def Request.Suits (there : String → Bool) : Request → Prop
  | .write name _ => IsDraftable name
  | .read name => there name = true ∨ IsNameable name
  | .probe _ => True
  | .delete name => there name = true

variable {s t : Storage} {name other : String} {r : Request}

theorem contains_put (s : Storage) (name : String) (data : ByteArray) (other : String) :
    (s.put name data).contains other = (name == other || s.contains other) := by
  by_cases h : name = other
  · subst h
    simp [contains]
  · simp [contains, content?_put_of_ne s data (Ne.symm h), h]

theorem lookup_filter_self (files : List (String × ByteArray)) (name : String) :
    (files.filter (·.1 != name)).lookup name = none := by
  rw [List.lookup_eq_none_iff]
  intro f hf
  have hne := (List.mem_filter.1 hf).2
  simp_all [bne_comm]

theorem contains_without (s : Storage) (name other : String) :
    contains { s with files := s.without name } other = (name != other && s.contains other) := by
  unfold contains content? without
  by_cases h : name = other
  · subst h
    simp [lookup_filter_self]
  · simp [lookup_filter_ne (Ne.symm h), h]

def missing (name : String) : Failure :=
  if '\x00' ∈ name.toList then .invalidName
  else if segmentLimit < byteLength name.toList then .nameTooLong
  else .notFound

theorem missing_eq_notFound : missing name = .notFound ↔ IsNameable name := by
  unfold missing IsNameable
  split
  · simp_all
  · split <;> simp_all

theorem ofName_of_plain (h : IsPlain name) {isFile : String → Bool} (hfile : isFile name = true → IsNameable name) :
    Place.ofName isFile name = if isFile name then .ok (.file name) else .error (missing name) := by
  have hhead : name.toList.head? ≠ some '/' := fun hslash => h.flat (List.mem_of_head? hslash)
  unfold Place.ofName missing
  dsimp only
  rw [if_neg hhead, segments_of_notMem h.flat]
  by_cases hnul : '\x00' ∈ name.toList
  · have hno : isFile name ≠ true := fun hf => (hfile hf).1 hnul
    simp [hnul, hno]
  · by_cases hlong : segmentLimit < byteLength name.toList
    · have hno : isFile name ≠ true := fun hf => absurd (hfile hf).2 (Nat.not_le.2 hlong)
      simp [hnul, hlong, hno, Place.follow, Place.enter, h.nonempty, h.notBase, h.notAbove]
    · cases hf : isFile name <;>
        simp [hnul, hlong, hf, Place.follow, Place.enter, h.nonempty, h.notBase, h.notAbove]

theorem draftFailure?_of_plain (h : IsPlain name) : draftFailure? name = none ↔ IsDraftable name := by
  unfold draftFailure? IsDraftable
  dsimp only
  rw [segments_of_notMem h.flat]
  by_cases hnul : '\x00' ∈ name.toList <;> simp [hnul]

theorem IsDraftable.isNameable (h : IsDraftable name) : IsNameable name :=
  ⟨h.1, Nat.le_trans (Nat.le_add_left _ _) h.2⟩

theorem serve_memory (hmedium : s.medium = .memory) (hwritable : s.writable = true) (r : Request) : s.serve r =
    match r with
    | .write name data => (.done, s.put name data)
    | .read name => ((s.content? name).elim (.failed .notFound) .bytes, s)
    | .probe name => (.there (s.contains name), s)
    | .delete name => (.done, { s with files := s.without name }) := by
  cases r with
  | write name data => simp [serve, write, writeFailure?, hmedium, hwritable]
  | read name => cases hdata : s.content? name <;> simp [serve, read, target, hmedium, hdata]
  | probe name => simp [serve, reaches, hmedium]
  | delete name => simp [serve, delete, target, hmedium]

structure IsOrdinary (t : Storage) : Prop where
  directory : t.medium = .directory
  writable : t.writable = true
  nameable : ∀ name, t.contains name = true → IsNameable name

theorem IsOrdinary.target (h : t.IsOrdinary) (plain : IsPlain name) :
    t.target name = if t.contains name then .ok name else .error (missing name) := by
  rw [Storage.target, h.directory]
  dsimp only
  rw [ofName_of_plain plain (h.nameable name)]
  cases t.contains name <;> rfl

theorem serve_directory (h : t.IsOrdinary) (r : Request) : IsPlain r.name → t.serve r =
    match r with
    | .write name data => (draftFailure? name).elim (.done, t.put name data) (.failed ·, t)
    | .read name => ((t.content? name).elim (.failed (missing name)) .bytes, t)
    | .probe name => (.there (t.contains name), t)
    | .delete name =>
      if t.contains name then (.done, { t with files := t.without name }) else (.failed (missing name), t) := by
  intro plain
  cases r with
  | write name data =>
    cases hdraft : draftFailure? name <;> simp [serve, write, writeFailure?, h.directory, h.writable, hdraft]
  | read name =>
    have htarget : t.target name = _ := h.target plain
    cases hdata : t.content? name <;> simp [serve, read, htarget, contains, hdata]
  | probe name =>
    have hplace : Place.ofName t.contains name = _ := ofName_of_plain plain (h.nameable name)
    cases hthere : t.contains name <;>
      simp [serve, reaches, h.directory, hplace, Request.name, hthere, Except.isOk, Except.toBool]
  | delete name =>
    have htarget : t.target name = _ := h.target plain
    cases hthere : t.contains name <;> simp [serve, delete, htarget, hthere]

structure Alike (s t : Storage) : Prop where
  memory : s.medium = .memory
  writable : s.writable = true
  ordinary : t.IsOrdinary
  files : t.files = s.files

namespace Alike

variable (h : Alike s t)

include h

theorem content? (name : String) : t.content? name = s.content? name := by
  unfold Storage.content?
  rw [h.files]

theorem contains (name : String) : t.contains name = s.contains name := by
  unfold Storage.contains
  rw [h.content?]

theorem put (data : ByteArray) (hname : IsNameable name) : Alike (s.put name data) (t.put name data) where
  memory := h.memory
  writable := h.writable
  ordinary := {
    directory := h.ordinary.directory
    writable := h.ordinary.writable
    nameable := fun other hother => by
      rw [contains_put, Bool.or_eq_true, beq_iff_eq] at hother
      obtain rfl | hother := hother
      · exact hname
      · exact h.ordinary.nameable other hother }
  files := by
    unfold Storage.put without
    rw [h.files]

theorem without (name : String) :
    Alike { s with files := s.without name } { t with files := t.without name } where
  memory := h.memory
  writable := h.writable
  ordinary := {
    directory := h.ordinary.directory
    writable := h.ordinary.writable
    nameable := fun other hother => by
      rw [contains_without, Bool.and_eq_true] at hother
      exact h.ordinary.nameable other hother.2 }
  files := by
    unfold Storage.without
    rw [h.files]

theorem reply_eq_iff (plain : IsPlain r.name) : (s.serve r).1 = (t.serve r).1 ↔ r.Suits s.contains := by
  rw [serve_memory h.memory h.writable, serve_directory h.ordinary r plain]
  cases r with
  | write name data =>
    have hdraftable : draftFailure? name = none ↔ IsDraftable name := draftFailure?_of_plain plain
    rw [Request.Suits, ← hdraftable]
    cases hdraft : draftFailure? name <;> simp [hdraft]
  | read name =>
    rw [Request.Suits, ← missing_eq_notFound, Storage.contains]
    dsimp only
    rw [h.content?]
    cases s.content? name <;> simp [eq_comm]
  | probe name => simp [Request.Suits, h.contains]
  | delete name =>
    rw [Request.Suits, ← h.contains]
    cases hthere : t.contains name <;> simp [hthere]

theorem serve (plain : IsPlain r.name) (hsuits : r.Suits s.contains) : Alike (s.serve r).2 (t.serve r).2 := by
  rw [serve_memory h.memory h.writable, serve_directory h.ordinary r plain]
  cases r with
  | write name data =>
    have hdraft : draftFailure? name = none := (draftFailure?_of_plain plain).2 hsuits
    dsimp only
    rw [hdraft]
    exact h.put data (IsDraftable.isNameable hsuits)
  | read name | probe name => exact h
  | delete name =>
    have hthere : t.contains name = true := (h.contains name).trans hsuits
    dsimp only
    rw [if_pos hthere]
    exact h.without name

end Alike

theorem contains_serve (hmedium : s.medium = .memory) (hwritable : s.writable = true) (r : Request) (name : String) :
    (s.serve r).2.contains name = r.leaves name (s.contains name) := by
  rw [serve_memory hmedium hwritable]
  cases r with
  | write other data => exact contains_put s other data name
  | read | probe => rfl
  | delete other => exact contains_without s other name

theorem forall_split_cons {α : Type} {p : List α → α → Prop} {a : α} {as : List α} :
    (∀ before b after, a :: as = before ++ b :: after → p before b) ↔
      p [] a ∧ ∀ before b after, as = before ++ b :: after → p (a :: before) b := by
  constructor
  · intro h
    exact ⟨h [] a as rfl, fun before b after has => h (a :: before) b after (congrArg (a :: ·) has)⟩
  · rintro ⟨hfirst, hrest⟩ before b after has
    cases before with
    | nil =>
      cases has
      exact hfirst
    | cons _ before =>
      cases has
      exact hrest before b after rfl

theorem Alike.replies_eq (h : Alike s t) {requests earlier : List Request}
    (plain : ∀ r ∈ requests, IsPlain r.name) (hthere : s.contains = isThere earlier) :
    s.replies requests = t.replies requests ↔
      ∀ before r after, requests = before ++ r :: after → r.Suits (isThere (earlier ++ before)) := by
  induction requests generalizing s t earlier with
  | nil => simp [replies]
  | cons r rs ih =>
    obtain ⟨hr, hrs⟩ := List.forall_mem_cons.1 plain
    rw [replies, replies, List.cons_eq_cons, h.reply_eq_iff hr, forall_split_cons, List.append_nil, ← hthere]
    refine and_congr_right fun hsuits => ?_
    have hlater : (s.serve r).2.contains = isThere (earlier ++ [r]) := by
      funext name
      rw [contains_serve h.memory h.writable, hthere, isThere, isThere, List.foldl_append]
      rfl
    rw [ih (h.serve hr hsuits) hrs hlater]
    simp only [List.append_assoc, List.singleton_append]

/-- A storage in memory and a directory, both empty and asked the same about plain names, answer all alike if and only
if the directory can have drafts of all files written, could have each file that is read, and each file that is taken
away has been written and not been taken away since. -/
theorem replies_eq_iff {requests : List Request} (plain : ∀ r ∈ requests, IsPlain r.name) :
    (empty .memory).replies requests = (empty .directory).replies requests ↔
      ∀ before r after, requests = before ++ r :: after → r.Suits (isThere before) := by
  have h : Alike (empty .memory) (empty .directory) := ⟨rfl, rfl, ⟨rfl, rfl, nofun⟩, rfl⟩
  have hthere : (empty .memory).contains = isThere [] := rfl
  exact h.replies_eq plain hthere

theorem replies_eq_again :
    ∃ requests : List Request, requests = [.write "a" "x".toUTF8, .write "a" "y".toUTF8, .read "a", .delete "a",
        .read "a", .probe "b", .write "a" "z".toUTF8, .delete "a"] ∧
      (∀ r ∈ requests, IsPlain r.name) ∧ (empty .memory).replies requests = (empty .directory).replies requests ∧
      (empty .memory).replies requests = [.done, .done, .bytes "y".toUTF8, .done, .failed .notFound, .there false,
        .done, .done] := by
  have ha : IsPlain "a" := ⟨by decide, by decide, by decide, by decide⟩
  have hb : IsPlain "b" := ⟨by decide, by decide, by decide, by decide⟩
  have plain : ∀ r ∈ [Request.write "a" "x".toUTF8, .write "a" "y".toUTF8, .read "a", .delete "a", .read "a",
      .probe "b", .write "a" "z".toUTF8, .delete "a"], IsPlain r.name := by
    simp [Request.name, ha, hb]
  refine ⟨_, rfl, plain, (replies_eq_iff plain).2 ?_, by decide +kernel⟩
  have hdraft : IsDraftable "a" := ⟨by decide, by decide⟩
  simp [forall_split_cons, Request.Suits, isThere, Request.leaves, hdraft, hdraft.isNameable]

theorem replies_differ_absent :
    (∀ r ∈ [Request.delete "a"], IsPlain r.name) ∧ (empty .memory).replies [.delete "a"] = [.done] ∧
      (empty .directory).replies [.delete "a"] = [.failed .notFound] := by
  refine ⟨?_, by decide +kernel, by decide +kernel⟩
  simp only [List.forall_mem_singleton]
  exact ⟨by decide, by decide, by decide, by decide⟩

end FilterQuery.Storage
