import FilterQuery.History
import Mathlib.Data.List.DropRight

/-! The history beside a zipper of refinements: those before the current one, the current one, and those that were
undone. Whatever is done to the history is done to the zipper, which keeps only so many refinements behind the
current one. -/

namespace FilterQuery

/-- What can be done to a history. -/
inductive Move
  | push (tree : Tree) (count : Nat) (label : Option String) (now : Nat)
  | undo
  | redo
  | goTo (index : Nat)
  | reset (total now : Nat)

/-- Makes moves in order, and collects what each of them gives. -/
def Move.runAll {σ α : Type} (move : σ → Move → σ × α) : σ → List Move → σ × List α
  | s, [] => (s, [])
  | s, m :: ms =>
    let (s', a) := move s m
    let (s'', as) := runAll move s' ms
    (s'', a :: as)

/-- A refinement, those before it, the oldest first, and those that come when it is redone. -/
structure Zipper where
  past : List Refinement
  current : Refinement
  future : List Refinement

namespace Zipper

def start (total now : Nat) : Zipper := ⟨[], .all total now, []⟩

def all (z : Zipper) : List Refinement := z.past ++ z.current :: z.future

def push (cap : Nat) (r : Refinement) (z : Zipper) : Zipper :=
  ⟨(z.past ++ [z.current]).rtake (max cap 1 - 1), r, []⟩

def undo? (z : Zipper) : Option Zipper :=
  z.past.getLast?.map fun r => ⟨z.past.dropLast, r, z.current :: z.future⟩

def redo? (z : Zipper) : Option Zipper :=
  z.future.head?.map fun r => ⟨z.past ++ [z.current], r, z.future.tail⟩

def goTo? (index : Nat) (z : Zipper) : Option Zipper :=
  z.all[index]?.map fun r => ⟨z.all.take index, r, z.all.drop (index + 1)⟩

/-- Makes a move, and gives the refinement that was moved to. A move that cannot be made changes nothing. -/
def move (cap : Nat) (z : Zipper) : Move → Zipper × Option Refinement
  | .push t count label now =>
    let r := .ofTree t count label now
    (z.push cap r, some r)
  | .undo => (z.undo?.getD z, z.undo?.map current)
  | .redo => (z.redo?.getD z, z.redo?.map current)
  | .goTo i => ((z.goTo? i).getD z, (z.goTo? i).map current)
  | .reset total now => (start total now, none)

end Zipper

namespace History

/-- Makes a move, and gives the refinement that was moved to. -/
def move (h : History) : Move → History × Option Refinement
  | .push t count label now =>
    let h' := h.push (.ofTree t count label now)
    (h', some h'.current)
  | .undo => (h.undo?.getD h, h.undo?.map current)
  | .redo => (h.redo?.getD h, h.redo?.map current)
  | .goTo i => ((h.goTo? i).getD h, (h.goTo? i).map current)
  | .reset total now => (h.reset total now, none)

structure Shows (h : History) (z : Zipper) : Prop where
  steps : h.steps = z.all
  index : h.index = z.past.length

section

variable {h : History} {z : Zipper}

theorem Shows.current (hz : h.Shows z) : h.current = z.current := by
  simp [History.current, hz.steps, hz.index, Zipper.all]

theorem Shows.breadcrumbs (hz : h.Shows z) : h.breadcrumbs = z.past ++ [z.current] := by
  rw [History.breadcrumbs, hz.steps, hz.index, Zipper.all, List.take_length_add_append]
  rfl

theorem Shows.canUndo (hz : h.Shows z) : h.canUndo = !z.past.isEmpty := by
  rw [History.canUndo, hz.index]
  cases z.past <;> simp

theorem Shows.canRedo (hz : h.Shows z) : h.canRedo = !z.future.isEmpty := by
  rw [History.canRedo, hz.index, hz.steps, Zipper.all, List.length_append, List.length_cons]
  cases z.future <;> simp

theorem shows_start (total cap now : Nat) : (start total cap now).Shows (.start total now) := ⟨rfl, rfl⟩

theorem extended_eq (h : History) (r : Refinement) :
    h.extended r = h.breadcrumbs.rtake (max h.cap 1 - 1) ++ [r] := by
  have hcap : max h.cap 1 = max h.cap 1 - 1 + 1 := by omega
  have hdrop : h.extended r = (h.breadcrumbs ++ [r]).rtake (max h.cap 1) := rfl
  rw [hdrop, hcap, List.rtake_concat_succ, Nat.add_sub_cancel]

theorem Shows.push (hz : h.Shows z) (r : Refinement) : (h.push r).Shows (z.push h.cap r) where
  steps := by
    rw [History.push, Zipper.push, Zipper.all, ← hz.breadcrumbs]
    exact h.extended_eq r
  index := by
    rw [History.push, Zipper.push, ← hz.breadcrumbs]
    simp [h.extended_eq r]

theorem Shows.goTo? (hz : h.Shows z) (i : Nat) : Option.Rel Shows (h.goTo? i) (z.goTo? i) := by
  unfold History.goTo? Zipper.goTo?
  rw [← hz.steps]
  split
  · next hi =>
    rw [List.getElem?_eq_getElem hi]
    refine .some ⟨?_, ?_⟩
    · rw [Zipper.all, List.getElem_cons_drop, List.take_append_drop]
    · rw [List.length_take, Nat.min_eq_left hi.le]
  · next hi =>
    rw [List.getElem?_eq_none (Nat.le_of_not_lt hi)]
    exact .none

theorem Shows.undo? (hz : h.Shows z) : Option.Rel Shows h.undo? z.undo? := by
  unfold History.undo? Zipper.undo?
  rw [hz.canUndo]
  rcases List.eq_nil_or_concat' z.past with hpast | ⟨past, r, hpast⟩
  · rw [hpast]
    exact .none
  · have hsteps : h.steps = past ++ r :: z.current :: z.future := by simp [hz.steps, Zipper.all, hpast]
    have hindex : h.index = past.length + 1 := by simp [hz.index, hpast]
    have hlt : h.index - 1 < h.steps.length := by
      rw [hsteps, List.length_append, List.length_cons]
      omega
    rw [if_pos (by simp [hpast]), History.goTo?, dif_pos hlt, hpast, List.getLast?_concat, List.dropLast_concat]
    exact .some ⟨hsteps, Nat.sub_eq_of_eq_add hindex⟩

theorem Shows.redo? (hz : h.Shows z) : Option.Rel Shows h.redo? z.redo? := by
  have hlength : h.steps.length = h.index + (z.future.length + 1) := by
    rw [hz.steps, hz.index, Zipper.all, List.length_append, List.length_cons]
  unfold History.redo? Zipper.redo? History.goTo?
  cases hfuture : z.future with
  | nil =>
    rw [dif_neg (by simp [hlength, hfuture])]
    exact .none
  | cons r future =>
    rw [dif_pos (by simp [hlength, hfuture])]
    exact .some ⟨by simp [hz.steps, Zipper.all, hfuture], by simp [hz.index]⟩

theorem Shows.getD (hz : h.Shows z) {h' : Option History} {z' : Option Zipper}
    (hrel : Option.Rel Shows h' z') :
    (h'.getD h).Shows (z'.getD z) ∧ h'.map History.current = z'.map Zipper.current := by
  cases hrel with
  | some hs => exact ⟨hs, congrArg some hs.current⟩
  | none => exact ⟨hz, rfl⟩

theorem Shows.move (hz : h.Shows z) (m : Move) :
    (h.move m).1.Shows (z.move h.cap m).1 ∧ (h.move m).2 = (z.move h.cap m).2 := by
  cases m with
  | push t count label now =>
    have hpush := hz.push (.ofTree t count label now)
    exact ⟨hpush, congrArg some hpush.current⟩
  | undo => exact hz.getD hz.undo?
  | redo => exact hz.getD hz.redo?
  | goTo i => exact hz.getD (hz.goTo? i)
  | reset total now => exact ⟨shows_start total h.cap now, rfl⟩

theorem steps_goTo? (h : History) (i : Nat) : ((h.goTo? i).getD h).steps = h.steps := by
  unfold History.goTo?
  split <;> rfl

theorem cap_goTo? (h : History) (i : Nat) : ((h.goTo? i).getD h).cap = h.cap := by
  unfold History.goTo?
  split <;> rfl

theorem undo?_eq (h : History) : h.undo? = none ∨ h.undo? = h.goTo? (h.index - 1) := by
  unfold History.undo?
  split
  · exact .inr rfl
  · exact .inl rfl

theorem steps_undo? (h : History) : (h.undo?.getD h).steps = h.steps := by
  rcases h.undo?_eq with hu | hu
  · rw [hu]; rfl
  · rw [hu, steps_goTo?]

theorem cap_undo? (h : History) : (h.undo?.getD h).cap = h.cap := by
  rcases h.undo?_eq with hu | hu
  · rw [hu]; rfl
  · rw [hu, cap_goTo?]

theorem cap_move (h : History) (m : Move) : (h.move m).1.cap = h.cap := by
  cases m with
  | push | reset => rfl
  | undo => exact h.cap_undo?
  | redo => exact h.cap_goTo? _
  | goTo i => exact h.cap_goTo? i

theorem length_move_le (h : History) (m : Move) (hle : h.steps.length ≤ max h.cap 1) :
    (h.move m).1.steps.length ≤ max h.cap 1 := by
  cases m with
  | push t count label now =>
    change (h.extended _).length ≤ _
    rw [extended, List.length_drop]
    omega
  | undo => exact h.steps_undo?.symm ▸ hle
  | redo => exact (h.steps_goTo? _).symm ▸ hle
  | goTo i => exact (h.steps_goTo? i).symm ▸ hle
  | reset => exact Nat.le_max_right ..

end

theorem length_run_le (h : History) (ms : List Move) (hle : h.steps.length ≤ max h.cap 1) :
    (Move.runAll History.move h ms).1.steps.length ≤ max h.cap 1 := by
  induction ms generalizing h with
  | nil => exact hle
  | cons m ms ih =>
    have hstep := h.length_move_le m hle
    rw [← h.cap_move m] at hstep ⊢
    exact ih _ hstep

theorem Shows.run {h : History} {z : Zipper} (hz : h.Shows z) (ms : List Move) :
    (Move.runAll History.move h ms).1.Shows (Move.runAll (Zipper.move h.cap) z ms).1 ∧
      (Move.runAll History.move h ms).2 = (Move.runAll (Zipper.move h.cap) z ms).2 := by
  induction ms generalizing h z with
  | nil => exact ⟨hz, rfl⟩
  | cons m ms ih =>
    obtain ⟨hshows, hgives⟩ := hz.move m
    obtain ⟨hrun, hall⟩ := ih hshows
    -- No move changes how many refinements are kept, so one bound serves for the whole run.
    rw [h.cap_move m] at hrun hall
    exact ⟨hrun, congrArg₂ List.cons hgives hall⟩

/-- A history goes through any moves as the zipper does. There is always a current refinement and never more of
them than are to be kept, and to move along them makes no others of them. -/
theorem run_follows_zipper (total cap now : Nat) (ms : List Move) :
    let h := (Move.runAll History.move (start total cap now) ms).1
    let z := (Move.runAll (Zipper.move cap) (.start total now) ms).1
    (Move.runAll History.move (start total cap now) ms).2 = (Move.runAll (Zipper.move cap) (.start total now) ms).2 ∧
    (h.steps = z.past ++ z.current :: z.future ∧ h.index = z.past.length ∧ h.current = z.current) ∧
    (h.breadcrumbs = z.past ++ [z.current] ∧ h.canUndo = !z.past.isEmpty ∧ h.canRedo = !z.future.isEmpty) ∧
    (h.index < h.steps.length ∧ h.steps.length ≤ max cap 1) ∧
    (h.move .undo).1.steps = h.steps ∧ (h.move .redo).1.steps = h.steps ∧
      ∀ i, (h.move (.goTo i)).1.steps = h.steps := by
  intro h z
  obtain ⟨hz, hgives⟩ := (shows_start total cap now).run ms
  have hz : h.Shows z := hz
  refine ⟨hgives, ⟨hz.steps, hz.index, hz.current⟩, ⟨hz.breadcrumbs, hz.canUndo, hz.canRedo⟩,
    ⟨h.index_lt, ?_⟩, h.steps_undo?, h.steps_goTo? _, h.steps_goTo?⟩
  exact length_run_le (start total cap now) ms (Nat.le_max_right cap 1)

end History

end FilterQuery
