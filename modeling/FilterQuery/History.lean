import FilterQuery.Compiled.Text
import FilterQuery.Tree

/-! The refinements of a result set, one after the other, with a current one among them. Undoing and redoing
move along them; a new refinement replaces whatever was undone. -/

namespace FilterQuery

structure Refinement where
  id : String
  tree : Tree
  count : Nat
  -- In milliseconds.
  timestamp : Int
  label : String
  deriving DecidableEq

namespace Refinement

def query (r : Refinement) : String := r.tree.query

def make (tree : Tree) (count : Nat) (label : String) (now : Nat) : Refinement :=
  ⟨Number.identifier now, tree, count, now, label⟩

def all (total : Nat) (now : Nat := 0) : Refinement := make .empty total s!"All ({total})" now

def ofTree (t : Tree) (count : Nat) (label : Option String) (now : Nat := 0) : Refinement :=
  make t count (label.getD ((Compiled.ofNode? .standard t.root).label count)) now

end Refinement

structure History where
  -- How many refinements are kept, if it is positive; there is always one.
  cap : Nat
  steps : List Refinement
  index : Nat
  index_lt : index < steps.length

namespace History

def start (total cap : Nat) (now : Nat := 0) : History := ⟨cap, [.all total now], 0, Nat.zero_lt_one⟩

def current (h : History) : Refinement := h.steps.get ⟨h.index, h.index_lt⟩

def breadcrumbs (h : History) : List Refinement := h.steps.take (h.index + 1)

def canUndo (h : History) : Bool := 0 < h.index

def canRedo (h : History) : Bool := h.index + 1 < h.steps.length

def extended (h : History) (r : Refinement) : List Refinement :=
  let steps := h.breadcrumbs ++ [r]
  steps.drop (steps.length - max h.cap 1)

theorem extended_length_pos (h : History) (r : Refinement) : 0 < (h.extended r).length := by
  simp only [extended, List.length_drop, List.length_append, List.length_singleton]
  omega

def push (h : History) (r : Refinement) : History :=
  ⟨h.cap, h.extended r, (h.extended r).length - 1, Nat.sub_one_lt (Nat.ne_of_gt (h.extended_length_pos r))⟩

def goTo? (h : History) (index : Nat) : Option History :=
  if hi : index < h.steps.length then some ⟨h.cap, h.steps, index, hi⟩ else none

def undo? (h : History) : Option History := if h.canUndo then h.goTo? (h.index - 1) else none

def redo? (h : History) : Option History := h.goTo? (h.index + 1)

def reset (h : History) (total : Nat) (now : Nat := 0) : History := start total h.cap now

end History

end FilterQuery
