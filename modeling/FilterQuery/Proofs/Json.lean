import FilterQuery.Compiled.Json
import FilterQuery.Proofs.Json.Number

namespace FilterQuery

namespace Json

section

variable {fs : List (String × Option Json)} {key : String}

end

section

variable {α : Type} {read : Json → Option α} {f : α → Json} {j : Json} {key : String}

theorem optional?_eq {a : Option α} (hget : j.get? key = a.map f)
    (h : ∀ x ∈ a, f x ≠ .null ∧ read (f x) = some x) : optional? read key j = some a := by
  rw [optional?, hget]
  cases a with
  | none => rfl
  | some x =>
    obtain ⟨hnull, hread⟩ := h x rfl
    rw [Option.map_some]
    split
    · next heq => cases heq
    · next heq => exact absurd (Option.some.inj heq) hnull
    · next heq => rw [← Option.some.inj heq, hread, Option.map_some]

theorem withDefault?_eq {v : Json} (hget : j.get? key = some v) (default : α) :
    withDefault? read key default j = read v := by
  rw [withDefault?, hget]

theorem required?_eq {v : Json} (hget : j.get? key = some v) : required? read key j = read v := by
  rw [required?, hget, Option.bind_some]

theorem asInt64?_int {n : Int} (h : Number.fitsInt n = true) : asInt64? (.int n) = some n := if_pos h

end

end Json

open Json

namespace RegexTest

variable (r : RegexTest)

def fields : List (String × Option Json) :=
  [("pattern", some (.string r.pattern)), ("flags", some (.string r.flags)), ("field", r.field.map .string)]

end RegexTest

namespace Compiled

variable {b : Bounds Int}

end Compiled

end FilterQuery
