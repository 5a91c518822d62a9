import FilterQuery.Proofs.Json
import FilterQuery.Proofs.Walk.Overflow

namespace FilterQuery

open Json

namespace Compiled

def pageFields (c : Compiled) : List (String × Option Json) := [
  ("limit", some (ofNat c.page.limit)),
  ("offset", some (ofNat c.page.offset)),
  ("orderBy", some (.string c.page.orderBy)),
  ("orderDirection", some (.string c.page.direction.name))]

variable {c : Compiled}

section

variable {key : String} {j : Json}

end

end Compiled

def Double.received? (x : Double) : Option (Option Double) :=
  if x.isFinite then ((Json.read? (realText x)).bind asDouble?).map some else some none

def receivedEnd? : Option Double → Option (Option Double)
  | none => some none
  | some x => x.received?

def Bounds.received? (b : Bounds Double) : Option (Bounds Double) :=
  (receivedEnd? b.least).bind fun least => (receivedEnd? b.greatest).map fun greatest => ⟨least, greatest⟩

/-- What is read where a query is written as JSON: its ends are what their texts are read as. -/
def Compiled.received? (c : Compiled) : Option Compiled :=
  c.quality.received?.bind fun quality => c.similarity.received?.map fun similarity =>
    { c with quality := quality, similarity := similarity }

namespace Compiled

variable {c : Compiled}

/-- The ends of the decimal ranges that are numbers are read from their texts. -/
def IsLegible (c : Compiled) : Prop :=
  AllBounds (fun x => x.isFinite = true → x.IsLegible) c.quality ∧
    AllBounds (fun x => x.isFinite = true → x.IsLegible) c.similarity

/-- The ends of the decimal ranges that are numbers are short. -/
def IsShort (c : Compiled) : Prop :=
  AllBounds (fun x => x.isFinite = true → x.IsShort) c.quality ∧
    AllBounds (fun x => x.isFinite = true → x.IsShort) c.similarity

theorem Double.received?_eq_iff {x : Double} : x.received? = some (some x) ↔ x.isFinite = true ∧ x.IsLegible := by
  rw [Double.received?, Double.IsLegible]
  cases x.isFinite with
  | false => simp
  | true => cases (Json.read? (realText x)).bind asDouble? <;> simp

theorem bounds_received?_eq_iff {b : Bounds Double} (h : AllBounds Double.IsUnsigned b) : b.received? = some b ↔
    (b.least ≠ some (.infinite false) ∧ b.greatest ≠ some (.infinite false)) ∧
      AllBounds (fun x => x.isFinite = true → x.IsLegible) b := by
  have hend : ∀ e : Option Double, (∀ x, e = some x → x.IsUnsigned) → (receivedEnd? e = some e ↔
      e ≠ some (.infinite false) ∧ ∀ x, e = some x → x.isFinite = true → x.IsLegible) := by
    rintro (_ | x) hx
    · simp [receivedEnd?]
    · rw [receivedEnd?, Double.received?_eq_iff]
      rcases hx x rfl with ⟨m, e, hnormal, rfl⟩ | rfl
      · simp [Double.isFinite]
      · simp [Double.isFinite]
  have hleast := hend b.least h.1
  have hgreatest := hend b.greatest h.2
  have hboth : b.received? = some b ↔
      receivedEnd? b.least = some b.least ∧ receivedEnd? b.greatest = some b.greatest := by
    rcases b with ⟨least, greatest⟩
    simp [Bounds.received?, Option.bind_eq_some_iff]
  rw [hboth, hleast, hgreatest, AllBounds]
  exact and_and_and_comm

theorem received?_eq_iff {c : Compiled} (h : c.IsRead) : c.received? = some c ↔
    ((c.quality.least ≠ some (.infinite false) ∧ c.quality.greatest ≠ some (.infinite false)) ∧
      c.similarity.least ≠ some (.infinite false) ∧ c.similarity.greatest ≠ some (.infinite false)) ∧ c.IsLegible := by
  have hboth : c.received? = some c ↔
      c.quality.received? = some c.quality ∧ c.similarity.received? = some c.similarity := by
    rcases c with ⟨⟩
    simp [received?, Option.bind_eq_some_iff]
  rw [hboth, bounds_received?_eq_iff h.quality, bounds_received?_eq_iff h.similarity, IsLegible]
  exact and_and_and_comm

end Compiled

namespace Tree

variable {t : Tree}

end Tree

end FilterQuery
