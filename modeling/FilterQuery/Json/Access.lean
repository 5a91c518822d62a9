import FilterQuery.Json

namespace FilterQuery

namespace Json

def asString? : Json → Option String
  | string s => some s
  | _ => none

def asBool? : Json → Option Bool
  | bool b => some b
  | _ => none

def asArray? : Json → Option (List Json)
  | array items => some items
  | _ => none

def asDouble? : Json → Option Double
  | int n => some (Double.ofInt n)
  | real x => some x
  | _ => none

def asNatBelow? (limit : Nat) : Json → Option Nat
  | int (.ofNat n) => if n < limit then some n else none
  | _ => none

def optional? (read : Json → Option α) (key : String) (j : Json) : Option (Option α) :=
  match j.get? key with
  | none | some null => some none
  | some v => (read v).map some

def withDefault? (read : Json → Option α) (key : String) (default : α) (j : Json) : Option α :=
  match j.get? key with
  | none => some default
  | some v => read v

def required? (read : Json → Option α) (key : String) (j : Json) : Option α :=
  (j.get? key).bind read

def withDefaults (defaults : List (String × Json)) : Json → Json
  | object members => object (members ++ defaults.filter fun d => members.all (·.1 != d.1))
  | j => j

/-- A record as an object: either it is one, in which no key stands twice, or it is the array of its members' values in
the order of `keys`, of which the last may be left out. -/
def record? (keys : List String) : Json → Option Json
  | object members =>
    if keys.all fun key => (members.filter (·.1 == key)).length ≤ 1 then some (object members) else none
  | array items => if items.length ≤ keys.length then some (object (keys.zip items)) else none
  | _ => none

def choice? (isNothing : Json → Bool) : Json → Option String
  | string s => some s
  | object [(key, v)] => if isNothing v then some key else none
  | _ => none

def isNull : Json → Bool
  | null => true
  | _ => false

def isNullOrEmpty : Json → Bool
  | null | object [] => true
  | _ => false

def listOf? (read : Json → Option α) (j : Json) : Option (List α) :=
  j.asArray?.bind (·.mapM read)

theorem sizeOf_get? {j v : Json} {key : String} (h : j.get? key = some v) : sizeOf v < sizeOf j := by
  unfold get? at h
  split at h
  · next members =>
    obtain ⟨⟨k, w⟩, hm, rfl⟩ := Option.map_eq_some_iff.1 h
    have := List.sizeOf_lt_of_mem (List.mem_of_find?_eq_some hm)
    simp only [Prod.mk.sizeOf_spec, object.sizeOf_spec] at this ⊢
    omega
  · cases h

theorem sizeOf_get?_record? {j r v : Json} {keys : List String} {key : String}
    (hr : j.record? keys = some r) (hv : r.get? key = some v) : sizeOf v < sizeOf j := by
  unfold record? at hr
  split at hr
  · split at hr
    · cases hr
      exact sizeOf_get? hv
    · cases hr
  · split at hr
    · cases hr
      obtain ⟨⟨k, w⟩, hm, rfl⟩ := Option.map_eq_some_iff.1 hv
      have := List.sizeOf_lt_of_mem (List.of_mem_zip (List.mem_of_find?_eq_some hm)).2
      simp only [array.sizeOf_spec]
      omega
    · cases hr
  · cases hr

end Json

end FilterQuery
