import FilterQuery.Proofs.Canonical.RoundTrip

namespace FilterQuery

open Calendar (Period)

section

variable {α : Type} {R : α → α → Prop} {P : α → Prop} {pick : α → α → α} {as bs : List α} {e : Option α}

def IsTightest (R : α → α → Prop) (as : List α) : Option α → Prop
  | none => as = []
  | some a => a ∈ as ∧ ∀ b ∈ as, R b a

def Picks (R : α → α → Prop) (P : α → Prop) (pick : α → α → α) : Prop :=
  ∀ a b, P a → P b → (pick a b = a ∨ pick a b = b) ∧ R a (pick a b) ∧ R b (pick a b)

structure Orders (R : α → α → Prop) (P : α → Prop) : Prop where
  refl : ∀ a, P a → R a a
  trans : ∀ a b c, R a b → R b c → R a c
  antisymm : ∀ a b, P a → P b → R a b → R b a → a = b

theorem Orders.flip (h : Orders R P) : Orders (fun a b => R b a) P where
  refl := h.refl
  trans a b c hab hbc := h.trans c b a hbc hab
  antisymm a b ha hb hab hba := h.antisymm a b ha hb hba hab

theorem isTightest_foldl (hR : Orders R P) (hpick : Picks R P pick) {es : List (Option α)}
    (hP : ∀ e ∈ es, ∀ a ∈ e, P a) : IsTightest R es.reduceOption (es.foldl (Bounds.tighter pick) none) := by
  induction es using List.reverseRecOn with
  | nil => rfl
  | append_singleton es e ih =>
    obtain ⟨hes, he⟩ := List.forall_mem_append.1 hP
    have ih := ih hes
    rw [List.foldl_append, List.foldl_cons, List.foldl_nil, List.reduceOption_append]
    cases e with
    | none =>
      have hnone : Bounds.tighter pick (es.foldl (Bounds.tighter pick) none) none
          = es.foldl (Bounds.tighter pick) none := by
        cases es.foldl (Bounds.tighter pick) none <;> rfl
      rw [hnone, List.reduceOption_cons_of_none, List.reduceOption_nil, List.append_nil]
      exact ih
    | some a =>
      have ha : P a := he _ (List.mem_singleton_self _) a rfl
      rw [List.reduceOption_cons_of_some, List.reduceOption_nil]
      cases hfold : es.foldl (Bounds.tighter pick) none with
      | none =>
        rw [hfold] at ih
        rw [show es.reduceOption = [] from ih]
        exact ⟨List.mem_singleton_self a, List.forall_mem_singleton.2 (hR.refl a ha)⟩
      | some b =>
        rw [hfold] at ih
        obtain ⟨hmem, hall⟩ := ih
        have hb : P b := hes (some b) (List.reduceOption_mem_iff.1 hmem) b rfl
        obtain ⟨hone, hleft, hright⟩ := hpick b a hb ha
        refine ⟨?_, List.forall_mem_append.2 ⟨fun c hc => ?_, List.forall_mem_singleton.2 hright⟩⟩
        · rcases hone with hone | hone
          · exact List.mem_append_left _ (hone.symm ▸ hmem)
          · exact List.mem_append_right _ (hone.symm ▸ List.mem_singleton_self a)
        · exact hR.trans c b _ (hall c hc) hleft

theorem IsTightest.isSome_iff (h : IsTightest R as e) : e.isSome = true ↔ as ≠ [] := by
  cases e with
  | none => simp [show as = [] from h]
  | some a => simp [List.ne_nil_of_mem h.1]

theorem filterMap_ne_nil_iff {β : Type} {f : β → Option α} {bs : List β} :
    bs.filterMap f ≠ [] ↔ ∃ b ∈ bs, (f b).isSome = true := by
  simp [List.filterMap_eq_nil_iff, Option.isSome_iff_ne_none]

theorem IsTightest.forall_iff (hR : Orders R P) (h : IsTightest R as e) (x : α) :
    (∀ a ∈ e, R a x) ↔ ∀ a ∈ as, R a x := by
  cases e with
  | none => simp [show as = [] from h]
  | some a =>
    refine ⟨fun hx b hb => hR.trans b a x (h.2 b hb) (hx a rfl), fun hx b hb => ?_⟩
    exact Option.mem_some_iff.1 hb ▸ hx a h.1

theorem IsTightest.eq (hR : Orders R P) {f : Option α} (hP : ∀ a ∈ as, P a) (h : IsTightest R as e)
    (h' : IsTightest R bs f) (hmem : ∀ a, a ∈ as ↔ a ∈ bs) : e = f := by
  have hnil : as = [] ↔ bs = [] := by simp only [List.eq_nil_iff_forall_not_mem, hmem]
  cases e with
  | none =>
    cases f with
    | none => rfl
    | some b => exact absurd (hnil.1 h) (List.ne_nil_of_mem h'.1)
  | some a =>
    cases f with
    | none => exact absurd (hnil.2 h') (List.ne_nil_of_mem h.1)
    | some b =>
      have hb : b ∈ as := (hmem b).2 h'.1
      exact congrArg some (hR.antisymm a b (hP a h.1) (hP b hb) (h'.2 a ((hmem a).1 h.1)) (h.2 b hb))

end

namespace Compiled

variable {α : Type} {greater lesser : α → α → α}

theorem least_foldl_meet (bs : List (Bounds α)) (b : Bounds α) :
    (bs.foldl (Bounds.meet greater lesser) b).least
      = (bs.map (·.least)).foldl (Bounds.tighter greater) b.least := by
  induction bs generalizing b with
  | nil => rfl
  | cons c bs ih => exact ih (Bounds.meet greater lesser b c)

theorem greatest_foldl_meet (bs : List (Bounds α)) (b : Bounds α) :
    (bs.foldl (Bounds.meet greater lesser) b).greatest
      = (bs.map (·.greatest)).foldl (Bounds.tighter lesser) b.greatest := by
  induction bs generalizing b with
  | nil => rfl
  | cons c bs ih => exact ih (Bounds.meet greater lesser b c)

theorem tighter_none {pick : α → α → α} (e : Option α) : Bounds.tighter pick none e = e := by cases e <;> rfl

theorem least_meetAll? (bs : List (Bounds α)) :
    ((meetAll? greater lesser bs).getD .all).least = (bs.map (·.least)).foldl (Bounds.tighter greater) none := by
  cases bs with
  | nil => rfl
  | cons b bs =>
    rw [List.map_cons, List.foldl_cons, tighter_none]
    exact least_foldl_meet bs b

theorem greatest_meetAll? (bs : List (Bounds α)) :
    ((meetAll? greater lesser bs).getD .all).greatest
      = (bs.map (·.greatest)).foldl (Bounds.tighter lesser) none := by
  cases bs with
  | nil => rfl
  | cons b bs =>
    rw [List.map_cons, List.foldl_cons, tighter_none]
    exact greatest_foldl_meet bs b

end Compiled

structure Scale (α : Type) where
  read? : List Char → Option (α × α)
  le : α → α → Prop

def Double.AtMost (x y : Double) : Prop := x ≠ .nan ∧ y ≠ .nan ∧ x.rank ≤ y.rank

namespace Scale

def words : Scale Nat := ⟨fun cs => (Number.word? cs).map fun n => (n, n), (· ≤ ·)⟩

def dates : Scale Int := ⟨fun cs => (Period.read? cs).map fun p => (p.first, p.last), (· ≤ ·)⟩

def doubles : Scale Double := ⟨fun cs => (Double.read? cs).map fun x => (x, x), Double.AtMost⟩

end Scale

/-- A comparison with the value of a text, and with a second one if it is a range. -/
structure Comparison where
  comparator : Comparator
  value : String
  upper : Option String
  deriving DecidableEq

namespace Comparison

variable {α : Type}

def Admits (S : Scale α) (x : α) : Comparison → Prop
  | ⟨.above, v, _⟩ | ⟨.atLeast, v, _⟩ => ∃ p ∈ S.read? v.toList, S.le p.1 x
  | ⟨.below, v, _⟩ | ⟨.atMost, v, _⟩ => ∃ p ∈ S.read? v.toList, S.le x p.2
  | ⟨.equal, v, _⟩ => ∃ p ∈ S.read? v.toList, S.le p.1 x ∧ S.le x p.2
  | ⟨.within, v, upper⟩ => ∃ p ∈ S.read? v.toList, S.le p.1 x ∧
      ∀ u ∈ upper, ∃ q ∈ S.read? u.toList, S.le x q.2

def bindsBelow (c : Comparison) : Bool :=
  match c.comparator with
  | .above | .atLeast | .equal | .within => true
  | .below | .atMost => false

def bindsAbove (c : Comparison) : Bool :=
  match c.comparator with
  | .below | .atMost | .equal => true
  | .within => c.upper.isSome
  | .above | .atLeast => false

end Comparison

namespace Bounds

variable {α : Type}

def Admits (S : Scale α) (b : Bounds α) (x : α) : Prop :=
  (∀ a ∈ b.least, S.le a x) ∧ ∀ a ∈ b.greatest, S.le x a

structure IsCommon (S : Scale α) (b : Bounds α) (cs : List Comparison) : Prop where
  admits : ∀ x, b.Admits S x ↔ ∀ c ∈ cs, c.Admits S x
  least : b.least.isSome = true ↔ ∃ c ∈ cs, c.bindsBelow = true
  greatest : b.greatest.isSome = true ↔ ∃ c ∈ cs, c.bindsAbove = true

end Bounds

namespace Comparison

variable {α : Type} {S : Scale α} {P : α → Prop} {greater lesser : α → α → α} {c : Comparison}
  {cs ds : List Comparison} {x : α}

def bounds (S : Scale α) (c : Comparison) : Bounds α :=
  let first := (S.read? c.value.toList).map Prod.fst
  let last := (S.read? c.value.toList).map Prod.snd
  match c.comparator with
  | .above | .atLeast => ⟨first, none⟩
  | .below | .atMost => ⟨none, last⟩
  | .equal => ⟨first, last⟩
  | .within => ⟨first, c.upper.bind fun u => (S.read? u.toList).map Prod.snd⟩

structure IsReadable (S : Scale α) (P : α → Prop) (c : Comparison) : Prop where
  value : ∃ p ∈ S.read? c.value.toList, P p.1 ∧ P p.2
  upper : ∀ u ∈ c.upper, ∃ q ∈ S.read? u.toList, P q.1 ∧ P q.2

namespace IsReadable

variable (h : c.IsReadable S P)

include h

theorem exists_upper : c.upper = none ∨ ∃ u q, c.upper = some u ∧ S.read? u.toList = some q ∧ P q.2 := by
  cases hu : c.upper with
  | none => exact .inl rfl
  | some u =>
    obtain ⟨q, hq, -, hlast⟩ := h.upper u hu
    exact .inr ⟨u, q, rfl, hq, hlast⟩

theorem admits_iff : c.Admits S x ↔ (c.bounds S).Admits S x := by
  obtain ⟨p, hp, -⟩ := h.value
  have hupper := h.exists_upper
  obtain ⟨comparator, v, upper⟩ := c
  dsimp only at hp hupper
  cases comparator with
  | within =>
    obtain rfl | ⟨u, q, rfl, hq, -⟩ := hupper <;>
      simp [-Prod.exists, Admits, bounds, Bounds.Admits, Option.mem_def.1 hp, *]
  | _ => simp [-Prod.exists, Admits, bounds, Bounds.Admits, Option.mem_def.1 hp]

theorem isSome_least : (c.bounds S).least.isSome = c.bindsBelow := by
  obtain ⟨p, hp, -⟩ := h.value
  cases hc : c.comparator <;> simp [bounds, bindsBelow, hc, Option.mem_def.1 hp]

theorem isSome_greatest : (c.bounds S).greatest.isSome = c.bindsAbove := by
  obtain ⟨p, hp, -⟩ := h.value
  cases hc : c.comparator with
  | within => obtain hu | ⟨u, q, hu, hq, -⟩ := h.exists_upper <;> simp [bounds, bindsAbove, *]
  | _ => simp [bounds, bindsAbove, hc, Option.mem_def.1 hp]

theorem forall_bounds : (∀ a ∈ (c.bounds S).least, P a) ∧ ∀ a ∈ (c.bounds S).greatest, P a := by
  obtain ⟨p, hp, hfirst, hlast⟩ := h.value
  cases hc : c.comparator with
  | within =>
    obtain hu | ⟨u, q, hu, hq, hlast'⟩ := h.exists_upper <;> simp [bounds, Option.mem_def.1 hp, *]
  | _ => simp [bounds, hc, Option.mem_def.1 hp, hfirst, hlast]

end IsReadable

end Comparison

structure Scale.IsLawful (S : Scale α) (P : α → Prop) (greater lesser : α → α → α) : Prop where
  orders : Orders S.le P
  greater : Picks S.le P greater
  lesser : Picks (fun a b => S.le b a) P lesser

namespace Comparison

variable {α : Type} {S : Scale α} {P : α → Prop} {greater lesser : α → α → α} {cs ds : List Comparison}

def common (S : Scale α) (greater lesser : α → α → α) (cs : List Comparison) : Bounds α :=
  (Compiled.meetAll? greater lesser (cs.map (bounds S))).getD .all

section

variable (hS : S.IsLawful P greater lesser) (hcs : ∀ c ∈ cs, c.IsReadable S P)

include hS hcs

theorem isTightest_common :
    IsTightest S.le (cs.filterMap fun c => (c.bounds S).least) (common S greater lesser cs).least ∧
      IsTightest (fun a b => S.le b a) (cs.filterMap fun c => (c.bounds S).greatest)
        (common S greater lesser cs).greatest := by
  have hleasts : ∀ e ∈ cs.map fun c => (c.bounds S).least, ∀ a ∈ e, P a :=
    List.forall_mem_map.2 fun c hc => (hcs c hc).forall_bounds.1
  have hgreatests : ∀ e ∈ cs.map fun c => (c.bounds S).greatest, ∀ a ∈ e, P a :=
    List.forall_mem_map.2 fun c hc => (hcs c hc).forall_bounds.2
  have h := isTightest_foldl hS.orders hS.greater hleasts
  have h' := isTightest_foldl hS.orders.flip hS.lesser hgreatests
  rw [List.reduceOption, List.filterMap_map] at h h'
  rw [common, Compiled.least_meetAll?, Compiled.greatest_meetAll?, List.map_map, List.map_map]
  exact ⟨h, h'⟩

theorem isCommon_common : (common S greater lesser cs).IsCommon S cs := by
  obtain ⟨hleast, hgreatest⟩ := isTightest_common hS hcs
  refine ⟨fun x => ?_, ?_, ?_⟩
  · rw [Bounds.Admits, hleast.forall_iff hS.orders x, hgreatest.forall_iff hS.orders.flip x]
    simp only [List.mem_filterMap]
    constructor
    · rintro ⟨hbelow, habove⟩ c hc
      rw [(hcs c hc).admits_iff]
      exact ⟨fun a ha => hbelow a ⟨c, hc, ha⟩, fun a ha => habove a ⟨c, hc, ha⟩⟩
    · intro h
      refine ⟨fun a ⟨c, hc, ha⟩ => ?_, fun a ⟨c, hc, ha⟩ => ?_⟩
      · exact ((hcs c hc).admits_iff.1 (h c hc)).1 a ha
      · exact ((hcs c hc).admits_iff.1 (h c hc)).2 a ha
  · rw [hleast.isSome_iff, filterMap_ne_nil_iff]
    exact exists_congr fun c => and_congr_right fun hc => by rw [(hcs c hc).isSome_least]
  · rw [hgreatest.isSome_iff, filterMap_ne_nil_iff]
    exact exists_congr fun c => and_congr_right fun hc => by rw [(hcs c hc).isSome_greatest]

theorem common_congr (hmem : ∀ c, c ∈ cs ↔ c ∈ ds) : common S greater lesser cs = common S greater lesser ds := by
  have hds : ∀ c ∈ ds, c.IsReadable S P := fun c hc => hcs c ((hmem c).2 hc)
  obtain ⟨hleast, hgreatest⟩ := isTightest_common hS hcs
  obtain ⟨hleast', hgreatest'⟩ := isTightest_common hS hds
  have hends : ∀ {f : Comparison → Option α} (a : α), a ∈ cs.filterMap f ↔ a ∈ ds.filterMap f := fun a => by
    simp only [List.mem_filterMap, hmem]
  refine congrArg₂ Bounds.mk (hleast.eq hS.orders ?_ hleast' hends) (hgreatest.eq hS.orders.flip ?_ hgreatest' hends)
  · intro a ha
    obtain ⟨c, hc, ha⟩ := List.mem_filterMap.1 ha
    exact (hcs c hc).forall_bounds.1 a ha
  · intro a ha
    obtain ⟨c, hc, ha⟩ := List.mem_filterMap.1 ha
    exact (hcs c hc).forall_bounds.2 a ha

end

end Comparison

namespace Scale

theorem isLawful_of_linearOrder {α : Type} [LinearOrder α] (read? : List Char → Option (α × α)) :
    IsLawful ⟨read?, (· ≤ ·)⟩ (fun _ => True) max min where
  orders := ⟨fun a _ => le_refl a, fun _ _ _ => le_trans, fun _ _ _ _ => le_antisymm⟩
  greater a b _ _ := ⟨max_choice a b, le_max_left a b, le_max_right a b⟩
  lesser a b _ _ := ⟨min_choice a b, min_le_left a b, min_le_right a b⟩

theorem isLawful_doubles : doubles.IsLawful Double.IsUnsigned Double.greater Double.lesser := by
  have hne : ∀ {a : Double}, a.IsUnsigned → a ≠ .nan := by
    rintro _ (⟨m, e, hnormal, rfl⟩ | rfl) <;> exact nofun
  have hle : ∀ {a b : Double}, a.IsUnsigned → b.IsUnsigned → (a.AtMost b ↔ a.rank ≤ b.rank) := fun ha hb =>
    ⟨fun h => h.2.2, fun h => ⟨hne ha, hne hb, h⟩⟩
  refine ⟨⟨fun a ha => (hle ha ha).2 le_rfl, ?_, ?_⟩, fun a b ha hb => ⟨Double.greater_eq a b, ?_⟩,
    fun a b ha hb => ⟨Double.lesser_eq a b, ?_⟩⟩
  · rintro a b c ⟨ha, -, hab⟩ ⟨-, hc, hbc⟩
    exact ⟨ha, hc, hab.trans hbc⟩
  · rintro a b ha hb ⟨-, -, hab⟩ ⟨-, -, hba⟩
    refine Double.eq_of_same_of_isUnsigned ha hb ?_
    simp [Double.same, hne ha, hne hb, le_antisymm hab hba]
  · rw [Double.greater, if_neg (hne ha), if_neg (hne hb)]
    split
    · next hlt => exact ⟨(hle ha hb).2 hlt.le, (hle hb hb).2 le_rfl⟩
    · next hlt => exact ⟨(hle ha ha).2 le_rfl, (hle hb ha).2 (not_lt.1 hlt)⟩
  · rw [Double.lesser, if_neg (hne ha), if_neg (hne hb)]
    split
    · next hlt => exact ⟨(hle hb ha).2 hlt.le, (hle hb hb).2 le_rfl⟩
    · next hlt => exact ⟨(hle ha ha).2 le_rfl, (hle ha hb).2 (not_lt.1 hlt)⟩

end Scale

end FilterQuery
