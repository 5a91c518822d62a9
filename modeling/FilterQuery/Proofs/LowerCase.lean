import FilterQuery.Proofs.Alphabet

namespace FilterQuery.Text

def IsLow (c : Char) : Prop := c ≠ 'Σ' ∧ lowerChar c = [c]

instance (c : Char) : Decidable (IsLow c) := inferInstanceAs (Decidable (_ ∧ _))

theorem lowerFrom_of_isLow {cs : List Char} (h : ∀ c ∈ cs, IsLow c) (before : List Char) :
    lowerFrom before cs = cs := by
  induction cs generalizing before with
  | nil => rfl
  | cons c cs ih =>
    have hc := h c List.mem_cons_self
    rw [lowerFrom, if_neg hc.1, hc.2, ih fun d hd => h d (List.mem_cons_of_mem c hd)]
    rfl

theorem capitalSigma_holds : (caseRuns.any fun r => r.holds ('Σ').toNat) = true := by
  decide +kernel

theorem isLow_of_holds {c : Char} (hdot : c ≠ 'İ') (h : ∀ r ∈ caseRuns, r.holds c.toNat = false) :
    IsLow c := by
  refine ⟨?_, ?_⟩
  · rintro rfl
    obtain ⟨r, hr, hholds⟩ := List.any_eq_true.1 capitalSigma_holds
    exact absurd hholds (Bool.eq_false_iff.1 (h r hr))
  · have hnone : caseRuns.find? (·.holds c.toNat) = none := by simpa using h
    rw [lowerChar, if_neg hdot, hnone]

def CaseRun.avoids (r q : CaseRun) : Bool :=
  q.last.blt (r.first + r.shift).toNat || (r.last + r.shift).toNat.blt q.first ||
    r.codes.all fun n => !q.holds (n + r.shift).toNat

def dottedI : CaseRun := ⟨0x130, 0x130, 1, 0⟩

theorem caseRuns_all_avoid : (caseRuns.all fun r => (dottedI :: caseRuns).all r.avoids) = true := by
  decide +kernel

theorem caseRuns_avoid {r q : CaseRun} (hr : r ∈ caseRuns) (hq : q ∈ dottedI :: caseRuns) :
    r.avoids q = true :=
  List.all_eq_true.1 (List.all_eq_true.1 caseRuns_all_avoid r hr) q hq

theorem CaseRun.holds_of_avoids {r q : CaseRun} (h : r.avoids q = true) {n : Nat}
    (hn : r.holds n = true) : q.holds (n + r.shift).toNat = false := by
  rw [Bool.eq_false_iff]
  intro hq
  have hr := hn
  have hs := hq
  simp only [avoids, Bool.or_eq_true, Nat.blt_eq, List.all_eq_true, Bool.not_eq_true'] at h
  simp only [holds, Bool.and_eq_true, decide_eq_true_eq] at hr hs
  rcases h with (h | h) | h
  · omega
  · omega
  · exact Bool.eq_false_iff.1 (h n (mem_codes hn)) hq

theorem isLow_shift {r : CaseRun} (hr : r ∈ caseRuns) {n : Nat} (hn : r.holds n = true) :
    IsLow (Char.ofNat (n + r.shift).toNat) := by
  obtain ⟨s, hs, hle⟩ := CaseRun.exists_range (caseRuns_staysWithin r hr) hn
  have hcode := toNat_ofNat_of_mem hs hle
  refine isLow_of_holds ?_ fun q hq => ?_
  · intro he
    have := CaseRun.holds_of_avoids (caseRuns_avoid hr List.mem_cons_self) hn
    rw [← hcode, he] at this
    exact absurd this (by decide)
  · rw [hcode]
    exact CaseRun.holds_of_avoids (caseRuns_avoid hr (List.mem_cons_of_mem _ hq)) hn

theorem isLow_of_mem_lowerChar {c d : Char} (h : d ∈ lowerChar c) : IsLow d := by
  unfold lowerChar at h
  split at h
  · rcases List.mem_pair.1 h with rfl | rfl <;> decide
  · next hdot =>
    split at h
    · next r hf =>
      rw [List.mem_singleton.1 h]
      exact isLow_shift (List.mem_of_find?_eq_some hf) (by simpa using List.find?_some hf)
    · next hnone =>
      rw [List.mem_singleton.1 h]
      exact isLow_of_holds hdot (by simpa using hnone)

theorem isLow_of_mem_lowerFrom {cs before : List Char} {d : Char} (h : d ∈ lowerFrom before cs) :
    IsLow d := by
  induction cs generalizing before with
  | nil => exact absurd h List.not_mem_nil
  | cons c cs ih =>
    rw [lowerFrom, List.mem_append] at h
    rcases h with h | h
    · split at h
      · rw [List.mem_singleton.1 h]
        split <;> decide
      · exact isLow_of_mem_lowerChar h
    · exact ih h

theorem lowerCase_of_isLow {cs : List Char} (h : ∀ c ∈ cs, IsLow c) : lowerCase cs = cs :=
  lowerFrom_of_isLow h []

theorem lowerCase_lowerCase (cs : List Char) : lowerCase (lowerCase cs) = lowerCase cs :=
  lowerCase_of_isLow fun _ h => isLow_of_mem_lowerFrom h

@[simp] theorem lower_lower (s : String) : lower (lower s) = lower s := by
  rw [lower, lower, String.toList_ofList, lowerCase_lowerCase]

end FilterQuery.Text
