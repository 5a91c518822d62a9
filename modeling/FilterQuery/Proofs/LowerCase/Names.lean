import FilterQuery.Proofs.Double
import FilterQuery.Proofs.LowerCase

namespace FilterQuery.Text

theorem caseRuns_ascii : ∀ r ∈ caseRuns, 0x61 ≤ r.first + r.shift ∧
    (128 ≤ r.first + r.shift ∨ r.last < 128 ∨ r.first = 0x212A ∧ r.last = 0x212A ∧ r.shift = -8383) := by
  decide +kernel

theorem lowerChar_of_ascii {c : Char} (h : c.toNat < 128) : lowerChar c = [c.toLower] := by
  have hall : ∀ n < 128, lowerChar (Char.ofNat n) = [(Char.ofNat n).toLower] := by decide +kernel
  rw [← Char.ofNat_toNat c]
  exact hall c.toNat h

theorem lowerAt_of_ascii {c : Char} (h : c.toNat < 128) (before cs : List Char) :
    lowerAt before c cs = [c.toLower] := by
  have hne : c ≠ 'Σ' := by
    rintro rfl
    exact absurd h (by decide)
  rw [lowerAt, if_neg hne, lowerChar_of_ascii h]

theorem lowerAt_letters (before : List Char) (c : Char) (cs : List Char) :
    lowerAt before c cs = [c] ∨ ∀ d ∈ lowerAt before c cs, 0x61 ≤ d.toNat := by
  unfold lowerAt
  split
  · right
    intro d hd
    rw [List.mem_singleton.1 hd]
    split <;> decide
  · unfold lowerChar
    split
    · right
      intro d hd
      rcases List.mem_pair.1 hd with rfl | rfl <;> decide
    · split
      · next r hf =>
        right
        intro d hd
        have hr := List.mem_of_find?_eq_some hf
        have hn : r.holds c.toNat = true := by simpa using List.find?_some hf
        obtain ⟨s, hs, hle⟩ := CaseRun.exists_range (caseRuns_staysWithin r hr) hn
        have hfirst := (caseRuns_ascii r hr).1
        simp only [CaseRun.holds, Bool.and_eq_true, decide_eq_true_eq] at hn
        rw [List.mem_singleton.1 hd, toNat_ofNat_of_mem hs hle]
        omega
      · exact .inl rfl

theorem ascii_of_lowerAt {before : List Char} {c : Char} {cs : List Char}
    (h : ∀ d ∈ lowerAt before c cs, d.toNat < 128 ∧ d ≠ 'k') : c.toNat < 128 := by
  unfold lowerAt at h
  split at h
  · have hd := (h _ (List.mem_singleton_self _)).1
    split at hd <;> exact absurd hd (by decide)
  · unfold lowerChar at h
    split at h
    · exact absurd (h '\u0307' (by simp)).1 (by decide)
    · split at h
      · next r hf =>
        have hr := List.mem_of_find?_eq_some hf
        have hn : r.holds c.toNat = true := by simpa using List.find?_some hf
        obtain ⟨s, hs, hle⟩ := CaseRun.exists_range (caseRuns_staysWithin r hr) hn
        have hcode := toNat_ofNat_of_mem hs hle
        obtain ⟨hd, hk⟩ := h _ (List.mem_singleton_self _)
        simp only [CaseRun.holds, Bool.and_eq_true, decide_eq_true_eq] at hn
        rcases (caseRuns_ascii r hr).2 with hhigh | hlow | ⟨h1, h2, h3⟩
        · rw [hcode] at hd
          omega
        · omega
        · have hc : c.toNat = 0x212A := by omega
          rw [hc, h3] at hk
          exact absurd (by decide) hk
      · exact (h c (List.mem_singleton_self c)).1

theorem mem_lowerFrom {cs before : List Char} {d : Char} (h : d ∈ lowerFrom before cs) :
    d ∈ cs ∨ 0x61 ≤ d.toNat := by
  induction cs generalizing before with
  | nil => cases h
  | cons c cs ih =>
    rw [lowerFrom_cons, List.mem_append] at h
    rcases h with h | h
    · rcases lowerAt_letters before c cs with hkept | hletters
      · rw [hkept, List.mem_singleton] at h
        exact .inl (h ▸ List.mem_cons_self)
      · exact .inr (hletters d h)
    · exact (ih h).imp_left (List.mem_cons_of_mem c)

theorem lowerFrom_eq_self {cs before : List Char} (h : ∀ d ∈ lowerFrom before cs, d.toNat < 0x61) :
    lowerFrom before cs = cs := by
  induction cs generalizing before with
  | nil => rfl
  | cons c cs ih =>
    rw [lowerFrom_cons] at h ⊢
    rw [ih fun d hd => h d (List.mem_append_right _ hd)]
    rcases lowerAt_letters before c cs with hkept | hletters
    · rw [hkept]
      rfl
    · cases hc : lowerAt before c cs with
      | nil =>
        rcases lowerAt_eq before c cs with he | ⟨d, -, he | he⟩
        all_goals
          rw [hc] at he
          cases he
      | cons d ds =>
        have hd : d ∈ lowerAt before c cs := hc ▸ List.mem_cons_self
        have hlow := h d (List.mem_append_left _ hd)
        have hhigh := hletters d hd
        omega

theorem lowerFrom_of_ascii {cs : List Char} (h : ∀ c ∈ cs, c.toNat < 128) (before : List Char) :
    lowerFrom before cs = cs.map Char.toLower := by
  induction cs generalizing before with
  | nil => rfl
  | cons c cs ih =>
    rw [lowerFrom_cons, lowerAt_of_ascii (h c List.mem_cons_self), ih fun d hd => h d (List.mem_cons_of_mem c hd)]
    rfl

theorem ascii_of_lowerFrom {cs before : List Char} (h : ∀ d ∈ lowerFrom before cs, d.toNat < 128 ∧ d ≠ 'k') :
    ∀ c ∈ cs, c.toNat < 128 := by
  induction cs generalizing before with
  | nil => nofun
  | cons c cs ih =>
    rw [lowerFrom_cons] at h
    refine List.forall_mem_cons.2 ⟨?_, ih fun d hd => h d (List.mem_append_right _ hd)⟩
    exact ascii_of_lowerAt fun d hd => h d (List.mem_append_left _ hd)

theorem toLower_of_ascii {c : Char} (h : 128 ≤ c.toNat) : c.toLower = c := by
  unfold Char.toLower
  split
  · next hu =>
    have hz : c.toNat ≤ 'Z'.toNat := hu.2
    exact absurd (h.trans hz) (by decide)
  · rfl

theorem toLower_toLower (c : Char) : c.toLower.toLower = c.toLower := by
  by_cases h : c.toNat < 128
  · have hall : ∀ n < 128, (Char.ofNat n).toLower.toLower = (Char.ofNat n).toLower := by decide +kernel
    rw [← Char.ofNat_toNat c]
    exact hall c.toNat h
  · have hc := toLower_of_ascii (not_lt.1 h)
    rw [hc, hc]

theorem mem_name (c : Category) : ∀ d ∈ c.name.toList, d.toNat < 128 ∧ d ≠ 'k' := by
  have hall : c.name.toList.all (fun d => d.toNat.blt 128 && d != 'k') = true := by cases c <;> decide +kernel
  simpa [Nat.blt_eq] using hall

theorem ascii_of_map_toLower {cs : List Char} {c : Category} (h : cs.map Char.toLower = c.name.toList) :
    ∀ d ∈ cs, d.toNat < 128 ∧ d ≠ 'k' := by
  intro d hd
  have hname := mem_name c d.toLower (h ▸ List.mem_map_of_mem hd)
  constructor
  · by_contra hhigh
    rw [toLower_of_ascii (not_lt.1 hhigh)] at hname
    exact hhigh hname.1
  · rintro rfl
    exact hname.2 rfl

theorem map_toLower_lowerCase {cs : List Char} (c : Category) :
    (lowerCase cs).map Char.toLower = c.name.toList ↔ cs.map Char.toLower = c.name.toList := by
  have hmap : (∀ d ∈ cs, d.toNat < 128) → (lowerCase cs).map Char.toLower = cs.map Char.toLower := by
    intro h
    rw [lowerCase, lowerFrom_of_ascii h, List.map_map]
    exact List.map_congr_left fun d _ => toLower_toLower d
  constructor
  · intro h
    rw [← hmap (ascii_of_lowerFrom (ascii_of_map_toLower h)), h]
  · intro h
    rw [hmap fun d hd => (ascii_of_map_toLower h d hd).1, h]

theorem ofName?_lower (w : String) : Category.ofName? (lower w) = Category.ofName? w := by
  unfold Category.ofName?
  refine congrArg (List.find? · _) (funext fun c => ?_)
  rw [Bool.eq_iff_iff, beq_iff_eq, beq_iff_eq, lower, String.toList_ofList]
  exact map_toLower_lowerCase c

end FilterQuery.Text

namespace FilterQuery.Token

theorem isDigit_or_of_isDate {cs : List Char} (h : isDate cs = true) : ∀ c ∈ cs, Number.isDigit c = true ∨ c = '-' := by
  unfold isDate at h
  split at h
  · simp only [List.all_cons, List.all_nil, Bool.and_eq_true] at h
    simp [h]
  · simp only [List.all_cons, List.all_nil, Bool.and_eq_true] at h
    simp [h]
  · cases h

theorem classify_eq_word_iff {w : List Char} :
    classify w = .word (String.ofList w) ↔ isDate w = false ∧ isNumber w = false ∧ '*' ∉ w := by
  unfold classify
  dsimp only
  split
  · next h => simp [h]
  · next h =>
    split
    · next h' => simp [h']
    · next h' =>
      split
      · next hs => simp [List.contains_iff_mem.1 hs]
      · next hs => simp [h, h', mt List.contains_iff_mem.2 hs]

theorem classify_lower {w : String} (h : classify w.toList = .word w) :
    classify (Text.lower w).toList = .word (Text.lower w) := by
  have hw := classify_eq_word_iff.1 (h.trans (congrArg Kind.word String.ofList_toList.symm))
  rw [Text.lower, String.toList_ofList, classify_eq_word_iff]
  obtain ⟨hdate, hnumber, hstar⟩ := hw
  -- whatever has no letters in lower case was the same before
  have hkept : (∀ d ∈ Text.lowerCase w.toList, Number.isDigit d = true ∨ d = '-' ∨ d = '.') →
      Text.lowerCase w.toList = w.toList := by
    intro hall
    refine Text.lowerFrom_eq_self fun d hd => ?_
    rcases hall d hd with hd | rfl | rfl
    · have hle : d.toNat ≤ '9'.toNat := (Number.isDigit_iff.1 hd).2
      exact hle.trans_lt (by decide)
    · decide
    · decide
  refine ⟨?_, ?_, ?_⟩
  · rw [Bool.eq_false_iff]
    intro hd
    rw [hkept fun d hm => (isDigit_or_of_isDate hd d hm).imp_right .inl] at hd
    exact Bool.eq_false_iff.1 hdate hd
  · rw [Bool.eq_false_iff]
    intro hn
    obtain ⟨_, _, hpos⟩ := Double.isPositional_of_isNumber hn
    rw [hkept fun d hm => (hpos.mem d hm).imp_right .inr] at hn
    exact Bool.eq_false_iff.1 hnumber hn
  · intro hm
    rcases Text.mem_lowerFrom hm with hm | hm
    · exact hstar hm
    · exact absurd hm (by decide)

end FilterQuery.Token
