import FilterQuery.Proofs.LowerCase
import FilterQuery.Tree.Parse

namespace FilterQuery

namespace StackName

open Text

theorem isPlain_iff {c : Char} : isPlain c = true ↔
    97 ≤ c.toNat ∧ c.toNat ≤ 122 ∨ 48 ≤ c.toNat ∧ c.toNat ≤ 57 ∨ c = '_' ∨ c = '-' := by
  simp only [isPlain, Bool.or_eq_true, Bool.and_eq_true, decide_eq_true_eq, beq_iff_eq, or_assoc]
  rfl

theorem caseRuns_apart : (caseRuns.all fun r => r.last ≤ 90 && 65 ≤ r.first || 128 ≤ r.first) = true := by
  decide +kernel

theorem isLow_of_isPlain {c : Char} (h : isPlain c = true) : IsLow c := by
  rw [isPlain_iff] at h
  refine isLow_of_holds ?_ fun r hr => ?_
  · rintro rfl
    revert h
    decide
  · have hr := List.all_eq_true.1 caseRuns_apart r hr
    simp only [Bool.or_eq_true, Bool.and_eq_true, decide_eq_true_eq] at hr
    simp only [CaseRun.holds, Bool.and_eq_false_iff, decide_eq_false_iff_not, not_le]
    left
    rcases h with h | h | rfl | rfl
    · omega
    · omega
    · have : ('_').toNat = 95 := rfl
      omega
    · have : ('-').toNat = 45 := rfl
      omega

theorem isBlank_of_isPlain {c : Char} (h : isPlain c = true) : isBlank c = false := by
  rw [isPlain_iff] at h
  rcases h with h | h | rfl | rfl
  · simp [isBlank, blankRanges, Ranges.holds]
    omega
  · simp [isBlank, blankRanges, Ranges.holds]
    omega
  · rfl
  · rfl

theorem dropWhile_isBlank {cs : List Char} (h : ∀ c ∈ cs, isBlank c = false) :
    cs.dropWhile isBlank = cs := by
  cases cs with
  | nil => rfl
  | cons c cs => simp [h c List.mem_cons_self]

theorem trim_of_forall {cs : List Char} (h : ∀ c ∈ cs, isBlank c = false) : trim cs = cs := by
  rw [trim, trimStart, dropWhile_isBlank h, trimEnd,
    dropWhile_isBlank fun c hc => h c (List.mem_reverse.1 hc), List.reverse_reverse]

theorem isPlain_of_mem {cs : List Char} {c : Char} (h : c ∈ normalizeChars cs) : isPlain c = true := by
  obtain ⟨d, -, rfl⟩ := List.mem_map.1 h
  split
  · assumption
  · rfl

theorem dropAt_of_ne {cs : List Char} (h : ∀ c ∈ cs, c ≠ '@') : dropAt cs = cs := by
  unfold dropAt
  split
  · exact absurd rfl (h '@' List.mem_cons_self)
  · rfl

theorem normalizeChars_of_isPlain {cs : List Char} (h : ∀ c ∈ cs, isPlain c = true) :
    normalizeChars cs = cs := by
  have hblank : ∀ c ∈ cs, isBlank c = false := fun c hc => isBlank_of_isPlain (h c hc)
  have hat : ∀ c ∈ cs, c ≠ '@' := by
    rintro c hc rfl
    exact absurd (h _ hc) (by decide)
  rw [normalizeChars, trim_of_forall hblank, dropAt_of_ne hat,
    lowerCase_of_isLow fun c hc => isLow_of_isPlain (h c hc)]
  refine (List.map_congr_left fun c hc => ?_).trans (List.map_id cs)
  exact if_pos (h c hc)

@[simp] theorem normalize_normalize (name : String) : normalize (normalize name) = normalize name := by
  rw [normalize, normalize, String.toList_ofList,
    normalizeChars_of_isPlain fun c hc => isPlain_of_mem hc]

structure IsName (name : String) : Prop where
  normal : normalize name = name
  nonempty : 1 ≤ name.length
  fitting : name.length ≤ 100
  meaningful : ∃ c ∈ name.toList, c.isAlphanum = true ∨ c = '_'

theorem isName_normalize {name : String} (h : isAllowed (normalize name) = true) :
    IsName (normalize name) := by
  rw [isAllowed, Bool.and_eq_true, List.any_eq_true, decide_eq_true_eq] at h
  obtain ⟨⟨c, hc, hmeaning⟩, hlen⟩ := h
  refine ⟨normalize_normalize name, ?_, hlen, c, hc, by simpa using hmeaning⟩
  rw [← String.length_toList]
  exact List.length_pos_of_mem hc

theorem valid?_eq_some_iff {name n : String} :
    valid? name = some n ↔ n = normalize name ∧ isAllowed n = true := by
  simp only [valid?]
  split
  · next h =>
    rw [Option.some_inj]
    exact ⟨fun hn => hn ▸ ⟨rfl, h⟩, fun hn => hn.1.symm⟩
  · next h =>
    refine ⟨nofun, fun hn => absurd ?_ h⟩
    rw [← hn.1]
    exact hn.2

end StackName

namespace Text

variable {α : Type} {p : α → Bool} {xs ys : List α} {cs ds : List Char}

theorem dropWhile_mono (h : ys <+: xs) : ys.dropWhile p <+: xs.dropWhile p := by
  obtain ⟨zs, rfl⟩ := h
  rw [List.dropWhile_append]
  split
  · next hnil => exact List.isEmpty_iff.1 hnil ▸ List.nil_prefix
  · exact List.prefix_append _ _

theorem trimEnd_mono (h : ds <+: cs) : trimEnd ds <+: trimEnd cs := by
  obtain ⟨es, rfl⟩ := h
  rw [trimEnd, trimEnd, List.reverse_append, List.dropWhile_append]
  split
  · exact List.prefix_rfl
  · rw [List.reverse_append, List.reverse_reverse]
    exact (List.rdropWhile_prefix isBlank ds).trans (List.prefix_append _ _)

theorem trim_mono (h : ds <+: cs) : trim ds <+: trim cs := trimEnd_mono (dropWhile_mono h)

end Text

namespace StackName

open Text

variable {cs ds : List Char}

theorem dropAt_mono (h : ds <+: cs) : dropAt ds <+: dropAt cs := by
  cases ds with
  | nil => exact List.nil_prefix
  | cons d ds =>
    obtain ⟨es, rfl⟩ := h
    by_cases hd : d = '@'
    · subst hd
      exact List.prefix_append ds es
    · have hkept : ∀ xs, dropAt (d :: xs) = d :: xs := fun xs => by
        unfold dropAt
        split
        · next he => exact absurd (List.cons.inj he).1 hd
        · rfl
      rw [List.cons_append, hkept, hkept]
      exact List.prefix_append (d :: ds) es

def plainChars (c : Char) : List Char := (lowerChar c).map fun d => if isPlain d then d else '-'

theorem map_lowerAt (before : List Char) (c : Char) (cs : List Char) :
    ((lowerAt before c cs).map fun d => if isPlain d then d else '-') = plainChars c := by
  unfold lowerAt
  split
  · next hc =>
    subst hc
    split
    · decide +kernel
    · decide +kernel
  · rfl

theorem map_lowerFrom (before cs : List Char) :
    ((lowerFrom before cs).map fun d => if isPlain d then d else '-') = cs.flatMap plainChars := by
  induction cs generalizing before with
  | nil => rfl
  | cons c cs ih => rw [lowerFrom_cons, List.map_append, map_lowerAt, ih, List.flatMap_cons]

theorem normalizeChars_eq (cs : List Char) : normalizeChars cs = (dropAt (trim cs)).flatMap plainChars :=
  map_lowerFrom [] _

theorem normalizeChars_mono (h : ds <+: cs) : normalizeChars ds <+: normalizeChars cs := by
  rw [normalizeChars_eq, normalizeChars_eq]
  exact (dropAt_mono (trim_mono h)).flatMap plainChars

theorem normalize_mono {name beginning : String} (h : beginning.toList <+: name.toList) :
    (normalize beginning).toList <+: (normalize name).toList := by
  rw [normalize, normalize, String.toList_ofList, String.toList_ofList]
  exact normalizeChars_mono h

example : ["  ", "  @", "  @Σ", "  @ΣΣ ", "  @ΣΣ K"].map normalize = ["", "", "-", "--", "---k"] := by decide +kernel

end StackName

end FilterQuery
