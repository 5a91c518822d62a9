import FilterQuery.Proofs.Canonical.RoundTrip
import FilterQuery.Proofs.StackName

namespace FilterQuery

open Grammar (IsValue Term Unary)
open Token (Kind Scans)

namespace Token

theorem isBlank_of_continuesWord {c : Char} {next : Option Char} (h : continuesWord c next = true) :
    Text.isBlank c = false := by
  simp only [continuesWord, Bool.or_eq_true, Bool.and_eq_true, beq_iff_eq] at h
  rcases h with ((((h | rfl) | rfl) | rfl) | rfl) | ⟨rfl, -⟩
  · exact Text.isBlank_of_isAlphanumeric h
  all_goals decide

theorem IsWhole.isBlank {cs : List Char} (h : IsWhole cs) : ∀ c ∈ cs, Text.isBlank c = false := by
  induction cs with
  | nil => nofun
  | cons c cs ih =>
    obtain ⟨hc, hcs⟩ := isWhole_cons_iff.1 h
    exact List.forall_mem_cons.2 ⟨isBlank_of_continuesWord hc, ih hcs⟩

end Token

namespace Calendar

variable {cs rest : List Char}

theorem exists_of_field? {width n : Nat} (hb : ∀ c ∈ cs, Text.isBlank c = false)
    (h : Date.field? width cs = some (n, rest)) : ∃ ds, cs = ds ++ rest ∧ IsHyphenated ds := by
  have htrim : Text.trimStart cs = cs := StackName.dropWhile_isBlank hb
  rw [Date.field?, htrim] at h
  simp only [Option.ite_none_left_eq_some, Option.some.injEq, Prod.mk.injEq] at h
  obtain ⟨-, -, rfl⟩ := h
  have hprefix : (cs.take width).takeWhile Number.isDigit <+: cs :=
    (List.takeWhile_prefix _).trans (List.take_prefix _ _)
  exact ⟨_, (List.prefix_iff_eq_append.1 hprefix).symm, isHyphenated_of_isDigit Token.of_mem_takeWhile⟩

theorem eq_cons_of_hyphen? (h : Date.hyphen? cs = some rest) : cs = '-' :: rest := by
  unfold Date.hyphen? at h
  split at h
  · cases h
    rfl
  · cases h

theorem field?_of_year? {c : Char} {y : Int} (hc : Token.startsWord c = true)
    (hb : ∀ c' ∈ c :: cs, Text.isBlank c' = false) (h : Date.year? (c :: cs) = some (y, rest)) :
    ∃ n, Date.field? 4 (c :: cs) = some (n, rest) := by
  have htrim : Text.trimStart (c :: cs) = c :: cs := StackName.dropWhile_isBlank hb
  unfold Date.year? at h
  rw [htrim] at h
  split at h
  · next heq =>
    cases heq
    exact absurd hc (by decide +kernel)
  · next heq =>
    cases heq
    exact absurd hc (by decide +kernel)
  · obtain ⟨⟨n, rest'⟩, hn, heq⟩ := Option.map_eq_some_iff.1 h
    cases heq
    exact ⟨n, hn⟩

theorem isHyphenated_of_date {c : Char} {d : Date} (hc : Token.startsWord c = true)
    (hb : ∀ c' ∈ c :: cs, Text.isBlank c' = false) (h : Date.read? (c :: cs) = some d) :
    IsHyphenated (c :: cs) := by
  simp only [Date.read?, Option.bind_eq_bind, Option.bind_eq_some_iff, Prod.exists] at h
  obtain ⟨y, rest, hy, month, hyphen, m, rest', hm, day, hyphen', k, last, hk, h⟩ := h
  obtain ⟨n, hn⟩ := field?_of_year? hc hb hy
  obtain ⟨ds, hds, hyear⟩ := exists_of_field? hb hn
  rw [hds, eq_cons_of_hyphen? hyphen] at hb ⊢
  simp only [List.forall_mem_append, List.forall_mem_cons] at hb
  obtain ⟨es, rfl, hmonth⟩ := exists_of_field? hb.2.2 hm
  rw [eq_cons_of_hyphen? hyphen'] at hb ⊢
  simp only [List.forall_mem_append, List.forall_mem_cons] at hb
  obtain ⟨fs, rfl, hday⟩ := exists_of_field? hb.2.2.2.2 hk
  have hlast : last = [] := by
    split at h
    · simpa using ‹last.isEmpty = true›
    · cases h
  rw [hlast, List.append_nil]
  exact hyear.join (hmonth.join hday)

theorem isHyphenated_of_read? {p : Period} (hcs : Token.IsWord cs) (h : Period.read? cs = some p) :
    IsHyphenated cs := by
  cases cs with
  | nil => cases hcs
  | cons c cs =>
    have hb := hcs.isWhole.isBlank
    have hmonth : ∀ d, Date.read? (c :: cs ++ "-01".toList) = some d → IsHyphenated (c :: cs) := by
      intro d hd
      have hfirst : Token.IsWhole "-01".toList := by
        unfold Token.IsWhole
        decide +kernel
      have hb' : ∀ c' ∈ c :: (cs ++ "-01".toList), Text.isBlank c' = false :=
        List.forall_mem_append.2 ⟨hb, hfirst.isBlank⟩
      exact fun c' hc' => isHyphenated_of_date hcs.1 hb' hd c' (List.mem_append_left _ hc')
    unfold Period.read? at h
    split at h
    · next hdigits =>
      exact isHyphenated_of_isDigit (List.all_eq_true.1 (Bool.and_eq_true_iff.1 hdigits).1)
    · split at h
      · next hdigits =>
        exact isHyphenated_of_isDigit (List.all_eq_true.1 (Bool.and_eq_true_iff.1 hdigits).1)
      · split at h
        · obtain ⟨d, hd, -⟩ := Option.bind_eq_some_iff.1 h
          exact hmonth d hd
        · split at h
          · obtain ⟨d, hd, -⟩ := Option.bind_eq_some_iff.1 h
            exact isHyphenated_of_date hcs.1 hb hd
          · cases h

end Calendar

theorem Text.isPlain_of_isHyphenated {cs : List Char} (hcs : Token.IsWord cs) (h : Calendar.IsHyphenated cs) :
    isPlain cs = true := by
  have hdigit : ∀ c, Number.isDigit c = true → isPlain.startsPlain c = true := fun c hc => by
    rw [isPlain.startsPlain, isNumber_of_isDigit hc, Bool.or_true, Bool.true_or]
  cases cs with
  | nil => cases hcs
  | cons c cs =>
    rw [isPlain, Bool.and_eq_true, List.all_eq_true]
    obtain ⟨hc, hrest⟩ := List.forall_mem_cons.1 h
    constructor
    · rcases hc with hc | rfl
      · exact hdigit c hc
      · exact absurd hcs.1 (by decide +kernel)
    · intro d hd
      rcases hrest d hd with hd | rfl
      · rw [hdigit d hd, Bool.true_or, Bool.true_or]
      · exact Bool.or_true _

theorem Leaf.IsPart.readsAlone {l : Leaf} (h : l.IsPart) (ht : l.partText = l.text) : (Node.leaf l).ReadsAlone := by
  obtain ⟨ks, hs, hu⟩ := h
  exact Leaf.readsAlone (ht ▸ hs.scans) (hu none endsTerm_none).2

theorem Token.classify_of_bareValue? {k : Kind} {v : String} (hk : k.IsLexed) (hv : Clause.bareValue? k = some v) :
    IsWord v.toList ∧ classify v.toList = k := by
  obtain ⟨hword, heq⟩ := hk.isWord (wordText?_of_bareValue? hv)
  exact ⟨hword, heq.symm⟩

namespace Leaf

variable {c : Category} {v w : String} {s : Stance}

theorem readsAlone_term (hs : s ≠ .neutral) (hc : c.isComparable = false)
    (hv : c.foldsCase = true → Text.lower v = v) : (Node.leaf (.term c v s)).ReadsAlone := by
  refine (isPart_term hs hc hv).readsAlone ?_
  cases c <;> first | rfl | cases hc

theorem readsAlone_date {k : Kind} (hs : s ≠ .neutral) (hk : k.IsLexed) (hv : IsValue .date k v) :
    (Node.leaf (.term .date v s)).ReadsAlone := by
  obtain ⟨hword, rfl⟩ := Token.classify_of_bareValue? hk hv.1
  obtain ⟨p, hp⟩ := Option.isSome_iff_exists.1 hv.2
  have hplain := Text.isPlain_of_isHyphenated hword (Calendar.isHyphenated_of_read? hword hp)
  have hscans : Scans (Leaf.term .date v s).text
      [.stance s, .word Category.date.name, .colon, Token.classify v.toList] := by
    have hterm := scans_term .date v.toList s
    rwa [termKinds, if_neg hs, Text.valueKind, if_pos hplain] at hterm
  exact Leaf.readsAlone hscans (.signed (.period (by decide +kernel) hv))

theorem fieldKinds_lower (hw : (Kind.word w).IsLexed) :
    fieldKinds (some (Text.lower w)) = [.word (Text.lower w), .colon] := by
  rw [fieldKinds, Token.classify_lower (hw.isWord rfl).2.symm]

theorem readsAlone_fieldPhrase (hw : (Kind.word w).IsLexed) (hunknown : Category.ofName? w = none)
    (hf : FieldIsWord (some (Text.lower w))) : (Node.leaf (.phrase v (some (Text.lower w)))).ReadsAlone := by
  have hs := Leaf.scans (l := .phrase v (some (Text.lower w))) hf
  rw [kinds, fieldKinds_lower hw] at hs
  refine Leaf.readsAlone hs (.plain (.fieldPhrase ?_ ?_))
  · rw [Text.ofName?_lower, hunknown]
  · rw [Text.lower_lower]
    rfl

theorem readsAlone_fieldWildcard {p : String} {field : Option String} (hw : (Kind.word w).IsLexed)
    (hp : (Kind.wildcard p).IsLexed) (hcomparable : Clause.comparable? w = none) (hfield : Clause.fieldOf w = field)
    (hf : FieldIsWord field) : (Node.leaf (.wildcard p field)).ReadsAlone := by
  cases field with
  | none => exact readsAlone_wildcard hp
  | some g =>
    obtain ⟨hcontent, rfl⟩ := Grammar.eq_lower_of_fieldOf hfield
    obtain ⟨hword, heq⟩ := hp.isWord rfl
    have hs := Leaf.scans (l := .wildcard p (some (Text.lower w))) ⟨⟨hword, heq.symm⟩, hf⟩
    rw [kinds, fieldKinds_lower hw] at hs
    refine Leaf.readsAlone hs (.plain (.fieldWildcard ?_ ?_))
    · rw [Clause.comparable?, Text.ofName?_lower]
      exact hcomparable
    · rw [Clause.fieldOf, Text.ofName?_lower, if_neg hcontent, Text.lower_lower]
      rfl

theorem readsAlone_comparison {k : Kind} {op : Comparator} (hc : c.isComparable = true) (hop : op ≠ .within)
    (hk : k.IsLexed) (hv : IsValue c k v) : (Node.leaf (.comparison c op v none)).ReadsAlone := by
  obtain ⟨hword, rfl⟩ := Token.classify_of_bareValue? hk hv.1
  exact (isPart_comparison hc hop hword hv).readsAlone rfl

theorem readsAlone_range {k l : Kind} {u : String} (hc : c.isComparable = true) (hk : k.IsLexed) (hv : IsValue c k v)
    (hl : l.IsLexed) (hend : Clause.rangeEnd? l = some u) (hu : IsValue c l u) :
    (Node.leaf (.comparison c .within v (some u))).ReadsAlone := by
  obtain ⟨hv', rfl⟩ := Token.classify_of_bareValue? hk hv.1
  obtain ⟨hu', rfl⟩ := Token.classify_of_bareValue? hl hu.1
  have hs := Leaf.scans (l := .comparison c .within v (some u)) ⟨hv', fun x hx => Option.some.inj hx ▸ hu'⟩
  exact Leaf.readsAlone hs (.plain (.range (Clause.comparable?_name hc) hv hend hu rfl))

end Leaf

namespace Grammar

variable {s : Option Stance} {ks : List Kind} {next : Option Kind} {n : Node}

theorem eq_of_signed? {l : Leaf} (h : signed? s l = some n) : n = .leaf l ∨ n = (Node.leaf l).negate := by
  unfold signed? at h
  split at h
  · cases h
    exact .inr rfl
  · cases h
  · cases h
  · cases h
    exact .inl rfl

theorem Term.exists_leaf (h : Term s ks next n) : ∃ l, n = .leaf l ∨ n = (Node.leaf l).negate := by
  cases h with
  | named =>
    unfold namedValue
    split <;> exact ⟨_, .inl rfl⟩
  | regex _ h | wildcard h | fieldPhrase _ h | fieldRegex _ _ h | fieldWildcard _ h | compared _ _ _ h
  | comparedBare _ _ _ h | upTo _ _ h | upFrom _ _ _ h | range _ _ _ _ h | equal _ _ _ h =>
    exact ⟨_, eq_of_signed? h⟩
  | _ => exact ⟨_, .inl rfl⟩

theorem Term.readsAlone (h : Term s ks next n) (hks : ∀ k ∈ ks, k.IsLexed) (hs : s ≠ some .neutral) {l : Leaf}
    (hl : .leaf l ∈ n.atoms) (hf : Leaf.FieldIsWord l.field) : (Node.leaf l).ReadsAlone := by
  have hstance : s.getD .is ≠ .neutral := by
    cases s with
    | none => decide
    | some s => exact fun heq => hs (congrArg some heq)
  -- the only leaf of the term
  have hone : ∀ {m : Leaf}, n.atoms = [.leaf m] → m = l := fun h => by
    rw [h, List.mem_singleton] at hl
    exact (Node.leaf.inj hl).symm
  have hvalue : ∀ {c : Category} (v : String), (c.foldsCase = true → Text.lower v = v) → c.isComparable = false →
      n = .leaf (.term c v (s.getD .is)) → (Node.leaf l).ReadsAlone := by
    rintro c v hv hc rfl
    rw [← hone rfl]
    exact Leaf.readsAlone_term hstance hc hv
  have hcontent : ∀ v, n = content v s → (Node.leaf l).ReadsAlone := fun v => hvalue v (absurd · (by decide)) rfl
  have hcategory : ∀ (c : Category) (v : String), c.isComparable = false → n = categoryTerm c v s →
      (Node.leaf l).ReadsAlone := by
    refine fun c v hc => hvalue _ (fun hfolds => ?_) hc
    rw [if_pos hfolds, Text.lower_lower]
  have hincomparable : ∀ {w : String} {c : Category}, Clause.comparable? w = none → Category.ofName? w = some c →
      c.isComparable = false := by
    intro w c hw hc
    simpa [Clause.comparable?, hc] using hw
  cases h with
  | word | number | date => exact hcontent _ rfl
  | @phrase v =>
    by_cases his : s.getD .is = .is
    · rw [← hone (congrArg Node.atoms (congrArg Node.leaf (if_pos his)))]
      exact (Leaf.isPart_phrase v).readsAlone rfl
    · exact hcontent v (congrArg Node.leaf (if_neg his))
  | regex hr h =>
    obtain rfl := hone (atoms_of_signed? h)
    exact readsAlone_regex ⟨hks _ (by simp), hr, fun _ hg => absurd hg (by simp)⟩ hf
  | wildcard h =>
    obtain rfl := hone (atoms_of_signed? h)
    exact readsAlone_wildcard (hks _ (by simp))
  | @named w k v _ hw =>
    cases hc : Category.ofName? w with
    | some c => exact hcategory c v (hincomparable hw hc) (namedValue_of_ofName? hc v s)
    | none => exact hcontent v (namedValue_of_unknown hc v s)
  | quoted hw hc => exact hcategory _ _ (hincomparable hw hc) rfl
  | fieldPhrase hc h =>
    obtain rfl := hone (atoms_of_signed? h)
    exact Leaf.readsAlone_fieldPhrase (hks _ (by simp)) hc hf
  | @fieldRegex w p f _ _ hw hr h =>
    obtain rfl := hone (atoms_of_signed? h)
    refine readsAlone_regex ⟨hks _ (by simp), hr, fun g hg => ?_⟩ hf
    exact ⟨w, hks _ (by simp), hw, eq_lower_of_fieldOf hg⟩
  | @fieldWildcard w p _ _ hw h =>
    obtain rfl := hone (atoms_of_signed? h)
    exact Leaf.readsAlone_fieldWildcard (w := w) (hks _ (by simp)) (hks _ (by simp)) hw rfl hf
  | compared hw hop hv h | comparedBare hw hop hv h =>
    obtain rfl := hone (atoms_of_signed? h)
    exact Leaf.readsAlone_comparison (isComparable_of_comparable? hw) hop (hks _ (by simp)) hv
  | upTo hw hv h | upFrom hw hv _ h | equal hw _ hv h =>
    obtain rfl := hone (atoms_of_signed? h)
    exact Leaf.readsAlone_comparison (isComparable_of_comparable? hw) (by decide) (hks _ (by simp)) hv
  | range hw hv hend hu h =>
    obtain rfl := hone (atoms_of_signed? h)
    exact Leaf.readsAlone_range (isComparable_of_comparable? hw) (hks _ (by simp)) hv (hks _ (by simp)) hend hu
  | period _ hv =>
    obtain rfl := hone (m := .term .date _ _) rfl
    exact Leaf.readsAlone_date hstance (hks _ (by simp)) hv

end Grammar

end FilterQuery
