import FilterQuery.Proofs.Scan

namespace FilterQuery.Token

theorem span_append {f : Char → Bool} {xs tail : List Char} (hx : ∀ c ∈ xs, f c = true)
    (ht : ∀ c, tail.head? = some c → f c = false) :
    (xs ++ tail).takeWhile f = xs ∧ (xs ++ tail).dropWhile f = tail := by
  rw [List.takeWhile_append_of_pos hx, List.dropWhile_append_of_pos hx]
  cases tail with
  | nil => simp
  | cons c tail => simp [ht c rfl]

theorem of_mem_takeWhile {f : Char → Bool} {cs : List Char} : ∀ c ∈ cs.takeWhile f, f c = true :=
  List.all_eq_true.1 List.all_takeWhile

theorem isBlank_of_startsWord {c : Char} (h : startsWord c = true) : Text.isBlank c = false := by
  simp only [startsWord, Bool.or_eq_true, beq_iff_eq] at h
  rcases h with (h | rfl) | rfl
  · exact Text.isBlank_of_isAlphanumeric h
  · decide
  · decide

theorem startsWord_ascii {c : Char} (h : c.toNat < 128) :
    startsWord c = (c.isAlpha || Number.isDigit c || c == '_' || c == '*') := by
  rw [startsWord, Text.isAlphanumeric_ascii h]

theorem scanOne_of_startsWord {c : Char} (h : startsWord c = true) (cs : List Char) :
    scanOne c cs = .ok (classify (c :: (splitWord cs).1), (splitWord cs).2) := by
  have hs : Stance.ofSign? c = none := by
    unfold Stance.ofSign?
    split <;> first | rfl | exact absurd h (by rw [startsWord_ascii (by decide)]; decide)
  unfold scanOne
  split
  case h_14 => rw [hs, h]; rfl
  all_goals exact absurd h (by rw [startsWord_ascii (by decide)]; decide)

def IsWhole (cs : List Char) : Prop := splitWord cs = (cs, [])

theorem isWhole_nil : IsWhole [] := rfl

theorem isWhole_cons_iff {c : Char} {cs : List Char} :
    IsWhole (c :: cs) ↔ continuesWord c cs.head? = true ∧ IsWhole cs := by
  unfold IsWhole
  rw [splitWord]
  cases h : continuesWord c cs.head? with
  | false => simp
  | true => simp [Prod.ext_iff]

theorem isWhole_append {xs cs : List Char} (hx : ∀ c ∈ xs, ∀ next, continuesWord c next = true)
    (hcs : IsWhole cs) : IsWhole (xs ++ cs) := by
  induction xs with
  | nil => exact hcs
  | cons c xs ih =>
    exact isWhole_cons_iff.2 ⟨hx c List.mem_cons_self _, ih fun d hd => hx d (List.mem_cons_of_mem c hd)⟩

theorem isWhole_of_forall {cs : List Char} (h : ∀ c ∈ cs, ∀ next, continuesWord c next = true) : IsWhole cs := by
  rw [← List.append_nil cs]
  exact isWhole_append h isWhole_nil

theorem isWhole_splitWord (cs : List Char) : IsWhole (splitWord cs).1 := by
  induction cs with
  | nil => rfl
  | cons c cs ih =>
    rw [splitWord]
    split
    · next h =>
      refine isWhole_cons_iff.2 ⟨?_, ih⟩
      simp only [continuesWord, Bool.or_eq_true, Bool.and_eq_true] at h ⊢
      refine h.imp_right (And.imp_right fun hn => ?_)
      cases cs with
      | nil => cases hn
      | cons d ds =>
        have hd : continuesWord d ds.head? = true := by
          have hd' : Text.isAlphanumeric d = true ∨ d = '_' := by simpa using hn
          rcases hd' with hd' | rfl
          · simp [continuesWord, hd']
          · simp [continuesWord]
        rw [splitWord, if_pos hd]
        exact hn
    · rfl

theorem splitWord_of_isWhole {w tail : List Char} (hw : IsWhole w) (ht : EndsWord tail) :
    splitWord (w ++ tail) = (w, tail) := by
  have h := splitWord_append_left hw ht
  rwa [List.nil_append] at h

def IsWord : List Char → Prop
  | [] => False
  | c :: w => startsWord c = true ∧ IsWhole w

theorem Scans.word {cs tail : List Char} {ks : List Kind} (h : IsWord cs) (ht : EndsWord tail)
    (hks : Scans tail ks) : Scans (cs ++ tail) (classify cs :: ks) := by
  cases cs with
  | nil => cases h
  | cons c w =>
    have hone := scanOne_of_startsWord h.1 (w ++ tail)
    rw [splitWord_of_isWhole h.2 ht] at hone
    exact .token (isBlank_of_startsWord h.1) hone hks

def Kind.IsLexed (k : Kind) : Prop := ∃ c cs rest, scanOne c cs = .ok (k, rest)

theorem Scans.isLexed {cs : List Char} {ks : List Kind} (h : Scans cs ks) : ∀ k ∈ ks, k.IsLexed := by
  induction h with
  | nil => nofun
  | blank _ _ ih => exact ih
  | token _ hone _ ih =>
    intro k hk
    rcases List.mem_cons.1 hk with rfl | hk
    · exact ⟨_, _, _, hone⟩
    · exact ih k hk

def Kind.wordText? : Kind → Option String
  | .word v | .number v | .date v | .wildcard v => some v
  | _ => none

theorem wordText?_classify (w : List Char) : (classify w).wordText? = some (String.ofList w) := by
  unfold classify
  dsimp only
  repeat' split
  all_goals rfl

theorem classify_ne {w : List Char} {k : Kind} (h : k.wordText? = none) : classify w ≠ k := by
  rintro rfl
  rw [wordText?_classify] at h
  cases h

theorem Kind.IsLexed.ne {k : Kind} (h : k.IsLexed) : k ≠ .finish ∧ k ≠ .stance .neutral := by
  obtain ⟨c, cs, rest, hone⟩ := h
  unfold scanOne at hone
  split at hone
  case h_14 =>
    split at hone
    · next s hs =>
      cases hone
      refine ⟨nofun, ?_⟩
      rintro ⟨⟩
      cases Stance.ofSign?_eq_some_iff.1 hs
    · split at hone <;> cases hone
      · exact ⟨classify_ne rfl, classify_ne rfl⟩
      · exact ⟨nofun, nofun⟩
  case h_1 | h_2 | h_11 | h_12 | h_13 => split at hone <;> cases hone <;> exact ⟨nofun, nofun⟩
  case h_3 =>
    cases hone
    split <;> exact ⟨nofun, nofun⟩
  all_goals
    cases hone
    exact ⟨nofun, nofun⟩

theorem Kind.IsLexed.isWord {k : Kind} {v : String} (h : k.IsLexed) (hv : k.wordText? = some v) :
    IsWord v.toList ∧ k = classify v.toList := by
  obtain ⟨c, cs, rest, hone⟩ := h
  unfold scanOne at hone
  split at hone
  case h_3 =>
    cases hone
    split at hv <;> cases hv
  case h_14 =>
    split at hone
    · cases hone; cases hv
    · split at hone
      · next hs =>
        cases hone
        rw [wordText?_classify] at hv
        cases hv
        rw [String.toList_ofList]
        exact ⟨⟨hs, isWhole_splitWord cs⟩, rfl⟩
      · cases hone; cases hv
  all_goals
    repeat' split at hone
    all_goals cases hone <;> cases hv

theorem phraseBody?_escapeQuotes (v rest : List Char) :
    phraseBody? (Text.escapeQuotes v ++ '"' :: rest) = some (v, rest) := by
  induction v with
  | nil => rfl
  | cons c v ih =>
    rw [Text.escapeQuotes]
    split
    · simp [phraseBody?, ih]
    · next h =>
      obtain ⟨h1, h2⟩ := not_or.1 h
      rw [List.cons_append, phraseBody?_cons h1 h2, ih]
      rfl

theorem scanOne_quote (v rest : List Char) :
    scanOne '"' (Text.escapeQuotes v ++ '"' :: rest) = .ok (.phrase (String.ofList v), rest) := by
  simp [scanOne, phraseBody?_escapeQuotes]

theorem Scans.quote {v tail : List Char} {ks : List Kind} (h : Scans tail ks) :
    Scans (Text.quote v ++ tail) (.phrase (String.ofList v) :: ks) := by
  have hcs : Text.quote v ++ tail = '"' :: (Text.escapeQuotes v ++ '"' :: tail) := by simp [Text.quote]
  rw [hcs]
  exact .token (by decide) (scanOne_quote v tail) h

def IsPattern (p : List Char) : Prop :=
  ∀ rest, regexBody (Text.escapeSlashes p ++ '/' :: rest) = .closed p rest

theorem isPattern_of_regexBody {cs p rest : List Char} (h : regexBody cs = .closed p rest) : IsPattern p := by
  fun_induction regexBody cs generalizing p rest with
  | case1 => cases h
  | case2 cs => cases h; exact fun _ => rfl
  | case3 => cases h
  | case4 cs ih =>
    obtain ⟨p, hp, rfl⟩ := RegexEnd.push_eq_closed h
    intro rest'
    simp [Text.escapeSlashes, regexBody, ih hp rest', RegexEnd.push]
  | case5 c cs hc ih =>
    obtain ⟨p, hp, rfl⟩ := RegexEnd.push_eq_closed h
    intro rest'
    have hbody := ih hp rest'
    simp only [List.cons_append, List.nil_append, Text.escapeSlashes, if_neg (show '\\' ≠ '/' by decide),
      if_neg (fun h => hc h : ¬ c = '/')]
    rw [regexBody, hbody]
    · rfl
    · exact hc
  | case6 c cs h1 h2 h3 h4 ih =>
    obtain ⟨p, hp, rfl⟩ := RegexEnd.push_eq_closed h
    have hc := ne_backslash h2 h4
    intro rest'
    have hbody := ih hp rest'
    simp only [List.cons_append, List.nil_append, Text.escapeSlashes, if_neg (fun h => h1 h : ¬ c = '/')]
    rw [regexBody_cons h1 hc, hbody]
    rfl

def IsRegexLiteral (p f : List Char) : Prop := IsPattern p ∧ ∀ c ∈ f, isFlag c = true

theorem Kind.IsLexed.isRegexLiteral {p f : String} (h : (Kind.regex p f).IsLexed) :
    IsRegexLiteral p.toList f.toList := by
  obtain ⟨c, cs, rest, hone⟩ := h
  unfold scanOne at hone
  split at hone
  case h_2 =>
    split at hone <;> cases hone
    rw [String.toList_ofList, String.toList_ofList]
    exact ⟨isPattern_of_regexBody ‹_›, of_mem_takeWhile⟩
  case h_3 =>
    dsimp only at hone
    split at hone <;> cases hone
  case h_14 =>
    split at hone
    · cases hone
    · split at hone
      · exact absurd (Prod.mk.inj (Except.ok.inj hone)).1 (classify_ne rfl)
      · cases hone
  all_goals
    repeat' split at hone
    all_goals cases hone

theorem scanOne_regexLiteral {p f tail : List Char} (h : IsRegexLiteral p f)
    (ht : ∀ c, tail.head? = some c → isFlag c = false) :
    scanOne '/' (Text.escapeSlashes p ++ '/' :: (f ++ tail)) =
      .ok (.regex (String.ofList p) (String.ofList f), tail) := by
  obtain ⟨htake, hdrop⟩ := span_append h.2 ht
  simp only [scanOne, h.1 (f ++ tail), htake, hdrop]

theorem Scans.regex {p f tail : List Char} {ks : List Kind} (h : IsRegexLiteral p f)
    (ht : ∀ c, tail.head? = some c → isFlag c = false) (hks : Scans tail ks) :
    Scans (Text.regexLiteral p f ++ tail) (.regex (String.ofList p) (String.ofList f) :: ks) := by
  have hcs : Text.regexLiteral p f ++ tail = '/' :: (Text.escapeSlashes p ++ '/' :: (f ++ tail)) := by
    simp [Text.regexLiteral]
  rw [hcs]
  exact .token (by decide) (scanOne_regexLiteral h ht) hks

def IsName (cs : List Char) : Prop := cs ≠ [] ∧ ∀ c ∈ cs, isNameChar c = true

theorem Kind.IsLexed.isName {name : String} (h : (Kind.reference name).IsLexed) : IsName name.toList := by
  obtain ⟨c, cs, rest, hone⟩ := h
  unfold scanOne at hone
  split at hone
  case h_3 =>
    dsimp only at hone
    split at hone
    · cases hone
    · next hw =>
      cases hone
      rw [String.toList_ofList]
      exact ⟨by simpa using hw, of_mem_takeWhile⟩
  case h_14 =>
    split at hone
    · cases hone
    · split at hone
      · exact absurd (Prod.mk.inj (Except.ok.inj hone)).1 (classify_ne rfl)
      · cases hone
  all_goals
    repeat' split at hone
    all_goals cases hone

theorem Scans.reference {name tail : List Char} {ks : List Kind} (h : IsName name)
    (ht : ∀ c, tail.head? = some c → isNameChar c = false) (hks : Scans tail ks) :
    Scans ('@' :: (name ++ tail)) (.reference (String.ofList name) :: ks) := by
  refine .token (by decide) ?_ hks
  obtain ⟨htake, hdrop⟩ := span_append h.2 ht
  simp [scanOne, htake, hdrop, h.1]

theorem endsWord_aboveDot (cs : List Char) : EndsWord (Text.aboveDot :: cs) := by
  refine endsWord_cons ?_
  rw [continuesWord, Text.isAlphanumeric_aboveDot]
  rfl

def Heads (cs g : List Char) : Prop :=
  ∀ c, cs.head? = some c → ∃ d, g.head? = some d ∧ (d = c ∨ Text.isAlphanumeric d = true)

theorem isWhole_lower_cons {c d : Char} {cs g : List Char} (h : continuesWord c cs.head? = true)
    (hd : d = c ∨ Text.isAlphanumeric d = true) (hg : Heads cs g) (hw : IsWhole g) : IsWhole (d :: g) := by
  refine isWhole_cons_iff.2 ⟨?_, hw⟩
  rcases hd with rfl | hd
  · simp only [continuesWord, Bool.or_eq_true, Bool.and_eq_true] at h ⊢
    refine h.imp_right (And.imp_right fun hn => ?_)
    obtain ⟨e, he, hword⟩ := (Option.any_eq_true ..).1 hn
    obtain ⟨e', he', hor⟩ := hg e he
    rw [he']
    rcases hor with rfl | hor
    · exact hword
    · simp [hor]
  · simp [continuesWord, hd]

theorem exists_lowerFrom (cs : List Char) : ∀ before, IsWhole cs →
    ∃ g rest, Text.lowerFrom before cs = g ++ rest ∧ IsWhole g ∧ Heads cs g ∧
      (rest = [] ∨ ∃ rest', rest = Text.aboveDot :: rest') := by
  induction cs with
  | nil => exact fun _ _ => ⟨[], [], rfl, rfl, nofun, .inl rfl⟩
  | cons c cs ih =>
    intro before h
    obtain ⟨hc, hcs⟩ := isWhole_cons_iff.1 h
    obtain ⟨g, rest, hg, hw, hh, hr⟩ := ih (c :: before) hcs
    have hone : ∀ d, Text.lowerAt before c cs = [d] → (d = c ∨ Text.isAlphanumeric d = true) →
        ∃ g rest, Text.lowerFrom before (c :: cs) = g ++ rest ∧ IsWhole g ∧ Heads (c :: cs) g ∧
          (rest = [] ∨ ∃ rest', rest = Text.aboveDot :: rest') := by
      intro d hl hd
      refine ⟨d :: g, rest, ?_, isWhole_lower_cons hc hd hh hw, ?_, hr⟩
      · rw [Text.lowerFrom_cons, hl, hg]
        rfl
      · rintro _ ⟨⟩
        exact ⟨d, rfl, hd⟩
    rcases Text.lowerAt_eq before c cs with hl | ⟨d, hd, hl | hl⟩
    · exact hone c hl (.inl rfl)
    · exact hone d hl (.inr hd)
    · refine ⟨[d], Text.aboveDot :: Text.lowerFrom (c :: before) cs, ?_,
        isWhole_cons_iff.2 ⟨by simp [continuesWord, hd], rfl⟩, ?_, .inr ⟨_, rfl⟩⟩
      · rw [Text.lowerFrom_cons, hl]
        rfl
      · rintro _ ⟨⟩
        exact ⟨d, rfl, .inr hd⟩

theorem IsWord.isWhole {cs : List Char} (h : IsWord cs) : IsWhole cs := by
  cases cs with
  | nil => cases h
  | cons c cs =>
    refine isWhole_cons_iff.2 ⟨?_, h.2⟩
    have hc := h.1
    simp only [startsWord, Bool.or_eq_true] at hc
    simp only [continuesWord, Bool.or_eq_true]
    exact .inl (.inl (.inl hc))

theorem exists_lowerCase {cs : List Char} (h : IsWord cs) :
    ∃ g rest, Text.lowerCase cs = g ++ rest ∧ IsWord g ∧
      (rest = [] ∨ ∃ rest', rest = Text.aboveDot :: rest') := by
  obtain ⟨g, rest, hg, hw, hh, hr⟩ := exists_lowerFrom cs [] h.isWhole
  refine ⟨g, rest, hg, ?_, hr⟩
  cases cs with
  | nil => cases h
  | cons c cs =>
    obtain ⟨d, hd, hor⟩ := hh c rfl
    cases g with
    | nil => cases hd
    | cons e g =>
      cases hd
      refine ⟨?_, (isWhole_cons_iff.1 hw).2⟩
      rcases hor with rfl | hor
      · exact h.1
      · simp [startsWord, hor]

theorem Scans.stance {s : Stance} {c : Char} (hc : s.sign? = some c) {tail : List Char} {ks : List Kind}
    (h : Scans tail ks) : Scans (c :: tail) (.stance s :: ks) := by
  cases s <;> cases hc <;> exact .token (by decide) rfl h

theorem Scans.colon {tail : List Char} {ks : List Kind} (h : Scans tail ks) :
    Scans (':' :: tail) (.colon :: ks) := .token (by decide) rfl h

theorem Scans.compare (op : Comparator) {cs tail : List Char} {ks : List Kind} (hcs : IsWord cs)
    (h : Scans (cs ++ tail) ks) : Scans (op.symbol.toList ++ (cs ++ tail)) (.compare op :: ks) := by
  cases cs with
  | nil => cases hcs
  | cons c w =>
    have hc : c ≠ '=' := by
      rintro rfl
      exact absurd hcs.1 (by rw [startsWord_ascii (by decide)]; decide)
    cases op with
    | above =>
      change Scans ('>' :: c :: (w ++ tail)) _
      refine .token (by decide) ?_ h
      simp only [scanOne]
      split
      · next heq =>
        cases heq
        exact absurd rfl hc
      · rfl
    | below =>
      change Scans ('<' :: c :: (w ++ tail)) _
      refine .token (by decide) ?_ h
      simp only [scanOne]
      split
      · next heq =>
        cases heq
        exact absurd rfl hc
      · rfl
    | equal => exact .token (by decide) rfl h
    | atLeast => exact .token (by decide) rfl h
    | atMost => exact .token (by decide) rfl h
    | within => exact .token (by decide) rfl h

theorem endsWord_colon (cs : List Char) : EndsWord (':' :: cs) := by
  refine endsWord_of_breaks (breaks_cons ?_ cs)
  rw [isBreak, Text.isAlphanumeric_ascii (by decide)]
  decide

theorem endsWord_points (cs : List Char) : EndsWord ('.' :: '.' :: cs) := by
  refine endsWord_cons ?_
  simp only [continuesWord, List.head?_cons, Option.any_some, Text.isAlphanumeric_ascii (by decide : '.'.toNat < 128)]
  decide

theorem Scans.unique {cs : List Char} {ks ls : List Kind} (h : Scans cs ks) (h' : Scans cs ls) : ks = ls := by
  obtain ⟨ts, hts, rfl⟩ := h.scanFrom 0
  obtain ⟨us, hus, rfl⟩ := h'.scanFrom 0
  rw [hts] at hus
  cases hus
  rfl

theorem Scans.token_inv {c : Char} {cs rest : List Char} {k : Kind} {ks : List Kind}
    (h : Scans (c :: cs) ks) (hb : Text.isBlank c = false) (hone : scanOne c cs = .ok (k, rest)) :
    ∃ ls, ks = k :: ls ∧ Scans rest ls := by
  cases h with
  | blank hb' _ => rw [hb] at hb'; cases hb'
  | token _ hone' hs =>
    rw [hone] at hone'
    cases hone'
    exact ⟨_, rfl, hs⟩

theorem Scans.append_inv {cs tail : List Char} {ks ls : List Kind} (h : Scans cs ks)
    (hk : ∀ k ∈ ks, k.isOpen = false) (ht : Breaks tail) (h' : Scans (cs ++ tail) ls) :
    ∃ us, ls = ks ++ us ∧ Scans tail us := by
  induction h generalizing ls with
  | nil => exact ⟨ls, rfl, h'⟩
  | blank hb _ ih =>
    cases h' with
    | blank _ h' => exact ih hk h'
    | token hb' => rw [hb] at hb'; cases hb'
  | token hb hone _ ih =>
    obtain ⟨hk, hks⟩ := List.forall_mem_cons.1 hk
    obtain ⟨us, rfl, hrest⟩ := h'.token_inv hb (scanOne_append hone hk ht)
    obtain ⟨vs, rfl, htail⟩ := ih hks hrest
    exact ⟨vs, rfl, htail⟩

theorem Scans.word_inv {cs tail : List Char} {ks : List Kind} (h : Scans (cs ++ tail) ks) (hcs : IsWord cs)
    (ht : EndsWord tail) : ∃ ls, ks = classify cs :: ls ∧ Scans tail ls := by
  cases cs with
  | nil => cases hcs
  | cons c w =>
    have hone := scanOne_of_startsWord hcs.1 (w ++ tail)
    rw [splitWord_of_isWhole hcs.2 ht] at hone
    exact h.token_inv (isBlank_of_startsWord hcs.1) hone

theorem Scans.aboveDot_inv {cs : List Char} {ks : List Kind} (h : Scans (Text.aboveDot :: cs) ks) :
    ∃ ls, ks = .flawed (.stray Text.aboveDot) :: ls := by
  have hs : startsWord Text.aboveDot = false := by
    rw [startsWord, Text.isAlphanumeric_aboveDot]
    rfl
  have hone : scanOne Text.aboveDot cs = .ok (.flawed (.stray Text.aboveDot), cs) := by
    unfold scanOne
    split
    case h_14 => rw [hs]; rfl
    all_goals exact absurd ‹Text.aboveDot = _› (by decide)
  obtain ⟨ls, hls, -⟩ := h.token_inv (by decide +kernel) hone
  exact ⟨ls, hls⟩

end FilterQuery.Token
