import FilterQuery.Proofs.Yaml.Quoted
import FilterQuery.Yaml.Token.Scan

namespace FilterQuery.Yaml

def startsToken (c : Char) : Bool := !isGap c && c != '#' && c != '\ufeff'

theorem isGap_of_startsToken {c : Char} (h : startsToken c = true) : isGap c = false := by
  simp only [startsToken, Bool.and_eq_true, Bool.not_eq_true'] at h
  exact h.1.1

theorem isBreak_of_startsToken {c : Char} (h : startsToken c = true) : isBreak c = false :=
  (Bool.or_eq_false_iff.1 (isGap_of_startsToken h)).2

namespace Scan

variable {s s₁ s' : Scan} {g : Glyph} {rest : List Glyph} {r : Option (List (Token String))}

def Finds (s : Scan) (r : Option (List (Token String))) : Prop := ∀ fuel, s.rest.length < fuel → run fuel s = r

theorem Finds.of_finish (hrest : s.skip.rest = []) (h : s.skip.finish = r) : s.Finds r := by
  intro fuel hfuel
  obtain ⟨fuel, rfl⟩ := Nat.exists_eq_succ_of_ne_zero (Nat.ne_zero_of_lt hfuel)
  rw [run]
  simp only [hrest]
  exact h

theorem Finds.of_token (hrest : s.skip.rest = g :: rest) (hkeys : s.skip.refreshKeys g = some s₁)
    (htoken : (s₁.unroll (some g.column)).token g rest = some s') (hless : s'.rest.length < s.rest.length)
    (h : s'.Finds r) : s.Finds r := by
  intro fuel hfuel
  obtain ⟨fuel, rfl⟩ := Nat.exists_eq_succ_of_ne_zero (Nat.ne_zero_of_lt hfuel)
  rw [run]
  simp only [hrest, hkeys, Option.bind_eq_bind, Option.bind_some, htoken]
  exact h fuel (by omega)

theorem skipFrom_of_startsToken (flow allowed : Bool) (h : startsToken g.char = true) (gs : List Glyph) :
    skipFrom flow false allowed (g :: gs) = (allowed, g :: gs) := by
  simp only [startsToken, isGap, isBlank, Bool.and_eq_true, Bool.not_eq_true', Bool.or_eq_false_iff, bne_iff_ne,
    beq_eq_false_iff_ne] at h
  obtain ⟨⟨⟨⟨hspace, htab⟩, hbreak⟩, hcomment⟩, hmark⟩ := h
  simp [skipFrom, hspace, htab, hbreak, hcomment, hmark]

theorem skip_of_startsToken (hrest : s.rest = g :: rest) (h : startsToken g.char = true) : s.skip = s := by
  rw [skip, hrest, skipFrom_of_startsToken _ _ h, ← hrest]

theorem Finds.of_start (hrest : s.rest = g :: rest) (hg : startsToken g.char = true)
    (hkeys : s.refreshKeys g = some s₁) (htoken : (s₁.unroll (some g.column)).token g rest = some s')
    (hless : s'.rest.length ≤ rest.length) (h : s'.Finds r) : s.Finds r := by
  have hskip := skip_of_startsToken hrest hg
  refine .of_token (hskip.symm ▸ hrest) (hskip.symm ▸ hkeys) htoken ?_ h
  rw [hrest, List.length_cons]
  exact Nat.lt_succ_of_le hless

def IsLoose (k : Option KeyPlace) : Prop := ∀ p ∈ k, p.required = false

theorem isLoose_none : IsLoose none := nofun

theorem refreshKey_of_isLoose {k : Option KeyPlace} (h : IsLoose k) (g : Glyph) :
    ∃ k', refreshKey g k = some k' ∧ IsLoose k' := by
  cases k with
  | none => exact ⟨none, rfl, isLoose_none⟩
  | some p =>
    unfold refreshKey
    dsimp only
    split
    · rw [if_neg (Bool.eq_false_iff.1 (h p rfl))]
      exact ⟨none, rfl, isLoose_none⟩
    · exact ⟨some p, rfl, h⟩

theorem refreshKey_of_near {p : KeyPlace} (hline : g.line ≤ p.line) (hindex : g.index ≤ p.index + keyLimit) :
    refreshKey g (some p) = some (some p) := by
  rw [refreshKey, if_neg (by omega)]

theorem mapM_refreshKey {ks : List (Option KeyPlace)} (h : ∀ k ∈ ks, IsLoose k) (g : Glyph) :
    ∃ ks', ks.mapM (refreshKey g) = some ks' ∧ ks'.length = ks.length ∧ ∀ k ∈ ks', IsLoose k := by
  induction ks with
  | nil => exact ⟨[], rfl, rfl, nofun⟩
  | cons k ks ih =>
    obtain ⟨hk, hks⟩ := List.forall_mem_cons.1 h
    obtain ⟨k', hk', hloose⟩ := refreshKey_of_isLoose hk g
    obtain ⟨ks', hks', hlen, hall⟩ := ih hks
    refine ⟨k' :: ks', ?_, congrArg Nat.succ hlen, List.forall_mem_cons.2 ⟨hloose, hall⟩⟩
    rw [List.mapM_cons, hk', hks']
    rfl

theorem isRule_of_char {sign : Char} (h : g.char ≠ sign) (gs : List Glyph) : Glyph.isRule sign (g :: gs) = false := by
  rcases gs with _ | ⟨b, _ | ⟨d, gs⟩⟩
  · rfl
  · rfl
  · simp [Glyph.isRule, h]

theorem isRule_of_next {sign : Char} (h : Glyph.next rest ≠ some sign) (g : Glyph) :
    Glyph.isRule sign (g :: rest) = false := by
  rcases rest with _ | ⟨b, _ | ⟨d, gs⟩⟩
  · rfl
  · rfl
  · have hb : b.char ≠ sign := fun hb => h (congrArg some hb)
    simp [Glyph.isRule, hb]

theorem token_of_sequence (h : g.char = '[') (s : Scan) (rest : List Glyph) :
    s.token g rest = s.openFlow .flowSequence g rest := by
  simp [token, h, isRule_of_char]

theorem token_of_mapping (h : g.char = '\x7b') (s : Scan) (rest : List Glyph) :
    s.token g rest = s.openFlow .flowMapping g rest := by
  simp [token, h, isRule_of_char]

theorem token_of_sequenceEnd (h : g.char = ']') (s : Scan) (rest : List Glyph) :
    s.token g rest = s.closeFlow .flowSequenceEnd rest := by
  simp [token, h, isRule_of_char]

theorem token_of_mappingEnd (h : g.char = '\x7d') (s : Scan) (rest : List Glyph) :
    s.token g rest = s.closeFlow .flowMappingEnd rest := by
  simp [token, h, isRule_of_char]

theorem token_of_comma (h : g.char = ',') (s : Scan) (rest : List Glyph) : s.token g rest = s.flowEntry rest := by
  simp [token, h, isRule_of_char]

theorem token_of_colon (h : g.char = ':') (alone : (s.inFlow || startsGap (Glyph.next rest)) = true) :
    s.token g rest = s.value g rest := by
  simp [token, h, isRule_of_char, Bool.or_eq_true _ _ ▸ alone]

theorem token_of_double (h : g.char = '"') (s : Scan) (rest : List Glyph) :
    s.token g rest = s.keyable g (scalarOf .double (readDouble .none [] rest)) := by
  simp [token, h, isRule_of_char]

theorem token_of_single (h : g.char = '\x27') (s : Scan) (rest : List Glyph) :
    s.token g rest = s.keyable g (scalarOf .single (readSingle .none [] rest)) := by
  simp [token, h, isRule_of_char]

theorem token_of_literal (h : g.char = '|') (hflow : s.inFlow = false) (rest : List Glyph) :
    s.token g rest = s.blockScalar .literal rest := by
  simp [token, h, hflow, isRule_of_char]

theorem token_of_plain (hdash : Glyph.isRule '-' (g :: rest) = false) (hdot : Glyph.isRule '.' (g :: rest) = false)
    (hminus : g.char = '-' → startsGap (Glyph.next rest) = false)
    (hbegins : beginsPlain s.inFlow g.char (Glyph.next rest) = true) :
    s.token g rest = s.plainScalar g (g :: rest) := by
  by_cases hsign : g.char = '-' ∨ g.char = '?' ∨ g.char = ':'
  · rcases hsign with h | h | h
    · simp [token, h, hdash, hdot, hminus h, h ▸ hbegins]
    · have halone : s.inFlow = false ∧ startsGap (Glyph.next rest) = false := by simpa [h, beginsPlain] using hbegins
      simp [token, h, hdash, hdot, halone, beginsPlain]
    · have halone : s.inFlow = false ∧ startsGap (Glyph.next rest) = false := by simpa [h, beginsPlain] using hbegins
      simp [token, h, hdash, hdot, halone, beginsPlain]
  · simp only [not_or] at hsign
    have hindicator := hbegins
    simp only [beginsPlain, hsign, isIndicator, isFlowSign, or_self, reduceIte, List.contains_eq_mem, List.mem_cons,
      List.not_mem_nil, or_false, Bool.decide_or, Bool.not_or, Bool.and_eq_true, Bool.not_eq_eq_eq_not, Bool.not_true,
      beq_eq_false_iff_ne, ne_eq, decide_eq_false_iff_not] at hindicator
    simp [token, hdash, hdot, hsign, hindicator, hbegins]

theorem plainScalar_eq {gs : List Glyph} {cs : List Char} {crossed : Bool} (hsave : s.saveKey g = some s')
    (hread : readPlain s'.inFlow s'.least gs = some (cs, crossed, rest)) : s.plainScalar g gs =
      some { s'.emit (.scalar .plain (String.ofList cs)) with keyAllowed := crossed, rest := rest } := by
  rw [plainScalar, hsave]
  simp only [Option.bind_eq_bind, Option.bind_some, hread]
  rfl

theorem dropKey_of_isLoose (h : IsLoose s.key) : s.dropKey = some { s with key := none } := by
  rw [dropKey, if_neg]
  cases hk : s.key with
  | none => decide
  | some p => simp [h p hk]

end Scan

end FilterQuery.Yaml
