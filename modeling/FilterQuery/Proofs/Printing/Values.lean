import FilterQuery.Proofs.Parts

namespace FilterQuery.Token

/-- A text that is one token of this kind, from its first character to its last. -/
def IsToken (text : String) (k : Kind) : Prop := tokenize text = .ok [⟨k, text, 0⟩, finish text]

theorem isToken_of_scanOne {c : Char} {cs : List Char} {k : Kind} (hb : Text.isBlank c = false)
    (h : scanOne c cs = .ok (k, [])) : IsToken (String.ofList (c :: cs)) k := by
  have hlexes : Lexes 0 (c :: cs) [⟨k, String.ofList (c :: cs), 0⟩] := by
    rw [← List.append_nil cs] at h
    have htoken := Lexes.token (p := 0) hb h .nil
    rwa [List.append_nil] at htoken
  rw [IsToken, tokenize_eq, String.toList_ofList, hlexes.scanFrom]
  rfl

theorem isToken_quote (v : String) : IsToken (String.ofList (Text.quote v.toList)) (.phrase v) := by
  have hone := scanOne_quote v.toList []
  rw [String.ofList_toList] at hone
  exact isToken_of_scanOne (by decide) hone

theorem isToken_of_isWord {v : String} (h : IsWord v.toList) : IsToken v (classify v.toList) := by
  rw [← String.ofList_toList (s := v)]
  cases hv : v.toList with
  | nil =>
    rw [hv] at h
    cases h
  | cons c w =>
    rw [hv] at h
    have hone := scanOne_of_startsWord h.1 w
    rw [h.2] at hone
    rw [String.toList_ofList]
    exact isToken_of_scanOne (isBlank_of_startsWord h.1) hone

theorem isToken_regexLiteral {pattern flags : String} (h : IsRegexLiteral pattern.toList flags.toList) :
    IsToken (String.ofList (Text.regexLiteral pattern.toList flags.toList)) (.regex pattern flags) := by
  have htail : ∀ c, ([] : List Char).head? = some c → isFlag c = false := nofun
  have hone := scanOne_regexLiteral h htail
  rw [List.append_nil, String.ofList_toList, String.ofList_toList] at hone
  exact isToken_of_scanOne (by decide) hone

theorem classify_of_isPlain {v : String} (h : Text.isPlain v.toList = true) :
    classify v.toList = .word v ∨ classify v.toList = .number v ∨ classify v.toList = .date v := by
  have hbare := bareValue?_classify (Text.not_mem_star h)
  rw [String.ofList_toList] at hbare
  cases hk : classify v.toList with
  | word | number | date =>
    rw [hk] at hbare
    cases hbare
    simp
  | _ =>
    rw [hk] at hbare
    cases hbare

theorem isLexed_of_tokenize {query : String} {ts : List Token} (h : tokenize query = .ok ts) :
    ∀ t ∈ ts, t.kind ≠ .finish → t.kind.IsLexed := by
  obtain ⟨us, hscan, rfl⟩ := tokenize_eq_ok h
  intro t ht hne
  rcases List.mem_append.1 ht with ht | ht
  · exact (scans_of_scanFrom hscan).isLexed _ (List.mem_map_of_mem ht)
  · rw [List.mem_singleton.1 ht] at hne
    exact absurd rfl hne

/-- What is written is read as one token with what it was written for: any text in quotes, a plain value as it
stands, and a regex of any query as a literal. -/
theorem isToken_of_written :
    (∀ v : String, IsToken (String.ofList (Text.quote v.toList)) (.phrase v)) ∧
      (∀ v : String, Text.isPlain v.toList = true →
        ∃ k, (k = .word v ∨ k = .number v ∨ k = .date v) ∧ IsToken v k) ∧
      ∀ (query : String) (ts : List Token), tokenize query = .ok ts → ∀ t ∈ ts, ∀ pattern flags,
        t.kind = .regex pattern flags →
          IsToken (String.ofList (Text.regexLiteral pattern.toList flags.toList)) (.regex pattern flags) := by
  refine ⟨isToken_quote, fun v hv => ?_, fun query ts hts t ht pattern flags hk => ?_⟩
  · exact ⟨_, classify_of_isPlain hv, isToken_of_isWord (isWord_of_isPlain hv)⟩
  · have hlexed := isLexed_of_tokenize hts t ht (by rw [hk]; nofun)
    rw [hk] at hlexed
    exact isToken_regexLiteral hlexed.isRegexLiteral

theorem isToken_of_written_escapes :
    IsToken "\"\\\"\\\\\\\\\"" (.phrase "\"\\\\") ∧
      (∃ k, (k = .word "2024-05" ∨ k = .number "2024-05" ∨ k = .date "2024-05") ∧ IsToken "2024-05" k) ∧
      IsToken "/a\\\\\\/b/im" (.regex "a\\\\/b" "im") := by
  obtain ⟨hquote, hplain, hregex⟩ := isToken_of_written
  have htokens : tokenize "(x:/a\\\\\\/b/im" = .ok [⟨.leftParen, "(", 0⟩, ⟨.word "x", "x", 1⟩, ⟨.colon, ":", 2⟩,
      ⟨.regex "a\\\\/b" "im", "/a\\\\\\/b/im", 3⟩, ⟨.finish, "", 13⟩] := by decide +kernel
  have hquoted : String.ofList (Text.quote "\"\\\\".toList) = "\"\\\"\\\\\\\\\"" := by decide +kernel
  have hliteral : String.ofList (Text.regexLiteral "a\\\\/b".toList "im".toList) = "/a\\\\\\/b/im" := by
    decide +kernel
  refine ⟨hquoted ▸ hquote _, hplain "2024-05" (by decide +kernel), hliteral ▸ ?_⟩
  exact hregex _ _ htokens ⟨.regex "a\\\\/b" "im", "/a\\\\\\/b/im", 3⟩ (by decide) _ _ rfl

end FilterQuery.Token
