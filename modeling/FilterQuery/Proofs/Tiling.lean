import FilterQuery.Proofs.Lexemes

/-! Tokens and the text that they are cut from. Tokens lie one behind the other on the characters that they hold, and
between them there are blanks alone. Cutting stops short only at a regex that nothing closes and whose last backslash
has no character behind it. -/

namespace FilterQuery.Token

/-- Whether tokens lie in a text one behind the other from `p` on, each on the characters that it holds, and apart from
them there are only blanks. -/
structure Tiles (cs : List Char) (p : Nat) (ts : List Token) : Prop where
  nonempty : ∀ t ∈ ts, 1 ≤ t.length
  behind : ∀ t ∈ ts, p ≤ t.position
  apart : ts.Pairwise fun t u => t.stop ≤ u.position
  text : ∀ t ∈ ts, t.stop ≤ cs.length ∧ t.text.toList = (cs.drop t.position).take t.length
  blank : ∀ i c, p ≤ i → cs[i]? = some c → (∀ t ∈ ts, ¬(t.position ≤ i ∧ i < t.stop)) → Text.isBlank c = true

namespace Tiles

variable {cs : List Char} {p : Nat} {c : Char} {t : Token} {ts : List Token}

theorem nil (h : cs.length ≤ p) : Tiles cs p [] where
  nonempty := nofun
  behind := nofun
  apart := .nil
  text := nofun
  blank i c hi hc _ := by
    rw [List.getElem?_eq_none (by omega)] at hc
    cases hc

theorem skip (h : Tiles cs (p + 1) ts) (hc : cs[p]? = some c) (hb : Text.isBlank c = true) : Tiles cs p ts where
  nonempty := h.nonempty
  behind t ht := by
    have := h.behind t ht
    omega
  apart := h.apart
  text := h.text
  blank i d hi hd hout := by
    rcases Nat.eq_or_lt_of_le hi with rfl | hlt
    · rw [hc] at hd
      cases hd
      exact hb
    · exact h.blank i d hlt hd hout

theorem cons (h : Tiles cs t.stop ts) (hlength : 1 ≤ t.length) (hstop : t.stop ≤ cs.length)
    (htext : t.text.toList = (cs.drop t.position).take t.length) : Tiles cs t.position (t :: ts) where
  nonempty := List.forall_mem_cons.2 ⟨hlength, h.nonempty⟩
  behind := List.forall_mem_cons.2 ⟨Nat.le_refl _, fun u hu => (Nat.le_add_right _ _).trans (h.behind u hu)⟩
  apart := List.pairwise_cons.2 ⟨h.behind, h.apart⟩
  text := List.forall_mem_cons.2 ⟨⟨hstop, htext⟩, h.text⟩
  blank i c hi hc hout := by
    obtain ⟨hhere, hout⟩ := List.forall_mem_cons.1 hout
    exact h.blank i c (by omega) hc hout

end Tiles

theorem drop_of_drop_eq {cs w rest : List Char} {p : Nat} (h : cs.drop p = w ++ rest) :
    cs.drop (p + w.length) = rest := by
  rw [← List.drop_drop, h, List.drop_left]

theorem Lexes.tiles {cs ds : List Char} {p : Nat} {ts : List Token} (h : Lexes p ds ts) (hds : cs.drop p = ds) :
    Tiles cs p ts := by
  induction h with
  | nil => exact .nil (List.drop_eq_nil_iff.1 hds)
  | @blank c p ds ts hb _ ih =>
    have hc : cs[p]? = some c := by rw [← List.head?_drop, hds, List.head?_cons]
    exact (ih (drop_of_drop_eq (w := [c]) hds)).skip hc hb
  | @token c w rest k p ts _ _ _ ih =>
    have hlength : (⟨k, String.ofList (c :: w), p⟩ : Token).length = w.length + 1 := by
      rw [Token.length, String.length_ofList, List.length_cons]
    have hall := congrArg List.length hds
    simp only [List.length_drop, List.length_cons, List.length_append] at hall
    refine Tiles.cons (t := ⟨k, String.ofList (c :: w), p⟩) ?_ ?_ ?_ ?_
    · rw [stop, hlength]
      exact ih (drop_of_drop_eq (w := c :: w) hds)
    · omega
    · rw [stop, hlength]
      dsimp only
      omega
    · rw [hlength, hds, String.toList_ofList, take_token]

inductive Reaches : List Char → List Char → Prop
  | refl : Reaches cs cs
  | blank : Text.isBlank c = true → Reaches cs ds → Reaches (c :: cs) ds
  | token : Text.isBlank c = false → scanOne c cs = .ok (k, rest) → Reaches rest ds → Reaches (c :: cs) ds

def backslashes (cs : List Char) : Nat := (cs.reverse.takeWhile (· == '\\')).length

def ClosesRegex (cs : List Char) : Prop := ∃ pattern rest, cs = pattern ++ '/' :: rest ∧ Even (backslashes pattern)

/-- Whether cutting a text comes to a regex that nothing closes and that ends in an odd number of backslashes. -/
def Overruns (cs : List Char) : Prop :=
  ∃ body, Reaches cs ('/' :: body) ∧ ¬ ClosesRegex body ∧ Odd (backslashes body)

theorem backslashes_le (cs : List Char) : backslashes cs ≤ cs.length := by
  have hlength : cs.reverse.length = cs.length := List.length_reverse
  rw [backslashes, ← hlength]
  exact (List.takeWhile_sublist _).length_le

theorem backslashes_cons_of_ne {c : Char} (h : c ≠ '\\') (cs : List Char) : backslashes (c :: cs) = backslashes cs := by
  rw [backslashes, List.reverse_cons, List.takeWhile_append]
  split
  · simp_all [backslashes]
  · rfl

theorem backslashes_cons (cs : List Char) :
    backslashes ('\\' :: cs) = if backslashes cs = cs.length then cs.length + 1 else backslashes cs := by
  rw [backslashes, List.reverse_cons, List.takeWhile_append, List.length_reverse]
  split <;> simp_all [backslashes]

theorem even_backslashes_escape (c : Char) (cs : List Char) :
    Even (backslashes ('\\' :: c :: cs)) ↔ Even (backslashes cs) := by
  have hle := backslashes_le cs
  by_cases hc : c = '\\'
  · subst hc
    rw [backslashes_cons, backslashes_cons, List.length_cons]
    split_ifs <;> first | omega | simp_all [Nat.even_add]
  · rw [backslashes_cons, backslashes_cons_of_ne hc, List.length_cons, if_neg (by omega)]

namespace ClosesRegex

theorem slash (cs : List Char) : ClosesRegex ('/' :: cs) := ⟨[], cs, rfl, by decide⟩

theorem cons_iff {c : Char} (h1 : c ≠ '/') (h2 : c ≠ '\\') (cs : List Char) :
    ClosesRegex (c :: cs) ↔ ClosesRegex cs := by
  constructor
  · rintro ⟨_ | ⟨d, pattern⟩, rest, heq, heven⟩
    · cases heq
      exact absurd rfl h1
    · cases heq
      rw [backslashes_cons_of_ne h2] at heven
      exact ⟨pattern, rest, rfl, heven⟩
  · rintro ⟨pattern, rest, rfl, heven⟩
    rw [← backslashes_cons_of_ne h2] at heven
    exact ⟨c :: pattern, rest, rfl, heven⟩

theorem not_backslash : ¬ ClosesRegex ['\\'] := by
  rintro ⟨_ | ⟨_, _ | _⟩, rest, heq, -⟩ <;> cases heq

theorem escape_iff (c : Char) (cs : List Char) : ClosesRegex ('\\' :: c :: cs) ↔ ClosesRegex cs := by
  constructor
  · rintro ⟨_ | ⟨_, _ | ⟨_, pattern⟩⟩, rest, heq, heven⟩
    · cases heq
    · cases heq
      exact absurd heven (by decide)
    · cases heq
      exact ⟨pattern, rest, rfl, (even_backslashes_escape ..).1 heven⟩
  · rintro ⟨pattern, rest, rfl, heven⟩
    exact ⟨'\\' :: c :: pattern, rest, rfl, (even_backslashes_escape ..).2 heven⟩

end ClosesRegex

theorem RegexEnd.push_eq_overrun_iff {e : RegexEnd} {cs : List Char} : e.push cs = .overrun ↔ e = .overrun := by
  cases e <;> simp [RegexEnd.push]

theorem regexBody_eq_overrun_iff (cs : List Char) :
    regexBody cs = .overrun ↔ ¬ ClosesRegex cs ∧ Odd (backslashes cs) := by
  fun_induction regexBody cs with
  | case1 => simp [backslashes]
  | case2 cs => simp [ClosesRegex.slash]
  | case3 => simp [ClosesRegex.not_backslash, backslashes]
  | case4 cs ih =>
    rw [RegexEnd.push_eq_overrun_iff, ih, ClosesRegex.escape_iff, ← Nat.not_even_iff_odd, ← Nat.not_even_iff_odd,
      even_backslashes_escape]
  | case5 c cs hc ih =>
    rw [RegexEnd.push_eq_overrun_iff, ih, ClosesRegex.escape_iff, ← Nat.not_even_iff_odd, ← Nat.not_even_iff_odd,
      even_backslashes_escape]
  | case6 c cs h1 h2 h3 h4 ih =>
    have hc := ne_backslash h2 h4
    rw [RegexEnd.push_eq_overrun_iff, ih, ClosesRegex.cons_iff (fun h => h1 h) hc, backslashes_cons_of_ne hc]

theorem scanOne_eq_error {c : Char} {cs : List Char} {e : Overrun} (h : scanOne c cs = .error e) :
    c = '/' ∧ regexBody cs = .overrun := by
  unfold scanOne at h
  split at h
  case h_2 =>
    split at h
    · cases h
    · cases h
    · exact ⟨rfl, ‹_›⟩
  case h_14 =>
    split at h
    · cases h
    · split at h <;> cases h
  all_goals first | cases h | (split at h <;> cases h)

theorem scanOne_overrun {cs : List Char} (h : regexBody cs = .overrun) : scanOne '/' cs = .error .overrun := by
  simp only [scanOne, h]

theorem exists_reaches_of_scanFrom {p : Nat} {cs : List Char} {e : Overrun} (h : scanFrom p cs = .error e) :
    ∃ body, Reaches cs ('/' :: body) ∧ regexBody body = .overrun := by
  fun_induction scanFrom p cs with
  | case1 => cases h
  | case2 p c cs hb ih =>
    obtain ⟨body, hbody, hover⟩ := ih h
    exact ⟨body, .blank hb hbody, hover⟩
  | case3 p c cs hb e' hone =>
    obtain ⟨rfl, hover⟩ := scanOne_eq_error hone
    exact ⟨cs, .refl, hover⟩
  | case4 p c cs hb k rest hone size =>
    rename_i ih
    cases hrest : scanFrom (p + size) rest with
    | error e' =>
      rw [hrest] at h
      cases h
      obtain ⟨body, hbody, hover⟩ := ih hrest
      exact ⟨body, .token (by simpa using hb) hone hbody, hover⟩
    | ok us =>
      rw [hrest] at h
      cases h

theorem Reaches.scanFrom_eq_error {cs body : List Char} (h : Reaches cs ('/' :: body))
    (hover : regexBody body = .overrun) (p : Nat) : scanFrom p cs = .error .overrun := by
  generalize hds : '/' :: body = ds at h
  induction h generalizing p with
  | refl =>
    subst hds
    exact scanFrom_overrun (by decide +kernel) (scanOne_overrun hover) p
  | blank hb _ ih =>
    rw [scanFrom_blank hb]
    exact ih (p + 1) hds
  | token hb hone _ ih =>
    rw [scanFrom_token hb hone, ih _ hds]
    rfl

theorem scanFrom_eq_error_iff (p : Nat) (cs : List Char) : scanFrom p cs = .error .overrun ↔ Overruns cs := by
  constructor
  · intro h
    obtain ⟨body, hbody, hover⟩ := exists_reaches_of_scanFrom h
    exact ⟨body, hbody, (regexBody_eq_overrun_iff body).1 hover⟩
  · rintro ⟨body, hbody, hover⟩
    exact hbody.scanFrom_eq_error ((regexBody_eq_overrun_iff body).2 hover) p

/-- A query is cut into tokens that tile it, with one more behind its last character, unless it runs over. -/
theorem tokenize_tiles_or_overruns (query : String) :
    (tokenize query = .error .overrun ↔ Overruns query.toList) ∧
      (Overruns query.toList ∨ ∃ ts, tokenize query = .ok (ts ++ [⟨.finish, "", query.length⟩]) ∧
        (∀ t ∈ ts, t.kind ≠ .finish) ∧ Tiles query.toList 0 ts) := by
  rw [← scanFrom_eq_error_iff 0]
  cases hscan : scanFrom 0 query.toList with
  | error e =>
    cases e
    simp [tokenize, hscan, bind, Except.bind]
  | ok ts =>
    refine ⟨by simp [tokenize, hscan, bind, Except.bind, pure, Except.pure], .inr ⟨ts, ?_, ?_, ?_⟩⟩
    · simp [tokenize, hscan, bind, Except.bind, pure, Except.pure, finish]
    · intro t ht
      exact ((scans_of_scanFrom hscan).isLexed _ (List.mem_map_of_mem ht)).ne.1
    · exact (lexes_of_scanFrom hscan).tiles rfl

-- An unpaired backslash at the end runs over; a pair of them does not.
example : tokenize "a /b\\" = .error .overrun := by decide +kernel

example : tokenize "a /b\\\\" = .ok [⟨.word "a", "a", 0⟩, ⟨.flawed .openRegex, "/b\\\\", 2⟩, ⟨.finish, "", 6⟩] := by
  decide +kernel

end FilterQuery.Token
