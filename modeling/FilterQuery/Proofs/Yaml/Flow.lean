import FilterQuery.Proofs.Yaml.Plain
import FilterQuery.Yaml.Style

namespace FilterQuery.Yaml

def IsKey (y : Yaml) : Prop := ∃ s, y = quoted s ∧ (doubleQuoted s.toList).length ≤ Scan.keyLimit

inductive IsFlow : Yaml → Prop
  | word {s : String} (h : IsWord s.toList) : IsFlow (plain s)
  | quoted (s : String) : IsFlow (quoted s)
  | sequence {items : List Yaml} (h : ∀ y ∈ items, IsFlow y) : IsFlow (.sequence .none items)
  | mapping {pairs : List (Yaml × Yaml)} (keys : ∀ p ∈ pairs, IsKey p.1) (values : ∀ p ∈ pairs, IsFlow p.2) :
    IsFlow (.mapping .none pairs)

mutual
def flowTokens {α : Type} : Yaml → List (Token α)
  | scalar _ style s => [.scalar style s]
  | sequence _ items => .flowSequence :: itemsTokens items ++ [.flowSequenceEnd]
  | mapping _ pairs => .flowMapping :: pairsTokens pairs ++ [.flowMappingEnd]
  | reference _ => []

def itemsTokens {α : Type} : List Yaml → List (Token α)
  | [] => []
  | [v] => v.flowTokens
  | v :: vs => v.flowTokens ++ .flowEntry :: itemsTokens vs

def pairsTokens {α : Type} : List (Yaml × Yaml) → List (Token α)
  | [] => []
  | [(k, v)] => .key :: k.flowTokens ++ .value :: v.flowTokens
  | (k, v) :: ps => .key :: k.flowTokens ++ .value :: v.flowTokens ++ .flowEntry :: pairsTokens ps
end

section

variable {α : Type} (x y : Yaml) (ys : List Yaml) (k v : Yaml) (p : Yaml × Yaml) (ps : List (Yaml × Yaml))

theorem itemsText_cons_cons : itemsText (x :: y :: ys) = x.flowText ++ ',' :: itemsText (y :: ys) := by
  rw [itemsText]
  exact nofun

theorem itemsTokens_cons_cons : (itemsTokens (x :: y :: ys) : List (Token α)) =
    x.flowTokens ++ .flowEntry :: itemsTokens (y :: ys) := by
  rw [itemsTokens]
  exact nofun

theorem pairsText_cons_cons : pairsText ((k, v) :: p :: ps) =
    (k.flowText ++ ':' :: v.flowText) ++ ',' :: pairsText (p :: ps) := by
  rw [pairsText]
  exact nofun

theorem pairsTokens_cons_cons : (pairsTokens ((k, v) :: p :: ps) : List (Token α)) =
    (.key :: k.flowTokens ++ .value :: v.flowTokens) ++ .flowEntry :: pairsTokens (p :: ps) := by
  rw [pairsTokens]
  exact nofun

end

namespace Scan

variable {s : Scan} {r : Option (List (Token String))} {depth index : Nat} {ts : List (Token String)}
  {cs : List Char}

structure Amid (s : Scan) (depth index : Nat) (ts : List (Token String)) (cs : List Char) : Prop where
  rest : s.rest = Glyph.listFrom index 0 index cs
  tokens : s.tokens = ts.reverse
  count : s.count = ts.length
  blocks : s.blocks = []
  depth : s.outerKeys.length = depth
  key : IsLoose s.key
  outerKeys : ∀ k ∈ s.outerKeys, IsLoose k

theorem Amid.inFlow (h : s.Amid depth index ts cs) : s.inFlow = decide (0 < depth) := by
  rw [Scan.inFlow, ← h.depth]
  cases s.outerKeys <;> rfl

theorem Amid.finds {c : Char} (h : s.Amid depth index ts (c :: cs)) (hc : startsToken c = true)
    (next : ∀ s₁ : Scan, s₁.Amid depth index ts (c :: cs) → s₁.keyAllowed = s.keyAllowed →
      refreshKey ⟨c, index, 0, index⟩ s.key = some s₁.key →
      ∃ s' : Scan, s₁.token ⟨c, index, 0, index⟩ (Glyph.listFrom (index + 1) 0 (index + 1) cs) = some s' ∧
        s'.rest.length ≤ (Glyph.listFrom (index + 1) 0 (index + 1) cs).length ∧ s'.Finds r) : s.Finds r := by
  have hrest := h.rest.trans (Glyph.listFrom_cons (isBreak_of_startsToken hc) cs)
  obtain ⟨key, hkey, hloose⟩ := refreshKey_of_isLoose h.key ⟨c, index, 0, index⟩
  obtain ⟨outer, houter, hlen, hall⟩ := mapM_refreshKey h.outerKeys ⟨c, index, 0, index⟩
  have hkeys : s.refreshKeys ⟨c, index, 0, index⟩ = some { s with key := key, outerKeys := outer } := by
    rw [refreshKeys, hkey, houter]
    rfl
  have hamid : ({ s with key := key, outerKeys := outer } : Scan).Amid depth index ts (c :: cs) :=
    ⟨h.rest, h.tokens, h.count, h.blocks, hlen.trans h.depth, hloose, hall⟩
  obtain ⟨s', htoken, hless, hs'⟩ := next _ hamid rfl hkey
  refine .of_start hrest hc hkeys ?_ hless hs'
  rw [← htoken]
  congr 1
  unfold unroll
  split
  · rfl
  · simp only [h.blocks, unrollFrom]

theorem Amid.saveKey (h : s.Amid depth index ts cs) (g : Glyph) : ∃ s', s.saveKey g = some s' ∧
    s'.Amid depth index ts cs ∧
    (s.keyAllowed = true → s'.key = some ⟨ts.length, g.index, g.line, g.column, false⟩) := by
  unfold Scan.saveKey
  cases hallowed : s.keyAllowed with
  | false => exact ⟨s, rfl, h, nofun⟩
  | true =>
    refine ⟨{ s with key := some ⟨ts.length, g.index, g.line, g.column, false⟩ }, ?_, ?_, fun _ => rfl⟩
    · simp [dropKey_of_isLoose h.key, h.blocks, h.count]
    · refine ⟨h.rest, h.tokens, h.count, h.blocks, h.depth, ?_, h.outerKeys⟩
      rintro p ⟨⟩
      rfl

theorem Amid.tokens_emit (h : s.Amid depth index ts cs) (t : Token String) : t :: s.tokens = (ts ++ [t]).reverse := by
  rw [h.tokens, List.reverse_append]
  rfl

theorem Amid.count_emit (h : s.Amid depth index ts cs) (t : Token String) : s.count + 1 = (ts ++ [t]).length := by
  rw [h.count, List.length_append, List.length_singleton]

theorem Amid.open {c : Char} {t : Token String}
    (hc : c = '[' ∧ t = .flowSequence ∨ c = '\x7b' ∧ t = .flowMapping) (h : s.Amid depth index ts (c :: cs))
    (next : ∀ s' : Scan, s'.Amid (depth + 1) (index + 1) (ts ++ [t]) cs → s'.keyAllowed = true → s'.Finds r) :
    s.Finds r := by
  refine h.finds (by rcases hc with ⟨rfl, -⟩ | ⟨rfl, -⟩ <;> rfl) fun s₁ h₁ _ _ => ?_
  have htoken : s₁.token ⟨c, index, 0, index⟩ (Glyph.listFrom (index + 1) 0 (index + 1) cs) =
      s₁.openFlow t ⟨c, index, 0, index⟩ (Glyph.listFrom (index + 1) 0 (index + 1) cs) := by
    rcases hc with ⟨rfl, rfl⟩ | ⟨rfl, rfl⟩
    · exact token_of_sequence rfl ..
    · exact token_of_mapping rfl ..
  obtain ⟨s₂, hsave, h₂, -⟩ := h₁.saveKey ⟨c, index, 0, index⟩
  rw [htoken, openFlow, hsave]
  refine ⟨_, rfl, Nat.le_refl _, next _ ?_ rfl⟩
  exact ⟨rfl, h₂.tokens_emit t, h₂.count_emit t, h₂.blocks, congrArg Nat.succ h₂.depth, isLoose_none,
    List.forall_mem_cons.2 ⟨h₂.key, h₂.outerKeys⟩⟩

theorem Amid.close {c : Char} {t : Token String}
    (hc : c = ']' ∧ t = .flowSequenceEnd ∨ c = '\x7d' ∧ t = .flowMappingEnd)
    (h : s.Amid (depth + 1) index ts (c :: cs))
    (next : ∀ s' : Scan, s'.Amid depth (index + 1) (ts ++ [t]) cs → s'.Finds r) : s.Finds r := by
  refine h.finds (by rcases hc with ⟨rfl, -⟩ | ⟨rfl, -⟩ <;> rfl) fun s₁ h₁ _ _ => ?_
  have htoken : s₁.token ⟨c, index, 0, index⟩ (Glyph.listFrom (index + 1) 0 (index + 1) cs) =
      s₁.closeFlow t (Glyph.listFrom (index + 1) 0 (index + 1) cs) := by
    rcases hc with ⟨rfl, rfl⟩ | ⟨rfl, rfl⟩
    · exact token_of_sequenceEnd rfl ..
    · exact token_of_mappingEnd rfl ..
  rw [htoken, closeFlow, dropKey_of_isLoose h₁.key]
  obtain ⟨k, outer, houter⟩ := List.exists_cons_of_length_eq_add_one h₁.depth
  obtain ⟨hk, hall⟩ := List.forall_mem_cons.1 (houter ▸ h₁.outerKeys)
  simp only [Option.bind_eq_bind, Option.bind_some, houter]
  have hdepth : outer.length = depth := Nat.succ.inj ((congrArg List.length houter).symm.trans h₁.depth)
  refine ⟨_, rfl, Nat.le_refl _, next _ ?_⟩
  exact ⟨rfl, h₁.tokens_emit t, h₁.count_emit t, h₁.blocks, hdepth, hk, hall⟩

theorem Amid.entry (h : s.Amid depth index ts (',' :: cs))
    (next : ∀ s' : Scan, s'.Amid depth (index + 1) (ts ++ [.flowEntry]) cs → s'.keyAllowed = true → s'.Finds r) :
    s.Finds r := by
  refine h.finds rfl fun s₁ h₁ _ _ => ?_
  rw [token_of_comma rfl, flowEntry, dropKey_of_isLoose h₁.key]
  refine ⟨_, rfl, Nat.le_refl _, next _ ?_ rfl⟩
  exact ⟨rfl, h₁.tokens_emit _, h₁.count_emit _, h₁.blocks, h₁.depth, isLoose_none, h₁.outerKeys⟩

theorem token_of_word {c : Char} {text : List Char} (hword : IsWord (c :: text)) (line column : Nat) :
    s.token ⟨c, index, line, column⟩ (Glyph.listFrom (index + 1) line (column + 1) (text ++ cs)) =
      s.plainScalar ⟨c, index, line, column⟩
        (⟨c, index, line, column⟩ :: Glyph.listFrom (index + 1) line (column + 1) (text ++ cs)) := by
  cases hword with
  | bare _ h =>
    have hc := h c List.mem_cons_self
    have hsign := notMem_of_any ['-', '.'] hc rfl
    simp only [List.mem_cons, List.not_mem_nil, or_false, not_or] at hsign
    exact token_of_plain (isRule_of_char hsign.1 _) (isRule_of_char hsign.2 _) (fun h => absurd h hsign.1)
      (beginsPlain_of_isAlphanum hc ..)
  | minus hne h =>
    obtain ⟨d, ds, rfl⟩ := List.exists_cons_of_ne_nil hne
    have hd := h d List.mem_cons_self
    have hgap := isGap_of_isWordChar (isWordChar_of_isAlphanum hd)
    have hsign := notMem_of_any ['-'] hd rfl
    rw [List.cons_append, Glyph.listFrom_cons (isBreak_of_isWordChar (isWordChar_of_isAlphanum hd))]
    refine token_of_plain (isRule_of_next ?_ _) (isRule_of_char (show '-' ≠ '.' by decide) _) (fun _ => ?_) ?_
    · simpa [Glyph.next] using hsign
    · simpa [startsGap, Glyph.next] using hgap
    · simpa [beginsPlain, Glyph.next] using (Bool.or_eq_false_iff.1 hgap).1

theorem Amid.word {text : List Char} {c : Char} (hword : IsWord text) (hc : isFlowSign c = true)
    (h : s.Amid (depth + 1) index ts (text ++ c :: cs))
    (next : ∀ (s' : Scan) (index' : Nat),
      s'.Amid (depth + 1) index' (ts ++ [.scalar .plain (String.ofList text)]) (c :: cs) → s'.Finds r) :
    s.Finds r := by
  obtain ⟨d, text, rfl⟩ : ∃ d ds, text = d :: ds := by
    cases hword with
    | bare hne => exact List.exists_cons_of_ne_nil hne
    | minus => exact ⟨_, _, rfl⟩
  have hd := hword.isWordChar d List.mem_cons_self
  rw [List.cons_append] at h
  refine h.finds (startsToken_of_isWordChar hd) fun s₁ h₁ _ _ => ?_
  obtain ⟨s₂, hsave, h₂, -⟩ := h₁.saveKey ⟨d, index, 0, index⟩
  have hread := readPlain_word hword.isWordChar hc s₂.least index 0 index cs
  rw [List.cons_append, Glyph.listFrom_cons (isBreak_of_isWordChar hd)] at hread
  have hflow₂ : s₂.inFlow = true := by rw [h₂.inFlow]; simp
  rw [token_of_word hword, plainScalar_eq hsave (by rw [hflow₂]; exact hread)]
  refine ⟨_, rfl, Glyph.length_listFrom_le (List.suffix_append ..), next _ (index + (d :: text).length) ?_⟩
  exact ⟨rfl, h₂.tokens_emit _, h₂.count_emit _, h₂.blocks, h₂.depth, h₂.key, h₂.outerKeys⟩

theorem Amid.quoted (text : List Char) (h : s.Amid depth index ts (doubleQuoted text ++ cs))
    (next : ∀ s' : Scan,
      s'.Amid depth (index + (doubleQuoted text).length) (ts ++ [.scalar .double (String.ofList text)]) cs →
      (s.keyAllowed = true → s'.key = some ⟨ts.length, index, 0, index, false⟩) → s'.Finds r) : s.Finds r := by
  rw [doubleQuoted_eq, List.append_assoc, List.cons_append] at h
  refine h.finds rfl fun s₁ h₁ hallowed _ => ?_
  obtain ⟨s₂, hsave, h₂, hkey⟩ := h₁.saveKey ⟨'"', index, 0, index⟩
  have hread := @readDouble_doubleQuoted (index + 1) 0 (index + 1) (Nat.succ_ne_zero index) text cs
  rw [token_of_double rfl, keyable, hsave, List.singleton_append, hread]
  have hlen : (doubleQuoted text).length = 1 + (quotedInside text).length + 1 := by
    rw [doubleQuoted_eq, List.length_append, List.length_cons, List.length_singleton, Nat.add_comm 1]
  have hindex : index + 1 + (quotedInside text).length + 1 = index + (doubleQuoted text).length := by omega
  have hsuffix : cs <:+ quotedInside text ++ '"' :: cs := (List.suffix_cons ..).trans (List.suffix_append ..)
  refine ⟨_, rfl, Glyph.length_listFrom_le hsuffix, next _ ?_ fun h => hkey (hallowed.trans h)⟩
  exact ⟨by rw [hindex], h₂.tokens_emit _, h₂.count_emit _, h₂.blocks, h₂.depth, h₂.key, h₂.outerKeys⟩

theorem Amid.colon {t : Token String} {key : KeyPlace} (h : s.Amid (depth + 1) index (ts ++ [t]) (':' :: cs))
    (hkey : s.key = some key) (htoken : key.token = ts.length) (hnear : index ≤ key.index + keyLimit)
    (next : ∀ s' : Scan, s'.Amid (depth + 1) (index + 1) (ts ++ [.key, t, .value]) cs → s'.Finds r) :
    s.Finds r := by
  refine h.finds rfl fun s₁ h₁ _ hsame => ?_
  rw [hkey, refreshKey_of_near (Nat.zero_le _) hnear] at hsame
  have hflow : s₁.inFlow = true := by rw [h₁.inFlow]; simp
  have hroll : ∀ n, (s₁.insert key.token .key).roll key.column n .blockMapping = s₁.insert key.token .key := by
    intro n
    have hinsert : (s₁.insert key.token .key).inFlow = true := hflow
    rw [roll, hinsert]
    rfl
  have htokens : (s₁.insert key.token .key).tokens = t :: .key :: ts.reverse := by
    simp [insert, htoken, h₁.count, h₁.tokens]
  rw [token_of_colon rfl (by rw [hflow, Bool.true_or]), value, ← Option.some.inj hsame]
  simp only [Option.bind_eq_bind, Option.bind_some, hroll]
  refine ⟨_, rfl, Nat.le_refl _, next _ ?_⟩
  refine ⟨rfl, ?_, ?_, h₁.blocks, h₁.depth, isLoose_none, h₁.outerKeys⟩
  · simp [emit, htokens]
  · simp [emit, insert, h₁.count]

def Passes (text : List Char) (found : List (Token String)) : Prop :=
  ∀ ⦃s : Scan⦄ ⦃depth index : Nat⦄ ⦃ts : List (Token String)⦄ ⦃c : Char⦄ ⦃cs : List Char⦄
    ⦃r : Option (List (Token String))⦄, isFlowSign c = true → s.Amid (depth + 1) index ts (text ++ c :: cs) →
    (∀ (s' : Scan) (index' : Nat), s'.Amid (depth + 1) index' (ts ++ found) (c :: cs) → s'.Finds r) → s.Finds r

theorem Amid.items {items : List Yaml} (hitems : ∀ y ∈ items, Passes y.flowText y.flowTokens)
    (h : s.Amid (depth + 1) index ts (itemsText items ++ ']' :: cs))
    (next : ∀ (s' : Scan) (index' : Nat),
      s'.Amid (depth + 1) index' (ts ++ itemsTokens items) (']' :: cs) → s'.Finds r) :
    s.Finds r := by
  induction items generalizing s index ts with
  | nil => exact next s index (by simpa [itemsText, itemsTokens] using h)
  | cons y ys ih =>
    obtain ⟨hy, hys⟩ := List.forall_mem_cons.1 hitems
    cases ys with
    | nil => exact hy rfl h next
    | cons z ys =>
      rw [itemsText_cons_cons, List.append_assoc, List.cons_append] at h
      refine hy rfl h fun s₁ i₁ h₁ => h₁.entry fun s₂ h₂ _ => ih hys h₂ fun s' i' h' => next s' i' ?_
      rw [List.append_assoc, List.append_assoc] at h'
      rwa [itemsTokens_cons_cons]

theorem Amid.pair {k v : Yaml} {c : Char} (hk : IsKey k) (hv : Passes v.flowText v.flowTokens)
    (hc : isFlowSign c = true) (h : s.Amid (depth + 1) index ts ((k.flowText ++ ':' :: v.flowText) ++ c :: cs))
    (hallowed : s.keyAllowed = true) (next : ∀ (s' : Scan) (index' : Nat),
      s'.Amid (depth + 1) index' (ts ++ (.key :: k.flowTokens ++ .value :: v.flowTokens)) (c :: cs) → s'.Finds r) :
    s.Finds r := by
  obtain ⟨key, rfl, hshort⟩ := hk
  rw [List.append_assoc, List.cons_append] at h
  refine Amid.quoted key.toList h fun s₁ h₁ hkey => ?_
  refine h₁.colon (hkey hallowed) rfl (by dsimp only; omega) fun s₂ h₂ => ?_
  refine hv hc h₂ fun s' i' h' => next s' i' ?_
  rw [List.append_assoc, String.ofList_toList] at h'
  exact h'

theorem Amid.pairs {pairs : List (Yaml × Yaml)} (hkeys : ∀ p ∈ pairs, IsKey p.1)
    (hvalues : ∀ p ∈ pairs, Passes p.2.flowText p.2.flowTokens)
    (h : s.Amid (depth + 1) index ts (pairsText pairs ++ '\x7d' :: cs)) (hallowed : s.keyAllowed = true)
    (next : ∀ (s' : Scan) (index' : Nat),
      s'.Amid (depth + 1) index' (ts ++ pairsTokens pairs) ('\x7d' :: cs) → s'.Finds r) :
    s.Finds r := by
  induction pairs generalizing s index ts with
  | nil => exact next s index (by simpa [pairsText, pairsTokens] using h)
  | cons p ps ih =>
    obtain ⟨k, v⟩ := p
    obtain ⟨hk, hkeys⟩ := List.forall_mem_cons.1 hkeys
    obtain ⟨hv, hvalues⟩ := List.forall_mem_cons.1 hvalues
    cases ps with
    | nil => exact h.pair hk hv rfl hallowed next
    | cons p ps =>
      rw [pairsText_cons_cons, List.append_assoc, List.cons_append] at h
      refine h.pair hk hv rfl hallowed fun s₁ i₁ h₁ => h₁.entry fun s₂ h₂ hs₂ => ?_
      refine ih hkeys hvalues h₂ hs₂ fun s' i' h' => next s' i' ?_
      rw [List.append_assoc, List.append_assoc] at h'
      rwa [pairsTokens_cons_cons]

theorem Amid.sequence {items : List Yaml} (hitems : ∀ y ∈ items, Passes y.flowText y.flowTokens)
    (h : s.Amid depth index ts ((Yaml.sequence .none items).flowText ++ cs))
    (next : ∀ (s' : Scan) (index' : Nat),
      s'.Amid depth index' (ts ++ (Yaml.sequence .none items).flowTokens) cs → s'.Finds r) : s.Finds r := by
  rw [flowText, List.append_assoc, List.singleton_append, List.cons_append] at h
  refine h.open (.inl ⟨rfl, rfl⟩) fun s₁ h₁ _ => h₁.items hitems fun s₂ i₂ h₂ => ?_
  refine h₂.close (.inl ⟨rfl, rfl⟩) fun s' h' => next s' (i₂ + 1) ?_
  rw [List.append_assoc, List.append_assoc] at h'
  exact h'

theorem Amid.mapping {pairs : List (Yaml × Yaml)} (hkeys : ∀ p ∈ pairs, IsKey p.1)
    (hvalues : ∀ p ∈ pairs, Passes p.2.flowText p.2.flowTokens)
    (h : s.Amid depth index ts ((Yaml.mapping .none pairs).flowText ++ cs))
    (next : ∀ (s' : Scan) (index' : Nat),
      s'.Amid depth index' (ts ++ (Yaml.mapping .none pairs).flowTokens) cs → s'.Finds r) : s.Finds r := by
  rw [flowText, List.append_assoc, List.singleton_append, List.cons_append] at h
  refine h.open (.inr ⟨rfl, rfl⟩) fun s₁ h₁ hs₁ => h₁.pairs hkeys hvalues hs₁ fun s₂ i₂ h₂ => ?_
  refine h₂.close (.inr ⟨rfl, rfl⟩) fun s' h' => next s' (i₂ + 1) ?_
  rw [List.append_assoc, List.append_assoc] at h'
  exact h'

theorem passes_flowText {y : Yaml} (h : y.IsFlow) : Passes y.flowText y.flowTokens := by
  induction h with
  | @word text hword =>
    intro s depth index ts c cs r hc h next
    refine h.word hword hc fun s' i' h' => next s' i' ?_
    rwa [String.ofList_toList] at h'
  | quoted text =>
    intro s depth index ts c cs r _ h next
    refine Amid.quoted text.toList h fun s' h' _ => next s' (index + (doubleQuoted text.toList).length) ?_
    rwa [String.ofList_toList] at h'
  | sequence _ ih => exact fun _ _ _ _ _ _ _ _ h next => h.sequence ih next
  | mapping hkeys _ ih => exact fun _ _ _ _ _ _ _ _ h next => h.mapping hkeys ih next

theorem Amid.end_line (h : s.Amid 0 index ts ['\n']) : s.Finds (some ts) := by
  have hskip : s.skip = { s with keyAllowed := s.skip.keyAllowed, rest := [] } := by
    rw [Scan.skip, h.rest]
    rfl
  refine .of_finish (by rw [hskip]) ?_
  have hflow : s.skip.inFlow = false := by
    rw [hskip]
    exact h.inFlow
  have hunroll : s.skip.unroll none = s.skip := by
    rw [unroll, hflow, hskip]
    simp only [h.blocks, unrollFrom]
    rfl
  have hloose : IsLoose s.skip.key := by
    rw [hskip]
    exact h.key
  rw [finish, hunroll, dropKey_of_isLoose hloose, hskip]
  simp [h.tokens]

end Scan

theorem tokens?_sequence {items : List Yaml} (h : ∀ y ∈ items, IsFlow y) :
    tokens? ((Yaml.sequence .none items).flowText ++ ['\n']) = some (Yaml.sequence .none items).flowTokens := by
  have hstart : (Scan.start (Glyph.ofText ((Yaml.sequence .none items).flowText ++ ['\n']))).Amid 0 0 []
      ((Yaml.sequence .none items).flowText ++ ['\n']) :=
    ⟨rfl, rfl, rfl, rfl, rfl, Scan.isLoose_none, nofun⟩
  refine hstart.sequence (fun y hy => Scan.passes_flowText (h y hy)) (fun s' i' h' => h'.end_line) _ ?_
  exact Nat.lt_succ_of_le (Nat.le_of_eq (Glyph.length_listFrom ..))

end FilterQuery.Yaml
