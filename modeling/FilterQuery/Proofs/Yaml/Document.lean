import FilterQuery.Proofs.Yaml.Flow
import FilterQuery.Yaml.Document

namespace FilterQuery.Yaml

def NumbersTo (ss : List (Token String)) (ns : List (Token Nat)) : Prop :=
  ∀ names ts, numberAnchors names (ss ++ ts) = (numberAnchors names ts).map (ns ++ ·)

namespace NumbersTo

variable {ss ss' : List (Token String)} {ns ns' : List (Token Nat)}

theorem append (h : NumbersTo ss ns) (h' : NumbersTo ss' ns') : NumbersTo (ss ++ ss') (ns ++ ns') := by
  intro names ts
  rw [List.append_assoc, h, h', Option.map_map]
  exact congrArg (Option.map · _) (funext fun us => (List.append_assoc ..).symm)

theorem cons {t : Token String} {u : Token Nat}
    (ht : ∀ names ts, numberAnchors names (t :: ts) = (numberAnchors names ts).map (u :: ·)) (h : NumbersTo ss ns) :
    NumbersTo (t :: ss) (u :: ns) := by
  intro names ts
  rw [List.cons_append, ht, h, Option.map_map]
  rfl

theorem nil : NumbersTo [] [] := fun _ _ => Option.map_id'.symm

end NumbersTo

theorem numbersTo_items {items : List Yaml} (h : ∀ y ∈ items, NumbersTo y.flowTokens y.flowTokens) :
    NumbersTo (itemsTokens items) (itemsTokens items) := by
  induction items with
  | nil => exact .nil
  | cons y ys ih =>
    obtain ⟨hy, hys⟩ := List.forall_mem_cons.1 h
    cases ys with
    | nil => exact hy
    | cons z ys =>
      rw [itemsTokens_cons_cons, itemsTokens_cons_cons]
      exact hy.append (.cons (fun _ _ => rfl) (ih hys))

theorem numbersTo_pairs {pairs : List (Yaml × Yaml)} (hkeys : ∀ p ∈ pairs, IsKey p.1)
    (hvalues : ∀ p ∈ pairs, NumbersTo p.2.flowTokens p.2.flowTokens) :
    NumbersTo (pairsTokens pairs) (pairsTokens pairs) := by
  have hpair : ∀ k v : Yaml, IsKey k → NumbersTo v.flowTokens v.flowTokens →
      NumbersTo (.key :: k.flowTokens ++ .value :: v.flowTokens) (.key :: k.flowTokens ++ .value :: v.flowTokens) := by
    rintro k v ⟨s, rfl, -⟩ hv
    exact .cons (fun _ _ => rfl) (.cons (fun _ _ => rfl) (.cons (fun _ _ => rfl) hv))
  induction pairs with
  | nil => exact .nil
  | cons p ps ih =>
    obtain ⟨hk, hkeys⟩ := List.forall_mem_cons.1 hkeys
    obtain ⟨hv, hvalues⟩ := List.forall_mem_cons.1 hvalues
    cases ps with
    | nil => exact hpair p.1 p.2 hk hv
    | cons q ps =>
      rw [pairsTokens_cons_cons, pairsTokens_cons_cons]
      exact (hpair p.1 p.2 hk hv).append (.cons (fun _ _ => rfl) (ih hkeys hvalues))

theorem numbersTo_flowTokens {y : Yaml} (h : y.IsFlow) : NumbersTo y.flowTokens y.flowTokens := by
  induction h with
  | word | quoted => exact .cons (fun _ _ => rfl) .nil
  | sequence _ ih =>
    exact .append (.cons (fun _ _ => rfl) (numbersTo_items ih)) (.cons (fun _ _ => rfl) .nil)
  | mapping hkeys _ ih =>
    exact .append (.cons (fun _ _ => rfl) (numbersTo_pairs hkeys ih)) (.cons (fun _ _ => rfl) .nil)

section

variable {handles : Handles} {y : Yaml} {ts : List (Token Nat)} {place : Place}

theorem IsFlow.head (h : y.IsFlow) : ∃ (t : Token Nat) (us : List (Token Nat)), y.flowTokens = t :: us ∧
    ((∃ style s, t = .scalar style s) ∨ t = .flowSequence ∨ t = .flowMapping) := by
  cases h with
  | word | quoted => exact ⟨_, _, rfl, .inl ⟨_, _, rfl⟩⟩
  | sequence => exact ⟨_, _, rfl, .inr (.inl rfl)⟩
  | mapping => exact ⟨_, _, rfl, .inr (.inr rfl)⟩

theorem readFlowItems_last (h : y.IsFlow) {fuel : Nat}
    (hy : readNode handles .flow fuel (y.flowTokens ++ .flowSequenceEnd :: ts) = some (y, .flowSequenceEnd :: ts)) :
    readFlowItems handles (fuel + 1) (y.flowTokens ++ .flowSequenceEnd :: ts) = some ([y], ts) := by
  obtain ⟨t, us, htokens, ht⟩ := h.head
  rw [htokens, List.cons_append] at hy ⊢
  rcases ht with ⟨style, s, rfl⟩ | rfl | rfl <;> simp [readFlowItems, hy]

theorem readFlowItems_cons (h : y.IsFlow) {fuel : Nat} {items : List Yaml} {ts' : List (Token Nat)}
    (hy : readNode handles .flow fuel (y.flowTokens ++ .flowEntry :: ts) = some (y, .flowEntry :: ts))
    (hitems : readFlowItems handles fuel ts = some (items, ts')) :
    readFlowItems handles (fuel + 1) (y.flowTokens ++ .flowEntry :: ts) = some (y :: items, ts') := by
  obtain ⟨t, us, htokens, ht⟩ := h.head
  rw [htokens, List.cons_append] at hy ⊢
  rcases ht with ⟨style, s, rfl⟩ | rfl | rfl <;> simp [readFlowItems, hy, hitems]

theorem readPart_of_isFlow (h : y.IsFlow) {fuel : Nat} {follow : Follow}
    (hfollow : follow = endsFlowKey ∨ follow = endsFlowValue) :
    readPart handles place follow (fuel + 1) (y.flowTokens ++ ts) =
      readNode handles place fuel (y.flowTokens ++ ts) := by
  obtain ⟨t, us, htokens, ht⟩ := h.head
  rw [readPart, htokens]
  rcases hfollow with rfl | rfl <;> rcases ht with ⟨style, s, rfl⟩ | rfl | rfl <;> rfl

theorem readNode_scalar (style : Style) (s : String) (fuel : Nat) :
    readNode handles place (fuel + 1) (.scalar style s :: ts) = some (.scalar .none style s, ts) := by
  simp [readNode, readProperties, Properties.ofScalar, Properties.none]

def ReadsNode (y : Yaml) : Prop := ∀ ⦃handles place fuel ts⦄,
  (y.flowTokens : List (Token Nat)).length ≤ fuel →
  readNode handles place fuel (y.flowTokens ++ ts) = some (y, ts)

theorem readFlowItems_itemsTokens {items : List Yaml} (h : ∀ y ∈ items, y.IsFlow ∧ ReadsNode y) {fuel : Nat}
    (hfuel : (itemsTokens items : List (Token Nat)).length < fuel) (handles : Handles) (ts : List (Token Nat)) :
    readFlowItems handles fuel (itemsTokens items ++ .flowSequenceEnd :: ts) = some (items, ts) := by
  induction items generalizing fuel with
  | nil =>
    obtain ⟨fuel, rfl⟩ := Nat.exists_eq_succ_of_ne_zero (Nat.ne_zero_of_lt hfuel)
    simp [itemsTokens, readFlowItems]
  | cons y ys ih =>
    obtain ⟨fuel, rfl⟩ := Nat.exists_eq_succ_of_ne_zero (Nat.ne_zero_of_lt hfuel)
    obtain ⟨⟨hflow, hy⟩, hys⟩ := List.forall_mem_cons.1 h
    cases ys with
    | nil => exact readFlowItems_last hflow (hy (Nat.le_of_lt_succ hfuel))
    | cons z ys =>
      rw [itemsTokens_cons_cons, List.length_append, List.length_cons] at hfuel
      rw [itemsTokens_cons_cons, List.append_assoc, List.cons_append]
      exact readFlowItems_cons hflow (hy (by omega)) (ih hys (by omega))

theorem readPair {k v : Yaml} (hk : IsKey k) (hv : v.IsFlow) (hread : ReadsNode v) {fuel : Nat}
    (hfuel : (v.flowTokens : List (Token Nat)).length + 2 ≤ fuel) (handles : Handles) (ts : List (Token Nat)) :
    readPart handles .flow endsFlowKey fuel (k.flowTokens ++ .value :: (v.flowTokens ++ ts)) =
        some (k, .value :: (v.flowTokens ++ ts)) ∧
      readValue handles .flow endsFlowValue fuel (.value :: (v.flowTokens ++ ts)) = some (v, ts) := by
  obtain ⟨s, rfl, -⟩ := hk
  obtain ⟨fuel, rfl⟩ : ∃ n, fuel = n + 2 := ⟨fuel - 2, by omega⟩
  constructor
  · rw [readPart_of_isFlow (.quoted s) (.inl rfl)]
    exact readNode_scalar .double s fuel
  · rw [readValue, readPart_of_isFlow hv (.inr rfl)]
    exact hread (by omega)

theorem readFlowPairs_pairsTokens {pairs : List (Yaml × Yaml)} (hkeys : ∀ p ∈ pairs, IsKey p.1)
    (hvalues : ∀ p ∈ pairs, p.2.IsFlow ∧ ReadsNode p.2) {fuel : Nat}
    (hfuel : (pairsTokens pairs : List (Token Nat)).length < fuel) (handles : Handles) (ts : List (Token Nat)) :
    readFlowPairs handles fuel (pairsTokens pairs ++ .flowMappingEnd :: ts) = some (pairs, ts) := by
  induction pairs generalizing fuel with
  | nil =>
    obtain ⟨fuel, rfl⟩ := Nat.exists_eq_succ_of_ne_zero (Nat.ne_zero_of_lt hfuel)
    simp [pairsTokens, readFlowPairs]
  | cons p ps ih =>
    obtain ⟨fuel, rfl⟩ := Nat.exists_eq_succ_of_ne_zero (Nat.ne_zero_of_lt hfuel)
    obtain ⟨k, v⟩ := p
    obtain ⟨hk, hkeys⟩ := List.forall_mem_cons.1 hkeys
    obtain ⟨⟨hflow, hv⟩, hvalues⟩ := List.forall_mem_cons.1 hvalues
    dsimp only at hk hflow hv
    have hone : (k.flowTokens : List (Token Nat)).length = 1 := by
      obtain ⟨s, rfl, -⟩ := hk
      rfl
    cases ps with
    | nil =>
      simp only [pairsTokens, List.length_append, List.length_cons] at hfuel
      obtain ⟨hkey, hvalue⟩ := readPair hk hflow hv (show _ + 2 ≤ fuel by omega) handles (.flowMappingEnd :: ts)
      simp [pairsTokens, readFlowPairs, hkey, hvalue]
    | cons q ps =>
      rw [pairsTokens_cons_cons] at hfuel ⊢
      simp only [List.length_append, List.length_cons] at hfuel
      have hps := ih hkeys hvalues (show _ < fuel by omega)
      obtain ⟨hkey, hvalue⟩ := readPair hk hflow hv (show _ + 2 ≤ fuel by omega) handles
        (.flowEntry :: (pairsTokens (q :: ps) ++ .flowMappingEnd :: ts))
      simp [readFlowPairs, hkey, hvalue, hps]

theorem readsNode_of_isFlow (h : y.IsFlow) : ReadsNode y := by
  induction h with
  | word | quoted =>
    intro handles place fuel ts hfuel
    obtain ⟨fuel, rfl⟩ := Nat.exists_eq_succ_of_ne_zero (Nat.ne_zero_of_lt hfuel)
    exact readNode_scalar ..
  | sequence h ih =>
    intro handles place fuel ts hfuel
    obtain ⟨fuel, rfl⟩ := Nat.exists_eq_succ_of_ne_zero (Nat.ne_zero_of_lt hfuel)
    simp only [flowTokens, List.length_append, List.length_cons, List.length_nil] at hfuel
    have hitems := readFlowItems_itemsTokens (fun y hy => ⟨h y hy, ih y hy⟩)
      (show (itemsTokens _ : List (Token Nat)).length < fuel by omega) handles ts
    simp [flowTokens, readNode, readProperties, hitems]
  | mapping hkeys h ih =>
    intro handles place fuel ts hfuel
    obtain ⟨fuel, rfl⟩ := Nat.exists_eq_succ_of_ne_zero (Nat.ne_zero_of_lt hfuel)
    simp only [flowTokens, List.length_append, List.length_cons, List.length_nil] at hfuel
    have hpairs := readFlowPairs_pairsTokens hkeys (fun p hp => ⟨h p hp, ih p hp⟩)
      (show (pairsTokens _ : List (Token Nat)).length < fuel by omega) handles ts
    simp [flowTokens, readNode, readProperties, hpairs]

end

theorem isInline_of_mem_doubleQuoted {cs : List Char} : ∀ c ∈ doubleQuoted cs, isInline c = true := by
  intro c hc
  rw [doubleQuoted_eq, List.cons_append, List.mem_cons, List.mem_append, List.mem_singleton] at hc
  rcases hc with rfl | hc | rfl
  · rfl
  · exact isInline_of_mem_quotedInside c hc
  · rfl

theorem isInline_of_mem_itemsText {items : List Yaml} (h : ∀ y ∈ items, ∀ c ∈ y.flowText, isInline c = true) :
    ∀ c ∈ itemsText items, isInline c = true := by
  induction items with
  | nil => exact nofun
  | cons y ys ih =>
    obtain ⟨hy, hys⟩ := List.forall_mem_cons.1 h
    cases ys with
    | nil => exact hy
    | cons z ys =>
      rw [itemsText_cons_cons]
      exact List.forall_mem_append.2 ⟨hy, List.forall_mem_cons.2 ⟨rfl, ih hys⟩⟩

theorem isInline_of_mem_pairsText {pairs : List (Yaml × Yaml)} (hkeys : ∀ p ∈ pairs, IsKey p.1)
    (hvalues : ∀ p ∈ pairs, ∀ c ∈ p.2.flowText, isInline c = true) : ∀ c ∈ pairsText pairs, isInline c = true := by
  have hpair : ∀ k v : Yaml, IsKey k → (∀ c ∈ v.flowText, isInline c = true) →
      ∀ c ∈ k.flowText ++ ':' :: v.flowText, isInline c = true := by
    rintro k v ⟨s, rfl, -⟩ hv
    exact List.forall_mem_append.2 ⟨isInline_of_mem_doubleQuoted, List.forall_mem_cons.2 ⟨rfl, hv⟩⟩
  induction pairs with
  | nil => exact nofun
  | cons p ps ih =>
    obtain ⟨hk, hkeys⟩ := List.forall_mem_cons.1 hkeys
    obtain ⟨hv, hvalues⟩ := List.forall_mem_cons.1 hvalues
    cases ps with
    | nil => exact hpair p.1 p.2 hk hv
    | cons q ps =>
      rw [pairsText_cons_cons]
      exact List.forall_mem_append.2 ⟨hpair p.1 p.2 hk hv, List.forall_mem_cons.2 ⟨rfl, ih hkeys hvalues⟩⟩

theorem isInline_of_mem_flowText {y : Yaml} (h : y.IsFlow) : ∀ c ∈ y.flowText, isInline c = true := by
  have hbracket : ∀ (c d : Char) (cs : List Char), isInline c = true → isInline d = true →
      (∀ e ∈ cs, isInline e = true) → ∀ e ∈ c :: cs ++ [d], isInline e = true := fun c d cs hc hd hcs =>
    List.forall_mem_cons.2 ⟨hc, List.forall_mem_append.2 ⟨hcs, List.forall_mem_singleton.2 hd⟩⟩
  induction h with
  | word h => exact fun c hc => isInline_of_isWordChar (h.isWordChar c hc)
  | quoted => exact isInline_of_mem_doubleQuoted
  | sequence _ ih => exact hbracket '[' ']' _ rfl rfl (isInline_of_mem_itemsText ih)
  | mapping hkeys _ ih => exact hbracket '\x7b' '\x7d' _ rfl rfl (isInline_of_mem_pairsText hkeys ih)

theorem normalBreaks_of_isPrintable {cs : List Char} (h : ∀ c ∈ cs, isPrintable c = true) : normalBreaks cs = cs := by
  induction cs with
  | nil => rfl
  | cons c cs ih =>
    obtain ⟨hc, hcs⟩ := List.forall_mem_cons.1 h
    have hbreak := notMem_of_any ['\r', '\x85'] hc rfl
    simp only [List.mem_cons, List.not_mem_nil, or_false, not_or] at hbreak
    rw [normalBreaks, ih hcs, if_neg (by simp [hbreak])]
    rintro cs rfl
    exact absurd rfl hbreak.1

theorem isAllowed_of_isPrintable {c : Char} (h : isPrintable c = true) : isAllowed c = true := by
  simp only [isPrintable, isAllowed, Bool.or_eq_true, Bool.and_eq_true, decide_eq_true_eq, beq_iff_eq] at h ⊢
  omega

theorem read?_of_tokens? {text : String} {ss : List (Token String)} {ns : List (Token Nat)} {root : Yaml}
    (hprint : ∀ c ∈ text.toList, isPrintable c = true) (htokens : tokens? text.toList = some ss)
    (hnumbers : NumbersTo ss ns) (hread : readDocument ns = some (root, [])) :
    read? text = some (.ofRoot root) := by
  have hall : text.toList.all isAllowed = true :=
    List.all_eq_true.2 fun c hc => isAllowed_of_isPrintable (hprint c hc)
  have hnumbered := hnumbers [] []
  rw [List.append_nil] at hnumbered
  simp [read?, normalBreaks_of_isPrintable hprint, hall, htokens, hnumbered, numberAnchors, hread]

theorem read?_flowDocument {items : List Yaml} (h : ∀ y ∈ items, IsFlow y) :
    read? (flowDocument (.sequence .none items)) = some (.ofRoot (.sequence .none items)) := by
  have hflow : IsFlow (.sequence .none items) := .sequence h
  have htext : (flowDocument (.sequence .none items)).toList = (Yaml.sequence .none items).flowText ++ ['\n'] :=
    String.toList_ofList
  have hread : readDocument (Yaml.sequence .none items).flowTokens = some (Yaml.sequence .none items, []) := by
    have hfuel : ((Yaml.sequence .none items).flowTokens : List (Token Nat)).length ≤
        4 * ((Yaml.sequence .none items).flowTokens : List (Token Nat)).length + 4 := by omega
    have hnode := @readsNode_of_isFlow _ hflow standardHandles .block _ [] hfuel
    rw [List.append_nil] at hnode
    rw [readDocument]
    exact hnode
  refine read?_of_tokens? ?_ (htext ▸ tokens?_sequence h) (numbersTo_flowTokens hflow) hread
  rw [htext]
  refine List.forall_mem_append.2 ⟨fun c hc => ?_, List.forall_mem_singleton.2 rfl⟩
  exact (Bool.and_eq_true_iff.1 (isInline_of_mem_flowText hflow c hc)).1

end FilterQuery.Yaml
