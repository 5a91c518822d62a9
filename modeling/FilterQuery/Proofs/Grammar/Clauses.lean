import FilterQuery.Proofs.Grammar

namespace FilterQuery.Grammar

open Token (Kind)
open Clause

theorem valueFault?_eq_none_iff {c : Category} {t : Token} {v : String}
    (hv : bareValue? t.kind = some v) : valueFault? c t v = none ↔ IsValue c t.kind v := by
  unfold valueFault? IsValue
  cases c <;> simp [hv, Option.isSome_iff_ne_none]

theorem regexFault?_eq_none_iff {p f : String} : regexFault? p f = none ↔ IsRegex p f := by
  unfold regexFault? IsRegex
  split
  · next c hc =>
    have hm := List.mem_of_find?_eq_some hc
    have hn := List.find?_some hc
    simp only [reduceCtorEq, false_iff, not_and]
    intro h
    simp [h c hm] at hn
  · next hn =>
    simp only [List.find?_eq_none] at hn
    constructor
    · intro h
      refine ⟨fun c hc => by simpa using hn c hc, ?_⟩
      split at h
      · assumption
      · cases h
    · rintro ⟨-, h⟩
      rw [if_pos h]

theorem signed_eq_term_iff {sign : Option Sign} {l : Leaf} {n : Node} {w : Option Warning} :
    signed sign l = .term n w ↔ signed? (sign.map (·.2)) l = some n ∧ w = none := by
  rcases sign with _ | ⟨t, s⟩
  · simp [signed, signed?, eq_comm]
  · cases s <;> simp [signed, signed?, eq_comm]

theorem signed_eq_term {sign : Option Sign} {l : Leaf} {n : Node}
    (h : signed? (sign.map (·.2)) l = some n) : signed sign l = .term n none :=
  signed_eq_term_iff.2 ⟨h, rfl⟩

theorem regex_eq_term_iff {sign : Option Sign} {t : Token} {p f : String} {field : Option String}
    {n : Node} {w : Option Warning} :
    Clause.regex sign t p f field = .term n w ↔
      IsRegex p f ∧ signed? (sign.map (·.2)) (.regex p f field) = some n ∧ w = none := by
  unfold Clause.regex
  rw [← regexFault?_eq_none_iff]
  split
  · next h => simp [h]
  · next h => simp [h, signed_eq_term_iff]

def nextKind (ts : List Token) : Option Kind := ts.head?.map (·.kind)

theorem operand_eq_ok {c : Category} {before : Token} {ts rest : List Token} {v : String}
    (h : operand c before ts = (.ok v, rest)) : ∃ u, ts = u :: rest ∧ IsValue c u.kind v := by
  unfold operand at h
  split at h
  · cases h
  · next u rest' =>
    split at h
    · next v' hv =>
      split at h
      · cases h
      · next hf =>
        cases h
        exact ⟨u, rfl, (valueFault?_eq_none_iff hv).1 hf⟩
    · cases h

theorem lone_eq_term {sign : Option Sign} {w v : String} {c : Category} {k : Kind} {n : Node}
    {wn : Option Warning} {next : Option Kind} (hw : comparable? w = some c) (hv : IsValue c k v)
    (h : lone sign c v = .term n wn) : Term (sign.map (·.2)) [.word w, .colon, k] next n := by
  unfold lone at h
  split at h
  · next hc =>
    subst hc
    cases h
    exact .period hw hv
  · next hc => exact .equal hw hc hv (signed_eq_term_iff.1 h).1

theorem range_eq_term {sign : Option Sign} {w v : String} {c : Category} {k : Kind} {ts rest : List Token}
    {n : Node} {wn : Option Warning} (hw : comparable? w = some c) (hv : IsValue c k v)
    (h : Clause.range sign c v ts = (.term n wn, rest)) :
    ∃ us, ts = us ++ rest ∧
      Term (sign.map (·.2)) (.word w :: .colon :: k :: us.map (·.kind)) (nextKind rest) n := by
  unfold Clause.range at h
  split at h
  · obtain ⟨hl, rfl⟩ := Prod.mk.inj h
    exact ⟨[], rfl, lone_eq_term hw hv hl⟩
  · next t ts =>
    split at h
    · obtain ⟨hl, rfl⟩ := Prod.mk.inj h
      exact ⟨[], rfl, lone_eq_term hw hv hl⟩
    · next ht =>
      have ht : t.kind = .compare .within := by simpa using ht
      split at h
      · obtain ⟨hl, rfl⟩ := Prod.mk.inj h
        have hnext : ∀ l, nextKind [] = some l → rangeEnd? l = none := by rintro l ⟨⟩
        exact ⟨[t], rfl, by simpa [ht] using .upFrom hw hv hnext (signed_eq_term_iff.1 hl).1⟩
      · next u after =>
        split at h
        · next hu =>
          obtain ⟨hl, rfl⟩ := Prod.mk.inj h
          refine ⟨[t], rfl, ?_⟩
          have hnext : ∀ l, nextKind (u :: after) = some l → rangeEnd? l = none := by
            rintro l ⟨⟩
            exact hu
          simpa [ht] using Term.upFrom hw hv hnext (signed_eq_term_iff.1 hl).1
        · next x hu =>
          have hb : bareValue? u.kind = some x := by
            revert hu
            cases u.kind <;> simp [rangeEnd?, bareValue?]
          split at h
          · cases h
          · next hf =>
            obtain ⟨hl, rfl⟩ := Prod.mk.inj h
            refine ⟨[t, u], rfl, ?_⟩
            simpa [ht] using
              Term.range hw hv hu ((valueFault?_eq_none_iff hb).1 hf) (signed_eq_term_iff.1 hl).1

theorem comparison_eq_term {stop first previous : Nat} {sign : Option Sign} {w : String} {c : Category}
    {ts rest : List Token} {n : Node} {wn : Option Warning} (hw : comparable? w = some c)
    (h : comparison stop sign c first previous ts = (.term n wn, rest)) :
    ∃ us, ts = us ++ rest ∧
      Term (sign.map (·.2)) (.word w :: .colon :: us.map (·.kind)) (nextKind rest) n := by
  unfold comparison at h
  split at h
  · cases h
  · next t ts =>
    split at h
    · next op hk =>
      obtain ⟨hl, rfl⟩ := Prod.mk.inj h
      cases ho : operand c t ts with
      | mk r rest =>
        rw [ho] at hl
        cases r with
        | error p => cases hl
        | ok v =>
          obtain ⟨u, rfl, hv⟩ := operand_eq_ok ho
          refine ⟨[t, u], rfl, ?_⟩
          have hs := (signed_eq_term_iff.1 hl).1
          simp only [List.map, hk]
          split at hs
          · next hop => subst hop; exact .upTo hw hv hs
          · next hop => exact .compared hw hop hv hs
    · split at h
      · cases h
      · next v hv =>
        split at h
        · cases h
        · next hf =>
          obtain ⟨us, rfl, hus⟩ := range_eq_term hw ((valueFault?_eq_none_iff hv).1 hf) h
          exact ⟨t :: us, rfl, hus⟩

theorem comparable?_eq_none_of_ofName? {w : String} (h : Category.ofName? w = none) :
    comparable? w = none := by
  rw [comparable?, h]
  rfl

theorem namedValue_of_ofName? {w : String} {c : Category} (h : Category.ofName? w = some c) (v : String)
    (s : Option Stance) : namedValue w v s = categoryTerm c v s := by
  rw [namedValue, h]

theorem namedValue_of_unknown {w : String} (h : Category.ofName? w = none) (v : String)
    (s : Option Stance) : namedValue w v s = content v s := by
  rw [namedValue, h]

theorem fieldValue_eq_term {stop first previous : Nat} {sign : Option Sign} {w : String}
    {ts rest : List Token} {n : Node} {wn : Option Warning} (hw : comparable? w = none)
    (h : fieldValue stop sign w first previous ts = (.term n wn, rest)) :
    ∃ us, ts = us ++ rest ∧
      Term (sign.map (·.2)) (.word w :: .colon :: us.map (·.kind)) (nextKind rest) n := by
  unfold fieldValue at h
  split at h
  · cases h
  · next t ts =>
    cases hk : t.kind <;> simp only [hk] at h
    case word v | number v | date v =>
      have hn : n = namedValue w v (sign.map (·.2)) ∧ rest = ts := by
        split at h
        · next c ho => cases h; exact ⟨(namedValue_of_ofName? ho ..).symm, rfl⟩
        · next ho => cases h; exact ⟨(namedValue_of_unknown ho ..).symm, rfl⟩
      obtain ⟨rfl, rfl⟩ := hn
      exact ⟨[t], rfl, by simpa [hk] using Term.named hw rfl⟩
    case phrase v =>
      split at h
      · next c ho =>
        cases h
        exact ⟨[t], rfl, by rw [List.map, hk]; exact .quoted hw ho⟩
      · next ho =>
        obtain ⟨hr, rfl⟩ := Prod.mk.inj h
        exact ⟨[t], rfl, by simpa [hk] using .fieldPhrase ho (signed_eq_term_iff.1 hr).1⟩
    case regex p f =>
      obtain ⟨hr, rfl⟩ := Prod.mk.inj h
      obtain ⟨hr, hs, -⟩ := regex_eq_term_iff.1 hr
      exact ⟨[t], rfl, by simpa [hk] using .fieldRegex hw hr hs⟩
    case wildcard p =>
      obtain ⟨hr, rfl⟩ := Prod.mk.inj h
      exact ⟨[t], rfl, by simpa [hk] using .fieldWildcard hw (signed_eq_term_iff.1 hr).1⟩
    all_goals cases h

theorem comparison_bare_eq_term {stop first previous : Nat} {sign : Option Sign} {w : String}
    {c : Category} {t : Token} {ts rest : List Token} {n : Node} {wn : Option Warning}
    (hw : comparable? w = some c) (ht : isComparison t.kind = true)
    (h : comparison stop sign c first previous (t :: ts) = (.term n wn, rest)) :
    ∃ us, t :: ts = us ++ rest ∧
      Term (sign.map (·.2)) (.word w :: us.map (·.kind)) (nextKind rest) n := by
  cases hk : t.kind <;> simp only [hk, isComparison] at ht
  case compare op =>
    have hop : op ≠ .within := by rintro rfl; cases ht
    simp only [comparison, hk] at h
    obtain ⟨hl, rfl⟩ := Prod.mk.inj h
    cases ho : operand c t ts with
    | mk r rest =>
      rw [ho] at hl
      cases r with
      | error p => cases hl
      | ok v =>
        obtain ⟨u, rfl, hv⟩ := operand_eq_ok ho
        have hs := (signed_eq_term_iff.1 hl).1
        rw [if_neg hop] at hs
        exact ⟨[t, u], rfl, by simpa [hk] using .comparedBare hw hop hv hs⟩
  all_goals cases ht

theorem wordTerm_eq_term {stop : Nat} {sign : Option Sign} {t : Token} {w : String}
    {ts rest : List Token} {n : Node} {wn : Option Warning}
    (h : wordTerm stop sign t w ts = (.term n wn, rest)) :
    ∃ us, ts = us ++ rest ∧ Term (sign.map (·.2)) (.word w :: us.map (·.kind)) (nextKind rest) n := by
  unfold wordTerm at h
  split at h
  · cases h
    refine ⟨[], rfl, .word ⟨?_, ?_⟩⟩
    · rintro ⟨⟩
    · rintro - k ⟨⟩
  · next u ts =>
    split at h
    · next hu =>
      split at h
      · next c hc =>
        obtain ⟨us, rfl, hus⟩ := comparison_eq_term hc h
        exact ⟨u :: us, rfl, by simpa [hu] using hus⟩
      · next hc =>
        obtain ⟨us, rfl, hus⟩ := fieldValue_eq_term hc h
        exact ⟨u :: us, rfl, by simpa [hu] using hus⟩
    · next hu =>
      have hcolon : nextKind (u :: ts) ≠ some .colon := by simpa [nextKind] using hu
      split at h
      · next c hc =>
        split at h
        · next hcmp => exact comparison_bare_eq_term hc hcmp h
        · next hcmp =>
          cases h
          refine ⟨[], rfl, .word ⟨hcolon, ?_⟩⟩
          rintro - k ⟨⟩
          simpa using hcmp
      · next hc =>
        cases h
        refine ⟨[], rfl, .word ⟨hcolon, ?_⟩⟩
        intro h
        rw [hc] at h
        cases h

theorem readTerm_eq_term {stop : Nat} {sign : Option Sign} {t : Token} {ts rest : List Token}
    {n : Node} {wn : Option Warning} (h : readTerm stop sign t ts = (.term n wn, rest)) :
    ∃ us, ts = us ++ rest ∧ Term (sign.map (·.2)) (t.kind :: us.map (·.kind)) (nextKind rest) n := by
  unfold readTerm at h
  cases hk : t.kind <;> simp only [hk] at h
  case word w => exact wordTerm_eq_term h
  case number v => cases h; exact ⟨[], rfl, .number⟩
  case date v => cases h; exact ⟨[], rfl, .date⟩
  case phrase v => cases h; exact ⟨[], rfl, .phrase⟩
  case regex p f =>
    obtain ⟨hr, rfl⟩ := Prod.mk.inj h
    obtain ⟨hr, hs, -⟩ := regex_eq_term_iff.1 hr
    exact ⟨[], rfl, .regex hr hs⟩
  case wildcard p =>
    obtain ⟨hr, rfl⟩ := Prod.mk.inj h
    exact ⟨[], rfl, .wildcard (signed_eq_term_iff.1 hr).1⟩
  all_goals cases h

theorem unary_of_read_eq_term {stop : Nat} {t : Token} {ts rest : List Token} {n : Node}
    {wn : Option Warning} (h : Clause.read stop t ts = (.term n wn, rest)) :
    ∃ us, ts = us ++ rest ∧ Unary (t.kind :: us.map (·.kind)) (nextKind rest) (some n) := by
  unfold Clause.read at h
  split at h
  case h_8 s hk =>
    split at h
    · next u ts =>
      split at h
      · obtain ⟨us, rfl, hus⟩ := readTerm_eq_term h
        exact ⟨u :: us, rfl, by rw [hk]; exact .signed hus⟩
      · cases h
    · cases h
  case h_11 =>
    obtain ⟨us, rfl, hus⟩ := readTerm_eq_term h
    exact ⟨us, rfl, .plain hus⟩
  all_goals cases h

def Follows (next : Option Kind) : Prop :=
  next ≠ some .colon ∧ ∀ op, next ≠ some (.compare op)

theorem follows_none : Follows none := ⟨nofun, nofun⟩

theorem follows_and : Follows (some .and) := ⟨by rintro ⟨⟩, by rintro op ⟨⟩⟩

theorem operand_of_isValue {c : Category} {before u : Token} {v : String} (hv : IsValue c u.kind v)
    (ts : List Token) : operand c before (u :: ts) = (.ok v, ts) := by
  simp only [operand, hv.1, (valueFault?_eq_none_iff hv.1).2 hv]

theorem comparison_of_isValue {stop first previous : Nat} {sign : Option Sign} {c : Category} {t : Token}
    {v : String} (hv : IsValue c t.kind v) (ts : List Token) :
    comparison stop sign c first previous (t :: ts) = Clause.range sign c v ts := by
  have hb := hv.1
  have hf := (valueFault?_eq_none_iff hb).2 hv
  cases hk : t.kind <;> rw [hk] at hb <;> simp only [comparison, hk, hb, hf]
  all_goals cases hb

theorem comparison_of_compare {stop first previous : Nat} {sign : Option Sign} {c : Category}
    {t u : Token} {op : Comparator} {v : String} (ht : t.kind = .compare op) (hv : IsValue c u.kind v)
    (ts : List Token) : comparison stop sign c first previous (t :: u :: ts) =
      (signed sign (.comparison c (if op = .within then .atMost else op) v none), ts) := by
  simp only [comparison, ht, operand_of_isValue hv, compared]

theorem range_of_follows {sign : Option Sign} {c : Category} {v : String} {ts : List Token}
    (h : Follows (nextKind ts)) : Clause.range sign c v ts = (lone sign c v, ts) := by
  cases ts with
  | nil => rfl
  | cons t ts =>
    have ht : t.kind ≠ .compare .within := fun hk => h.2 .within (congrArg some hk)
    simp [Clause.range, ht]

theorem readTerm_word {t : Token} {w : String} (ht : t.kind = .word w) (stop : Nat) (sign : Option Sign)
    (ts : List Token) : Clause.readTerm stop sign t ts = wordTerm stop sign t w ts := by
  simp only [Clause.readTerm, ht]

theorem wordTerm_of_standsAlone {w : String} {ts : List Token} (h : StandsAlone w (nextKind ts))
    (stop : Nat) (sign : Option Sign) (t : Token) :
    wordTerm stop sign t w ts = (plain (.term .content w (stanceOf sign)), ts) := by
  cases ts with
  | nil => rfl
  | cons u ts =>
    have hu : u.kind ≠ .colon := fun hk => h.1 (congrArg some hk)
    cases hc : comparable? w with
    | none => simp [wordTerm, hu, hc]
    | some c =>
      have hn := h.2 (by rw [hc]; rfl) u.kind rfl
      simp [wordTerm, hu, hc, hn]

theorem readTerm_comparable {t u : Token} {w : String} {c : Category} (ht : t.kind = .word w)
    (hw : comparable? w = some c) (hu : u.kind = .colon) (stop : Nat) (sign : Option Sign)
    (ts : List Token) : Clause.readTerm stop sign t (u :: ts) =
      comparison stop sign c ((sign.map (·.1)).getD t).position u.stop ts := by
  simp [readTerm_word ht, wordTerm, hu, hw]

theorem readTerm_named {t u : Token} {w : String} (ht : t.kind = .word w) (hw : comparable? w = none)
    (hu : u.kind = .colon) (stop : Nat) (sign : Option Sign) (ts : List Token) :
    Clause.readTerm stop sign t (u :: ts) =
      fieldValue stop sign w ((sign.map (·.1)).getD t).position u.stop ts := by
  simp [readTerm_word ht, wordTerm, hu, hw]

theorem readTerm_bare {t u : Token} {w : String} {c : Category} {op : Comparator} (ht : t.kind = .word w)
    (hw : comparable? w = some c) (hu : u.kind = .compare op) (hop : op ≠ .within) (stop : Nat)
    (sign : Option Sign) (ts : List Token) : Clause.readTerm stop sign t (u :: ts) =
      comparison stop sign c ((sign.map (·.1)).getD t).position t.stop (u :: ts) := by
  have hc : isComparison (.compare op) = true := by cases op <;> first | rfl | exact absurd rfl hop
  simp [readTerm_word ht, wordTerm, hu, hw, hc]

theorem fieldValue_of_bareValue? {x : Token} {v : String} (hv : bareValue? x.kind = some v) (stop : Nat)
    (sign : Option Sign) (w : String) (first previous : Nat) (ts : List Token) :
    ∃ wn, fieldValue stop sign w first previous (x :: ts) =
      (.term (namedValue w v (sign.map (·.2))) wn, ts) := by
  cases ho : Category.ofName? w with
  | some c =>
    rw [namedValue_of_ofName? ho]
    cases hk : x.kind <;> rw [hk] at hv <;> cases hv <;> simp only [fieldValue, hk, ho]
    all_goals exact ⟨none, rfl⟩
  | none =>
    rw [namedValue_of_unknown ho]
    cases hk : x.kind <;> rw [hk] at hv <;> cases hv <;> simp only [fieldValue, hk, ho]
    all_goals exact ⟨some (.unknownCategory w v), rfl⟩

theorem range_of_open {sign : Option Sign} {c : Category} {v : String} {y : Token} {ts : List Token}
    (hy : y.kind = .compare .within) (h : ∀ l, nextKind ts = some l → rangeEnd? l = none) :
    Clause.range sign c v (y :: ts) = (signed sign (.comparison c .atLeast v none), ts) := by
  cases ts with
  | nil => simp [Clause.range, hy]
  | cons u ts => simp [Clause.range, hy, h u.kind rfl]

theorem range_of_closed {sign : Option Sign} {c : Category} {v x : String} {y z : Token} {ts : List Token}
    (hy : y.kind = .compare .within) (hz : rangeEnd? z.kind = some x) (hx : IsValue c z.kind x) :
    Clause.range sign c v (y :: z :: ts) = (signed sign (.comparison c .within v (some x)), ts) := by
  have hb : bareValue? z.kind = some x := by
    revert hz
    cases z.kind <;> simp [rangeEnd?, bareValue?]
  simp [Clause.range, hy, hz, (valueFault?_eq_none_iff hb).2 hx]

theorem Term.readTerm {s : Option Stance} {ks : List Kind} {next : Option Kind} {n : Node}
    (h : Term s ks next n) (sign : Option Sign) (hs : sign.map (·.2) = s) {us ts : List Token}
    (hks : us.map (·.kind) = ks) (hn : nextKind ts = next) (hf : Follows next) (stop : Nat) :
    ∃ t us' wn, us = t :: us' ∧ startsTerm t.kind = true ∧
      Clause.readTerm stop sign t (us' ++ ts) = (.term n wn, ts) := by
  subst hs hn
  cases h <;> simp only [List.map_eq_cons_iff, List.map_eq_nil_iff] at hks
  case word w hw =>
    obtain ⟨t, -, rfl, ht, rfl⟩ := hks
    refine ⟨t, [], none, rfl, by rw [ht]; rfl, ?_⟩
    rw [readTerm_word ht, List.nil_append, wordTerm_of_standsAlone hw]
    rfl
  case number v | date v | phrase v =>
    obtain ⟨t, -, rfl, ht, rfl⟩ := hks
    exact ⟨t, [], none, rfl, by rw [ht]; rfl, by simp only [Clause.readTerm, ht]; rfl⟩
  case regex p f hr hn =>
    obtain ⟨t, -, rfl, ht, rfl⟩ := hks
    refine ⟨t, [], none, rfl, by rw [ht]; rfl, ?_⟩
    simp only [Clause.readTerm, ht, regex_eq_term_iff.2 ⟨hr, hn, rfl⟩, List.nil_append]
  case wildcard p hn =>
    obtain ⟨t, -, rfl, ht, rfl⟩ := hks
    refine ⟨t, [], none, rfl, by rw [ht]; rfl, ?_⟩
    simp only [Clause.readTerm, ht, signed_eq_term hn, List.nil_append]
  case named w k v hw hv =>
    obtain ⟨t, -, rfl, ht, u, -, rfl, hu, x, -, rfl, rfl, rfl⟩ := hks
    obtain ⟨wn, hx⟩ :=
      fieldValue_of_bareValue? hv stop sign w ((sign.map (·.1)).getD t).position u.stop ts
    refine ⟨t, [u, x], wn, rfl, by rw [ht]; rfl, ?_⟩
    simp only [List.cons_append, List.nil_append, readTerm_named ht hw hu, hx]
  case quoted w c v hw ho =>
    obtain ⟨t, -, rfl, ht, u, -, rfl, hu, x, -, rfl, hx, rfl⟩ := hks
    refine ⟨t, [u, x], none, rfl, by rw [ht]; rfl, ?_⟩
    simp only [List.cons_append, List.nil_append, readTerm_named ht hw hu, fieldValue, hx, ho]
    rfl
  case fieldPhrase w v ho hn =>
    obtain ⟨t, -, rfl, ht, u, -, rfl, hu, x, -, rfl, hx, rfl⟩ := hks
    refine ⟨t, [u, x], none, rfl, by rw [ht]; rfl, ?_⟩
    have hw := comparable?_eq_none_of_ofName? ho
    simp only [List.cons_append, List.nil_append, readTerm_named ht hw hu, fieldValue, hx, ho,
      signed_eq_term hn]
  case fieldRegex w p f hw hr hn =>
    obtain ⟨t, -, rfl, ht, u, -, rfl, hu, x, -, rfl, hx, rfl⟩ := hks
    refine ⟨t, [u, x], none, rfl, by rw [ht]; rfl, ?_⟩
    simp only [List.cons_append, List.nil_append, readTerm_named ht hw hu, fieldValue, hx,
      regex_eq_term_iff.2 ⟨hr, hn, rfl⟩]
  case fieldWildcard w p hw hn =>
    obtain ⟨t, -, rfl, ht, u, -, rfl, hu, x, -, rfl, hx, rfl⟩ := hks
    refine ⟨t, [u, x], none, rfl, by rw [ht]; rfl, ?_⟩
    simp only [List.cons_append, List.nil_append, readTerm_named ht hw hu, fieldValue, hx,
      signed_eq_term hn]
  case compared w c op k v hw hop hv hn =>
    obtain ⟨t, -, rfl, ht, u, -, rfl, hu, x, -, rfl, hx, y, -, rfl, rfl, rfl⟩ := hks
    refine ⟨t, [u, x, y], none, rfl, by rw [ht]; rfl, ?_⟩
    simp only [List.cons_append, List.nil_append, readTerm_comparable ht hw hu,
      comparison_of_compare hx hv, if_neg hop, signed_eq_term hn]
  case comparedBare w c op k v hw hop hv hn =>
    obtain ⟨t, -, rfl, ht, x, -, rfl, hx, y, -, rfl, rfl, rfl⟩ := hks
    refine ⟨t, [x, y], none, rfl, by rw [ht]; rfl, ?_⟩
    simp only [List.cons_append, List.nil_append, readTerm_bare ht hw hx hop,
      comparison_of_compare hx hv, if_neg hop, signed_eq_term hn]
  case upTo w c k v hw hv hn =>
    obtain ⟨t, -, rfl, ht, u, -, rfl, hu, x, -, rfl, hx, y, -, rfl, rfl, rfl⟩ := hks
    refine ⟨t, [u, x, y], none, rfl, by rw [ht]; rfl, ?_⟩
    simp only [List.cons_append, List.nil_append, readTerm_comparable ht hw hu,
      comparison_of_compare hx hv, if_true, signed_eq_term hn]
  case upFrom w c k v hw hv hnext hn =>
    obtain ⟨t, -, rfl, ht, u, -, rfl, hu, x, -, rfl, rfl, y, -, rfl, hy, rfl⟩ := hks
    refine ⟨t, [u, x, y], none, rfl, by rw [ht]; rfl, ?_⟩
    simp only [List.cons_append, List.nil_append, readTerm_comparable ht hw hu,
      comparison_of_isValue hv, range_of_open hy hnext, signed_eq_term hn]
  case range w c k v l x hw hv hl hx hn =>
    obtain ⟨t, -, rfl, ht, u, -, rfl, hu, x, -, rfl, rfl, y, -, rfl, hy, z, -, rfl, rfl, rfl⟩ := hks
    refine ⟨t, [u, x, y, z], none, rfl, by rw [ht]; rfl, ?_⟩
    simp only [List.cons_append, List.nil_append, readTerm_comparable ht hw hu,
      comparison_of_isValue hv, range_of_closed hy hl hx, signed_eq_term hn]
  case period w k v hw hv =>
    obtain ⟨t, -, rfl, ht, u, -, rfl, hu, x, -, rfl, rfl, rfl⟩ := hks
    refine ⟨t, [u, x], none, rfl, by rw [ht]; rfl, ?_⟩
    simp only [List.cons_append, List.nil_append, readTerm_comparable ht hw hu,
      comparison_of_isValue hv, range_of_follows hf]
    rfl
  case equal w c k v hw hc hv hn =>
    obtain ⟨t, -, rfl, ht, u, -, rfl, hu, x, -, rfl, rfl, rfl⟩ := hks
    refine ⟨t, [u, x], none, rfl, by rw [ht]; rfl, ?_⟩
    simp only [List.cons_append, List.nil_append, readTerm_comparable ht hw hu,
      comparison_of_isValue hv, range_of_follows hf, lone, if_neg hc, signed_eq_term hn]

end FilterQuery.Grammar
