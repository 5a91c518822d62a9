import FilterQuery.Proofs.Grammar.Acceptance
import FilterQuery.Proofs.Lexemes

namespace FilterQuery

open Token (Kind)

namespace Node

mutual
def atoms : Node → List Node
  | .group _ _ ns => atomsAll ns
  | .leaf l => [.leaf l]
  | .reference name => [.reference name]
  | .expansion name s body => [.expansion name s body]

def atomsAll : List Node → List Node
  | [] => []
  | n :: ns => n.atoms ++ atomsAll ns
end

theorem atomsAll_eq_flatMap (ns : List Node) : atomsAll ns = ns.flatMap atoms := by
  induction ns with
  | nil => rfl
  | cons n ns ih => rw [atomsAll, ih, List.flatMap_cons]

theorem atoms_group (j : Junction) (negated : Bool) (ns : List Node) :
    (group j negated ns).atoms = ns.flatMap atoms := by
  rw [atoms, atomsAll_eq_flatMap]

theorem atoms_of_isGroup {n : Node} (h : n.isGroup = false) : n.atoms = [n] := by
  cases n with
  | group => cases h
  | _ => rfl

theorem atoms_negate (n : Node) : n.negate.atoms = n.atoms := by
  cases n with
  | group j negated ns =>
    match negated, ns with
    | false, ns => simp [negate, atoms_group]
    | true, [] => simp [negate, atoms_group]
    | true, [n] => simp [negate, atoms_group]
    | true, _ :: _ :: _ => simp [negate, atoms_group]
  | _ => rfl

theorem flatMap_atoms_parts (j : Junction) (n : Node) : (n.parts j).flatMap atoms = n.atoms := by
  cases n with
  | group k negated ns =>
    cases negated with
    | false =>
      rw [parts]
      split
      · exact (atoms_group ..).symm
      · simp
    | true => simp [parts]
  | _ => rfl

theorem flatMap_atoms_join (j : Junction) (ns : List Node) :
    (join j ns).toList.flatMap atoms = ns.flatMap atoms := by
  have h : (ns.flatMap (parts j)).flatMap atoms = ns.flatMap atoms := by
    simp [List.flatMap_assoc, flatMap_atoms_parts]
  rw [← h, join]
  generalize ns.flatMap (parts j) = ps
  cases ps with
  | nil => rfl
  | cons p ps =>
    cases ps with
    | nil => simp
    | cons => simp [atoms_group]

end Node

section

variable (p : Kind → Prop)

def FieldFrom (field : Option String) : Prop := ∀ f, field = some f → ∃ w, p (.word w) ∧ f = Text.lower w

def Leaf.From : Leaf → Prop
  | .term .. => True
  | .phrase _ field => FieldFrom p field
  | .regex pattern flags field => p (.regex pattern flags) ∧ FieldFrom p field
  | .wildcard pattern field => p (.wildcard pattern) ∧ FieldFrom p field
  | .comparison c op v upper => c.isComparable = true ∧ (∃ k, p k ∧ Clause.bareValue? k = some v) ∧
      (op ≠ .within → upper = none) ∧ ∀ u, upper = some u → ∃ k, p k ∧ Clause.rangeEnd? k = some u

def Node.From : Node → Prop
  | .leaf l => l.From p
  | .reference name => p (.reference name)
  | _ => False

end

namespace Grammar

variable {p : Kind → Prop} {ks : List Kind} {next : Option Kind}

theorem atoms_of_signed? {s : Option Stance} {l : Leaf} {n : Node} (h : signed? s l = some n) :
    n.atoms = [.leaf l] := by
  unfold signed? at h
  split at h
  · cases h
    exact Node.atoms_negate _
  · cases h
  · cases h
  · cases h
    rfl

theorem isComparable_of_comparable? {w : String} {c : Category} (h : Clause.comparable? w = some c) :
    c.isComparable = true := (Option.filter_eq_some_iff.1 h).2

theorem fieldFrom_none : FieldFrom p none := nofun

theorem fieldFrom_lower {w : String} (h : p (.word w)) : FieldFrom p (some (Text.lower w)) := by
  rintro _ ⟨⟩
  exact ⟨w, h, rfl⟩

theorem fieldFrom_fieldOf {w : String} (h : p (.word w)) : FieldFrom p (Clause.fieldOf w) := by
  unfold Clause.fieldOf
  split
  · exact fieldFrom_none
  · exact fieldFrom_lower h

theorem Term.from {s : Option Stance} {n : Node} (h : Term s ks next n) (hp : ∀ k ∈ ks, p k) :
    ∀ a ∈ n.atoms, a.From p := by
  have hsigned : ∀ {l : Leaf}, signed? s l = some n → l.From p → ∀ a ∈ n.atoms, a.From p := by
    intro l hl hf a ha
    rw [atoms_of_signed? hl, List.mem_singleton] at ha
    rw [ha]
    exact hf
  have hleaf : ∀ {l : Leaf}, n = .leaf l → l.From p → ∀ a ∈ n.atoms, a.From p := by
    rintro l rfl hf a ha
    rw [List.mem_singleton.1 ha]
    exact hf
  have hvalue : ∀ {k v c}, p k → IsValue c k v → ∃ k, p k ∧ Clause.bareValue? k = some v :=
    fun hk hv => ⟨_, hk, hv.1⟩
  cases h with
  | word _ | number | date => exact hleaf rfl trivial
  | @phrase v =>
    refine hleaf rfl ?_
    split
    · exact fieldFrom_none
    · trivial
  | regex _ h => exact hsigned h ⟨hp _ (by simp), fieldFrom_none⟩
  | wildcard h => exact hsigned h ⟨hp _ (by simp), fieldFrom_none⟩
  | @named w k v _ _ _ =>
    have hn : ∃ l, namedValue w v s = .leaf l ∧ l.From p := by
      unfold namedValue
      split <;> exact ⟨_, rfl, trivial⟩
    obtain ⟨l, hl, hf⟩ := hn
    exact hleaf hl hf
  | quoted _ _ | period _ _ => exact hleaf rfl trivial
  | fieldPhrase _ h => exact hsigned h (fieldFrom_lower (hp _ (by simp)))
  | fieldRegex _ _ h => exact hsigned h ⟨hp _ (by simp), fieldFrom_fieldOf (hp _ (by simp))⟩
  | fieldWildcard _ h => exact hsigned h ⟨hp _ (by simp), fieldFrom_fieldOf (hp _ (by simp))⟩
  | compared hw _ hv h | comparedBare hw _ hv h | upTo hw hv h | upFrom hw hv _ h | equal hw _ hv h =>
    exact hsigned h ⟨isComparable_of_comparable? hw, hvalue (hp _ (by simp)) hv, fun _ => rfl, nofun⟩
  | range hw hv hl _ h =>
    refine hsigned h ⟨isComparable_of_comparable? hw, hvalue (hp _ (by simp)) hv, fun h => absurd rfl h, ?_⟩
    rintro u ⟨⟩
    exact ⟨_, hp _ (by simp), hl⟩

structure Lifts (p : Kind → Prop) (Q : Node → Prop) : Prop where
  term : ∀ {s ks next n}, Term s ks next n → (∀ k ∈ ks, p k) → ∀ a ∈ n.atoms, Q a
  reference : ∀ name, p (.reference name) → Q (.reference name)

variable {Q : Node → Prop}

mutual
theorem Unary.forall_atoms (hQ : Lifts p Q) : ∀ {ks : List Kind} {next : Option Kind} {n : Option Node},
    Unary ks next n → (∀ k ∈ ks, p k) → ∀ a ∈ n.toList.flatMap Node.atoms, Q a
  | _, _, _, @Unary.not _ _ n h, hp, a, ha => by
    refine h.forall_atoms hQ (fun k hk => hp k (List.mem_cons_of_mem _ hk)) a ?_
    cases n with
    | none => cases ha
    | some n => simpa [Node.atoms_negate] using ha
  | _, _, _, .empty, _, _, ha => by cases ha
  | _, _, _, .group h, hp, a, ha => by
    rw [Node.flatMap_atoms_join] at ha
    exact h.forall_atoms hQ (fun k hk => hp k (by simp [hk])) a ha
  | _, _, _, .reference, hp, a, ha => by
    simp [Node.atoms] at ha
    rw [ha]
    exact hQ.reference _ (hp _ (by simp))
  | _, _, _, .plain h, hp, a, ha => hQ.term h hp a (by simpa using ha)
  | _, _, _, .signed h, hp, a, ha => hQ.term h (fun k hk => hp k (List.mem_cons_of_mem _ hk)) a (by simpa using ha)

theorem Conjunction.forall_atoms (hQ : Lifts p Q) : ∀ {ks : List Kind} {next : Option Kind}
    {ns : List Node}, Conjunction ks next ns → (∀ k ∈ ks, p k) → ∀ a ∈ ns.flatMap Node.atoms, Q a
  | _, _, _, .one h, hp, a, ha => h.forall_atoms hQ hp a ha
  | _, _, _, .beside h h', hp, a, ha => by
    rw [List.flatMap_append, List.mem_append] at ha
    rcases ha with ha | ha
    · exact h.forall_atoms hQ (fun k hk => hp k (by simp [hk])) a ha
    · exact h'.forall_atoms hQ (fun k hk => hp k (by simp [hk])) a ha
  | _, _, _, .and h h', hp, a, ha => by
    rw [List.flatMap_append, List.mem_append] at ha
    rcases ha with ha | ha
    · exact h.forall_atoms hQ (fun k hk => hp k (by simp [hk])) a ha
    · exact h'.forall_atoms hQ (fun k hk => hp k (by simp [hk])) a ha

theorem Alternatives.forall_atoms (hQ : Lifts p Q) : ∀ {ks : List Kind} {next : Option Kind} {ns : List Node},
    Alternatives ks next ns → (∀ k ∈ ks, p k) → ∀ a ∈ ns.flatMap Node.atoms, Q a
  | _, _, _, .one h, hp, a, ha => h.forall_atoms hQ hp a (by rwa [Node.flatMap_atoms_join] at ha)
  | _, _, _, .or h h', hp, a, ha => by
    rw [List.flatMap_append, List.mem_append, Node.flatMap_atoms_join] at ha
    rcases ha with ha | ha
    · exact h.forall_atoms hQ (fun k hk => hp k (by simp [hk])) a ha
    · exact h'.forall_atoms hQ (fun k hk => hp k (by simp [hk])) a ha
end

theorem lifts_from (p : Kind → Prop) : Lifts p (Node.From p) := ⟨Term.from, fun _ => id⟩

theorem from_of_mem_readAll {stop : Nat} {ts : List Token} {n : Node} {w : Option Warning}
    (hp : ∀ t ∈ ts, p t.kind) (h : .term n w ∈ Clause.readAll stop ts) : ∀ a ∈ n.atoms, a.From p := by
  induction hn : ts.length using Nat.strongRecOn generalizing ts with
  | ind len ih =>
    subst hn
    cases ts with
    | nil => rw [Clause.readAll] at h; cases h
    | cons t ts =>
      rw [Clause.readAll] at h
      have hsuffix := Clause.read_suffix stop t ts
      rcases List.mem_cons.1 h with h | h
      · have hread : Clause.read stop t ts = (.term n w, (Clause.read stop t ts).2) := Prod.ext h.symm rfl
        obtain ⟨us, hus, hunary⟩ := unary_of_read_eq_term hread
        have hkinds : ∀ k ∈ t.kind :: us.map (·.kind), p k := by
          rw [← List.map_cons]
          refine List.forall_mem_map.2 fun u hu => hp u ?_
          rw [hus, ← List.cons_append]
          exact List.mem_append_left _ hu
        simpa using hunary.forall_atoms (lifts_from p) hkinds
      · refine ih _ (Nat.lt_succ_of_le hsuffix.length_le) (fun u hu => hp u ?_) h rfl
        exact List.mem_cons_of_mem _ (hsuffix.subset hu)

def IsSound (k : Kind) : Prop := ∀ f, k ≠ .flawed f

theorem isSound_of_bareValue? {k : Kind} {v : String} (h : Clause.bareValue? k = some v) : IsSound k := by
  rintro f rfl
  cases h

theorem isSound_of_rangeEnd? {k : Kind} {v : String} (h : Clause.rangeEnd? k = some v) : IsSound k := by
  rintro f rfl
  cases h

theorem Term.isSound {s : Option Stance} {n : Node} (h : Term s ks next n) : ∀ k ∈ ks, IsSound k := by
  have hsign : ∀ {k : Kind} {ks : List Kind}, IsSound k → (∀ k ∈ ks, IsSound k) → ∀ k' ∈ k :: ks, IsSound k' :=
    fun hk hks => List.forall_mem_cons.2 ⟨hk, hks⟩
  cases h with
  | word | number | date | phrase | regex | wildcard => exact hsign nofun nofun
  | named _ hv => exact hsign nofun (hsign nofun (hsign (isSound_of_bareValue? hv) nofun))
  | quoted | fieldPhrase | fieldRegex | fieldWildcard =>
    exact hsign nofun (hsign nofun (hsign nofun nofun))
  | compared _ _ hv | upTo _ hv =>
    exact hsign nofun (hsign nofun (hsign nofun (hsign (isSound_of_bareValue? hv.1) nofun)))
  | comparedBare _ _ hv => exact hsign nofun (hsign nofun (hsign (isSound_of_bareValue? hv.1) nofun))
  | upFrom _ hv =>
    exact hsign nofun (hsign nofun (hsign (isSound_of_bareValue? hv.1) (hsign nofun nofun)))
  | range _ hv hl =>
    exact hsign nofun (hsign nofun (hsign (isSound_of_bareValue? hv.1)
      (hsign nofun (hsign (isSound_of_rangeEnd? hl) nofun))))
  | period _ hv | equal _ _ hv => exact hsign nofun (hsign nofun (hsign (isSound_of_bareValue? hv.1) nofun))

mutual
theorem Unary.isSound : ∀ {ks : List Kind} {next : Option Kind} {n : Option Node}, Unary ks next n →
    ∀ k ∈ ks, IsSound k
  | _, _, _, .not h => List.forall_mem_cons.2 ⟨nofun, h.isSound⟩
  | _, _, _, .empty => List.forall_mem_cons.2 ⟨nofun, List.forall_mem_cons.2 ⟨nofun, nofun⟩⟩
  | _, _, _, .group h => List.forall_mem_cons.2 ⟨nofun, List.forall_mem_append.2
      ⟨h.isSound, List.forall_mem_cons.2 ⟨nofun, nofun⟩⟩⟩
  | _, _, _, .reference => List.forall_mem_cons.2 ⟨nofun, nofun⟩
  | _, _, _, .plain h => h.isSound
  | _, _, _, .signed h => List.forall_mem_cons.2 ⟨nofun, h.isSound⟩

theorem Conjunction.isSound : ∀ {ks : List Kind} {next : Option Kind} {ns : List Node},
    Conjunction ks next ns → ∀ k ∈ ks, IsSound k
  | _, _, _, .one h => h.isSound
  | _, _, _, .beside h h' => List.forall_mem_append.2 ⟨h.isSound, h'.isSound⟩
  | _, _, _, .and h h' => List.forall_mem_append.2 ⟨h.isSound, List.forall_mem_cons.2 ⟨nofun, h'.isSound⟩⟩

theorem Alternatives.isSound : ∀ {ks : List Kind} {next : Option Kind} {ns : List Node},
    Alternatives ks next ns → ∀ k ∈ ks, IsSound k
  | _, _, _, .one h => h.isSound
  | _, _, _, .or h h' => List.forall_mem_append.2 ⟨h.isSound, List.forall_mem_cons.2 ⟨nofun, h'.isSound⟩⟩
end

def EndsTerm (next : Option Kind) : Prop :=
  ∀ k, next = some k → k ≠ .colon ∧ Clause.isComparison k = false

def Apart (next : Option Kind) : Prop :=
  EndsTerm next ∧ ∀ k, next = some k → Clause.rangeEnd? k = none

theorem apart_of_lacks {next : Option Kind} (h : lacks next = true) : Apart next := by
  constructor
  · rintro k rfl
    cases k with
    | and | or | rightParen => exact ⟨nofun, rfl⟩
    | _ => cases h
  · rintro k rfl
    cases k with
    | and | or | rightParen => rfl
    | _ => cases h

theorem EndsTerm.standsAlone (h : EndsTerm next) (w : String) : StandsAlone w next :=
  ⟨fun hc => (h _ hc).1 rfl, fun _ k hk => (h k hk).2⟩

theorem Term.behind {s : Option Stance} {n : Node} (h : Term s ks none n) (hn : EndsTerm next)
    (hr : ks.getLast? = some (.compare .within) → ∀ k, next = some k → Clause.rangeEnd? k = none) :
    Term s ks next n := by
  cases h with
  | word _ => exact .word (hn.standsAlone _)
  | number => exact .number
  | date => exact .date
  | phrase => exact .phrase
  | regex h1 h2 => exact .regex h1 h2
  | wildcard h => exact .wildcard h
  | named h1 h2 => exact .named h1 h2
  | quoted h1 h2 => exact .quoted h1 h2
  | fieldPhrase h1 h2 => exact .fieldPhrase h1 h2
  | fieldRegex h1 h2 h3 => exact .fieldRegex h1 h2 h3
  | fieldWildcard h1 h2 => exact .fieldWildcard h1 h2
  | compared h1 h2 h3 h4 => exact .compared h1 h2 h3 h4
  | comparedBare h1 h2 h3 h4 => exact .comparedBare h1 h2 h3 h4
  | upTo h1 h2 h3 => exact .upTo h1 h2 h3
  | upFrom h1 h2 _ h4 => exact .upFrom h1 h2 (hr rfl) h4
  | range h1 h2 h3 h4 h5 => exact .range h1 h2 h3 h4 h5
  | period h1 h2 => exact .period h1 h2
  | equal h1 h2 h3 h4 => exact .equal h1 h2 h3 h4

theorem Unary.apart : ∀ {ks : List Kind} {n : Option Node}, Unary ks none n → ∀ {next : Option Kind},
    Apart next → Unary ks next n
  | _, _, .not h, _, hn => .not (h.apart hn)
  | _, _, .empty, _, _ => .empty
  | _, _, .group h, _, _ => .group h
  | _, _, .reference, _, _ => .reference
  | _, _, .plain h, _, hn => .plain (h.behind hn.1 fun _ => hn.2)
  | _, _, .signed h, _, hn => .signed (h.behind hn.1 fun _ => hn.2)

end Grammar

namespace Text

def valueKind (v : List Char) : Kind :=
  if isPlain v then Token.classify v else .phrase (String.ofList v)

end Text

namespace Leaf

def fieldKinds : Option String → List Kind
  | some f => [Token.classify f.toList, .colon]
  | none => []

def termKinds (c : Category) (v : List Char) (s : Stance) : List Kind :=
  if s = .neutral then []
  else if c = .content && Text.isPlain v then
    if s = .is then [Token.classify v] else [.stance s, Token.classify v]
  else [.stance s, .word c.name, .colon, Text.valueKind v]

def kinds : Leaf → List Kind
  | term c v s => termKinds c v.toList s
  | regex p f field => fieldKinds field ++ [.regex p f]
  | phrase v field => fieldKinds field ++ [.phrase v]
  | wildcard p field => fieldKinds field ++ [.wildcard p]
  | comparison c .within v (some u) =>
    [.word c.name, .colon, Token.classify v.toList, .compare .within, Token.classify u.toList]
  | comparison c .within v none => [.word c.name, .colon, .compare .atLeast, Token.classify v.toList]
  | comparison c op v _ => [.word c.name, .colon, .compare op, Token.classify v.toList]

end Leaf

namespace Token

theorem isWord_name (c : Category) : IsWord c.name.toList := by
  cases c <;> exact ⟨by decide +kernel, by unfold IsWhole; decide +kernel⟩

theorem classify_name (c : Category) : classify c.name.toList = .word c.name := by
  cases c <;> decide +kernel

theorem Scans.name (c : Category) {tail : List Char} {ks : List Kind} (h : Scans tail ks) :
    Scans (c.name.toList ++ ':' :: tail) (.word c.name :: .colon :: ks) := by
  rw [← classify_name]
  exact .word (isWord_name c) (endsWord_colon tail) h.colon

theorem startsWord_of_startsPlain {c : Char} (h : Text.isPlain.startsPlain c = true) : startsWord c = true := by
  simp only [Text.isPlain.startsPlain, Bool.or_eq_true] at h
  simp only [startsWord, Bool.or_eq_true]
  rcases h with (h | h) | h
  · exact .inl (.inl (Text.isAlphanumeric_of_isLetter h))
  · exact .inl (.inl (Text.isAlphanumeric_of_isNumber h))
  · exact .inl (.inr h)

theorem isWord_of_isPlain {v : List Char} (h : Text.isPlain v = true) : IsWord v := by
  cases v with
  | nil => cases h
  | cons c cs =>
    simp only [Text.isPlain, Bool.and_eq_true, List.all_eq_true] at h
    obtain ⟨hc, hcs⟩ := h
    refine ⟨startsWord_of_startsPlain hc, isWhole_of_forall fun d hd next => ?_⟩
    have hd := hcs d hd
    simp only [Bool.or_eq_true] at hd
    rcases hd with (hd | hd) | hd
    · have hw := startsWord_of_startsPlain hd
      simp only [startsWord, Bool.or_eq_true] at hw
      simp only [continuesWord, Bool.or_eq_true]
      exact .inl (.inl (.inl hw))
    · simp [continuesWord, hd]
    · simp [continuesWord, hd]

theorem Scans.value (v : List Char) {tail : List Char} {ks : List Kind} (ht : EndsWord tail)
    (h : Scans tail ks) : Scans (Text.value v ++ tail) (Text.valueKind v :: ks) := by
  unfold Text.value Text.valueKind
  split
  · exact .word (isWord_of_isPlain ‹_›) ht h
  · exact h.quote

theorem Scans.field {field : Option String} (hf : ∀ f, field = some f → IsWord f.toList) {tail : List Char}
    {ks : List Kind} (h : Scans tail ks) : Scans (Text.fieldMark field ++ tail) (Leaf.fieldKinds field ++ ks) := by
  cases field with
  | none => exact h
  | some f =>
    have hw := Scans.word (hf f rfl) (endsWord_colon tail) h.colon
    simpa [Text.fieldMark, Leaf.fieldKinds] using hw

end Token

namespace Leaf

def FieldIsWord (field : Option String) : Prop := ∀ f, field = some f → Token.IsWord f.toList

def IsSpelled : Leaf → Prop
  | term .. => True
  | regex p f field => Token.IsRegexLiteral p.toList f.toList ∧ FieldIsWord field
  | phrase _ field => FieldIsWord field
  | wildcard p field =>
    (Token.IsWord p.toList ∧ Token.classify p.toList = .wildcard p) ∧ FieldIsWord field
  | comparison _ _ v upper => Token.IsWord v.toList ∧ ∀ u, upper = some u → Token.IsWord u.toList

theorem scans_term (c : Category) (v : List Char) (s : Stance) :
    Token.Scans (Text.term c v s) (termKinds c v s) := by
  have hv := Token.Scans.value v Token.endsWord_nil .nil
  rw [List.append_nil] at hv
  unfold termKinds Text.term
  cases hs : s.sign? with
  | none =>
    have hn : s = .neutral := by cases s <;> first | rfl | cases hs
    rw [if_pos hn]
    exact .nil
  | some sign =>
    have hn : s ≠ .neutral := by
      rintro rfl
      cases hs
    rw [if_neg hn]
    cases hc : c = .content && Text.isPlain v with
    | true =>
      have hp : Text.isPlain v = true := (Bool.and_eq_true_iff.1 hc).2
      have hw := Token.Scans.word (Token.isWord_of_isPlain hp) Token.endsWord_nil .nil
      rw [List.append_nil] at hw
      simp only [if_true]
      split
      · exact hw
      · exact .stance hs hw
    | false =>
      have hname := Token.Scans.name c hv
      exact .stance hs hname

theorem scans {l : Leaf} (h : l.IsSpelled) : Token.Scans l.text l.kinds := by
  cases l with
  | term c v s => exact scans_term c v.toList s
  | regex p f field =>
    have hflags : ∀ c, ([] : List Char).head? = some c → Token.isFlag c = false := nofun
    have hr := Token.Scans.regex h.1 hflags .nil
    rw [List.append_nil, String.ofList_toList, String.ofList_toList] at hr
    exact .field h.2 hr
  | phrase v field =>
    have hq := Token.Scans.quote (v := v.toList) .nil
    rw [List.append_nil, String.ofList_toList] at hq
    exact .field h hq
  | wildcard p field =>
    have hw := Token.Scans.word h.1.1 Token.endsWord_nil .nil
    rw [List.append_nil, h.1.2] at hw
    exact .field h.2 hw
  | comparison c op v upper =>
    have hv := Token.Scans.word h.1 Token.endsWord_nil .nil
    have hcmp : ∀ op : Comparator, Token.Scans (c.name.toList ++ ':' :: op.symbol.toList ++ v.toList)
        [.word c.name, .colon, .compare op, Token.classify v.toList] := fun op => by
      have hop := Token.Scans.name c (Token.Scans.compare op h.1 hv)
      simpa using hop
    cases op with
    | within =>
      cases upper with
      | none =>
        have hsym : Comparator.atLeast.symbol.toList = ['>', '='] := by decide
        have hge := hcmp .atLeast
        simpa [text, kinds, hsym] using hge
      | some u =>
        have hu := Token.Scans.word (h.2 u rfl) Token.endsWord_nil .nil
        have hpoints := Token.Scans.compare .within (h.2 u rfl) hu
        have hvu := Token.Scans.word h.1 (Token.endsWord_points _) hpoints
        have hall := Token.Scans.name c hvu
        simpa [text, kinds] using hall
    | _ => exact hcmp _

end Leaf

def Node.ReadsAlone (n : Node) : Prop :=
  ∃ t, Tree.parse n.toQuery = .ok t ∧ t.problems = [] ∧ t.root = some n

theorem Tree.parse_eq_ok {query : String} {t : Tree} (h : Tree.parse query = .ok t) :
    ∃ ts, Token.Scans query.toList (ts.map (·.kind)) ∧
      t = Tree.ofClauses query (Clause.readAll query.length ts) := by
  unfold Tree.parse Clause.ofQuery at h
  cases hs : Token.scanFrom 0 query.toList with
  | error e => rw [hs] at h; cases h
  | ok ts =>
    rw [hs] at h
    cases h
    exact ⟨ts, Token.scans_of_scanFrom hs, rfl⟩

theorem Node.ReadsAlone.exists_tokens {n : Node} (h : n.ReadsAlone) :
    ∃ ts, Token.Scans n.text (ts.map (·.kind)) ∧
      (Tree.ofClauses n.toQuery (Clause.readAll n.toQuery.length ts)).problems = [] ∧
      (Tree.ofClauses n.toQuery (Clause.readAll n.toQuery.length ts)).root = some n := by
  obtain ⟨t, ht, hp, hr⟩ := h
  obtain ⟨ts, hs, rfl⟩ := Tree.parse_eq_ok ht
  rw [Node.toQuery, String.toList_ofList] at hs
  exact ⟨ts, hs, hp, hr⟩

theorem Grammar.Alternatives.atoms_of_root {query : String} {stop : Nat} {ts : List Token} {n : Node}
    {ns : List Node} (h : Alternatives (ts.map (·.kind)) none ns)
    (hr : (Tree.ofClauses query (Clause.readAll stop ts)).root = some n) : ns.flatMap Node.atoms = n.atoms := by
  have hroot := (h.tree query stop).2
  rw [hr] at hroot
  have hatoms := congrArg (fun o : Option Node => o.toList.flatMap Node.atoms) hroot
  simp only [Node.flatMap_atoms_join, Option.toList_some, List.flatMap_singleton] at hatoms
  exact hatoms.symm

theorem Node.from_of_root {query : String} {stop : Nat} {ts : List Token} {p : Kind → Prop} {n : Node}
    (hn : n.isGroup = false) (hp : (Tree.ofClauses query (Clause.readAll stop ts)).problems = [])
    (hr : (Tree.ofClauses query (Clause.readAll stop ts)).root = some n)
    (hks : ∀ k ∈ ts.map (·.kind), p k) : n.From p ∧ ∀ k ∈ ts.map (·.kind), Grammar.IsSound k := by
  rcases Grammar.derivable_of_problems hp with hnil | ⟨ns, h⟩
  · rw [List.map_eq_nil_iff.1 hnil, Grammar.ofClauses_readAll, Grouping.runTokens_nil] at hr
    cases hr
  · refine ⟨h.forall_atoms (Grammar.lifts_from p) hks n ?_, h.isSound⟩
    rw [h.atoms_of_root hr, Node.atoms_of_isGroup hn]
    exact List.mem_singleton_self n

theorem fieldIsWord_or_of_scans {field : Option String} (hf : FieldFrom Kind.IsLexed field) {tail : List Char}
    {ks : List Kind} (h : Token.Scans (Text.fieldMark field ++ tail) ks) :
    Leaf.FieldIsWord field ∨ ∃ cs f ls, ks = Token.classify cs :: .flawed f :: ls := by
  cases field with
  | none => exact .inl nofun
  | some f =>
    obtain ⟨w, hw, rfl⟩ := hf f rfl
    obtain ⟨g, rest, hg, hword, rfl | ⟨rest', rfl⟩⟩ := Token.exists_lowerCase (hw.isWord rfl).1
    · rw [List.append_nil] at hg
      refine .inl ?_
      rintro _ ⟨⟩
      rw [Text.lower, String.toList_ofList, hg]
      exact hword
    · rw [Text.fieldMark, Text.lower, String.toList_ofList, hg, List.append_assoc, List.append_assoc] at h
      obtain ⟨ls, rfl, hls⟩ := h.word_inv hword (Token.endsWord_aboveDot _)
      obtain ⟨ms, rfl⟩ := hls.aboveDot_inv
      exact .inr ⟨g, _, ms, rfl⟩

theorem fieldIsWord_of_scans {field : Option String} (hf : FieldFrom Kind.IsLexed field) {tail : List Char}
    {ks : List Kind} (h : Token.Scans (Text.fieldMark field ++ tail) ks) (hks : ∀ k ∈ ks, Grammar.IsSound k) :
    Leaf.FieldIsWord field := by
  rcases fieldIsWord_or_of_scans hf h with hword | ⟨cs, f, ls, rfl⟩
  · exact hword
  · exact absurd rfl (hks (.flawed f) (by simp) f)

theorem wordText?_of_bareValue? {k : Kind} {v : String} (h : Clause.bareValue? k = some v) :
    k.wordText? = some v := by
  cases k <;> first | exact h | cases h

theorem wordText?_of_rangeEnd? {k : Kind} {v : String} (h : Clause.rangeEnd? k = some v) :
    k.wordText? = some v := by
  cases k <;> first | exact h | cases h

def Leaf.field : Leaf → Option String
  | regex _ _ field | phrase _ field | wildcard _ field => field
  | _ => none

theorem Leaf.namesWord_of_scans {l : Leaf} (hf : l.From Kind.IsLexed) {tail : List Char} {ks : List Kind}
    (h : Token.Scans (l.text ++ tail) ks) (hks : ∀ k ∈ ks, Grammar.IsSound k) : Leaf.FieldIsWord l.field := by
  have hmark : ∀ {field : Option String} {rest : List Char}, FieldFrom Kind.IsLexed field →
      Token.Scans ((Text.fieldMark field ++ rest) ++ tail) ks → Leaf.FieldIsWord field := fun hfrom hs =>
    fieldIsWord_of_scans hfrom (List.append_assoc .. ▸ hs) hks
  cases l with
  | regex => exact hmark hf.2 h
  | phrase => exact hmark hf h
  | wildcard => exact hmark hf.2 h
  | _ => exact nofun

theorem Leaf.isSpelled {l : Leaf} (hf : l.From Kind.IsLexed) (hfield : FieldIsWord l.field) : l.IsSpelled := by
  cases l with
  | term => trivial
  | regex p f field => exact ⟨hf.1.isRegexLiteral, hfield⟩
  | phrase v field => exact hfield
  | wildcard p field =>
    obtain ⟨hp, hk⟩ := hf.1.isWord rfl
    exact ⟨⟨hp, hk.symm⟩, hfield⟩
  | comparison c op v upper =>
    obtain ⟨-, ⟨k, hk, hv⟩, -, hu⟩ := hf
    refine ⟨(hk.isWord (wordText?_of_bareValue? hv)).1, fun u hupper => ?_⟩
    obtain ⟨k', hk', hv'⟩ := hu u hupper
    exact (hk'.isWord (wordText?_of_rangeEnd? hv')).1

theorem Leaf.isSpelled_of_scans {l : Leaf} (hf : l.From Kind.IsLexed) {ks : List Kind}
    (h : Token.Scans l.text ks) (hks : ∀ k ∈ ks, Grammar.IsSound k) : l.IsSpelled :=
  isSpelled hf (namesWord_of_scans hf ((List.append_nil l.text).symm ▸ h) hks)

namespace Clause

def TakesAll (r : Clause × List Token) : Prop :=
  r.2 = [] ∨ (∃ p, r.1 = .broken p) ∨ ∃ u us, r.2 = u :: us ∧ u.kind = .colon

theorem takesAll_read_single (stop : Nat) (t : Token) : TakesAll (read stop t []) :=
  .inl (List.suffix_nil.1 (read_suffix stop t []))

theorem takesAll_fieldValue (stop : Nat) (sign : Option Sign) (w : String) (first previous : Nat) (t : Token) :
    TakesAll (fieldValue stop sign w first previous [t]) := by
  simp only [fieldValue]
  repeat' split
  all_goals first | exact .inl rfl | exact .inr (.inl ⟨_, rfl⟩)

theorem takesAll_operand (sign : Option Sign) (c : Category) (op : Comparator) (before : Token)
    {ts : List Token} (hts : ts.length ≤ 1) :
    TakesAll (compared sign c op (operand c before ts).1, (operand c before ts).2) := by
  unfold operand
  repeat' split
  all_goals first
    | exact .inr (.inl ⟨_, rfl⟩)
    | exact .inl (List.length_eq_zero_iff.1 (Nat.le_zero.1 (Nat.le_of_succ_le_succ hts)))

theorem takesAll_comparison (stop : Nat) (sign : Option Sign) (c : Category) (first previous : Nat)
    (t : Token) : TakesAll (comparison stop sign c first previous [t]) := by
  simp only [comparison]
  split
  · exact takesAll_operand _ _ _ _ (Nat.zero_le 1)
  · repeat' split
    all_goals first | exact .inl rfl | exact .inr (.inl ⟨_, rfl⟩)

theorem takesAll_comparison_sign {stop : Nat} {sign : Option Sign} {c : Category} {first previous : Nat}
    {t : Token} {op : Comparator} (ht : t.kind = .compare op) (u : Token) :
    TakesAll (comparison stop sign c first previous [t, u]) := by
  unfold comparison
  simp only [ht]
  exact takesAll_operand _ _ _ _ (Nat.le_refl 1)

theorem takesAll_comparison_range {stop : Nat} {sign : Option Sign} {c : Category} {first previous : Nat}
    {t u x : Token} {v w : String} (ht : bareValue? t.kind = some v) (hu : u.kind = .compare .within)
    (hx : rangeEnd? x.kind = some w) : TakesAll (comparison stop sign c first previous [t, u, x]) := by
  simp only [comparison]
  split
  · next op hk => rw [hk] at ht; cases ht
  · rw [ht]
    dsimp only
    split
    · exact .inr (.inl ⟨_, rfl⟩)
    · simp only [range, hu, hx, ne_eq, not_true_eq_false, if_false]
      split
      all_goals exact .inl rfl

variable {stop : Nat} {t u : Token}

theorem takesAll_wordTerm (sign : Option Sign) (w : String) (hu : u.kind = .colon) (x : Token) :
    TakesAll (wordTerm stop sign t w [u, x]) := by
  simp only [wordTerm, hu, if_true]
  split
  · exact takesAll_comparison ..
  · exact takesAll_fieldValue ..

theorem takesAll_wordTerm_of_comparable? {w : String} {c : Category} (hw : comparable? w = some c)
    (hu : u.kind = .colon) {xs : List Token}
    (h : ∀ sign first previous, TakesAll (comparison stop sign c first previous xs)) (sign : Option Sign) :
    TakesAll (wordTerm stop sign t w (u :: xs)) := by
  simp only [wordTerm, hu, if_true, hw]
  exact h ..

theorem takesAll_read_field {w : List Char} (ht : t.kind = Token.classify w) (hu : u.kind = .colon)
    (x : Token) : TakesAll (read stop t [u, x]) := by
  have hk := Token.wordText?_classify w
  rw [← ht] at hk
  have hs : startsTerm t.kind = true := by
    cases h : t.kind <;> rw [h] at hk <;> first | rfl | cases hk
  rw [read_of_startsTerm stop _ hs, readTerm]
  split
  · exact takesAll_wordTerm none _ hu x
  · exact .inr (.inr ⟨u, [x], rfl, hu⟩)
  · exact .inr (.inr ⟨u, [x], rfl, hu⟩)
  · next h => rw [h] at hk; cases hk
  · next h => rw [h] at hk; cases hk
  · exact .inr (.inr ⟨u, [x], rfl, hu⟩)
  · exact .inr (.inl ⟨_, rfl⟩)

theorem takesAll_read_stance {s : Stance} (ht : t.kind = .stance s) (u : Token) :
    TakesAll (read stop t [u]) := by
  simp only [read, ht]
  split
  · exact .inl (List.suffix_nil.1 (readTerm_suffix ..))
  · exact .inr (.inl ⟨_, rfl⟩)

theorem comparable?_name {c : Category} (h : c.isComparable = true) : comparable? c.name = some c := by
  cases c <;> first | decide +kernel | cases h

end Clause

namespace Leaf

open Clause (TakesAll)

section

variable {stop : Nat} {t : Token} {ts : List Token}

theorem takesAll_of_field {field : Option String} {k : Kind} (h : (t :: ts).map (·.kind) = fieldKinds field ++ [k]) :
    TakesAll (Clause.read stop t ts) := by
  cases field with
  | none =>
    obtain ⟨-, rfl⟩ := by simpa [fieldKinds] using h
    exact Clause.takesAll_read_single stop t
  | some f =>
    simp only [fieldKinds, List.map_cons, List.cons_append, List.nil_append, List.cons.injEq,
      List.map_eq_cons_iff, List.map_eq_nil_iff] at h
    obtain ⟨ht, u, -, rfl, hu, x, -, rfl, -, rfl⟩ := h
    exact Clause.takesAll_read_field ht hu x

theorem takesAll_of_term {c : Category} {v : List Char} {s : Stance} (h : (t :: ts).map (·.kind) = termKinds c v s) :
    TakesAll (Clause.read stop t ts) := by
  unfold termKinds at h
  split at h
  · cases h
  · split at h
    · split at h
      · obtain ⟨-, rfl⟩ := by simpa using h
        exact Clause.takesAll_read_single stop t
      · simp only [List.map_cons, List.cons.injEq, List.map_eq_cons_iff, List.map_eq_nil_iff] at h
        obtain ⟨ht, u, -, rfl, -, rfl⟩ := h
        exact Clause.takesAll_read_stance ht u
    · simp only [List.map_cons, List.cons.injEq, List.map_eq_cons_iff, List.map_eq_nil_iff] at h
      obtain ⟨ht, u, -, rfl, hu, x, -, rfl, hx, y, -, rfl, -, rfl⟩ := h
      rw [Clause.read_stance stop _ ht (by rw [hu]; rfl), Clause.readTerm, hu]
      exact Clause.takesAll_wordTerm _ _ hx y

theorem read_name {c : Category} (ht : t.kind = .word c.name) :
    Clause.read stop t ts = Clause.wordTerm stop none t c.name ts := by
  rw [Clause.read_of_startsTerm stop ts (by rw [ht]; rfl), Clause.readTerm, ht]

theorem takesAll_of_sign {c : Category} (hc : c.isComparable = true) {op : Comparator} {k : Kind}
    (h : (t :: ts).map (·.kind) = [.word c.name, .colon, .compare op, k]) : TakesAll (Clause.read stop t ts) := by
  simp only [List.map_cons, List.cons.injEq, List.map_eq_cons_iff, List.map_eq_nil_iff] at h
  obtain ⟨ht, u, -, rfl, hu, x, -, rfl, hx, y, -, rfl, -, rfl⟩ := h
  rw [read_name ht]
  exact Clause.takesAll_wordTerm_of_comparable? (Clause.comparable?_name hc) hu
    (fun _ _ _ => Clause.takesAll_comparison_sign hx y) none

theorem takesAll_of_comparison {c : Category} {op : Comparator} {v : String} {upper : Option String}
    (hf : (comparison c op v upper).From Kind.IsLexed)
    (h : (t :: ts).map (·.kind) = (comparison c op v upper).kinds) : TakesAll (Clause.read stop t ts) := by
  obtain ⟨hc, ⟨k, hk, hv⟩, hop, hupper⟩ := hf
  cases op with
  | within =>
    cases upper with
    | none => exact takesAll_of_sign hc h
    | some w =>
      obtain ⟨k', hk', hw⟩ := hupper w rfl
      have hv' := hv
      have hw' := hw
      rw [(hk.isWord (wordText?_of_bareValue? hv)).2] at hv'
      rw [(hk'.isWord (wordText?_of_rangeEnd? hw)).2] at hw'
      simp only [kinds, List.map_cons, List.cons.injEq, List.map_eq_cons_iff, List.map_eq_nil_iff] at h
      obtain ⟨ht, u, -, rfl, hu, x, -, rfl, hx, y, -, rfl, hy, z, -, rfl, hz, rfl⟩ := h
      rw [read_name ht]
      refine Clause.takesAll_wordTerm_of_comparable? (Clause.comparable?_name hc) hu (fun _ _ _ => ?_) none
      exact Clause.takesAll_comparison_range (hx ▸ hv') hy (hz ▸ hw')
  | _ => exact takesAll_of_sign hc h

theorem takesAll_read {l : Leaf} (hf : l.From Kind.IsLexed) (h : (t :: ts).map (·.kind) = l.kinds) :
    TakesAll (Clause.read stop t ts) := by
  cases l with
  | regex p f field => exact takesAll_of_field h
  | phrase v field => exact takesAll_of_field h
  | wildcard p field => exact takesAll_of_field h
  | term c v s => exact takesAll_of_term h
  | comparison c op v upper => exact takesAll_of_comparison hf h

end

end Leaf

namespace Grammar

theorem join_of_signed? {s : Option Stance} {l : Leaf} {n : Node} (h : signed? s l = some n) (j : Junction) :
    Node.join j [n] = some n := by
  unfold signed? at h
  split at h
  · cases h; rfl
  · cases h
  · cases h
  · cases h; rfl

theorem Term.join {s : Option Stance} {ks : List Kind} {next : Option Kind} {n : Node}
    (h : Term s ks next n) (j : Junction) : Node.join j [n] = some n := by
  cases h with
  | named => unfold namedValue; split <;> rfl
  | regex _ h | wildcard h | fieldPhrase _ h | fieldRegex _ _ h | fieldWildcard _ h | compared _ _ _ h
  | comparedBare _ _ _ h | upTo _ _ h | upFrom _ _ _ h | range _ _ _ _ h | equal _ _ _ h =>
    exact join_of_signed? h j
  | _ => rfl

theorem Unary.join {k : Kind} {ks : List Kind} {next : Option Kind} {n : Node}
    (h : Unary (k :: ks) next (some n)) (hk : Clause.isSign k = false) (j : Junction) :
    Node.join j [n] = some n := by
  generalize hks : k :: ks = ks' at h
  generalize hn : some n = n' at h
  cases h with
  | not | empty | group | reference =>
    cases hks
    cases hk
  | plain h =>
    cases hn
    exact h.join j
  | signed h =>
    cases hn
    exact h.join j

end Grammar

theorem isSign_classify (w : List Char) : Clause.isSign (Token.classify w) = false := by
  have hk := Token.wordText?_classify w
  generalize Token.classify w = k at hk
  cases k <;> first | rfl | cases hk

theorem Leaf.isSign_of_kinds {l : Leaf} {k : Kind} {ks : List Kind} (h : l.kinds = k :: ks) :
    Clause.isSign k = false := by
  have hfield : ∀ {field : Option String} {x : Kind}, Clause.isSign x = false →
      fieldKinds field ++ [x] = k :: ks → Clause.isSign k = false := by
    intro field x hx h
    cases field with
    | none => cases h; exact hx
    | some f => cases h; exact isSign_classify _
  cases l with
  | term c v s =>
    change termKinds c v.toList s = _ at h
    unfold termKinds at h
    repeat' split at h
    all_goals cases h
    · exact isSign_classify _
    · rfl
    · rfl
  | regex | phrase | wildcard => exact hfield rfl h
  | comparison c op v upper => cases op <;> cases upper <;> cases h <;> rfl

structure Spells (cs : List Char) (ks : List Kind) : Prop where
  scans : Token.Scans cs ks
  sound : ∀ k ∈ ks, Grammar.IsSound k

theorem Token.Scans.exists_parse {query : String} {ks : List Kind} {ns : List Node} (hs : Scans query.toList ks)
    (ha : Grammar.Alternatives ks none ns) : ∃ t, Tree.parse query = .ok t ∧ t.problems = [] ∧
      t.root = Node.join .and (Node.join .or ns).toList := by
  obtain ⟨ts, hts, rfl⟩ := hs.scanFrom 0
  exact ⟨_, Grammar.parse_of_scanFrom hts, ha.tree query query.length⟩

theorem Grammar.problems_tree (query : String) (stop : Nat) (s : Grouping) (ts : List Token) :
    s.problems <+: ((Grouping.runTokens stop s ts).tree query).problems :=
  (problems_run s _).trans (problems_closeAll _ _)

theorem Grammar.ne_broken {query : String} {stop : Nat} {t : Token} {ts rest : List Token} {c : Clause}
    {s : Grouping} (hread : Clause.read stop t ts = (c, rest))
    (hp : ((Grouping.runTokens stop s (t :: ts)).tree query).problems = []) (p : Problem) : c ≠ .broken p := by
  rintro rfl
  rw [Grouping.runTokens_cons hread] at hp
  have hpre := problems_tree query stop (s.step (Clause.readAll stop rest).head? (.broken p)) rest
  rw [hp] at hpre
  simp [Grouping.step, Grouping.take] at hpre

theorem Leaf.unary_of_readsAlone {l : Leaf} (h : (Node.leaf l).ReadsAlone) :
    Spells l.text l.kinds ∧ Grammar.Unary l.kinds none (some (.leaf l)) := by
  obtain ⟨ts, hs, hp, hr⟩ := h.exists_tokens
  obtain ⟨hf, hks⟩ := Node.from_of_root rfl hp hr hs.isLexed
  have hscans := Leaf.scans (isSpelled_of_scans hf hs hks)
  have hkinds := hs.unique hscans
  rw [hkinds] at hks
  refine ⟨⟨hscans, hks⟩, ?_⟩
  generalize (Node.leaf l).toQuery = query at hp hr
  cases ts with
  | nil =>
    rw [Grammar.ofClauses_readAll, Grouping.runTokens_nil] at hr
    cases hr
  | cons t ts =>
    rcases hread : Clause.read query.length t ts with ⟨c, rest⟩
    have htakes : Clause.TakesAll (Clause.read query.length t ts) := takesAll_read hf hkinds
    have hsign := isSign_of_kinds hkinds.symm
    have hatom := Clause.isAtom_read query.length ts hsign
    have hp' := hp
    rw [Grammar.ofClauses_readAll] at hp'
    rw [hread] at htakes hatom
    cases c with
    | term m wn =>
      rcases htakes with hnil | ⟨p, hbroken⟩ | ⟨u, us, hrest, hu⟩
      · obtain ⟨us, hts, hunary⟩ := Grammar.unary_of_read_eq_term hread
        change rest = [] at hnil
        rw [hnil, List.append_nil] at hts
        rw [hnil, ← hts] at hunary
        have hunary : Grammar.Unary ((t :: ts).map (·.kind)) none (some m) := hunary
        have hroot := (Grammar.Alternatives.tree query query.length (.one (.one hunary))).2
        rw [← hkinds]
        rw [Option.toList_some, hunary.join hsign, Option.toList_some, hunary.join hsign, Option.toList_some,
          hunary.join hsign, hr] at hroot
        cases hroot
        exact hunary
      · cases hbroken
      · change rest = u :: us at hrest
        rw [hrest] at hread
        rw [Grouping.runTokens_cons hread] at hp'
        have hcolon : Clause.read query.length u us =
            (.broken (.atToken (.unexpected u.kind) u), Clause.recover u.stop us) := by
          simp only [Clause.read, hu]
        exact absurd rfl (Grammar.ne_broken hcolon hp' _)
    | broken p => exact absurd rfl (Grammar.ne_broken hread hp' p)
    | _ => cases hatom

end FilterQuery
