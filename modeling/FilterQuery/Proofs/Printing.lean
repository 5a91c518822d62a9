import FilterQuery.Proofs.Leaves

namespace FilterQuery

open Token (Kind Scans)
open Grammar (Alternatives Apart Conjunction IsSound Unary apart_of_lacks)

/-- Nodes that the grammar can stand for: a group has several children, or negates one that is no group,
no child could be spliced into its group, and whatever is no group is read back from its own text. -/
inductive Node.Printable : Node → Prop
  | atom : n.isGroup = false → n.ReadsAlone → Printable n
  | group : (∀ n ∈ ns, Printable n) → (∀ n ∈ ns, ∀ ms, n ≠ .group j false ms) →
      (2 ≤ ns.length ∨ negated = true ∧ j = .and ∧ ∃ n, ns = [n] ∧ n.isGroup = false) →
      Printable (.group j negated ns)

namespace Spells

variable {cs ds : List Char} {ks ls : List Kind}

theorem isOpen (h : Spells cs ks) : ∀ k ∈ ks, k.isOpen = false := by
  intro k hk
  cases k with
  | flawed f => exact absurd rfl (h.sound _ hk f)
  | _ => rfl

theorem append (h : Spells cs ks) (hd : Token.Breaks ds) (h' : Spells ds ls) :
    Spells (cs ++ ds) (ks ++ ls) :=
  ⟨h.scans.append h.isOpen hd h'.scans, List.forall_mem_append.2 ⟨h.sound, h'.sound⟩⟩

theorem blank (h : Spells cs ks) : Spells (' ' :: cs) ks :=
  ⟨.blank (by decide +kernel) h.scans, h.sound⟩

theorem sign {c : Char} {k : Kind} (hb : Text.isBlank c = false) (hk : IsSound k)
    (hone : Token.scanOne c cs = .ok (k, cs)) (h : Spells cs ks) : Spells (c :: cs) (k :: ks) :=
  ⟨.token hb hone h.scans, List.forall_mem_cons.2 ⟨hk, h.sound⟩⟩

end Spells

def Junction.kind : Junction → Kind
  | and => .and
  | or => .or

theorem breaks_separator (j : Junction) (cs : List Char) : Token.Breaks (j.separator ++ cs) := by
  cases j <;> exact Token.breaks_cons (by decide +kernel) _

theorem Spells.separator (j : Junction) {cs : List Char} {ks : List Kind} (h : Spells cs ks) :
    Spells (j.separator ++ cs) ([j.kind] ++ ks) := by
  cases j <;> exact .blank (.sign (by decide +kernel) (by rintro f ⟨⟩) rfl h.blank)

def Written (after : Option Kind → Prop) (p : List Kind → Option Kind → Prop) (cs : List Char) : Prop :=
  ∃ ks, Spells cs ks ∧ ∀ next, after next → p ks next

namespace Written

variable {after : Option Kind → Prop}

theorem mono {p q : List Kind → Option Kind → Prop} {cs : List Char} (h : Written after p cs)
    (hpq : ∀ ks next, p ks next → q ks next) : Written after q cs := by
  obtain ⟨ks, hs, hp⟩ := h
  exact ⟨ks, hs, fun next hn => hpq ks next (hp next hn)⟩

theorem intercalate {sep : List Char} {ls : List Kind} {α : Type} {p : α → List Kind → Option Kind → Prop}
    {q : List α → List Kind → Option Kind → Prop} {f : α → List Char} {as : List α}
    (hb : ∀ cs, Token.Breaks (sep ++ cs)) (hs : ∀ {cs ks}, Spells cs ks → Spells (sep ++ cs) (ls ++ ks))
    (hend : after none) (hafter : ∀ a us next, p a us next → after (ls ++ us).head?)
    (one : ∀ a ks next, p a ks next → q [a] ks next)
    (more : ∀ as a ks us next, q as ks (ls ++ us).head? → p a us next → q (as ++ [a]) (ks ++ (ls ++ us)) next)
    (has : as ≠ []) (h : ∀ a ∈ as, Written after (p a) (f a)) :
    Written after (q as) (sep.intercalate (as.map f)) := by
  -- what stands in front has been read, and the rest is taken in from the left
  have hrest : ∀ (bs : List α), (∀ a ∈ bs, Written after (p a) (f a)) → ∀ {cs : List Char} {as : List α},
      Written after (q as) cs → Written after (q (as ++ bs)) (cs ++ bs.flatMap fun a => sep ++ f a) := by
    intro bs
    induction bs with
    | nil =>
      intro _ cs as h
      simpa using h
    | cons b bs ih =>
      intro hbs cs as h
      obtain ⟨us, hus, hp⟩ := hbs b List.mem_cons_self
      obtain ⟨ks, hks, hq⟩ := h
      have hhead := hafter b us none (hp none hend)
      have hab : Written after (q (as ++ [b])) (cs ++ (sep ++ f b)) :=
        ⟨ks ++ (ls ++ us), hks.append (hb _) (hs hus), fun next hn => more as b ks us next (hq _ hhead) (hp next hn)⟩
      have hall := ih (fun a hm => hbs a (List.mem_cons_of_mem b hm)) hab
      simpa using hall
  cases as with
  | nil => exact absurd rfl has
  | cons a as =>
    have ha := (h a List.mem_cons_self).mono (one a)
    have hall := hrest as (fun b hb => h b (List.mem_cons_of_mem a hb)) ha
    have htext : ∀ (cs : List Char) (as : List α), sep.intercalate (cs :: as.map f) =
        cs ++ as.flatMap fun a => sep ++ f a := by
      intro cs as
      induction as generalizing cs with
      | nil => simp
      | cons a as ih =>
        rw [List.map_cons, List.intercalate_cons_cons, ih, List.flatMap_cons]
        simp
    rw [List.map_cons, htext]
    exact hall

end Written

namespace Grammar

def ConjunctionOf (n : Node) (ks : List Kind) (next : Option Kind) : Prop :=
  ∃ ns, Conjunction ks next ns ∧ Node.join .and ns = some n

def AlternativesOf (n : Node) (ks : List Kind) (next : Option Kind) : Prop :=
  ∃ ns, Alternatives ks next ns ∧ Node.join .or ns = some n

end Grammar

open Grammar (AlternativesOf ConjunctionOf)

namespace Node

variable {j : Junction} {n : Node} {ns : List Node}

theorem parts_of_ne (h : ∀ ms, n ≠ .group j false ms) : n.parts j = [n] := by
  cases n with
  | group k negated ms =>
    cases negated with
    | false =>
      rw [parts, if_neg]
      rintro rfl
      exact h ms rfl
    | true => rfl
  | _ => rfl

theorem join_singleton (h : ∀ ms, n ≠ .group j false ms) : join j [n] = some n := by
  simp [join, parts_of_ne h]

theorem join_singleton_of_two_le (h : ∀ ms, n = .group j false ms → 2 ≤ ms.length) : join j [n] = some n := by
  by_cases hg : ∃ ms, n = .group j false ms
  · obtain ⟨ms, rfl⟩ := hg
    match ms, h ms rfl with
    | _ :: _ :: _, _ => simp [join, parts]
  · exact join_singleton fun ms hn => hg ⟨ms, hn⟩

theorem join_of_two_le (h : ∀ n ∈ ns, ∀ ms, n ≠ .group j false ms) (hl : 2 ≤ ns.length) :
    join j ns = some (.group j false ns) := by
  have hparts : ns.flatMap (parts j) = ns := by
    clear hl
    induction ns with
    | nil => rfl
    | cons n ns ih =>
      rw [List.flatMap_cons, parts_of_ne (h n List.mem_cons_self),
        ih fun m hm => h m (List.mem_cons_of_mem n hm)]
      rfl
  match ns, hl with
  | n :: m :: ns, _ => rw [join, hparts]

def childText (j : Junction) (n : Node) : List Char :=
  if needsParens j n then parenthesized n.text else n.text

theorem childTexts_eq_map (h : ∀ n ∈ ns, n.text ≠ []) : childTexts j ns = ns.map (childText j) := by
  induction ns with
  | nil => rfl
  | cons n ns ih =>
    have ht : (childText j n).isEmpty = false := by
      unfold childText
      split
      · rfl
      · simpa using h n List.mem_cons_self
    have hrec := ih fun m hm => h m (List.mem_cons_of_mem n hm)
    change (if (childText j n).isEmpty then childTexts j ns else childText j n :: childTexts j ns) = _
    rw [ht, hrec]
    rfl

end Node

namespace Written

variable {n : Node} {cs : List Char}

theorem conjunctionOf (h : Written Apart (Unary · · (some n)) cs) (hn : ∀ ms, n ≠ .group .and false ms) :
    Written Apart (ConjunctionOf n) cs :=
  h.mono fun _ _ hu => ⟨[n], .one hu, Node.join_singleton hn⟩

theorem alternativesOf (h : Written Apart (ConjunctionOf n) cs) (hn : ∀ ms, n ≠ .group .or false ms) :
    Written Apart (AlternativesOf n) cs := by
  refine h.mono ?_
  rintro ks next ⟨ns, hc, hj⟩
  have ha := Alternatives.one hc
  rw [hj] at ha
  exact ⟨[n], ha, Node.join_singleton hn⟩

theorem in_parens {p q : List Kind → Option Kind → Prop} (h : Written Apart p cs)
    (hq : ∀ ks next, p ks (some .rightParen) → q (.leftParen :: (ks ++ [.rightParen])) next) :
    Written Apart q (Node.parenthesized cs) := by
  obtain ⟨ks, hs, hp⟩ := h
  have hclose : Spells [')'] [.rightParen] :=
    .sign (by decide +kernel) (by rintro f ⟨⟩) rfl ⟨.nil, List.forall_mem_nil _⟩
  have hbreak : Token.Breaks [')'] := Token.breaks_cons (by decide +kernel) []
  refine ⟨.leftParen :: (ks ++ [.rightParen]), ?_, fun next _ => hq ks next (hp _ (apart_of_lacks rfl))⟩
  exact .sign (by decide +kernel) (by rintro f ⟨⟩) rfl (hs.append hbreak hclose)

theorem behind_not {p q : List Kind → Option Kind → Prop} (h : Written Apart p cs)
    (hq : ∀ ks next, p ks next → q (.not :: ks) next) : Written Apart q ('!' :: cs) := by
  obtain ⟨ks, hs, hp⟩ := h
  exact ⟨.not :: ks, .sign (by decide +kernel) (by rintro f ⟨⟩) rfl hs, fun next hn => hq ks next (hp next hn)⟩

theorem parenthesized (h : Written Apart (AlternativesOf n) cs) :
    Written Apart (Unary · · (some n)) (Node.parenthesized cs) := by
  refine h.in_parens fun ks next => ?_
  rintro ⟨ns, ha, hj⟩
  rw [← hj]
  exact .group ha

theorem not (h : Written Apart (Unary · · (some n)) cs) : Written Apart (Unary · · (some n.negate)) ('!' :: cs) :=
  h.behind_not fun _ _ hu => .not hu

theorem conjunction {ns : List Node} (hns : ns ≠ []) {f : Node → List Char}
    (h : ∀ n ∈ ns, Written Apart (Unary · · (some n)) (f n)) :
    Written Apart (Conjunction · · ns) (Junction.and.separator.intercalate (ns.map f)) :=
  intercalate (p := fun n ks next => Unary ks next (some n)) (q := fun ns ks next => Conjunction ks next ns)
    (breaks_separator .and) (Spells.separator .and) (apart_of_lacks rfl) (fun _ _ _ _ => apart_of_lacks rfl)
    (fun _ _ _ h => .one h) (fun _ _ _ _ _ h h' => .and h h') hns h

theorem alternatives {ns : List Node} (hns : ns ≠ []) {f : Node → List Char}
    (h : ∀ n ∈ ns, Written Apart (ConjunctionOf n) (f n)) :
    Written Apart (Alternatives · · ns) (Junction.or.separator.intercalate (ns.map f)) := by
  refine intercalate (p := ConjunctionOf) (q := fun ns ks next => Alternatives ks next ns) (breaks_separator .or)
    (Spells.separator .or) (apart_of_lacks rfl) (fun _ _ _ _ => apart_of_lacks rfl) (fun n ks next => ?_)
    (fun ms n ks us next hms => ?_) hns h
  · rintro ⟨ns, hc, hj⟩
    have ha := Alternatives.one hc
    rwa [hj] at ha
  · rintro ⟨ns, hc, hj⟩
    have ha := Alternatives.or hms hc
    rwa [hj] at ha

end Written

structure Node.IsWritten (n : Node) : Prop where
  alternatives : Written Apart (AlternativesOf n) n.text
  conjunction : (∀ ms, n ≠ .group .or false ms) → Written Apart (ConjunctionOf n) n.text
  unary : (∀ j ms, n ≠ .group j false ms) → Written Apart (Unary · · (some n)) n.text

namespace Node

variable {j : Junction} {n : Node} {ns : List Node}

theorem isWritten_of_unary (h : Written Apart (Unary · · (some n)) n.text) (hn : ∀ j ms, n ≠ .group j false ms) :
    n.IsWritten :=
  have hc := h.conjunctionOf (hn .and)
  ⟨hc.alternativesOf (hn .or), fun _ => hc, fun _ => h⟩

theorem IsWritten.text_ne_nil (h : n.IsWritten) : n.text ≠ [] := by
  intro htext
  obtain ⟨ks, ⟨hs, -⟩, ha⟩ := h.alternatives
  rw [htext] at hs
  cases hs
  obtain ⟨ns, ha, -⟩ := ha none (apart_of_lacks rfl)
  generalize hks : ([] : List Kind) = ks at ha
  cases ha with
  | one hc =>
    obtain ⟨k, ks', rfl, -⟩ := hc.starts
    cases hks
  | or => simp at hks

theorem ReadsAlone.isWritten (h : n.ReadsAlone) (hn : n.isGroup = false) : n.IsWritten := by
  have hg : ∀ j ms, n ≠ .group j false ms := by
    rintro j ms rfl
    cases hn
  refine isWritten_of_unary ?_ hg
  cases n with
  | leaf l =>
    obtain ⟨hs, hu⟩ := Leaf.unary_of_readsAlone h
    exact ⟨l.kinds, hs, fun next => hu.apart⟩
  | reference name =>
    obtain ⟨ts, hs, hp, hr⟩ := h.exists_tokens
    have hname := (Node.from_of_root hn hp hr hs.isLexed).1.isName
    have htail : ∀ c, ([] : List Char).head? = some c → Token.isNameChar c = false := by rintro c ⟨⟩
    have hscans := Token.Scans.reference hname htail .nil
    rw [List.append_nil, String.ofList_toList] at hscans
    exact ⟨[.reference name], ⟨hscans, List.forall_mem_singleton.2 (by rintro f ⟨⟩)⟩, fun _ _ => .reference⟩
  | expansion name s body =>
    obtain ⟨ts, hs, hp, hr⟩ := h.exists_tokens
    exact (Node.from_of_root hn hp hr hs.isLexed).1.elim
  | group => cases hn

theorem needsParens_of_printable {ms : List Node} (h : (group .or false ms).Printable) :
    (group .or false ms).needsParens .and = true := by
  cases h with
  | atom hn => cases hn
  | group _ _ hl =>
    obtain hl | ⟨hf, -⟩ := hl
    · match ms, hl with
      | _ :: _ :: _, _ => rfl
    · cases hf

theorem IsWritten.child_and (h : n.IsWritten) (hp : n.Printable) (hn : ∀ ms, n ≠ .group .and false ms) :
    Written Apart (Unary · · (some n)) (childText .and n) := by
  unfold childText
  by_cases ho : ∃ ms, n = .group .or false ms
  · obtain ⟨ms, rfl⟩ := ho
    rw [needsParens_of_printable hp, if_pos rfl]
    exact h.alternatives.parenthesized
  · have hg : ∀ j ms, n ≠ .group j false ms := by
      rintro (_ | _) ms rfl
      · exact hn ms rfl
      · exact ho ⟨ms, rfl⟩
    have hparen : n.needsParens .and = false := by
      unfold Node.needsParens
      split
      · exact absurd rfl (hg _ _)
      · rfl
    rw [hparen, if_neg (by simp)]
    exact h.unary hg

theorem IsWritten.child_or (h : n.IsWritten) (hn : ∀ ms, n ≠ .group .or false ms) :
    Written Apart (ConjunctionOf n) (childText .or n) := by
  have hparen : n.needsParens .or = false := by
    unfold Node.needsParens
    split <;> rfl
  rw [childText, hparen, if_neg (by simp)]
  exact h.conjunction hn

def body (j : Junction) (ns : List Node) : List Char := j.separator.intercalate (ns.map (childText j))

theorem conjunctionOf_body (h : ∀ n ∈ ns, n.IsWritten) (hp : ∀ n ∈ ns, n.Printable)
    (hn : ∀ n ∈ ns, ∀ ms, n ≠ .group .and false ms) (hl : 2 ≤ ns.length) :
    Written Apart (ConjunctionOf (.group .and false ns)) (body .and ns) := by
  have hne : ns ≠ [] := by
    rintro rfl
    cases hl
  have hc : Written Apart (Conjunction · · ns) (body .and ns) :=
    .conjunction hne fun n hm => (h n hm).child_and (hp n hm) (hn n hm)
  exact hc.mono fun _ _ hc => ⟨ns, hc, join_of_two_le hn hl⟩

theorem alternativesOf_body (h : ∀ n ∈ ns, n.IsWritten) (hp : ∀ n ∈ ns, n.Printable)
    (hn : ∀ n ∈ ns, ∀ ms, n ≠ .group j false ms) (hl : 2 ≤ ns.length) :
    Written Apart (AlternativesOf (.group j false ns)) (body j ns) := by
  cases j with
  | and => exact (conjunctionOf_body h hp hn hl).alternativesOf nofun
  | or =>
    have hne : ns ≠ [] := by
      rintro rfl
      cases hl
    have ha : Written Apart (Alternatives · · ns) (body .or ns) :=
      .alternatives hne fun n hm => (h n hm).child_or (hn n hm)
    exact ha.mono fun _ _ ha => ⟨ns, ha, join_of_two_le hn hl⟩

theorem text_group (h : ∀ n ∈ ns, n.IsWritten) (hl : 2 ≤ ns.length) (negated : Bool) :
    (group j negated ns).text = if negated then '!' :: parenthesized (body j ns) else body j ns := by
  rw [text, childTexts_eq_map fun n hn => (h n hn).text_ne_nil]
  match ns, hl with
  | n :: m :: ns, _ => cases negated <;> rfl

theorem Printable.isWritten (h : n.Printable) : n.IsWritten := by
  induction h with
  | atom hn h => exact h.isWritten hn
  | @group ns negated j hp hn hl ih =>
    obtain hl | ⟨rfl, rfl, n, rfl, hg⟩ := hl
    · have ht := text_group (j := j) ih hl negated
      have ha := alternativesOf_body ih hp hn hl
      cases negated with
      | true =>
        refine isWritten_of_unary ?_ nofun
        have hnegate : (Node.group j false ns).negate = .group j true ns := rfl
        rw [ht, if_pos rfl, ← hnegate]
        exact ha.parenthesized.not
      | false =>
        rw [if_neg (by simp)] at ht
        cases j with
        | and =>
          have hc := conjunctionOf_body ih hp hn hl
          rw [← ht] at ha hc
          exact ⟨ha, fun _ => hc, fun h => absurd rfl (h .and ns)⟩
        | or =>
          rw [← ht] at ha
          exact ⟨ha, fun h => absurd rfl (h ns), fun h => absurd rfl (h .or ns)⟩
    · have hchild := ih n List.mem_cons_self
      refine isWritten_of_unary ?_ nofun
      have hnegate : n.negate = .group .and true [n] := by
        cases n with
        | group => cases hg
        | _ => rfl
      have ht : (Node.group .and true [n]).text = '!' :: n.text := by
        rw [text, childTexts_eq_map fun m hm => (ih m hm).text_ne_nil]
        have hparen : n.needsParens .and = false := by
          cases n with
          | group => cases hg
          | _ => rfl
        simp [groupText, childText, hparen, hg]
      rw [ht, ← hnegate]
      refine (hchild.unary ?_).not
      rintro j ms rfl
      cases hg

theorem Printable.join (h : n.Printable) (j : Junction) : Node.join j [n] = some n := by
  refine join_singleton_of_two_le ?_
  rintro ms rfl
  cases h with
  | atom hn => cases hn
  | group _ _ hl => exact hl.resolve_right fun hf => nomatch hf.1

/-- A printable node is read back from its text. -/
theorem parse_toQuery_of_printable (h : n.Printable) :
    ∃ t, Tree.parse n.toQuery = .ok t ∧ t.problems = [] ∧ t.root = some n := by
  obtain ⟨ks, hs, ha⟩ := h.isWritten.alternatives
  obtain ⟨ns, ha, hj⟩ := ha none (apart_of_lacks rfl)
  obtain ⟨ts, hts, hks⟩ := hs.scans.scanFrom 0
  rw [← hks] at ha
  obtain ⟨hp, hr⟩ := ha.tree n.toQuery n.toQuery.length
  refine ⟨_, Grammar.parse_of_scanFrom ?_, hp, ?_⟩
  · rw [Node.toQuery, String.toList_ofList]
    exact hts
  · rw [hr, hj]
    exact h.join .and

theorem parse_toQuery_of_printable_mixed :
    ∃ t, Tree.parse (Node.group .or true [.group .and true [.leaf (.term .source "a b" .both)],
      .group .and false [.reference "s", .leaf (.comparison .words .atLeast "9" none)]]).toQuery = .ok t ∧
      t.problems = [] ∧ t.root = some (.group .or true [.group .and true [.leaf (.term .source "a b" .both)],
      .group .and false [.reference "s", .leaf (.comparison .words .atLeast "9" none)]]) := by
  have hterm : Printable (.leaf (.term .source "a b" .both)) :=
    .atom rfl ⟨⟨some (.leaf (.term .source "a b" .both)), "~source:\"a b\"", [], []⟩, by decide +kernel, rfl, rfl⟩
  have hname : Printable (.reference "s") :=
    .atom rfl ⟨⟨some (.reference "s"), "@s", [], [.noStacks "s"]⟩, by decide +kernel, rfl, rfl⟩
  have hwords : Printable (.leaf (.comparison .words .atLeast "9" none)) :=
    .atom rfl ⟨⟨some (.leaf (.comparison .words .atLeast "9" none)), "words:>=9", [], []⟩, by decide +kernel,
      rfl, rfl⟩
  refine parse_toQuery_of_printable (.group ?_ ?_ (.inl (Nat.le_refl 2)))
  · simp only [List.forall_mem_cons, List.not_mem_nil, false_implies, implies_true, and_true]
    constructor
    · exact .group (by simpa using hterm) (by simp) (.inr ⟨rfl, rfl, _, rfl, rfl⟩)
    · exact .group (by simpa using ⟨hname, hwords⟩) (by simp) (.inl (Nat.le_refl 2))
  · simp

end Node

end FilterQuery
