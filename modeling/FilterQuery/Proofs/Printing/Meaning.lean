import FilterQuery.Proofs.Meaning

namespace FilterQuery

open Token (Kind)
open Grammar (Alternatives Apart Conjunction Unary apart_of_lacks)

namespace Grammar

theorem Conjunction.append : ∀ {ks us : List Kind} {next : Option Kind} {ms ns : List Node},
    Conjunction us next ns → Conjunction ks (some .and) ms → Conjunction (ks ++ .and :: us) next (ms ++ ns)
  | _, _, _, _, _, .one h, hms => .and hms h
  | _, _, _, _, _, .beside h h', hms => by simpa using Conjunction.beside (h.append hms) h'
  | _, _, _, _, _, .and h h', hms => by simpa using Conjunction.and (h.append hms) h'

theorem Alternatives.append : ∀ {ks us : List Kind} {next : Option Kind} {ms ns : List Node},
    Alternatives us next ns → Alternatives ks (some .or) ms → Alternatives (ks ++ .or :: us) next (ms ++ ns)
  | _, _, _, _, _, .one h, hms => .or hms h
  | _, _, _, _, _, .or h h', hms => by simpa using Alternatives.or (h.append hms) h'

end Grammar

namespace Valuation

variable {α : Type} (V : Valuation α)

def UnaryOf (a : Option α) (ks : List Kind) (next : Option Kind) : Prop :=
  ∃ n, Unary ks next n ∧ n.bind V.value = a

def ConjunctionOf (a : Option α) (ks : List Kind) (next : Option Kind) : Prop :=
  ∃ ns, Conjunction ks next ns ∧ V.total .and ns = a

def AlternativesOf (a : Option α) (ks : List Kind) (next : Option Kind) : Prop :=
  ∃ ns, Alternatives ks next ns ∧ V.total .or ns = a

def IsUniform : Prop := V.combine .and = V.combine .or

variable {V} {a b : Option α} {ks us : List Kind} {next : Option Kind}

theorem UnaryOf.conjunction (h : V.UnaryOf a ks next) : V.ConjunctionOf a ks next := by
  obtain ⟨n, hn, rfl⟩ := h
  exact ⟨_, .one hn, V.total_toList .and n⟩

theorem ConjunctionOf.alternatives (h : V.ConjunctionOf a ks next) : V.AlternativesOf a ks next := by
  obtain ⟨ns, hns, rfl⟩ := h
  refine ⟨_, .one hns, ?_⟩
  rw [total_toList, value_join]

theorem ConjunctionOf.and (h : V.ConjunctionOf a ks (some .and)) (h' : V.ConjunctionOf b us next) :
    V.ConjunctionOf (Option.merge (V.combine .and) a b) (ks ++ .and :: us) next := by
  obtain ⟨ms, hms, rfl⟩ := h
  obtain ⟨ns, hns, rfl⟩ := h'
  exact ⟨_, hns.append hms, V.total_append .and ms ns⟩

theorem AlternativesOf.or (h : V.AlternativesOf a ks (some .or)) (h' : V.AlternativesOf b us next) :
    V.AlternativesOf (Option.merge (V.combine .or) a b) (ks ++ .or :: us) next := by
  obtain ⟨ms, hms, rfl⟩ := h
  obtain ⟨ns, hns, rfl⟩ := h'
  exact ⟨_, hns.append hms, V.total_append .or ms ns⟩

theorem AlternativesOf.and_conjunction (uniform : V.IsUniform) (h : V.AlternativesOf a ks (some .and))
    (h' : V.ConjunctionOf b us next) :
    V.AlternativesOf (Option.merge (V.combine .and) a b) (ks ++ .and :: us) next := by
  obtain ⟨ms, hms, rfl⟩ := h
  cases hms with
  | one hc =>
    rw [total_toList, value_join]
    exact (ConjunctionOf.and ⟨_, hc, rfl⟩ h').alternatives
  | @or _ ms _ _ ls ha hc =>
    obtain ⟨ns, hns, rfl⟩ := h'
    refine ⟨_, by simpa using Alternatives.or ha (hns.append hc), ?_⟩
    rw [total_append, total_append, total_toList, value_join, total_toList, value_join, total_append, uniform]
    exact (V.merge_assoc .or _ _ _).symm

theorem AlternativesOf.and_alternatives (uniform : V.IsUniform) :
    ∀ {us : List Kind} {next : Option Kind} {ns : List Node}, Alternatives us next ns →
      V.AlternativesOf a ks (some .and) →
      V.AlternativesOf (Option.merge (V.combine .and) a (V.total .or ns)) (ks ++ .and :: us) next
  | _, _, _, .one hc, h => by
    rw [total_toList, value_join]
    exact h.and_conjunction uniform ⟨_, hc, rfl⟩
  | _, _, _, .or ha hc, h => by
    have hor := (and_alternatives uniform ha h).or (ConjunctionOf.alternatives ⟨_, hc, rfl⟩)
    rw [total_append, total_toList, value_join]
    rw [uniform, merge_assoc] at hor
    rw [uniform]
    simpa using hor

end Valuation

namespace Written

variable {α : Type} {V : Valuation α} {a : Option α} {cs : List Char}

theorem enclosed (h : Written Apart (V.AlternativesOf a) cs) :
    Written Apart (V.UnaryOf a) (Node.parenthesized cs) := by
  refine h.in_parens fun ks next => ?_
  rintro ⟨ns, hns, rfl⟩
  exact ⟨_, .group hns, V.value_join .or ns⟩

theorem nothing : Written Apart (V.UnaryOf none) (Node.parenthesized []) := by
  have hnil : Written Apart (fun ks _ => ks = []) [] := ⟨[], ⟨.nil, List.forall_mem_nil _⟩, fun _ _ => rfl⟩
  refine hnil.in_parens fun ks next => ?_
  rintro rfl
  exact ⟨none, .empty, rfl⟩

theorem negated (h : Written Apart (V.UnaryOf a) cs) : Written Apart (V.UnaryOf (a.map V.negate)) ('!' :: cs) := by
  refine h.behind_not fun ks next => ?_
  rintro ⟨n, hn, rfl⟩
  refine ⟨_, .not hn, ?_⟩
  cases n with
  | none => rfl
  | some n => exact V.value_negate n

theorem total {j : Junction} {p : Option α → List Kind → Option Kind → Prop}
    (join : ∀ {a b ks us next}, p a ks (some j.kind) → p b us next →
      p (Option.merge (V.combine j) a b) (ks ++ j.kind :: us) next)
    {f : Node → List Char} {ns : List Node} (hns : ns ≠ []) (h : ∀ n ∈ ns, Written Apart (p (V.value n)) (f n)) :
    Written Apart (p (V.total j ns)) (j.separator.intercalate (ns.map f)) := by
  refine intercalate (p := fun n => p (V.value n)) (q := fun ns => p (V.total j ns)) (breaks_separator j)
    (Spells.separator j) (apart_of_lacks rfl) (fun _ _ _ _ => apart_of_lacks ?_) (fun n ks next hn => ?_)
    (fun ns n ks us next hns hn => ?_) hns h
  · cases j <;> rfl
  · rwa [V.total_singleton]
  · rw [V.total_append, V.total_singleton]
    exact join hns hn

end Written

namespace Node

mutual
def showsOr : Node → Bool
  | .leaf _ => false
  | .reference _ => false
  | .expansion .. => false
  | .group _ true _ => false
  | .group j false ns => (j == .or && 2 ≤ ns.length) || anyShowsOr j ns

def anyShowsOr (j : Junction) : List Node → Bool
  | [] => false
  | n :: ns => (n.showsOr && !needsParens j n) || anyShowsOr j ns
end

mutual
/-- Whether no conjunction of several children has one that shows alternatives. Only the number of its own children
decides whether such a child gets parentheses. -/
def isGuarded : Node → Bool
  | .leaf _ => true
  | .reference _ => true
  | .expansion .. => true
  | .group j _ ns => !(j == .and && 2 ≤ ns.length && anyShowsOr j ns) && allGuarded ns

def allGuarded : List Node → Bool
  | [] => true
  | n :: ns => n.isGuarded && allGuarded ns
end

variable {j : Junction} {n : Node} {ns : List Node}

theorem needsParens_of_showsOr (h : anyShowsOr j ns = false) :
    ∀ n ∈ ns, n.showsOr = true → needsParens j n = true := by
  induction ns with
  | nil =>
    intro n hn
    cases hn
  | cons n ns ih =>
    rw [anyShowsOr, Bool.or_eq_false_iff] at h
    refine List.forall_mem_cons.2 ⟨fun hn => ?_, ih h.2⟩
    simpa [hn] using h.1

theorem isGuarded_of_allGuarded (h : allGuarded ns = true) : ∀ n ∈ ns, n.isGuarded = true := by
  induction ns with
  | nil =>
    intro n hn
    cases hn
  | cons n ns ih =>
    rw [allGuarded, Bool.and_eq_true] at h
    exact List.forall_mem_cons.2 ⟨h.1, ih h.2⟩

theorem childText_of_isGroup (h : n.isGroup = false) (j : Junction) : childText j n = n.text := by
  cases n with
  | group => cases h
  | leaf | reference | expansion => rfl

def voiced (j : Junction) (ns : List Node) : List Node := ns.filter fun n => !(childText j n).isEmpty

theorem mem_voiced : n ∈ voiced j ns ↔ n ∈ ns ∧ childText j n ≠ [] := by
  simp [voiced]

theorem childTexts_eq_voiced (j : Junction) (ns : List Node) :
    childTexts j ns = (voiced j ns).map (childText j) := by
  induction ns with
  | nil => rfl
  | cons n ns ih =>
    change (if (childText j n).isEmpty then childTexts j ns else childText j n :: childTexts j ns) = _
    rw [voiced, List.filter_cons, ih]
    cases (childText j n).isEmpty with
    | false => rfl
    | true => rfl

theorem eq_singleton_of_voiced (h : voiced j ns ≠ []) (hl : ¬2 ≤ ns.length) :
    ∃ n, ns = [n] ∧ voiced j ns = [n] ∧ childText j n ≠ [] := by
  obtain ⟨n, hn⟩ := List.exists_mem_of_ne_nil _ h
  obtain ⟨hmem, htext⟩ := mem_voiced.1 hn
  match ns, hmem, hl with
  | [m], hmem, _ =>
    obtain rfl := List.mem_singleton.1 hmem
    exact ⟨n, rfl, by simp [voiced, htext], htext⟩
  | _ :: _ :: _, _, hl => exact absurd (by simp) hl

theorem body_ne_nil (h : voiced j ns ≠ []) : body j (voiced j ns) ≠ [] := by
  have hne : ∀ n ∈ voiced j ns, childText j n ≠ [] := fun n hn => (mem_voiced.1 hn).2
  unfold body
  match voiced j ns, h, hne with
  | [n], _, hne => simpa using hne n (List.mem_singleton_self n)
  | n :: m :: ms, _, hne =>
    rw [List.map_cons, List.map_cons, List.intercalate_cons_cons]
    intro hnil
    exact hne n List.mem_cons_self (List.append_eq_nil_iff.1 (List.append_eq_nil_iff.1 hnil).1).1

theorem text_group_of_voiced_eq_nil (h : voiced j ns = []) (negated : Bool) : (group j negated ns).text = [] := by
  rw [text, childTexts_eq_voiced, h]
  rfl

theorem text_group_false (h : voiced j ns ≠ []) : (group j false ns).text = body j (voiced j ns) := by
  rw [text, childTexts_eq_voiced, body]
  cases hv : voiced j ns with
  | nil => exact absurd hv h
  | cons n ms =>
    cases ms with
    | nil => rfl
    | cons => rfl

theorem text_group_true (h : voiced j ns ≠ []) :
    (group j true ns).text = '!' :: parenthesized (body j (voiced j ns)) ∨
      ∃ n ∈ ns, n.isGroup = false ∧ voiced j ns = [n] ∧ (group j true ns).text = '!' :: n.text := by
  rw [text, childTexts_eq_voiced, body]
  cases hv : voiced j ns with
  | nil => exact absurd hv h
  | cons n ms =>
    cases ms with
    | cons => exact .inl rfl
    | nil =>
      have hn : n ∈ ns := (mem_voiced.1 (hv ▸ List.mem_singleton_self n)).1
      rw [List.map_singleton, List.intercalate_singleton, groupText]
      cases hg : ns.any isGroup with
      | true => exact .inl rfl
      | false =>
        have hatom : n.isGroup = false := Bool.eq_false_iff.2 fun ht => by
          rw [List.any_eq_true.2 ⟨n, hn, ht⟩] at hg
          cases hg
        refine .inr ⟨n, hn, hatom, rfl, ?_⟩
        rw [childText_of_isGroup hatom, if_neg Bool.false_ne_true]

end Node

namespace Valuation

variable {α : Type} (V : Valuation α)

structure Reads (n : Node) : Prop where
  silent : n.text = [] → V.value n = none
  alternatives : n.text ≠ [] → Written Apart (V.AlternativesOf (V.value n)) n.text
  conjunction : n.text ≠ [] → n.isGuarded = true → n.showsOr = false →
    Written Apart (V.ConjunctionOf (V.value n)) n.text
  unary : n.text ≠ [] → n.isGroup = false → Written Apart (V.UnaryOf (V.value n)) n.text

variable {V} {j : Junction} {n : Node} {ns : List Node}

theorem reads_of_unary (silent : n.text = [] → V.value n = none)
    (h : n.text ≠ [] → Written Apart (V.UnaryOf (V.value n)) n.text) : V.Reads n where
  silent := silent
  alternatives hn := (h hn).mono fun _ _ hu => hu.conjunction.alternatives
  conjunction hn _ _ := (h hn).mono fun _ _ hu => hu.conjunction
  unary hn _ := h hn

namespace Reads

theorem enclosed (h : V.Reads n) : Written Apart (V.UnaryOf (V.value n)) (Node.parenthesized n.text) := by
  by_cases hn : n.text = []
  · rw [hn, h.silent hn]
    exact .nothing
  · exact (h.alternatives hn).enclosed

theorem child_silent (h : V.Reads n) (hn : Node.childText j n = []) : V.value n = none := by
  unfold Node.childText at hn
  split at hn
  · cases hn
  · exact h.silent hn

theorem child (h : V.Reads n) (hn : Node.childText j n ≠ []) :
    Written Apart (V.AlternativesOf (V.value n)) (Node.childText j n) := by
  unfold Node.childText at hn ⊢
  split at hn
  · next hp =>
    rw [if_pos hp]
    exact h.enclosed.mono fun _ _ hu => hu.conjunction.alternatives
  · next hp =>
    rw [if_neg hp]
    exact h.alternatives hn

theorem child_conjunction (h : V.Reads n) (hn : Node.childText j n ≠ []) (hg : n.isGuarded = true)
    (hor : n.showsOr = true → n.needsParens j = true) :
    Written Apart (V.ConjunctionOf (V.value n)) (Node.childText j n) := by
  unfold Node.childText at hn ⊢
  split at hn
  · next hp =>
    rw [if_pos hp]
    exact h.enclosed.mono fun _ _ hu => hu.conjunction
  · next hp =>
    rw [if_neg hp]
    exact h.conjunction hn hg (Bool.eq_false_iff.2 fun ho => hp (hor ho))

end Reads

open Node (body voiced)

theorem total_voiced (h : ∀ n ∈ ns, V.Reads n) (j : Junction) : V.total j (voiced j ns) = V.total j ns :=
  V.total_filter (fun n hn he => (h n hn).child_silent (by simpa using he)) j

theorem conjunction_body (h : ∀ n ∈ ns, V.Reads n) (hv : voiced .and ns ≠ []) (hg : ∀ n ∈ ns, n.isGuarded = true)
    (hor : ∀ n ∈ ns, n.showsOr = true → n.needsParens .and = true) :
    Written Apart (V.ConjunctionOf (V.total .and ns)) (body .and (voiced .and ns)) := by
  rw [← total_voiced h]
  refine Written.total (fun h h' => h.and h') hv fun n hn => ?_
  obtain ⟨hmem, hne⟩ := Node.mem_voiced.1 hn
  exact (h n hmem).child_conjunction hne (hg n hmem) (hor n hmem)

theorem body_singleton (hv : voiced j [n] = [n]) {p : Option α → List Kind → Option Kind → Prop}
    (hn : Written Apart (p (V.value n)) (Node.childText j n)) :
    Written Apart (p (V.total j [n])) (body j (voiced j [n])) := by
  rw [hv, total_singleton, body, List.map_singleton, List.intercalate_singleton]
  exact hn

theorem alternatives_body {negated : Bool} (h : ∀ n ∈ ns, V.Reads n) (hv : voiced j ns ≠ [])
    (hg : V.IsUniform ∨ (Node.group j negated ns).isGuarded = true) :
    Written Apart (V.AlternativesOf (V.total j ns)) (body j (voiced j ns)) := by
  have hchildren : ∀ n ∈ voiced j ns, Written Apart (V.AlternativesOf (V.value n)) (Node.childText j n) := by
    intro n hn
    obtain ⟨hmem, hne⟩ := Node.mem_voiced.1 hn
    exact (h n hmem).child hne
  cases j with
  | or =>
    rw [← total_voiced h]
    exact Written.total (fun h h' => h.or h') hv hchildren
  | and =>
    rcases hg with uniform | hg
    · rw [← total_voiced h]
      refine Written.total (fun h h' => ?_) hv hchildren
      obtain ⟨ls, hls, rfl⟩ := h'
      exact AlternativesOf.and_alternatives uniform hls h
    · by_cases hl : 2 ≤ ns.length
      · rw [Node.isGuarded, Bool.and_eq_true] at hg
        have hor : Node.anyShowsOr .and ns = false := by simpa [hl] using hg.1
        have hc := conjunction_body h hv (Node.isGuarded_of_allGuarded hg.2) (Node.needsParens_of_showsOr hor)
        exact hc.mono fun _ _ hc => hc.alternatives
      · obtain ⟨n, rfl, hone, hne⟩ := Node.eq_singleton_of_voiced hv hl
        exact body_singleton hone ((h n List.mem_cons_self).child hne)

theorem conjunction_body_of_showsOr (h : ∀ n ∈ ns, V.Reads n) (hv : voiced j ns ≠ [])
    (hg : ∀ n ∈ ns, n.isGuarded = true) (hor : (Node.group j false ns).showsOr = false) :
    Written Apart (V.ConjunctionOf (V.total j ns)) (body j (voiced j ns)) := by
  rw [Node.showsOr, Bool.or_eq_false_iff] at hor
  have hchildren := Node.needsParens_of_showsOr hor.2
  cases j with
  | and => exact conjunction_body h hv hg hchildren
  | or =>
    have hl : ¬2 ≤ ns.length := by simpa using hor.1
    obtain ⟨n, rfl, hone, hne⟩ := Node.eq_singleton_of_voiced hv hl
    have hn := List.mem_singleton_self n
    exact body_singleton hone ((h n hn).child_conjunction hne (hg n hn) (hchildren n hn))

theorem reads_group {negated : Bool} (h : ∀ n ∈ ns, V.Reads n)
    (hg : V.IsUniform ∨ (Node.group j negated ns).isGuarded = true) : V.Reads (.group j negated ns) := by
  by_cases hv : voiced j ns = []
  · have htotal : V.total j ns = none := by rw [← total_voiced h, hv, total]
    have hvalue : V.value (.group j negated ns) = none := by
      rw [value_group, htotal]
      cases negated <;> rfl
    exact reads_of_unary (fun _ => hvalue) fun hn => absurd (Node.text_group_of_voiced_eq_nil hv negated) hn
  have hbody := alternatives_body h hv hg
  cases negated with
  | false =>
    have htext := Node.text_group_false hv
    constructor
    case silent =>
      rw [htext]
      exact fun hn => absurd hn (Node.body_ne_nil hv)
    case alternatives =>
      rw [htext]
      exact fun _ => hbody
    case conjunction =>
      rw [htext]
      intro _ hg hor
      rw [Node.isGuarded, Bool.and_eq_true] at hg
      exact conjunction_body_of_showsOr h hv (Node.isGuarded_of_allGuarded hg.2) hor
    case unary =>
      intro _ hn
      cases hn
  | true =>
    -- A negated group stands in parentheses, but for a lone child that needs none.
    rcases Node.text_group_true hv with htext | ⟨n, hn, hatom, hone, htext⟩
    · refine reads_of_unary ?_ fun _ => ?_
      · rw [htext]
        intro hn
        cases hn
      · rw [htext]
        exact hbody.enclosed.negated
    · have htotal : V.total j ns = V.value n := by rw [← total_voiced h, hone, total_singleton]
      have hne : n.text ≠ [] := by
        rw [← Node.childText_of_isGroup hatom j]
        exact (Node.mem_voiced.1 (hone ▸ List.mem_singleton_self n)).2
      refine reads_of_unary ?_ fun _ => ?_
      · rw [htext]
        intro hn
        cases hn
      · rw [htext, value_group, if_pos rfl, htotal]
        exact ((h n hn).unary hne hatom).negated

theorem reads (n : Node) (hatoms : ∀ a ∈ n.atoms, a.ReadsAlone ∨ a.text = [] ∧ V.atom a = none)
    (hg : V.IsUniform ∨ n.isGuarded = true) : V.Reads n := by
  induction n using Node.induction with
  | atom n hn =>
    rw [Node.atoms_of_isGroup hn, List.forall_mem_singleton] at hatoms
    rcases hatoms with hread | ⟨htext, hnone⟩
    · have hwritten := hread.isWritten hn
      refine reads_of_unary (fun htext => absurd htext hwritten.text_ne_nil) fun _ => ?_
      refine (hwritten.unary ?_).mono fun _ _ hu => ⟨some n, hu, rfl⟩
      rintro j ms rfl
      cases hn
    · refine reads_of_unary (fun _ => ?_) fun hne => absurd htext hne
      rw [value_of_isGroup V hn, hnone]
  | group j negated ns ih =>
    refine reads_group (fun n hn => ih n hn (fun a ha => hatoms a ?_) (hg.imp_right fun hg => ?_)) hg
    · rw [Node.atoms_group]
      exact List.mem_flatMap.2 ⟨n, hn, ha⟩
    · rw [Node.isGuarded, Bool.and_eq_true] at hg
      exact Node.isGuarded_of_allGuarded hg.2 n hn

theorem exists_parse_toQuery (V : Valuation α) (n : Node)
    (hatoms : ∀ a ∈ n.atoms, a.ReadsAlone ∨ a.text = [] ∧ V.atom a = none)
    (hg : V.IsUniform ∨ n.isGuarded = true) :
    ∃ t, Tree.parse n.toQuery = .ok t ∧ t.problems = [] ∧ t.root.bind V.value = V.value n := by
  have hreads := reads n hatoms hg
  by_cases htext : n.text = []
  · rw [hreads.silent htext, Node.toQuery, htext]
    exact ⟨Tree.ofClauses "" [], by decide +kernel, rfl, rfl⟩
  · obtain ⟨ks, hs, ha⟩ := hreads.alternatives htext
    obtain ⟨ns, ha, hvalue⟩ := ha none (apart_of_lacks rfl)
    have hscans : Token.Scans n.toQuery.toList ks := by rw [Node.toQuery, String.toList_ofList]; exact hs.scans
    obtain ⟨t, ht, hp, hr⟩ := hscans.exists_parse ha
    refine ⟨t, ht, hp, ?_⟩
    rw [hr, value_join, total_toList, value_join, hvalue]

end Valuation

end FilterQuery
