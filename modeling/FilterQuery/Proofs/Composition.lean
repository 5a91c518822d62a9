import FilterQuery.Proofs.Printing.RoundTrip

namespace FilterQuery

open Token (Kind)
open Grammar (Alternatives Apart Conjunction Unary apart_of_lacks)

namespace Node

variable {P : Node → Prop} {n : Node} {ns : List Node}

theorem Normal.join_singleton (h : n.Normal P) (j : Junction) : Node.join j [n] = some n := by
  refine join_singleton_of_two_le ?_
  rintro ms rfl
  cases h with
  | atom hn => cases hn
  | group _ _ hl => exact hl.resolve_right fun hf => nomatch hf.1

theorem join_toList {m : Option Node} (h : ∀ n ∈ m, n.Normal P) (j : Junction) : Node.join j m.toList = m := by
  cases m with
  | none => rfl
  | some n => exact (h n rfl).join_singleton j

end Node

namespace Grammar

theorem Term.isNormal {s : Option Stance} {ks : List Kind} {next : Option Kind} {n : Node} (h : Term s ks next n) :
    n.Normal fun _ => True := by
  obtain ⟨l, rfl | rfl⟩ := h.exists_leaf
  · exact .atom rfl trivial
  · exact Node.Normal.negate (.atom rfl trivial)

mutual
theorem Unary.isNormal : ∀ {ks : List Kind} {next : Option Kind} {n : Option Node}, Unary ks next n →
    ∀ m ∈ n, m.Normal fun _ => True
  | _, _, _, .not h => by
    intro m hm
    obtain ⟨n, hn, rfl⟩ := Option.map_eq_some_iff.1 hm
    exact (h.isNormal n hn).negate
  | _, _, _, .empty => nofun
  | _, _, _, .group h => Node.Normal.join h.isNormal .or
  | _, _, _, .reference => by
    rintro _ ⟨⟩
    exact .atom rfl trivial
  | _, _, _, .plain h | _, _, _, .signed h => by
    rintro _ ⟨⟩
    exact h.isNormal

theorem Conjunction.isNormal : ∀ {ks : List Kind} {next : Option Kind} {ns : List Node}, Conjunction ks next ns →
    ∀ n ∈ ns, n.Normal fun _ => True
  | _, _, _, .one h => fun n hn => h.isNormal n (Option.mem_toList.1 hn)
  | _, _, _, .beside h h' | _, _, _, .and h h' =>
    List.forall_mem_append.2 ⟨h.isNormal, fun n hn => h'.isNormal n (Option.mem_toList.1 hn)⟩

theorem Alternatives.isNormal : ∀ {ks : List Kind} {next : Option Kind} {ns : List Node}, Alternatives ks next ns →
    ∀ n ∈ ns, n.Normal fun _ => True
  | _, _, _, .one h => fun n hn => Node.Normal.join h.isNormal .and n (Option.mem_toList.1 hn)
  | _, _, _, .or h h' =>
    List.forall_mem_append.2 ⟨h.isNormal, fun n hn => Node.Normal.join h'.isNormal .and n (Option.mem_toList.1 hn)⟩
end

theorem Conjunction.apart {ks : List Kind} {next : Option Kind} {ns : List Node} (hn : Apart next) :
    Conjunction ks none ns → Conjunction ks next ns
  | .one h => .one (h.apart hn)
  | .beside h h' => .beside h (h'.apart hn)
  | .and h h' => .and h (h'.apart hn)

theorem Alternatives.apart {ks : List Kind} {next : Option Kind} {ns : List Node} (hn : Apart next) :
    Alternatives ks none ns → Alternatives ks next ns
  | .one h => .one (h.apart hn)
  | .or h h' => .or h (h'.apart hn)

end Grammar

theorem Written.isNormal {m : Option Node} {cs : List Char} (h : Written Apart (Unary · · m) cs) :
    ∀ n ∈ m, n.Normal fun _ => True := by
  obtain ⟨ks, -, hu⟩ := h
  exact (hu none (apart_of_lacks rfl)).isNormal

/-- A query is read without problems, and its tree has this root. -/
def ReadsTo (query : String) (root : Option Node) : Prop :=
  ∃ t, Tree.parse query = .ok t ∧ t.problems = [] ∧ t.root = root

namespace ReadsTo

variable {query : String} {m : Option Node} {ns : List Node}

theorem of_alternatives (h : Written Apart (Alternatives · · ns) query.toList) : ReadsTo query (Node.join .or ns) := by
  obtain ⟨ks, hs, ha⟩ := h
  have ha := ha none (apart_of_lacks rfl)
  obtain ⟨t, ht, hp, hr⟩ := hs.scans.exists_parse ha
  refine ⟨t, ht, hp, ?_⟩
  rw [hr]
  exact Node.join_toList (Node.Normal.join ha.isNormal .or) .and

theorem of_conjunction (h : Written Apart (Conjunction · · ns) query.toList) :
    ReadsTo query (Node.join .and ns) := by
  have hnormal : ∀ n ∈ Node.join .and ns, n.Normal fun _ => True := by
    obtain ⟨ks, -, hc⟩ := h
    exact Node.Normal.join (hc none (apart_of_lacks rfl)).isNormal .and
  have ha : Written Apart (Alternatives · · (Node.join .and ns).toList) query.toList := h.mono fun _ _ hc => .one hc
  have hread := of_alternatives ha
  rwa [Node.join_toList hnormal] at hread

theorem of_unary (h : Written Apart (Unary · · m) query.toList) : ReadsTo query m := by
  have hc : Written Apart (Conjunction · · m.toList) query.toList := h.mono fun _ _ hu => .one hu
  have hread := of_conjunction hc
  rwa [Node.join_toList h.isNormal] at hread

theorem parenthesized (h : ReadsTo query m) :
    Written Apart (fun ks next => Unary ks next m ∧ ks.head? = some .leftParen)
      (Node.parenthesized query.toList) := by
  obtain ⟨t, ht, hp, rfl⟩ := h
  obtain ⟨ts, hs, rfl⟩ := Tree.parse_eq_ok ht
  rcases Grammar.derivable_of_problems hp with hnil | ⟨ns, ha⟩
  · rw [hnil] at hs
    obtain rfl := List.map_eq_nil_iff.1 hnil
    have hnothing : Written Apart (fun ks _ => ks = []) query.toList :=
      ⟨[], ⟨hs, List.forall_mem_nil _⟩, fun _ _ => rfl⟩
    refine hnothing.in_parens fun ks next => ?_
    rintro rfl
    rw [Grammar.ofClauses_readAll, Grouping.runTokens_nil]
    exact ⟨.empty, rfl⟩
  · have hwritten : Written Apart (Alternatives · · ns) query.toList := ⟨_, ⟨hs, ha.isSound⟩, fun _ hn => ha.apart hn⟩
    rw [(ha.tree query _).2, Node.join_toList (Node.Normal.join ha.isNormal .or)]
    exact hwritten.in_parens fun _ _ ha => ⟨.group ha, rfl⟩

end ReadsTo

namespace Written

variable {m n : Option Node} {cs ds : List Char}

theorem and (h : Written Apart (Unary · · m) cs) (h' : Written Apart (Unary · · n) ds) :
    Written Apart (Conjunction · · (m.toList ++ n.toList)) (cs ++ (Junction.and.separator ++ ds)) := by
  obtain ⟨ks, hs, hm⟩ := h
  obtain ⟨us, hs', hn⟩ := h'
  refine ⟨_, hs.append (breaks_separator .and ds) (hs'.separator .and), fun next hnext => ?_⟩
  exact .and (.one (hm _ (apart_of_lacks rfl))) (hn next hnext)

theorem beside (h : Written Apart (Unary · · m) cs)
    (h' : Written Apart (fun us next => Unary us next n ∧ us.head? = some .leftParen) ds) :
    Written Apart (Conjunction · · (m.toList ++ n.toList)) (cs ++ ' ' :: ds) := by
  obtain ⟨ks, hs, hm⟩ := h
  obtain ⟨us, hs', hn⟩ := h'
  refine ⟨_, hs.append (Token.breaks_cons (by decide +kernel) ds) hs'.blank, fun next hnext => ?_⟩
  obtain ⟨hu, hhead⟩ := hn next hnext
  refine .beside (.one (hm _ ?_)) hu
  rw [hhead]
  exact ⟨fun k hk => by cases hk; exact ⟨nofun, rfl⟩, fun k hk => by cases hk; rfl⟩

theorem or (h : Written Apart (Unary · · m) cs) (h' : Written Apart (Unary · · n) ds) :
    Written Apart (Alternatives · · ((Node.join .and m.toList).toList ++ (Node.join .and n.toList).toList))
      (cs ++ (Junction.or.separator ++ ds)) := by
  obtain ⟨ks, hs, hm⟩ := h
  obtain ⟨us, hs', hn⟩ := h'
  refine ⟨_, hs.append (breaks_separator .or ds) (hs'.separator .or), fun next hnext => ?_⟩
  exact .or (.one (.one (hm _ (apart_of_lacks rfl)))) (.one (hn next hnext))

end Written

/-- Queries in parentheses are read to the nodes of the queries alone, joined or negated. -/
theorem readsTo_compositional {a b : String} {m n : Option Node} (ha : ReadsTo a m) (hb : ReadsTo b n) :
    ReadsTo ("(" ++ a ++ ") & (" ++ b ++ ")") (Node.join .and (m.toList ++ n.toList)) ∧
    ReadsTo ("(" ++ a ++ ") (" ++ b ++ ")") (Node.join .and (m.toList ++ n.toList)) ∧
    ReadsTo ("(" ++ a ++ ") | (" ++ b ++ ")") (Node.join .or (m.toList ++ n.toList)) ∧
    ReadsTo ("!(" ++ a ++ ")") (m.map Node.negate) := by
  have hm := ha.parenthesized.mono fun _ _ h => h.1
  have hn := hb.parenthesized.mono fun _ _ h => h.1
  refine ⟨.of_conjunction ?_, .of_conjunction ?_, ?_, .of_unary ?_⟩
  · have hand := hm.and hn
    simpa [Node.parenthesized, Junction.separator] using hand
  · have hbeside := hm.beside hb.parenthesized
    simpa [Node.parenthesized] using hbeside
  · have hor := hm.or hn
    rw [Node.join_toList hm.isNormal, Node.join_toList hn.isNormal] at hor
    refine .of_alternatives ?_
    simpa [Node.parenthesized, Junction.separator] using hor
  · have hnot : Written Apart (Unary · · (m.map Node.negate)) ('!' :: Node.parenthesized a.toList) :=
      hm.behind_not fun _ _ hu => .not hu
    simpa [Node.parenthesized] using hnot

theorem readsTo_compositional_range :
    ReadsTo "(p | words:9..) & (())" (some (.group .or false
      [.leaf (.term .content "p" .is), .leaf (.comparison .words .atLeast "9" none)])) ∧
    ReadsTo "!(p | words:9..)" (some (.group .or true
      [.leaf (.term .content "p" .is), .leaf (.comparison .words .atLeast "9" none)])) := by
  have ha : ReadsTo "p | words:9.." (some (.group .or false
      [.leaf (.term .content "p" .is), .leaf (.comparison .words .atLeast "9" none)])) :=
    ⟨⟨_, "p | words:9..", [], []⟩, by decide +kernel, rfl, rfl⟩
  have hb : ReadsTo "()" none := ⟨⟨none, "()", [], [.emptyGroup 0]⟩, by decide +kernel, rfl, rfl⟩
  obtain ⟨hand, -, -, hnot⟩ := readsTo_compositional ha hb
  exact ⟨hand, hnot⟩

end FilterQuery
