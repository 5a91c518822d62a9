import FilterQuery.Proofs.Canonical.Read
import FilterQuery.Proofs.Expansion.Answers
import FilterQuery.Proofs.Printing.RoundTrip

namespace FilterQuery

structure Node.KeptByReading (P : Node → Prop) : Prop where
  stable : Stable P
  term : ∀ {query cs n w}, Clause.ofQuery query = .ok cs → .term n w ∈ cs → P n
  reference : ∀ name, P (.reference name)
  expansion : ∀ {n} name site, P n → P (.expansion name site n)

/-- Trees that are read. -/
inductive Tree.IsParsed : Tree → Prop
  | alone {q : String} {t : Tree} : parse q = .ok t → IsParsed t
  | within {q : String} {t : Tree} : parseWith saved limit origin q = .ok t → IsParsed t

theorem Tree.ofClauses_of_parse {query : String} {t : Tree} (h : parse query = .ok t) :
    ∃ cs, Clause.ofQuery query = .ok cs ∧ t = ofClauses query cs := by
  unfold parse at h
  cases hcs : Clause.ofQuery query with
  | error o =>
    rw [hcs] at h
    cases h
  | ok cs =>
    rw [hcs] at h
    cases h
    exact ⟨cs, rfl, rfl⟩

namespace Node.KeptByReading

variable {P : Node → Prop} {saved : Stacks} {limit : Nat}

theorem answer (hP : KeptByReading P) {chain : List String} {raw : String} {r : Referral}
    (h : Answer saved limit (fun _ _ e => ∀ n ∈ e.root, P n) chain raw r) : P r.node := by
  cases h with
  | cycle | full | unknown => exact hP.reference raw
  | @expansion e _ _ he =>
    unfold Expansion.referral
    cases hroot : e.root with
    | none => exact hP.reference raw
    | some body => exact hP.expansion raw _ (he body hroot)

theorem answers (hP : KeptByReading P) {chain : List String} {names : List String} {rs : List Referral}
    (h : List.Forall₂ (Answer saved limit (fun _ _ e => ∀ n ∈ e.root, P n) chain) names rs) :
    ∀ r ∈ rs, P r.node := by
  induction h with
  | nil => exact List.forall_mem_nil _
  | cons hr _ ih => exact List.forall_mem_cons.2 ⟨hP.answer hr, ih⟩

theorem ofReferrals (hP : KeptByReading P) {query : String} {cs : List Clause} {rs : List Referral}
    (hcs : Clause.ofQuery query = .ok cs) (hrs : ∀ r ∈ rs, P r.node) :
    ∀ n ∈ (Tree.ofReferrals query cs rs).root, P n :=
  Tree.root_of_stable hP.stable (fun _ _ hn => hP.term hcs hn) hrs

theorem invariant (hP : KeptByReading P) (saved : Stacks) (limit : Nat) :
    Reading.Invariant saved limit (fun _ _ => True) fun _ _ e => ∀ n ∈ e.root, P n where
  descend _ _ _ _ := trivial
  expand _ _ _ hcs hrs _ := hP.ofReferrals hcs (hP.answers hrs)

theorem root (hP : KeptByReading P) {t : Tree} (h : t.IsParsed) : ∀ n ∈ t.root, P n := by
  cases h with
  | alone h =>
    obtain ⟨cs, hcs, rfl⟩ := Tree.ofClauses_of_parse h
    rw [Tree.ofClauses_eq_ofReferrals]
    exact hP.ofReferrals hcs (List.forall_mem_map.2 fun raw _ => hP.reference raw)
  | within h =>
    obtain ⟨cs, rs, hcs, hrs, rfl⟩ := answers_parseWith (hP.invariant _ _) trivial h
    exact hP.ofReferrals hcs (hP.answers hrs)

end Node.KeptByReading

namespace Node

mutual
/-- The tests in a node, also in what its references stand for. -/
def tests : Node → List Leaf
  | .leaf l => [l]
  | .reference _ => []
  | .expansion _ _ body => body.tests
  | .group _ _ ns => testsAll ns

def testsAll : List Node → List Leaf
  | [] => []
  | n :: ns => n.tests ++ testsAll ns
end

mutual
theorem map_fst_copies (negated : Bool) : ∀ n : Node, (n.copies negated).map Prod.fst = n.tests
  | .leaf _ | .reference _ => rfl
  | .expansion _ _ body => map_fst_copies negated body
  | .group _ flip ns => map_fst_allCopies (negated != flip) ns

theorem map_fst_allCopies (negated : Bool) : ∀ ns : List Node, (allCopies negated ns).map Prod.fst = testsAll ns
  | [] => rfl
  | n :: ns => by
    rw [allCopies, testsAll, List.map_append, map_fst_copies negated n, map_fst_allCopies negated ns]
end

mutual
theorem flatMap_tests_atoms : ∀ n : Node, n.atoms.flatMap tests = n.tests
  | .leaf _ | .reference _ | .expansion .. => List.flatMap_singleton ..
  | .group _ _ ns => by rw [atoms, tests, flatMap_tests_atomsAll ns]

theorem flatMap_tests_atomsAll : ∀ ns : List Node, (atomsAll ns).flatMap tests = testsAll ns
  | [] => rfl
  | n :: ns => by
    rw [atomsAll, testsAll, List.flatMap_append, flatMap_tests_atoms n, flatMap_tests_atomsAll ns]
end

variable {P : Leaf → Prop} {n : Node}

theorem forall_tests_iff : (∀ l ∈ n.tests, P l) ↔ ∀ a ∈ n.atoms, ∀ l ∈ a.tests, P l := by
  rw [← flatMap_tests_atoms]
  simp only [List.mem_flatMap, forall_exists_index, and_imp]
  exact ⟨fun h a ha l hl => h l a ha hl, fun h l a ha hl => h a ha l hl⟩

theorem OfLeaf.forall_tests (h : n.OfLeaf P) : ∀ l ∈ n.tests, P l := by
  cases n with
  | leaf l => exact List.forall_mem_singleton.2 h
  | reference name => exact List.forall_mem_nil P
  | expansion | group => exact h.elim

theorem keptByReading_tests (hterm : ∀ {s ks next n}, Grammar.Term s ks next n → (∀ k ∈ ks, k.IsLexed) →
    s ≠ some .neutral → ∀ a ∈ n.atoms, a.OfLeaf P) : KeptByReading fun n => ∀ l ∈ n.tests, P l where
  stable := stable_of_atoms fun _ => forall_tests_iff
  term hcs hn := by
    obtain ⟨ts, hts, rfl⟩ := Clause.ofQuery_eq_ok hcs
    have hlexed := (Token.scans_of_scanFrom hts).isLexed
    obtain ⟨s, ks, next, h, hks, hs⟩ := Clause.exists_term_of_mem_readAll (List.forall_mem_map.1 hlexed) hn
    exact forall_tests_iff.2 fun a ha => (hterm h hks hs a ha).forall_tests
  reference _ := List.forall_mem_nil _
  expansion _ _ h := h

end Node

namespace Tree

variable {t : Tree}

theorem IsParsed.isRead (h : t.IsParsed) : ∀ n ∈ t.root, ∀ x ∈ n.copies false, x.1.IsRead := by
  intro n hn x hx
  have hkept := Node.keptByReading_tests fun h hks _ => h.isRead hks
  refine hkept.root h n hn x.1 ?_
  rw [← Node.map_fst_copies false]
  exact List.mem_map_of_mem hx

theorem shared_of_parse {query : String} (h : parse query = .ok t) : ∀ n ∈ t.root, n.shared = [] := by
  obtain ⟨ts, -, rfl⟩ := parse_eq_ok h
  have hstable : Node.Stable fun n => n.shared = [] :=
    Node.stable_of_atoms fun n => by rw [← Node.flatMap_shared_atoms, List.flatMap_eq_nil_iff]
  rw [ofClauses_eq_ofReferrals]
  exact root_of_stable hstable (fun _ _ hn => Clause.shared_of_mem_readAll hn)
    (List.forall_mem_map.2 fun _ _ => rfl)

theorem IsParsed.exists_backed (h : t.IsParsed) : ∃ memory, ∀ n ∈ t.root, n.Backed memory := by
  cases h with
  | alone h =>
    refine ⟨fun site => .reference site.stack, fun n hn x hx => ?_⟩
    rw [shared_of_parse h n hn] at hx
    cases hx
  | within h => exact exists_backed_of_parseWith h

end Tree

end FilterQuery
