import FilterQuery.Proofs.Assembly
import FilterQuery.Proofs.Editing
import FilterQuery.Proofs.Printing.Leaves
import FilterQuery.Proofs.References

namespace FilterQuery

open Grammar (IsSound)
open Token (Breaks Kind Scans)

theorem Token.Kind.IsLexed.ne_neutral {s : Stance} (h : (Kind.stance s).IsLexed) : s ≠ .neutral := by
  rintro rfl
  exact h.ne.2 rfl

namespace Clause

variable {stop : Nat} {t : Token} {ts : List Token} {c : Clause}

theorem exists_read_of_mem_readAll (h : c ∈ readAll stop ts) :
    ∃ t us, t :: us <:+ ts ∧ (read stop t us).1 = c := by
  fun_induction readAll stop ts with
  | case1 => cases h
  | case2 t ts ih =>
    rcases List.mem_cons.1 h with rfl | h
    · exact ⟨t, ts, List.suffix_rfl, rfl⟩
    · obtain ⟨u, us, hsuffix, hread⟩ := ih h
      exact ⟨u, us, hsuffix.trans ((read_suffix stop t ts).trans (List.suffix_cons t ts)), hread⟩

theorem exists_term_of_read {n : Node} {w : Option Warning} (h : (read stop t ts).1 = .term n w) :
    ∃ (s : Option Stance) (us : List Token) (next : Option Kind), us <:+: t :: ts ∧
      Grammar.Term s (us.map (·.kind)) next n ∧ ∀ s', s = some s' → t.kind = .stance s' := by
  rcases hread : read stop t ts with ⟨c, rest⟩
  rw [hread] at h
  obtain rfl : c = .term n w := h
  unfold read at hread
  split at hread
  case h_8 s hs =>
    split at hread
    · next u us =>
      split at hread
      · obtain ⟨vs, rfl, hterm⟩ := Grammar.readTerm_eq_term hread
        have hwithin : u :: vs <:+: t :: u :: (vs ++ rest) := ⟨[t], rest, by simp⟩
        refine ⟨some s, u :: vs, _, hwithin, hterm, ?_⟩
        rintro _ ⟨⟩
        exact hs
      · cases hread
    · cases hread
  case h_11 =>
    obtain ⟨vs, rfl, hterm⟩ := Grammar.readTerm_eq_term hread
    exact ⟨none, t :: vs, _, ⟨[], rest, rfl⟩, hterm, nofun⟩
  all_goals cases hread

theorem exists_term_of_mem_readAll {n : Node} {w : Option Warning} (hlexed : ∀ t ∈ ts, t.kind.IsLexed)
    (h : .term n w ∈ readAll stop ts) :
    ∃ s ks next, Grammar.Term s ks next n ∧ (∀ k ∈ ks, k.IsLexed) ∧ s ≠ some .neutral := by
  obtain ⟨t, us, hsuffix, hread⟩ := exists_read_of_mem_readAll h
  obtain ⟨s, vs, next, hwithin, hterm, hsign⟩ := exists_term_of_read hread
  refine ⟨s, _, next, hterm, List.forall_mem_map.2 fun v hv => hlexed v ?_, ?_⟩
  · exact hsuffix.subset (hwithin.subset hv)
  · rintro rfl
    have hneutral := hlexed t (hsuffix.subset List.mem_cons_self)
    rw [hsign _ rfl] at hneutral
    exact hneutral.ne_neutral rfl

end Clause

namespace Node

/-- Every field that a node names is a word. -/
def NamesWords (n : Node) : Prop := ∀ l, .leaf l ∈ n.atoms → Leaf.FieldIsWord l.field

structure IsLegible (n : Node) : Prop where
  origin : n.From Kind.IsLexed
  readsAlone : n.NamesWords → n.ReadsAlone

variable {P Q : Node → Prop} {n : Node}

theorem Normal.forall_atoms (h : n.Normal P) : ∀ a ∈ n.atoms, P a := by
  induction h with
  | atom hn h =>
    rw [atoms_of_isGroup hn, List.forall_mem_singleton]
    exact h
  | group _ _ _ ih =>
    intro a ha
    rw [atoms_group, List.mem_flatMap] at ha
    obtain ⟨n, hn, ha⟩ := ha
    exact ih n hn a ha

theorem Normal.imp (h : n.Normal P) (hpq : ∀ a ∈ n.atoms, P a → Q a) : n.Normal Q := by
  induction h with
  | atom hn h =>
    rw [atoms_of_isGroup hn, List.forall_mem_singleton] at hpq
    exact .atom hn (hpq h)
  | group _ hs hl ih =>
    refine .group (fun n hn => ih n hn fun a ha => hpq a ?_) hs hl
    rw [atoms_group]
    exact List.mem_flatMap.2 ⟨n, hn, ha⟩

theorem stable_normal (P : Node → Prop) : Stable (Normal P) :=
  ⟨fun _ h => h.negate, fun j _ h => Normal.join h j⟩

theorem Normal.printable (h : n.Normal IsLegible) (hn : n.NamesWords) : n.Printable := by
  refine normal_readsAlone_iff.1 (h.imp fun a ha hlegible => hlegible.readsAlone fun l hl => hn l ?_)
  cases a with
  | leaf m =>
    obtain rfl := Node.leaf.inj (List.mem_singleton.1 hl)
    exact ha
  | group => exact hlegible.origin.elim
  | _ => cases List.mem_singleton.1 hl

theorem scans_reference {name : String} (h : (Kind.reference name).IsLexed) :
    Scans (reference name).text [.reference name] := by
  have htail : ∀ c, ([] : List Char).head? = some c → Token.isNameChar c = false := by rintro c ⟨⟩
  have hscans := Scans.reference h.isName htail .nil
  rwa [List.append_nil, String.ofList_toList] at hscans

theorem isLegible_reference {name : String} (h : (Kind.reference name).IsLexed) : (reference name).IsLegible :=
  ⟨h, fun _ => readsAlone_of_unary rfl (scans_reference h) .reference⟩

end Node

theorem Grammar.Term.normal {s : Option Stance} {ks : List Kind} {next : Option Kind} {n : Node}
    (h : Term s ks next n) (hks : ∀ k ∈ ks, k.IsLexed) (hs : s ≠ some .neutral) : n.Normal Node.IsLegible := by
  obtain ⟨l, hl⟩ := h.exists_leaf
  have hatoms : n.atoms = [.leaf l] := by
    rcases hl with rfl | rfl
    · rfl
    · exact Node.atoms_negate _
  have hmem : .leaf l ∈ n.atoms := hatoms ▸ List.mem_singleton_self _
  have hleaf : (Node.leaf l).IsLegible := ⟨h.from hks _ hmem, fun hn =>
    h.readsAlone hks hs hmem (hn l (List.mem_singleton_self _))⟩
  rcases hl with rfl | rfl
  · exact .atom rfl hleaf
  · exact (Node.Normal.atom rfl hleaf).negate

namespace Tree

variable {query : String} {t : Tree}

theorem normal_ofReferrals {P : Node → Prop} {cs : List Clause} {rs : List Referral}
    (hcs : ∀ n w, .term n w ∈ cs → n.Normal P) (hrs : ∀ r ∈ rs, r.node.Normal P) :
    ∀ n ∈ (ofReferrals query cs rs).root, n.Normal P := root_of_stable (Node.stable_normal P) hcs hrs

theorem ofClauses_eq_ofReferrals (query : String) (cs : List Clause) :
    ofClauses query cs = ofReferrals query cs ((Grouping.references cs).map unresolved) := by
  have hreferrals : (Grouping.references cs).mapM (m := Id) unresolved = (Grouping.references cs).map unresolved :=
    List.mapM_pure
  have hrun := Grouping.run_eq_fill (m := Id) unresolved .start cs
  rw [hreferrals] at hrun
  exact congrArg (Grouping.tree · query) hrun

theorem normal_of_parse (h : parse query = .ok t) : ∀ n ∈ t.root, n.Normal Node.IsLegible := by
  obtain ⟨ts, hs, rfl⟩ := parse_eq_ok h
  have hlexed : ∀ t ∈ ts, t.kind.IsLexed := fun t ht => hs.isLexed _ (List.mem_map_of_mem ht)
  rw [ofClauses_eq_ofReferrals]
  refine normal_ofReferrals (fun n w hm => ?_) (List.forall_mem_map.2 fun raw hm => ?_)
  · obtain ⟨s, ks, next, hterm, hks, hsign⟩ := Clause.exists_term_of_mem_readAll hlexed hm
    exact hterm.normal hks hsign
  · obtain ⟨u, hu, hk⟩ := Clause.exists_token_of_mem_references hm
    exact .atom rfl (Node.isLegible_reference (hk ▸ hlexed u hu))

end Tree

def Shows (cs : List Char) (Q : Prop) : Prop :=
  ∀ ⦃tail : List Char⦄ ⦃ks : List Kind⦄, Breaks tail → Spells (cs ++ tail) ks → Q ∧ ∃ ls, Spells tail ls

namespace Shows

variable {cs ds : List Char} {Q R : Prop}

theorem nil (h : Q) : Shows [] Q := fun _ ks _ hs => ⟨h, ks, hs⟩

theorem of_nil (h : Shows [] Q) : Q := (@h [] [] Token.breaks_nil ⟨.nil, List.forall_mem_nil _⟩).1

theorem imp (h : Shows cs Q) (hqr : Q → R) : Shows cs R := fun _ _ hb hs => (h hb hs).imp_left hqr

theorem append (h : Shows cs Q) (h' : Shows ds R) (hd : ∀ tail, Breaks tail → Breaks (ds ++ tail)) :
    Shows (cs ++ ds) (Q ∧ R) := by
  intro tail ks hb hs
  rw [List.append_assoc] at hs
  obtain ⟨hq, ls, hls⟩ := h (hd tail hb) hs
  obtain ⟨hr, htail⟩ := h' hb hls
  exact ⟨⟨hq, hr⟩, htail⟩

theorem blank (h : Shows cs Q) : Shows (' ' :: cs) Q := by
  rintro tail ks hb ⟨hs, hks⟩
  cases hs with
  | blank _ hs => exact h hb ⟨hs, hks⟩
  | token hblank => exact absurd hblank (by decide +kernel)

theorem sign {c : Char} {k : Kind} (hc : Text.isBlank c = false) (hone : ∀ rest, Token.scanOne c rest = .ok (k, rest))
    (h : Shows cs Q) : Shows (c :: cs) Q := by
  rintro tail ks hb ⟨hs, hks⟩
  obtain ⟨ls, rfl, hls⟩ := hs.token_inv hc (hone _)
  exact h hb ⟨hls, fun l hl => hks l (List.mem_cons_of_mem k hl)⟩

theorem of_spells {ls : List Kind} (h : Spells cs ls) : Shows cs True := by
  rintro tail ks hb ⟨hs, hks⟩
  obtain ⟨us, rfl, hus⟩ := h.scans.append_inv h.isOpen hb hs
  exact ⟨trivial, us, hus, fun u hu => hks u (List.mem_append_right ls hu)⟩

theorem separator (j : Junction) (h : Shows cs Q) : Shows (j.separator ++ cs) Q := by
  cases j <;> exact .blank (.sign (by decide +kernel) (fun _ => rfl) h.blank)

theorem parenthesized (h : Shows cs Q) : Shows (Node.parenthesized cs) Q := by
  have hclose : Shows [')'] True := .sign (by decide +kernel) (fun _ => rfl) (.nil trivial)
  have hbreak : ∀ tail, Breaks tail → Breaks ([')'] ++ tail) := fun tail _ =>
    Token.breaks_cons (by decide +kernel) tail
  exact .sign (by decide +kernel) (fun _ => rfl) ((h.append hclose hbreak).imp And.left)

theorem not (h : Shows cs Q) : Shows ('!' :: cs) Q := .sign (by decide +kernel) (fun _ => rfl) h

theorem groupText {j : Junction} {negated : Bool} {ns : List Node} {texts : List (List Char)}
    (h : Shows (j.separator.intercalate texts) Q) : Shows (Node.groupText j negated ns texts) Q := by
  unfold Node.groupText
  split
  · exact h
  · next t =>
    rw [List.intercalate_singleton] at h
    split
    · exact h.parenthesized.not
    · exact h.not
  · exact h.parenthesized.not
  · exact h

end Shows

namespace Leaf

theorem isSound_kinds (l : Leaf) : ∀ k ∈ l.kinds, IsSound k := by
  have hclassify : ∀ w f, Token.classify w ≠ .flawed f := fun _ _ => Token.classify_ne rfl
  have hvalue : ∀ v f, Text.valueKind v ≠ .flawed f := by
    intro v f
    unfold Text.valueKind
    split
    · exact hclassify v f
    · simp
  cases l with
  | term c v s =>
    change ∀ k ∈ termKinds c v.toList s, IsSound k
    unfold termKinds
    repeat' split
    all_goals simp [IsSound, hclassify, hvalue]
  | regex | phrase | wildcard =>
    exact List.forall_mem_append.2 ⟨isSound_of_mem_fieldKinds, List.forall_mem_singleton.2 (by simp [IsSound])⟩
  | comparison c op v upper =>
    cases op with
    | within => cases upper <;> simp [kinds, IsSound, hclassify]
    | _ => simp [kinds, IsSound, hclassify]

theorem shows_field {l : Leaf} (hf : l.From Kind.IsLexed) : Shows l.text (FieldIsWord l.field) := by
  intro tail ks hb hs
  have hfield := namesWord_of_scans hf hs.scans hs.sound
  exact ⟨hfield, (Shows.of_spells ⟨scans (isSpelled hf hfield), isSound_kinds l⟩ hb hs).2⟩

end Leaf

namespace Node

theorem shows_childTexts_cons {j : Junction} {n : Node} {ns : List Node} {Q R : Prop} (h : Shows n.text Q)
    (h' : Shows (j.separator.intercalate (childTexts j ns)) R) :
    Shows (j.separator.intercalate (childTexts j (n :: ns))) (Q ∧ R) := by
  have hchild : Shows (childText j n) Q := by
    unfold childText
    split
    · exact h.parenthesized
    · exact h
  change Shows (j.separator.intercalate
    (if (childText j n).isEmpty then childTexts j ns else childText j n :: childTexts j ns)) (Q ∧ R)
  split
  · next hempty =>
    rw [List.isEmpty_iff.1 hempty] at hchild
    exact h'.imp fun hr => ⟨hchild.of_nil, hr⟩
  · cases hrest : childTexts j ns with
    | nil =>
      rw [hrest] at h'
      rw [List.intercalate_singleton]
      exact hchild.imp fun hq => ⟨hq, h'.of_nil⟩
    | cons t ts =>
      rw [hrest] at h'
      rw [List.intercalate_cons_cons, List.append_assoc]
      refine hchild.append (h'.separator j) fun tail _ => ?_
      rw [List.append_assoc]
      exact breaks_separator j _

mutual
theorem shows_namesWords : ∀ n : Node, (∀ a ∈ n.atoms, a.From Kind.IsLexed) → Shows n.text n.NamesWords
  | leaf l, h => by
    refine (Leaf.shows_field (h _ (List.mem_singleton_self _))).imp fun hf m hm => ?_
    obtain rfl := Node.leaf.inj (List.mem_singleton.1 hm)
    exact hf
  | reference name, h => by
    have hscans := scans_reference (h _ (List.mem_singleton_self _))
    refine (Shows.of_spells ⟨hscans, List.forall_mem_singleton.2 nofun⟩).imp fun _ l hl => ?_
    cases List.mem_singleton.1 hl
  | expansion _ _ _, h => (h _ (List.mem_singleton_self _)).elim
  | group _ _ ns, h => (shows_allNameWords _ ns h).groupText

theorem shows_allNameWords (j : Junction) : ∀ ns : List Node, (∀ a ∈ atomsAll ns, a.From Kind.IsLexed) →
    Shows (j.separator.intercalate (childTexts j ns)) (∀ l, .leaf l ∈ atomsAll ns → Leaf.FieldIsWord l.field)
  | [], _ => .nil nofun
  | n :: ns, h => by
    obtain ⟨hn, hns⟩ := List.forall_mem_append.1 h
    refine (shows_childTexts_cons (shows_namesWords n hn) (shows_allNameWords j ns hns)).imp ?_
    rintro ⟨hword, hwords⟩ l hl
    rcases List.mem_append.1 hl with hl | hl
    · exact hword l hl
    · exact hwords l hl
end

end Node

namespace Tree

variable {query : String} {t : Tree}

/-- The canonical query of the tree of any query is read back to the tree just in case each field that the tree names
is a word, as what names it in lower case may not be. -/
theorem parse_toQuery_iff_namesWords (parsed : parse query = .ok t) :
    (∃ t', parse t.toQuery = .ok t' ∧ t'.problems = [] ∧ t'.root = t.root) ↔ ∀ n ∈ t.root, n.NamesWords := by
  have hnormal := normal_of_parse parsed
  constructor
  · rintro ⟨t', ht', hp, -⟩ n hn
    have hquery : t.toQuery.toList = n.text := by
      rw [toQuery, hn]
      exact String.toList_ofList
    obtain ⟨ts, hs, rfl⟩ := parse_eq_ok ht'
    rw [hquery] at hs
    have hsound : ∀ k ∈ ts.map (·.kind), IsSound k := by
      rcases Grammar.derivable_of_problems hp with hnil | ⟨ns, h⟩
      · rw [hnil]
        exact List.forall_mem_nil _
      · exact h.isSound
    have hshows := n.shows_namesWords fun a ha => ((hnormal n hn).forall_atoms a ha).origin
    exact (@hshows [] _ Token.breaks_nil ⟨(List.append_nil n.text).symm ▸ hs, hsound⟩).1
  · intro h
    exact (readsBack_withRoot t fun n hn => (hnormal n hn).printable (h n hn)).reads

theorem parse_toQuery_iff_namesWords_broken :
    ∃ t, parse "Title:\"a b\" | !(-x words:>" = .ok t ∧
      ((∃ t', parse t.toQuery = .ok t' ∧ t'.problems = [] ∧ t'.root = t.root) ↔ ∀ n ∈ t.root, n.NamesWords) := by
  have hread : (parse "Title:\"a b\" | !(-x words:>").toOption.isSome = true := by decide +kernel
  cases ht : parse "Title:\"a b\" | !(-x words:>" with
  | error o =>
    rw [ht] at hread
    cases hread
  | ok t => exact ⟨t, rfl, parse_toQuery_iff_namesWords ht⟩

theorem root_of_toQuery_dotted :
    (do let t ← parse "\u0130x:\"abc\""
        let t' ← parse t.toQuery
        return (t.problems.isEmpty, t.toQuery, t'.problems.isEmpty, decide (t'.root = t.root)))
      = .ok (true, "i\u0307x:\"abc\"", false, false) := by
  decide +kernel

end Tree

end FilterQuery
