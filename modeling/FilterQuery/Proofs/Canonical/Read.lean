import FilterQuery.Proofs.Canonical
import FilterQuery.Proofs.LowerCase.Names
import FilterQuery.Proofs.Values
import FilterQuery.Proofs.Walk

namespace FilterQuery

open Calendar (Period)
open Grammar (IsRegex IsValue Term)
open Token (Kind)

def IsReadValue (c : Category) (v : String) : Prop := ∃ k : Kind, k.IsLexed ∧ IsValue c k v

def Leaf.IsRead : Leaf → Prop
  | .term c v _ => (c.foldsCase = true → Text.lower v = v) ∧ (c = .date → IsReadValue .date v)
  | .phrase .. => True
  | .regex p f field => (Kind.regex p f).IsLexed ∧ IsRegex p f ∧ ∀ g, field = some g → ∃ w, (Kind.word w).IsLexed ∧
      Clause.comparable? w = none ∧ Category.ofName? w ≠ some .content ∧ g = Text.lower w
  | .wildcard p _ => (Kind.wildcard p).IsLexed
  | .comparison c _ v upper => IsReadValue c v ∧ ∀ u, upper = some u → IsReadValue c u

def Node.OfLeaf (P : Leaf → Prop) : Node → Prop
  | .leaf l => P l
  | .reference _ => True
  | _ => False

namespace Grammar

variable {s : Option Stance} {ks : List Kind} {next : Option Kind} {n : Node}

theorem ofLeaf_of_signed? {P : Leaf → Prop} {l : Leaf} (h : signed? s l = some n) (hl : P l) :
    ∀ a ∈ n.atoms, a.OfLeaf P := by
  intro a ha
  rw [atoms_of_signed? h, List.mem_singleton] at ha
  rw [ha]
  exact hl

theorem isRead_categoryTerm {c : Category} (hc : c ≠ .date) (v : String) (s : Option Stance) :
    ∀ a ∈ (categoryTerm c v s).atoms, a.OfLeaf Leaf.IsRead := by
  intro a ha
  rw [List.mem_singleton.1 ha]
  refine ⟨fun hf => ?_, fun h => absurd h hc⟩
  rw [if_pos hf, Text.lower_lower]

theorem ne_date_of_comparable? {w : String} {c : Category} (h : Clause.comparable? w = none)
    (hc : Category.ofName? w = some c) : c ≠ .date := by
  rintro rfl
  simp [Clause.comparable?, hc, Category.isComparable] at h

theorem eq_lower_of_fieldOf {w g : String} (h : Clause.fieldOf w = some g) :
    Category.ofName? w ≠ some .content ∧ g = Text.lower w := by
  unfold Clause.fieldOf at h
  split at h
  · cases h
  · next hne => exact ⟨hne, (Option.some.inj h).symm⟩

theorem Term.isRead (h : Term s ks next n) (hks : ∀ k ∈ ks, k.IsLexed) : ∀ a ∈ n.atoms, a.OfLeaf Leaf.IsRead := by
  have hcontent : ∀ v, ∀ a ∈ (content v s).atoms, a.OfLeaf Leaf.IsRead := by
    intro v a ha
    rw [List.mem_singleton.1 ha]
    exact ⟨nofun, nofun⟩
  have hvalue : ∀ {k c v}, k ∈ ks → IsValue c k v → IsReadValue c v := fun hk hv => ⟨_, hks _ hk, hv⟩
  cases h with
  | word _ | number | date => exact hcontent _
  | phrase =>
    intro a ha
    rw [List.mem_singleton.1 ha]
    split
    · trivial
    · exact ⟨nofun, nofun⟩
  | regex hr h => exact ofLeaf_of_signed? h ⟨hks _ (by simp), hr, nofun⟩
  | wildcard h => exact ofLeaf_of_signed? h (hks _ (by simp))
  | named hw _ =>
    unfold namedValue
    split
    · next c hc => exact isRead_categoryTerm (ne_date_of_comparable? hw hc) _ s
    · exact hcontent _
  | quoted hw hc => exact isRead_categoryTerm (ne_date_of_comparable? hw hc) _ s
  | fieldPhrase _ h => exact ofLeaf_of_signed? h trivial
  | @fieldRegex w p f _ _ hw hr h =>
    refine ofLeaf_of_signed? h ⟨hks _ (by simp), hr, fun g hg => ?_⟩
    exact ⟨w, hks _ (by simp), hw, eq_lower_of_fieldOf hg⟩
  | fieldWildcard _ h => exact ofLeaf_of_signed? h (hks _ (by simp))
  | compared _ _ hv h | comparedBare _ _ hv h | upTo _ hv h | upFrom _ hv _ h | equal _ _ hv h =>
    exact ofLeaf_of_signed? h ⟨hvalue (by simp) hv, nofun⟩
  | range _ hv _ hu h =>
    refine ofLeaf_of_signed? h ⟨hvalue (by simp) hv, fun u heq => ?_⟩
    cases heq
    exact hvalue (by simp) hu
  | period _ hv =>
    intro a ha
    rw [List.mem_singleton.1 ha]
    exact ⟨nofun, fun _ => hvalue (by simp) hv⟩

theorem lifts_isRead : Lifts Kind.IsLexed (Node.OfLeaf Leaf.IsRead) := ⟨Term.isRead, fun _ _ => trivial⟩

end Grammar

namespace Node

variable {P : Leaf → Prop}

mutual
theorem forall_copies : ∀ (n : Node) (negated : Bool), (∀ a ∈ n.atoms, a.OfLeaf P) →
    ∀ x ∈ n.copies negated, P x.1
  | leaf l, negated, h, x, hx => by
    rw [copies, List.mem_singleton] at hx
    rw [hx]
    exact h (leaf l) (List.mem_singleton_self _)
  | reference _, _, _, x, hx => absurd hx List.not_mem_nil
  | expansion name site body, _, h, _, _ => (h (expansion name site body) (List.mem_singleton_self _)).elim
  | group _ _ ns, _, h, x, hx => forall_allCopies ns _ h x hx

theorem forall_allCopies : ∀ (ns : List Node) (negated : Bool), (∀ a ∈ atomsAll ns, a.OfLeaf P) →
    ∀ x ∈ allCopies negated ns, P x.1
  | [], _, _, x, hx => absurd hx List.not_mem_nil
  | n :: ns, negated, h, x, hx => by
    rw [allCopies, List.mem_append] at hx
    rw [atomsAll] at h
    rcases hx with hx | hx
    · exact forall_copies n negated (fun a ha => h a (List.mem_append_left _ ha)) x hx
    · exact forall_allCopies ns negated (fun a ha => h a (List.mem_append_right _ ha)) x hx
end

end Node

theorem Tree.isRead_of_parse {query : String} {t : Tree} (h : Tree.parse query = .ok t) (hp : t.problems = []) :
    ∀ x ∈ (t.root.map Node.leaves).getD [], x.1.IsRead := by
  obtain ⟨ts, hs, rfl⟩ := Tree.parse_eq_ok h
  intro x hx
  cases hr : (Tree.ofClauses query (Clause.readAll query.length ts)).root with
  | none =>
    rw [hr] at hx
    cases hx
  | some n =>
    rw [hr, Option.map_some, Option.getD_some] at hx
    rcases Grammar.derivable_of_problems hp with hnil | ⟨ns, ha⟩
    · rw [List.map_eq_nil_iff.1 hnil, Grammar.ofClauses_readAll, Grouping.runTokens_nil] at hr
      cases hr
    · have hatoms := ha.forall_atoms Grammar.lifts_isRead hs.isLexed
      rw [ha.atoms_of_root hr] at hatoms
      exact Node.forall_copies n false hatoms x ((Node.leavesFrom_sublist false [] n).subset hx)

namespace IsReadValue

variable {c : Category} {v : String}

theorem isWord (h : IsReadValue c v) : Token.IsWord v.toList := by
  obtain ⟨k, hk, hv⟩ := h
  exact (hk.isWord (wordText?_of_bareValue? hv.1)).1

theorem dates {p : Period} (h : IsReadValue .date v) (hp : Period.read? v.toList = some p) :
    (Number.fitsInt p.first = true ∧ Compiled.IsWritable (·.first) p.first) ∧
      (Number.fitsInt p.last = true ∧ Compiled.IsWritable (·.last) p.last) :=
  Compiled.isWritable_of_read? h.isWord hp

theorem isNumber (h : IsReadValue c v) (hc : c = .quality ∨ c = .sim) : Token.isNumber v.toList = true := by
  obtain ⟨k, hk, hv⟩ := h
  obtain ⟨-, heq⟩ := hk.isWord (wordText?_of_bareValue? hv.1)
  have hkind : Clause.isNumberKind k = true := by rcases hc with rfl | rfl <;> exact hv.2.1
  rw [heq] at hkind
  unfold Token.classify at hkind
  dsimp only at hkind
  split at hkind
  · cases hkind
  · split at hkind
    · assumption
    · split at hkind <;> cases hkind

end IsReadValue

namespace SignedLeaf

variable {x : SignedLeaf} {c : Category}

theorem term?_eq_some {s : Stance} {v : String} (h : term? c s x = some v) : ∃ t, x.1 = .term c v t := by
  unfold term? at h
  split at h
  · rw [Option.ite_none_right_eq_some, Option.some_inj] at h
    obtain ⟨⟨rfl, -⟩, rfl⟩ := h
    exact ⟨_, rfl⟩
  · cases h

theorem regex?_eq_some {r : RegexTest} (h : regex? x = some r) : x.1 = .regex r.pattern r.flags r.field := by
  unfold regex? at h
  split at h
  · cases h
    rfl
  · cases h

theorem wildcard?_eq_some {p : String} (h : wildcard? x = some p) : ∃ field, x.1 = .wildcard p field := by
  unfold wildcard? at h
  split at h
  · cases h
    exact ⟨_, rfl⟩
  · cases h

theorem comparison?_eq_some {op : Comparator} {v : String} {upper : Option String}
    (h : comparison? c x = some (op, v, upper)) : ∃ k, x.1 = .comparison c k v upper := by
  unfold comparison? at h
  split at h
  · rw [Option.ite_none_right_eq_some] at h
    obtain ⟨rfl, h⟩ := h
    obtain ⟨k, -, heq⟩ := Option.map_eq_some_iff.1 h
    cases heq
    exact ⟨_, rfl⟩
  · cases h

end SignedLeaf

namespace Bounds

variable {α : Type} {pick greater lesser : α → α → α}

theorem tighter_eq_some (hpick : ∀ a b, pick a b = a ∨ pick a b = b) {x y : Option α} {a : α}
    (h : tighter pick x y = some a) : x = some a ∨ y = some a := by
  cases x with
  | none => exact .inr h
  | some b =>
    cases y with
    | none => exact .inl h
    | some c =>
      rw [tighter, Option.some_inj] at h
      rw [Option.some_inj, Option.some_inj, ← h]
      exact (hpick b c).imp Eq.symm Eq.symm

theorem isSome_tighter (pick : α → α → α) {x y : Option α} (h : x.isSome = true) :
    (tighter pick x y).isSome = true := by
  cases x with
  | none => cases h
  | some => cases y <;> rfl

end Bounds

theorem Double.greater_eq (x y : Double) : x.greater y = x ∨ x.greater y = y := by
  unfold Double.greater
  split_ifs <;> simp

theorem Double.lesser_eq (x y : Double) : x.lesser y = x ∨ x.lesser y = y := by
  unfold Double.lesser
  split_ifs <;> simp

namespace Compiled

section

variable {α : Type} {greater lesser : α → α → α}

theorem meetAll?_of_meet {P : Bounds α → Prop} (hmeet : ∀ x y, P x → P y → P (Bounds.meet greater lesser x y))
    {bs : List (Bounds α)} (hbs : ∀ b ∈ bs, P b) {r : Bounds α} (h : meetAll? greater lesser bs = some r) : P r := by
  cases bs with
  | nil => cases h
  | cons b bs =>
    cases h
    obtain ⟨hb, hbs⟩ := List.forall_mem_cons.1 hbs
    clear * - hb hbs hmeet
    induction bs generalizing b with
    | nil => exact hb
    | cons c bs ih =>
      obtain ⟨hc, hbs⟩ := List.forall_mem_cons.1 hbs
      exact ih _ (hmeet b c hb hc) hbs

theorem allBounds_all {p : α → Prop} : AllBounds p .all := ⟨nofun, nofun⟩

theorem AllBounds.meet {p : α → Prop} (hg : ∀ a b, greater a b = a ∨ greater a b = b)
    (hl : ∀ a b, lesser a b = a ∨ lesser a b = b) {x y : Bounds α} (hx : AllBounds p x) (hy : AllBounds p y) :
    AllBounds p (Bounds.meet greater lesser x y) :=
  ⟨fun a ha => (Bounds.tighter_eq_some hg ha).elim (hx.1 a) (hy.1 a),
    fun a ha => (Bounds.tighter_eq_some hl ha).elim (hx.2 a) (hy.2 a)⟩

theorem AreDates.meet {x y : Bounds Int} (hx : AreDates x) (hy : AreDates y) :
    AreDates (Bounds.meet max min x y) where
  bounded := hx.bounded.imp (Bounds.isSome_tighter max) (Bounds.isSome_tighter min)
  least n hn := (Bounds.tighter_eq_some max_choice hn).elim (hx.least n) (hy.least n)
  greatest n hn := (Bounds.tighter_eq_some min_choice hn).elim (hx.greatest n) (hy.greatest n)

end

structure IsRead (c : Compiled) : Prop where
  sources : AreNames c.sources
  excludedSources : AreNames c.excludedSources
  spanningSources : AreNames c.spanningSources
  uncategorizedSources : AreNames c.uncategorizedSources
  formats : AreNames c.formats
  excludedFormats : AreNames c.excludedFormats
  excludedTerms : c.excludedTerms.Nodup
  regexes : c.regexes.Nodup ∧ ∀ r ∈ c.regexes, (Leaf.regex r.pattern r.flags r.field).IsRead
  phrases : c.phrases.Nodup
  wildcards : c.wildcards.Nodup ∧ ∀ p ∈ c.wildcards, (Kind.wildcard p).IsLexed
  tags : AreNames c.tags
  excludedTags : AreNames c.excludedTags
  dates : ∀ b, c.dates = some b → AreDates b
  words : AllBounds (· < Number.wordLimit) c.words
  quality : AllBounds Double.IsUnsigned c.quality
  similarity : AllBounds Double.IsUnsigned c.similarity

section

variable {ls : List SignedLeaf} (hls : ∀ x ∈ ls, x.1.IsRead)

include hls

theorem areNames_terms {c : Category} (hc : c.foldsCase = true) (s : Stance) :
    AreNames (ls.filterMap (SignedLeaf.term? c s)).eraseDups := by
  refine ⟨nodup_eraseDups _, fun v hv => ?_⟩
  obtain ⟨x, hx, hv⟩ := List.mem_filterMap.1 (List.mem_eraseDups.1 hv)
  obtain ⟨t, ht⟩ := SignedLeaf.term?_eq_some hv
  have hread := hls x hx
  rw [ht] at hread
  exact hread.1 hc

theorem areDates_of_dates? {x : SignedLeaf} (hx : x ∈ ls) {b : Bounds Int} (h : SignedLeaf.dates? x = some b) :
    AreDates b := by
  have hread := hls x hx
  unfold SignedLeaf.dates? at h
  split at h
  · next v hv =>
    obtain ⟨t, ht⟩ := SignedLeaf.term?_eq_some hv
    rw [ht] at hread
    obtain ⟨p, hp, rfl⟩ := Option.map_eq_some_iff.1 h
    obtain ⟨hfirst, hlast⟩ := (hread.2 rfl).dates hp
    exact ⟨.inl rfl, by rintro n ⟨⟩; exact hfirst, by rintro n ⟨⟩; exact hlast⟩
  · obtain ⟨⟨op, v, upper⟩, hv, h⟩ := Option.bind_eq_some_iff.1 h
    obtain ⟨k, hk⟩ := SignedLeaf.comparison?_eq_some hv
    rw [hk] at hread
    obtain ⟨p, hp, rfl⟩ := Option.map_eq_some_iff.1 h
    obtain ⟨hfirst, hlast⟩ := hread.1.dates hp
    cases op with
    | above | atLeast => exact ⟨.inl rfl, by rintro n ⟨⟩; exact hfirst, nofun⟩
    | below | atMost => exact ⟨.inr rfl, nofun, by rintro n ⟨⟩; exact hlast⟩
    | equal => exact ⟨.inl rfl, by rintro n ⟨⟩; exact hfirst, by rintro n ⟨⟩; exact hlast⟩
    | within =>
      refine ⟨.inl rfl, by rintro n ⟨⟩; exact hfirst, fun n hn => ?_⟩
      obtain ⟨q, hq, rfl⟩ := Option.map_eq_some_iff.1 hn
      obtain ⟨u, hu, hq⟩ := Option.bind_eq_some_iff.1 hq
      exact ((hread.2 u hu).dates hq).2

theorem allBounds_of_numbers? {α : Type} {c : Category} {read : List Char → Option α} {p : α → Prop}
    (hp : ∀ v a, IsReadValue c v → read v.toList = some a → p a) {x : SignedLeaf} (hx : x ∈ ls) {b : Bounds α}
    (h : SignedLeaf.numbers? c read x = some b) : AllBounds p b := by
  have hread := hls x hx
  obtain ⟨⟨op, v, upper⟩, hv, rfl⟩ := Option.map_eq_some_iff.1 h
  obtain ⟨k, hk⟩ := SignedLeaf.comparison?_eq_some hv
  rw [hk] at hread
  have hvalue : ∀ a, read v.toList = some a → p a := fun a => hp v a hread.1
  cases op with
  | above | atLeast => exact ⟨hvalue, nofun⟩
  | below | atMost => exact ⟨nofun, hvalue⟩
  | equal => exact ⟨hvalue, hvalue⟩
  | within =>
    refine ⟨hvalue, fun a ha => ?_⟩
    obtain ⟨u, hu, ha⟩ := Option.bind_eq_some_iff.1 ha
    exact hp u a (hread.2 u hu) ha

theorem allBounds_numbers {α : Type} {c : Category} {read : List Char → Option α} {greater lesser : α → α → α}
    {p : α → Prop} (hg : ∀ a b, greater a b = a ∨ greater a b = b) (hl : ∀ a b, lesser a b = a ∨ lesser a b = b)
    (hp : ∀ v a, IsReadValue c v → read v.toList = some a → p a) :
    AllBounds p ((meetAll? greater lesser (ls.filterMap (SignedLeaf.numbers? c read))).getD .all) := by
  cases hm : meetAll? greater lesser (ls.filterMap (SignedLeaf.numbers? c read)) with
  | none => exact allBounds_all
  | some r =>
    refine meetAll?_of_meet (fun x y hx hy => AllBounds.meet hg hl hx hy) (fun b hb => ?_) hm
    obtain ⟨x, hx, hb⟩ := List.mem_filterMap.1 hb
    exact allBounds_of_numbers? hls hp hx hb

theorem isRead_ofLeaves (page : Page) : (ofLeaves page ls).IsRead where
  sources := areNames_terms hls rfl .is
  excludedSources := areNames_terms hls rfl .isNot
  spanningSources := areNames_terms hls rfl .both
  uncategorizedSources := areNames_terms hls rfl .neither
  formats := areNames_terms hls rfl .is
  excludedFormats := areNames_terms hls rfl .isNot
  excludedTerms := nodup_eraseDups _
  regexes := by
    refine ⟨nodup_eraseDups _, fun r hr => ?_⟩
    obtain ⟨x, hx, hr⟩ := List.mem_filterMap.1 (List.mem_eraseDups.1 hr)
    have hread := hls x hx
    rwa [SignedLeaf.regex?_eq_some hr] at hread
  phrases := nodup_eraseDups _
  wildcards := by
    refine ⟨nodup_eraseDups _, fun p hp => ?_⟩
    obtain ⟨x, hx, hp⟩ := List.mem_filterMap.1 (List.mem_eraseDups.1 hp)
    obtain ⟨field, hfield⟩ := SignedLeaf.wildcard?_eq_some hp
    have hread := hls x hx
    rwa [hfield] at hread
  tags := areNames_terms hls rfl .is
  excludedTags := areNames_terms hls rfl .isNot
  dates b hb := by
    refine meetAll?_of_meet (fun x y hx hy => AreDates.meet hx hy) (fun b hb => ?_) hb
    obtain ⟨x, hx, hb⟩ := List.mem_filterMap.1 hb
    exact areDates_of_dates? hls hx hb
  words := allBounds_numbers hls max_choice min_choice fun _ _ _ => Number.lt_of_word?
  quality := allBounds_numbers hls Double.greater_eq Double.lesser_eq fun _ _ hv =>
    Double.isUnsigned_of_read? (hv.isNumber (.inl rfl))
  similarity := allBounds_numbers hls Double.greater_eq Double.lesser_eq fun _ _ hv =>
    Double.isUnsigned_of_read? (hv.isNumber (.inr rfl))

end

end Compiled

end FilterQuery
