import FilterQuery.Proofs.History
import FilterQuery.Proofs.Meaning
import FilterQuery.Proofs.Store.Usage

namespace FilterQuery

inductive Node.Mentions : Node → String → Prop
  | expansion (name : String) (site : Option Site) (body : Node) : Mentions (.expansion name site body) name
  | group {j : Junction} {negated : Bool} {ns : List Node} {n : Node} {name : String} (hn : n ∈ ns)
      (h : n.Mentions name) : Mentions (.group j negated ns) name

/-- Whether a tree refers to the stack of a name, however the name is written. -/
def Tree.Mentions (t : Tree) (stack : String) : Prop :=
  ∃ n ∈ t.root, ∃ name, n.Mentions name ∧ StackName.normalize name = stack

namespace Node

variable {n : Node} {ns : List Node} {name : String}

theorem mentions_group {j : Junction} {negated : Bool} :
    (group j negated ns).Mentions name ↔ ∃ n ∈ ns, n.Mentions name := by
  constructor
  · intro h
    cases h with
    | group hn h => exact ⟨_, hn, h⟩
  · rintro ⟨n, hn, h⟩
    exact .group hn h

theorem mem_allReferences : name ∈ allReferences ns ↔ ∃ n ∈ ns, name ∈ n.references := by
  induction ns with
  | nil => simp [allReferences]
  | cons n ns ih => simp [allReferences, ih, or_comm]

theorem mem_references : name ∈ n.references ↔ n.Mentions name := by
  induction n using Node.induction with
  | atom n hn =>
    cases n with
    | leaf | reference => exact ⟨nofun, nofun⟩
    | expansion raw site body =>
      rw [references, List.mem_singleton]
      constructor
      · rintro rfl
        exact .expansion name site body
      · intro h
        cases h
        rfl
    | group => cases hn
  | group j negated ns ih =>
    rw [references, mem_allReferences, mentions_group]
    exact exists_congr fun n => and_congr_right fun hn => ih n hn

end Node

theorem Tree.mentions_iff {t : Tree} {stack : String} :
    t.Mentions stack ↔ stack ∈ t.references.map StackName.normalize := by
  cases hroot : t.root with
  | none => simp [Mentions, references, hroot]
  | some n => simp [Mentions, references, hroot, Node.mem_references]

/-- Whether a use of the stack of a name is noted: of the references to it one has a write that takes place. -/
def Tree.Notes (t : Tree) (takes : Nat → Bool) (stack : String) : Prop :=
  ∃ i name, t.references[i]? = some name ∧ StackName.normalize name = stack ∧ takes i = true

section

variable {t : Tree} {takes : Nat → Bool} {stack : String}

theorem Tree.Notes.mentions (h : t.Notes takes stack) : t.Mentions stack := by
  obtain ⟨i, name, hi, hname, -⟩ := h
  exact t.mentions_iff.2 (List.mem_map.2 ⟨name, List.mem_of_getElem? hi, hname⟩)

theorem Tree.notes_iff_mentions (h : ∀ i, takes i = true) : t.Notes takes stack ↔ t.Mentions stack := by
  refine ⟨Notes.mentions, fun hm => ?_⟩
  obtain ⟨name, hmem, hname⟩ := List.mem_map.1 (t.mentions_iff.1 hm)
  obtain ⟨i, hi⟩ := List.mem_iff_getElem?.1 hmem
  exact ⟨i, name, hi, hname, h i⟩

end

theorem History.current_push (h : History) (r : Refinement) : (h.push r).current = r := by
  simp [current, push, h.extended_eq r]

namespace Session

open Stack Store

/-- What refining to a tree makes of a stack. -/
structure Refines (s : Session) (t : Tree) (takes : Nat → Bool) (s' : Session) (u v : Stack) : Prop where
  same : v = { u with lastUsed := v.lastUsed }
  used : t.Notes takes u.name →
    ∃ now : Nat, s.store.clock ≤ now ∧ now < s'.store.clock ∧ v.lastUsed = some (now : Int)
  unused : ¬t.Notes takes u.name → v.lastUsed = u.lastUsed

variable {s s' : Session} {t : Tree} {query : String} {takes : Nat → Bool} {u v : Stack}

theorem mem_written (t : Tree) (takes : Nat → Bool) (stack : String) :
    stack ∈ written (uses t takes) ↔ t.Notes takes stack := by
  simp only [written, uses, List.mem_map, List.mem_filter, Prod.exists, List.mem_zipIdx_iff_getElem?, Tree.Notes]
  constructor
  · rintro ⟨_, _, ⟨⟨_, i, hi, heq⟩, htakes⟩, hname⟩
    cases heq
    exact ⟨i, _, hi, hname, htakes⟩
  · rintro ⟨i, name, hi, hname, htakes⟩
    exact ⟨name, takes i, ⟨⟨name, i, hi, rfl⟩, htakes⟩, hname⟩

theorem refine_of_parse (h : s.parse query = .ok t) (count : Nat) (label : Option String) (takes : Nat → Bool) :
    s.refine query count label takes = .ok { s with
      store := { (uses t takes).foldl noteUsage s.store with
        clock := ((uses t takes).foldl noteUsage s.store).clock + 1 }
      history := s.history.push (.ofTree t count label (((uses t takes).foldl noteUsage s.store).clock + 1)) } := by
  unfold refine
  rw [h]
  rfl

theorem foldl_noteUsage_refused {uses : List (String × Bool)} (h : ∀ use ∈ uses, use.2 = false) (store : Store) :
    uses.foldl noteUsage store = store := by
  induction uses with
  | nil => rfl
  | cons use uses ih =>
    obtain ⟨hrefused, hrest⟩ := List.forall_mem_cons.1 h
    have hsame : noteUsage store use = store := (Prod.ext rfl hrefused : use = (use.1, false)) ▸ noteUsage_refused ..
    rw [List.foldl_cons, hsame, ih hrest]

/-- Whatever a query that can be read refers to, refining by it notes a use of those stacks that the query itself refers
to, so far as the writes take place, and of no others; nothing else of any stack is changed. Where all writes take place
those are all that it refers to; where none does the stacks and their file stay as they are. However the writes went,
the history goes on behind its current refinement with one, which holds the tree as it was read before. -/
theorem refine_touches (apart : (names s.store.entries).Nodup) (read : s.parse query = .ok t) (count : Nat)
    (label : Option String) (takes : Nat → Bool) :
    ∃ s' step, s.refine query count label takes = .ok s' ∧ s'.config = s.config ∧
      List.Forall₂ (s.Refines t takes s') s.store.entries s'.store.entries ∧
      (∀ stack, t.Notes takes stack → t.Mentions stack) ∧
      ((∀ i, takes i = true) → ∀ stack, t.Notes takes stack ↔ t.Mentions stack) ∧
      ((∀ i, takes i = false) → s'.store = { s.store with clock := s.store.clock + 1 }) ∧
      (s'.history.steps = s.history.breadcrumbs.rtake (max s.history.cap 1 - 1) ++ [step] ∧
        s'.history.index + 1 = s'.history.steps.length ∧ s'.history.current = step) ∧
      step.tree = t ∧ step.count = count ∧
      step.label = label.getD ((Compiled.ofNode? .standard t.root).label count) ∧
      step.id = Number.identifier s'.store.clock ∧ step.timestamp = s'.store.clock := by
  obtain ⟨hnoted, -⟩ := noted_foldl_noteUsage apart (uses t takes)
  refine ⟨_, _, refine_of_parse read count label takes, rfl, hnoted.imp fun u v h => ?_, fun _ => Tree.Notes.mentions,
    fun hall _ => Tree.notes_iff_mentions hall, fun hnone => ?_, ⟨s.history.extended_eq _,
    Nat.sub_add_cancel (s.history.extended_length_pos _), s.history.current_push _⟩, rfl, rfl, rfl, rfl, rfl⟩
  · refine ⟨h.same, fun hnotes => ?_, fun hnotes => h.others fun hm => hnotes ((mem_written ..).1 hm)⟩
    obtain ⟨now, hlow, hhigh, hnow⟩ := h.noted ((mem_written ..).2 hnotes)
    exact ⟨now, hlow, Nat.lt_succ_of_lt hhigh, hnow⟩
  · have hrefused : ∀ use ∈ uses t takes, use.2 = false := by
      refine List.forall_mem_map.2 fun r _ => hnone r.2
    dsimp only
    rw [foldl_noteUsage_refused hrefused]

theorem refine_touches_nested :
    ∃ (s₀ : Store) (s s' : Session) (t : Tree) (b a c : Stack), openOn (.empty .memory) .standard 0 = .ok s₀ ∧
      Run s₀ [.create ⟨"b", "y", none, none, none⟩, .create ⟨"a", "@b x", none, none, none⟩,
        .create ⟨"c", "@b", none, none, none⟩] s.store ∧
      names s.store.entries = ["b", "a", "c"] ∧ s.parse "x !(y | @A) @c" = .ok t ∧
      s.refine "x !(y | @A) @c" 7 none (· == 0) = .ok s' ∧ s'.store.entries = [b, a, c] ∧ b.lastUsed = none ∧
      t.Mentions "a" ∧ a.lastUsed = none ∧ (∃ now : Nat, c.lastUsed = some (now : Int)) ∧
      s'.history.current.tree = t ∧ s'.history.current.count = 7 := by
  have h : (openOn (.empty .memory) .standard 0 >>= fun s₀ =>
      s₀.perform (.create ⟨"b", "y", none, none, none⟩) >>= fun r₁ =>
        r₁.1.perform (.create ⟨"a", "@b x", none, none, none⟩) >>= fun r₂ =>
          r₂.1.perform (.create ⟨"c", "@b", none, none, none⟩) >>= fun r₃ =>
            ((start .standard r₃.1).parse "x !(y | @A) @c").mapError (fun _ => .overrun) >>= fun t =>
              .ok (r₃.1.entries.map fun u => (u.name, u.lastUsed), t.references)) =
      .ok ([("b", none), ("a", none), ("c", none)], ["c", "A"]) := by
    decide +kernel
  obtain ⟨s₀, opened, h⟩ := bind_eq_ok h
  obtain ⟨r₁, h₁, h⟩ := bind_eq_ok h
  obtain ⟨r₂, h₂, h⟩ := bind_eq_ok h
  obtain ⟨r₃, h₃, h⟩ := bind_eq_ok h
  obtain ⟨t, ht, h⟩ := bind_eq_ok h
  obtain ⟨hentries, hreferences⟩ := Prod.mk.inj (Except.ok.inj h)
  let s : Session := start .standard r₃.1
  have read : s.parse "x !(y | @A) @c" = .ok t := eq_ok_of_mapError ht
  have hnormal : StackName.normalize "c" = "c" ∧ StackName.normalize "A" = "a" := by decide +kernel
  have hnotes : ∀ name, t.Notes (· == 0) name ↔ name = "c" := by
    intro name
    constructor
    · rintro ⟨i, raw, hi, rfl, htakes⟩
      cases beq_iff_eq.1 htakes
      rw [hreferences] at hi
      cases hi
      exact hnormal.1
    · rintro rfl
      exact ⟨0, "c", by rw [hreferences]; rfl, hnormal.1, rfl⟩
  obtain ⟨b, _, hall, hb, hrest⟩ := List.map_eq_cons_iff.1 hentries
  obtain ⟨a, _, rfl, ha, hrest⟩ := List.map_eq_cons_iff.1 hrest
  obtain ⟨c, _, rfl, hc, hrest⟩ := List.map_eq_cons_iff.1 hrest
  cases List.map_eq_nil_iff.1 hrest
  have hentries' : s.store.entries = [b, a, c] := hall
  simp only [Prod.mk.injEq] at hb ha hc
  have hnames : names s.store.entries = ["b", "a", "c"] := by
    simp [hentries', names, hb.1, ha.1, hc.1]
  obtain ⟨s', step, refined, -, htouched, -, -, -, ⟨-, -, hcurrent⟩, htree, hcount, -⟩ :=
    refine_touches (by rw [hnames]; decide +kernel) read 7 none (· == 0)
  simp only [hentries', List.forall₂_cons_left_iff, List.forall₂_nil_left_iff] at htouched
  obtain ⟨b', _, hb', ⟨a', _, ha', ⟨c', _, hc', rfl, rfl⟩, rfl⟩, hafter⟩ := htouched
  have unused : ∀ {u v : Stack}, s.Refines t (· == 0) s' u v → u.name ≠ "c" → v.lastUsed = u.lastUsed :=
    fun h hu => h.unused fun hn => hu ((hnotes _).1 hn)
  obtain ⟨now, -, -, hnow⟩ := hc'.used ((hnotes _).2 hc.1)
  have hmentions : t.Mentions "a" := by
    rw [Tree.mentions_iff, hreferences, List.map_cons, List.map_cons, hnormal.2]
    exact List.mem_cons_of_mem _ List.mem_cons_self
  refine ⟨s₀, s, s', t, b', a', c', opened, (((Run.refl s₀).performed h₁).performed h₂).performed h₃, hnames, read,
    refined, hafter, ?_, hmentions, ?_, ⟨now, hnow⟩, hcurrent ▸ htree, hcurrent ▸ hcount⟩
  · rw [unused hb' (by simp [hb.1]), hb.2]
  · rw [unused ha' (by simp [ha.1]), ha.2]

end Session

end FilterQuery
