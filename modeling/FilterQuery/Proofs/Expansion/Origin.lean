import FilterQuery.Proofs.Expansion.Cycles

namespace FilterQuery

namespace Node

variable (g : Site → Site)

mutual
def resite : Node → Node
  | .leaf l => .leaf l
  | .reference name => .reference name
  | .expansion name site body => .expansion name (site.map g) body.resite
  | .group j negated ns => .group j negated (resiteAll ns)

def resiteAll : List Node → List Node
  | [] => []
  | n :: ns => n.resite :: resiteAll ns
end

@[simp] theorem resiteAll_eq_map (ns : List Node) : resiteAll g ns = ns.map (resite g) := by
  induction ns with
  | nil => rfl
  | cons n ns ih => simp [resiteAll, ih]

theorem keepsGroups_resite : KeepsGroups (resite g) where
  group j negated ns := by simp [resite]
  atom n hn := by
    cases n with
    | group => cases hn
    | _ => rfl

mutual
theorem unshared_resite : ∀ n : Node, (n.resite g).unshared = n.unshared
  | .leaf _ | .reference _ => rfl
  | .expansion name _ body => congrArg (expansion name none) (unshared_resite body)
  | .group j negated ns => congrArg (group j negated) (unsharedAll_resiteAll ns)

theorem unsharedAll_resiteAll : ∀ ns : List Node, unsharedAll (resiteAll g ns) = unsharedAll ns
  | [] => rfl
  | n :: ns => congrArg₂ List.cons (unshared_resite n) (unsharedAll_resiteAll ns)
end

mutual
theorem resite_of_atoms : ∀ n : Node, (∀ a ∈ n.atoms, a.resite g = a) → n.resite g = n
  | .leaf _, _ | .reference _, _ => rfl
  | .expansion .., h => h _ (List.mem_singleton_self _)
  | .group j negated ns, h => congrArg (group j negated) (resiteAll_of_atoms ns h)

theorem resiteAll_of_atoms : ∀ ns : List Node, (∀ a ∈ atomsAll ns, a.resite g = a) → resiteAll g ns = ns
  | [], _ => rfl
  | n :: ns, h =>
    have h := List.forall_mem_append.1 h
    congrArg₂ List.cons (resite_of_atoms n h.1) (resiteAll_of_atoms ns h.2)
end

variable {g}

theorem contains_resite (hg : Function.Injective g) (walked : Walked) (site : Site) (negated : Bool) :
    (walked.map (Prod.map g id)).contains (g site, negated) = walked.contains (site, negated) := by
  have hmem := List.mem_map_of_injective (hg.prodMap Function.injective_id) (a := (site, negated)) (l := walked)
  rw [Bool.eq_iff_iff, List.contains_iff_mem, List.contains_iff_mem]
  exact hmem

mutual
theorem leavesFrom_resite (hg : Function.Injective g) (negated : Bool) (walked : Walked) : ∀ n : Node,
    (n.resite g).leavesFrom negated (walked.map (Prod.map g id))
      = (n.leavesFrom negated walked).map id (List.map (Prod.map g id))
  | .leaf _ | .reference _ => rfl
  | .expansion _ none body => leavesFrom_resite hg negated walked body
  | .expansion _ (some site) body => by
    have hbody := leavesFrom_resite hg negated ((site, negated) :: walked) body
    rw [resite, Option.map_some, leavesFrom, leavesFrom, contains_resite hg]
    split
    · rfl
    · exact hbody
  | .group _ flip ns => allLeavesFrom_resite hg (negated != flip) walked ns

theorem allLeavesFrom_resite (hg : Function.Injective g) (negated : Bool) (walked : Walked) : ∀ ns : List Node,
    allLeavesFrom negated (walked.map (Prod.map g id)) (resiteAll g ns)
      = (allLeavesFrom negated walked ns).map id (List.map (Prod.map g id))
  | [] => rfl
  | n :: ns => by
    have hfirst := leavesFrom_resite hg negated walked n
    have hrest := allLeavesFrom_resite hg negated (n.leavesFrom negated walked).2 ns
    rw [resiteAll, allLeavesFrom, allLeavesFrom, hfirst]
    simp only [Prod.map_snd, Prod.map_fst, id]
    rw [hrest]
    rfl
end

end Node

theorem Compiled.ofNode?_resite {g : Site → Site} (hg : Function.Injective g) (page : Page) (root : Option Node) :
    ofNode? page (root.map (Node.resite g)) = ofNode? page root := by
  cases root with
  | none => rfl
  | some n => exact congrArg (fun r => ofLeaves page r.1) (Node.leavesFrom_resite hg false [] n)

theorem Clause.resite_of_mem_readAll (g : Site → Site) {stop : Nat} {ts : List Token} {n : Node}
    {w : Option Warning} (h : .term n w ∈ Clause.readAll stop ts) : n.resite g = n := by
  refine Node.resite_of_atoms g n fun a ha => ?_
  have hfrom := Grammar.from_of_mem_readAll (p := fun _ => True) (fun _ _ => trivial) h a ha
  cases a with
  | leaf | reference => rfl
  | expansion | group => exact hfrom.elim

theorem Clause.map_resite_of_ofQuery (g : Site → Site) {query : String} {cs : List Clause}
    (h : Clause.ofQuery query = .ok cs) : cs.map (Clause.map (Node.resite g)) = cs := by
  obtain ⟨ts, -, rfl⟩ := Clause.ofQuery_eq_ok h
  refine (List.map_congr_left fun c hc => ?_).trans (List.map_id _)
  cases c with
  | term n w => rw [Clause.map, Clause.resite_of_mem_readAll g hc, id]
  | _ => rfl

theorem lookup_map_of_injective {α α' β β' : Type} [BEq α] [LawfulBEq α] [BEq α'] [LawfulBEq α'] {f : α → α'}
    (hf : Function.Injective f) (g : β → β') (es : List (α × β)) (k : α) :
    (es.map (Prod.map f g)).lookup (f k) = (es.lookup k).map g := by
  induction es with
  | nil => rfl
  | cons e es ih =>
    obtain ⟨k', b⟩ := e
    simp only [List.map_cons, Prod.map_apply, List.lookup_cons, ih]
    rcases eq_or_ne k k' with rfl | hk
    · rw [beq_self_eq_true, beq_self_eq_true]
      rfl
    · rw [beq_false_of_ne hk, beq_false_of_ne (hf.ne hk)]

def Site.inside (origin : String) (s : Site) : Site := ⟨s.stack, s.depth + 1, s.chain.map (origin :: ·)⟩

theorem Site.inside_injective (origin : String) : Function.Injective (Site.inside origin) := by
  rintro ⟨stack, depth, chain⟩ ⟨stack', depth', chain'⟩ h
  simp only [inside, mk.injEq, Nat.add_right_cancel_iff] at h ⊢
  exact ⟨h.1, h.2.1, Option.map_injective List.cons_injective h.2.2⟩

def Node.inside (origin : String) : Node → Node := resite (Site.inside origin)

theorem Node.keepsGroups_inside (origin : String) : KeepsGroups (inside origin) := keepsGroups_resite _

def Expansion.inside (origin : String) (e : Expansion) : Expansion :=
  { e with site := e.site.inside origin, root := e.root.map (Node.inside origin) }

def Memo.inside (origin : String) (m : Memo) : Memo where
  byDepth := m.byDepth.map (Prod.map (Prod.map id (· + 1)) (Expansion.inside origin))
  byChain := m.byChain.map (Prod.map (origin :: ·) (Expansion.inside origin))

def Journey.inside (origin : String) (j : Journey) : Journey := { j with memo := j.memo.inside origin }

def Visit.inside (origin : String) (v : Visit) : Visit := { v with outer := origin :: v.outer }

section

variable (origin : String)

theorem Memo.find?_inside {m : Memo} {v : Visit} {e? : Option Expansion}
    (h : m.find? v.name v.outer.length v.chain = e?) :
    (m.inside origin).find? (v.inside origin).name (v.inside origin).outer.length (v.inside origin).chain
      = e?.map (Expansion.inside origin) := by
  have hdepth : Function.Injective (Prod.map id (· + 1) : String × Nat → String × Nat) :=
    Function.injective_id.prodMap (add_left_injective 1)
  have hchain : Function.Injective (origin :: ·) := List.cons_injective
  have hbyDepth := lookup_map_of_injective hdepth (Expansion.inside origin) m.byDepth (v.name, v.outer.length)
  have hbyChain := lookup_map_of_injective hchain (Expansion.inside origin) m.byChain v.chain
  rw [← h, find?, find?, Option.map_or, ← hbyDepth, ← hbyChain]
  rfl

theorem Memo.keep_inside (m : Memo) (v : Visit) (e : Expansion) :
    (m.inside origin).keep (v.inside origin) (e.inside origin) = (m.keep v e).inside origin := by
  unfold keep insert
  have hcyclic : (e.inside origin).cyclic = e.cyclic := rfl
  rw [hcyclic]
  split <;> rfl

theorem Expansion.referral_inside (e : Expansion) (raw : String) :
    (e.inside origin).referral raw = (e.referral raw).map (Node.inside origin) := by
  obtain ⟨site, root, fs, ws, cyclic⟩ := e
  cases root <;> rfl

theorem Expansion.ofTree_inside (t : Tree) (v : Visit) (cyclic : Bool) :
    (ofTree t v.name v.outer.length v.chain cyclic).inside origin = ofTree (t.map (Node.inside origin))
      (v.inside origin).name (v.inside origin).outer.length (v.inside origin).chain cyclic := by
  cases cyclic <;> rfl

theorem Memo.keep_ofTree_inside (m : Memo) (t : Tree) (v : Visit) (cyclic : Bool) :
    (m.inside origin).keep (v.inside origin) (.ofTree (t.map (Node.inside origin)) (v.inside origin).name
      (v.inside origin).outer.length (v.inside origin).chain cyclic)
      = (m.keep v (.ofTree t v.name v.outer.length v.chain cyclic)).inside origin := by
  rw [← Expansion.ofTree_inside, keep_inside]

end

def Fault.Stops (origin : String) : Fault → Prop
  | .cycle names => origin ∈ names
  | .tooDeep _ => True
  | .within _ f => f.Stops origin
  | _ => False

def Mirrors (origin : String) (f g : String → Reading Referral) : Prop :=
  ∀ raw j r j', f raw (j.inside origin) = .ok (r, j') → (∀ x ∈ r.faults, ¬ x.Stops origin) →
    ∃ r₀ j₀, g raw j = .ok (r₀, j₀) ∧ r = r₀.map (Node.inside origin) ∧ j' = j₀.inside origin

section

variable {saved : Stacks} {limit : Nat} {origin : String} {f g : String → Reading Referral}

theorem cycleOf_cons_of_ne {name : String} (h : origin ≠ name) (chain : List String) :
    cycleOf name (origin :: chain) = cycleOf name chain := List.dropWhile_cons_of_pos (bne_iff_ne.2 h)

theorem cycleOf_cons_self (name : String) (chain : List String) : cycleOf name (name :: chain) = name :: chain :=
  List.dropWhile_cons_of_neg (by simp)

theorem length_of_mapM_run {names : List String} {j j' : Journey} {rs : List Referral}
    (h : names.mapM f j = .ok (rs, j')) : rs.length = names.length := by
  induction names generalizing j rs with
  | nil =>
    cases h
    rfl
  | cons raw names ih =>
    obtain ⟨r, j₁, rs, -, hrs, rfl⟩ := mapM_run_cons_eq_ok h
    exact congrArg Nat.succ (ih hrs)

theorem Mirrors.mapM (h : Mirrors origin f g) {names : List String} {j j' : Journey} {rs : List Referral}
    (hrs : names.mapM f (j.inside origin) = .ok (rs, j')) (hs : ∀ r ∈ rs, ∀ x ∈ r.faults, ¬ x.Stops origin) :
    ∃ rs₀ j₀, names.mapM g j = .ok (rs₀, j₀) ∧ rs = rs₀.map (Referral.map (Node.inside origin)) ∧
      j' = j₀.inside origin := by
  induction names generalizing j rs with
  | nil =>
    cases hrs
    exact ⟨[], j, rfl, rfl, rfl⟩
  | cons raw names ih =>
    obtain ⟨r, j₁, rs, hr, hrs, rfl⟩ := mapM_run_cons_eq_ok hrs
    obtain ⟨hfirst, hrest⟩ := List.forall_mem_cons.1 hs
    obtain ⟨r₀, j₂, hr₀, rfl, rfl⟩ := h raw j r j₁ hr hfirst
    obtain ⟨rs₀, j₀, hrs₀, rfl, rfl⟩ := ih hrs hrest
    refine ⟨r₀ :: rs₀, j₀, ?_, rfl, rfl⟩
    rw [List.mapM_cons]
    simp [bind, StateT.bind, Except.bind, hr₀, hrs₀, pure, StateT.pure, Except.pure]

theorem Mirrors.tree (h : Mirrors origin f g) {query : String} {j j' : Journey} {t : Tree}
    (ht : Reading.tree f query (j.inside origin) = .ok (t, j')) (hs : ∀ p ∈ t.problems, ¬ p.fault.Stops origin) :
    ∃ t₀ j₀, Reading.tree g query j = .ok (t₀, j₀) ∧ t = t₀.map (Node.inside origin) ∧ j' = j₀.inside origin := by
  obtain ⟨cs, rs, hcs, hrs, rfl⟩ := tree_run_eq_ok ht
  have hfaults : ∀ r ∈ rs, ∀ x ∈ r.faults, ¬ x.Stops origin := by
    intro r hr x hx
    obtain ⟨p, hp, rfl⟩ := Tree.exists_problem_of_mem_faults (length_of_mapM_run hrs) hr hx
    exact hs p hp
  obtain ⟨rs₀, j₀, hrs₀, rfl, rfl⟩ := h.mapM hrs hfaults
  refine ⟨_, j₀, tree_of_mapM hcs hrs₀, ?_, rfl⟩
  rw [Tree.map_ofReferrals (Node.keepsGroups_inside origin)]
  exact congrArg (Tree.ofReferrals query · _) (Clause.map_resite_of_ofQuery _ hcs).symm

section

variable {room : Nat} {chain : List String} {raw : String} {j j' : Journey} {r : Referral}

theorem mirrors_cycle (hc : (cycleOf (StackName.normalize raw) (origin :: chain)).isEmpty = false)
    (h : Reading.refer saved limit room (origin :: chain) raw (j.inside origin) = .ok (r, j'))
    (hs : ∀ x ∈ r.faults, ¬ x.Stops origin) :
    ∃ r₀ j₀, Reading.refer saved limit (room + 1) chain raw j = .ok (r₀, j₀) ∧ r = r₀.map (Node.inside origin) ∧
      j' = j₀.inside origin := by
  cases (refer_of_cycle hc room).symm.trans h
  have hne : origin ≠ StackName.normalize raw := by
    rintro rfl
    exact hs _ (List.mem_singleton_self _) (List.mem_append_right _ (List.mem_singleton_self _))
  rw [cycleOf_cons_of_ne hne] at hc ⊢
  exact ⟨_, _, refer_of_cycle hc (room + 1), rfl, rfl⟩

theorem mirrors_saved {query : String}
    (hc : (cycleOf (StackName.normalize raw) (origin :: chain)).isEmpty = true)
    (hc₀ : (cycleOf (StackName.normalize raw) chain).isEmpty = true)
    (he : j.memo.find? (StackName.normalize raw) chain.length (chain ++ [StackName.normalize raw]) = none)
    (hq : saved (StackName.normalize raw) = some query)
    (inner : Mirrors origin (Reading.refer saved limit room (origin :: (chain ++ [StackName.normalize raw])))
      (Reading.refer saved limit (room + 1) (chain ++ [StackName.normalize raw])))
    (h : Reading.refer saved limit (room + 1) (origin :: chain) raw (j.inside origin) = .ok (r, j'))
    (hs : ∀ x ∈ r.faults, ¬ x.Stops origin) :
    ∃ r₀ j₀, Reading.refer saved limit (room + 2) chain raw j = .ok (r₀, j₀) ∧ r = r₀.map (Node.inside origin) ∧
      j' = j₀.inside origin := by
  have hfind := Memo.find?_inside origin (v := ⟨chain, StackName.normalize raw⟩) he
  cases ht : Reading.tree (Reading.refer saved limit room (origin :: (chain ++ [StackName.normalize raw])))
      query (Journey.inside origin ⟨j.memo, false⟩) with
  | error o =>
    rw [refer_of_overrun hc hq hfind ht] at h
    cases h
  | ok p =>
    obtain ⟨t, j₁⟩ := p
    cases (refer_of_tree hc hq hfind ht).symm.trans h
    rw [Expansion.faults_referral, Expansion.ofTree, List.forall_mem_map, List.forall_mem_map] at hs
    obtain ⟨t₀, j₀, ht₀, rfl, rfl⟩ := inner.tree ht hs
    have hmade := Expansion.ofTree_inside origin t₀ ⟨chain, StackName.normalize raw⟩ j₀.cyclic
    have hkept := j₀.memo.keep_ofTree_inside origin t₀ ⟨chain, StackName.normalize raw⟩ j₀.cyclic
    refine ⟨_, _, refer_of_tree hc₀ hq he ht₀, ?_, congrArg (Journey.mk · _) hkept⟩
    exact (congrArg (Expansion.referral · raw) hmade.symm).trans (Expansion.referral_inside origin _ raw)

end

theorem mirrors_refer (room : Nat) : ∀ chain : List String,
    Mirrors origin (Reading.refer saved limit room (origin :: chain)) (Reading.refer saved limit (room + 1) chain) := by
  induction room with
  | zero =>
    intro chain raw j r j' h hs
    cases hc : (cycleOf (StackName.normalize raw) (origin :: chain)).isEmpty with
    | false => exact mirrors_cycle hc h hs
    | true =>
      cases (refer_of_full hc).symm.trans h
      exact absurd trivial (hs _ (List.mem_singleton_self _))
  | succ room ih =>
    intro chain raw j r j' h hs
    cases hc : (cycleOf (StackName.normalize raw) (origin :: chain)).isEmpty with
    | false => exact mirrors_cycle hc h hs
    | true =>
      have hc₀ : (cycleOf (StackName.normalize raw) chain).isEmpty = true :=
        cycleOf_isEmpty_iff.2 fun hm => cycleOf_isEmpty_iff.1 hc (List.mem_cons_of_mem origin hm)
      cases he : j.memo.find? (StackName.normalize raw) chain.length (chain ++ [StackName.normalize raw]) with
      | some e =>
        have hfind := Memo.find?_inside origin (v := ⟨chain, StackName.normalize raw⟩) he
        cases (refer_of_find? hc hfind).symm.trans h
        exact ⟨_, _, refer_of_find? hc₀ he, e.referral_inside origin raw, rfl⟩
      | none =>
        have hfind := Memo.find?_inside origin (v := ⟨chain, StackName.normalize raw⟩) he
        cases hq : saved (StackName.normalize raw) with
        | none =>
          cases (refer_of_unknown hc hq hfind).symm.trans h
          exact ⟨_, j, refer_of_unknown hc₀ hq he, rfl, rfl⟩
        | some query => exact mirrors_saved hc hc₀ he hq (ih (chain ++ [StackName.normalize raw])) h hs

theorem parseWith_inside {stack query : String} {t : Tree}
    (h : Tree.parseWith saved limit (some stack) query = .ok t)
    (hs : ∀ p ∈ t.problems, ¬ p.fault.Stops (StackName.normalize stack)) :
    ∃ t₀, Tree.parseWith saved limit none query = .ok t₀ ∧ t = t₀.map (Node.inside (StackName.normalize stack)) := by
  obtain ⟨room, hroom⟩ : ∃ room, max limit 1 = room + 1 := ⟨max limit 1 - 1, by omega⟩
  obtain ⟨j, hrun⟩ := parseWith_eq_ok_iff.1 h
  simp only [Option.map_some, Option.toList_some, List.length_singleton, hroom, Nat.add_sub_cancel] at hrun
  obtain ⟨t₀, j₀, ht₀, rfl, -⟩ := (mirrors_refer room []).tree (j := ⟨Memo.empty, false⟩) hrun hs
  refine ⟨t₀, parseWith_eq_ok_iff.2 ⟨j₀, ?_⟩, rfl⟩
  rwa [hroom]

end

namespace Fault

def Fits (P : Nat → List String → Prop) (limit : Nat) : Nat → Fault → Prop
  | depth, .cycle names => P depth names
  | depth, .tooDeep _ => depth = limit
  | depth, .within _ f => f.Fits P limit (depth + 1)
  | _, _ => True

variable {P : Nat → List String → Prop} {limit : Nat}

theorem fits_of_isOwn {f : Fault} (h : f.isOwn = true) (depth : Nat) : f.Fits P limit depth := by
  cases f with
  | cycle | tooDeep | within => cases h
  | _ => trivial

def Short (depth : Nat) (names : List String) : Prop := names.length ≤ depth + 1

def Whole (origin : String) (depth : Nat) (names : List String) : Prop :=
  origin ∈ names → names.length = depth + 1

theorem Stops.not_fits {origin : String} {f : Fault} (h : f.Stops origin) {depth : Nat}
    (hin : f.Fits (Whole origin) limit (depth + 1)) : ¬ f.Fits Short limit depth := by
  induction f generalizing depth with
  | cycle names =>
    have hlen : names.length = depth + 1 + 1 := hin h
    intro (hshort : names.length ≤ depth + 1)
    omega
  | tooDeep =>
    intro hout
    exact Nat.succ_ne_self depth (Eq.trans hin hout.symm)
  | within name f ih => exact ih h hin
  | _ => cases h

end Fault

section

variable {saved : Stacks} {limit : Nat} {P : Nat → List String → Prop} {K : List String → Prop}

variable (hcycle : ∀ chain name, K chain → (cycleOf name chain).isEmpty = false →
  P chain.length (cycleOf name chain ++ [name]))

include hcycle

theorem fits_answer {chain : List String} (hK : K chain) {raw : String} {r : Referral}
    (hr : Answer saved limit (fun _ depth e => ∀ f ∈ e.faults, f.Fits P limit (depth + 1)) chain raw r) :
    ∀ f ∈ r.faults, f.Fits P limit chain.length := by
  cases hr with
  | cycle hc => exact List.forall_mem_singleton.2 (hcycle chain _ hK hc)
  | full _ hroom => exact List.forall_mem_singleton.2 hroom
  | unknown => exact List.forall_mem_nil _
  | @expansion e _ _ he =>
    rw [e.faults_referral]
    exact List.forall_mem_map.2 he

theorem fits_tree {chain : List String} (hK : K chain) {query : String} {cs : List Clause} {rs : List Referral}
    (hcs : Clause.ofQuery query = .ok cs) (hrs : List.Forall₂
      (Answer saved limit (fun _ depth e => ∀ f ∈ e.faults, f.Fits P limit (depth + 1)) chain)
      (Grouping.references cs) rs) :
    ∀ p ∈ (Tree.ofReferrals query cs rs).problems, p.fault.Fits P limit chain.length := by
  refine Tree.faults_ofReferrals (fun f hf => Fault.fits_of_isOwn hf _) hcs fun r hr => ?_
  rw [← List.map_snd_zip hrs.length_eq.ge] at hr
  obtain ⟨p, hp, rfl⟩ := List.mem_map.1 hr
  exact fits_answer hcycle hK ((List.forall₂_iff_zip.1 hrs).2 hp)

variable (hdescend : ∀ chain name, K chain → (cycleOf name chain).isEmpty = true → K (chain ++ [name]))

include hdescend

theorem invariant_fits : Reading.Invariant saved limit (fun chain _ => K chain)
    (fun _ depth e => ∀ f ∈ e.faults, f.Fits P limit (depth + 1)) where
  descend hK _ hc _ := hdescend _ _ hK hc
  expand {chain name query cs rs} _ _ hK hcs hrs _ := by
    have hfits := fits_tree hcycle hK hcs hrs
    rw [List.length_append, List.length_singleton] at hfits
    exact List.forall_mem_map.2 hfits

theorem fits_parseWith {origin : Option String} (hK : K (originChain origin)) {query : String} {t : Tree}
    (h : Tree.parseWith saved limit origin query = .ok t) :
    ∀ p ∈ t.problems, p.fault.Fits P (max limit 1) (originChain origin).length := by
  obtain ⟨cs, rs, hcs, hrs, rfl⟩ := answers_parseWith (invariant_fits hcycle hdescend) hK h
  exact fits_tree hcycle hK hcs hrs

end

section

variable {saved : Stacks} {limit : Nat} {query : String} {t t₀ : Tree}

theorem short_of_parseWith (h : Tree.parseWith saved limit none query = .ok t) :
    ∀ p ∈ t.problems, p.fault.Fits Fault.Short (max limit 1) 0 := by
  refine fits_parseWith (K := fun _ => True) (fun chain name _ _ => ?_) (fun _ _ _ _ => trivial) trivial h
  have hle : (cycleOf name chain).length ≤ chain.length := (List.dropWhile_suffix _).length_le
  rw [Fault.Short, List.length_append, List.length_singleton]
  omega

theorem whole_of_parseWith {stack : String} (h : Tree.parseWith saved limit (some stack) query = .ok t) :
    ∀ p ∈ t.problems, p.fault.Fits (Fault.Whole (StackName.normalize stack)) (max limit 1) 1 := by
  refine fits_parseWith (K := fun chain => ∃ inner, chain = StackName.normalize stack :: inner ∧
    StackName.normalize stack ∉ inner) ?_ ?_ ⟨[], rfl, List.not_mem_nil⟩ h
  · rintro _ name ⟨inner, rfl, hout⟩ - hmem
    by_cases hback : StackName.normalize stack = name
    · rw [hback, cycleOf_cons_self, List.length_append, List.length_singleton]
    · rw [cycleOf_cons_of_ne hback, List.mem_append, List.mem_singleton] at hmem
      exact absurd (hmem.resolve_right hback) fun hmem => hout ((List.dropWhile_suffix _).subset hmem)
  · rintro _ name ⟨inner, rfl, hout⟩ hc
    refine ⟨inner ++ [name], rfl, fun hmem => ?_⟩
    rcases List.mem_append.1 hmem with hmem | hmem
    · exact hout hmem
    · exact cycleOf_isEmpty_iff.1 hc (List.mem_singleton.1 hmem ▸ List.mem_cons_self)

theorem unshared_eq_iff_of_parseWith {stack : String} (h : Tree.parseWith saved limit (some stack) query = .ok t)
    (h₀ : Tree.parseWith saved limit none query = .ok t₀) :
    t₀.unshared = t.unshared ↔ ∀ p ∈ t.problems, ¬ p.fault.Stops (StackName.normalize stack) := by
  constructor
  · intro he p hp hs
    have hproblems : t₀.unshared.problems = t.unshared.problems := by rw [he]
    have hp₀ : p ∈ t₀.unshared.problems := hproblems ▸ hp
    exact hs.not_fits (whole_of_parseWith h p hp) (short_of_parseWith h₀ p hp₀)
  · intro hs
    obtain ⟨t₁, h₁, rfl⟩ := parseWith_inside h hs
    cases h₀.symm.trans h₁
    rw [Tree.unshared, Tree.unshared, Tree.map, Option.map_map]
    exact congrArg (fun root => { t₀ with root := root })
      (congrArg (Option.map · t₀.root) (funext fun n => (Node.unshared_resite _ n).symm))

end

end FilterQuery
