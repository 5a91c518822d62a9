import FilterQuery.Proofs.Grammar.Grouping
import FilterQuery.Proofs.Scan
import FilterQuery.Proofs.Sharing

namespace FilterQuery

def Referral.ofTree (raw : String) (t : Tree) : Referral :=
  let faults := t.problems.map fun p => .within raw p.fault
  let warnings := t.warnings.map (.within raw)
  match t.root with
  | some body => ⟨.expansion raw none body, faults, warnings⟩
  | none => ⟨.reference raw, faults, warnings ++ [.emptyStack raw]⟩

namespace Direct

def tree (refer : String → Except Token.Overrun Referral) (query : String) : Except Token.Overrun Tree := do
  let clauses ← Clause.ofQuery query
  let s ← Grouping.run refer .start clauses
  return s.tree query

def refer (saved : Stacks) (limit : Nat) : Nat → List String → String → Except Token.Overrun Referral
  | room, chain, raw =>
    let name := StackName.normalize raw
    let cycle := cycleOf name chain
    if !cycle.isEmpty then .ok ⟨.reference raw, [.cycle (cycle ++ [name])], []⟩
    else match room with
      | 0 => .ok ⟨.reference raw, [.tooDeep limit], []⟩
      | room + 1 => match saved name with
        | none => .ok ⟨.reference raw, [], [.unknownStack raw]⟩
        | some query =>
          return .ofTree raw (← tree (refer saved limit room (chain ++ [name])) query)

/-- Reads a query as `Tree.parseWith` does, and remembers nothing. -/
def parse (saved : Stacks) (limit : Nat) (origin : Option String) (query : String) :
    Except Token.Overrun Tree :=
  let chain := (origin.map StackName.normalize).toList
  let limit := max limit 1
  tree (refer saved limit (limit - chain.length) chain) query

end Direct

def references (query : String) : List String :=
  match Clause.ofQuery query with
  | .ok cs => Grouping.references cs
  | .error _ => []

def meetsCycle (saved : Stacks) : Nat → List String → String → Bool
  | room, chain, raw =>
    let name := StackName.normalize raw
    if !(cycleOf name chain).isEmpty then true
    else match room with
      | 0 => false
      | room + 1 => match saved name with
        | none => false
        | some query => (references query).any (meetsCycle saved room (chain ++ [name]))

structure Visit where
  outer : List String
  name : String
  deriving DecidableEq

namespace Visit

def chain (v : Visit) : List String := v.outer ++ [v.name]

def cyclic (saved : Stacks) (limit : Nat) (v : Visit) : Bool :=
  match saved v.name with
  | none => false
  | some query => (references query).any (meetsCycle saved (limit - v.chain.length) v.chain)

def level (u v : Visit) : Prop := u.name = v.name ∧ u.outer.length = v.outer.length

instance (u v : Visit) : Decidable (level u v) := inferInstanceAs (Decidable (_ ∧ _))

def remembered (saved : Stacks) (limit : Nat) (log : List Visit) (v : Visit) : Bool :=
  log.any fun u => u = v || level u v && !u.cyclic saved limit

end Visit

def visits (saved : Stacks) (limit : Nat) : Nat → List String → List Visit → String → List Visit
  | room, chain, log, raw =>
    let name := StackName.normalize raw
    if !(cycleOf name chain).isEmpty then log
    else match room with
      | 0 => log
      | room + 1 => match saved name with
        | none => log
        | some query =>
          (if Visit.remembered saved limit log ⟨chain, name⟩ then log
          else (references query).foldl (visits saved limit room (chain ++ [name])) log) ++ [⟨chain, name⟩]

/-- The stacks that reading a query comes to. -/
def journey (saved : Stacks) (limit : Nat) (origin : Option String) (query : String) : List Visit :=
  let chain := (origin.map StackName.normalize).toList
  let limit := max limit 1
  (references query).foldl (visits saved limit (limit - chain.length) chain) []

/-- No visit that meets a cycle comes after one, of the same stack at the same depth, that meets none. -/
def Consistent (saved : Stacks) (limit : Nat) (log : List Visit) : Prop :=
  log.Pairwise fun u v => u.level v → v.cyclic saved limit = true → u.cyclic saved limit = true

def cycles (fs : List Fault) : Nat := fs.countP Fault.isCyclic

theorem cycles_append (fs gs : List Fault) : cycles (fs ++ gs) = cycles fs + cycles gs := by
  simp [cycles]

theorem cycles_within (raw : String) (fs : List Fault) : cycles (fs.map (.within raw)) = cycles fs := by
  rw [cycles, cycles, List.countP_map]
  rfl

namespace Grouping

def faults (s : Grouping) : List Fault := s.problems.map (·.fault)

theorem cycles_report (s : Grouping) (b : Bool) {f : Fault} (hf : f.isCyclic = false) (t : Token) :
    cycles (s.report b f t).faults = cycles s.faults := by
  cases b with
  | false => rfl
  | true => simp [report, faults, cycles, Problem.atToken, hf]

theorem cycles_take (s : Grouping) (next : Option Clause) {c : Clause}
    (hc : ∀ p, c = .broken p → p.fault.isCyclic = false) :
    cycles (s.take next c).faults = cycles s.faults := by
  cases c with
  | and t => exact (cycles_report _ _ rfl t).trans (cycles_report s _ rfl t)
  | or t => exact (cycles_report _ _ rfl t).trans (cycles_report s _ rfl t)
  | not t =>
    rw [take, takeNot]
    split
    · exact cycles_report s _ rfl t
    · rfl
  | leftParen t => rfl
  | rightParen t =>
    rw [take, takeRightParen]
    split
    · exact cycles_report s _ rfl t
    · rfl
  | term n warning => rfl
  | broken p => simp [take, push, faults, cycles, hc p rfl]
  | reference t name => rfl

theorem cycles_takeReference (s : Grouping) (t : Token) (r : Referral) :
    cycles (s.takeReference t r).faults = cycles s.faults + cycles r.faults := by
  rw [← cycles_append]
  simp [takeReference, push, faults, Problem.atToken, Function.comp_def]

theorem cycles_closeAll (s : Grouping) (outer : List (Token × Level)) :
    cycles (s.closeAll outer).faults = cycles s.faults := by
  induction outer generalizing s with
  | nil => rfl
  | cons o outer ih =>
    obtain ⟨t, around⟩ := o
    rw [closeAll, ih]
    exact cycles_report s true rfl t

theorem cycles_fill {cs : List Clause} (hcs : ∀ p, .broken p ∈ cs → p.fault.isCyclic = false)
    (s : Grouping) {rs : List Referral} (hrs : rs.length = (references cs).length) :
    cycles (s.fill cs rs).faults = cycles s.faults + cycles (rs.flatMap (·.faults)) := by
  induction cs generalizing s rs with
  | nil =>
    obtain rfl : rs = [] := List.length_eq_zero_iff.1 hrs
    rfl
  | cons c cs ih =>
    have hcs' : ∀ p, .broken p ∈ cs → p.fault.isCyclic = false := fun p hp => hcs p (List.mem_cons_of_mem _ hp)
    cases c with
    | reference t name =>
      cases rs with
      | nil => cases hrs
      | cons r rs =>
        rw [fill, ih hcs' _ (Nat.succ.inj hrs), cycles_takeReference, List.flatMap_cons, cycles_append,
          Nat.add_assoc]
    | _ =>
      rw [fill, ih hcs' _ hrs, cycles_take]
      · intro p hp
        exact hcs p (hp ▸ List.mem_cons_self)
      all_goals intros; contradiction

end Grouping

theorem isOwn_of_mem_readAll {stop : Nat} {ts : List Token} {p : Problem}
    (h : .broken p ∈ Clause.readAll stop ts) : p.fault.isOwn = true := by
  induction hn : ts.length using Nat.strongRecOn generalizing ts with
  | ind n ih =>
    subst hn
    cases ts with
    | nil => rw [Clause.readAll] at h; cases h
    | cons t ts =>
      rw [Clause.readAll] at h
      rcases List.mem_cons.1 h with h | h
      · cases hs : Clause.isSign t.kind with
        | false =>
          have ha := Clause.isAtom_read stop ts hs
          rwa [← h] at ha
        | true =>
          cases hk : t.kind <;> simp [hk, Clause.isSign] at hs <;> simp [Clause.read, hk] at h
      · exact ih _ (Nat.lt_succ_of_le (Clause.read_suffix stop t ts).length_le) h rfl

theorem Clause.ofQuery_eq_ok {query : String} {cs : List Clause} (h : Clause.ofQuery query = .ok cs) :
    ∃ ts, Token.scanFrom 0 query.toList = .ok ts ∧ cs = Clause.readAll query.length ts := by
  unfold Clause.ofQuery at h
  cases ht : Token.scanFrom 0 query.toList with
  | error e => rw [ht] at h; cases h
  | ok ts =>
    rw [ht] at h
    cases h
    exact ⟨ts, rfl, rfl⟩

theorem cycles_ofReferrals {query : String} {cs : List Clause} (hcs : Clause.ofQuery query = .ok cs)
    {rs : List Referral} (hrs : rs.length = (Grouping.references cs).length) :
    cycles ((Tree.ofReferrals query cs rs).problems.map (·.fault)) = cycles (rs.flatMap (·.faults)) := by
  have hmem : ∀ p, .broken p ∈ cs → p.fault.isCyclic = false := by
    intro p hp
    obtain ⟨ts, -, rfl⟩ := Clause.ofQuery_eq_ok hcs
    exact Fault.isCyclic_of_isOwn (isOwn_of_mem_readAll hp)
  have hclose := Grouping.cycles_closeAll (.fill .start cs rs) (Grouping.fill .start cs rs).outer
  have hfill := Grouping.cycles_fill hmem .start hrs
  exact (hclose.trans hfill).trans (Nat.zero_add _)

section

variable {ε α β : Type} {f g : α → Except ε β}

theorem mapM_congr {as : List α} (h : ∀ a ∈ as, f a = g a) : as.mapM f = as.mapM g := by
  induction as with
  | nil => rfl
  | cons a as ih =>
    rw [List.mapM_cons, List.mapM_cons, h a List.mem_cons_self,
      ih fun b hb => h b (List.mem_cons_of_mem a hb)]

theorem mapM_cons_eq_ok {a : α} {as : List α} {bs : List β} (h : (a :: as).mapM f = .ok bs) :
    ∃ b bs', f a = .ok b ∧ as.mapM f = .ok bs' ∧ bs = b :: bs' := by
  rw [List.mapM_cons] at h
  cases ha : f a with
  | error e => rw [ha] at h; cases h
  | ok b =>
    cases has : as.mapM f with
    | error e => rw [ha, has] at h; cases h
    | ok bs' =>
      rw [ha, has] at h
      cases h
      exact ⟨b, bs', rfl, rfl, rfl⟩

theorem length_of_mapM {as : List α} {bs : List β} (h : as.mapM f = .ok bs) : bs.length = as.length := by
  induction as generalizing bs with
  | nil => cases h; rfl
  | cons a as ih =>
    obtain ⟨b, bs', -, has, rfl⟩ := mapM_cons_eq_ok h
    exact congrArg Nat.succ (ih has)

end

theorem cycles_mapM {f : String → Except Token.Overrun Referral} {p : String → Bool} {names : List String}
    {rs : List Referral} (hp : ∀ raw ∈ names, ∀ r, f raw = .ok r → (0 < cycles r.faults ↔ p raw = true))
    (h : names.mapM f = .ok rs) : 0 < cycles (rs.flatMap (·.faults)) ↔ names.any p = true := by
  induction names generalizing rs with
  | nil => cases h; simp [cycles]
  | cons raw names ih =>
    obtain ⟨r, rs', hr, hrs, rfl⟩ := mapM_cons_eq_ok h
    have h1 := hp raw List.mem_cons_self r hr
    have h2 := ih (fun raw' hraw' => hp raw' (List.mem_cons_of_mem raw hraw')) hrs
    rw [List.flatMap_cons, cycles_append, List.any_cons, Bool.or_eq_true, ← h1, ← h2]
    omega

namespace Direct

variable {saved : Stacks} {limit : Nat}

theorem tree_eq_ok {refer : String → Except Token.Overrun Referral} {query : String} {t : Tree}
    (h : tree refer query = .ok t) :
    ∃ cs rs, Clause.ofQuery query = .ok cs ∧ references query = Grouping.references cs ∧
      (references query).mapM refer = .ok rs ∧ t = .ofReferrals query cs rs := by
  unfold tree at h
  cases hcs : Clause.ofQuery query with
  | error e => rw [hcs] at h; cases h
  | ok cs =>
    have href : references query = Grouping.references cs := by rw [references, hcs]
    rw [hcs] at h
    simp only [bind, Except.bind, Grouping.run_eq_fill] at h
    cases hrs : (Grouping.references cs).mapM refer with
    | error e => rw [hrs] at h; cases h
    | ok rs =>
      rw [hrs] at h
      cases h
      exact ⟨cs, rs, rfl, href, href ▸ hrs, rfl⟩

theorem tree_congr {f g : String → Except Token.Overrun Referral} {query : String}
    (h : ∀ raw ∈ references query, f raw = g raw) : tree f query = tree g query := by
  unfold tree
  cases hcs : Clause.ofQuery query with
  | error e => rfl
  | ok cs =>
    rw [references, hcs] at h
    simp only [bind, Except.bind, Grouping.run_eq_fill]
    rw [mapM_congr h]

theorem cycles_ofTree (raw : String) (t : Tree) :
    cycles (Referral.ofTree raw t).faults = cycles (t.problems.map (·.fault)) := by
  rw [← cycles_within raw (t.problems.map _)]
  unfold Referral.ofTree
  cases t.root <;> simp [Function.comp_def]

theorem cycles_tree {f : String → Except Token.Overrun Referral} {p : String → Bool} {query : String}
    {t : Tree} (hp : ∀ raw r, f raw = .ok r → (0 < cycles r.faults ↔ p raw = true))
    (h : tree f query = .ok t) :
    0 < cycles (t.problems.map (·.fault)) ↔ (references query).any p = true := by
  obtain ⟨cs, rs, hcs, href, hrs, rfl⟩ := tree_eq_ok h
  rw [cycles_ofReferrals hcs (href ▸ length_of_mapM hrs)]
  exact cycles_mapM (fun raw _ r => hp raw r) hrs

theorem refer_eq_of_cycle {chain : List String} {raw : String}
    (h : (cycleOf (StackName.normalize raw) chain).isEmpty = false) (room : Nat) :
    refer saved limit room chain raw = .ok ⟨.reference raw,
      [.cycle (cycleOf (StackName.normalize raw) chain ++ [StackName.normalize raw])], []⟩ := by
  cases room <;> simp [refer, h]

theorem refer_eq_ok {room : Nat} {chain : List String} {raw query : String} {r : Referral}
    (hc : (cycleOf (StackName.normalize raw) chain).isEmpty = true)
    (hs : saved (StackName.normalize raw) = some query)
    (h : refer saved limit (room + 1) chain raw = .ok r) :
    ∃ t, tree (refer saved limit room (chain ++ [StackName.normalize raw])) query = .ok t ∧
      r = .ofTree raw t := by
  simp only [refer, hc, hs, Bool.not_true] at h
  cases ht : tree (refer saved limit room (chain ++ [StackName.normalize raw])) query with
  | error e => rw [ht] at h; cases h
  | ok t =>
    rw [ht] at h
    cases h
    exact ⟨t, rfl, rfl⟩

theorem cycles_refer (room : Nat) : ∀ {chain : List String} {raw : String} {r : Referral},
    refer saved limit room chain raw = .ok r →
    (0 < cycles r.faults ↔ meetsCycle saved room chain raw = true) := by
  induction room with
  | zero =>
    intro chain raw r h
    cases hc : (cycleOf (StackName.normalize raw) chain).isEmpty <;> simp [refer, hc] at h <;>
      simp [← h, meetsCycle, hc, cycles, Fault.isCyclic]
  | succ room ih =>
    intro chain raw r h
    cases hc : (cycleOf (StackName.normalize raw) chain).isEmpty with
    | false =>
      rw [refer_eq_of_cycle hc] at h
      cases h
      simp [meetsCycle, hc, cycles, Fault.isCyclic]
    | true =>
      cases hs : saved (StackName.normalize raw) with
      | none =>
        simp [refer, hc, hs] at h
        simp [← h, meetsCycle, hc, hs, cycles]
      | some query =>
        obtain ⟨t, ht, rfl⟩ := refer_eq_ok hc hs h
        rw [cycles_ofTree, cycles_tree (fun _ _ => ih) ht]
        simp [meetsCycle, hc, hs]

theorem acyclic_below {room : Nat} {chain : List String} {raw query : String}
    (hs : saved (StackName.normalize raw) = some query)
    (h : meetsCycle saved (room + 1) chain raw = false) :
    (cycleOf (StackName.normalize raw) chain).isEmpty = true ∧
      ∀ raw' ∈ references query, meetsCycle saved room (chain ++ [StackName.normalize raw]) raw' = false := by
  cases hc : (cycleOf (StackName.normalize raw) chain).isEmpty with
  | false => simp [meetsCycle, hc] at h
  | true =>
    simp only [meetsCycle, hs, hc] at h
    exact ⟨rfl, by simpa using h⟩

theorem refer_eq_of_acyclic (room : Nat) : ∀ {chain chain' : List String} {raw : String},
    meetsCycle saved room chain raw = false → meetsCycle saved room chain' raw = false →
    refer saved limit room chain raw = refer saved limit room chain' raw := by
  induction room with
  | zero =>
    intro chain chain' raw h h'
    simp_all [meetsCycle, refer]
  | succ room ih =>
    intro chain chain' raw h h'
    cases hs : saved (StackName.normalize raw) with
    | none => simp_all [meetsCycle, refer]
    | some query =>
      obtain ⟨hc, hb⟩ := acyclic_below hs h
      obtain ⟨hc', hb'⟩ := acyclic_below hs h'
      have ht : tree (refer saved limit room (chain ++ [StackName.normalize raw])) query =
          tree (refer saved limit room (chain' ++ [StackName.normalize raw])) query :=
        tree_congr fun raw' hraw' => ih (hb raw' hraw') (hb' raw' hraw')
      simp only [refer, hc, hc', hs, Bool.not_true, ht]
      rfl

end Direct

section

variable (saved : Stacks) (limit : Nat)

theorem prefix_foldl {α β : Type} {f : List α → β → List α} (h : ∀ log b, log <+: f log b) (bs : List β)
    (log : List α) : log <+: bs.foldl f log := by
  induction bs generalizing log with
  | nil => exact List.prefix_refl _
  | cons b bs ih => exact (h log b).trans (ih _)

theorem mem_foldl {α β : Type} {f : List α → β → List α} {p : α → Prop}
    (h : ∀ log b, ∀ u ∈ f log b, u ∈ log ∨ p u) (bs : List β) (log : List α) :
    ∀ u ∈ bs.foldl f log, u ∈ log ∨ p u := by
  induction bs generalizing log with
  | nil => exact fun u hu => .inl hu
  | cons b bs ih =>
    intro u hu
    rcases ih _ u hu with hu | hu
    · exact h log b u hu
    · exact .inr hu

theorem prefix_visits (room : Nat) : ∀ (chain : List String) (log : List Visit) (raw : String),
    log <+: visits saved limit room chain log raw := by
  induction room with
  | zero =>
    intro chain log raw
    simp [visits]
  | succ room ih =>
    intro chain log raw
    simp only [visits]
    split
    · exact List.prefix_refl _
    · split
      · exact List.prefix_refl _
      · split
        · exact List.prefix_append ..
        · exact (prefix_foldl (ih _) _ log).trans (List.prefix_append ..)

theorem mem_visits (room : Nat) : ∀ (chain : List String) (log : List Visit) (raw : String),
    ∀ u ∈ visits saved limit room chain log raw, u ∈ log ∨ chain.length ≤ u.outer.length := by
  induction room with
  | zero =>
    intro chain log raw u hu
    simp [visits] at hu
    exact .inl hu
  | succ room ih =>
    intro chain log raw u hu
    simp only [visits] at hu
    split at hu
    · exact .inl hu
    · split at hu
      · exact .inl hu
      · rcases List.mem_append.1 hu with hu | hu
        · split at hu
          · exact .inl hu
          · rcases mem_foldl (ih (chain ++ [StackName.normalize raw])) _ log u hu with hu | hlt
            · exact .inl hu
            · rw [List.length_append] at hlt
              exact .inr (Nat.le_of_succ_le hlt)
        · cases List.mem_singleton.1 hu
          exact .inr (Nat.le_refl _)

end

end FilterQuery
