import FilterQuery.Proofs.Expansion.Read
import FilterQuery.Proofs.Places

namespace FilterQuery

def Level.flags (l : Level) : Bool × Bool := (l.touched, l.termSeen)

namespace Grouping

def ownProblems (s : Grouping) : List Problem := s.problems.filter (·.fault.isOwn)

structure Alike (s s' : Grouping) : Prop where
  flags : s'.level.flags = s.level.flags
  outer : s'.outer.map (Prod.map id Level.flags) = s.outer.map (Prod.map id Level.flags)
  own : s'.ownProblems = s.ownProblems

variable {s s' : Grouping}

theorem Alike.touched (h : Alike s s') : s'.level.touched = s.level.touched := congrArg Prod.fst h.flags

theorem Alike.termSeen (h : Alike s s') : s'.level.termSeen = s.level.termSeen := congrArg Prod.snd h.flags

theorem Alike.report (h : Alike s s') (b : Bool) (fault : Fault) (t : Token) :
    Alike (s.report b fault t) (s'.report b fault t) := by
  cases b with
  | false => exact h
  | true =>
    refine ⟨h.flags, h.outer, ?_⟩
    have hown : s'.problems.filter (·.fault.isOwn) = s.problems.filter (·.fault.isOwn) := h.own
    rw [ownProblems, ownProblems, Grouping.report, Grouping.report, if_pos rfl, if_pos rfl, List.filter_append,
      List.filter_append, hown]

theorem Alike.takeRightParen (h : Alike s s') (t : Token) : Alike (s.takeRightParen t) (s'.takeRightParen t) := by
  obtain ⟨l, outer, roots, ps, ws⟩ := s
  obtain ⟨l', outer', roots', ps', ws'⟩ := s'
  have houter := h.outer
  cases outer with
  | nil =>
    obtain rfl : outer' = [] := List.map_eq_nil_iff.1 houter
    have hreport := h.report true .unmatchedParen t
    exact ⟨rfl, hreport.outer, hreport.own⟩
  | cons o outer =>
    cases outer' with
    | nil => cases houter
    | cons o' outer' => exact ⟨rfl, (List.cons.inj houter).2, h.own⟩

theorem Alike.take (h : Alike s s') (next : Option Clause) (c : Clause) : Alike (s.take next c) (s'.take next c) := by
  cases c with
  | and t =>
    have hreport := (h.report (!s.level.termSeen) (.missingBefore t.kind) t).report (lacksTerm next)
      (.missingAfter t.kind) t
    rw [Grouping.take, Grouping.take, takeAnd, takeAnd, h.termSeen]
    exact ⟨congrArg (Prod.mk true) hreport.termSeen, hreport.outer, hreport.own⟩
  | or t =>
    have hreport := (h.report (!s.level.touched) (.missingBefore t.kind) t).report (isBoundary next)
      (.missingAfter t.kind) t
    rw [Grouping.take, Grouping.take, takeOr, takeOr, h.touched]
    exact ⟨rfl, hreport.outer, hreport.own⟩
  | not t =>
    rw [Grouping.take, Grouping.take, takeNot, takeNot]
    split
    · have hreport := h.report true (.missingAfter t.kind) t
      exact ⟨rfl, hreport.outer, hreport.own⟩
    · exact ⟨rfl, h.outer, h.own⟩
  | leftParen t => exact ⟨rfl, congrArg₂ List.cons (congrArg (Prod.mk t) h.flags) h.outer, h.own⟩
  | rightParen t => exact h.takeRightParen t
  | reference => exact h
  | term => exact ⟨rfl, h.outer, h.own⟩
  | broken p =>
    refine ⟨rfl, h.outer, ?_⟩
    have hown : s'.problems.filter (·.fault.isOwn) = s.problems.filter (·.fault.isOwn) := h.own
    rw [ownProblems, ownProblems, Grouping.take, Grouping.take, List.filter_append, List.filter_append, hown]

def AllForeign (rs : List Referral) : Prop := ∀ r ∈ rs, ∀ f ∈ r.faults, f.isOwn = false

theorem ownProblems_takeReference (s : Grouping) (t : Token) {r : Referral} (hr : ∀ f ∈ r.faults, f.isOwn = false) :
    (s.takeReference t r).ownProblems = s.ownProblems := by
  have hnone : (r.faults.map (Problem.atToken · t)).filter (·.fault.isOwn) = [] := by
    rw [List.filter_eq_nil_iff, List.forall_mem_map]
    exact fun f hf => by simp [Problem.atToken, hr f hf]
  rw [ownProblems, takeReference, List.filter_append, hnone, List.append_nil]
  rfl

theorem Alike.fill {cs : List Clause} {rs rs' : List Referral} (h : Alike s s')
    (hlength : rs.length = (references cs).length) (hlength' : rs'.length = (references cs).length)
    (hrs : AllForeign rs) (hrs' : AllForeign rs') : Alike (s.fill cs rs) (s'.fill cs rs') := by
  induction cs generalizing s s' rs rs' with
  | nil => exact h
  | cons c cs ih =>
    cases c with
    | reference t name =>
      cases rs with
      | nil => cases hlength
      | cons r rs =>
        cases rs' with
        | nil => cases hlength'
        | cons r' rs' =>
          obtain ⟨hr, hrs⟩ := List.forall_mem_cons.1 hrs
          obtain ⟨hr', hrs'⟩ := List.forall_mem_cons.1 hrs'
          refine ih ⟨rfl, h.outer, ?_⟩ (Nat.succ.inj hlength) (Nat.succ.inj hlength') hrs hrs'
          rw [ownProblems_takeReference s t hr, ownProblems_takeReference s' t hr', h.own]
    | _ =>
      rw [Grouping.fill, Grouping.fill]
      · exact ih (h.take _ _) hlength hlength' hrs hrs'
      all_goals intros; contradiction

theorem Alike.closeAll (h : Alike s s') {outer outer' : List (Token × Level)}
    (houter : outer'.map (Prod.map id Level.flags) = outer.map (Prod.map id Level.flags)) :
    Alike (s.closeAll outer) (s'.closeAll outer') := by
  induction outer generalizing s s' outer' with
  | nil =>
    obtain rfl : outer' = [] := List.map_eq_nil_iff.1 houter
    exact h
  | cons o outer ih =>
    cases outer' with
    | nil => cases houter
    | cons o' outer' =>
      obtain ⟨t, around⟩ := o
      obtain ⟨t', around'⟩ := o'
      obtain ⟨hhead, hrest⟩ := List.cons.inj houter
      obtain rfl : t' = t := congrArg Prod.fst hhead
      have hreport := h.report true .unclosedParen t'
      have hstep : Alike { s.report true .unclosedParen t' with level := around.push s.level.node }
          { s'.report true .unclosedParen t' with level := around'.push s'.level.node } :=
        ⟨rfl, hreport.outer, hreport.own⟩
      exact ih hstep hrest

def foreignProblems (s : Grouping) : List Problem := s.problems.filter (!·.fault.isOwn)

theorem foreignProblems_report (s : Grouping) (b : Bool) {fault : Fault} (hf : fault.isOwn = true) (t : Token) :
    (s.report b fault t).foreignProblems = s.foreignProblems := by
  cases b with
  | false => rfl
  | true => simp [report, foreignProblems, Problem.atToken, hf]

theorem foreignProblems_take (s : Grouping) (next : Option Clause) {c : Clause}
    (hc : ∀ p, c = .broken p → p.fault.isOwn = true) : (s.take next c).foreignProblems = s.foreignProblems := by
  cases c with
  | and t => exact (foreignProblems_report _ _ rfl t).trans (foreignProblems_report s _ rfl t)
  | or t => exact (foreignProblems_report _ _ rfl t).trans (foreignProblems_report s _ rfl t)
  | not t =>
    rw [take, takeNot]
    split
    · exact foreignProblems_report s true rfl t
    · rfl
  | leftParen | term | reference => rfl
  | rightParen t =>
    rw [take, takeRightParen]
    split
    · exact foreignProblems_report s true rfl t
    · rfl
  | broken p => simp [take, push, foreignProblems, hc p rfl]

theorem foreignProblems_takeReference (s : Grouping) (t : Token) {r : Referral}
    (hr : ∀ f ∈ r.faults, f.isOwn = false) :
    (s.takeReference t r).foreignProblems = s.foreignProblems ++ r.faults.map (.atToken · t) := by
  have hall : (r.faults.map (Problem.atToken · t)).filter (!·.fault.isOwn) = r.faults.map (.atToken · t) := by
    rw [List.filter_eq_self, List.forall_mem_map]
    exact fun f hf => by simp [Problem.atToken, hr f hf]
  rw [foreignProblems, takeReference, List.filter_append, hall]
  rfl

theorem foreignProblems_closeAll (s : Grouping) (outer : List (Token × Level)) :
    (s.closeAll outer).foreignProblems = s.foreignProblems := by
  induction outer generalizing s with
  | nil => rfl
  | cons o outer ih =>
    obtain ⟨t, around⟩ := o
    rw [closeAll, ih]
    exact foreignProblems_report s true rfl t

end Grouping

def Clause.reference? : Clause → Option Token
  | .reference t _ => some t
  | _ => none

theorem Grouping.foreignProblems_fill {cs : List Clause} (hcs : ∀ p, .broken p ∈ cs → p.fault.isOwn = true)
    (s : Grouping) {rs : List Referral} (hlength : rs.length = (references cs).length) (hrs : AllForeign rs) :
    (s.fill cs rs).foreignProblems = s.foreignProblems ++
      (List.zipWith (fun t r => r.faults.map (Problem.atToken · t)) (cs.filterMap Clause.reference?) rs).flatten := by
  induction cs generalizing s rs with
  | nil =>
    obtain rfl : rs = [] := List.length_eq_zero_iff.1 hlength
    exact (List.append_nil _).symm
  | cons c cs ih =>
    have hcs' : ∀ p, .broken p ∈ cs → p.fault.isOwn = true := fun p hp => hcs p (List.mem_cons_of_mem _ hp)
    cases c with
    | reference t name =>
      cases rs with
      | nil => cases hlength
      | cons r rs =>
        obtain ⟨hr, hrs⟩ := List.forall_mem_cons.1 hrs
        rw [fill, ih hcs' _ (Nat.succ.inj hlength) hrs, foreignProblems_takeReference s t hr, List.append_assoc]
        rfl
    | _ =>
      rw [fill, ih hcs' _ hlength hrs, foreignProblems_take]
      · rfl
      · intro p hp
        exact hcs p (hp ▸ List.mem_cons_self)
      all_goals intros; contradiction

namespace Clause

variable {stop : Nat} {ts : List Token}

theorem kind_of_mem_readAll_reference {u : Token} {raw : String} (h : .reference u raw ∈ readAll stop ts) :
    u.kind = .reference raw := by
  fun_induction readAll stop ts with
  | case1 => cases h
  | case2 t ts ih =>
    rcases List.mem_cons.1 h with h | h
    · have hkind := kind_of_read_reference h.symm
      rw [read_reference stop ts hkind] at h
      cases h
      exact hkind
    · exact ih h

theorem within_reference? {cs : List Clause} (hcs : ∀ c ∈ cs, c.Within stop) :
    ∀ u ∈ cs.filterMap reference?, u.Within stop := by
  intro u hu
  obtain ⟨c, hc, hu⟩ := List.mem_filterMap.1 hu
  have hwithin := hcs c hc
  cases c with
  | reference =>
    cases hu
    exact hwithin
  | _ => cases hu

theorem reference?_sublist : ((readAll stop ts).filterMap reference?).Sublist ts := by
  fun_induction readAll stop ts with
  | case1 => exact List.Sublist.refl []
  | case2 t ts ih =>
    have hrest := ih.trans (read_suffix stop t ts).sublist
    cases hc : (read stop t ts).1 with
    | reference u raw =>
      have hkind := kind_of_read_reference hc
      rw [read_reference stop ts hkind] at hc
      cases hc
      exact hrest.cons_cons t
    | _ => exact hrest.cons t

theorem forall₂_reference? {A : String → Referral → Prop} {cs : List Clause} {rs : List Referral}
    (hcs : ∀ u raw, .reference u raw ∈ cs → u.kind = .reference raw)
    (h : List.Forall₂ A (Grouping.references cs) rs) :
    List.Forall₂ (fun u r => ∃ raw, u.kind = .reference raw ∧ A raw r) (cs.filterMap reference?) rs := by
  induction cs generalizing rs with
  | nil =>
    cases h
    exact .nil
  | cons c cs ih =>
    have hcs' : ∀ u raw, .reference u raw ∈ cs → u.kind = .reference raw :=
      fun u raw hu => hcs u raw (List.mem_cons_of_mem _ hu)
    cases c with
    | reference u raw =>
      cases h with
      | cons hr hrs => exact .cons ⟨raw, hcs u raw List.mem_cons_self, hr⟩ (ih hcs' hrs)
    | _ => exact ih hcs' h

end Clause

inductive Fault.IsReported (saved : Stacks) (limit : Nat) : String → Fault → Prop
  | cycle {raw : String} (names : List String) :
      IsReported saved limit raw (.cycle (names ++ [StackName.normalize raw]))
  | tooDeep {raw : String} : IsReported saved limit raw (.tooDeep limit)
  | own {raw query : String} {t : Tree} {p : Problem} : saved (StackName.normalize raw) = some query →
      Tree.parse query = .ok t → p ∈ t.problems → IsReported saved limit raw (.within raw p.fault)
  | inner {raw query raw' : String} {f : Fault} : saved (StackName.normalize raw) = some query →
      raw' ∈ references query → IsReported saved limit raw' f → IsReported saved limit raw (.within raw f)

theorem Fault.IsReported.isOwn {saved : Stacks} {limit : Nat} {raw : String} {f : Fault}
    (h : f.IsReported saved limit raw) : f.isOwn = false := by
  cases h <;> rfl

def Token.ComesTo (saved : Stacks) (limit : Nat) (t : Token) (fs : List Fault) : Prop :=
  ∃ raw, t.kind = .reference raw ∧ ∀ f ∈ fs, f.IsReported saved limit raw

/-- Whether the problems of the tree of a query are in their places: each on characters of the query, and those of
references, in order, on the whole of the token that led to them. -/
structure Tree.IsPlaced (saved : Stacks) (limit : Nat) (query : String) (t : Tree) : Prop where
  inside : ∀ p ∈ t.problems, 1 ≤ p.length ∧ p.position + p.length ≤ query.length
  referred : ∃ tokens us fss, Token.tokenize query = .ok tokens ∧ us.Sublist tokens ∧
    List.Forall₂ (Token.ComesTo saved limit) us fss ∧ t.problems.filter (!·.fault.isOwn) =
      (List.zipWith (fun u fs => fs.map fun f => ⟨f, u.position, u.length⟩) us fss).flatten

section

variable {saved : Stacks} {limit : Nat} {query : String} {cs : List Clause} {rs : List Referral}

def ReportsAll (saved : Stacks) (limit : Nat) (name : String) (_depth : Nat) (e : Expansion) : Prop :=
  ∀ raw, StackName.normalize raw = name → ∀ f ∈ e.faults, (Fault.within raw f).IsReported saved limit raw

theorem isReported_of_answer {chain : List String} {raw : String} {r : Referral}
    (h : Answer saved limit (ReportsAll saved limit) chain raw r) :
    ∀ f ∈ r.faults, f.IsReported saved limit raw := by
  cases h with
  | cycle => exact List.forall_mem_singleton.2 (.cycle _)
  | full => exact List.forall_mem_singleton.2 .tooDeep
  | unknown => exact List.forall_mem_nil _
  | @expansion e _ _ he =>
    rw [e.faults_referral]
    exact List.forall_mem_map.2 (he raw rfl)

theorem comesTo_of_isReported (hcs : Clause.ofQuery query = .ok cs) (hrs : List.Forall₂
      (fun raw r => ∀ f ∈ r.faults, f.IsReported saved limit raw) (Grouping.references cs) rs) :
    List.Forall₂ (fun u r => Token.ComesTo saved limit u r.faults) (cs.filterMap Clause.reference?) rs := by
  have hkind : ∀ u raw, .reference u raw ∈ cs → u.kind = .reference raw := by
    obtain ⟨ts, -, rfl⟩ := Clause.ofQuery_eq_ok hcs
    exact fun u raw => Clause.kind_of_mem_readAll_reference
  exact Clause.forall₂_reference? hkind hrs

theorem exists_reference_of_isReported (hcs : Clause.ofQuery query = .ok cs) (hrs : List.Forall₂
      (fun raw r => ∀ f ∈ r.faults, f.IsReported saved limit raw) (Grouping.references cs) rs)
    {r : Referral} (hr : r ∈ rs) {f : Fault} (hf : f ∈ r.faults) :
    ∃ raw ∈ references query, f.IsReported saved limit raw := by
  rw [references_of_ofQuery hcs]
  rw [← List.map_snd_zip hrs.length_eq.ge] at hr
  obtain ⟨⟨raw, r⟩, hp, rfl⟩ := List.mem_map.1 hr
  exact ⟨raw, (List.of_mem_zip hp).1, (List.forall₂_iff_zip.1 hrs).2 hp f hf⟩

theorem Grouping.allForeign_of_comesTo {us : List Token}
    (h : List.Forall₂ (fun u r => Token.ComesTo saved limit u r.faults) us rs) : AllForeign rs := by
  induction h with
  | nil => exact fun r hr => absurd hr List.not_mem_nil
  | cons hr _ ih =>
    obtain ⟨raw, -, hr⟩ := hr
    exact List.forall_mem_cons.2 ⟨fun f hf => (hr f hf).isOwn, ih⟩

theorem isOwn_of_ofQuery (hcs : Clause.ofQuery query = .ok cs) : ∀ p, .broken p ∈ cs → p.fault.isOwn = true := by
  obtain ⟨ts, -, rfl⟩ := Clause.ofQuery_eq_ok hcs
  exact fun p => isOwn_of_mem_readAll

namespace Tree

theorem mem_problems_of_isOwn (hlength : rs.length = (Grouping.references cs).length) (hrs : Grouping.AllForeign rs)
    {p : Problem} (hp : p ∈ (ofReferrals query cs rs).problems) (hown : p.fault.isOwn = true) :
    p ∈ (ofClauses query cs).problems := by
  have hstart : Grouping.Alike .start .start := ⟨rfl, rfl, rfl⟩
  have hunresolved : Grouping.AllForeign ((Grouping.references cs).map unresolved) :=
    List.forall_mem_map.2 fun _ _ => List.forall_mem_nil _
  have hfill := hstart.fill hlength (List.length_map _) hrs hunresolved
  have hclose := (hfill.closeAll hfill.outer).own
  have hmem : p ∈ ((Grouping.fill .start cs rs).closeAll (Grouping.fill .start cs rs).outer).ownProblems :=
    List.mem_filter.2 ⟨hp, hown⟩
  rw [← hclose] at hmem
  rw [ofClauses_eq_ofReferrals]
  exact List.mem_of_mem_filter hmem

theorem foreign_ofReferrals (hcs : Clause.ofQuery query = .ok cs)
    (hlength : rs.length = (Grouping.references cs).length) (hrs : Grouping.AllForeign rs) :
    (ofReferrals query cs rs).problems.filter (!·.fault.isOwn) = (List.zipWith
      (fun u r => r.faults.map (Problem.atToken · u)) (cs.filterMap Clause.reference?) rs).flatten := by
  have hfill := Grouping.foreignProblems_fill (isOwn_of_ofQuery hcs) .start hlength hrs
  have hclose := Grouping.foreignProblems_closeAll (.fill .start cs rs) (Grouping.fill .start cs rs).outer
  exact hclose.trans hfill

end Tree

theorem invariant_reportsAll (saved : Stacks) (limit : Nat) :
    Reading.Invariant saved limit (fun _ _ => True) (ReportsAll saved limit) where
  descend _ _ _ _ := trivial
  expand {chain name query cs rs} hsaved _ _ hcs hrs _ := by
    rintro raw rfl
    have hreported := hrs.imp fun _ _ => isReported_of_answer
    have hforeign := Grouping.allForeign_of_comesTo (comesTo_of_isReported hcs hreported)
    have hfaults := Tree.faults_ofReferrals
      (P := fun f => f.isOwn = true ∨ ∃ raw ∈ references query, f.IsReported saved limit raw)
      (fun _ hf => .inl hf) hcs fun r hr f hf => .inr (exists_reference_of_isReported hcs hreported hr hf)
    refine List.forall_mem_map.2 fun p hp => ?_
    rcases hfaults p hp with hown | ⟨raw', hraw', hf⟩
    · have hparse : Tree.parse query = .ok (Tree.ofClauses query cs) := by
        rw [Tree.parse, hcs]
        rfl
      exact .own hsaved hparse (Tree.mem_problems_of_isOwn hrs.length_eq.symm hforeign hp hown)
    · exact .inner hsaved hraw' hf

end

namespace Tree

variable {saved : Stacks} {limit : Nat} {origin : Option String} {query : String} {t : Tree}

theorem isPlaced_ofReferrals {cs : List Clause} {rs : List Referral} (hcs : Clause.ofQuery query = .ok cs)
    (hrs : List.Forall₂ (fun u r => Token.ComesTo saved limit u r.faults) (cs.filterMap Clause.reference?) rs)
    (hlength : rs.length = (Grouping.references cs).length) : (ofReferrals query cs rs).IsPlaced saved limit query := by
  refine ⟨within_ofReferrals hcs rs, ?_⟩
  have hwithin := Clause.within_reference? (Clause.within_ofQuery hcs)
  obtain ⟨ts, hts, rfl⟩ := Clause.ofQuery_eq_ok hcs
  have htokens : Token.tokenize query = .ok (ts ++ [Token.finish query]) := by
    rw [Token.tokenize, hts]
    rfl
  have hsublist : ((Clause.readAll query.length ts).filterMap Clause.reference?).Sublist (ts ++ [.finish query]) :=
    Clause.reference?_sublist.trans (List.sublist_append_left ts [.finish query])
  refine ⟨_, _, rs.map (·.faults), htokens, hsublist, List.forall₂_map_right_iff.2 hrs, ?_⟩
  rw [foreign_ofReferrals hcs hlength (Grouping.allForeign_of_comesTo hrs), List.zipWith_map_right]
  refine congrArg List.flatten (List.zipWith_congr _ _ _ _ (List.forall₂_iff_zip.2 ⟨hrs.length_eq, ?_⟩))
  intro u r hp
  exact List.map_congr_left fun f _ => Problem.atToken_of_within f (hwithin u (List.of_mem_zip hp).1)

/-- The problems of a query that is read, with stacks or without, are in their places. -/
theorem problems_placed (h : parse query = .ok t ∨ parseWith saved limit origin query = .ok t) :
    t.IsPlaced saved (max limit 1) query := by
  rcases h with h | h
  · obtain ⟨cs, hcs, rfl⟩ := ofClauses_of_parse h
    rw [ofClauses_eq_ofReferrals]
    have hnone : ∀ raw, ∀ f ∈ (unresolved raw).faults, f.IsReported saved (max limit 1) raw :=
      fun _ => List.forall_mem_nil _
    have hreported : List.Forall₂ (fun raw r => ∀ f ∈ r.faults, f.IsReported saved (max limit 1) raw)
        (Grouping.references cs) ((Grouping.references cs).map unresolved) :=
      List.forall₂_map_right_iff.2 (List.forall₂_same.2 fun raw _ => hnone raw)
    exact isPlaced_ofReferrals hcs (comesTo_of_isReported hcs hreported) (List.length_map _)
  · obtain ⟨cs, rs, hcs, hrs, rfl⟩ := answers_parseWith (invariant_reportsAll saved (max limit 1)) trivial h
    have hreported := hrs.imp fun _ _ => isReported_of_answer
    exact isPlaced_ofReferrals hcs (comesTo_of_isReported hcs hreported) hrs.length_eq.symm

def layered : Stacks := fun name => [("outer", "words:many @Inner"), ("inner", "x | @outer")].lookup name

theorem problems_placed_layered : ∃ t, parseWith layered 8 none "(date: @Outer -/[/" = .ok t ∧
    t.problems.length = 5 ∧ t.IsPlaced layered 8 "(date: @Outer -/[/" := by
  have hread : ((parseWith layered 8 none "(date: @Outer -/[/").toOption.any (·.problems.length == 5)) = true := by
    decide +kernel
  cases ht : parseWith layered 8 none "(date: @Outer -/[/" with
  | error o =>
    rw [ht] at hread
    cases hread
  | ok t =>
    rw [ht] at hread
    exact ⟨t, rfl, beq_iff_eq.1 hread, problems_placed (.inr ht)⟩

end Tree

end FilterQuery
