import FilterQuery.Proofs.Expansion
import FilterQuery.Proofs.Grammar.Acceptance

namespace FilterQuery

open Token (Kind)

/-- Whether a query refers to a stack, by the normal form of its name. -/
def Mentions (query name : String) : Prop :=
  ∃ ts, Token.tokenize query = .ok ts ∧
    ∃ t ∈ ts, ∃ raw, t.kind = .reference raw ∧ StackName.normalize raw = name

namespace Grammar

theorem Term.ne_reference {s : Option Stance} {ks : List Kind} {next : Option Kind} {n : Node}
    (h : Term s ks next n) (raw : String) : .reference raw ∉ ks := by
  cases h with
  | named _ hv =>
    simp only [List.mem_cons, List.not_mem_nil, or_false, reduceCtorEq, false_or]
    rintro rfl
    cases hv
  | compared _ _ hv | comparedBare _ _ hv | upTo _ hv | period _ hv | equal _ _ hv | upFrom _ hv =>
    simp only [List.mem_cons, List.not_mem_nil, or_false, reduceCtorEq, false_or]
    rintro rfl
    cases hv.1
  | range _ hv hu =>
    simp only [List.mem_cons, List.not_mem_nil, or_false, reduceCtorEq, false_or]
    rintro (rfl | rfl)
    · cases hv.1
    · cases hu
  | _ => simp

end Grammar

namespace Clause

variable {stop : Nat} {t u : Token} {ts : List Token} {raw : String}

theorem kind_of_read_reference (h : (read stop t ts).1 = .reference u raw) : t.kind = .reference raw := by
  cases hs : isSign t.kind with
  | false =>
    have ha := isAtom_read stop ts hs
    rw [h] at ha
    cases ha
  | true =>
    cases hk : t.kind <;> simp [hk, isSign] at hs <;> simp [read, hk] at h
    rw [h.2]

theorem read_keeps_references (hb : ∀ p, (read stop t ts).1 ≠ .broken p) (hu : u ∈ ts)
    (hk : u.kind = .reference raw) : u ∈ (read stop t ts).2 := by
  cases hs : isSign t.kind with
  | true => cases hk' : t.kind <;> simp [hk', isSign] at hs <;> simpa [read, hk'] using hu
  | false =>
    have ha := isAtom_read stop ts hs
    rcases hread : read stop t ts with ⟨c, rest⟩
    rw [hread] at ha hb
    cases c with
    | term n w =>
      obtain ⟨us, rfl, hunary⟩ := Grammar.unary_of_read_eq_term hread
      refine (List.mem_append.1 hu).resolve_left fun hu => ?_
      have hmem : Kind.reference raw ∈ t.kind :: us.map (·.kind) :=
        List.mem_cons_of_mem _ (hk ▸ List.mem_map_of_mem hu)
      generalize hks : t.kind :: us.map (·.kind) = ks at hunary hmem
      generalize some n = m at hunary
      cases hunary with
      | plain h => exact h.ne_reference raw hmem
      | signed h => exact h.ne_reference raw (by simpa using hmem)
      | _ =>
        rw [(List.cons.inj hks).1] at hs
        cases hs
    | broken p => exact absurd rfl (hb p)
    | _ => cases ha

theorem exists_token_of_mem_references (h : raw ∈ Grouping.references (readAll stop ts)) :
    ∃ t ∈ ts, t.kind = .reference raw := by
  fun_induction readAll stop ts with
  | case1 => cases h
  | case2 t ts ih =>
    have hrest : raw ∈ Grouping.references (readAll stop (read stop t ts).2) →
        ∃ u ∈ t :: ts, u.kind = .reference raw := fun h => by
      obtain ⟨u, hu, hk⟩ := ih h
      exact ⟨u, List.mem_cons_of_mem t ((read_suffix stop t ts).mem hu), hk⟩
    cases hc : (read stop t ts).1 with
    | reference u name =>
      rw [hc] at h
      rcases List.mem_cons.1 h with rfl | h
      · exact ⟨t, List.mem_cons_self, kind_of_read_reference hc⟩
      · exact hrest h
    | _ =>
      rw [hc] at h
      exact hrest h

theorem mem_references_of_token (hb : ∀ p, .broken p ∉ readAll stop ts) (hu : u ∈ ts)
    (hk : u.kind = .reference raw) : raw ∈ Grouping.references (readAll stop ts) := by
  fun_induction readAll stop ts with
  | case1 => cases hu
  | case2 t ts ih =>
    have hread : ∀ p, (read stop t ts).1 ≠ .broken p := fun p hp => hb p (hp ▸ List.mem_cons_self)
    rcases List.mem_cons.1 hu with rfl | hu
    · rw [read_reference stop ts hk]
      exact List.mem_cons_self
    · have hrest := ih (fun p hp => hb p (List.mem_cons_of_mem _ hp)) (read_keeps_references hread hu hk)
      cases (read stop t ts).1 with
      | reference => exact List.mem_cons_of_mem _ hrest
      | _ => exact hrest

end Clause

theorem mentions_of_mem_references {query raw : String} (h : raw ∈ references query) :
    Mentions query (StackName.normalize raw) := by
  unfold references at h
  split at h
  · next cs hcs =>
    obtain ⟨ts, hts, rfl⟩ := Clause.ofQuery_eq_ok hcs
    obtain ⟨t, ht, hk⟩ := Clause.exists_token_of_mem_references h
    refine ⟨ts ++ [Token.finish query], ?_, t, List.mem_append_left _ ht, raw, hk, rfl⟩
    rw [Token.tokenize, hts]
    rfl
  · cases h

theorem Mentions.mem_references {query name : String} {cs : List Clause} (h : Mentions query name)
    (hcs : Clause.ofQuery query = .ok cs) (hb : ∀ p, .broken p ∉ cs) :
    ∃ raw ∈ Grouping.references cs, StackName.normalize raw = name := by
  obtain ⟨ts, hts, t, ht, raw, hk, rfl⟩ := h
  obtain ⟨us, hus, rfl⟩ := Clause.ofQuery_eq_ok hcs
  obtain ⟨us', hus', rfl⟩ := Token.tokenize_eq_ok hts
  cases hus.symm.trans hus'
  rcases List.mem_append.1 ht with ht | ht
  · exact ⟨raw, Clause.mem_references_of_token hb ht hk, rfl⟩
  · rw [List.mem_singleton.1 ht] at hk
    cases hk

theorem tokenize_of_ofQuery {query : String} {o : Token.Overrun} (h : Clause.ofQuery query = .error o) :
    Token.tokenize query = .error o := by
  unfold Clause.ofQuery at h
  unfold Token.tokenize
  cases hts : Token.scanFrom 0 query.toList with
  | ok ts =>
    rw [hts] at h
    cases h
  | error e =>
    rw [hts] at h
    cases h
    rfl

namespace Grouping

section

variable {P : Fault → Prop} {s : Grouping}

theorem faults_report (hs : ∀ f ∈ s.faults, P f) {g : Fault} (hg : P g) (b : Bool) (t : Token) :
    ∀ f ∈ (s.report b g t).faults, P f := by
  cases b with
  | false => exact hs
  | true =>
    intro f hf
    rw [report, if_pos rfl, faults, List.map_append] at hf
    rcases List.mem_append.1 hf with hf | hf
    · exact hs f hf
    · rw [List.mem_singleton.1 hf]
      exact hg

variable (hP : ∀ f : Fault, f.isOwn = true → P f)

include hP

theorem faults_take (hs : ∀ f ∈ s.faults, P f) (next : Option Clause) {c : Clause}
    (hc : ∀ p, c = .broken p → p.fault.isOwn = true) : ∀ f ∈ (s.take next c).faults, P f := by
  cases c with
  | and t => exact faults_report (faults_report hs (hP _ rfl) _ t) (hP _ rfl) _ t
  | or t => exact faults_report (faults_report hs (hP _ rfl) _ t) (hP _ rfl) _ t
  | not t =>
    rw [take, takeNot]
    split
    · exact faults_report hs (hP _ rfl) true t
    · exact hs
  | leftParen t => exact hs
  | rightParen t =>
    rw [take, takeRightParen]
    split
    · exact faults_report hs (hP _ rfl) true t
    · exact hs
  | term n w => exact hs
  | broken p =>
    intro f hf
    rw [faults, take, List.map_append] at hf
    rcases List.mem_append.1 hf with hf | hf
    · exact hs f hf
    · rw [List.mem_singleton.1 hf]
      exact hP _ (hc p rfl)
  | reference t name => exact hs

omit hP in
theorem faults_takeReference (hs : ∀ f ∈ s.faults, P f) (t : Token) {r : Referral}
    (hr : ∀ f ∈ r.faults, P f) : ∀ f ∈ (s.takeReference t r).faults, P f := by
  intro f hf
  rw [faults, takeReference, List.map_append, List.map_map] at hf
  rcases List.mem_append.1 hf with hf | hf
  · exact hs f hf
  · obtain ⟨g, hg, rfl⟩ := List.mem_map.1 hf
    exact hr g hg

theorem faults_fill {cs : List Clause} {rs : List Referral} (hs : ∀ f ∈ s.faults, P f)
    (hcs : ∀ p, .broken p ∈ cs → p.fault.isOwn = true) (hrs : ∀ r ∈ rs, ∀ f ∈ r.faults, P f) :
    ∀ f ∈ (s.fill cs rs).faults, P f := by
  fun_induction fill s cs rs with
  | case1 => exact hs
  | case2 s t name cs r rs ih =>
    exact ih (faults_takeReference hs t (hrs r List.mem_cons_self))
      (fun p hp => hcs p (List.mem_cons_of_mem _ hp)) fun r hr => hrs r (List.mem_cons_of_mem _ hr)
  | case3 s t name cs ih => exact ih hs (fun p hp => hcs p (List.mem_cons_of_mem _ hp)) hrs
  | case4 s c cs rs h1 h2 ih =>
    exact ih (faults_take hP hs _ fun p hp => hcs p (hp ▸ List.mem_cons_self))
      (fun p hp => hcs p (List.mem_cons_of_mem _ hp)) hrs

theorem faults_closeAll (hs : ∀ f ∈ s.faults, P f) (outer : List (Token × Level)) :
    ∀ f ∈ (s.closeAll outer).faults, P f := by
  induction outer generalizing s with
  | nil => exact hs
  | cons o outer ih =>
    obtain ⟨t, around⟩ := o
    exact ih (faults_report hs (hP _ rfl) true t)

end

theorem problems_take (s : Grouping) (next : Option Clause) (c : Clause) :
    s.problems <+: (s.take next c).problems := by
  have hstep := Grammar.problems_step s next c
  cases c with
  | reference => exact List.prefix_refl _
  | _ => exact hstep

theorem problems_fill (s : Grouping) (cs : List Clause) (rs : List Referral) :
    s.problems <+: (s.fill cs rs).problems := by
  fun_induction fill s cs rs with
  | case1 => exact List.prefix_refl _
  | case2 s t name cs r rs ih => exact (List.prefix_append ..).trans ih
  | case3 s t name cs ih => exact ih
  | case4 s c cs rs h1 h2 ih => exact (problems_take ..).trans ih

theorem mem_faults_fill {s : Grouping} {cs : List Clause} {rs : List Referral}
    (hrs : rs.length = (references cs).length) {r : Referral} (hr : r ∈ rs) {f : Fault} (hf : f ∈ r.faults) :
    f ∈ (s.fill cs rs).faults := by
  induction cs generalizing s rs with
  | nil =>
    obtain rfl : rs = [] := List.length_eq_zero_iff.1 hrs
    cases hr
  | cons c cs ih =>
    cases c with
    | reference t name =>
      cases rs with
      | nil => cases hrs
      | cons r' rs =>
        rw [fill]
        rcases List.mem_cons.1 hr with rfl | hr
        · refine ((problems_fill _ cs rs).map (·.fault)).subset ?_
          simp [takeReference, Problem.atToken, hf]
        · exact ih (Nat.succ.inj hrs) hr
    | _ =>
      rw [fill]
      · exact ih hrs hr
      all_goals intros; contradiction

theorem unbroken_of_fill {s : Grouping} {cs : List Clause} {rs : List Referral}
    (h : (s.fill cs rs).problems = []) : ∀ p, .broken p ∉ cs := by
  fun_induction fill s cs rs with
  | case1 => exact fun p => List.not_mem_nil
  | case2 s t name cs r rs ih => simpa using ih h
  | case3 s t name cs ih => simpa using ih h
  | case4 s c cs rs h1 h2 ih =>
    intro p hp
    rcases List.mem_cons.1 hp with rfl | hp
    · have hs : (s.take cs.head? (.broken p)).problems = [] := List.prefix_nil.1 (h ▸ problems_fill _ cs rs)
      simp [take] at hs
    · exact ih h p hp

theorem clean_of_fill {s : Grouping} {cs : List Clause} {rs : List Referral}
    (hrs : rs.length = (references cs).length) (h : (s.fill cs rs).problems = []) :
    (∀ p, .broken p ∉ cs) ∧ ∀ r ∈ rs, r.faults = [] := by
  refine ⟨unbroken_of_fill h, fun r hr => List.eq_nil_iff_forall_not_mem.2 fun f hf => ?_⟩
  have hmem := mem_faults_fill (s := s) hrs hr hf
  rw [faults, h] at hmem
  cases hmem

end Grouping

namespace Tree

variable {query : String} {cs : List Clause} {rs : List Referral}

theorem faults_ofReferrals {P : Fault → Prop} (hP : ∀ f : Fault, f.isOwn = true → P f)
    (hcs : Clause.ofQuery query = .ok cs) (hrs : ∀ r ∈ rs, ∀ f ∈ r.faults, P f) :
    ∀ p ∈ (ofReferrals query cs rs).problems, P p.fault := by
  have hbroken : ∀ p, .broken p ∈ cs → p.fault.isOwn = true := by
    obtain ⟨ts, -, rfl⟩ := Clause.ofQuery_eq_ok hcs
    exact fun p hp => isOwn_of_mem_readAll hp
  have hfill := Grouping.faults_fill hP (s := .start) nofun hbroken hrs
  exact fun p hp => Grouping.faults_closeAll hP hfill _ p.fault (List.mem_map_of_mem hp)

theorem exists_problem_of_mem_faults (hrs : rs.length = (Grouping.references cs).length) {r : Referral}
    (hr : r ∈ rs) {f : Fault} (hf : f ∈ r.faults) : ∃ p ∈ (ofReferrals query cs rs).problems, p.fault = f := by
  have hclose := Grammar.problems_closeAll (.fill .start cs rs) (Grouping.fill .start cs rs).outer
  obtain ⟨p, hp, rfl⟩ := List.mem_map.1 (Grouping.mem_faults_fill (s := .start) hrs hr hf)
  exact ⟨p, hclose.subset hp, rfl⟩

theorem clean_of_problems (hrs : rs.length = (Grouping.references cs).length)
    (h : (ofReferrals query cs rs).problems = []) : (∀ p, .broken p ∉ cs) ∧ ∀ r ∈ rs, r.faults = [] := by
  have hclose := Grammar.problems_closeAll (.fill .start cs rs) (Grouping.fill .start cs rs).outer
  have h : ((Grouping.fill .start cs rs).closeAll (Grouping.fill .start cs rs).outer).problems = [] := h
  rw [h] at hclose
  exact Grouping.clean_of_fill hrs (List.prefix_nil.1 hclose)

end Tree

end FilterQuery
