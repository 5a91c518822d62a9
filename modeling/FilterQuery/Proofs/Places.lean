import FilterQuery.Proofs.Expansion
import FilterQuery.Proofs.Tiling

namespace FilterQuery

def Token.Within (stop : Nat) (t : Token) : Prop := 1 ≤ t.length ∧ t.stop ≤ stop

def Problem.Within (stop : Nat) (p : Problem) : Prop := 1 ≤ p.length ∧ p.position + p.length ≤ stop

def Clause.Within (stop : Nat) : Clause → Prop
  | .and t | .or t | .not t | .leftParen t | .rightParen t | .reference t _ => t.Within stop
  | .term .. => True
  | .broken p => p.Within stop

section

variable {stop : Nat} {t : Token}

theorem Token.Within.position_lt (h : t.Within stop) : t.position < stop := by
  obtain ⟨hlength, hstop⟩ := h
  rw [Token.stop] at hstop
  omega

theorem Problem.within_atToken (fault : Fault) (h : t.Within stop) : (atToken fault t).Within stop := by
  obtain ⟨hlength, hstop⟩ := h
  rw [Token.stop] at hstop
  refine ⟨Nat.le_max_right .., ?_⟩
  change t.position + max t.length 1 ≤ stop
  omega

theorem Problem.atToken_of_within (fault : Fault) (h : t.Within stop) :
    atToken fault t = ⟨fault, t.position, t.length⟩ := by
  rw [atToken, Nat.max_eq_left h.1]

theorem Problem.within_between (fault : Fault) {first last : Nat} (hfirst : first < stop) (hlast : last ≤ stop) :
    (between fault first last).Within stop := by
  refine ⟨Nat.le_max_right .., ?_⟩
  change first + max (last - first) 1 ≤ stop
  omega

end

namespace Clause

open Problem (within_atToken within_between)

variable {stop : Nat} {sign : Option Sign} {t : Token} {ts : List Token}

theorem within_signed (hsign : ∀ x ∈ sign, x.1.Within stop) (l : Leaf) : (signed sign l).Within stop := by
  unfold signed
  split
  · trivial
  · exact within_atToken _ (hsign _ rfl)
  · exact within_atToken _ (hsign _ rfl)
  · trivial

theorem within_regex (hsign : ∀ x ∈ sign, x.1.Within stop) (ht : t.Within stop) (p f : String)
    (field : Option String) : (Clause.regex sign t p f field).Within stop := by
  unfold Clause.regex
  split
  · exact within_atToken _ ht
  · exact within_signed hsign _

theorem within_lone (hsign : ∀ x ∈ sign, x.1.Within stop) (c : Category) (v : String) :
    (lone sign c v).Within stop := by
  unfold lone
  split
  · trivial
  · exact within_signed hsign _

theorem within_operand (ht : t.Within stop) (hts : ∀ u ∈ ts, u.Within stop) {c : Category} {p : Problem}
    (h : (operand c t ts).1 = .error p) : p.Within stop := by
  unfold operand at h
  split at h
  · cases h
    exact within_atToken _ ht
  · split at h
    · split at h <;> cases h
      exact within_atToken _ (hts _ List.mem_cons_self)
    · cases h
      exact within_atToken _ ht

theorem within_compared (hsign : ∀ x ∈ sign, x.1.Within stop) (ht : t.Within stop) (hts : ∀ u ∈ ts, u.Within stop)
    (c : Category) (op : Comparator) : (compared sign c op (operand c t ts).1).Within stop := by
  cases h : (operand c t ts).1 with
  | ok v => exact within_signed hsign _
  | error p => exact within_operand ht hts h

theorem within_range (hsign : ∀ x ∈ sign, x.1.Within stop) (hts : ∀ u ∈ ts, u.Within stop) (c : Category)
    (v : String) : (Clause.range sign c v ts).1.Within stop := by
  unfold Clause.range
  split
  · exact within_lone hsign c v
  · next u us =>
    obtain ⟨-, hus⟩ := List.forall_mem_cons.1 hts
    split
    · exact within_lone hsign c v
    · split
      · exact within_signed hsign _
      · split
        · exact within_signed hsign _
        · split
          · exact within_atToken _ (hus _ List.mem_cons_self)
          · exact within_signed hsign _

theorem within_comparison (hsign : ∀ x ∈ sign, x.1.Within stop) {first : Nat} (hfirst : first < stop)
    (hts : ∀ u ∈ ts, u.Within stop) (c : Category) (previous : Nat) :
    (comparison stop sign c first previous ts).1.Within stop := by
  unfold comparison
  split
  · exact within_between _ hfirst (Nat.le_refl stop)
  · next u us =>
    obtain ⟨hu, hus⟩ := List.forall_mem_cons.1 hts
    split
    · exact within_compared hsign hu hus c _
    · split
      · exact within_between _ hfirst hu.position_lt.le
      · split
        · exact within_atToken _ hu
        · exact within_range hsign hus c _

theorem within_fieldValue (hsign : ∀ x ∈ sign, x.1.Within stop) {first : Nat} (hfirst : first < stop)
    (hts : ∀ u ∈ ts, u.Within stop) (name : String) (previous : Nat) :
    (fieldValue stop sign name first previous ts).1.Within stop := by
  unfold fieldValue
  split
  · exact within_between _ hfirst (Nat.le_refl stop)
  · next u us =>
    obtain ⟨hu, -⟩ := List.forall_mem_cons.1 hts
    split
    case h_1 | h_2 | h_3 => split <;> trivial
    case h_4 =>
      split
      · trivial
      · exact within_signed hsign _
    case h_5 => exact within_regex hsign hu ..
    case h_6 => exact within_signed hsign _
    case h_7 => exact within_between _ hfirst hu.position_lt.le

theorem within_wordTerm (hsign : ∀ x ∈ sign, x.1.Within stop) (ht : t.Within stop) (hts : ∀ u ∈ ts, u.Within stop)
    (w : String) : (wordTerm stop sign t w ts).1.Within stop := by
  have hfirst : ((sign.map (·.1)).getD t).position < stop := by
    cases sign with
    | none => exact ht.position_lt
    | some x => exact (hsign x rfl).position_lt
  unfold wordTerm
  split
  · trivial
  · next u us =>
    obtain ⟨-, hus⟩ := List.forall_mem_cons.1 hts
    split
    · split
      · exact within_comparison hsign hfirst hus ..
      · exact within_fieldValue hsign hfirst hus ..
    · split
      · split
        · exact within_comparison hsign hfirst hts ..
        · trivial
      · trivial

theorem within_readTerm (hsign : ∀ x ∈ sign, x.1.Within stop) (ht : t.Within stop) (hts : ∀ u ∈ ts, u.Within stop) :
    (readTerm stop sign t ts).1.Within stop := by
  unfold readTerm
  split
  case h_1 => exact within_wordTerm hsign ht hts _
  case h_5 => exact within_regex hsign ht ..
  case h_6 => exact within_signed hsign _
  case h_7 => exact within_atToken _ ht
  all_goals trivial

theorem within_read (ht : t.Within stop) (hts : ∀ u ∈ ts, u.Within stop) : (read stop t ts).1.Within stop := by
  have hnone : ∀ x ∈ (none : Option Sign), x.1.Within stop := nofun
  unfold read
  split
  case h_7 => exact within_atToken _ ht
  case h_8 s _ =>
    have hsign : ∀ x ∈ some (t, s), x.1.Within stop := by
      rintro x ⟨⟩
      exact ht
    split
    · next u us =>
      obtain ⟨hu, hus⟩ := List.forall_mem_cons.1 hts
      split
      · exact within_readTerm hsign hu hus
      · exact within_atToken _ ht
    · exact within_atToken _ ht
  case h_9 | h_10 => exact within_atToken _ ht
  case h_11 => exact within_readTerm hnone ht hts
  all_goals exact ht

theorem within_readAll (hts : ∀ u ∈ ts, u.Within stop) : ∀ c ∈ readAll stop ts, c.Within stop := by
  fun_induction readAll stop ts with
  | case1 => exact List.forall_mem_nil _
  | case2 t ts ih =>
    obtain ⟨ht, hts⟩ := List.forall_mem_cons.1 hts
    exact List.forall_mem_cons.2 ⟨within_read ht hts, ih fun u hu => hts u ((read_suffix stop t ts).mem hu)⟩

theorem within_ofQuery {query : String} {cs : List Clause} (h : ofQuery query = .ok cs) :
    ∀ c ∈ cs, c.Within query.length := by
  obtain ⟨ts, hts, rfl⟩ := ofQuery_eq_ok h
  have htiles := (Token.lexes_of_scanFrom hts).tiles rfl
  refine within_readAll fun t ht => ⟨htiles.nonempty t ht, ?_⟩
  rw [← String.length_toList]
  exact (htiles.text t ht).1

end Clause

namespace Grouping

structure Within (stop : Nat) (s : Grouping) : Prop where
  problems : ∀ p ∈ s.problems, p.Within stop
  outer : ∀ o ∈ s.outer, o.1.Within stop

variable {stop : Nat} {s : Grouping} {t : Token}

theorem within_start (stop : Nat) : Within stop start := ⟨nofun, nofun⟩

theorem Within.report (h : s.Within stop) (ht : t.Within stop) (b : Bool) (fault : Fault) :
    (s.report b fault t).Within stop := by
  cases b with
  | false => exact h
  | true =>
    refine ⟨List.forall_mem_append.2 ⟨h.problems, ?_⟩, h.outer⟩
    exact List.forall_mem_singleton.2 (Problem.within_atToken fault ht)

theorem Within.take (h : s.Within stop) (next : Option Clause) {c : Clause} (hc : c.Within stop) :
    (s.take next c).Within stop := by
  cases c with
  | and t =>
    have hreport := (h.report hc (!s.level.termSeen) (.missingBefore t.kind)).report hc (lacksTerm next)
      (.missingAfter t.kind)
    exact ⟨hreport.problems, hreport.outer⟩
  | or t =>
    have hreport := (h.report hc (!s.level.touched) (.missingBefore t.kind)).report hc (isBoundary next)
      (.missingAfter t.kind)
    exact ⟨hreport.problems, hreport.outer⟩
  | not t =>
    rw [Grouping.take, takeNot]
    split
    · have hreport := h.report hc true (.missingAfter t.kind)
      exact ⟨hreport.problems, hreport.outer⟩
    · exact ⟨h.problems, h.outer⟩
  | leftParen t => exact ⟨h.problems, List.forall_mem_cons.2 ⟨hc, h.outer⟩⟩
  | rightParen t =>
    rw [Grouping.take, takeRightParen]
    split
    · have hreport := h.report hc true .unmatchedParen
      exact ⟨hreport.problems, hreport.outer⟩
    · next heq => exact ⟨h.problems, fun o ho => h.outer o (heq ▸ List.mem_cons_of_mem _ ho)⟩
  | reference => exact h
  | term => exact ⟨h.problems, h.outer⟩
  | broken p => exact ⟨List.forall_mem_append.2 ⟨h.problems, List.forall_mem_singleton.2 hc⟩, h.outer⟩

theorem Within.takeReference (h : s.Within stop) (ht : t.Within stop) (r : Referral) :
    (s.takeReference t r).Within stop := by
  refine ⟨List.forall_mem_append.2 ⟨h.problems, List.forall_mem_map.2 fun f _ => ?_⟩, h.outer⟩
  exact Problem.within_atToken f ht

theorem Within.fill {cs : List Clause} (h : s.Within stop) (hcs : ∀ c ∈ cs, c.Within stop) (rs : List Referral) :
    (s.fill cs rs).Within stop := by
  fun_induction Grouping.fill s cs rs with
  | case1 => exact h
  | case2 s t name cs r rs ih =>
    obtain ⟨hc, hcs⟩ := List.forall_mem_cons.1 hcs
    exact ih (h.takeReference hc r) hcs
  | case3 s t name cs ih => exact ih h (List.forall_mem_cons.1 hcs).2
  | case4 s c cs rs h1 h2 ih =>
    obtain ⟨hc, hcs⟩ := List.forall_mem_cons.1 hcs
    exact ih (h.take _ hc) hcs

theorem Within.closeAll (h : s.Within stop) {outer : List (Token × Level)} (houter : ∀ o ∈ outer, o.1.Within stop) :
    (s.closeAll outer).Within stop := by
  induction outer generalizing s with
  | nil => exact h
  | cons o outer ih =>
    obtain ⟨t, around⟩ := o
    obtain ⟨ht, houter⟩ := List.forall_mem_cons.1 houter
    have hreport := h.report ht true .unclosedParen
    exact ih ⟨hreport.problems, hreport.outer⟩ houter

end Grouping

theorem Tree.within_ofReferrals {query : String} {cs : List Clause} (hcs : Clause.ofQuery query = .ok cs)
    (rs : List Referral) : ∀ p ∈ (ofReferrals query cs rs).problems, p.Within query.length := by
  have hfill := (Grouping.within_start query.length).fill (Clause.within_ofQuery hcs) rs
  exact (hfill.closeAll hfill.outer).problems

end FilterQuery
