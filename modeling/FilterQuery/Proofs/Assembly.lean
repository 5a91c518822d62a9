import FilterQuery.Proofs.Sharing

namespace FilterQuery

structure Node.Stable (P : Node → Prop) : Prop where
  negate : ∀ n, P n → P n.negate
  join : ∀ j ns, (∀ n ∈ ns, P n) → ∀ n ∈ Node.join j ns, P n

variable {P : Node → Prop}

namespace Level

structure All (P : Node → Prop) (l : Level) : Prop where
  alternatives : ∀ n ∈ l.alternatives, P n
  conjuncts : ∀ n ∈ l.conjuncts, P n

theorem all_empty : empty.All P := ⟨nofun, nofun⟩

theorem negateTimes_of_stable (hP : Node.Stable P) (k : Nat) {n : Node} (h : P n) : P (negateTimes k n) := by
  induction k with
  | zero => exact h
  | succ k ih => exact hP.negate _ ih

theorem All.push {l : Level} (hP : Node.Stable P) (h : l.All P) {n : Option Node} (hn : ∀ m ∈ n, P m) :
    (l.push n).All P where
  alternatives := h.alternatives
  conjuncts m hm := by
    rcases List.mem_append.1 hm with hm | hm
    · exact h.conjuncts m hm
    · obtain ⟨k, hk, rfl⟩ := Option.map_eq_some_iff.1 (Option.mem_toList.1 hm)
      exact negateTimes_of_stable hP _ (hn k hk)

theorem All.alternate {l : Level} (hP : Node.Stable P) (h : l.All P) : l.alternate.All P where
  alternatives m hm := by
    rcases List.mem_append.1 hm with hm | hm
    · exact h.alternatives m hm
    · exact hP.join .and _ h.conjuncts m (Option.mem_toList.1 hm)
  conjuncts := nofun

theorem All.node {l : Level} (hP : Node.Stable P) (h : l.All P) : ∀ m ∈ l.node, P m :=
  hP.join .or _ (h.alternate hP).alternatives

end Level

namespace Grouping

structure All (P : Node → Prop) (s : Grouping) : Prop where
  level : s.level.All P
  outer : ∀ o ∈ s.outer, o.2.All P
  roots : ∀ n ∈ s.roots, P n

theorem all_start : start.All P := ⟨Level.all_empty, nofun, nofun⟩

theorem All.report {s : Grouping} (h : s.All P) (b : Bool) (f : Fault) (t : Token) :
    (s.report b f t).All P := by
  cases b with
  | false => exact h
  | true => exact ⟨h.level, h.outer, h.roots⟩

theorem All.push {s : Grouping} (hP : Node.Stable P) (h : s.All P) {n : Option Node} (hn : ∀ m ∈ n, P m) :
    (s.push n).All P :=
  ⟨h.level.push hP hn, h.outer, h.roots⟩

theorem All.takeRightParen {s : Grouping} (hP : Node.Stable P) (h : s.All P) (t : Token) :
    (s.takeRightParen t).All P := by
  have hnode := h.level.node hP
  unfold Grouping.takeRightParen
  split
  · refine ⟨Level.all_empty, h.outer, fun m hm => ?_⟩
    rcases List.mem_append.1 hm with hm | hm
    · exact h.roots m hm
    · exact hnode m (Option.mem_toList.1 hm)
  · next opening around outer he =>
    have houter := he ▸ h.outer
    exact ⟨(houter _ List.mem_cons_self).push hP hnode, fun o ho => houter o (List.mem_cons_of_mem _ ho),
      h.roots⟩

theorem All.take {s : Grouping} (hP : Node.Stable P) (h : s.All P) (next : Option Clause) {c : Clause}
    (hc : ∀ n w, c = .term n w → P n) : (s.take next c).All P := by
  cases c with
  | and t =>
    have hs := (h.report (!s.level.termSeen) (.missingBefore t.kind) t).report (lacksTerm next)
      (.missingAfter t.kind) t
    exact ⟨⟨hs.level.alternatives, hs.level.conjuncts⟩, hs.outer, hs.roots⟩
  | or t =>
    have hs := (h.report (!s.level.touched) (.missingBefore t.kind) t).report (isBoundary next)
      (.missingAfter t.kind) t
    exact ⟨hs.level.alternate hP, hs.outer, hs.roots⟩
  | not t =>
    rw [Grouping.take, takeNot]
    split
    · exact (h.report true _ t).push hP (by rintro _ ⟨⟩)
    · exact ⟨⟨h.level.alternatives, h.level.conjuncts⟩, h.outer, h.roots⟩
  | leftParen t =>
    exact ⟨Level.all_empty, List.forall_mem_cons.2 ⟨h.level, h.outer⟩, h.roots⟩
  | rightParen t => exact h.takeRightParen hP t
  | term n w =>
    have hs := h.push hP (n := some n) (by rintro _ ⟨⟩; exact hc n w rfl)
    exact ⟨hs.level, hs.outer, hs.roots⟩
  | broken problem =>
    have hs := h.push hP (n := none) (by rintro _ ⟨⟩)
    exact ⟨hs.level, hs.outer, hs.roots⟩
  | reference t name => exact h

theorem All.takeReference {s : Grouping} (hP : Node.Stable P) (h : s.All P) (t : Token) {r : Referral}
    (hr : P r.node) : (s.takeReference t r).All P := by
  have hs := h.push hP (n := some r.node) (by rintro _ ⟨⟩; exact hr)
  exact ⟨hs.level, hs.outer, hs.roots⟩

theorem All.fill {s : Grouping} (hP : Node.Stable P) (h : s.All P) {cs : List Clause} {rs : List Referral}
    (hcs : ∀ n w, .term n w ∈ cs → P n) (hrs : ∀ r ∈ rs, P r.node) : (s.fill cs rs).All P := by
  fun_induction Grouping.fill s cs rs with
  | case1 => exact h
  | case2 s t name cs r rs ih =>
    exact ih (h.takeReference hP t (hrs r List.mem_cons_self))
      (fun n w hm => hcs n w (List.mem_cons_of_mem _ hm)) fun r hm => hrs r (List.mem_cons_of_mem _ hm)
  | case3 s t name cs ih => exact ih h (fun n w hm => hcs n w (List.mem_cons_of_mem _ hm)) hrs
  | case4 s c cs rs h1 h2 ih =>
    exact ih (h.take hP _ fun n w hc => hcs n w (hc ▸ List.mem_cons_self))
      (fun n w hm => hcs n w (List.mem_cons_of_mem _ hm)) hrs

theorem All.closeAll {s : Grouping} (hP : Node.Stable P) (h : s.All P) {outer : List (Token × Level)}
    (ho : ∀ o ∈ outer, o.2.All P) : (s.closeAll outer).All P := by
  induction outer generalizing s with
  | nil => exact h
  | cons o outer ih =>
    obtain ⟨t, around⟩ := o
    have hs := h.report true .unclosedParen t
    refine ih ⟨?_, hs.outer, hs.roots⟩ fun o hm => ho o (List.mem_cons_of_mem _ hm)
    exact (ho (t, around) List.mem_cons_self).push hP (hs.level.node hP)

theorem All.root {s : Grouping} (hP : Node.Stable P) (h : s.All P) : ∀ n ∈ s.root, P n := by
  refine hP.join .and _ fun m hm => ?_
  rcases List.mem_append.1 hm with hm | hm
  · exact h.roots m hm
  · exact h.level.node hP m (Option.mem_toList.1 hm)

end Grouping

theorem Tree.root_of_stable (hP : Node.Stable P) {query : String} {cs : List Clause} {rs : List Referral}
    (hcs : ∀ n w, .term n w ∈ cs → P n) (hrs : ∀ r ∈ rs, P r.node) :
    ∀ n ∈ (Tree.ofReferrals query cs rs).root, P n := by
  have h := Grouping.all_start.fill hP hcs hrs
  exact (h.closeAll hP h.outer).root hP

end FilterQuery
