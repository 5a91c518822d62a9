import FilterQuery.Proofs.Expansion.Answers

namespace FilterQuery

open Relation (ReflTransGen TransGen)

namespace Node

mutual
/-- How deep expansions nest in a node. -/
def nesting : Node → Nat
  | .leaf _ => 0
  | .reference _ => 0
  | .expansion _ _ body => body.nesting + 1
  | .group _ _ ns => nestingAll ns

def nestingAll : List Node → Nat
  | [] => 0
  | n :: ns => max n.nesting (nestingAll ns)
end

mutual
theorem nesting_le_iff (k : Nat) : ∀ n : Node, n.nesting ≤ k ↔ ∀ a ∈ n.atoms, a.nesting ≤ k
  | leaf _ | reference _ | expansion .. => by simp [atoms]
  | group _ _ ns => nestingAll_le_iff k ns

theorem nestingAll_le_iff (k : Nat) : ∀ ns : List Node, nestingAll ns ≤ k ↔ ∀ a ∈ atomsAll ns, a.nesting ≤ k
  | [] => by simp [nestingAll, atomsAll]
  | n :: ns => by
    rw [nestingAll, atomsAll, max_le_iff, nesting_le_iff k n, nestingAll_le_iff k ns, List.forall_mem_append]
end

theorem stable_nesting_le (k : Nat) : Stable fun n => n.nesting ≤ k := stable_of_atoms (nesting_le_iff k)

end Node

theorem Clause.nesting_of_mem_readAll {stop : Nat} {ts : List Token} {n : Node} {w : Option Warning}
    (h : .term n w ∈ Clause.readAll stop ts) (k : Nat) : n.nesting ≤ k := by
  rw [Node.nesting_le_iff]
  intro a ha
  have hfrom := Grammar.from_of_mem_readAll (p := fun _ => True) (fun _ _ => trivial) h a ha
  cases a with
  | leaf | reference => exact Nat.zero_le k
  | expansion | group => exact hfrom.elim

/-- The stacks of the cycle that a fault tells of, inside whichever stacks. -/
def Fault.cycle? : Fault → Option (List String)
  | .cycle names => some names
  | .within _ f => f.cycle?
  | _ => none

theorem Fault.cycle?_of_isOwn {f : Fault} (h : f.isOwn = true) : f.cycle? = none := by
  cases f with
  | cycle | within => cases h
  | _ => rfl

/-- The stacks as they are while a query is read: it is the query of `origin`. -/
def Stacks.reading (saved : Stacks) (origin : Option String) (query : String) : Stacks := fun name =>
  if origin.map StackName.normalize = some name then some query else saved name

def Refers (queries : Stacks) (a b : String) : Prop := ∃ query, queries a = some query ∧ Mentions query b

/-- A way along references that comes back to where it began. -/
def IsCycle (queries : Stacks) (names : List String) : Prop :=
  ∃ name between, names = name :: (between ++ [name]) ∧ names.IsChain (Refers queries)

def LeadsToCycle (queries : Stacks) (name : String) : Prop :=
  ∃ on, ReflTransGen (Refers queries) name on ∧ TransGen (Refers queries) on on

section

variable {saved queries : Stacks} {limit : Nat}

theorem not_leadsToCycle {name : String} (h : ∀ b, Refers queries name b → ¬ LeadsToCycle queries b) :
    ¬ LeadsToCycle queries name := by
  rintro ⟨on, hto, hcycle⟩
  rcases ReflTransGen.cases_head hto with rfl | ⟨b, hb, hto⟩
  · obtain ⟨b, hb, hback⟩ := TransGen.head'_iff.1 hcycle
    exact h b hb ⟨name, hback, hcycle⟩
  · exact h b hb ⟨on, hto, hcycle⟩

theorem cycleOf_isEmpty_iff {name : String} {chain : List String} :
    (cycleOf name chain).isEmpty = true ↔ name ∉ chain := by
  rw [cycleOf, List.isEmpty_iff, List.dropWhile_eq_nil_iff]
  simp only [bne_iff_ne]
  exact ⟨fun h hmem => h name hmem rfl, fun h x hx heq => h (heq ▸ hx)⟩

theorem isCycle_cycleOf {name : String} {chain : List String}
    (hpath : (chain ++ [name]).IsChain (Refers queries)) (hc : (cycleOf name chain).isEmpty = false) :
    IsCycle queries (cycleOf name chain ++ [name]) := by
  have hsuffix : cycleOf name chain <:+ chain := List.dropWhile_suffix _
  have hhead := List.head?_dropWhile_not (· != name) chain
  cases hcycle : cycleOf name chain with
  | nil =>
    rw [hcycle] at hc
    cases hc
  | cons first between =>
    have hcycle' : chain.dropWhile (· != name) = first :: between := hcycle
    rw [hcycle'] at hhead
    obtain rfl : first = name := by simpa using hhead
    refine ⟨first, between, rfl, ?_⟩
    rw [← hcycle]
    obtain ⟨before, hbefore⟩ := hsuffix
    refine hpath.suffix ⟨before, ?_⟩
    rw [← List.append_assoc, hbefore]

structure Stands (saved queries : Stacks) (query : String) (chain : List String) (q : String) : Prop where
  outside : ∀ name, name ∉ chain → queries name = saved name
  own : ∀ name ∈ chain.getLast?, queries name = some q
  path : chain.IsChain (Refers queries)
  reached : q = query ∨
    ∃ a b, Mentions query a ∧ ReflTransGen (Refers queries) a b ∧ queries b = some q

variable {query q : String} {chain : List String}

theorem Stands.path_concat (h : Stands saved queries query chain q) {name : String} (hname : Mentions q name) :
    (chain ++ [name]).IsChain (Refers queries) := by
  refine List.isChain_append.2 ⟨h.path, .singleton name, fun last hlast b hb => ?_⟩
  cases hb
  exact ⟨q, h.own last hlast, hname⟩

theorem Stands.descend (h : Stands saved queries query chain q) {name q' : String} (hname : Mentions q name)
    (hout : name ∉ chain) (hs : saved name = some q') : Stands saved queries query (chain ++ [name]) q' := by
  have hstack : queries name = some q' := (h.outside name hout).trans hs
  refine ⟨fun b hb => h.outside b fun hmem => hb (List.mem_append_left _ hmem), ?_, h.path_concat hname, .inr ?_⟩
  · rw [List.getLast?_concat]
    rintro _ ⟨⟩
    exact hstack
  · rcases h.reached with rfl | ⟨a, b, ha, hab, hb⟩
    · exact ⟨name, name, hname, .refl, hstack⟩
    · exact ⟨a, name, ha, hab.tail ⟨q, hb, hname⟩, hstack⟩

theorem stands_origin (saved : Stacks) (origin : Option String) (query : String) :
    Stands saved (saved.reading origin query) query (originChain origin) query where
  outside name hname := by
    refine if_neg fun heq => hname ?_
    rw [originChain, heq]
    exact List.mem_singleton_self name
  own name hname := by
    refine if_pos ?_
    rw [originChain] at hname
    cases origin with
    | none => cases hname
    | some _ => exact hname
  path := by
    rw [originChain]
    cases origin.map StackName.normalize with
    | none => exact .nil
    | some name => exact .singleton name
  reached := .inl rfl

structure Charts (queries : Stacks) (room : Nat) (starts : String → Prop) (root : Option Node)
    (faults : List Fault) : Prop where
  nesting : ∀ n ∈ root, n.nesting ≤ room
  cycles : ∀ f ∈ faults, ∀ names ∈ f.cycle?, IsCycle queries names
  ends : faults = [] → ∀ name, starts name → ¬ LeadsToCycle queries name

def Expansion.Charts (queries : Stacks) (limit : Nat) (name : String) (depth : Nat) (e : Expansion) : Prop :=
  FilterQuery.Charts queries (limit - (depth + 1)) (Refers queries name) e.root e.faults

def Referral.Charts (queries : Stacks) (room : Nat) (name : String) (r : Referral) : Prop :=
  FilterQuery.Charts queries room (· = name) (some r.node) r.faults

theorem Expansion.Charts.referral {name : String} {depth : Nat} {e : Expansion}
    (h : e.Charts queries limit name depth) (hroom : depth < limit) (raw : String) :
    (e.referral raw).Charts queries (limit - depth) name := by
  constructor
  case nesting =>
    rintro _ ⟨⟩
    unfold Expansion.referral
    cases hroot : e.root with
    | none => exact Nat.zero_le _
    | some body =>
      have hbody : body.nesting ≤ limit - (depth + 1) := h.nesting body hroot
      change body.nesting + 1 ≤ limit - depth
      omega
  case cycles =>
    rw [e.faults_referral]
    intro f hf
    obtain ⟨g, hg, rfl⟩ := List.mem_map.1 hf
    exact h.cycles g hg
  case ends =>
    rw [e.faults_referral, List.map_eq_nil_iff]
    rintro hf _ rfl
    exact not_leadsToCycle (h.ends hf)

theorem charts_reference (raw : String) {name : String} {fs : List Fault} {ws : List Warning}
    (hcycles : ∀ f ∈ fs, ∀ names ∈ f.cycle?, IsCycle queries names)
    (hends : fs = [] → ¬ LeadsToCycle queries name) (room : Nat) :
    Referral.Charts queries room name ⟨.reference raw, fs, ws⟩ where
  nesting := by
    rintro _ ⟨⟩
    exact Nat.zero_le _
  cycles := hcycles
  ends hf := by
    rintro _ rfl
    exact hends hf

theorem Stands.charts_answer (h : Stands saved queries query chain q) {raw : String} {r : Referral}
    (hraw : raw ∈ references q) (hr : Answer saved limit (Expansion.Charts queries limit) chain raw r) :
    r.Charts queries (limit - chain.length) (StackName.normalize raw) := by
  cases hr with
  | cycle hc =>
    refine charts_reference raw (List.forall_mem_singleton.2 ?_) (fun hf => absurd hf (List.cons_ne_nil _ _)) _
    rintro _ ⟨⟩
    exact isCycle_cycleOf (h.path_concat (mentions_of_mem_references hraw)) hc
  | full =>
    refine charts_reference raw (List.forall_mem_singleton.2 ?_) (fun hf => absurd hf (List.cons_ne_nil _ _)) _
    rintro _ ⟨⟩
  | unknown hc hs =>
    refine charts_reference raw (List.forall_mem_nil _) (fun _ => not_leadsToCycle ?_) _
    rintro b ⟨q', hq', -⟩
    rw [h.outside _ (cycleOf_isEmpty_iff.1 hc), hs] at hq'
    cases hq'
  | expansion _ hroom he => exact he.referral hroom raw

theorem Stands.charts_tree (h : Stands saved queries query chain q) {cs : List Clause} {rs : List Referral}
    (hcs : Clause.ofQuery q = .ok cs)
    (hrs : List.Forall₂ (Answer saved limit (Expansion.Charts queries limit) chain) (Grouping.references cs) rs) :
    Charts queries (limit - chain.length) (Mentions q) (Tree.ofReferrals q cs rs).root
      ((Tree.ofReferrals q cs rs).problems.map (·.fault)) := by
  have hlen := hrs.length_eq
  have hcharts : ∀ p ∈ (Grouping.references cs).zip rs,
      p.2.Charts queries (limit - chain.length) (StackName.normalize p.1) := by
    intro p hp
    refine h.charts_answer ?_ ((List.forall₂_iff_zip.1 hrs).2 hp)
    rw [references_of_ofQuery hcs]
    exact (List.of_mem_zip hp).1
  have hanswers : ∀ r ∈ rs, ∃ name, r.Charts queries (limit - chain.length) name := by
    intro r hr
    rw [← List.map_snd_zip hlen.ge] at hr
    obtain ⟨p, hp, rfl⟩ := List.mem_map.1 hr
    exact ⟨_, hcharts p hp⟩
  constructor
  case nesting =>
    refine Tree.root_of_stable (Node.stable_nesting_le _) (fun n w hn => ?_) fun r hr => ?_
    · obtain ⟨ts, -, rfl⟩ := Clause.ofQuery_eq_ok hcs
      exact Clause.nesting_of_mem_readAll hn _
    · obtain ⟨name, hr⟩ := hanswers r hr
      exact hr.nesting r.node rfl
  case cycles =>
    refine List.forall_mem_map.2 (Tree.faults_ofReferrals (P := fun f => ∀ names ∈ f.cycle?, IsCycle queries names)
      (fun f hf => ?_) hcs fun r hr => ?_)
    · rw [Fault.cycle?_of_isOwn hf]
      rintro _ ⟨⟩
    · obtain ⟨name, hr⟩ := hanswers r hr
      exact hr.cycles
  case ends =>
    intro hp name hname
    -- Without problems, whatever the query mentions is among the references that were answered.
    obtain ⟨hb, hf⟩ := Tree.clean_of_problems hlen.symm (List.map_eq_nil_iff.1 hp)
    obtain ⟨raw, hraw, rfl⟩ := hname.mem_references hcs hb
    rw [← List.map_fst_zip hlen.le] at hraw
    obtain ⟨p, hp, rfl⟩ := List.mem_map.1 hraw
    exact (hcharts p hp).ends (hf p.2 (List.of_mem_zip hp).2) _ rfl

theorem invariant_charts (saved queries : Stacks) (limit : Nat) (query : String) :
    Reading.Invariant saved limit (Stands saved queries query) (Expansion.Charts queries limit) where
  descend h hraw hc hs := h.descend (mentions_of_mem_references hraw) (cycleOf_isEmpty_iff.1 hc) hs
  expand {chain name q cs rs} hs hroom h hcs hrs cyclic := by
    have ht := h.charts_tree hcs hrs
    rw [List.length_append, List.length_singleton] at ht
    refine ⟨ht.nesting, ht.cycles, fun hf b => ?_⟩
    rintro ⟨q', hq', hb⟩
    rw [h.own name List.getLast?_concat] at hq'
    cases hq'
    exact ht.ends hf b hb

end

/-- Reading a query comes to an end, unless a query that it comes to cannot be cut into tokens. Expansions then nest
within the limit, every cycle that is reported is one, and something is reported if the query leads to a cycle. -/
theorem parseWith_charts (saved : Stacks) (limit : Nat) (origin : Option String) (query : String) :
    let queries := saved.reading origin query
    (∃ o, Tree.parseWith saved limit origin query = .error o ∧ (Token.tokenize query = .error o ∨
      ∃ a b q, Mentions query a ∧ ReflTransGen (Refers queries) a b ∧ queries b = some q ∧
        Token.tokenize q = .error o)) ∨
    ∃ t, Tree.parseWith saved limit origin query = .ok t ∧
      (∀ n ∈ t.root, n.nesting ≤ if origin.isSome then max limit 1 - 1 else max limit 1) ∧
      (∀ p ∈ t.problems, ∀ names ∈ p.fault.cycle?, IsCycle queries names) ∧
      ((∃ name, Mentions query name ∧ LeadsToCycle queries name) → t.problems ≠ []) := by
  intro queries
  have hinv := invariant_charts saved queries (max limit 1) query
  have hstands := stands_origin saved origin query
  cases h : Tree.parseWith saved limit origin query with
  | error o =>
    obtain ⟨chain, q, hq, ho⟩ := overrun_parseWith hinv hstands h
    have ho := tokenize_of_ofQuery ho
    refine .inl ⟨o, rfl, ?_⟩
    rcases hq.reached with rfl | ⟨a, b, ha, hab, hb⟩
    · exact .inl ho
    · exact .inr ⟨a, b, q, ha, hab, hb, ho⟩
  | ok t =>
    obtain ⟨cs, rs, hcs, hrs, rfl⟩ := answers_parseWith hinv hstands h
    have ht := hstands.charts_tree hcs hrs
    refine .inr ⟨_, rfl, ?_, List.forall_mem_map.1 ht.cycles, ?_⟩
    · have hroom : max limit 1 - (originChain origin).length =
          if origin.isSome then max limit 1 - 1 else max limit 1 := by
        cases origin <;> rfl
      rw [← hroom]
      exact ht.nesting
    · rintro ⟨name, hname, hcycle⟩ hp
      exact ht.ends (List.map_eq_nil_iff.2 hp) name hname hcycle

example : [2, 3].map (fun limit => (Tree.parseWith crossing limit none "@a").map (·.problems.map (·.fault))) =
    [.ok [.within "a" (.within "n" (.tooDeep 2))],
      .ok [.within "a" (.within "n" (.within "s" (.cycle ["n", "s", "n"])))]] := by decide +kernel

end FilterQuery
