import FilterQuery.Proofs.Expansion.Origin
import FilterQuery.Proofs.Store.References

namespace FilterQuery

namespace Stack

/-- Whether reading the tree of a stack came back neither to the stack nor to the limit of depth. -/
def IsUnstopped (s : Stack) : Prop := ∀ p ∈ s.tree.problems, ¬ p.fault.Stops (StackName.normalize s.name)

theorem IsNamed.eq_of_name {entries : List Stack} (h : IsNamed entries) {s t : Stack} (hs : s ∈ entries)
    (ht : t ∈ entries) (hn : s.name = t.name) : s = t :=
  List.inj_on_of_nodup_map h.apart hs ht hn

end Stack

namespace Store

open Stack

variable {s s' s₀ : Store}

theorem used_of_perform {name : String} {result : Option Stack}
    (h : s.perform (.recordUsage name) = .ok (s', result)) :
    ∃ t ∈ s.entries, t.name = StackName.normalize name ∧ result = some { t with lastUsed := some (s.clock : Int) } := by
  obtain ⟨c, entries, storage, hm, hsettle, -, rfl, rfl⟩ := perform_eq_ok h
  generalize hentries : s.entries = before at hm
  cases hm with
  | @recordUsage before t after _ named =>
    have hsame : sources s.entries = sources (before ++ { t with lastUsed := some (s.clock : Int) } :: after) := by
      rw [hentries, sources, sources, List.map_append, List.map_append, List.map_cons, List.map_cons]
    rw [settle, if_pos hsame] at hsettle
    cases hsettle
    refine ⟨t, List.mem_append_right _ List.mem_cons_self, named, ?_⟩
    rw [Option.bind_some, List.getElem?_append_right (Nat.le_refl _), Nat.sub_self, List.getElem?_cons_zero]

end Store

namespace Session

open Stack Store

variable {session session' : Session} {k : Nat} {stack : Stack} {compiled : Compiled}

theorem markShortcut_eq_ok (h : session.markShortcut k = .ok (some (session', stack))) :
    ∃ s, session.store.byShortcut? k = some s ∧
      session.store.perform (.recordUsage s.name) = .ok (session'.store, some stack) ∧
      session'.config = session.config := by
  unfold markShortcut at h
  cases hs : session.store.byShortcut? k with
  | none =>
    rw [hs] at h
    cases h
  | some s =>
    rw [hs] at h
    obtain ⟨⟨store, used⟩, hused, h⟩ := bind_eq_ok h
    cases used with
    | none => cases h
    | some stack =>
      cases h
      exact ⟨s, rfl, hused, rfl⟩

theorem runShortcut_eq_ok (h : session.runShortcut k = .ok (some (session', stack, compiled))) :
    ∃ s t, session.store.byShortcut? k = some s ∧
      session.store.perform (.recordUsage s.name) = .ok (session'.store, some stack) ∧
      session'.config = session.config ∧ session'.parse stack.query = .ok t ∧ compiled = session.compileTree t := by
  obtain ⟨marked, hmark, h⟩ := bind_eq_ok h
  cases marked with
  | none => cases h
  | some p =>
    obtain ⟨s₁, u⟩ := p
    obtain ⟨s, hs, hused, hconfig⟩ := markShortcut_eq_ok hmark
    dsimp only at h
    split at h
    · next t ht =>
      cases h
      exact ⟨s, t, hs, hused, hconfig, ht, by rw [compileTree, compileTree, hconfig]⟩
    · cases h

/-- What a key runs is the query of its stack, read without the stack around it. Its tree is the tree of the stack,
but for the sites, just in case reading that one came back neither to the stack nor to the limit of depth, and then
the compiled query is that of the stack's tree. -/
theorem runShortcut_compiles {storage : Storage} {config : Config} {clock : Nat} {ops : List Operation} {s₀ : Store}
    (opened : openOn storage config clock = .ok s₀) (run : Run s₀ ops session.store)
    (depth : session.config.maxReferenceDepth = session.store.maxDepth)
    (ran : session.runShortcut k = .ok (some (session', stack, compiled))) :
    (∃ s, session.store.byShortcut? k = some s ∧ stack.name = StackName.normalize s.name ∧
      (IsNamed s₀.entries → stack = { s with lastUsed := some (session.store.clock : Int) })) ∧
    (stack.IsUnstopped → compiled = session.compileTree stack.tree) ∧
    ∃ t, session'.parse stack.query = .ok t ∧ compiled = session.compileTree t ∧
      (t.unshared = stack.tree.unshared ↔ stack.IsUnstopped) := by
  obtain ⟨s, t, hs, hused, hconfig, ht, rfl⟩ := runShortcut_eq_ok ran
  obtain ⟨hdepth, entries, hentries⟩ := openOn_eq_ok opened
  have hafter := run.performed hused
  have hcurrent := hafter.isCurrent (hdepth ▸ isCurrent_of_derived hentries)
  have htree := hcurrent stack (mem_of_perform hused)
  have hquery : Tree.parseWith (queries session'.store.entries) s₀.maxDepth none stack.query = .ok t := by
    rw [← run.maxDepth, ← depth, ← hconfig]
    exact ht
  refine ⟨⟨s, hs, ?_⟩, fun hun => ?_, t, ht, rfl, unshared_eq_iff_of_parseWith htree hquery⟩
  · obtain ⟨u, hu, hname, hstack⟩ := used_of_perform hused
    cases hstack
    refine ⟨hname, fun named => ?_⟩
    have hnamed := run.isNamed named
    have hmem : s ∈ session.store.entries := List.mem_of_find?_eq_some hs
    have hnormal := (hnamed.named s.name (List.mem_map_of_mem hmem)).normal
    rw [hnamed.eq_of_name hu hmem (hname.trans hnormal)]
  · obtain ⟨t₀, ht₀, hinside⟩ := parseWith_inside htree hun
    cases hquery.symm.trans ht₀
    rw [hinside]
    exact (Compiled.ofNode?_resite (Site.inside_injective _) _ _).symm

theorem runShortcut_compiles_nested :
    ∃ (s₀ : Store) (session session' : Session) (stack : Stack) (compiled : Compiled),
      openOn (.empty .memory) .standard 0 = .ok s₀ ∧
      Run s₀ [.create ⟨"b", "x", none, none, none⟩, .create ⟨"a", "@b y", none, none, some 1⟩] session.store ∧
      session.config.maxReferenceDepth = session.store.maxDepth ∧
      session.runShortcut 1 = .ok (some (session', stack, compiled)) ∧ stack.name = "a" ∧
      compiled = session.compileTree stack.tree := by
  have h : (openOn (.empty .memory) .standard 0 >>= fun s₀ =>
      s₀.perform (.create ⟨"b", "x", none, none, none⟩) >>= fun r₁ =>
        r₁.1.perform (.create ⟨"a", "@b y", none, none, some 1⟩) >>= fun r₂ =>
          (start .standard r₂.1).runShortcut 1 >>= fun r₃ =>
            .ok (r₂.1.maxDepth, r₃.map fun r => (r.2.1.name, r.2.1.tree.problems.isEmpty))) =
      .ok (8, some ("a", true)) := by
    decide +kernel
  obtain ⟨s₀, opened, h⟩ := bind_eq_ok h
  obtain ⟨r₁, h₁, h⟩ := bind_eq_ok h
  obtain ⟨r₂, h₂, h⟩ := bind_eq_ok h
  obtain ⟨r₃, ran, h⟩ := bind_eq_ok h
  obtain ⟨hdepth, hran⟩ := Prod.mk.inj (Except.ok.inj h)
  obtain ⟨⟨session', stack, compiled⟩, rfl, hstack⟩ := Option.map_eq_some_iff.1 hran
  obtain ⟨hname, hclean⟩ := Prod.mk.inj hstack
  have run := ((Run.refl s₀).performed h₁).performed h₂
  have unstopped : stack.IsUnstopped := by
    intro p hp
    rw [List.isEmpty_iff.1 hclean] at hp
    cases hp
  exact ⟨s₀, start .standard r₂.1, session', stack, compiled, opened, run, hdepth.symm, ran, hname,
    (runShortcut_compiles opened run hdepth.symm ran).2.1 unstopped⟩

theorem search_of_runShortcut_own :
    ∃ (s₀ : Store) (session session' : Session) (s stack : Stack) (compiled : Compiled),
      openOn (.empty .memory) .standard 0 = .ok s₀ ∧
      Run s₀ [.create ⟨"a", "@a x", none, none, some 1⟩] session.store ∧
      session.config.maxReferenceDepth = session.store.maxDepth ∧ session.store.byShortcut? 1 = some s ∧
      session.runShortcut 1 = .ok (some (session', stack, compiled)) ∧ compiled.search = some "x x" ∧
      (session.compileTree s.tree).search = some "x" := by
  have h : (openOn (.empty .memory) .standard 0 >>= fun s₀ =>
      s₀.perform (.create ⟨"a", "@a x", none, none, some 1⟩) >>= fun r₁ =>
        (start .standard r₁.1).runShortcut 1 >>= fun r₂ =>
          .ok (r₁.1.maxDepth, r₂.map (·.2.2.search),
            (r₁.1.byShortcut? 1).map fun s => ((start .standard r₁.1).compileTree s.tree).search)) =
      .ok (8, some (some "x x"), some (some "x")) := by
    decide +kernel
  obtain ⟨s₀, opened, h⟩ := bind_eq_ok h
  obtain ⟨r₁, h₁, h⟩ := bind_eq_ok h
  obtain ⟨r₂, ran, h⟩ := bind_eq_ok h
  obtain ⟨hdepth, h⟩ := Prod.mk.inj (Except.ok.inj h)
  obtain ⟨hran, hkey⟩ := Prod.mk.inj h
  obtain ⟨⟨session', stack, compiled⟩, rfl, hsearch⟩ := Option.map_eq_some_iff.1 hran
  obtain ⟨s, hs, htree⟩ := Option.map_eq_some_iff.1 hkey
  exact ⟨s₀, start .standard r₁.1, session', s, stack, compiled, opened, .performed (.refl s₀) h₁, hdepth.symm, hs,
    ran, hsearch, htree⟩

end Session

end FilterQuery
