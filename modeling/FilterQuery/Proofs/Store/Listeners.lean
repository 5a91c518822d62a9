import FilterQuery.Proofs.Store.Bindings

namespace FilterQuery.Store

open Stack

def reported (s : Store) (name : String) : Option Nat := (s.get? name).bind (·.shortcut)

/-- What a listener was told of, the oldest first. -/
def heard (s : Store) (l : Nat) : List Event := (s.notices.filter (·.listener == l)).map (·.event)

def after (s : Store) (op : Operation) : Store :=
  match s.perform op with
  | .ok (s', _) => s'
  | .error _ => s

def told (s : Store) (op : Operation) : List Event :=
  match s.perform op, op.change s.maxStacks s.clock s.entries with
  | .ok _, .ok c => c.events
  | _, _ => []

/-- A store, and the listeners whose subscriptions are held by somebody. -/
structure Audience where
  store : Store
  held : List Nat

/-- What happens to a store and to those who listen. A subscription can be given up, or its listener be detached, which
then stays; both need the subscription. On its own time goes on, and the storage changes. -/
inductive Act
  | operate (op : Operation)
  | subscribe
  | unsubscribe (listener : Nat)
  | detach (listener : Nat)
  | elsewhere (storage : Storage) (clock : Nat)

/-- What a listener is there for whose subscription is held: all until it is removed. Once it is detached nobody can
remove it. -/
def Act.listening (l : Nat) : List Act → List Act
  | [] => []
  | .unsubscribe m :: acts => if m = l then [] else .unsubscribe m :: listening l acts
  | .detach m :: acts => if m = l then .detach m :: acts else .detach m :: listening l acts
  | act :: acts => act :: listening l acts

theorem Act.listening_cons (l : Nat) (act : Act) (acts : List Act) :
    (act = .unsubscribe l ∧ listening l (act :: acts) = []) ∨
      (act = .detach l ∧ listening l (act :: acts) = act :: acts) ∨
      (act ≠ .unsubscribe l ∧ act ≠ .detach l ∧ listening l (act :: acts) = act :: listening l acts) := by
  cases act with
  | operate | subscribe | elsewhere => exact .inr (.inr ⟨nofun, nofun, rfl⟩)
  | unsubscribe m =>
    by_cases hm : m = l
    · exact .inl ⟨congrArg _ hm, if_pos hm⟩
    · exact .inr (.inr ⟨fun he => hm (unsubscribe.inj he), nofun, if_neg hm⟩)
  | detach m =>
    by_cases hm : m = l
    · exact .inr (.inl ⟨congrArg _ hm, if_pos hm⟩)
    · exact .inr (.inr ⟨nofun, fun he => hm (detach.inj he), if_neg hm⟩)

namespace Audience

def step (a : Audience) : Act → Audience
  | .operate op => { a with store := a.store.after op }
  | .subscribe => ⟨a.store.subscribe.1, a.held ++ [a.store.subscribe.2]⟩
  | .unsubscribe l => if l ∈ a.held then ⟨a.store.unsubscribe l, a.held.filter (· != l)⟩ else a
  | .detach l => { a with held := a.held.filter (· != l) }
  | .elsewhere storage clock => { a with store := { a.store with storage := storage, clock := clock } }

def run (a : Audience) (acts : List Act) : Audience := acts.foldl step a

def told (a : Audience) : Act → List Event
  | .operate op => a.store.told op
  | _ => []

/-- What there is to hear while all this happens. -/
def toldAll : Audience → List Act → List Event
  | _, [] => []
  | a, act :: acts => a.told act ++ toldAll (a.step act) acts

/-- The shortcuts that a listener makes out of what it hears, beginning with `m`. -/
def mirror (l : Nat) : Bindings → Audience → List Act → Bindings
  | m, _, [] => m
  | m, a, act :: acts =>
    let b := a.step act
    mirror l (((b.store.heard l).drop (a.store.heard l).length).foldl (Bindings.follow b.store.reported) m) b acts

end Audience

section

variable {s s' : Store} {op : Operation}

structure Performs (s : Store) (op : Operation) (s' : Store) : Prop where
  listeners : s'.listeners = s.listeners
  nextListener : s'.nextListener = s.nextListener
  notices : s'.notices = s.notices ++ s.announce (s.told op) s'.entries.length
  change : ∃ c, op.Makes s.maxStacks s.clock s.entries c ∧ c.events = s.told op ∧
    s'.entries.map (·.toRecord) = c.entries.map (·.toRecord)

theorem performs_of_perform {result : Option Stack} (h : s.perform op = .ok (s', result)) : Performs s op s' := by
  have hperform := h
  obtain ⟨c, hc, h⟩ := bind_eq_ok h
  obtain ⟨entries, he, h⟩ := bind_eq_ok h
  obtain ⟨storage, -, h⟩ := bind_eq_ok h
  cases h
  have htold : s.told op = c.events := by
    unfold told
    rw [hperform, hc]
  refine ⟨rfl, rfl, ?_, c, Operation.makes_of_change hc, htold.symm, records_of_settle he⟩
  rw [htold]

theorem after_cases (s : Store) (op : Operation) :
    (s.after op = s ∧ s.told op = []) ∨ ∃ result, s.perform op = .ok (s.after op, result) := by
  cases h : s.perform op with
  | error r =>
    unfold after told
    rw [h]
    exact .inl ⟨rfl, rfl⟩
  | ok p =>
    unfold after
    rw [h]
    exact .inr ⟨p.2, rfl⟩

theorem heard_announce (apart : s.listeners.Nodup) (events : List Event) (size l : Nat) :
    ((s.announce events size).filter (·.listener == l)).map (·.event) = if l ∈ s.listeners then events else [] := by
  have hone : ∀ e, ((s.listeners.map fun m => Notice.mk m e size).filter (·.listener == l)).map (·.event)
      = if l ∈ s.listeners then [e] else [] := by
    intro e
    have hfilter : (s.listeners.map fun m => Notice.mk m e size).filter (·.listener == l)
        = (s.listeners.filter (· == l)).map fun m => Notice.mk m e size := List.filter_map ..
    rw [hfilter, List.filter_beq]
    split
    · next h => rw [List.count_eq_one_of_mem apart h]; rfl
    · next h => rw [List.count_eq_zero_of_not_mem h]; rfl
  induction events with
  | nil => exact (ite_self _).symm
  | cons e events ih =>
    rw [announce, List.flatMap_cons, List.filter_append, List.map_append, hone]
    refine (congrArg _ ih).trans ?_
    split
    · rfl
    · rfl

theorem bindings_reported {limit : Nat} (kept : IsKept limit s.entries) {n : String} (h : n ∈ names s.entries) :
    bindings s.entries n = some (s.reported n) := by
  obtain ⟨t, ht, he⟩ := List.mem_map.1 h
  unfold bindings reported get?
  rw [(kept.named n h).normal]
  cases hfind : s.entries.find? (·.name == n) with
  | none => exact absurd (beq_iff_eq.2 he) (List.find?_eq_none.1 hfind t ht)
  | some u => rfl

theorem foldl_follow_told (kept : IsKept s.maxStacks s.entries) (op : Operation) :
    (s.told op).foldl (Bindings.follow (s.after op).reported) (bindings s.entries)
      = bindings (s.after op).entries := by
  rcases after_cases s op with ⟨hs, htold⟩ | ⟨result, h⟩
  · rw [hs, htold]
    rfl
  · have hkept := isKept_of_perform h kept
    obtain ⟨c, hm, htold, hrecords⟩ := (performs_of_perform h).change
    have hnames : names c.entries = names (s.after op).entries := by
      have hn := congrArg (List.map (·.name)) hrecords
      rw [List.map_map, List.map_map] at hn
      exact hn.symm
    rw [← htold, bindings_of_records hrecords]
    refine hm.foldl_follow kept fun n hn => ?_
    rw [← bindings_of_records hrecords]
    exact bindings_reported hkept (hnames ▸ hn)

end

namespace Audience

structure IsOrderly (a : Audience) : Prop where
  apart : a.store.listeners.Nodup
  known : ∀ l ∈ a.store.listeners, l < a.store.nextListener
  spoken : ∀ n ∈ a.store.notices, n.listener < a.store.nextListener

variable {a : Audience} {l : Nat}

theorem isOrderly_of_nil {s : Store} (nobody : s.listeners = []) (silent : s.notices = []) (held : List Nat) :
    IsOrderly ⟨s, held⟩ where
  apart := nobody ▸ List.nodup_nil
  known := nobody ▸ List.forall_mem_nil _
  spoken := silent ▸ List.forall_mem_nil _

theorem step_operate (a : Audience) (op : Operation) :
    a.step (.operate op) = { a with store := a.store.after op } := rfl

theorem step_unsubscribe (a : Audience) (m : Nat) : a.step (.unsubscribe m) =
    if m ∈ a.held then ⟨a.store.unsubscribe m, a.held.filter (· != m)⟩ else a := rfl

theorem run_store_step (a : Audience) (act : Act) : ∃ ops, Store.Run a.store ops (a.step act).store := by
  cases act with
  | operate op =>
    rcases after_cases a.store op with ⟨hs, -⟩ | ⟨result, h⟩
    · exact ⟨[], hs ▸ .refl _⟩
    · exact ⟨_, .performed (.refl _) h⟩
  | subscribe => exact ⟨_, .idle (.refl _) (.subscribed a.store)⟩
  | unsubscribe m =>
    rw [step_unsubscribe]
    split
    · exact ⟨_, .idle (.refl _) (.unsubscribed a.store m)⟩
    · exact ⟨_, .refl _⟩
  | detach m => exact ⟨_, .refl _⟩
  | elsewhere storage clock => exact ⟨_, .idle (.refl _) (.elsewhere a.store storage clock)⟩

theorem isKept_step (kept : IsKept a.store.maxStacks a.store.entries) (act : Act) :
    IsKept (a.step act).store.maxStacks (a.step act).store.entries := by
  obtain ⟨ops, run⟩ := run_store_step a act
  rw [run.maxStacks]
  exact run.isKept kept

theorem listeners_after (s : Store) (op : Operation) :
    (s.after op).listeners = s.listeners ∧ (s.after op).nextListener = s.nextListener := by
  rcases after_cases s op with ⟨hs, -⟩ | ⟨result, h⟩
  · rw [hs]
    exact ⟨rfl, rfl⟩
  · exact ⟨(performs_of_perform h).listeners, (performs_of_perform h).nextListener⟩

theorem lt_nextListener_step (h : l < a.store.nextListener) (act : Act) : l < (a.step act).store.nextListener := by
  cases act with
  | operate op => exact (listeners_after a.store op).2.symm ▸ h
  | subscribe => exact Nat.lt_succ_of_lt h
  | unsubscribe m =>
    rw [step_unsubscribe]
    split
    · exact h
    · exact h
  | detach | elsewhere => exact h

theorem mem_listeners_step (h : l < a.store.nextListener) (act : Act) :
    l ∈ (a.step act).store.listeners ↔ l ∈ a.store.listeners ∧ ¬(act = .unsubscribe l ∧ l ∈ a.held) := by
  cases act with
  | operate op => simp [step, (listeners_after a.store op).1]
  | subscribe => simp [step, subscribe, h.ne]
  | unsubscribe m =>
    by_cases hm : m ∈ a.held
    · by_cases he : l = m
      · simp [step, hm, unsubscribe, he]
      · simp [step, hm, unsubscribe, he, Ne.symm he]
    · have hout : m = l → l ∉ a.held := fun he => he ▸ hm
      simpa [step, hm] using fun _ => hout
  | detach | elsewhere => simp [step]

theorem mem_held_step (h : l < a.store.nextListener) (act : Act) :
    l ∈ (a.step act).held ↔ l ∈ a.held ∧ act ≠ .unsubscribe l ∧ act ≠ .detach l := by
  cases act with
  | operate | elsewhere => simp [step]
  | subscribe => simp [step, subscribe, h.ne]
  | unsubscribe m =>
    by_cases hm : m ∈ a.held
    · by_cases he : l = m
      · simp [step, hm, he]
      · simp [step, hm, he, Ne.symm he]
    · by_cases he : l = m
      · simp [step, hm, he]
      · simp [step, hm, Ne.symm he]
  | detach m =>
    by_cases he : l = m
    · simp [step, he]
    · simp [step, he, Ne.symm he]

theorem IsOrderly.step (h : a.IsOrderly) (act : Act) : (a.step act).IsOrderly := by
  cases act with
  | operate op =>
    rcases after_cases a.store op with ⟨hs, -⟩ | ⟨result, hp⟩
    · rw [step_operate, hs]
      exact ⟨h.apart, h.known, h.spoken⟩
    · obtain ⟨hl, hn, hnotices, -⟩ := performs_of_perform hp
      refine ⟨hl.symm ▸ h.apart, fun m hm => ?_, fun n hm => ?_⟩
      · exact hn.symm ▸ h.known m (hl ▸ hm)
      · change n ∈ (a.store.after op).notices at hm
        change n.listener < (a.store.after op).nextListener
        rw [hn]
        rw [hnotices, List.mem_append] at hm
        rcases hm with hm | hm
        · exact h.spoken n hm
        · obtain ⟨e, -, hm⟩ := List.mem_flatMap.1 hm
          obtain ⟨l, hl, rfl⟩ := List.mem_map.1 hm
          exact h.known l hl
  | subscribe =>
    refine ⟨?_, fun m hm => ?_, fun n hn => Nat.lt_succ_of_lt (h.spoken n hn)⟩
    · rw [Audience.step, subscribe, List.nodup_append_comm, List.singleton_append, List.nodup_cons]
      exact ⟨fun hm => (h.known _ hm).false, h.apart⟩
    · rcases List.mem_append.1 hm with hm | hm
      · exact Nat.lt_succ_of_lt (h.known m hm)
      · exact List.mem_singleton.1 hm ▸ Nat.lt_succ_self _
  | unsubscribe m =>
    rw [step_unsubscribe]
    split
    · exact ⟨h.apart.filter _, fun n hn => h.known n (List.mem_of_mem_filter hn), h.spoken⟩
    · exact h
  | detach | elsewhere => exact ⟨h.apart, h.known, h.spoken⟩

theorem heard_step (h : a.IsOrderly) (act : Act) (l : Nat) :
    (a.step act).store.heard l = a.store.heard l ++ if l ∈ a.store.listeners then a.told act else [] := by
  cases act with
  | operate op =>
    rcases after_cases a.store op with ⟨hs, htold⟩ | ⟨result, hp⟩
    · simp only [step, told, hs, htold, ite_self, List.append_nil]
    · simp only [step, told, heard]
      rw [(performs_of_perform hp).notices, List.filter_append, List.map_append, heard_announce h.apart]
  | unsubscribe m =>
    simp only [told, ite_self, List.append_nil]
    rw [step_unsubscribe]
    split
    · rfl
    · rfl
  | subscribe | detach | elsewhere => simp only [told, ite_self, List.append_nil]; rfl

theorem foldl_follow_step (kept : IsKept a.store.maxStacks a.store.entries) (act : Act) :
    (a.told act).foldl (Bindings.follow (a.step act).store.reported) (bindings a.store.entries)
      = bindings (a.step act).store.entries := by
  cases act with
  | operate op => exact foldl_follow_told kept op
  | unsubscribe m =>
    rw [step_unsubscribe]
    split
    · rfl
    · rfl
  | subscribe | detach | elsewhere => rfl

def Attends (l : Nat) : Audience → List Act → Prop
  | _, [] => True
  | a, act :: acts => l ∈ a.store.listeners ∧ Attends l (a.step act) acts

theorem IsOrderly.run (h : a.IsOrderly) (acts : List Act) : (a.run acts).IsOrderly := by
  induction acts generalizing a with
  | nil => exact h
  | cons act acts ih => exact ih (h.step act)

theorem attends_of_not_mem_held (h : a.IsOrderly) (hl : l ∈ a.store.listeners) (hfree : l ∉ a.held)
    (acts : List Act) : Attends l a acts := by
  induction acts generalizing a with
  | nil => trivial
  | cons act acts ih =>
    have hlt := h.known l hl
    refine ⟨hl, ih (h.step act) ?_ ?_⟩
    · exact (mem_listeners_step hlt act).2 ⟨hl, fun hgone => hfree hgone.2⟩
    · exact fun hm => hfree ((mem_held_step hlt act).1 hm).1

theorem attends_listening (h : a.IsOrderly) (hl : l ∈ a.store.listeners) (hheld : l ∈ a.held) (acts : List Act) :
    Attends l a (Act.listening l acts) := by
  induction acts generalizing a with
  | nil => trivial
  | cons act acts ih =>
    have hlt := h.known l hl
    rcases Act.listening_cons l act acts with ⟨-, hnil⟩ | ⟨rfl, hall⟩ | ⟨hu, hd, hrest⟩
    · rw [hnil]
      trivial
    · rw [hall]
      refine ⟨hl, attends_of_not_mem_held (h.step _) ?_ ?_ acts⟩
      · exact (mem_listeners_step hlt _).2 ⟨hl, fun hgone => nomatch hgone.1⟩
      · exact fun hm => ((mem_held_step hlt _).1 hm).2.2 rfl
    · rw [hrest]
      refine ⟨hl, ih (h.step act) ?_ ?_⟩
      · exact (mem_listeners_step hlt act).2 ⟨hl, fun hgone => hu hgone.1⟩
      · exact (mem_held_step hlt act).2 ⟨hheld, hu, hd⟩

theorem heard_of_attends (h : a.IsOrderly) {acts : List Act} (hl : Attends l a acts) :
    (a.run acts).store.heard l = a.store.heard l ++ a.toldAll acts := by
  induction acts generalizing a with
  | nil => exact (List.append_nil _).symm
  | cons act acts ih =>
    have hstep := heard_step h act l
    rw [if_pos hl.1] at hstep
    rw [run, List.foldl_cons, toldAll, ← List.append_assoc, ← hstep]
    exact ih (h.step act) hl.2

theorem heard_of_not_mem (h : a.IsOrderly) (hlt : l < a.store.nextListener) (hl : l ∉ a.store.listeners)
    (acts : List Act) : (a.run acts).store.heard l = a.store.heard l := by
  induction acts generalizing a with
  | nil => rfl
  | cons act acts ih =>
    have hstep := heard_step h act l
    rw [if_neg hl, List.append_nil] at hstep
    rw [run, List.foldl_cons, ← hstep]
    exact ih (h.step act) (lt_nextListener_step hlt act) fun hm => hl ((mem_listeners_step hlt act).1 hm).1

theorem heard_run_listening (h : a.IsOrderly) (hl : l ∈ a.store.listeners) (hheld : l ∈ a.held) (acts : List Act) :
    (a.run acts).store.heard l = (a.run (Act.listening l acts)).store.heard l := by
  induction acts generalizing a with
  | nil => rfl
  | cons act acts ih =>
    have hlt := h.known l hl
    rcases Act.listening_cons l act acts with ⟨rfl, hnil⟩ | ⟨-, hall⟩ | ⟨hu, hd, hrest⟩
    · rw [hnil]
      have hstep := heard_step h (.unsubscribe l) l
      rw [show a.told (.unsubscribe l) = [] from rfl, ite_self, List.append_nil] at hstep
      have hgone : l ∉ (a.step (.unsubscribe l)).store.listeners := fun hm =>
        ((mem_listeners_step hlt _).1 hm).2 ⟨rfl, hheld⟩
      exact (heard_of_not_mem (h.step _) (lt_nextListener_step hlt _) hgone acts).trans hstep
    · rw [hall]
    · rw [hrest]
      refine ih (h.step act) ?_ ?_
      · exact (mem_listeners_step hlt act).2 ⟨hl, fun hgone => hu hgone.1⟩
      · exact (mem_held_step hlt act).2 ⟨hheld, hu, hd⟩

theorem mirror_of_attends (h : a.IsOrderly) (kept : IsKept a.store.maxStacks a.store.entries) {acts : List Act}
    (hl : Attends l a acts) :
    mirror l (bindings a.store.entries) a acts = bindings (a.run acts).store.entries := by
  induction acts generalizing a with
  | nil => rfl
  | cons act acts ih =>
    have hstep := heard_step h act l
    rw [if_pos hl.1] at hstep
    rw [mirror, hstep, List.drop_left, foldl_follow_step kept]
    exact ih (h.step act) (isKept_step kept act) hl.2

theorem heard_nextListener (h : a.IsOrderly) : a.store.heard a.store.nextListener = [] := by
  rw [heard, List.map_eq_nil_iff, List.filter_eq_nil_iff]
  intro n hn he
  exact (h.spoken n hn).ne (beq_iff_eq.1 he)

end Audience

/-- Whatever happens to a store, before and after a listener subscribes, it hears of exactly the operations that take
place until it is removed, one event after the other. If there are no stacks when it subscribes, it has made out by
then which stack has which shortcut. -/
theorem heard_of_run {s₀ : Store} (nobody : s₀.listeners = []) (silent : s₀.notices = []) (before later : List Act) :
    let a := Audience.run ⟨s₀, []⟩ before
    let l := a.store.nextListener
    let present := .subscribe :: Act.listening l later
    (a.run (.subscribe :: later)).store.heard l = a.toldAll present ∧
      (a.store.entries = [] →
        Audience.mirror l (fun _ => none) a present = bindings (a.run present).store.entries) := by
  intro a l present
  have horderly := (Audience.isOrderly_of_nil nobody silent []).run before
  have hstep := horderly.step .subscribe
  have hl : l ∈ (a.step .subscribe).store.listeners := List.mem_append_right _ (List.mem_singleton_self l)
  have hheld : l ∈ (a.step .subscribe).held := List.mem_append_right _ (List.mem_singleton_self l)
  have hattends := Audience.attends_listening hstep hl hheld later
  constructor
  · have hheard := Audience.heard_of_attends hstep hattends
    rw [← Audience.heard_run_listening hstep hl hheld] at hheard
    exact hheard.trans (congrArg (· ++ _) (Audience.heard_nextListener horderly))
  · intro hempty
    have hentries : (a.step .subscribe).store.entries = [] := hempty
    have hkept : IsKept (a.step .subscribe).store.maxStacks (a.step .subscribe).store.entries :=
      hentries ▸ isKept_nil _
    have hmirror := Audience.mirror_of_attends hstep hkept hattends
    have hnothing : ((a.step .subscribe).store.heard l).drop (a.store.heard l).length = [] := List.drop_length
    rw [hentries, bindings_nil] at hmirror
    rw [Audience.mirror, hnothing]
    exact hmirror

def migration : List Act :=
  [.operate (.create ⟨"a", "x", none, none, some 1⟩), .operate (.create ⟨"b", "y", none, none, some 1⟩),
    .operate (.create ⟨"@B", "z", none, none, none⟩), .subscribe, .unsubscribe 2, .operate (.rename "a" "c"),
    .detach 1, .operate (.assignShortcut "c" (some 1)), .unsubscribe 1, .operate (.delete "b"), .unsubscribe 0,
    .operate (.recordUsage "c")]

theorem heard_of_run_migration :
    let s₀ : Store := ⟨[], .empty .memory, [], 0, [], 0, 5, 3⟩
    let a := Audience.run ⟨s₀, []⟩ [.subscribe]
    s₀.listeners = [] ∧ s₀.notices = [] ∧ a.store.entries = [] ∧
      (a.run (.subscribe :: migration)).store.heard 1 =
        [.created "a", .created "b", .shortcutChanged "a" none, .renamed "a" "c", .shortcutChanged "b" none,
          .shortcutChanged "c" (some 1), .deleted "b", .used "c"] ∧
      Audience.mirror 1 (fun _ => none) a (.subscribe :: Act.listening 1 migration) "c" = some (some 1) := by
  intro s₀ a
  obtain ⟨hheard, hmirror⟩ := @heard_of_run s₀ rfl rfl [.subscribe] migration
  refine ⟨rfl, rfl, rfl, hheard.trans ?_, (congrFun (hmirror rfl) "c").trans ?_⟩
  · decide +kernel
  · decide +kernel

end FilterQuery.Store
