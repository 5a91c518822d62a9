import FilterQuery.Proofs.Expansion.Simulation
import FilterQuery.Proofs.Store.Trees
import FilterQuery.Session

namespace FilterQuery

namespace StackName

variable {name : String}

end StackName

def Token.ofName (name : String) : Token := ⟨.reference name, "@" ++ name, 0⟩

section

variable {saved : Stacks} {limit : Nat} {name query : String} {t : Tree}

end

namespace Stack

/-- The names of the stacks are names, and apart. -/
structure IsNamed (entries : List Stack) : Prop where
  named : ∀ n ∈ names entries, StackName.IsName n
  apart : (names entries).Nodup

variable {limit now : Nat} {entries : List Stack}

theorem IsNamed.congr {entries' : List Stack} (h : IsNamed entries) (hn : names entries' = names entries) :
    IsNamed entries' := ⟨hn ▸ h.named, hn ▸ h.apart⟩

theorem IsNamed.queries_eq (h : IsNamed entries) {t : Stack} (ht : t ∈ entries) :
    queries entries t.name = some t.query := by
  obtain ⟨before, after, rfl⟩ := List.append_of_mem ht
  have hapart := h.apart
  rw [names_append_cons, List.nodup_middle, List.nodup_cons, List.mem_append, not_or] at hapart
  have hbefore : before.find? (·.name == t.name) = none := by
    refine List.find?_eq_none.2 fun s hs he => hapart.1.1 ?_
    exact List.mem_map.2 ⟨s, hs, beq_iff_eq.1 he⟩
  rw [queries, List.find?_append, hbefore, Option.none_or, List.find?_cons_of_pos (by simp)]
  rfl

theorem IsNamed.sublist {entries' : List Stack} (h : IsNamed entries) (hs : entries'.Sublist entries) :
    IsNamed entries' where
  named n hn := h.named n ((hs.map _).subset hn)
  apart := h.apart.sublist (hs.map _)

theorem IsNamed.concat {entries' : List Stack} {name : String} (h : IsNamed entries)
    (hname : StackName.IsName name) (fresh : name ∉ names entries) (hn : names entries' = names entries ++ [name]) :
    IsNamed entries' where
  named n hm := by
    rw [hn, List.mem_append, List.mem_singleton] at hm
    rcases hm with hm | rfl
    · exact h.named n hm
    · exact hname
  apart := by
    rw [hn, List.nodup_append_comm, List.singleton_append, List.nodup_cons]
    exact ⟨fresh, h.apart⟩

theorem IsNamed.rename {before after : List Stack} {s s' : Stack} (h : IsNamed (before ++ s :: after))
    (hname : StackName.IsName s'.name) (fresh : s'.name ∉ names (before ++ s :: after)) :
    IsNamed (before ++ s' :: after) where
  named n hm := by
    have hnamed := h.named n
    rw [names_append_cons, List.mem_append, List.mem_cons] at hm hnamed
    rcases hm with hm | rfl | hm
    · exact hnamed (.inl hm)
    · exact hname
    · exact hnamed (.inr (.inr hm))
  apart := by
    have hapart := h.apart
    rw [names_append_cons] at fresh
    rw [names_append_cons, List.nodup_middle, List.nodup_cons] at hapart ⊢
    exact ⟨fun hm => fresh ((List.mem_append.1 hm).elim (List.mem_append_left _)
      fun hm => List.mem_append_right _ (List.mem_cons_of_mem _ hm)), hapart.2⟩

theorem Operation.Makes.isNamed {op : Operation} {c : Change} (hm : op.Makes limit now entries c)
    (h : IsNamed entries) : IsNamed c.entries := by
  cases hm with
  | create normal allowed key fresh room =>
    refine h.concat (normal ▸ StackName.isName_normalize (normal ▸ allowed)) (not_mem_names fresh) ?_
    rw [names_append_cons, names_release]
    rfl
  | update named revision => exact h.congr (by rw [names_append_cons, names_append_cons]; rfl)
  | rename named normal allowed fresh =>
    rcases fresh with rfl | fresh
    · exact h.congr (by rw [names_append_cons, names_append_cons])
    · exact h.rename (normal ▸ StackName.isName_normalize (normal ▸ allowed)) (not_mem_names fresh)
  | delete named => exact h.sublist ((List.Sublist.refl _).append (List.sublist_cons_self _ _))
  | assignShortcut named key =>
    exact h.congr (by rw [names_append_cons, names_append_cons, names_release, names_release]; rfl)
  | recordUsage named => exact h.congr (by rw [names_append_cons, names_append_cons])
  | markSynced named => exact h.congr (by rw [names_append_cons, names_append_cons])

end Stack

namespace Store

open Stack

variable {s s' s₀ : Store} {t : Stack}

theorem Run.isNamed {ops : List Operation} (run : Run s ops s') (hs : IsNamed s.entries) : IsNamed s'.entries := by
  induction run with
  | refl => exact hs
  | performed run h ih =>
    obtain ⟨c, entries, storage, hm, hsettle, -, -, rfl⟩ := perform_eq_ok h
    refine (hm.isNamed ih).congr ?_
    have hnames := congrArg (List.map fun r => r.name) (records_of_settle hsettle)
    rwa [List.map_map, List.map_map] at hnames
  | idle run h ih => exact h.entries ▸ ih

end Store

end FilterQuery
