import FilterQuery.Compiled
import FilterQuery.Proofs.Sharing

/-! The walk over a tree that passes over what it has walked before, against the walk over the same tree
with a copy for every reference. The leaves of the two are the same up to repeats; those that ask for
content are the same altogether unless a subtree that asks for content is referred to twice. -/

namespace FilterQuery

section

variable {α β : Type} [BEq α] [LawfulBEq α] [BEq β] [LawfulBEq β] {as bs : List α}

theorem eraseDups_append_of_subset (h : bs ⊆ as) : (as ++ bs).eraseDups = as.eraseDups := by
  have hnone : bs.removeAll as = [] := List.filter_eq_nil_iff.2 fun b hb => by simp [h hb]
  rw [List.eraseDups_append, hnone, List.eraseDups_nil, List.append_nil]

theorem mem_iff_of_eraseDups_eq (h : as.eraseDups = bs.eraseDups) {a : α} : a ∈ as ↔ a ∈ bs := by
  rw [← List.mem_eraseDups, h, List.mem_eraseDups]

theorem eraseDups_append_congr (h : as.eraseDups = bs.eraseDups) (cs : List α) :
    (as ++ cs).eraseDups = (bs ++ cs).eraseDups := by
  have hrest : cs.removeAll as = cs.removeAll bs :=
    List.filter_congr fun c _ => by
      rw [Bool.eq_iff_iff]
      simp [mem_iff_of_eraseDups_eq h]
  rw [List.eraseDups_append, List.eraseDups_append, h, hrest]

theorem eraseDups_concat_of_notMem {a : α} (h : a ∉ as) : (as ++ [a]).eraseDups = as.eraseDups ++ [a] := by
  have hone : [a].removeAll as = [a] := by simp [List.removeAll, h]
  rw [List.eraseDups_append, hone]
  rfl

theorem nodup_eraseDups (as : List α) : as.eraseDups.Nodup := by
  induction as using List.reverseRecOn with
  | nil => exact List.nodup_nil
  | append_singleton as a ih =>
    by_cases ha : a ∈ as
    · rw [eraseDups_append_of_subset (List.cons_subset.2 ⟨ha, List.nil_subset as⟩)]
      exact ih
    · rw [eraseDups_concat_of_notMem ha, ← List.concat_eq_append]
      exact ih.concat (mt List.mem_eraseDups.1 ha)

theorem eraseDups_filterMap (f : α → Option β) (as : List α) :
    (as.eraseDups.filterMap f).eraseDups = (as.filterMap f).eraseDups := by
  induction as using List.reverseRecOn with
  | nil => rfl
  | append_singleton as a ih =>
    rw [List.filterMap_append]
    by_cases ha : a ∈ as
    · rw [eraseDups_append_of_subset (List.cons_subset.2 ⟨ha, List.nil_subset as⟩), ih]
      refine (eraseDups_append_of_subset fun b hb => ?_).symm
      obtain ⟨c, hc, hb⟩ := List.mem_filterMap.1 hb
      rw [List.mem_singleton] at hc
      exact List.mem_filterMap.2 ⟨a, ha, hc ▸ hb⟩
    · rw [eraseDups_concat_of_notMem ha, List.filterMap_append]
      exact eraseDups_append_congr ih _

theorem eraseDups_filterMap_congr (h : as.eraseDups = bs.eraseDups) (f : α → Option β) :
    (as.filterMap f).eraseDups = (bs.filterMap f).eraseDups := by
  rw [← eraseDups_filterMap f as, h, eraseDups_filterMap]

end

namespace Node

mutual
def copies (negated : Bool) : Node → List SignedLeaf
  | leaf l => [(l, negated)]
  | reference _ => []
  | expansion _ _ body => body.copies negated
  | group _ flip ns => allCopies (negated != flip) ns

def allCopies (negated : Bool) : List Node → List SignedLeaf
  | [] => []
  | n :: ns => n.copies negated ++ allCopies negated ns
end

mutual
def shared : Node → List (Site × Node)
  | leaf _ | reference _ => []
  | expansion _ none body => body.shared
  | expansion _ (some site) body => (site, body) :: body.shared
  | group _ _ ns => allShared ns

def allShared : List Node → List (Site × Node)
  | [] => []
  | n :: ns => n.shared ++ allShared ns
end

mutual
theorem shared_unshared : ∀ n : Node, n.unshared.shared = []
  | leaf _ | reference _ => rfl
  | expansion _ _ body => shared_unshared body
  | group _ _ ns => allShared_unsharedAll ns

theorem allShared_unsharedAll : ∀ ns : List Node, allShared (unsharedAll ns) = []
  | [] => rfl
  | n :: ns => by rw [unsharedAll, allShared, shared_unshared n, allShared_unsharedAll ns, List.append_nil]
end

/-- Whether a site leads to one subtree wherever it stands in a node, namely to what is in memory there. -/
def Backed (memory : Site → Node) (n : Node) : Prop := ∀ x ∈ n.shared, memory x.1 = x.2

mutual
theorem leavesFrom_unshared (negated : Bool) (walked : Walked) :
    ∀ n : Node, n.unshared.leavesFrom negated walked = (n.copies negated, walked)
  | leaf _ => rfl
  | reference _ => rfl
  | expansion _ _ body => leavesFrom_unshared negated walked body
  | group _ flip ns => allLeavesFrom_unshared (negated != flip) walked ns

theorem allLeavesFrom_unshared (negated : Bool) (walked : Walked) :
    ∀ ns : List Node, allLeavesFrom negated walked (unsharedAll ns) = (allCopies negated ns, walked)
  | [] => rfl
  | n :: ns => by
    simp only [unsharedAll, allLeavesFrom, allCopies, leavesFrom_unshared negated walked n,
      allLeavesFrom_unshared negated walked ns]
end

mutual
theorem leavesFrom_sublist (negated : Bool) (walked : Walked) :
    ∀ n : Node, (n.leavesFrom negated walked).1.Sublist (n.copies negated)
  | leaf _ => .refl _
  | reference _ => .refl _
  | expansion _ none body => leavesFrom_sublist negated walked body
  | expansion _ (some site) body => by
    rw [leavesFrom]
    split
    · exact List.nil_sublist _
    · exact leavesFrom_sublist negated _ body
  | group _ flip ns => allLeavesFrom_sublist (negated != flip) walked ns

theorem allLeavesFrom_sublist (negated : Bool) (walked : Walked) :
    ∀ ns : List Node, (allLeavesFrom negated walked ns).1.Sublist (allCopies negated ns)
  | [] => .refl _
  | n :: ns => (leavesFrom_sublist negated walked n).append (allLeavesFrom_sublist negated _ ns)
end

mutual
theorem subset_leavesFrom (negated : Bool) (walked : Walked) :
    ∀ n : Node, walked ⊆ (n.leavesFrom negated walked).2
  | leaf _ => List.Subset.refl _
  | reference _ => List.Subset.refl _
  | expansion _ none body => subset_leavesFrom negated walked body
  | expansion _ (some site) body => by
    rw [leavesFrom]
    split
    · exact List.Subset.refl _
    · exact List.Subset.trans (List.subset_cons_self _ _) (subset_leavesFrom negated _ body)
  | group _ flip ns => subset_allLeavesFrom (negated != flip) walked ns

theorem subset_allLeavesFrom (negated : Bool) (walked : Walked) :
    ∀ ns : List Node, walked ⊆ (allLeavesFrom negated walked ns).2
  | [] => List.Subset.refl _
  | n :: ns => List.Subset.trans (subset_leavesFrom negated walked n) (subset_allLeavesFrom negated _ ns)
end

section

variable {memory : Site → Node} {seen : List SignedLeaf} {walked : Walked}

def Settled (memory : Site → Node) (seen : List SignedLeaf) (size : Nat) (walked : Walked) : Prop :=
  ∀ v ∈ walked, (memory v.1).copies v.2 ⊆ seen ∨ size ≤ sizeOf (memory v.1)

theorem Settled.mono {size size' : Nat} (h : Settled memory seen size walked) (hle : size' ≤ size) :
    Settled memory seen size' walked :=
  fun v hv => (h v hv).imp_right hle.trans

structure Covers (memory : Site → Node) (seen : List SignedLeaf) (walked : Walked) (all : List SignedLeaf)
    (result : List SignedLeaf × Walked) : Prop where
  leaves : (seen ++ result.1).eraseDups = (seen ++ all).eraseDups
  done : ∀ v ∈ result.2, v ∈ walked ∨ (memory v.1).copies v.2 ⊆ seen ++ result.1

theorem Covers.settled {size size' : Nat} {all : List SignedLeaf} {result : List SignedLeaf × Walked}
    (h : Covers memory seen walked all result) (hs : Settled memory seen size walked) (hle : size' ≤ size) :
    Settled memory (seen ++ result.1) size' result.2 := by
  intro v hv
  rcases h.done v hv with hv | hv
  · exact (hs v hv).imp (List.subset_append_of_subset_left _ ·) hle.trans
  · exact .inl hv

theorem Covers.append {all all' : List SignedLeaf} {result result' : List SignedLeaf × Walked}
    (h : Covers memory seen walked all result)
    (h' : Covers memory (seen ++ result.1) result.2 all' result') :
    Covers memory seen walked (all ++ all') (result.1 ++ result'.1, result'.2) where
  leaves := by
    rw [← List.append_assoc, h'.leaves, ← List.append_assoc]
    exact eraseDups_append_congr h.leaves _
  done v hv := by
    rw [← List.append_assoc]
    rcases h'.done v hv with hv | hv
    · exact (h.done v hv).imp_right (List.subset_append_of_subset_left _ ·)
    · exact .inr hv

mutual
theorem covers_leavesFrom (negated : Bool) (seen : List SignedLeaf) (walked : Walked) :
    ∀ n : Node, n.Backed memory → Settled memory seen (sizeOf n) walked →
      Covers memory seen walked (n.copies negated) (n.leavesFrom negated walked)
  | leaf _, _, _ => ⟨rfl, fun _ => .inl⟩
  | reference _, _, _ => ⟨rfl, fun _ => .inl⟩
  | expansion _ none body, hb, hs => covers_leavesFrom negated seen walked body hb (hs.mono (by simp))
  | expansion name (some site) body, hb, hs => by
    have hbody : memory site = body := hb (site, body) List.mem_cons_self
    have hsize : sizeOf body < sizeOf (expansion name (some site) body) := by simp
    rw [leavesFrom, copies]
    split
    · next hwalked =>
      -- a subtree that is still open is not within itself
      have hdone := (hs (site, negated) (List.contains_iff_mem.1 hwalked)).resolve_right (by rw [hbody]; omega)
      rw [hbody] at hdone
      exact ⟨by rw [List.append_nil, eraseDups_append_of_subset hdone], fun _ => .inl⟩
    · have hopen : Settled memory seen (sizeOf body) ((site, negated) :: walked) := by
        refine List.forall_mem_cons.2 ⟨.inr ?_, hs.mono hsize.le⟩
        rw [hbody]
      have h := covers_leavesFrom negated seen ((site, negated) :: walked) body
        (fun x hx => hb x (List.mem_cons_of_mem _ hx)) hopen
      refine ⟨h.leaves, fun v hv => ?_⟩
      rcases h.done v hv with hv | hv
      · rcases List.mem_cons.1 hv with rfl | hv
        · refine .inr fun l hl => (mem_iff_of_eraseDups_eq h.leaves).2 ?_
          rw [hbody] at hl
          exact List.mem_append_right _ hl
        · exact .inl hv
      · exact .inr hv
  | group _ flip ns, hb, hs =>
    covers_allLeavesFrom (negated != flip) seen walked ns hb (hs.mono (by simp))

theorem covers_allLeavesFrom (negated : Bool) (seen : List SignedLeaf) (walked : Walked) :
    ∀ ns : List Node, (∀ x ∈ allShared ns, memory x.1 = x.2) → Settled memory seen (sizeOf ns) walked →
      Covers memory seen walked (allCopies negated ns) (allLeavesFrom negated walked ns)
  | [], _, _ => ⟨rfl, fun _ => .inl⟩
  | n :: ns, hb, hs => by
    have h := covers_leavesFrom negated seen walked n (fun x hx => hb x (List.mem_append_left _ hx))
      (hs.mono (by simp; omega))
    exact h.append (covers_allLeavesFrom negated _ _ ns (fun x hx => hb x (List.mem_append_right _ hx))
      (h.settled hs (by simp)))
end

theorem eraseDups_leaves {n : Node} (h : n.Backed memory) :
    n.leaves.eraseDups = (n.copies false).eraseDups :=
  (covers_leavesFrom false [] [] n h nofun).leaves

def searchTerms (ls : List SignedLeaf) : List String := ls.filterMap (SignedLeaf.term? .content .is)

theorem searchTerms_append (ls ks : List SignedLeaf) :
    searchTerms (ls ++ ks) = searchTerms ls ++ searchTerms ks :=
  List.filterMap_append

mutual
/-- The sites of the shared subtrees that ask for content, each with the negation above it, once for every
reference to them. -/
def searchSites (negated : Bool) : Node → Walked
  | leaf _ | reference _ => []
  | expansion _ none body => body.searchSites negated
  | expansion _ (some site) body =>
    if searchTerms (body.copies negated) = [] then []
    else (site, negated) :: body.searchSites negated
  | group _ flip ns => allSearchSites (negated != flip) ns

def allSearchSites (negated : Bool) : List Node → Walked
  | [] => []
  | n :: ns => n.searchSites negated ++ allSearchSites negated ns
end

mutual
theorem searchSites_eq_nil (negated : Bool) :
    ∀ n : Node, searchTerms (n.copies negated) = [] → n.searchSites negated = []
  | leaf _, _ => rfl
  | reference _, _ => rfl
  | expansion _ none body, h => searchSites_eq_nil negated body h
  | expansion _ (some _) _, h => if_pos h
  | group _ flip ns, h => allSearchSites_eq_nil (negated != flip) ns h

theorem allSearchSites_eq_nil (negated : Bool) :
    ∀ ns : List Node, searchTerms (allCopies negated ns) = [] → allSearchSites negated ns = []
  | [], _ => rfl
  | n :: ns, h => by
    rw [allCopies, searchTerms_append, List.append_eq_nil_iff] at h
    rw [allSearchSites, searchSites_eq_nil negated n h.1, allSearchSites_eq_nil negated ns h.2]
    rfl
end

def Asks (memory : Site → Node) (v : Site × Bool) : Prop := searchTerms ((memory v.1).copies v.2) ≠ []

mutual
theorem asks_of_mem_searchSites (negated : Bool) : ∀ n : Node, n.Backed memory →
    ∀ v ∈ n.searchSites negated, Asks memory v
  | leaf _, _, _, hv => absurd hv List.not_mem_nil
  | reference _, _, _, hv => absurd hv List.not_mem_nil
  | expansion _ none body, hb, v, hv => asks_of_mem_searchSites negated body hb v hv
  | expansion _ (some site) body, hb, v, hv => by
    rw [searchSites] at hv
    split at hv
    · exact absurd hv List.not_mem_nil
    · next hne =>
      rcases List.mem_cons.1 hv with rfl | hv
      · have hbody : memory site = body := hb (site, body) List.mem_cons_self
        rwa [Asks, hbody]
      · exact asks_of_mem_searchSites negated body (fun x hx => hb x (List.mem_cons_of_mem _ hx)) v hv
  | group _ flip ns, hb, v, hv => asks_of_mem_allSearchSites (negated != flip) ns hb v hv

theorem asks_of_mem_allSearchSites (negated : Bool) : ∀ ns : List Node,
    (∀ x ∈ allShared ns, memory x.1 = x.2) → ∀ v ∈ allSearchSites negated ns, Asks memory v
  | [], _, _, hv => absurd hv List.not_mem_nil
  | n :: ns, hb, v, hv => by
    rcases List.mem_append.1 hv with hv | hv
    · exact asks_of_mem_searchSites negated n (fun x hx => hb x (List.mem_append_left _ hx)) v hv
    · exact asks_of_mem_allSearchSites negated ns (fun x hx => hb x (List.mem_append_right _ hx)) v hv
end

mutual
theorem mem_searchSites_of_walked (negated : Bool) (walked : Walked) : ∀ n : Node, n.Backed memory →
    ∀ v ∈ (n.leavesFrom negated walked).2, Asks memory v → v ∈ walked ∨ v ∈ n.searchSites negated
  | leaf _, _, _, hv, _ => .inl hv
  | reference _, _, _, hv, _ => .inl hv
  | expansion _ none body, hb, v, hv, ha => mem_searchSites_of_walked negated walked body hb v hv ha
  | expansion _ (some site) body, hb, v, hv, ha => by
    have hbody : memory site = body := hb (site, body) List.mem_cons_self
    rw [leavesFrom] at hv
    split at hv
    · exact .inl hv
    · have h := mem_searchSites_of_walked negated _ body (fun x hx => hb x (List.mem_cons_of_mem _ hx)) v hv ha
      rw [searchSites]
      split
      · next hnil =>
        rw [searchSites_eq_nil negated body hnil, List.mem_cons] at h
        rcases h with (rfl | h) | h
        · exact absurd hnil (by rwa [Asks, hbody] at ha)
        · exact .inl h
        · exact absurd h List.not_mem_nil
      · rw [List.mem_cons] at h ⊢
        tauto
  | group _ flip ns, hb, v, hv, ha => mem_allSearchSites_of_walked (negated != flip) walked ns hb v hv ha

theorem mem_allSearchSites_of_walked (negated : Bool) (walked : Walked) : ∀ ns : List Node,
    (∀ x ∈ allShared ns, memory x.1 = x.2) → ∀ v ∈ (allLeavesFrom negated walked ns).2, Asks memory v →
      v ∈ walked ∨ v ∈ allSearchSites negated ns
  | [], _, _, hv, _ => .inl hv
  | n :: ns, hb, v, hv, ha => by
    rw [allSearchSites, List.mem_append]
    rcases mem_allSearchSites_of_walked negated _ ns (fun x hx => hb x (List.mem_append_right _ hx)) v hv ha
      with hv | hv
    · have h := mem_searchSites_of_walked negated walked n (fun x hx => hb x (List.mem_append_left _ hx)) v hv ha
      tauto
    · exact .inr (.inr hv)
end

mutual
theorem searchTerms_leavesFrom (negated : Bool) (walked : Walked) : ∀ n : Node, n.Backed memory →
    (n.searchSites negated).Nodup → (n.searchSites negated).Disjoint walked →
      searchTerms (n.leavesFrom negated walked).1 = searchTerms (n.copies negated)
  | leaf _, _, _, _ => rfl
  | reference _, _, _, _ => rfl
  | expansion _ none body, hb, hn, hd => searchTerms_leavesFrom negated walked body hb hn hd
  | expansion _ (some site) body, hb, hn, hd => by
    have hb' : body.Backed memory := fun x hx => hb x (List.mem_cons_of_mem _ hx)
    rw [searchSites] at hn hd
    rw [leavesFrom, copies]
    split at hn
    · next hnil =>
      split
      · exact hnil.symm
      · have hsites := searchSites_eq_nil negated body hnil
        exact searchTerms_leavesFrom negated _ body hb' (hsites ▸ List.nodup_nil)
          (hsites ▸ List.disjoint_nil_left _)
    · next hne =>
      rw [if_neg hne, List.disjoint_cons_left] at hd
      rw [List.nodup_cons] at hn
      rw [if_neg (by simpa using hd.1)]
      exact searchTerms_leavesFrom negated _ body hb' hn.2 (List.disjoint_cons_right.2 ⟨hn.1, hd.2⟩)
  | group _ flip ns, hb, hn, hd => searchTerms_allLeavesFrom (negated != flip) walked ns hb hn hd

theorem searchTerms_allLeavesFrom (negated : Bool) (walked : Walked) : ∀ ns : List Node,
    (∀ x ∈ allShared ns, memory x.1 = x.2) → (allSearchSites negated ns).Nodup →
      (allSearchSites negated ns).Disjoint walked →
        searchTerms (allLeavesFrom negated walked ns).1 = searchTerms (allCopies negated ns)
  | [], _, _, _ => rfl
  | n :: ns, hb, hn, hd => by
    have hb₁ : n.Backed memory := fun x hx => hb x (List.mem_append_left _ hx)
    have hb₂ : ∀ x ∈ allShared ns, memory x.1 = x.2 := fun x hx => hb x (List.mem_append_right _ hx)
    rw [allSearchSites, List.nodup_append'] at hn
    rw [allSearchSites, List.disjoint_append_left] at hd
    have hrest : (allSearchSites negated ns).Disjoint (n.leavesFrom negated walked).2 := by
      intro v hv hw
      rcases mem_searchSites_of_walked negated walked n hb₁ v hw (asks_of_mem_allSearchSites negated ns hb₂ v hv)
        with hw | hw
      · exact hd.2 hv hw
      · exact hn.2.2 hw hv
    rw [allLeavesFrom, allCopies, searchTerms_append, searchTerms_append]
    exact congrArg₂ _ (searchTerms_leavesFrom negated walked n hb₁ hn.1 hd.1)
      (searchTerms_allLeavesFrom negated _ ns hb₂ hn.2.1 hrest)
end

mutual
theorem searchSites_of_searchTerms (negated : Bool) (walked : Walked) : ∀ n : Node,
    searchTerms (n.leavesFrom negated walked).1 = searchTerms (n.copies negated) →
      (n.searchSites negated).Nodup ∧ (n.searchSites negated).Disjoint walked ∧
        n.searchSites negated ⊆ (n.leavesFrom negated walked).2
  | leaf _, _ => ⟨List.nodup_nil, List.disjoint_nil_left _, List.nil_subset _⟩
  | reference _, _ => ⟨List.nodup_nil, List.disjoint_nil_left _, List.nil_subset _⟩
  | expansion _ none body, h => searchSites_of_searchTerms negated walked body h
  | expansion _ (some site) body, h => by
    rw [leavesFrom, copies] at h
    rw [searchSites, leavesFrom]
    split
    · exact ⟨List.nodup_nil, List.disjoint_nil_left _, List.nil_subset _⟩
    · next hne =>
      split at h
      · exact absurd h.symm hne
      · next hnew =>
        obtain ⟨hn, hd, hs⟩ := searchSites_of_searchTerms negated _ body h
        rw [List.disjoint_cons_right] at hd
        rw [if_neg hnew]
        refine ⟨List.nodup_cons.2 ⟨hd.1, hn⟩, List.disjoint_cons_left.2 ⟨by simpa using hnew, hd.2⟩,
          List.cons_subset.2 ⟨?_, hs⟩⟩
        exact subset_leavesFrom negated _ body List.mem_cons_self
  | group _ flip ns, h => allSearchSites_of_searchTerms (negated != flip) walked ns h

theorem allSearchSites_of_searchTerms (negated : Bool) (walked : Walked) : ∀ ns : List Node,
    searchTerms (allLeavesFrom negated walked ns).1 = searchTerms (allCopies negated ns) →
      (allSearchSites negated ns).Nodup ∧ (allSearchSites negated ns).Disjoint walked ∧
        allSearchSites negated ns ⊆ (allLeavesFrom negated walked ns).2
  | [], _ => ⟨List.nodup_nil, List.disjoint_nil_left _, List.nil_subset _⟩
  | n :: ns, h => by
    rw [allLeavesFrom, allCopies, searchTerms_append, searchTerms_append] at h
    -- neither part can make up for what the other loses
    have hle := ((leavesFrom_sublist negated walked n).filterMap (SignedLeaf.term? .content .is)).length_le
    have hle' := ((allLeavesFrom_sublist negated (n.leavesFrom negated walked).2 ns).filterMap
      (SignedLeaf.term? .content .is)).length_le
    have hlen := congrArg List.length h
    rw [List.length_append, List.length_append] at hlen
    obtain ⟨h₁, h₂⟩ := List.append_inj h (by simp only [searchTerms] at hlen ⊢; omega)
    obtain ⟨hn₁, hd₁, hs₁⟩ := searchSites_of_searchTerms negated walked n h₁
    obtain ⟨hn₂, hd₂, hs₂⟩ := allSearchSites_of_searchTerms negated _ ns h₂
    have hwalked := subset_leavesFrom negated walked n
    have hwalked' := subset_allLeavesFrom negated (n.leavesFrom negated walked).2 ns
    refine ⟨List.nodup_append'.2 ⟨hn₁, hn₂, fun v hv hv' => hd₂ hv' (hs₁ hv)⟩,
      List.disjoint_append_left.2 ⟨hd₁, fun v hv hw => hd₂ hv (hwalked hw)⟩,
      List.append_subset.2 ⟨List.Subset.trans hs₁ hwalked', hs₂⟩⟩
end

theorem searchTerms_leaves_iff {n : Node} (h : n.Backed memory) :
    searchTerms n.leaves = searchTerms (n.copies false) ↔ (n.searchSites false).Nodup :=
  ⟨fun ht => (searchSites_of_searchTerms false [] n ht).1,
    fun hn => searchTerms_leavesFrom false [] n h hn (List.disjoint_nil_right _)⟩

end

end Node

end FilterQuery
