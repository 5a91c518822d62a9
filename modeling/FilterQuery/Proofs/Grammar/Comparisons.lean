import FilterQuery.Proofs.Grammar.Clauses

namespace FilterQuery.Grammar

open Token (Kind)

def Compares (k l : Kind) : Prop := ∀ op, k = .compare op → op ≠ .within → ∃ c v, IsValue c l v

structure IsCompared (ks : List Kind) : Prop where
  chain : ks.IsChain Compares
  last : ∀ op, ks.getLast? = some (.compare op) → op = .within

namespace IsCompared

variable {ks ls : List Kind} {k : Kind}

theorem singleton (k : Kind) (h : ∀ op, k ≠ .compare op) : IsCompared [k] where
  chain := .singleton k
  last op hop := absurd (Option.some.inj hop) (h op)

theorem append (h : IsCompared ks) (h' : IsCompared ls) : IsCompared (ks ++ ls) where
  chain := by
    refine List.isChain_append.2 ⟨h.chain, h'.chain, fun x hx y _ op hop hne => ?_⟩
    rw [hop] at hx
    exact absurd (h.last op hx) hne
  last op hop := by
    rw [List.getLast?_append] at hop
    cases hl : ls.getLast? with
    | none =>
      rw [hl] at hop
      exact h.last op hop
    | some l =>
      rw [hl] at hop
      exact h'.last op (hl.trans hop)

theorem cons (k : Kind) (hk : ∀ op, k ≠ .compare op) (h : IsCompared ks) : IsCompared (k :: ks) :=
  (singleton k hk).append h

theorem sign {op : Comparator} {c : Category} {v : String} (h : IsValue c k v) : IsCompared [.compare op, k] where
  chain := List.isChain_pair.2 fun _ _ _ => ⟨c, v, h⟩
  last op' hop := by
    rw [List.getLast?_cons_cons, List.getLast?_singleton, Option.some_inj] at hop
    rw [hop] at h
    cases h.1

theorem points : IsCompared [.compare .within] where
  chain := .singleton _
  last op hop := by
    cases hop
    rfl

end IsCompared

variable {ks : List Kind} {next : Option Kind}

theorem ne_compare_of_isValue {c : Category} {k : Kind} {v : String} (h : IsValue c k v) :
    ∀ op, k ≠ .compare op := by
  rintro op rfl
  cases h.1

theorem Term.isCompared {s : Option Stance} {n : Node} (h : Term s ks next n) : IsCompared ks := by
  have hnamed : ∀ {w : String} {ks : List Kind}, IsCompared ks → IsCompared (.word w :: .colon :: ks) :=
    fun h => (h.cons .colon nofun).cons _ nofun
  cases h with
  | word | number | date | phrase | regex | wildcard => exact .singleton _ nofun
  | @named _ k v _ _ hv =>
    refine hnamed (.singleton k ?_)
    rintro op rfl
    cases hv
  | quoted | fieldPhrase | fieldRegex | fieldWildcard => exact hnamed (.singleton _ nofun)
  | compared _ _ hv => exact hnamed (.sign hv)
  | comparedBare _ _ hv => exact (IsCompared.sign hv).cons _ nofun
  | upTo _ hv => exact hnamed (.sign hv)
  | upFrom _ hv => exact hnamed (.cons _ (ne_compare_of_isValue hv) .points)
  | range _ hv _ hv' => exact hnamed (.cons _ (ne_compare_of_isValue hv) (.sign hv'))
  | period _ hv | equal _ _ hv => exact hnamed (.singleton _ (ne_compare_of_isValue hv))

mutual
theorem Unary.isCompared : ∀ {ks : List Kind} {next : Option Kind} {n : Option Node},
    Unary ks next n → IsCompared ks
  | _, _, _, .not h => h.isCompared.cons _ nofun
  | _, _, _, .empty => (IsCompared.singleton .rightParen nofun).cons .leftParen nofun
  | _, _, _, .group h => (h.isCompared.append (.singleton .rightParen nofun)).cons .leftParen nofun
  | _, _, _, .reference => .singleton _ nofun
  | _, _, _, .plain h => h.isCompared
  | _, _, _, .signed h => h.isCompared.cons _ nofun

theorem Conjunction.isCompared : ∀ {ks : List Kind} {next : Option Kind} {ns : List Node},
    Conjunction ks next ns → IsCompared ks
  | _, _, _, .one h => h.isCompared
  | _, _, _, .beside h h' => h.isCompared.append h'.isCompared
  | _, _, _, .and h h' => h.isCompared.append (h'.isCompared.cons _ nofun)

theorem Alternatives.isCompared : ∀ {ks : List Kind} {next : Option Kind} {ns : List Node},
    Alternatives ks next ns → IsCompared ks
  | _, _, _, .one h => h.isCompared
  | _, _, _, .or h h' => h.isCompared.append (h'.isCompared.cons _ nofun)
end

theorem Alternatives.isValue_of_infix {ns : List Node} {op : Comparator} {k : Kind} (h : Alternatives ks next ns)
    (hop : op ≠ .within) (hin : [.compare op, k] <:+: ks) : ∃ c v, IsValue c k v := by
  have hpair := List.IsChain.infix h.isCompared.chain hin
  exact List.isChain_pair.1 hpair op rfl hop

end FilterQuery.Grammar
