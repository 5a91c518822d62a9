import FilterQuery.Calendar
import FilterQuery.Node
import FilterQuery.Number

namespace FilterQuery

inductive Direction
  | asc
  | desc
  deriving DecidableEq

def Direction.name : Direction → String
  | asc => "asc"
  | desc => "desc"

def Direction.ofName? : String → Option Direction
  | "asc" => some .asc
  | "desc" => some .desc
  | _ => none

structure Page where
  limit : Nat
  offset : Nat
  orderBy : String
  direction : Direction
  deriving DecidableEq

def Page.standard : Page := ⟨50, 0, "updated_at", .desc⟩

structure Bounds (α : Type) where
  least : Option α
  greatest : Option α
  deriving DecidableEq

namespace Bounds

def all : Bounds α := ⟨none, none⟩

def tighter (pick : α → α → α) : Option α → Option α → Option α
  | some a, some b => some (pick a b)
  | a, b => a.or b

def meet (greater lesser : α → α → α) (x y : Bounds α) : Bounds α :=
  ⟨tighter greater x.least y.least, tighter lesser x.greatest y.greatest⟩

end Bounds

structure RegexTest where
  pattern : String
  flags : String
  field : Option String
  deriving DecidableEq

structure Compiled where
  sources : List String
  excludedSources : List String
  spanningSources : List String
  uncategorizedSources : List String
  formats : List String
  excludedFormats : List String
  search : Option String
  excludedTerms : List String
  regexes : List RegexTest
  phrases : List String
  wildcards : List String
  tags : List String
  excludedTags : List String
  dates : Option (Bounds Int)
  words : Bounds Nat
  quality : Bounds Double
  similarity : Bounds Double
  page : Page
  deriving DecidableEq

namespace Compiled

def unfiltered (page : Page) : Compiled :=
  ⟨[], [], [], [], [], [], none, [], [], [], [], [], [], none, .all, .all, .all, page⟩

def hasFilters (c : Compiled) : Bool := c != unfiltered c.page

end Compiled

abbrev SignedLeaf := Leaf × Bool

abbrev Walked := List (Site × Bool)

namespace Node

mutual
def leavesFrom (negated : Bool) (walked : Walked) : Node → List SignedLeaf × Walked
  | leaf l => ([(l, negated)], walked)
  | reference _ => ([], walked)
  | expansion _ none body => body.leavesFrom negated walked
  | expansion _ (some site) body =>
    if walked.contains (site, negated) then ([], walked)
    else body.leavesFrom negated ((site, negated) :: walked)
  | group _ flip ns => allLeavesFrom (negated != flip) walked ns

def allLeavesFrom (negated : Bool) (walked : Walked) : List Node → List SignedLeaf × Walked
  | [] => ([], walked)
  | n :: ns =>
    let (here, walked) := n.leavesFrom negated walked
    let (more, walked) := allLeavesFrom negated walked ns
    (here ++ more, walked)
end

def leaves (n : Node) : List SignedLeaf := (n.leavesFrom false []).1

end Node

namespace SignedLeaf

def term? (category : Category) (s : Stance) : SignedLeaf → Option String
  | (.term c v stance, negated) =>
    if c = category ∧ (if negated then stance.negate else stance) = s then some v else none
  | _ => none

def regex? : SignedLeaf → Option RegexTest
  | (.regex pattern flags field, false) => some ⟨pattern, flags, field⟩
  | _ => none

def phrase? : SignedLeaf → Option String
  | (.phrase v _, false) => some v
  | _ => none

def wildcard? : SignedLeaf → Option String
  | (.wildcard pattern _, false) => some pattern
  | _ => none

def comparison? (category : Category) : SignedLeaf → Option (Comparator × String × Option String)
  | (.comparison c comparator v upper, negated) =>
    if c = category then
      (if negated then comparator.negate? else some comparator).map fun k => (k, v, upper)
    else none
  | _ => none

/-- The interval that a date comparison asks for. A bound falls on the first or last instant of what its
text denotes. -/
def dateBounds (comparator : Comparator) (period : Calendar.Period) (upper : Option String) :
    Bounds Int :=
  match comparator with
  | .above | .atLeast => ⟨some period.first, none⟩
  | .below | .atMost => ⟨none, some period.last⟩
  | .equal => ⟨some period.first, some period.last⟩
  | .within =>
    ⟨some period.first, (upper.bind fun u => Calendar.Period.read? u.toList).map (·.last)⟩

def dates? (l : SignedLeaf) : Option (Bounds Int) :=
  match term? .date .is l with
  | some v => (Calendar.Period.read? v.toList).map fun p => ⟨some p.first, some p.last⟩
  | none => (comparison? .date l).bind fun (k, v, upper) =>
    (Calendar.Period.read? v.toList).map fun p => dateBounds k p upper

def numberBounds (read : List Char → Option α) (comparator : Comparator) (v : String)
    (upper : Option String) : Bounds α :=
  match comparator with
  | .above | .atLeast => ⟨read v.toList, none⟩
  | .below | .atMost => ⟨none, read v.toList⟩
  | .equal => ⟨read v.toList, read v.toList⟩
  | .within => ⟨read v.toList, upper.bind fun u => read u.toList⟩

def numbers? (category : Category) (read : List Char → Option α) (l : SignedLeaf) : Option (Bounds α) :=
  (comparison? category l).map fun (k, v, upper) => numberBounds read k v upper

end SignedLeaf

namespace Compiled

def meetAll? (greater lesser : α → α → α) : List (Bounds α) → Option (Bounds α)
  | [] => none
  | b :: bs => some (bs.foldl (Bounds.meet greater lesser) b)

/-- Collects what the leaves ask for. Lists keep the order of first appearance, and intervals are
intersected. -/
def ofLeaves (page : Page) (ls : List SignedLeaf) : Compiled :=
  let terms (category : Category) (s : Stance) := ls.filterMap (SignedLeaf.term? category s)
  let numbers {α : Type} (category : Category) (read : List Char → Option α) (greater lesser : α → α → α) :=
    (meetAll? greater lesser (ls.filterMap (SignedLeaf.numbers? category read))).getD .all
  let search := terms .content .is
  { sources := (terms .source .is).eraseDups
    excludedSources := (terms .source .isNot).eraseDups
    spanningSources := (terms .source .both).eraseDups
    uncategorizedSources := (terms .source .neither).eraseDups
    formats := (terms .format .is).eraseDups
    excludedFormats := (terms .format .isNot).eraseDups
    search := if search.isEmpty then none else some (" ".intercalate search)
    excludedTerms := (terms .content .isNot).eraseDups
    regexes := (ls.filterMap SignedLeaf.regex?).eraseDups
    phrases := (ls.filterMap SignedLeaf.phrase?).eraseDups
    wildcards := (ls.filterMap SignedLeaf.wildcard?).eraseDups
    tags := (terms .tags .is).eraseDups
    excludedTags := (terms .tags .isNot).eraseDups
    dates := meetAll? max min (ls.filterMap SignedLeaf.dates?)
    words := numbers .words Number.word? max min
    quality := numbers .quality Double.read? Double.greater Double.lesser
    similarity := numbers .sim Double.read? Double.greater Double.lesser
    page := page }

def ofNode? (page : Page) (root : Option Node) : Compiled :=
  ofLeaves page ((root.map Node.leaves).getD [])

end Compiled

end FilterQuery
