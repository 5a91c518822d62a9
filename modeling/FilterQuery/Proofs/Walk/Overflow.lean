import FilterQuery.Proofs.Double.Overflow
import FilterQuery.Proofs.Walk.Ranges

namespace FilterQuery

namespace Comparison

end Comparison

namespace Double

variable {as : List Double} {e : Option Double}

end Double

section

variable {category : Category} {vs : List String} (hvs : ∀ v ∈ vs, IsReadValue category v)
  (hc : category = .quality ∨ category = .sim)

include hvs hc

end

namespace Tree

variable {t : Tree} {category : Category}

end Tree

end FilterQuery
