import FilterQuery.Proofs.Double

namespace FilterQuery.Double

open Number (twoTo tenTo)

section

variable {n d k : Nat}

end

section

variable {num den : Nat}

def significand (num den : Nat) (e : Int) : Nat := roundDiv (num * twoTo (-e).toNat) (den * twoTo e.toNat)

section

variable {e : Int} (hd : 0 < den) (h : IsScale ((num : ℚ) / den) e)

include hd h

end

end

end FilterQuery.Double
