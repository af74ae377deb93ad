namespace ContainerSizing.Text

-- First and last code points of the ranges, in ascending order.
structure CharSet where
  ranges : List (Nat × Nat)

namespace CharSet

def contains (s : CharSet) (c : Char) : Bool :=
  s.ranges.any fun (first, last) => first ≤ c.toNat && c.toNat ≤ last

instance : Membership Char CharSet where
  mem s c := s.contains c

instance (c : Char) (s : CharSet) : Decidable (c ∈ s) :=
  inferInstanceAs (Decidable (s.contains c = true))

end CharSet

end ContainerSizing.Text
