/-!
Ranges of code points, from which classes of characters are made.
-/

set_option autoImplicit false

namespace ByteCpu.Text

abbrev Range := Nat × Nat

def isWithin (rs : List Range) (c : Char) : Bool :=
  rs.any fun r => r.1 ≤ c.toNat && c.toNat ≤ r.2

def countPoints (rs : List Range) : Nat := rs.foldr (fun r n => r.2 + 1 - r.1 + n) 0

end ByteCpu.Text
