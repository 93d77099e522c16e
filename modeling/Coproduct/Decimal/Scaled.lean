import Coproduct.Binary.Finite
/-!
# Scaled decimals

A natural number times a power of ten, and the binary number nearest to it. Every decimal is
rounded once, from its exact value, however many digits it has.
-/

namespace Coproduct

/-- The decimal `digits * 10 ^ exponent`. -/
structure ScaledDecimal where
  digits : Nat
  exponent : Int
deriving DecidableEq

namespace ScaledDecimal

def nearestRank (F : BinaryFormat) (d : ScaledDecimal) : Nat :=
  let units := d.digits * Nat.pow 2 F.scale
  if 0 ≤ d.exponent then F.nearestRank (units * Nat.pow 10 d.exponent.toNat) 1
  else F.nearestRank units (Nat.pow 10 (-d.exponent).toNat)

/-- A power of ten beyond every finite number; its inverse is below half a unit. -/
def reach (F : BinaryFormat) : Nat := F.scale + F.width

/-- The number nearest to a decimal; nothing where it is out of range. Decimals that are plainly
too large or too small are settled by their exponents, so that no power of ten is ever computed
that is longer than the decimal and the format call for. -/
def nearest? (F : BinaryFormat) (negative : Bool) (d : ScaledDecimal) : Option (Finite F) :=
  if d.digits = 0 then Finite.ofRank? negative 0
  else if (reach F : Int) < d.exponent then none
  else if d.exponent + (d.digits.log2 + 1) < -(reach F : Int) then Finite.ofRank? negative 0
  else Finite.ofRank? negative (d.nearestRank F)

end ScaledDecimal

end Coproduct
