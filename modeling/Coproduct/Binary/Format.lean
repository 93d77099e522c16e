/-!
# Binary floating-point formats

A finite number of a format is a sign and a *rank*: its place among the non-negative finite
numbers, counted from zero upwards. All magnitudes are measured in the least positive number of
the format, the *unit*, so every finite number is a whole number of units and rounding is
arithmetic on natural numbers.

§1 the formats and the units of a rank · §2 rounding a quotient to the nearest rank.
-/

namespace Coproduct

/-! ## §1  Formats -/

/-- A binary interchange format: the bits of an encoding and the bits of a significand, its
leading bit included. -/
structure BinaryFormat where
  width : Nat
  precision : Nat
deriving DecidableEq

namespace BinaryFormat

def double : BinaryFormat := ⟨64, 53⟩

def single : BinaryFormat := ⟨32, 24⟩

variable (F : BinaryFormat)

/-- How many ranks share one exponent. -/
def stride : Nat := Nat.pow 2 (F.precision - 1)

/-- The unit is `2 ^ -scale`. -/
def scale : Nat := Nat.pow 2 (F.width - F.precision - 1) + F.precision - 3

/-- The ranks below this bound belong to finite numbers. -/
def limit : Nat := (Nat.pow 2 (F.width - F.precision) - 1) * F.stride

/-- The magnitude of a rank, in units. Subnormal ranks count units directly; above them each
stride doubles the step. -/
def units (rank : Nat) : Nat :=
  let exponent := rank / F.stride - 1
  (rank - exponent * F.stride) * Nat.pow 2 exponent

end BinaryFormat

/-! ## §2  Rounding -/

/-- The whole number nearest to `num / den`; a tie goes to the even neighbour. -/
def roundHalfEven (num den : Nat) : Nat :=
  let low := num / den
  let rest := num % den
  if 2 * rest < den then low
  else if den < 2 * rest then low + 1
  else if low % 2 = 0 then low
  else low + 1

namespace BinaryFormat

variable (F : BinaryFormat)

/-- The rank nearest to `num / den` units, with as many exponents as it takes: a rank at or above
the limit says that the number is out of range. A significand that rounds up to the next power of
two lands on the first rank of the next stride by itself. -/
def nearestRank (num den : Nat) : Nat :=
  let exponent := (num / den).log2 + 1 - F.precision
  exponent * F.stride + roundHalfEven num (den * Nat.pow 2 exponent)

end BinaryFormat

end Coproduct
