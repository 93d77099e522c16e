import Coproduct.Decimal.Scaled
/-!
# Shortest decimals

The decimal with the fewest digits that reads back as a given binary number. The grids of
multiples of `10 ^ g` are tried from coarse to fine. On a grid only the two neighbours of the
exact value can read back if any point can, so two candidates are tried on each; the nearer one
comes first. Should no grid within the bound have a hit, the exact decimal is taken, which reads
back because it is the number itself.
-/

namespace Coproduct

namespace ShortestDecimal

/-- The points of the grid `10 ^ g` next to `num / den`, the nearer first; a tie goes to the even
one. -/
def neighbours (num den : Nat) (g : Int) : List ScaledDecimal :=
  let scaledNum := if 0 ≤ g then num else num * Nat.pow 10 (-g).toNat
  let scaledDen := if 0 ≤ g then den * Nat.pow 10 g.toNat else den
  let near := roundHalfEven scaledNum scaledDen
  let low := scaledNum / scaledDen
  let far := if near = low then low + 1 else low
  [⟨near, g⟩, ⟨far, g⟩]

/-- The first candidate that reads back, over `tries` grids from `g` downwards. -/
def search (F : BinaryFormat) (rank num den : Nat) : Nat → Int → Option ScaledDecimal
  | 0, _ => none
  | tries + 1, g =>
    match (neighbours num den g).find? (fun d => d.nearestRank F == rank) with
    | some d => some d
    | none => search F rank num den tries (g - 1)

/-- The exact decimal of a rank: a whole number of units, with the unit's power of two written as
a power of ten. -/
def exact (F : BinaryFormat) (rank : Nat) : ScaledDecimal :=
  ⟨F.units rank * Nat.pow 5 F.scale, -(F.scale : Int)⟩

/-- An exponent at or above that of the leading digit of `units` units. The logarithm of two is
taken for `0.30103`, and one is added for what that and the division leave out. -/
def leadingBound (F : BinaryFormat) (units : Nat) : Int :=
  ((units.log2 : Int) + 1 - F.scale) * 30103 / 100000 + 1

/-- How many grids are tried: enough for every digit count the format ever needs. -/
def tries : Nat := 24

end ShortestDecimal

/-- The shortest decimal that reads back as the number's magnitude. -/
def Finite.shortest {F : BinaryFormat} (x : Finite F) : ScaledDecimal :=
  if x.rank = 0 then ⟨0, 0⟩
  else
    let start := ShortestDecimal.leadingBound F x.units
    (ShortestDecimal.search F x.rank x.units (Nat.pow 2 F.scale) ShortestDecimal.tries
      start).getD (ShortestDecimal.exact F x.rank)

end Coproduct
