import Coproduct.Binary.Format
/-!
# Finite binary numbers

A sign and a rank below the format's limit. Zero has two signs, and the two zeros are the same
number: equality of the structure tells encodings apart, `same` compares numbers.
-/

namespace Coproduct

structure Finite (F : BinaryFormat) where
  negative : Bool
  rank : Nat
  bounded : rank < F.limit
deriving DecidableEq

abbrev Double := Finite .double

abbrev Single := Finite .single

namespace Finite

variable {F G : BinaryFormat}

/-! ## §1  Building and comparing -/

def ofRank? (negative : Bool) (rank : Nat) : Option (Finite F) :=
  if h : rank < F.limit then some ⟨negative, rank, h⟩ else none

/-- The number of an encoding: the top bit is the sign and the rest is the rank. The encodings of
infinities and of what is not a number have a rank at or above the limit. -/
def ofBits? (bits : Nat) : Option (Finite F) :=
  let top := Nat.pow 2 (F.width - 1)
  ofRank? (top ≤ bits) (bits % top)

/-- Two numbers are the same when their magnitudes are and, zero apart, their signs. -/
def same (x y : Finite F) : Bool :=
  x.rank == y.rank && (x.rank == 0 || x.negative == y.negative)

def units (x : Finite F) : Nat := F.units x.rank

/-! ## §2  Rounding into a format -/

/-- The number nearest to `num / den` units; nothing where it is out of range. -/
def nearest? (negative : Bool) (num den : Nat) : Option (Finite F) :=
  ofRank? negative (F.nearestRank num den)

/-- The same number in another format, rounded where it must be. -/
def convert? (x : Finite F) : Option (Finite G) :=
  nearest? x.negative (x.units * Nat.pow 2 G.scale) (Nat.pow 2 F.scale)

def ofInt? (n : Int) : Option (Finite F) :=
  nearest? (n < 0) (n.natAbs * Nat.pow 2 F.scale) 1

end Finite

end Coproduct
