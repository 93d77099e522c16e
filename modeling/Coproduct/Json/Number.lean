import Coproduct.Decimal.Layout
/-!
# Numbers of a document

A number is an integer of 64 bits, signed or unsigned, or a finite double. The two kinds never
equal each other: `1` is not `1.0`. Which kind a numeral writes is decided by its text alone.
-/

namespace Coproduct.Json

/-! ## §1  Numbers -/

/-- The integers of a signed or an unsigned word of 64 bits: from `-2 ^ 63` up to `2 ^ 64 - 1`. -/
abbrev FitsWord (n : Int) : Prop := -9223372036854775808 ≤ n ∧ n ≤ 18446744073709551615

inductive Number where
  | int (n : Int) (fits : FitsWord n)
  | double (x : Double)
deriving DecidableEq

namespace Number

def ofInt? (n : Int) : Option Number :=
  if h : FitsWord n then some (.int n h) else none

/-- Equality of numbers: by value within a kind, never across kinds, with one zero double. -/
def same : Number → Number → Bool
  | .int m _, .int n _ => m == n
  | .double x, .double y => x.same y
  | _, _ => false

/-- The written form: integers in decimal, doubles by their shortest digits. -/
def chars : Number → List Char
  | .int n _ => Digits.ofInt n
  | .double x => x.chars .double

end Number

/-! ## §2  Numerals -/

/-- The parts of a numeral: sign, digits before and after the point, and the exponent. A numeral
with a point or an exponent never writes an integer. -/
structure Numeral where
  negative : Bool
  whole : List Char
  fraction : Option (List Char)
  exponent : Option Int
deriving DecidableEq

namespace Numeral

def exact (m : Numeral) : ScaledDecimal :=
  let fraction := m.fraction.getD []
  ⟨Digits.toNat (m.whole ++ fraction), m.exponent.getD 0 - fraction.length⟩

/-- As many leading digits of the whole part are told apart. No number halfway between two
doubles has more digits. -/
def wholeReach : Nat := 768

/-- The magnitude that is rounded. It is exact unless the whole part is longer than `wholeReach`:
then its leading digits are kept, and a single one stands for whatever follows them. Digits that
are not all zeros lie on the same side of every halfway number as that one does; where they are
all zeros, a tie is broken upwards. -/
def magnitude (m : Numeral) : ScaledDecimal :=
  if m.whole.length ≤ wholeReach then m.exact
  else
    let behind := m.whole.length - wholeReach
    ⟨10 * Digits.toNat (m.whole.take wholeReach) + 1, m.exponent.getD 0 + behind - 1⟩

def double? (m : Numeral) : Option Number :=
  (m.magnitude.nearest? .double m.negative).map .double

/-- The number that a numeral writes. Integers outside 64 bits are read as doubles, and so is a
negative zero, which no integer can be. -/
def number? (m : Numeral) : Option Number :=
  if m.fraction.isSome || m.exponent.isSome then m.double?
  else
    let n := Digits.toNat m.whole
    if m.negative then
      if n = 0 then m.double? else (Number.ofInt? (-n)).or m.double?
    else (Number.ofInt? n).or m.double?

end Numeral

end Coproduct.Json
