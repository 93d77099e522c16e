/-!
# Decimal digits

Natural numbers and their digits, most significant first.
-/

namespace Coproduct

def isDigit (c : Char) : Bool := '0' ≤ c && c ≤ '9'

namespace Digits

/-- The digit characters of a number, without leading zeros; zero has one digit. -/
def ofNat (n : Nat) : List Char := Nat.toDigits 10 n

def value (c : Char) : Nat := c.toNat - '0'.toNat

/-- The number that a list of digit characters writes; the empty list writes zero. -/
def toNat (digits : List Char) : Nat := digits.foldl (fun n c => 10 * n + value c) 0

def ofInt (n : Int) : List Char :=
  if n < 0 then '-' :: ofNat n.natAbs else ofNat n.natAbs

end Digits

end Coproduct
