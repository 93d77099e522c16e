import Coproduct.Decimal.Digits
import Coproduct.Decimal.Shortest
/-!
# The text of a binary number

The shortest digits, laid out. A number whose leading digit stands at `10 ^ e` is written
positionally, with at least one digit after the point, for the `e` of its layout, and with a signed
exponent otherwise. Zero keeps its sign.
-/

namespace Coproduct

/-- The decisions of a layout: the leading exponents that are written positionally. -/
structure DecimalLayout where
  least : Int
  greatest : Int

namespace DecimalLayout

/-- The layout of 64-bit numbers: from `0.00001` up to `1000000000000000.0`. -/
def double : DecimalLayout := ⟨-5, 15⟩

/-- The layout of 32-bit numbers: from `0.000001` up to `1000000000000.0`. -/
def single : DecimalLayout := ⟨-6, 12⟩

/-- Digits before and after the point, for a leading exponent `e`. -/
def positional (digits : List Char) (e : Int) : List Char :=
  if e < 0 then '0' :: '.' :: (List.replicate (-e - 1).toNat '0' ++ digits)
  else
    let places := e.toNat + 1
    let whole := digits.take places ++ List.replicate (places - digits.length) '0'
    let fraction := digits.drop places
    whole ++ '.' :: (if fraction.isEmpty then ['0'] else fraction)

/-- One digit before the point and a signed exponent; a lone digit has no point. -/
def scientific (digits : List Char) (e : Int) : List Char :=
  let mark := 'e' :: (if e < 0 then '-' else '+') :: Digits.ofNat e.natAbs
  match digits with
  | [] => mark
  | [d] => d :: mark
  | d :: rest => d :: '.' :: (rest ++ mark)

def write (layout : DecimalLayout) (d : ScaledDecimal) : List Char :=
  let digits := Digits.ofNat d.digits
  let e := d.exponent + digits.length - 1
  if layout.least ≤ e ∧ e ≤ layout.greatest then positional digits e else scientific digits e

end DecimalLayout

def Finite.chars {F : BinaryFormat} (x : Finite F) (layout : DecimalLayout) : List Char :=
  let magnitude := layout.write x.shortest
  if x.negative then '-' :: magnitude else magnitude

def Finite.text {F : BinaryFormat} (x : Finite F) (layout : DecimalLayout) : String :=
  String.ofList (x.chars layout)

end Coproduct
