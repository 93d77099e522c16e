import Coproduct.Decimal.Digits
/-!
# Texts with a place

A failure that was found in a document ends its text with the place, a line and a column. When a
text is taken over as the text of a failure, such an ending is read as the place of that failure:
it is written again in plain decimal, and line zero, which no document has, stands for no place and
is not written at all. Every text without such an ending stays as it is.

Only the last line mark counts, and both numbers must fit a word.
-/

namespace Coproduct

/-- A text and the line and column that it speaks of. -/
structure PlacedText where
  text : List Char
  place : Option (Nat × Nat)
deriving DecidableEq

namespace PlacedText

/-! ## §1  Reading -/

/-- What stands behind a mark at the front. -/
def behind? : List Char → List Char → Option (List Char)
  | [], text => some text
  | m :: mark, c :: text => if m = c then behind? mark text else none
  | _ :: _, [] => none

/-- What stands before and behind the last occurrence of a mark. -/
def splitLast (mark : List Char) : List Char → Option (List Char × List Char)
  | [] => none
  | c :: rest =>
    match splitLast mark rest with
    | some (before, behind) => some (c :: before, behind)
    | none => (behind? mark (c :: rest)).map fun behind => ([], behind)

def lineMark : List Char := " at line ".toList

def columnMark : List Char := " column ".toList

/-- The number that a list of digits writes, where there is one and it fits a word. -/
def word? (digits : List Char) : Option Nat :=
  if digits.isEmpty || !digits.all isDigit then none
  else if Digits.toNat digits ≤ 18446744073709551615 then some (Digits.toNat digits)
  else none

def place? (behind : List Char) : Option (Nat × Nat) := do
  let column ← behind? columnMark (behind.dropWhile isDigit)
  return (← word? (behind.takeWhile isDigit), ← word? column)

def ofChars (text : List Char) : PlacedText :=
  match splitLast lineMark text with
  | none => ⟨text, none⟩
  | some (before, behind) =>
    match place? behind with
    | none => ⟨text, none⟩
    | some place => ⟨before, some place⟩

/-! ## §2  Writing -/

/-- The text with its place behind it. Line zero is no place. -/
def chars (p : PlacedText) : List Char :=
  match p.place with
  | none | some (0, _) => p.text
  | some (line, column) =>
    p.text ++ lineMark ++ Digits.ofNat line ++ columnMark ++ Digits.ofNat column

end PlacedText

def failureText (text : String) : String :=
  String.ofList (PlacedText.ofChars text.toList).chars

end Coproduct
