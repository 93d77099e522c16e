import Coproduct.Json.Value
import Coproduct.Text.Hex
/-!
# Tokens

A text is cut into tokens by a machine that looks at one character at a time: each character may
complete tokens and moves the machine to its next mode. The first character that fits no token
ends the sequence with a `broken` token, which says whether the text is wrong there or merely ends
too early; nothing behind it is looked at.

§1 tokens · §2 numerals · §3 strings · §4 the machine.
-/

namespace Coproduct.Json

/-! ## §1  Tokens -/

/-- Why a text is not a document: it breaks the grammar, or it ends before the document does. -/
inductive Fault where
  | malformed
  | truncated
deriving DecidableEq

/-- The tokens of a text. A broken token remembers whether it began with a quote. -/
inductive Token where
  | openArray
  | closeArray
  | openObject
  | closeObject
  | comma
  | colon
  | null
  | bool (b : Bool)
  | number (n : Number)
  | string (s : String)
  | broken (quoted : Bool) (fault : Fault)
deriving DecidableEq

def isBlank (c : Char) : Bool := c = ' ' || c = '\t' || c = '\n' || c = '\r'

/-! ## §2  Numerals -/

/-- How much of a numeral has been seen, named for its last part. -/
inductive NumeralPlace where
  | sign
  | zero
  | whole
  | point
  | fraction
  | mark
  | markSign
  | exponent
deriving DecidableEq

namespace NumeralPlace

/-- What a character does to a numeral: it continues it, ends it before itself, or breaks it. -/
inductive Move where
  | to (place : NumeralPlace)
  | finish
  | reject
deriving DecidableEq

/-- A numeral may end here. -/
def final : NumeralPlace → Bool
  | .zero | .whole | .fraction | .exponent => true
  | .sign | .point | .mark | .markSign => false

/-- The grammar of numerals, character by character: no leading zeros, and at least one digit
behind a sign, a point and an exponent mark. -/
def next (place : NumeralPlace) (c : Char) : Move :=
  match place with
  | .sign => if c = '0' then .to .zero else if isDigit c then .to .whole else .reject
  | .zero =>
    if isDigit c then .reject
    else if c = '.' then .to .point
    else if c = 'e' || c = 'E' then .to .mark
    else .finish
  | .whole =>
    if isDigit c then .to .whole
    else if c = '.' then .to .point
    else if c = 'e' || c = 'E' then .to .mark
    else .finish
  | .point => if isDigit c then .to .fraction else .reject
  | .fraction =>
    if isDigit c then .to .fraction
    else if c = 'e' || c = 'E' then .to .mark
    else .finish
  | .mark =>
    if isDigit c then .to .exponent
    else if c = '+' || c = '-' then .to .markSign
    else .reject
  | .markSign => if isDigit c then .to .exponent else .reject
  | .exponent => if isDigit c then .to .exponent else .finish

end NumeralPlace

namespace Numeral

def exponentOf : List Char → Int
  | '-' :: digits => -(Digits.toNat digits : Int)
  | '+' :: digits => Digits.toNat digits
  | digits => Digits.toNat digits

def ofChars (text : List Char) : Numeral :=
  let negative := text.head? == some '-'
  let unsigned := if negative then text.tail else text
  let behindWhole := unsigned.dropWhile isDigit
  let hasPoint := behindWhole.head? == some '.'
  let behindPoint := if hasPoint then behindWhole.tail else behindWhole
  let behindFraction := if hasPoint then behindPoint.dropWhile isDigit else behindPoint
  { negative
    whole := unsigned.takeWhile isDigit
    fraction := if hasPoint then some (behindPoint.takeWhile isDigit) else none
    exponent := if behindFraction.isEmpty then none else some (exponentOf behindFraction.tail) }

end Numeral

/-- The token of a complete numeral; a number out of range breaks the text. -/
def Token.ofNumeral (text : List Char) : Token :=
  match (Numeral.ofChars text).number? with
  | some n => .number n
  | none => .broken false .malformed

/-! ## §3  Strings -/

/-- Where a string is between its quotes: among plain characters, behind a backslash, within the
four digits of a code unit, or between the two halves of a surrogate pair. The digits count bytes,
because a text that ends within four bytes of the escape is truncated whatever the bytes are. -/
inductive StringPlace where
  | plain
  | escape
  | unit (high : Option Nat) (bytes : Nat) (value : Nat) (sound : Bool)
  | pairEscape (high : Nat)
  | pairMark (high : Nat)
deriving DecidableEq

namespace StringPlace

inductive Move where
  | to (place : StringPlace)
  | add (c : Char)
  | close
  | reject
deriving DecidableEq

/-- The characters that a backslash and one letter stand for. -/
def shortEscape? (c : Char) : Option Char :=
  if c = '"' || c = '\\' || c = '/' then some c
  else if c = 'b' then some '\x08'
  else if c = 'f' then some '\x0c'
  else if c = 'n' then some '\n'
  else if c = 'r' then some '\r'
  else if c = 't' then some '\t'
  else none

/-- A complete code unit: a character by itself, the first half of a pair, or the second. -/
def finishUnit (high : Option Nat) (value : Nat) : Move :=
  match high with
  | none =>
    if 0xD800 ≤ value ∧ value ≤ 0xDBFF then .to (.pairEscape value)
    else if 0xDC00 ≤ value ∧ value ≤ 0xDFFF then .reject
    else .add (Char.ofNat value)
  | some high =>
    if 0xDC00 ≤ value ∧ value ≤ 0xDFFF then
      .add (Char.ofNat (0x10000 + (high - 0xD800) * 0x400 + (value - 0xDC00)))
    else .reject

def next (place : StringPlace) (c : Char) : Move :=
  match place with
  | .plain =>
    if c = '"' then .close
    else if c = '\\' then .to .escape
    else if c.toNat < 0x20 then .reject
    else .add c
  | .escape =>
    if c = 'u' then .to (.unit none 0 0 true)
    else
      match shortEscape? c with
      | some d => .add d
      | none => .reject
  | .unit high bytes value sound =>
    let digit := Hex.digit? c
    let bytes := bytes + c.utf8Size
    let value := value * 16 + digit.getD 0
    let sound := sound && digit.isSome
    if bytes < 4 then .to (.unit high bytes value sound)
    else if sound then finishUnit high value
    else .reject
  | .pairEscape high => if c = '\\' then .to (.pairMark high) else .reject
  | .pairMark high => if c = 'u' then .to (.unit (some high) 0 0 true) else .reject

end StringPlace

/-! ## §4  The machine -/

/-- The modes of the machine. What has been read of a numeral or a string is kept latest first. -/
inductive Mode where
  | idle
  | word (left : List Char) (token : Token)
  | numeral (place : NumeralPlace) (read : List Char)
  | string (place : StringPlace) (read : List Char)
  | stopped

namespace Mode

def start (c : Char) : List Token × Mode :=
  if isBlank c then ([], .idle)
  else if c = '[' then ([.openArray], .idle)
  else if c = ']' then ([.closeArray], .idle)
  else if c = '\x7b' then ([.openObject], .idle)
  else if c = '\x7d' then ([.closeObject], .idle)
  else if c = ',' then ([.comma], .idle)
  else if c = ':' then ([.colon], .idle)
  else if c = '"' then ([], .string .plain [])
  else if c = '-' then ([], .numeral .sign ['-'])
  else if c = '0' then ([], .numeral .zero ['0'])
  else if isDigit c then ([], .numeral .whole [c])
  else if c = 'n' then ([], .word ['u', 'l', 'l'] .null)
  else if c = 't' then ([], .word ['r', 'u', 'e'] (.bool true))
  else if c = 'f' then ([], .word ['a', 'l', 's', 'e'] (.bool false))
  else ([.broken false .malformed], .stopped)

/-- One character: the tokens that it completes and the next mode. A numeral ends before the
first character that cannot continue it, which then starts over. -/
def step (mode : Mode) (c : Char) : List Token × Mode :=
  match mode with
  | .idle => start c
  | .word [] token => ([token], .idle)
  | .word (d :: left) token =>
    if c = d then if left.isEmpty then ([token], .idle) else ([], .word left token)
    else ([.broken false .malformed], .stopped)
  | .numeral place read =>
    match place.next c with
    | .to place => ([], .numeral place (c :: read))
    | .reject => ([.broken false .malformed], .stopped)
    | .finish =>
      match Token.ofNumeral read.reverse with
      | .broken quoted fault => ([.broken quoted fault], .stopped)
      | token => (token :: (start c).1, (start c).2)
  | .string place read =>
    match place.next c with
    | .to place => ([], .string place read)
    | .add d => ([], .string .plain (d :: read))
    | .close => ([.string (String.ofList read.reverse)], .idle)
    | .reject => ([.broken true .malformed], .stopped)
  | .stopped => ([], .stopped)

/-- The end of the text: an open numeral may be complete, anything else that is open is cut off. -/
def finish : Mode → List Token
  | .idle | .stopped => []
  | .word _ _ => [.broken false .truncated]
  | .numeral place read =>
    if place.final then [Token.ofNumeral read.reverse] else [.broken false .truncated]
  | .string _ _ => [.broken true .truncated]

end Mode

def lex : Mode → List Char → List Token
  | mode, [] => mode.finish
  | mode, c :: rest => (mode.step c).1 ++ lex (mode.step c).2 rest

def tokens (text : String) : List Token := lex .idle text.toList

end Coproduct.Json
