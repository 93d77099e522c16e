import Coproduct.Text.Hex
import Coproduct.Text.Unprintable
/-!
# Quoted text

A text between double quotes, on one line and unambiguous to a reader: quotes, backslashes and the
common controls have short escapes, every other character without a printed form is written by its
code point.
-/

namespace Coproduct

namespace Quoted

def char (c : Char) : List Char :=
  if c = '\x00' then ['\\', '0']
  else if c = '\t' then ['\\', 't']
  else if c = '\n' then ['\\', 'n']
  else if c = '\r' then ['\\', 'r']
  else if c = '"' then ['\\', '"']
  else if c = '\\' then ['\\', '\\']
  else if isUnprintable c then '\\' :: 'u' :: '\x7b' :: (Hex.ofNat c.toNat ++ ['\x7d'])
  else [c]

end Quoted

def quoted (s : String) : String :=
  String.ofList ('"' :: (s.toList.flatMap Quoted.char ++ ['"']))

def quotedList (texts : List String) : String :=
  "[" ++ ", ".intercalate (texts.map quoted) ++ "]"

end Coproduct
