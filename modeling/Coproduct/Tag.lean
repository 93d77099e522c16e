import Coproduct.Text.Quoted
/-!
# Tags

A tag is a non-empty name. Tags are equal when their names are, code point by code point, and they
are ordered by code points, which is the order of their encoded bytes.
-/

namespace Coproduct

/-- Why a name is not accepted as a tag: it is empty, or the sum type does not declare it. -/
inductive TagError where
  | empty
  | unknown (sum tag : String)
deriving DecidableEq

namespace TagError

def tag? : TagError → Option String
  | .empty => none
  | .unknown _ tag => some tag

def message : TagError → String
  | .empty => "tags must not be empty"
  | .unknown sum tag => "tag \"" ++ tag ++ "\" is not a member of sum type `" ++ sum ++ "`"

end TagError

structure Tag where
  name : String
  nonempty : name ≠ ""
deriving DecidableEq

namespace Tag

def ofString (name : String) : Except TagError Tag :=
  if h : name = "" then .error .empty else .ok ⟨name, h⟩

/-! ## Order -/

def compare (x y : Tag) : Ordering :=
  if x.name < y.name then .lt else if x.name = y.name then .eq else .gt

def sortNames (names : List String) : List String := names.mergeSort (fun a b => decide (a ≤ b))

def sort (tags : List Tag) : List Tag :=
  tags.mergeSort (fun a b => decide (a.name ≤ b.name))

end Tag

end Coproduct
