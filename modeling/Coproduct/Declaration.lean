import Coproduct.Tag
/-!
# Sum types

A sum type is declared by its name and its tags: a closed one lists them, in an order that
messages keep, and an open one takes every non-empty name. A list may repeat a tag and may even
list the empty name; such a name is contained in the list but is never a tag.
-/

namespace Coproduct

inductive DeclaredTags where
  | listed (tags : List String)
  | every
deriving DecidableEq

structure Declaration where
  name : String
  tags : DeclaredTags
deriving DecidableEq

namespace DeclaredTags

def contains : DeclaredTags → String → Bool
  | .listed tags, name => tags.contains name
  | .every, name => name != ""

def list? : DeclaredTags → Option (List String)
  | .listed tags => some tags
  | .every => none

def outline : DeclaredTags → String
  | .listed tags => "Closed(" ++ quotedList tags ++ ")"
  | .every => "Open"

end DeclaredTags

namespace Declaration

def contains (S : Declaration) (name : String) : Bool := S.tags.contains name

def recognise (S : Declaration) (tag : Tag) : Except TagError Tag :=
  if S.contains tag.name then .ok tag else .error (.unknown S.name tag.name)

/-- The tag of a name that the sum type must declare: emptiness is noticed first. -/
def declare (S : Declaration) (name : String) : Except TagError Tag :=
  Tag.ofString name >>= S.recognise

end Declaration

end Coproduct
