import Coproduct.Event
import Coproduct.Member
/-!
# Constructors and bundles

A constructor builds members of one tag. Constructors are objects: each has an identity of its
own, and two with the same tag are still different unless they are one object. A bundle of a sum
type keeps one constructor per tag, made at the first access and handed out from then on.

An access goes through three sections, each of which sees the bundle at one moment: the look-up,
the check of the declaration, and the insertion, which looks once more. `Bundle.get` runs them in
a row; `Bundle.Race` interleaves them.

§1 constructors · §2 the sections of an access · §3 accesses · §4 views.
-/

namespace Coproduct

open Json (Value)

/-! ## §1  Constructors -/

structure Constructor where
  identity : Nat
  tag : Tag
deriving DecidableEq

namespace Constructor

/-- A constructor of `S` that no bundle keeps, with a fresh identity. -/
def standalone (S : Declaration) (name : String) (fresh : Nat) : Except TagError Constructor :=
  (S.declare name).map fun tag => ⟨fresh, tag⟩

def call (c : Constructor) (payload : Value) : Member := ⟨c.tag, payload⟩

def unit (c : Constructor) : Member := c.call .null

def encode (S : Declaration) (c : Constructor) (payload : Content) : Except SumError Member :=
  match payload.encode with
  | .ok v => .ok (c.call v)
  | .error cause => .error (.payload S.name c.tag.name (.encode cause))

def identical (c d : Constructor) : Bool := c.identity == d.identity

/-- The outline of a constructor of `S`, with a blank for its identity. -/
def outline (S : Declaration) (c : Constructor) : String :=
  "Constructor(" ++ S.name ++ "::" ++ c.tag.name ++ " @ _)"

end Constructor

/-! ## §2  The sections of an access -/

/-- The constructors that a bundle keeps, latest first; at most one per tag. -/
structure Bundle where
  entries : List Constructor

namespace Bundle

def empty : Bundle := ⟨[]⟩

def find? (b : Bundle) (name : String) : Option Constructor :=
  b.entries.find? fun c => c.tag.name == name

/-- Keeps a new constructor for a tag unless one is there by now. A gain is reported. -/
def insertIfNew (S : Declaration) (b : Bundle) (tag : Tag) (fresh : Nat) :
    Logged (Constructor × Bundle) :=
  match b.find? tag.name with
  | some c => pure (c, b)
  | none => do
    Logged.emit (.populated S.name tag.name)
    return (⟨fresh, tag⟩, ⟨⟨fresh, tag⟩ :: b.entries⟩)

/-! ## §3  Accesses -/

/-- The constructor of a name, kept from now on. What is already kept needs no check. -/
def get (S : Declaration) (b : Bundle) (name : String) (fresh : Nat) :
    Logged (Except TagError Constructor × Bundle) :=
  match b.find? name with
  | some c => pure (.ok c, b)
  | none =>
    match S.declare name with
    | .error cause => pure (.error cause, b)
    | .ok tag => do
      let (c, b) ← b.insertIfNew S tag fresh
      return (.ok c, b)

def make (S : Declaration) (b : Bundle) (name : String) (payload : Value) (fresh : Nat) :
    Logged (Except TagError Member × Bundle) := do
  let (c, b) ← b.get S name fresh
  return (c.map (·.call payload), b)

def deserialize (S : Declaration) (b : Bundle) (p : Pair) (fresh : Nat) :
    Logged (Except TagError Member × Bundle) :=
  b.make S p.tag.name p.payload fresh

/-! ## §4  Views -/

def size (b : Bundle) : Nat := b.entries.length

def isEmpty (b : Bundle) : Bool := b.entries.isEmpty

/-- The names of the kept constructors, in ascending order. -/
def cachedTags (b : Bundle) : List String :=
  Tag.sortNames (b.entries.map fun c => c.tag.name)

def cacheOutline (S : Declaration) (b : Bundle) : String :=
  "Constructors \x7b sum: " ++ quoted S.name ++ ", cached: " ++ quotedList b.cachedTags ++ " \x7d"

def outline (S : Declaration) (b : Bundle) : String :=
  "Sum \x7b mk: " ++ b.cacheOutline S ++ " \x7d"

end Bundle

end Coproduct
