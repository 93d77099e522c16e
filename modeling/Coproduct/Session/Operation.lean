import Coproduct.Bundle.Race
import Coproduct.Decoding.Stream
import Coproduct.Matching.Plan
import Coproduct.Refinement
import Coproduct.Session.Registry
/-!
# Operations of a session

A session works on sum types with named things: for every sum type there are bundles,
constructors, members and matchers, each kind with names of its own. An operation is one use of
the library's interface on one sum type; it has an answer and may keep one thing under a name.

§1 what is kept · §2 operations · §3 answers.
-/

namespace Coproduct

open Json (Value)

/-! ## §1  What is kept -/

inductive AnyMatcher where
  | handlers (matcher : Matcher Value)
  | stored (matcher : StrictMatcher Value)

/-- The things kept for one sum type. -/
structure Shelf where
  bundles : Registry String Bundle
  constructors : Registry String Constructor
  members : Registry String Member
  matchers : Registry String AnyMatcher

def Shelf.empty : Shelf := ⟨.empty, .empty, .empty, .empty⟩

/-- The bundle of a name; one that was never used is empty. -/
def Shelf.bundle (shelf : Shelf) (name : String) : Bundle :=
  (shelf.bundles.get? name).getD .empty

/-- A shelf per sum type, and the next fresh identity. -/
structure Session where
  shelves : Registry Declaration Shelf
  fresh : Nat

def Session.empty : Session := ⟨.empty, 0⟩

def Session.shelf (s : Session) (S : Declaration) : Shelf := (s.shelves.get? S).getD .empty

/-! ## §2  Operations -/

/-- A member: one that is kept, or one built by a constructor of its own. A reference may also be
unreadable; this is noticed where the member is needed. -/
inductive MemberRef where
  | kept (name : String)
  | built (tag : String) (payload : Value)
  | unreadable

inductive ConstructorRef where
  | kept (name : String)
  | standalone (tag : String)

inductive ForeignRef where
  | value (v : Value)
  | raw (m : MemberRef)

inductive MatcherRequest where
  | handlers (checked : Bool) (calls : List (PlannedCall Value))
  | stored (checked : Bool) (calls : List (CaseCall Value Value))

/-- The operations on one sum type. A payload for a constructor may be unreadable, which is noticed
once the constructor is there. -/
inductive Operation where
  | create (bundle : String)
  | inspect (bundle : String)
  | get (bundle tag : String)
  | standalone (tag : String)
  | accesses (tags : List String)
  | compare (x y : String)
  | race (bundle tag : String) (clients : Nat)
  | make (bundle tag : String) (payload : Value)
  | call (constructor : String) (payload : Option Value)
  | encode (constructor : ConstructorRef) (payload : Option Content)
  | copy (m : MemberRef)
  | deserialize (bundle tag : String) (payload : Value)
  | deserializeValue (bundle : String) (v : Value)
  | deserializeText (bundle text : String)
  | readValue (v : Value)
  | readText (text : String)
  | describe (bundle : String) (m : MemberRef)
  | equal (x y : MemberRef)
  | build (request : MatcherRequest) (members : Option (List MemberRef))
  | apply (matcher : String) (members : List MemberRef)
  | turnIntoFunction (matcher : String) (members : List MemberRef)
  | refine (tag : String) (accepts : Value → Bool) (foreign : List ForeignRef)

/-- An operation on a sum type, with the name under which its result is kept. -/
structure Request where
  sum : Declaration
  operation : Operation
  target : Option String

/-! ## §3  Answers -/

inductive KeptKind where
  | constructor
  | member
  | matcher
deriving DecidableEq

inductive Failure where
  | unreadable
  | sum (cause : SumError)
  | read (cause : ReadError)
  | nothingKept (kind : KeptKind) (name : String)

/-- What is said of a member besides its forms: whether its pair survives the way through a plain
tuple, whether it comes back from its pair through a bundle, and whether it comes back from its
text. -/
structure MemberReport where
  member : Member
  pairKept : Bool
  back : Bool
  textBack : Except ReadError Bool

/-- What is said of one foreign value: the test, how often it consulted the predicate, and the
member. -/
structure RefinementReport where
  test : Bool
  consulted : Nat
  narrowed : Option Member

abbrev Outcome := Except Failure Value

inductive Answer where
  | failed (cause : Failure)
  | bundle (b : Bundle)
  | constructor (c : Constructor)
  | accesses (results : List (Except TagError Tag × Nat)) (b : Bundle)
  | comparison (equal identical : Bool)
  | race (same : Bool) (size : Nat)
  | member (m : Member)
  | report (r : MemberReport)
  | equality (equal : Bool)
  | matcher (m : AnyMatcher) (outcomes : Option (List Outcome))
  | outcomes (outcomes : List Outcome)
  | refinement (r : Refinement) (reports : List RefinementReport)

end Coproduct
