import Coproduct.Event
/-!
# Case tables

What a matcher knows: an arm per name, perhaps a wildcard, and the names that were given more than
once. Names are any strings; whether they fit a sum type is checked afterwards, by `check`, which
finds the most basic fault first: a repeated name, then an undeclared one, then a gap.

§1 calls and tables · §2 the check · §3 selection.
-/

namespace Coproduct

/-! ## §1  Calls and tables -/

inductive CaseCall (α ω : Type) where
  | arm (name : String) (handler : α)
  | wildcard (handler : ω)

/-- The arms, at most one per name, the wildcard, and the repeated names in the order in which
they were repeated. -/
structure CaseTable (α ω : Type) where
  arms : List (String × α)
  wildcard : Option ω
  repeated : List String

namespace CaseTable

variable {α ω : Type}

def empty : CaseTable α ω := ⟨[], none, []⟩

def arm? (t : CaseTable α ω) (name : String) : Option α := t.arms.lookup name

def has (t : CaseTable α ω) (name : String) : Bool := (t.arm? name).isSome

/-- Adds an arm. A second arm for a name replaces the first, and the name is remembered. -/
def insert (t : CaseTable α ω) (name : String) (handler : α) : CaseTable α ω :=
  { t with
    arms := (name, handler) :: t.arms.filter fun entry => entry.1 != name
    repeated := if t.has name then t.repeated ++ [name] else t.repeated }

/-- Follows one call. A later wildcard replaces an earlier one. -/
def follow (t : CaseTable α ω) : CaseCall α ω → CaseTable α ω
  | .arm name handler => t.insert name handler
  | .wildcard handler => { t with wildcard := some handler }

def ofCalls (calls : List (CaseCall α ω)) : CaseTable α ω := calls.foldl follow empty

def sortedNames (t : CaseTable α ω) : List String := Tag.sortNames (t.arms.map (·.1))

/-! ## §2  The check -/

/-- The declared tags without an arm, in order of declaration, repeats kept. -/
def missing (t : CaseTable α ω) (tags : List String) : List String :=
  tags.filter fun tag => !t.has tag

def coverage (S : Declaration) (t : CaseTable α ω) : Except SumError Unit :=
  if t.wildcard.isSome then .ok ()
  else
    match S.tags with
    | .every => .error (.openWithoutWildcard S.name)
    | .listed tags =>
      let missing := t.missing tags
      if missing.isEmpty then .ok () else .error (.nonExhaustive S.name missing)

def check (S : Declaration) (t : CaseTable α ω) : Except SumError Unit :=
  match t.repeated.head? with
  | some name => .error (.duplicateArm S.name name)
  | none =>
    -- Entries are kept in no particular order, so the names are sorted before one is reported.
    match t.sortedNames.find? fun name => !S.contains name with
    | some name => .error (.tag (.unknown S.name name))
    | none => t.coverage S

def checked (S : Declaration) (t : CaseTable α ω) : Logged (Except SumError (CaseTable α ω)) :=
  match t.check S with
  | .ok () => pure (.ok t)
  | .error cause => do
    Logged.emit (.mapRejected S.name cause)
    return .error cause

/-! ## §3  Selection -/

inductive Selection (α ω : Type) where
  | arm (handler : α)
  | wildcard (handler : ω)
  | nothing

def select (t : CaseTable α ω) (name : String) : Selection α ω :=
  match t.arm? name with
  | some handler => .arm handler
  | none =>
    match t.wildcard with
    | some handler => .wildcard handler
    | none => .nothing

end CaseTable

namespace CaseCall

variable {α β ω ψ : Type}

def map (f : α → β) (g : ω → ψ) : CaseCall α ω → CaseCall β ψ
  | .arm name handler => .arm name (f handler)
  | .wildcard handler => .wildcard (g handler)

end CaseCall

end Coproduct
