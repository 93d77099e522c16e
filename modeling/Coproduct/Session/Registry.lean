/-!
# Registries

Things kept under names. The last thing kept under a name is the one that is found.
-/

namespace Coproduct

/-- Things by name, latest first. -/
structure Registry (κ α : Type) where
  entries : List (κ × α)

namespace Registry

variable {κ α : Type} [DecidableEq κ]

def empty : Registry κ α := ⟨[]⟩

def get? (r : Registry κ α) (name : κ) : Option α :=
  (r.entries.find? fun entry => entry.1 = name).map (·.2)

def set (r : Registry κ α) (name : κ) (a : α) : Registry κ α :=
  ⟨(name, a) :: r.entries.filter fun entry => entry.1 ≠ name⟩

def erase (r : Registry κ α) (name : κ) : Registry κ α :=
  ⟨r.entries.filter fun entry => entry.1 ≠ name⟩

/-- Keeps a thing where a name is given. -/
def keep (r : Registry κ α) (name : Option κ) (a : α) : Registry κ α :=
  match name with
  | some name => r.set name a
  | none => r

end Registry

end Coproduct
