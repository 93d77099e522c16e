import Coproduct.Matching.Flavour
import Coproduct.Proofs.Matching.Table
/-!
# One level of matching

Matching first selects by the name of the tag, and then does what was selected. These are the
equations for it, one for each thing that can be selected; deeper levels come in only through the
arm that hands its payload on.
-/

namespace Coproduct

open Json (Value)

/-- What an arm does with a member of `S` that it was selected for. -/
def Arm.run {β : Type} (S : Declaration) (m : Member) : Arm β → Logged (Except SumError β)
  | .plain handler => return .ok (← handler m.payload)
  | .typed handler =>
    match handler m.payload with
    | .ok result => return .ok (← result)
    | .error cause => pure (.error (.payload S.name m.tag.name (.decode cause)))
  | .nested T inner =>
    match (Codec.member T).decode m.payload with
    | .ok n => inner.apply T n
    | .error cause => pure (.error (.payload S.name m.tag.name (.decode cause)))

/-- An arm that decodes the payload handles what it decodes to, or fails for its own tag. -/
theorem Arm.run_onAs {α β : Type} {S : Declaration} {m : Member} (codec : Codec α)
    (handler : α → Logged β) :
    (Arm.onAs codec handler).run S m =
      match codec.decode m.payload with
      | .ok x => .ok <$> handler x
      | .error cause => pure (.error (.payload S.name m.tag.name (.decode cause))) := by
  simp only [onAs, run]
  rcases codec.decode m.payload with cause | x <;> rfl

namespace CaseTable

variable {β : Type} {S : Declaration} {t : CaseTable (Arm β) (Logged β)} {m : Member}

theorem apply_of_arm {a : Arm β} (h : t.select m.tag.name = .arm a) : t.apply S m = a.run S m := by
  rw [CaseTable.apply]
  split
  · next heq =>
      cases h.symm.trans heq
      rfl
  · next heq =>
      cases h.symm.trans heq
      rfl
  · next heq =>
      cases h.symm.trans heq
      rfl
  · next heq => cases h.symm.trans heq
  · next heq => cases h.symm.trans heq

theorem apply_of_wildcard {w : Logged β} (h : t.select m.tag.name = .wildcard w) :
    t.apply S m = ⟨.ok w.value, .wildcardUsed S.name m.tag.name :: w.events⟩ := by
  rw [CaseTable.apply]
  split
  · next heq => cases h.symm.trans heq
  · next heq => cases h.symm.trans heq
  · next heq => cases h.symm.trans heq
  · next heq =>
      cases h.symm.trans heq
      exact Logged.ext rfl (by simp)
  · next heq => cases h.symm.trans heq

theorem apply_of_nothing (h : t.select m.tag.name = .nothing) :
    t.apply S m = ⟨.error (.unmatched S.name m.tag.name), [.nothingMatched S.name m.tag.name]⟩ := by
  rw [CaseTable.apply]
  split
  · next heq => cases h.symm.trans heq
  · next heq => cases h.symm.trans heq
  · next heq => cases h.symm.trans heq
  · next heq => cases h.symm.trans heq
  · rfl

/-- Of a table, matching sees only what is selected. -/
theorem apply_congr {t' : CaseTable (Arm β) (Logged β)}
    (h : t.select m.tag.name = t'.select m.tag.name) : t.apply S m = t'.apply S m := by
  rcases hselect : t'.select m.tag.name with a | w | _
  · rw [apply_of_arm hselect, apply_of_arm (h.trans hselect)]
  · rw [apply_of_wildcard hselect, apply_of_wildcard (h.trans hselect)]
  · rw [apply_of_nothing hselect, apply_of_nothing (h.trans hselect)]

end CaseTable

/-- An arm that is selected fails with `unmatched` only where an inner matcher does. -/
theorem Arm.run_eq_unmatched {β : Type} {S : Declaration} {m : Member} {a : Arm β}
    {sum name : String} (h : (a.run S m).value = .error (.unmatched sum name)) :
    ∃ T inner n, a = .nested T inner ∧ (Codec.member T).decode m.payload = .ok n ∧
      (inner.apply T n).value = .error (.unmatched sum name) := by
  cases a with
  | plain handler => cases h
  | typed handler =>
      simp only [Arm.run] at h
      split at h
      · cases h
      · cases h
  | nested T inner =>
      simp only [Arm.run] at h
      split at h
      · next n hdecode => exact ⟨T, inner, n, rfl, hdecode, h⟩
      · cases h

namespace StrictMatcher

variable {β : Type} {M : StrictMatcher β} {m : Member}

theorem apply_of_arm {answer : β} (h : M.table.select m.tag.name = .arm answer) :
    M.apply m = pure (.ok answer) := by
  rw [apply, h]

theorem apply_of_wildcard {answer : β} (h : M.table.select m.tag.name = .wildcard answer) :
    M.apply m = ⟨.ok answer, [.wildcardUsed M.sum.name m.tag.name]⟩ := by
  rw [apply, h]
  rfl

theorem apply_of_nothing (h : M.table.select m.tag.name = .nothing) :
    M.apply m =
      ⟨.error (.unmatched M.sum.name m.tag.name), [.nothingMatched M.sum.name m.tag.name]⟩ := by
  rw [apply, h]
  rfl

end StrictMatcher

end Coproduct
