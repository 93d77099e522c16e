import Coproduct.Proofs.Decoding.Pair
import Coproduct.Proofs.Matching.Dispatch
/-!
# Members inside members

An arm may decode its payload as a member of another sum type and hand it on: to a matcher of that
type, or to a handler of members. Payloads are arbitrary, so this is a way for members to come into
being; what is handed on is declared all the same, at every depth (`Hands.declaredBy`). A handler of
members is therefore the same arm as any other that agrees with it on the declared ones
(`Arm.onAs_member_congr`).
-/

namespace Coproduct

variable {β : Type} {S T : Declaration} {t : CaseTable (Arm β) (Logged β)} {m n : Member}

/-- The members that are handed on where a table matches a member, each with its sum type: the one
that the selected arm decodes, and those that a matcher behind it hands on in its turn, be it that
the arm leaves the answer to the matcher or that it answers for the matcher's outcome. -/
inductive CaseTable.Hands : CaseTable (Arm β) (Logged β) → Member → Declaration → Member → Prop where
  | toMatcher {t m T inner n} (hselect : t.select m.tag.name = .arm (.nested T inner))
      (hdecode : (Codec.member T).decode m.payload = .ok n) : Hands t m T n
  | toHandler {t m T handler n}
      (hselect : t.select m.tag.name = .arm (.onAs (Codec.member T) handler))
      (hdecode : (Codec.member T).decode m.payload = .ok n) : Hands t m T n
  | byMatcher {t m T inner n U k} (hselect : t.select m.tag.name = .arm (.nested T inner))
      (hdecode : (Codec.member T).decode m.payload = .ok n) (hinner : Hands inner n U k) :
      Hands t m U k
  | byReply {t m T n U k} {M : Matcher β} {reply : Except SumError β → β}
      (hselect : t.select m.tag.name = .arm (.onAs (Codec.member T) fun n => reply <$> M.apply n))
      (hdecode : (Codec.member T).decode m.payload = .ok n) (hinner : Hands M.table n U k) :
      Hands t m U k

/-- **What is handed on is declared** by the sum type that it is handed on for. -/
theorem CaseTable.Hands.declaredBy (h : t.Hands m T n) : n.DeclaredBy T := by
  induction h with
  | toMatcher _ hdecode => exact (Codec.member_decode_eq_ok_iff.mp hdecode).2
  | toHandler _ hdecode => exact (Codec.member_decode_eq_ok_iff.mp hdecode).2
  | byMatcher _ _ _ ih => exact ih
  | byReply _ _ _ ih => exact ih

/-- Where a member is handed to a matcher, matching it is all that is done. -/
theorem CaseTable.apply_of_nested {inner : CaseTable (Arm β) (Logged β)}
    (hselect : t.select m.tag.name = .arm (.nested T inner))
    (hdecode : (Codec.member T).decode m.payload = .ok n) : t.apply S m = inner.apply T n := by
  rw [apply_of_arm hselect]
  simp only [Arm.run, hdecode]

/-- Where a member is handed to a handler, its answer is the outcome. -/
theorem CaseTable.apply_of_onAs_member {handler : Member → Logged β}
    (hselect : t.select m.tag.name = .arm (.onAs (Codec.member T) handler))
    (hdecode : (Codec.member T).decode m.payload = .ok n) :
    t.apply S m = .ok <$> handler n := by
  rw [apply_of_arm hselect]
  simp only [Arm.onAs, Arm.run, hdecode, Except.map]
  rfl

/-- What a handler of members does with members that are not declared makes no difference. -/
theorem Arm.onAs_member_congr {f g : Member → Logged β} (h : ∀ n, n.DeclaredBy T → f n = g n) :
    Arm.onAs (Codec.member T) f = Arm.onAs (Codec.member T) g := by
  refine congrArg Arm.typed (funext fun v => ?_)
  cases hdecode : (Codec.member T).decode v with
  | error cause => rfl
  | ok n => exact congrArg Except.ok (h n (Codec.member_decode_eq_ok_iff.mp hdecode).2)

end Coproduct
