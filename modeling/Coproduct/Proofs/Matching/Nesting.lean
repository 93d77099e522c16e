import Coproduct.Matching.Plan
import Coproduct.Proofs.Matching.Handed
import Coproduct.Proofs.Matching.HandlerMap
import Coproduct.Proofs.Obtainable
/-!
# Nests of matchers

A matcher may be in an arm of another one, and that one in an arm of a third. An arm goes on with
the matcher in it, or it decodes a member and calls the matcher as a function, and then the outcome
of the call, be it a failure, is what the arm answers. The way back is encoding: a member becomes
the payload of a member of the sum type around its own, and that one the payload of another.

The two compose. A nest makes of a member that has been encoded on all its levels what the
innermost matcher makes of the member itself (`nested_encoding_matches`). Members go from one level
to the next as values, never as texts, so neither the number of levels nor the depth of a payload is
limited.

§1 the only arm for a name · §2 members as payloads · §3 nests · §4 matching what is encoded.
-/

namespace Coproduct

open Json (Value)

variable {β γ : Type} {S T : Declaration}

/-! ## §1  The only arm for a name -/

namespace Matcher

variable {M : Matcher β} {isChecked : Bool} {calls : List (MatcherCall β)} {name : String}
  {a : Arm β}

/-- The matcher comes of calls, with a check or without one, and just one of them is for a name. -/
def HasOnlyArm (M : Matcher β) (name : String) (a : Arm β) : Prop :=
  ∃ isChecked calls, (ofCalls M.sum isChecked calls).value = .ok M ∧
    CaseCall.armsFor name calls = [a]

/-- What is built of calls, where something is built. -/
theorem ofCalls_value_eq_ok_iff :
    (ofCalls S isChecked calls).value = .ok M ↔
      M = unchecked S calls ∧ (isChecked = true → (CaseTable.ofCalls calls).check S = .ok ()) := by
  cases isChecked with
  | false => simp [ofCalls, eq_comm]
  | true =>
      simp only [ofCalls, if_true, Logged.value_bind, Logged.value_pure, checked_value,
        mapError_eq_ok_iff]
      cases (CaseTable.ofCalls calls).check S with
      | error cause => simp [Except.map]
      | ok u => simp [Except.map, eq_comm]

theorem HasOnlyArm.select_eq (h : M.HasOnlyArm name a) : M.table.select name = .arm a := by
  obtain ⟨isChecked, calls, hbuilt, honly⟩ := h
  obtain ⟨hM, -⟩ := ofCalls_value_eq_ok_iff.mp hbuilt
  have htable : M.table = CaseTable.ofCalls calls := congrArg Matcher.table hM
  rw [CaseTable.select_eq_arm_iff, htable, CaseTable.arm?_ofCalls, honly]
  rfl

end Matcher

/-! ## §2  Members as payloads -/

namespace Member

/-- The member of `S` whose payload is a member of `T`: a constructor of its own encodes it. -/
def enclose (S T : Declaration) (name : String) (fresh : Nat) (m : Member) :
    Except SumError Member := do
  let c ← (Constructor.standalone S name fresh).mapError .tag
  c.encode S ((Codec.member T).content m)

end Member

theorem Codec.member_encode (m : Member) : (Codec.member T).encode m = .ok m.serialize.toValue :=
  Codec.pair_encode m.serialize

/-- A member of any sum type is encoded under any tag. -/
theorem Member.enclose_eq_ok {tag : Tag} (h : S.contains tag.name = true) (fresh : Nat)
    (m : Member) : m.enclose S T tag.name fresh = .ok ⟨tag, m.serialize.toValue⟩ := by
  have hstandalone : Constructor.standalone S tag.name fresh = .ok ⟨fresh, tag⟩ :=
    Constructor.standalone_eq_ok_iff.mpr ⟨Declaration.declare_of_contains h, rfl⟩
  have hencode : ((Codec.member T).content m).encode = .ok m.serialize.toValue :=
    Codec.member_encode m
  rw [Member.enclose, hstandalone]
  exact Constructor.encode_of_ok hencode S ⟨fresh, tag⟩

theorem Pair.depth_toValue (p : Pair) : p.toValue.depth = p.payload.depth + 1 := by
  simp [Pair.toValue, Value.depth, Value.depthItems]

/-! ## §3  Nests -/

/-- A tag of the matcher's sum type for which there is one arm only. -/
structure Matcher.Entrance (M : Matcher β) (a : Arm β) where
  name : String
  declared : M.sum.Declares name
  only : M.HasOnlyArm name a

def Matcher.Entrance.tag {M : Matcher β} {a : Arm β} (e : M.Entrance a) : Tag :=
  ⟨e.name, e.declared.1⟩

theorem Matcher.Entrance.contains_tag {M : Matcher β} {a : Arm β} (e : M.Entrance a) :
    M.sum.contains e.tag.name = true :=
  e.declared.2

/-- The matchers from an outer one down to `N`, with the tag on each level whose only arm leads
further in. The arm goes on with the inner matcher, or it calls it and answers with what comes
out. -/
inductive Nest (N : Matcher γ) : {β : Type} → Matcher β → Type 1 where
  | innermost : Nest N N
  | matched {β : Type} {M M' : Matcher β} (e : M.Entrance (.onMember M')) (inner : Nest N M') :
      Nest N M
  | called {β : Type} {M : Matcher (Except SumError β)} {M' : Matcher β}
      (e : M.Entrance (.onAs (Codec.member M'.sum) M'.apply)) (inner : Nest N M') : Nest N M

namespace Nest

variable {N : Matcher γ}

def length {β : Type} {M : Matcher β} : Nest N M → Nat
  | .innermost => 0
  | .matched _ inner => inner.length + 1
  | .called _e inner => inner.length + 1

/-- No matcher is called: every arm goes on with the matcher in it. -/
def Direct {β : Type} {M : Matcher β} : Nest N M → Prop
  | .innermost => True
  | .matched _ inner => inner.Direct
  | .called _ _ => False

/-- A member of the innermost sum type, encoded on one level after another. -/
def encode (fresh : Nat) (m : Member) {β : Type} {M : Matcher β} : Nest N M → Except SumError Member
  | .innermost => .ok m
  | @matched _ _ _ M M' e inner => do
    (← inner.encode fresh m).enclose M.sum M'.sum e.name fresh
  | @called _ _ _ M M' e inner => do
    (← inner.encode fresh m).enclose M.sum M'.sum e.name fresh

/-- An outcome of the outermost matcher without the outcomes in it, of which there is one for each
matcher that is called. -/
def flatten {β : Type} {M : Matcher β} : Nest N M → Except SumError β → Except SumError γ
  | .innermost => id
  | .matched _ inner => inner.flatten
  | .called _e inner => fun outcome => inner.flatten (outcome >>= id)

/-- What encoding makes of a member: on each level, the one inside is the payload. -/
def wrap (m : Member) {β : Type} {M : Matcher β} : Nest N M → Member
  | .innermost => m
  | .matched e inner => ⟨e.tag, (inner.wrap m).serialize.toValue⟩
  | .called e inner => ⟨e.tag, (inner.wrap m).serialize.toValue⟩

variable {M : Matcher β}

/-- Where no matcher is called there is nothing to flatten. -/
theorem Direct.flatten_eq {nest : Nest N M} (h : nest.Direct) :
    ∃ hβ : β = γ, ∀ outcome, nest.flatten outcome = hβ ▸ outcome := by
  induction nest with
  | innermost => exact ⟨rfl, fun _ => rfl⟩
  | matched e inner ih => exact ih h
  | called e inner ih => exact h.elim

/-! ## §4  Matching what is encoded -/

section

variable (nest : Nest N M) {m : Member}

/-- **Encoding succeeds** on every level, for every member. -/
theorem encode_eq_ok (fresh : Nat) (m : Member) : nest.encode fresh m = .ok (nest.wrap m) := by
  induction nest with
  | innermost => rfl
  | matched e inner ih | called e inner ih =>
      rw [encode, ih]
      exact Member.enclose_eq_ok e.contains_tag fresh (inner.wrap m)

/-- Each level adds one array around the payload. -/
theorem depth_wrap (m : Member) : (nest.wrap m).payload.depth = m.payload.depth + nest.length := by
  induction nest with
  | innermost => rfl
  | matched e inner ih | called e inner ih =>
      rw [wrap, Pair.depth_toValue, length, ← Nat.add_assoc, ← ih]
      rfl

theorem declaredBy_wrap (hm : m.DeclaredBy N.sum) : (nest.wrap m).DeclaredBy M.sum := by
  cases nest with
  | innermost => exact hm
  | matched e inner | called e inner => exact e.contains_tag

/-- The level inside reads the member that was encoded on it. -/
theorem decode_wrap (hm : m.DeclaredBy N.sum) :
    (Codec.member M.sum).decode (nest.wrap m).serialize.toValue = .ok (nest.wrap m) :=
  Codec.member_decode_eq_ok_iff.mpr ⟨rfl, nest.declaredBy_wrap hm⟩

/-- **From level to level** matching takes off what encoding has put around a member. -/
theorem flatten_apply_wrap (hm : m.DeclaredBy N.sum) :
    nest.flatten <$> M.apply (nest.wrap m) = N.apply m := by
  induction nest with
  | innermost => exact id_map (N.apply m)
  | @matched β M M' e inner ih =>
      have happly : M.apply (wrap m (.matched e inner)) = M'.apply (inner.wrap m) :=
        CaseTable.apply_of_nested e.only.select_eq (inner.decode_wrap hm)
      rw [happly]
      exact ih
  | @called β M M' e inner ih =>
      have happly : M.apply (wrap m (.called e inner)) = .ok <$> M'.apply (inner.wrap m) :=
        CaseTable.apply_of_onAs_member e.only.select_eq (inner.decode_wrap hm)
      rw [happly, ← ih, ← comp_map]
      rfl

end

end Nest

/-- **Nested encoding goes with nested matching.** Take a matcher `N` and matchers around it, any
number of them, built with a check or without one and with any other arms and wildcards, where each
leads to the next in the only arm for a tag that is declared. A member of the sum type of `N`, with
any payload, can be encoded on one level after another. Matching the outermost member then comes to
just what `N` makes of the member, be it an answer or an error, and raises the same events; where
matchers are called as functions, that is so once their outcomes are flattened. Payloads get one
level deeper with every matcher, and nothing limits how deep they are. -/
theorem nested_encoding_matches (N : Matcher γ) (m : Member) (hm : m.Obtainable N.sum)
    (fresh : Nat) :
    (∀ (M : Matcher γ) (nest : Nest N M), nest.Direct →
      ∃ outer, nest.encode fresh m = .ok outer ∧ M.apply outer = N.apply m) ∧
    ∀ (β : Type) (M : Matcher β) (nest : Nest N M),
      ∃ outer, nest.encode fresh m = .ok outer ∧ nest.flatten <$> M.apply outer = N.apply m ∧
        outer.Obtainable M.sum ∧ outer.payload.depth = m.payload.depth + nest.length := by
  refine ⟨?direct, ?any⟩
  case direct =>
    intro M nest hdirect
    refine ⟨nest.wrap m, nest.encode_eq_ok fresh m, ?_⟩
    obtain ⟨hβ, hflatten⟩ := hdirect.flatten_eq
    have hid : nest.flatten = id := funext hflatten
    rw [← nest.flatten_apply_wrap hm.declaredBy, hid]
    exact (id_map _).symm
  case any =>
    intro β M nest
    exact ⟨nest.wrap m, nest.encode_eq_ok fresh m, nest.flatten_apply_wrap hm.declaredBy,
      Member.obtainable_iff.mpr (nest.declaredBy_wrap hm.declaredBy), nest.depth_wrap m⟩

/-- A checked matcher calls another checked one, in which there is one without arms. What that one
fails with comes out as an answer, which is to be flattened. -/
theorem nested_encoding_matches_failure :
    let sides : Matcher Nat := .unchecked ⟨"Side", .every⟩ []
    let polygons : Matcher Nat :=
      .unchecked ⟨"Polygon", .listed ["Regular"]⟩ [.arm "Regular" (.onMember sides)]
    let shapes : Matcher (Except SumError Nat) :=
      .unchecked ⟨"Shape", .listed ["Circle", "Polygon"]⟩
        [.arm "Polygon" (.onAs (Codec.member polygons.sum) polygons.apply),
          .wildcard (pure (.ok 0))]
    let m : Member := ⟨⟨"Long", by decide⟩, .array []⟩
    ∃ (nest : Nest sides shapes) (outer : Member), nest.length = 2 ∧ nest.encode 0 m = .ok outer ∧
      outer.payload.depth = 3 ∧ nest.flatten <$> shapes.apply outer = sides.apply m ∧
      (sides.apply m).value = .error (.unmatched "Side" "Long") := by
  intro sides polygons shapes m
  have hpolygons : polygons.HasOnlyArm "Regular" (.onMember sides) := by
    refine ⟨true, _, Matcher.ofCalls_value_eq_ok_iff.mpr ⟨rfl, fun _ => ?_⟩, rfl⟩
    rw [CaseTable.check_ofCalls (by decide) (by decide)]
    rfl
  have hshapes :
      shapes.HasOnlyArm "Polygon" (.onAs (Codec.member polygons.sum) polygons.apply) := by
    refine ⟨true, _, Matcher.ofCalls_value_eq_ok_iff.mpr ⟨rfl, fun _ => ?_⟩, rfl⟩
    rw [CaseTable.check_ofCalls (by decide) (by decide)]
    rfl
  have hm : m.Obtainable sides.sum := by
    have hdeclared : sides.sum.contains m.tag.name = true := by decide
    exact Member.obtainable_iff.mpr hdeclared
  have hsides : sides.apply m = ⟨_, _⟩ := CaseTable.apply_of_nothing rfl
  let nest : Nest sides shapes :=
    .called ⟨"Polygon", ⟨by decide, by decide⟩, hshapes⟩
      (.matched ⟨"Regular", ⟨by decide, by decide⟩, hpolygons⟩ .innermost)
  obtain ⟨outer, hencode, happly, -, hdepth⟩ :=
    (nested_encoding_matches sides m hm 0).2 _ shapes nest
  exact ⟨nest, outer, rfl, hencode, hdepth, happly, congrArg Logged.value hsides⟩

end Coproduct
