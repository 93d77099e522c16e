import Coproduct.Encoding.Literal
import Coproduct.Proofs.Decoding.Typed
import Coproduct.Proofs.Matching.Lookup
import Coproduct.Proofs.Obtainable
/-!
# Typed payloads from a constructor to a handler

A constructor encodes a value of some type, and an arm of a matcher decodes the payload as the same
type. The types are scalars, tags, pairs and members, and what options, lists, maps, tuples and
records make of them, nested as one likes; only an option of what has a null of its own is left
out. What is encoded reaches the handler as it was (`typed_payloads_survive`), and where values of
the type convert without being encoded, both ways give the same member.

§1 types of payloads · §2 conversions · §3 literals · §4 arms that decode · §5 from a constructor
to a handler.
-/

namespace Coproduct

open Json (Value)

variable {α β ρ : Type}

/-! ## §1  Types of payloads -/

/-- The codecs of payloads, each with the proper values of its type. The index tells whether one of
them may be written as null. A member is proper where its tag is declared, and a map where its
entries are listed in ascending order of their keys, each key once. -/
inductive PayloadCodec : Bool → {α : Type} → Codec α → (α → Prop) → Prop where
  | unit : PayloadCodec true .unit fun _ => True
  | value : PayloadCodec true .value fun _ => True
  | bool : PayloadCodec false .bool fun _ => True
  | int8 : PayloadCodec false .int8 fun _ => True
  | int64 : PayloadCodec false .int64 fun _ => True
  | uint8 : PayloadCodec false .uint8 fun _ => True
  | uint32 : PayloadCodec false .uint32 fun _ => True
  | uint64 : PayloadCodec false .uint64 fun _ => True
  | double : PayloadCodec false .double fun _ => True
  | char : PayloadCodec false .char fun _ => True
  | string : PayloadCodec false .string fun _ => True
  | tag : PayloadCodec false .tag fun _ => True
  | pair : PayloadCodec false .pair fun _ => True
  | member (T : Declaration) : PayloadCodec false (.member T) (Member.DeclaredBy T)
  | option {α : Type} {codec : Codec α} {proper : α → Prop} (h : PayloadCodec false codec proper) :
      PayloadCodec true (.option codec) fun x => ∀ y ∈ x, proper y
  | list {nullable : Bool} {α : Type} {codec : Codec α} {proper : α → Prop}
      (h : PayloadCodec nullable codec proper) :
      PayloadCodec false (.list codec) fun xs => ∀ x ∈ xs, proper x
  | map {nullable : Bool} {α : Type} {codec : Codec α} {proper : α → Prop}
      (h : PayloadCodec nullable codec proper) :
      PayloadCodec false (.map codec) fun entries =>
        (entries.map (·.1)).Pairwise (· < ·) ∧ ∀ e ∈ entries, proper e.2
  | tuple {nullable nullable' : Bool} {α β : Type} {codec : Codec α} {codec' : Codec β}
      {proper : α → Prop} {proper' : β → Prop} (h : PayloadCodec nullable codec proper)
      (h' : PayloadCodec nullable' codec' proper') :
      PayloadCodec false (.tuple codec codec') fun p => proper p.1 ∧ proper' p.2
  | record {nullable : Bool} {α : Type} {codec : Codec α} {proper : α → Prop}
      (name field : String) (absent : Option α) (h : PayloadCodec nullable codec proper) :
      PayloadCodec false (.record name field codec absent) proper

namespace PayloadCodec

variable {nullable : Bool} {codec : Codec α} {proper : α → Prop} {x : α}

/-- Nothing is written as null where the index says so. -/
theorem encode_ne_null (h : PayloadCodec false codec proper) (x : α) :
    codec.encode x ≠ .ok .null := by
  intro hnull
  cases h with
  | bool | double | char | string => cases hnull
  | int8 => exact Codec.int8_integral.encode_ne_null x hnull
  | int64 => exact Codec.int64_integral.encode_ne_null x hnull
  | uint8 => exact Codec.uint8_integral.encode_ne_null x hnull
  | uint32 => exact Codec.uint32_integral.encode_ne_null x hnull
  | uint64 => exact Codec.uint64_integral.encode_ne_null x hnull
  | tag => cases (Codec.tag_encode x).symm.trans hnull
  | pair => cases (Codec.pair_encode x).symm.trans hnull
  | member T => cases (Codec.pair_encode x.serialize).symm.trans hnull
  | list | map | tuple | record =>
      rw [Codec.encode] at hnull
      simp only [Codec.list, Codec.map, Codec.tuple, Codec.record, Content.encode] at hnull
      obtain ⟨parts, -, hvalue⟩ := bind_eq_ok_iff.mp hnull
      cases hvalue

/-- Every proper value comes back. -/
theorem returns (h : PayloadCodec nullable codec proper) (hx : proper x) : codec.Returns x := by
  induction h with
  | unit => exact Codec.returns_unit x
  | value => exact Codec.returns_value x
  | bool => exact Codec.returns_bool x
  | int8 => exact Codec.int8_integral.returns x
  | int64 => exact Codec.int64_integral.returns x
  | uint8 => exact Codec.uint8_integral.returns x
  | uint32 => exact Codec.uint32_integral.returns x
  | uint64 => exact Codec.uint64_integral.returns x
  | double => exact Codec.returns_double x
  | char => exact Codec.returns_char x
  | string => exact Codec.returns_string x
  | tag => exact Codec.returns_tag x
  | pair => exact Codec.returns_pair x
  | member T => exact Codec.returns_member hx
  | option h ih =>
      cases x with
      | none => exact Codec.returns_option_none
      | some y => exact (ih (hx y rfl)).option_some (h.encode_ne_null y)
  | list h ih => exact .list fun y hy => ih (hx y hy)
  | map h ih => exact .map hx.1 fun e he => ih (hx.2 e he)
  | tuple h h' ih ih' => exact (ih hx.1).tuple (ih' hx.2)
  | record name field absent h ih => exact (ih hx).record name field absent

end PayloadCodec

/-! ## §2  Conversions -/

/-- The conversions into values that need no encoding, each beside the codec of its type. -/
inductive Codec.Converts : {α : Type} → Codec α → (α → Value) → Prop where
  | unit : Converts .unit fun _ => Literal.unit.value
  | value : Converts .value fun v => (Literal.json v).value
  | bool : Converts .bool fun b => (Literal.bool b).value
  | int8 : Converts .int8 fun n => (Literal.integer n.toInt (int8_integral.fits n)).value
  | int64 : Converts .int64 fun n => (Literal.integer n.toInt (int64_integral.fits n)).value
  | uint8 : Converts .uint8 fun n => (Literal.integer n.toNat (uint8_integral.fits n)).value
  | uint32 : Converts .uint32 fun n => (Literal.integer n.toNat (uint32_integral.fits n)).value
  | uint64 : Converts .uint64 fun n => (Literal.integer n.toNat (uint64_integral.fits n)).value
  | double : Converts .double fun x => (Literal.double (some x)).value
  | string : Converts .string fun s => (Literal.string s).value
  | option {α : Type} {codec : Codec α} {convert : α → Value} (h : Converts codec convert) :
      Converts (.option codec) (Literal.ofOption convert)
  | list {α : Type} {codec : Codec α} {convert : α → Value} (h : Converts codec convert) :
      Converts (.list codec) (Literal.ofList convert)

/-- To convert a value is to encode it. -/
theorem Codec.Converts.encode_eq {codec : Codec α} {convert : α → Value}
    (h : codec.Converts convert) (x : α) : codec.encode x = .ok (convert x) := by
  induction h with
  | unit | value | bool | double | string => rfl
  | int8 => exact int8_integral.encode_eq x
  | int64 => exact int64_integral.encode_eq x
  | uint8 => exact uint8_integral.encode_eq x
  | uint32 => exact uint32_integral.encode_eq x
  | uint64 => exact uint64_integral.encode_eq x
  | option h ih =>
      cases x with
      | none => rfl
      | some y => exact ih y
  | list h ih => exact list_encode fun y _ => ih y

/-! ## §3  Literals -/

namespace Literal

def content : Literal → Content
  | .unit => .null
  | .json v => .json v
  | .bool b => .bool b
  | .integer n _ => .integer n
  | .double x => .double x
  | .single x => .single x
  | .string s => .string s
  | .optional none => .null
  | .optional (some x) => .present (.double x)
  | .doubles xs => .sequence (xs.map .double)
  | .strings texts => .sequence (texts.map .string)

/-- To convert a literal is to encode it, also where a floating-point number is not finite. -/
theorem encode_content (l : Literal) : l.content.encode = .ok l.value := by
  cases l with
  | unit | json | bool | double | single | string => rfl
  | integer n fits =>
      rw [content, Content.encode, Value.ofInt?, Json.Number.ofInt?, dif_pos fits]
      rfl
  | optional x => cases x <;> rfl
  | doubles xs =>
      rw [content, Content.encode, Content.encodeItems_map fun x _ => rfl]
      rfl
  | strings texts =>
      rw [content, Content.encode, Content.encodeItems_map fun s _ => rfl]
      rfl

end Literal

/-! ## §4  Arms that decode -/

/-- The last arm for a name decodes the payload with a codec and answers what it decodes to. -/
def HandlerMap.DecodesBy (name : String) (codec : Codec α) (answer : α → Logged β) :
    HandlerMap ρ β → Prop
  | .handlers calls => CaseCall.LastArm calls name (.onAs codec answer)
  | .widened into calls => ∃ handler : α → ρ,
      CaseCall.LastArm calls name (.onAs codec handler) ∧ answer = fun x => pure (into (handler x))
  | .stored _ | .storedWidened _ _ => False

/-- A payload that decodes is answered by the arm, with nothing reported on the way. -/
theorem HandlerMap.DecodesBy.apply_eq {H : HandlerMap ρ β} {m : Member} {codec : Codec α}
    {answer : α → Logged β} {x : α} (h : H.DecodesBy m.tag.name codec answer)
    (hdecode : codec.decode m.payload = .ok x) (S : Declaration) :
    (H.unchecked S).apply m = .ok <$> answer x := by
  rw [apply_eq_iff]
  cases H with
  | handlers calls =>
      have hrun : (Arm.onAs codec answer).run S m = .ok <$> answer x := by
        rw [Arm.run_onAs, hdecode]
      rw [← hrun]
      exact .arm (CaseCall.LastArm.map _ _ h)
  | widened into calls =>
      obtain ⟨handler, hlast, rfl⟩ := h
      have hrun : pure ((DirectArm.onAs codec handler).run S into m) =
          (.ok <$> pure (into (handler x)) : Logged (Except SumError β)) := by
        rw [DirectArm.run_onAs, hdecode]
        rfl
      rw [← hrun]
      exact .arm (hlast.map _ _)
  | stored calls | storedWidened into calls => exact h.elim

/-! ## §5  From a constructor to a handler -/

/-- **Typed payloads survive.** Take a declared name of any sum type, and a proper value of any type
that payloads have. The constructor of the name encodes the value, and a matcher of either kind of
handlers, checked or not, whose arm for the name decodes the same type answers with what the arm
makes of that very value; with the identity as a handler the value itself comes back. Where the
type converts without being encoded, the member is the one that is called with the converted value.
That holds of all literals, so what is not finite gives the member without a payload on both ways.
And a map is encoded as the same member in whatever order its entries are gone through. -/
theorem typed_payloads_survive {S : Declaration} {name : String} (hname : S.Declares name)
    (fresh : Nat) {nullable : Bool} {codec : Codec α} {proper : α → Prop}
    (hcodec : PayloadCodec nullable codec proper) {x : α} (hx : proper x) :
    ∃ c m, Constructor.standalone S name fresh = .ok c ∧ c.encode S (codec.content x) = .ok m ∧
      (∀ (ρ β : Type) (H : HandlerMap ρ β) (answer : α → Logged β), H.DecodesBy name codec answer →
        ∀ M, M = H.unchecked S ∨ (H.checked S).value = .ok M → M.apply m = .ok <$> answer x) ∧
      (∀ convert, codec.Converts convert → m = c.call (convert x)) ∧
      (∀ l : Literal, c.encode S l.content = .ok (c.call l.value)) ∧
      (c.call (Literal.double none).value = c.unit ∧ c.call (Literal.single none).value = c.unit) ∧
      ∀ entries entries' : List (String × α), (entries.map (·.1)).Nodup → entries.Perm entries' →
        (∀ e ∈ entries, proper e.2) →
        c.encode S ((Codec.map codec).content entries') =
          c.encode S ((Codec.map codec).content entries) := by
  obtain ⟨tag, htag, rfl⟩ := Declaration.declare_eq_ok_of_declares hname
  obtain ⟨v, hencode, hdecode⟩ := hcodec.returns hx
  refine ⟨⟨fresh, tag⟩, ⟨tag, v⟩, Constructor.standalone_eq_ok_iff.mpr ⟨htag, rfl⟩,
    Constructor.encode_of_ok hencode S _, ?handler, ?converted, ?literals, ⟨rfl, rfl⟩, ?map⟩
  case handler =>
    rintro ρ β H answer hdecodes M (rfl | hM)
    · exact hdecodes.apply_eq hdecode S
    · obtain ⟨-, rfl⟩ := HandlerMap.checked_eq_ok_iff.mp hM
      exact hdecodes.apply_eq hdecode S
  case converted =>
    intro convert hconverts
    cases hencode.symm.trans (hconverts.encode_eq x)
    rfl
  case literals => exact fun l => Constructor.encode_of_ok l.encode_content S _
  case map =>
    intro entries entries' hkeys hperm hproper
    have hsame : ((Codec.map codec).content entries').encode =
        ((Codec.map codec).content entries).encode :=
      Codec.map_encode_perm hkeys (fun e he => hcodec.returns (hproper e he)) hperm
    rw [Constructor.encode, Constructor.encode, hsame]

/-- A map whose values are a negative number and a member of an open sum type each: it is encoded
as the payload of a closed one, and both kinds of handlers give it back behind a check. -/
theorem typed_payloads_survive_map :
    let S : Declaration := ⟨"Weather", .listed ["Sun", "Rain"]⟩
    let codec := Codec.map (.tuple .int64 (.member ⟨"Any", .every⟩))
    let x : List (String × Int64 × Member) := [("", -1, ⟨⟨"a", by decide⟩, .null⟩),
      ("b", -9223372036854775808, ⟨⟨"_", by decide⟩, .array [.bool true]⟩)]
    let H : HandlerMap Unit (List (String × Int64 × Member)) :=
      .handlers [.arm "Rain" (.onAs codec pure), .wildcard (pure [])]
    let H' : HandlerMap (List (String × Int64 × Member)) (List (String × Int64 × Member)) :=
      .widened id [.arm "Sun" (.on fun _ => []), .arm "Rain" (.onAs codec id)]
    ∃ c m M M', Constructor.standalone S "Rain" 0 = .ok c ∧ c.encode S (codec.content x) = .ok m ∧
      (H.checked S).value = .ok M ∧ M.apply m = ⟨.ok x, []⟩ ∧
      (H'.checked S).value = .ok M' ∧ M'.apply m = ⟨.ok x, []⟩ := by
  intro S codec x H H'
  have hname : S.Declares "Rain" := ⟨by decide, rfl⟩
  have hcodec := PayloadCodec.map (.tuple .int64 (.member ⟨"Any", .every⟩))
  have hproper : (x.map (·.1)).Pairwise (· < ·) ∧
      ∀ e ∈ x, True ∧ Member.DeclaredBy ⟨"Any", .every⟩ e.2.2 := by
    constructor
    · decide
    · simp [x, Member.DeclaredBy, Declaration.contains, DeclaredTags.contains]
  obtain ⟨c, m, hstandalone, hencode, hhandler, -⟩ :=
    typed_payloads_survive hname 0 hcodec hproper
  have hdecodes : H.DecodesBy "Rain" codec pure := ⟨[], [.wildcard (pure [])], rfl, by decide⟩
  have hdecodes' : H'.DecodesBy "Rain" codec fun x => pure x :=
    ⟨id, ⟨[.arm "Sun" (.on fun _ => [])], [], rfl, by decide⟩, rfl⟩
  obtain ⟨M, hM⟩ : ∃ M, (H.checked S).value = .ok M :=
    ⟨_, HandlerMap.checked_eq_ok_iff.mpr ⟨H.check_eq_coverageOf (by decide) (by decide), rfl⟩⟩
  obtain ⟨M', hM'⟩ : ∃ M', (H'.checked S).value = .ok M' :=
    ⟨_, HandlerMap.checked_eq_ok_iff.mpr ⟨H'.check_eq_coverageOf (by decide) (by decide), rfl⟩⟩
  exact ⟨c, m, M, M', hstandalone, hencode, hM, hhandler Unit _ H pure hdecodes M (.inr hM),
    hM', hhandler _ _ H' _ hdecodes' M' (.inr hM')⟩

end Coproduct
