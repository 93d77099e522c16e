import Coproduct.Decoding.Codec
import Coproduct.Member
import Coproduct.Proofs.Declaration
/-!
# Pairs and members as values

A value decodes as a pair exactly when it is the array of a tag and a payload, and as a member of
a sum type when the tag is declared as well. Of what does not decode, the first fault is reported:
the undeclared tag comes last.
-/

namespace Coproduct

theorem mapError_eq_ok_iff {ε ε' α : Type} {x : Except ε α} {f : ε → ε'} {a : α} :
    x.mapError f = .ok a ↔ x = .ok a := by
  cases x with
  | error e => constructor <;> (intro h; cases h)
  | ok b => constructor <;> (intro h; cases h; rfl)

theorem bind_eq_ok_iff {ε α β : Type} {x : Except ε α} {f : α → Except ε β} {b : β} :
    x >>= f = .ok b ↔ ∃ a, x = .ok a ∧ f a = .ok b := by
  cases x <;> simp [bind, Except.bind]

namespace Codec

open Json (Value)

variable {S : Declaration} {v : Value} {p : Pair} {m : Member}

theorem tag_encode (t : Tag) : tag.encode t = .ok (.string t.name) := by
  show (Content.tag t.name).encode = _
  rw [Content.encode, Content.tagOf, Tag.ofString_name]
  rfl

theorem pair_encode (p : Pair) : pair.encode p = .ok p.toValue := by
  show (Content.pair p.tag.name p.payload).encode = _
  rw [Content.encode, Content.tagOf, Tag.ofString_name]
  rfl

theorem tag_decode_string (name : String) :
    tag.decode (.string name) = (Tag.ofString name).mapError .tag := rfl

theorem tag_decode_eq_ok_iff {t : Tag} : tag.decode v = .ok t ↔ v = .string t.name := by
  constructor
  · intro h
    cases v with
    | string name =>
        rw [tag_decode_string] at h
        cases hname : Tag.ofString name with
        | error cause =>
            rw [hname] at h
            cases h
        | ok t' =>
            rw [hname] at h
            cases h
            rw [Tag.ofString_eq_ok_iff.mp hname]
    | null | bool | number | array | object => cases h
  · rintro rfl
    rw [tag_decode_string, Tag.ofString_name]
    rfl

/-- The items of a pair: a tag, a payload, and nothing behind it. -/
theorem decodeTwo_tag_value_eq_ok_iff {expected : String} {items : List Value} {t : Tag} {w : Value} :
    decodeTwo tag.decode value.decode expected items = .ok (t, w) ↔
      items = [.string t.name, w] := by
  constructor
  · intro h
    cases items with
    | nil => cases h
    | cons x rest =>
        cases htag : tag.decode x with
        | error cause =>
            simp only [decodeTwo, htag] at h
            cases h
        | ok t' =>
            simp only [decodeTwo, htag] at h
            cases rest with
            | nil => cases h
            | cons w' behind =>
                cases behind with
                | nil =>
                    cases h
                    rw [tag_decode_eq_ok_iff.mp htag]
                | cons => cases h
  · rintro rfl
    have htag : tag.decode (.string t.name) = .ok t := tag_decode_eq_ok_iff.mpr rfl
    simp only [decodeTwo, htag]
    rfl

/-- **What decodes as a pair**: the array of a tag and a payload, and nothing else. -/
theorem pair_decode_eq_ok_iff : pair.decode v = .ok p ↔ v = p.toValue := by
  constructor
  · intro h
    cases v with
    | array items =>
        have hitems : (decodeTwo tag.decode value.decode (pairName ++ " with 2 elements") items).map
            Pair.ofProd = .ok p := h
        cases hdecode : decodeTwo tag.decode value.decode (pairName ++ " with 2 elements") items with
        | error cause =>
            rw [hdecode] at hitems
            cases hitems
        | ok q =>
            rw [hdecode] at hitems
            cases hitems
            rw [decodeTwo_tag_value_eq_ok_iff.mp hdecode]
            rfl
    | null | bool | number | string | object => cases h
  · rintro rfl
    have hitems : decodeTwo tag.decode value.decode (pairName ++ " with 2 elements")
        [.string p.tag.name, p.payload] = .ok (p.tag, p.payload) :=
      decodeTwo_tag_value_eq_ok_iff.mpr rfl
    show (decodeTwo tag.decode value.decode (pairName ++ " with 2 elements")
      [.string p.tag.name, p.payload]).map Pair.ofProd = .ok p
    rw [hitems]
    rfl

/-- A member is decoded as a pair first, and then its tag is looked up in the declaration. -/
theorem member_decode_of_ok (h : pair.decode v = .ok p) :
    (member S).decode v =
      ((S.recognise p.tag).mapError DecodeError.tag).map fun t => (⟨t, p.payload⟩ : Member) := by
  simp only [member, h]
  show ((S.recognise p.tag).mapError DecodeError.tag >>= fun t =>
    pure (⟨t, p.payload⟩ : Member)) = _
  cases S.recognise p.tag <;> rfl

theorem member_decode_of_error {cause : DecodeError} (h : pair.decode v = .error cause) :
    (member S).decode v = .error cause := by
  simp only [member, h]
  rfl

/-- **What decodes as a member**: the array of a declared tag and a payload, and nothing else. -/
theorem member_decode_eq_ok_iff :
    (member S).decode v = .ok m ↔ v = m.serialize.toValue ∧ m.DeclaredBy S := by
  constructor
  · intro h
    cases hpair : pair.decode v with
    | error cause =>
        rw [member_decode_of_error hpair] at h
        cases h
    | ok p =>
        rw [member_decode_of_ok hpair] at h
        cases hrecognise : S.recognise p.tag with
        | error cause =>
            rw [hrecognise] at h
            cases h
        | ok t =>
            obtain ⟨hcontains, rfl⟩ := Declaration.recognise_eq_ok_iff.mp hrecognise
            rw [hrecognise] at h
            cases h
            exact ⟨pair_decode_eq_ok_iff.mp hpair, hcontains⟩
  · rintro ⟨rfl, hdeclared⟩
    have hpair : pair.decode m.serialize.toValue = .ok m.serialize := pair_decode_eq_ok_iff.mpr rfl
    have hrecognise : S.recognise m.serialize.tag = .ok m.serialize.tag :=
      Declaration.recognise_eq_ok_iff.mpr ⟨hdeclared, rfl⟩
    rw [member_decode_of_ok hpair, hrecognise]
    rfl

end Codec

end Coproduct
