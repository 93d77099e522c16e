import Coproduct.Proofs.Bundle.Access
import Coproduct.Proofs.Decoding.Text
import Coproduct.Proofs.Json.Framing
import Coproduct.Session.Operation
/-!
# The ways from a text to a member

There are four: the text is decoded while it is read, or parsed to a value that is decoded; and
each time as a member, or as a pair that a bundle turns into one. They take the same texts and give
the same members. What differs is when a fault is noticed. While a text is read the first fault in
it is reported, and a value is decoded only when all of the text is a document; an undeclared tag
is noticed behind the pair where a member is decoded, and behind the text where a pair is.

§1 the pair at the front of a text · §2 the four ways · §3 what they take · §4 what they report.
-/

namespace Coproduct

open Json (Value Token Fault tokens readValue depthLimit)

/-! ## §1  The pair at the front of a text -/

namespace Stream

variable {text rest : List Token} {p : Pair} {t : Tag}

theorem unexpected_ne_ok {α : Type} (token : Token) (expected : String) (x : α) :
    unexpected token expected ≠ .ok x := by
  unfold unexpected
  split <;> simp

theorem readTag_eq_ok_iff :
    readTag text = .ok (t, rest) ↔ text = .string t.name :: rest := by
  constructor
  · intro h
    unfold readTag at h
    split at h
    · cases h
    · next s behind =>
        cases htag : Tag.ofString s with
        | error cause =>
            rw [htag] at h
            cases h
        | ok tag =>
            rw [htag] at h
            cases h
            rw [Tag.ofString_eq_ok_iff.mp htag]
    · exact absurd h (unexpected_ne_ok _ _ _)
  · rintro rfl
    simp only [readTag, Tag.ofString_name]

theorem readPayload_eq_ok_iff :
    readPayload t text = .ok (p, rest) ↔ t = p.tag ∧ ∃ behind, text = .comma :: behind ∧
      readValue (depthLimit - 1) behind = .ok (p.payload, .closeArray :: rest) := by
  constructor
  · intro h
    unfold readPayload at h
    split at h
    · cases h
    · cases h
    · next behind =>
        split at h
        · cases h
        · cases h
        · next hread =>
            cases h
            exact ⟨rfl, behind, rfl, hread⟩
        · cases h
    · cases h
  · rintro ⟨rfl, behind, rfl, hread⟩
    simp only [readPayload, hread]

theorem readPair_openArray {token : Token} (h : token ≠ .closeArray) :
    readPair (.openArray :: token :: text) =
      readTag (token :: text) >>= fun (t, behind) => readPayload t behind := by
  cases token with
  | closeArray => exact absurd rfl h
  | _ => rfl

theorem readPair_eq_ok_iff :
    readPair text = .ok (p, rest) ↔
      ∃ behind, text = .openArray :: .string p.tag.name :: .comma :: behind ∧
        readValue (depthLimit - 1) behind = .ok (p.payload, .closeArray :: rest) := by
  constructor
  · intro h
    unfold readPair at h
    split at h
    · cases h
    · cases h
    · next text _ =>
        cases htag : readTag text with
        | error cause =>
            rw [htag] at h
            cases h
        | ok result =>
            obtain ⟨t, behind⟩ := result
            rw [htag] at h
            obtain ⟨rfl, behind, rfl, hread⟩ := readPayload_eq_ok_iff.mp h
            exact ⟨behind, by rw [readTag_eq_ok_iff.mp htag], hread⟩
    · exact absurd h (unexpected_ne_ok _ _ _)
  · rintro ⟨behind, rfl, hread⟩
    have htag : readTag (.string p.tag.name :: .comma :: behind) = .ok (p.tag, .comma :: behind) :=
      readTag_eq_ok_iff.mpr rfl
    rw [readPair_openArray (by simp), htag]
    exact readPayload_eq_ok_iff.mpr ⟨rfl, behind, rfl, hread⟩

/-- **The pair at the front of a text** is the value at the front of it, where that is a pair. -/
theorem readPair_eq_ok_iff_readValue :
    readPair text = .ok (p, rest) ↔ readValue depthLimit text = .ok (p.toValue, rest) := by
  rw [readPair_eq_ok_iff]
  exact Json.readValue_eq_ok_two_iff.symm

end Stream

variable {S : Declaration} {b : Bundle} {fresh next : Nat} {text : String} {p : Pair} {m : Member}

theorem Json.Value.ofText_eq_ok_iff {limit : Nat} {v : Value} :
    Value.ofText limit text = .ok v ↔ readValue limit (tokens text) = .ok (v, []) := by
  unfold Value.ofText
  split
  · next hread => simp [hread]
  · next hread => simp [hread]
  · next hread => simp [hread]

theorem Pair.ofText_eq_ok_iff_value :
    Pair.ofText text = .ok p ↔ Value.ofText depthLimit text = .ok p.toValue := by
  rw [Pair.ofText_eq_ok_iff, Stream.readPair_eq_ok_iff_readValue, Value.ofText_eq_ok_iff]

/-! ## §2  The four ways -/

/-- The ways from a text to a member: decoded as a member or as a pair, while the text is read or
from the value that it is parsed to. -/
inductive DecodingRoute where
  | member
  | pair
  | parsedMember
  | parsedPair
deriving DecidableEq

/-- The member that a bundle builds of a pair, where there is one, and the bundle behind it. -/
def Bundle.deserialize? (S : Declaration) (b : Bundle) (next : Nat) :
    Except Failure Pair → Except Failure Member × Bundle
  | .ok p =>
    let result := (b.deserialize S p next).value
    (result.1.mapError fun e => .sum (.tag e), result.2)
  | .error cause => (.error cause, b)

def decodeText {α : Type} (codec : Codec α) (text : String) : Except Failure α :=
  match Value.ofText depthLimit text with
  | .ok v => (codec.decode v).mapError fun e => .read (.data e)
  | .error fault => .error (.read (.fault fault))

namespace DecodingRoute

def throughBundle : DecodingRoute → Bool
  | .pair | .parsedPair => true
  | .member | .parsedMember => false

def result (S : Declaration) (b : Bundle) (next : Nat) (text : String) :
    DecodingRoute → Except Failure Member × Bundle
  | .member => ((Member.ofText S text).mapError .read, b)
  | .pair => b.deserialize? S next ((Pair.ofText text).mapError .read)
  | .parsedMember => (decodeText (Codec.member S) text, b)
  | .parsedPair => b.deserialize? S next (decodeText Codec.pair text)

end DecodingRoute

/-! ## §3  What they take -/

theorem decodeText_eq_ok_iff {α : Type} {codec : Codec α} {x : α} :
    decodeText codec text = .ok x ↔
      ∃ v, Value.ofText depthLimit text = .ok v ∧ codec.decode v = .ok x := by
  unfold decodeText
  split
  · next v hv => simp [hv, mapError_eq_ok_iff]
  · next fault hv => simp [hv]

namespace Bundle

theorem deserialize?_of_declared (hb : b.Sound S fresh) (h : S.contains p.tag.name = true) :
    (b.deserialize? S next (.ok p)).1 = .ok ⟨p.tag, p.payload⟩ := by
  show (b.deserialize S p next).value.1.mapError _ = _
  rw [hb.deserialize_of_contains h]
  rfl

theorem deserialize?_of_undeclared (hb : b.Sound S fresh) (h : S.contains p.tag.name = false) :
    (b.deserialize? S next (.ok p)).1 = .error (.sum (.tag (.unknown S.name p.tag.name))) := by
  show (b.deserialize S p next).value.1.mapError _ = _
  rw [hb.deserialize_of_not_contains h]
  rfl

theorem deserialize?_eq_ok_iff (hb : b.Sound S fresh) {pair : Except Failure Pair} :
    (b.deserialize? S next pair).1 = .ok m ↔ pair = .ok m.serialize ∧ m.DeclaredBy S := by
  cases pair with
  | error cause =>
      refine iff_of_false (fun h => nomatch h) ?_
      rintro ⟨h, -⟩
      cases h
  | ok p =>
      cases hcontains : S.contains p.tag.name with
      | false =>
          rw [deserialize?_of_undeclared hb hcontains]
          refine iff_of_false (fun h => nomatch h) ?_
          rintro ⟨h, hdeclared⟩
          cases h
          cases hcontains.symm.trans hdeclared
      | true =>
          rw [deserialize?_of_declared hb hcontains]
          constructor
          · intro h
            cases h
            exact ⟨rfl, hcontains⟩
          · rintro ⟨h, -⟩
            cases h
            rfl

/-- The bundle is accessed once where a member is built, and not changed where none is. -/
theorem deserialize?_bundle (hb : b.Sound S fresh) (pair : Except Failure Pair) :
    (∀ m, (b.deserialize? S next pair).1 = .ok m →
      (b.deserialize? S next pair).2 = (b.get S m.tag.name next).value.2) ∧
    ∀ cause, (b.deserialize? S next pair).1 = .error cause → (b.deserialize? S next pair).2 = b := by
  cases pair with
  | error cause => exact ⟨fun m h => (nomatch h), fun _ _ => rfl⟩
  | ok p =>
      have hbundle : (b.deserialize? S next (.ok p)).2 = (b.get S p.tag.name next).value.2 := rfl
      rw [hbundle]
      cases hcontains : S.contains p.tag.name with
      | false =>
          have hname : ¬ S.Declares p.tag.name := by
            rw [Declaration.declares_tag, hcontains]
            exact Bool.false_ne_true
          rw [deserialize?_of_undeclared hb hcontains, get_eq_of_not_declares hname]
          exact ⟨fun m h => (nomatch h), fun _ _ => rfl⟩
      | true =>
          rw [deserialize?_of_declared hb hcontains]
          refine ⟨?_, fun cause h => (nomatch h)⟩
          intro m h
          cases h
          rfl

end Bundle

/-- A route ends well where the text writes the member and its tag is declared. -/
theorem DecodingRoute.result_eq_ok_iff (hb : b.Sound S fresh) (route : DecodingRoute) :
    (route.result S b next text).1 = .ok m ↔
      Value.ofText depthLimit text = .ok m.serialize.toValue ∧ m.DeclaredBy S := by
  cases route with
  | member =>
      show (Member.ofText S text).mapError _ = _ ↔ _
      rw [mapError_eq_ok_iff, Member.ofText_eq_ok_iff, Pair.ofText_eq_ok_iff_value]
  | pair =>
      show (b.deserialize? S next ((Pair.ofText text).mapError .read)).1 = _ ↔ _
      rw [Bundle.deserialize?_eq_ok_iff hb, mapError_eq_ok_iff, Pair.ofText_eq_ok_iff_value]
  | parsedMember =>
      show decodeText (Codec.member S) text = _ ↔ _
      simp only [decodeText_eq_ok_iff, Codec.member_decode_eq_ok_iff]
      constructor
      · rintro ⟨v, hvalue, rfl, hdeclared⟩
        exact ⟨hvalue, hdeclared⟩
      · rintro ⟨hvalue, hdeclared⟩
        exact ⟨_, hvalue, rfl, hdeclared⟩
  | parsedPair =>
      show (b.deserialize? S next (decodeText Codec.pair text)).1 = _ ↔ _
      rw [Bundle.deserialize?_eq_ok_iff hb]
      simp only [decodeText_eq_ok_iff, Codec.pair_decode_eq_ok_iff, exists_eq_right]

theorem exists_written_iff {limit : Nat} :
    (∃ name v, S.Declares name ∧ Value.ofText limit text = .ok (.array [.string name, v]) ∧
      m.tag.name = name ∧ m.payload = v) ↔
    Value.ofText limit text = .ok m.serialize.toValue ∧ m.DeclaredBy S := by
  constructor
  · rintro ⟨name, v, hdeclares, hvalue, rfl, rfl⟩
    exact ⟨hvalue, hdeclares.2⟩
  · rintro ⟨hvalue, hdeclared⟩
    exact ⟨m.tag.name, m.payload, ⟨m.tag.nonempty, hdeclared⟩, hvalue, rfl, rfl⟩

/-! ## §4  What they report -/

namespace DecodingRoute

variable {rest : List Token} {cause : ReadError}

theorem result_of_readPair_error (h : Stream.readPair (tokens text) = .error cause) :
    (member.result S b next text).1 = .error (.read cause) ∧
      (pair.result S b next text).1 = .error (.read cause) := by
  constructor
  · show (Member.ofText S text).mapError _ = _
    rw [Member.ofText_of_error h]
    rfl
  · show (b.deserialize? S next ((Pair.ofText text).mapError .read)).1 = _
    rw [Pair.ofText_of_error h]
    rfl

/-- Behind a pair of an undeclared tag, a member is refused at once and a pair only after the rest
of the text. -/
theorem result_of_undeclared (hb : b.Sound S fresh)
    (h : Stream.readPair (tokens text) = .ok (p, rest)) (hcontains : S.contains p.tag.name = false) :
    (member.result S b next text).1 =
        .error (.read (.data (.tag (.unknown S.name p.tag.name)))) ∧
      (rest = [] → (pair.result S b next text).1 =
        .error (.sum (.tag (.unknown S.name p.tag.name)))) ∧
      (rest ≠ [] → (pair.result S b next text).1 = .error (.read (.fault .malformed))) := by
  have hpair : (pair.result S b next text).1 =
      (b.deserialize? S next ((Stream.complete p rest).mapError .read)).1 := by
    rw [← Pair.ofText_of_ok h]
    rfl
  refine ⟨?_, ?_, ?_⟩
  -- The member's tag is looked up before `rest` is, so `rest` does not matter here.
  · show (Member.ofText S text).mapError _ = _
    rw [Member.ofText_of_undeclared h hcontains]
    rfl
  · rintro rfl
    rw [hpair]
    exact Bundle.deserialize?_of_undeclared hb hcontains
  · intro hrest
    rw [hpair]
    cases rest with
    | nil => exact absurd rfl hrest
    | cons token rest => rfl

/-- Behind a pair of a declared tag both ways look for the end of the text. -/
theorem result_of_declared (hb : b.Sound S fresh)
    (h : Stream.readPair (tokens text) = .ok (p, rest)) (hcontains : S.contains p.tag.name = true) :
    (member.result S b next text).1 = (pair.result S b next text).1 := by
  show (Member.ofText S text).mapError _ =
    (b.deserialize? S next ((Pair.ofText text).mapError .read)).1
  rw [Member.ofText_of_declared h hcontains, Pair.ofText_of_ok h]
  cases rest with
  | nil => exact (Bundle.deserialize?_of_declared hb hcontains).symm
  | cons token rest => rfl

theorem result_of_fault {fault : Fault} (h : Value.ofText depthLimit text = .error fault) :
    (parsedMember.result S b next text).1 = .error (.read (.fault fault)) ∧
      (parsedPair.result S b next text).1 = .error (.read (.fault fault)) := by
  constructor
  · show decodeText (Codec.member S) text = _
    simp only [decodeText, h]
  · show (b.deserialize? S next (decodeText Codec.pair text)).1 = _
    simp only [decodeText, h]
    rfl

theorem result_of_no_pair {v : Value} {cause : DecodeError}
    (h : Value.ofText depthLimit text = .ok v) (hpair : Codec.pair.decode v = .error cause) :
    (parsedMember.result S b next text).1 = .error (.read (.data cause)) ∧
      (parsedPair.result S b next text).1 = .error (.read (.data cause)) := by
  constructor
  · show decodeText (Codec.member S) text = _
    simp only [decodeText, h, Codec.member_decode_of_error hpair]
    rfl
  · show (b.deserialize? S next (decodeText Codec.pair text)).1 = _
    simp only [decodeText, h, hpair]
    rfl

/-- A document that is a pair of an undeclared tag is refused for that, by the codec of members or
by the bundle. -/
theorem result_of_undeclared_pair (hb : b.Sound S fresh)
    (h : Value.ofText depthLimit text = .ok p.toValue) (hcontains : S.contains p.tag.name = false) :
    (parsedMember.result S b next text).1 =
        .error (.read (.data (.tag (.unknown S.name p.tag.name)))) ∧
      (parsedPair.result S b next text).1 = .error (.sum (.tag (.unknown S.name p.tag.name))) := by
  have hpair : Codec.pair.decode p.toValue = .ok p := Codec.pair_decode_eq_ok_iff.mpr rfl
  constructor
  · show decodeText (Codec.member S) text = _
    simp only [decodeText, h, Codec.member_decode_of_ok hpair, Declaration.recognise, hcontains]
    rfl
  · show (b.deserialize? S next (decodeText Codec.pair text)).1 = _
    simp only [decodeText, h, hpair]
    exact Bundle.deserialize?_of_undeclared hb hcontains

/-- A bundle is accessed once by the routes through it that end well, and not at all by others. -/
theorem result_bundle (hb : b.Sound S fresh) (route : DecodingRoute) :
    (∀ m, (route.result S b next text).1 = .ok m → (route.result S b next text).2 =
      if route.throughBundle then (b.get S m.tag.name next).value.2 else b) ∧
    ∀ cause, (route.result S b next text).1 = .error cause →
      (route.result S b next text).2 = b := by
  cases route with
  | member | parsedMember => exact ⟨fun _ _ => rfl, fun _ _ => rfl⟩
  | pair | parsedPair => exact Bundle.deserialize?_bundle hb _

end DecodingRoute

/-- **All ways from a text to a member agree.** For every state of a bundle and every text, each of
the four gives a member exactly when the text writes an array of two items, the first of them a
declared name, and then the member has this name for its tag and the second item for its payload.
The bundle is changed only by the ways through it, and only when they end well.

Where no pair is complete at the front of the text, the two ways that decode while reading report
the same error. Where one is, they differ just if its tag is not declared: then the member is
refused for its tag whatever follows, and the pair is refused only if nothing follows, by the
bundle, and otherwise for what follows. The two ways that parse first report the same fault of the
text or of the value, unless the value is a pair of an undeclared tag, which the codec refuses on
one way and the bundle on the other. -/
theorem decoding_routes_agree (hb : b.Reachable S fresh) (next : Nat) (text : String) :
    let outcome := fun route : DecodingRoute => (route.result S b next text).1
    let after := fun route : DecodingRoute => (route.result S b next text).2
    (∀ route m, outcome route = .ok m ↔
      ∃ name v, S.Declares name ∧ Value.ofText depthLimit text = .ok (.array [.string name, v]) ∧
        m.tag.name = name ∧ m.payload = v) ∧
    (∀ route, (∀ m, outcome route = .ok m → after route =
        if route.throughBundle then (b.get S m.tag.name next).value.2 else b) ∧
      ∀ cause, outcome route = .error cause → after route = b) ∧
    ((∀ (p : Pair) rest, readValue depthLimit (tokens text) ≠ .ok (p.toValue, rest)) →
      ∃ cause, outcome .member = .error (.read cause) ∧ outcome .pair = .error (.read cause)) ∧
    (∀ (p : Pair) rest, readValue depthLimit (tokens text) = .ok (p.toValue, rest) →
      (S.contains p.tag.name = true → outcome .member = outcome .pair) ∧
      (S.contains p.tag.name = false →
        outcome .member = .error (.read (.data (.tag (.unknown S.name p.tag.name)))) ∧
        (rest = [] → outcome .pair = .error (.sum (.tag (.unknown S.name p.tag.name)))) ∧
        (rest ≠ [] → outcome .pair = .error (.read (.fault .malformed))))) ∧
    (∀ fault, Value.ofText depthLimit text = .error fault →
      outcome .parsedMember = .error (.read (.fault fault)) ∧
      outcome .parsedPair = .error (.read (.fault fault))) ∧
    (∀ v cause, Value.ofText depthLimit text = .ok v → Codec.pair.decode v = .error cause →
      outcome .parsedMember = .error (.read (.data cause)) ∧
      outcome .parsedPair = .error (.read (.data cause))) ∧
    ∀ p : Pair, Value.ofText depthLimit text = .ok p.toValue → S.contains p.tag.name = false →
      outcome .parsedMember = .error (.read (.data (.tag (.unknown S.name p.tag.name)))) ∧
      outcome .parsedPair = .error (.sum (.tag (.unknown S.name p.tag.name))) := by
  intro outcome after
  have hsound := hb.sound
  refine ⟨?taken, fun route => route.result_bundle hsound, ?incomplete, ?complete,
    fun fault h => DecodingRoute.result_of_fault h,
    fun v cause h hpair => DecodingRoute.result_of_no_pair h hpair,
    fun p h hcontains => DecodingRoute.result_of_undeclared_pair hsound h hcontains⟩
  case taken =>
    intro route m
    rw [exists_written_iff]
    exact route.result_eq_ok_iff hsound
  case incomplete =>
    -- A pair that is read is a value that is read, so here the reading of the pair has failed.
    intro hnone
    cases hread : Stream.readPair (tokens text) with
    | error cause => exact ⟨cause, DecodingRoute.result_of_readPair_error hread⟩
    | ok result => exact absurd (Stream.readPair_eq_ok_iff_readValue.mp hread) (hnone _ _)
  case complete =>
    intro p rest hvalue
    have hread := Stream.readPair_eq_ok_iff_readValue.mpr hvalue
    exact ⟨DecodingRoute.result_of_declared hsound hread,
      DecodingRoute.result_of_undeclared hsound hread⟩

/-- More text behind a pair of an undeclared tag: one way reports the tag, the other the text. -/
theorem decoding_routes_agree_trailing :
    let S : Declaration := ⟨"Letters", .listed ["a"]⟩
    let outcome := fun route : DecodingRoute => (route.result S .empty 0 "[\"b\",null] x").1
    Bundle.empty.Reachable S 0 ∧
      outcome .member = .error (.read (.data (.tag (.unknown "Letters" "b")))) ∧
      outcome .pair = .error (.read (.fault .malformed)) := by
  intro S outcome
  have hnew : Bundle.empty.Reachable S 0 := .new 0
  let p : Pair := ⟨⟨"b", by decide⟩, .null⟩
  have hread : readValue depthLimit (tokens "[\"b\",null] x") =
      .ok (p.toValue, [.broken false .malformed]) := by
    rw [show tokens "[\"b\",null] x" = [.openArray, .string "b", .comma, .null, .closeArray,
      .broken false .malformed] by decide]
    rfl
  obtain ⟨-, -, -, hcomplete, -⟩ := decoding_routes_agree hnew 0 "[\"b\",null] x"
  obtain ⟨hmember, -, hpair⟩ := (hcomplete p _ hread).2 rfl
  exact ⟨hnew, hmember, hpair (by simp)⟩

end Coproduct
