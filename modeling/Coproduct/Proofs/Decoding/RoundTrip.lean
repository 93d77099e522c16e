import Coproduct.Proofs.Decoding.Routes
import Coproduct.Proofs.Json.ReadBack
import Coproduct.Proofs.Obtainable
/-!
# Members written and read back

The text of a member is the text of its pair. It is read back to the same member as long as the
payload fits below the array of the pair, which is itself one of the containers that may be open;
a payload that nests deeper makes the text malformed (`text_round_trip`).
-/

namespace Coproduct

open Json (Value Token tokens readValue depthLimit)

variable {S : Declaration} {m : Member}

theorem Pair.tokens_text (p : Pair) :
    tokens p.text =
      .openArray :: .string p.tag.name :: .comma :: (p.payload.toTokens ++ [.closeArray]) := by
  rw [Pair.text, Json.tokens_text]
  simp [Pair.toValue, Value.toTokens, Value.itemTokens, Value.otherItemTokens]

/-- The payload of a written pair has one container less to open than a document has. -/
theorem Stream.readPair_tokens_text {p : Pair} (h : p.payload.Canonical) :
    readPair (tokens p.text) =
      if p.payload.depth ≤ depthLimit - 1 then .ok (p, []) else .error (.fault .malformed) := by
  have htag : readTag (.string p.tag.name :: .comma :: (p.payload.toTokens ++ [.closeArray])) =
      .ok (p.tag, .comma :: (p.payload.toTokens ++ [.closeArray])) := readTag_eq_ok_iff.mpr rfl
  have hpayload : readPair (tokens p.text) =
      readPayload p.tag (.comma :: (p.payload.toTokens ++ [.closeArray])) := by
    rw [Pair.tokens_text, readPair_openArray (by simp), htag]
    rfl
  have hread : readValue (depthLimit - 1) (p.payload.toTokens ++ [.closeArray]) =
      if p.payload.depth ≤ depthLimit - 1 then .ok (p.payload, [.closeArray])
      else .error .malformed := Json.readValue_tokens h
  rw [hpayload]
  split
  · next hdepth =>
    rw [if_pos hdepth] at hread
    exact readPayload_eq_ok_iff.mpr ⟨rfl, _, rfl, hread⟩
  · next hdepth =>
    rw [if_neg hdepth] at hread
    simp only [readPayload, hread]

theorem Member.ofText_text (hm : m.DeclaredBy S) (hpayload : m.payload.Canonical) :
    Member.ofText S m.text =
      if m.payload.depth ≤ depthLimit - 1 then .ok m else .error (.fault .malformed) := by
  have hread : Stream.readPair (tokens m.text) =
      if m.payload.depth ≤ depthLimit - 1 then .ok (m.serialize, [])
      else .error (.fault .malformed) := Stream.readPair_tokens_text (p := m.serialize) hpayload
  split
  · next hdepth =>
    rw [if_pos hdepth] at hread
    exact ofText_of_declared hread hm
  · next hdepth =>
    rw [if_neg hdepth] at hread
    exact ofText_of_error hread

/-- **A member is read back from its text** exactly when its payload has depth 126 or less; a deeper
one is malformed, and in no case does another member come back. That the keys of the objects in the
payload are in ascending order is what makes a list of fields an object. -/
theorem text_round_trip (hm : m.Obtainable S) (hpayload : m.payload.Canonical) :
    m.text = m.serialize.text ∧
    (Member.ofText S m.text = .ok m ↔ m.payload.depth ≤ 126) ∧
    (126 < m.payload.depth → Member.ofText S m.text = .error (.fault .malformed)) ∧
    ∀ n, Member.ofText S m.text = .ok n → n = m := by
  have hread := Member.ofText_text hm.declaredBy hpayload
  have hlimit : depthLimit - 1 = 126 := rfl
  rw [hlimit] at hread
  refine ⟨rfl, ?_⟩
  by_cases hdepth : m.payload.depth ≤ 126
  · rw [if_pos hdepth] at hread
    refine ⟨iff_of_true hread hdepth, fun hdeep => absurd hdepth (Nat.not_le_of_lt hdeep), ?_⟩
    intro n hn
    cases hread.symm.trans hn
    rfl
  · rw [if_neg hdepth] at hread
    refine ⟨iff_of_false ?_ hdepth, fun _ => hread, ?_⟩
    · intro h
      cases hread.symm.trans h
    · intro n hn
      cases hread.symm.trans hn

/-- Quotes, controls and empty keys in a tag and a payload of depth two. -/
theorem text_round_trip_escapes :
    let S : Declaration := ⟨"Letters", .listed ["", "\"a\""]⟩
    let m : Member := ⟨⟨"\"a\"", by decide⟩,
      .object [("", .array []), ("k\n", .array [.null, .string "\x01\\"])]⟩
    m.Obtainable S ∧ m.payload.Canonical ∧ Member.ofText S m.text = .ok m := by
  intro S m
  have hm : m.Obtainable S := by
    have hdeclared : S.contains m.tag.name = true := by decide
    exact Member.obtainable_iff.mpr hdeclared
  have hkeys : Json.Fields.Ascending
      [("", .array []), ("k\n", .array [.null, .string "\x01\\"])] :=
    List.pairwise_pair.mpr (by decide)
  have hpayload : m.payload.Canonical := ⟨hkeys, trivial, ⟨trivial, trivial, trivial⟩, trivial⟩
  have hdepth : m.payload.depth ≤ 126 := by decide
  obtain ⟨-, hread, -⟩ := text_round_trip hm hpayload
  exact ⟨hm, hpayload, hread.mpr hdepth⟩

end Coproduct
