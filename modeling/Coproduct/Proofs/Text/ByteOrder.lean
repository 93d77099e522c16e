import Mathlib.Data.String.Basic
/-!
# The order of names is the order of their bytes

Names are compared code point by code point. Their encoded bytes, compared as numbers from left to
right, are in the same order: the first byte of a character grows with the length of its encoding,
and within one length the bytes are digits, the highest first.

§1 the bytes of a character · §2 the bytes of a name.
-/

namespace Coproduct.Utf8

/-! ## §1  The bytes of a character -/

variable {v w k : Nat} {r r' : List UInt8}

/-- The last `k` digits of a number to the base 64, as continuation bytes. -/
def continuation (v : Nat) : Nat → List UInt8
  | 0 => []
  | k + 1 => UInt8.ofNat (v / 64 ^ k % 64 + 128) :: continuation v k

/-- What is added to the highest digit where `k` bytes continue it. -/
def lead : Nat → Nat
  | 0 => 0
  | 1 => 192
  | 2 => 224
  | 3 => 240
  | _ => 256

theorem ofNat_cons_lt {x y : Nat} (hx : x < 256) (hy : y < 256) (h : x < y ∨ x = y ∧ r < r') :
    UInt8.ofNat x :: r < UInt8.ofNat y :: r' := by
  rcases h with hlt | ⟨rfl, hlt⟩
  · apply List.Lex.rel
    rw [UInt8.lt_iff_toNat_lt, UInt8.toNat_ofNat', UInt8.toNat_ofNat']
    omega
  · exact List.Lex.cons hlt

/-- Of two numbers the less has the less highest digit, or the same one and a less rest. -/
theorem div_lt_or_mod_lt (b : Nat) (h : v < w) :
    v / b < w / b ∨ v / b = w / b ∧ v % b < w % b := by
  have hle : v / b ≤ w / b := Nat.div_le_div_right h.le
  rcases Nat.lt_or_eq_of_le hle with hlt | heq
  · exact .inl hlt
  · refine .inr ⟨heq, ?_⟩
    rw [← Nat.div_add_mod v b, ← Nat.div_add_mod w b, heq] at h
    exact Nat.lt_of_add_lt_add_left h

/-- Digits are compared from the highest on, whatever follows them. -/
theorem continuation_append_lt (h : v % 64 ^ k < w % 64 ^ k) :
    continuation v k ++ r < continuation w k ++ r' := by
  -- On the number of digits: the highest one is taken off, and `h` says the same of the others.
  induction k with
  | zero => simp [Nat.mod_one] at h
  | succ k ih =>
      have hdigit := div_lt_or_mod_lt (64 ^ k) h
      simp only [pow_succ, Nat.mod_mul_right_div_self, Nat.mod_mul_right_mod] at hdigit
      apply ofNat_cons_lt (by omega) (by omega)
      rcases hdigit with hdigit | ⟨hdigit, hrest⟩
      · exact .inl (by omega)
      · exact .inr ⟨by omega, ih hrest⟩

/-- A number has `k` digits after the highest one. -/
def HasDigits (v k : Nat) : Prop :=
  (k = 0 ∧ v < 128) ∨ (k = 1 ∧ 128 ≤ v ∧ v < 2048) ∨ (k = 2 ∧ 2048 ≤ v ∧ v < 65536) ∨
    (k = 3 ∧ 65536 ≤ v ∧ v < 1114112)

/-- A character is encoded by its highest digit and some continuation bytes. -/
theorem utf8EncodeChar_eq (c : Char) :
    ∃ k, HasDigits c.toNat k ∧ String.utf8EncodeChar c =
      UInt8.ofNat (c.toNat / 64 ^ k + lead k) :: continuation c.toNat k := by
  have hbound : c.toNat < 1114112 := by
    rcases c.valid with h | ⟨-, h⟩
    · exact Nat.lt_trans h (by decide)
    · exact h
  have hnat : c.val.toNat = c.toNat := rfl
  unfold String.utf8EncodeChar
  simp only [hnat]
  split
  · refine ⟨0, .inl ⟨rfl, by omega⟩, ?_⟩
    simp only [continuation, lead, pow_zero, Nat.div_one, Nat.add_zero]
  · split
    · have hhigh : c.toNat / 64 % 32 = c.toNat / 64 := by omega
      refine ⟨1, .inr (.inl ⟨rfl, by omega⟩), ?_⟩
      simp only [continuation, lead, pow_zero, pow_one, Nat.div_one, hhigh]
    · split
      · have hhigh : c.toNat / 4096 % 16 = c.toNat / 4096 := by omega
        refine ⟨2, .inr (.inr (.inl ⟨rfl, by omega⟩)), ?_⟩
        simp only [continuation, lead, pow_zero, pow_one, Nat.div_one, Nat.reducePow, hhigh]
      · have hhigh : c.toNat / 262144 % 8 = c.toNat / 262144 := by omega
        refine ⟨3, .inr (.inr (.inr ⟨rfl, by omega⟩)), ?_⟩
        simp only [continuation, lead, pow_zero, pow_one, Nat.div_one, Nat.reducePow, hhigh]

theorem HasDigits.first_lt (h : HasDigits v k) : v / 64 ^ k + lead k < lead (k + 1) := by
  rcases h with ⟨rfl, h⟩ | ⟨rfl, h⟩ | ⟨rfl, h⟩ | ⟨rfl, h⟩ <;> simp only [lead] <;> omega

theorem HasDigits.lead_le {l : Nat} (h : HasDigits v k) (h' : HasDigits w l) (hlt : v < w) :
    k = l ∨ lead (k + 1) ≤ lead l := by
  rcases h with ⟨rfl, h⟩ | ⟨rfl, h⟩ | ⟨rfl, h⟩ | ⟨rfl, h⟩ <;>
  rcases h' with ⟨rfl, h'⟩ | ⟨rfl, h'⟩ | ⟨rfl, h'⟩ | ⟨rfl, h'⟩ <;> simp only [lead, true_or] <;> omega

theorem lead_le (k : Nat) : lead k ≤ 256 := by
  unfold lead
  split <;> decide

/-- A smaller code point has the smaller encoding, whatever follows the two. -/
theorem utf8EncodeChar_append_lt {c d : Char} (h : c < d) :
    String.utf8EncodeChar c ++ r < String.utf8EncodeChar d ++ r' := by
  have hlt : c.toNat < d.toNat := h
  obtain ⟨k, hk, hc⟩ := utf8EncodeChar_eq c
  obtain ⟨l, hl, hd⟩ := utf8EncodeChar_eq d
  have hfirst := Nat.lt_of_lt_of_le hk.first_lt (lead_le _)
  have hfirst' := Nat.lt_of_lt_of_le hl.first_lt (lead_le _)
  rw [hc, hd]
  apply ofNat_cons_lt hfirst hfirst'
  rcases hk.lead_le hl hlt with rfl | hlead
  -- With one length the first bytes may agree, and then a later digit decides.
  · rcases div_lt_or_mod_lt (64 ^ k) hlt with hdigit | ⟨hdigit, hrest⟩
    · exact .inl (Nat.add_lt_add_right hdigit _)
    · exact .inr ⟨congrArg (· + lead k) hdigit, continuation_append_lt hrest⟩
  · left
    calc c.toNat / 64 ^ k + lead k < lead (k + 1) := hk.first_lt
      _ ≤ lead l := hlead
      _ ≤ d.toNat / 64 ^ l + lead l := Nat.le_add_left _ _

/-! ## §2  The bytes of a name -/

/-- The encoded bytes of a name. -/
def bytes (s : String) : List UInt8 := s.toUTF8.data.toList

theorem bytes_eq (s : String) : bytes s = s.toList.flatMap String.utf8EncodeChar := by
  obtain ⟨l, rfl⟩ : ∃ l, s = String.ofList l := ⟨s.toList, String.ofList_toList.symm⟩
  simp [bytes, List.utf8Encode]

theorem flatMap_lt {l m : List Char} (h : l < m) :
    l.flatMap String.utf8EncodeChar < m.flatMap String.utf8EncodeChar := by
  induction h with
  | @nil d m =>
      rw [List.flatMap_nil, List.flatMap_cons]
      cases hd : String.utf8EncodeChar d with
      | nil => exact absurd hd String.utf8EncodeChar_ne_nil
      | cons b r => exact List.Lex.nil
  | rel h =>
      rw [List.flatMap_cons, List.flatMap_cons]
      exact utf8EncodeChar_append_lt h
  | cons _ ih =>
      rw [List.flatMap_cons, List.flatMap_cons]
      exact List.append_left_lt ih

theorem bytes_lt_of_lt {s t : String} (h : s < t) : bytes s < bytes t := by
  rw [bytes_eq, bytes_eq]
  exact flatMap_lt (String.lt_iff.mp h)

/-- **Names are in the order of their bytes.** -/
theorem bytes_lt_iff (s t : String) : bytes s < bytes t ↔ s < t := by
  constructor
  · intro h
    rcases lt_trichotomy s t with hlt | rfl | hgt
    · exact hlt
    · exact absurd h (List.lt_irrefl _)
    · exact absurd h (List.lt_asymm (bytes_lt_of_lt hgt))
  · exact bytes_lt_of_lt

theorem bytes_le_iff (s t : String) : bytes s ≤ bytes t ↔ s ≤ t :=
  not_congr (bytes_lt_iff t s)

end Coproduct.Utf8
