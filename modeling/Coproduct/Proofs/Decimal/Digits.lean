import Coproduct.Decimal.Digits
import Mathlib.Algebra.Order.Ring.Nat
import Mathlib.Data.List.Induction
import Mathlib.Tactic.Ring
/-!
# Digits and their number

Writing a number in digits and reading them gives it back, zeros in front do not matter, and zeros
behind are powers of ten.
-/

namespace Coproduct.Digits

variable {c : Char} {n : Nat} {xs ys : List Char}

/-! ## §1  Reading -/

theorem toNat_snoc (xs : List Char) (c : Char) : toNat (xs ++ [c]) = 10 * toNat xs + value c := by
  simp [toNat]

theorem toNat_append (xs ys : List Char) : toNat (xs ++ ys) = toNat xs * 10 ^ ys.length + toNat ys := by
  induction ys using List.reverseRecOn with
  | nil => simp [toNat]
  | append_singleton ys c ih =>
      rw [← List.append_assoc, toNat_snoc, ih, toNat_snoc, List.length_append, List.length_singleton,
        pow_succ]
      ring

theorem toNat_replicate_zero (k : Nat) : toNat (List.replicate k '0') = 0 := by
  induction k with
  | zero => rfl
  | succ k ih =>
      rw [List.replicate_succ', toNat_snoc, ih]
      rfl

theorem toNat_zeros_append (k : Nat) (xs : List Char) :
    toNat (List.replicate k '0' ++ xs) = toNat xs := by
  rw [toNat_append, toNat_replicate_zero, Nat.zero_mul, Nat.zero_add]

theorem toNat_append_zeros (k : Nat) (xs : List Char) :
    toNat (xs ++ List.replicate k '0') = toNat xs * 10 ^ k := by
  rw [toNat_append, toNat_replicate_zero, List.length_replicate, Nat.add_zero]

/-! ## §2  Writing -/

theorem isDigit_digitChar (h : n < 10) : isDigit n.digitChar = true := by
  revert n
  decide

theorem value_digitChar (h : n < 10) : value n.digitChar = n :=
  Nat.toNat_digitChar_sub_48_of_lt_ten h

theorem ofNat_eq_if (n : Nat) :
    ofNat n = if n < 10 then [n.digitChar] else ofNat (n / 10) ++ [(n % 10).digitChar] :=
  Nat.toDigits_eq_if (by decide)

theorem ofNat_ne_nil (n : Nat) : ofNat n ≠ [] := Nat.toDigits_ne_nil

/-- **The digits of a number** write it. -/
theorem toNat_ofNat (n : Nat) : toNat (ofNat n) = n := by
  induction n using Nat.strongRecOn with
  | ind n ih =>
      rw [ofNat_eq_if]
      split
      · next hlt => simpa [toNat] using value_digitChar hlt
      · next hge =>
          have hquotient : n / 10 < n := by omega
          have hrest : n % 10 < 10 := Nat.mod_lt n (by decide)
          rw [toNat_snoc, ih _ hquotient, value_digitChar hrest]
          omega

theorem isDigit_of_mem_ofNat (h : c ∈ ofNat n) : isDigit c = true := by
  induction n using Nat.strongRecOn with
  | ind n ih =>
      rw [ofNat_eq_if] at h
      split at h
      · next hlt =>
          rw [List.mem_singleton.mp h]
          exact isDigit_digitChar hlt
      · next hge =>
          rcases List.mem_append.mp h with hmem | hmem
          · exact ih (n / 10) (by omega) hmem
          · rw [List.mem_singleton.mp hmem]
            exact isDigit_digitChar (Nat.mod_lt n (by decide))

/-- Only zero is written with a zero in front. -/
theorem head?_ofNat_ne_zero (hn : n ≠ 0) : (ofNat n).head? ≠ some '0' := by
  induction n using Nat.strongRecOn with
  | ind n ih =>
      rw [ofNat_eq_if]
      split
      · simpa using hn
      · next hge =>
          have hquotient : n / 10 ≠ 0 := by omega
          have hfirst := ih (n / 10) (by omega) hquotient
          cases hdigits : ofNat (n / 10) with
          | nil => exact absurd hdigits (ofNat_ne_nil _)
          | cons c rest =>
              rw [hdigits] at hfirst
              exact hfirst

end Coproduct.Digits
