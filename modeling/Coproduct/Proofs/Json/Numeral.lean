import Coproduct.Json.Token
import Coproduct.Proofs.Decimal.Digits
import Coproduct.Proofs.Decimal.Shortest
/-!
# Written numbers are numerals

What is written of a number is the text of the parts of a numeral (`spell`), and a numeral has the
parts of its text (`ofChars_spell`). The layout of a decimal may move zeros, but it keeps the value
(`DecimalLayout.exists_writes`); so every number is read back from what is written of it
(`Number.exists_numeral`).

§1 the text of the parts · §2 the layout of a decimal · §3 numbers.
-/

namespace Coproduct

namespace Json.Numeral

/-! ## §1  The text of the parts -/

def fractionChars : Option (List Char) → List Char
  | none => []
  | some digits => '.' :: digits

def exponentChars : Option Int → List Char
  | none => []
  | some e => 'e' :: (if e < 0 then '-' else '+') :: Digits.ofNat e.natAbs

def spellUnsigned (m : Numeral) : List Char :=
  m.whole ++ (fractionChars m.fraction ++ exponentChars m.exponent)

def spell (m : Numeral) : List Char :=
  if m.negative then '-' :: m.spellUnsigned else m.spellUnsigned

/-- The parts fit the grammar. -/
structure WellSpelled (m : Numeral) : Prop where
  whole_ne_nil : m.whole ≠ []
  whole_digits : ∀ c ∈ m.whole, isDigit c = true
  whole_of_zero : m.whole.head? = some '0' → m.whole = ['0']
  fraction_ne_nil : m.fraction ≠ some []
  fraction_digits : ∀ digits, m.fraction = some digits → ∀ c ∈ digits, isDigit c = true

variable {m : Numeral}

def NoDigitFirst (text : List Char) : Prop := ∀ c ∈ text.head?, isDigit c = false

theorem takeWhile_isDigit {digits rest : List Char} (hdigits : ∀ c ∈ digits, isDigit c = true)
    (hrest : NoDigitFirst rest) : (digits ++ rest).takeWhile isDigit = digits := by
  rw [List.takeWhile_append_of_pos hdigits]
  cases rest with
  | nil => simp
  | cons c rest => simp [hrest c rfl]

theorem dropWhile_isDigit {digits rest : List Char} (hdigits : ∀ c ∈ digits, isDigit c = true)
    (hrest : NoDigitFirst rest) : (digits ++ rest).dropWhile isDigit = rest := by
  rw [List.dropWhile_append_of_pos hdigits]
  cases rest with
  | nil => rfl
  | cons c rest => simp [hrest c rfl]

theorem noDigitFirst_exponentChars (e : Option Int) : NoDigitFirst (exponentChars e) := by
  cases e with
  | none => simp [NoDigitFirst, exponentChars]
  | some e => simp [NoDigitFirst, exponentChars, isDigit]

theorem noDigitFirst_behindWhole (fraction : Option (List Char)) (e : Option Int) :
    NoDigitFirst (fractionChars fraction ++ exponentChars e) := by
  cases fraction with
  | none => exact noDigitFirst_exponentChars e
  | some digits => simp [NoDigitFirst, fractionChars, isDigit]

theorem exponentOf_exponentChars (e : Int) :
    exponentOf ((if e < 0 then '-' else '+') :: Digits.ofNat e.natAbs) = e := by
  by_cases he : e < 0
  · rw [if_pos he]
    simp only [exponentOf, Digits.toNat_ofNat]
    omega
  · rw [if_neg he]
    simp only [exponentOf, Digits.toNat_ofNat]
    omega

theorem exponent_of_exponentChars (e : Option Int) :
    (if exponentChars e = [] then none else some (exponentOf (exponentChars e).tail)) = e := by
  cases e with
  | none => rfl
  | some e => exact congrArg some (exponentOf_exponentChars e)

theorem head?_exponentChars_ne_point (e : Option Int) :
    ((exponentChars e).head? == some '.') = false := by
  cases e with
  | none => rfl
  | some e => rfl

theorem WellSpelled.exists_cons (h : m.WellSpelled) :
    ∃ c rest, m.spellUnsigned = c :: rest ∧ isDigit c = true := by
  obtain ⟨c, rest, hwhole⟩ := List.exists_cons_of_ne_nil h.whole_ne_nil
  refine ⟨c, rest ++ (fractionChars m.fraction ++ exponentChars m.exponent), ?_, ?_⟩
  · rw [spellUnsigned, hwhole]
    rfl
  · exact h.whole_digits c (by simp [hwhole])

/-- **The parts of a text** are the parts that it was written from. -/
theorem ofChars_spell (h : m.WellSpelled) : ofChars m.spell = m := by
  obtain ⟨c, rest, hunsigned, hc⟩ := h.exists_cons
  have hnegative : (m.spell.head? == some '-') = m.negative := by
    cases hsign : m.negative with
    | true => simp [spell, hsign]
    | false =>
        have hne : c ≠ '-' := by
          rintro rfl
          cases hc
        simp [spell, hsign, hunsigned, hne]
  have htext : (if m.negative then m.spell.tail else m.spell) = m.spellUnsigned := by
    cases hsign : m.negative with
    | true => simp [spell, hsign]
    | false => simp [spell, hsign]
  have hbehind := noDigitFirst_behindWhole m.fraction m.exponent
  have hwhole : m.spellUnsigned.takeWhile isDigit = m.whole :=
    takeWhile_isDigit h.whole_digits hbehind
  have hdrop : m.spellUnsigned.dropWhile isDigit =
      fractionChars m.fraction ++ exponentChars m.exponent :=
    dropWhile_isDigit h.whole_digits hbehind
  obtain ⟨negative, whole, fraction, exponent⟩ := m
  simp only at hnegative hwhole hdrop htext
  simp only [ofChars, hnegative, htext, hwhole, hdrop]
  cases fraction with
  | none => simp [fractionChars, head?_exponentChars_ne_point, exponent_of_exponentChars]
  | some digits =>
      have hfraction := h.fraction_digits digits rfl
      have htake := takeWhile_isDigit hfraction (noDigitFirst_exponentChars exponent)
      have hrest := dropWhile_isDigit hfraction (noDigitFirst_exponentChars exponent)
      simp [fractionChars, htake, hrest, exponent_of_exponentChars]

/-! ## §2  The layout of a decimal -/

/-- The numeral writes a decimal, with a point or an exponent: its parts fit the grammar, and its
value is the decimal's, with zeros moved from the exponent to the digits. -/
structure Writes (m : Numeral) (d : ScaledDecimal) : Prop where
  wellSpelled : m.WellSpelled
  isReal : (m.fraction.isSome || m.exponent.isSome) = true
  short : m.whole.length ≤ wholeReach
  exact : ∃ k : Nat, m.exact = ⟨d.digits * 10 ^ k, d.exponent - k⟩

end Json.Numeral

namespace DecimalLayout

open Json Json.Numeral

variable {d : ScaledDecimal} {e : Int} {whole fraction : List Char}

/-- Digits before and after a point write a decimal when, read as one number, they are the
decimal's digits with zeros behind them, as many as the exponent makes up for. -/
theorem writes_of_point (negative : Bool) (hwhole_ne : whole ≠ [])
    (hwhole : ∀ c ∈ whole, isDigit c = true) (hzero : whole.head? = some '0' → whole = ['0'])
    (hfraction_ne : fraction ≠ []) (hfraction : ∀ c ∈ fraction, isDigit c = true)
    (hshort : whole.length ≤ wholeReach) {k : Nat}
    (hdigits : Digits.toNat (whole ++ fraction) = d.digits * 10 ^ k)
    (hexponent : -(fraction.length : Int) = d.exponent - k) :
    Writes ⟨negative, whole, some fraction, none⟩ d where
  wellSpelled :=
    { whole_ne_nil := hwhole_ne
      whole_digits := hwhole
      whole_of_zero := hzero
      fraction_ne_nil := by simpa using hfraction_ne
      fraction_digits := by
        rintro digits ⟨⟩
        exact hfraction }
  isReal := rfl
  short := hshort
  exact := ⟨k, by simp [Numeral.exact, hdigits, ← hexponent]⟩

theorem isDigit_of_mem_zeros {k : Nat} {c : Char} (hc : c ∈ List.replicate k '0') :
    isDigit c = true := by
  rw [List.eq_of_mem_replicate hc]
  rfl

/-- Below one, the digits stand behind a zero, the point and as many zeros as it takes. -/
theorem writes_below_one (negative : Bool) (hneg : e < 0)
    (he : e = d.exponent + (Digits.ofNat d.digits).length - 1) :
    Writes ⟨negative, ['0'],
      some (List.replicate (-e - 1).toNat '0' ++ Digits.ofNat d.digits), none⟩ d := by
  have hvalue : Digits.toNat (['0'] ++ (List.replicate (-e - 1).toNat '0' ++
      Digits.ofNat d.digits)) = d.digits * 10 ^ 0 := by
    rw [show ['0'] = List.replicate 1 '0' from rfl, Digits.toNat_zeros_append,
      Digits.toNat_zeros_append, Digits.toNat_ofNat, pow_zero, Nat.mul_one]
  refine writes_of_point negative (by simp) (by simp [isDigit]) (fun _ => rfl) ?_ ?_ ?_ hvalue ?_
  · simp [Digits.ofNat_ne_nil]
  · intro c hc
    rcases List.mem_append.mp hc with hzero | hmem
    · exact isDigit_of_mem_zeros hzero
    · exact Digits.isDigit_of_mem_ofNat hmem
  · simp [wholeReach]
  · rw [List.length_append, List.length_replicate]
    omega

/-- The digits of a decimal begin with a zero only where it is zero, and that is written `0.0`. -/
theorem eq_zero_of_head? (hd : d.digits = 0 → d = ⟨0, 0⟩)
    (hhead : (Digits.ofNat d.digits).head? = some '0') : d = ⟨0, 0⟩ := by
  apply hd
  by_contra hdigits
  exact Digits.head?_ofNat_ne_zero hdigits hhead

/-- From one on, some digits stand before the point and the others behind it. -/
theorem writes_around_point (negative : Bool) (hd : d.digits = 0 → d = ⟨0, 0⟩) {places : Nat}
    (hpos : 0 < places) (hshort : places ≤ wholeReach)
    (he : (places : Int) = d.exponent + (Digits.ofNat d.digits).length)
    (hlt : places < (Digits.ofNat d.digits).length) :
    Writes ⟨negative, (Digits.ofNat d.digits).take places,
      some ((Digits.ofNat d.digits).drop places), none⟩ d := by
  have hmem : ∀ c ∈ Digits.ofNat d.digits, isDigit c = true :=
    fun c hc => Digits.isDigit_of_mem_ofNat hc
  have hlength : ((Digits.ofNat d.digits).take places).length = places :=
    List.length_take_of_le hlt.le
  have hvalue : Digits.toNat ((Digits.ofNat d.digits).take places ++
      (Digits.ofNat d.digits).drop places) = d.digits * 10 ^ 0 := by
    rw [List.take_append_drop, Digits.toNat_ofNat, pow_zero, Nat.mul_one]
  refine writes_of_point negative ?_ (fun c hc => hmem c (List.mem_of_mem_take hc)) ?_ ?_
    (fun c hc => hmem c (List.mem_of_mem_drop hc)) (hlength.trans_le hshort) hvalue ?_
  · rw [← List.length_pos_iff, hlength]
    exact hpos
  -- Zero has one digit only, so its digits do not reach behind the point.
  · intro hhead
    rw [List.head?_take, if_neg hpos.ne'] at hhead
    rw [eq_zero_of_head? hd hhead] at hlt
    exact absurd (Nat.lt_of_lt_of_le hlt (by decide)) (Nat.not_lt.mpr hpos)
  · simpa using hlt
  · rw [List.length_drop]
    omega

/-- From one on, all digits stand before the point, with the zeros that the exponent asks for. -/
theorem writes_before_point (negative : Bool) (hd : d.digits = 0 → d = ⟨0, 0⟩) {places : Nat}
    (hshort : places ≤ wholeReach)
    (he : (places : Int) = d.exponent + (Digits.ofNat d.digits).length)
    (hge : (Digits.ofNat d.digits).length ≤ places) :
    Writes ⟨negative, Digits.ofNat d.digits ++
      List.replicate (places - (Digits.ofNat d.digits).length) '0', some ['0'], none⟩ d := by
  have hvalue : Digits.toNat ((Digits.ofNat d.digits ++
      List.replicate (places - (Digits.ofNat d.digits).length) '0') ++ ['0']) =
      d.digits * 10 ^ (places - (Digits.ofNat d.digits).length + 1) := by
    rw [List.append_assoc, ← List.replicate_succ', Digits.toNat_append_zeros, Digits.toNat_ofNat]
  refine writes_of_point negative ?_ ?_ ?_ (by simp) (by simp [isDigit]) ?_ hvalue ?_
  · simp [Digits.ofNat_ne_nil]
  · intro c hc
    rcases List.mem_append.mp hc with hmem | hzero
    · exact Digits.isDigit_of_mem_ofNat hmem
    · exact isDigit_of_mem_zeros hzero
  · intro hhead
    have hfirst : (Digits.ofNat d.digits).head? = some '0' := by
      obtain ⟨c, rest, hcons⟩ := List.exists_cons_of_ne_nil (Digits.ofNat_ne_nil d.digits)
      rw [hcons] at hhead ⊢
      exact hhead
    have hdecimal := eq_zero_of_head? hd hfirst
    have hone : places = 1 := by simpa [hdecimal, Digits.ofNat] using he
    simp [hdecimal, hone, Digits.ofNat]
  · rw [List.length_append, List.length_replicate]
    omega
  · rw [List.length_singleton]
    omega

/-- One digit before the point, the others behind it, and an exponent. -/
theorem writes_scientific (negative : Bool) (he : e = d.exponent + (Digits.ofNat d.digits).length - 1)
    {c : Char} {rest : List Char} (hdigits : Digits.ofNat d.digits = c :: rest) :
    Writes ⟨negative, [c], if rest.isEmpty then none else some rest, some e⟩ d := by
  have hmem : ∀ x ∈ c :: rest, isDigit x = true := by
    intro x hx
    rw [← hdigits] at hx
    exact Digits.isDigit_of_mem_ofNat hx
  have hparts : [c] ++ (if rest.isEmpty then none else some rest).getD [] = c :: rest := by
    cases rest <;> rfl
  have hlength : ((if rest.isEmpty then none else some rest).getD []).length = rest.length := by
    cases rest <;> rfl
  refine ⟨⟨by simp, ?_, ?_, ?_, ?_⟩, by simp, by simp [wholeReach], 0, ?_⟩
  · intro x hx
    exact hmem x (by simp [List.mem_singleton.mp hx])
  · simp
  · cases rest <;> simp
  · intro digits hrest x hx
    cases rest with
    | nil => cases hrest
    | cons y rest =>
        cases hrest
        exact hmem x (List.mem_cons_of_mem _ hx)
  · rw [hdigits, List.length_cons] at he
    simp only [Numeral.exact, hparts, hlength, ← hdigits, Digits.toNat_ofNat, Option.getD_some,
      pow_zero, Nat.mul_one, ScaledDecimal.mk.injEq, true_and]
    push_cast at he ⊢
    omega

/-- **What is written of a decimal** is a numeral of its value. -/
theorem exists_writes (negative : Bool) (hd : d.digits = 0 → d = ⟨0, 0⟩) :
    ∃ m : Numeral, m.Writes d ∧ m.negative = negative ∧ m.spellUnsigned = double.write d := by
  obtain ⟨e, he⟩ : ∃ e, e = d.exponent + (Digits.ofNat d.digits).length - 1 := ⟨_, rfl⟩
  by_cases hrange : double.least ≤ e ∧ e ≤ double.greatest
  · have hwrite : double.write d = positional (Digits.ofNat d.digits) e := by
      simp only [write, ← he, if_pos hrange]
    by_cases hneg : e < 0
    · refine ⟨_, writes_below_one negative hneg he, rfl, ?_⟩
      simp [hwrite, positional, hneg, spellUnsigned, fractionChars, exponentChars]
    · have hgreatest : e ≤ 15 := hrange.2
      have hplaces : 0 < e.toNat + 1 := Nat.succ_pos _
      have hreach : e.toNat + 1 ≤ wholeReach := by
        simp only [wholeReach]
        omega
      have hshift : ((e.toNat + 1 : Nat) : Int) = d.exponent + (Digits.ofNat d.digits).length := by
        omega
      by_cases hlt : e.toNat + 1 < (Digits.ofNat d.digits).length
      · have hnone : e.toNat + 1 - (Digits.ofNat d.digits).length = 0 := by omega
        refine ⟨_, writes_around_point negative hd hplaces hreach hshift hlt, rfl, ?_⟩
        simp [hwrite, positional, hneg, spellUnsigned, fractionChars, exponentChars, hnone, hlt]
      · have hge : (Digits.ofNat d.digits).length ≤ e.toNat + 1 := Nat.le_of_not_lt hlt
        refine ⟨_, writes_before_point negative hd hreach hshift hge, rfl, ?_⟩
        simp [hwrite, positional, hneg, spellUnsigned, fractionChars, exponentChars, hge,
          List.take_of_length_le hge]
  · have hwrite : double.write d = scientific (Digits.ofNat d.digits) e := by
      simp only [write, ← he, if_neg hrange]
    obtain ⟨c, rest, hdigits⟩ := List.exists_cons_of_ne_nil (Digits.ofNat_ne_nil d.digits)
    refine ⟨_, writes_scientific negative he hdigits, rfl, ?_⟩
    rw [hwrite, hdigits]
    cases rest with
    | nil => simp [scientific, spellUnsigned, fractionChars, exponentChars]
    | cons x rest => simp [scientific, spellUnsigned, fractionChars, exponentChars]

end DecimalLayout

/-! ## §3  Numbers -/

namespace Json

theorem Numeral.Writes.double? {m : Numeral} {d : ScaledDecimal} (h : m.Writes d) {x : Double}
    (hrank : d.nearestRank .double = x.rank) (hnegative : m.negative = x.negative) :
    m.number? = some (.double x) := by
  obtain ⟨k, hexact⟩ := h.exact
  have hmagnitude : m.magnitude = ⟨d.digits * 10 ^ k, d.exponent - k⟩ := by
    rw [Numeral.magnitude, if_pos h.short, hexact]
  have hnearest : m.magnitude.nearest? .double m.negative = some x := by
    rw [ScaledDecimal.nearest?_eq BinaryFormat.double_proper, hmagnitude,
      ScaledDecimal.nearestRank_shift, hrank, hnegative]
    exact dif_pos x.bounded
  rw [Numeral.number?, if_pos h.isReal, Numeral.double?, hnearest]
  rfl

/-- The sign and the digits of an integer are read as that integer. -/
theorem Numeral.number?_integer (n : Int) (fits : FitsWord n) :
    Numeral.number? ⟨decide (n < 0), Digits.ofNat n.natAbs, none, none⟩ = some (.int n fits) := by
  have hfits : Number.ofInt? n = some (.int n fits) := dif_pos fits
  have hdigits : Digits.toNat (Digits.ofNat n.natAbs) = n.natAbs := Digits.toNat_ofNat _
  unfold Numeral.number?
  by_cases hneg : n < 0
  · have habs : n.natAbs ≠ 0 := by omega
    have hvalue : -(n.natAbs : Int) = n := by omega
    simp only [Option.isSome_none, Bool.or_self, Bool.false_eq_true, if_false, hneg, decide_true,
      if_true, hdigits, habs, hvalue, hfits, Option.some_or]
  · have hvalue : (n.natAbs : Int) = n := by omega
    simp only [Option.isSome_none, Bool.or_self, Bool.false_eq_true, if_false, hneg, decide_false,
      hdigits, hvalue, hfits, Option.some_or]

/-- **What is written of a number** is a numeral that is read as that number. -/
theorem Number.exists_numeral (n : Number) :
    ∃ m : Numeral, m.WellSpelled ∧ n.chars = m.spell ∧ m.number? = some n := by
  cases n with
  | int n fits =>
      refine ⟨⟨decide (n < 0), Digits.ofNat n.natAbs, none, none⟩, ⟨Digits.ofNat_ne_nil _,
        fun c hc => Digits.isDigit_of_mem_ofNat hc, ?_, by simp, by simp⟩, ?_, ?_⟩
      · intro hzero
        have habs : n.natAbs = 0 := by
          by_contra hne
          exact Digits.head?_ofNat_ne_zero hne hzero
        simp [habs, Digits.ofNat]
      · by_cases hneg : n < 0
        · simp [Number.chars, Digits.ofInt, Numeral.spell, Numeral.spellUnsigned,
            Numeral.fractionChars, Numeral.exponentChars, hneg]
        · simp [Number.chars, Digits.ofInt, Numeral.spell, Numeral.spellUnsigned,
            Numeral.fractionChars, Numeral.exponentChars, hneg]
      · exact Numeral.number?_integer n fits
  | double x =>
      have hproper := BinaryFormat.double_proper
      obtain ⟨m, hwrites, hnegative, htext⟩ :=
        DecimalLayout.exists_writes x.negative (x.shortest_digits_eq_zero_iff hproper).mp
      refine ⟨m, hwrites.wellSpelled, ?_,
        hwrites.double? (x.nearestRank_shortest hproper) hnegative⟩
      rw [Number.chars, Finite.chars, Numeral.spell, hnegative, htext]

end Json

end Coproduct
