import Coproduct.Json.Compact
import Coproduct.Proofs.Json.Numeral
/-!
# The tokens of a compact text

The machine cuts the compact text of a value into the tokens that one expects (`lex_value`): strings
lose their escapes again, and a numeral ends where a comma, a closing bracket or the end of the text
follows it, which is what follows a value in a compact text.

§1 numerals · §2 strings · §3 values.
-/

namespace Coproduct.Json

variable {rest : List Char}

/-! ## §1  Numerals -/

namespace NumeralPlace

/-- The place behind some more characters that all belong to the numeral. -/
def run (place : NumeralPlace) : List Char → Option NumeralPlace
  | [] => some place
  | c :: text =>
    match place.next c with
    | .to place => run place text
    | .finish | .reject => none

theorem run_append {place place' : NumeralPlace} {text : List Char}
    (h : place.run text = some place') (more : List Char) :
    place.run (text ++ more) = place'.run more := by
  induction text generalizing place with
  | nil =>
      cases h
      rfl
  | cons c text ih =>
      simp only [run] at h
      rw [List.cons_append, run]
      split at h
      · exact ih h
      · cases h
      · cases h

/-- The places among digits. -/
def AmongDigits (place : NumeralPlace) : Prop :=
  ∀ c, isDigit c = true → place.next c = .to place

theorem amongDigits_whole : AmongDigits .whole := fun c hc => by simp [next, hc]

theorem amongDigits_fraction : AmongDigits .fraction := fun c hc => by simp [next, hc]

theorem amongDigits_exponent : AmongDigits .exponent := fun c hc => by simp [next, hc]

theorem AmongDigits.run_digits {place : NumeralPlace} (h : place.AmongDigits) {digits : List Char}
    (hdigits : ∀ c ∈ digits, isDigit c = true) : place.run digits = some place := by
  induction digits with
  | nil => rfl
  | cons c digits ih =>
      obtain ⟨hc, hrest⟩ := List.forall_mem_cons.mp hdigits
      rw [run, h c hc]
      exact ih hrest

theorem run_whole {digits : List Char} (hne : digits ≠ [])
    (hdigits : ∀ c ∈ digits, isDigit c = true)
    (hzero : digits.head? = some '0' → digits = ['0']) :
    sign.run digits = some .zero ∨ sign.run digits = some .whole := by
  obtain ⟨c, rest, rfl⟩ := List.exists_cons_of_ne_nil hne
  obtain ⟨hc, hrest⟩ := List.forall_mem_cons.mp hdigits
  by_cases hfirst : c = '0'
  · subst hfirst
    rw [hzero rfl]
    exact .inl rfl
  · right
    have hnext : sign.next c = .to .whole := by simp [next, hfirst, hc]
    rw [run, hnext]
    exact amongDigits_whole.run_digits hrest

theorem run_fraction {place : NumeralPlace} (hplace : place = .zero ∨ place = .whole)
    {digits : List Char} (hne : digits ≠ []) (hdigits : ∀ c ∈ digits, isDigit c = true) :
    place.run ('.' :: digits) = some .fraction := by
  obtain ⟨c, rest, rfl⟩ := List.exists_cons_of_ne_nil hne
  obtain ⟨hc, hrest⟩ := List.forall_mem_cons.mp hdigits
  have hpoint : place.next '.' = .to .point := by
    rcases hplace with rfl | rfl <;> rfl
  have hnext : point.next c = .to .fraction := by simp [next, hc]
  rw [run, hpoint]
  simp only
  rw [run, hnext]
  exact amongDigits_fraction.run_digits hrest

theorem run_exponent {place : NumeralPlace}
    (hplace : place = .zero ∨ place = .whole ∨ place = .fraction) (e : Int) :
    place.run (Numeral.exponentChars (some e)) = some .exponent := by
  have hmark : place.next 'e' = .to .mark := by
    rcases hplace with rfl | rfl | rfl <;> rfl
  have hsign : mark.next (if e < 0 then '-' else '+') = .to .markSign := by
    split <;> rfl
  obtain ⟨c, rest, hdigits⟩ := List.exists_cons_of_ne_nil (Digits.ofNat_ne_nil e.natAbs)
  have hmem : ∀ x ∈ c :: rest, isDigit x = true := by
    intro x hx
    rw [← hdigits] at hx
    exact Digits.isDigit_of_mem_ofNat hx
  obtain ⟨hc, hrest⟩ := List.forall_mem_cons.mp hmem
  have hnext : markSign.next c = .to .exponent := by simp [next, hc]
  rw [Numeral.exponentChars, hdigits, run, hmark]
  simp only
  rw [run, hsign]
  simp only
  rw [run, hnext]
  exact amongDigits_exponent.run_digits hrest

/-- **The grammar takes a numeral** whose parts fit it, up to a place where it may end. -/
theorem run_spellUnsigned {m : Numeral} (h : m.WellSpelled) :
    ∃ place : NumeralPlace, sign.run m.spellUnsigned = some place ∧ place.final = true := by
  obtain ⟨place, hwhole, hplace⟩ : ∃ place, sign.run m.whole = some place ∧
      (place = .zero ∨ place = .whole) := by
    rcases run_whole h.whole_ne_nil h.whole_digits h.whole_of_zero with hzero | hwhole
    · exact ⟨_, hzero, .inl rfl⟩
    · exact ⟨_, hwhole, .inr rfl⟩
  obtain ⟨place', hfraction, hplace'⟩ : ∃ place', place.run (Numeral.fractionChars m.fraction) =
      some place' ∧ (place' = .zero ∨ place' = .whole ∨ place' = .fraction) := by
    cases hm : m.fraction with
    | none => exact ⟨place, rfl, by tauto⟩
    | some digits =>
        have hne : digits ≠ [] := by
          rintro rfl
          exact h.fraction_ne_nil hm
        exact ⟨_, run_fraction hplace hne (h.fraction_digits digits hm), by tauto⟩
  rw [Numeral.spellUnsigned, run_append hwhole, run_append hfraction]
  cases m.exponent with
  | none =>
      refine ⟨place', rfl, ?_⟩
      rcases hplace' with rfl | rfl | rfl <;> rfl
  | some e => exact ⟨_, run_exponent hplace' e, rfl⟩

end NumeralPlace

theorem lex_run {place place' : NumeralPlace} {text : List Char} (h : place.run text = some place')
    (read : List Char) :
    lex (.numeral place read) (text ++ rest) = lex (.numeral place' (text.reverse ++ read)) rest := by
  induction text generalizing place read with
  | nil =>
      cases h
      rfl
  | cons c text ih =>
      simp only [NumeralPlace.run] at h
      split at h
      · next hnext =>
          rw [List.cons_append, lex, Mode.step, hnext, List.nil_append, ih h]
          simp
      · cases h
      · cases h

/-- What follows a value in a compact text: the end, a comma, or a closing bracket. -/
def AtBreak (rest : List Char) : Prop :=
  ∀ c ∈ rest.head?, c = ',' ∨ c = ']' ∨ c = '\x7d'

theorem lex_final {place : NumeralPlace} (hplace : place.final = true) {read : List Char}
    {n : Number} (hread : Token.ofNumeral read.reverse = .number n) (hrest : AtBreak rest) :
    lex (.numeral place read) rest = .number n :: lex .idle rest := by
  cases rest with
  | nil => simp [lex, Mode.finish, hplace, hread]
  | cons c rest =>
      have hfinish : place.next c = .finish := by
        cases place with
        | zero | whole | fraction | exponent => rcases hrest c rfl with rfl | rfl | rfl <;> rfl
        | sign | point | mark | markSign => cases hplace
      simp only [lex, Mode.step, hfinish, hread, List.cons_append]

theorem start_of_isDigit {c : Char} (hc : isDigit c = true) {place : NumeralPlace}
    (hplace : NumeralPlace.sign.next c = .to place) :
    Mode.start c = ([], .numeral place [c]) := by
  by_cases hzero : c = '0'
  · subst hzero
    cases hplace
    rfl
  · simp only [NumeralPlace.next, if_neg hzero, if_pos hc] at hplace
    cases hplace
    have hne : ∀ d, isDigit d = false → c ≠ d := by
      rintro d hd rfl
      cases hc.symm.trans hd
    have hblank : isBlank c = false := by
      simp [isBlank, hne ' ' rfl, hne '\t' rfl, hne '\n' rfl, hne '\r' rfl]
    simp [Mode.start, hblank, hne '[' rfl, hne ']' rfl, hne '\x7b' rfl, hne '\x7d' rfl,
      hne ',' rfl, hne ':' rfl, hne '"' rfl, hne '-' rfl, hzero, hc]

/-- **A written number** is one token. -/
theorem lex_number (n : Number) (hrest : AtBreak rest) :
    lex .idle (n.chars ++ rest) = .number n :: lex .idle rest := by
  obtain ⟨m, hm, htext, hn⟩ := n.exists_numeral
  obtain ⟨place, hrun, hfinal⟩ := NumeralPlace.run_spellUnsigned hm
  have htoken : Token.ofNumeral m.spell = .number n := by
    simp only [Token.ofNumeral, Numeral.ofChars_spell hm, hn]
  rw [htext]
  cases hnegative : m.negative with
  | true =>
      have hspell : m.spell = '-' :: m.spellUnsigned := by simp [Numeral.spell, hnegative]
      rw [hspell, List.cons_append, lex]
      show lex (.numeral .sign ['-']) (m.spellUnsigned ++ rest) = _
      rw [lex_run hrun]
      exact lex_final hfinal (by simpa [hspell] using htoken) hrest
  | false =>
      -- Without a sign the numeral begins in the place behind its first digit.
      have hspell : m.spell = m.spellUnsigned := by simp [Numeral.spell, hnegative]
      obtain ⟨c, digits, hcons, hc⟩ := hm.exists_cons
      obtain ⟨first, hfirst⟩ : ∃ first, NumeralPlace.sign.next c = .to first := by
        rw [hcons, NumeralPlace.run] at hrun
        split at hrun
        · next first hfirst => exact ⟨first, hfirst⟩
        · cases hrun
        · cases hrun
      rw [hcons, NumeralPlace.run, hfirst] at hrun
      rw [hspell, hcons, List.cons_append, lex, Mode.step, start_of_isDigit hc hfirst,
        List.nil_append, lex_run hrun]
      exact lex_final hfinal (by simpa [hspell, hcons] using htoken) hrest

/-! ## §2  Strings -/

namespace StringPlace

/-- The one character that some characters of a string stand for. -/
def read? (place : StringPlace) : List Char → Option Char
  | [] => none
  | c :: text =>
    match place.next c with
    | .to place => read? place text
    | .add d => if text.isEmpty then some d else none
    | .close | .reject => none

/-- A control character is read back from the four digits of its code unit. -/
theorem read?_fourDigits :
    ∀ n : Fin 0x20, plain.read? ('\\' :: 'u' :: Compact.fourDigits n) = some (Char.ofNat n) := by
  decide +kernel

/-- **An escape** stands for the character that it was written for. -/
theorem read?_char (c : Char) : plain.read? (Compact.char c) = some c := by
  unfold Compact.char
  split
  · next h => rw [h]; rfl
  split
  · next h => rw [h]; rfl
  split
  · next h => rw [h]; rfl
  split
  · next h => rw [h]; rfl
  split
  · next h => rw [h]; rfl
  split
  · next h => rw [h]; rfl
  split
  · next h => rw [h]; rfl
  next hquote hbackslash _ _ _ _ _ =>
  split
  · next hcontrol =>
    have hdigits := read?_fourDigits ⟨c.toNat, hcontrol⟩
    rwa [Char.ofNat_toNat] at hdigits
  · next hcontrol => simp [read?, next, hquote, hbackslash, hcontrol]

end StringPlace

theorem lex_of_read? {place : StringPlace} {text : List Char} {d : Char}
    (h : place.read? text = some d) (read : List Char) :
    lex (.string place read) (text ++ rest) = lex (.string .plain (d :: read)) rest := by
  induction text generalizing place with
  | nil => cases h
  | cons c text ih =>
      cases hnext : place.next c with
      | «to» place' =>
          simp only [StringPlace.read?, hnext] at h
          simp only [List.cons_append, lex, Mode.step, hnext, List.nil_append]
          exact ih h
      | add d' =>
          simp only [StringPlace.read?, hnext] at h
          split at h
          · next hempty =>
              obtain rfl := List.isEmpty_iff.mp hempty
              cases h
              simp only [List.cons_append, lex, Mode.step, hnext, List.nil_append]
          · cases h
      | close | reject =>
          simp only [StringPlace.read?, hnext] at h
          cases h

theorem lex_flatMap_char (text read : List Char) :
    lex (.string .plain read) (text.flatMap Compact.char ++ rest) =
      lex (.string .plain (text.reverse ++ read)) rest := by
  induction text generalizing read with
  | nil => rfl
  | cons c text ih =>
      rw [List.flatMap_cons, List.append_assoc, lex_of_read? (StringPlace.read?_char c), ih]
      simp

/-- **A written string** is one token, whatever its characters are. -/
theorem lex_string (s : String) :
    lex .idle (Compact.string s ++ rest) = .string s :: lex .idle rest := by
  have hopen : lex .idle (Compact.string s ++ rest) =
      lex (.string .plain []) (s.toList.flatMap Compact.char ++ ('"' :: rest)) := by
    rw [Compact.string, List.cons_append, List.append_assoc]
    rfl
  have hclose : ∀ read, lex (.string .plain read) ('"' :: rest) =
      .string (String.ofList read.reverse) :: lex .idle rest := fun _ => rfl
  rw [hopen, lex_flatMap_char, hclose]
  simp

/-! ## §3  Values -/

mutual

def Value.toTokens : Value → List Token
  | .null => [.null]
  | .bool b => [.bool b]
  | .number n => [.number n]
  | .string s => [.string s]
  | .array items => .openArray :: (itemTokens items ++ [.closeArray])
  | .object fields => .openObject :: (fieldTokens fields ++ [.closeObject])

def Value.itemTokens : List Value → List Token
  | [] => []
  | v :: rest => v.toTokens ++ Value.otherItemTokens rest

def Value.otherItemTokens : List Value → List Token
  | [] => []
  | v :: rest => .comma :: (v.toTokens ++ Value.otherItemTokens rest)

def Value.fieldTokens : List (String × Value) → List Token
  | [] => []
  | (k, v) :: rest => .string k :: .colon :: (v.toTokens ++ Value.otherFieldTokens rest)

def Value.otherFieldTokens : List (String × Value) → List Token
  | [] => []
  | (k, v) :: rest => .comma :: .string k :: .colon :: (v.toTokens ++ Value.otherFieldTokens rest)

end

/-- A character that is a token by itself. -/
theorem lex_of_start (c : Char) (token : Token) (h : Mode.start c = ([token], .idle)) :
    lex .idle (c :: rest) = token :: lex .idle rest := by
  rw [lex, Mode.step, h]
  rfl

theorem atBreak_cons {c : Char} (h : c = ',' ∨ c = ']' ∨ c = '\x7d') : AtBreak (c :: rest) := by
  intro d hd
  cases hd
  exact h

theorem atBreak_others (items : List Value) :
    AtBreak (Compact.others items ++ ']' :: rest) := by
  cases items with
  | nil => exact atBreak_cons (.inr (.inl rfl))
  | cons v items => exact atBreak_cons (.inl rfl)

theorem atBreak_otherFields (fields : List (String × Value)) :
    AtBreak (Compact.otherFields fields ++ '\x7d' :: rest) := by
  cases fields with
  | nil => exact atBreak_cons (.inr (.inr rfl))
  | cons field fields => exact atBreak_cons (.inl rfl)

mutual

/-- **A written value** has the tokens that it should have. -/
theorem lex_value {rest : List Char} (hrest : AtBreak rest) :
    ∀ v : Value, lex .idle (Compact.value v ++ rest) = v.toTokens ++ lex .idle rest
  | .null => rfl
  | .bool true => rfl
  | .bool false => rfl
  | .number n => lex_number n hrest
  | .string s => lex_string s
  | .array [] => rfl
  | .array (v :: items) => by
      rw [Compact.value, Compact.first, Value.toTokens, Value.itemTokens]
      simp only [List.cons_append, List.append_assoc, List.nil_append]
      rw [lex_of_start '[' .openArray rfl, lex_value (atBreak_others items) v, lex_others items,
        lex_of_start ']' .closeArray rfl]
  | .object [] => rfl
  | .object ((k, v) :: fields) => by
      rw [Compact.value, Compact.firstField, Value.toTokens, Value.fieldTokens]
      simp only [List.cons_append, List.append_assoc, List.nil_append]
      rw [lex_of_start '\x7b' .openObject rfl, lex_string, lex_of_start ':' .colon rfl,
        lex_value (atBreak_otherFields fields) v, lex_otherFields fields,
        lex_of_start '\x7d' .closeObject rfl]

theorem lex_others {rest : List Char} :
    ∀ items : List Value, lex .idle (Compact.others items ++ ']' :: rest) =
      Value.otherItemTokens items ++ lex .idle (']' :: rest)
  | [] => rfl
  | v :: items => by
      rw [Compact.others, Value.otherItemTokens]
      simp only [List.cons_append, List.append_assoc]
      rw [lex_of_start ',' .comma rfl, lex_value (atBreak_others items) v, lex_others items]

theorem lex_otherFields {rest : List Char} :
    ∀ fields : List (String × Value), lex .idle (Compact.otherFields fields ++ '\x7d' :: rest) =
      Value.otherFieldTokens fields ++ lex .idle ('\x7d' :: rest)
  | [] => rfl
  | (k, v) :: fields => by
      rw [Compact.otherFields, Value.otherFieldTokens]
      simp only [List.cons_append, List.append_assoc]
      rw [lex_of_start ',' .comma rfl, lex_string, lex_of_start ':' .colon rfl,
        lex_value (atBreak_otherFields fields) v, lex_otherFields fields]

end

/-- The tokens of the compact text of a value. -/
theorem tokens_text (v : Value) : tokens v.text = v.toTokens := by
  have hend : AtBreak [] := fun c hc => nomatch hc
  rw [tokens, Value.text, String.toList_ofList, ← List.append_nil (Compact.value v),
    lex_value hend v]
  exact List.append_nil v.toTokens

end Coproduct.Json
