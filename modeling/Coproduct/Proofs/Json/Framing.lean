import Coproduct.Json.Reader
/-!
# Reading inside other containers

The reader does not look below the container that it is in. With more containers open below, it
does what it does without them, under a bound that leaves out their number, until its value is
complete; then the value goes to the innermost of them (`readOn_append`). So an array is read item
by item, each one by a reader of its own (`readOn_item`). What kind of value comes out in the end
is settled by the outermost container (`readOn_mayGive`).

§1 one token · §2 containers below · §3 the outermost container · §4 items and strings.
-/

namespace Coproduct.Json

variable {limit : Nat} {await : Await} {stack base : List Frame} {token : Token} {r : Reading}
  {v w : Value} {text rest : List Token}

/-! ## §1  One token -/

def Token.scalar? : Token → Option Value
  | .null => some .null
  | .bool b => some (.bool b)
  | .number n => some (.number n)
  | .string s => some (.string s)
  | _ => none

/-- What a token that fits does. -/
inductive Reading.Step (limit : Nat) : Await → List Frame → Token → Reading → Prop where
  | scalar {orEnd stack token v} (h : token.scalar? = some v) :
      Step limit (.value orEnd) stack token (.give v stack)
  | openArray {orEnd stack} (h : stack.length < limit) :
      Step limit (.value orEnd) stack .openArray (.more (.value true) (.array [] :: stack))
  | openObject {orEnd stack} (h : stack.length < limit) :
      Step limit (.value orEnd) stack .openObject (.more (.key [] true) stack)
  | closeEmptyArray {items stack} :
      Step limit (.value true) (.array items :: stack) .closeArray
        (.give (.array items.reverse) stack)
  | readKey {fields orEnd stack s} :
      Step limit (.key fields orEnd) stack (.string s) (.more (.colon fields s) stack)
  | closeEmptyObject {fields stack} :
      Step limit (.key fields true) stack .closeObject (.give (.ofFields fields.reverse) stack)
  | readColon {fields key stack} :
      Step limit (.colon fields key) stack .colon
        (.more (.value false) (.field fields key :: stack))
  | nextItem {items stack} :
      Step limit .separator (.array items :: stack) .comma
        (.more (.value false) (.array items :: stack))
  | nextField {fields key stack} :
      Step limit .separator (.field fields key :: stack) .comma (.more (.key fields false) stack)
  | closeArray {items stack} :
      Step limit .separator (.array items :: stack) .closeArray
        (.give (.array items.reverse) stack)
  | closeObject {fields key stack} :
      Step limit .separator (.field fields key :: stack) .closeObject
        (.give (.ofFields fields.reverse) stack)

namespace Reading

theorem Step.of_value {orEnd : Bool} (h : value limit orEnd stack token = .ok r) :
    Step limit (.value orEnd) stack token r := by
  cases token with
  | null | bool | number | string =>
      cases h
      exact .scalar rfl
  | openArray =>
      simp only [value] at h
      split at h
      · next hlt =>
          cases h
          exact .openArray hlt
      · cases h
  | openObject =>
      simp only [value] at h
      split at h
      · next hlt =>
          cases h
          exact .openObject hlt
      · cases h
  | closeArray =>
      simp only [value] at h
      split at h
      · cases h
        exact .closeEmptyArray
      · cases h
  | broken | closeObject | comma | colon => cases h

theorem Step.of_key {fields : List (String × Value)} {orEnd : Bool}
    (h : key fields orEnd stack token = .ok r) : Step limit (.key fields orEnd) stack token r := by
  cases token with
  | string s =>
      cases h
      exact .readKey
  | broken quoted fault => cases quoted <;> cases h
  | closeObject =>
      cases orEnd with
      | false => cases h
      | true =>
          cases h
          exact .closeEmptyObject
  | _ => cases h

theorem Step.of_separator (h : separator stack token = .ok r) :
    Step limit .separator stack token r := by
  cases token with
  | comma =>
      simp only [separator] at h
      split at h
      · cases h
        exact .nextItem
      · cases h
        exact .nextField
      · cases h
  | closeArray =>
      simp only [separator] at h
      split at h
      · cases h
        exact .closeArray
      · cases h
  | closeObject =>
      simp only [separator] at h
      split at h
      · cases h
        exact .closeObject
      · cases h
  | _ => cases h

theorem Step.of_step (h : step limit await stack token = .ok r) :
    Step limit await stack token r := by
  cases await with
  | value orEnd => exact .of_value h
  | key fields orEnd => exact .of_key h
  | colon fields key =>
      cases token with
      | colon =>
          cases h
          exact .readColon
      | _ => cases h
  | separator => exact .of_separator h

def resume (limit : Nat) (text : List Token) : Reading → Except Fault (Value × List Token)
  | .more await stack => readOn limit await stack text
  | .done v => .ok (v, text)

end Reading

theorem readOn_cons (limit : Nat) (await : Await) (stack : List Frame) (token : Token)
    (rest : List Token) :
    readOn limit await stack (token :: rest) =
      Reading.step limit await stack token >>= fun r => r.resume limit rest := by
  rw [readOn]
  cases Reading.step limit await stack token with
  | error fault => rfl
  | ok r => cases r <;> rfl

/-! ## §2  Containers below -/

/-- The reader with more containers open below: a complete value goes to the innermost of them. -/
def Reading.onto (base : List Frame) : Reading → Reading
  | .more await stack => .more await (stack ++ base)
  | .done v => .give v base

/-- What is awaited concerns a container of the reader's own, not one below. -/
def Await.IsOwn : Await → List Frame → Prop
  | .separator, stack | .value true, stack => stack ≠ []
  | _, _ => True

def Reading.IsOwn : Reading → Prop
  | .more await stack => await.IsOwn stack
  | .done _ => True

namespace Reading

theorem give_append (v : Value) (stack base : List Frame) :
    give v (stack ++ base) = (give v stack).onto base := by
  cases stack with
  | nil => rfl
  | cons frame stack => cases frame <;> rfl

theorem give_isOwn (v : Value) (stack : List Frame) : (give v stack).IsOwn := by
  cases stack with
  | nil => trivial
  | cons frame stack => cases frame <;> simp [give, IsOwn, Await.IsOwn]

theorem Step.isOwn (h : Step limit await stack token r) : r.IsOwn := by
  cases h with
  | scalar | closeEmptyArray | closeEmptyObject | closeArray | closeObject =>
      exact give_isOwn _ _
  | openArray => simp [IsOwn, Await.IsOwn]
  | openObject | readKey | readColon | nextItem | nextField => trivial

theorem value_append {orEnd : Bool} (h : (Await.value orEnd).IsOwn stack) (base : List Frame) :
    value (limit + base.length) orEnd (stack ++ base) token =
      (value limit orEnd stack token).map (onto base) := by
  cases token with
  | null | bool | number | string => exact congrArg Except.ok (give_append _ stack base)
  | openArray | openObject =>
      simp only [value, List.length_append, Nat.add_lt_add_iff_right]
      split <;> rfl
  | closeArray =>
      cases orEnd with
      | false => rfl
      | true =>
          cases stack with
          | nil => exact absurd rfl h
          | cons frame stack =>
              cases frame with
              | array items => exact congrArg Except.ok (give_append _ stack base)
              | field fields key => rfl
  | broken | closeObject | comma | colon => rfl

theorem key_append (fields : List (String × Value)) (orEnd : Bool) (base : List Frame) :
    key fields orEnd (stack ++ base) token = (key fields orEnd stack token).map (onto base) := by
  cases token with
  | broken quoted fault => cases quoted <;> rfl
  | closeObject =>
      cases orEnd with
      | false => rfl
      | true => exact congrArg Except.ok (give_append _ stack base)
  | _ => rfl

theorem separator_append (h : stack ≠ []) (base : List Frame) :
    separator (stack ++ base) token = (separator stack token).map (onto base) := by
  cases stack with
  | nil => exact absurd rfl h
  | cons frame stack =>
      cases token with
      | comma => cases frame <;> rfl
      | closeArray =>
          cases frame with
          | array items => exact congrArg Except.ok (give_append _ stack base)
          | field fields key => rfl
      | closeObject =>
          cases frame with
          | array items => rfl
          | field fields key => exact congrArg Except.ok (give_append _ stack base)
      | _ => rfl

/-- One token does the same with more containers below. -/
theorem step_append (h : await.IsOwn stack) (base : List Frame) :
    step (limit + base.length) await (stack ++ base) token =
      (step limit await stack token).map (onto base) := by
  cases await with
  | value orEnd => exact value_append h base
  | key fields orEnd => exact key_append fields orEnd base
  | colon fields key => cases token <;> rfl
  | separator => exact separator_append h base

end Reading

/-- **Reading inside other containers** is reading without them, and then on with the value. -/
theorem readOn_append (h : await.IsOwn stack) (base : List Frame) (text : List Token) :
    readOn (limit + base.length) await (stack ++ base) text =
      readOn limit await stack text >>= fun (v, rest) =>
        (Reading.give v base).resume (limit + base.length) rest := by
  -- A token leaves the reader at a place of its own again, so `h` carries the induction.
  induction text generalizing await stack with
  | nil => rfl
  | cons token rest ih =>
      rw [readOn_cons, readOn_cons, Reading.step_append h]
      cases hstep : Reading.step limit await stack token with
      | error fault => rfl
      | ok r =>
          have hown := (Reading.Step.of_step hstep).isOwn
          cases r with
          | more await stack => exact ih hown
          | done v => rfl

/-! ## §3  The outermost container -/

/-- The values that the outermost container may turn out to be. -/
def Frame.MayGive (w : Value) : Frame → Prop
  | .array items => ∃ more, w = .array (items.reverse ++ more)
  | .field _ _ => ∃ fields, w = .object fields

/-- The values that may come out where no container is open: keys and colons belong to an object
that is about to be. -/
def Await.MayGive (w : Value) : Await → Prop
  | .key _ _ | .colon _ _ => ∃ fields, w = .object fields
  | .value _ | .separator => True

/-- The values that may still come out. -/
def Reading.MayGive (w : Value) : Reading → Prop
  | .done v => w = v
  | .more await stack =>
    match stack.getLast? with
    | some frame => frame.MayGive w
    | none => await.MayGive w

namespace Reading

variable {frame frame' : Frame}

theorem mayGive_cons_cons (await await' : Await) :
    (more await (frame :: frame' :: stack)).MayGive w ↔
      (more await' (frame' :: stack)).MayGive w := by
  simp only [MayGive, List.getLast?_cons, Option.getD_some]

theorem mayGive_of_give (await : Await) (h : (give v (frame :: stack)).MayGive w) :
    (more await (frame :: stack)).MayGive w := by
  cases stack with
  | nil =>
      cases frame with
      | array items =>
          obtain ⟨more, rfl⟩ := h
          exact ⟨v :: more, by simp⟩
      | field fields key => exact h
  | cons frame' stack =>
      rw [mayGive_cons_cons await .separator]
      cases frame with
      | array items => exact (mayGive_cons_cons _ _).mp h
      | field fields key => exact (mayGive_cons_cons _ _).mp h

theorem Step.mayGive (h : Step limit await stack token r) (hr : r.MayGive w) :
    (more await stack).MayGive w := by
  -- Only a token that opens or closes the outermost container changes what is at the bottom.
  cases h with
  | scalar =>
      cases stack with
      | nil => trivial
      | cons frame stack => exact mayGive_of_give _ hr
  | openArray =>
      cases stack with
      | nil => trivial
      | cons frame stack => exact (mayGive_cons_cons _ _).mp hr
  | openObject =>
      cases stack with
      | nil => trivial
      | cons frame stack => exact hr
  | readKey =>
      cases stack with
      | nil => exact hr
      | cons frame stack => exact hr
  | @closeEmptyObject fields =>
      cases stack with
      | nil => exact ⟨_, hr⟩
      | cons frame stack => exact mayGive_of_give _ hr
  | readColon =>
      cases stack with
      | nil => exact hr
      | cons frame stack => exact (mayGive_cons_cons _ _).mp hr
  | nextItem => exact hr
  | @nextField fields key stack =>
      cases stack with
      | nil => exact hr
      | cons frame stack => exact (mayGive_cons_cons _ _).mpr hr
  | @closeEmptyArray items stack | @closeArray items stack =>
      cases stack with
      | nil => exact ⟨[], by rw [List.append_nil]; exact hr⟩
      | cons frame stack => exact (mayGive_cons_cons _ .separator).mpr (mayGive_of_give _ hr)
  | @closeObject fields key stack =>
      cases stack with
      | nil => exact ⟨_, hr⟩
      | cons frame stack => exact (mayGive_cons_cons _ .separator).mpr (mayGive_of_give _ hr)

end Reading

/-- **The outermost container** settles what comes out. -/
theorem readOn_mayGive (h : readOn limit await stack text = .ok (w, rest)) :
    (Reading.more await stack).MayGive w := by
  induction text generalizing await stack with
  | nil => cases h
  | cons token text ih =>
      rw [readOn_cons] at h
      cases hstep : Reading.step limit await stack token with
      | error fault =>
          rw [hstep] at h
          cases h
      | ok r =>
          rw [hstep] at h
          apply (Reading.Step.of_step hstep).mayGive
          cases r with
          | more await stack => exact ih h
          | done v =>
              cases h
              rfl

/-! ## §4  Items -/

/-- The first token of a value tells what kind of value it is. -/
theorem readValue_cons_cases (h : readValue limit (token :: text) = .ok (w, rest)) :
    (token.scalar? = some w ∧ rest = text) ∨ (token = .openArray ∧ ∃ items, w = .array items) ∨
      (token = .openObject ∧ ∃ fields, w = .object fields) := by
  rw [readValue, readOn_cons] at h
  cases hstep : Reading.step limit (.value false) [] token with
  | error fault =>
      rw [hstep] at h
      cases h
  | ok r =>
      rw [hstep] at h
      cases Reading.Step.of_step hstep with
      | scalar hscalar =>
          cases h
          exact .inl ⟨hscalar, rfl⟩
      | openArray => exact .inr (.inl ⟨rfl, readOn_mayGive h⟩)
      | openObject => exact .inr (.inr ⟨rfl, readOn_mayGive h⟩)

theorem readOn_item (limit : Nat) (items : List Value) (text : List Token) :
    readOn (limit + 1) (.value false) [.array items] text =
      readValue limit text >>= fun (v, rest) =>
        readOn (limit + 1) .separator [.array (v :: items)] rest := by
  have hown : (Await.value false).IsOwn [] := trivial
  exact readOn_append hown [.array items] text

theorem readValue_openArray (limit : Nat) (h : token ≠ .closeArray) :
    readValue (limit + 1) (.openArray :: token :: text) =
      readValue limit (token :: text) >>= fun (v, rest) =>
        readOn (limit + 1) .separator [.array [v]] rest := by
  rw [← readOn_item]
  show readOn (limit + 1) (.value true) [.array []] (token :: text) = _
  rw [readOn_cons, readOn_cons]
  cases token with
  | closeArray => exact absurd rfl h
  | _ => rfl

/-- Behind an item the array ends, or another item follows. -/
theorem readOn_separator_eq_ok_iff {items : List Value} :
    readOn (limit + 1) .separator [.array items] text = .ok (w, rest) ↔
      (text = .closeArray :: rest ∧ w = .array items.reverse) ∨
        ∃ behind v behind', text = .comma :: behind ∧ readValue limit behind = .ok (v, behind') ∧
          readOn (limit + 1) .separator [.array (v :: items)] behind' = .ok (w, rest) := by
  cases text with
  | nil =>
      refine iff_of_false (fun h => nomatch h) ?_
      rintro (⟨h, -⟩ | ⟨behind, v, behind', h, -⟩)
      · cases h
      · cases h
  | cons token text =>
      cases token with
      | closeArray =>
          constructor
          · intro h
            cases h
            exact .inl ⟨rfl, rfl⟩
          · rintro (⟨h, rfl⟩ | ⟨behind, v, behind', h, -⟩)
            · cases h
              rfl
            · cases h
      | comma =>
          show readOn (limit + 1) (.value false) [.array items] text = _ ↔ _
          rw [readOn_item]
          constructor
          · intro h
            cases hread : readValue limit text with
            | error fault =>
                rw [hread] at h
                cases h
            | ok result =>
                rw [hread] at h
                exact .inr ⟨text, result.1, result.2, rfl, hread, h⟩
          · rintro (⟨h, -⟩ | ⟨behind, v, behind', h, hread, hrest⟩)
            · cases h
            · cases h
              rw [hread]
              exact hrest
      | _ =>
          refine iff_of_false (fun h => nomatch h) ?_
          rintro (⟨h, -⟩ | ⟨behind, v, behind', h, -⟩)
          · cases h
          · cases h

theorem readValue_string (limit : Nat) (s : String) (text : List Token) :
    readValue limit (.string s :: text) = .ok (.string s, text) := rfl

theorem readValue_eq_ok_string_iff {s : String} :
    readValue limit text = .ok (.string s, rest) ↔ text = .string s :: rest := by
  constructor
  · intro h
    cases text with
    | nil => cases h
    | cons token text =>
        rcases readValue_cons_cases h with ⟨hscalar, rfl⟩ | ⟨-, items, hw⟩ | ⟨-, fields, hw⟩
        · cases token <;> cases hscalar
          rfl
        · cases hw
        · cases hw
  · rintro rfl
    rfl

/-- What was read of an array so far is at the front of it. -/
theorem isPrefix_of_readOn {items items' : List Value}
    (h : readOn limit await [.array items] text = .ok (.array items', rest)) :
    items.reverse <+: items' := by
  obtain ⟨more, hmore⟩ := readOn_mayGive h
  cases hmore
  exact List.prefix_append _ _

/-- Behind the first of two items come a comma, the second item and the end of the array. -/
theorem readOn_eq_ok_two_iff {x : Value} :
    readOn (limit + 1) .separator [.array [x]] text = .ok (.array [x, v], rest) ↔
      ∃ behind, text = .comma :: behind ∧ readValue limit behind = .ok (v, .closeArray :: rest) := by
  rw [readOn_separator_eq_ok_iff]
  constructor
  · rintro (⟨-, hw⟩ | ⟨behind, y, behind', rfl, hread, h⟩)
    · simp at hw
    · obtain rfl : y = v := by simpa using isPrefix_of_readOn h
      refine ⟨behind, rfl, ?_⟩
      rcases readOn_separator_eq_ok_iff.mp h with ⟨rfl, -⟩ | ⟨behind, z, behind', rfl, -, h⟩
      · exact hread
      -- A third item would be in the array as well.
      · have hlength := (isPrefix_of_readOn h).length_le
        simp at hlength
  · rintro ⟨behind, rfl, hread⟩
    refine .inr ⟨behind, v, .closeArray :: rest, rfl, hread, ?_⟩
    exact readOn_separator_eq_ok_iff.mpr (.inl ⟨rfl, rfl⟩)

/-- **An array of a string and one more item**, token by token. -/
theorem readValue_eq_ok_two_iff {s : String} :
    readValue (limit + 1) text = .ok (.array [.string s, v], rest) ↔
      ∃ behind, text = .openArray :: .string s :: .comma :: behind ∧
        readValue limit behind = .ok (v, .closeArray :: rest) := by
  constructor
  · intro h
    obtain ⟨text, rfl⟩ : ∃ behind, text = .openArray :: behind := by
      cases text with
      | nil => cases h
      | cons token text =>
          rcases readValue_cons_cases h with ⟨hscalar, -⟩ | ⟨rfl, -⟩ | ⟨-, fields, hw⟩
          · cases token <;> cases hscalar
          · exact ⟨text, rfl⟩
          · cases hw
    cases text with
    | nil => simp [readValue, readOn, Reading.step, Reading.value] at h
    | cons token text =>
        by_cases htoken : token = .closeArray
        · subst htoken
          simp [readValue, readOn, Reading.step, Reading.value, Reading.give] at h
        · rw [readValue_openArray limit htoken] at h
          cases hfirst : readValue limit (token :: text) with
          | error fault =>
              rw [hfirst] at h
              cases h
          | ok result =>
              obtain ⟨x, behind⟩ := result
              rw [hfirst] at h
              obtain rfl : x = .string s := by simpa using isPrefix_of_readOn h
              obtain ⟨behind, rfl, hread⟩ := readOn_eq_ok_two_iff.mp h
              exact ⟨behind, by rw [readValue_eq_ok_string_iff.mp hfirst], hread⟩
  · rintro ⟨behind, rfl, hread⟩
    rw [readValue_openArray limit (by simp), readValue_string]
    exact readOn_eq_ok_two_iff.mpr ⟨behind, rfl, hread⟩

end Coproduct.Json
