import Coproduct.Proofs.Decoding.Pair
import Coproduct.Proofs.Matching.Dispatch
import Mathlib.Logic.Relation
/-!
# The levels of matching

A member may hold a member of another sum type, and that one another. Matching goes down through
them, one level for each matcher that an arm hands its payload to, until it ends at one of them: an
arm answers, the wildcard answers, the payload is not what the arm decodes, or there is nothing for
the tag. What comes out at the top is what comes of that level (`MatchLevel.Reaches.result_eq`),
and what comes of it is named after its own sum type and tag (`MatchLevel.Ends.result_eq`). So an
error says where it arose, and errors arise in no other way (`errors_name_their_level`).

§1 levels · §2 the way down · §3 how matching ends · §4 answers and errors.
-/

namespace Coproduct

open Json (Value)

variable {β : Type}

/-! ## §1  Levels -/

/-- A matcher and the member that has come to it. -/
structure MatchLevel (β : Type) where
  matcher : Matcher β
  member : Member

/-- How matching ends: with the answer of an arm, with that of the wildcard, with a payload that
does not decode, or with nothing. -/
inductive Ending (β : Type) where
  | answered (answer : Logged β)
  | fellBack (answer : Logged β)
  | refused (cause : DecodeError)
  | unmatched

namespace MatchLevel

def sum (l : MatchLevel β) : String := l.matcher.sum.name

def name (l : MatchLevel β) : String := l.member.tag.name

def arm? (l : MatchLevel β) : Option (Arm β) := l.matcher.table.arm? l.name

def wildcard? (l : MatchLevel β) : Option (Logged β) := l.matcher.table.wildcard

def result (l : MatchLevel β) : Logged (Except SumError β) := l.matcher.apply l.member

/-- One level further down: the arm hands the payload to a matcher, and the payload decodes as a
member for it. -/
def Down (l l' : MatchLevel β) : Prop :=
  l.arm? = some (.onMember l'.matcher) ∧
    (Codec.member l'.matcher.sum).decode l.member.payload = .ok l'.member

/-- The levels that matching comes to from a level on, itself included. -/
abbrev Reaches : MatchLevel β → MatchLevel β → Prop := Relation.ReflTransGen Down

/-- Matching goes no further down than a level, and ends there: the arm reads the payload, or
decodes it as a value of some type, or cannot; or there is no arm. -/
inductive Ends (l : MatchLevel β) : Ending β → Prop where
  | plain {handler : Value → Logged β} (harm : l.arm? = some (.plain handler)) :
      Ends l (.answered (handler l.member.payload))
  | typed {α : Type} {codec : Codec α} {handler : α → Logged β} {x : α}
      (harm : l.arm? = some (.onAs codec handler))
      (hdecode : codec.decode l.member.payload = .ok x) : Ends l (.answered (handler x))
  | wildcard {answer : Logged β} (harm : l.arm? = none) (hwildcard : l.wildcard? = some answer) :
      Ends l (.fellBack answer)
  | illTyped {α : Type} {codec : Codec α} {handler : α → Logged β} {cause : DecodeError}
      (harm : l.arm? = some (.onAs codec handler))
      (hdecode : codec.decode l.member.payload = .error cause) : Ends l (.refused cause)
  | noMember {inner : Matcher β} {cause : DecodeError} (harm : l.arm? = some (.onMember inner))
      (hdecode : (Codec.member inner.sum).decode l.member.payload = .error cause) :
      Ends l (.refused cause)
  | nothing (harm : l.arm? = none) (hwildcard : l.wildcard? = none) : Ends l .unmatched

end MatchLevel

def Ending.result (l : MatchLevel β) : Ending β → Logged (Except SumError β)
  | .answered answer => ⟨.ok answer.value, answer.events⟩
  | .fellBack answer => ⟨.ok answer.value, .wildcardUsed l.sum l.name :: answer.events⟩
  | .refused cause => ⟨.error (.payload l.sum l.name (.decode cause)), []⟩
  | .unmatched => ⟨.error (.unmatched l.sum l.name), [.nothingMatched l.sum l.name]⟩

namespace MatchLevel

variable {l l' k k' : MatchLevel β} {e e' : Ending β} {a : Arm β}

theorem result_of_arm? (h : l.arm? = some a) : l.result = a.run l.matcher.sum l.member :=
  CaseTable.apply_of_arm (CaseTable.select_eq_arm_iff.mpr h)

/-! ## §2  The way down -/

/-- **One level further down** the same comes out. -/
theorem Down.result_eq (h : l.Down l') : l.result = l'.result := by
  obtain ⟨harm, hdecode⟩ := h
  rw [result_of_arm? harm]
  simp only [Arm.onMember, Arm.run, hdecode]
  rfl

/-- What comes out at the top is what comes of each level on the way. -/
theorem Reaches.result_eq (h : l.Reaches l') : l.result = l'.result := by
  induction h with
  | refl => rfl
  | tail _ hdown ih => exact ih.trans hdown.result_eq

theorem Down.unique (h : l.Down k) (h' : l.Down k') : k = k' := by
  obtain ⟨harm, hdecode⟩ := h
  obtain ⟨harm', hdecode'⟩ := h'
  obtain ⟨⟨sum, table⟩, member⟩ := k
  obtain ⟨⟨sum', table'⟩, member'⟩ := k'
  cases harm.symm.trans harm'
  cases hdecode.symm.trans hdecode'
  rfl

/-- The table that the payload is handed to is a part of the table that hands it on. -/
theorem Down.sizeOf_lt (h : l.Down l') : sizeOf l'.matcher.table < sizeOf l.matcher.table := by
  have hlt := CaseTable.sizeOf_lt_of_select (CaseTable.select_eq_arm_iff.mpr h.1)
  simp only [Arm.onMember, Arm.nested.sizeOf_spec] at hlt
  omega

/-! ## §3  How matching ends -/

/-- **What comes of a level** where matching ends names the sum type and the tag of this level. -/
theorem Ends.result_eq (h : l.Ends e) : l.result = e.result l := by
  cases h with
  | plain harm =>
      rw [result_of_arm? harm]
      exact Logged.ext rfl (by simp [Arm.run, Ending.result])
  | typed harm hdecode =>
      rw [result_of_arm? harm]
      simp only [Arm.onAs, Arm.run, hdecode, Except.map]
      exact Logged.ext rfl (by simp [Ending.result])
  | wildcard harm hwildcard =>
      exact CaseTable.apply_of_wildcard (CaseTable.select_eq_wildcard_iff.mpr ⟨harm, hwildcard⟩)
  | illTyped harm hdecode =>
      rw [result_of_arm? harm]
      simp only [Arm.onAs, Arm.run, hdecode, Except.map]
      rfl
  | noMember harm hdecode =>
      rw [result_of_arm? harm]
      simp only [Arm.onMember, Arm.run, hdecode]
      rfl
  | nothing harm hwildcard =>
      have hnothing : l.matcher.table.has l.name = false ∧ l.wildcard?.isSome = false :=
        ⟨Option.isSome_eq_false_iff.mpr (Option.isNone_iff_eq_none.mpr harm),
          Option.isSome_eq_false_iff.mpr (Option.isNone_iff_eq_none.mpr hwildcard)⟩
      exact CaseTable.apply_of_nothing (CaseTable.select_eq_nothing_iff.mpr hnothing)

/-- Whatever a typed arm does, it decodes values of some type and handles them. -/
theorem exists_onAs (handler : Value → Except DecodeError (Logged β)) :
    ∃ codec : Codec (Logged β), codec.decode = handler ∧ Arm.onAs codec id = .typed handler := by
  refine ⟨⟨fun _ => .null, handler⟩, rfl, congrArg Arm.typed (funext fun v => ?_)⟩
  show (handler v).map id = handler v
  rw [Except.map_id]
  rfl

/-- A level is left for a deeper one, or matching ends there. -/
theorem down_or_ends (l : MatchLevel β) : (∃ l', l.Down l') ∨ ∃ e, l.Ends e := by
  rcases harm : l.arm? with _ | ⟨handler⟩ | ⟨handler⟩ | ⟨T, inner⟩
  · rcases hwildcard : l.wildcard? with _ | w
    · exact .inr ⟨_, .nothing harm hwildcard⟩
    · exact .inr ⟨_, .wildcard harm hwildcard⟩
  · exact .inr ⟨_, .plain harm⟩
  · obtain ⟨codec, rfl, honAs⟩ := exists_onAs handler
    rw [← honAs] at harm
    rcases hdecode : codec.decode l.member.payload with cause | answer
    · exact .inr ⟨_, .illTyped harm hdecode⟩
    · exact .inr ⟨_, .typed harm hdecode⟩
  · have honMember : l.arm? = some (.onMember ⟨T, inner⟩) := harm
    rcases hdecode : (Codec.member T).decode l.member.payload with cause | n
    · exact .inr ⟨_, .noMember honMember hdecode⟩
    · exact .inl ⟨⟨⟨T, inner⟩, n⟩, honMember, hdecode⟩

theorem Ends.not_down (h : l.Ends e) : ¬ l.Down l' := by
  rintro ⟨harm', hdecode'⟩
  obtain ⟨⟨sum, table⟩, n⟩ := l'
  cases h with
  | plain harm | typed harm _ | wildcard harm _ | illTyped harm _ | nothing harm _ =>
      cases harm.symm.trans harm'
  | @noMember inner cause harm hdecode =>
      obtain ⟨T, inner⟩ := inner
      cases harm.symm.trans harm'
      cases hdecode.symm.trans hdecode'

/-- **Matching ends** somewhere: the tables on the way down get smaller. -/
theorem exists_ends (l : MatchLevel β) : ∃ l' e, l.Reaches l' ∧ l'.Ends e := by
  induction hsize : sizeOf l.matcher.table using Nat.strongRecOn generalizing l with
  | ind size ih =>
    rcases down_or_ends l with ⟨k, hdown⟩ | ⟨e, hends⟩
    · obtain ⟨l', e, hreaches, hends⟩ := ih _ (hsize ▸ hdown.sizeOf_lt) k rfl
      exact ⟨l', e, .head hdown hreaches, hends⟩
    · exact ⟨l, e, .refl, hends⟩

theorem Ends.eq_of_reaches (h : l.Ends e) (hreaches : l.Reaches k) : l = k := by
  rcases Relation.ReflTransGen.cases_head hreaches with rfl | ⟨j, hdown, -⟩
  · rfl
  · exact absurd hdown h.not_down

/-- The level where matching ends is the deepest that it comes to. -/
theorem Reaches.reaches_of_ends (h : l.Reaches k) (h' : l.Reaches k') (hends : k'.Ends e) :
    k.Reaches k' := by
  have hunique : Relator.RightUnique (@Down β) := fun _ _ _ => Down.unique
  rcases Relation.ReflTransGen.total_of_right_unique hunique h h' with hon | hon
  · exact hon
  · rw [hends.eq_of_reaches hon]

/-- It ends at one level only. -/
theorem Reaches.unique_of_ends (h : l.Reaches k) (h' : l.Reaches k') (hends : k.Ends e)
    (hends' : k'.Ends e') : k = k' :=
  hends.eq_of_reaches (h.reaches_of_ends h' hends')

/-! ## §4  Answers and errors -/

/-- Every result is that of an ending on the way down. -/
theorem result_value_eq_iff (l : MatchLevel β) {x : Except SumError β} :
    l.result.value = x ↔ ∃ l' e, l.Reaches l' ∧ l'.Ends e ∧ (e.result l').value = x := by
  constructor
  · rintro rfl
    obtain ⟨l', e, hreaches, hends⟩ := exists_ends l
    exact ⟨l', e, hreaches, hends, by rw [hreaches.result_eq, hends.result_eq]⟩
  · rintro ⟨l', e, hreaches, hends, rfl⟩
    rw [hreaches.result_eq, hends.result_eq]

theorem result_eq_unmatched_iff (l : MatchLevel β) {sum name : String} :
    l.result.value = .error (.unmatched sum name) ↔
      ∃ l', l.Reaches l' ∧ l'.Ends .unmatched ∧ l'.sum = sum ∧ l'.name = name := by
  rw [result_value_eq_iff]
  constructor
  · rintro ⟨l', answer | answer | cause | _, hreaches, hends, hvalue⟩
    all_goals cases hvalue
    exact ⟨l', hreaches, hends, rfl, rfl⟩
  · rintro ⟨l', hreaches, hends, rfl, rfl⟩
    exact ⟨l', _, hreaches, hends, rfl⟩

theorem result_eq_payload_iff (l : MatchLevel β) {sum name : String} {cause : PayloadError} :
    l.result.value = .error (.payload sum name cause) ↔
      ∃ l' err, l.Reaches l' ∧ l'.Ends (.refused err) ∧ l'.sum = sum ∧ l'.name = name ∧
        .decode err = cause := by
  rw [result_value_eq_iff]
  constructor
  · rintro ⟨l', answer | answer | err | _, hreaches, hends, hvalue⟩
    all_goals cases hvalue
    exact ⟨l', err, hreaches, hends, rfl, rfl, rfl⟩
  · rintro ⟨l', err, hreaches, hends, rfl, rfl, rfl⟩
    exact ⟨l', _, hreaches, hends, rfl⟩

theorem result_eq_ok_iff (l : MatchLevel β) {answer : β} :
    l.result.value = .ok answer ↔
      ∃ l' r, l.Reaches l' ∧ (l'.Ends (.answered r) ∨ l'.Ends (.fellBack r)) ∧
        r.value = answer := by
  rw [result_value_eq_iff]
  constructor
  · rintro ⟨l', r | r | cause | _, hreaches, hends, hvalue⟩
    all_goals cases hvalue
    · exact ⟨l', r, hreaches, .inl hends, rfl⟩
    · exact ⟨l', r, hreaches, .inr hends, rfl⟩
  · rintro ⟨l', r, hreaches, hends | hends, rfl⟩
    · exact ⟨l', _, hreaches, hends, rfl⟩
    · exact ⟨l', _, hreaches, hends, rfl⟩

theorem ends_unmatched_iff : l.Ends .unmatched ↔ l.arm? = none ∧ l.wildcard? = none := by
  constructor
  · intro h
    cases h with
    | nothing harm hwildcard => exact ⟨harm, hwildcard⟩
  · rintro ⟨harm, hwildcard⟩
    exact .nothing harm hwildcard

end MatchLevel

/-- What does not decode as a member: all but the array of a declared name and a payload. -/
theorem Codec.exists_member_decode_eq_error_iff {T : Declaration} {v : Value} :
    (∃ cause, (Codec.member T).decode v = .error cause) ↔
      ¬ ∃ name payload, v = .array [.string name, payload] ∧ T.Declares name := by
  constructor
  · rintro ⟨cause, hcause⟩ ⟨name, payload, rfl, hname⟩
    have hmember : (Codec.member T).decode (.array [.string name, payload]) =
        .ok ⟨⟨name, hname.1⟩, payload⟩ := Codec.member_decode_eq_ok_iff.mpr ⟨rfl, hname.2⟩
    cases hcause.symm.trans hmember
  · intro h
    rcases hdecode : (Codec.member T).decode v with cause | n
    · exact ⟨cause, rfl⟩
    · obtain ⟨hpair, hdeclared⟩ := Codec.member_decode_eq_ok_iff.mp hdecode
      exact absurd ⟨n.tag.name, n.payload, hpair, Declaration.declares_tag.mpr hdeclared⟩ h

/-- **Errors name their level.** Take any matcher, however it was built and whatever is in it, and
any member, whatever its payload. Matching comes to an end at exactly one level, and what comes out
is what comes of each level on the way. It is unmatched, for a sum type and a tag, just where it
comes to a level of these that has neither an arm for the tag nor a wildcard; it is a payload error
just where it comes to a level of these whose arm cannot decode the payload, and the cause is the
failure to decode; else it is the answer of the arm or the wildcard at the level where matching
ends. No other error comes out. What does not decode for an inner matcher is all but the array of a
declared tag and a payload. -/
theorem errors_name_their_level (M : Matcher β) (m : Member) :
    let top : MatchLevel β := ⟨M, m⟩
    (∃! l, top.Reaches l ∧ ∃ e, l.Ends e) ∧
    (∀ l, top.Reaches l → M.apply m = l.result) ∧
    (∀ sum name, (M.apply m).value = .error (.unmatched sum name) ↔
      ∃ l, top.Reaches l ∧ (l.arm? = none ∧ l.wildcard? = none) ∧ l.sum = sum ∧ l.name = name) ∧
    (∀ sum name cause, (M.apply m).value = .error (.payload sum name cause) ↔
      ∃ l err, top.Reaches l ∧ l.Ends (.refused err) ∧ l.sum = sum ∧ l.name = name ∧
        .decode err = cause) ∧
    (∀ answer, (M.apply m).value = .ok answer ↔
      ∃ l r, top.Reaches l ∧ (l.Ends (.answered r) ∨ l.Ends (.fellBack r)) ∧ r.value = answer) ∧
    (∀ cause, (M.apply m).value = .error cause →
      (∃ sum name, cause = .unmatched sum name) ∨
        ∃ sum name err, cause = .payload sum name (.decode err)) ∧
    ∀ T v, (∃ err, (Codec.member T).decode v = .error err) ↔
      ¬ ∃ name payload, v = .array [.string name, payload] ∧ T.Declares name := by
  intro top
  refine ⟨?ends, fun l h => h.result_eq, ?unmatched, fun _ _ _ => top.result_eq_payload_iff,
    fun _ => top.result_eq_ok_iff, ?kinds, fun _ _ => Codec.exists_member_decode_eq_error_iff⟩
  case ends =>
    obtain ⟨l, e, hreaches, hends⟩ := top.exists_ends
    refine ⟨l, ⟨hreaches, e, hends⟩, ?_⟩
    rintro l' ⟨hreaches', e', hends'⟩
    exact hreaches'.unique_of_ends hreaches hends' hends
  case unmatched =>
    intro sum name
    simp only [← MatchLevel.ends_unmatched_iff]
    exact top.result_eq_unmatched_iff
  case kinds =>
    intro cause hcause
    obtain ⟨l, answer | answer | err | _, -, -, hvalue⟩ := top.result_value_eq_iff.mp hcause
    all_goals cases hvalue
    · exact .inr ⟨_, _, err, rfl⟩
    · exact .inl ⟨_, _, rfl⟩

end Coproduct
