import Coproduct.Proofs.Matching.HandlerMap
/-!
# Matching read off the calls

A table is overwritten as it is built, and a wildcard is kept apart from it. What a matcher does
with a member can be said without either, of the calls that built it: the last arm for the tag, else
the last wildcard, else nothing (`Answers`). Calls of all four flavours mean the same kind of thing,
an arm what it does with a member and a wildcard an answer, so this is said once, of the meaning of
the calls (`HandlerMap.meaning`).

§1 the last of the calls · §2 what calls mean · §3 what is selected · §4 the answer.
-/

namespace Coproduct

open Json (Value)

variable {α β γ ρ ω ψ : Type}

/-! ## §1  The last of the calls -/

/-- The last of the values that a function finds in a list: none is found behind it. -/
theorem getLast?_filterMap_eq_some_iff {f : α → Option β} {l : List α} {b : β} :
    (l.filterMap f).getLast? = some b ↔
      ∃ before x after, l = before ++ x :: after ∧ f x = some b ∧ ∀ y ∈ after, f y = none := by
  -- The library finds it from behind, in the reversed list.
  rw [List.getLast?_filterMap, List.findSome?_eq_some_iff]
  constructor
  · rintro ⟨after, x, before, hsplit, hx, hafter⟩
    refine ⟨before.reverse, x, after.reverse, ?_, hx, ?_⟩
    · rw [List.reverse_eq_iff] at hsplit
      simpa using hsplit
    · intro y hy
      exact hafter y (List.mem_reverse.mp hy)
  · rintro ⟨before, x, after, rfl, hx, hafter⟩
    refine ⟨after.reverse, x, before.reverse, by simp, hx, ?_⟩
    intro y hy
    exact hafter y (List.mem_reverse.mp hy)

namespace CaseCall

variable {calls : List (CaseCall α ω)} {name : String} {a : α} {w : ω}

/-- The last arm that calls give for a name. -/
def LastArm (calls : List (CaseCall α ω)) (name : String) (a : α) : Prop :=
  ∃ before after, calls = before ++ .arm name a :: after ∧ name ∉ armNames after

/-- The last wildcard that calls give. -/
def LastWildcard (calls : List (CaseCall α ω)) (w : ω) : Prop :=
  ∃ before after, calls = before ++ .wildcard w :: after ∧ hasWildcard after = false

theorem armFor?_eq_some_iff {call : CaseCall α ω} :
    call.armFor? name = some a ↔ call = .arm name a := by
  rcases call with ⟨n, b⟩ | w
  · by_cases hn : n = name <;> simp [armFor?, hn]
  · simp [armFor?]

theorem armFor?_eq_none_iff {call : CaseCall α ω} :
    call.armFor? name = none ↔ call.armName? ≠ some name := by
  rcases call with ⟨n, b⟩ | w
  · by_cases hn : n = name <;> simp [armFor?, armName?, hn]
  · simp [armFor?, armName?]

theorem notMem_armNames_iff :
    name ∉ armNames calls ↔ ∀ call ∈ calls, call.armFor? name = none := by
  simp only [armFor?_eq_none_iff, armNames, List.mem_filterMap, not_exists, not_and, ne_eq]

theorem lastArm_iff : LastArm calls name a ↔ (armsFor name calls).getLast? = some a := by
  rw [armsFor, getLast?_filterMap_eq_some_iff]
  simp only [armFor?_eq_some_iff, ← notMem_armNames_iff, LastArm]
  constructor
  · rintro ⟨before, after, hsplit, hafter⟩
    exact ⟨before, _, after, hsplit, rfl, hafter⟩
  · rintro ⟨before, _, after, hsplit, rfl, hafter⟩
    exact ⟨before, after, hsplit, hafter⟩

theorem LastArm.mem_armNames (h : LastArm calls name a) : name ∈ armNames calls := by
  obtain ⟨before, after, rfl, -⟩ := h
  exact List.mem_filterMap.mpr ⟨.arm name a, by simp, rfl⟩

theorem LastArm.map (f : α → β) (g : ω → ψ) (h : LastArm calls name a) :
    LastArm (calls.map (CaseCall.map f g)) name (f a) := by
  obtain ⟨before, after, rfl, hafter⟩ := h
  refine ⟨before.map (CaseCall.map f g), after.map (CaseCall.map f g), by simp [CaseCall.map], ?_⟩
  rw [armNames_map]
  exact hafter

theorem armsFor_eq_nil_iff : armsFor name calls = [] ↔ name ∉ armNames calls := by
  rw [armsFor, List.filterMap_eq_nil_iff, notMem_armNames_iff]

theorem hasWildcard_eq_false_iff :
    hasWildcard calls = false ↔ ∀ call ∈ calls, call.wildcard? = none := by
  rw [hasWildcard, List.any_eq_false]
  refine forall₂_congr fun call _ => ?_
  rcases call with ⟨n, b⟩ | w <;> simp [armName?, wildcard?]

theorem wildcard?_eq_some_iff {call : CaseCall α ω} :
    call.wildcard? = some w ↔ call = .wildcard w := by
  rcases call with ⟨n, b⟩ | v <;> simp [wildcard?]

theorem lastWildcard_iff : LastWildcard calls w ↔ (wildcards calls).getLast? = some w := by
  rw [wildcards, getLast?_filterMap_eq_some_iff]
  simp only [wildcard?_eq_some_iff, ← hasWildcard_eq_false_iff, LastWildcard]
  constructor
  · rintro ⟨before, after, hsplit, hafter⟩
    exact ⟨before, _, after, hsplit, rfl, hafter⟩
  · rintro ⟨before, _, after, hsplit, rfl, hafter⟩
    exact ⟨before, after, hsplit, hafter⟩

/-- Calls for other names make no difference to the arms for a name. -/
theorem armsFor_filter {keep : Option String → Bool} (hname : keep (some name) = true) :
    armsFor name (calls.filter fun call => keep call.armName?) = armsFor name calls := by
  unfold armsFor
  rw [List.filterMap_filter]
  congr
  funext call
  rcases call with ⟨n, b⟩ | w
  · by_cases hn : n = name <;> simp [armName?, armFor?, hn, hname]
  · simp [armFor?]

/-- Arms make no difference to the wildcards. -/
theorem wildcards_filter {keep : Option String → Bool} (hnone : keep none = true) :
    wildcards (calls.filter fun call => keep call.armName?) = wildcards calls := by
  unfold wildcards
  rw [List.filterMap_filter]
  congr
  funext call
  rcases call with ⟨n, b⟩ | w
  · exact ite_self none
  · exact if_pos hnone

end CaseCall

/-! ## §2  What calls mean -/

/-- A call with what it means: an arm does something with a member, a wildcard is an answer. -/
abbrev MeantCall (β : Type) := CaseCall (Member → Logged (Except SumError β)) (Logged β)

/-- What an arm that answers by itself does with a member of `S`, its answer converted. -/
def DirectArm.run (S : Declaration) (into : ρ → β) (m : Member) : DirectArm ρ → Except SumError β
  | .plain handler => .ok (into (handler m.payload))
  | .typed handler =>
    match handler m.payload with
    | .ok answer => .ok (into answer)
    | .error cause => .error (.payload S.name m.tag.name (.decode cause))

theorem DirectArm.run_onAs {S : Declaration} {m : Member} (into : ρ → β) (codec : Codec α)
    (handler : α → ρ) :
    (DirectArm.onAs codec handler).run S into m =
      match codec.decode m.payload with
      | .ok x => .ok (into (handler x))
      | .error cause => .error (.payload S.name m.tag.name (.decode cause)) := by
  simp only [onAs, run]
  rcases codec.decode m.payload with cause | x <;> rfl

/-- In a matcher the arm does just that. -/
theorem DirectArm.run_toArm (S : Declaration) (into : ρ → β) (m : Member) (arm : DirectArm ρ) :
    ((arm.map into).toArm).run S m = pure (arm.run S into m) := by
  rcases arm with handler | handler
  · rfl
  · simp only [map, toArm, Arm.run, run]
    rcases handler m.payload with cause | answer <;> rfl

/-- What the calls on a handler map of `S` mean. -/
def HandlerMap.meaning (S : Declaration) : HandlerMap ρ β → List (MeantCall β)
  | .handlers calls => calls.map (CaseCall.map (fun arm m => arm.run S m) id)
  | .widened into calls =>
    calls.map (CaseCall.map (fun arm m => pure (arm.run S into m)) fun answer => pure (into answer))
  | .stored calls => calls.map (CaseCall.map (fun answer _ => pure (.ok answer)) pure)
  | .storedWidened into calls =>
    calls.map (CaseCall.map (fun answer _ => pure (.ok (into answer))) fun answer =>
      pure (into answer))

/-- What comes of a member of `S` by the calls alone. The arm is given the member, the wildcard is
given nothing. -/
inductive CaseCall.Answers (S : Declaration) (calls : List (MeantCall β)) (m : Member) :
    Logged (Except SumError β) → Prop where
  | arm {run : Member → Logged (Except SumError β)} (hlast : LastArm calls m.tag.name run) :
      Answers S calls m (run m)
  | wildcard {answer : Logged β} (harm : m.tag.name ∉ armNames calls)
      (hlast : LastWildcard calls answer) :
      Answers S calls m ⟨.ok answer.value, .wildcardUsed S.name m.tag.name :: answer.events⟩
  | nothing (harm : m.tag.name ∉ armNames calls) (hwildcard : hasWildcard calls = false) :
      Answers S calls m
        ⟨.error (.unmatched S.name m.tag.name), [.nothingMatched S.name m.tag.name]⟩

theorem CaseCall.map_map (f : α → β) (g : ω → ψ) {δ χ : Type} (f' : β → δ) (g' : ψ → χ)
    (calls : List (CaseCall α ω)) :
    (calls.map (CaseCall.map f g)).map (CaseCall.map f' g') =
      calls.map (CaseCall.map (f' ∘ f) (g' ∘ g)) := by
  rw [List.map_map]
  congr
  funext call
  rcases call with ⟨n, a⟩ | w <;> rfl

namespace HandlerMap

variable (S : Declaration)

/-- Widened handlers mean what the handlers of the converted calls mean. -/
theorem meaning_widened (into : ρ → β) (calls : List (CaseCall (DirectArm ρ) ρ)) :
    (widened into calls).meaning S =
      (handlers (widenCalls into calls) : HandlerMap ρ β).meaning S := by
  simp only [meaning, widenCalls, CaseCall.map_map]
  congr
  funext arm m
  exact (DirectArm.run_toArm S into m arm).symm

/-- Widened answers mean what the converted answers mean. -/
theorem meaning_storedWidened (into : ρ → β) (calls : List (CaseCall ρ ρ)) :
    (storedWidened into calls).meaning S =
      (stored (widenAnswers into calls) : HandlerMap ρ β).meaning S := by
  simp only [meaning, widenAnswers, CaseCall.map_map]
  rfl

theorem armNames_meaning (H : HandlerMap ρ β) : CaseCall.armNames (H.meaning S) = H.armNames := by
  rcases H with calls | ⟨into, calls⟩ | calls | ⟨into, calls⟩
  all_goals exact CaseCall.armNames_map _ _ calls

theorem hasWildcard_meaning (H : HandlerMap ρ β) :
    CaseCall.hasWildcard (H.meaning S) = H.hasWildcard := by
  rcases H with calls | ⟨into, calls⟩ | calls | ⟨into, calls⟩
  all_goals exact CaseCall.hasWildcard_map _ _ calls

end HandlerMap

/-! ## §3  What is selected -/

namespace CaseTable

variable {calls : List (CaseCall α ω)} {name : String} {a : α} {w : ω}

theorem select_ofCalls_eq_arm_iff :
    (ofCalls calls).select name = .arm a ↔ CaseCall.LastArm calls name a := by
  rw [select_eq_arm_iff, arm?_ofCalls, CaseCall.lastArm_iff]

theorem select_ofCalls_eq_wildcard_iff :
    (ofCalls calls).select name = .wildcard w ↔
      name ∉ CaseCall.armNames calls ∧ CaseCall.LastWildcard calls w := by
  rw [select_eq_wildcard_iff, arm?_ofCalls, wildcard_ofCalls, List.getLast?_eq_none_iff,
    CaseCall.armsFor_eq_nil_iff, CaseCall.lastWildcard_iff]

theorem select_ofCalls_eq_nothing_iff :
    (ofCalls calls).select name = .nothing ↔
      name ∉ CaseCall.armNames calls ∧ CaseCall.hasWildcard calls = false := by
  rw [← not_iff_not, ← ne_eq, select_ofCalls_ne_nothing_iff, not_and_or, not_not,
    Bool.not_eq_false]

/-- Calls for other names make no difference to a selection, nor do wildcards where there is an arm
for the name. -/
theorem select_filter {keep : Option String → Bool} (hname : keep (some name) = true)
    (hwildcard : keep none = true ∨ name ∈ CaseCall.armNames calls) :
    (ofCalls (calls.filter fun call => keep call.armName?)).select name =
      (ofCalls calls).select name := by
  unfold select
  rw [arm?_ofCalls, arm?_ofCalls, wildcard_ofCalls, wildcard_ofCalls, CaseCall.armsFor_filter hname]
  rcases harm : (CaseCall.armsFor name calls).getLast? with _ | a
  · -- Only here is a wildcard asked for, so only here must the wildcards have been kept.
    have hnone : name ∉ CaseCall.armNames calls :=
      CaseCall.armsFor_eq_nil_iff.mp (List.getLast?_eq_none_iff.mp harm)
    rw [CaseCall.wildcards_filter (hwildcard.resolve_right hnone)]
  · rfl

def Selection.map (f : α → β) (g : ω → ψ) : Selection α ω → Selection β ψ
  | .arm handler => .arm (f handler)
  | .wildcard handler => .wildcard (g handler)
  | .nothing => .nothing

/-- Of calls with other handlers the other handler is selected. -/
theorem select_map (f : α → β) (g : ω → ψ) (calls : List (CaseCall α ω)) (name : String) :
    (ofCalls (calls.map (CaseCall.map f g))).select name =
      ((ofCalls calls).select name).map f g := by
  unfold select
  rw [arm?_ofCalls, arm?_ofCalls, wildcard_ofCalls, wildcard_ofCalls, CaseCall.armsFor_map,
    CaseCall.wildcards_map, List.getLast?_map, List.getLast?_map]
  rcases (CaseCall.armsFor name calls).getLast? with _ | a
  · rcases (CaseCall.wildcards calls).getLast? with _ | w <;> rfl
  · rfl

/-- What comes of a member where something is selected for it. -/
def Selection.outcome (S : Declaration) (m : Member) :
    Selection (Member → Logged (Except SumError β)) (Logged β) → Logged (Except SumError β)
  | .arm run => run m
  | .wildcard answer => ⟨.ok answer.value, .wildcardUsed S.name m.tag.name :: answer.events⟩
  | .nothing => ⟨.error (.unmatched S.name m.tag.name), [.nothingMatched S.name m.tag.name]⟩

theorem apply_eq_outcome (S : Declaration) (t : CaseTable (Arm β) (Logged β)) (m : Member) :
    t.apply S m = ((t.select m.tag.name).map (fun arm m => arm.run S m) id).outcome S m := by
  rcases hselect : t.select m.tag.name with arm | answer | _
  · exact apply_of_arm hselect
  · exact apply_of_wildcard hselect
  · exact apply_of_nothing hselect

end CaseTable

theorem StrictMatcher.apply_eq_outcome (M : StrictMatcher β) (m : Member) :
    M.apply m = ((M.table.select m.tag.name).map (fun answer _ => pure (.ok answer)) pure).outcome
      M.sum m := by
  rcases hselect : M.table.select m.tag.name with answer | answer | _
  · exact apply_of_arm hselect
  · exact apply_of_wildcard hselect
  · exact apply_of_nothing hselect

/-- What is selected of calls is the answer. -/
theorem CaseCall.answers_iff {S : Declaration} {calls : List (MeantCall β)} {m : Member}
    {r : Logged (Except SumError β)} :
    Answers S calls m r ↔ ((CaseTable.ofCalls calls).select m.tag.name).outcome S m = r := by
  constructor
  · rintro (hlast | ⟨harm, hlast⟩ | ⟨harm, hwildcard⟩)
    · rw [CaseTable.select_ofCalls_eq_arm_iff.mpr hlast]
      rfl
    · rw [CaseTable.select_ofCalls_eq_wildcard_iff.mpr ⟨harm, hlast⟩]
      rfl
    · rw [CaseTable.select_ofCalls_eq_nothing_iff.mpr ⟨harm, hwildcard⟩]
      rfl
  · rintro rfl
    rcases hselect : (CaseTable.ofCalls calls).select m.tag.name with run | answer | _
    · exact .arm (CaseTable.select_ofCalls_eq_arm_iff.mp hselect)
    · obtain ⟨harm, hlast⟩ := CaseTable.select_ofCalls_eq_wildcard_iff.mp hselect
      exact .wildcard harm hlast
    · obtain ⟨harm, hwildcard⟩ := CaseTable.select_ofCalls_eq_nothing_iff.mp hselect
      exact .nothing harm hwildcard

/-! ## §4  The answer -/

/-- Where answers are stored, the payload makes no difference. -/
theorem BuiltMatcher.IsStored.apply_congr_payload {M : BuiltMatcher β} (h : M.IsStored) (tag : Tag)
    (payload payload' : Value) : M.apply ⟨tag, payload⟩ = M.apply ⟨tag, payload'⟩ := by
  rcases M with M | M
  · exact h.elim
  · rfl

namespace HandlerMap

/-- **Matching is selection among meanings**, in every flavour. -/
theorem apply_unchecked (H : HandlerMap ρ β) (S : Declaration) (m : Member) :
    (H.unchecked S).apply m =
      ((CaseTable.ofCalls (H.meaning S)).select m.tag.name).outcome S m := by
  rcases H with calls | ⟨into, calls⟩ | calls | ⟨into, calls⟩
  · rw [meaning, CaseTable.select_map]
    exact CaseTable.apply_eq_outcome S _ m
  · rw [meaning_widened, meaning, CaseTable.select_map]
    exact CaseTable.apply_eq_outcome S _ m
  · rw [meaning, CaseTable.select_map]
    exact StrictMatcher.apply_eq_outcome _ m
  · rw [meaning_storedWidened, meaning, CaseTable.select_map]
    exact StrictMatcher.apply_eq_outcome _ m

theorem apply_eq_iff (H : HandlerMap ρ β) (S : Declaration) (m : Member)
    (r : Logged (Except SumError β)) :
    (H.unchecked S).apply m = r ↔ CaseCall.Answers S (H.meaning S) m r := by
  rw [apply_unchecked, CaseCall.answers_iff]

/-- Where the tag has no arm, the payload makes no difference. -/
theorem apply_congr_payload {H : HandlerMap ρ β} {S : Declaration} {tag : Tag}
    (h : tag.name ∉ H.armNames) (payload payload' : Value) :
    (H.unchecked S).apply ⟨tag, payload⟩ = (H.unchecked S).apply ⟨tag, payload'⟩ := by
  rw [apply_unchecked, apply_unchecked]
  rcases hselect : (CaseTable.ofCalls (H.meaning S)).select tag.name with run | answer | _
  · have hlast := CaseTable.select_ofCalls_eq_arm_iff.mp hselect
    rw [← armNames_meaning S] at h
    exact absurd hlast.mem_armNames h
  · rfl
  · rfl

/-- The calls on a handler map without those whose name, or want of one, is not kept. -/
def restrict (keep : Option String → Bool) : HandlerMap ρ β → HandlerMap ρ β
  | .handlers calls => .handlers (calls.filter fun call => keep call.armName?)
  | .widened into calls => .widened into (calls.filter fun call => keep call.armName?)
  | .stored calls => .stored (calls.filter fun call => keep call.armName?)
  | .storedWidened into calls => .storedWidened into (calls.filter fun call => keep call.armName?)

theorem meaning_restrict (keep : Option String → Bool) (H : HandlerMap ρ β) (S : Declaration) :
    (H.restrict keep).meaning S = (H.meaning S).filter fun call => keep call.armName? := by
  rcases H with calls | ⟨into, calls⟩ | calls | ⟨into, calls⟩
  all_goals
    simp only [restrict, meaning, List.filter_map, Function.comp_def, CaseCall.armName?_map]

/-- Arms of other tags make no difference, nor do wildcards where the tag has an arm. -/
theorem apply_restrict {keep : Option String → Bool} {H : HandlerMap ρ β} {m : Member}
    (hname : keep (some m.tag.name) = true)
    (hwildcard : keep none = true ∨ m.tag.name ∈ H.armNames) (S : Declaration) :
    ((H.restrict keep).unchecked S).apply m = (H.unchecked S).apply m := by
  rw [← armNames_meaning S] at hwildcard
  rw [apply_unchecked, apply_unchecked, meaning_restrict, CaseTable.select_filter hname hwildcard]

/-- **Matching is a look-up among the calls.** Take calls of any flavour, for whatever names, and
any member. Without a check, what comes of the member is what the last arm for its tag does with it,
else the answer of the last wildcard, else that there is nothing. A plain arm gets the payload as it
is, a typed one what it decodes to, and an arm for members hands on the member that it decodes to.
Calls for other tags can be left out, and so can wildcards where the tag has an arm. Where it has
none, or where answers are stored, the payload makes no difference. If the check accepts the calls,
it makes no difference either. -/
theorem dispatch_is_lookup (H : HandlerMap ρ β) (S : Declaration) :
    (∀ m r, (H.unchecked S).apply m = r ↔ CaseCall.Answers S (H.meaning S) m r) ∧
    (∀ m : Member,
      (∀ handler : Value → Logged β, (Arm.plain handler).run S m = .ok <$> handler m.payload) ∧
      ∀ (into : ρ → β) (handler : Value → ρ),
        (DirectArm.on handler).run S into m = .ok (into (handler m.payload))) ∧
    (∀ (m : Member) (inner : Matcher β), (Arm.onMember inner).run S m =
        match (Codec.member inner.sum).decode m.payload with
        | .ok n => inner.apply n
        | .error cause => pure (.error (.payload S.name m.tag.name (.decode cause)))) ∧
    (∀ (m : Member) (α : Type) (codec : Codec α),
      (∀ handler : α → Logged β, (Arm.onAs codec handler).run S m =
        match codec.decode m.payload with
        | .ok x => .ok <$> handler x
        | .error cause => pure (.error (.payload S.name m.tag.name (.decode cause)))) ∧
      ∀ (into : ρ → β) (handler : α → ρ), (DirectArm.onAs codec handler).run S into m =
        match codec.decode m.payload with
        | .ok x => .ok (into (handler x))
        | .error cause => .error (.payload S.name m.tag.name (.decode cause))) ∧
    (∀ (keep : Option String → Bool) (m : Member), keep (some m.tag.name) = true →
      (keep none = true ∨ m.tag.name ∈ H.armNames) →
      ((H.restrict keep).unchecked S).apply m = (H.unchecked S).apply m) ∧
    (∀ (tag : Tag) (payload payload' : Value), tag.name ∉ H.armNames ∨ (H.unchecked S).IsStored →
      (H.unchecked S).apply ⟨tag, payload⟩ = (H.unchecked S).apply ⟨tag, payload'⟩) ∧
    ∀ M, (H.checked S).value = .ok M → ∀ m, M.apply m = (H.unchecked S).apply m := by
  refine ⟨H.apply_eq_iff S, ?plain, fun _ _ => rfl, ?typed, ?others, ?payload, ?checked⟩
  case plain =>
    intro m
    exact ⟨fun handler => rfl, fun into handler => rfl⟩
  case typed =>
    intro m α codec
    exact ⟨Arm.run_onAs codec, fun into handler => DirectArm.run_onAs into codec handler⟩
  case others =>
    intro keep m hname hwildcard
    exact apply_restrict hname hwildcard S
  case payload =>
    rintro tag payload payload' (harm | hstored)
    · exact apply_congr_payload harm payload payload'
    · exact hstored.apply_congr_payload tag payload payload'
  case checked =>
    intro M hM m
    obtain ⟨-, rfl⟩ := checked_eq_ok_iff.mp hM
    rfl

/-- An arm for a name that looks like a wildcard, between two wildcards: for another tag it can be
left out, the check finds no fault, and the later wildcard answers. -/
theorem dispatch_is_lookup_underscore :
    let S : Declaration := ⟨"Any", .every⟩
    let H : HandlerMap Nat Nat := .stored [.wildcard 1, .arm "_" 2, .wildcard 3]
    let H' : HandlerMap Nat Nat := .stored [.wildcard 1, .wildcard 3]
    let m : Member := ⟨⟨"a", by decide⟩, .null⟩
    ∃ M, (H.checked S).value = .ok M ∧ M.apply m = ⟨.ok 3, [.wildcardUsed "Any" "a"]⟩ ∧
      (H'.unchecked S).apply m = M.apply m := by
  intro S H H' m
  obtain ⟨M, hM⟩ : ∃ M, (H.checked S).value = .ok M := by
    have hcheck : H.check S = .ok () := H.check_eq_coverageOf (by decide) (by decide)
    exact ⟨_, checked_eq_ok_iff.mpr ⟨hcheck, rfl⟩⟩
  obtain ⟨hanswer, -, -, -, hothers, -, hsame⟩ := dispatch_is_lookup H S
  have harm : m.tag.name ∉ CaseCall.armNames (H.meaning S) := by
    rw [armNames_meaning]
    decide
  have hlast : CaseCall.LastWildcard (H.meaning S) (pure 3) :=
    ⟨[.wildcard (pure 1), .arm "_" fun _ => pure (.ok 2)], [], rfl, rfl⟩
  refine ⟨M, hM, ?_, ?_⟩
  · rw [hsame M hM m, hanswer]
    exact .wildcard harm hlast
  · rw [hsame M hM m]
    exact hothers (fun name => name ≠ some "_") m rfl (.inl rfl)

end HandlerMap

end Coproduct
