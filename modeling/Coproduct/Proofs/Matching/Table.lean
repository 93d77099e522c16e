import Coproduct.Matching.Table
import Coproduct.Proofs.Declaration
import Coproduct.Proofs.Logged
import Coproduct.Proofs.Names
import Mathlib.Data.List.Induction
/-!
# What a sequence of calls makes of a table

A table is built by calls, one after another. For the check and for the question whether something
is selected at all, only the names of the arms count and whether there is a wildcard; both are
read off the calls.

§1 the calls · §2 the arms of a table · §3 verdicts and reports · §4 the check · §5 selection.
-/

namespace Coproduct

variable {α β ω ψ : Type} {S : Declaration}

/-! ## §1  The calls -/

namespace CaseCall

def armName? : CaseCall α ω → Option String
  | .arm name _ => some name
  | .wildcard _ => none

/-- The names for which calls give arms, in the order of the calls. -/
def armNames (calls : List (CaseCall α ω)) : List String := calls.filterMap armName?

def armFor? (name : String) : CaseCall α ω → Option α
  | .arm n handler => if n = name then some handler else none
  | .wildcard _ => none

def armsFor (name : String) (calls : List (CaseCall α ω)) : List α := calls.filterMap (armFor? name)

def wildcard? : CaseCall α ω → Option ω
  | .arm _ _ => none
  | .wildcard handler => some handler

def wildcards (calls : List (CaseCall α ω)) : List ω := calls.filterMap wildcard?

def hasWildcard (calls : List (CaseCall α ω)) : Bool := calls.any fun call => call.armName?.isNone

theorem armNames_snoc (calls : List (CaseCall α ω)) (call : CaseCall α ω) :
    armNames (calls ++ [call]) = armNames calls ++ call.armName?.toList := by
  rw [armNames, List.filterMap_append]
  cases h : call.armName? <;> simp [armNames, h]

theorem armsFor_snoc (name : String) (calls : List (CaseCall α ω)) (call : CaseCall α ω) :
    armsFor name (calls ++ [call]) = armsFor name calls ++ (call.armFor? name).toList := by
  rw [armsFor, List.filterMap_append]
  cases h : call.armFor? name <;> simp [armsFor, h]

theorem wildcards_snoc (calls : List (CaseCall α ω)) (call : CaseCall α ω) :
    wildcards (calls ++ [call]) = wildcards calls ++ call.wildcard?.toList := by
  rw [wildcards, List.filterMap_append]
  cases h : call.wildcard? <;> simp [wildcards, h]

theorem hasWildcard_snoc (calls : List (CaseCall α ω)) (call : CaseCall α ω) :
    hasWildcard (calls ++ [call]) = (hasWildcard calls || call.armName?.isNone) := by
  simp [hasWildcard]

theorem armName?_map (f : α → β) (g : ω → ψ) (call : CaseCall α ω) :
    (call.map f g).armName? = call.armName? := by
  cases call <;> rfl

/-- Other handlers leave the names of the arms as they are. -/
theorem armNames_map (f : α → β) (g : ω → ψ) (calls : List (CaseCall α ω)) :
    armNames (calls.map (CaseCall.map f g)) = armNames calls := by
  rw [armNames, List.filterMap_map]
  congr
  funext call
  exact armName?_map f g call

theorem hasWildcard_map (f : α → β) (g : ω → ψ) (calls : List (CaseCall α ω)) :
    hasWildcard (calls.map (CaseCall.map f g)) = hasWildcard calls := by
  simp only [hasWildcard, List.any_map, Function.comp_def, armName?_map]

theorem armsFor_map (f : α → β) (g : ω → ψ) (name : String) (calls : List (CaseCall α ω)) :
    armsFor name (calls.map (CaseCall.map f g)) = (armsFor name calls).map f := by
  rw [armsFor, armsFor, List.filterMap_map, List.map_filterMap]
  congr
  funext call
  rcases call with ⟨n, a⟩ | w
  · by_cases hn : n = name <;> simp [CaseCall.map, armFor?, hn]
  · rfl

theorem wildcards_map (f : α → β) (g : ω → ψ) (calls : List (CaseCall α ω)) :
    wildcards (calls.map (CaseCall.map f g)) = (wildcards calls).map g := by
  rw [wildcards, wildcards, List.filterMap_map, List.map_filterMap]
  congr
  funext call
  rcases call with ⟨n, a⟩ | w <;> rfl

end CaseCall

namespace CaseTable

/-! ## §2  The arms of a table -/

variable {t : CaseTable α ω} {name n : String}

theorem ofCalls_snoc (calls : List (CaseCall α ω)) (call : CaseCall α ω) :
    ofCalls (calls ++ [call]) = (ofCalls calls).follow call := by
  rw [ofCalls, List.foldl_append]
  rfl

theorem lookup_cons_eq_ite (n key : String) (a : α) (rest : List (String × α)) :
    ((key, a) :: rest).lookup n = if n = key then some a else rest.lookup n := by
  rw [List.lookup_cons]
  by_cases h : n = key
  · simp [h]
  · rw [if_neg h, beq_eq_false_iff_ne.mpr h]

theorem lookup_filter_ne (name n : String) (arms : List (String × α)) :
    (arms.filter fun entry => entry.1 != name).lookup n =
      if n = name then none else arms.lookup n := by
  induction arms with
  | nil => simp
  | cons entry rest ih =>
      obtain ⟨key, a⟩ := entry
      by_cases hkey : key = name
      · subst hkey
        rw [List.filter_cons_of_neg (by simp), ih, lookup_cons_eq_ite]
        by_cases hn : n = key <;> simp [hn]
      · rw [List.filter_cons_of_pos (by simpa using hkey), lookup_cons_eq_ite, lookup_cons_eq_ite,
          ih]
        by_cases hn : n = key
        · subst hn
          simp [hkey]
        · simp [hn]

theorem arm?_insert (t : CaseTable α ω) (name : String) (handler : α) (n : String) :
    (t.insert name handler).arm? n = if n = name then some handler else t.arm? n := by
  rw [arm?, insert, lookup_cons_eq_ite, lookup_filter_ne]
  by_cases hn : n = name <;> simp [hn, arm?]

theorem has_insert (t : CaseTable α ω) (name : String) (handler : α) (n : String) :
    (t.insert name handler).has n = true ↔ n = name ∨ t.has n = true := by
  rw [has, arm?_insert]
  by_cases hn : n = name <;> simp [hn, has]

theorem repeated_insert (t : CaseTable α ω) (name : String) (handler : α) :
    (t.insert name handler).repeated = if t.has name then t.repeated ++ [name] else t.repeated :=
  rfl

/-- There is an arm for just the names of the calls. -/
theorem has_ofCalls (calls : List (CaseCall α ω)) (n : String) :
    (ofCalls calls).has n = true ↔ n ∈ CaseCall.armNames calls := by
  induction calls using List.reverseRecOn with
  | nil => simp [ofCalls, empty, has, arm?, CaseCall.armNames]
  | append_singleton calls call ih =>
      rw [ofCalls_snoc, CaseCall.armNames_snoc, List.mem_append, ← ih]
      cases call with
      | arm name handler =>
          show ((ofCalls calls).insert name handler).has n = true ↔ _
          rw [has_insert, or_comm]
          simp [CaseCall.armName?]
      | wildcard handler =>
          show (ofCalls calls).has n = true ↔ _
          simp [CaseCall.armName?]

theorem isSome_wildcard_ofCalls (calls : List (CaseCall α ω)) :
    (ofCalls calls).wildcard.isSome = CaseCall.hasWildcard calls := by
  induction calls using List.reverseRecOn with
  | nil => rfl
  | append_singleton calls call ih =>
      rw [ofCalls_snoc, CaseCall.hasWildcard_snoc]
      cases call with
      | arm name handler =>
          show (ofCalls calls).wildcard.isSome = _
          simpa [CaseCall.armName?] using ih
      | wildcard handler => simp [follow, CaseCall.armName?]

theorem mem_names_iff_has (t : CaseTable α ω) (n : String) :
    n ∈ t.arms.map (·.1) ↔ t.has n = true := by
  obtain ⟨arms, wildcard, repeated⟩ := t
  show n ∈ arms.map (·.1) ↔ (arms.lookup n).isSome = true
  induction arms with
  | nil => simp
  | cons entry rest ih =>
      obtain ⟨key, a⟩ := entry
      rw [lookup_cons_eq_ite, List.map_cons, List.mem_cons, ih]
      by_cases hn : n = key <;> simp [hn]

theorem mem_sortedNames (t : CaseTable α ω) (n : String) :
    n ∈ t.sortedNames ↔ t.has n = true := by
  rw [← mem_names_iff_has, sortedNames, Tag.mem_sortNames]

/-- Calls for different names repeat none. -/
theorem repeated_ofCalls_of_nodup {calls : List (CaseCall α ω)}
    (h : (CaseCall.armNames calls).Nodup) : (ofCalls calls).repeated = [] := by
  induction calls using List.reverseRecOn with
  | nil => rfl
  | append_singleton calls call ih =>
      rw [CaseCall.armNames_snoc] at h
      rw [ofCalls_snoc]
      cases call with
      | arm name handler =>
          -- The names so far are the names with an arm, so a new one finds none.
          have hnew : ¬ (ofCalls calls).has name = true := by
            rw [has_ofCalls]
            intro hmem
            exact (List.nodup_append.mp h).2.2 name hmem name (by simp [CaseCall.armName?]) rfl
          rw [follow, repeated_insert, if_neg hnew]
          exact ih (List.nodup_append.mp h).1
      | wildcard handler => exact ih (List.nodup_append.mp h).1

end CaseTable

/-! ## §3  Verdicts and reports -/

/-- A verdict that is reported where it is a failure. -/
def reported (S : Declaration) : Except SumError α → Logged (Except SumError α)
  | .ok a => pure (.ok a)
  | .error cause => ⟨.error cause, [.mapRejected S.name cause]⟩

/-- What a check says and reports, apart from what passed it. -/
def verdict (r : Logged (Except SumError α)) : Logged (Except SumError Unit) :=
  Except.map (fun _ => ()) <$> r

theorem value_reported (S : Declaration) (r : Except SumError α) : (reported S r).value = r := by
  rcases r with cause | a <;> rfl

theorem verdict_reported (S : Declaration) (r : Except SumError α) :
    verdict (reported S r) = reported S (r.map fun _ => ()) := by
  rcases r with cause | a
  · exact Logged.ext rfl (by simp [verdict, reported, Except.map])
  · rfl

namespace CaseTable

variable {t : CaseTable α ω} {name : String}

/-! ## §4  The check -/

/-- Where names are neither repeated nor undeclared, only a gap can be found. -/
theorem check_eq_coverage (hrepeated : t.repeated = [])
    (hdeclared : ∀ n, t.has n = true → S.contains n = true) : t.check S = t.coverage S := by
  have hunknown : (t.sortedNames.find? fun n => !S.contains n) = none := by
    rw [List.find?_eq_none]
    intro n hn
    simp [hdeclared n ((mem_sortedNames t n).mp hn)]
  simp only [check, hrepeated, List.head?_nil, hunknown]

theorem checked_eq_reported (S : Declaration) (t : CaseTable α ω) :
    t.checked S = reported S ((t.check S).map fun _ => t) := by
  unfold checked
  rcases t.check S with cause | u <;> rfl

theorem checked_value (S : Declaration) (t : CaseTable α ω) :
    (t.checked S).value = (t.check S).map fun _ => t := by
  rw [checked_eq_reported, value_reported]

/-- The verdict on names with arms, with or without a wildcard: whether they leave a gap. -/
def coverageOf (S : Declaration) (names : List String) (wildcard : Bool) : Except SumError Unit :=
  if wildcard then .ok ()
  else
    match S.tags with
    | .every => .error (.openWithoutWildcard S.name)
    | .listed tags =>
      let missing := tags.filter fun tag => tag ∉ names
      if missing.isEmpty then .ok () else .error (.nonExhaustive S.name missing)

theorem coverage_ofCalls (S : Declaration) (calls : List (CaseCall α ω)) :
    (ofCalls calls).coverage S =
      coverageOf S (CaseCall.armNames calls) (CaseCall.hasWildcard calls) := by
  have hmissing : ∀ tags, (ofCalls calls).missing tags =
      tags.filter fun tag => tag ∉ CaseCall.armNames calls := by
    intro tags
    apply List.filter_congr
    intro tag _
    have hhas := has_ofCalls calls tag
    cases h : (ofCalls calls).has tag <;> simp_all
  rw [coverage, coverageOf, isSome_wildcard_ofCalls]
  by_cases hwildcard : CaseCall.hasWildcard calls = true
  · rw [if_pos hwildcard, if_pos hwildcard]
  · rw [if_neg hwildcard, if_neg hwildcard]
    cases S.tags with
    | every => rfl
    | listed tags =>
        dsimp only
        rw [hmissing]

/-- The check of calls that neither repeat a name nor give an undeclared one. -/
theorem check_ofCalls {calls : List (CaseCall α ω)} (hnodup : (CaseCall.armNames calls).Nodup)
    (hdeclared : ∀ name ∈ CaseCall.armNames calls, S.contains name = true) :
    (ofCalls calls).check S =
      coverageOf S (CaseCall.armNames calls) (CaseCall.hasWildcard calls) := by
  rw [← coverage_ofCalls]
  apply check_eq_coverage (repeated_ofCalls_of_nodup hnodup)
  intro n hn
  exact hdeclared n ((has_ofCalls calls n).mp hn)

/-! ## §5  Selection -/

theorem select_eq_arm_iff {a : α} : t.select name = .arm a ↔ t.arm? name = some a := by
  unfold select
  cases t.arm? name with
  | some handler => simp
  | none => cases t.wildcard <;> simp

theorem select_eq_wildcard_iff {w : ω} :
    t.select name = .wildcard w ↔ t.arm? name = none ∧ t.wildcard = some w := by
  unfold select
  cases t.arm? name with
  | some handler => simp
  | none => cases t.wildcard <;> simp

theorem select_eq_nothing_iff :
    t.select name = .nothing ↔ t.has name = false ∧ t.wildcard.isSome = false := by
  unfold select has
  cases t.arm? name with
  | some handler => simp
  | none => cases t.wildcard <;> simp

/-- Of the arms that calls give for a name, the last is the one that is kept. -/
theorem arm?_ofCalls (calls : List (CaseCall α ω)) (name : String) :
    (ofCalls calls).arm? name = (CaseCall.armsFor name calls).getLast? := by
  induction calls using List.reverseRecOn with
  | nil => rfl
  | append_singleton calls call ih =>
      rw [CaseCall.armsFor_snoc, ofCalls_snoc]
      cases call with
      | arm n handler =>
          rw [follow, arm?_insert, ih]
          by_cases hn : n = name
          · simp [CaseCall.armFor?, hn]
          · simp [CaseCall.armFor?, hn, Ne.symm hn]
      | wildcard handler =>
          rw [CaseCall.armFor?, Option.toList_none, List.append_nil, ← ih]
          rfl

/-- Of the wildcards that calls give, the last is the one that is kept. -/
theorem wildcard_ofCalls (calls : List (CaseCall α ω)) :
    (ofCalls calls).wildcard = (CaseCall.wildcards calls).getLast? := by
  induction calls using List.reverseRecOn with
  | nil => rfl
  | append_singleton calls call ih =>
      rw [CaseCall.wildcards_snoc, ofCalls_snoc]
      cases call with
      | arm name handler =>
          rw [CaseCall.wildcard?, Option.toList_none, List.append_nil, ← ih]
          rfl
      | wildcard handler => simp [follow, CaseCall.wildcard?]

theorem select_ofCalls_ne_nothing_iff (calls : List (CaseCall α ω)) (name : String) :
    (ofCalls calls).select name ≠ .nothing ↔
      name ∈ CaseCall.armNames calls ∨ CaseCall.hasWildcard calls = true := by
  rw [Ne, select_eq_nothing_iff, isSome_wildcard_ofCalls, ← has_ofCalls, not_and_or,
    Bool.not_eq_false, Bool.not_eq_false]

end CaseTable

end Coproduct
