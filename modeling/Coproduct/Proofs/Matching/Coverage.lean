import Coproduct.Proofs.Matching.HandlerMap
import Coproduct.Proofs.Obtainable
import Mathlib.Data.Fintype.EquivFin
/-!
# The check against matching

The check is made once, of the declared tags against the names of the arms; matching looks up one
name at a time. The two are as close as they can be. What the check accepts never comes out
unmatched, and what it rejects comes out unmatched on just the tags that the rejection reports:
the missing ones of a closed sum type, any but those with an arm of an open one. The empty name is
the single difference. A closed sum type can list it, so the check can miss it, but no member has
it for a tag.

§1 what a rejection leaves uncovered · §2 the correspondence.
-/

namespace Coproduct

/-! ## §1  What a rejection leaves uncovered -/

/-- The tags that a rejection reports as uncovered, where `names` are the names of the arms. -/
def SumError.Uncovers (names : List String) (name : String) : SumError → Prop
  | .nonExhaustive _ missing => name ≠ "" ∧ name ∈ missing
  | .openWithoutWildcard _ => name ≠ "" ∧ name ∉ names
  | _ => False

namespace CaseTable

variable {S : Declaration} {names : List String} {wildcard : Bool} {name : String}
  {cause : SumError}

/-- The two rejections for a gap. -/
theorem coverageOf_eq_error_iff :
    coverageOf S names wildcard = .error cause ↔
      wildcard = false ∧
        ((S.tags = .every ∧ cause = .openWithoutWildcard S.name) ∨
          ∃ tags, S.tags = .listed tags ∧ (∃ tag ∈ tags, tag ∉ names) ∧
            cause = .nonExhaustive S.name (tags.filter fun tag => tag ∉ names)) := by
  cases wildcard with
  | true => simp [coverageOf]
  | false =>
      cases htags : S.tags with
      | every => simp [coverageOf, htags, eq_comm]
      | listed tags =>
          by_cases hgap : ∃ tag ∈ tags, tag ∉ names
          · have hmissing : (tags.filter fun tag => tag ∉ names).isEmpty = false := by
              obtain ⟨tag, htag, hnot⟩ := hgap
              exact List.isEmpty_eq_false_iff_exists_mem.mpr ⟨tag, by simp [htag, hnot]⟩
            simp only [coverageOf, htags, hmissing]
            simp [hgap, eq_comm]
          · have hmissing : (tags.filter fun tag => tag ∉ names).isEmpty = true := by
              simpa [List.isEmpty_iff, List.filter_eq_nil_iff] using hgap
            simp only [coverageOf, htags, hmissing]
            refine iff_of_false (by simp) ?_
            rintro ⟨-, ⟨hevery, -⟩ | ⟨tags', hlisted, h, -⟩⟩
            · cases hevery
            · cases hlisted
              exact hgap h

/-- Names that pass leave no declared tag uncovered. -/
theorem covered_of_coverageOf_eq_ok (h : coverageOf S names wildcard = .ok ())
    (hname : S.Declares name) : name ∈ names ∨ wildcard = true := by
  by_contra hgap
  obtain ⟨hnot, hwildcard⟩ := not_or.mp hgap
  have hwildcard : wildcard = false := by simpa using hwildcard
  have hcause : ∃ cause, coverageOf S names wildcard = .error cause := by
    cases htags : S.tags with
    | every => exact ⟨_, coverageOf_eq_error_iff.mpr ⟨hwildcard, .inl ⟨htags, rfl⟩⟩⟩
    | listed tags =>
        have hmem : name ∈ tags := by
          simpa [Declaration.contains, htags, DeclaredTags.contains] using hname.2
        exact ⟨_, coverageOf_eq_error_iff.mpr
          ⟨hwildcard, .inr ⟨tags, htags, ⟨name, hmem, hnot⟩, rfl⟩⟩⟩
  obtain ⟨cause, hcause⟩ := hcause
  cases h.symm.trans hcause

/-- A rejection reports the declared tags for which there is nothing. -/
theorem uncovers_iff (h : coverageOf S names wildcard = .error cause) :
    cause.Uncovers names name ↔
      S.Declares name ∧ ¬ (name ∈ names ∨ wildcard = true) := by
  obtain ⟨rfl, hcause⟩ := coverageOf_eq_error_iff.mp h
  rcases hcause with ⟨htags, rfl⟩ | ⟨tags, htags, -, rfl⟩
  · simp [SumError.Uncovers, Declaration.Declares, Declaration.contains, htags,
      DeclaredTags.contains]
  · simp [SumError.Uncovers, Declaration.Declares, Declaration.contains, htags,
      DeclaredTags.contains, and_assoc]

end CaseTable

/-- No list of names has all tags of an open sum type. -/
theorem exists_tag_notMem (names : List String) : ∃ name : String, name ≠ "" ∧ name ∉ names := by
  obtain ⟨name, hname⟩ := Infinite.exists_notMem_finset ("" :: names).toFinset
  rw [List.mem_toFinset, List.mem_cons, not_or] at hname
  exact ⟨name, hname⟩

/-- Every declared name is the tag of a member. -/
theorem Declaration.Declares.exists_member {S : Declaration} {name : String}
    (h : S.Declares name) : ∃ m : Member, m.Obtainable S ∧ m.tag.name = name :=
  ⟨⟨⟨name, h.1⟩, .null⟩, Member.obtainable_iff.mpr h.2, rfl⟩

/-! ## §2  The correspondence -/

namespace HandlerMap

variable {ρ β : Type} {H : HandlerMap ρ β} {S : Declaration} {cause : SumError} {m : Member}

section Check

variable (hnodup : H.armNames.Nodup) (hdeclared : ∀ name ∈ H.armNames, S.contains name = true)

include hnodup hdeclared

/-- Calls that pass the check have something for every member. -/
theorem finds_of_check_eq_ok (hcheck : H.check S = .ok ()) (hm : m.Obtainable S) :
    (H.unchecked S).Finds m := by
  rw [check_eq_coverageOf H hnodup hdeclared] at hcheck
  rw [finds_unchecked_iff]
  exact CaseTable.covered_of_coverageOf_eq_ok hcheck
    (Declaration.declares_tag.mpr (Member.obtainable_iff.mp hm))

/-- Calls that are rejected have nothing for the members that the rejection reports. -/
theorem unmatched_iff_uncovers (hcheck : H.check S = .error cause) (hm : m.Obtainable S) :
    (H.unchecked S).Unmatched m ↔ cause.Uncovers H.armNames m.tag.name := by
  rw [check_eq_coverageOf H hnodup hdeclared] at hcheck
  have htag : S.Declares m.tag.name := Declaration.declares_tag.mpr (Member.obtainable_iff.mp hm)
  rw [BuiltMatcher.unmatched_iff, finds_unchecked_iff, CaseTable.uncovers_iff hcheck]
  constructor
  · intro hnothing
    exact ⟨htag, hnothing⟩
  · rintro ⟨-, hnothing⟩
    exact hnothing

/-- Each name that a rejection reports is the tag of a member. -/
theorem exists_member_of_uncovers {name : String} (hcheck : H.check S = .error cause)
    (h : cause.Uncovers H.armNames name) : ∃ m : Member, m.Obtainable S ∧ m.tag.name = name := by
  rw [check_eq_coverageOf H hnodup hdeclared] at hcheck
  exact ((CaseTable.uncovers_iff hcheck).mp h).1.exists_member

/-- Only gaps are reported. -/
theorem check_eq_error_cases (hcheck : H.check S = .error cause) :
    (S.tags = .every ∧ cause = .openWithoutWildcard S.name) ∨
      ∃ tags missing, S.tags = .listed tags ∧ cause = .nonExhaustive S.name missing := by
  rw [check_eq_coverageOf H hnodup hdeclared] at hcheck
  obtain ⟨-, hevery | ⟨tags, htags, -, hcause⟩⟩ := CaseTable.coverageOf_eq_error_iff.mp hcheck
  · exact .inl hevery
  · exact .inr ⟨tags, _, htags, hcause⟩

/-- A member comes out unmatched where the check rejects the calls for a name that is a tag. -/
theorem exists_unmatched_iff :
    (∃ m : Member, m.Obtainable S ∧ (H.unchecked S).Unmatched m) ↔
      ∃ cause, H.check S = .error cause ∧ ∃ name, cause.Uncovers H.armNames name := by
  constructor
  · rintro ⟨m, hm, hunmatched⟩
    cases hcheck : H.check S with
    | ok u =>
        exact absurd (finds_of_check_eq_ok hnodup hdeclared hcheck hm)
          (BuiltMatcher.unmatched_iff.mp hunmatched)
    | error cause =>
        exact ⟨cause, rfl, m.tag.name,
          (unmatched_iff_uncovers hnodup hdeclared hcheck hm).mp hunmatched⟩
  · rintro ⟨cause, hcheck, name, huncovers⟩
    obtain ⟨m, hm, rfl⟩ := exists_member_of_uncovers hnodup hdeclared hcheck huncovers
    exact ⟨m, hm, (unmatched_iff_uncovers hnodup hdeclared hcheck hm).mpr huncovers⟩

end Check

/-- **The check is exact.** Take calls for different names that the sum type contains, in any
flavour. If the check accepts them, then matching finds something for every member that can be
obtained, never fails for want of an arm, and answers where answers are stored. If it rejects
them, then the rejection is for a gap, and without the check the matcher fails for want of an arm on
just the members whose tag the rejection reports. So there is a member without an arm exactly where
an open sum type is rejected, or a closed one for a missing name that is not empty. -/
theorem check_exact (H : HandlerMap ρ β) (S : Declaration) (hnodup : H.armNames.Nodup)
    (hdeclared : ∀ name ∈ H.armNames, S.contains name = true) :
    (∀ M, (H.checked S).value = .ok M → ∀ m : Member, m.Obtainable S →
      M.Finds m ∧ ¬ M.Unmatched m ∧ (M.IsStored → ∃ answer, (M.apply m).value = .ok answer)) ∧
    (∀ cause, (H.checked S).value = .error cause →
      ((S.tags = .every ∧ cause = .openWithoutWildcard S.name) ∨
        ∃ tags missing, S.tags = .listed tags ∧ cause = .nonExhaustive S.name missing) ∧
      (∀ m : Member, m.Obtainable S →
        ((H.unchecked S).Unmatched m ↔ cause.Uncovers H.armNames m.tag.name)) ∧
      (∀ name, cause.Uncovers H.armNames name → ∃ m : Member, m.Obtainable S ∧ m.tag.name = name) ∧
      ∀ m : Member, (H.unchecked S).Unmatched m →
        ((H.unchecked S).apply m).value = .error (.unmatched S.name m.tag.name)) ∧
    ((∃ m : Member, m.Obtainable S ∧ (H.unchecked S).Unmatched m) ↔
      (H.checked S).value = .error (.openWithoutWildcard S.name) ∨
        ∃ missing, (H.checked S).value = .error (.nonExhaustive S.name missing) ∧
          ∃ name ∈ missing, name ≠ "") := by
  refine ⟨?accepted, ?rejected, ?gap⟩
  case accepted =>
    intro M hM m hm
    obtain ⟨hcheck, rfl⟩ := checked_eq_ok_iff.mp hM
    have hfinds := finds_of_check_eq_ok hnodup hdeclared hcheck hm
    refine ⟨hfinds, ?_, fun hstored => hstored.apply_eq_ok hfinds⟩
    rw [BuiltMatcher.unmatched_iff]
    exact not_not_intro hfinds
  case rejected =>
    intro cause hcause
    rw [checked_eq_error_iff] at hcause
    refine ⟨check_eq_error_cases hnodup hdeclared hcause,
      fun m hm => unmatched_iff_uncovers hnodup hdeclared hcause hm,
      fun name h => exists_member_of_uncovers hnodup hdeclared hcause h, ?_⟩
    intro m hunmatched
    have happly := hunmatched.1
    rwa [sum_unchecked] at happly
  case gap =>
    simp only [exists_unmatched_iff hnodup hdeclared, checked_eq_error_iff]
    constructor
    · rintro ⟨cause, hcheck, name, huncovers⟩
      rcases check_eq_error_cases hnodup hdeclared hcheck with ⟨-, rfl⟩ | ⟨-, missing, -, rfl⟩
      · exact .inl hcheck
      · exact .inr ⟨missing, hcheck, name, huncovers.2, huncovers.1⟩
    · rintro (hcheck | ⟨missing, hcheck, name, hmem, hname⟩)
      -- An open sum type has more tags than there are arms.
      · exact ⟨_, hcheck, exists_tag_notMem H.armNames⟩
      · exact ⟨_, hcheck, name, hname, hmem⟩

/-- A closed sum type that lists the empty name and repeats another, with an arm for one tag: the
rejection reports two names, and only one of them is the tag of a member that has no arm. -/
theorem check_exact_blank :
    let S : Declaration := ⟨"Letters", .listed ["", "a", "b", "a"]⟩
    let H : HandlerMap Nat Nat := .stored [.arm "a" 1]
    H.armNames.Nodup ∧ (∀ name ∈ H.armNames, S.contains name = true) ∧
      (H.checked S).value = .error (.nonExhaustive "Letters" ["", "b"]) ∧
      ∀ m : Member, m.Obtainable S → ((H.unchecked S).Unmatched m ↔ m.tag.name = "b") := by
  intro S H
  have hnodup : H.armNames.Nodup := by decide
  have hdeclared : ∀ name ∈ H.armNames, S.contains name = true := by decide
  have hrejected : (H.checked S).value = .error (.nonExhaustive "Letters" ["", "b"]) := by
    rw [checked_eq_error_iff, check_eq_coverageOf H hnodup hdeclared]
    rfl
  refine ⟨hnodup, hdeclared, hrejected, ?_⟩
  intro m hm
  obtain ⟨-, huncovers, -⟩ := (check_exact H S hnodup hdeclared).2.1 _ hrejected
  rw [huncovers m hm]
  have hname : m.tag.name ≠ "" := m.tag.nonempty
  simp [SumError.Uncovers, hname]

end HandlerMap

end Coproduct
