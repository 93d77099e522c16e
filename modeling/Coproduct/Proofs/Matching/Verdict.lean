import Coproduct.Proofs.Matching.Arrangement
import Coproduct.Proofs.Text.ByteOrder
/-!
# The verdict on a handler map

A handler map can have several faults at once, and the check names one of them. Which one can be
said of the names of the arms, in the order in which they were given, and of whether there is a
wildcard: the first name that is repeated, else the least one that is undeclared, else a gap. A
wildcard excuses a gap and nothing else. The table has lost the order of the calls and the arms that
were replaced, so what it remembers of repeats is followed call by call.

§1 the first repeat · §2 the verdict · §3 the check.
-/

namespace Coproduct

variable {α β ρ ω : Type} {S : Declaration} {names : List String} {name n : String}
  {wildcard : Bool} {r : Except SumError Unit}

/-! ## §1  The first repeat -/

/-- The first of the names that stands among those before it. -/
def FirstRepeat (names : List String) (name : String) : Prop :=
  ∃ before after, names = before ++ name :: after ∧ before.Nodup ∧ name ∈ before

/-- One more name repeats for the first time only where nothing was repeated before. -/
theorem firstRepeat_snoc_iff :
    FirstRepeat (names ++ [n]) name ↔
      FirstRepeat names name ∨ (names.Nodup ∧ n ∈ names ∧ name = n) := by
  constructor
  · rintro ⟨before, after, hsplit, hnodup, hmem⟩
    rcases List.eq_nil_or_concat after with rfl | ⟨after, last, rfl⟩
    · obtain ⟨rfl, hlast⟩ := List.append_inj' hsplit rfl
      cases hlast
      exact .inr ⟨hnodup, hmem, rfl⟩
    · rw [List.concat_eq_append, ← List.cons_append, ← List.append_assoc] at hsplit
      obtain ⟨rfl, -⟩ := List.append_inj' hsplit rfl
      exact .inl ⟨before, after, rfl, hnodup, hmem⟩
  · rintro (⟨before, after, rfl, hnodup, hmem⟩ | ⟨hnodup, hmem, rfl⟩)
    · exact ⟨before, after ++ [n], by simp, hnodup, hmem⟩
    · exact ⟨names, [], rfl, hnodup, hmem⟩

theorem exists_firstRepeat (h : ¬ names.Nodup) : ∃ name, FirstRepeat names name := by
  induction names using List.reverseRecOn with
  | nil => exact absurd List.nodup_nil h
  | append_singleton names n ih =>
      by_cases hnodup : names.Nodup
      · have hmem : n ∈ names := by
          by_contra hnew
          exact h (List.concat_eq_append ▸ hnodup.concat hnew)
        exact ⟨n, firstRepeat_snoc_iff.mpr (.inr ⟨hnodup, hmem, rfl⟩)⟩
      · obtain ⟨name, hname⟩ := ih hnodup
        exact ⟨name, firstRepeat_snoc_iff.mpr (.inl hname)⟩

/-- A table remembers the first repeat of its calls first. -/
theorem CaseTable.head?_repeated_ofCalls {calls : List (CaseCall α ω)}
    (h : FirstRepeat (CaseCall.armNames calls) name) :
    (ofCalls calls).repeated.head? = some name := by
  induction calls using List.reverseRecOn with
  | nil =>
      obtain ⟨before, after, hsplit, -⟩ := h
      simp [CaseCall.armNames] at hsplit
  | append_singleton calls call ih =>
      rw [CaseCall.armNames_snoc] at h
      rw [ofCalls_snoc]
      rcases call with ⟨n, a⟩ | w
      · rw [follow, repeated_insert]
        rcases firstRepeat_snoc_iff.mp h with hbefore | ⟨hnodup, hmem, rfl⟩
        · -- What is remembered later stands behind what is remembered already.
          split
          · rw [List.head?_append, ih hbefore]
            rfl
          · exact ih hbefore
        · rw [if_pos ((has_ofCalls calls name).mpr hmem), repeated_ofCalls_of_nodup hnodup]
          rfl
      · rw [CaseCall.armName?, Option.toList_none, List.append_nil] at h
        exact ih h

/-! ## §2  The verdict -/

/-- The least of the names that the sum type does not contain, in the order of their bytes. -/
def LeastUndeclared (S : Declaration) (names : List String) (name : String) : Prop :=
  (name ∈ names ∧ S.contains name = false) ∧
    ∀ other ∈ names, S.contains other = false → Utf8.bytes name ≤ Utf8.bytes other

/-- The verdict on arms of the given names, in the order of the calls, with or without a wildcard.
A later case applies only where the earlier ones do not. -/
inductive IsVerdict (S : Declaration) (names : List String) (wildcard : Bool) :
    Except SumError Unit → Prop where
  | repeated {name : String} (hfirst : FirstRepeat names name) :
      IsVerdict S names wildcard (.error (.duplicateArm S.name name))
  | undeclared {name : String} (hnodup : names.Nodup) (hleast : LeastUndeclared S names name) :
      IsVerdict S names wildcard (.error (.tag (.unknown S.name name)))
  | excused (hnodup : names.Nodup) (hdeclared : ∀ name ∈ names, S.contains name = true)
      (hwildcard : wildcard = true) : IsVerdict S names wildcard (.ok ())
  | endless (hnodup : names.Nodup) (hdeclared : ∀ name ∈ names, S.contains name = true)
      (hwildcard : wildcard = false) (htags : S.tags = .every) :
      IsVerdict S names wildcard (.error (.openWithoutWildcard S.name))
  | gap {tags : List String} (hnodup : names.Nodup)
      (hdeclared : ∀ name ∈ names, S.contains name = true) (hwildcard : wildcard = false)
      (htags : S.tags = .listed tags) (hgap : ∃ tag ∈ tags, tag ∉ names) :
      IsVerdict S names wildcard
        (.error (.nonExhaustive S.name (tags.filter fun tag => tag ∉ names)))
  | covered {tags : List String} (hnodup : names.Nodup)
      (hdeclared : ∀ name ∈ names, S.contains name = true) (hwildcard : wildcard = false)
      (htags : S.tags = .listed tags) (hcovered : ∀ tag ∈ tags, tag ∈ names) :
      IsVerdict S names wildcard (.ok ())

theorem leastUndeclared_iff :
    LeastUndeclared S names name ↔
      ((Tag.sortNames names).find? fun n => !S.contains n) = some name := by
  rw [Tag.find?_sortNames_eq_some_iff]
  simp only [LeastUndeclared, Utf8.bytes_le_iff, Bool.not_eq_true']

/-- **There is a verdict** on all arms. -/
theorem exists_isVerdict (S : Declaration) (names : List String) (wildcard : Bool) :
    ∃ r, IsVerdict S names wildcard r := by
  -- Each fault is dealt with first, so that the rest goes on without it.
  by_cases hnodup : names.Nodup
  swap
  · obtain ⟨name, hfirst⟩ := exists_firstRepeat hnodup
    exact ⟨_, .repeated hfirst⟩
  rcases hfind : (Tag.sortNames names).find? fun n => !S.contains n with _ | name
  swap
  · exact ⟨_, .undeclared hnodup (leastUndeclared_iff.mpr hfind)⟩
  have hdeclared : ∀ name ∈ names, S.contains name = true := by
    intro name hname
    simpa using List.find?_eq_none.mp hfind name (Tag.mem_sortNames.mpr hname)
  rcases hwildcard : wildcard with _ | _
  swap
  · exact ⟨_, .excused hnodup hdeclared rfl⟩
  rcases htags : S.tags with tags | _
  swap
  · exact ⟨_, .endless hnodup hdeclared rfl htags⟩
  by_cases hgap : ∃ tag ∈ tags, tag ∉ names
  · exact ⟨_, .gap hnodup hdeclared rfl htags hgap⟩
  · simp only [not_exists, not_and, not_not] at hgap
    exact ⟨_, .covered hnodup hdeclared rfl htags hgap⟩

/-! ## §3  The check -/

namespace CaseTable

variable {calls : List (CaseCall α ω)}

theorem check_of_firstRepeat (h : FirstRepeat (CaseCall.armNames calls) name) :
    (ofCalls calls).check S = .error (.duplicateArm S.name name) := by
  unfold check
  rw [head?_repeated_ofCalls h]

theorem check_of_leastUndeclared (hnodup : (CaseCall.armNames calls).Nodup)
    (h : LeastUndeclared S (CaseCall.armNames calls) name) :
    (ofCalls calls).check S = .error (.tag (.unknown S.name name)) := by
  -- The table keeps each name once, in an order of its own; only its least name counts.
  have hmem : ∀ n, n ∈ (ofCalls calls).arms.map (·.1) ↔ n ∈ CaseCall.armNames calls := by
    intro n
    rw [mem_names_iff_has, has_ofCalls]
  have hfind : ((ofCalls calls).sortedNames.find? fun n => !S.contains n) = some name := by
    unfold LeastUndeclared at h
    simp only [← hmem] at h
    exact leastUndeclared_iff.mp h
  unfold check
  rw [repeated_ofCalls_of_nodup hnodup, hfind]
  rfl

/-- **The check gives the verdict** on the names of the calls. -/
theorem check_of_isVerdict
    (h : IsVerdict S (CaseCall.armNames calls) (CaseCall.hasWildcard calls) r) :
    (ofCalls calls).check S = r := by
  cases h with
  | repeated hfirst => exact check_of_firstRepeat hfirst
  | undeclared hnodup hleast => exact check_of_leastUndeclared hnodup hleast
  | excused hnodup hdeclared hwildcard =>
      rw [check_ofCalls hnodup hdeclared, coverageOf, if_pos hwildcard]
  | endless hnodup hdeclared hwildcard htags =>
      rw [check_ofCalls hnodup hdeclared, coverageOf, hwildcard, htags]
      rfl
  | @gap tags hnodup hdeclared hwildcard htags hgap =>
      have hmissing : (tags.filter fun tag => tag ∉ CaseCall.armNames calls).isEmpty = false := by
        obtain ⟨tag, htag, hnot⟩ := hgap
        exact List.isEmpty_eq_false_iff_exists_mem.mpr ⟨tag, by simp [htag, hnot]⟩
      rw [check_ofCalls hnodup hdeclared, coverageOf, hwildcard, htags]
      simp only [hmissing]
      rfl
  | @covered tags hnodup hdeclared hwildcard htags hcovered =>
      have hmissing : (tags.filter fun tag => tag ∉ CaseCall.armNames calls) = [] := by
        simpa [List.filter_eq_nil_iff] using hcovered
      rw [check_ofCalls hnodup hdeclared, coverageOf, hwildcard, htags]
      simp only [hmissing]
      rfl

end CaseTable

namespace HandlerMap

variable (H : HandlerMap ρ β)

theorem check_of_isVerdict (h : IsVerdict S H.armNames H.hasWildcard r) : H.check S = r := by
  rcases H with calls | ⟨into, calls⟩ | calls | ⟨into, calls⟩
  · exact CaseTable.check_of_isVerdict h
  · simp only [armNames, hasWildcard, ← armNames_widenCalls into,
      ← hasWildcard_widenCalls into] at h
    exact CaseTable.check_of_isVerdict h
  · exact CaseTable.check_of_isVerdict h
  · simp only [armNames, hasWildcard, ← armNames_widenAnswers into,
      ← hasWildcard_widenAnswers into] at h
    exact CaseTable.check_of_isVerdict h

theorem check_eq_iff : H.check S = r ↔ IsVerdict S H.armNames H.hasWildcard r := by
  constructor
  · rintro rfl
    obtain ⟨r, hr⟩ := exists_isVerdict S H.armNames H.hasWildcard
    rwa [check_of_isVerdict H hr]
  · exact check_of_isVerdict H

theorem verdict_checked (S : Declaration) :
    verdict (H.checked S) = reported S (H.check S) := by
  rw [checked_eq_checked_unchecked, BuiltMatcher.verdict_checked, check_unchecked, sum_unchecked]

/-- **The verdict is exact.** Take calls of any flavour on any handler map, for whatever names. The
check gives the verdict on the names of the arms in the order of the calls: the first repeat, else
the least undeclared name, else nothing if there is a wildcard, else a gap, with the missing tags as
they are declared. To build with a check is to check what is built without one, and the verdict and
its report are the same for all orders in which the table may keep its entries. -/
theorem verdict_exact (S : Declaration) :
    (∀ r, (verdict (H.checked S)).value = r ↔ IsVerdict S H.armNames H.hasWildcard r) ∧
      H.checked S = (H.unchecked S).checked ∧
      ∀ M, H.Builds S M → verdict M.checked = verdict (H.checked S) := by
  refine ⟨?_, H.checked_eq_checked_unchecked S, ?_⟩
  · intro r
    rw [← check_eq_iff, verdict_checked, value_reported]
  · intro M hM
    rw [hM.rearranges.verdict_eq, checked_eq_checked_unchecked]

/-- A tag that is declared twice is missing twice, also where the table has changed its order. -/
theorem verdict_exact_declared_twice :
    let S : Declaration := ⟨"Letters", .listed ["a", "b", "c", "a"]⟩
    let H : HandlerMap Nat Nat := .storedWidened (· + 1) [.arm "b" 1, .arm "c" 2]
    let M : BuiltMatcher Nat := .stored ⟨S, ⟨[("b", 2), ("c", 3)], none, []⟩⟩
    H.Builds S M ∧ (verdict M.checked).value = .error (.nonExhaustive "Letters" ["a", "a"]) := by
  intro S H M
  have hM : H.Builds S M := by
    have hbuilt := CaseTable.builtBy_ofCalls ([.arm "b" 2] : List (CaseCall Nat Nat))
    exact .storedWidened (hbuilt.call (.arm "c" 3) ⟨.swap _ _ _, rfl, rfl⟩)
  have hgap : IsVerdict S H.armNames H.hasWildcard
      (.error (.nonExhaustive "Letters" ["a", "a"])) :=
    @IsVerdict.gap S _ _ ["a", "b", "c", "a"] (by decide) (by decide) rfl rfl ⟨"a", by decide⟩
  obtain ⟨hverdict, -, horder⟩ := verdict_exact H S
  refine ⟨hM, ?_⟩
  rw [horder M hM, hverdict]
  exact hgap

end HandlerMap

end Coproduct
