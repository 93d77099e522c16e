import Coproduct.Proofs.Bundle.Access
import Coproduct.Proofs.Matching.Verdict
/-!
# What order cannot change

Handler maps are built call by call, and bundles are filled access by access. As long as no name is
given two arms and no second wildcard replaces the first, the order of the calls is lost: the tables
have the same entries, and in which order a table keeps them cannot be seen. With a repeated name
the order does count, but every order is rejected for a repeat. A bundle is filled with the same
names in whatever order they are asked for.

§1 calls in another order · §2 accesses in another order · §3 the result.
-/

namespace Coproduct

variable {α β ρ ω : Type} {S : Declaration}

/-! ## §1  Calls in another order -/

theorem perm_eq_of_length_le_one {l l' : List α} (h : l.Perm l') (hle : l.length ≤ 1) : l = l' := by
  rcases l with _ | ⟨a, _ | ⟨b, rest⟩⟩
  · exact (List.nil_perm.mp h).symm
  · exact List.singleton_perm.mp h
  · simp at hle

namespace CaseCall

variable {calls calls' : List (CaseCall α ω)}

theorem length_armsFor (name : String) (calls : List (CaseCall α ω)) :
    (armsFor name calls).length = (armNames calls).count name := by
  induction calls with
  | nil => rfl
  | cons call rest ih =>
      rcases call with ⟨n, a⟩ | w
      · by_cases hn : n = name
        · simpa [armsFor, armNames, armFor?, armName?, hn] using ih
        · simpa [armsFor, armNames, armFor?, armName?, hn] using ih
      · exact ih

theorem armNames_perm (h : calls.Perm calls') : (armNames calls).Perm (armNames calls') :=
  h.filterMap _

/-- Calls that give no name two arms give the same arms in every order. -/
theorem armsFor_eq_of_perm (h : calls.Perm calls') (hnodup : (armNames calls).Nodup)
    (name : String) : armsFor name calls = armsFor name calls' := by
  refine perm_eq_of_length_le_one (h.filterMap _) ?_
  rw [length_armsFor]
  exact List.nodup_iff_count_le_one.mp hnodup name

theorem wildcards_eq_of_perm (h : calls.Perm calls') (hone : (wildcards calls).length ≤ 1) :
    wildcards calls = wildcards calls' :=
  perm_eq_of_length_le_one (h.filterMap _) hone

end CaseCall

/-- **Calls in another order** build the same entries. -/
theorem CaseTable.rearranges_of_perm {calls calls' : List (CaseCall α ω)} (h : calls.Perm calls')
    (hnodup : (CaseCall.armNames calls).Nodup) (hone : (CaseCall.wildcards calls).length ≤ 1) :
    (ofCalls calls).Rearranges (ofCalls calls') where
  arms := by
    have hentries : ∀ {calls : List (CaseCall α ω)}, (ofCalls calls).arms.Nodup := by
      intro calls
      exact List.Nodup.of_map _ (oneEach_ofCalls calls)
    -- With one entry per name, the entries are the same if every name has the same arm.
    refine (List.perm_ext_iff_of_nodup hentries hentries).mpr ?_
    rintro ⟨name, a⟩
    rw [(oneEach_ofCalls calls).mem_arms_iff, (oneEach_ofCalls calls').mem_arms_iff, arm?_ofCalls,
      arm?_ofCalls, CaseCall.armsFor_eq_of_perm h hnodup]
  wildcard := by rw [wildcard_ofCalls, wildcard_ofCalls, CaseCall.wildcards_eq_of_perm h hone]
  repeated := by
    rw [repeated_ofCalls_of_nodup hnodup,
      repeated_ofCalls_of_nodup ((CaseCall.armNames_perm h).nodup_iff.mp hnodup)]

namespace HandlerMap

variable {H H' : HandlerMap ρ β} {M M' : BuiltMatcher β}

/-- The same calls on a handler map of one flavour, in another order. -/
inductive Permutes : HandlerMap ρ β → HandlerMap ρ β → Prop where
  | handlers {calls calls' : List (MatcherCall β)} (h : calls.Perm calls') :
      Permutes (.handlers calls) (.handlers calls')
  | widened {into : ρ → β} {calls calls' : List (CaseCall (DirectArm ρ) ρ)}
      (h : calls.Perm calls') : Permutes (.widened into calls) (.widened into calls')
  | stored {calls calls' : List (CaseCall β β)} (h : calls.Perm calls') :
      Permutes (.stored calls) (.stored calls')
  | storedWidened {into : ρ → β} {calls calls' : List (CaseCall ρ ρ)} (h : calls.Perm calls') :
      Permutes (.storedWidened into calls) (.storedWidened into calls')

/-- How many wildcards the calls give. -/
def wildcardCount : HandlerMap ρ β → Nat
  | .handlers calls => (CaseCall.wildcards calls).length
  | .widened _ calls => (CaseCall.wildcards calls).length
  | .stored calls => (CaseCall.wildcards calls).length
  | .storedWidened _ calls => (CaseCall.wildcards calls).length

theorem Permutes.armNames_perm (h : H.Permutes H') : H.armNames.Perm H'.armNames := by
  rcases h with h | h | h | h
  all_goals exact CaseCall.armNames_perm h

/-- What calls in another order build is the same matcher, its table kept in another order. -/
theorem Permutes.rearranges (h : H.Permutes H') (hnodup : H.armNames.Nodup)
    (hone : H.wildcardCount ≤ 1) (S : Declaration) :
    (H.unchecked S).Rearranges (H'.unchecked S) := by
  rcases h with h | @⟨into, calls, calls', h⟩ | h | @⟨into, calls, calls', h⟩
  · exact .handlers (CaseTable.rearranges_of_perm h hnodup hone)
  · refine .handlers (CaseTable.rearranges_of_perm (h.map _) ?_ ?_)
    · rwa [armNames_widenCalls into calls]
    · rwa [widenCalls, CaseCall.wildcards_map, List.length_map]
  · exact .stored (CaseTable.rearranges_of_perm h hnodup hone)
  · refine .stored (CaseTable.rearranges_of_perm (h.map _) ?_ ?_)
    · rwa [armNames_widenAnswers into calls]
    · rwa [widenAnswers, CaseCall.wildcards_map, List.length_map]

/-- Calls that repeat a name are rejected for a repeat, in whatever order the table is kept. -/
theorem Builds.rejected (h : H.Builds S M) (hrepeat : ¬ H.armNames.Nodup) :
    ∃ name, (verdict M.checked).value = .error (.duplicateArm S.name name) := by
  obtain ⟨name, hfirst⟩ := exists_firstRepeat hrepeat
  refine ⟨name, ?_⟩
  rw [h.rearranges.verdict_eq, ← checked_eq_checked_unchecked, verdict_checked, value_reported,
    H.check_of_isVerdict (.repeated hfirst)]

/-- **Calls in another order** build the same matcher, its table kept in some order. -/
theorem Permutes.builds_rearranges (h : H.Permutes H') (hnodup : H.armNames.Nodup)
    (hone : H.wildcardCount ≤ 1) (hM : H.Builds S M) (hM' : H'.Builds S M') : M.Rearranges M' :=
  hM.rearranges.trans ((h.rearranges hnodup hone S).trans hM'.rearranges.symm)

end HandlerMap

/-! ## §2  Accesses in another order -/

namespace Bundle

variable {b k k' : Bundle} {fresh next next' : Nat} {name : String} {names names' : List String}

/-- What a bundle can be after accesses for names, one after another, where the order in which it
keeps its constructors may change with every access. -/
inductive Filled (S : Declaration) (b : Bundle) (fresh : Nat) :
    List String → Bundle → Nat → Prop where
  | start : Filled S b fresh [] b fresh
  | access {names : List String} {k k' : Bundle} {next : Nat} (h : Filled S b fresh names k next)
      (name : String) (horder : k'.entries.Perm (k.get S name next).value.2.entries) :
      Filled S b fresh (names ++ [name]) k' (next + 1)

theorem Sound.of_perm (h : k.Sound S fresh) (hperm : k'.entries.Perm k.entries) :
    k'.Sound S fresh where
  declared := fun c hc => h.declared c (hperm.mem_iff.mp hc)
  names_nodup := (hperm.map _).nodup_iff.mpr h.names_nodup
  identities_nodup := (hperm.map _).nodup_iff.mpr h.identities_nodup
  identity_lt := fun c hc => h.identity_lt c (hperm.mem_iff.mp hc)

theorem Filled.sound (h : Filled S b fresh names k next) (hb : b.Sound S fresh) :
    k.Sound S next := by
  induction h with
  | start => exact hb
  | access _ name horder ih => exact (ih.get name).of_perm horder

theorem find?_isSome_iff_mem_names :
    (k.find? name).isSome = true ↔ name ∈ k.entries.map (·.tag.name) := by
  rw [find?_isSome_iff, List.mem_map]

/-- A bundle keeps what it kept before and the declared names among those asked for. -/
theorem Filled.find?_isSome_iff (h : Filled S b fresh names k next) :
    (k.find? name).isSome = true ↔
      (b.find? name).isSome = true ∨ (name ∈ names ∧ S.Declares name) := by
  induction h with
  | start => simp
  | @access names k k' next _ n horder ih =>
      rw [find?_isSome_iff_mem_names, (horder.map _).mem_iff, ← find?_isSome_iff_mem_names,
        find?_isSome_get_iff, ih, List.mem_append, List.mem_singleton]
      constructor
      · rintro ((hkept | ⟨hmem, hdeclares⟩) | ⟨rfl, hdeclares⟩)
        · exact .inl hkept
        · exact .inr ⟨.inl hmem, hdeclares⟩
        · exact .inr ⟨.inr rfl, hdeclares⟩
      · rintro (hkept | ⟨hmem | rfl, hdeclares⟩)
        · exact .inl (.inl hkept)
        · exact .inl (.inr ⟨hmem, hdeclares⟩)
        · exact .inr ⟨rfl, hdeclares⟩

/-- **Accesses for the same names** leave the same names, in whatever order they come and however
often each of them does. -/
theorem Filled.cachedTags_eq (h : Filled S b fresh names k next)
    (h' : Filled S b fresh names' k' next') (hb : b.Sound S fresh)
    (hnames : ∀ n, n ∈ names ↔ n ∈ names') : k.cachedTags = k'.cachedTags := by
  apply Tag.sortNames_eq_of_perm
  refine (List.perm_ext_iff_of_nodup (h.sound hb).names_nodup (h'.sound hb).names_nodup).mpr ?_
  intro n
  rw [← find?_isSome_iff_mem_names, ← find?_isSome_iff_mem_names, h.find?_isSome_iff,
    h'.find?_isSome_iff, hnames]

end Bundle

/-! ## §3  The result -/

/-- **Order cannot be seen.** Take the same calls on a handler map of any flavour in two orders, and
let the tables keep their entries in whatever orders, which may change with every call. If the calls
give no name two arms and at most one wildcard, then the check gives the same verdict with the same
report, matching gives every member the same result with the same events, and the outlines are the
same. If they repeat a name, both are rejected for a repeat. Likewise take accesses to a bundle for
the same names in two orders, and let the bundle keep its constructors in whatever orders: the names
and the number of those that are kept and the outlines are the same. -/
theorem order_cannot_be_seen :
    (∀ (S : Declaration) (H H' : HandlerMap ρ β), H.Permutes H' →
      ∀ M M', H.Builds S M → H'.Builds S M' →
        (H.armNames.Nodup → H.wildcardCount ≤ 1 →
          verdict M.checked = verdict M'.checked ∧ (∀ m, M.apply m = M'.apply m) ∧
            ∀ shown, M.outline shown = M'.outline shown) ∧
        (¬ H.armNames.Nodup →
          (∃ name, (verdict M.checked).value = .error (.duplicateArm S.name name)) ∧
            ∃ name, (verdict M'.checked).value = .error (.duplicateArm S.name name))) ∧
    ∀ (S : Declaration) (b : Bundle) (fresh : Nat), b.Reachable S fresh →
      ∀ names names' : List String, (∀ n, n ∈ names ↔ n ∈ names') →
        ∀ k k' next next', Bundle.Filled S b fresh names k next →
          Bundle.Filled S b fresh names' k' next' →
          k.cachedTags = k'.cachedTags ∧ k.size = k'.size ∧
            k.cacheOutline S = k'.cacheOutline S ∧ k.outline S = k'.outline S := by
  refine ⟨?calls, ?accesses⟩
  case calls =>
    intro S H H' hperm M M' hM hM'
    refine ⟨?_, ?_⟩
    · intro hnodup hone
      have hsame := hperm.builds_rearranges hnodup hone hM hM'
      exact ⟨hsame.verdict_eq, hsame.apply_eq hM'.oneEach, hsame.outline_eq⟩
    · intro hrepeat
      refine ⟨hM.rejected hrepeat, hM'.rejected ?_⟩
      rwa [← hperm.armNames_perm.nodup_iff]
  case accesses =>
    intro S b fresh hb names names' hnames k k' next next' hk hk'
    have htags := hk.cachedTags_eq hk' hb.sound hnames
    have hsize : k.size = k'.size := by
      rw [← k.length_cachedTags, ← k'.length_cachedTags, htags]
    have hcache : k.cacheOutline S = k'.cacheOutline S := by
      unfold Bundle.cacheOutline
      rw [htags]
    refine ⟨htags, hsize, hcache, ?_⟩
    unfold Bundle.outline
    rw [hcache]

/-- Two undeclared names in two orders: the table that was built last is kept the other way round,
and the verdict names the lesser of the two all the same. -/
theorem order_cannot_be_seen_undeclared :
    let S : Declaration := ⟨"Letters", .listed ["a", "b"]⟩
    let H : HandlerMap Nat Nat := .stored [.arm "z" 1, .wildcard 0, .arm "y" 2]
    let H' : HandlerMap Nat Nat := .stored [.arm "y" 2, .arm "z" 1, .wildcard 0]
    let M : BuiltMatcher Nat := .stored ⟨S, ⟨[("y", 2), ("z", 1)], some 0, []⟩⟩
    H.Permutes H' ∧ H'.Builds S M ∧
      verdict M.checked = verdict (H.checked S) ∧
      (verdict (H.checked S)).value = .error (.tag (.unknown "Letters" "y")) := by
  intro S H H' M
  have hperm : H.Permutes H' := .stored ((List.Perm.swap _ _ _).cons _ |>.trans (.swap _ _ _))
  have hM : H'.Builds S M := by
    have hbuilt := CaseTable.builtBy_ofCalls ([.arm "y" 2, .arm "z" 1] : List (CaseCall Nat Nat))
    exact .stored (hbuilt.call (.wildcard 0) ⟨.swap _ _ _, rfl, rfl⟩)
  have hundeclared :
      IsVerdict S H.armNames H.hasWildcard (.error (.tag (.unknown "Letters" "y"))) :=
    .undeclared (by decide) (by simp only [LeastUndeclared, Utf8.bytes_le_iff]; decide)
  obtain ⟨hcalls, -⟩ := order_cannot_be_seen (ρ := Nat) (β := Nat)
  obtain ⟨hverdict, -⟩ :=
    (hcalls S H H' hperm _ M (H.builds_unchecked S) hM).1 (by decide) (by decide)
  refine ⟨hperm, hM, ?_, ?_⟩
  · rw [← hverdict, H.checked_eq_checked_unchecked]
  · rw [HandlerMap.verdict_checked, value_reported, H.check_of_isVerdict hundeclared]

end Coproduct
