import Coproduct.Proofs.Matching.HandlerMap
/-!
# Tables kept in another order

A table has at most one entry per name, and keeps its entries in no particular order: the order may
change with every call. Nobody can tell. Two tables with the same entries get the same verdict of
the check, select the same for every name and have the same outline, because the check and the
outline sort the names before they look, and selection asks for one name. The next call leaves them
with the same entries again (`Rearranges.follow`), so whatever orders a table goes through while it
is built, it ends up with the same entries (`BuiltBy.rearranges`).

§1 tables · §2 tables that change their order · §3 matchers · §4 handler maps.
-/

namespace Coproduct

variable {α β ρ ω : Type}

/-! ## §1  Tables -/

namespace CaseTable

variable {S : Declaration} {t t' t'' : CaseTable α ω} {name : String} {a : α}

/-- The same entries, kept in whatever order. -/
structure Rearranges (t t' : CaseTable α ω) : Prop where
  arms : t.arms.Perm t'.arms
  wildcard : t.wildcard = t'.wildcard
  repeated : t.repeated = t'.repeated

/-- No name has two entries. -/
def OneEach (t : CaseTable α ω) : Prop := (t.arms.map (·.1)).Nodup

theorem Rearranges.refl (t : CaseTable α ω) : t.Rearranges t := ⟨.refl _, rfl, rfl⟩

theorem Rearranges.symm (h : t.Rearranges t') : t'.Rearranges t :=
  ⟨h.arms.symm, h.wildcard.symm, h.repeated.symm⟩

theorem Rearranges.trans (h : t.Rearranges t') (h' : t'.Rearranges t'') : t.Rearranges t'' :=
  ⟨h.arms.trans h'.arms, h.wildcard.trans h'.wildcard, h.repeated.trans h'.repeated⟩

theorem Rearranges.oneEach (h : t.Rearranges t') (hone : t'.OneEach) : t.OneEach :=
  (h.arms.map _).nodup_iff.mpr hone

theorem OneEach.insert (h : t.OneEach) (name : String) (a : α) : (t.insert name a).OneEach := by
  refine List.nodup_cons.mpr ⟨?_, h.sublist (List.filter_sublist.map _)⟩
  intro hmem
  obtain ⟨entry, hentry, hname⟩ := List.mem_map.mp hmem
  simpa [hname] using (List.mem_filter.mp hentry).2

theorem OneEach.follow (h : t.OneEach) (call : CaseCall α ω) : (t.follow call).OneEach := by
  rcases call with ⟨name, a⟩ | w
  · exact h.insert name a
  · exact h

/-- **Calls never leave two entries** for a name. -/
theorem oneEach_ofCalls (calls : List (CaseCall α ω)) : (ofCalls calls).OneEach := by
  induction calls using List.reverseRecOn with
  | nil => exact List.nodup_nil
  | append_singleton calls call ih =>
      rw [ofCalls_snoc]
      exact ih.follow call

theorem lookup_of_mem {arms : List (String × α)} (h : (arms.map (·.1)).Nodup)
    (hmem : (name, a) ∈ arms) : arms.lookup name = some a := by
  induction arms with
  | nil => exact absurd hmem List.not_mem_nil
  | cons entry rest ih =>
      obtain ⟨key, b⟩ := entry
      rw [List.map_cons, List.nodup_cons] at h
      rw [lookup_cons_eq_ite]
      rcases List.mem_cons.mp hmem with heq | hrest
      · cases heq
        exact if_pos rfl
      · have hne : name ≠ key := by
          rintro rfl
          exact h.1 (List.mem_map.mpr ⟨_, hrest, rfl⟩)
        rw [if_neg hne]
        exact ih h.2 hrest

theorem OneEach.mem_arms_iff (h : t.OneEach) : (name, a) ∈ t.arms ↔ t.arm? name = some a :=
  ⟨lookup_of_mem h, mem_of_lookup⟩

theorem Rearranges.arm?_eq (h : t.Rearranges t') (hone : t'.OneEach) (name : String) :
    t.arm? name = t'.arm? name := by
  ext a
  rw [← (h.oneEach hone).mem_arms_iff, ← hone.mem_arms_iff]
  exact h.arms.mem_iff

theorem Rearranges.select_eq (h : t.Rearranges t') (hone : t'.OneEach) (name : String) :
    t.select name = t'.select name := by
  unfold select
  rw [h.arm?_eq hone, h.wildcard]

theorem Rearranges.sortedNames_eq (h : t.Rearranges t') : t.sortedNames = t'.sortedNames :=
  Tag.sortNames_eq_of_perm (h.arms.map _)

theorem Rearranges.has_eq (h : t.Rearranges t') (name : String) : t.has name = t'.has name := by
  rw [Bool.eq_iff_iff, ← mem_names_iff_has, ← mem_names_iff_has]
  exact (h.arms.map _).mem_iff

/-- **The check sees no order.** -/
theorem Rearranges.check_eq (h : t.Rearranges t') (S : Declaration) : t.check S = t'.check S := by
  have hmissing : t.missing = t'.missing := by
    funext tags
    unfold missing
    simp only [h.has_eq]
  unfold check coverage
  rw [h.repeated, h.sortedNames_eq, h.wildcard, hmissing]

/-! ## §2  Tables that change their order -/

/-- **The next call** leaves the same entries. -/
theorem Rearranges.follow (h : t.Rearranges t') (call : CaseCall α ω) :
    (t.follow call).Rearranges (t'.follow call) := by
  rcases call with ⟨name, a⟩ | w
  · refine ⟨(h.arms.filter _).cons _, h.wildcard, ?_⟩
    simp only [CaseTable.follow, insert, h.has_eq, h.repeated]
  · exact ⟨h.arms, rfl, h.repeated⟩

/-- The tables that calls can build, where the order of the entries may change after every call. -/
inductive BuiltBy : List (CaseCall α ω) → CaseTable α ω → Prop where
  | start : BuiltBy [] empty
  | call {calls : List (CaseCall α ω)} {t t' : CaseTable α ω} (h : BuiltBy calls t)
      (call : CaseCall α ω) (horder : t'.Rearranges (t.follow call)) : BuiltBy (calls ++ [call]) t'

/-- Whatever orders a table goes through, it ends up with the same entries. -/
theorem BuiltBy.rearranges {calls : List (CaseCall α ω)} (h : BuiltBy calls t) :
    t.Rearranges (ofCalls calls) := by
  induction h with
  | start => exact .refl _
  | call h call horder ih =>
      rw [ofCalls_snoc]
      exact horder.trans (ih.follow call)

theorem builtBy_ofCalls (calls : List (CaseCall α ω)) : BuiltBy calls (ofCalls calls) := by
  induction calls using List.reverseRecOn with
  | nil => exact .start
  | append_singleton calls call ih =>
      rw [ofCalls_snoc]
      exact ih.call call (.refl _)

end CaseTable

/-! ## §3  Matchers -/

namespace BuiltMatcher

variable {M M' M'' : BuiltMatcher β} {m : Member}

inductive Rearranges : BuiltMatcher β → BuiltMatcher β → Prop where
  | handlers {S t t'} (h : CaseTable.Rearranges t t') :
      Rearranges (.handlers ⟨S, t⟩) (.handlers ⟨S, t'⟩)
  | stored {S t t'} (h : CaseTable.Rearranges t t') :
      Rearranges (.stored ⟨S, t⟩) (.stored ⟨S, t'⟩)

def OneEach : BuiltMatcher β → Prop
  | .handlers M => M.table.OneEach
  | .stored M => M.table.OneEach

def outline (shown : β → String) : BuiltMatcher β → String
  | .handlers M => M.outline
  | .stored M => M.outlineBy shown

theorem Rearranges.trans (h : M.Rearranges M') (h' : M'.Rearranges M'') : M.Rearranges M'' := by
  rcases h with h | h
  all_goals
    rcases h' with h' | h'
    constructor
    exact h.trans h'

theorem Rearranges.symm (h : M.Rearranges M') : M'.Rearranges M := by
  rcases h with h | h
  all_goals
    constructor
    exact h.symm

theorem Rearranges.oneEach (h : M.Rearranges M') (hone : M'.OneEach) : M.OneEach := by
  rcases h with h | h
  all_goals exact h.oneEach hone

/-- **The verdict sees no order.** -/
theorem Rearranges.verdict_eq (h : M.Rearranges M') : verdict M.checked = verdict M'.checked := by
  rw [verdict_checked, verdict_checked]
  rcases h with h | h
  all_goals simp only [check, sum, h.check_eq]

/-- **Matching sees no order.** -/
theorem Rearranges.apply_eq (h : M.Rearranges M') (hone : M'.OneEach) (m : Member) :
    M.apply m = M'.apply m := by
  rcases h with h | h
  · exact CaseTable.apply_congr (h.select_eq hone _)
  · show StrictMatcher.apply _ m = StrictMatcher.apply _ m
    unfold StrictMatcher.apply
    rw [h.select_eq hone]

/-- **The outline shows no order.** -/
theorem Rearranges.outline_eq (h : M.Rearranges M') (shown : β → String) :
    M.outline shown = M'.outline shown := by
  rcases h with h | h
  · show Matcher.outline _ = Matcher.outline _
    unfold Matcher.outline
    rw [h.sortedNames_eq, h.wildcard]
  · show StrictMatcher.outlineBy shown _ = StrictMatcher.outlineBy shown _
    unfold StrictMatcher.outlineBy
    rw [h.sortedNames_eq, h.wildcard]

end BuiltMatcher

/-! ## §4  Handler maps -/

namespace HandlerMap

variable {H : HandlerMap ρ β} {S : Declaration} {M : BuiltMatcher β}

/-- The matchers of `S` that the calls on a handler map can build. -/
inductive Builds (S : Declaration) : HandlerMap ρ β → BuiltMatcher β → Prop where
  | handlers {calls : List (MatcherCall β)} {t} (h : CaseTable.BuiltBy calls t) :
      Builds S (.handlers calls) (.handlers ⟨S, t⟩)
  | widened {into : ρ → β} {calls : List (CaseCall (DirectArm ρ) ρ)} {t}
      (h : CaseTable.BuiltBy (widenCalls into calls) t) :
      Builds S (.widened into calls) (.handlers ⟨S, t⟩)
  | stored {calls : List (CaseCall β β)} {t} (h : CaseTable.BuiltBy calls t) :
      Builds S (.stored calls) (.stored ⟨S, t⟩)
  | storedWidened {into : ρ → β} {calls : List (CaseCall ρ ρ)} {t}
      (h : CaseTable.BuiltBy (widenAnswers into calls) t) :
      Builds S (.storedWidened into calls) (.stored ⟨S, t⟩)

theorem builds_unchecked (H : HandlerMap ρ β) (S : Declaration) : H.Builds S (H.unchecked S) := by
  rcases H with calls | ⟨into, calls⟩ | calls | ⟨into, calls⟩
  · exact .handlers (CaseTable.builtBy_ofCalls calls)
  · exact .widened (CaseTable.builtBy_ofCalls _)
  · exact .stored (CaseTable.builtBy_ofCalls calls)
  · exact .storedWidened (CaseTable.builtBy_ofCalls _)

/-- **What calls build** is one matcher, its table kept in some order. -/
theorem Builds.rearranges (h : H.Builds S M) : M.Rearranges (H.unchecked S) := by
  rcases h with h | h | h | h
  · exact .handlers h.rearranges
  · exact .handlers h.rearranges
  · exact .stored h.rearranges
  · exact .stored h.rearranges

theorem oneEach_unchecked (H : HandlerMap ρ β) (S : Declaration) : (H.unchecked S).OneEach := by
  cases H <;> exact CaseTable.oneEach_ofCalls _

theorem Builds.oneEach (h : H.Builds S M) : M.OneEach :=
  h.rearranges.oneEach (H.oneEach_unchecked S)

end HandlerMap

end Coproduct
