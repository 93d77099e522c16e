import Coproduct.Proofs.Session.BundleUse
import Mathlib.Data.List.Induction
/-!
# What bundles keep over a run

A run is a sequence of requests to an empty session. What a bundle keeps in the end can be read off
the requests: the declared names for which it was called since it was made
(`find?_isSome_run_iff`). That no constructor is kept by two bundles is an invariant of single
requests (`Sound`), because only one bundle gains at a time, and what it gains is new.

§1 one request · §2 sound sessions · §3 the calls of a run.
-/

namespace Coproduct

/-! ## §1  One request -/

/-- The request makes the bundle `name` of `S`. -/
def Request.Creates (r : Request) (S : Declaration) (name : String) : Prop :=
  r.sum = S ∧ r.operation = .create name

namespace Session

def bundle (s : Session) (S : Declaration) (name : String) : Bundle := (s.shelf S).bundle name

def use? (s : Session) (r : Request) : Option BundleUse :=
  (s.shelf r.sum).use? r.sum s.fresh r.operation

/-- The request calls the bundle `name` of `S` for a tag. -/
def Asks (s : Session) (r : Request) (S : Declaration) (name tag : String) : Prop :=
  r.sum = S ∧ s.use? r = some (.access name tag)

/-- What holds of every session that a run leads to. -/
structure Sound (s : Session) : Prop where
  bundles : ∀ S name, (s.bundle S name).Sound S s.fresh
  apart : ∀ S name T other c d, c ∈ (s.bundle S name).entries → d ∈ (s.bundle T other).entries →
    c.identity = d.identity → S = T ∧ name = other

/-- What becomes of a bundle with one request. -/
inductive Effect (s : Session) (r : Request) (S : Declaration) (name : String) : Bundle → Prop where
  | created (h : r.Creates S name) : Effect s r S name .empty
  | accessed {tag : String} (h : s.Asks r S name tag) :
      Effect s r S name ((s.bundle S name).get S tag s.fresh).value.2
  | untouched (hcreates : ¬ r.Creates S name) (hasks : ∀ tag, ¬ s.Asks r S name tag) :
      Effect s r S name (s.bundle S name)

variable {s : Session} {r : Request} {S : Declaration} {name tag : String}

theorem shelf_set (s : Session) (T : Declaration) (shelf : Shelf) (fresh : Nat) (S : Declaration) :
    (Session.mk (s.shelves.set T shelf) fresh).shelf S = if S = T then shelf else s.shelf S := by
  show ((s.shelves.set T shelf).get? S).getD .empty = _
  rw [Registry.get?_set]
  by_cases hS : S = T
  · rw [if_pos hS, if_pos hS]
    rfl
  · rw [if_neg hS, if_neg hS]
    rfl

theorem shelf_step (s : Session) (r : Request) (S : Declaration) :
    (s.step r).value.2.shelf S = if S = r.sum then
      ((s.shelf r.sum).operate r.sum s.fresh r.target r.operation).value.2 else s.shelf S :=
  s.shelf_set r.sum _ _ S

theorem bundle_step (s : Session) (r : Request) (S : Declaration) (name : String) :
    (s.step r).value.2.bundle S name =
      if S = r.sum then
        ((s.shelf r.sum).operate r.sum s.fresh r.target r.operation).value.2.bundle name
      else s.bundle S name := by
  rw [bundle, shelf_step]
  by_cases hS : S = r.sum
  · rw [if_pos hS, if_pos hS]
  · rw [if_neg hS, if_neg hS]
    rfl

theorem Effect.of_ne (h : ∀ use, r.sum = S → s.use? r = some use → use.bundle ≠ name) :
    s.Effect r S name (s.bundle S name) := by
  refine .untouched ?_ ?_
  · rintro ⟨hS, hcreate⟩
    exact h (.creation name) hS (Shelf.use?_eq_creation_iff.mpr hcreate) rfl
  · rintro tag ⟨hS, huse⟩
    exact h (.access name tag) hS huse rfl

/-- **One request** makes a bundle, or calls it once for a tag, or leaves it as it was. -/
theorem Sound.effect (h : s.Sound) (r : Request) (S : Declaration) (name : String) :
    s.Effect r S name ((s.step r).value.2.bundle S name) := by
  rw [bundle_step]
  by_cases hS : S = r.sum
  · subst hS
    rw [if_pos rfl, Shelf.bundle_operate (h.bundles r.sum)]
    cases huse : (s.shelf r.sum).use? r.sum s.fresh r.operation with
    | none => exact Effect.of_ne fun use _ hsome => by cases huse.symm.trans hsome
    | some use =>
        rw [Shelf.bundleAfter]
        by_cases hname : name = use.bundle
        · subst hname
          rw [if_pos rfl]
          cases use with
          | creation bundle => exact .created ⟨rfl, Shelf.use?_eq_creation_iff.mp huse⟩
          | access bundle tag => exact .accessed ⟨rfl, huse⟩
        · rw [if_neg hname]
          refine Effect.of_ne ?_
          rintro use' - hsome rfl
          cases huse.symm.trans hsome
          exact hname rfl
  · rw [if_neg hS]
    exact Effect.of_ne fun use hsum _ => absurd hsum.symm hS

theorem fresh_step (s : Session) (r : Request) :
    (s.step r).value.2.fresh = s.fresh + r.operation.identities := rfl

theorem Asks.lt_fresh (h : s.Asks r S name tag) : s.fresh < (s.step r).value.2.fresh := by
  have hone := Shelf.one_le_identities h.2
  rw [fresh_step]
  omega

theorem Asks.unique {T : Declaration} {other t : String} (h : s.Asks r S name tag)
    (h' : s.Asks r T other t) : S = T ∧ name = other ∧ tag = t := by
  obtain ⟨rfl, huse⟩ := h
  obtain ⟨rfl, huse'⟩ := h'
  cases huse.symm.trans huse'
  exact ⟨rfl, rfl, rfl⟩

theorem Asks.not_creates (h : s.Asks r S name tag) : ¬ r.Creates S name := by
  rintro ⟨-, hcreate⟩
  cases h.2.symm.trans (Shelf.use?_eq_creation_iff.mpr hcreate)

/-! ## §2  Sound sessions -/

theorem sound_empty : Session.empty.Sound where
  bundles := fun S _ => Bundle.Sound.empty S 0
  apart := by
    intro S name T other c d hc
    exact absurd hc List.not_mem_nil

variable {c : Constructor}

theorem Effect.mem_or {b : Bundle} (h : s.Effect r S name b) (hc : c ∈ b.entries) :
    c ∈ (s.bundle S name).entries ∨ (c.identity = s.fresh ∧ ∃ tag, s.Asks r S name tag) := by
  cases h with
  | created => exact absurd hc List.not_mem_nil
  | @accessed tag hasks =>
      rcases Bundle.mem_or_identity_eq_of_mem_get hc with hc | hfresh
      · exact .inl hc
      · exact .inr ⟨hfresh, tag, hasks⟩
  | untouched => exact .inl hc

theorem Effect.sound {b : Bundle} (h : s.Effect r S name b)
    (hb : (s.bundle S name).Sound S s.fresh) : b.Sound S (s.step r).value.2.fresh := by
  cases h with
  | created => exact Bundle.Sound.empty S _
  | accessed hasks => exact (hb.get _).mono hasks.lt_fresh
  | untouched => exact hb.mono (Nat.le_add_right _ _)

/-- **One request keeps a session sound.** -/
theorem Sound.step (h : s.Sound) (r : Request) : (s.step r).value.2.Sound where
  bundles := fun S name => (h.effect r S name).sound (h.bundles S name)
  apart := by
    intro S name T other c d hc hd hidentity
    -- What is new has the fresh identity, and only one bundle gains anything.
    rcases (h.effect r S name).mem_or hc with hc | ⟨hcfresh, t, hasks⟩
    · rcases (h.effect r T other).mem_or hd with hd | ⟨hdfresh, -⟩
      · exact h.apart S name T other c d hc hd hidentity
      · have hlt := (h.bundles S name).identity_lt c hc
        omega
    · rcases (h.effect r T other).mem_or hd with hd | ⟨-, t', hasks'⟩
      · have hlt := (h.bundles T other).identity_lt d hd
        omega
      · obtain ⟨hS, hname, -⟩ := hasks.unique hasks'
        exact ⟨hS, hname⟩

theorem run_cons (s : Session) (r : Request) (rest : List Request) :
    (s.run (r :: rest)).2 = ((s.step r).value.2.run rest).2 := rfl

theorem run_append (s : Session) (earlier later : List Request) :
    (s.run (earlier ++ later)).2 = ((s.run earlier).2.run later).2 := by
  induction earlier generalizing s with
  | nil => rfl
  | cons r rest ih => exact ih (s.step r).value.2

theorem run_snoc (s : Session) (earlier : List Request) (r : Request) :
    (s.run (earlier ++ [r])).2 = ((s.run earlier).2.step r).value.2 :=
  run_append s earlier [r]

theorem Sound.run (h : s.Sound) (requests : List Request) : (s.run requests).2.Sound := by
  induction requests generalizing s with
  | nil => exact h
  | cons r rest ih => exact ih (h.step r)

/-! ## §3  The calls of a run -/

/-- Among the requests is one that calls the bundle `name` of `S` for a tag, and none after it makes
that bundle anew. -/
def AskedSince (s : Session) (requests : List Request) (S : Declaration) (name tag : String) :
    Prop :=
  ∃ before r after, requests = before ++ r :: after ∧ (s.run before).2.Asks r S name tag ∧
    ∀ later ∈ after, ¬ later.Creates S name

theorem not_askedSince_nil : ¬ s.AskedSince [] S name tag := by
  rintro ⟨before, r, after, hsplit, -⟩
  simp at hsplit

/-- The last request calls the bundle, or an earlier one did and the last one does not make the
bundle anew. -/
theorem askedSince_snoc_iff {requests : List Request} :
    s.AskedSince (requests ++ [r]) S name tag ↔
      (s.run requests).2.Asks r S name tag ∨
        (s.AskedSince requests S name tag ∧ ¬ r.Creates S name) := by
  constructor
  · rintro ⟨before, x, after, hsplit, hasks, hafter⟩
    rcases List.eq_nil_or_concat after with rfl | ⟨after, y, rfl⟩
    · obtain ⟨rfl, hx⟩ := List.append_inj' hsplit rfl
      cases hx
      exact .inl hasks
    · rw [List.concat_eq_append, ← List.cons_append, ← List.append_assoc] at hsplit
      obtain ⟨rfl, hy⟩ := List.append_inj' hsplit rfl
      cases hy
      refine .inr ⟨⟨before, x, after, rfl, hasks, ?_⟩, ?_⟩
      · intro later hlater
        exact hafter later (by simp [hlater])
      · exact hafter r (by simp)
  · rintro (hasks | ⟨⟨before, x, after, rfl, hasks, hafter⟩, hr⟩)
    · exact ⟨requests, r, [], rfl, hasks, by simp⟩
    · refine ⟨before, x, after ++ [r], by simp, hasks, ?_⟩
      intro later hlater
      rcases List.mem_append.mp hlater with hlater | hlater
      · exact hafter later hlater
      · rw [List.mem_singleton.mp hlater]
        exact hr

/-- **What a bundle keeps** after a run: the declared names for which it was called since it was
made. -/
theorem find?_isSome_run_iff (requests : List Request) (S : Declaration) (name tag : String) :
    (((Session.empty.run requests).2.bundle S name).find? tag).isSome = true ↔
      S.Declares tag ∧ Session.empty.AskedSince requests S name tag := by
  -- On the requests from the end, because a later creation undoes what came before it.
  induction requests using List.reverseRecOn with
  | nil =>
      refine iff_of_false ?_ ?_
      · intro h
        cases h
      · exact fun h => not_askedSince_nil h.2
  | append_singleton requests r ih =>
      have hsound : (Session.empty.run requests).2.Sound := sound_empty.run requests
      rw [run_snoc, askedSince_snoc_iff]
      have heffect := hsound.effect r S name
      generalize ((Session.empty.run requests).2.step r).value.2.bundle S name = b at heffect ⊢
      cases heffect with
      | created hcreates =>
          refine iff_of_false (by simp) ?_
          rintro ⟨-, hasks | ⟨-, hnot⟩⟩
          · exact hasks.not_creates hcreates
          · exact hnot hcreates
      | @accessed asked hasks =>
          rw [Bundle.find?_isSome_get_iff, ih]
          constructor
          · rintro (⟨hdeclares, hsince⟩ | ⟨rfl, hdeclares⟩)
            · exact ⟨hdeclares, .inr ⟨hsince, hasks.not_creates⟩⟩
            · exact ⟨hdeclares, .inl hasks⟩
          · rintro ⟨hdeclares, hasks' | ⟨hsince, -⟩⟩
            · obtain rfl := (hasks'.unique hasks).2.2
              exact .inr ⟨rfl, hdeclares⟩
            · exact .inl ⟨hdeclares, hsince⟩
      | untouched hcreates hasks =>
          rw [ih]
          simp [hcreates, hasks tag]

end Session

end Coproduct
