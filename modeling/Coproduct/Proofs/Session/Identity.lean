import Coproduct.Proofs.Obtainable
import Coproduct.Proofs.Session.Caches
import Coproduct.Proofs.Text.ByteOrder
/-!
# Which constructors are one object

Over a run constructors are handed out by `get` and as standalone ones. The first kind is kept by
its bundle until that bundle is made anew, and then no bundle keeps it any more; the second kind is
never kept. Two answers are therefore one object exactly when they came from one bundle and one
tag, with the bundle not made anew in between.

§1 what is handed out · §2 kept and lost constructors · §3 two answers of a run.
-/

namespace Coproduct

/-! ## §1  What is handed out -/

namespace Shelf

variable {S : Declaration} {shelf : Shelf} {fresh : Nat} {target : Option String} {c : Constructor}

theorem keepConstructor?_eq_constructor {result : Except TagError Constructor}
    (h : (shelf.keepConstructor? target result).1 = .constructor c) : result = .ok c := by
  cases result with
  | error cause => cases h
  | ok d =>
      cases h
      rfl

theorem keepMember?_ne_constructor (result : Except Failure Member) :
    (shelf.keepMember? target result).1 ≠ .constructor c := by
  cases result <;> simp [keepMember?, keepMember]

/-- The two operations that hand out constructors. -/
theorem operate_eq_constructor {op : Operation}
    (h : (shelf.operate S fresh target op).value.1 = .constructor c) :
    (∃ bundle tag, op = .get bundle tag ∧
      ((shelf.bundle bundle).get S tag fresh).value.1 = .ok c) ∨
    (∃ tag, op = .standalone tag ∧ Constructor.standalone S tag fresh = .ok c) := by
  cases op with
  | get bundle tag => exact .inl ⟨bundle, tag, rfl, keepConstructor?_eq_constructor h⟩
  | standalone tag => exact .inr ⟨tag, rfl, keepConstructor?_eq_constructor h⟩
  | make bundle tag payload => exact absurd h (keepMember?_ne_constructor _)
  | call constructor payload => exact absurd h (keepMember?_ne_constructor _)
  | encode ref payload => exact absurd h (keepMember?_ne_constructor _)
  | copy ref => exact absurd h (keepMember?_ne_constructor _)
  | readValue v => exact absurd h (keepMember?_ne_constructor _)
  | readText text => exact absurd h (keepMember?_ne_constructor _)
  | deserialize bundle tag payload =>
      simp only [operate] at h
      split at h
      · exact absurd h (keepMember?_ne_constructor _)
      · cases h
  | deserializeValue bundle v =>
      simp only [operate] at h
      split at h
      · exact absurd h (keepMember?_ne_constructor _)
      · cases h
  | deserializeText bundle text =>
      simp only [operate] at h
      split at h
      · exact absurd h (keepMember?_ne_constructor _)
      · cases h
  | describe bundle ref =>
      simp only [operate] at h
      split at h <;> cases h
  | race bundle tag clients =>
      simp only [operate, race, Logged.value_pure] at h
      split at h <;> cases h
  | compare x y =>
      simp only [operate] at h
      split at h <;> cases h
  | equal x y =>
      simp only [operate] at h
      split at h <;> cases h
  | build request refs =>
      simp only [operate, Logged.value_bind] at h
      split at h
      · cases h
      · cases refs <;> cases h
  | apply matcher refs =>
      simp only [operate] at h
      split at h <;> cases h
  | turnIntoFunction matcher refs =>
      simp only [operate] at h
      split at h <;> cases h
  | refine tag accepts foreign =>
      simp only [operate, Logged.value_bind] at h
      split at h <;> cases h
  | create bundle => cases h
  | inspect bundle => cases h
  | accesses tags => cases h

end Shelf

namespace Session

variable {s : Session} {r : Request} {S : Declaration} {name : String} {c d : Constructor}

/-- The constructor is kept by its bundle, or it has a new identity of its own. -/
theorem Sound.step_eq_constructor (hs : s.Sound) (h : (s.step r).value.1 = .constructor c) :
    (∃ name, r.operation = .get name c.tag.name ∧
      c ∈ ((s.step r).value.2.bundle r.sum name).entries) ∨
    (r.operation = .standalone c.tag.name ∧ c.identity = s.fresh) := by
  have hanswer : ((s.shelf r.sum).operate r.sum s.fresh r.target r.operation).value.1 =
      .constructor c := h
  rcases Shelf.operate_eq_constructor hanswer with ⟨name, tag, hop, hget⟩ | ⟨tag, hop, hstandalone⟩
  · left
    obtain ⟨hmem, rfl⟩ := Bundle.mem_of_get_eq_ok hget
    refine ⟨name, hop, ?_⟩
    rw [bundle_step, if_pos rfl, Shelf.bundle_operate (hs.bundles r.sum), hop]
    simpa [Shelf.use?, Shelf.bundleAfter, BundleUse.bundle, BundleUse.result] using hmem
  · right
    obtain ⟨hdeclare, hfresh⟩ := Constructor.standalone_eq_ok_iff.mp hstandalone
    rw [(Declaration.declare_eq_ok_iff.mp hdeclare).2]
    exact ⟨hop, hfresh⟩

/-! ## §2  Kept and lost constructors -/

/-- No bundle keeps the constructor, and none ever will: its identity is used up. -/
def Lost (s : Session) (c : Constructor) : Prop :=
  c.identity < s.fresh ∧ ∀ S name d, d ∈ (s.bundle S name).entries → d.identity ≠ c.identity

theorem Effect.eq_empty {b : Bundle} (h : s.Effect r S name b) (hcreates : r.Creates S name) :
    b = .empty := by
  cases h with
  | created => rfl
  | accessed hasks => exact absurd hcreates hasks.not_creates
  | untouched hnot => exact absurd hcreates hnot

theorem Effect.mem_of_mem {b : Bundle} (h : s.Effect r S name b) (hcreates : ¬ r.Creates S name)
    (hc : c ∈ (s.bundle S name).entries) : c ∈ b.entries := by
  cases h with
  | created hmade => exact absurd hmade hcreates
  | accessed => exact Bundle.mem_get_of_mem hc
  | untouched => exact hc

theorem Sound.lost_step (h : s.Sound) (hc : s.Lost c) (r : Request) :
    (s.step r).value.2.Lost c := by
  refine ⟨Nat.lt_of_lt_of_le hc.1 (Nat.le_add_right _ _), ?_⟩
  intro S name d hd
  rcases (h.effect r S name).mem_or hd with hd | ⟨hfresh, -⟩
  · exact hc.2 S name d hd
  · have hlt := hc.1
    omega

/-- Making a bundle anew loses what it kept. -/
theorem Sound.lost_of_creates (h : s.Sound) (hc : c ∈ (s.bundle S name).entries)
    (hcreates : r.Creates S name) : (s.step r).value.2.Lost c := by
  have hlt := (h.bundles S name).identity_lt c hc
  refine ⟨Nat.lt_of_lt_of_le hlt (Nat.le_add_right _ _), ?_⟩
  intro T other d hd hidentity
  rcases (h.effect r T other).mem_or hd with hold | ⟨hfresh, -⟩
  · obtain ⟨rfl, rfl⟩ := h.apart T other S name d c hold hc hidentity
    rw [(h.effect r T other).eq_empty hcreates] at hd
    exact absurd hd List.not_mem_nil
  · omega

theorem Sound.lost_of_standalone (h : s.Sound) {tag : String} (hop : r.operation = .standalone tag)
    (hc : c.identity = s.fresh) : (s.step r).value.2.Lost c := by
  have hnone : s.use? r = none := by
    rw [use?, hop]
    rfl
  refine ⟨?_, ?_⟩
  · rw [fresh_step, hop, hc]
    exact Nat.lt_succ_self _
  · intro T other d hd
    rcases (h.effect r T other).mem_or hd with hold | ⟨-, t, hasks⟩
    · have hlt := (h.bundles T other).identity_lt d hold
      omega
    · cases hnone.symm.trans hasks.2

theorem Sound.lost_run (h : s.Sound) (hc : s.Lost c) (requests : List Request) :
    (s.run requests).2.Lost c := by
  induction requests generalizing s with
  | nil => exact hc
  | cons r rest ih => exact ih (h.step r) (h.lost_step hc r)

/-- After a run a constructor is still kept, unless its bundle was made anew: then it is lost. -/
theorem Sound.mem_or_lost_run (h : s.Sound) (hc : c ∈ (s.bundle S name).entries)
    (requests : List Request) :
    ((∀ r ∈ requests, ¬ r.Creates S name) ∧ c ∈ ((s.run requests).2.bundle S name).entries) ∨
    ((∃ r ∈ requests, r.Creates S name) ∧ (s.run requests).2.Lost c) := by
  induction requests generalizing s with
  | nil => exact .inl ⟨by simp, hc⟩
  | cons r rest ih =>
      by_cases hcreates : r.Creates S name
      · right
        refine ⟨⟨r, List.mem_cons_self, hcreates⟩, ?_⟩
        exact (h.step r).lost_run (h.lost_of_creates hc hcreates) rest
      · rcases ih (h.step r) ((h.effect r S name).mem_of_mem hcreates hc) with
          ⟨hnone, hkept⟩ | ⟨⟨r', hr', hcreates'⟩, hlost⟩
        · exact .inl ⟨List.forall_mem_cons.mpr ⟨hcreates, hnone⟩, hkept⟩
        · exact .inr ⟨⟨r', List.mem_cons_of_mem _ hr', hcreates'⟩, hlost⟩

/-! ## §3  Two answers of a run -/

theorem Sound.identity_ne_of_lost (h : s.Sound) (hc : s.Lost c)
    (hd : (s.step r).value.1 = .constructor d) : c.identity ≠ d.identity := by
  rcases h.step_eq_constructor hd with ⟨name, -, hmem⟩ | ⟨-, hfresh⟩
  · exact Ne.symm ((h.lost_step hc r).2 _ name d hmem)
  · have hlt := hc.1
    omega

/-- **Two constructors are one object** exactly when both came from one bundle and one tag, with
the bundle not made anew in between. -/
theorem Sound.identical_iff (h : s.Sound) {x y : Request} {between : List Request}
    (hc : (s.step x).value.1 = .constructor c)
    (hd : (((s.step x).value.2.run between).2.step y).value.1 = .constructor d) :
    c.identical d = true ↔
      ∃ name tag, x.sum = y.sum ∧ x.operation = .get name tag ∧ y.operation = .get name tag ∧
        ∀ r ∈ between, ¬ r.Creates x.sum name := by
  have hs₁ : (s.step x).value.2.Sound := h.step x
  have hs₂ : ((s.step x).value.2.run between).2.Sound := hs₁.run between
  rw [Constructor.identical, beq_iff_eq]
  rcases h.step_eq_constructor hc with ⟨name, hx, hkept⟩ | ⟨hx, hfresh⟩
  · rcases hs₁.mem_or_lost_run hkept between with ⟨hnone, hkept⟩ | ⟨⟨r, hr, hcreates⟩, hlost⟩
    · rcases hs₂.step_eq_constructor hd with ⟨other, hy, hmem⟩ | ⟨hy, hfresh⟩
      -- Both are kept behind the second request, and what is kept has one bundle and one tag.
      · have hcreates : ¬ y.Creates x.sum name := by
          rintro ⟨-, hcreate⟩
          cases hy.symm.trans hcreate
        have hkept' := (hs₂.effect y x.sum name).mem_of_mem hcreates hkept
        have hs₃ := hs₂.step y
        constructor
        · intro hidentity
          obtain ⟨hsum, rfl⟩ := hs₃.apart _ _ _ _ c d hkept' hmem hidentity
          rw [← hsum] at hmem
          have hname := ((hs₃.bundles x.sum name).identity_eq_iff hkept' hmem).mp hidentity
          rw [← hname] at hy
          exact ⟨name, c.tag.name, hsum, hx, hy, hnone⟩
        · rintro ⟨n, t, hsum, hx', hy', -⟩
          cases hx.symm.trans hx'
          obtain ⟨rfl, htag⟩ := Operation.get.inj (hy.symm.trans hy')
          rw [← hsum] at hmem
          exact ((hs₃.bundles x.sum other).identity_eq_iff hkept' hmem).mpr htag.symm
      · have hlt := (hs₂.bundles x.sum name).identity_lt c hkept
        refine iff_of_false (by omega) ?_
        rintro ⟨n, t, -, -, hget, -⟩
        cases hy.symm.trans hget
    -- The bundle was made anew in between, so the first constructor is lost.
    · refine iff_of_false (hs₂.identity_ne_of_lost hlost hd) ?_
      rintro ⟨n, t, -, hget, -, hnone⟩
      cases hx.symm.trans hget
      exact hnone r hr hcreates
  · have hlost := hs₁.lost_run (h.lost_of_standalone hx hfresh) between
    refine iff_of_false (hs₂.identity_ne_of_lost hlost hd) ?_
    rintro ⟨n, t, -, hget, -⟩
    cases hx.symm.trans hget

theorem getElem?_answers (s : Session) (requests : List Request) (i : Nat) :
    (s.run requests).1[i]? = requests[i]?.map fun r =>
      ⟨((s.run (requests.take i)).2.step r).value.1, ((s.run (requests.take i)).2.step r).events⟩ := by
  induction requests generalizing s i with
  | nil => simp [run]
  | cons r rest ih =>
      cases i with
      | zero => rfl
      | succ i => exact ih (s.step r).value.2 i

theorem exists_between {requests : List Request} {i j : Nat} {x : Request} (hij : i < j)
    (hx : requests[i]? = some x) :
    ∃ between, requests.take j = requests.take i ++ x :: between ∧
      ∀ r, r ∈ between ↔ ∃ k, i < k ∧ k < j ∧ requests[k]? = some r := by
  obtain ⟨hlength, rfl⟩ := List.getElem?_eq_some_iff.mp hx
  refine ⟨(requests.take j).drop (i + 1), ?_, ?_⟩
  · have hi : i < (requests.take j).length := by
      rw [List.length_take]
      omega
    calc requests.take j = (requests.take j).take i ++ (requests.take j).drop i :=
          (List.take_append_drop i _).symm
      _ = requests.take i ++ requests[i] :: (requests.take j).drop (i + 1) := by
          rw [List.take_take, Nat.min_eq_left hij.le, List.drop_eq_getElem_cons hi,
            List.getElem_take]
  · intro r
    rw [List.mem_iff_getElem?]
    constructor
    · rintro ⟨k, hk⟩
      rw [List.getElem?_drop, List.getElem?_take] at hk
      split at hk
      · next hlt => exact ⟨i + 1 + k, by omega, hlt, hk⟩
      · cases hk
    · rintro ⟨k, hik, hkj, hk⟩
      refine ⟨k - (i + 1), ?_⟩
      rw [List.getElem?_drop, List.getElem?_take, Nat.add_sub_cancel' hik, if_pos hkj]
      exact hk

theorem Sound.bundle_step_eq (h : s.Sound)
    (hr : (∃ cause, (s.step r).value.1 = .failed cause) ∨
      (¬ r.Creates S name ∧ ∀ tag, ¬ s.Asks r S name tag)) :
    (s.step r).value.2.bundle S name = s.bundle S name := by
  rcases hr with ⟨cause, hfailed⟩ | ⟨hcreates, hasks⟩
  · rw [bundle_step]
    by_cases hS : S = r.sum
    · subst hS
      rw [if_pos rfl]
      exact Shelf.bundle_operate_of_failed (h.bundles r.sum) hfailed name
    · rw [if_neg hS]
  · have heffect := h.effect r S name
    generalize (s.step r).value.2.bundle S name = b at heffect ⊢
    cases heffect with
    | created hmade => exact absurd hmade hcreates
    | accessed hasked => exact absurd hasked (hasks _)
    | untouched => rfl

/-- **Caches and identities over whole runs.** After any requests to an empty session, each bundle
keeps, in strictly ascending order of their bytes, just the declared names for which it was called
since it was made. What fails, and what does not call it or make it anew, leaves it as it was. Two
constructors that were handed out in two places are one object exactly when both came from `get`
on one bundle and for one tag, and they build the same members exactly when their tags agree. -/
theorem run_caches_and_identities (requests : List Request) :
    let answers := (Session.empty.run requests).1
    let s := (Session.empty.run requests).2
    (∀ S name,
      (s.bundle S name).cachedTags.Pairwise (fun x y => Utf8.bytes x < Utf8.bytes y) ∧
      (∀ tag, tag ∈ (s.bundle S name).cachedTags ↔
        S.Declares tag ∧ Session.empty.AskedSince requests S name tag) ∧
      (s.bundle S name).size = (s.bundle S name).cachedTags.length ∧
      ((s.bundle S name).isEmpty = true ↔ (s.bundle S name).cachedTags = [])) ∧
    (∀ r S name,
      ((∃ cause, (s.step r).value.1 = .failed cause) ∨
        (¬ r.Creates S name ∧ ∀ tag, ¬ s.Asks r S name tag)) →
      (s.step r).value.2.bundle S name = s.bundle S name) ∧
    (∀ (i j : Nat) (a b : Logged Answer) (c d : Constructor), i < j → answers[i]? = some a →
      answers[j]? = some b → a.value = .constructor c → b.value = .constructor d →
      (c.identical d = true ↔ ∃ x y name tag, requests[i]? = some x ∧ requests[j]? = some y ∧
        x.sum = y.sum ∧ x.operation = .get name tag ∧ y.operation = .get name tag ∧
        ∀ k r, i < k → k < j → requests[k]? = some r → ¬ r.Creates x.sum name) ∧
      ∀ payload, c.call payload = d.call payload ↔ c.tag = d.tag) := by
  intro answers s
  have hsound : s.Sound := sound_empty.run requests
  refine ⟨?caches, fun r S name hr => hsound.bundle_step_eq hr, ?identities⟩
  case caches =>
    intro S name
    have hb := hsound.bundles S name
    refine ⟨?_, ?_, (Bundle.length_cachedTags _).symm, Bundle.isEmpty_iff_cachedTags⟩
    · exact hb.pairwise_cachedTags.imp fun hxy => (Utf8.bytes_lt_iff _ _).mpr hxy
    · intro tag
      rw [Bundle.mem_cachedTags_iff]
      exact find?_isSome_run_iff requests S name tag
  case identities =>
    intro i j a b c d hij ha hb hc hd
    refine ⟨?_, fun payload => by simp [Constructor.call]⟩
    simp only [answers, getElem?_answers, Option.map_eq_some_iff] at ha hb
    obtain ⟨x, hx, rfl⟩ := ha
    obtain ⟨y, hy, rfl⟩ := hb
    obtain ⟨between, htake, hbetween⟩ := exists_between hij hx
    rw [htake, run_append, run_cons] at hd
    rw [(sound_empty.run (requests.take i)).identical_iff hc hd]
    constructor
    · rintro ⟨name, tag, hsum, hopx, hopy, hnone⟩
      exact ⟨x, y, name, tag, hx, hy, hsum, hopx, hopy,
        fun k r hik hkj hk => hnone r ((hbetween r).mpr ⟨k, hik, hkj, hk⟩)⟩
    · rintro ⟨x', y', name, tag, hx', hy', hsum, hopx, hopy, hnone⟩
      cases hx.symm.trans hx'
      cases hy.symm.trans hy'
      refine ⟨name, tag, hsum, hopx, hopy, ?_⟩
      intro r hr
      obtain ⟨k, hik, hkj, hk⟩ := (hbetween r).mp hr
      exact hnone k r hik hkj hk

end Session

end Coproduct
