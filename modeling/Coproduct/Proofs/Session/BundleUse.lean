import Coproduct.Proofs.Bundle.Access
import Coproduct.Session.Run
/-!
# What operations do with bundles

Of the many operations of a session, few have to do with the bundles that are kept: one makes a
bundle, and some call one for a name. This is said once, by `Shelf.use?`, and from it follows what
becomes of every bundle (`bundle_operate`): it is new, or it has been accessed once, or it is as it
was.

§1 registries · §2 the use of bundles · §3 one operation · §4 one operation of a session.
-/

namespace Coproduct

open Json (Value)

/-! ## §1  Registries -/

namespace Registry

variable {κ α : Type} [DecidableEq κ]

theorem get?_set (r : Registry κ α) (name : κ) (a : α) (other : κ) :
    (r.set name a).get? other = if other = name then some a else r.get? other := by
  unfold get? set
  rw [List.find?_cons]
  by_cases h : name = other
  · simp [h]
  · have hfilter : (r.entries.filter fun entry => entry.1 ≠ name).find?
        (fun entry => entry.1 = other) = r.entries.find? fun entry => entry.1 = other := by
      rw [List.find?_filter]
      congr
      funext entry
      by_cases hentry : entry.1 = other
      · simp [hentry, Ne.symm h]
      · simp [hentry]
    rw [if_neg (Ne.symm h)]
    simp only [h, decide_false, hfilter]

theorem get?_keep (r : Registry κ α) (target : Option κ) (a : α) (other : κ) :
    (r.keep target a).get? other = if target = some other then some a else r.get? other := by
  cases target with
  | none => rfl
  | some name =>
      show (r.set name a).get? other = _
      rw [get?_set]
      by_cases h : other = name
      · rw [if_pos h, if_pos (congrArg some h.symm)]
      · rw [if_neg h, if_neg fun heq => h (Option.some.inj heq).symm]

end Registry

theorem Shelf.bundle_withBundle (shelf : Shelf) (name : String) (b : Bundle) (other : String) :
    (shelf.withBundle name b).bundle other = if other = name then b else shelf.bundle other := by
  unfold bundle withBundle
  rw [Registry.get?_set]
  by_cases h : other = name <;> simp [h]

/-! ## §2  The use of bundles -/

/-- What an operation does with the bundles of a shelf: it makes one, or it calls one for a name. -/
inductive BundleUse where
  | creation (bundle : String)
  | access (bundle name : String)
deriving DecidableEq

namespace BundleUse

def bundle : BundleUse → String
  | .creation bundle | .access bundle _ => bundle

def result (S : Declaration) (b : Bundle) (fresh : Nat) : BundleUse → Bundle
  | .creation _ => .empty
  | .access _ name => (b.get S name fresh).value.2

end BundleUse

namespace Shelf

variable {S : Declaration} {shelf : Shelf} {fresh : Nat}

/-- The use that an operation makes of the bundles of a shelf. A bundle is called for a name by
`get`, also when several clients race, by `make`, and by `deserialize`, which comes to that once
there is a pair. -/
def use? (S : Declaration) (shelf : Shelf) (fresh : Nat) : Operation → Option BundleUse
  | .create bundle => some (.creation bundle)
  | .get bundle tag => some (.access bundle tag)
  | .race bundle tag clients => if clients = 0 then none else some (.access bundle tag)
  | .make bundle tag _ => some (.access bundle tag)
  | .deserialize bundle tag _ =>
    (Tag.ofString tag).toOption.map fun tag => .access bundle tag.name
  | .deserializeValue bundle v =>
    (Codec.pair.decode v).toOption.map fun p => .access bundle p.tag.name
  | .deserializeText bundle text =>
    (Pair.ofText text).toOption.map fun p => .access bundle p.tag.name
  | .describe bundle ref =>
    (shelf.memberOf S fresh ref).toOption.map fun m => .access bundle m.tag.name
  | _ => none

def bundleAfter (S : Declaration) (shelf : Shelf) (fresh : Nat) (name : String)
    (use : Option BundleUse) : Bundle :=
  match use with
  | some use =>
    if name = use.bundle then use.result S (shelf.bundle name) fresh else shelf.bundle name
  | none => shelf.bundle name

theorem use?_eq_creation_iff {op : Operation} {name : String} :
    shelf.use? S fresh op = some (.creation name) ↔ op = .create name := by
  cases op with
  | create bundle => simp [use?]
  | race bundle tag clients => cases clients <;> simp [use?]
  | _ => simp [use?]

theorem one_le_identities {op : Operation} {name tag : String}
    (h : shelf.use? S fresh op = some (.access name tag)) : 1 ≤ op.identities := by
  cases op with
  | race bundle tag clients =>
      cases clients with
      | zero => cases h
      | succ n => exact Nat.succ_pos n
  | accesses tags => cases h
  | _ => exact Nat.le_refl 1

/-! ## §3  One operation -/

theorem bundle_congr {shelf' : Shelf} (h : shelf'.bundles = shelf.bundles) (name : String) :
    shelf'.bundle name = shelf.bundle name := by
  rw [bundle, bundle, h]

theorem bundle_eq_bundleAfter {shelf' : Shelf} (use : BundleUse)
    (h : shelf'.bundles =
      (shelf.withBundle use.bundle (use.result S (shelf.bundle use.bundle) fresh)).bundles)
    (name : String) : shelf'.bundle name = shelf.bundleAfter S fresh name (some use) := by
  rw [bundle_congr h, bundle_withBundle, bundleAfter]
  by_cases hname : name = use.bundle
  · rw [if_pos hname, hname, if_pos rfl]
  · rw [if_neg hname, if_neg hname]

theorem bundles_keepMember? (shelf : Shelf) (target : Option String)
    (result : Except Failure Member) :
    (shelf.keepMember? target result).2.bundles = shelf.bundles := by
  cases result <;> rfl

theorem bundles_keepConstructor? (shelf : Shelf) (target : Option String)
    (result : Except TagError Constructor) :
    (shelf.keepConstructor? target result).2.bundles = shelf.bundles := by
  cases result <;> rfl

theorem bundle_deserialize (shelf : Shelf) (name : String) (target : Option String) (p : Pair)
    (other : String) :
    (shelf.deserialize S fresh name target p).value.2.bundle other =
      shelf.bundleAfter S fresh other (some (.access name p.tag.name)) :=
  bundle_eq_bundleAfter (.access name p.tag.name) (bundles_keepMember? _ _ _) other

/-- **What becomes of a bundle.** It is as the use that the operation makes of it leaves it. -/
theorem bundle_operate (hsound : ∀ name, (shelf.bundle name).Sound S fresh) (target : Option String)
    (op : Operation) (name : String) :
    (shelf.operate S fresh target op).value.2.bundle name =
      shelf.bundleAfter S fresh name (shelf.use? S fresh op) := by
  cases op with
  | create bundle => exact bundle_eq_bundleAfter (.creation bundle) rfl name
  | get bundle tag =>
      exact bundle_eq_bundleAfter (.access bundle tag) (bundles_keepConstructor? _ _ _) name
  | make bundle tag payload =>
      exact bundle_eq_bundleAfter (.access bundle tag) (bundles_keepMember? _ _ _) name
  | race bundle tag clients =>
      cases clients with
      | zero =>
          show (shelf.withBundle bundle (shelf.bundle bundle)).bundle name = shelf.bundle name
          rw [bundle_withBundle]
          by_cases hname : name = bundle
          · rw [if_pos hname, hname]
          · rw [if_neg hname]
      | succ n =>
          apply bundle_eq_bundleAfter (.access bundle tag)
          show (shelf.withBundle bundle _).bundles = (shelf.withBundle bundle _).bundles
          rw [Race.together_bundle (hsound bundle) (Nat.succ_pos n)]
          rfl
  | deserialize bundle tag payload =>
      cases htag : Tag.ofString tag with
      | error cause =>
          simp only [operate, use?, htag]
          rfl
      | ok tag =>
          simp only [operate, use?, htag]
          exact bundle_deserialize shelf bundle target _ name
  | deserializeValue bundle v =>
      cases hpair : Codec.pair.decode v with
      | error cause =>
          simp only [operate, use?, hpair]
          rfl
      | ok p =>
          simp only [operate, use?, hpair]
          exact bundle_deserialize shelf bundle target p name
  | deserializeText bundle text =>
      cases hpair : Pair.ofText text with
      | error cause =>
          simp only [operate, use?, hpair]
          rfl
      | ok p =>
          simp only [operate, use?, hpair]
          exact bundle_deserialize shelf bundle target p name
  | describe bundle ref =>
      cases hm : shelf.memberOf S fresh ref with
      | error cause =>
          simp only [operate, use?, hm]
          rfl
      | ok m =>
          simp only [operate, use?, hm]
          exact bundle_eq_bundleAfter (.access bundle m.tag.name) rfl name
  | compare x y =>
      simp only [operate]
      split <;> rfl
  | equal x y =>
      simp only [operate]
      split <;> rfl
  | build request refs =>
      simp only [operate, Logged.value_bind]
      split
      · rfl
      · cases refs <;> rfl
  | apply matcher refs =>
      simp only [operate]
      split <;> rfl
  | turnIntoFunction matcher refs =>
      simp only [operate]
      split <;> rfl
  | refine tag accepts foreign =>
      simp only [operate, Logged.value_bind]
      split <;> rfl
  | standalone tag => exact bundle_congr (bundles_keepConstructor? _ _ _) name
  | call constructor payload => exact bundle_congr (bundles_keepMember? _ _ _) name
  | encode ref payload => exact bundle_congr (bundles_keepMember? _ _ _) name
  | copy ref => exact bundle_congr (bundles_keepMember? _ _ _) name
  | readValue v => exact bundle_congr (bundles_keepMember? _ _ _) name
  | readText text => exact bundle_congr (bundles_keepMember? _ _ _) name
  | inspect bundle => rfl
  | accesses tags => rfl

/-! ## §4  Operations that fail -/

theorem exists_error_of_keepMember? {target : Option String} {result : Except Failure Member}
    {cause : Failure} (h : (shelf.keepMember? target result).1 = .failed cause) :
    result = .error cause := by
  cases result with
  | error cause' =>
      cases h
      rfl
  | ok m => cases h

theorem exists_error_of_keepConstructor? {target : Option String}
    {result : Except TagError Constructor} {cause : Failure}
    (h : (shelf.keepConstructor? target result).1 = .failed cause) :
    ∃ refused, result = .error refused := by
  cases result with
  | error refused => exact ⟨refused, rfl⟩
  | ok c => cases h

theorem not_declares_of_make {b : Bundle} (hb : b.Sound S fresh) {tag : String} {payload : Value}
    {cause : Failure} (h : (b.make S tag payload fresh).value.1.mapError
      (fun refused => Failure.sum (.tag refused)) = .error cause) : ¬ S.Declares tag := by
  rw [hb.make_eq] at h
  cases hdeclare : S.declare tag with
  | error refused => exact Declaration.not_declares_of_declare_eq_error hdeclare
  | ok t =>
      rw [hdeclare] at h
      cases h

/-- What fails either does not come to the use of a bundle, or calls it for a name that is not
declared. -/
theorem use?_of_failed (hsound : ∀ name, (shelf.bundle name).Sound S fresh)
    {target : Option String} {op : Operation} {cause : Failure} {use : BundleUse}
    (hanswer : (shelf.operate S fresh target op).value.1 = .failed cause)
    (huse : shelf.use? S fresh op = some use) :
    ∃ bundle name, use = .access bundle name ∧ ¬ S.Declares name := by
  cases op with
  | create bundle => cases hanswer
  | get bundle tag =>
      cases huse
      obtain ⟨refused, hget⟩ := exists_error_of_keepConstructor? hanswer
      have hdeclare := (hsound bundle).map_tag_get tag fresh
      rw [hget] at hdeclare
      exact ⟨bundle, tag, rfl, Declaration.not_declares_of_declare_eq_error hdeclare.symm⟩
  | make bundle tag payload =>
      cases huse
      exact ⟨bundle, tag, rfl, not_declares_of_make (hsound bundle)
        (exists_error_of_keepMember? hanswer)⟩
  | race bundle tag clients =>
      cases clients with
      | zero => cases huse
      | succ n =>
          cases huse
          refine ⟨bundle, tag, rfl, ?_⟩
          simp only [operate, race, Logged.value_pure] at hanswer
          split at hanswer
          · next refused hhead =>
              have hmem := List.mem_of_mem_head? hhead
              obtain ⟨⟨name, result⟩, hresult, rfl⟩ := List.mem_map.mp hmem
              exact Race.not_declares_of_mem_answers_together (hsound bundle) hresult
          · cases hanswer
  | deserialize bundle tag payload =>
      cases htag : Tag.ofString tag with
      | error refused => simp [use?, htag, Except.toOption] at huse
      | ok t =>
          simp only [operate, use?, htag] at hanswer huse
          cases huse
          exact ⟨bundle, t.name, rfl, not_declares_of_make (hsound bundle)
            (exists_error_of_keepMember? hanswer)⟩
  | deserializeValue bundle v =>
      cases hpair : Codec.pair.decode v with
      | error refused => simp [use?, hpair, Except.toOption] at huse
      | ok p =>
          simp only [operate, use?, hpair] at hanswer huse
          cases huse
          exact ⟨bundle, p.tag.name, rfl, not_declares_of_make (hsound bundle)
            (exists_error_of_keepMember? hanswer)⟩
  | deserializeText bundle text =>
      cases hpair : Pair.ofText text with
      | error refused => simp [use?, hpair, Except.toOption] at huse
      | ok p =>
          simp only [operate, use?, hpair] at hanswer huse
          cases huse
          exact ⟨bundle, p.tag.name, rfl, not_declares_of_make (hsound bundle)
            (exists_error_of_keepMember? hanswer)⟩
  | describe bundle ref =>
      cases hm : shelf.memberOf S fresh ref with
      | error refused => simp [use?, hm, Except.toOption] at huse
      | ok m =>
          simp only [operate, hm] at hanswer
          cases hanswer
  | _ => cases huse

/-- **What fails leaves every bundle as it was.** -/
theorem bundle_operate_of_failed (hsound : ∀ name, (shelf.bundle name).Sound S fresh)
    {target : Option String} {op : Operation} {cause : Failure}
    (hanswer : (shelf.operate S fresh target op).value.1 = .failed cause) (name : String) :
    (shelf.operate S fresh target op).value.2.bundle name = shelf.bundle name := by
  rw [bundle_operate hsound]
  cases huse : shelf.use? S fresh op with
  | none => rfl
  | some use =>
      obtain ⟨bundle, tag, rfl, htag⟩ := use?_of_failed hsound hanswer huse
      rw [bundleAfter]
      split
      · exact Bundle.get_eq_of_not_declares htag
      · rfl

end Shelf

end Coproduct
