import Coproduct.Proofs.Matching.Handed
import Coproduct.Proofs.Obtainable
import Coproduct.Proofs.Session.Caches
/-!
# Every member is declared

Members come up in many places of a session: they are kept, shown in answers, referred to, narrowed,
brought back from pairs and texts, and handed to matchers and handlers by other matchers. Wherever
that is (`Involves`), the sum type declares their tags. The invariant behind it says the same of what
is kept (`Shelf.Declared`), members and constructors; one operation preserves it, because the tags of
whatever it keeps were checked by it or by a bundle before (`Declared.operate`).

§1 what is kept · §2 one operation · §3 where members come up · §4 whole runs.
-/

namespace Coproduct

open Json (Value)

variable {S : Declaration} {shelf : Shelf} {fresh : Nat} {target : Option String}

/-! ## §1  What is kept -/

def Answer.members : Answer → List Member
  | .member m => [m]
  | .report r => [r.member]
  | .refinement _ reports => reports.filterMap (·.narrowed)
  | _ => []

namespace Shelf

/-- The members and the constructors on the shelf of `S` have tags that `S` contains. -/
structure Declared (S : Declaration) (shelf : Shelf) : Prop where
  members : ∀ name m, shelf.members.get? name = some m → m.DeclaredBy S
  constructors : ∀ name c, shelf.constructors.get? name = some c → S.contains c.tag.name = true

theorem declared_empty (S : Declaration) : Shelf.empty.Declared S where
  members := fun _ _ h => nomatch h
  constructors := fun _ _ h => nomatch h

theorem Declared.withBundle (h : shelf.Declared S) (name : String) (b : Bundle) :
    (shelf.withBundle name b).Declared S := ⟨h.members, h.constructors⟩

theorem Declared.memberOf (h : shelf.Declared S) {ref : MemberRef} {m : Member}
    (hm : shelf.memberOf S fresh ref = .ok m) : m.DeclaredBy S := by
  cases ref with
  | kept name =>
      simp only [Shelf.memberOf] at hm
      split at hm
      · next hkept =>
          cases hm
          exact h.members name _ hkept
      · cases hm
  | built tag payload =>
      simp only [Shelf.memberOf] at hm
      split at hm
      · next c hc =>
          cases hm
          exact (Constructor.Obtainable.standalone hc).contains
      · cases hm
  | unreadable => cases hm

theorem Declared.constructor (h : shelf.Declared S) {name : String} {c : Constructor}
    (hc : shelf.constructor name = .ok c) : S.contains c.tag.name = true := by
  simp only [Shelf.constructor] at hc
  split at hc
  · next hkept =>
      cases hc
      exact h.constructors name _ hkept
  · cases hc

theorem Declared.constructorOf (h : shelf.Declared S) {ref : ConstructorRef} {c : Constructor}
    (hc : shelf.constructorOf S fresh ref = .ok c) : S.contains c.tag.name = true := by
  cases ref with
  | kept name => exact h.constructor hc
  | standalone tag =>
      have hstandalone : Constructor.standalone S tag fresh = .ok c := mapError_eq_ok_iff.mp hc
      exact (Constructor.Obtainable.standalone hstandalone).contains

/-! ## §2  One operation -/

/-- The members of an answer are declared, and so is what is kept behind it. -/
def DeclaredResult (S : Declaration) (result : Answer × Shelf) : Prop :=
  (∀ m ∈ result.1.members, m.DeclaredBy S) ∧ result.2.Declared S

theorem Declared.keepMember? (h : shelf.Declared S) {result : Except Failure Member}
    (hresult : ∀ m, result = .ok m → m.DeclaredBy S) :
    DeclaredResult S (shelf.keepMember? target result) := by
  cases result with
  | error cause => exact ⟨fun m hm => absurd hm List.not_mem_nil, h⟩
  | ok m =>
      have hm := hresult m rfl
      refine ⟨?_, ?_, h.constructors⟩
      · intro n hn
        rw [List.mem_singleton.mp hn]
        exact hm
      · intro name n hn
        replace hn : (shelf.members.keep target m).get? name = some n := hn
        rw [Registry.get?_keep] at hn
        split at hn
        · cases hn
          exact hm
        · exact h.members name n hn

theorem Declared.keepConstructor? (h : shelf.Declared S) {result : Except TagError Constructor}
    (hresult : ∀ c, result = .ok c → S.contains c.tag.name = true) :
    DeclaredResult S (shelf.keepConstructor? target result) := by
  cases result with
  | error cause => exact ⟨fun m hm => absurd hm List.not_mem_nil, h⟩
  | ok c =>
      refine ⟨fun m hm => absurd hm List.not_mem_nil, h.members, ?_⟩
      intro name d hd
      replace hd : (shelf.constructors.keep target c).get? name = some d := hd
      rw [Registry.get?_keep] at hd
      split at hd
      · cases hd
        exact hresult c rfl
      · exact h.constructors name d hd

theorem Declared.keepMade (h : shelf.Declared S) {b b' : Bundle} (hb : b.Sound S fresh)
    {bundle name : String} {payload : Value} :
    DeclaredResult S ((shelf.withBundle bundle b').keepMember? target
      ((b.make S name payload fresh).value.1.mapError fun e => .sum (.tag e))) := by
  refine (h.withBundle bundle b').keepMember? ?_
  intro m hm
  exact Member.declaredBy_of_make hb (mapError_eq_ok_iff.mp hm)

theorem declaredBy_of_refineAll {r : Refinement} {foreign : List ForeignRef}
    {reports : List RefinementReport} (h : (shelf.refineAll S fresh r foreign).value = .ok reports) :
    ∀ report ∈ reports, ∀ m, report.narrowed = some m → m.DeclaredBy r.sum := by
  induction foreign generalizing reports with
  | nil =>
      cases h
      intro report hreport
      exact absurd hreport List.not_mem_nil
  | cons ref rest ih =>
      simp only [refineAll] at h
      split at h
      · cases h
      · next v _ =>
          simp only [Logged.value_bind, Logged.value_pure] at h
          cases hrest : (shelf.refineAll S fresh r rest).value with
          | error cause =>
              rw [hrest] at h
              cases h
          | ok others =>
              rw [hrest] at h
              cases h
              intro report hreport m hm
              rcases List.mem_cons.mp hreport with rfl | hreport
              · exact (Member.Obtainable.narrowed hm).declaredBy
              · exact ih hrest report hreport m hm

theorem Declared.of_no_members (h : shelf.Declared S) {answer : Answer} (hnone : answer.members = []) :
    DeclaredResult S (answer, shelf) := by
  refine ⟨?_, h⟩
  intro m hm
  rw [hnone] at hm
  exact absurd hm List.not_mem_nil

/-- **One operation** keeps and shows declared members only, if the bundles are sound. -/
theorem Declared.operate (h : shelf.Declared S) (hsound : ∀ name, (shelf.bundle name).Sound S fresh)
    (target : Option String) (op : Operation) :
    DeclaredResult S (shelf.operate S fresh target op).value := by
  cases op with
  | create bundle => exact (h.withBundle bundle .empty).of_no_members rfl
  | inspect bundle => exact h.of_no_members rfl
  | get bundle tag =>
      refine (h.withBundle bundle _).keepConstructor? ?_
      intro c hc
      have hdeclare := (hsound bundle).map_tag_get tag fresh
      rw [hc] at hdeclare
      exact Declaration.contains_of_declare_eq_ok hdeclare.symm
  | standalone tag =>
      exact h.keepConstructor? fun c hc => (Constructor.Obtainable.standalone hc).contains
  | accesses tags => exact h.of_no_members rfl
  | compare x y =>
      simp only [Shelf.operate]
      split
      · exact h.of_no_members rfl
      · exact h.of_no_members rfl
      · exact h.of_no_members rfl
  | race bundle tag clients =>
      refine (h.withBundle bundle _).of_no_members ?_
      split
      · rfl
      · rfl
  | make bundle tag payload => exact h.keepMade (hsound bundle)
  | call constructor payload =>
      refine h.keepMember? ?_
      intro m hm
      obtain ⟨c, hc, hm⟩ := bind_eq_ok_iff.mp hm
      obtain ⟨v, -, hm⟩ := bind_eq_ok_iff.mp hm
      cases hm
      exact h.constructor hc
  | encode ref payload =>
      refine h.keepMember? ?_
      intro m hm
      obtain ⟨c, hc, hm⟩ := bind_eq_ok_iff.mp hm
      obtain ⟨content, -, hm⟩ := bind_eq_ok_iff.mp hm
      exact Member.declaredBy_of_encode (h.constructorOf hc) (mapError_eq_ok_iff.mp hm)
  | copy ref => exact h.keepMember? fun m hm => h.memberOf hm
  | deserialize bundle tag payload =>
      simp only [Shelf.operate]
      split
      · exact h.keepMade (hsound bundle)
      · exact h.of_no_members rfl
  | deserializeValue bundle v =>
      simp only [Shelf.operate]
      split
      · exact h.keepMade (hsound bundle)
      · exact h.of_no_members rfl
  | deserializeText bundle text =>
      simp only [Shelf.operate]
      split
      · exact h.keepMade (hsound bundle)
      · exact h.of_no_members rfl
  | readValue v =>
      refine h.keepMember? ?_
      intro m hm
      exact (Member.Obtainable.decoded (mapError_eq_ok_iff.mp hm)).declaredBy
  | readText text =>
      refine h.keepMember? ?_
      intro m hm
      exact (Member.Obtainable.read (mapError_eq_ok_iff.mp hm)).declaredBy
  | describe bundle ref =>
      simp only [Shelf.operate]
      split
      · next m hm =>
          refine ⟨?_, h.withBundle bundle _⟩
          intro n hn
          rw [List.mem_singleton.mp hn]
          exact h.memberOf hm
      · exact h.of_no_members rfl
  | equal x y =>
      simp only [Shelf.operate]
      split
      · exact h.of_no_members rfl
      · exact h.of_no_members rfl
      · exact h.of_no_members rfl
  | build request refs =>
      simp only [Shelf.operate, Logged.value_bind]
      split
      · exact h.of_no_members rfl
      · next matcher _ =>
          have hkept : Declared S { shelf with matchers := shelf.matchers.keep target matcher } :=
            ⟨h.members, h.constructors⟩
          cases refs with
          | none => exact hkept.of_no_members rfl
          | some refs => exact hkept.of_no_members rfl
  | apply name refs =>
      simp only [Shelf.operate]
      split
      · exact h.of_no_members rfl
      · exact h.of_no_members rfl
  | turnIntoFunction name refs =>
      have hleft : Declared S { shelf with matchers := shelf.matchers.erase name } :=
        ⟨h.members, h.constructors⟩
      simp only [Shelf.operate]
      split
      · exact hleft.of_no_members rfl
      · exact hleft.of_no_members rfl
  | refine tag accepts foreign =>
      simp only [Shelf.operate, Logged.value_bind]
      split
      · exact h.of_no_members rfl
      · next reports hreports =>
          refine ⟨?_, h⟩
          intro m hm
          obtain ⟨report, hreport, hnarrowed⟩ := List.mem_filterMap.mp hm
          exact declaredBy_of_refineAll hreports report hreport m hnarrowed

end Shelf

/-! ## §3  Where members come up -/

def Operation.memberRefs : Operation → List MemberRef
  | .copy ref | .describe _ ref => [ref]
  | .equal x y => [x, y]
  | .build _ refs => refs.getD []
  | .apply _ refs | .turnIntoFunction _ refs => refs
  | .refine _ _ foreign => foreign.filterMap fun
    | .raw ref => some ref
    | .value _ => none
  | _ => []

/-- The members that a matcher of either kind hands on where it matches a member. -/
def AnyMatcher.Hands : AnyMatcher → Member → Declaration → Member → Prop
  | .handlers M, m, T, n => M.table.Hands m T n
  | .stored _, _, _, _ => False

/-- The matcher that an operation applies: one that is kept, or one that it builds. -/
def Shelf.matcherOf (S : Declaration) (shelf : Shelf) : Operation → Option AnyMatcher
  | .build request _ => (buildMatcher S request).value.toOption
  | .apply name _ | .turnIntoFunction name _ => shelf.matchers.get? name
  | _ => none

namespace Session

def memberOf (s : Session) (S : Declaration) (ref : MemberRef) : Except Failure Member :=
  (s.shelf S).memberOf S s.fresh ref

/-- The members that come up while a request is carried out, each with its sum type. A report of a
member says whether its pair and its text lead back to it, so members come up there as well, even
where they are not shown; so they do among foreign values that are narrowed before one that
fails. -/
inductive Involves (s : Session) (r : Request) : Declaration → Member → Prop where
  | kept {T name m} (h : ((s.step r).value.2.shelf T).members.get? name = some m) : Involves s r T m
  | answered {m} (h : m ∈ (s.step r).value.1.members) : Involves s r r.sum m
  | referred {ref m} (href : ref ∈ r.operation.memberRefs) (h : s.memberOf r.sum ref = .ok m) :
      Involves s r r.sum m
  | narrowed {tag accepts foreign ref v m} (hop : r.operation = .refine tag accepts foreign)
      (href : ref ∈ foreign) (hv : (s.shelf r.sum).foreignOf r.sum s.fresh ref = .ok v)
      (h : (Refinement.narrow ⟨r.sum, tag, accepts⟩ v).value = some m) : Involves s r r.sum m
  | fromPair {bundle ref k m} (hop : r.operation = .describe bundle ref)
      (hk : s.memberOf r.sum ref = .ok k)
      (h : ((s.bundle r.sum bundle).deserialize r.sum k.serialize s.fresh).value.1 = .ok m) :
      Involves s r r.sum m
  | fromText {bundle ref k m} (hop : r.operation = .describe bundle ref)
      (hk : s.memberOf r.sum ref = .ok k) (h : Member.ofText r.sum k.text = .ok m) :
      Involves s r r.sum m
  | handed {M ref k T n} (hmatcher : (s.shelf r.sum).matcherOf r.sum r.operation = some M)
      (href : ref ∈ r.operation.memberRefs) (hk : s.memberOf r.sum ref = .ok k)
      (h : M.Hands k T n) : Involves s r T n

/-! ## §4  Whole runs -/

/-- The members and constructors that are kept for each sum type are declared by it. -/
def Declared (s : Session) : Prop := ∀ T, (s.shelf T).Declared T

variable {s : Session} {r : Request} {T : Declaration} {m : Member}

theorem declared_empty : Session.empty.Declared := fun T => Shelf.declared_empty T

theorem Declared.result (h : s.Declared) (hs : s.Sound) (r : Request) :
    Shelf.DeclaredResult r.sum
      ((s.shelf r.sum).operate r.sum s.fresh r.target r.operation).value :=
  (h r.sum).operate (hs.bundles r.sum) r.target r.operation

/-- **One request** keeps declared members and constructors only. -/
theorem Declared.step (h : s.Declared) (hs : s.Sound) (r : Request) :
    (s.step r).value.2.Declared := by
  intro T
  rw [shelf_step]
  split
  · next hT =>
    rw [hT]
    exact (h.result hs r).2
  · exact h T

theorem Declared.run (h : s.Declared) (hs : s.Sound) (requests : List Request) :
    (s.run requests).2.Declared := by
  induction requests generalizing s with
  | nil => exact h
  | cons r rest ih => exact ih (h.step hs r) (hs.step r)

/-- Whatever comes up in a session that keeps declared members is declared. -/
theorem Declared.of_involves (h : s.Declared) (hs : s.Sound) (hm : s.Involves r T m) :
    m.DeclaredBy T := by
  cases hm with
  | kept hkept => exact (h.step hs r T).members _ m hkept
  | answered hanswer => exact (h.result hs r).1 m hanswer
  | referred _ href => exact (h r.sum).memberOf href
  | narrowed _ _ _ hnarrow => exact (Member.Obtainable.narrowed hnarrow).declaredBy
  | fromPair _ _ hback => exact Member.declaredBy_of_make (hs.bundles r.sum _) hback
  | fromText _ _ htext => exact (Member.ofText_eq_ok_iff.mp htext).2
  | @handed M _ _ _ _ _ _ _ hhands =>
      cases M with
      | handlers M => exact CaseTable.Hands.declaredBy hhands
      | stored M => exact hhands.elim

end Session

/-- **Every member is declared**: it carries a non-empty tag that its sum type contains, also where
the list of the sum type has the empty name in it. This holds of each member that can be obtained,
by whatever constructor, bundle, value, text or refinement; of the members that matching any member
by any table hands on, to matchers and to handlers of members, with respect to their own sum type,
so that it makes no difference what a handler would do with others; and of all that come up with any
request after any others. -/
theorem members_are_declared :
    (∀ S m, Member.Obtainable S m → S.Declares m.tag.name) ∧
    (∀ (β : Type) (t : CaseTable (Arm β) (Logged β)) m T n, t.Hands m T n →
      T.Declares n.tag.name) ∧
    (∀ (β : Type) T (f g : Member → Logged β), (∀ n : Member, T.Declares n.tag.name → f n = g n) →
      Arm.onAs (Codec.member T) f = Arm.onAs (Codec.member T) g) ∧
    ∀ requests r T m, (Session.empty.run requests).2.Involves r T m → T.Declares m.tag.name := by
  refine ⟨?_, ?_, ?_, ?_⟩
  · intro S m hm
    exact Declaration.declares_tag.mpr hm.declaredBy
  · intro β t m T n hhands
    exact Declaration.declares_tag.mpr hhands.declaredBy
  · intro β T f g hagree
    exact Arm.onAs_member_congr fun n hn => hagree n (Declaration.declares_tag.mpr hn)
  · intro requests r T m hm
    have hsound : (Session.empty.run requests).2.Sound := Session.sound_empty.run requests
    have hdeclared := Session.declared_empty.run Session.sound_empty requests
    exact Declaration.declares_tag.mpr (hdeclared.of_involves hsound hm)

/-- The member that a matcher of an open sum type hands to a matcher of a list with the empty name
in it. -/
theorem members_are_declared_inside :
    let T : Declaration := ⟨"Inner", .listed ["", "x"]⟩
    let t : CaseTable (Arm Value) (Logged Value) := .ofCalls [.arm "a" (.nested T .empty)]
    let m : Member := ⟨⟨"a", by decide⟩, .array [.string "x", .null]⟩
    let n : Member := ⟨⟨"x", by decide⟩, .null⟩
    t.Hands m T n ∧ T.Declares n.tag.name := by
  intro T t m n
  have hhands : t.Hands m T n := .toMatcher rfl rfl
  obtain ⟨-, hinside, -⟩ := members_are_declared
  exact ⟨hhands, hinside Value t m T n hhands⟩

end Coproduct
