import Coproduct.Proofs.Bundle.Access
import Coproduct.Proofs.Bundle.Validation
import Coproduct.Proofs.Obtainable
import Coproduct.Proofs.Session.Caches
/-!
# Sessions that keep no constructor

A second session has no bundles: wherever a bundle would be asked for a name, it checks the
declaration anew and builds a constructor of its own (`Shelf.operateAnew`). Identities of
constructors and the contents of bundles apart, every run of the first session is answered as this
one answers it. One operation is followed step by step from shelves that keep the same members,
matchers and tags of constructors (`Shelf.Follows.operate`), and so is a run.

§1 the second session · §2 what remains visible · §3 shelves that keep the same · §4 one operation ·
§5 whole runs.
-/

namespace Coproduct

open Json (Value)

/-! ## §1  The second session -/

namespace Shelf

variable (S : Declaration) (shelf : Shelf) (fresh : Nat)

def makeAnew (name : String) (payload : Value) : Except Failure Member :=
  ((Constructor.standalone S name fresh).map (·.call payload)).mapError fun e => .sum (.tag e)

/-- What is said of a member, with what comes back of its pair. -/
def reportOf {ε : Type} (m : Member) (fromPair : Except ε Member) : MemberReport where
  member := m
  pairKept := (Pair.ofProd m.serialize.toProd).same m.serialize
  back :=
    match fromPair with
    | .ok n => n.same m
    | .error _ => false
  textBack := (Member.ofText S m.text).map fun n => n.same m

def operateAnew (target : Option String) : Operation → Logged (Answer × Shelf)
  | .create _ | .inspect _ => pure (.bundle .empty, shelf)
  | .get _ tag | .standalone tag =>
    pure (shelf.keepConstructor? target (Constructor.standalone S tag fresh))
  | .accesses tags =>
    let results := tags.map fun tag => ((Constructor.standalone S tag fresh).map (·.tag), 0)
    pure (.accesses results .empty, shelf)
  | .race _ tag clients =>
    if clients = 0 then pure (.race true 0, shelf)
    else
      match Constructor.standalone S tag fresh with
      | .ok _ => pure (.race true 0, shelf)
      | .error cause => pure (.failed (.sum (.tag cause)), shelf)
  | .make _ tag payload | .deserialize _ tag payload =>
    pure (shelf.keepMember? target (makeAnew S fresh tag payload))
  | .deserializeValue _ v =>
    match Codec.pair.decode v with
    | .ok p => pure (shelf.keepMember? target (makeAnew S fresh p.tag.name p.payload))
    | .error cause => pure (.failed (.read (.data cause)), shelf)
  | .deserializeText _ text =>
    match Pair.ofText text with
    | .ok p => pure (shelf.keepMember? target (makeAnew S fresh p.tag.name p.payload))
    | .error cause => pure (.failed (.read cause), shelf)
  | .describe _ ref =>
    match shelf.memberOf S fresh ref with
    | .ok m => pure (.report (reportOf S m (makeAnew S fresh m.tag.name m.payload)), shelf)
    | .error cause => pure (.failed cause, shelf)
  | op => shelf.operate S fresh target op

end Shelf

namespace Session

def stepAnew (s : Session) (request : Request) : Logged (Answer × Session) := do
  let (answer, shelf) ←
    (s.shelf request.sum).operateAnew request.sum s.fresh request.target request.operation
  return (answer, ⟨s.shelves.set request.sum shelf, s.fresh + request.operation.identities⟩)

def runAnew (s : Session) : List Request → List (Logged Answer) × Session
  | [] => ([], s)
  | request :: rest =>
    let result := s.stepAnew request
    let (answers, final) := runAnew result.value.2 rest
    (⟨result.value.1, result.events⟩ :: answers, final)

end Session

/-! ## §2  What remains visible -/

def Event.isGain : Event → Bool
  | .populated _ _ => true
  | _ => false

/-- An answer without the identities of constructors and the contents of bundles. -/
def Answer.visible : Answer → Answer
  | .bundle _ => .bundle .empty
  | .constructor c => .constructor ⟨0, c.tag⟩
  | .accesses results _ => .accesses (results.map fun result => (result.1, 0)) .empty
  | .comparison _ _ => .comparison true true
  | .race _ _ => .race true 0
  | answer => answer

def visibleEvents (events : List Event) : List Event := events.filter fun e => !e.isGain

/-- An answer and its events, without identities, contents of bundles and gains. -/
def Logged.visible (a : Logged Answer) : Logged Answer := ⟨a.value.visible, visibleEvents a.events⟩

theorem visibleEvents_append (earlier later : List Event) :
    visibleEvents (earlier ++ later) = visibleEvents earlier ++ visibleEvents later :=
  List.filter_append _ _

/-! ## §3  Shelves that keep the same -/

namespace Shelf

variable {S : Declaration} {shelf shelf' : Shelf} {fresh : Nat} {target : Option String}

/-- A shelf without bundles keeps what another keeps: the same members and matchers, and for every
name a constructor with the same tag. -/
structure Follows (shelf' shelf : Shelf) : Prop where
  members : shelf'.members = shelf.members
  matchers : shelf'.matchers = shelf.matchers
  constructors : ∀ name,
    (shelf'.constructors.get? name).map (·.tag) = (shelf.constructors.get? name).map (·.tag)

theorem Follows.refl (shelf : Shelf) : shelf.Follows shelf := ⟨rfl, rfl, fun _ => rfl⟩

theorem Follows.withBundle (h : shelf'.Follows shelf) (name : String) (b : Bundle) :
    shelf'.Follows (shelf.withBundle name b) := ⟨h.members, h.matchers, h.constructors⟩

theorem memberOf_congr (h : shelf'.members = shelf.members) (ref : MemberRef) :
    shelf'.memberOf S fresh ref = shelf.memberOf S fresh ref := by
  cases ref with
  | kept name => simp only [memberOf, h]
  | built tag payload => rfl
  | unreadable => rfl

theorem applyAll_congr (h : shelf'.members = shelf.members) (matcher : AnyMatcher)
    (refs : List MemberRef) :
    shelf'.applyAll S fresh matcher refs = shelf.applyAll S fresh matcher refs := by
  induction refs with
  | nil => rfl
  | cons ref rest ih => simp only [applyAll, memberOf_congr h, ih]

theorem refineAll_congr (h : shelf'.members = shelf.members) (r : Refinement)
    (foreign : List ForeignRef) :
    shelf'.refineAll S fresh r foreign = shelf.refineAll S fresh r foreign := by
  induction foreign with
  | nil => rfl
  | cons ref rest ih =>
      have href : shelf'.foreignOf S fresh ref = shelf.foreignOf S fresh ref := by
        cases ref with
        | value v => rfl
        | raw ref => simp only [foreignOf, memberOf_congr h]
      simp only [refineAll, href, ih]

/-- Results of one operation that look the same and leave shelves that keep the same. -/
def FollowsResult (result' result : Answer × Shelf) : Prop :=
  result'.1.visible = result.1.visible ∧ result'.2.Follows result.2

/-- The same of whole operations, where nothing but gains is reported beyond that. -/
def FollowsOutcome (x' x : Logged (Answer × Shelf)) : Prop :=
  FollowsResult x'.value x.value ∧ visibleEvents x'.events = visibleEvents x.events

theorem Follows.keepMember? (h : shelf'.Follows shelf) (target : Option String)
    (result : Except Failure Member) :
    FollowsResult (shelf'.keepMember? target result) (shelf.keepMember? target result) := by
  cases result with
  | error cause => exact ⟨rfl, h⟩
  | ok m =>
      refine ⟨rfl, ?_, h.matchers, h.constructors⟩
      exact congrArg (fun members : Registry String Member => members.keep target m) h.members

theorem Follows.keepConstructor? (h : shelf'.Follows shelf) (target : Option String)
    {result' result : Except TagError Constructor}
    (hresult : result'.map (·.tag) = result.map (·.tag)) :
    FollowsResult (shelf'.keepConstructor? target result')
      (shelf.keepConstructor? target result) := by
  cases result' with
  | error cause' =>
      cases result with
      | error cause =>
          cases hresult
          exact ⟨rfl, h⟩
      | ok c => cases hresult
  | ok c' =>
      cases result with
      | error cause => cases hresult
      | ok c =>
          have htag : c'.tag = c.tag := Except.ok.inj hresult
          refine ⟨?_, h.members, h.matchers, ?_⟩
          · simp only [Shelf.keepConstructor?, Answer.visible, htag]
          · intro name
            show ((shelf'.constructors.keep target c').get? name).map _ =
              ((shelf.constructors.keep target c).get? name).map _
            rw [Registry.get?_keep, Registry.get?_keep]
            split
            · exact congrArg some htag
            · exact h.constructors name

end Shelf

/-! ## §4  One operation -/

theorem Bundle.visibleEvents_get (S : Declaration) (b : Bundle) (name : String) (fresh : Nat) :
    visibleEvents (b.get S name fresh).events = [] := by
  rcases get_cases S b name fresh with ⟨c, -, hget⟩ | ⟨cause, -, -, hget⟩ | ⟨tag, -, -, hget⟩
  · rw [hget]
    rfl
  · rw [hget]
    rfl
  · rw [hget]
    rfl

namespace Shelf

variable {S : Declaration} {shelf shelf' : Shelf} {fresh : Nat} {target : Option String}

theorem accessAll_visible {b : Bundle} (hb : b.Sound S fresh) (tags : List String) (other : Nat) :
    (accessAll S b fresh tags).value.1.map (fun result => (result.1, 0)) =
        tags.map (fun tag => ((Constructor.standalone S tag other).map (·.tag), 0)) ∧
      visibleEvents (accessAll S b fresh tags).events = [] := by
  induction tags generalizing b fresh with
  | nil => exact ⟨rfl, rfl⟩
  | cons tag rest ih =>
      obtain ⟨hresults, hevents⟩ := ih (hb.get tag)
      have htag := hb.map_tag_get_eq_standalone tag fresh other
      refine ⟨?_, ?_⟩
      · simp only [accessAll, Logged.value_bind, Logged.value_pure, List.map_cons, hresults, htag]
      · simp only [accessAll, Logged.events_bind, Logged.events_pure, visibleEvents_append,
          Bundle.visibleEvents_get, hevents]
        rfl

/-- Clients that race for one name are answered as one of them would be alone. -/
theorem race_visible {bundle tag : String} (hb : (shelf.bundle bundle).Sound S fresh)
    {clients : Nat} (hclients : 0 < clients) :
    (shelf.race S fresh bundle tag clients).1.visible =
      match Constructor.standalone S tag fresh with
      | .ok _ => .race true 0
      | .error cause => .failed (.sum (.tag cause)) := by
  let before := Race.start (shelf.bundle bundle) (List.replicate clients [tag]) fresh
  have hconsistent := (Race.consistent_start hb (List.replicate clients [tag])).run
    (Race.together clients)
  have hforName := (Race.forName_start (shelf.bundle bundle) tag clients fresh).run (S := S)
    (Race.together clients)
  obtain ⟨result, hresult⟩ := Race.exists_answer_together (S := S) (shelf.bundle bundle) tag fresh
    hclients
  obtain ⟨⟨name, first⟩, rest, hanswers⟩ := List.exists_cons_of_ne_nil (List.ne_nil_of_mem hresult)
  have hmem : (name, first) ∈ (before.run S (Race.together clients)).answers := by
    rw [hanswers]
    exact List.mem_cons_self
  -- Every answer is for the one name they all ask for, and its tag depends on that name alone.
  obtain rfl : name = tag := hforName.eq_of_mem_answers hmem
  have htag := hconsistent.map_tag_of_mem hmem
  simp only [race, hanswers, List.map_cons, List.head?_cons, Constructor.standalone, ← htag]
  cases first <;> rfl

theorem Follows.constructor_cases (h : shelf'.Follows shelf) (name : String) :
    (∃ c' c, shelf'.constructor name = .ok c' ∧ shelf.constructor name = .ok c ∧ c'.tag = c.tag) ∨
      ∃ cause, shelf'.constructor name = .error cause ∧ shelf.constructor name = .error cause := by
  have htag := h.constructors name
  unfold Shelf.constructor
  cases hkept' : shelf'.constructors.get? name with
  | none =>
      cases hkept : shelf.constructors.get? name with
      | none => exact .inr ⟨_, rfl, rfl⟩
      | some c =>
          rw [hkept', hkept] at htag
          cases htag
  | some c' =>
      cases hkept : shelf.constructors.get? name with
      | none =>
          rw [hkept', hkept] at htag
          cases htag
      | some c =>
          rw [hkept', hkept] at htag
          exact .inl ⟨c', c, rfl, rfl, Option.some.inj htag⟩

theorem call_congr {c c' : Constructor} (h : c'.tag = c.tag) : c'.call = c.call := by
  funext payload
  rw [Constructor.call, Constructor.call, h]

theorem encode_congr {c c' : Constructor} (h : c'.tag = c.tag) :
    Constructor.encode S c' = Constructor.encode S c := by
  funext payload
  unfold Constructor.encode
  rw [call_congr h, h]

/-- What is made of a kept constructor by its tag is the same behind both shelves. -/
theorem Follows.bind_constructor (h : shelf'.Follows shelf) (name : String)
    {f : Constructor → Except Failure Member} (hf : ∀ c c', c'.tag = c.tag → f c' = f c) :
    (shelf'.constructor name >>= f) = (shelf.constructor name >>= f) := by
  rcases h.constructor_cases name with ⟨c', c, hc', hc, htag⟩ | ⟨cause, hc', hc⟩
  · rw [hc', hc]
    exact hf c c' htag
  · rw [hc', hc]

/-- A member that a bundle builds is built as well without it. -/
theorem Follows.make (h : shelf'.Follows shelf) {bundle : String}
    (hb : (shelf.bundle bundle).Sound S fresh) (target : Option String) (name : String)
    (payload : Value) :
    FollowsOutcome (pure (shelf'.keepMember? target (makeAnew S fresh name payload)))
      (shelf.operate S fresh target (.make bundle name payload)) := by
  have hmake := hb.make_eq_standalone name payload fresh fresh
  refine ⟨?_, ?_⟩
  · show FollowsResult _ ((shelf.withBundle bundle _).keepMember? target
      (((shelf.bundle bundle).make S name payload fresh).value.1.mapError _))
    rw [hmake]
    exact (h.withBundle bundle _).keepMember? target _
  · show [] = visibleEvents ((((shelf.bundle bundle).get S name fresh).events ++ []) ++ [])
    rw [List.append_nil, List.append_nil, Bundle.visibleEvents_get]

theorem Follows.describe (h : shelf'.Follows shelf) {bundle : String}
    (hb : (shelf.bundle bundle).Sound S fresh) (m : Member) :
    FollowsOutcome (pure (.report (reportOf S m (makeAnew S fresh m.tag.name m.payload)), shelf'))
      (shelf.describe S fresh bundle m) := by
  have hback : ((shelf.bundle bundle).deserialize S m.serialize fresh).value.1 =
      (Constructor.standalone S m.tag.name fresh).map (·.call m.payload) :=
    hb.make_eq_standalone m.tag.name m.payload fresh fresh
  refine ⟨⟨?_, h.withBundle bundle _⟩, ?_⟩
  · simp only [Shelf.describe, Logged.value_bind, Logged.value_pure, hback, makeAnew, reportOf]
    cases Constructor.standalone S m.tag.name fresh <;> rfl
  · show [] = visibleEvents ((((shelf.bundle bundle).get S m.tag.name fresh).events ++ []) ++ [])
    rw [List.append_nil, List.append_nil, Bundle.visibleEvents_get]

/-- **One operation** without bundles follows the same one with them. -/
theorem Follows.operate (h : shelf'.Follows shelf)
    (hsound : ∀ name, (shelf.bundle name).Sound S fresh) (target : Option String) (op : Operation) :
    FollowsOutcome (shelf'.operateAnew S fresh target op) (shelf.operate S fresh target op) := by
  cases op with
  | create bundle => exact ⟨⟨rfl, h.withBundle bundle .empty⟩, rfl⟩
  | inspect bundle => exact ⟨⟨rfl, h⟩, rfl⟩
  | get bundle tag =>
      have htag := (hsound bundle).map_tag_get_eq_standalone tag fresh fresh
      refine ⟨(h.withBundle bundle _).keepConstructor? target htag.symm, ?_⟩
      show [] = visibleEvents (((shelf.bundle bundle).get S tag fresh).events ++ [])
      rw [List.append_nil, Bundle.visibleEvents_get]
  | standalone tag => exact ⟨h.keepConstructor? target rfl, rfl⟩
  | accesses tags =>
      obtain ⟨hresults, hevents⟩ := accessAll_visible (Bundle.Sound.empty S fresh) tags fresh
      refine ⟨⟨?_, h⟩, ?_⟩
      · simp only [operateAnew, Shelf.operate, Logged.value_bind, Logged.value_pure,
          Answer.visible, hresults, List.map_map, Function.comp_def]
      · show [] = visibleEvents ((accessAll S .empty fresh tags).events ++ [])
        rw [List.append_nil, hevents]
  | compare x y =>
      simp only [operateAnew, Shelf.operate]
      rcases h.constructor_cases x with ⟨c', c, hc', hc, -⟩ | ⟨cause, hc', hc⟩
      · rcases h.constructor_cases y with ⟨d', d, hd', hd, -⟩ | ⟨cause, hd', hd⟩
        · simp only [hc', hc, hd', hd]
          exact ⟨⟨rfl, h⟩, rfl⟩
        · simp only [hc', hc, hd', hd]
          exact ⟨⟨rfl, h⟩, rfl⟩
      · simp only [hc', hc]
        exact ⟨⟨rfl, h⟩, rfl⟩
  | race bundle tag clients =>
      cases clients with
      | zero => exact ⟨⟨rfl, h.withBundle bundle _⟩, rfl⟩
      | succ n =>
          have hrace : (shelf.race S fresh bundle tag (n + 1)).1.visible = _ :=
            race_visible (hsound bundle) (Nat.succ_pos n)
          simp only [operateAnew, Nat.succ_ne_zero, if_false]
          cases hstandalone : Constructor.standalone S tag fresh with
          | ok c =>
              rw [hstandalone] at hrace
              exact ⟨⟨hrace.symm, h.withBundle bundle _⟩, rfl⟩
          | error cause =>
              rw [hstandalone] at hrace
              exact ⟨⟨hrace.symm, h.withBundle bundle _⟩, rfl⟩
  | make bundle tag payload => exact h.make (hsound bundle) target tag payload
  | call constructor payload =>
      simp only [operateAnew, Shelf.operate]
      rw [h.bind_constructor constructor fun c c' htag => by rw [call_congr htag]]
      exact ⟨h.keepMember? target _, rfl⟩
  | encode ref payload =>
      simp only [operateAnew, Shelf.operate]
      cases ref with
      | kept name =>
          simp only [constructorOf]
          rw [h.bind_constructor name fun c c' htag => by rw [encode_congr htag]]
          exact ⟨h.keepMember? target _, rfl⟩
      | standalone tag => exact ⟨h.keepMember? target _, rfl⟩
  | copy ref =>
      simp only [operateAnew, Shelf.operate, memberOf_congr h.members]
      exact ⟨h.keepMember? target _, rfl⟩
  | deserialize bundle tag payload =>
      simp only [operateAnew, Shelf.operate]
      cases htag : Tag.ofString tag with
      | ok t =>
          obtain rfl := Tag.ofString_eq_ok_iff.mp htag
          exact h.make (hsound bundle) target t.name payload
      | error cause =>
          have hmake : makeAnew S fresh tag payload = .error (.sum (.tag cause)) := by
            simp only [makeAnew, Constructor.standalone, Declaration.declare, htag]
            rfl
          rw [hmake]
          exact ⟨⟨rfl, h⟩, rfl⟩
  | deserializeValue bundle v =>
      simp only [operateAnew, Shelf.operate]
      cases Codec.pair.decode v with
      | ok p => exact h.make (hsound bundle) target p.tag.name p.payload
      | error cause => exact ⟨⟨rfl, h⟩, rfl⟩
  | deserializeText bundle text =>
      simp only [operateAnew, Shelf.operate]
      cases Pair.ofText text with
      | ok p => exact h.make (hsound bundle) target p.tag.name p.payload
      | error cause => exact ⟨⟨rfl, h⟩, rfl⟩
  | readValue v => exact ⟨h.keepMember? target _, rfl⟩
  | readText text => exact ⟨h.keepMember? target _, rfl⟩
  | describe bundle ref =>
      simp only [operateAnew, Shelf.operate, memberOf_congr h.members]
      cases shelf.memberOf S fresh ref with
      | ok m => exact h.describe (hsound bundle) m
      | error cause => exact ⟨⟨rfl, h⟩, rfl⟩
  | equal x y =>
      simp only [operateAnew, Shelf.operate, memberOf_congr h.members]
      split
      · exact ⟨⟨rfl, h⟩, rfl⟩
      · exact ⟨⟨rfl, h⟩, rfl⟩
      · exact ⟨⟨rfl, h⟩, rfl⟩
  | build request refs =>
      simp only [operateAnew, Shelf.operate]
      unfold FollowsOutcome
      simp only [Logged.value_bind, Logged.events_bind]
      cases (buildMatcher S request).value with
      | error cause => exact ⟨⟨rfl, h⟩, rfl⟩
      | ok matcher =>
          have hkept : Follows { shelf' with matchers := shelf'.matchers.keep target matcher }
              { shelf with matchers := shelf.matchers.keep target matcher } :=
            ⟨h.members, congrArg (·.keep target matcher) h.matchers, h.constructors⟩
          cases refs with
          | none => exact ⟨⟨rfl, hkept⟩, rfl⟩
          | some refs =>
              simp only [applyAll_congr hkept.members]
              exact ⟨⟨rfl, hkept⟩, rfl⟩
  | apply name refs =>
      simp only [operateAnew, Shelf.operate, h.matchers, applyAll_congr h.members]
      split
      · exact ⟨⟨rfl, h⟩, rfl⟩
      · exact ⟨⟨rfl, h⟩, rfl⟩
  | turnIntoFunction name refs =>
      have hleft : Follows { shelf' with matchers := shelf.matchers.erase name }
          { shelf with matchers := shelf.matchers.erase name } := ⟨h.members, rfl, h.constructors⟩
      simp only [operateAnew, Shelf.operate, h.matchers]
      split
      · simp only [applyAll_congr hleft.members]
        exact ⟨⟨rfl, hleft⟩, rfl⟩
      · exact ⟨⟨rfl, hleft⟩, rfl⟩
  | refine tag accepts foreign =>
      simp only [operateAnew, Shelf.operate, refineAll_congr h.members]
      unfold FollowsOutcome
      simp only [Logged.value_bind, Logged.events_bind]
      split
      · exact ⟨⟨rfl, h⟩, rfl⟩
      · exact ⟨⟨rfl, h⟩, rfl⟩

end Shelf

/-! ## §5  Whole runs -/

namespace Session

/-- A session without bundles keeps what another keeps, and identities go on from the same one. -/
structure Follows (s' s : Session) : Prop where
  shelves : ∀ T, (s'.shelf T).Follows (s.shelf T)
  fresh : s'.fresh = s.fresh

theorem Follows.refl (s : Session) : s.Follows s := ⟨fun _ => .refl _, rfl⟩

variable {s s' : Session}

/-- **One request** without bundles follows the same one with them. -/
theorem Follows.step (h : s'.Follows s) (hs : s.Sound) (r : Request) :
    (s'.stepAnew r).value.1.visible = (s.step r).value.1.visible ∧
      visibleEvents (s'.stepAnew r).events = visibleEvents (s.step r).events ∧
      (s'.stepAnew r).value.2.Follows (s.step r).value.2 := by
  have houtcome := (h.shelves r.sum).operate (hs.bundles r.sum) r.target r.operation
  rw [← h.fresh] at houtcome
  obtain ⟨⟨hanswer, hshelf⟩, hevents⟩ := houtcome
  have hstep : s.step r = (do
      let (answer, shelf) ←
        (s.shelf r.sum).operate r.sum s'.fresh r.target r.operation
      return (answer, ⟨s.shelves.set r.sum shelf, s'.fresh + r.operation.identities⟩)) := by
    rw [h.fresh]
    rfl
  rw [hstep]
  refine ⟨hanswer, ?_, ?_, rfl⟩
  · show visibleEvents (_ ++ []) = visibleEvents (_ ++ [])
    rw [List.append_nil, List.append_nil, hevents]
  · intro T
    show (Session.mk _ _).shelf T |>.Follows ((Session.mk _ _).shelf T)
    rw [shelf_set, shelf_set]
    split
    · exact hshelf
    · exact h.shelves T

theorem Follows.run (h : s'.Follows s) (hs : s.Sound) (requests : List Request) :
    (s'.runAnew requests).1.map Logged.visible = (s.run requests).1.map Logged.visible := by
  induction requests generalizing s s' with
  | nil => rfl
  | cons r rest ih =>
      obtain ⟨hanswer, hevents, hnext⟩ := h.step hs r
      have hfirst : Logged.visible ⟨(s'.stepAnew r).value.1, (s'.stepAnew r).events⟩ =
          Logged.visible ⟨(s.step r).value.1, (s.step r).events⟩ := Logged.ext hanswer hevents
      exact congrArg₂ List.cons hfirst (ih hnext (hs.step r))

end Session

/-- **A bundle answers as if it kept nothing.** Whatever it was asked before, it hands out a
constructor for a name exactly when there is one without it, and else refuses the name for the same
reason: the empty name as empty, also where it is listed, and any other as unknown. What is then
built with a payload, by the constructor, by `make` or by `deserialize`, is the member that a
constructor of one's own builds. So all answers and reports of a run are those of a session that
keeps no constructor, but for identities and for what only bundles have to tell. -/
theorem bundles_answer_as_if_empty :
    (∀ S b fresh, Bundle.Reachable S b fresh → ∀ name next other,
      let kept := (b.get S name next).value.1
      let alone := Constructor.standalone S name other
      ((∃ c, kept = .ok c) ↔ ∃ c, alone = .ok c) ∧
      (∀ cause, kept = .error cause ↔ alone = .error cause) ∧
      (name = "" → kept = .error .empty) ∧
      (name ≠ "" → ∀ cause, kept = .error cause →
        S.contains name = false ∧ cause = .unknown S.name name) ∧
      ∀ payload,
        kept.map (·.call payload) = alone.map (·.call payload) ∧
        (b.make S name payload next).value.1 = alone.map (·.call payload) ∧
        ∀ tag : Tag, tag.name = name →
          (b.deserialize S ⟨tag, payload⟩ next).value.1 = alone.map (·.call payload)) ∧
    ∀ requests, (Session.empty.runAnew requests).1.map Logged.visible =
      (Session.empty.run requests).1.map Logged.visible := by
  refine ⟨?_, (Session.Follows.refl _).run Session.sound_empty⟩
  intro S b fresh hb name next other kept alone
  have hsound := hb.sound
  have herror : ∀ cause, kept = .error cause ↔ alone = .error cause :=
    fun cause => hsound.get_eq_error_iff next other
  have hmake : ∀ payload, (b.make S name payload next).value.1 = alone.map (·.call payload) :=
    fun payload => hsound.make_eq_standalone name payload next other
  refine ⟨?_, herror, ?_, fun hname cause hcause => hsound.cause_of_get hcause hname, ?_⟩
  · cases hkept : kept with
    | ok c =>
        cases halone : alone with
        | ok d => simp
        | error cause => cases hkept.symm.trans ((herror cause).mpr halone)
    | error cause =>
        rw [(herror cause).mp hkept]
  · rintro rfl
    exact hsound.get_of_empty next
  · intro payload
    refine ⟨hmake payload, hmake payload, ?_⟩
    rintro tag rfl
    exact hmake payload

/-- A bundle that keeps a tag and has refused the empty name answers as if it kept nothing. -/
theorem bundles_answer_as_if_empty_used :
    let S : Declaration := ⟨"Letters", .listed ["", "a"]⟩
    let b := (((Bundle.empty.get S "a" 0).value.2).get S "" 1).value.2
    b.Reachable S 2 ∧ (b.get S "" 2).value.1 = .error .empty ∧
      (b.make S "a" .null 2).value.1 =
        (Constructor.standalone S "a" 2).map (·.call .null) := by
  intro S b
  have hb : b.Reachable S 2 := .get (.get (.new 0) "a") ""
  obtain ⟨hanswers, -⟩ := bundles_answer_as_if_empty
  obtain ⟨-, -, hempty, -⟩ := hanswers S b 2 hb "" 2 2
  obtain ⟨-, -, -, -, hbuilt⟩ := hanswers S b 2 hb "a" 2 2
  exact ⟨hb, hempty rfl, (hbuilt .null).2.1⟩

end Coproduct
