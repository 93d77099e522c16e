import Coproduct.Session.Operation
/-!
# Runs of a session

One operation takes a session to the next one. An operation that fails keeps nothing, and no
operation touches the shelf of another sum type. Runs are sequences of operations.

§1 looking things up · §2 one operation on a shelf · §3 runs.
-/

namespace Coproduct

open Json (Value)

/-! ## §1  Looking things up -/

namespace Shelf

variable (S : Declaration) (shelf : Shelf) (fresh : Nat)

def constructor (name : String) : Except Failure Constructor :=
  match shelf.constructors.get? name with
  | some c => .ok c
  | none => .error (.nothingKept .constructor name)

def constructorOf : ConstructorRef → Except Failure Constructor
  | .kept name => shelf.constructor name
  | .standalone tag => (Constructor.standalone S tag fresh).mapError fun e => .sum (.tag e)

def memberOf : MemberRef → Except Failure Member
  | .kept name =>
    match shelf.members.get? name with
    | some m => .ok m
    | none => .error (.nothingKept .member name)
  | .built tag payload =>
    match Constructor.standalone S tag fresh with
    | .ok c => .ok (c.call payload)
    | .error cause => .error (.sum (.tag cause))
  | .unreadable => .error .unreadable

def readable {α : Type} : Option α → Except Failure α
  | some x => .ok x
  | none => .error .unreadable

def foreignOf : ForeignRef → Except Failure Value
  | .value v => .ok v
  | .raw ref => (shelf.memberOf S fresh ref).map (·.raw)

def applyTo (matcher : AnyMatcher) (m : Member) : Logged (Except SumError Value) :=
  match matcher with
  | .handlers matcher => matcher.apply m
  | .stored matcher => matcher.apply m

/-- Matches the members that are referred to, in order. A reference that fails is the outcome in
its place. -/
def applyAll (matcher : AnyMatcher) : List MemberRef → Logged (List Outcome)
  | [] => pure []
  | ref :: rest => do
    match shelf.memberOf S fresh ref with
    | .error cause => return .error cause :: (← applyAll matcher rest)
    | .ok m =>
      let outcome ← applyTo matcher m
      return outcome.mapError Failure.sum :: (← applyAll matcher rest)

/-! ## §2  One operation on a shelf -/

def withBundle (name : String) (b : Bundle) : Shelf :=
  { shelf with bundles := shelf.bundles.set name b }

/-- A member is the result: it is kept where a name is given. -/
def keepMember (target : Option String) (m : Member) : Answer × Shelf :=
  (.member m, { shelf with members := shelf.members.keep target m })

def keepMember? (target : Option String) : Except Failure Member → Answer × Shelf
  | .ok m => shelf.keepMember target m
  | .error cause => (.failed cause, shelf)

def keepConstructor? (target : Option String) : Except TagError Constructor → Answer × Shelf
  | .ok c => (.constructor c, { shelf with constructors := shelf.constructors.keep target c })
  | .error cause => (.failed (.sum (.tag cause)), shelf)

def deserialize (bundle : String) (target : Option String) (p : Pair) :
    Logged (Answer × Shelf) := do
  let (m, b) ← (shelf.bundle bundle).deserialize S p fresh
  return (shelf.withBundle bundle b).keepMember? target (m.mapError fun e => .sum (.tag e))

/-- Accesses to a bundle of their own, one after another, with the size of the bundle after
each. -/
def accessAll (b : Bundle) (fresh : Nat) :
    List String → Logged (List (Except TagError Tag × Nat) × Bundle)
  | [] => pure ([], b)
  | name :: rest => do
    let (c, b) ← b.get S name fresh
    let (results, last) ← accessAll b (fresh + 1) rest
    return ((c.map (·.tag), b.size) :: results, last)

/-- A race of clients that ask a bundle for one tag. What the clients report is not heard. -/
def race (bundle tag : String) (clients : Nat) : Answer × Shelf :=
  let start := Race.start (shelf.bundle bundle) (List.replicate clients [tag]) fresh
  let final := start.run S (Race.together clients)
  let answers := final.answers.map (·.2)
  let identities := answers.filterMap fun answer => answer.toOption.map (·.identity)
  let answer :=
    -- All clients ask for one tag, so one error is the error of all.
    match answers.head? with
    | some (.error cause) => .failed (.sum (.tag cause))
    | _ => .race (identities.all fun i => identities.head? == some i) final.bundle.size
  (answer, shelf.withBundle bundle final.bundle)

/-- What is said of a member. The way back through the bundle is an access to it. -/
def describe (bundle : String) (m : Member) : Logged (Answer × Shelf) := do
  let p := m.serialize
  let (back, b) ← (shelf.bundle bundle).deserialize S p fresh
  let report : MemberReport :=
    { member := m
      pairKept := (Pair.ofProd p.toProd).same p
      back := match back with
        | .ok n => n.same m
        | .error _ => false
      textBack := (Member.ofText S m.text).map fun n => n.same m }
  return (.report report, shelf.withBundle bundle b)

def buildMatcher : MatcherRequest → Logged (Except Failure AnyMatcher)
  | .handlers checked calls => do
    match ← MatcherPlan.build ⟨S, checked, calls⟩ with
    | .ok matcher => return .ok (.handlers matcher)
    | .error .unreadable => return .error .unreadable
    | .error (.rejected cause) => return .error (.sum cause)
  | .stored true calls => do
    match ← StrictMatcher.checked S calls with
    | .ok matcher => return .ok (.stored matcher)
    | .error cause => return .error (.sum cause)
  | .stored false calls => pure (.ok (.stored (StrictMatcher.unchecked S calls)))

def refineOne (r : Refinement) (foreign : Value) : Logged RefinementReport := do
  let test ← r.test foreign
  let narrowed ← r.narrow foreign
  return { test, consulted := (r.consulted foreign).length, narrowed }

/-- What is said of the foreign values that are referred to, in order. A reference that fails ends
the work; what was reported before it stays reported. -/
def refineAll (r : Refinement) : List ForeignRef → Logged (Except Failure (List RefinementReport))
  | [] => pure (.ok [])
  | ref :: rest => do
    match shelf.foreignOf S fresh ref with
    | .error cause => return .error cause
    | .ok v =>
      let first ← refineOne r v
      return (← refineAll r rest).map (first :: ·)

def operate (target : Option String) : Operation → Logged (Answer × Shelf)
  | .create name => pure (.bundle .empty, shelf.withBundle name .empty)
  | .inspect name => pure (.bundle (shelf.bundle name), shelf)
  | .get name tag => do
    let (c, b) ← (shelf.bundle name).get S tag fresh
    return (shelf.withBundle name b).keepConstructor? target c
  | .standalone tag => pure (shelf.keepConstructor? target (Constructor.standalone S tag fresh))
  | .accesses tags => do
    let (results, b) ← accessAll S .empty fresh tags
    return (.accesses results b, shelf)
  | .compare x y =>
    match shelf.constructor x, shelf.constructor y with
    | .ok c, .ok d => pure (.comparison (c.identical d) (c.identical d), shelf)
    | .error cause, _ | _, .error cause => pure (.failed cause, shelf)
  | .race name tag clients => pure (shelf.race S fresh name tag clients)
  | .make name tag payload => do
    let (m, b) ← (shelf.bundle name).make S tag payload fresh
    return (shelf.withBundle name b).keepMember? target (m.mapError fun e => .sum (.tag e))
  | .call name payload =>
    pure (shelf.keepMember? target (do
      let c ← shelf.constructor name
      return c.call (← readable payload)))
  | .encode ref payload =>
    pure (shelf.keepMember? target (do
      let c ← shelf.constructorOf S fresh ref
      (c.encode S (← readable payload)).mapError .sum))
  | .copy ref => pure (shelf.keepMember? target (shelf.memberOf S fresh ref))
  | .deserialize name tag payload =>
    match Tag.ofString tag with
    | .ok tag => shelf.deserialize S fresh name target ⟨tag, payload⟩
    | .error cause => pure (.failed (.sum (.tag cause)), shelf)
  | .deserializeValue name v =>
    match Codec.pair.decode v with
    | .ok p => shelf.deserialize S fresh name target p
    | .error cause => pure (.failed (.read (.data cause)), shelf)
  | .deserializeText name text =>
    match Pair.ofText text with
    | .ok p => shelf.deserialize S fresh name target p
    | .error cause => pure (.failed (.read cause), shelf)
  | .readValue v =>
    pure (shelf.keepMember? target (((Codec.member S).decode v).mapError fun e => .read (.data e)))
  | .readText text =>
    pure (shelf.keepMember? target ((Member.ofText S text).mapError .read))
  | .describe name ref =>
    match shelf.memberOf S fresh ref with
    | .ok m => shelf.describe S fresh name m
    | .error cause => pure (.failed cause, shelf)
  | .equal x y =>
    match shelf.memberOf S fresh x, shelf.memberOf S fresh y with
    | .ok m, .ok n => pure (.equality (m.same n), shelf)
    | .error cause, _ | _, .error cause => pure (.failed cause, shelf)
  | .build request refs => do
    match ← buildMatcher S request with
    | .error cause => return (.failed cause, shelf)
    | .ok matcher =>
      let kept := { shelf with matchers := shelf.matchers.keep target matcher }
      match refs with
      | none => return (.matcher matcher none, kept)
      | some refs => return (.matcher matcher (some (← kept.applyAll S fresh matcher refs)), kept)
  | .apply name refs =>
    match shelf.matchers.get? name with
    | some matcher => return (.outcomes (← shelf.applyAll S fresh matcher refs), shelf)
    | none => pure (.failed (.nothingKept .matcher name), shelf)
  | .turnIntoFunction name refs => do
    -- The matcher is given away: it is gone even where it is not one of handlers.
    let left := { shelf with matchers := shelf.matchers.erase name }
    match shelf.matchers.get? name with
    | some (.handlers matcher) =>
      return (.outcomes (← left.applyAll S fresh (.handlers matcher) refs), left)
    | _ => return (.failed (.nothingKept .matcher name), left)
  | .refine tag accepts foreign => do
    let r : Refinement := ⟨S, tag, accepts⟩
    match ← shelf.refineAll S fresh r foreign with
    | .error cause => return (.failed cause, shelf)
    | .ok reports => return (.refinement r reports, shelf)

end Shelf

/-! ## §3  Runs -/

namespace Operation

/-- How many identities an operation may use up. -/
def identities : Operation → Nat
  | .accesses tags => tags.length
  | .race _ _ clients => clients
  | _ => 1

end Operation

namespace Session

def step (s : Session) (request : Request) : Logged (Answer × Session) := do
  let (answer, shelf) ←
    (s.shelf request.sum).operate request.sum s.fresh request.target request.operation
  return (answer, ⟨s.shelves.set request.sum shelf, s.fresh + request.operation.identities⟩)

def run (s : Session) : List Request → List (Logged Answer) × Session
  | [] => ([], s)
  | request :: rest =>
    let result := s.step request
    let (answers, final) := run result.value.2 rest
    (⟨result.value.1, result.events⟩ :: answers, final)

end Session

end Coproduct
