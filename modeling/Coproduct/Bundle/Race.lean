import Coproduct.Bundle.Basic
/-!
# Racing accesses

Several clients of one bundle, each with a list of names to ask for. An access is three sections
(look up, check the declaration, insert), and between two sections of one client any other client
may run. A race is driven by a schedule, the list of clients whose next section runs; every
interleaving is some schedule.
-/

namespace Coproduct

/-- Where a client is: between accesses, or behind a look-up that found nothing, or behind the
check of the declaration as well. -/
inductive AccessPhase where
  | ready
  | missed (name : String)
  | checked (tag : Tag)

/-- A client: the names still to ask for, the access that is under way, and the answers so far,
latest first. -/
structure RaceClient where
  pending : List String
  phase : AccessPhase
  answers : List (String × Except TagError Constructor)

/-- A bundle with its clients, the next fresh identity, and the events so far. -/
structure Race where
  bundle : Bundle
  clients : List RaceClient
  fresh : Nat
  events : List Event

namespace RaceClient

def start (names : List String) : RaceClient := ⟨names, .ready, []⟩

def answer (c : RaceClient) (name : String) (result : Except TagError Constructor) : RaceClient :=
  { c with phase := .ready, answers := (name, result) :: c.answers }

end RaceClient

namespace Race

def start (b : Bundle) (requests : List (List String)) (fresh : Nat) : Race :=
  ⟨b, requests.map RaceClient.start, fresh, []⟩

/-- The next section of one client. A client with nothing left to ask for stays as it is. -/
def advance (S : Declaration) (r : Race) (c : RaceClient) :
    RaceClient × Bundle × Nat × List Event :=
  match c.phase with
  | .ready =>
    match c.pending with
    | [] => (c, r.bundle, r.fresh, [])
    | name :: rest =>
      let c := { c with pending := rest }
      match r.bundle.find? name with
      | some found => (c.answer name (.ok found), r.bundle, r.fresh, [])
      | none => ({ c with phase := .missed name }, r.bundle, r.fresh, [])
  | .missed name =>
    match S.declare name with
    | .error cause => (c.answer name (.error cause), r.bundle, r.fresh, [])
    | .ok tag => ({ c with phase := .checked tag }, r.bundle, r.fresh, [])
  | .checked tag =>
    let inserted := r.bundle.insertIfNew S tag r.fresh
    -- The identity is used up also where another client was faster.
    (c.answer tag.name (.ok inserted.value.1), inserted.value.2, r.fresh + 1, inserted.events)

/-- One section of the client at a place. -/
def step (S : Declaration) (r : Race) (place : Nat) : Race :=
  match r.clients[place]? with
  | none => r
  | some c =>
    let (c, bundle, fresh, events) := r.advance S c
    { bundle, clients := r.clients.set place c, fresh, events := r.events ++ events }

def run (S : Declaration) (r : Race) (schedule : List Nat) : Race := schedule.foldl (step S) r

/-- The schedule in which all clients reach the same section before any goes on, for clients with
one name each: all look up, all check, all insert. -/
def together (clients : Nat) : List Nat :=
  let round := List.range clients
  round ++ round ++ round

def answers (r : Race) : List (String × Except TagError Constructor) :=
  r.clients.flatMap (·.answers)

end Race

end Coproduct
