import Coproduct.Bundle.Race
import Coproduct.Proofs.Bundle.Cache
/-!
# Every interleaving of racing accesses

Between the look-up of one client and its insertion any other client may insert the same name, so
several clients may find nothing and go on to insert. That all of them end up with one object is an
invariant of single sections (`Consistent`): every constructor that was handed out is still kept,
under the name that was asked for, and the events are the kept constructors in order. It holds
after every schedule, because the insertion looks once more and a bundle never drops anything.

§1 one section · §2 the invariant · §3 schedules · §4 calls and their answers.
-/

namespace Coproduct

variable {S : Declaration}

/-! ## §1  One section -/

/-- What the next section of a client does, from the bundle and the fresh identity that it sees:
the client, the bundle, the fresh identity and the events behind it. -/
inductive AccessSection (S : Declaration) (b : Bundle) (fresh : Nat) (c : RaceClient) :
    RaceClient → Bundle → Nat → List Event → Prop where
  | idle (hphase : c.phase = .ready) (hpending : c.pending = []) :
      AccessSection S b fresh c c b fresh []
  | found {name : String} {rest : List String} {kept : Constructor}
      (hphase : c.phase = .ready) (hpending : c.pending = name :: rest)
      (hfind : b.find? name = some kept) :
      AccessSection S b fresh c ⟨rest, .ready, (name, .ok kept) :: c.answers⟩ b fresh []
  | missed {name : String} {rest : List String}
      (hphase : c.phase = .ready) (hpending : c.pending = name :: rest)
      (hfind : b.find? name = none) :
      AccessSection S b fresh c ⟨rest, .missed name, c.answers⟩ b fresh []
  | refused {name : String} {cause : TagError}
      (hphase : c.phase = .missed name) (hdeclare : S.declare name = .error cause) :
      AccessSection S b fresh c ⟨c.pending, .ready, (name, .error cause) :: c.answers⟩ b fresh []
  | recognised {name : String} {tag : Tag}
      (hphase : c.phase = .missed name) (hdeclare : S.declare name = .ok tag) :
      AccessSection S b fresh c ⟨c.pending, .checked tag, c.answers⟩ b fresh []
  | overtaken {tag : Tag} {kept : Constructor}
      (hphase : c.phase = .checked tag) (hfind : b.find? tag.name = some kept) :
      AccessSection S b fresh c ⟨c.pending, .ready, (tag.name, .ok kept) :: c.answers⟩ b
        (fresh + 1) []
  | gained {tag : Tag}
      (hphase : c.phase = .checked tag) (hfind : b.find? tag.name = none) :
      AccessSection S b fresh c ⟨c.pending, .ready, (tag.name, .ok ⟨fresh, tag⟩) :: c.answers⟩
        (b.add ⟨fresh, tag⟩) (fresh + 1) [.populated S.name tag.name]

theorem Race.advance_section (S : Declaration) (r : Race) (c : RaceClient) :
    AccessSection S r.bundle r.fresh c (r.advance S c).1 (r.advance S c).2.1
      (r.advance S c).2.2.1 (r.advance S c).2.2.2 := by
  obtain ⟨pending, phase, answers⟩ := c
  cases phase with
  | ready =>
      cases pending with
      | nil => exact .idle rfl rfl
      | cons name rest =>
          cases hfind : r.bundle.find? name with
          | some kept =>
              simp only [Race.advance, hfind]
              exact .found rfl rfl hfind
          | none =>
              simp only [Race.advance, hfind]
              exact .missed rfl rfl hfind
  | missed name =>
      cases hdeclare : S.declare name with
      | error cause =>
          simp only [Race.advance, hdeclare]
          exact .refused rfl hdeclare
      | ok tag =>
          simp only [Race.advance, hdeclare]
          exact .recognised rfl hdeclare
  | checked tag =>
      cases hfind : r.bundle.find? tag.name with
      | some kept =>
          simp only [Race.advance, Bundle.insertIfNew_of_some hfind]
          exact .overtaken rfl hfind
      | none =>
          simp only [Race.advance, Bundle.insertIfNew_of_none hfind]
          exact .gained rfl hfind

/-! ## §2  The invariant -/

/-- What holds of an answer: what was handed out is kept under the name that was asked for, and
what was refused is not declared. -/
def Bundle.Explains (S : Declaration) (b : Bundle) : String × Except TagError Constructor → Prop
  | (name, .ok k) => k ∈ b.entries ∧ k.tag.name = name
  | (name, .error cause) => S.declare name = .error cause

/-- What holds of a client: only declared tags get past the check. -/
structure RaceClient.Consistent (S : Declaration) (b : Bundle) (c : RaceClient) : Prop where
  checked : ∀ tag, c.phase = .checked tag → S.contains tag.name = true
  answers : ∀ answer ∈ c.answers, b.Explains S answer

/-- The event that tells of a kept constructor. -/
def Constructor.gainEvent (S : Declaration) (c : Constructor) : Event :=
  .populated S.name c.tag.name

/-- What holds of a race between any two sections, if it started with the bundle `b₀`: the events
tell of all constructors that the bundle has gained since, in the order of their insertion. -/
structure Race.Consistent (S : Declaration) (b₀ : Bundle) (r : Race) : Prop where
  sound : r.bundle.Sound S r.fresh
  clients : ∀ c ∈ r.clients, c.Consistent S r.bundle
  gains : ∃ new, r.bundle.entries = new ++ b₀.entries ∧
    r.events = new.reverse.map (Constructor.gainEvent S)

theorem Bundle.Explains.of_subset {b b' : Bundle} {answer : String × Except TagError Constructor}
    (h : b.Explains S answer) (hsub : b.entries ⊆ b'.entries) : b'.Explains S answer := by
  obtain ⟨name, result⟩ := answer
  cases result with
  | ok k => exact ⟨hsub h.1, h.2⟩
  | error cause => exact h

theorem RaceClient.Consistent.of_subset {b b' : Bundle} {c : RaceClient}
    (h : c.Consistent S b) (hsub : b.entries ⊆ b'.entries) : c.Consistent S b' :=
  { h with answers := fun answer hanswer => (h.answers answer hanswer).of_subset hsub }

namespace AccessSection

variable {b b' : Bundle} {fresh fresh' : Nat} {c c' : RaceClient} {events : List Event}

/-- A section drops nothing from the bundle and reports just what it adds. -/
theorem entries_eq (h : AccessSection S b fresh c c' b' fresh' events) :
    ∃ new, b'.entries = new ++ b.entries ∧ events = new.reverse.map (Constructor.gainEvent S) := by
  cases h with
  | idle | found | missed | refused | recognised | overtaken => exact ⟨[], rfl, rfl⟩
  | gained => exact ⟨[_], rfl, rfl⟩

/-- What is kept for a name stays kept. -/
theorem find?_of_some (h : AccessSection S b fresh c c' b' fresh' events) {name : String}
    {k : Constructor} (hk : b.find? name = some k) : b'.find? name = some k := by
  cases h with
  | idle | found | missed | refused | recognised | overtaken => exact hk
  | gained _ hfind => exact Bundle.find?_add_of_some hfind hk

theorem sound (h : AccessSection S b fresh c c' b' fresh' events) (hb : b.Sound S fresh)
    (hc : c.Consistent S b) : b'.Sound S fresh' := by
  cases h with
  | idle | found | missed | refused | recognised => exact hb
  | overtaken => exact hb.mono (Nat.le_succ fresh)
  | gained hphase hfind =>
      exact hb.add hfind (hc.checked _ hphase) (Nat.le_refl fresh) (Nat.lt_succ_self fresh)

theorem consistent (h : AccessSection S b fresh c c' b' fresh' events)
    (hc : c.Consistent S b) : c'.Consistent S b' := by
  cases h with
  | idle => exact hc
  | found _ _ hfind =>
      exact ⟨by simp, List.forall_mem_cons.mpr ⟨Bundle.mem_of_find? hfind, hc.answers⟩⟩
  | missed => exact ⟨by simp, hc.answers⟩
  | refused _ hdeclare =>
      exact ⟨by simp, List.forall_mem_cons.mpr ⟨hdeclare, hc.answers⟩⟩
  | recognised _ hdeclare =>
      obtain ⟨⟨-, hcontains⟩, rfl⟩ := Declaration.declare_eq_ok_iff.mp hdeclare
      refine ⟨?_, hc.answers⟩
      intro tag htag
      cases htag
      exact hcontains
  | overtaken _ hfind =>
      exact ⟨by simp, List.forall_mem_cons.mpr ⟨Bundle.mem_of_find? hfind, hc.answers⟩⟩
  | @gained tag _ hfind =>
      have hgrown : c.Consistent S (b.add ⟨fresh, tag⟩) :=
        hc.of_subset (List.subset_cons_self _ _)
      exact ⟨by simp, List.forall_mem_cons.mpr ⟨⟨List.mem_cons_self, rfl⟩, hgrown.answers⟩⟩

end AccessSection

/-! ## §3  Schedules -/

namespace Race

variable {b₀ : Bundle} {r : Race} {place : Nat} {c : RaceClient}

theorem step_of_none (h : r.clients[place]? = none) : r.step S place = r := by
  rw [step, h]

theorem step_of_some (h : r.clients[place]? = some c) :
    r.step S place =
      ⟨(r.advance S c).2.1, r.clients.set place (r.advance S c).1, (r.advance S c).2.2.1,
        r.events ++ (r.advance S c).2.2.2⟩ := by
  rw [step, h]

/-- **One section keeps the invariant.** -/
theorem Consistent.step (h : r.Consistent S b₀) (place : Nat) :
    (r.step S place).Consistent S b₀ := by
  cases hplace : r.clients[place]? with
  | none =>
      rw [step_of_none hplace]
      exact h
  | some c =>
      have hc := h.clients c (List.mem_of_getElem? hplace)
      have hsection := r.advance_section S c
      obtain ⟨new, hentries, hevents⟩ := hsection.entries_eq
      have hsub : r.bundle.entries ⊆ (r.advance S c).2.1.entries := by
        rw [hentries]
        exact List.subset_append_right new _
      rw [step_of_some hplace]
      refine ⟨hsection.sound h.sound hc, ?_, ?_⟩
      -- The clients that did not move are consistent with the larger bundle too.
      · intro d hd
        rcases List.mem_or_eq_of_mem_set hd with hd | rfl
        · exact (h.clients d hd).of_subset hsub
        · exact hsection.consistent hc
      · obtain ⟨gained, hgained, hreported⟩ := h.gains
        refine ⟨new ++ gained, ?_, ?_⟩
        · rw [hentries, hgained, List.append_assoc]
        · show r.events ++ _ = _
          rw [hevents, hreported, List.reverse_append, List.map_append]

theorem run_append (r : Race) (S : Declaration) (earlier later : List Nat) :
    r.run S (earlier ++ later) = (r.run S earlier).run S later :=
  List.foldl_append

theorem Consistent.run (h : r.Consistent S b₀) (schedule : List Nat) :
    (r.run S schedule).Consistent S b₀ := by
  induction schedule generalizing r with
  | nil => exact h
  | cons place rest ih => exact ih (h.step place)

theorem consistent_start {fresh : Nat} (hb : b₀.Sound S fresh) (requests : List (List String)) :
    (start b₀ requests fresh).Consistent S b₀ := by
  refine ⟨hb, ?_, [], rfl, rfl⟩
  intro c hc
  obtain ⟨names, -, rfl⟩ := List.mem_map.mp hc
  exact ⟨fun tag htag => (nomatch htag), fun answer hanswer => (nomatch hanswer)⟩

theorem find?_step {name : String} {k : Constructor} (h : r.bundle.find? name = some k)
    (place : Nat) : (r.step S place).bundle.find? name = some k := by
  cases hplace : r.clients[place]? with
  | none =>
      rw [step_of_none hplace]
      exact h
  | some c =>
      rw [step_of_some hplace]
      exact (r.advance_section S c).find?_of_some h

/-- What is kept for a name is never replaced and never dropped. -/
theorem find?_run {name : String} {k : Constructor} (h : r.bundle.find? name = some k)
    (schedule : List Nat) : (r.run S schedule).bundle.find? name = some k := by
  induction schedule generalizing r with
  | nil => exact h
  | cons place rest ih => exact ih (find?_step h place)

theorem mem_answers {answer : String × Except TagError Constructor} :
    answer ∈ r.answers ↔ ∃ c ∈ r.clients, answer ∈ c.answers := by
  simp [answers]

/-- Every answer of a race is explained by what the bundle keeps and by the declaration. -/
theorem Consistent.explains (h : r.Consistent S b₀) {answer : String × Except TagError Constructor}
    (hanswer : answer ∈ r.answers) : r.bundle.Explains S answer := by
  obtain ⟨c, hc, hmem⟩ := mem_answers.mp hanswer
  exact (h.clients c hc).answers answer hmem

/-- Every answer is what the check of the declaration gives for the name. -/
theorem Consistent.map_tag_of_mem (h : r.Consistent S b₀) {name : String}
    {result : Except TagError Constructor} (hresult : (name, result) ∈ r.answers) :
    result.map (·.tag) = S.declare name := by
  have hexplained := h.explains hresult
  cases result with
  | error cause => exact hexplained.symm
  | ok c =>
      obtain ⟨hmem, rfl⟩ := hexplained
      exact (Declaration.declare_of_contains (h.sound.declared c hmem)).symm

/-- A name that is not declared is refused for that reason: no client finds it kept. -/
theorem Consistent.result_of_error (h : r.Consistent S b₀) {name : String}
    {result : Except TagError Constructor} {cause : TagError} (hresult : (name, result) ∈ r.answers)
    (hdeclare : S.declare name = .error cause) : result = .error cause := by
  have htag := h.map_tag_of_mem hresult
  rw [hdeclare] at htag
  cases result with
  | error cause' =>
      cases htag
      rfl
  | ok c => cases htag

end Race

/-! ## §4  Calls and their answers

No call is lost: what a client was given to ask for is, in order, what it has answers for, what is
under way and what is still to come. Three sections answer a call. -/

namespace RaceClient

/-- The names that a client was given, from the first on. -/
def names (c : RaceClient) : List String :=
  let underWay := match c.phase with
    | .ready => []
    | .missed name => [name]
    | .checked tag => [tag.name]
  c.answers.reverse.map (·.1) ++ underWay ++ c.pending

/-- How many sections a client has before it at most. -/
def sectionsLeft (c : RaceClient) : Nat :=
  let underWay := match c.phase with
    | .ready => 0
    | .missed _ => 2
    | .checked _ => 1
  3 * c.pending.length + underWay

theorem answers_of_sectionsLeft {c : RaceClient} (h : c.sectionsLeft = 0) :
    c.answers.reverse.map (·.1) = c.names := by
  obtain ⟨pending, phase, answers⟩ := c
  cases phase with
  | ready =>
      have hpending : pending = [] := by
        apply List.length_eq_zero_iff.mp
        simp only [sectionsLeft] at h
        omega
      simp [names, hpending]
  | missed name => simp [sectionsLeft] at h
  | checked tag => simp [sectionsLeft] at h

end RaceClient

namespace AccessSection

variable {b b' : Bundle} {fresh fresh' : Nat} {c c' : RaceClient} {events : List Event}

theorem names_eq (h : AccessSection S b fresh c c' b' fresh' events) : c'.names = c.names := by
  obtain ⟨pending, phase, answers⟩ := c
  cases h with
  | idle => rfl
  | found hphase hpending | missed hphase hpending =>
      cases hphase
      cases hpending
      simp [RaceClient.names]
  | refused hphase | overtaken hphase | gained hphase =>
      cases hphase
      simp [RaceClient.names]
  | recognised hphase hdeclare =>
      cases hphase
      simp [RaceClient.names, (Declaration.declare_eq_ok_iff.mp hdeclare).2]

theorem sectionsLeft_le (h : AccessSection S b fresh c c' b' fresh' events) :
    c'.sectionsLeft ≤ c.sectionsLeft - 1 := by
  obtain ⟨pending, phase, answers⟩ := c
  cases h with
  | idle hphase hpending =>
      cases hphase
      cases hpending
      exact Nat.le_refl 0
  | found hphase hpending | missed hphase hpending =>
      cases hphase
      cases hpending
      simp only [RaceClient.sectionsLeft, List.length_cons]
      omega
  | refused hphase | overtaken hphase | gained hphase | recognised hphase =>
      cases hphase
      simp only [RaceClient.sectionsLeft]
      omega

end AccessSection

namespace Race

variable {b₀ : Bundle} {r : Race} {place : Nat} {c : RaceClient}

theorem client_step (h : r.clients[place]? = some c) (next : Nat) :
    ∃ c', (r.step S next).clients[place]? = some c' ∧ c'.names = c.names ∧
      c'.sectionsLeft ≤ c.sectionsLeft - [next].count place := by
  cases hnext : r.clients[next]? with
  | none =>
      have hne : next ≠ place := by
        rintro rfl
        rw [h] at hnext
        cases hnext
      rw [step_of_none hnext]
      exact ⟨c, h, rfl, by simp [hne]⟩
  | some d =>
      rw [step_of_some hnext]
      by_cases heq : next = place
      · subst heq
        obtain rfl : c = d := Option.some.inj (h.symm.trans hnext)
        have hsection := r.advance_section S c
        refine ⟨(r.advance S c).1, ?_, hsection.names_eq, ?_⟩
        · exact List.getElem?_set_self (List.getElem?_eq_some_iff.mp h).1
        · simpa using hsection.sectionsLeft_le
      · refine ⟨c, ?_, rfl, by simp [heq]⟩
        show (r.clients.set next (r.advance S d).1)[place]? = some c
        rw [List.getElem?_set_ne heq]
        exact h

/-- A client keeps its names, and every turn of its own brings it nearer to its last answer. -/
theorem client_run (h : r.clients[place]? = some c) (schedule : List Nat) :
    ∃ c', (r.run S schedule).clients[place]? = some c' ∧ c'.names = c.names ∧
      c'.sectionsLeft ≤ c.sectionsLeft - schedule.count place := by
  induction schedule generalizing r c with
  | nil => exact ⟨c, h, rfl, Nat.le_refl _⟩
  | cons next rest ih =>
      obtain ⟨d, hd, hnames, hleft⟩ := client_step (S := S) h next
      obtain ⟨c', hc', hnames', hleft'⟩ := ih hd
      refine ⟨c', hc', hnames'.trans hnames, ?_⟩
      -- Both the turns taken and the turns to come are counted off what is left.
      have hcount : (next :: rest).count place = [next].count place + rest.count place := by
        rw [← List.count_append]
        rfl
      omega

end Race

/-- The event tells that a bundle of `S` gained a constructor for a name. -/
def Event.tellsOfGain (S : Declaration) (name : String) : Event → Bool
  | .populated sum tag => sum == S.name && tag == name
  | _ => false

theorem Constructor.tellsOfGain_gainEvent (S : Declaration) (name : String) (c : Constructor) :
    (c.gainEvent S).tellsOfGain S name = (c.tag.name == name) := by
  simp [gainEvent, Event.tellsOfGain]

namespace Race

variable {r : Race}

/-- A gain is reported once for each kept name, and for no other. -/
theorem Consistent.count_gains (h : r.Consistent S .empty) (name : String) :
    r.events.countP (Event.tellsOfGain S name) =
      if (r.bundle.find? name).isSome then 1 else 0 := by
  obtain ⟨new, hentries, hevents⟩ := h.gains
  -- The race started with nothing kept, so the events tell of all that is kept now.
  have hnew : r.bundle.entries = new := by
    rw [hentries]
    exact List.append_nil new
  have hcount : r.events.countP (Event.tellsOfGain S name) =
      (r.bundle.entries.map (·.tag.name)).count name := by
    rw [hevents, hnew, List.map_reverse, List.countP_reverse, List.countP_map, List.count,
      List.countP_map]
    apply List.countP_congr
    intro c _
    rw [Function.comp_apply, Function.comp_apply, Constructor.tellsOfGain_gainEvent]
  rw [hcount, h.sound.names_nodup.count]
  by_cases hmem : name ∈ r.bundle.entries.map (·.tag.name)
  · have hsome : (r.bundle.find? name).isSome = true :=
      Bundle.find?_isSome_iff.mpr (by simpa using hmem)
    rw [if_pos hmem, if_pos hsome]
  · have hnone : ¬ (r.bundle.find? name).isSome = true := by
      intro hsome
      exact hmem (by simpa using Bundle.find?_isSome_iff.mp hsome)
    rw [if_neg hmem, if_neg hnone]

/-- Handed out constructors are one object exactly when one name was asked for. -/
theorem Consistent.identical_iff {b₀ : Bundle} (h : r.Consistent S b₀) {x y : String}
    {c d : Constructor} (hc : (x, .ok c) ∈ r.answers) (hd : (y, .ok d) ∈ r.answers) :
    c.identical d = true ↔ x = y := by
  obtain ⟨hcmem, rfl⟩ := h.explains hc
  obtain ⟨hdmem, rfl⟩ := h.explains hd
  rw [Constructor.identical, beq_iff_eq]
  exact h.sound.identity_eq_iff hcmem hdmem

/-- **Racing first accesses.** Any number of clients ask one new bundle for any names, and their
sections run in any order. At every moment: calls that have returned for one name have returned
one object, and for two names two, each with the name that was asked for; what is kept for a name
stays kept; a gain has been reported once for each kept name and for no other; an empty or
undeclared name is refused and never kept, a declared one is not refused. Every client is answered
in the order of its calls, and has all its answers after three turns of its own for each. -/
theorem racing_accesses_share_constructors (S : Declaration) (requests : List (List String))
    (fresh : Nat) (schedule : List Nat) :
    let before := start .empty requests fresh
    let r := before.run S schedule
    (∀ x c y d, (x, .ok c) ∈ r.answers → (y, .ok d) ∈ r.answers →
      (c.identical d = true ↔ x = y)) ∧
    (∀ name c, (name, .ok c) ∈ r.answers →
      c.tag.name = name ∧ r.bundle.find? name = some c) ∧
    (∀ earlier later name c, schedule = earlier ++ later →
      (before.run S earlier).bundle.find? name = some c → r.bundle.find? name = some c) ∧
    (∀ name, r.events.countP (Event.tellsOfGain S name) =
      if (r.bundle.find? name).isSome then 1 else 0) ∧
    (∀ result, ("", result) ∈ r.answers → result = .error .empty) ∧
    (∀ name result, name ≠ "" → S.contains name = false → (name, result) ∈ r.answers →
      result = .error (.unknown S.name name)) ∧
    (∀ name result, S.Declares name → (name, result) ∈ r.answers → ∃ c, result = .ok c) ∧
    (∀ name, ¬ S.Declares name → r.bundle.find? name = none) ∧
    (∀ place names, requests[place]? = some names →
      ∃ c, r.clients[place]? = some c ∧ c.names = names ∧
        (3 * names.length ≤ schedule.count place → c.answers.reverse.map (·.1) = names)) := by
  intro before r
  have hconsistent : r.Consistent S .empty :=
    (consistent_start (Bundle.Sound.empty S fresh) requests).run schedule
  refine ⟨?_, ?_, ?_, hconsistent.count_gains, ?_, ?_, ?_, ?_, ?_⟩
  · intro x c y d hc hd
    exact hconsistent.identical_iff hc hd
  · intro name c hc
    obtain ⟨hmem, rfl⟩ := hconsistent.explains hc
    exact ⟨rfl, hconsistent.sound.find?_of_mem hmem⟩
  · rintro earlier later name c rfl hfind
    show (before.run S (earlier ++ later)).bundle.find? name = some c
    rw [run_append]
    exact find?_run hfind later
  · intro result hresult
    exact hconsistent.result_of_error hresult Declaration.declare_of_empty
  · intro name result hname hcontains hresult
    exact hconsistent.result_of_error hresult
      (Declaration.declare_of_not_contains hname hcontains)
  · intro name result hdeclares hresult
    cases result with
    | ok c => exact ⟨c, rfl⟩
    | error cause =>
        obtain ⟨tag, htag, -⟩ := Declaration.declare_eq_ok_of_declares hdeclares
        exact absurd ((hconsistent.explains hresult).symm.trans htag) (by simp)
  · intro name hundeclared
    cases hfind : r.bundle.find? name with
    | none => rfl
    | some c =>
        have hdeclare := hconsistent.sound.declare_of_find? hfind
        exact absurd (Declaration.declare_eq_ok_iff.mp hdeclare).1 hundeclared
  · intro place names hnames
    have hstart : before.clients[place]? = some (RaceClient.start names) := by
      simp [before, start, hnames]
    obtain ⟨c, hc, hkeeps, hleft⟩ := client_run (S := S) hstart schedule
    have hgiven : (RaceClient.start names).names = names := rfl
    have hturns : (RaceClient.start names).sectionsLeft = 3 * names.length := rfl
    refine ⟨c, hc, hkeeps.trans hgiven, ?_⟩
    intro hcount
    -- Three turns for each name leave no section to go.
    rw [RaceClient.answers_of_sectionsLeft (by omega), hkeeps, hgiven]

end Race

end Coproduct
