import Coproduct.Proofs.Bundle.Reachable
/-!
# One access to a bundle

After an access a bundle keeps what it kept before and the name that was asked for, if that is
declared; a constructor that was not there before has the new identity. Clients that race for one
name make of a bundle just what a single access makes of it (`together_bundle`).

§1 a single access · §2 clients that race for one name.
-/

namespace Coproduct

variable {S : Declaration} {name other : String} {fresh : Nat}

/-! ## §1  A single access -/

namespace Bundle

variable {b : Bundle} {c : Constructor}

/-- Besides what was kept before, a bundle keeps the name that was asked for, if it is declared. -/
theorem find?_isSome_get_iff :
    ((b.get S name fresh).value.2.find? other).isSome = true ↔
      (b.find? other).isSome = true ∨ (other = name ∧ S.Declares name) := by
  rcases get_cases S b name fresh with
    ⟨c, hfind, hget⟩ | ⟨cause, -, hdeclare, hget⟩ | ⟨tag, hmiss, hdeclare, hget⟩
  · rw [hget]
    refine ⟨.inl, ?_⟩
    rintro (hkept | ⟨rfl, -⟩)
    · exact hkept
    · rw [hfind, Option.isSome_some]
  · rw [hget]
    refine ⟨.inl, ?_⟩
    rintro (hkept | ⟨-, hdeclares⟩)
    · exact hkept
    · exact absurd hdeclares (Declaration.not_declares_of_declare_eq_error hdeclare)
  · obtain ⟨hdeclares, rfl⟩ := Declaration.declare_eq_ok_iff.mp hdeclare
    rw [hget, find?_add]
    by_cases hother : tag.name = other
    · subst hother
      simp [hdeclares]
    · rw [if_neg hother]
      refine ⟨.inl, ?_⟩
      rintro (hkept | ⟨heq, -⟩)
      · exact hkept
      · exact absurd heq.symm hother

theorem mem_get_of_mem (hc : c ∈ b.entries) : c ∈ (b.get S name fresh).value.2.entries := by
  rcases get_cases S b name fresh with ⟨k, -, hget⟩ | ⟨cause, -, -, hget⟩ | ⟨tag, -, -, hget⟩
  · rw [hget]
    exact hc
  · rw [hget]
    exact hc
  · rw [hget]
    exact List.mem_cons_of_mem _ hc

/-- Every kept constructor was kept before or has the new identity. -/
theorem mem_or_identity_eq_of_mem_get (hc : c ∈ (b.get S name fresh).value.2.entries) :
    c ∈ b.entries ∨ c.identity = fresh := by
  rcases get_cases S b name fresh with ⟨k, -, hget⟩ | ⟨cause, -, -, hget⟩ | ⟨tag, -, -, hget⟩
  · rw [hget] at hc
    exact .inl hc
  · rw [hget] at hc
    exact .inl hc
  · rw [hget] at hc
    rcases List.mem_cons.mp hc with rfl | hc
    · exact .inr rfl
    · exact .inl hc

/-- What an access hands out is kept under the name that was asked for. -/
theorem mem_of_get_eq_ok (h : (b.get S name fresh).value.1 = .ok c) :
    c ∈ (b.get S name fresh).value.2.entries ∧ c.tag.name = name := by
  rcases get_cases S b name fresh with
    ⟨k, hfind, hget⟩ | ⟨cause, -, -, hget⟩ | ⟨tag, -, hdeclare, hget⟩
  · rw [hget] at h ⊢
    cases h
    exact mem_of_find? hfind
  · rw [hget] at h
    cases h
  · rw [hget] at h ⊢
    cases h
    exact ⟨List.mem_cons_self, (Declaration.declare_eq_ok_iff.mp hdeclare).2⟩

/-- A name that is not declared changes nothing. -/
theorem get_eq_of_not_declares (h : ¬ S.Declares name) : (b.get S name fresh).value.2 = b := by
  rcases get_cases S b name fresh with ⟨k, -, hget⟩ | ⟨cause, -, -, hget⟩ | ⟨tag, -, hdeclare, hget⟩
  · rw [hget]
  · rw [hget]
  · exact absurd (Declaration.declare_eq_ok_iff.mp hdeclare).1 h

end Bundle

/-! ## §2  Clients that race for one name -/

/-- What calls for one name have made of the bundle `b₀` so far. As long as nothing was gained, the
next identity is still the first one, unless the name was kept from the start. -/
def Bundle.GainsOnly (name : String) (b₀ : Bundle) (first : Nat) (b : Bundle) (fresh : Nat) : Prop :=
  (b = b₀ ∧ (b₀.find? name = none → fresh = first)) ∨
    (b₀.find? name = none ∧ ∃ tag : Tag, tag.name = name ∧ b = b₀.add ⟨first, tag⟩)

theorem AccessSection.gainsOnly {b₀ b b' : Bundle} {first fresh' : Nat} {c c' : RaceClient}
    {events : List Event} (h : AccessSection S b fresh c c' b' fresh' events)
    (hc : ∀ n ∈ c.names, n = name) (hb : Bundle.GainsOnly name b₀ first b fresh) :
    Bundle.GainsOnly name b₀ first b' fresh' := by
  -- A section that inserts, inserts the one name that all clients ask for.
  have hasks : ∀ tag : Tag, c.phase = .checked tag → tag.name = name := by
    intro tag hphase
    exact hc tag.name (by simp [RaceClient.names, hphase])
  cases h with
  | idle | found | missed | refused | recognised => exact hb
  | @overtaken tag kept hphase hfind =>
      obtain rfl := hasks tag hphase
      rcases hb with ⟨rfl, -⟩ | hgained
      · exact .inl ⟨rfl, fun hmiss => absurd (hfind.symm.trans hmiss) (by simp)⟩
      · exact .inr hgained
  | @gained tag hphase hfind =>
      obtain rfl := hasks tag hphase
      rcases hb with ⟨rfl, hfirst⟩ | ⟨-, tag', hname, rfl⟩
      · obtain rfl := hfirst hfind
        exact .inr ⟨hfind, tag, rfl, rfl⟩
      · rw [Bundle.find?_add, if_pos hname] at hfind
        cases hfind

namespace Race

variable {b₀ : Bundle} {r : Race} {first : Nat}

/-- What holds of a race in which all clients ask for one name. -/
structure ForName (name : String) (b₀ : Bundle) (first : Nat) (r : Race) : Prop where
  names : ∀ c ∈ r.clients, ∀ n ∈ c.names, n = name
  bundle : Bundle.GainsOnly name b₀ first r.bundle r.fresh

theorem forName_start (b₀ : Bundle) (name : String) (clients first : Nat) :
    (start b₀ (List.replicate clients [name]) first).ForName name b₀ first where
  names := by
    intro c hc n hn
    obtain ⟨names, hnames, rfl⟩ := List.mem_map.mp hc
    rw [List.eq_of_mem_replicate hnames] at hn
    exact List.mem_singleton.mp hn
  bundle := .inl ⟨rfl, fun _ => rfl⟩

theorem ForName.step (h : r.ForName name b₀ first) (place : Nat) :
    (r.step S place).ForName name b₀ first := by
  cases hplace : r.clients[place]? with
  | none =>
      rw [step_of_none hplace]
      exact h
  | some c =>
      have hc := h.names c (List.mem_of_getElem? hplace)
      have hsection := r.advance_section S c
      rw [step_of_some hplace]
      refine ⟨?_, hsection.gainsOnly hc h.bundle⟩
      intro d hd n hn
      rcases List.mem_or_eq_of_mem_set hd with hd | rfl
      · exact h.names d hd n hn
      · rw [hsection.names_eq] at hn
        exact hc n hn

theorem ForName.run (h : r.ForName name b₀ first) (schedule : List Nat) :
    (r.run S schedule).ForName name b₀ first := by
  induction schedule generalizing r with
  | nil => exact h
  | cons place rest ih => exact ih (h.step place)

/-- What was answered was answered to a call for that name. -/
theorem ForName.eq_of_mem_answers (h : r.ForName name b₀ first) {n : String}
    {result : Except TagError Constructor} (hanswer : (n, result) ∈ r.answers) : n = name := by
  obtain ⟨c, hc, hmem⟩ := mem_answers.mp hanswer
  have hn : n ∈ c.answers.reverse.map (·.1) :=
    List.mem_map.mpr ⟨(n, result), List.mem_reverse.mpr hmem, rfl⟩
  exact h.names c hc n (List.mem_append_left _ (List.mem_append_left _ hn))

/-- After three rounds the first client of several is answered. -/
theorem exists_answer_together (b₀ : Bundle) (name : String) (first : Nat) {clients : Nat}
    (hclients : 0 < clients) :
    ∃ result, (name, result) ∈
      ((start b₀ (List.replicate clients [name]) first).run S (together clients)).answers := by
  have hstart : (start b₀ (List.replicate clients [name]) first).clients[0]? =
      some (RaceClient.start [name]) := by
    simp [start, hclients]
  obtain ⟨c, hc, hnames, hleft⟩ := client_run (S := S) hstart (together clients)
  have hturns : (together clients).count 0 = 3 := by
    have hround : (List.range clients).count 0 = 1 :=
      List.count_eq_one_of_mem List.nodup_range (List.mem_range.mpr hclients)
    simp only [together, List.count_append, hround]
  have hsections : (RaceClient.start [name]).sectionsLeft = 3 := rfl
  have hanswers := RaceClient.answers_of_sectionsLeft (c := c) (by omega)
  have hmem : name ∈ c.answers.reverse.map (·.1) := by
    rw [hanswers, hnames]
    exact List.mem_singleton_self name
  obtain ⟨⟨n, result⟩, hresult, rfl⟩ := List.mem_map.mp hmem
  exact ⟨result, mem_answers.mpr ⟨c, List.mem_of_getElem? hc, List.mem_reverse.mp hresult⟩⟩

/-- **Clients that race for one name** make of a bundle what a single access makes of it. -/
theorem together_bundle (hb : b₀.Sound S first) {clients : Nat} (hclients : 0 < clients) :
    ((start b₀ (List.replicate clients [name]) first).run S (together clients)).bundle =
      (b₀.get S name first).value.2 := by
  have hconsistent := (consistent_start hb (List.replicate clients [name])).run (together clients)
  have hforName := (forName_start b₀ name clients first).run (S := S) (together clients)
  obtain ⟨result, hresult⟩ := exists_answer_together (S := S) b₀ name first hclients
  have hexplains := hconsistent.explains hresult
  rcases Bundle.get_cases S b₀ name first with
    ⟨k, hfind, hget⟩ | ⟨cause, -, hdeclare, hget⟩ | ⟨tag, hmiss, hdeclare, hget⟩
  · rw [hget]
    rcases hforName.bundle with ⟨hsame, -⟩ | ⟨hmiss, -⟩
    · exact hsame
    · cases hfind.symm.trans hmiss
  · rw [hget]
    rcases hforName.bundle with ⟨hsame, -⟩ | ⟨-, tag, rfl, hgained⟩
    · exact hsame
    · have hcontains := hconsistent.sound.declared ⟨first, tag⟩ (by
        rw [hgained]
        exact List.mem_cons_self)
      cases hdeclare.symm.trans (Declaration.declare_of_contains hcontains)
  · rw [hget]
    obtain ⟨hdeclares, rfl⟩ := Declaration.declare_eq_ok_iff.mp hdeclare
    rcases hforName.bundle with ⟨hsame, -⟩ | ⟨-, tag', hname, hgained⟩
    -- Had nothing been gained, nothing could have been handed out, nor is a declared name refused.
    · cases result with
      | error cause => cases hdeclare.symm.trans hexplains
      | ok k =>
          rw [hsame] at hexplains
          exact absurd hexplains.2 (Bundle.find?_eq_none_iff.mp hmiss k hexplains.1)
    · rw [hgained, Tag.ext hname]

/-- If a client is refused, the name is not declared. -/
theorem not_declares_of_mem_answers_together (hb : b₀.Sound S first) {clients : Nat} {n : String}
    {cause : TagError} (hanswer : (n, .error cause) ∈
      ((start b₀ (List.replicate clients [name]) first).run S (together clients)).answers) :
    ¬ S.Declares name := by
  have hconsistent := (consistent_start hb (List.replicate clients [name])).run (together clients)
  have hforName := (forName_start b₀ name clients first).run (S := S) (together clients)
  obtain rfl := hforName.eq_of_mem_answers hanswer
  exact Declaration.not_declares_of_declare_eq_error (hconsistent.explains hanswer)

end Race

end Coproduct
