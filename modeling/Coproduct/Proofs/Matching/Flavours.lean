import Coproduct.Proofs.Matching.Lookup
import Coproduct.Proofs.Matching.Verdict
/-!
# Four flavours with one meaning

Handlers or stored answers, converted when they answer or when they are stored: what nobody can see
is which of these it was. The verdict depends on the names of the arms and on the presence of a
wildcard, and matching depends on what the calls mean, so handler maps that mean the same agree in
everything (`HandlerMap.agrees_of_meaning_eq`).

§1 agreement · §2 fixed answers in four flavours · §3 converted handlers.
-/

namespace Coproduct

open Json (Value)

variable {ρ σ β : Type} {S : Declaration}

/-! ## §1  Agreement -/

/-- Handler maps that cannot be told apart: the check gives one verdict on both with one report, and
matching gives the same answers and the same events, without the check and with it. -/
structure HandlerMap.Agrees (S : Declaration) (H : HandlerMap ρ β) (H' : HandlerMap σ β) :
    Prop where
  verdicts : verdict (H.checked S) = verdict (H'.checked S)
  unchecked : ∀ m, (H.unchecked S).apply m = (H'.unchecked S).apply m
  checked : ∀ M M', (H.checked S).value = .ok M → (H'.checked S).value = .ok M' →
    ∀ m, M.apply m = M'.apply m

/-- **What means the same agrees** in everything. -/
theorem HandlerMap.agrees_of_meaning_eq {H : HandlerMap ρ β} {H' : HandlerMap σ β}
    (h : H.meaning S = H'.meaning S) : H.Agrees S H' := by
  have hunchecked : ∀ m, (H.unchecked S).apply m = (H'.unchecked S).apply m := by
    intro m
    rw [apply_unchecked, apply_unchecked, h]
  have hcheck : H.check S = H'.check S := by
    rw [check_eq_iff, ← armNames_meaning S H, ← hasWildcard_meaning S H, h, armNames_meaning,
      hasWildcard_meaning, ← check_eq_iff]
  refine ⟨by rw [verdict_checked, verdict_checked, hcheck], hunchecked, ?_⟩
  intro M M' hM hM' m
  obtain ⟨-, rfl⟩ := checked_eq_ok_iff.mp hM
  obtain ⟨-, rfl⟩ := checked_eq_ok_iff.mp hM'
  exact hunchecked m

/-! ## §2  Fixed answers in four flavours -/

namespace HandlerMap

/-- Calls with fixed answers, in four flavours: as handlers that give the converted answer, as
handlers that give the answer to be converted, stored after conversion, and stored with it. -/
def ofAnswers (into : ρ → β) (calls : List (CaseCall ρ ρ)) : List (HandlerMap ρ β) :=
  [.handlers (calls.map (CaseCall.map (fun answer => .on fun _ => into answer) fun answer =>
      pure (into answer))),
    .widened into (calls.map (CaseCall.map (fun answer => .on fun _ => answer) id)),
    .stored (calls.map (CaseCall.map into into)),
    .storedWidened into calls]

theorem meaning_of_mem_ofAnswers {into : ρ → β} {calls : List (CaseCall ρ ρ)}
    {H : HandlerMap ρ β} (hH : H ∈ ofAnswers into calls) :
    H.meaning S = (storedWidened into calls).meaning S := by
  simp only [ofAnswers, List.mem_cons, List.not_mem_nil, or_false] at hH
  unfold meaning
  rcases hH with rfl | rfl | rfl | rfl
  · exact CaseCall.map_map _ _ _ _ calls
  · exact CaseCall.map_map _ _ _ _ calls
  · exact CaseCall.map_map _ _ _ _ calls
  · rfl

/-- Stored answers come out as they are, or nothing does. -/
theorem apply_storedWidened (into : ρ → β) (calls : List (CaseCall ρ ρ)) (S : Declaration)
    (m : Member) :
    let result := (((storedWidened into calls).unchecked S).apply m).value
    (∃ answer, result = .ok answer) ∨ result = .error (.unmatched S.name m.tag.name) := by
  intro result
  let M : StrictMatcher β := .unchecked S (widenAnswers into calls)
  have hresult : result = (M.apply m).value := rfl
  rw [hresult]
  rcases hselect : M.table.select m.tag.name with answer | answer | _
  · exact .inl ⟨answer, by rw [StrictMatcher.apply_of_arm hselect]; rfl⟩
  · exact .inl ⟨answer, by rw [StrictMatcher.apply_of_wildcard hselect]⟩
  · exact .inr (by rw [StrictMatcher.apply_of_nothing hselect]; rfl)

end HandlerMap

/-! ## §3  Converted handlers -/

/-- A call with a handler, and the call with the same handler and the conversion behind it. Each
handler answers in one of the types `R i`. -/
inductive Composed {ι : Type} {R : ι → Type} (into : (i : ι) → R i → β) :
    CaseCall (DirectArm (Sigma R)) (Sigma R) → MatcherCall β → Prop where
  | on (name : String) {i : ι} (handler : Value → R i) :
      Composed into (.arm name (.on fun v => ⟨i, handler v⟩))
        (.arm name (.on fun v => into i (handler v)))
  | onAs (name : String) {i : ι} {α : Type} (codec : Codec α) (handler : α → R i) :
      Composed into (.arm name (.onAs codec fun x => ⟨i, handler x⟩))
        (.arm name (.onAs codec fun x => pure (into i (handler x))))
  | wildcard {i : ι} (answer : R i) :
      Composed into (.wildcard ⟨i, answer⟩) (.wildcard (pure (into i answer)))

section

variable {ι : Type} {R : ι → Type} {into : (i : ι) → R i → β}

def convert (into : (i : ι) → R i → β) (answer : Sigma R) : β := into answer.1 answer.2

theorem Composed.map_eq {call : CaseCall (DirectArm (Sigma R)) (Sigma R)} {call' : MatcherCall β}
    (h : Composed into call call') :
    call.map (fun arm => (arm.map (convert into)).toArm)
      (fun answer => pure (convert into answer)) = call' := by
  rcases h with ⟨name, handler⟩ | ⟨name, codec, handler⟩ | answer
  · rfl
  · simp only [CaseCall.map, DirectArm.onAs, DirectArm.map, DirectArm.toArm, Arm.onAs,
      CaseCall.arm.injEq, Arm.typed.injEq, true_and]
    funext v
    rcases codec.decode v with cause | x <;> rfl
  · rfl

theorem widenCalls_of_composed {calls : List (CaseCall (DirectArm (Sigma R)) (Sigma R))}
    {calls' : List (MatcherCall β)} (h : List.Forall₂ (Composed into) calls calls') :
    widenCalls (convert into) calls = calls' := by
  induction h with
  | nil => rfl
  | cons hcall _ ih =>
      rw [widenCalls, List.map_cons, hcall.map_eq]
      exact congrArg _ ih

end

/-- **The four flavours are one.** Take any sum type and any conversions into one type of answers,
one for each type in which arms may answer. A sequence of calls with fixed answers, for whatever
names, means the same in all four flavours: the check gives the same verdict with the same report,
and every member gets the same answer, or is unmatched for the same reason, with the same events,
whether the calls were checked or not. With handlers that read their payloads, as they are or
decoded, converting what the handler answers is the same as a handler that converts by itself, also
where a payload does not decode. -/
theorem flavours_agree {ι : Type} {R : ι → Type} (into : (i : ι) → R i → β) (S : Declaration) :
    (∀ calls : List (CaseCall (Sigma R) (Sigma R)), ∀ H ∈ HandlerMap.ofAnswers (convert into) calls,
      (∀ H' ∈ HandlerMap.ofAnswers (convert into) calls, H.Agrees S H') ∧
      ∀ m, (∃ answer, ((H.unchecked S).apply m).value = .ok answer) ∨
        ((H.unchecked S).apply m).value = .error (.unmatched S.name m.tag.name)) ∧
    ∀ calls calls', List.Forall₂ (Composed into) calls calls' →
      (HandlerMap.widened (convert into) calls).Agrees S
        (HandlerMap.handlers calls' : HandlerMap (Sigma R) β) := by
  refine ⟨?fixed, ?handlers⟩
  case fixed =>
    intro calls H hH
    have hmeaning := HandlerMap.meaning_of_mem_ofAnswers (S := S) hH
    refine ⟨?_, ?_⟩
    · intro H' hH'
      exact HandlerMap.agrees_of_meaning_eq
        (hmeaning.trans (HandlerMap.meaning_of_mem_ofAnswers hH').symm)
    · intro m
      rw [(HandlerMap.agrees_of_meaning_eq hmeaning).unchecked m]
      exact HandlerMap.apply_storedWidened (convert into) calls S m
  case handlers =>
    intro calls calls' h
    apply HandlerMap.agrees_of_meaning_eq
    rw [HandlerMap.meaning_widened, widenCalls_of_composed h]

/-- Answers of two types, one of them decoded: where the payload does not decode, nothing is
converted. -/
theorem flavours_agree_undecoded :
    let R : Bool → Type := fun flag => if flag then Nat else Unit
    let into : (flag : Bool) → R flag → String
      | true => fun n : Nat => n.repr
      | false => fun _ => "none"
    let S : Declaration := ⟨"Any", .every⟩
    let calls : List (CaseCall (DirectArm (Sigma R)) (Sigma R)) :=
      [.arm "a" (.onAs Codec.string fun s => ⟨true, s.length⟩), .wildcard ⟨false, ()⟩]
    let calls' : List (MatcherCall String) :=
      [.arm "a" (.onAs Codec.string fun s => pure s.length.repr), .wildcard (pure "none")]
    let m : Member := ⟨⟨"a", by decide⟩, .null⟩
    List.Forall₂ (Composed into) calls calls' ∧
      (((HandlerMap.widened (convert into) calls).unchecked S).apply m).value =
        .error (.payload "Any" "a" (.decode (.wrongType (.ofValue .null) "a string"))) := by
  intro R into S calls calls' m
  have hcalls : List.Forall₂ (Composed into) calls calls' := by
    refine .cons ?_ (.cons ?_ .nil)
    · exact @Composed.onAs _ _ R into "a" true _ Codec.string fun s => s.length
    · exact @Composed.wildcard _ _ R into false ()
  obtain ⟨-, hagrees⟩ := flavours_agree into S
  refine ⟨hcalls, ?_⟩
  rw [(hagrees calls calls' hcalls).unchecked m, HandlerMap.apply_unchecked]
  rfl

end Coproduct
