import Coproduct.Proofs.Json.Framing
import Coproduct.Proofs.Json.Lexing
import Mathlib.Data.List.Nodup
import Mathlib.Data.String.Basic
/-!
# Reading a written value back

From the tokens of a value the reader gets the value again, as long as no more containers than the
bound allows are open at once: those below the value and those that the value nests in itself. One
container more and the text is malformed (`readOn_tokens`). Objects come back field by field because
their keys are in ascending order already.

§1 fields in order · §2 values.
-/

namespace Coproduct.Json

/-! ## §1  Fields in order -/

namespace Fields

variable {fields : Fields} {key : String} {v : Value}

theorem insert_of_forall_lt (h : ∀ field ∈ fields, field.1 < key) :
    insert key v fields = fields ++ [(key, v)] := by
  induction fields with
  | nil => rfl
  | cons field fields ih =>
      obtain ⟨k, w⟩ := field
      obtain ⟨hk, hrest⟩ := List.forall_mem_cons.mp h
      have hlt : ¬ key < k := lt_asymm hk
      have hne : key ≠ k := ne_of_gt hk
      rw [insert, if_neg hlt, if_neg hne, ih hrest, List.cons_append]

/-- Fields that are in ascending order stay as they are. -/
theorem ofList_of_ascending (h : fields.Ascending) : ofList fields = fields := by
  induction fields using List.reverseRecOn with
  | nil => rfl
  | append_singleton fields field ih =>
      obtain ⟨hfields, -, hlt⟩ := List.pairwise_append.mp h
      have hlast : ∀ other ∈ fields, other.1 < field.1 := by
        intro other hother
        exact hlt other hother field List.mem_cons_self
      have hinit : ofList fields = fields := ih hfields
      rw [ofList, List.foldl_append]
      show insert field.1 field.2 (ofList fields) = _
      rw [hinit, insert_of_forall_lt hlast]

theorem insert_comm {other : String} {w : Value} (h : key ≠ other) :
    insert key v (insert other w fields) = insert other w (insert key v fields) := by
  induction fields with
  | nil =>
      rcases lt_or_gt_of_ne h with hlt | hlt
      · simp [insert, hlt, lt_asymm hlt, h.symm]
      · simp [insert, hlt, lt_asymm hlt, h]
  | cons field fields ih =>
      obtain ⟨k, u⟩ := field
      grind [insert]

/-- Of fields without a repeated key the order makes no difference. -/
theorem ofList_perm {fields' : Fields} (hkeys : (fields.map (·.1)).Nodup)
    (h : fields.Perm fields') : ofList fields = ofList fields' := by
  refine h.foldl_eq' ?_ []
  intro field hfield other hother acc
  by_cases hsame : field.1 = other.1
  · rw [List.inj_on_of_nodup_map hkeys hfield hother hsame]
  · exact insert_comm (Ne.symm hsame)

end Fields

theorem Value.ofFields_of_ascending {fields : Fields} (h : fields.Ascending) :
    Value.ofFields fields = .object fields := by
  rw [Value.ofFields, Fields.ofList_of_ascending h]

/-! ## §2  Values -/

variable {limit : Nat} {stack : List Frame} {rest : List Token}

/-- The reader behind a part of a text that opens containers down to some depth: it goes on where
they all find room, and otherwise the text is malformed. -/
def withRoom (limit depth : Nat) (r : Reading) (rest : List Token) :
    Except Fault (Value × List Token) :=
  if depth ≤ limit then r.resume limit rest else .error .malformed

theorem withRoom_of_le {depth : Nat} {r : Reading} (h : depth ≤ limit) :
    withRoom limit depth r rest = r.resume limit rest := if_pos h

/-- Two parts in a row need room for the deeper of them. -/
theorem withRoom_trans {depth depth' : Nat} {r r' : Reading} {text : List Token}
    (h : depth ≤ limit → r.resume limit text = withRoom limit depth' r' rest) :
    withRoom limit depth r text = withRoom limit (max depth depth') r' rest := by
  by_cases hdepth : depth ≤ limit
  · have hmax : max depth depth' ≤ limit ↔ depth' ≤ limit := by omega
    rw [withRoom_of_le hdepth, h hdepth]
    simp only [withRoom, hmax]
  · have hmax : ¬ max depth depth' ≤ limit := by omega
    rw [withRoom, withRoom, if_neg hdepth, if_neg hmax]

theorem readOn_of_step {await : Await} {token : Token} {r : Reading}
    (h : Reading.step limit await stack token = .ok r) :
    readOn limit await stack (token :: rest) = r.resume limit rest := by
  rw [readOn_cons, h]
  rfl

/-- A token that opens a container needs room for one more. -/
theorem readOn_of_opening {await : Await} {token : Token} {r : Reading}
    (h : Reading.step limit await stack token =
      if stack.length < limit then .ok r else .error .malformed) :
    readOn limit await stack (token :: rest) = withRoom limit (stack.length + 1) r rest := by
  by_cases hlt : stack.length < limit
  · rw [if_pos hlt] at h
    rw [readOn_of_step h, withRoom_of_le (Nat.succ_le_of_lt hlt)]
  · rw [if_neg hlt] at h
    rw [readOn_cons, h, withRoom, if_neg (by omega)]
    rfl

theorem readOn_openArray {orEnd : Bool} :
    readOn limit (.value orEnd) stack (.openArray :: rest) =
      withRoom limit (stack.length + 1) (.more (.value true) (.array [] :: stack)) rest :=
  readOn_of_opening rfl

theorem readOn_openObject {orEnd : Bool} :
    readOn limit (.value orEnd) stack (.openObject :: rest) =
      withRoom limit (stack.length + 1) (.more (.key [] true) stack) rest :=
  readOn_of_opening rfl

mutual

/-- **A written value is read back**, up to the bound on open containers and not beyond. -/
theorem readOn_tokens (orEnd : Bool) (stack : List Frame) (rest : List Token)
    (hroom : stack.length ≤ limit) :
    ∀ v : Value, v.Canonical → readOn limit (.value orEnd) stack (v.toTokens ++ rest) =
      withRoom limit (stack.length + v.depth) (.give v stack) rest
  | .null, _ => (readOn_of_step rfl).trans (withRoom_of_le hroom).symm
  | .bool _, _ => (readOn_of_step rfl).trans (withRoom_of_le hroom).symm
  | .number _, _ => (readOn_of_step rfl).trans (withRoom_of_le hroom).symm
  | .string _, _ => (readOn_of_step rfl).trans (withRoom_of_le hroom).symm
  | .array [], _ => by
      have hclose : (Reading.more (.value true) (.array [] :: stack)).resume limit
          (.closeArray :: rest) = (Reading.give (.array []) stack).resume limit rest :=
        readOn_of_step rfl
      rw [Value.toTokens, List.cons_append, readOn_openArray, withRoom]
      simp only [Value.itemTokens, List.nil_append, List.singleton_append, hclose]
      rfl
  | .array (v :: items), h => by
      have hdepth : stack.length + (Value.array (v :: items)).depth =
          max (max (stack.length + 1) (stack.length + 1 + v.depth))
            (stack.length + 1 + Value.depthItems items) := by
        simp only [Value.depth, Value.depthItems]
        omega
      obtain ⟨hv, hitems⟩ : v.Canonical ∧ Value.CanonicalItems items := h
      simp only [Value.toTokens, Value.itemTokens, List.cons_append, List.append_assoc,
        List.nil_append]
      have hfirst : ∀ text, withRoom limit (stack.length + 1)
          (.more (.value true) (.array [] :: stack)) (v.toTokens ++ text) =
          withRoom limit (max (stack.length + 1) (stack.length + 1 + v.depth))
            (.more .separator (.array [v] :: stack)) text :=
        fun text => withRoom_trans fun hone =>
          readOn_tokens true (.array [] :: stack) text hone v hv
      -- Each item is read above the frame that its array has put on the stack.
      rw [readOn_openArray, hfirst, hdepth]
      exact withRoom_trans fun hdeep => readOn_otherItemTokens [v] stack rest (by omega) items hitems
  | .object [], _ => by
      have hclose : (Reading.more (.key [] true) stack).resume limit (.closeObject :: rest) =
          (Reading.give (.object []) stack).resume limit rest := readOn_of_step rfl
      rw [Value.toTokens, List.cons_append, readOn_openObject, withRoom]
      simp only [Value.fieldTokens, List.nil_append, List.singleton_append, hclose]
      rfl
  | .object ((k, v) :: fields), h => by
      have hdepth : stack.length + (Value.object ((k, v) :: fields)).depth =
          max (max (stack.length + 1) (stack.length + 1 + v.depth))
            (stack.length + 1 + Value.depthFields fields) := by
        simp only [Value.depth, Value.depthFields]
        omega
      obtain ⟨hascending, hv, hfields⟩ :
          Fields.Ascending ((k, v) :: fields) ∧ v.Canonical ∧ Value.CanonicalFields fields := h
      have hkey : ∀ text, (Reading.more (.key [] true) stack).resume limit
          (.string k :: .colon :: text) = readOn limit (.value false) (.field [] k :: stack) text :=
        fun _ => rfl
      simp only [Value.toTokens, Value.fieldTokens, List.cons_append, List.append_assoc,
        List.nil_append]
      have hfirst : ∀ text, withRoom limit (stack.length + 1) (.more (.key [] true) stack)
          (.string k :: .colon :: (v.toTokens ++ text)) =
          withRoom limit (max (stack.length + 1) (stack.length + 1 + v.depth))
            (.more .separator (.field [(k, v)] k :: stack)) text :=
        fun text => withRoom_trans fun hone => (hkey _).trans
          (readOn_tokens false (.field [] k :: stack) text hone v hv)
      rw [readOn_openObject, hfirst, hdepth, ← Value.ofFields_of_ascending hascending]
      exact withRoom_trans fun hdeep =>
        readOn_otherFieldTokens [(k, v)] k stack rest (by omega) fields hfields

theorem readOn_otherItemTokens (acc : List Value) (stack : List Frame) (rest : List Token)
    (hroom : stack.length + 1 ≤ limit) :
    ∀ items : List Value, Value.CanonicalItems items →
      readOn limit .separator (.array acc :: stack)
          (Value.otherItemTokens items ++ .closeArray :: rest) =
        withRoom limit (stack.length + 1 + Value.depthItems items)
          (.give (.array (acc.reverse ++ items)) stack) rest
  | [], _ => by
      rw [List.append_nil]
      exact (readOn_of_step rfl).trans (withRoom_of_le hroom).symm
  | v :: items, ⟨hv, hitems⟩ => by
      have hdepth : stack.length + 1 + Value.depthItems (v :: items) =
          max (stack.length + 1 + v.depth) (stack.length + 1 + Value.depthItems items) := by
        simp only [Value.depthItems]
        omega
      have hacc : acc.reverse ++ v :: items = (v :: acc).reverse ++ items := by simp
      simp only [Value.otherItemTokens, List.cons_append, List.append_assoc]
      rw [hdepth, hacc, readOn_of_step rfl]
      refine (readOn_tokens false (.array acc :: stack) _ hroom v hv).trans ?_
      exact withRoom_trans fun _ => readOn_otherItemTokens (v :: acc) stack rest hroom items hitems

theorem readOn_otherFieldTokens (acc : List (String × Value)) (key : String) (stack : List Frame)
    (rest : List Token) (hroom : stack.length + 1 ≤ limit) :
    ∀ fields : List (String × Value), Value.CanonicalFields fields →
      readOn limit .separator (.field acc key :: stack)
          (Value.otherFieldTokens fields ++ .closeObject :: rest) =
        withRoom limit (stack.length + 1 + Value.depthFields fields)
          (.give (.ofFields (acc.reverse ++ fields)) stack) rest
  | [], _ => by
      rw [List.append_nil]
      exact (readOn_of_step rfl).trans (withRoom_of_le hroom).symm
  | (k, v) :: fields, ⟨hv, hfields⟩ => by
      have hdepth : stack.length + 1 + Value.depthFields ((k, v) :: fields) =
          max (stack.length + 1 + v.depth) (stack.length + 1 + Value.depthFields fields) := by
        simp only [Value.depthFields]
        omega
      have hacc : acc.reverse ++ (k, v) :: fields = ((k, v) :: acc).reverse ++ fields := by simp
      have hkey : ∀ text, readOn limit .separator (.field acc key :: stack)
          (.comma :: .string k :: .colon :: text) =
          readOn limit (.value false) (.field acc k :: stack) text := fun _ => rfl
      simp only [Value.otherFieldTokens, List.cons_append, List.append_assoc]
      rw [hdepth, hacc, hkey]
      refine (readOn_tokens false (.field acc k :: stack) _ hroom v hv).trans ?_
      exact withRoom_trans fun _ =>
        readOn_otherFieldTokens ((k, v) :: acc) k stack rest hroom fields hfields

end

/-- **The value at the front of a text** that begins with a written one. -/
theorem readValue_tokens {v : Value} (h : v.Canonical) :
    readValue limit (v.toTokens ++ rest) =
      if v.depth ≤ limit then .ok (v, rest) else .error .malformed := by
  rw [readValue, readOn_tokens false [] rest (Nat.zero_le limit) v h, withRoom, List.length_nil, Nat.zero_add]
  rfl

end Coproduct.Json
