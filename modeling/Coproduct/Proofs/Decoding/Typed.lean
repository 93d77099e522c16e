import Coproduct.Proofs.Decoding.Pair
import Coproduct.Proofs.Json.ReadBack
/-!
# Typed payloads come back

Encoding a value of some type and decoding it again are two ways through the codec of the type, and
nothing in a codec makes them fit together. For the codecs of the library they do: what a value is
encoded as decodes to the value (`Codec.Returns`), scalar by scalar, and for a container where it
does for what the container holds. Absence is written as null, so what may be absent must not be
null itself; a map comes back with its keys in ascending order.

§1 values that come back · §2 scalars · §3 integers · §4 containers · §5 tags, pairs and members.
-/

namespace Coproduct

open Json (Value Number FitsWord Fields)

variable {α β : Type}

namespace Content

theorem encodeItems_map {content : α → Content} {f : α → Value} {xs : List α}
    (h : ∀ x ∈ xs, (content x).encode = .ok (f x)) :
    encodeItems (xs.map content) = .ok (xs.map f) := by
  induction xs with
  | nil => rfl
  | cons x xs ih =>
      obtain ⟨hx, hxs⟩ := List.forall_mem_cons.mp h
      rw [List.map_cons, encodeItems, hx, ih hxs]
      rfl

theorem encodeEntries_map {content : α → Content} {f : String × α → Value}
    {entries : List (String × α)} (h : ∀ e ∈ entries, (content e.2).encode = .ok (f e)) :
    encodeEntries (entries.map fun e => (.string e.1, content e.2)) =
      .ok (entries.map fun e => (e.1, f e)) := by
  induction entries with
  | nil => rfl
  | cons e entries ih =>
      obtain ⟨he, hrest⟩ := List.forall_mem_cons.mp h
      rw [List.map_cons, encodeEntries, encodeKey, he, ih hrest]
      rfl

end Content

namespace Codec

variable {codec : Codec α} {x : α} {v : Value}

/-! ## §1  Values that come back -/

/-- The value is encoded, and what it is encoded as decodes to it. -/
def Returns (codec : Codec α) (x : α) : Prop :=
  ∃ v, codec.encode x = .ok v ∧ codec.decode v = .ok x

/-! ## §2  Scalars -/

theorem returns_bool (b : Bool) : bool.Returns b := ⟨_, rfl, rfl⟩

theorem returns_string (s : String) : string.Returns s := ⟨_, rfl, rfl⟩

theorem returns_double (x : Double) : double.Returns x := ⟨_, rfl, rfl⟩

theorem returns_unit (u : Unit) : unit.Returns u := ⟨_, rfl, rfl⟩

theorem returns_value (v : Value) : value.Returns v := ⟨_, rfl, rfl⟩

/-- A character is written as a string of one. -/
theorem returns_char (c : Char) : char.Returns c := by
  refine ⟨.string (String.singleton c), rfl, ?_⟩
  simp [char]

/-! ## §3  Integers -/

/-- The values of a type are written as integers that fit a word, and every such integer is read as
the value that it is written for. -/
structure Integral (codec : Codec α) (toInt : α → Int) : Prop where
  content_eq : ∀ x, codec.content x = .integer (toInt x)
  fits : ∀ x, FitsWord (toInt x)
  decode_eq : ∀ x fits, codec.decode (.number (.int (toInt x) fits)) = .ok x

theorem Integral.encode_eq {toInt : α → Int} (h : codec.Integral toInt) (x : α) :
    codec.encode x = .ok (.number (.int (toInt x) (h.fits x))) := by
  rw [encode, h.content_eq, Content.encode, Value.ofInt?, Number.ofInt?, dif_pos (h.fits x)]
  rfl

theorem Integral.returns {toInt : α → Int} (h : codec.Integral toInt) (x : α) : codec.Returns x :=
  ⟨_, h.encode_eq x, h.decode_eq x _⟩

theorem Integral.encode_ne_null {toInt : α → Int} (h : codec.Integral toInt) (x : α) :
    codec.encode x ≠ .ok .null := by
  rw [h.encode_eq]
  intro hnull
  cases hnull

theorem integerIn_of_le {least greatest n : Int} {fits : FitsWord n} (expected : String)
    (hleast : least ≤ n) (hgreatest : n ≤ greatest) :
    integerIn least greatest expected (.number (.int n fits)) = .ok n := by
  rw [integerIn, if_pos ⟨hleast, hgreatest⟩]

/-- Bounds that fit a word, and a way back from the integers: that is all a word type needs. -/
theorem integral_of_bounds {least greatest : Int} {name : String} {toInt : α → Int}
    {ofInt : Int → α} (hleast : FitsWord least) (hgreatest : FitsWord greatest)
    (hbounds : ∀ x, least ≤ toInt x ∧ toInt x ≤ greatest) (hback : ∀ x, ofInt (toInt x) = x) :
    (integral least greatest name toInt ofInt).Integral toInt where
  content_eq _ := rfl
  fits x := by
    obtain ⟨hlow, hhigh⟩ := hbounds x
    exact ⟨hleast.1.trans hlow, hhigh.trans hgreatest.2⟩
  decode_eq x fits := by
    obtain ⟨hlow, hhigh⟩ := hbounds x
    show (integerIn least greatest name _).map ofInt = _
    rw [integerIn_of_le name hlow hhigh]
    exact congrArg Except.ok (hback x)

theorem int8_integral : int8.Integral Int8.toInt :=
  integral_of_bounds (by decide) (by decide)
    (fun x => ⟨x.le_toInt, Int.le_of_lt_add_one x.toInt_lt⟩) Int8.ofInt_toInt

theorem int64_integral : int64.Integral Int64.toInt :=
  integral_of_bounds (by decide) (by decide)
    (fun x => ⟨x.le_toInt, Int.le_of_lt_add_one x.toInt_lt⟩) Int64.ofInt_toInt

theorem uint8_integral : uint8.Integral fun x => x.toNat :=
  integral_of_bounds (by decide) (by decide)
    (fun x => ⟨Int.natCast_nonneg _, Int.ofNat_le.mpr (Nat.le_of_lt_succ x.toNat_lt)⟩)
    fun _ => UInt8.ofNat_toNat

theorem uint32_integral : uint32.Integral fun x => x.toNat :=
  integral_of_bounds (by decide) (by decide)
    (fun x => ⟨Int.natCast_nonneg _, Int.ofNat_le.mpr (Nat.le_of_lt_succ x.toNat_lt)⟩)
    fun _ => UInt32.ofNat_toNat

theorem uint64_integral : uint64.Integral fun x => x.toNat :=
  integral_of_bounds (by decide) (by decide)
    (fun x => ⟨Int.natCast_nonneg _, Int.ofNat_le.mpr (Nat.le_of_lt_succ x.toNat_lt)⟩)
    fun _ => UInt64.ofNat_toNat

/-! ## §4  Containers -/

theorem returns_option_none : (option codec).Returns none := ⟨_, rfl, rfl⟩

/-- What is present comes back, as long as it is not written like absence. -/
theorem Returns.option_some (h : codec.Returns x) (hnull : codec.encode x ≠ .ok .null) :
    (option codec).Returns (some x) := by
  obtain ⟨v, hencode, hdecode⟩ := h
  refine ⟨v, ?_, ?_⟩
  · show (Content.present (codec.content x)).encode = _
    rw [Content.encode]
    exact hencode
  · cases v with
    | null => exact absurd hencode hnull
    | bool | number | string | array | object =>
        show (codec.decode _).map some = _
        rw [hdecode]
        rfl

theorem decodeItems_map {f : α → Value} {xs : List α} (h : ∀ x ∈ xs, codec.decode (f x) = .ok x) :
    decodeItems codec (xs.map f) = .ok xs := by
  induction xs with
  | nil => rfl
  | cons x xs ih =>
      obtain ⟨hx, hxs⟩ := List.forall_mem_cons.mp h
      rw [List.map_cons, decodeItems, hx, ih hxs]
      rfl

theorem list_encode {f : α → Value} {xs : List α} (h : ∀ x ∈ xs, codec.encode x = .ok (f x)) :
    (list codec).encode xs = .ok (.array (xs.map f)) := by
  show (Content.sequence (xs.map codec.content)).encode = _
  rw [Content.encode, Content.encodeItems_map h]
  rfl

theorem Returns.list {xs : List α} (h : ∀ x ∈ xs, codec.Returns x) : (list codec).Returns xs := by
  choose! f hencode hdecode using h
  exact ⟨.array (xs.map f), list_encode hencode, decodeItems_map hdecode⟩

theorem decodeFields_map {f : String × α → Value} {entries : List (String × α)}
    (h : ∀ e ∈ entries, codec.decode (f e) = .ok e.2) :
    decodeFields codec (entries.map fun e => (e.1, f e)) = .ok entries := by
  induction entries with
  | nil => rfl
  | cons e entries ih =>
      obtain ⟨he, hrest⟩ := List.forall_mem_cons.mp h
      rw [List.map_cons, decodeFields, he, ih hrest]
      rfl

theorem map_encode {f : String × α → Value} {entries : List (String × α)}
    (h : ∀ e ∈ entries, codec.encode e.2 = .ok (f e)) :
    (map codec).encode entries = .ok (.ofFields (entries.map fun e => (e.1, f e))) := by
  show (Content.map (entries.map fun e => (.string e.1, codec.content e.2))).encode = _
  rw [Content.encode, Content.encodeEntries_map h]
  rfl

/-- A map with its keys in ascending order comes back where its values do. -/
theorem Returns.map {entries : List (String × α)} (hkeys : (entries.map (·.1)).Pairwise (· < ·))
    (h : ∀ e ∈ entries, codec.Returns e.2) : (map codec).Returns entries := by
  choose! f hencode hdecode using h
  have hascending : Fields.Ascending (entries.map fun e => (e.1, f e)) :=
    List.pairwise_map.mpr (List.pairwise_map.mp hkeys)
  refine ⟨.object _, ?_, decodeFields_map hdecode⟩
  rw [map_encode hencode, Value.ofFields_of_ascending hascending]

/-- A map is written alike in whatever order its entries are gone through. -/
theorem map_encode_perm {entries entries' : List (String × α)} (hkeys : (entries.map (·.1)).Nodup)
    (h : ∀ e ∈ entries, codec.Returns e.2) (hperm : entries.Perm entries') :
    (map codec).encode entries' = (map codec).encode entries := by
  choose! f hencode _ using h
  have hencode' : ∀ e ∈ entries', codec.encode e.2 = .ok (f e) := by
    intro e he
    exact hencode e (hperm.mem_iff.mpr he)
  have hkeys' : ((entries.map fun e => (e.1, f e)).map (·.1)).Nodup := by
    rw [List.map_map]
    exact hkeys
  rw [map_encode hencode, map_encode hencode', Value.ofFields, Value.ofFields,
    Fields.ofList_perm hkeys' (hperm.map _)]

theorem Returns.tuple {codec' : Codec β} {y : β} (hx : codec.Returns x) (hy : codec'.Returns y) :
    (tuple codec codec').Returns (x, y) := by
  obtain ⟨v, hencode, hdecode⟩ := hx
  obtain ⟨w, hencode', hdecode'⟩ := hy
  refine ⟨.array [v, w], ?_, ?_⟩
  · show (Content.sequence [codec.content x, codec'.content y]).encode = _
    rw [encode] at hencode hencode'
    simp only [Content.encode, Content.encodeItems, hencode, hencode']
    rfl
  · show decodeTwo codec.decode codec'.decode "a tuple of size 2" [v, w] = _
    simp only [decodeTwo, hdecode, hdecode']
    rfl

theorem Returns.record (h : codec.Returns x) (name field : String) (absent : Option α) :
    (record name field codec absent).Returns x := by
  obtain ⟨v, hencode, hdecode⟩ := h
  refine ⟨.object [(field, v)], ?_, ?_⟩
  · show (Content.record [(field, codec.content x)]).encode = _
    rw [encode] at hencode
    simp only [Content.encode, Content.encodeFields, hencode]
    rfl
  · simp only [Codec.record, List.lookup_cons_self]
    exact hdecode

/-! ## §5  Tags, pairs and members -/

theorem returns_tag (t : Tag) : tag.Returns t :=
  ⟨_, tag_encode t, tag_decode_eq_ok_iff.mpr rfl⟩

theorem returns_pair (p : Pair) : pair.Returns p :=
  ⟨_, pair_encode p, pair_decode_eq_ok_iff.mpr rfl⟩

theorem returns_member {T : Declaration} {m : Member} (h : m.DeclaredBy T) :
    (member T).Returns m :=
  ⟨_, pair_encode m.serialize, member_decode_eq_ok_iff.mpr ⟨rfl, h⟩⟩

end Codec

end Coproduct
