import Coproduct.Bundle.Basic
import Coproduct.Proofs.Declaration
import Coproduct.Proofs.Logged
import Coproduct.Proofs.Names
import Mathlib.Data.List.Nodup
import Mathlib.Data.String.Basic
/-!
# What a bundle keeps

A bundle only ever grows: an access hands out what is kept, or refuses the name, or adds one new
constructor in front (`get_cases`). From this follows what holds of every bundle that accesses
build (`Sound`): each kept constructor has a declared tag, no two have the same name, and no two
are the same object. The look-up may therefore skip the check of the declaration.

§1 looking up · §2 growing · §3 the sections of an access · §4 sound bundles · §5 views.
-/

namespace Coproduct.Bundle

open Json (Value)

variable {S : Declaration} {b : Bundle} {c d : Constructor} {name : String} {fresh : Nat}

/-! ## §1  Looking up -/

@[simp] theorem find?_empty (name : String) : empty.find? name = none := rfl

theorem mem_of_find? (h : b.find? name = some c) : c ∈ b.entries ∧ c.tag.name = name := by
  refine ⟨List.mem_of_find?_eq_some h, ?_⟩
  have hname := List.find?_some h
  simpa using hname

theorem find?_eq_none_iff : b.find? name = none ↔ ∀ c ∈ b.entries, c.tag.name ≠ name := by
  simp [find?]

theorem find?_isSome_iff : (b.find? name).isSome = true ↔ ∃ c ∈ b.entries, c.tag.name = name := by
  simp [find?]

/-! ## §2  Growing -/

def add (b : Bundle) (c : Constructor) : Bundle := ⟨c :: b.entries⟩

@[simp] theorem entries_add (b : Bundle) (c : Constructor) :
    (b.add c).entries = c :: b.entries := rfl

theorem find?_add (b : Bundle) (c : Constructor) (name : String) :
    (b.add c).find? name = if c.tag.name = name then some c else b.find? name := by
  unfold find? add
  rw [List.find?_cons]
  by_cases h : c.tag.name = name
  · simp [h]
  · rw [if_neg h, beq_eq_false_iff_ne.mpr h]

/-- What is kept for a name stays kept when the bundle gains another name. -/
theorem find?_add_of_some (hnew : b.find? c.tag.name = none) (h : b.find? name = some d) :
    (b.add c).find? name = some d := by
  have hne : c.tag.name ≠ name := by
    intro heq
    rw [heq, h] at hnew
    cases hnew
  rw [find?_add, if_neg hne]
  exact h

/-! ## §3  The sections of an access -/

theorem insertIfNew_of_some {tag : Tag} (h : b.find? tag.name = some c) :
    b.insertIfNew S tag fresh = ⟨(c, b), []⟩ := by
  unfold insertIfNew
  rw [h]
  rfl

theorem insertIfNew_of_none {tag : Tag} (h : b.find? tag.name = none) :
    b.insertIfNew S tag fresh =
      ⟨(⟨fresh, tag⟩, b.add ⟨fresh, tag⟩), [.populated S.name tag.name]⟩ := by
  unfold insertIfNew
  rw [h]
  rfl

theorem get_of_some (h : b.find? name = some c) :
    b.get S name fresh = ⟨(.ok c, b), []⟩ := by
  unfold get
  rw [h]
  rfl

theorem get_of_error {cause : TagError} (hmiss : b.find? name = none)
    (h : S.declare name = .error cause) : b.get S name fresh = ⟨(.error cause, b), []⟩ := by
  unfold get
  rw [hmiss, h]
  rfl

theorem get_of_ok {tag : Tag} (hmiss : b.find? name = none) (h : S.declare name = .ok tag) :
    b.get S name fresh =
      ⟨(.ok ⟨fresh, tag⟩, b.add ⟨fresh, tag⟩), [.populated S.name name]⟩ := by
  obtain ⟨-, rfl⟩ := Declaration.declare_eq_ok_iff.mp h
  unfold get
  simp only [hmiss, h, insertIfNew_of_none hmiss]
  rfl

/-- **What an access does.** It hands out what is kept, or it refuses the name, or the bundle
gains a constructor of its own for the name, and only then is anything reported. -/
theorem get_cases (S : Declaration) (b : Bundle) (name : String) (fresh : Nat) :
    (∃ c, b.find? name = some c ∧ b.get S name fresh = ⟨(.ok c, b), []⟩) ∨
    (∃ cause, b.find? name = none ∧ S.declare name = .error cause ∧
      b.get S name fresh = ⟨(.error cause, b), []⟩) ∨
    (∃ tag, b.find? name = none ∧ S.declare name = .ok tag ∧
      b.get S name fresh =
        ⟨(.ok ⟨fresh, tag⟩, b.add ⟨fresh, tag⟩), [.populated S.name name]⟩) := by
  cases hfind : b.find? name with
  | some c => exact .inl ⟨c, rfl, get_of_some hfind⟩
  | none =>
      cases hdeclare : S.declare name with
      | error cause => exact .inr (.inl ⟨cause, rfl, rfl, get_of_error hfind hdeclare⟩)
      | ok tag => exact .inr (.inr ⟨tag, rfl, rfl, get_of_ok hfind hdeclare⟩)

theorem make_value (S : Declaration) (b : Bundle) (name : String) (payload : Value) (fresh : Nat) :
    (b.make S name payload fresh).value =
      ((b.get S name fresh).value.1.map (·.call payload), (b.get S name fresh).value.2) := rfl

/-! ## §4  Sound bundles -/

/-- What holds of every bundle that accesses build, with identities below `fresh` used up. -/
structure Sound (S : Declaration) (b : Bundle) (fresh : Nat) : Prop where
  declared : ∀ c ∈ b.entries, S.contains c.tag.name = true
  names_nodup : (b.entries.map (·.tag.name)).Nodup
  identities_nodup : (b.entries.map (·.identity)).Nodup
  identity_lt : ∀ c ∈ b.entries, c.identity < fresh

theorem Sound.empty (S : Declaration) (fresh : Nat) : Sound S Bundle.empty fresh where
  declared := by simp [Bundle.empty]
  names_nodup := List.nodup_nil
  identities_nodup := List.nodup_nil
  identity_lt := by simp [Bundle.empty]

theorem Sound.mono {fresh' : Nat} (h : Sound S b fresh) (hle : fresh ≤ fresh') :
    Sound S b fresh' :=
  { h with identity_lt := fun c hc => Nat.lt_of_lt_of_le (h.identity_lt c hc) hle }

/-- A new constructor of a declared name keeps a bundle sound. -/
theorem Sound.add {next : Nat} (h : Sound S b fresh) (hnew : b.find? c.tag.name = none)
    (hdeclared : S.contains c.tag.name = true) (hle : fresh ≤ c.identity) (hlt : c.identity < next) :
    Sound S (b.add c) next where
  declared := by
    intro d hd
    rcases List.mem_cons.mp hd with rfl | hd
    · exact hdeclared
    · exact h.declared d hd
  names_nodup := by
    refine List.nodup_cons.mpr ⟨?_, h.names_nodup⟩
    intro hmem
    obtain ⟨d, hd, hname⟩ := List.mem_map.mp hmem
    exact find?_eq_none_iff.mp hnew d hd hname
  identities_nodup := by
    refine List.nodup_cons.mpr ⟨?_, h.identities_nodup⟩
    intro hmem
    obtain ⟨d, hd, hidentity⟩ := List.mem_map.mp hmem
    have hbelow := h.identity_lt d hd
    exact absurd hidentity (Nat.ne_of_lt (Nat.lt_of_lt_of_le hbelow hle))
  identity_lt := by
    intro d hd
    rcases List.mem_cons.mp hd with rfl | hd
    · exact hlt
    · have hbelow := h.identity_lt d hd
      omega

theorem Sound.get (h : Sound S b fresh) (name : String) :
    Sound S (b.get S name fresh).value.2 (fresh + 1) := by
  rcases get_cases S b name fresh with
    ⟨c, -, hget⟩ | ⟨cause, -, -, hget⟩ | ⟨tag, hmiss, hdeclare, hget⟩
  · rw [hget]
    exact h.mono (Nat.le_succ fresh)
  · rw [hget]
    exact h.mono (Nat.le_succ fresh)
  · obtain ⟨hdeclares, rfl⟩ := Declaration.declare_eq_ok_iff.mp hdeclare
    rw [hget]
    exact h.add hmiss hdeclares.2 (Nat.le_refl fresh) (Nat.lt_succ_self fresh)

/-- In a sound bundle the look-up finds every kept constructor under its own name. -/
theorem Sound.find?_of_mem (h : Sound S b fresh) (hc : c ∈ b.entries) :
    b.find? c.tag.name = some c := by
  cases hfind : b.find? c.tag.name with
  | none => exact absurd rfl (find?_eq_none_iff.mp hfind c hc)
  | some d =>
      obtain ⟨hd, hname⟩ := mem_of_find? hfind
      rw [List.inj_on_of_nodup_map h.names_nodup hd hc hname]

/-- Kept constructors are one object exactly when they have one name. -/
theorem Sound.identity_eq_iff (h : Sound S b fresh) (hc : c ∈ b.entries) (hd : d ∈ b.entries) :
    c.identity = d.identity ↔ c.tag.name = d.tag.name := by
  constructor
  · intro hidentity
    rw [List.inj_on_of_nodup_map h.identities_nodup hc hd hidentity]
  · intro hname
    rw [List.inj_on_of_nodup_map h.names_nodup hc hd hname]

/-- The look-up agrees with the check that it skips. -/
theorem Sound.declare_of_find? (h : Sound S b fresh) (hfind : b.find? name = some c) :
    S.declare name = .ok c.tag := by
  obtain ⟨hc, rfl⟩ := mem_of_find? hfind
  exact Declaration.declare_of_contains (h.declared c hc)

/-! ## §5  Views -/

theorem cachedTags_perm (b : Bundle) : b.cachedTags.Perm (b.entries.map (·.tag.name)) :=
  Tag.sortNames_perm _

theorem mem_cachedTags_iff : name ∈ b.cachedTags ↔ (b.find? name).isSome = true := by
  rw [b.cachedTags_perm.mem_iff, find?_isSome_iff]
  simp

theorem length_cachedTags (b : Bundle) : b.cachedTags.length = b.size := by
  rw [b.cachedTags_perm.length_eq, List.length_map]
  rfl

theorem isEmpty_iff_cachedTags : b.isEmpty = true ↔ b.cachedTags = [] := by
  rw [← List.length_eq_zero_iff, length_cachedTags, size, List.length_eq_zero_iff, isEmpty,
    List.isEmpty_iff]

/-- The names of a sound bundle are listed in strictly ascending order. -/
theorem Sound.pairwise_cachedTags (h : Sound S b fresh) : b.cachedTags.Pairwise (· < ·) := by
  have hnodup : b.cachedTags.Nodup := b.cachedTags_perm.nodup_iff.mpr h.names_nodup
  have hsorted : b.cachedTags.Pairwise (· ≤ ·) := Tag.pairwise_sortNames _
  exact (hsorted.and hnodup).imp fun hxy => lt_of_le_of_ne hxy.1 hxy.2

end Coproduct.Bundle
