/-
Comparisons of objects, attribute by attribute.

The comparison functions of the library are mostly lists of tests, one for each attribute: the bit of the attribute is set in
the answer if it is asked for, and only one object carries the attribute or both do and differ in it. A test may follow a
pointer; it is made only where both objects carry the attribute.

- `diffAll`: the tests of a list. `diffAll_isSome_iff`: none of them follows a null pointer.
- `diffAll_confined`: the answer has only bits that were asked for.
- `diffAll_eq_zero_iff`: asked for everything, it is zero if the two objects agree in all attributes.
-/
import Mathlib.Tactic
import Libnl.Core.Mask
import Libnl.Cache.Object

namespace Libnl.Diff

open Object Mask

variable {α : Type}

/-- the object carries the attribute -/
def Carries (a : ObjVal α) (attr : BitVec 64) : Prop := a.ceMask &&& attr ≠ 0

instance (a : ObjVal α) (attr : BitVec 64) : Decidable (Carries a attr) := inferInstanceAs (Decidable (_ ≠ _))

/-- an attribute, and whether two objects differ in it; `none` where that is to follow a null pointer -/
abbrev Test := BitVec 64 × Option Bool

/-- `ATTR_DIFF` with a test -/
def attrTest (attrs : BitVec 64) (a b : ObjVal α) (t : Test) : Option (BitVec 64) :=
  if attrs &&& t.1 ≠ 0 ∧ (a.ceMask ^^^ b.ceMask) &&& t.1 = 0 ∧ a.ceMask &&& b.ceMask &&& t.1 ≠ 0 then
    t.2.map (attrDiff attrs t.1 a b)
  else some (attrDiff attrs t.1 a b false)

/-- the tests, one after the other -/
def diffAll (attrs : BitVec 64) (a b : ObjVal α) : List Test → Option (BitVec 64)
  | [] => some 0
  | t :: ts => (attrTest attrs a b t).bind fun diff => (diffAll attrs a b ts).map (diff ||| ·)

/-- both carry the attribute and do not differ in it, or none of them does -/
structure Agree (a b : ObjVal α) (t : Test) : Prop where
  carry : Carries a t.1 ↔ Carries b t.1
  same : Carries a t.1 → t.2 = some false

/-- the attributes are single bits -/
def singleBits (attrs : List (BitVec 64)) : Bool := attrs.all fun attr => (List.range 64).any fun i => attr == BitVec.twoPow 64 i

theorem singleBits_get {attrs : List (BitVec 64)} (h : singleBits attrs = true) {attr : BitVec 64} (hmem : attr ∈ attrs) :
    ∃ i < 64, attr = BitVec.twoPow 64 i := by
  obtain ⟨i, hi, heq⟩ := List.any_eq_true.1 (List.all_eq_true.1 h attr hmem)
  exact ⟨i, List.mem_range.1 hi, eq_of_beq heq⟩

section
variable {a b : ObjVal α} {i : ℕ} (hi : i < 64)
include hi

theorem carries_iff : Carries a (BitVec.twoPow 64 i) ↔ a.ceMask.getLsbD i = true := by
  rw [Carries, ne_eq, and_twoPow_eq_zero_iff hi, Bool.not_eq_false]

theorem xor_and_iff : (a.ceMask ^^^ b.ceMask) &&& BitVec.twoPow 64 i = 0 ↔
    (Carries a (BitVec.twoPow 64 i) ↔ Carries b (BitVec.twoPow 64 i)) := by
  rw [and_twoPow_eq_zero_iff hi, BitVec.getLsbD_xor, carries_iff hi, carries_iff hi]
  cases a.ceMask.getLsbD i <;> cases b.ceMask.getLsbD i <;> simp

theorem both_and_iff : a.ceMask &&& b.ceMask &&& BitVec.twoPow 64 i ≠ 0 ↔
    Carries a (BitVec.twoPow 64 i) ∧ Carries b (BitVec.twoPow 64 i) := by
  rw [ne_eq, and_twoPow_eq_zero_iff hi, BitVec.getLsbD_and, carries_iff hi, carries_iff hi, Bool.not_eq_false, Bool.and_eq_true]

/-- one test, asked for everything -/
theorem attrTest_all_iff (o : Option Bool) :
    attrTest (BitVec.allOnes 64) a b (BitVec.twoPow 64 i, o) = some 0 ↔ Agree a b (BitVec.twoPow 64 i, o) := by
  have hne := twoPow_ne_zero hi
  have hxor := xor_and_iff (a := a) (b := b) hi
  have hboth := both_and_iff (a := a) (b := b) hi
  rw [attrTest]
  simp only [BitVec.allOnes_and]
  split_ifs with h
  · -- both carry it
    obtain ⟨-, hx, hb⟩ := h
    have hcarry := hboth.1 hb
    cases o with
    | none =>
      refine iff_of_false (fun h => ?_) fun h => ?_
      · cases h
      · cases h.same hcarry.1
    | some differ =>
      rw [Option.map_some, Option.some_inj, attrDiff_all_eq_zero_iff hne]
      constructor
      · rintro ⟨-, hzero | rfl⟩
        · exact absurd hzero hb
        · exact ⟨hxor.1 hx, fun _ => rfl⟩
      · intro hagree
        exact ⟨hx, Or.inr (Option.some.inj (hagree.same hcarry.1))⟩
  · rw [Option.some_inj, attrDiff_all_eq_zero_iff hne, and_iff_left (Or.inr rfl), hxor]
    constructor
    · intro hcarry
      refine ⟨hcarry, fun ha => ?_⟩
      exact absurd ⟨hne, hxor.2 hcarry, hboth.2 ⟨ha, hcarry.1 ha⟩⟩ h
    · exact fun hagree => hagree.carry

theorem attrTest_isSome_iff (attrs : BitVec 64) (o : Option Bool) :
    (attrTest attrs a b (BitVec.twoPow 64 i, o)).isSome = true ↔
      (attrs &&& BitVec.twoPow 64 i ≠ 0 → Carries a (BitVec.twoPow 64 i) → Carries b (BitVec.twoPow 64 i) → o.isSome = true) := by
  have hxor := xor_and_iff (a := a) (b := b) hi
  have hboth := both_and_iff (a := a) (b := b) hi
  rw [attrTest]
  simp only
  split_ifs with h
  · rw [Option.isSome_map]
    obtain ⟨hask, -, hb⟩ := h
    exact ⟨fun hsome _ _ _ => hsome, fun hall => hall hask (hboth.1 hb).1 (hboth.1 hb).2⟩
  · refine iff_of_true rfl fun hask ha hb => ?_
    exact absurd ⟨hask, hxor.2 (iff_of_true ha hb), hboth.2 ⟨ha, hb⟩⟩ h

/-- an attribute that is not asked for does not show -/
theorem attrDiff_confined (attrs : BitVec 64) (differ : Bool) :
    attrDiff attrs (BitVec.twoPow 64 i) a b differ &&& attrs = attrDiff attrs (BitVec.twoPow 64 i) a b differ := by
  rw [attrDiff]
  split_ifs with hask
  · have hbit : attrs.getLsbD i = true := by
      rw [← Bool.not_eq_false, ← and_twoPow_eq_zero_iff hi]
      exact hask.1
    refine BitVec.eq_of_getLsbD_eq fun j hj => ?_
    rw [BitVec.getLsbD_and, BitVec.getLsbD_twoPow]
    by_cases hij : i = j
    · rw [← hij, hbit, Bool.and_true]
    · simp [hij]
  · exact BitVec.zero_and

theorem attrTest_confined {attrs diff : BitVec 64} {o : Option Bool}
    (h : attrTest attrs a b (BitVec.twoPow 64 i, o) = some diff) : diff &&& attrs = diff := by
  unfold attrTest at h
  simp only at h
  split_ifs at h
  · obtain ⟨differ, -, rfl⟩ := Option.map_eq_some_iff.1 h
    exact attrDiff_confined hi attrs differ
  · cases h
    exact attrDiff_confined hi attrs false

end

section
variable {a b : ObjVal α} {tests : List Test} (hbits : singleBits (tests.map Prod.fst) = true)
include hbits

theorem singleBits_tail {t : Test} {ts : List Test} (h : tests = t :: ts) :
    (∃ i < 64, t = (BitVec.twoPow 64 i, t.2)) ∧ singleBits (ts.map Prod.fst) = true := by
  rw [h, List.map_cons] at hbits
  have hsplit := hbits
  rw [singleBits, List.all_cons, Bool.and_eq_true] at hsplit
  obtain ⟨i, hi, heq⟩ := singleBits_get hbits List.mem_cons_self
  exact ⟨⟨i, hi, Prod.ext heq rfl⟩, hsplit.2⟩

/-- **No null pointer** is followed. -/
theorem diffAll_isSome_iff (attrs : BitVec 64) : (diffAll attrs a b tests).isSome = true ↔
    ∀ t ∈ tests, attrs &&& t.1 ≠ 0 → Carries a t.1 → Carries b t.1 → t.2.isSome = true := by
  induction tests with
  | nil => exact iff_of_true rfl fun t ht => absurd ht List.not_mem_nil
  | cons t ts ih =>
    obtain ⟨⟨i, hi, ht⟩, hts⟩ := singleBits_tail hbits rfl
    have hone := attrTest_isSome_iff (a := a) (b := b) hi attrs t.2
    rw [← ht] at hone
    have hattr : BitVec.twoPow 64 i = t.1 := (congrArg Prod.fst ht).symm
    rw [hattr] at hone
    rw [List.forall_mem_cons, ← ih hts, ← hone, diffAll]
    cases attrTest attrs a b t with
    | none => simp
    | some diff => simp

/-- **The answer** has only bits that were asked for. -/
theorem diffAll_confined {attrs diff : BitVec 64} (h : diffAll attrs a b tests = some diff) : diff &&& attrs = diff := by
  induction tests generalizing diff with
  | nil =>
    cases h
    exact BitVec.zero_and
  | cons t ts ih =>
    obtain ⟨⟨i, hi, ht⟩, hts⟩ := singleBits_tail hbits rfl
    obtain ⟨d, hd, h⟩ := Option.bind_eq_some_iff.1 h
    obtain ⟨d', hd', rfl⟩ := Option.map_eq_some_iff.1 h
    rw [ht] at hd
    rw [BitVec.and_or_distrib_right, attrTest_confined hi hd, ih hts hd']

/-- **Asked for everything**, the answer is zero if the two agree in all attributes. -/
theorem diffAll_eq_zero_iff : diffAll (BitVec.allOnes 64) a b tests = some 0 ↔ ∀ t ∈ tests, Agree a b t := by
  induction tests with
  | nil => exact iff_of_true rfl fun t ht => absurd ht List.not_mem_nil
  | cons t ts ih =>
    obtain ⟨⟨i, hi, ht⟩, hts⟩ := singleBits_tail hbits rfl
    have hone := attrTest_all_iff (a := a) (b := b) hi t.2
    rw [← ht] at hone
    rw [List.forall_mem_cons, ← ih hts, ← hone, diffAll]
    constructor
    · intro h
      obtain ⟨d, hd, h⟩ := Option.bind_eq_some_iff.1 h
      obtain ⟨d', hd', hor⟩ := Option.map_eq_some_iff.1 h
      obtain ⟨rfl, rfl⟩ := BitVec.or_eq_zero_iff.1 hor
      exact ⟨hd, hd'⟩
    · rintro ⟨hd, hd'⟩
      rw [hd, hd', Option.bind_some, Option.map_some, BitVec.or_self]

end

end Libnl.Diff
