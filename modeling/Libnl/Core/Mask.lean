/-
Masks that say which of a number of attributes are there.

Each attribute has a bit of its own. A mask is put together from the bits of those attributes that are there (`maskOf`),
and asked for one of them.

- `maskOf_set`: an attribute more. `maskOf_has`: the answer is whether the attribute is there.
- `and_twoPow_eq_zero_iff`: the answer for one bit is that bit.
- `foldl_or_eq_zero_iff`: a mask that is put together from others is empty only if they are.
-/
import Mathlib.Tactic

namespace Libnl.Mask

variable {w : ℕ}

/-- the bits of the attributes that are there -/
def maskOf : List (BitVec w × Bool) → BitVec w
  | [] => 0
  | (bit, there) :: attrs => (if there then bit else 0) ||| maskOf attrs

/-- one more attribute -/
theorem maskOf_set (pre post : List (BitVec w × Bool)) (bit : BitVec w) (there : Bool) :
    maskOf (pre ++ (bit, there) :: post) ||| bit = maskOf (pre ++ (bit, true) :: post) := by
  induction pre with
  | nil =>
    show ((if there then bit else 0) ||| maskOf post) ||| bit = bit ||| maskOf post
    rw [BitVec.or_comm _ bit, ← BitVec.or_assoc]
    cases there with
    | true => rw [if_pos rfl, BitVec.or_self]
    | false =>
      have hzero : bit ||| (if false = true then bit else 0) = bit := BitVec.or_zero
      rw [hzero]
  | cons a pre ih =>
    obtain ⟨abit, athere⟩ := a
    rw [List.cons_append, List.cons_append, maskOf, maskOf, BitVec.or_assoc, ih]

/-- no two attributes share a bit, and each has one -/
def separate : List (BitVec w) → Bool
  | [] => true
  | a :: bits => decide (a ≠ 0) && bits.all (fun b => decide (a &&& b = 0)) && separate bits

theorem separate_cons {a : BitVec w} {bits : List (BitVec w)} (h : separate (a :: bits) = true) :
    a ≠ 0 ∧ (∀ b ∈ bits, a &&& b = 0) ∧ separate bits = true := by
  simpa [separate, and_assoc] using h

theorem separate_ne {bits : List (BitVec w)} (h : separate bits = true) : ∀ a ∈ bits, a ≠ 0 := by
  induction bits with
  | nil => exact nofun
  | cons b bits ih =>
    obtain ⟨hne, -, hrest⟩ := separate_cons h
    intro a ha
    rcases List.mem_cons.1 ha with rfl | ha
    · exact hne
    · exact ih hrest a ha

theorem and_if (there : Bool) (a bit : BitVec w) :
    (if there then a else 0) &&& bit = if there then a &&& bit else 0 := by
  cases there with
  | true => rfl
  | false => exact BitVec.zero_and

/-- bits of other attributes do not matter -/
theorem maskOf_and_zero {attrs : List (BitVec w × Bool)} {bit : BitVec w} (h : ∀ a ∈ attrs, a.1 &&& bit = 0) :
    maskOf attrs &&& bit = 0 := by
  induction attrs with
  | nil => exact BitVec.zero_and
  | cons a attrs ih =>
    rw [maskOf, BitVec.and_or_distrib_right, and_if, h a List.mem_cons_self, ite_self,
      ih fun b hb => h b (List.mem_cons_of_mem a hb)]
    exact BitVec.or_self

theorem maskOf_and {attrs : List (BitVec w × Bool)} (hsep : separate (attrs.map Prod.fst) = true) {bit : BitVec w} {there : Bool}
    (h : (bit, there) ∈ attrs) : maskOf attrs &&& bit = if there then bit else 0 := by
  induction attrs with
  | nil => cases h
  | cons a attrs ih =>
    obtain ⟨-, hpair, hrest⟩ := separate_cons hsep
    rw [maskOf, BitVec.and_or_distrib_right, and_if]
    rcases List.mem_cons.1 h with heq | hmem
    · have hothers : maskOf attrs &&& bit = 0 := maskOf_and_zero fun b hb => by
        have hzero := hpair b.1 (List.mem_map_of_mem hb)
        rw [← heq, BitVec.and_comm] at hzero
        exact hzero
      simp only [hothers, ← heq, BitVec.and_self, BitVec.ofNat_eq_ofNat, BitVec.or_zero]
    · have hzero : a.1 &&& bit = 0 := hpair bit (List.mem_map_of_mem hmem)
      simp only [hzero, ite_self, BitVec.ofNat_eq_ofNat, BitVec.zero_or]
      exact ih hrest hmem

/-- **Asking a mask** -/
theorem maskOf_has {attrs : List (BitVec w × Bool)} (hsep : separate (attrs.map Prod.fst) = true) {bit : BitVec w} {there : Bool}
    (h : (bit, there) ∈ attrs) : maskOf attrs &&& bit ≠ 0 ↔ there = true := by
  rw [maskOf_and hsep h]
  cases there with
  | true => exact iff_of_true (separate_ne hsep bit (List.mem_map_of_mem h)) rfl
  | false => exact iff_of_false (fun hne => hne rfl) Bool.false_ne_true

theorem twoPow_ne_zero {i : ℕ} (hi : i < w) : BitVec.twoPow w i ≠ 0 := by
  intro hzero
  have hbit := congrArg (fun m => m.getLsbD i) hzero
  simp [hi] at hbit

/-- a mask without the attribute that has bit `i` -/
theorem and_twoPow_eq_zero_iff {i : ℕ} (hi : i < w) (m : BitVec w) :
    m &&& BitVec.twoPow w i = 0 ↔ m.getLsbD i = false := by
  rw [BitVec.and_twoPow]
  cases m.getLsbD i with
  | true => exact iff_of_false (twoPow_ne_zero hi) Bool.true_eq_false_eq_False
  | false => exact iff_of_true rfl rfl

/-! ## Masks put together one after the other -/

theorem foldl_or_eq_zero_iff (l : List (BitVec w)) (x : BitVec w) : l.foldl (· ||| ·) x = 0 ↔ x = 0 ∧ ∀ y ∈ l, y = 0 := by
  induction l generalizing x with
  | nil => exact ⟨fun h => ⟨h, fun y hy => absurd hy List.not_mem_nil⟩, fun h => h.1⟩
  | cons y l ih =>
    rw [List.foldl_cons, ih, List.forall_mem_cons, BitVec.ofNat_eq_ofNat, BitVec.or_eq_zero_iff, and_assoc]

/-- a bit that is in none of them -/
theorem foldl_or_and {bit : BitVec w} (l : List (BitVec w)) {x : BitVec w} (hx : x &&& bit = 0) (hl : ∀ y ∈ l, y &&& bit = 0) :
    l.foldl (· ||| ·) x &&& bit = 0 := by
  induction l generalizing x with
  | nil => exact hx
  | cons y l ih =>
    refine ih ?_ fun z hz => hl z (List.mem_cons_of_mem y hz)
    rw [BitVec.and_or_distrib_right, hx, hl y List.mem_cons_self]
    exact BitVec.or_self

end Libnl.Mask
