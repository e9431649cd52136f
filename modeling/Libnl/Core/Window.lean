/-
Windows onto memory that show the same bytes.

Two memories may have the same bytes at different places. What is read through the window is the same then, be it a number or
a string of bytes; and so is what is read of a structure, which is numbers and strings at offsets.

- `Same`: two windows of a width. `Same.sub`: a part of them. `same_of_seg`: where the same bytes stand.
- `Same.u32At` and its like: numbers. `Same.readBytes`: strings.
-/
import Mathlib.Tactic
import Libnl.Core.Layout

namespace Libnl.Window

open Bytes Layout

/-- the bytes that are there -/
theorem seg_readBytes (m : Mem) (p n : ℕ) : Seg m p (readBytes m p n) := by
  intro i _
  simp only [readBytes, List.getElem_map, List.getElem_range]

/-- the `n` bytes at `p` of one memory are those at `p'` of another -/
def Same (m m' : Mem) (p p' n : ℕ) : Prop := ∀ i < n, m (p + i) = m' (p' + i)

section

variable {m m' : Mem} {p p' n : ℕ}

theorem Same.sub (h : Same m m' p p' n) (off k : ℕ) (hfit : off + k ≤ n) : Same m m' (p + off) (p' + off) k := by
  intro i hi
  rw [add_assoc, add_assoc]
  exact h (off + i) (by omega)

theorem Same.first (h : Same m m' p p' n) (k : ℕ) (hfit : k ≤ n) : Same m m' p p' k :=
  fun i hi => h i (by omega)

theorem same_of_seg {bs : List UInt8} (h : Seg m p bs) (h' : Seg m' p' bs) : Same m m' p p' bs.length :=
  fun i hi => (h i hi).trans (h' i hi).symm

theorem Same.readBytes (h : Same m m' p p' n) : readBytes m p n = readBytes m' p' n := by
  unfold Bytes.readBytes
  refine List.map_congr_left fun i hi => ?_
  exact h i (List.mem_range.1 hi)

theorem Same.byte (h : Same m m' p p' n) (i : ℕ) (hi : i < n) : m (p + i) = m' (p' + i) := h i hi

theorem Same.u8At (h : Same m m' p p' 1) : u8At m p = u8At m' p' :=
  congrArg UInt8.toBitVec (h 0 Nat.zero_lt_one)

theorem Same.getBe16 (h : Same m m' p p' 2) : getBe16 m p = getBe16 m' p' := by
  have h0 := h 0 (by decide)
  have h1 := h 1 (by decide)
  simp only [add_zero] at h0
  simp only [Bytes.getBe16, h0, h1]

theorem Same.getBe32 (h : Same m m' p p' 4) : getBe32 m p = getBe32 m' p' := by
  have hhigh := (h.first 2 (by decide)).getBe16
  have hlow := (h.sub 2 2 (by decide)).getBe16
  rw [Bytes.getBe32, hhigh, hlow]
  rfl

end

section

variable [HostOrder] {m m' : Mem} {p p' : ℕ}

theorem Same.getU16 (h : Same m m' p p' 2) : getU16 m p = getU16 m' p' := by
  have h0 := h 0 (by decide)
  have h1 := h 1 (by decide)
  simp only [add_zero] at h0
  simp only [Bytes.getU16, h0, h1]

theorem Same.getU32 (h : Same m m' p p' 4) : getU32 m p = getU32 m' p' := by
  have hlow := (h.first 2 (by decide)).getU16
  have hhigh := (h.sub 2 2 (by decide)).getU16
  rw [getU32_eq, getU32_eq, hlow, hhigh]

theorem Same.u16At (h : Same m m' p p' 2) : u16At m p = u16At m' p' := congrArg (BitVec.ofNat 16) h.getU16

theorem Same.u32At (h : Same m m' p p' 4) : u32At m p = u32At m' p' := congrArg (BitVec.ofNat 32) h.getU32

theorem Same.u64At (h : Same m m' p p' 8) : u64At m p = u64At m' p' := by
  have hlow := (h.first 4 (by decide)).getU32
  have hhigh := (h.sub 4 4 (by decide)).getU32
  refine congrArg (BitVec.ofNat 64) ?_
  unfold Bytes.getU64
  rw [hlow, hhigh]

end

end Libnl.Window
