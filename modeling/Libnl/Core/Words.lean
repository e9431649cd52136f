/-
Words of a packet, and what masks ask of them.

Four bytes are a word, the first of them the most significant one. A mask says which bits of a word count. If it is a smaller
mask that was shifted, the bits that count are those of a field; if it has its ones in front, they are a prefix.

- `be32_byte`, `be32_half`, `be32_bit`: parts of a word.
- `masked_field`, `masked_bytes`, `masked_prefix`: what equality under a mask means.
- `mask_zero_of_shifted`: words at two places are not the same question.
- `toNat_and_three`, `toNat_and_not_three`: the place of a byte in its word, and the word.
-/
import Mathlib.Tactic
import Libnl.Core.Bytes

namespace Libnl.Words

open Bytes

/-- a bit behind an address, from the most significant one of the first byte on -/
def bitAt (m : Mem) (p j : ℕ) : Bool := (m (p + j / 8)).toBitVec.getMsbD (j % 8)

/-! ## Parts of a word -/

theorem be32_byte (m : Mem) (p : ℕ) {r : ℕ} (hr : r < 4) : (getBe32 m p).extractLsb' (24 - 8 * r) 8 = (m (p + r)).toBitVec := by
  unfold getBe32 getBe16
  rcases (by omega : r = 0 ∨ r = 1 ∨ r = 2 ∨ r = 3) with rfl | rfl | rfl | rfl
  · rw [BitVec.extractLsb'_append_eq_of_le (by decide)]
    exact BitVec.extractLsb'_append_eq_left
  · rw [BitVec.extractLsb'_append_eq_of_le (by decide)]
    exact BitVec.extractLsb'_append_eq_right
  · rw [BitVec.extractLsb'_append_eq_of_add_le (by decide)]
    exact BitVec.extractLsb'_append_eq_left
  · rw [BitVec.extractLsb'_append_eq_of_add_le (by decide)]
    exact BitVec.extractLsb'_append_eq_right

theorem be32_half (m : Mem) (p : ℕ) : (getBe32 m p).extractLsb' 16 16 = getBe16 m p ∧
    (getBe32 m p).extractLsb' 0 16 = getBe16 m (p + 2) :=
  ⟨BitVec.extractLsb'_append_eq_left, BitVec.extractLsb'_append_eq_right⟩

/-- a bit of a word -/
theorem be32_bit (m : Mem) (p : ℕ) {j : ℕ} (hj : j < 32) : (getBe32 m p).getMsbD j = bitAt m p j := by
  have hbyte := congrArg (fun b => b.getMsbD (j % 8)) (be32_byte m p (r := j / 8) (by omega))
  have hindex : 32 - 1 - j = 24 - 8 * (j / 8) + (8 - 1 - j % 8) := by omega
  have hmod : j % 8 < 8 := Nat.mod_lt _ (by decide)
  rw [bitAt, ← hbyte, BitVec.getMsbD_eq_getLsbD, BitVec.getMsbD_eq_getLsbD, BitVec.getLsbD_extractLsb', hindex,
    decide_eq_true hj, decide_eq_true hmod, decide_eq_true (by omega : 8 - 1 - j % 8 < 8), Bool.true_and, Bool.true_and]

/-- the same bit, counted from words before -/
theorem bitAt_shift (m : Mem) (p k j : ℕ) : bitAt m (p + 4 * k) j = bitAt m p (32 * k + j) := by
  have hbyte : p + 4 * k + j / 8 = p + (32 * k + j) / 8 := by omega
  have hmod : (32 * k + j) % 8 = j % 8 := by omega
  rw [bitAt, bitAt, hbyte, hmod]

/-! ## Masks -/

/-- **A field** -/
theorem masked_field {w s : ℕ} (hs : s + w ≤ 32) (x : BitVec 32) (val mask : BitVec w) :
    x &&& (mask.setWidth 32 <<< s) = (val.setWidth 32 <<< s) &&& (mask.setWidth 32 <<< s) ↔
      x.extractLsb' s w &&& mask = val &&& mask := by
  constructor
  · intro h
    refine BitVec.eq_of_getLsbD_eq fun i hi => ?_
    have hbit := congrArg (fun v => v.getLsbD (s + i)) h
    have hlt : s + i < 32 := by omega
    have hlt' : i < 32 := by omega
    simpa [BitVec.getLsbD_shiftLeft, BitVec.getLsbD_setWidth, hlt, hlt', hi] using hbit
  · intro h
    refine BitVec.eq_of_getLsbD_eq fun i hi => ?_
    by_cases hlow : i < s
    · simp [BitVec.getLsbD_shiftLeft, hlow]
    · have hbit := congrArg (fun v => v.getLsbD (i - s)) h
      have hadd : s + (i - s) = i := by omega
      have hlt : i - s < 32 := by omega
      by_cases hhigh : i - s < w
      · simpa [BitVec.getLsbD_shiftLeft, BitVec.getLsbD_setWidth, hi, hlow, hhigh, hadd, hlt] using hbit
      · have hzero : mask.getLsbD (i - s) = false := BitVec.getLsbD_of_ge _ _ (by omega)
        simp [hi, hlow, hzero]

/-- **A prefix** -/
theorem masked_prefix {n : ℕ} (hn : n ≤ 32) (x y : BitVec 32) :
    x &&& (BitVec.allOnes 32 <<< (32 - n)) = y &&& (BitVec.allOnes 32 <<< (32 - n)) ↔ ∀ j < n, x.getMsbD j = y.getMsbD j := by
  constructor
  · intro h j hj
    have hbit := congrArg (fun v => v.getMsbD j) h
    have hlt : j + (32 - n) < 32 := by omega
    simpa only [BitVec.getMsbD_and, BitVec.getMsbD_shiftLeft, BitVec.getMsbD_allOnes, hlt, decide_true, Bool.and_true] using hbit
  · intro h
    refine BitVec.eq_of_getMsbD_eq fun j hj => ?_
    by_cases hlt : j < n
    · rw [BitVec.getMsbD_and, BitVec.getMsbD_and, h j hlt]
    · have hge : ¬ j + (32 - n) < 32 := by omega
      simp only [BitVec.getMsbD_and, BitVec.getMsbD_shiftLeft, BitVec.getMsbD_allOnes, hge, decide_false, Bool.and_false]

/-- a byte of a number -/
def byteOf (v : BitVec 32) (r : ℕ) : BitVec 8 := v.extractLsb' (24 - 8 * r) 8

/-- the bytes make the number -/
theorem eq_of_bytes {v w : BitVec 32} (h : ∀ r < 4, byteOf v r = byteOf w r) : v = w := by
  refine BitVec.eq_of_getLsbD_eq fun i hi => ?_
  have hbyte := congrArg (fun b => b.getLsbD (i % 8)) (h (3 - i / 8) (by omega))
  have hindex : 24 - 8 * (3 - i / 8) + i % 8 = i := by omega
  have hmod : i % 8 < 8 := Nat.mod_lt _ (by decide)
  simpa [byteOf, BitVec.getLsbD_extractLsb', hmod, hindex] using hbyte

theorem byteOf_and (v w : BitVec 32) (r : ℕ) : byteOf (v &&& w) r = byteOf v r &&& byteOf w r := BitVec.extractLsb'_and

/-- **Byte by byte** -/
theorem masked_bytes (m : Mem) (p : ℕ) (val mask : BitVec 32) :
    getBe32 m p &&& mask = val &&& mask ↔
      ∀ r < 4, (m (p + r)).toBitVec &&& byteOf mask r = byteOf val r &&& byteOf mask r := by
  constructor
  · intro h r hr
    have hbyte := congrArg (fun v => byteOf v r) h
    rwa [byteOf_and, byteOf_and, byteOf, be32_byte m p hr] at hbyte
  · intro h
    refine eq_of_bytes fun r hr => ?_
    rw [byteOf_and, byteOf_and]
    have hbyte := h r hr
    rwa [← be32_byte m p hr] at hbyte

/-- **Words at two places** do not ask the same of all memories, unless nothing is asked. -/
theorem mask_zero_of_shifted {o off : ℕ} (hlt : o < off) {val mask : BitVec 32}
    (h : ∀ m, getBe32 m o &&& mask = val &&& mask ↔ getBe32 m off &&& mask = val &&& mask) : mask = 0 := by
  by_contra hne
  have hex : ∃ r, r < 4 ∧ byteOf mask r ≠ 0 := by
    by_contra hall
    refine hne (eq_of_bytes fun r hr => ?_)
    by_contra hbyte
    exact hall ⟨r, hr, fun hzero => hbyte (hzero.trans (BitVec.extractLsb'_zero).symm)⟩
  -- the first byte that counts: the word behind does not look at its place
  obtain ⟨r, ⟨hr, hbyte⟩, hfirst⟩ : ∃ r, (r < 4 ∧ byteOf mask r ≠ 0) ∧ ∀ j < r, byteOf mask j = 0 := by
    refine ⟨Nat.find hex, Nat.find_spec hex, fun j hj => ?_⟩
    by_contra hbyte
    exact Nat.find_min hex hj ⟨hj.trans (Nat.find_spec hex).1, hbyte⟩
  let m : Mem := fun x => if x = o + r then UInt8.ofBitVec (~~~(byteOf val r)) else UInt8.ofBitVec (byteOf val (x - off))
  have hbehind : getBe32 m off &&& mask = val &&& mask := by
    refine (masked_bytes m off val mask).2 fun j hj => ?_
    by_cases heq : off + j = o + r
    · rw [hfirst j (by omega), BitVec.ofNat_eq_ofNat, BitVec.and_zero, BitVec.and_zero]
    · have hbyte' : m (off + j) = UInt8.ofBitVec (byteOf val j) := by
        show (if off + j = o + r then _ else _) = _
        rw [if_neg heq, Nat.add_sub_cancel_left]
      rw [hbyte']
  have hat := (masked_bytes m o val mask).1 ((h m).2 hbehind) r hr
  have hbyte' : m (o + r) = UInt8.ofBitVec (~~~(byteOf val r)) := if_pos rfl
  rw [hbyte'] at hat
  refine hbyte (BitVec.eq_of_getLsbD_eq fun i hi => ?_)
  have hbit := congrArg (fun b => b.getLsbD i) hat
  simp only [BitVec.getLsbD_and, BitVec.getLsbD_not, hi, decide_true, Bool.true_and] at hbit
  rw [BitVec.ofNat_eq_ofNat, BitVec.getLsbD_zero]
  cases hm : (byteOf mask r).getLsbD i with
  | false => rfl
  | true =>
    rw [hm, Bool.and_true, Bool.and_true] at hbit
    exact absurd hbit (by cases (byteOf val r).getLsbD i <;> decide)

/-! ## Places -/

theorem toNat_and_three (x : BitVec 32) : (x &&& 3).toNat = x.toNat % 4 := by
  rw [BitVec.toNat_and]
  exact Nat.and_two_pow_sub_one_eq_mod x.toNat 2

theorem and_not_three (x : BitVec 32) : x &&& ~~~(3 : BitVec 32) = (x >>> 2) <<< 2 := by
  refine BitVec.eq_of_getLsbD_eq fun i hi => ?_
  have hthree : (3 : BitVec 32).getLsbD i = decide (i < 2) := Nat.testBit_two_pow_sub_one 2 i
  by_cases hlow : i < 2
  · simp only [BitVec.getLsbD_and, BitVec.getLsbD_not, hthree, hlow, BitVec.getLsbD_shiftLeft, decide_true, Bool.not_true,
      Bool.and_false, Bool.false_and]
  · have hadd : 2 + (i - 2) = i := by omega
    simp only [BitVec.getLsbD_and, BitVec.getLsbD_not, hthree, hlow, BitVec.getLsbD_shiftLeft, hi, decide_true, decide_false,
      Bool.not_false, Bool.true_and, Bool.and_true, BitVec.getLsbD_ushiftRight, hadd]

/-- the word that a byte is in -/
theorem toNat_and_not_three (x : BitVec 32) : (x &&& ~~~(3 : BitVec 32)).toNat = x.toNat / 4 * 4 := by
  have hlt := x.isLt
  rw [and_not_three, BitVec.toNat_shiftLeft, BitVec.toNat_ushiftRight, Nat.shiftRight_eq_div_pow, Nat.shiftLeft_eq]
  omega

end Libnl.Words
