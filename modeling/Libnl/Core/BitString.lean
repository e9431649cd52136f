/-
Bytes as a string of bits, the most significant bit of a byte first.

- `take_bits`: the first bits are those of the whole bytes, and some of the next byte.
- `bits_inj`: different bytes have different bits.
- `take_byteBits_eq_iff`: the first bits of two bytes are the same just if the bytes are the same under a mask of so many ones.
- `take_bits_eq_iff`: comparing the first bits of two strings of bytes, as whole bytes and a rest under a mask.
-/
import Mathlib.Tactic

namespace Libnl.BitString

def byteBits (b : UInt8) : List Bool := (List.range 8).map fun i => b.toNat.testBit (7 - i)

def bits (bytes : List UInt8) : List Bool := bytes.flatMap byteBits

@[simp] theorem byteBits_length (b : UInt8) : (byteBits b).length = 8 := by simp [byteBits]

@[simp] theorem bits_cons (b : UInt8) (bytes : List UInt8) : bits (b :: bytes) = byteBits b ++ bits bytes := rfl

@[simp] theorem bits_length (bytes : List UInt8) : (bits bytes).length = 8 * bytes.length := by
  induction bytes with
  | nil => rfl
  | cons b bytes ih =>
    rw [bits_cons, List.length_append, byteBits_length, ih, List.length_cons]
    omega

/-- **The first bits**: whole bytes, and some bits of the next one -/
theorem take_bits (bytes : List UInt8) {n : ℕ} (hn : n ≤ 8 * bytes.length) :
    (bits bytes).take n = bits (bytes.take (n / 8)) ++ (byteBits (bytes.getD (n / 8) 0)).take (n % 8) := by
  induction bytes generalizing n with
  | nil =>
    have hzero : n = 0 := Nat.le_zero.1 hn
    subst hzero
    rfl
  | cons b bytes ih =>
    rw [bits_cons]
    by_cases hlt : n < 8
    · have hdiv : n / 8 = 0 := Nat.div_eq_of_lt hlt
      rw [List.take_append_of_le_length (by rw [byteBits_length]; exact hlt.le), hdiv, Nat.mod_eq_of_lt hlt]
      rfl
    · obtain ⟨k, rfl⟩ := Nat.exists_eq_add_of_le (Nat.le_of_not_lt hlt)
      have hdiv : (8 + k) / 8 = k / 8 + 1 := by omega
      have hmod : (8 + k) % 8 = k % 8 := by omega
      have hk : k ≤ 8 * bytes.length := by
        rw [List.length_cons] at hn
        omega
      have hsplit : (byteBits b ++ bits bytes).take ((byteBits b).length + k) = byteBits b ++ (bits bytes).take k :=
        List.take_length_add_append k
      rw [byteBits_length] at hsplit
      rw [hsplit, ih hk, hdiv, hmod, List.take_succ_cons, bits_cons, List.append_assoc]
      rfl

theorem byteBits_get (b : UInt8) {i : ℕ} (hi : i < 8) : (byteBits b)[i]? = some (b.toNat.testBit (7 - i)) := by
  simp [byteBits, hi]

/-- the same bits, counted from the other end -/
theorem byteBits_get_rev (b : UInt8) {j : ℕ} (hj : j < 8) : (byteBits b)[7 - j]? = some (b.toNat.testBit j) := by
  have hback : 7 - (7 - j) = j := by omega
  rw [byteBits_get b (by omega), hback]

/-- the mask that keeps the first `r` bits of a byte -/
def headMask (r : ℕ) : ℕ := (0xFF00 >>> r) &&& 0xFF

theorem headMask_testBit : ∀ r < 8, ∀ i < 8, (headMask r).testBit (7 - i) = decide (i < r) := by decide

theorem headMask_lt (r : ℕ) : headMask r < 2 ^ 8 := Nat.and_lt_two_pow _ (by decide)

/-- **The first bits of a byte** are what the mask keeps. -/
theorem take_byteBits_eq_iff (x y : UInt8) {r : ℕ} (hr : r < 8) :
    (byteBits x).take r = (byteBits y).take r ↔
      x.toNat &&& headMask r = y.toNat &&& headMask r := by
  constructor
  · intro h
    refine Nat.eq_of_testBit_eq fun j => ?_
    rw [Nat.testBit_and, Nat.testBit_and]
    by_cases hj : j < 8
    · have hmask := headMask_testBit r hr (7 - j) (by omega)
      have hback : 7 - (7 - j) = j := by omega
      rw [hback] at hmask
      rw [hmask]
      by_cases hlt : 7 - j < r
      · have hbit := congrArg (fun l => l[7 - j]?) h
        simp only [List.getElem?_take_of_lt hlt, byteBits_get_rev _ hj] at hbit
        rw [Option.some.inj hbit]
      · rw [decide_eq_false hlt, Bool.and_false, Bool.and_false]
    · have hbig : (headMask r).testBit j = false :=
        Nat.testBit_lt_two_pow (lt_of_lt_of_le (headMask_lt r) (Nat.pow_le_pow_right (by decide) (Nat.le_of_not_lt hj)))
      rw [hbig, Bool.and_false, Bool.and_false]
  · intro h
    refine List.ext_getElem? fun i => ?_
    by_cases hi : i < r
    · have hmask := headMask_testBit r hr i (hi.trans hr)
      have hbit := congrArg (fun v => v.testBit (7 - i)) h
      simp only [Nat.testBit_and, hmask, decide_eq_true hi, Bool.and_true] at hbit
      rw [List.getElem?_take_of_lt hi, List.getElem?_take_of_lt hi, byteBits_get x (hi.trans hr), byteBits_get y (hi.trans hr),
        hbit]
    · rw [List.getElem?_eq_none (by rw [List.length_take]; omega), List.getElem?_eq_none (by rw [List.length_take]; omega)]

theorem byteBits_inj {x y : UInt8} (h : byteBits x = byteBits y) : x = y := by
  refine UInt8.toNat.inj (Nat.eq_of_testBit_eq fun j => ?_)
  by_cases hj : j < 8
  · have hbit := congrArg (fun l => l[7 - j]?) h
    simp only [byteBits_get_rev _ hj] at hbit
    exact Option.some.inj hbit
  · have hpow : 2 ^ 8 ≤ 2 ^ j := Nat.pow_le_pow_right (by decide) (Nat.le_of_not_lt hj)
    rw [Nat.testBit_lt_two_pow (lt_of_lt_of_le x.toNat_lt hpow), Nat.testBit_lt_two_pow (lt_of_lt_of_le y.toNat_lt hpow)]

theorem bits_inj {as bs : List UInt8} (h : bits as = bits bs) : as = bs := by
  induction as generalizing bs with
  | nil =>
    cases bs with
    | nil => rfl
    | cons b bs =>
      have hlen := congrArg List.length h
      rw [bits_length, bits_length, List.length_nil, List.length_cons] at hlen
      omega
  | cons a as ih =>
    cases bs with
    | nil =>
      have hlen := congrArg List.length h
      rw [bits_length, bits_length, List.length_nil, List.length_cons] at hlen
      omega
    | cons b bs =>
      obtain ⟨hhead, htail⟩ := List.append_inj h (by rw [byteBits_length, byteBits_length])
      rw [byteBits_inj hhead, ih htail]

/-- **Comparing the first bits**: whole bytes first, and then the rest under a mask -/
theorem take_bits_eq_iff {as bs : List UInt8} {n : ℕ} (has : n ≤ 8 * as.length) (hbs : n ≤ 8 * bs.length) :
    (bits as).take n = (bits bs).take n ↔
      as.take (n / 8) = bs.take (n / 8) ∧ (as.getD (n / 8) 0).toNat &&& headMask (n % 8) =
        (bs.getD (n / 8) 0).toNat &&& headMask (n % 8) := by
  rw [take_bits as has, take_bits bs hbs, ← take_byteBits_eq_iff _ _ (Nat.mod_lt n (by decide))]
  constructor
  · intro h
    have hlen : (bits (as.take (n / 8))).length = (bits (bs.take (n / 8))).length := by
      rw [bits_length, bits_length, List.length_take, List.length_take]
      omega
    obtain ⟨hwhole, hrest⟩ := List.append_inj h hlen
    exact ⟨bits_inj hwhole, hrest⟩
  · rintro ⟨hwhole, hrest⟩
    rw [hwhole, hrest]

end Libnl.BitString
