/-
Sets of numbers, kept as the bits of 32-bit words.

The number `n` is the bit `n % 32` of the word `n / 32`. Words are a total map; the code under study says how many of them
there are.

- `has_set`, `has_clear`, `has_diff`: what the operations do to the set.
- `masked_iff`, `covered_iff`: tests on words, as tests on the set; `words_ext`: there is nothing in the words but the set.
- `exists_step`: a walk modulo `N` in steps of a number coprime to `N` comes to every residue within `N` steps.
-/
import Mathlib.Tactic

namespace Libnl.Bitmap

abbrev Words := ℕ → BitVec 32

/-- the bit of `n` in its word -/
def wordMask (n : ℕ) : BitVec 32 := 1#32 <<< (n % 32)

/-- `n` is in the set -/
def has (w : Words) (n : ℕ) : Bool := (w (n / 32)).getLsbD (n % 32)

def set (w : Words) (n : ℕ) : Words := Function.update w (n / 32) (w (n / 32) ||| wordMask n)

def clear (w : Words) (n : ℕ) : Words := Function.update w (n / 32) (w (n / 32) &&& ~~~wordMask n)

theorem getLsbD_wordMask (n i : ℕ) : (wordMask n).getLsbD i = decide (i = n % 32) := by
  have hn : n % 32 < 32 := Nat.mod_lt n (by decide)
  simp only [wordMask, BitVec.getLsbD_shiftLeft, BitVec.getLsbD_one]
  by_cases hi : i = n % 32
  · subst hi
    simp [hn]
  · simp only [hi, decide_false]
    by_cases hlt : i < n % 32
    · simp [hlt]
    · have hsub : i - n % 32 ≠ 0 := by omega
      simp [hsub]

/-- a number is its word and its bit -/
theorem eq_iff (n m : ℕ) : n = m ↔ n / 32 = m / 32 ∧ n % 32 = m % 32 := by
  constructor
  · intro h
    exact ⟨by rw [h], by rw [h]⟩
  · rintro ⟨hdiv, hmod⟩
    rw [← Nat.div_add_mod n 32, hdiv, hmod, Nat.div_add_mod]

@[simp] theorem has_set (w : Words) (n m : ℕ) : has (set w n) m = (has w m || decide (m = n)) := by
  simp only [has, set]
  by_cases hword : m / 32 = n / 32
  · rw [hword, Function.update_self, BitVec.getLsbD_or, getLsbD_wordMask]
    simp [eq_iff m n, hword]
  · rw [Function.update_of_ne hword]
    simp [eq_iff m n, hword]

@[simp] theorem has_clear (w : Words) (n m : ℕ) : has (clear w n) m = (has w m && !decide (m = n)) := by
  have hm : m % 32 < 32 := Nat.mod_lt m (by decide)
  simp only [has, clear]
  by_cases hword : m / 32 = n / 32
  · rw [hword, Function.update_self, BitVec.getLsbD_and, BitVec.getLsbD_not, getLsbD_wordMask]
    simp [eq_iff m n, hword, hm]
  · rw [Function.update_of_ne hword]
    simp [eq_iff m n, hword]

@[simp] theorem has_zero (n : ℕ) : has (fun _ => 0) n = false := by simp [has]

/-- words are the set of their bits -/
theorem words_ext {w v : Words} (h : ∀ n, has w n = has v n) : w = v := by
  funext i
  apply BitVec.eq_of_getLsbD_eq
  intro b hb
  have hbit := h (32 * i + b)
  have hdiv : (32 * i + b) / 32 = i := by omega
  have hmod : (32 * i + b) % 32 = b := by omega
  simpa only [has, hdiv, hmod] using hbit

/-- words without the bits of other words -/
theorem has_diff (w v : Words) (n : ℕ) : has (fun i => w i &&& ~~~v i) n = (has w n && !has v n) := by
  have hn : n % 32 < 32 := Nat.mod_lt n (by decide)
  simp [has, hn]

/-- the bit of `n` is set in a word -/
theorem masked_iff (w : Words) (n : ℕ) : w (n / 32) &&& wordMask n = wordMask n ↔ has w n = true := by
  have hn : n % 32 < 32 := Nat.mod_lt n (by decide)
  constructor
  · intro h
    have hbit := congrArg (fun v => v.getLsbD (n % 32)) h
    simpa [getLsbD_wordMask, has] using hbit
  · intro h
    apply BitVec.eq_of_getLsbD_eq
    intro i hi
    rw [BitVec.getLsbD_and, getLsbD_wordMask]
    by_cases heq : i = n % 32
    · subst heq
      simpa [has] using h
    · simp [heq]

/-- the bits of one word are set in another -/
theorem covered_iff (w v : Words) (i : ℕ) : w i &&& v i = v i ↔ ∀ n, n / 32 = i → has v n = true → has w n = true := by
  constructor
  · intro h n hn hv
    have hbit := congrArg (fun u => u.getLsbD (n % 32)) h
    simp only [has, hn] at hv ⊢
    simpa [hv] using hbit
  · intro h
    apply BitVec.eq_of_getLsbD_eq
    intro b hb
    have hdiv : (32 * i + b) / 32 = i := by omega
    have hmod : (32 * i + b) % 32 = b := by omega
    have hbit := h (32 * i + b) hdiv
    simp only [has, hdiv, hmod] at hbit
    rw [BitVec.getLsbD_and]
    cases hv : (v i).getLsbD b with
    | false => simp
    | true => simp [hbit hv]

/-- a word with every bit set -/
theorem full_iff (w : BitVec 32) : w = 0xFFFFFFFF ↔ ∀ b < 32, w.getLsbD b = true := by
  have hones : (0xFFFFFFFF : BitVec 32) = BitVec.allOnes 32 := rfl
  rw [hones]
  constructor
  · rintro rfl b hb
    rw [BitVec.getLsbD_allOnes, decide_eq_true hb]
  · intro h
    apply BitVec.eq_of_getLsbD_eq
    intro b hb
    rw [h b hb, BitVec.getLsbD_allOnes, decide_eq_true hb]

/-- **A walk modulo `N`** in steps coprime to `N` comes everywhere. -/
theorem exists_step {c N : ℕ} (hN : 0 < N) (hc : Nat.Coprime c N) (r b : ℕ) (hb : b < N) :
    ∃ j < N, (r + c * j) % N = b := by
  have : NeZero N := ⟨hN.ne'⟩
  have hunit : (c : ZMod N) * (c : ZMod N)⁻¹ = 1 := ZMod.coe_mul_inv_eq_one c hc
  let j : ZMod N := ((b : ZMod N) - r) * (c : ZMod N)⁻¹
  have hj : ((r + c * j.val : ℕ) : ZMod N) = (b : ℕ) := by
    calc ((r + c * j.val : ℕ) : ZMod N) = r + c * (((b : ZMod N) - r) * (c : ZMod N)⁻¹) := by
          push_cast [ZMod.natCast_zmod_val]
          rfl
      _ = r + ((b : ZMod N) - r) * (c * (c : ZMod N)⁻¹) := by ring
      _ = (b : ZMod N) := by rw [hunit]; ring
  refine ⟨j.val, ZMod.val_lt j, ?_⟩
  have hmod : (r + c * j.val) % N = b % N := (ZMod.natCast_eq_natCast_iff _ _ _).1 hj
  rw [hmod, Nat.mod_eq_of_lt hb]

end Libnl.Bitmap
