/-
Prefixes of addresses (`nl_addr_cmp_prefix` in `lib/addr.c`).

The function compares whole bytes first and then the rest of a byte under a mask. What it compares are the first bits of the
two addresses, as many as the shorter of the two prefixes has.

- `nlAddrCmpPrefix_eq_false_iff`: addresses of any family.
- `prefix_compare_exact`: addresses of one family; and with one prefix length, comparing is an equivalence.
-/
import Mathlib.Tactic
import Libnl.Core.BitString
import Libnl.Route.Addr

namespace Libnl.Addr

open BitString

/-- the prefix length is a number of bits that the address has -/
structure PrefixFits (a : NlAddr) : Prop where
  nonneg : 0 ≤ a.aPrefixlen
  le : a.aPrefixlen ≤ 8 * a.aAddr.length

/-- how many bits `nl_addr_cmp_prefix` compares -/
def sharedLen (a b : NlAddr) : ℕ := (min a.aPrefixlen b.aPrefixlen).toNat

theorem sharedLen_le_left {a : NlAddr} (ha : PrefixFits a) (b : NlAddr) : sharedLen a b ≤ 8 * a.aAddr.length := by
  have hmin := min_le_left a.aPrefixlen b.aPrefixlen
  have hle := ha.le
  rw [sharedLen]
  omega

theorem sharedLen_le_right {b : NlAddr} (hb : PrefixFits b) (a : NlAddr) : sharedLen a b ≤ 8 * b.aAddr.length := by
  have hmin := min_le_right a.aPrefixlen b.aPrefixlen
  have hle := hb.le
  rw [sharedLen]
  omega

/-- **Comparing prefixes** is comparing families and bits. -/
theorem nlAddrCmpPrefix_eq_false_iff {a b : NlAddr} (ha : PrefixFits a) (hb : PrefixFits b) :
    nlAddrCmpPrefix (some a) (some b) = false ↔ a.aFamily = b.aFamily ∧
      (bits a.aAddr).take (sharedLen a b) = (bits b.aAddr).take (sharedLen a b) := by
  rw [take_bits_eq_iff (sharedLen_le_left ha b) (sharedLen_le_right hb a)]
  have hmask : headMask 0 = 0 := by decide
  rw [nlAddrCmpPrefix]
  by_cases hfamily : a.aFamily = b.aFamily
  · rw [if_neg (not_not.2 hfamily)]
    by_cases hwhole : a.aAddr.take (sharedLen a b / 8) = b.aAddr.take (sharedLen a b / 8)
    · have hbytes : ¬ a.aAddr.take ((min a.aPrefixlen b.aPrefixlen).toNat / 8) ≠
          b.aAddr.take ((min a.aPrefixlen b.aPrefixlen).toNat / 8) := not_not.2 hwhole
      simp only [hfamily, hwhole, true_and, if_neg hbytes, Bool.and_eq_false_iff, decide_eq_false_iff_not, not_not]
      constructor
      · rintro (hzero | hrest)
        · -- a whole number of bytes: nothing is kept of the next one
          have hnone : sharedLen a b % 8 = 0 := hzero
          rw [hnone, hmask, Nat.and_zero, Nat.and_zero]
        · exact hrest
      · exact Or.inr
    · have hbytes : a.aAddr.take ((min a.aPrefixlen b.aPrefixlen).toNat / 8) ≠
          b.aAddr.take ((min a.aPrefixlen b.aPrefixlen).toNat / 8) := hwhole
      simp only [if_pos hbytes, hwhole, false_and, and_false, Bool.true_eq_false]
  · simp only [if_pos hfamily, hfamily, false_and, Bool.true_eq_false]

/-- the addresses with this prefix length -/
def WithPrefix (p : ℤ) : Type := { a : NlAddr // PrefixFits a ∧ a.aPrefixlen = p }

theorem sharedLen_same {p : ℤ} (a b : WithPrefix p) : sharedLen a.1 b.1 = p.toNat := by
  rw [sharedLen, a.2.2, b.2.2, min_self]

theorem cmpPrefix_same_iff {p : ℤ} (a b : WithPrefix p) : nlAddrCmpPrefix (some a.1) (some b.1) = false ↔
    a.1.aFamily = b.1.aFamily ∧ (bits a.1.aAddr).take p.toNat = (bits b.1.aAddr).take p.toNat := by
  rw [nlAddrCmpPrefix_eq_false_iff a.2.1 b.2.1, sharedLen_same]

/-- **Prefix comparison is exact.** Two addresses of one family compare equal if and only if their first bits are the same,
as many as the shorter prefix has; and among addresses with one prefix length this is an equivalence. -/
theorem prefix_compare_exact :
    (∀ a b : NlAddr, a.aFamily = b.aFamily → PrefixFits a → PrefixFits b →
      (nlAddrCmpPrefix (some a) (some b) = false ↔
        (bits a.aAddr).take (min a.aPrefixlen b.aPrefixlen).toNat = (bits b.aAddr).take (min a.aPrefixlen b.aPrefixlen).toNat)) ∧
    ∀ p : ℤ, Equivalence fun a b : WithPrefix p => nlAddrCmpPrefix (some a.1) (some b.1) = false := by
  refine ⟨?_, ?_⟩
  · intro a b hfamily ha hb
    rw [nlAddrCmpPrefix_eq_false_iff ha hb, and_iff_right hfamily]
    rfl
  · intro p
    refine ⟨fun a => ?_, fun {a b} hab => ?_, fun {a b c} hab hbc => ?_⟩
    · exact (cmpPrefix_same_iff a a).2 ⟨rfl, rfl⟩
    · obtain ⟨hfamily, hbits⟩ := (cmpPrefix_same_iff a b).1 hab
      exact (cmpPrefix_same_iff b a).2 ⟨hfamily.symm, hbits.symm⟩
    · obtain ⟨hfamily, hbits⟩ := (cmpPrefix_same_iff a b).1 hab
      obtain ⟨hfamily', hbits'⟩ := (cmpPrefix_same_iff b c).1 hbc
      exact (cmpPrefix_same_iff a c).2 ⟨hfamily.trans hfamily', hbits.trans hbits'⟩

/-- 10.0.0.0/9 and 10.127.255.0/24 -/
theorem prefix_compare_exact_sample :
    nlAddrCmpPrefix (some ⟨Family.AF_INET, 9, [10, 0, 0, 0]⟩) (some ⟨Family.AF_INET, 24, [10, 127, 255, 0]⟩) = false := by
  refine (prefix_compare_exact.1 _ _ rfl ⟨?_, ?_⟩ ⟨?_, ?_⟩).2 ?_ <;> decide

end Libnl.Addr
