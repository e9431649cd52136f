/-
The order of abstract addresses (`nl_addr_cmp` in `lib/addr.c`).

Families are compared first, then lengths, then the bytes, then the prefix lengths, and the first difference is the answer.
All differences but that of the bytes are differences of machine words, converted to `int`.

- `totalOn_nlAddrCmp_iff`: on which sets of addresses the comparison is a total order up to equality.
- `nlAddrCmp_total_iff`: on which three addresses it is. Two addresses of no length differ when their prefix lengths do, but
  the comparison finds no difference: it looks at prefix lengths only where there are bytes.
-/
import Mathlib.Tactic
import Libnl.Core.Compare
import Libnl.Route.Addr

namespace Libnl.AddrOrder

open Bytes Compare Addr

/-! ## The comparison -/

/-- `memcmp` of two areas of one length: the first difference. Only its sign is promised. -/
def memcmp : List UInt8 → List UInt8 → ℤ
  | a :: as, b :: bs => if a = b then memcmp as bs else (a.toNat : ℤ) - b.toNat
  | _, _ => 0

/-- `nl_addr_cmp`; the differences wrap around -/
def nlAddrCmp : Option NlAddr → Option NlAddr → ℤ
  | none, none => 0
  | none, some _ => -1
  | some _, none => 1
  | some a, some b =>
    let d := toInt32 (a.aFamily - b.aFamily)
    if d = 0 then
      let d := toInt32 ((a.aAddr.length : ℤ) - b.aAddr.length)
      if a.aAddr.length ≠ 0 ∧ d = 0 then
        let d := memcmp a.aAddr b.aAddr
        if d = 0 then toInt32 (a.aPrefixlen - b.aPrefixlen) else d
      else d
    else d

/-- the fields of `struct nl_addr` are machine words -/
structure Fits (a : NlAddr) : Prop where
  family : -2147483648 ≤ a.aFamily ∧ a.aFamily < 2147483648
  prefixlen : -2147483648 ≤ a.aPrefixlen ∧ a.aPrefixlen < 2147483648
  len : a.aAddr.length < 4294967296

/-- family, length, prefix length and all bytes agree -/
def Agree (a b : NlAddr) : Prop :=
  a.aFamily = b.aFamily ∧ a.aAddr.length = b.aAddr.length ∧ a.aPrefixlen = b.aPrefixlen ∧ a.aAddr = b.aAddr

/-! ## Bytes -/

theorem memcmp_eq_zero_iff {as bs : List UInt8} (h : as.length = bs.length) : memcmp as bs = 0 ↔ as = bs := by
  induction as generalizing bs with
  | nil =>
    cases bs with
    | nil => simp [memcmp]
    | cons b bs => cases h
  | cons a as ih =>
    cases bs with
    | nil => cases h
    | cons b bs =>
      rw [memcmp, List.cons.injEq]
      by_cases hab : a = b
      · rw [if_pos hab, ih (Nat.succ.inj h)]
        exact (and_iff_right hab).symm
      · have hne : a.toNat ≠ b.toNat := mt UInt8.toNat_inj.1 hab
        rw [if_neg hab]
        exact ⟨fun h0 => by omega, fun h0 => absurd h0.1 hab⟩

theorem memcmp_flip (as bs : List UInt8) : memcmp as bs = -memcmp bs as := by
  induction as generalizing bs with
  | nil => cases bs <;> rfl
  | cons a as ih =>
    cases bs with
    | nil => rfl
    | cons b bs =>
      rw [memcmp, memcmp]
      by_cases hab : a = b
      · rw [if_pos hab, if_pos hab.symm]
        exact ih bs
      · rw [if_neg hab, if_neg (Ne.symm hab)]
        omega

theorem memcmp_trans {as bs cs : List UInt8} (hab : as.length = bs.length) (hbc : bs.length = cs.length)
    (h : memcmp as bs ≤ 0) (h' : memcmp bs cs ≤ 0) : memcmp as cs ≤ 0 := by
  induction as generalizing bs cs with
  | nil => cases cs <;> exact le_refl 0
  | cons a as ih =>
    cases bs with
    | nil => cases hab
    | cons b bs =>
      cases cs with
      | nil => cases hbc
      | cons c cs =>
        rw [memcmp] at h h' ⊢
        have hinj : ∀ {x y : UInt8}, x ≠ y → x.toNat ≠ y.toNat := fun hne => mt UInt8.toNat_inj.1 hne
        by_cases h1 : a = b
        · subst h1
          rw [if_pos rfl] at h
          by_cases h2 : a = c
          · rw [if_pos h2] at h' ⊢
            exact ih (Nat.succ.inj hab) (Nat.succ.inj hbc) h h'
          · rwa [if_neg h2] at h' ⊢
        · rw [if_neg h1] at h
          have hlt := hinj h1
          by_cases h2 : b = c
          · rwa [← h2, if_neg h1]
          · rw [if_neg h2] at h'
            have hlt' := hinj h2
            have hac : a ≠ c := by
              rintro rfl
              omega
            rw [if_neg hac]
            omega

/-- byte strings of one length are totally ordered -/
theorem totalOn_memcmp {s : Set NlAddr} (hlen : ∀ a ∈ s, ∀ b ∈ s, a.aAddr.length = b.aAddr.length) :
    TotalOn (fun a b => memcmp a.aAddr b.aAddr) (fun a b => a.aAddr = b.aAddr) s where
  zero a ha b hb := memcmp_eq_zero_iff (hlen a ha b hb)
  flip a _ b _ := by rw [memcmp_flip, Int.sign_neg]
  trans a ha b hb c hc := memcmp_trans (hlen a ha b hb) (hlen b hb c hc)

/-! ## Where it is an order -/

/-- no two addresses of no length differ in the prefix length alone, and no difference wraps around so as to confuse three -/
structure Comparable (s : Set NlAddr) : Prop where
  family : ∀ a ∈ s, ∀ b ∈ s, ∀ c ∈ s, Near a.aFamily b.aFamily c.aFamily
  len : ∀ a ∈ s, ∀ b ∈ s, ∀ c ∈ s, a.aFamily = b.aFamily → a.aFamily = c.aFamily →
    Near a.aAddr.length b.aAddr.length c.aAddr.length
  prefixlen : ∀ a ∈ s, ∀ b ∈ s, ∀ c ∈ s, a.aFamily = b.aFamily → a.aFamily = c.aFamily → a.aAddr = b.aAddr →
    a.aAddr = c.aAddr → a.aAddr ≠ [] → Near a.aPrefixlen b.aPrefixlen c.aPrefixlen
  empty : ∀ a ∈ s, ∀ b ∈ s, a.aFamily = b.aFamily → a.aAddr = [] → b.aAddr = [] → a.aPrefixlen = b.aPrefixlen

/-- the last comparison: prefix lengths, where there are bytes -/
def prefixlenCmp (a b : NlAddr) : ℤ := if a.aAddr = [] then 0 else toInt32 (a.aPrefixlen - b.aPrefixlen)

/-- four comparisons, one after the other -/
theorem nlAddrCmp_eq (a b : NlAddr) : nlAddrCmp (some a) (some b) =
    andThen (fun a b => toInt32 (a.aFamily - b.aFamily)) (andThen (fun a b => toInt32 ((a.aAddr.length : ℤ) - b.aAddr.length))
      (andThen (fun a b => memcmp a.aAddr b.aAddr) prefixlenCmp)) a b := by
  simp only [nlAddrCmp, andThen, prefixlenCmp, List.length_eq_zero_iff, ne_eq]
  refine if_congr Iff.rfl ?_ rfl
  by_cases hlen : toInt32 ((a.aAddr.length : ℤ) - b.aAddr.length) = 0
  · rw [if_pos hlen]
    by_cases hempty : a.aAddr = []
    · have hsame : memcmp a.aAddr b.aAddr = 0 := by rw [hempty]; rfl
      rw [if_neg (fun h => h.1 hempty), if_pos hempty, hlen, if_pos hsame]
    · rw [if_pos ⟨hempty, hlen⟩, if_neg hempty]
  · rw [if_neg hlen, if_neg (fun h => hlen h.2)]

/-- among addresses with the same bytes, only prefix lengths are left -/
theorem totalOn_prefixlenCmp_iff {s : Set NlAddr} (hfits : ∀ a ∈ s, Fits a) (haddr : ∀ a ∈ s, ∀ b ∈ s, a.aAddr = b.aAddr) :
    TotalOn prefixlenCmp (fun a b => a.aPrefixlen = b.aPrefixlen) s ↔
      (∀ a ∈ s, ∀ b ∈ s, ∀ c ∈ s, a.aAddr ≠ [] → Near a.aPrefixlen b.aPrefixlen c.aPrefixlen) ∧
        ∀ a ∈ s, ∀ b ∈ s, a.aAddr = [] → a.aPrefixlen = b.aPrefixlen := by
  have hrange : ∀ a ∈ s, ∀ b ∈ s, a.aPrefixlen - b.aPrefixlen < 4294967296 := by
    intro a ha b hb
    have h1 := (hfits a ha).prefixlen
    have h2 := (hfits b hb).prefixlen
    omega
  by_cases hempty : ∃ x ∈ s, x.aAddr = []
  · obtain ⟨x, hx, hnil⟩ := hempty
    have hall : ∀ a ∈ s, a.aAddr = [] := fun a ha => (haddr a ha x hx).trans hnil
    have hzero : ∀ a ∈ s, ∀ b, prefixlenCmp a b = 0 := fun a ha b => if_pos (hall a ha)
    constructor
    · intro h
      exact ⟨fun a ha b _ c _ hne => absurd (hall a ha) hne, fun a ha b hb _ => (h.zero a ha b hb).1 (hzero a ha b)⟩
    · intro h
      refine ⟨fun a ha b hb => ⟨fun _ => h.2 a ha b hb (hall a ha), fun _ => hzero a ha b⟩, ?_, ?_⟩
      · intro a ha b hb
        rw [hzero a ha b, hzero b hb a]
        rfl
      · intro a ha b _ c _ _ _
        rw [hzero a ha c]
  · have hne : ∀ a ∈ s, a.aAddr ≠ [] := fun a ha hnil => hempty ⟨a, ha, hnil⟩
    have heq : ∀ a ∈ s, ∀ b ∈ s, prefixlenCmp a b = toInt32 (a.aPrefixlen - b.aPrefixlen) :=
      fun a ha b _ => if_neg (hne a ha)
    rw [totalOn_congr heq fun _ _ _ _ => Iff.rfl, totalOn_toInt32_iff hrange]
    constructor
    · intro h
      exact ⟨fun a ha b hb c hc _ => h a ha b hb c hc, fun a ha _ _ hnil => absurd hnil (hne a ha)⟩
    · intro h a ha b hb c hc
      exact h.1 a ha b hb c hc (hne a ha)

/-- among addresses of one length, bytes and prefix lengths are left -/
theorem totalOn_bytes_iff {s : Set NlAddr} (hfits : ∀ a ∈ s, Fits a)
    (hlen : ∀ a ∈ s, ∀ b ∈ s, a.aAddr.length = b.aAddr.length) :
    TotalOn (andThen (fun a b => memcmp a.aAddr b.aAddr) prefixlenCmp)
        (fun a b => a.aAddr = b.aAddr ∧ a.aPrefixlen = b.aPrefixlen) s ↔
      (∀ a ∈ s, ∀ b ∈ s, ∀ c ∈ s, a.aAddr = b.aAddr → a.aAddr = c.aAddr → a.aAddr ≠ [] →
          Near a.aPrefixlen b.aPrefixlen c.aPrefixlen) ∧
        ∀ a ∈ s, ∀ b ∈ s, a.aAddr = [] → b.aAddr = [] → a.aPrefixlen = b.aPrefixlen := by
  have hclass : ∀ x : NlAddr, TotalOn prefixlenCmp (fun a b => a.aPrefixlen = b.aPrefixlen) {y ∈ s | x.aAddr = y.aAddr} ↔ _ :=
    fun x => totalOn_prefixlenCmp_iff (fun a ha => hfits a ha.1) fun a ha b hb => ha.2.symm.trans hb.2
  rw [totalOn_andThen_iff fun a ha b hb => memcmp_eq_zero_iff (hlen a ha b hb), and_iff_right (totalOn_memcmp hlen)]
  constructor
  · intro h
    refine ⟨?_, ?_⟩
    · intro a ha b hb c hc hab hac
      exact ((hclass a).1 (h a ha)).1 a ⟨ha, rfl⟩ b ⟨hb, hab⟩ c ⟨hc, hac⟩
    · intro a ha b hb hnil hnil'
      exact ((hclass a).1 (h a ha)).2 a ⟨ha, rfl⟩ b ⟨hb, hnil.trans hnil'.symm⟩ hnil
  · intro h x _
    refine (hclass x).2 ⟨?_, ?_⟩
    · intro a ha b hb c hc
      exact h.1 a ha.1 b hb.1 c hc.1 (ha.2.symm.trans hb.2) (ha.2.symm.trans hc.2)
    · intro a ha b hb hnil
      exact h.2 a ha.1 b hb.1 hnil ((hb.2.symm.trans ha.2).trans hnil)

/-- among addresses of one family, lengths are compared first -/
theorem totalOn_len_iff {s : Set NlAddr} (hfits : ∀ a ∈ s, Fits a) :
    TotalOn (andThen (fun a b => toInt32 ((a.aAddr.length : ℤ) - b.aAddr.length))
          (andThen (fun a b => memcmp a.aAddr b.aAddr) prefixlenCmp))
        (fun a b => (a.aAddr.length : ℤ) = b.aAddr.length ∧ a.aAddr = b.aAddr ∧ a.aPrefixlen = b.aPrefixlen) s ↔
      (∀ a ∈ s, ∀ b ∈ s, ∀ c ∈ s, Near a.aAddr.length b.aAddr.length c.aAddr.length) ∧
        (∀ a ∈ s, ∀ b ∈ s, ∀ c ∈ s, a.aAddr = b.aAddr → a.aAddr = c.aAddr → a.aAddr ≠ [] →
          Near a.aPrefixlen b.aPrefixlen c.aPrefixlen) ∧
        ∀ a ∈ s, ∀ b ∈ s, a.aAddr = [] → b.aAddr = [] → a.aPrefixlen = b.aPrefixlen := by
  have hrange : ∀ a ∈ s, ∀ b ∈ s, (a.aAddr.length : ℤ) - b.aAddr.length < 4294967296 := by
    intro a ha b hb
    have h1 := (hfits a ha).len
    omega
  have hclass : ∀ x : NlAddr, TotalOn (andThen (fun a b => memcmp a.aAddr b.aAddr) prefixlenCmp)
      (fun a b => a.aAddr = b.aAddr ∧ a.aPrefixlen = b.aPrefixlen)
      {y ∈ s | (x.aAddr.length : ℤ) = y.aAddr.length} ↔ _ :=
    fun x => totalOn_bytes_iff (fun a ha => hfits a ha.1) fun a ha b hb => Int.ofNat.inj (ha.2.symm.trans hb.2)
  have hlength : ∀ {a b : NlAddr}, a.aAddr = b.aAddr → (a.aAddr.length : ℤ) = b.aAddr.length := fun h => by rw [h]
  rw [totalOn_andThen_iff (k := fun a : NlAddr => (a.aAddr.length : ℤ)) (d := fun x y => toInt32 (x - y))
    fun a ha b hb => toInt32_sub_eq_zero (hrange a ha b hb) (hrange b hb a ha), totalOn_toInt32_iff hrange]
  refine and_congr_right fun _ => ⟨?_, ?_⟩
  · intro h
    refine ⟨?_, ?_⟩
    · intro a ha b hb c hc hab hac
      exact ((hclass a).1 (h a ha)).1 a ⟨ha, rfl⟩ b ⟨hb, hlength hab⟩ c ⟨hc, hlength hac⟩ hab hac
    · intro a ha b hb hnil hnil'
      exact ((hclass a).1 (h a ha)).2 a ⟨ha, rfl⟩ b ⟨hb, hlength (hnil.trans hnil'.symm)⟩ hnil hnil'
  · intro h x _
    exact (hclass x).2 ⟨fun a ha b hb c hc => h.1 a ha.1 b hb.1 c hc.1, fun a ha b hb => h.2 a ha.1 b hb.1⟩

/-- **The order of addresses**, on any set of them. -/
theorem totalOn_nlAddrCmp_iff {s : Set NlAddr} (hfits : ∀ a ∈ s, Fits a) :
    TotalOn (fun a b => nlAddrCmp (some a) (some b)) Agree s ↔ Comparable s := by
  have hrange : ∀ a ∈ s, ∀ b ∈ s, a.aFamily - b.aFamily < 4294967296 := by
    intro a ha b hb
    have h1 := (hfits a ha).family
    have h2 := (hfits b hb).family
    omega
  have hagree : ∀ a b : NlAddr, Agree a b ↔ a.aFamily = b.aFamily ∧ (a.aAddr.length : ℤ) = b.aAddr.length ∧
      a.aAddr = b.aAddr ∧ a.aPrefixlen = b.aPrefixlen := by
    intro a b
    rw [Agree, Nat.cast_inj]
    tauto
  have hclass : ∀ x : NlAddr, TotalOn _ _ {y ∈ s | x.aFamily = y.aFamily} ↔ _ :=
    fun x => totalOn_len_iff fun a ha => hfits a ha.1
  rw [totalOn_congr (fun a _ b _ => nlAddrCmp_eq a b) fun a _ b _ => hagree a b,
    totalOn_andThen_iff (k := NlAddr.aFamily) (d := fun x y => toInt32 (x - y))
      fun a ha b hb => toInt32_sub_eq_zero (hrange a ha b hb) (hrange b hb a ha), totalOn_toInt32_iff hrange]
  constructor
  · rintro ⟨hfamily, h⟩
    refine ⟨hfamily, ?_, ?_, ?_⟩
    · intro a ha b hb c hc hab hac
      exact ((hclass a).1 (h a ha)).1 a ⟨ha, rfl⟩ b ⟨hb, hab⟩ c ⟨hc, hac⟩
    · intro a ha b hb c hc hab hac
      exact ((hclass a).1 (h a ha)).2.1 a ⟨ha, rfl⟩ b ⟨hb, hab⟩ c ⟨hc, hac⟩
    · intro a ha b hb hab
      exact ((hclass a).1 (h a ha)).2.2 a ⟨ha, rfl⟩ b ⟨hb, hab⟩
  · intro h
    refine ⟨h.family, fun x _ => (hclass x).2 ⟨?_, ?_, ?_⟩⟩
    · intro a ha b hb c hc
      exact h.len a ha.1 b hb.1 c hc.1 (ha.2.symm.trans hb.2) (ha.2.symm.trans hc.2)
    · intro a ha b hb c hc
      exact h.prefixlen a ha.1 b hb.1 c hc.1 (ha.2.symm.trans hb.2) (ha.2.symm.trans hc.2)
    · intro a ha b hb
      exact h.empty a ha.1 b hb.1 (ha.2.symm.trans hb.2)

/-- the three of a set of three -/
theorem forall_three {P : NlAddr → Prop} {a b c : NlAddr} (ha : P a) (hb : P b) (hc : P c) :
    ∀ x ∈ ({a, b, c} : Set NlAddr), P x := by
  rintro x (rfl | rfl | rfl)
  · exact ha
  · exact hb
  · exact hc

/-- **The comparison is a total order** among three addresses exactly when they are comparable. -/
theorem nlAddrCmp_total_iff {a b c : NlAddr} (ha : Fits a) (hb : Fits b) (hc : Fits c) :
    TotalOn (fun a b => nlAddrCmp (some a) (some b)) Agree {a, b, c} ↔ Comparable {a, b, c} :=
  totalOn_nlAddrCmp_iff (forall_three ha hb hc)

/-- an address of no length -/
def anyAddr (prefixlen : ℤ) : NlAddr := ⟨Family.AF_INET, prefixlen, []⟩

/-- **Two addresses that differ** are found to be the same. -/
theorem nlAddrCmp_ignores_prefixlen :
    nlAddrCmp (some (anyAddr 0)) (some (anyAddr 1)) = 0 ∧ ¬ Agree (anyAddr 0) (anyAddr 1) ∧
      ¬ TotalOn (fun a b => nlAddrCmp (some a) (some b)) Agree {anyAddr 0, anyAddr 1, anyAddr 0} := by
  have hsame : nlAddrCmp (some (anyAddr 0)) (some (anyAddr 1)) = 0 := by decide
  have hdiff : ¬ Agree (anyAddr 0) (anyAddr 1) := fun h => absurd h.2.2.1 (by decide)
  refine ⟨hsame, hdiff, fun h => hdiff ?_⟩
  exact (h.zero (anyAddr 0) (by simp) (anyAddr 1) (by simp)).1 hsame

/-- addresses with bytes and the usual families and prefix lengths are comparable -/
theorem comparable_of_small {s : Set NlAddr} (h : ∀ a ∈ s, (0 ≤ a.aFamily ∧ a.aFamily < 2147483648) ∧
    (0 ≤ a.aPrefixlen ∧ a.aPrefixlen < 2147483648) ∧ a.aAddr.length < 2147483648 ∧ a.aAddr ≠ []) : Comparable s := by
  have hnear : ∀ {x y z : ℤ}, 0 ≤ x → x < 2147483648 → 0 ≤ y → y < 2147483648 → 0 ≤ z → z < 2147483648 → Near x y z := by
    intro x y z hx hx' hy hy' hz hz'
    exact ⟨by omega, fun _ _ _ _ => by omega⟩
  refine ⟨?_, ?_, ?_, ?_⟩
  · intro a ha b hb c hc
    exact hnear (h a ha).1.1 (h a ha).1.2 (h b hb).1.1 (h b hb).1.2 (h c hc).1.1 (h c hc).1.2
  · intro a ha b hb c hc _ _
    have h1 := (h a ha).2.2.1
    have h2 := (h b hb).2.2.1
    have h3 := (h c hc).2.2.1
    exact hnear (by omega) (by omega) (by omega) (by omega) (by omega) (by omega)
  · intro a ha b hb c hc _ _ _ _ _
    exact hnear (h a ha).2.1.1 (h a ha).2.1.2 (h b hb).2.1.1 (h b hb).2.1.2 (h c hc).2.1.1 (h c hc).2.1.2
  · intro a ha _ _ _ hnil _
    exact absurd hnil (h a ha).2.2.2

/-- an address with the prefix length of its family -/
def hostAddr (last : UInt8) : NlAddr := ⟨Family.AF_INET, 32, [10, 0, 0, last]⟩

theorem nlAddrCmp_total_hosts :
    TotalOn (fun a b => nlAddrCmp (some a) (some b)) Agree {hostAddr 1, hostAddr 2, ⟨Family.AF_INET6, 8, [1]⟩} := by
  refine (nlAddrCmp_total_iff ⟨?_, ?_, ?_⟩ ⟨?_, ?_, ?_⟩ ⟨?_, ?_, ?_⟩).2 (comparable_of_small (forall_three ?_ ?_ ?_))
  all_goals decide

/-! ## The comparison and its use -/

/-- zero is the answer that says that the two are the same -/
theorem nlAddrCmp_ne_zero_iff {a b : Option NlAddr} (ha : ∀ x ∈ a, Fits x) (hb : ∀ x ∈ b, Fits x) :
    nlAddrCmp a b ≠ 0 ↔ Addr.nlAddrCmp a b = true := by
  cases a with
  | none => cases b <;> simp [nlAddrCmp, Addr.nlAddrCmp]
  | some a =>
    cases b with
    | none => simp [nlAddrCmp, Addr.nlAddrCmp]
    | some b =>
      obtain ⟨hfa, hpa, hla⟩ := ha a rfl
      obtain ⟨hfb, hpb, hlb⟩ := hb b rfl
      rw [ne_eq, ← Bool.not_eq_false, not_iff_not, Addr.nlAddrCmp_eq_false_iff, nlAddrCmp_eq, andThen_eq_zero_iff,
        andThen_eq_zero_iff, andThen_eq_zero_iff, toInt32_sub_eq_zero (by omega) (by omega),
        toInt32_sub_eq_zero (by omega) (by omega), Nat.cast_inj]
      simp only [Addr.addrKey, Option.map_some, Option.some.injEq, Prod.mk.injEq]
      refine and_congr_right fun _ => ⟨?_, ?_⟩
      · rintro ⟨hlen, haddr, hprefix⟩
        have hsame := (memcmp_eq_zero_iff hlen).1 haddr
        refine ⟨hsame, ?_⟩
        rw [← hsame]
        by_cases hnil : a.aAddr = []
        · rw [if_pos hnil, if_pos hnil]
        · rw [prefixlenCmp, if_neg hnil, toInt32_sub_eq_zero (by omega) (by omega)] at hprefix
          rw [if_neg hnil, if_neg hnil, hprefix]
      · rintro ⟨hsame, hprefix⟩
        refine ⟨congrArg List.length hsame, (memcmp_eq_zero_iff (congrArg List.length hsame)).2 hsame, ?_⟩
        rw [← hsame] at hprefix
        by_cases hnil : a.aAddr = []
        · exact if_pos hnil
        · rw [if_neg hnil, if_neg hnil] at hprefix
          rw [prefixlenCmp, if_neg hnil]
          exact (toInt32_sub_eq_zero (by omega) (by omega)).2 hprefix

end Libnl.AddrOrder
