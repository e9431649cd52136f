/-
What a comparison of selectors says (`xfrmnl_sel_cmp` in `lib/xfrm/selector.c`).

The function is to tell whether two selectors are identical. It compares addresses within the shorter of the two prefixes and
ports under their masks, and it passes over a protocol or an interface that the first selector leaves open. So selectors may
pass for identical that are not, and one may pass for the other but not the other for the one.

- `xfrmnlSelCmp_eq_false_iff`: what the comparison tells apart.
- `selector_compare_iff`: where it is right about two selectors, whichever of them comes first.
- `open_protocol_passes`: two selectors that are told apart in one order only.
-/
import Mathlib.Tactic
import Libnl.Route.AddrPrefix
import Libnl.Xfrm.Types

namespace Libnl.Xfrm

open BitString Addr

/-- `xfrmnl_sel_cmp` -/
def xfrmnlSelCmp (a b : XfrmnlSel) : Bool :=
  nlAddrCmpPrefix (some a.daddr) (some b.daddr) || nlAddrCmpPrefix (some a.saddr) (some b.saddr) ||
    decide (a.sport &&& a.sportMask ≠ b.sport &&& b.sportMask) ||
    decide (a.dport &&& a.dportMask ≠ b.dport &&& b.dportMask) || decide (a.family ≠ b.family) ||
    (decide (a.proto ≠ 0) && decide (a.proto ≠ b.proto)) || (decide (a.ifindex ≠ 0) && decide (a.ifindex ≠ b.ifindex)) ||
    decide (a.user ≠ b.user)

/-! ## Identical selectors -/

/-- the same prefix: of the same length, with the same bits in it -/
structure SamePrefix (a b : NlAddr) : Prop where
  family : a.aFamily = b.aFamily
  prefixlen : a.aPrefixlen = b.aPrefixlen
  bits : (bits a.aAddr).take a.aPrefixlen.toNat = (bits b.aAddr).take a.aPrefixlen.toNat

/-- the same in every part -/
structure SameSel (a b : XfrmnlSel) : Prop where
  family : a.family = b.family
  daddr : SamePrefix a.daddr b.daddr
  prefixlenD : a.prefixlenD = b.prefixlenD
  saddr : SamePrefix a.saddr b.saddr
  prefixlenS : a.prefixlenS = b.prefixlenS
  dport : a.dport = b.dport
  dportMask : a.dportMask = b.dportMask
  sport : a.sport = b.sport
  sportMask : a.sportMask = b.sportMask
  proto : a.proto = b.proto
  ifindex : a.ifindex = b.ifindex
  user : a.user = b.user

theorem SamePrefix.symm {a b : NlAddr} (h : SamePrefix a b) : SamePrefix b a :=
  ⟨h.family.symm, h.prefixlen.symm, by rw [← h.prefixlen]; exact h.bits.symm⟩

theorem SameSel.symm {a b : XfrmnlSel} (h : SameSel a b) : SameSel b a where
  family := h.family.symm
  daddr := h.daddr.symm
  prefixlenD := h.prefixlenD.symm
  saddr := h.saddr.symm
  prefixlenS := h.prefixlenS.symm
  dport := h.dport.symm
  dportMask := h.dportMask.symm
  sport := h.sport.symm
  sportMask := h.sportMask.symm
  proto := h.proto.symm
  ifindex := h.ifindex.symm
  user := h.user.symm

/-- a prefix that is longer than its address is the whole address -/
theorem SamePrefix.whole {a b : NlAddr} (h : SamePrefix a b) (hlong : 8 * a.aAddr.length < a.aPrefixlen.toNat) :
    a.aAddr = b.aAddr := by
  have hbits := h.bits
  have hlen := congrArg List.length hbits
  rw [List.length_take, List.length_take, bits_length, bits_length] at hlen
  rw [List.take_of_length_le (by rw [bits_length]; omega), List.take_of_length_le (by rw [bits_length]; omega)] at hbits
  exact bits_inj hbits

/-- the same prefix passes -/
theorem SamePrefix.cmp {a b : NlAddr} (h : SamePrefix a b) : nlAddrCmpPrefix (some a) (some b) = false := by
  have hmin : sharedLen a b = a.aPrefixlen.toNat := by rw [sharedLen, ← h.prefixlen, min_self]
  by_cases hlong : 8 * a.aAddr.length < a.aPrefixlen.toNat
  · have hwhole := h.whole hlong
    rw [nlAddrCmpPrefix, if_neg (not_not.2 h.family), hwhole]
    simp
  · by_cases hneg : 0 ≤ a.aPrefixlen
    · have ha : PrefixFits a := ⟨hneg, by omega⟩
      have hb : PrefixFits b := by
        by_contra hno
        have hshort : 8 * b.aAddr.length < b.aPrefixlen.toNat := by
          by_contra hfit
          have hp := h.prefixlen
          exact hno ⟨by omega, by omega⟩
        have hwhole := h.symm.whole hshort
        have hp := h.prefixlen
        rw [← hwhole] at hlong
        omega
      rw [nlAddrCmpPrefix_eq_false_iff ha hb, hmin]
      exact ⟨h.family, h.bits⟩
    · -- below zero there is nothing to compare
      have hzero : (min a.aPrefixlen b.aPrefixlen).toNat = 0 := by
        rw [← h.prefixlen, min_self]
        omega
      rw [nlAddrCmpPrefix, if_neg (not_not.2 h.family), hzero]
      simp

/-! ## What the comparison sees -/

/-- what is compared in either order is the same -/
structure Alike (a b : XfrmnlSel) : Prop where
  daddr : nlAddrCmpPrefix (some a.daddr) (some b.daddr) = false
  saddr : nlAddrCmpPrefix (some a.saddr) (some b.saddr) = false
  sport : a.sport &&& a.sportMask = b.sport &&& b.sportMask
  dport : a.dport &&& a.dportMask = b.dport &&& b.dportMask
  family : a.family = b.family
  user : a.user = b.user

/-- the first names a protocol or an interface, and the second has another one or none -/
def NamesOther (a b : XfrmnlSel) : Prop :=
  (a.proto ≠ 0 ∧ a.proto ≠ b.proto) ∨ (a.ifindex ≠ 0 ∧ a.ifindex ≠ b.ifindex)

theorem nlAddrCmpPrefix_comm (a b : NlAddr) : nlAddrCmpPrefix (some a) (some b) = nlAddrCmpPrefix (some b) (some a) := by
  rw [nlAddrCmpPrefix, nlAddrCmpPrefix, min_comm b.aPrefixlen]
  simp only [ne_comm (a := b.aFamily), ne_comm (a := b.aAddr.take _), ne_comm (a := (b.aAddr.getD _ _).toNat &&& _)]

theorem Alike.symm {a b : XfrmnlSel} (h : Alike a b) : Alike b a where
  daddr := by rw [nlAddrCmpPrefix_comm]; exact h.daddr
  saddr := by rw [nlAddrCmpPrefix_comm]; exact h.saddr
  sport := h.sport.symm
  dport := h.dport.symm
  family := h.family.symm
  user := h.user.symm

/-- **What the comparison tells apart** -/
theorem xfrmnlSelCmp_eq_false_iff (a b : XfrmnlSel) : xfrmnlSelCmp a b = false ↔ Alike a b ∧ ¬ NamesOther a b := by
  simp only [xfrmnlSelCmp, Bool.or_eq_false_iff, Bool.and_eq_false_iff, decide_eq_false_iff_not, not_not]
  constructor
  · rintro ⟨⟨⟨⟨⟨⟨⟨hdaddr, hsaddr⟩, hsport⟩, hdport⟩, hfamily⟩, hproto⟩, hifindex⟩, huser⟩
    refine ⟨⟨hdaddr, hsaddr, hsport, hdport, hfamily, huser⟩, fun hnames => ?_⟩
    rcases hnames with hnames | hnames
    · exact hproto.elim (fun h => hnames.1 h) fun h => hnames.2 h
    · exact hifindex.elim (fun h => hnames.1 h) fun h => hnames.2 h
  · rintro ⟨halike, hnames⟩
    rw [NamesOther, not_or, not_and_or, not_and_or, not_not, not_not, not_not, not_not] at hnames
    exact ⟨⟨⟨⟨⟨⟨⟨halike.daddr, halike.saddr⟩, halike.sport⟩, halike.dport⟩, halike.family⟩, hnames.1⟩, hnames.2⟩, halike.user⟩

/-- identical selectors pass -/
theorem SameSel.cmp {a b : XfrmnlSel} (h : SameSel a b) : xfrmnlSelCmp a b = false := by
  rw [xfrmnlSelCmp_eq_false_iff]
  refine ⟨⟨h.daddr.cmp, h.saddr.cmp, ?_, ?_, h.family, h.user⟩, ?_⟩
  · rw [h.sport, h.sportMask]
  · rw [h.dport, h.dportMask]
  · intro hnames
    rcases hnames with hproto | hifindex
    · exact hproto.2 h.proto
    · exact hifindex.2 h.ifindex

theorem SamePrefix.refl (a : NlAddr) : SamePrefix a a := ⟨rfl, rfl, rfl⟩

theorem selCmp_self (a : XfrmnlSel) : xfrmnlSelCmp a a = false :=
  SameSel.cmp ⟨rfl, SamePrefix.refl _, rfl, SamePrefix.refl _, rfl, rfl, rfl, rfl, rfl, rfl, rfl, rfl⟩

/-! ## Where it is right -/

/-- the answer says whether the two are identical, and does not depend on their order -/
structure SelCmpRight (a b : XfrmnlSel) : Prop where
  symm : xfrmnlSelCmp a b = false ↔ xfrmnlSelCmp b a = false
  exact : xfrmnlSelCmp a b = false ↔ SameSel a b

/-- **Comparing selectors.** The answer is right just if the two are identical, or differ in a part that is looked at in
either order, or each names a protocol or an interface that the other has not. -/
theorem selector_compare_iff (a b : XfrmnlSel) :
    SelCmpRight a b ↔ SameSel a b ∨ ¬ Alike a b ∨ (NamesOther a b ∧ NamesOther b a) := by
  constructor
  · intro h
    by_cases hsame : SameSel a b
    · exact Or.inl hsame
    · -- they differ, so the answer is that they do, in both orders
      have hab : ¬ (Alike a b ∧ ¬ NamesOther a b) := by
        rw [← xfrmnlSelCmp_eq_false_iff]
        exact fun hpass => hsame (h.exact.1 hpass)
      have hba : ¬ (Alike b a ∧ ¬ NamesOther b a) := by
        rw [← xfrmnlSelCmp_eq_false_iff, ← h.symm]
        exact fun hpass => hsame (h.exact.1 hpass)
      by_cases halike : Alike a b
      · exact Or.inr (Or.inr ⟨not_not.1 fun hno => hab ⟨halike, hno⟩, not_not.1 fun hno => hba ⟨halike.symm, hno⟩⟩)
      · exact Or.inr (Or.inl halike)
  · intro h
    by_cases hsame : SameSel a b
    · exact ⟨iff_of_true hsame.cmp hsame.symm.cmp, iff_of_true hsame.cmp hsame⟩
    · have hab : ¬ xfrmnlSelCmp a b = false := by
        rw [xfrmnlSelCmp_eq_false_iff]
        rintro ⟨halike, hno⟩
        exact h.elim hsame fun h => h.elim (fun hnot => hnot halike) fun hboth => hno hboth.1
      have hba : ¬ xfrmnlSelCmp b a = false := by
        rw [xfrmnlSelCmp_eq_false_iff]
        rintro ⟨halike, hno⟩
        exact h.elim hsame fun h => h.elim (fun hnot => hnot halike.symm) fun hboth => hno hboth.2
      exact ⟨iff_of_false hab hba, iff_of_false hab hsame⟩

/-- any address of IPv4, with no bits of it in the prefix -/
def anyAddr : NlAddr := ⟨Family.AF_INET, 0, [0, 0, 0, 0]⟩

/-- a selector of everything with this protocol -/
def selOf (proto : BitVec 8) : XfrmnlSel := ⟨anyAddr, anyAddr, 0, 0, 0, 0, 2, 0, 0, proto, 0, 0⟩

/-- a selector for any protocol passes for one for TCP, but not the other way round -/
theorem open_protocol_passes : xfrmnlSelCmp (selOf 0) (selOf 6) = false ∧ xfrmnlSelCmp (selOf 6) (selOf 0) = true ∧
    ¬ SelCmpRight (selOf 0) (selOf 6) := by
  have hopen : xfrmnlSelCmp (selOf 0) (selOf 6) = false := by decide
  have hnamed : xfrmnlSelCmp (selOf 6) (selOf 0) = true := by decide
  refine ⟨hopen, hnamed, fun h => ?_⟩
  have hpass := h.symm.1 hopen
  rw [hnamed] at hpass
  exact Bool.true_eq_false_eq_False hpass

end Libnl.Xfrm
