/-
Nexthops of routes (`lib/route/nexthop.c`, `nexthop_encap.c`, the comparison of `nh_encap_mpls.c`).

A nexthop says in `ce_mask` which of its attributes are set. `rtnl_route_nh_compare` over all attributes is an
equivalence: two nexthops compare equal when `nhKey` is the same for both. `rtnl_route_nh_clone` copies the mask and most
of the attributes, but neither the realms nor the encapsulation: `clone_same_iff` says which nexthops have a clone that
compares equal to them.
-/
import Mathlib.Tactic
import Libnl.Route.Addr

namespace Libnl.Route

open Addr

def NH_ATTR_FLAGS : BitVec 32 := 0x01
def NH_ATTR_WEIGHT : BitVec 32 := 0x02
def NH_ATTR_IFINDEX : BitVec 32 := 0x04
def NH_ATTR_GATEWAY : BitVec 32 := 0x08
def NH_ATTR_REALMS : BitVec 32 := 0x10
def NH_ATTR_NEWDST : BitVec 32 := 0x20
def NH_ATTR_VIA : BitVec 32 := 0x40
def NH_ATTR_ENCAP : BitVec 32 := 0x80

/-- `struct rtnl_nh_encap`; MPLS is the only type that has operations -/
structure RtnlNhEncap where
  dst : Option NlAddr
  ttl : BitVec 8
deriving DecidableEq, Repr

structure RtnlNexthop where
  rtnhFlags : BitVec 8
  rtnhFlagMask : BitVec 8
  rtnhWeight : BitVec 8
  rtnhIfindex : BitVec 32
  rtnhGateway : Option NlAddr
  ceMask : BitVec 32
  rtnhRealms : BitVec 32
  rtnhNewdst : Option NlAddr
  rtnhVia : Option NlAddr
  rtnhEncap : Option RtnlNhEncap
deriving DecidableEq, Repr

/-- `calloc` -/
def rtnlRouteNhAlloc : RtnlNexthop := ⟨0, 0, 0, 0, none, 0, 0, none, none, none⟩

/-- `rtnl_route_nh_clone`; allocations succeed -/
def rtnlRouteNhClone (src : RtnlNexthop) : RtnlNexthop :=
  { rtnlRouteNhAlloc with
    rtnhFlags := src.rtnhFlags
    rtnhFlagMask := src.rtnhFlagMask
    rtnhWeight := src.rtnhWeight
    rtnhIfindex := src.rtnhIfindex
    ceMask := src.ceMask
    rtnhGateway := src.rtnhGateway
    rtnhNewdst := src.rtnhNewdst
    rtnhVia := src.rtnhVia }

/-- `nh_encap_compare` is not zero -/
def nhEncapCompare : Option RtnlNhEncap → Option RtnlNhEncap → Bool
  | none, none => false
  | none, some _ => true
  | some _, none => true
  | some a, some b => decide (a.ttl ≠ b.ttl) || nlAddrCmp a.dst b.dst

/-- `ATTR_DIFF` on nexthops -/
def nhDiff (attrs attr : BitVec 32) (a b : RtnlNexthop) (differ : Bool) : BitVec 32 :=
  if attrs &&& attr ≠ 0 ∧ ((a.ceMask ^^^ b.ceMask) &&& attr ≠ 0 ∨ (a.ceMask &&& b.ceMask &&& attr ≠ 0 ∧ differ = true))
  then attr else 0

/-- `rtnl_route_nh_compare` -/
def rtnlRouteNhCompare (a b : RtnlNexthop) (attrs : BitVec 32) (loose : Bool) : BitVec 32 :=
  nhDiff attrs NH_ATTR_IFINDEX a b (decide (a.rtnhIfindex ≠ b.rtnhIfindex)) |||
    nhDiff attrs NH_ATTR_WEIGHT a b (decide (a.rtnhWeight ≠ b.rtnhWeight)) |||
    nhDiff attrs NH_ATTR_REALMS a b (decide (a.rtnhRealms ≠ b.rtnhRealms)) |||
    nhDiff attrs NH_ATTR_GATEWAY a b (nlAddrCmp a.rtnhGateway b.rtnhGateway) |||
    nhDiff attrs NH_ATTR_NEWDST a b (nlAddrCmp a.rtnhNewdst b.rtnhNewdst) |||
    nhDiff attrs NH_ATTR_VIA a b (nlAddrCmp a.rtnhVia b.rtnhVia) |||
    nhDiff attrs NH_ATTR_ENCAP a b (nhEncapCompare a.rtnhEncap b.rtnhEncap) |||
    (if loose then nhDiff attrs NH_ATTR_FLAGS a b (decide ((a.rtnhFlags ^^^ b.rtnhFlags) &&& b.rtnhFlagMask ≠ 0))
      else nhDiff attrs NH_ATTR_FLAGS a b (decide (a.rtnhFlags ≠ b.rtnhFlags)))

/-- the nexthops compare equal over all attributes -/
def nhSame (a b : RtnlNexthop) : Bool := decide (rtnlRouteNhCompare a b (BitVec.allOnes 32) false = 0)

/-! ## What the comparison looks at -/

/-- what `nh_encap_compare` looks at -/
def encapKey (e : Option RtnlNhEncap) : Option (BitVec 8 × Option (ℤ × List UInt8 × ℤ)) :=
  e.map fun e => (e.ttl, addrKey e.dst)

theorem nhEncapCompare_eq_false_iff (a b : Option RtnlNhEncap) : nhEncapCompare a b = false ↔ encapKey a = encapKey b := by
  cases a with
  | none =>
    cases b with
    | none => simp [nhEncapCompare]
    | some b => simp [nhEncapCompare, encapKey]
  | some a =>
    cases b with
    | none => simp [nhEncapCompare, encapKey]
    | some b => simp [nhEncapCompare, encapKey, nlAddrCmp_eq_false_iff]

/-- a value, if the attribute is set -/
def carried {β : Type} (nh : RtnlNexthop) (attr : BitVec 32) (value : β) : Option β :=
  if nh.ceMask &&& attr = 0 then none else some value

theorem twoPow_ne_zero (i : Fin 32) : BitVec.twoPow 32 i ≠ 0#32 := by
  revert i
  decide

/-- a single attribute of the mask -/
theorem and_attr_eq_zero_iff {attr : BitVec 32} {i : Fin 32} (hattr : attr = BitVec.twoPow 32 i) (m : BitVec 32) :
    m &&& attr = 0#32 ↔ m.getLsbD i = false := by
  rw [hattr, BitVec.and_twoPow]
  cases hm : m.getLsbD i with
  | true => simpa using twoPow_ne_zero i
  | false => simp

theorem nhDiff_eq_zero_iff {β : Type} {attr : BitVec 32} (i : Fin 32) (hattr : attr = BitVec.twoPow 32 i)
    {a b : RtnlNexthop} {differ : Bool} {x y : β} (h : differ = false ↔ x = y) :
    nhDiff (BitVec.allOnes 32) attr a b differ = 0#32 ↔ carried a attr x = carried b attr y := by
  have hone : attr ≠ 0#32 := hattr ▸ twoPow_ne_zero i
  unfold nhDiff carried
  simp only [BitVec.allOnes_and, ne_eq, BitVec.ofNat_eq_ofNat, hone, not_false_eq_true, true_and,
    and_attr_eq_zero_iff hattr, BitVec.getLsbD_xor, BitVec.getLsbD_and]
  cases a.ceMask.getLsbD i with
  | true =>
    cases b.ceMask.getLsbD i with
    | true =>
      cases differ with
      | true => simpa [hone] using h
      | false => simpa using h
    | false => simp [hone]
  | false =>
    cases b.ceMask.getLsbD i with
    | true => simp [hone]
    | false => simp

/-- what `rtnl_route_nh_compare` looks at when it is asked for all attributes -/
def nhKey (nh : RtnlNexthop) :=
  (carried nh NH_ATTR_IFINDEX nh.rtnhIfindex, carried nh NH_ATTR_WEIGHT nh.rtnhWeight,
    carried nh NH_ATTR_REALMS nh.rtnhRealms, carried nh NH_ATTR_GATEWAY (addrKey nh.rtnhGateway),
    carried nh NH_ATTR_NEWDST (addrKey nh.rtnhNewdst), carried nh NH_ATTR_VIA (addrKey nh.rtnhVia),
    carried nh NH_ATTR_ENCAP (encapKey nh.rtnhEncap), carried nh NH_ATTR_FLAGS nh.rtnhFlags)

/-- **Comparing nexthops** over all attributes is comparing their keys. -/
theorem nhSame_iff (a b : RtnlNexthop) : nhSame a b = true ↔ nhKey a = nhKey b := by
  unfold nhSame rtnlRouteNhCompare nhKey
  simp only [Bool.false_eq_true, if_false, decide_eq_true_eq, BitVec.ofNat_eq_ofNat, BitVec.or_eq_zero_iff, Prod.mk.injEq, and_assoc]
  rw [nhDiff_eq_zero_iff 2 (by decide) (decide_eq_false_iff_not.trans not_not),
    nhDiff_eq_zero_iff 1 (by decide) (decide_eq_false_iff_not.trans not_not),
    nhDiff_eq_zero_iff 4 (by decide) (decide_eq_false_iff_not.trans not_not),
    nhDiff_eq_zero_iff 3 (by decide) (nlAddrCmp_eq_false_iff _ _),
    nhDiff_eq_zero_iff 5 (by decide) (nlAddrCmp_eq_false_iff _ _),
    nhDiff_eq_zero_iff 6 (by decide) (nlAddrCmp_eq_false_iff _ _),
    nhDiff_eq_zero_iff 7 (by decide) (nhEncapCompare_eq_false_iff _ _),
    nhDiff_eq_zero_iff 0 (by decide) (decide_eq_false_iff_not.trans not_not)]

/-- the realms and the encapsulation, as far as they are set, are what a new nexthop has -/
def Clonable (nh : RtnlNexthop) : Prop :=
  (nh.ceMask &&& NH_ATTR_REALMS = 0 ∨ nh.rtnhRealms = 0) ∧ (nh.ceMask &&& NH_ATTR_ENCAP = 0 ∨ nh.rtnhEncap = none)

instance (nh : RtnlNexthop) : Decidable (Clonable nh) := inferInstanceAs (Decidable (_ ∧ _))

/-- a clone compares equal to its source just when there is nothing in the source that is not copied -/
theorem clone_same_iff (nh : RtnlNexthop) : nhKey (rtnlRouteNhClone nh) = nhKey nh ↔ Clonable nh := by
  unfold nhKey Clonable carried rtnlRouteNhClone rtnlRouteNhAlloc
  simp only [Prod.mk.injEq, true_and, and_true]
  refine and_congr ?_ ?_
  · by_cases h : nh.ceMask &&& NH_ATTR_REALMS = 0
    · simp [h]
    · simp only [h, if_false, Option.some.injEq, false_or]
      exact eq_comm
  · by_cases h : nh.ceMask &&& NH_ATTR_ENCAP = 0
    · simp [h]
    · simp only [h, if_false, Option.some.injEq, false_or]
      cases nh.rtnhEncap with
      | none => simp
      | some e => simp [encapKey]

end Libnl.Route
