/-
Neighbours (`lib/route/neigh.c`): identity and comparison.

Which attributes identify a neighbour depends on what it says: for a bridge entry (`AF_BRIDGE`) on whether it is the
device's own (`NTF_SELF`), and then on which attributes it carries.
-/
import Mathlib.Tactic
import Libnl.Cache.Object
import Libnl.Route.Addr

namespace Libnl.Neigh

open Object Addr

def NEIGH_ATTR_FLAGS : BitVec 64 := 0x01
def NEIGH_ATTR_STATE : BitVec 64 := 0x02
def NEIGH_ATTR_LLADDR : BitVec 64 := 0x04
def NEIGH_ATTR_DST : BitVec 64 := 0x08
def NEIGH_ATTR_IFINDEX : BitVec 64 := 0x20
def NEIGH_ATTR_FAMILY : BitVec 64 := 0x40
def NEIGH_ATTR_TYPE : BitVec 64 := 0x80
def NEIGH_ATTR_MASTER : BitVec 64 := 0x200
def NEIGH_ATTR_VLAN : BitVec 64 := 0x400

def AF_BRIDGE : ℕ := 7
def NTF_SELF : BitVec 8 := 0x02

/-- the fields of `struct rtnl_neigh` that identity and comparison read -/
structure RtnlNeigh where
  nFamily : ℕ
  nIfindex : ℕ
  nState : BitVec 16
  nFlags : BitVec 8
  nType : ℕ
  nLladdr : Option NlAddr
  nDst : Option NlAddr
  nStateMask : BitVec 32
  nFlagMask : BitVec 32
  nMaster : ℕ
  nVlan : ℕ
deriving DecidableEq

/-- the bytes of a 32-bit field -/
def bytes32 (n : ℕ) : List UInt8 :=
  [UInt8.ofNat n, UInt8.ofNat (n / 256), UInt8.ofNat (n / 65536), UInt8.ofNat (n / 16777216)]

/-- `neigh_keygen`; the hash of a byte string is a parameter -/
def neighKeygen (nlHash : List UInt8 → ℕ) (obj : ObjVal RtnlNeigh) (tableSz : ℕ) : ℕ :=
  let neigh := obj.data
  let addr := if neigh.nFamily = AF_BRIDGE then neigh.nLladdr else neigh.nDst
  let vlan := if neigh.nFamily = AF_BRIDGE then neigh.nVlan else 0
  let ifindex :=
    if neigh.nFamily = AF_BRIDGE then
      if neigh.nFlags &&& NTF_SELF ≠ 0 then neigh.nIfindex else neigh.nMaster
    else neigh.nIfindex
  let key := bytes32 neigh.nFamily ++ bytes32 ifindex ++ [UInt8.ofNat vlan, UInt8.ofNat (vlan / 256)] ++
    (addr.map NlAddr.aAddr).getD []
  nlHash key % tableSz

def neighCompare (a b : ObjVal RtnlNeigh) (attrs : BitVec 64) (flags : ℕ) : BitVec 64 :=
  let diff := attrDiff attrs NEIGH_ATTR_IFINDEX a b (decide (a.data.nIfindex ≠ b.data.nIfindex)) |||
    attrDiff attrs NEIGH_ATTR_FAMILY a b (decide (a.data.nFamily ≠ b.data.nFamily)) |||
    attrDiff attrs NEIGH_ATTR_TYPE a b (decide (a.data.nType ≠ b.data.nType)) |||
    attrDiff attrs NEIGH_ATTR_LLADDR a b (nlAddrCmp a.data.nLladdr b.data.nLladdr) |||
    attrDiff attrs NEIGH_ATTR_DST a b (nlAddrCmp a.data.nDst b.data.nDst) |||
    attrDiff attrs NEIGH_ATTR_MASTER a b (decide (a.data.nMaster ≠ b.data.nMaster)) |||
    attrDiff attrs NEIGH_ATTR_VLAN a b (decide (a.data.nVlan ≠ b.data.nVlan))
  if flags &&& LOOSE_COMPARISON ≠ 0 then
    diff |||
      attrDiff attrs NEIGH_ATTR_STATE a b
        (decide ((a.data.nState ^^^ b.data.nState).setWidth 32 &&& b.data.nStateMask ≠ 0)) |||
      attrDiff attrs NEIGH_ATTR_FLAGS a b
        (decide ((a.data.nFlags ^^^ b.data.nFlags).setWidth 32 &&& b.data.nFlagMask ≠ 0))
  else
    diff |||
      attrDiff attrs NEIGH_ATTR_STATE a b (decide (a.data.nState ≠ b.data.nState)) |||
      attrDiff attrs NEIGH_ATTR_FLAGS a b (decide (a.data.nFlags ≠ b.data.nFlags))

/-- `oo_id_attrs` of neighbours -/
def neighIdAttrs : BitVec 64 := NEIGH_ATTR_IFINDEX ||| NEIGH_ATTR_DST ||| NEIGH_ATTR_FAMILY

def neighIdAttrsGet (obj : ObjVal RtnlNeigh) : BitVec 32 :=
  let neigh := obj.data
  let attrs :=
    if neigh.nFamily = AF_BRIDGE then
      if neigh.nFlags &&& NTF_SELF ≠ 0 then
        NEIGH_ATTR_LLADDR ||| NEIGH_ATTR_FAMILY ||| NEIGH_ATTR_IFINDEX |||
          (if obj.ceMask &&& NEIGH_ATTR_DST ≠ 0 then NEIGH_ATTR_DST else 0) |||
          (if obj.ceMask &&& NEIGH_ATTR_VLAN ≠ 0 then NEIGH_ATTR_VLAN else 0)
      else NEIGH_ATTR_LLADDR ||| NEIGH_ATTR_FAMILY ||| NEIGH_ATTR_MASTER ||| NEIGH_ATTR_VLAN
    else neighIdAttrs
  attrs.setWidth 32

/-- `neigh_obj_ops`; cloning copies the addresses, so a clone says the same -/
def neighObjOps (nlHash : List UInt8 → ℕ) : ObjectOps RtnlNeigh where
  ooIdAttrs := neighIdAttrs.setWidth 32
  ooIdAttrsGet := some neighIdAttrsGet
  ooCompare := some neighCompare
  ooUpdate := none
  ooKeygen := some (neighKeygen nlHash)
  ooClone := none

end Libnl.Neigh
