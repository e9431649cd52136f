/-
Links (`lib/route/link.c`): identity, comparison and hash key.

A link is identified by its index and its family. What belongs to an address family or to a kind of link is compared by the
module that knows it; modules are registered at run time, so they are part of the setting here (`LinkModules`).
-/
import Mathlib.Tactic
import Libnl.Cache.Object
import Libnl.Cache.Hash
import Libnl.Route.Addr

namespace Libnl.Link

open Object Addr Hash

def LINK_ATTR_MTU : BitVec 64 := 1 <<< 0
def LINK_ATTR_LINK : BitVec 64 := 1 <<< 1
def LINK_ATTR_TXQLEN : BitVec 64 := 1 <<< 2
def LINK_ATTR_WEIGHT : BitVec 64 := 1 <<< 3
def LINK_ATTR_MASTER : BitVec 64 := 1 <<< 4
def LINK_ATTR_QDISC : BitVec 64 := 1 <<< 5
def LINK_ATTR_ADDR : BitVec 64 := 1 <<< 7
def LINK_ATTR_BRD : BitVec 64 := 1 <<< 8
def LINK_ATTR_FLAGS : BitVec 64 := 1 <<< 9
def LINK_ATTR_IFNAME : BitVec 64 := 1 <<< 10
def LINK_ATTR_IFINDEX : BitVec 64 := 1 <<< 11
def LINK_ATTR_FAMILY : BitVec 64 := 1 <<< 12
def LINK_ATTR_OPERSTATE : BitVec 64 := 1 <<< 16
def LINK_ATTR_LINKMODE : BitVec 64 := 1 <<< 17
def LINK_ATTR_LINKINFO : BitVec 64 := 1 <<< 18
def LINK_ATTR_IFALIAS : BitVec 64 := 1 <<< 19
def LINK_ATTR_NUM_VF : BitVec 64 := 1 <<< 20
def LINK_ATTR_PROMISCUITY : BitVec 64 := 1 <<< 21
def LINK_ATTR_NUM_TX_QUEUES : BitVec 64 := 1 <<< 22
def LINK_ATTR_NUM_RX_QUEUES : BitVec 64 := 1 <<< 23
def LINK_ATTR_GROUP : BitVec 64 := 1 <<< 24
def LINK_ATTR_PROTINFO : BitVec 64 := 1 <<< 26
def LINK_ATTR_LINK_NETNSID : BitVec 64 := 1 <<< 32

/-- the fields of `struct rtnl_link` that identity and comparison read; strings up to their end -/
structure RtnlLink (β γ : Type) where
  lName : List UInt8
  lFamily : BitVec 32
  lIndex : BitVec 32
  lFlags : BitVec 32
  lMtu : BitVec 32
  lLink : BitVec 32
  lLinkNetnsid : ℤ
  lTxqlen : BitVec 32
  lWeight : BitVec 32
  lMaster : BitVec 32
  lAddr : Option NlAddr
  lBcast : Option NlAddr
  lQdisc : List UInt8
  lFlagMask : BitVec 32
  lNumVf : BitVec 32
  lOperstate : BitVec 8
  lLinkmode : BitVec 8
  /-- the module of the kind of link, by its number -/
  lInfoOps : Option ℕ
  lAfData : BitVec 32 → Option β
  lInfo : Option γ
  lIfalias : List UInt8
  lPromiscuity : BitVec 32
  lNumTxQueues : BitVec 32
  lNumRxQueues : BitVec 32
  lGroup : BitVec 32

variable {β γ : Type}

/-- the comparisons that modules bring -/
structure LinkModules (β γ : Type) where
  /-- the module of an address family, if there is one, and its `ao_compare` -/
  afOps : BitVec 32 → Option (Option (ObjVal (RtnlLink β γ) → ObjVal (RtnlLink β γ) → ℤ))
  /-- the `io_compare` of a kind of link -/
  ioCompare : ℕ → Option (ObjVal (RtnlLink β γ) → ObjVal (RtnlLink β γ) → ℕ → ℤ)

/-- `rtnl_link_af_data_compare` -/
def rtnlLinkAfDataCompare (mods : LinkModules β γ) (a b : ObjVal (RtnlLink β γ)) (family : BitVec 32) : ℤ :=
  if a.data.lAfData family |>.isNone then if b.data.lAfData family |>.isNone then 0 else -1
  else if b.data.lAfData family |>.isNone then -1
  else match mods.afOps family with
    | some (some aoCompare) => aoCompare a b
    | some none => -1
    | none => -1

/-- `rtnl_link_info_data_compare` -/
def rtnlLinkInfoDataCompare (mods : LinkModules β γ) (a b : ObjVal (RtnlLink β γ)) (flags : ℕ) : ℤ :=
  if a.data.lInfoOps ≠ b.data.lInfoOps then -1
  else match a.data.lInfoOps.bind mods.ioCompare with
    | some ioCompare => ioCompare a b flags
    | none => 0

/-- `link_keygen`; the hash of a byte string is a parameter -/
def linkKeygen (nlHash : List UInt8 → ℕ) (obj : ObjVal (RtnlLink β γ)) (tableSz : ℕ) : ℕ :=
  nlHash (bytes32 obj.data.lIndex ++ bytes32 obj.data.lFamily) % tableSz

/-- `link_compare` -/
def linkCompare (mods : LinkModules β γ) (a b : ObjVal (RtnlLink β γ)) (attrs : BitVec 64) (flags : ℕ) : BitVec 64 :=
  let diff := attrDiff attrs LINK_ATTR_IFINDEX a b (decide (a.data.lIndex ≠ b.data.lIndex)) |||
    attrDiff attrs LINK_ATTR_MTU a b (decide (a.data.lMtu ≠ b.data.lMtu)) |||
    attrDiff attrs LINK_ATTR_LINK a b (decide (a.data.lLink ≠ b.data.lLink)) |||
    attrDiff attrs LINK_ATTR_LINK_NETNSID a b (decide (a.data.lLinkNetnsid ≠ b.data.lLinkNetnsid)) |||
    attrDiff attrs LINK_ATTR_TXQLEN a b (decide (a.data.lTxqlen ≠ b.data.lTxqlen)) |||
    attrDiff attrs LINK_ATTR_WEIGHT a b (decide (a.data.lWeight ≠ b.data.lWeight)) |||
    attrDiff attrs LINK_ATTR_MASTER a b (decide (a.data.lMaster ≠ b.data.lMaster)) |||
    attrDiff attrs LINK_ATTR_FAMILY a b (decide (a.data.lFamily ≠ b.data.lFamily)) |||
    attrDiff attrs LINK_ATTR_OPERSTATE a b (decide (a.data.lOperstate ≠ b.data.lOperstate)) |||
    attrDiff attrs LINK_ATTR_LINKMODE a b (decide (a.data.lLinkmode ≠ b.data.lLinkmode)) |||
    attrDiff attrs LINK_ATTR_QDISC a b (decide (a.data.lQdisc ≠ b.data.lQdisc)) |||
    attrDiff attrs LINK_ATTR_IFNAME a b (decide (a.data.lName ≠ b.data.lName)) |||
    attrDiff attrs LINK_ATTR_ADDR a b (nlAddrCmp a.data.lAddr b.data.lAddr) |||
    attrDiff attrs LINK_ATTR_BRD a b (nlAddrCmp a.data.lBcast b.data.lBcast) |||
    attrDiff attrs LINK_ATTR_IFALIAS a b (decide (a.data.lIfalias ≠ b.data.lIfalias)) |||
    attrDiff attrs LINK_ATTR_NUM_VF a b (decide (a.data.lNumVf ≠ b.data.lNumVf)) |||
    attrDiff attrs LINK_ATTR_PROMISCUITY a b (decide (a.data.lPromiscuity ≠ b.data.lPromiscuity)) |||
    attrDiff attrs LINK_ATTR_NUM_TX_QUEUES a b (decide (a.data.lNumTxQueues ≠ b.data.lNumTxQueues)) |||
    attrDiff attrs LINK_ATTR_NUM_RX_QUEUES a b (decide (a.data.lNumRxQueues ≠ b.data.lNumRxQueues)) |||
    attrDiff attrs LINK_ATTR_GROUP a b (decide (a.data.lGroup ≠ b.data.lGroup)) |||
    (if flags &&& LOOSE_COMPARISON ≠ 0 then
      attrDiff attrs LINK_ATTR_FLAGS a b (decide ((a.data.lFlags ^^^ b.data.lFlags) &&& b.data.lFlagMask ≠ 0))
    else attrDiff attrs LINK_ATTR_FLAGS a b (decide (a.data.lFlags ≠ b.data.lFlags)))
  if a.data.lFamily = b.data.lFamily ∧ rtnlLinkAfDataCompare mods a b a.data.lFamily ≠ 0 then
    diff ||| attrDiff attrs LINK_ATTR_PROTINFO a b true
  else diff ||| attrDiff attrs LINK_ATTR_LINKINFO a b (decide (rtnlLinkInfoDataCompare mods a b flags ≠ 0))

/-- `link_obj_ops`, less what plays no part in identity -/
def linkObjOps (mods : LinkModules β γ) (nlHash : List UInt8 → ℕ) : ObjectOps (RtnlLink β γ) where
  ooIdAttrs := (LINK_ATTR_IFINDEX ||| LINK_ATTR_FAMILY).setWidth 32
  ooIdAttrsGet := none
  ooCompare := some (linkCompare mods)
  ooUpdate := none
  ooKeygen := some (linkKeygen nlHash)
  ooClone := none

end Libnl.Link
