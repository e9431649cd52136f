/-
Sockets (`lib/idiag/idiag_msg_obj.c`): identity, comparison and hash key.

A socket is identified by its family, its addresses and its ports. Its hash key holds hashes of the addresses.
-/
import Mathlib.Tactic
import Libnl.Cache.Object
import Libnl.Cache.Hash
import Libnl.Route.Addr

namespace Libnl.Idiag

open Object Addr Hash

def IDIAGNL_ATTR_FAMILY : BitVec 64 := 0x1 <<< 1
def IDIAGNL_ATTR_STATE : BitVec 64 := 0x1 <<< 2
def IDIAGNL_ATTR_TIMER : BitVec 64 := 0x1 <<< 3
def IDIAGNL_ATTR_RETRANS : BitVec 64 := 0x1 <<< 4
def IDIAGNL_ATTR_SPORT : BitVec 64 := 0x1 <<< 5
def IDIAGNL_ATTR_DPORT : BitVec 64 := 0x1 <<< 6
def IDIAGNL_ATTR_SRC : BitVec 64 := 0x1 <<< 7
def IDIAGNL_ATTR_DST : BitVec 64 := 0x1 <<< 8
def IDIAGNL_ATTR_IFINDEX : BitVec 64 := 0x1 <<< 9
def IDIAGNL_ATTR_EXPIRES : BitVec 64 := 0x1 <<< 10
def IDIAGNL_ATTR_RQUEUE : BitVec 64 := 0x1 <<< 11
def IDIAGNL_ATTR_WQUEUE : BitVec 64 := 0x1 <<< 12
def IDIAGNL_ATTR_UID : BitVec 64 := 0x1 <<< 13
def IDIAGNL_ATTR_INODE : BitVec 64 := 0x1 <<< 14
def IDIAGNL_ATTR_TOS : BitVec 64 := 0x1 <<< 15
def IDIAGNL_ATTR_TCLASS : BitVec 64 := 0x1 <<< 16
def IDIAGNL_ATTR_SHUTDOWN : BitVec 64 := 0x1 <<< 17
def IDIAGNL_ATTR_CONG : BitVec 64 := 0x1 <<< 18
def IDIAGNL_ATTR_MEMINFO : BitVec 64 := 0x1 <<< 19
def IDIAGNL_ATTR_VEGASINFO : BitVec 64 := 0x1 <<< 20
def IDIAGNL_ATTR_TCPINFO : BitVec 64 := 0x1 <<< 21
def IDIAGNL_ATTR_SKMEMINFO : BitVec 64 := 0x1 <<< 22

structure IdiagnlMeminfo where
  idiagRmem : BitVec 32
  idiagWmem : BitVec 32
  idiagFmem : BitVec 32
  idiagTmem : BitVec 32
deriving DecidableEq

structure IdiagnlVegasinfo where
  tcpvEnabled : BitVec 32
  tcpvRttcnt : BitVec 32
  tcpvRtt : BitVec 32
  tcpvMinrtt : BitVec 32
deriving DecidableEq

/-- `struct idiagnl_msg`; structures that are compared as memory are their bytes, strings end before the zero -/
structure IdiagnlMsg where
  idiagFamily : BitVec 8
  idiagState : BitVec 8
  idiagTimer : BitVec 8
  idiagRetrans : BitVec 8
  idiagSport : BitVec 16
  idiagDport : BitVec 16
  idiagSrc : Option NlAddr
  idiagDst : Option NlAddr
  idiagIfindex : BitVec 32
  idiagExpires : BitVec 32
  idiagRqueue : BitVec 32
  idiagWqueue : BitVec 32
  idiagUid : BitVec 32
  idiagInode : BitVec 32
  idiagTos : BitVec 8
  idiagTclass : BitVec 8
  idiagShutdown : BitVec 8
  idiagCong : List UInt8
  /-- where they are not set, `NULL` -/
  idiagMeminfo : Option IdiagnlMeminfo
  idiagVegasinfo : Option IdiagnlVegasinfo
  idiagTcpinfo : List UInt8
  idiagSkmeminfo : List (BitVec 32)
deriving DecidableEq

/-- `idiagnl_compare`; the difference between two memory or vegas objects is made of one comparison of all their fields -/
def idiagnlCompare (a b : ObjVal IdiagnlMsg) (attrs : BitVec 64) (_flags : ℕ) : BitVec 64 :=
  attrDiff attrs IDIAGNL_ATTR_FAMILY a b (decide (a.data.idiagFamily ≠ b.data.idiagFamily)) |||
    attrDiff attrs IDIAGNL_ATTR_STATE a b (decide (a.data.idiagState ≠ b.data.idiagState)) |||
    attrDiff attrs IDIAGNL_ATTR_TIMER a b (decide (a.data.idiagTimer ≠ b.data.idiagTimer)) |||
    attrDiff attrs IDIAGNL_ATTR_RETRANS a b (decide (a.data.idiagRetrans ≠ b.data.idiagRetrans)) |||
    attrDiff attrs IDIAGNL_ATTR_SPORT a b (decide (a.data.idiagSport ≠ b.data.idiagSport)) |||
    attrDiff attrs IDIAGNL_ATTR_DPORT a b (decide (a.data.idiagDport ≠ b.data.idiagDport)) |||
    attrDiff attrs IDIAGNL_ATTR_SRC a b (nlAddrCmp a.data.idiagSrc b.data.idiagSrc) |||
    attrDiff attrs IDIAGNL_ATTR_DST a b (nlAddrCmp a.data.idiagDst b.data.idiagDst) |||
    attrDiff attrs IDIAGNL_ATTR_IFINDEX a b (decide (a.data.idiagIfindex ≠ b.data.idiagIfindex)) |||
    attrDiff attrs IDIAGNL_ATTR_EXPIRES a b (decide (a.data.idiagExpires ≠ b.data.idiagExpires)) |||
    attrDiff attrs IDIAGNL_ATTR_RQUEUE a b (decide (a.data.idiagRqueue ≠ b.data.idiagRqueue)) |||
    attrDiff attrs IDIAGNL_ATTR_WQUEUE a b (decide (a.data.idiagWqueue ≠ b.data.idiagWqueue)) |||
    attrDiff attrs IDIAGNL_ATTR_UID a b (decide (a.data.idiagUid ≠ b.data.idiagUid)) |||
    attrDiff attrs IDIAGNL_ATTR_INODE a b (decide (a.data.idiagInode ≠ b.data.idiagInode)) |||
    attrDiff attrs IDIAGNL_ATTR_TOS a b (decide (a.data.idiagTos ≠ b.data.idiagTos)) |||
    attrDiff attrs IDIAGNL_ATTR_TCLASS a b (decide (a.data.idiagTclass ≠ b.data.idiagTclass)) |||
    attrDiff attrs IDIAGNL_ATTR_SHUTDOWN a b (decide (a.data.idiagShutdown ≠ b.data.idiagShutdown)) |||
    attrDiff attrs IDIAGNL_ATTR_CONG a b (decide (a.data.idiagCong ≠ b.data.idiagCong)) |||
    attrDiff attrs IDIAGNL_ATTR_MEMINFO a b (decide (a.data.idiagMeminfo ≠ b.data.idiagMeminfo)) |||
    attrDiff attrs IDIAGNL_ATTR_VEGASINFO a b (decide (a.data.idiagVegasinfo ≠ b.data.idiagVegasinfo)) |||
    attrDiff attrs IDIAGNL_ATTR_TCPINFO a b (decide (a.data.idiagTcpinfo ≠ b.data.idiagTcpinfo)) |||
    attrDiff attrs IDIAGNL_ATTR_SKMEMINFO a b (decide (a.data.idiagSkmeminfo ≠ b.data.idiagSkmeminfo))

/-- the hash of an address in the key; it is kept in 32 bits -/
def addrHash (nlHash : List UInt8 → ℕ) (addr : Option NlAddr) : BitVec 32 :=
  match addr with
  | some addr => BitVec.ofNat 32 (nlHash addr.aAddr)
  | none => 0

/-- `idiagnl_keygen`; the hash of a byte string is a parameter -/
def idiagnlKeygen (nlHash : List UInt8 → ℕ) (obj : ObjVal IdiagnlMsg) (tableSz : ℕ) : ℕ :=
  let msg := obj.data
  let key := [UInt8.ofNat msg.idiagFamily.toNat] ++ bytes32 (addrHash nlHash msg.idiagSrc) ++
    bytes32 (addrHash nlHash msg.idiagDst) ++ bytes16 msg.idiagSport ++ bytes16 msg.idiagDport
  nlHash key % tableSz

/-- `oo_id_attrs` of sockets -/
def idiagnlIdAttrs : BitVec 64 :=
  IDIAGNL_ATTR_FAMILY ||| IDIAGNL_ATTR_SRC ||| IDIAGNL_ATTR_DST ||| IDIAGNL_ATTR_SPORT ||| IDIAGNL_ATTR_DPORT

/-- `idiagnl_msg_obj_ops`, less what plays no part in identity -/
def idiagnlMsgObjOps (nlHash : List UInt8 → ℕ) : ObjectOps IdiagnlMsg where
  ooIdAttrs := idiagnlIdAttrs.setWidth 32
  ooIdAttrsGet := none
  ooCompare := some idiagnlCompare
  ooUpdate := none
  ooKeygen := some (idiagnlKeygen nlHash)
  ooClone := none

end Libnl.Idiag
