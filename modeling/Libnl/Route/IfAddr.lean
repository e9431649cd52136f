/-
Addresses of interfaces (`lib/route/addr.c`): the object, and address messages.

A message has a fixed header, `struct ifaddrmsg`, with the prefix length, and up to two attributes for addresses. In IPv4
messages `IFA_LOCAL` is the local address and `IFA_ADDRESS` the address of the peer, which is the local one if there is no
other. In other messages `IFA_ADDRESS` alone is the local address. The prefix length goes to one of the addresses.

The header has eight bits for the flags; `IFA_FLAGS` has all of them. The parser also looks up the link with the index of
the message, for a reference beside the index, which is left out.
-/
import Mathlib.Tactic
import Libnl.Message.Fields
import Libnl.Cache.Attributes
import Libnl.Route.Addr

namespace Libnl.IfAddr

open Bytes Msg Attr AttrWalk AttrStream Writer Fields Mask Object
open Addr Addr.Family

/-! ## Data -/

def ADDR_ATTR_FAMILY : BitVec 64 := 0x0001
def ADDR_ATTR_PREFIXLEN : BitVec 64 := 0x0002
def ADDR_ATTR_FLAGS : BitVec 64 := 0x0004
def ADDR_ATTR_SCOPE : BitVec 64 := 0x0008
def ADDR_ATTR_IFINDEX : BitVec 64 := 0x0010
def ADDR_ATTR_LABEL : BitVec 64 := 0x0020
def ADDR_ATTR_CACHEINFO : BitVec 64 := 0x0040
def ADDR_ATTR_PEER : BitVec 64 := 0x0080
def ADDR_ATTR_LOCAL : BitVec 64 := 0x0100
def ADDR_ATTR_BROADCAST : BitVec 64 := 0x0200
def ADDR_ATTR_MULTICAST : BitVec 64 := 0x0400
def ADDR_ATTR_ANYCAST : BitVec 64 := 0x0800
def ADDR_ATTR_ALIAS : BitVec 64 := 0x1000

def IFA_ADDRESS : ℕ := 1
def IFA_LOCAL : ℕ := 2
def IFA_LABEL : ℕ := 3
def IFA_BROADCAST : ℕ := 4
def IFA_ANYCAST : ℕ := 5
def IFA_CACHEINFO : ℕ := 6
def IFA_MULTICAST : ℕ := 7
def IFA_FLAGS : ℕ := 8
def IFA_ALIAS : ℕ := 10
def IFA_MAX : ℕ := 10

def IFNAMSIZ : ℕ := 16

def RT_SCOPE_UNIVERSE : BitVec 8 := 0
def RT_SCOPE_HOST : BitVec 8 := 254

/-- `struct rtnl_addr_cacheinfo` -/
structure RtnlAddrCacheinfo where
  aciPrefered : BitVec 32
  aciValid : BitVec 32
  aciCstamp : BitVec 32
  aciTstamp : BitVec 32
deriving DecidableEq, Repr

/-- `struct rtnl_addr`; names are the strings in the arrays -/
structure RtnlAddr where
  aFamily : BitVec 8
  aPrefixlen : BitVec 8
  aScope : BitVec 8
  aFlags : BitVec 32
  aIfindex : BitVec 32
  aPeer : Option NlAddr
  aLocal : Option NlAddr
  aBcast : Option NlAddr
  aAnycast : Option NlAddr
  aMulticast : Option NlAddr
  aCacheinfo : RtnlAddrCacheinfo
  aAlias : List UInt8
  aLabel : List UInt8
deriving DecidableEq

abbrev AddrVal := ObjVal RtnlAddr

/-! ## Messages -/

/-- `struct ifaddrmsg` -/
structure IfAddrMsg where
  ifaFamily : BitVec 8
  ifaPrefixlen : BitVec 8
  ifaFlags : BitVec 8
  ifaScope : BitVec 8
  ifaIndex : BitVec 32
deriving DecidableEq

/-- `struct ifa_cacheinfo` -/
structure IfaCacheinfo where
  ifaPrefered : BitVec 32
  ifaValid : BitVec 32
  cstamp : BitVec 32
  tstamp : BitVec 32
deriving DecidableEq

def addrPolicy (type : ℕ) : NlaPolicy :=
  if type ∈ [IFA_ALIAS, IFA_LABEL] then ⟨.string, 0, IFNAMSIZ⟩
  else if type = IFA_CACHEINFO then ⟨.unspec, 16, 0⟩
  else ⟨.unspec, 0, 0⟩

/-- what the attributes of a message say -/
structure AddrAttrs where
  localAddr : Option (List UInt8)
  address : Option (List UInt8)
  aliasName : Option (List UInt8)
  label : Option (List UInt8)
  broadcast : Option (List UInt8)
  cacheinfo : Option IfaCacheinfo
  flags : Option (BitVec 32)
  multicast : Option (List UInt8)
  anycast : Option (List UInt8)
deriving DecidableEq

section

variable [HostOrder]

def IfAddrMsg.bytes (ifa : IfAddrMsg) : List UInt8 :=
  [UInt8.ofBitVec ifa.ifaFamily, UInt8.ofBitVec ifa.ifaPrefixlen, UInt8.ofBitVec ifa.ifaFlags, UInt8.ofBitVec ifa.ifaScope] ++
    u32Bytes ifa.ifaIndex.toNat

def readIfAddrMsg (buf : Mem) : IfAddrMsg :=
  ⟨(buf 16).toBitVec, (buf 17).toBitVec, (buf 18).toBitVec, (buf 19).toBitVec, BitVec.ofNat 32 (getU32 buf 20)⟩

def IfaCacheinfo.bytes (ca : IfaCacheinfo) : List UInt8 :=
  u32Bytes ca.ifaPrefered.toNat ++ u32Bytes ca.ifaValid.toNat ++ u32Bytes ca.cstamp.toNat ++ u32Bytes ca.tstamp.toNat

def nlaCacheinfo (buf : Mem) (nla : ℕ) : IfaCacheinfo :=
  ⟨BitVec.ofNat 32 (getU32 buf (nlaData nla)), BitVec.ofNat 32 (getU32 buf (nlaData nla + 4)),
    BitVec.ofNat 32 (getU32 buf (nlaData nla + 8)), BitVec.ofNat 32 (getU32 buf (nlaData nla + 12))⟩

def readAddrAttrs (buf : Mem) (tb : Index) : AddrAttrs where
  localAddr := (tb IFA_LOCAL).map (nlaBytes buf)
  address := (tb IFA_ADDRESS).map (nlaBytes buf)
  aliasName := (tb IFA_ALIAS).map fun a => nlaStrlcpy buf a IFNAMSIZ
  label := (tb IFA_LABEL).map fun a => nlaStrlcpy buf a IFNAMSIZ
  broadcast := (tb IFA_BROADCAST).map (nlaBytes buf)
  cacheinfo := (tb IFA_CACHEINFO).map (nlaCacheinfo buf)
  flags := (tb IFA_FLAGS).map (nlaGetU32 buf)
  multicast := (tb IFA_MULTICAST).map (nlaBytes buf)
  anycast := (tb IFA_ANYCAST).map (nlaBytes buf)

end

/-- the local address and the peer -/
def localAndPeer (family prefixlen : BitVec 8) (localAddr address : Option (List UInt8)) : Option NlAddr × Option NlAddr :=
  let build := nlAddrBuild (family.toNat : ℤ)
  let withLen := fun addr => nlAddrSetPrefixlen addr prefixlen
  if (family.toNat : ℤ) = AF_INET then
    let loc := build (localAddr.getD [0, 0, 0, 0])
    let peer := build (address.getD [0, 0, 0, 0])
    -- a peer that is the local address is no peer, for backward compatibility
    (some (withLen loc), if nlAddrCmp (some loc) (some peer) then some peer else none)
  else
    match localAddr, address with
    | none, none => (none, none)
    | some l, none => (some (withLen (build l)), none)
    | none, some a => (some (withLen (build a)), none)
    | some l, some a =>
      if nlAddrCmp (some (build a)) (some (build l)) then (some (build l), some (withLen (build a)))
      else (some (withLen (build a)), none)

/-- all flags: those of the attribute, or of the header -/
def flagsOf (ifa : IfAddrMsg) (a : AddrAttrs) : BitVec 32 := a.flags.getD (ifa.ifaFlags.setWidth 32)

/-- the lifetimes and timestamps of the object -/
def infoOf (ca : Option IfaCacheinfo) : RtnlAddrCacheinfo :=
  (ca.map fun ca => ⟨ca.ifaPrefered, ca.ifaValid, ca.cstamp, ca.tstamp⟩).getD ⟨0, 0, 0, 0⟩

/-- the attributes of the object, each with whether the message has it -/
def addrBits (ifa : IfAddrMsg) (a : AddrAttrs) : List (BitVec 64 × Bool) :=
  let addrs := localAndPeer ifa.ifaFamily ifa.ifaPrefixlen a.localAddr a.address
  [(ADDR_ATTR_FAMILY, true), (ADDR_ATTR_PREFIXLEN, true), (ADDR_ATTR_FLAGS, true), (ADDR_ATTR_SCOPE, true),
    (ADDR_ATTR_IFINDEX, true), (ADDR_ATTR_ALIAS, a.aliasName.isSome), (ADDR_ATTR_LABEL, a.label.isSome),
    (ADDR_ATTR_CACHEINFO, a.cacheinfo.isSome), (ADDR_ATTR_LOCAL, addrs.1.isSome), (ADDR_ATTR_PEER, addrs.2.isSome),
    (ADDR_ATTR_BROADCAST, a.broadcast.isSome), (ADDR_ATTR_MULTICAST, a.multicast.isSome),
    (ADDR_ATTR_ANYCAST, a.anycast.isSome)]

/-- the object a header and attributes make; what is not there stays as `calloc` left it -/
def addrOf (msgtype : ℤ) (ifa : IfAddrMsg) (a : AddrAttrs) : AddrVal where
  ceOps := 0
  ceMsgtype := msgtype
  ceMask := maskOf (addrBits ifa a)
  data :=
    let addrs := localAndPeer ifa.ifaFamily ifa.ifaPrefixlen a.localAddr a.address
    let build := nlAddrBuild (ifa.ifaFamily.toNat : ℤ)
    { aFamily := ifa.ifaFamily
      aPrefixlen := ifa.ifaPrefixlen
      aScope := ifa.ifaScope
      aFlags := flagsOf ifa a
      aIfindex := ifa.ifaIndex
      aPeer := addrs.2
      aLocal := addrs.1
      aBcast := a.broadcast.map build
      aAnycast := a.anycast.map build
      aMulticast := a.multicast.map build
      aCacheinfo := infoOf a.cacheinfo
      aAlias := a.aliasName.getD []
      aLabel := a.label.getD [] }

section

variable [HostOrder]

/-- `addr_msg_parser`: the object it hands on -/
def addrMsgParser (n : NlMsg) : Except ℤ AddrVal :=
  let (err, tb) := nlmsgParse n 8 IFA_MAX (some addrPolicy)
  if err < 0 then .error err
  else .ok (addrOf n.nlmsgType (readIfAddrMsg n.buf) (readAddrAttrs n.buf tb))

/-- the bytes of an address, for `NLA_PUT_ADDR` -/
def binaryAddr (addr : Option NlAddr) : List UInt8 := (addr.map NlAddr.aAddr).getD []

/-- the scope of the message to build -/
def addrScope (tmpl : AddrVal) : BitVec 8 :=
  if has tmpl ADDR_ATTR_SCOPE then tmpl.data.aScope
  -- compatibility
  else if (tmpl.data.aFamily.toNat : ℤ) = AF_INET ∧ has tmpl ADDR_ATTR_LOCAL ∧
      (binaryAddr tmpl.data.aLocal).getD 0 0 = 127 then RT_SCOPE_HOST
  else RT_SCOPE_UNIVERSE

/-- the header of `build_addr_msg` -/
def addrHdr (tmpl : AddrVal) : IfAddrMsg where
  ifaFamily := tmpl.data.aFamily
  ifaPrefixlen := tmpl.data.aPrefixlen
  ifaFlags := tmpl.data.aFlags.setWidth 8
  ifaScope := addrScope tmpl
  ifaIndex := tmpl.data.aIfindex

/-- the attributes of `build_addr_msg`, in its order -/
def addrFields (tmpl : AddrVal) : FieldList :=
  let ci := tmpl.data.aCacheinfo
  [(IFA_LOCAL, ifHas tmpl ADDR_ATTR_LOCAL (binaryAddr tmpl.data.aLocal)),
    (IFA_ADDRESS, if has tmpl ADDR_ATTR_PEER then some (binaryAddr tmpl.data.aPeer)
      else ifHas tmpl ADDR_ATTR_LOCAL (binaryAddr tmpl.data.aLocal)),
    (IFA_ALIAS, ifHas tmpl ADDR_ATTR_ALIAS (tmpl.data.aAlias ++ [0])),
    (IFA_LABEL, ifHas tmpl ADDR_ATTR_LABEL (tmpl.data.aLabel ++ [0])),
    (IFA_BROADCAST, ifHas tmpl ADDR_ATTR_BROADCAST (binaryAddr tmpl.data.aBcast)),
    (IFA_CACHEINFO, ifHas tmpl ADDR_ATTR_CACHEINFO (IfaCacheinfo.bytes ⟨ci.aciPrefered, ci.aciValid, 0, 0⟩)),
    -- older kernels refuse attributes they do not know
    (IFA_FLAGS, if tmpl.data.aFlags &&& ~~~0xFF ≠ 0 then some (u32Bytes tmpl.data.aFlags.toNat) else none)]

/-- `build_addr_msg`; the default size of messages is a variable of the library -/
def buildAddrMsg (defaultMsgSize : ℕ) (tmpl : AddrVal) (cmd flags : ℕ) : Except ℤ NlMsg :=
  match nlmsgAllocSimple defaultMsgSize cmd flags with
  | none => .error (-NLE_NOMEM)
  | some msg =>
    let (msg, err) := thenPut (-NLE_MSGSIZE) (nlmsgAppend msg (addrHdr tmpl).bytes 4)
      (putAll (-NLE_MSGSIZE) (leavesOf (addrFields tmpl)))
    if err < 0 then .error (-NLE_MSGSIZE) else .ok msg

end

end Libnl.IfAddr
