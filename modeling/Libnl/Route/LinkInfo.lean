/-
Link messages (`lib/route/link.c`): the attributes that every link has.

`rtnl_link_info_parse` takes them from a table that was filled under `rtln_link_policy`, and `rtnl_link_fill_info` puts
them into a message. The three go over the attributes in three orders, and not over the same: statistics, the queueing
discipline, the map and the count of carrier changes are read only, the numbers of queues are put only.

The link to fill belongs to the caller, so reading leaves what no attribute speaks of. Memory for addresses and for the
alias is always found here.
-/
import Mathlib.Tactic
import Libnl.Core.Mask
import Libnl.Message.Validate
import Libnl.Cache.Object
import Libnl.Route.Addr
import Libnl.Route.Link

namespace Libnl.LinkInfo

open Bytes Msg Attr AttrWalk AttrStream Writer Fields Mask Object
open Addr Link

/-! ## Data -/

def LINK_ATTR_MAP : BitVec 64 := 1 <<< 6
def LINK_ATTR_STATS : BitVec 64 := 1 <<< 14
def LINK_ATTR_CARRIER : BitVec 64 := 1 <<< 25
def LINK_ATTR_NS_FD : BitVec 64 := 1 <<< 29
def LINK_ATTR_NS_PID : BitVec 64 := 1 <<< 30
def LINK_ATTR_CARRIER_CHANGES : BitVec 64 := 1 <<< 34

def IFLA_ADDRESS : ℕ := 1
def IFLA_BROADCAST : ℕ := 2
def IFLA_IFNAME : ℕ := 3
def IFLA_MTU : ℕ := 4
def IFLA_LINK : ℕ := 5
def IFLA_QDISC : ℕ := 6
def IFLA_STATS : ℕ := 7
def IFLA_MASTER : ℕ := 10
def IFLA_PROTINFO : ℕ := 12
def IFLA_TXQLEN : ℕ := 13
def IFLA_MAP : ℕ := 14
def IFLA_WEIGHT : ℕ := 15
def IFLA_OPERSTATE : ℕ := 16
def IFLA_LINKMODE : ℕ := 17
def IFLA_LINKINFO : ℕ := 18
def IFLA_NET_NS_PID : ℕ := 19
def IFLA_IFALIAS : ℕ := 20
def IFLA_NUM_VF : ℕ := 21
def IFLA_VFINFO_LIST : ℕ := 22
def IFLA_STATS64 : ℕ := 23
def IFLA_AF_SPEC : ℕ := 26
def IFLA_GROUP : ℕ := 27
def IFLA_NET_NS_FD : ℕ := 28
def IFLA_PROMISCUITY : ℕ := 30
def IFLA_NUM_TX_QUEUES : ℕ := 31
def IFLA_NUM_RX_QUEUES : ℕ := 32
def IFLA_CARRIER : ℕ := 33
def IFLA_PHYS_PORT_ID : ℕ := 34
def IFLA_CARRIER_CHANGES : ℕ := 35
def IFLA_PHYS_SWITCH_ID : ℕ := 36
def IFLA_LINK_NETNSID : ℕ := 37
def IFLA_PHYS_PORT_NAME : ℕ := 38
def IFLA_GSO_MAX_SEGS : ℕ := 40
def IFLA_GSO_MAX_SIZE : ℕ := 41
def IFLA_MAX : ℕ := 51

def IFNAMSIZ : ℕ := 16
def IFQDISCSIZ : ℕ := 32
def IFALIASZ : ℕ := 256

/-- `sizeof(struct rtnl_link_ifmap)` -/
def IFMAPSIZ : ℕ := 32

def AF_UNSPEC : ℤ := 0

/-- the fields of `struct rtnl_link` that are read from these attributes or put into them; names are the strings in the
arrays -/
structure RtnlLink where
  lName : List UInt8
  lMtu : BitVec 32
  lLink : BitVec 32
  /-- the bits of an `int32_t` -/
  lLinkNetnsid : BitVec 32
  lTxqlen : BitVec 32
  lWeight : BitVec 32
  lMaster : BitVec 32
  lAddr : Option NlAddr
  lBcast : Option NlAddr
  lQdisc : List UInt8
  /-- the bytes of `struct rtnl_link_ifmap` -/
  lMap : List UInt8
  /-- the counters in the order of `struct rtnl_link_stats` -/
  lStats : List (BitVec 64)
  lOperstate : BitVec 8
  lLinkmode : BitVec 8
  lCarrier : BitVec 8
  lCarrierChanges : BitVec 32
  lIfalias : Option (List UInt8)
  lNumTxQueues : BitVec 32
  lNumRxQueues : BitVec 32
  lNsFd : BitVec 32
  lNsPid : BitVec 32
deriving DecidableEq

abbrev LinkVal := ObjVal RtnlLink

/-- `rtln_link_policy`; `struct rtnl_link_stats` is 92 bytes long up to `tx_compressed`, with 64 bits for each counter
184 -/
def rtlnLinkPolicy (type : ℕ) : NlaPolicy :=
  if type ∈ [IFLA_MTU, IFLA_TXQLEN, IFLA_LINK, IFLA_WEIGHT, IFLA_MASTER, IFLA_NUM_VF, IFLA_PROMISCUITY,
      IFLA_NUM_TX_QUEUES, IFLA_NUM_RX_QUEUES, IFLA_GSO_MAX_SEGS, IFLA_GSO_MAX_SIZE, IFLA_GROUP, IFLA_CARRIER_CHANGES,
      IFLA_NET_NS_PID, IFLA_NET_NS_FD] then ⟨.u32, 0, 0⟩
  else if type ∈ [IFLA_OPERSTATE, IFLA_LINKMODE, IFLA_CARRIER] then ⟨.u8, 0, 0⟩
  else if type ∈ [IFLA_LINKINFO, IFLA_VFINFO_LIST, IFLA_AF_SPEC] then ⟨.nested, 0, 0⟩
  else if type ∈ [IFLA_IFNAME, IFLA_PHYS_PORT_NAME] then ⟨.string, 0, IFNAMSIZ⟩
  else if type = IFLA_QDISC then ⟨.string, 0, IFQDISCSIZ⟩
  else if type = IFLA_IFALIAS then ⟨.string, 0, IFALIASZ⟩
  else if type = IFLA_STATS then ⟨.unspec, 92, 0⟩
  else if type = IFLA_STATS64 then ⟨.unspec, 184, 0⟩
  else if type = IFLA_MAP then ⟨.unspec, IFMAPSIZ, 0⟩
  else ⟨.unspec, 0, 0⟩

/-- what the attributes say that are both read and put -/
structure BaseAttrs where
  ifname : List UInt8
  txqlen : Option (BitVec 32)
  mtu : Option (BitVec 32)
  address : Option (List UInt8)
  broadcast : Option (List UInt8)
  link : Option (BitVec 32)
  linkNetnsid : Option (BitVec 32)
  weight : Option (BitVec 32)
  master : Option (BitVec 32)
  carrier : Option (BitVec 8)
  operstate : Option (BitVec 8)
  linkmode : Option (BitVec 8)
  ifalias : Option (List UInt8)
  netNsFd : Option (BitVec 32)
  netNsPid : Option (BitVec 32)
deriving DecidableEq

/-- what the attributes say that are only read -/
structure ExtraAttrs where
  stats : Option (List (BitVec 64))
  stats64 : Option (List (BitVec 64))
  qdisc : Option (List UInt8)
  map : Option (List UInt8)
  carrierChanges : Option (BitVec 32)

/-! ## Reading -/

/-- `nl_addr_guess_family` -/
def nlAddrGuessFamily (addr : NlAddr) : ℤ :=
  if addr.aAddr.length = 4 then Family.AF_INET
  else if addr.aAddr.length = 6 then Family.AF_LLC
  else if addr.aAddr.length = 16 then Family.AF_INET6
  else AF_UNSPEC

/-- an address from an attribute, with the family guessed from its length -/
def linkAddr (a : List UInt8) : NlAddr :=
  let addr := nlAddrBuild AF_UNSPEC a
  { addr with aFamily := nlAddrGuessFamily addr }

/-- `nla_memcpy`: the destination, with the payload or as much of it as is asked for -/
def nlaMemcpy (dest payload : List UInt8) (count : ℕ) : List UInt8 :=
  payload.take count ++ dest.drop (payload.take count).length

section

variable [HostOrder]

/-- `nla_strdup`, of a payload with an end in it -/
def nlaStrdup (buf : Mem) (nla : ℕ) : List UInt8 := cstr (nlaBytes buf nla)

/-- the counters of `struct rtnl_link_stats`; older kernels do not have the last -/
def linkStats (buf : Mem) (nla : ℕ) : List (BitVec 64) :=
  let counter := fun i => BitVec.ofNat 64 (getU32 buf (nlaData nla + 4 * i))
  (List.range 23).map counter ++ [if 96 ≤ nlaLen buf nla then counter 23 else 0]

/-- the counters of `struct rtnl_link_stats64`, from a copy that is zero where the payload ends -/
def linkStats64 (buf : Mem) (nla : ℕ) : List (BitVec 64) :=
  let st := nlaMemcpy (List.replicate 192 0) (nlaBytes buf nla) 192
  (List.range 24).map fun i => BitVec.ofNat 64 (getU64 (fun p => st.getD p 0) (8 * i))

def readBaseAttrs (buf : Mem) (ifname : ℕ) (tb : Index) : BaseAttrs where
  ifname := nlaStrlcpy buf ifname IFNAMSIZ
  txqlen := (tb IFLA_TXQLEN).map (nlaGetU32 buf)
  mtu := (tb IFLA_MTU).map (nlaGetU32 buf)
  address := (tb IFLA_ADDRESS).map (nlaBytes buf)
  broadcast := (tb IFLA_BROADCAST).map (nlaBytes buf)
  link := (tb IFLA_LINK).map (nlaGetU32 buf)
  linkNetnsid := (tb IFLA_LINK_NETNSID).map (nlaGetU32 buf)
  weight := (tb IFLA_WEIGHT).map (nlaGetU32 buf)
  master := (tb IFLA_MASTER).map (nlaGetU32 buf)
  carrier := (tb IFLA_CARRIER).map (nlaGetU8 buf)
  operstate := (tb IFLA_OPERSTATE).map (nlaGetU8 buf)
  linkmode := (tb IFLA_LINKMODE).map (nlaGetU8 buf)
  ifalias := (tb IFLA_IFALIAS).map (nlaStrdup buf)
  netNsFd := (tb IFLA_NET_NS_FD).map (nlaGetU32 buf)
  netNsPid := (tb IFLA_NET_NS_PID).map (nlaGetU32 buf)

def readExtraAttrs (buf : Mem) (tb : Index) : ExtraAttrs where
  stats := (tb IFLA_STATS).map (linkStats buf)
  stats64 := (tb IFLA_STATS64).map (linkStats64 buf)
  qdisc := (tb IFLA_QDISC).map fun a => nlaStrlcpy buf a IFQDISCSIZ
  map := (tb IFLA_MAP).map (nlaBytes buf)
  carrierChanges := (tb IFLA_CARRIER_CHANGES).map (nlaGetU32 buf)

end

/-- the attributes of the link, each with whether the table has it -/
def linkBits (a : BaseAttrs) (x : ExtraAttrs) : List (BitVec 64 × Bool) :=
  [(LINK_ATTR_IFNAME, true), (LINK_ATTR_STATS, x.stats.isSome || x.stats64.isSome), (LINK_ATTR_TXQLEN, a.txqlen.isSome),
    (LINK_ATTR_MTU, a.mtu.isSome), (LINK_ATTR_ADDR, a.address.isSome), (LINK_ATTR_BRD, a.broadcast.isSome),
    (LINK_ATTR_LINK, a.link.isSome), (LINK_ATTR_LINK_NETNSID, a.linkNetnsid.isSome),
    (LINK_ATTR_WEIGHT, a.weight.isSome), (LINK_ATTR_QDISC, x.qdisc.isSome), (LINK_ATTR_MAP, x.map.isSome),
    (LINK_ATTR_MASTER, a.master.isSome), (LINK_ATTR_CARRIER, a.carrier.isSome),
    (LINK_ATTR_CARRIER_CHANGES, x.carrierChanges.isSome), (LINK_ATTR_OPERSTATE, a.operstate.isSome),
    (LINK_ATTR_LINKMODE, a.linkmode.isSome), (LINK_ATTR_IFALIAS, a.ifalias.isSome), (LINK_ATTR_NS_FD, a.netNsFd.isSome),
    (LINK_ATTR_NS_PID, a.netNsPid.isSome)]

/-- the link with what the attributes say; the statistics of 64 bits come last -/
def withAttrs (link : LinkVal) (a : BaseAttrs) (x : ExtraAttrs) : LinkVal where
  ceOps := link.ceOps
  ceMsgtype := link.ceMsgtype
  ceMask := link.ceMask ||| maskOf (linkBits a x)
  data :=
    { link.data with
      lName := a.ifname
      lStats := x.stats64.getD (x.stats.getD link.data.lStats)
      lTxqlen := a.txqlen.getD link.data.lTxqlen
      lMtu := a.mtu.getD link.data.lMtu
      lAddr := (a.address.map linkAddr).or link.data.lAddr
      lBcast := (a.broadcast.map linkAddr).or link.data.lBcast
      lLink := a.link.getD link.data.lLink
      lLinkNetnsid := a.linkNetnsid.getD link.data.lLinkNetnsid
      lWeight := a.weight.getD link.data.lWeight
      lQdisc := x.qdisc.getD link.data.lQdisc
      lMap := (x.map.map fun p => nlaMemcpy link.data.lMap p IFMAPSIZ).getD link.data.lMap
      lMaster := a.master.getD link.data.lMaster
      lCarrier := a.carrier.getD link.data.lCarrier
      lCarrierChanges := x.carrierChanges.getD link.data.lCarrierChanges
      lOperstate := a.operstate.getD link.data.lOperstate
      lLinkmode := a.linkmode.getD link.data.lLinkmode
      lIfalias := a.ifalias.or link.data.lIfalias
      lNsFd := a.netNsFd.getD link.data.lNsFd
      lNsPid := a.netNsPid.getD link.data.lNsPid }

/-- `rtnl_link_info_parse`: the link as it leaves it, unless there is no name -/
def rtnlLinkInfoParse [HostOrder] (link : LinkVal) (buf : Mem) (tb : Index) : Except ℤ LinkVal :=
  match tb IFLA_IFNAME with
  | none => .error (-NLE_MISSING_ATTR)
  | some ifname => .ok (withAttrs link (readBaseAttrs buf ifname tb) (readExtraAttrs buf tb))

/-! ## Writing -/

/-- the link has the attribute -/
def hasAttr (link : LinkVal) (bit : BitVec 64) : Bool := decide (link.ceMask &&& bit ≠ 0)

/-- the payload, if the link has the attribute -/
def ifAttr (link : LinkVal) (bit : BitVec 64) (payload : List UInt8) : Option (List UInt8) :=
  if hasAttr link bit then some payload else none

def binaryAddr (addr : Option NlAddr) : List UInt8 := (addr.map NlAddr.aAddr).getD []

section

variable [HostOrder]

/-- the attributes of `rtnl_link_fill_info`, in its order -/
def linkFields (link : LinkVal) : FieldList :=
  [(IFLA_ADDRESS, ifAttr link LINK_ATTR_ADDR (binaryAddr link.data.lAddr)),
    (IFLA_BROADCAST, ifAttr link LINK_ATTR_BRD (binaryAddr link.data.lBcast)),
    (IFLA_MTU, ifAttr link LINK_ATTR_MTU (u32Bytes link.data.lMtu.toNat)),
    (IFLA_TXQLEN, ifAttr link LINK_ATTR_TXQLEN (u32Bytes link.data.lTxqlen.toNat)),
    (IFLA_WEIGHT, ifAttr link LINK_ATTR_WEIGHT (u32Bytes link.data.lWeight.toNat)),
    (IFLA_IFNAME, ifAttr link LINK_ATTR_IFNAME (link.data.lName ++ [0])),
    (IFLA_OPERSTATE, ifAttr link LINK_ATTR_OPERSTATE [UInt8.ofBitVec link.data.lOperstate]),
    (IFLA_CARRIER, ifAttr link LINK_ATTR_CARRIER [UInt8.ofBitVec link.data.lCarrier]),
    (IFLA_LINKMODE, ifAttr link LINK_ATTR_LINKMODE [UInt8.ofBitVec link.data.lLinkmode]),
    (IFLA_IFALIAS, ifAttr link LINK_ATTR_IFALIAS (link.data.lIfalias.getD [] ++ [0])),
    (IFLA_LINK, ifAttr link LINK_ATTR_LINK (u32Bytes link.data.lLink.toNat)),
    (IFLA_LINK_NETNSID, ifAttr link LINK_ATTR_LINK_NETNSID (u32Bytes link.data.lLinkNetnsid.toNat)),
    (IFLA_MASTER, ifAttr link LINK_ATTR_MASTER (u32Bytes link.data.lMaster.toNat)),
    (IFLA_NUM_TX_QUEUES, ifAttr link LINK_ATTR_NUM_TX_QUEUES (u32Bytes link.data.lNumTxQueues.toNat)),
    (IFLA_NUM_RX_QUEUES, ifAttr link LINK_ATTR_NUM_RX_QUEUES (u32Bytes link.data.lNumRxQueues.toNat)),
    (IFLA_NET_NS_FD, ifAttr link LINK_ATTR_NS_FD (u32Bytes link.data.lNsFd.toNat)),
    (IFLA_NET_NS_PID, ifAttr link LINK_ATTR_NS_PID (u32Bytes link.data.lNsPid.toNat))]

/-- `rtnl_link_fill_info` -/
def rtnlLinkFillInfo (link : LinkVal) : NlMsg → NlMsg × ℤ := putAll (-NLE_MSGSIZE) (leavesOf (linkFields link))

end

end Libnl.LinkInfo
