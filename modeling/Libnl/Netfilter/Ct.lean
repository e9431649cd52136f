/-
Connections (`lib/netfilter/ct_obj.c`, `lib/netfilter/ct.c`): the object and its setters, comparison, and messages.

A connection has two directions, each with addresses and with a part for the protocol. Ports and ICMP fields share the
storage of that part: the source port is the ICMP id, and the bytes of the destination port are the ICMP type and code.

A message has a header with the family, and attributes; each direction is a nest with a nest for the addresses and one for
the protocol in it. Fields of more than a byte travel in network byte order.

The type has no id attributes, so connections are identical when they agree in all that `ct_compare` compares and both
carry.
-/
import Mathlib.Tactic
import Libnl.Message.Fields
import Libnl.Cache.Object
import Libnl.Route.Addr

namespace Libnl.Ct

open Bytes Msg Attr AttrWalk AttrStream Writer Fields Object Addr
open Addr.Family

/-! ## Data -/

def CT_ATTR_FAMILY : BitVec 64 := 1 <<< 0
def CT_ATTR_PROTO : BitVec 64 := 1 <<< 1
def CT_ATTR_TCP_STATE : BitVec 64 := 1 <<< 2
def CT_ATTR_STATUS : BitVec 64 := 1 <<< 3
def CT_ATTR_TIMEOUT : BitVec 64 := 1 <<< 4
def CT_ATTR_MARK : BitVec 64 := 1 <<< 5
def CT_ATTR_USE : BitVec 64 := 1 <<< 6
def CT_ATTR_ID : BitVec 64 := 1 <<< 7
def CT_ATTR_ORIG_SRC : BitVec 64 := 1 <<< 8
def CT_ATTR_ORIG_DST : BitVec 64 := 1 <<< 9
def CT_ATTR_ORIG_SRC_PORT : BitVec 64 := 1 <<< 10
def CT_ATTR_ORIG_DST_PORT : BitVec 64 := 1 <<< 11
def CT_ATTR_ORIG_ICMP_ID : BitVec 64 := 1 <<< 12
def CT_ATTR_ORIG_ICMP_TYPE : BitVec 64 := 1 <<< 13
def CT_ATTR_ORIG_ICMP_CODE : BitVec 64 := 1 <<< 14
def CT_ATTR_ORIG_PACKETS : BitVec 64 := 1 <<< 15
def CT_ATTR_ORIG_BYTES : BitVec 64 := 1 <<< 16
def CT_ATTR_REPL_SRC : BitVec 64 := 1 <<< 17
def CT_ATTR_REPL_DST : BitVec 64 := 1 <<< 18
def CT_ATTR_REPL_SRC_PORT : BitVec 64 := 1 <<< 19
def CT_ATTR_REPL_DST_PORT : BitVec 64 := 1 <<< 20
def CT_ATTR_REPL_ICMP_ID : BitVec 64 := 1 <<< 21
def CT_ATTR_REPL_ICMP_TYPE : BitVec 64 := 1 <<< 22
def CT_ATTR_REPL_ICMP_CODE : BitVec 64 := 1 <<< 23
def CT_ATTR_REPL_PACKETS : BitVec 64 := 1 <<< 24
def CT_ATTR_REPL_BYTES : BitVec 64 := 1 <<< 25
def CT_ATTR_TIMESTAMP : BitVec 64 := 1 <<< 26
def CT_ATTR_ZONE : BitVec 64 := 1 <<< 27

/-- `union nfnl_ct_proto`: two bytes that are read as one number, and two more -/
structure NfnlCtProto where
  /-- `port.src` and `icmp.id` -/
  first : BitVec 16
  /-- `icmp.type`, the first byte of `port.dst` -/
  type : UInt8
  /-- `icmp.code`, its second byte -/
  code : UInt8
deriving DecidableEq, Repr

structure NfnlCtDir where
  src : Option NlAddr
  dst : Option NlAddr
  proto : NfnlCtProto
  packets : BitVec 64
  bytes : BitVec 64
deriving DecidableEq

structure NfnlCtTimestamp where
  start : BitVec 64
  stop : BitVec 64
deriving DecidableEq

structure NfnlCt where
  ctFamily : BitVec 8
  ctProto : BitVec 8
  tcpState : BitVec 8
  ctStatus : BitVec 32
  ctStatusMask : BitVec 32
  ctTimeout : BitVec 32
  ctMark : BitVec 32
  ctUse : BitVec 32
  ctId : BitVec 32
  ctZone : BitVec 16
  ctOrig : NfnlCtDir
  ctRepl : NfnlCtDir
  ctTstamp : NfnlCtTimestamp
deriving DecidableEq

abbrev CtObj := ObjVal NfnlCt

def NfnlCtDir.empty : NfnlCtDir := ⟨none, none, ⟨0, 0, 0⟩, 0, 0⟩

/-- `nfnl_ct_alloc` -/
def nfnlCtAlloc : CtObj := ⟨0, 0, 0, ⟨0, 0, 0, 0, 0, 0, 0, 0, 0, 0, .empty, .empty, ⟨0, 0⟩⟩⟩

/-- the direction `repl` names -/
def NfnlCt.dir (ct : NfnlCt) (repl : Bool) : NfnlCtDir := if repl then ct.ctRepl else ct.ctOrig

def NfnlCt.setDir (ct : NfnlCt) (repl : Bool) (dir : NfnlCtDir) : NfnlCt :=
  if repl then { ct with ctRepl := dir } else { ct with ctOrig := dir }

/-! ## Setters and getters -/

/-- the object has the attribute -/
def hasAttr (ct : CtObj) (attr : BitVec 64) : Bool := decide (ct.ceMask &&& attr ≠ 0)

/-- the object with other data, and with the attribute -/
def withAttr (ct : CtObj) (attr : BitVec 64) (data : NfnlCt) : CtObj :=
  { ct with ceMask := ct.ceMask ||| attr, data := data }

section

variable (ct : CtObj) (repl : Bool)

def nfnlCtSetFamily (family : BitVec 8) : CtObj := withAttr ct CT_ATTR_FAMILY { ct.data with ctFamily := family }

def nfnlCtGetFamily : BitVec 8 := if hasAttr ct CT_ATTR_FAMILY then ct.data.ctFamily else 0

def nfnlCtSetProto (proto : BitVec 8) : CtObj := withAttr ct CT_ATTR_PROTO { ct.data with ctProto := proto }

def nfnlCtSetTcpState (state : BitVec 8) : CtObj := withAttr ct CT_ATTR_TCP_STATE { ct.data with tcpState := state }

def nfnlCtSetStatus (status : BitVec 32) : CtObj :=
  withAttr ct CT_ATTR_STATUS
    { ct.data with ctStatusMask := ct.data.ctStatusMask ||| status, ctStatus := ct.data.ctStatus ||| status }

def nfnlCtUnsetStatus (status : BitVec 32) : CtObj :=
  withAttr ct CT_ATTR_STATUS
    { ct.data with ctStatusMask := ct.data.ctStatusMask ||| status, ctStatus := ct.data.ctStatus &&& ~~~status }

def nfnlCtSetTimeout (timeout : BitVec 32) : CtObj := withAttr ct CT_ATTR_TIMEOUT { ct.data with ctTimeout := timeout }

def nfnlCtSetMark (mark : BitVec 32) : CtObj := withAttr ct CT_ATTR_MARK { ct.data with ctMark := mark }

def nfnlCtSetUse (use : BitVec 32) : CtObj := withAttr ct CT_ATTR_USE { ct.data with ctUse := use }

def nfnlCtSetId (id : BitVec 32) : CtObj := withAttr ct CT_ATTR_ID { ct.data with ctId := id }

def nfnlCtSetZone (zone : BitVec 16) : CtObj := withAttr ct CT_ATTR_ZONE { ct.data with ctZone := zone }

/-- `ct_set_addr`; `store` is what becomes of the data -/
def ctSetAddr (addr : NlAddr) (attr : BitVec 64) (store : NfnlCt → NfnlCt) : Except ℤ CtObj :=
  if hasAttr ct CT_ATTR_FAMILY then
    if addr.aFamily ≠ ct.data.ctFamily.toNat then .error (-NLE_AF_MISMATCH)
    else .ok (withAttr ct attr (store ct.data))
  else
    let ct := nfnlCtSetFamily ct (BitVec.ofInt 8 addr.aFamily)
    .ok (withAttr ct attr (store ct.data))

def srcAttr : BitVec 64 := if repl then CT_ATTR_REPL_SRC else CT_ATTR_ORIG_SRC
def dstAttr : BitVec 64 := if repl then CT_ATTR_REPL_DST else CT_ATTR_ORIG_DST
def srcPortAttr : BitVec 64 := if repl then CT_ATTR_REPL_SRC_PORT else CT_ATTR_ORIG_SRC_PORT
def dstPortAttr : BitVec 64 := if repl then CT_ATTR_REPL_DST_PORT else CT_ATTR_ORIG_DST_PORT
def icmpIdAttr : BitVec 64 := if repl then CT_ATTR_REPL_ICMP_ID else CT_ATTR_ORIG_ICMP_ID
def icmpTypeAttr : BitVec 64 := if repl then CT_ATTR_REPL_ICMP_TYPE else CT_ATTR_ORIG_ICMP_TYPE
def icmpCodeAttr : BitVec 64 := if repl then CT_ATTR_REPL_ICMP_CODE else CT_ATTR_ORIG_ICMP_CODE
def packetsAttr : BitVec 64 := if repl then CT_ATTR_REPL_PACKETS else CT_ATTR_ORIG_PACKETS
def bytesAttr : BitVec 64 := if repl then CT_ATTR_REPL_BYTES else CT_ATTR_ORIG_BYTES

def nfnlCtSetSrc (addr : NlAddr) : Except ℤ CtObj :=
  ctSetAddr ct addr (srcAttr repl) fun d => d.setDir repl { d.dir repl with src := some addr }

def nfnlCtSetDst (addr : NlAddr) : Except ℤ CtObj :=
  ctSetAddr ct addr (dstAttr repl) fun d => d.setDir repl { d.dir repl with dst := some addr }

def nfnlCtGetSrc : Option NlAddr := if hasAttr ct (srcAttr repl) then (ct.data.dir repl).src else none

def nfnlCtGetDst : Option NlAddr := if hasAttr ct (dstAttr repl) then (ct.data.dir repl).dst else none

/-- the storage of the protocol part is changed, and has the attribute now -/
def setProtoPart (attr : BitVec 64) (f : NfnlCtProto → NfnlCtProto) : CtObj :=
  withAttr ct attr (ct.data.setDir repl { ct.data.dir repl with proto := f (ct.data.dir repl).proto })

def nfnlCtSetSrcPort (port : BitVec 16) : CtObj := setProtoPart ct repl (srcPortAttr repl) ({ · with first := port })

def nfnlCtSetIcmpId (id : BitVec 16) : CtObj := setProtoPart ct repl (icmpIdAttr repl) ({ · with first := id })

def nfnlCtSetIcmpType (type : BitVec 8) : CtObj :=
  setProtoPart ct repl (icmpTypeAttr repl) ({ · with type := UInt8.ofBitVec type })

def nfnlCtSetIcmpCode (code : BitVec 8) : CtObj :=
  setProtoPart ct repl (icmpCodeAttr repl) ({ · with code := UInt8.ofBitVec code })

def nfnlCtSetPackets (packets : BitVec 64) : CtObj :=
  withAttr ct (packetsAttr repl) (ct.data.setDir repl { ct.data.dir repl with packets := packets })

def nfnlCtSetBytes (bytes : BitVec 64) : CtObj :=
  withAttr ct (bytesAttr repl) (ct.data.setDir repl { ct.data.dir repl with bytes := bytes })

def nfnlCtSetTimestamp (start stop : BitVec 64) : CtObj :=
  withAttr ct CT_ATTR_TIMESTAMP { ct.data with ctTstamp := ⟨start, stop⟩ }

variable [HostOrder]

/-- `port.dst` stored: its bytes in the order of the host -/
def NfnlCtProto.setDst (p : NfnlCtProto) (port : BitVec 16) : NfnlCtProto :=
  { p with type := (u16Bytes port.toNat).getD 0 0, code := (u16Bytes port.toNat).getD 1 0 }

/-- `port.dst` read -/
def NfnlCtProto.dst (p : NfnlCtProto) : BitVec 16 := BitVec.ofNat 16 (getU16 (memOf [p.type, p.code]) 0)

def nfnlCtSetDstPort (port : BitVec 16) : CtObj := setProtoPart ct repl (dstPortAttr repl) (·.setDst port)

end

/-! ## Comparison -/

/-- the comparison is not `LOOSE_COMPARISON` -/
def strict (flags : ℕ) : Bool := decide (flags &&& LOOSE_COMPARISON = 0)

/-- `ct_compare` -/
def ctCompare (a b : CtObj) (attrs : BitVec 64) (flags : ℕ) : BitVec 64 :=
  let cmp := if strict flags then nlAddrCmp else nlAddrCmpPrefix
  attrDiff attrs CT_ATTR_FAMILY a b (decide (a.data.ctFamily ≠ b.data.ctFamily)) |||
    attrDiff attrs CT_ATTR_PROTO a b (decide (a.data.ctProto ≠ b.data.ctProto)) |||
    attrDiff attrs CT_ATTR_TCP_STATE a b (decide (a.data.tcpState ≠ b.data.tcpState)) |||
    attrDiff attrs CT_ATTR_TIMEOUT a b (decide (a.data.ctTimeout ≠ b.data.ctTimeout)) |||
    attrDiff attrs CT_ATTR_MARK a b (decide (a.data.ctMark ≠ b.data.ctMark)) |||
    attrDiff attrs CT_ATTR_USE a b (decide (a.data.ctUse ≠ b.data.ctUse)) |||
    attrDiff attrs CT_ATTR_ID a b (decide (a.data.ctId ≠ b.data.ctId)) |||
    attrDiff attrs CT_ATTR_ORIG_SRC a b (cmp a.data.ctOrig.src b.data.ctOrig.src) |||
    attrDiff attrs CT_ATTR_ORIG_DST a b (cmp a.data.ctOrig.dst b.data.ctOrig.dst) |||
    attrDiff attrs CT_ATTR_ORIG_SRC_PORT a b (decide (a.data.ctOrig.proto.first ≠ b.data.ctOrig.proto.first)) |||
    attrDiff attrs CT_ATTR_ORIG_DST_PORT a b (decide ((a.data.ctOrig.proto.type, a.data.ctOrig.proto.code) ≠
      (b.data.ctOrig.proto.type, b.data.ctOrig.proto.code))) |||
    attrDiff attrs CT_ATTR_ORIG_ICMP_ID a b (decide (a.data.ctOrig.proto.first ≠ b.data.ctOrig.proto.first)) |||
    attrDiff attrs CT_ATTR_ORIG_ICMP_TYPE a b (decide (a.data.ctOrig.proto.type ≠ b.data.ctOrig.proto.type)) |||
    attrDiff attrs CT_ATTR_ORIG_ICMP_CODE a b (decide (a.data.ctOrig.proto.code ≠ b.data.ctOrig.proto.code)) |||
    attrDiff attrs CT_ATTR_ORIG_PACKETS a b (decide (a.data.ctOrig.packets ≠ b.data.ctOrig.packets)) |||
    attrDiff attrs CT_ATTR_ORIG_BYTES a b (decide (a.data.ctOrig.bytes ≠ b.data.ctOrig.bytes)) |||
    attrDiff attrs CT_ATTR_REPL_SRC a b (cmp a.data.ctRepl.src b.data.ctRepl.src) |||
    attrDiff attrs CT_ATTR_REPL_DST a b (cmp a.data.ctRepl.dst b.data.ctRepl.dst) |||
    attrDiff attrs CT_ATTR_REPL_SRC_PORT a b (decide (a.data.ctRepl.proto.first ≠ b.data.ctRepl.proto.first)) |||
    attrDiff attrs CT_ATTR_REPL_DST_PORT a b (decide ((a.data.ctRepl.proto.type, a.data.ctRepl.proto.code) ≠
      (b.data.ctRepl.proto.type, b.data.ctRepl.proto.code))) |||
    attrDiff attrs CT_ATTR_REPL_ICMP_ID a b (decide (a.data.ctRepl.proto.first ≠ b.data.ctRepl.proto.first)) |||
    attrDiff attrs CT_ATTR_REPL_ICMP_TYPE a b (decide (a.data.ctRepl.proto.type ≠ b.data.ctRepl.proto.type)) |||
    attrDiff attrs CT_ATTR_REPL_ICMP_CODE a b (decide (a.data.ctRepl.proto.code ≠ b.data.ctRepl.proto.code)) |||
    attrDiff attrs CT_ATTR_REPL_PACKETS a b (decide (a.data.ctRepl.packets ≠ b.data.ctRepl.packets)) |||
    attrDiff attrs CT_ATTR_REPL_BYTES a b (decide (a.data.ctRepl.bytes ≠ b.data.ctRepl.bytes)) |||
    attrDiff attrs CT_ATTR_STATUS a b (if strict flags then decide (a.data.ctStatus ≠ b.data.ctStatus)
      else decide ((a.data.ctStatus ^^^ b.data.ctStatus) &&& b.data.ctStatusMask ≠ 0))

/-- `ct_obj_ops`; cloning copies the addresses, so a clone says the same -/
def ctObjOps : ObjectOps NfnlCt where
  ooIdAttrs := 0
  ooIdAttrsGet := none
  ooCompare := some ctCompare
  ooUpdate := none
  ooKeygen := none
  ooClone := none

/-! ## Attributes of messages -/

def CTA_TUPLE_ORIG : ℕ := 1
def CTA_TUPLE_REPLY : ℕ := 2
def CTA_STATUS : ℕ := 3
def CTA_PROTOINFO : ℕ := 4
def CTA_TIMEOUT : ℕ := 7
def CTA_MARK : ℕ := 8
def CTA_COUNTERS_ORIG : ℕ := 9
def CTA_COUNTERS_REPLY : ℕ := 10
def CTA_USE : ℕ := 11
def CTA_ID : ℕ := 12
def CTA_ZONE : ℕ := 18
def CTA_TIMESTAMP : ℕ := 20
def CTA_MAX : ℕ := 24

def CTA_TUPLE_IP : ℕ := 1
def CTA_TUPLE_PROTO : ℕ := 2
def CTA_TUPLE_MAX : ℕ := 3

def CTA_IP_V4_SRC : ℕ := 1
def CTA_IP_V4_DST : ℕ := 2
def CTA_IP_V6_SRC : ℕ := 3
def CTA_IP_V6_DST : ℕ := 4
def CTA_IP_MAX : ℕ := 4

def CTA_PROTO_NUM : ℕ := 1
def CTA_PROTO_SRC_PORT : ℕ := 2
def CTA_PROTO_DST_PORT : ℕ := 3
def CTA_PROTO_ICMP_ID : ℕ := 4
def CTA_PROTO_ICMP_TYPE : ℕ := 5
def CTA_PROTO_ICMP_CODE : ℕ := 6
def CTA_PROTO_ICMPV6_ID : ℕ := 7
def CTA_PROTO_ICMPV6_TYPE : ℕ := 8
def CTA_PROTO_ICMPV6_CODE : ℕ := 9
def CTA_PROTO_MAX : ℕ := 9

def CTA_PROTOINFO_TCP : ℕ := 1
def CTA_PROTOINFO_MAX : ℕ := 3

def CTA_PROTOINFO_TCP_STATE : ℕ := 1
def CTA_PROTOINFO_TCP_WSCALE_ORIGINAL : ℕ := 2
def CTA_PROTOINFO_TCP_WSCALE_REPLY : ℕ := 3
def CTA_PROTOINFO_TCP_FLAGS_ORIGINAL : ℕ := 4
def CTA_PROTOINFO_TCP_FLAGS_REPLY : ℕ := 5
def CTA_PROTOINFO_TCP_MAX : ℕ := 5

def CTA_COUNTERS_PACKETS : ℕ := 1
def CTA_COUNTERS_BYTES : ℕ := 2
def CTA_COUNTERS32_PACKETS : ℕ := 3
def CTA_COUNTERS32_BYTES : ℕ := 4
def CTA_COUNTERS_MAX : ℕ := 5

def CTA_TIMESTAMP_START : ℕ := 1
def CTA_TIMESTAMP_STOP : ℕ := 2
def CTA_TIMESTAMP_MAX : ℕ := 3

/-- types not listed in a policy -/
def noPolicy : NlaPolicy := ⟨.unspec, 0, 0⟩

def ctPolicy (type : ℕ) : NlaPolicy :=
  if type ∈ [CTA_TUPLE_ORIG, CTA_TUPLE_REPLY, CTA_PROTOINFO, CTA_COUNTERS_ORIG, CTA_COUNTERS_REPLY] then ⟨.nested, 0, 0⟩
  else if type ∈ [CTA_STATUS, CTA_TIMEOUT, CTA_MARK, CTA_USE, CTA_ID] then ⟨.u32, 0, 0⟩
  else if type = CTA_ZONE then ⟨.u16, 0, 0⟩
  else noPolicy

def ctTuplePolicy (type : ℕ) : NlaPolicy :=
  if type ∈ [CTA_TUPLE_IP, CTA_TUPLE_PROTO] then ⟨.nested, 0, 0⟩ else noPolicy

def ctIpPolicy (type : ℕ) : NlaPolicy :=
  if type ∈ [CTA_IP_V4_SRC, CTA_IP_V4_DST] then ⟨.u32, 0, 0⟩
  else if type ∈ [CTA_IP_V6_SRC, CTA_IP_V6_DST] then ⟨.unspec, 16, 0⟩
  else noPolicy

def ctProtoPolicy (type : ℕ) : NlaPolicy :=
  if type ∈ [CTA_PROTO_NUM, CTA_PROTO_ICMP_TYPE, CTA_PROTO_ICMP_CODE, CTA_PROTO_ICMPV6_TYPE, CTA_PROTO_ICMPV6_CODE] then
    ⟨.u8, 0, 0⟩
  else if type ∈ [CTA_PROTO_SRC_PORT, CTA_PROTO_DST_PORT, CTA_PROTO_ICMP_ID, CTA_PROTO_ICMPV6_ID] then ⟨.u16, 0, 0⟩
  else noPolicy

def ctProtoinfoPolicy (type : ℕ) : NlaPolicy := if type = CTA_PROTOINFO_TCP then ⟨.nested, 0, 0⟩ else noPolicy

def ctProtoinfoTcpPolicy (type : ℕ) : NlaPolicy :=
  if type ∈ [CTA_PROTOINFO_TCP_STATE, CTA_PROTOINFO_TCP_WSCALE_ORIGINAL, CTA_PROTOINFO_TCP_WSCALE_REPLY] then ⟨.u8, 0, 0⟩
  else if type ∈ [CTA_PROTOINFO_TCP_FLAGS_ORIGINAL, CTA_PROTOINFO_TCP_FLAGS_REPLY] then ⟨.unspec, 2, 0⟩
  else noPolicy

def ctCountersPolicy (type : ℕ) : NlaPolicy :=
  if type ∈ [CTA_COUNTERS_PACKETS, CTA_COUNTERS_BYTES] then ⟨.u64, 0, 0⟩
  else if type ∈ [CTA_COUNTERS32_PACKETS, CTA_COUNTERS32_BYTES] then ⟨.u32, 0, 0⟩
  else noPolicy

def ctTimestampPolicy (type : ℕ) : NlaPolicy :=
  if type ∈ [CTA_TIMESTAMP_START, CTA_TIMESTAMP_STOP] then ⟨.u64, 0, 0⟩ else noPolicy

/-! ## Reading -/

/-- `if (tb[type]) …`, for a setter that cannot fail -/
def setIf {β : Type} (o : Option β) (f : CtObj → β → CtObj) (ct : CtObj) : CtObj := (o.map (f ct)).getD ct

/-- `if (tb[type]) …`, for one that can -/
def tryIf {β : Type} (o : Option β) (f : CtObj → β → Except ℤ CtObj) (ct : CtObj) : Except ℤ CtObj :=
  (o.map (f ct)).getD (.ok ct)

section

variable [HostOrder] (buf : Mem)

/-- what follows `nla_parse_nested` -/
def inAttr (maxtype : ℕ) (policy : ℕ → NlaPolicy) (attr : ℕ) (f : Index → Except ℤ CtObj) : Except ℤ CtObj :=
  let (err, tb) := nlaParseNested buf maxtype attr (some policy)
  if err < 0 then .error err else f tb

def ctParseIp (repl : Bool) (ct : CtObj) (attr : ℕ) : Except ℤ CtObj :=
  inAttr buf CTA_IP_MAX ctIpPolicy attr fun tb => do
    let ct ← tryIf (tb CTA_IP_V4_SRC) (fun ct a => nfnlCtSetSrc ct repl (nlAddrAllocAttr buf a AF_INET)) ct
    let ct ← tryIf (tb CTA_IP_V4_DST) (fun ct a => nfnlCtSetDst ct repl (nlAddrAllocAttr buf a AF_INET)) ct
    let ct ← tryIf (tb CTA_IP_V6_SRC) (fun ct a => nfnlCtSetSrc ct repl (nlAddrAllocAttr buf a AF_INET6)) ct
    tryIf (tb CTA_IP_V6_DST) (fun ct a => nfnlCtSetDst ct repl (nlAddrAllocAttr buf a AF_INET6)) ct

/-- the attribute types of the ICMP id, type and code -/
def icmpTypes (family : BitVec 8) : Option (ℕ × ℕ × ℕ) :=
  if (family.toNat : ℤ) = AF_INET then some (CTA_PROTO_ICMP_ID, CTA_PROTO_ICMP_TYPE, CTA_PROTO_ICMP_CODE)
  else if (family.toNat : ℤ) = AF_INET6 then some (CTA_PROTO_ICMPV6_ID, CTA_PROTO_ICMPV6_TYPE, CTA_PROTO_ICMPV6_CODE)
  else none

def ctParseProto (repl : Bool) (ct : CtObj) (attr : ℕ) : Except ℤ CtObj :=
  inAttr buf CTA_PROTO_MAX ctProtoPolicy attr fun tb =>
    let ct := if repl then ct else setIf (tb CTA_PROTO_NUM) (fun ct a => nfnlCtSetProto ct (nlaGetU8 buf a)) ct
    let ct := setIf (tb CTA_PROTO_SRC_PORT) (fun ct a => nfnlCtSetSrcPort ct repl (nlaGetBe16 buf a)) ct
    let ct := setIf (tb CTA_PROTO_DST_PORT) (fun ct a => nfnlCtSetDstPort ct repl (nlaGetBe16 buf a)) ct
    match icmpTypes ct.data.ctFamily with
    | none => .ok ct
    | some (id, type, code) =>
      let ct := setIf (tb id) (fun ct a => nfnlCtSetIcmpId ct repl (nlaGetBe16 buf a)) ct
      let ct := setIf (tb type) (fun ct a => nfnlCtSetIcmpType ct repl (nlaGetU8 buf a)) ct
      .ok (setIf (tb code) (fun ct a => nfnlCtSetIcmpCode ct repl (nlaGetU8 buf a)) ct)

def ctParseTuple (repl : Bool) (ct : CtObj) (attr : ℕ) : Except ℤ CtObj :=
  inAttr buf CTA_TUPLE_MAX ctTuplePolicy attr fun tb => do
    let ct ← tryIf (tb CTA_TUPLE_IP) (ctParseIp buf repl) ct
    tryIf (tb CTA_TUPLE_PROTO) (ctParseProto buf repl) ct

def ctParseProtoinfoTcp (ct : CtObj) (attr : ℕ) : Except ℤ CtObj :=
  inAttr buf CTA_PROTOINFO_TCP_MAX ctProtoinfoTcpPolicy attr fun tb =>
    .ok (setIf (tb CTA_PROTOINFO_TCP_STATE) (fun ct a => nfnlCtSetTcpState ct (nlaGetU8 buf a)) ct)

def ctParseProtoinfo (ct : CtObj) (attr : ℕ) : Except ℤ CtObj :=
  inAttr buf CTA_PROTOINFO_MAX ctProtoinfoPolicy attr fun tb => tryIf (tb CTA_PROTOINFO_TCP) (ctParseProtoinfoTcp buf) ct

def ctParseCounters (repl : Bool) (ct : CtObj) (attr : ℕ) : Except ℤ CtObj :=
  inAttr buf CTA_COUNTERS_MAX ctCountersPolicy attr fun tb =>
    let ct := setIf (tb CTA_COUNTERS_PACKETS) (fun ct a => nfnlCtSetPackets ct repl (nlaGetBe64 buf a)) ct
    let ct := setIf (tb CTA_COUNTERS32_PACKETS)
      (fun ct a => nfnlCtSetPackets ct repl ((nlaGetBe32 buf a).setWidth 64)) ct
    let ct := setIf (tb CTA_COUNTERS_BYTES) (fun ct a => nfnlCtSetBytes ct repl (nlaGetBe64 buf a)) ct
    .ok (setIf (tb CTA_COUNTERS32_BYTES) (fun ct a => nfnlCtSetBytes ct repl ((nlaGetBe32 buf a).setWidth 64)) ct)

def ctParseTimestamp (ct : CtObj) (attr : ℕ) : Except ℤ CtObj :=
  inAttr buf CTA_TIMESTAMP_MAX ctTimestampPolicy attr fun tb =>
    match tb CTA_TIMESTAMP_START, tb CTA_TIMESTAMP_STOP with
    | some start, some stop => .ok (nfnlCtSetTimestamp ct (nlaGetBe64 buf start) (nlaGetBe64 buf stop))
    | _, _ => .ok ct

/-- the attributes of the message that are no nests -/
def ctScalars (tb : Index) (ct : CtObj) : CtObj :=
  let ct := setIf (tb CTA_STATUS) (fun ct a => nfnlCtSetStatus ct (nlaGetBe32 buf a)) ct
  let ct := setIf (tb CTA_TIMEOUT) (fun ct a => nfnlCtSetTimeout ct (nlaGetBe32 buf a)) ct
  let ct := setIf (tb CTA_MARK) (fun ct a => nfnlCtSetMark ct (nlaGetBe32 buf a)) ct
  let ct := setIf (tb CTA_USE) (fun ct a => nfnlCtSetUse ct (nlaGetBe32 buf a)) ct
  let ct := setIf (tb CTA_ID) (fun ct a => nfnlCtSetId ct (nlaGetBe32 buf a)) ct
  setIf (tb CTA_ZONE) (fun ct a => nfnlCtSetZone ct (nlaGetBe16 buf a)) ct

end

/-- the size of `struct nfgenmsg` -/
def NFGENMSG_LEN : ℕ := 4

/-- `nfnlmsg_ct_parse`: the object it hands on -/
def nfnlmsgCtParse [HostOrder] (nlh : NlMsg) : Except ℤ CtObj :=
  let ct := { nfnlCtAlloc with ceMsgtype := nlh.nlmsgType }
  let (err, tb) := nlmsgParse nlh NFGENMSG_LEN CTA_MAX (some ctPolicy)
  if err < 0 then .error err
  else do
    let ct := nfnlCtSetFamily ct (nlh.buf nlmsgData).toBitVec
    let ct ← tryIf (tb CTA_TUPLE_ORIG) (ctParseTuple nlh.buf false) ct
    let ct ← tryIf (tb CTA_TUPLE_REPLY) (ctParseTuple nlh.buf true) ct
    let ct ← tryIf (tb CTA_PROTOINFO) (ctParseProtoinfo nlh.buf) ct
    let ct := ctScalars nlh.buf tb ct
    let ct ← tryIf (tb CTA_COUNTERS_ORIG) (ctParseCounters nlh.buf false) ct
    let ct ← tryIf (tb CTA_COUNTERS_REPLY) (ctParseCounters nlh.buf true) ct
    tryIf (tb CTA_TIMESTAMP) (ctParseTimestamp nlh.buf) ct

/-! ## Writing -/

/-- the payload, if the object has the attribute -/
def ifAttr (ct : CtObj) (attr : BitVec 64) (payload : List UInt8) : Option (List UInt8) :=
  if hasAttr ct attr then some payload else none

section

variable (ct : CtObj) (repl : Bool)

/-- the addresses of a tuple -/
def ctIpFields : FieldList :=
  let v4 := decide ((nfnlCtGetFamily ct).toNat = AF_INET)
  [(if v4 then CTA_IP_V4_SRC else CTA_IP_V6_SRC, (nfnlCtGetSrc ct repl).map NlAddr.aAddr),
    (if v4 then CTA_IP_V4_DST else CTA_IP_V6_DST, (nfnlCtGetDst ct repl).map NlAddr.aAddr)]

variable [HostOrder]

/-- the protocol part of a tuple -/
def ctProtoFields : FieldList :=
  let proto := (ct.data.dir repl).proto
  [(CTA_PROTO_NUM, ifAttr ct CT_ATTR_PROTO [UInt8.ofBitVec ct.data.ctProto]),
    (CTA_PROTO_SRC_PORT, ifAttr ct (srcPortAttr repl) (be16Bytes proto.first)),
    (CTA_PROTO_DST_PORT, ifAttr ct (dstPortAttr repl) (be16Bytes proto.dst))] ++
  match icmpTypes (nfnlCtGetFamily ct) with
  | none => []
  | some (id, type, code) =>
    [(id, ifAttr ct (icmpIdAttr repl) (be16Bytes proto.first)), (type, ifAttr ct (icmpTypeAttr repl) [proto.type]),
      (code, ifAttr ct (icmpCodeAttr repl) [proto.code])]

/-- `nfnl_ct_build_tuple` -/
def nfnlCtBuildTuple (msg : NlMsg) : NlMsg × ℤ :=
  putNestOf (-NLE_MSGSIZE) (if repl then CTA_TUPLE_REPLY else CTA_TUPLE_ORIG : ℕ) (fun msg =>
    thenPut (-NLE_MSGSIZE)
      (putNestOf (-NLE_MSGSIZE) CTA_TUPLE_IP (putAll (-NLE_MSGSIZE) (leavesOf (ctIpFields ct repl))) msg)
      (putNestOf (-NLE_MSGSIZE) CTA_TUPLE_PROTO (putAll (-NLE_MSGSIZE) (leavesOf (ctProtoFields ct repl))))) msg

/-- the attributes of the message that are no nests -/
def ctScalarFields : FieldList :=
  [(CTA_STATUS, ifAttr ct CT_ATTR_STATUS (be32Bytes ct.data.ctStatus)),
    (CTA_TIMEOUT, ifAttr ct CT_ATTR_TIMEOUT (be32Bytes ct.data.ctTimeout)),
    (CTA_MARK, ifAttr ct CT_ATTR_MARK (be32Bytes ct.data.ctMark)), (CTA_ID, ifAttr ct CT_ATTR_ID (be32Bytes ct.data.ctId)),
    (CTA_ZONE, ifAttr ct CT_ATTR_ZONE (be16Bytes ct.data.ctZone))]

/-- `nfnlmsg_append` with no resource id -/
def nfnlmsgAppend (msg : NlMsg) (family : BitVec 8) : NlMsg × ℤ := nlmsgAppend msg [UInt8.ofBitVec family, 0, 0, 0] 4

/-- `nfnl_ct_build_message`: the message it hands out. When one of the last attributes has no room, it returns the code of
the call before, which is zero, and hands out nothing. -/
def nfnlCtBuildMessage (defaultMsgSize : ℕ) (cmd flags : ℕ) : Except ℤ (Option NlMsg) :=
  match nlmsgAllocSimple defaultMsgSize (256 + cmd % 256) flags with
  | none => .error (-NLE_NOMEM)
  | some msg =>
    let (msg, err) := nfnlmsgAppend msg (nfnlCtGetFamily ct)
    if err < 0 then .error (-NLE_NOMEM)
    else
      let (msg, err) := nfnlCtBuildTuple ct false msg
      if err < 0 then .error err
      else
        let reply := (nfnlCtGetSrc ct true).isSome && (nfnlCtGetDst ct true).isSome
        let (msg, err) := if reply then nfnlCtBuildTuple ct true msg else (msg, 0)
        if err < 0 then .error err
        else
          let (msg, err) := putAll (-NLE_MSGSIZE) (leavesOf (ctScalarFields ct)) msg
          if err < 0 then .ok none else .ok (some msg)

end

end Libnl.Ct
