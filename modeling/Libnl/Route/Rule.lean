/-
Routing rules (`lib/route/rule.c`): comparison, and rule messages.

A message has a fixed header, `struct fib_rule_hdr`, and attributes. The table is in both, as the header has eight bits
for it; prefix lengths are in the header, beside the addresses in attributes.

Rules have no key: all attributes identify a rule (`oo_id_attrs` is `~0`), which `nl_object_identical` takes to be those
that both objects have, and of these it sees the ones that `rule_compare` lists.
-/
import Mathlib.Tactic
import Libnl.Core.Mask
import Libnl.Message.Fields
import Libnl.Cache.Object
import Libnl.Route.Addr

namespace Libnl.Rule

open Bytes Msg Attr AttrWalk AttrStream Writer Fields Mask Object
open Addr

/-! ## Data -/

def RULE_ATTR_FAMILY : BitVec 64 := 0x000001
def RULE_ATTR_TABLE : BitVec 64 := 0x000002
def RULE_ATTR_ACTION : BitVec 64 := 0x000004
def RULE_ATTR_FLAGS : BitVec 64 := 0x000008
def RULE_ATTR_IIFNAME : BitVec 64 := 0x000010
def RULE_ATTR_OIFNAME : BitVec 64 := 0x000020
def RULE_ATTR_PRIO : BitVec 64 := 0x000040
def RULE_ATTR_MARK : BitVec 64 := 0x000080
def RULE_ATTR_MASK : BitVec 64 := 0x000100
def RULE_ATTR_GOTO : BitVec 64 := 0x000200
def RULE_ATTR_SRC : BitVec 64 := 0x000400
def RULE_ATTR_DST : BitVec 64 := 0x000800
def RULE_ATTR_DSFIELD : BitVec 64 := 0x001000
def RULE_ATTR_FLOW : BitVec 64 := 0x002000
def RULE_ATTR_L3MDEV : BitVec 64 := 0x004000
def RULE_ATTR_PROTOCOL : BitVec 64 := 0x008000
def RULE_ATTR_IP_PROTO : BitVec 64 := 0x010000
def RULE_ATTR_SPORT : BitVec 64 := 0x020000
def RULE_ATTR_DPORT : BitVec 64 := 0x040000

def FRA_DST : ℕ := 1
def FRA_SRC : ℕ := 2
def FRA_IIFNAME : ℕ := 3
def FRA_GOTO : ℕ := 4
def FRA_PRIORITY : ℕ := 6
def FRA_FWMARK : ℕ := 10
def FRA_FLOW : ℕ := 11
def FRA_TABLE : ℕ := 15
def FRA_FWMASK : ℕ := 16
def FRA_OIFNAME : ℕ := 17
def FRA_L3MDEV : ℕ := 19
def FRA_PROTOCOL : ℕ := 21
def FRA_IP_PROTO : ℕ := 22
def FRA_SPORT_RANGE : ℕ := 23
def FRA_DPORT_RANGE : ℕ := 24
def FRA_MAX : ℕ := 24

def IFNAMSIZ : ℕ := 16

def RTM_NEWRULE : ℤ := 32
def RTM_DELRULE : ℤ := 33
def RTM_GETRULE : ℤ := 34

/-- `struct fib_rule_port_range` -/
structure FibRulePortRange where
  start : BitVec 16
  stop : BitVec 16
deriving DecidableEq, Repr

/-- `struct rtnl_rule`; names are the strings in the arrays -/
structure RtnlRule where
  rFamily : BitVec 8
  rAction : BitVec 8
  rDsfield : BitVec 8
  rL3mdev : BitVec 8
  rProtocol : BitVec 8
  rIpProto : BitVec 8
  rTable : BitVec 32
  rFlags : BitVec 32
  rPrio : BitVec 32
  rMark : BitVec 32
  rMask : BitVec 32
  rGoto : BitVec 32
  rFlow : BitVec 32
  rSrc : Option NlAddr
  rDst : Option NlAddr
  rIifname : List UInt8
  rOifname : List UInt8
  rSport : FibRulePortRange
  rDport : FibRulePortRange
deriving DecidableEq

abbrev RuleVal := ObjVal RtnlRule

/-! ## Operations -/

/-- `rule_compare` -/
def ruleCompare (a b : RuleVal) (attrs : BitVec 64) (_flags : ℕ) : BitVec 64 :=
  attrDiff attrs RULE_ATTR_FAMILY a b (decide (a.data.rFamily ≠ b.data.rFamily)) |||
    attrDiff attrs RULE_ATTR_TABLE a b (decide (a.data.rTable ≠ b.data.rTable)) |||
    attrDiff attrs RULE_ATTR_ACTION a b (decide (a.data.rAction ≠ b.data.rAction)) |||
    attrDiff attrs RULE_ATTR_IIFNAME a b (decide (a.data.rIifname ≠ b.data.rIifname)) |||
    attrDiff attrs RULE_ATTR_OIFNAME a b (decide (a.data.rOifname ≠ b.data.rOifname)) |||
    attrDiff attrs RULE_ATTR_PRIO a b (decide (a.data.rPrio ≠ b.data.rPrio)) |||
    attrDiff attrs RULE_ATTR_MARK a b (decide (a.data.rMark ≠ b.data.rMark)) |||
    attrDiff attrs RULE_ATTR_MASK a b (decide (a.data.rMask ≠ b.data.rMask)) |||
    attrDiff attrs RULE_ATTR_GOTO a b (decide (a.data.rGoto ≠ b.data.rGoto)) |||
    attrDiff attrs RULE_ATTR_SRC a b (nlAddrCmp a.data.rSrc b.data.rSrc) |||
    attrDiff attrs RULE_ATTR_DST a b (nlAddrCmp a.data.rDst b.data.rDst) |||
    attrDiff attrs RULE_ATTR_DSFIELD a b (decide (a.data.rDsfield ≠ b.data.rDsfield)) |||
    attrDiff attrs RULE_ATTR_FLOW a b (decide (a.data.rFlow ≠ b.data.rFlow))

/-- `rule_obj_ops`; cloning copies the addresses, so a clone says the same -/
def ruleObjOps : ObjectOps RtnlRule where
  ooIdAttrs := BitVec.allOnes 32
  ooIdAttrsGet := none
  ooCompare := some ruleCompare
  ooUpdate := none
  ooKeygen := none
  ooClone := none

/-! ## Messages -/

/-- `struct fib_rule_hdr` -/
structure FibRuleHdr where
  family : BitVec 8
  dstLen : BitVec 8
  srcLen : BitVec 8
  tos : BitVec 8
  table : BitVec 8
  action : BitVec 8
  flags : BitVec 32
deriving DecidableEq

def rulePolicy (type : ℕ) : NlaPolicy :=
  if type ∈ [FRA_TABLE, FRA_PRIORITY, FRA_FWMARK, FRA_FWMASK, FRA_GOTO, FRA_FLOW] then ⟨.u32, 0, 0⟩
  else if type ∈ [FRA_IIFNAME, FRA_OIFNAME] then ⟨.string, 0, IFNAMSIZ⟩
  else if type ∈ [FRA_L3MDEV, FRA_PROTOCOL, FRA_IP_PROTO] then ⟨.u8, 0, 0⟩
  else if type ∈ [FRA_SPORT_RANGE, FRA_DPORT_RANGE] then ⟨.unspec, 4, 4⟩
  else ⟨.unspec, 0, 0⟩

/-- what the attributes of a message say -/
structure RuleAttrs where
  table : Option (BitVec 32)
  iifname : Option (List UInt8)
  oifname : Option (List UInt8)
  priority : Option (BitVec 32)
  fwmark : Option (BitVec 32)
  fwmask : Option (BitVec 32)
  goto : Option (BitVec 32)
  src : Option (List UInt8)
  dst : Option (List UInt8)
  flow : Option (BitVec 32)
  l3mdev : Option (BitVec 8)
  protocol : Option (BitVec 8)
  ipProto : Option (BitVec 8)
  sportRange : Option FibRulePortRange
  dportRange : Option FibRulePortRange
deriving DecidableEq

section

variable [HostOrder]

def FibRuleHdr.bytes (h : FibRuleHdr) : List UInt8 :=
  [UInt8.ofBitVec h.family, UInt8.ofBitVec h.dstLen, UInt8.ofBitVec h.srcLen, UInt8.ofBitVec h.tos,
    UInt8.ofBitVec h.table, 0, 0, UInt8.ofBitVec h.action] ++ u32Bytes h.flags.toNat

def readFibRuleHdr (buf : Mem) : FibRuleHdr :=
  ⟨(buf 16).toBitVec, (buf 17).toBitVec, (buf 18).toBitVec, (buf 19).toBitVec, (buf 20).toBitVec, (buf 23).toBitVec,
    BitVec.ofNat 32 (getU32 buf 24)⟩

def FibRulePortRange.bytes (r : FibRulePortRange) : List UInt8 := u16Bytes r.start.toNat ++ u16Bytes r.stop.toNat

def nlaPortRange (buf : Mem) (nla : ℕ) : FibRulePortRange :=
  ⟨BitVec.ofNat 16 (getU16 buf (nlaData nla)), BitVec.ofNat 16 (getU16 buf (nlaData nla + 2))⟩

def readRuleAttrs (buf : Mem) (tb : Index) : RuleAttrs where
  table := (tb FRA_TABLE).map (nlaGetU32 buf)
  iifname := (tb FRA_IIFNAME).map fun a => nlaStrlcpy buf a IFNAMSIZ
  oifname := (tb FRA_OIFNAME).map fun a => nlaStrlcpy buf a IFNAMSIZ
  priority := (tb FRA_PRIORITY).map (nlaGetU32 buf)
  fwmark := (tb FRA_FWMARK).map (nlaGetU32 buf)
  fwmask := (tb FRA_FWMASK).map (nlaGetU32 buf)
  goto := (tb FRA_GOTO).map (nlaGetU32 buf)
  src := (tb FRA_SRC).map (nlaBytes buf)
  dst := (tb FRA_DST).map (nlaBytes buf)
  flow := (tb FRA_FLOW).map (nlaGetU32 buf)
  l3mdev := (tb FRA_L3MDEV).map (nlaGetU8 buf)
  protocol := (tb FRA_PROTOCOL).map (nlaGetU8 buf)
  ipProto := (tb FRA_IP_PROTO).map (nlaGetU8 buf)
  sportRange := (tb FRA_SPORT_RANGE).map (nlaPortRange buf)
  dportRange := (tb FRA_DPORT_RANGE).map (nlaPortRange buf)

end

/-- an address from an attribute, with the prefix length of the header -/
def ruleAddr (family prefixlen : BitVec 8) (a : List UInt8) : NlAddr :=
  { nlAddrBuild family.toNat a with aPrefixlen := prefixlen.toNat }

/-- the header or the attribute names a table -/
def saysTable (frh : FibRuleHdr) (a : RuleAttrs) : Bool := decide (frh.table ≠ 0) || decide (a.table.getD 0 ≠ 0)

/-- the attributes of the object, each with whether the message has it -/
def ruleBits (frh : FibRuleHdr) (a : RuleAttrs) : List (BitVec 64 × Bool) :=
  [(RULE_ATTR_FAMILY, true), (RULE_ATTR_ACTION, true), (RULE_ATTR_FLAGS, true),
    (RULE_ATTR_TABLE, saysTable frh a),
    (RULE_ATTR_DSFIELD, decide (frh.tos ≠ 0)), (RULE_ATTR_IIFNAME, a.iifname.isSome),
    (RULE_ATTR_OIFNAME, a.oifname.isSome), ( RULE_ATTR_PRIO, a.priority.isSome), (RULE_ATTR_MARK, a.fwmark.isSome),
    (RULE_ATTR_MASK, a.fwmask.isSome), (RULE_ATTR_GOTO, a.goto.isSome), (RULE_ATTR_SRC, a.src.isSome),
    (RULE_ATTR_DST, a.dst.isSome), (RULE_ATTR_FLOW, a.flow.isSome), (RULE_ATTR_L3MDEV, a.l3mdev.isSome),
    (RULE_ATTR_PROTOCOL, a.protocol.isSome), (RULE_ATTR_IP_PROTO, a.ipProto.isSome),
    (RULE_ATTR_SPORT, a.sportRange.isSome), (RULE_ATTR_DPORT, a.dportRange.isSome)]

/-- the object a header and attributes make; what is not there stays as `calloc` left it -/
def ruleOf (msgtype : ℤ) (frh : FibRuleHdr) (a : RuleAttrs) : RuleVal where
  ceOps := 0
  ceMsgtype := msgtype
  ceMask := maskOf (ruleBits frh a)
  data :=
    { rFamily := frh.family
      rAction := frh.action
      rDsfield := frh.tos
      rL3mdev := a.l3mdev.getD 0
      rProtocol := a.protocol.getD 0
      rIpProto := a.ipProto.getD 0
      rTable := a.table.getD (frh.table.setWidth 32)
      rFlags := frh.flags
      rPrio := a.priority.getD 0
      rMark := a.fwmark.getD 0
      rMask := a.fwmask.getD 0
      rGoto := a.goto.getD 0
      rFlow := a.flow.getD 0
      rSrc := a.src.map (ruleAddr frh.family frh.srcLen)
      rDst := a.dst.map (ruleAddr frh.family frh.dstLen)
      rIifname := a.iifname.getD []
      rOifname := a.oifname.getD []
      rSport := a.sportRange.getD ⟨0, 0⟩
      rDport := a.dportRange.getD ⟨0, 0⟩ }

section

variable [HostOrder]

/-- `rule_msg_parser`: the object it hands on -/
def ruleMsgParser (n : NlMsg) : Except ℤ RuleVal :=
  let (err, tb) := nlmsgParse n 12 FRA_MAX (some rulePolicy)
  if err < 0 then .error err
  else .ok (ruleOf n.nlmsgType (readFibRuleHdr n.buf) (readRuleAttrs n.buf tb))

/-- the object has the attribute -/
def hasAttr (r : RuleVal) (bit : BitVec 64) : Bool := decide (r.ceMask &&& bit ≠ 0)

/-- `nl_addr_get_prefixlen` as the header takes it -/
def prefixlenOf (addr : Option NlAddr) : BitVec 8 := BitVec.ofInt 8 ((addr.map NlAddr.aPrefixlen).getD 0)

def binaryAddr (addr : Option NlAddr) : List UInt8 := (addr.map NlAddr.aAddr).getD []

/-- the header of `build_rule_msg` -/
def ruleHdr (tmpl : RuleVal) : FibRuleHdr where
  family := tmpl.data.rFamily
  dstLen := if hasAttr tmpl RULE_ATTR_DST then prefixlenOf tmpl.data.rDst else 0
  srcLen := if hasAttr tmpl RULE_ATTR_SRC then prefixlenOf tmpl.data.rSrc else 0
  tos := tmpl.data.rDsfield
  table := tmpl.data.rTable.setWidth 8
  action := tmpl.data.rAction
  flags := tmpl.data.rFlags

/-- the payload, if the object has the attribute -/
def ifAttr (tmpl : RuleVal) (bit : BitVec 64) (payload : List UInt8) : Option (List UInt8) :=
  if hasAttr tmpl bit then some payload else none

/-- the attributes of `build_rule_msg`, in its order -/
def ruleFields (tmpl : RuleVal) : FieldList :=
  [(FRA_TABLE, some (u32Bytes tmpl.data.rTable.toNat)),
    (FRA_SRC, ifAttr tmpl RULE_ATTR_SRC (binaryAddr tmpl.data.rSrc)),
    (FRA_DST, ifAttr tmpl RULE_ATTR_DST (binaryAddr tmpl.data.rDst)),
    (FRA_IIFNAME, ifAttr tmpl RULE_ATTR_IIFNAME (tmpl.data.rIifname ++ [0])),
    (FRA_OIFNAME, ifAttr tmpl RULE_ATTR_OIFNAME (tmpl.data.rOifname ++ [0])),
    (FRA_PRIORITY, ifAttr tmpl RULE_ATTR_PRIO (u32Bytes tmpl.data.rPrio.toNat)),
    (FRA_FWMARK, ifAttr tmpl RULE_ATTR_MARK (u32Bytes tmpl.data.rMark.toNat)),
    (FRA_FWMASK, ifAttr tmpl RULE_ATTR_MASK (u32Bytes tmpl.data.rMask.toNat)),
    (FRA_GOTO, ifAttr tmpl RULE_ATTR_GOTO (u32Bytes tmpl.data.rGoto.toNat)),
    (FRA_FLOW, ifAttr tmpl RULE_ATTR_FLOW (u32Bytes tmpl.data.rFlow.toNat)),
    (FRA_L3MDEV, ifAttr tmpl RULE_ATTR_L3MDEV [UInt8.ofBitVec tmpl.data.rL3mdev]),
    (FRA_IP_PROTO, ifAttr tmpl RULE_ATTR_IP_PROTO [UInt8.ofBitVec tmpl.data.rIpProto]),
    (FRA_SPORT_RANGE, ifAttr tmpl RULE_ATTR_SPORT tmpl.data.rSport.bytes),
    (FRA_DPORT_RANGE, ifAttr tmpl RULE_ATTR_DPORT tmpl.data.rDport.bytes),
    (FRA_PROTOCOL, ifAttr tmpl RULE_ATTR_PROTOCOL [UInt8.ofBitVec tmpl.data.rProtocol])]

/-- `build_rule_msg`; the default size of messages is a variable of the library -/
def buildRuleMsg (defaultMsgSize : ℕ) (tmpl : RuleVal) (cmd flags : ℕ) : Except ℤ NlMsg :=
  if hasAttr tmpl RULE_ATTR_FAMILY then
    match nlmsgAllocSimple defaultMsgSize cmd flags with
    | none => .error (-NLE_NOMEM)
    | some msg =>
      let (msg, err) := thenPut (-NLE_MSGSIZE) (nlmsgAppend msg (ruleHdr tmpl).bytes 4)
        (putAll (-NLE_MSGSIZE) (leavesOf (ruleFields tmpl)))
      if err < 0 then .error (-NLE_MSGSIZE) else .ok msg
  else .error (-NLE_MISSING_ATTR)

end

end Libnl.Rule
