/-
Asynchronous events (`lib/xfrm/ae.c`): the object, and its message.

The message has `struct xfrm_aevent_id` in front, which is made in memory that nobody cleared, and up to five attributes. Of
the thresholds the parser knows only names for flags, which are other numbers: it looks for them where attributes of other
types would be, and of any length. And it takes a replay state for granted: without one of either kind it reads where there
is no attribute.

An address is there if its bit is, and as long as it says. Memory is there when the parser asks for it.
-/
import Mathlib.Tactic
import Libnl.Xfrm.Sa

namespace Libnl.Xfrm

open Bytes Layout Msg Attr AttrWalk AttrStream Writer Fields Mask
open Object Addr

/-! ## Data -/

def XFRM_AE_ATTR_DADDR : BitVec 64 := 0x01
def XFRM_AE_ATTR_SPI : BitVec 64 := 0x02
def XFRM_AE_ATTR_PROTO : BitVec 64 := 0x04
def XFRM_AE_ATTR_SADDR : BitVec 64 := 0x08
def XFRM_AE_ATTR_FLAGS : BitVec 64 := 0x10
def XFRM_AE_ATTR_REQID : BitVec 64 := 0x20
def XFRM_AE_ATTR_MARK : BitVec 64 := 0x40
def XFRM_AE_ATTR_LIFETIME : BitVec 64 := 0x80
def XFRM_AE_ATTR_REPLAY_MAXAGE : BitVec 64 := 0x100
def XFRM_AE_ATTR_REPLAY_MAXDIFF : BitVec 64 := 0x200
def XFRM_AE_ATTR_REPLAY_STATE : BitVec 64 := 0x400
def XFRM_AE_ATTR_FAMILY : BitVec 64 := 0x800

def XFRM_MSG_NEWAE : ℕ := 0x1e

/-! `enum xfrm_ae_ftype_t`, the flags of an event -/

def XFRM_AE_RTHR : ℕ := 1
def XFRM_AE_ETHR : ℕ := 8

/-- `struct xfrmnl_sa_id` -/
structure XfrmnlSaId where
  daddr : Option NlAddr
  spi : BitVec 32
  family : BitVec 16
  proto : BitVec 8
deriving DecidableEq

/-- `struct xfrmnl_ae` -/
structure XfrmnlAe where
  saId : XfrmnlSaId
  saddr : Option NlAddr
  flags : BitVec 32
  reqid : BitVec 32
  mark : XfrmnlMark
  lifetimeCur : XfrmnlLifetimeCur
  replayMaxage : BitVec 32
  replayMaxdiff : BitVec 32
  replayState : XfrmnlReplayState
  replayStateEsn : Option XfrmnlReplayStateEsn
deriving DecidableEq

abbrev AeVal := ObjVal XfrmnlAe

/-- what the front of the message says -/
structure AeId where
  saId : XfrmnlSaId
  saddr : NlAddr
  flags : BitVec 32
  reqid : BitVec 32

/-- what the attributes say -/
structure AeAttrs where
  mark : Option XfrmnlMark
  lifetimeCur : Option XfrmnlLifetimeCur
  replayMaxage : Option (BitVec 32)
  replayMaxdiff : Option (BitVec 32)
  replayStateEsn : Option XfrmnlReplayStateEsn
  replayState : Option XfrmnlReplayState

/-- which of the attributes are there that may be missing -/
structure AePresent where
  mark : Bool
  lifetime : Bool
  maxage : Bool
  maxdiff : Bool
  replay : Bool
deriving DecidableEq

/-- the attributes of an event that has all the others, each with whether it is there -/
def aeBits (p : AePresent) : List (BitVec 64 × Bool) :=
  [(XFRM_AE_ATTR_DADDR, true), (XFRM_AE_ATTR_FAMILY, true), (XFRM_AE_ATTR_SPI, true), (XFRM_AE_ATTR_PROTO, true),
    (XFRM_AE_ATTR_SADDR, true), (XFRM_AE_ATTR_REQID, true), (XFRM_AE_ATTR_FLAGS, true), (XFRM_AE_ATTR_MARK, p.mark),
    (XFRM_AE_ATTR_LIFETIME, p.lifetime), (XFRM_AE_ATTR_REPLAY_MAXAGE, p.maxage),
    (XFRM_AE_ATTR_REPLAY_MAXDIFF, p.maxdiff), (XFRM_AE_ATTR_REPLAY_STATE, p.replay)]

/-! ## Parsing -/

/-- `xfrm_ae_policy` -/
def xfrmAePolicy (type : ℕ) : NlaPolicy :=
  if type = XFRMA_LTIME_VAL then ⟨.unspec, 32, 0⟩
  else if type = XFRMA_REPLAY_VAL then ⟨.unspec, 12, 0⟩
  else if type = XFRMA_REPLAY_THRESH then ⟨.u32, 0, 0⟩
  else if type = XFRMA_ETIMER_THRESH then ⟨.u32, 0, 0⟩
  else if type = XFRMA_SRCADDR then ⟨.unspec, 16, 0⟩
  else if type = XFRMA_MARK then ⟨.unspec, 8, 0⟩
  else if type = XFRMA_REPLAY_ESN_VAL then ⟨.unspec, 24, 0⟩
  else ⟨.unspec, 0, 0⟩

section

variable [HostOrder]

/-- the `struct xfrm_aevent_id` at `p`; addresses have the size of the union, whatever the family -/
def aeIdAt (m : Mem) (p : ℕ) : AeId :=
  let family := u16At m (p + 20)
  { saId := ⟨some (nlAddrBuild family.toNat (readBytes m p 16)), getBe32 m (p + 16), family, u8At m (p + 22)⟩
    saddr := nlAddrBuild family.toNat (readBytes m (p + 24) 16)
    flags := u32At m (p + 40)
    reqid := u32At m (p + 44) }

/-- the attributes that the parser looks for; the thresholds under the numbers of flags -/
def readAeAttrs (buf : Mem) (tb : Index) : AeAttrs where
  mark := (tb XFRMA_MARK).map fun a => markAt buf (nlaData a)
  lifetimeCur := (tb XFRMA_LTIME_VAL).map fun a => lifetimeCurAt buf (nlaData a)
  replayMaxage := (tb XFRM_AE_ETHR).map (nlaGetU32 buf)
  replayMaxdiff := (tb XFRM_AE_RTHR).map (nlaGetU32 buf)
  replayStateEsn := (tb XFRMA_REPLAY_ESN_VAL).map fun a => replayEsnAt buf (nlaData a)
  replayState := (tb XFRMA_REPLAY_VAL).map fun a => replayAt buf (nlaData a)

omit [HostOrder] in
/-- the object; the bit of the replay state is always set -/
def aeOf (msgtype : ℤ) (id : AeId) (a : AeAttrs) : AeVal where
  ceOps := 0
  ceMsgtype := msgtype
  ceMask := maskOf (aeBits ⟨a.mark.isSome, a.lifetimeCur.isSome, a.replayMaxage.isSome, a.replayMaxdiff.isSome, true⟩)
  data :=
    { saId := id.saId
      saddr := some id.saddr
      flags := id.flags
      reqid := id.reqid
      mark := a.mark.getD ⟨0, 0⟩
      lifetimeCur := a.lifetimeCur.getD noLifetime
      replayMaxage := a.replayMaxage.getD 0
      replayMaxdiff := a.replayMaxdiff.getD 0
      replayState := if a.replayStateEsn.isSome then ⟨0, 0, 0⟩ else a.replayState.getD ⟨0, 0, 0⟩
      replayStateEsn := a.replayStateEsn }

/-- what no policy promises is there: a replay state of either kind, and thresholds and the bitmap within the message -/
def aeReadable (n : NlMsg) (tb : Index) : Bool :=
  ((tb XFRMA_REPLAY_ESN_VAL).isSome || (tb XFRMA_REPLAY_VAL).isSome) &&
    (tb XFRM_AE_ETHR).all (fun a => decide (nlaData a + 4 ≤ n.nlmsgLen)) &&
    (tb XFRM_AE_RTHR).all (fun a => decide (nlaData a + 4 ≤ n.nlmsgLen)) &&
    (tb XFRMA_REPLAY_ESN_VAL).all fun a =>
      decide (nlaData a + (24 + 4 * (replayEsnAt n.buf (nlaData a)).bmpLen.toNat) ≤ n.nlmsgLen)

/-- `xfrmnl_ae_parse`; nothing if it reads what is no attribute, or not in the message -/
def xfrmnlAeParse (n : NlMsg) : Option (Except ℤ AeVal) :=
  let (err, tb) := nlmsgParse n 48 XFRMA_MAX (some xfrmAePolicy)
  if err < 0 then some (.error err)
  else if aeReadable n tb then some (.ok (aeOf n.nlmsgType (aeIdAt n.buf nlmsgData) (readAeAttrs n.buf tb)))
  else none

/-! ## Building -/

/-- the members of the `struct xfrm_aevent_id` that `build_xfrm_ae_message` stores -/
def aePieces (tmpl : AeVal) : Pieces :=
  let ae := tmpl.data
  [(0, (ae.saId.daddr.map NlAddr.aAddr).getD []), (16, be32Bytes ae.saId.spi), (20, u16Bytes ae.saId.family.toNat),
    (22, [UInt8.ofBitVec ae.saId.proto])] ++
    ((if has tmpl XFRM_AE_ATTR_SADDR then [(24, (ae.saddr.map NlAddr.aAddr).getD [])] else []) ++
    ((if has tmpl XFRM_AE_ATTR_FLAGS then [(40, u32Bytes ae.flags.toNat)] else []) ++
    (if has tmpl XFRM_AE_ATTR_REQID then [(44, u32Bytes ae.reqid.toNat)] else [])))

/-- the structure, in memory that was something else before -/
def aeIdBytes (stack : Mem) (tmpl : AeVal) : List UInt8 := readBytes (stores stack 0 (aePieces tmpl)) 0 48

def lifetimeCurBytes (l : XfrmnlLifetimeCur) : List UInt8 :=
  u64Bytes l.bytes.toNat ++ (u64Bytes l.packets.toNat ++ (u64Bytes l.addTime.toNat ++ u64Bytes l.useTime.toNat))

/-- the bytes of a replay state that are put; the length is a `uint32_t` -/
def XfrmnlReplayStateEsn.taken (r : XfrmnlReplayStateEsn) : List UInt8 :=
  r.bytes.take ((24 + 4 * r.bmpLen.toNat) % 4294967296)

def aeFields (tmpl : AeVal) : FieldList :=
  let ae := tmpl.data
  let replay := has tmpl XFRM_AE_ATTR_REPLAY_STATE
  [(XFRMA_MARK, ifHas tmpl XFRM_AE_ATTR_MARK ae.mark.bytes),
    (XFRMA_LTIME_VAL, ifHas tmpl XFRM_AE_ATTR_LIFETIME (lifetimeCurBytes ae.lifetimeCur)),
    (XFRMA_ETIMER_THRESH, ifHas tmpl XFRM_AE_ATTR_REPLAY_MAXAGE (u32Bytes ae.replayMaxage.toNat)),
    (XFRMA_REPLAY_THRESH, ifHas tmpl XFRM_AE_ATTR_REPLAY_MAXDIFF (u32Bytes ae.replayMaxdiff.toNat)),
    (XFRMA_REPLAY_ESN_VAL, (if replay then ae.replayStateEsn else none).map XfrmnlReplayStateEsn.taken),
    (XFRMA_REPLAY_VAL, (if replay && ae.replayStateEsn.isNone then some ae.replayState else none).map
      XfrmnlReplayState.bytes)]

/-- `build_xfrm_ae_message`; the default size of messages is a variable of the library -/
def buildXfrmAeMessage (stack : Mem) (defaultMsgSize : ℕ) (tmpl : AeVal) (cmd flags : ℕ) : Except ℤ NlMsg :=
  if has tmpl XFRM_AE_ATTR_DADDR = false ∨ has tmpl XFRM_AE_ATTR_SPI = false ∨
      has tmpl XFRM_AE_ATTR_PROTO = false then .error (-NLE_MISSING_ATTR)
  else
    match nlmsgAllocSimple defaultMsgSize cmd flags with
    | none => .error (-NLE_NOMEM)
    | some msg =>
      let (msg, err) := thenPut (-NLE_MSGSIZE) (nlmsgAppend msg (aeIdBytes stack tmpl) 4)
        (putAll (-NLE_MSGSIZE) (leavesOf (aeFields tmpl)))
      if err < 0 then .error (-NLE_MSGSIZE) else .ok msg

end

end Libnl.Xfrm
