/-
The network emulator (`lib/route/qdisc/netem.c`).

The options are a structure with attributes behind it, all in the payload of one attribute. The writer puts the structure and
the attributes as attributes of the request, and then stores the length of all of them in the header of the first, which it
looks for at a fixed offset; the length of the message it adjusts by the difference.

- `netemMsgParser`, `netemMsgFillRaw`: the operations of the module.
-/
import Mathlib.Tactic
import Libnl.Core.Window
import Libnl.Message.Overlong
import Libnl.Route.Tc

namespace Libnl.Netem

open Bytes Layout Msg Attr AttrWalk AttrTree AttrStream Writer Fields
open Tc

def TCA_NETEM_CORR : ℕ := 1
def TCA_NETEM_DELAY_DIST : ℕ := 2
def TCA_NETEM_REORDER : ℕ := 3
def TCA_NETEM_CORRUPT : ℕ := 4
def TCA_NETEM_MAX : ℕ := 13

def SCH_NETEM_ATTR_LATENCY : BitVec 32 := 0x0001
def SCH_NETEM_ATTR_LIMIT : BitVec 32 := 0x0002
def SCH_NETEM_ATTR_LOSS : BitVec 32 := 0x0004
def SCH_NETEM_ATTR_GAP : BitVec 32 := 0x0008
def SCH_NETEM_ATTR_DUPLICATE : BitVec 32 := 0x0010
def SCH_NETEM_ATTR_JITTER : BitVec 32 := 0x0020
def SCH_NETEM_ATTR_DELAY_CORR : BitVec 32 := 0x0040
def SCH_NETEM_ATTR_LOSS_CORR : BitVec 32 := 0x0080
def SCH_NETEM_ATTR_DUP_CORR : BitVec 32 := 0x0100
def SCH_NETEM_ATTR_RO_PROB : BitVec 32 := 0x0200
def SCH_NETEM_ATTR_RO_CORR : BitVec 32 := 0x0400
def SCH_NETEM_ATTR_CORRUPT_PROB : BitVec 32 := 0x0800
def SCH_NETEM_ATTR_CORRUPT_CORR : BitVec 32 := 0x1000

def NLM_F_REQUEST : ℕ := 1

/-- `sizeof(struct tc_netem_qopt)`, and of the structures in the attributes -/
def SIZEOF_QOPT : ℕ := 24
def SIZEOF_CORR : ℕ := 12
def SIZEOF_REORDER : ℕ := 8
def SIZEOF_CORRUPT : ℕ := 8

/-- the longest table of a distribution -/
def MAXDIST : ℕ := 65536

structure RtnlNetemCorr where
  nmcDelay : BitVec 32
  nmcLoss : BitVec 32
  nmcDuplicate : BitVec 32
deriving DecidableEq, Repr

structure RtnlNetemReo where
  nmroProbability : BitVec 32
  nmroCorrelation : BitVec 32
deriving DecidableEq, Repr

structure RtnlNetemCrpt where
  nmcrProbability : BitVec 32
  nmcrCorrelation : BitVec 32
deriving DecidableEq, Repr

/-- the table of a distribution; no setter takes a longer one -/
abbrev Dist := { d : List (BitVec 16) // d.length ≤ MAXDIST }

/-- `struct rtnl_netem` -/
structure RtnlNetem where
  qnmLatency : BitVec 32
  qnmLimit : BitVec 32
  qnmLoss : BitVec 32
  qnmGap : BitVec 32
  qnmDuplicate : BitVec 32
  qnmJitter : BitVec 32
  qnmMask : BitVec 32
  qnmCorr : RtnlNetemCorr
  qnmRo : RtnlNetemReo
  qnmCrpt : RtnlNetemCrpt
  qnmDist : Option Dist
deriving DecidableEq

/-- a configuration as it is allocated -/
def freshNetem : RtnlNetem := ⟨0, 0, 0, 0, 0, 0, 0, ⟨0, 0, 0⟩, ⟨0, 0⟩, ⟨0, 0⟩, none⟩

section

variable [HostOrder]

/-! ## Reading -/

def netemPolicy : ℕ → NlaPolicy := fun t =>
  if t = TCA_NETEM_CORR then ⟨.unspec, SIZEOF_CORR, 0⟩
  else if t = TCA_NETEM_REORDER then ⟨.unspec, SIZEOF_REORDER, 0⟩
  else if t = TCA_NETEM_CORRUPT then ⟨.unspec, SIZEOF_CORRUPT, 0⟩
  else ⟨.unspec, 0, 0⟩

/-- what is taken out of the structure -/
def takeQopt (opts : Mem) (netem : RtnlNetem) : RtnlNetem :=
  { netem with
    qnmLatency := u32At opts 0
    qnmLimit := u32At opts 4
    qnmLoss := u32At opts 8
    qnmGap := u32At opts 12
    qnmDuplicate := u32At opts 16
    qnmJitter := u32At opts 20
    qnmMask := SCH_NETEM_ATTR_LATENCY ||| SCH_NETEM_ATTR_LIMIT ||| SCH_NETEM_ATTR_LOSS ||| SCH_NETEM_ATTR_GAP |||
      SCH_NETEM_ATTR_DUPLICATE ||| SCH_NETEM_ATTR_JITTER }

def readCorr (buf : Mem) (nla : ℕ) : RtnlNetemCorr :=
  ⟨u32At buf (nlaData nla), u32At buf (nlaData nla + 4), u32At buf (nlaData nla + 8)⟩

def readReorder (buf : Mem) (nla : ℕ) : RtnlNetemReo := ⟨u32At buf (nlaData nla), u32At buf (nlaData nla + 4)⟩

def readCorrupt (buf : Mem) (nla : ℕ) : RtnlNetemCrpt := ⟨u32At buf (nlaData nla), u32At buf (nlaData nla + 4)⟩

/-- a bit for something that is there -/
def bitIf (c : Bool) (bits : BitVec 32) : BitVec 32 := if c then bits else 0

/-- what is taken out of the attributes -/
def takeAttrs (buf : Mem) (tb : Index) (netem : RtnlNetem) : RtnlNetem :=
  { netem with
    qnmCorr := ((tb TCA_NETEM_CORR).map (readCorr buf)).getD netem.qnmCorr
    qnmRo := ((tb TCA_NETEM_REORDER).map (readReorder buf)).getD netem.qnmRo
    qnmCrpt := ((tb TCA_NETEM_CORRUPT).map (readCorrupt buf)).getD netem.qnmCrpt
    qnmMask := netem.qnmMask |||
      bitIf (tb TCA_NETEM_CORR).isSome (SCH_NETEM_ATTR_DELAY_CORR ||| SCH_NETEM_ATTR_LOSS_CORR ||| SCH_NETEM_ATTR_DUP_CORR) |||
      bitIf (tb TCA_NETEM_REORDER).isSome (SCH_NETEM_ATTR_RO_PROB ||| SCH_NETEM_ATTR_RO_CORR) |||
      bitIf (tb TCA_NETEM_CORRUPT).isSome (SCH_NETEM_ATTR_CORRUPT_PROB ||| SCH_NETEM_ATTR_CORRUPT_CORR)
    -- the kernel does not tell the distribution
    qnmDist := none }

/-- `netem_msg_parser` -/
def netemMsgParser (opts : List UInt8) (netem : RtnlNetem) : Except ℤ RtnlNetem :=
  if opts.length < SIZEOF_QOPT then .error (-NLE_INVAL)
  else if 0 < toInt32 (opts.length - SIZEOF_QOPT) then
    let buf := memOf (opts.drop SIZEOF_QOPT)
    let r := parseBytes buf (toInt32 (opts.length - SIZEOF_QOPT)) TCA_NETEM_MAX netemPolicy
    if r.1 < 0 then .error r.1 else .ok (takeAttrs buf r.2 (takeQopt (memOf opts) netem))
  else .ok (takeQopt (memOf opts) netem)

/-! ## Writing -/

def setCorrelation (netem : RtnlNetem) : Bool :=
  decide (netem.qnmCorr.nmcDelay ≠ 0) || decide (netem.qnmCorr.nmcLoss ≠ 0) || decide (netem.qnmCorr.nmcDuplicate ≠ 0)

def setReorder (netem : RtnlNetem) : Bool := decide (netem.qnmRo.nmroProbability ≠ 0)

def setCorrupt (netem : RtnlNetem) : Bool := decide (netem.qnmCrpt.nmcrProbability ≠ 0)

/-- the table, as its bytes -/
def distBytes (netem : RtnlNetem) : List UInt8 := (netem.qnmDist.elim [] Subtype.val).flatMap fun v => u16Bytes v.toNat

def setDist (netem : RtnlNetem) : Bool := netem.qnmDist.any fun d => !d.1.isEmpty

/-- the checks of what depends on something else -/
def checkRest (netem : RtnlNetem) : ℤ :=
  if netem.qnmCorr.nmcDelay ≠ 0 ∧ (netem.qnmLatency = 0 ∨ netem.qnmJitter = 0) then -NLE_MISSING_ATTR
  else if netem.qnmCorr.nmcLoss ≠ 0 ∧ netem.qnmLoss = 0 then -NLE_MISSING_ATTR
  else if netem.qnmCorr.nmcDuplicate ≠ 0 ∧ netem.qnmDuplicate = 0 then -NLE_MISSING_ATTR
  else if netem.qnmRo.nmroProbability = 0 ∧ netem.qnmRo.nmroCorrelation ≠ 0 then -NLE_MISSING_ATTR
  else if netem.qnmCrpt.nmcrProbability = 0 ∧ netem.qnmCrpt.nmcrCorrelation ≠ 0 then -NLE_MISSING_ATTR
  else if setDist netem = true ∧ (netem.qnmLatency = 0 ∨ netem.qnmJitter = 0) then -NLE_MISSING_ATTR
  else 0

/-- all checks; reordering without a gap gets one -/
def checkNetem (netem : RtnlNetem) : RtnlNetem × ℤ :=
  if netem.qnmRo.nmroProbability ≠ 0 then
    if netem.qnmLatency = 0 then (netem, -NLE_MISSING_ATTR)
    else
      let netem := if netem.qnmGap = 0 then { netem with qnmGap := 1 } else netem
      (netem, checkRest netem)
  else if netem.qnmGap ≠ 0 then (netem, -NLE_MISSING_ATTR)
  else (netem, checkRest netem)

/-- `realloc` of a message, by the length of a table; the new size is an `int` -/
def growMsg (msg : NlMsg) (bytes : ℕ) : Option NlMsg :=
  let size := toU64 (toInt32 (msg.nmSize + bytes))
  if PTRDIFF_MAX < size then none else some { msg with nmSize := size }

/-- `struct tc_netem_qopt` -/
def qopt (netem : RtnlNetem) : List UInt8 :=
  u32Bytes netem.qnmLatency.toNat ++ u32Bytes (if netem.qnmLimit ≠ 0 then netem.qnmLimit else 1000).toNat ++
    u32Bytes netem.qnmLoss.toNat ++ u32Bytes netem.qnmGap.toNat ++ u32Bytes netem.qnmDuplicate.toNat ++
    u32Bytes netem.qnmJitter.toNat

def corrBytes (c : RtnlNetemCorr) : List UInt8 :=
  u32Bytes c.nmcDelay.toNat ++ u32Bytes c.nmcLoss.toNat ++ u32Bytes c.nmcDuplicate.toNat

def reorderBytes (r : RtnlNetemReo) : List UInt8 := u32Bytes r.nmroProbability.toNat ++ u32Bytes r.nmroCorrelation.toNat

def corruptBytes (c : RtnlNetemCrpt) : List UInt8 := u32Bytes c.nmcrProbability.toNat ++ u32Bytes c.nmcrCorrelation.toNat

/-- something that is put under a condition -/
def optIf {α : Type} (c : Bool) (x : α) : Option α := if c then some x else none

/-- the attributes behind the structure -/
def netemFields (netem : RtnlNetem) : FieldList :=
  [(TCA_NETEM_CORR, (optIf (setCorrelation netem) netem.qnmCorr).map corrBytes),
    (TCA_NETEM_REORDER, (optIf (setReorder netem) netem.qnmRo).map reorderBytes),
    (TCA_NETEM_CORRUPT, (optIf (setCorrupt netem) netem.qnmCrpt).map corruptBytes),
    (TCA_NETEM_DELAY_DIST, optIf (setDist netem) (distBytes netem))]

/-- the structure, and the attributes -/
def netemLeaves (netem : RtnlNetem) : List Leaf := ⟨TCA_OPTIONS, qopt netem⟩ :: leavesOf (netemFields netem)

/-- where the header of the options is looked for: `NLMSG_DATA(nlh) + NLMSG_LENGTH(sizeof(struct tcmsg)) - NLMSG_ALIGNTO` -/
def headAt : ℕ := NLMSG_HDRLEN + (SIZEOF_TCMSG + NLMSG_HDRLEN) - 4

/-- the length of the options, and of the message with it -/
def setSpan (msg : NlMsg) : NlMsg :=
  let oldLen := nlaLenField msg.buf headAt
  let newLen := toU16 (nlmsgAlign msg.nlmsgLen - headAt)
  { msg with buf := write msg.buf headAt (u16Bytes newLen), nlmsgLen := toU32 (msg.nlmsgLen + (newLen - oldLen)) }

/-- the options of a configuration that passed the checks -/
def putNetem (netem : RtnlNetem) (msg : NlMsg) : NlMsg × ℤ :=
  thenPut (-NLE_MSGSIZE) (putAll (-NLE_MSGSIZE) (netemLeaves netem) msg) fun msg => (setSpan msg, 0)

/-- the message, marked as a request -/
def flagged (msg : NlMsg) : NlMsg := { msg with nlmsgFlags := msg.nlmsgFlags ||| NLM_F_REQUEST }

omit [HostOrder] in
theorem flagged_len (msg : NlMsg) : (flagged msg).nlmsgLen = msg.nlmsgLen := rfl

omit [HostOrder] in
theorem flagged_buf (msg : NlMsg) : (flagged msg).buf = msg.buf := rfl

/-- `netem_msg_fill_raw`; what becomes of the configuration is in `checkNetem` -/
def netemMsgFillRaw (netem : RtnlNetem) (msg : NlMsg) : NlMsg × ℤ :=
  if (checkNetem netem).2 < 0 then (flagged msg, (checkNetem netem).2)
  else if setDist (checkNetem netem).1 = true then
    (growMsg (flagged msg) (distBytes (checkNetem netem).1).length).elim (flagged msg, -NLE_NOMEM) (putNetem (checkNetem netem).1)
  else putNetem (checkNetem netem).1 (flagged msg)

end

end Libnl.Netem
