/-
Conntrack messages, there and back.

What of a connection travels is described by parts, each there or not (`TupleParts` for a direction). The builder puts the
parts of the object; the parser, which finds them, makes setter calls with them (`applyTuple`, `applyScalars`), on an
object that is new. So the object it makes has the same parts.

- `built_owns`: after any calls of the setters, an address the object has is one it holds.
- `ct_round_trip`: the parser finds in the message for such an object what was set.
-/
import Mathlib.Tactic
import Libnl.Core.Mask
import Libnl.Netfilter.Ct

namespace Libnl.Ct

open Bytes Msg Attr AttrWalk AttrTree AttrStream Writer Fields Mask
open Object Addr Addr.Family

/-! ## Objects built with the setters -/

/-- a call of a setter for an attribute that travels -/
inductive CtSet where
  | family (family : BitVec 8)
  | proto (proto : BitVec 8)
  | status (status : BitVec 32)
  | unsetStatus (status : BitVec 32)
  | timeout (timeout : BitVec 32)
  | mark (mark : BitVec 32)
  | id (id : BitVec 32)
  | zone (zone : BitVec 16)
  | src (repl : Bool) (addr : NlAddr)
  | dst (repl : Bool) (addr : NlAddr)
  | srcPort (repl : Bool) (port : BitVec 16)
  | dstPort (repl : Bool) (port : BitVec 16)
  | icmpId (repl : Bool) (id : BitVec 16)
  | icmpType (repl : Bool) (type : BitVec 8)
  | icmpCode (repl : Bool) (code : BitVec 8)

/-- the object after a call that may have failed -/
def orSame (ct : CtObj) (r : Except ℤ CtObj) : CtObj :=
  match r with
  | .ok ct' => ct'
  | .error _ => ct

def applySet [HostOrder] (ct : CtObj) : CtSet → CtObj
  | .family f => nfnlCtSetFamily ct f
  | .proto p => nfnlCtSetProto ct p
  | .status s => nfnlCtSetStatus ct s
  | .unsetStatus s => nfnlCtUnsetStatus ct s
  | .timeout t => nfnlCtSetTimeout ct t
  | .mark m => nfnlCtSetMark ct m
  | .id i => nfnlCtSetId ct i
  | .zone z => nfnlCtSetZone ct z
  | .src repl addr => orSame ct (nfnlCtSetSrc ct repl addr)
  | .dst repl addr => orSame ct (nfnlCtSetDst ct repl addr)
  | .srcPort repl port => nfnlCtSetSrcPort ct repl port
  | .dstPort repl port => nfnlCtSetDstPort ct repl port
  | .icmpId repl id => nfnlCtSetIcmpId ct repl id
  | .icmpType repl type => nfnlCtSetIcmpType ct repl type
  | .icmpCode repl code => nfnlCtSetIcmpCode ct repl code

def builtWith [HostOrder] (sets : List CtSet) : CtObj := sets.foldl applySet nfnlCtAlloc

theorem hasAttr_withAttr (ct : CtObj) (attr bit : BitVec 64) (data : NfnlCt) :
    hasAttr (withAttr ct attr data) bit = (hasAttr ct bit || decide (attr &&& bit ≠ 0)) := by
  rw [Bool.eq_iff_iff, Bool.or_eq_true]
  simp only [hasAttr, withAttr, decide_eq_true_eq, BitVec.and_or_distrib_right, ne_eq, BitVec.ofNat_eq_ofNat,
    BitVec.or_eq_zero_iff, not_and_or]

theorem dir_setDir (d : NfnlCt) (r r' : Bool) (x : NfnlCtDir) :
    (d.setDir r x).dir r' = if r' = r then x else d.dir r' := by
  cases r with
  | true =>
    cases r' with
    | true => rfl
    | false => rfl
  | false =>
    cases r' with
    | true => rfl
    | false => rfl

/-- addresses the object has are there -/
def Owns (ct : CtObj) : Prop := ∀ r,
  (hasAttr ct (srcAttr r) = true → (ct.data.dir r).src.isSome = true) ∧
    (hasAttr ct (dstAttr r) = true → (ct.data.dir r).dst.isSome = true)

/-- a change that leaves addresses, and the attributes for them, alone -/
theorem Owns.with {ct : CtObj} (h : Owns ct) {attr : BitVec 64} {data : NfnlCt}
    (hattr : ∀ r, attr &&& srcAttr r = 0 ∧ attr &&& dstAttr r = 0)
    (hdata : ∀ r, (data.dir r).src = (ct.data.dir r).src ∧ (data.dir r).dst = (ct.data.dir r).dst) :
    Owns (withAttr ct attr data) := by
  intro r
  obtain ⟨hsrc, hdst⟩ := hattr r
  obtain ⟨hs, hd⟩ := hdata r
  rw [hasAttr_withAttr, hasAttr_withAttr, hsrc, hdst]
  simp only [ne_eq, not_true_eq_false, decide_false, Bool.or_false, withAttr, hs, hd]
  exact h r

theorem Owns.setFamily {ct : CtObj} (h : Owns ct) (f : BitVec 8) : Owns (nfnlCtSetFamily ct f) :=
  h.with (by decide) fun _ => ⟨rfl, rfl⟩

/-- the protocol part is no address -/
theorem Owns.setProtoPart {ct : CtObj} (h : Owns ct) (repl : Bool) {attr : BitVec 64} (f : NfnlCtProto → NfnlCtProto)
    (hattr : ∀ r, attr &&& srcAttr r = 0 ∧ attr &&& dstAttr r = 0) : Owns (setProtoPart ct repl attr f) := by
  refine h.with hattr fun r => ?_
  rw [dir_setDir]
  by_cases hr : r = repl
  · rw [if_pos hr, hr]
    exact ⟨rfl, rfl⟩
  · rw [if_neg hr]
    exact ⟨rfl, rfl⟩

theorem src_and_dst : ∀ r r', srcAttr r &&& dstAttr r' = 0 := by decide

theorem src_and_src : ∀ r r', r' ≠ r → srcAttr r &&& srcAttr r' = 0 := by decide

theorem dst_and_dst : ∀ r r', r' ≠ r → dstAttr r &&& dstAttr r' = 0 := by decide

theorem Owns.setAddr {ct ct' : CtObj} (h : Owns ct) {addr : NlAddr} {attr : BitVec 64} {store : NfnlCt → NfnlCt}
    (hstore : ∀ ct : CtObj, Owns ct → Owns (withAttr ct attr (store ct.data)))
    (heq : ctSetAddr ct addr attr store = .ok ct') : Owns ct' := by
  unfold ctSetAddr at heq
  split_ifs at heq
  · cases heq
    exact hstore ct h
  · cases heq
    exact hstore _ (h.setFamily _)

theorem Owns.setSrc {ct ct' : CtObj} (h : Owns ct) {repl : Bool} {addr : NlAddr}
    (heq : nfnlCtSetSrc ct repl addr = .ok ct') : Owns ct' := by
  refine h.setAddr (fun ct hct r => ?_) heq
  rw [hasAttr_withAttr, hasAttr_withAttr, src_and_dst]
  simp only [withAttr, dir_setDir]
  by_cases hr : r = repl
  · rw [if_pos hr]
    refine ⟨fun _ => rfl, fun hhas => ?_⟩
    rw [← hr]
    exact (hct r).2 (by simpa using hhas)
  · rw [if_neg hr, src_and_src repl r hr]
    simpa using hct r

theorem Owns.setDst {ct ct' : CtObj} (h : Owns ct) {repl : Bool} {addr : NlAddr}
    (heq : nfnlCtSetDst ct repl addr = .ok ct') : Owns ct' := by
  refine h.setAddr (fun ct hct r => ?_) heq
  rw [hasAttr_withAttr, hasAttr_withAttr, BitVec.and_comm (dstAttr repl) (srcAttr r), src_and_dst]
  simp only [withAttr, dir_setDir]
  by_cases hr : r = repl
  · rw [if_pos hr]
    refine ⟨fun hhas => ?_, fun _ => rfl⟩
    rw [← hr]
    exact (hct r).1 (by simpa using hhas)
  · rw [if_neg hr, dst_and_dst repl r hr]
    simpa using hct r

theorem Owns.orSame {ct : CtObj} (h : Owns ct) {r : Except ℤ CtObj} (hr : ∀ ct', r = .ok ct' → Owns ct') :
    Owns (orSame ct r) := by
  cases r with
  | ok ct' => exact hr ct' rfl
  | error e => exact h

theorem Owns.set [HostOrder] {ct : CtObj} (h : Owns ct) (s : CtSet) : Owns (applySet ct s) := by
  cases s with
  | family f => exact h.setFamily f
  | proto p => exact h.with (by decide) fun _ => ⟨rfl, rfl⟩
  | status s => exact h.with (by decide) fun _ => ⟨rfl, rfl⟩
  | unsetStatus s => exact h.with (by decide) fun _ => ⟨rfl, rfl⟩
  | timeout t => exact h.with (by decide) fun _ => ⟨rfl, rfl⟩
  | mark m => exact h.with (by decide) fun _ => ⟨rfl, rfl⟩
  | id i => exact h.with (by decide) fun _ => ⟨rfl, rfl⟩
  | zone z => exact h.with (by decide) fun _ => ⟨rfl, rfl⟩
  | src repl addr => exact h.orSame fun _ => h.setSrc
  | dst repl addr => exact h.orSame fun _ => h.setDst
  | srcPort repl port => exact h.setProtoPart repl _ (by revert repl; decide)
  | dstPort repl port => exact h.setProtoPart repl _ (by revert repl; decide)
  | icmpId repl id => exact h.setProtoPart repl _ (by revert repl; decide)
  | icmpType repl type => exact h.setProtoPart repl _ (by revert repl; decide)
  | icmpCode repl code => exact h.setProtoPart repl _ (by revert repl; decide)

/-- **Objects that the setters made** hold the addresses they have. -/
theorem built_owns [HostOrder] (sets : List CtSet) : Owns (builtWith sets) := by
  unfold builtWith
  induction sets using List.reverseRecOn with
  | nil =>
    intro r
    have hnone : ∀ attr, hasAttr nfnlCtAlloc attr = false := fun attr => by simp [hasAttr, nfnlCtAlloc]
    rw [List.foldl_nil, hnone, hnone]
    exact ⟨nofun, nofun⟩
  | append_singleton sets s ih =>
    rw [List.foldl_append]
    exact ih.set s

/-! ## Parts -/

/-- what of a direction travels -/
structure TupleParts where
  src : Option (List UInt8)
  dst : Option (List UInt8)
  srcPort : Option (BitVec 16)
  dstPort : Option (BitVec 16)
  icmpId : Option (BitVec 16)
  icmpType : Option (BitVec 8)
  icmpCode : Option (BitVec 8)

def TupleParts.none : TupleParts := ⟨.none, .none, .none, .none, .none, .none, .none⟩

/-- what else travels -/
structure ScalarParts where
  status : Option (BitVec 32)
  timeout : Option (BitVec 32)
  mark : Option (BitVec 32)
  id : Option (BitVec 32)
  zone : Option (BitVec 16)

/-- the value, if the object has the attribute -/
def valIf {β : Type} (ct : CtObj) (attr : BitVec 64) (x : β) : Option β := if hasAttr ct attr then some x else none

theorem valIf_isSome {β : Type} (ct : CtObj) (attr : BitVec 64) (x : β) : (valIf ct attr x).isSome = hasAttr ct attr := by
  unfold valIf
  cases hasAttr ct attr with
  | true => rfl
  | false => rfl

theorem ifAttr_eq {β : Type} (ct : CtObj) (attr : BitVec 64) (x : β) (enc : β → List UInt8) :
    ifAttr ct attr (enc x) = (valIf ct attr x).map enc := by
  unfold ifAttr valIf
  cases hasAttr ct attr with
  | true => rfl
  | false => rfl

def numOf (ct : CtObj) : Option (BitVec 8) := valIf ct CT_ATTR_PROTO ct.data.ctProto

def scalarsOf (ct : CtObj) : ScalarParts :=
  ⟨valIf ct CT_ATTR_STATUS ct.data.ctStatus, valIf ct CT_ATTR_TIMEOUT ct.data.ctTimeout,
    valIf ct CT_ATTR_MARK ct.data.ctMark, valIf ct CT_ATTR_ID ct.data.ctId, valIf ct CT_ATTR_ZONE ct.data.ctZone⟩

/-- the families a connection may be of -/
inductive Fam where
  | v4 | v6

def Fam.num : Fam → BitVec 8
  | .v4 => 2
  | .v6 => 10

def Fam.addrLen : Fam → ℕ
  | .v4 => 4
  | .v6 => 16

def Fam.srcType : Fam → ℕ
  | .v4 => CTA_IP_V4_SRC
  | .v6 => CTA_IP_V6_SRC

def Fam.dstType : Fam → ℕ
  | .v4 => CTA_IP_V4_DST
  | .v6 => CTA_IP_V6_DST

def Fam.idType : Fam → ℕ
  | .v4 => CTA_PROTO_ICMP_ID
  | .v6 => CTA_PROTO_ICMPV6_ID

def Fam.typeType : Fam → ℕ
  | .v4 => CTA_PROTO_ICMP_TYPE
  | .v6 => CTA_PROTO_ICMPV6_TYPE

def Fam.codeType : Fam → ℕ
  | .v4 => CTA_PROTO_ICMP_CODE
  | .v6 => CTA_PROTO_ICMPV6_CODE

theorem Fam.icmpTypes (fam : Fam) : icmpTypes fam.num = some (fam.idType, fam.typeType, fam.codeType) := by
  cases fam with
  | v4 => rfl
  | v6 => rfl

/-- an address of the family, of its length and with a full prefix -/
def Fam.addr (fam : Fam) (bs : List UInt8) : NlAddr := nlAddrBuild fam.num.toNat bs

def ipFields (fam : Fam) (p : TupleParts) : FieldList := [(fam.srcType, p.src), (fam.dstType, p.dst)]

section

variable [HostOrder]

def tuplePartsOf (ct : CtObj) (repl : Bool) : TupleParts where
  src := (nfnlCtGetSrc ct repl).map NlAddr.aAddr
  dst := (nfnlCtGetDst ct repl).map NlAddr.aAddr
  srcPort := valIf ct (srcPortAttr repl) (ct.data.dir repl).proto.first
  dstPort := valIf ct (dstPortAttr repl) (ct.data.dir repl).proto.dst
  icmpId := valIf ct (icmpIdAttr repl) (ct.data.dir repl).proto.first
  icmpType := valIf ct (icmpTypeAttr repl) (ct.data.dir repl).proto.type.toBitVec
  icmpCode := valIf ct (icmpCodeAttr repl) (ct.data.dir repl).proto.code.toBitVec

def protoFields (fam : Fam) (num : Option (BitVec 8)) (p : TupleParts) : FieldList :=
  [(CTA_PROTO_NUM, num.map fun v => [UInt8.ofBitVec v]), (CTA_PROTO_SRC_PORT, p.srcPort.map be16Bytes),
    (CTA_PROTO_DST_PORT, p.dstPort.map be16Bytes), (fam.idType, p.icmpId.map be16Bytes),
    (fam.typeType, p.icmpType.map fun v => [UInt8.ofBitVec v]), (fam.codeType, p.icmpCode.map fun v => [UInt8.ofBitVec v])]

def tupleFields (fam : Fam) (num : Option (BitVec 8)) (p : TupleParts) : FieldList :=
  [(32768 + CTA_TUPLE_IP, nestPayload (ipFields fam p)), (32768 + CTA_TUPLE_PROTO, nestPayload (protoFields fam num p))]

def scalarFields (s : ScalarParts) : FieldList :=
  [(CTA_STATUS, s.status.map be32Bytes), (CTA_TIMEOUT, s.timeout.map be32Bytes), (CTA_MARK, s.mark.map be32Bytes),
    (CTA_ID, s.id.map be32Bytes), (CTA_ZONE, s.zone.map be16Bytes)]

/-- the attributes of a message -/
def ctFields (orig reply : FieldList) (s : ScalarParts) : FieldList :=
  (32768 + CTA_TUPLE_ORIG, nestPayload orig) :: (32768 + CTA_TUPLE_REPLY, nestPayload reply) :: scalarFields s

/-! ## What the builder puts -/

theorem ctIpFields_eq {ct : CtObj} {fam : Fam} (hfam : nfnlCtGetFamily ct = fam.num) (repl : Bool) :
    ctIpFields ct repl = ipFields fam (tuplePartsOf ct repl) := by
  unfold ctIpFields
  rw [hfam]
  cases fam with
  | v4 => rfl
  | v6 => rfl

theorem ctProtoFields_eq {ct : CtObj} {fam : Fam} (hfam : nfnlCtGetFamily ct = fam.num) (repl : Bool) :
    ctProtoFields ct repl = protoFields fam (numOf ct) (tuplePartsOf ct repl) := by
  let proto := (ct.data.dir repl).proto
  let enc8 : BitVec 8 → List UInt8 := fun v => [UInt8.ofBitVec v]
  have hnum := ifAttr_eq ct CT_ATTR_PROTO ct.data.ctProto enc8
  have hsrc := ifAttr_eq ct (srcPortAttr repl) proto.first be16Bytes
  have hdst := ifAttr_eq ct (dstPortAttr repl) proto.dst be16Bytes
  have hid := ifAttr_eq ct (icmpIdAttr repl) proto.first be16Bytes
  have htype := ifAttr_eq ct (icmpTypeAttr repl) proto.type.toBitVec enc8
  have hcode := ifAttr_eq ct (icmpCodeAttr repl) proto.code.toBitVec enc8
  unfold ctProtoFields
  rw [hfam, fam.icmpTypes]
  simp only [List.cons_append, List.nil_append, protoFields, List.cons.injEq, Prod.mk.injEq, true_and, and_true]
  exact ⟨hnum, hsrc, hdst, hid, htype, hcode⟩

omit [HostOrder] in
theorem ctScalarFields_eq (ct : CtObj) : ctScalarFields ct = scalarFields (scalarsOf ct) := by
  unfold ctScalarFields
  simp only [ifAttr_eq ct _ _ be16Bytes, ifAttr_eq ct _ _ be32Bytes]
  rfl

end

/-! ## What the parser makes of parts -/

section

variable (repl : Bool) (fam : Fam)

def applySrc (ct : CtObj) (bs : List UInt8) : CtObj :=
  withAttr ct (srcAttr repl) (ct.data.setDir repl { ct.data.dir repl with src := some (fam.addr bs) })

def applyDst (ct : CtObj) (bs : List UInt8) : CtObj :=
  withAttr ct (dstAttr repl) (ct.data.setDir repl { ct.data.dir repl with dst := some (fam.addr bs) })

def applyIp (p : TupleParts) (ct : CtObj) : CtObj :=
  setIf p.dst (applyDst repl fam) (setIf p.src (applySrc repl fam) ct)

variable [HostOrder]

def applyProto (num : Option (BitVec 8)) (p : TupleParts) (ct : CtObj) : CtObj :=
  let ct := if repl then ct else setIf num nfnlCtSetProto ct
  let ct := setIf p.srcPort (nfnlCtSetSrcPort · repl) ct
  let ct := setIf p.dstPort (nfnlCtSetDstPort · repl) ct
  let ct := setIf p.icmpId (nfnlCtSetIcmpId · repl) ct
  let ct := setIf p.icmpType (nfnlCtSetIcmpType · repl) ct
  setIf p.icmpCode (nfnlCtSetIcmpCode · repl) ct

end

def applyScalars (s : ScalarParts) (ct : CtObj) : CtObj :=
  let ct := setIf s.status nfnlCtSetStatus ct
  let ct := setIf s.timeout nfnlCtSetTimeout ct
  let ct := setIf s.mark nfnlCtSetMark ct
  let ct := setIf s.id nfnlCtSetId ct
  setIf s.zone nfnlCtSetZone ct

/-- a reader's setter call, with what is read -/
theorem setIf_read {β γ : Type} {f : CtObj → γ → CtObj} {read : β → γ} {o : Option β} {x : Option γ}
    (h : o.map read = x) (ct : CtObj) : setIf o (fun ct a => f ct (read a)) ct = setIf x f ct := by
  subst h
  cases o with
  | none => rfl
  | some a => rfl

theorem tryIf_read {β γ : Type} {f : CtObj → γ → Except ℤ CtObj} {read : β → γ} {o : Option β} {x : Option γ}
    (h : o.map read = x) (ct : CtObj) : tryIf o (fun ct a => f ct (read a)) ct = tryIf x f ct := by
  subst h
  cases o with
  | none => rfl
  | some a => rfl

theorem tryIf_ok {β : Type} {f : CtObj → β → Except ℤ CtObj} {g : CtObj → β → CtObj} {o : Option β} {ct : CtObj}
    (h : ∀ x ∈ o, f ct x = .ok (g ct x)) : tryIf o f ct = .ok (setIf o g ct) := by
  cases o with
  | none => rfl
  | some x => exact h x rfl

/-! ## Reading -/

/-- the object is of the family -/
structure OfFam (fam : Fam) (ct : CtObj) : Prop where
  has : hasAttr ct CT_ATTR_FAMILY = true
  family : ct.data.ctFamily = fam.num

/-- setters for other attributes keep the family -/
theorem OfFam.setIf {fam : Fam} {ct : CtObj} (h : OfFam fam ct) {β : Type} {f : CtObj → β → CtObj} (o : Option β)
    (hf : ∀ ct x, ∃ attr data, f ct x = withAttr ct attr data ∧ data.ctFamily = ct.data.ctFamily) :
    OfFam fam (setIf o f ct) := by
  cases o with
  | none => exact h
  | some x =>
    obtain ⟨attr, data, heq, hdata⟩ := hf ct x
    have hset : Ct.setIf (some x) f ct = withAttr ct attr data := heq
    rw [hset]
    exact ⟨by rw [hasAttr_withAttr, h.has, Bool.true_or], hdata.trans h.family⟩

theorem setDir_family (d : NfnlCt) (repl : Bool) (x : NfnlCtDir) : (d.setDir repl x).ctFamily = d.ctFamily := by
  cases repl with
  | true => rfl
  | false => rfl

/-- addresses of the length of the family -/
def FullParts (fam : Fam) (p : TupleParts) : Prop :=
  (∀ bs ∈ p.src, bs.length = fam.addrLen) ∧ ∀ bs ∈ p.dst, bs.length = fam.addrLen

section

variable {repl : Bool} {fam : Fam} {p : TupleParts} {ct : CtObj}

theorem setSrc_ok (h : OfFam fam ct) (bs : List UInt8) :
    nfnlCtSetSrc ct repl (fam.addr bs) = .ok (applySrc repl fam ct bs) := by
  unfold nfnlCtSetSrc ctSetAddr
  have hfam : ¬ (fam.addr bs).aFamily ≠ (ct.data.ctFamily.toNat : ℤ) := by
    rw [h.family]
    exact not_not.2 rfl
  rw [if_pos h.has, if_neg hfam]
  rfl

theorem setDst_ok (h : OfFam fam ct) (bs : List UInt8) :
    nfnlCtSetDst ct repl (fam.addr bs) = .ok (applyDst repl fam ct bs) := by
  unfold nfnlCtSetDst ctSetAddr
  have hfam : ¬ (fam.addr bs).aFamily ≠ (ct.data.ctFamily.toNat : ℤ) := by
    rw [h.family]
    exact not_not.2 rfl
  rw [if_pos h.has, if_neg hfam]
  rfl

theorem OfFam.src (h : OfFam fam ct) (o : Option (List UInt8)) : OfFam fam (Ct.setIf o (applySrc repl fam) ct) :=
  h.setIf o fun _ _ => ⟨_, _, rfl, setDir_family ..⟩

theorem OfFam.ip (h : OfFam fam ct) : OfFam fam (applyIp repl fam p ct) :=
  (h.src p.src).setIf p.dst fun _ _ => ⟨_, _, rfl, setDir_family ..⟩

theorem ipFields_sendable (h : FullParts fam p) : Sendable ctIpPolicy (ipFields fam p) := by
  have hsend : ∀ t, (t = fam.srcType ∨ t = fam.dstType) → ∀ o : Option (List UInt8), (∀ bs ∈ o, bs.length = fam.addrLen) →
      Sends (ctIpPolicy (t % 16384)) o := by
    intro t ht o ho
    cases fam with
    | v4 =>
      have hpol : ctIpPolicy (t % 16384) = ⟨.u32, 0, 0⟩ := by
        rcases ht with rfl | rfl
        · rfl
        · rfl
      rw [hpol]
      refine sends_min rfl (by decide) fun q hq => ?_
      have hlen : q.length = 4 := ho q hq
      exact ⟨by omega, by simp [nlaAttrMinlen, hlen]⟩
    | v6 =>
      have hpol : ctIpPolicy (t % 16384) = ⟨.unspec, 16, 0⟩ := by
        rcases ht with rfl | rfl
        · rfl
        · rfl
      rw [hpol]
      refine sends_min rfl (by decide) fun q hq => ?_
      have hlen : q.length = 16 := ho q hq
      exact ⟨by omega, by simp [hlen]⟩
  have htypes : fam.srcType < 65536 ∧ fam.dstType < 65536 := by
    cases fam with
    | v4 => decide
    | v6 => decide
  exact Sendable.cons htypes.1 (hsend _ (Or.inl rfl) _ h.1)
    (Sendable.cons htypes.2 (hsend _ (Or.inr rfl) _ h.2) (Sendable.nil _))

theorem ipFields_distinct (fam : Fam) (p : TupleParts) : Distinct (ipFields fam p) := by
  show List.Nodup _
  simp only [ipFields, List.map_cons, List.map_nil]
  cases fam with
  | v4 => decide
  | v6 => decide

theorem protoFields_sendable (num : Option (BitVec 8)) : Sendable ctProtoPolicy (protoFields fam num p) := by
  cases fam with
  | v4 =>
    refine Sendable.cons (by decide) (sends_u8 (by decide) _) ?_
    refine Sendable.cons (by decide) (sends_be16 (by decide) _) ?_
    refine Sendable.cons (by decide) (sends_be16 (by decide) _) ?_
    refine Sendable.cons (by decide) (sends_be16 (by decide) _) ?_
    refine Sendable.cons (by decide) (sends_u8 (by decide) _) ?_
    exact Sendable.cons (by decide) (sends_u8 (by decide) _) (Sendable.nil _)
  | v6 =>
    refine Sendable.cons (by decide) (sends_u8 (by decide) _) ?_
    refine Sendable.cons (by decide) (sends_be16 (by decide) _) ?_
    refine Sendable.cons (by decide) (sends_be16 (by decide) _) ?_
    refine Sendable.cons (by decide) (sends_be16 (by decide) _) ?_
    refine Sendable.cons (by decide) (sends_u8 (by decide) _) ?_
    exact Sendable.cons (by decide) (sends_u8 (by decide) _) (Sendable.nil _)

theorem protoFields_distinct (fam : Fam) (num : Option (BitVec 8)) (p : TupleParts) :
    Distinct (protoFields fam num p) := by
  show List.Nodup _
  simp only [protoFields, List.map_cons, List.map_nil]
  cases fam with
  | v4 => decide
  | v6 => decide

variable [HostOrder]

theorem OfFam.ports (h : OfFam fam ct) (num : Option (BitVec 8)) (sport dport : Option (BitVec 16)) :
    OfFam fam (Ct.setIf dport (nfnlCtSetDstPort · repl) (Ct.setIf sport (nfnlCtSetSrcPort · repl)
      (if repl then ct else Ct.setIf num nfnlCtSetProto ct))) := by
  have hnum : OfFam fam (if repl then ct else Ct.setIf num nfnlCtSetProto ct) := by
    cases repl with
    | true => exact h
    | false => exact h.setIf num fun _ _ => ⟨_, _, rfl, rfl⟩
  exact (hnum.setIf sport fun _ _ => ⟨_, _, rfl, setDir_family ..⟩).setIf dport fun _ _ =>
    ⟨_, _, rfl, setDir_family ..⟩

theorem OfFam.proto (h : OfFam fam ct) (num : Option (BitVec 8)) : OfFam fam (applyProto repl num p ct) := by
  unfold applyProto
  refine OfFam.setIf (OfFam.setIf (OfFam.setIf (h.ports num p.srcPort p.dstPort) _ ?_) _ ?_) _ ?_
  · exact fun _ _ => ⟨_, _, rfl, setDir_family ..⟩
  · exact fun _ _ => ⟨_, _, rfl, setDir_family ..⟩
  · exact fun _ _ => ⟨_, _, rfl, setDir_family ..⟩

theorem ipFields_length (h : FullParts fam p) : (encLeaves (leavesOf (ipFields fam p))).length ≤ 40 := by
  have hlen : fam.addrLen ≤ 16 := by
    cases fam with
    | v4 => decide
    | v6 => decide
  refine fields_length_le (n := 16) fun f hf q hq => ?_
  rcases List.mem_pair.1 hf with rfl | rfl
  · exact (h.1 q hq).le.trans hlen
  · exact (h.2 q hq).le.trans hlen

theorem protoFields_length (fam : Fam) (num : Option (BitVec 8)) (p : TupleParts) :
    (encLeaves (leavesOf (protoFields fam num p))).length ≤ 48 := by
  refine fields_length_le (n := 4) fun f hf q hq => ?_
  have hone : ∀ o : Option (BitVec 8), q ∈ o.map (fun v => [UInt8.ofBitVec v]) → q.length ≤ 4 := by
    intro o ho
    obtain ⟨v, -, rfl⟩ := Option.mem_map.1 ho
    exact (by decide : 1 ≤ 4)
  have htwo : ∀ o : Option (BitVec 16), q ∈ o.map be16Bytes → q.length ≤ 4 := by
    intro o ho
    obtain ⟨v, -, rfl⟩ := Option.mem_map.1 ho
    exact (by decide : 2 ≤ 4)
  simp only [protoFields, List.mem_cons, List.not_mem_nil, or_false] at hf
  rcases hf with rfl | rfl | rfl | rfl | rfl | rfl
  · exact hone _ hq
  · exact htwo _ hq
  · exact htwo _ hq
  · exact htwo _ hq
  · exact hone _ hq
  · exact hone _ hq

variable {buf : Mem} {pos t : ℕ}

/-- **The addresses of a tuple**, read -/
theorem parseIp_fields (hat : At buf pos ⟨t, encLeaves (leavesOf (ipFields fam p))⟩) (hp : FullParts fam p)
    (h : OfFam fam ct) : ctParseIp buf repl ct pos = .ok (applyIp repl fam p ct) := by
  have hlen := ipFields_length hp
  have hd := ipFields_distinct fam p
  obtain ⟨tb, hparse, hidx⟩ := parseNested_fields CTA_IP_MAX hat (ipFields_sendable hp) (by omega)
  have htypes : fam.srcType ≤ CTA_IP_MAX ∧ fam.dstType ≤ CTA_IP_MAX := by
    cases fam with
    | v4 => decide
    | v6 => decide
  have hsrc : (tb fam.srcType).map (nlaBytes buf) = p.src :=
    (shown_plain hidx hd (by decide) (List.mem_pair.2 (Or.inl rfl)) htypes.1).bytes
  have hdst : (tb fam.dstType).map (nlaBytes buf) = p.dst :=
    (shown_plain hidx hd (by decide) (List.mem_pair.2 (Or.inr rfl)) htypes.2).bytes
  have hother : ∀ t' ≤ CTA_IP_MAX, fam.srcType ≠ t' → fam.dstType ≠ t' → tb t' = none := by
    intro t' ht' hs hd'
    refine none_of_indexes hidx ht' fun f hf => ?_
    have hmax : CTA_IP_MAX < 16384 := by decide
    rcases List.mem_pair.1 hf with rfl | rfl
    · rwa [Nat.mod_eq_of_lt (htypes.1.trans_lt hmax)]
    · rwa [Nat.mod_eq_of_lt (htypes.2.trans_lt hmax)]
  have hset1 := (tryIf_read (f := fun ct bs => nfnlCtSetSrc ct repl (fam.addr bs)) hsrc ct).trans
    (tryIf_ok fun bs _ => setSrc_ok h bs)
  have hset2 := (tryIf_read (f := fun ct bs => nfnlCtSetDst ct repl (fam.addr bs)) hdst
    (setIf p.src (applySrc repl fam) ct)).trans (tryIf_ok fun bs _ => setDst_ok (h.src p.src) bs)
  unfold ctParseIp inAttr
  simp only [hparse, lt_irrefl, if_false]
  cases fam with
  | v4 =>
    have hs : tb CTA_IP_V6_SRC = none := hother _ (by decide) (by decide) (by decide)
    have hd : tb CTA_IP_V6_DST = none := hother _ (by decide) (by decide) (by decide)
    have h1 : tryIf (tb CTA_IP_V4_SRC) (fun ct a => nfnlCtSetSrc ct repl (nlAddrAllocAttr buf a AF_INET)) ct =
        .ok (setIf p.src (applySrc repl .v4) ct) := hset1
    have h2 : tryIf (tb CTA_IP_V4_DST) (fun ct a => nfnlCtSetDst ct repl (nlAddrAllocAttr buf a AF_INET))
        (setIf p.src (applySrc repl .v4) ct) = .ok (applyIp repl .v4 p ct) := hset2
    rw [h1]
    simp only [bind, Except.bind, h2, hs, hd]
    rfl
  | v6 =>
    have hs : tb CTA_IP_V4_SRC = none := hother _ (by decide) (by decide) (by decide)
    have hd : tb CTA_IP_V4_DST = none := hother _ (by decide) (by decide) (by decide)
    have h1 : tryIf (tb CTA_IP_V6_SRC) (fun ct a => nfnlCtSetSrc ct repl (nlAddrAllocAttr buf a AF_INET6)) ct =
        .ok (setIf p.src (applySrc repl .v6) ct) := hset1
    have h2 : tryIf (tb CTA_IP_V6_DST) (fun ct a => nfnlCtSetDst ct repl (nlAddrAllocAttr buf a AF_INET6))
        (setIf p.src (applySrc repl .v6) ct) = .ok (applyIp repl .v6 p ct) := hset2
    rw [hs, hd]
    show (tryIf (tb CTA_IP_V6_SRC) _ ct >>= fun ct => tryIf (tb CTA_IP_V6_DST) _ ct) = _
    rw [h1]
    exact h2

/-- **The protocol part of a tuple**, read -/
theorem parseProto_fields {num : Option (BitVec 8)} (hat : At buf pos ⟨t, encLeaves (leavesOf (protoFields fam num p))⟩)
    (h : OfFam fam ct) : ctParseProto buf repl ct pos = .ok (applyProto repl num p ct) := by
  have hlen := protoFields_length fam num p
  have hd := protoFields_distinct fam num p
  obtain ⟨tb, hparse, hidx⟩ := parseNested_fields CTA_PROTO_MAX hat (protoFields_sendable num) (by omega)
  have hget : ∀ i t o, (protoFields fam num p)[i]? = some (t, o) → t ≤ CTA_PROTO_MAX → Shown buf tb t o :=
    fun i t o hi ht => shown_plain hidx hd (by decide) (List.mem_of_getElem? hi) ht
  have htypes : fam.idType ≤ CTA_PROTO_MAX ∧ fam.typeType ≤ CTA_PROTO_MAX ∧ fam.codeType ≤ CTA_PROTO_MAX := by
    cases fam with
    | v4 => decide
    | v6 => decide
  have hnum := (hget 0 CTA_PROTO_NUM _ rfl (by decide)).u8
  have hsport := (hget 1 CTA_PROTO_SRC_PORT _ rfl (by decide)).be16
  have hdport := (hget 2 CTA_PROTO_DST_PORT _ rfl (by decide)).be16
  have hid := (hget 3 fam.idType _ rfl htypes.1).be16
  have htype := (hget 4 fam.typeType _ rfl htypes.2.1).u8
  have hcode := (hget 5 fam.codeType _ rfl htypes.2.2).u8
  unfold ctParseProto inAttr
  simp only [hparse, lt_irrefl, if_false, setIf_read (f := nfnlCtSetProto) hnum,
    setIf_read (f := (nfnlCtSetSrcPort · repl)) hsport, setIf_read (f := (nfnlCtSetDstPort · repl)) hdport]
  rw [(h.ports num p.srcPort p.dstPort).family, fam.icmpTypes]
  simp only [setIf_read (f := (nfnlCtSetIcmpId · repl)) hid, setIf_read (f := (nfnlCtSetIcmpType · repl)) htype,
    setIf_read (f := (nfnlCtSetIcmpCode · repl)) hcode]
  rfl

/-- a nest that is read if it is there -/
theorem tryIf_nest {tb : Index} {fs : FieldList} {f : CtObj → ℕ → Except ℤ CtObj} {ct' : CtObj}
    (hshown : Shown buf tb t (nestPayload fs)) (hnone : leavesOf fs = [] → ct' = ct)
    (hread : ∀ pos type, At buf pos ⟨type, encLeaves (leavesOf fs)⟩ → f ct pos = .ok ct') :
    tryIf (tb t) f ct = .ok ct' := by
  rcases hshown.nest with ⟨hnil, htb⟩ | ⟨pos, type, htb, hat⟩
  · rw [htb, hnone hnil]
    rfl
  · rw [htb]
    exact hread pos type hat

variable (repl fam p ct) in
def applyTuple (num : Option (BitVec 8)) : CtObj := applyProto repl num p (applyIp repl fam p ct)

theorem tupleFields_sendable (hp : FullParts fam p) (num : Option (BitVec 8)) :
    Sendable ctTuplePolicy (tupleFields fam num p) := by
  have hip := ipFields_length hp
  have hproto := protoFields_length fam num p
  refine Sendable.cons (by decide) (sends_nested (by decide) fun q hq => ?_)
    (Sendable.cons (by decide) (sends_nested (by decide) fun q hq => ?_) (Sendable.nil _))
  · have hlen := nestPayload_length hip q hq
    omega
  · have hlen := nestPayload_length hproto q hq
    omega

theorem tupleFields_length (hp : FullParts fam p) (num : Option (BitVec 8)) :
    (encLeaves (leavesOf (tupleFields fam num p))).length ≤ 104 := by
  have hip := ipFields_length hp
  have hproto := protoFields_length fam num p
  refine fields_length_le (n := 48) fun f hf q hq => ?_
  rcases List.mem_pair.1 hf with rfl | rfl
  · exact (nestPayload_length hip q hq).trans (by decide)
  · exact nestPayload_length hproto q hq

omit [HostOrder] in
/-- fields that leave no attributes are not there -/
theorem none_of_leaves_nil {fs : FieldList} (h : leavesOf fs = []) : ∀ f ∈ fs, f.2 = none := by
  intro f hf
  obtain ⟨t, o⟩ := f
  cases o with
  | none => rfl
  | some q =>
    have hmem : (⟨t, q⟩ : Leaf) ∈ leavesOf fs := mem_leavesOf.2 ⟨(t, some q), hf, rfl, rfl⟩
    rw [h] at hmem
    cases hmem

omit [HostOrder] in
theorem applyIp_nil (h : leavesOf (ipFields fam p) = []) : applyIp repl fam p ct = ct := by
  have hsrc : p.src = none := none_of_leaves_nil h (fam.srcType, p.src) (List.mem_pair.2 (Or.inl rfl))
  have hdst : p.dst = none := none_of_leaves_nil h (fam.dstType, p.dst) (List.mem_pair.2 (Or.inr rfl))
  rw [applyIp, hsrc, hdst]
  rfl

theorem applyProto_none {num : Option (BitVec 8)} (hnum : repl = false → num = none) (hs : p.srcPort = none)
    (hd : p.dstPort = none) (hi : p.icmpId = none) (ht : p.icmpType = none) (hc : p.icmpCode = none) :
    applyProto repl num p ct = ct := by
  rw [applyProto, hs, hd, hi, ht, hc]
  cases repl with
  | true => rfl
  | false =>
    rw [hnum rfl]
    rfl

theorem applyProto_nil {num : Option (BitVec 8)} (h : leavesOf (protoFields fam num p) = []) :
    applyProto repl num p ct = ct := by
  have hnone : ∀ i (f : ℕ × Option (List UInt8)), (protoFields fam num p)[i]? = some f → f.2 = none := fun i f hi =>
    none_of_leaves_nil h f (List.mem_of_getElem? hi)
  have hmap : ∀ {γ : Type} {o : Option γ} {enc : γ → List UInt8}, o.map enc = none → o = none := Option.map_eq_none_iff.1
  exact applyProto_none (fun _ => hmap (hnone 0 _ rfl)) (hmap (hnone 1 _ rfl)) (hmap (hnone 2 _ rfl))
    (hmap (hnone 3 _ rfl)) (hmap (hnone 4 _ rfl)) (hmap (hnone 5 _ rfl))

/-- **A tuple**, read -/
theorem parseTuple_fields {num : Option (BitVec 8)}
    (hat : At buf pos ⟨t, encLeaves (leavesOf (tupleFields fam num p))⟩) (hp : FullParts fam p) (h : OfFam fam ct) :
    ctParseTuple buf repl ct pos = .ok (applyTuple repl fam p ct num) := by
  have hlen := tupleFields_length hp num
  have hd : Distinct (tupleFields fam num p) := by
    show List.Nodup _
    simp only [tupleFields, List.map_cons, List.map_nil]
    decide
  obtain ⟨tb, hparse, hidx⟩ := parseNested_fields CTA_TUPLE_MAX hat (tupleFields_sendable hp num) (by omega)
  have hip : Shown buf tb CTA_TUPLE_IP (nestPayload (ipFields fam p)) :=
    shown_of_indexes hidx hd (t := 32768 + CTA_TUPLE_IP) (List.mem_pair.2 (Or.inl rfl)) (by decide)
  have hproto : Shown buf tb CTA_TUPLE_PROTO (nestPayload (protoFields fam num p)) :=
    shown_of_indexes hidx hd (t := 32768 + CTA_TUPLE_PROTO) (List.mem_pair.2 (Or.inr rfl)) (by decide)
  have h1 : tryIf (tb CTA_TUPLE_IP) (ctParseIp buf repl) ct = .ok (applyIp repl fam p ct) :=
    tryIf_nest hip applyIp_nil fun _ _ hat => parseIp_fields hat hp h
  have h2 : tryIf (tb CTA_TUPLE_PROTO) (ctParseProto buf repl) (applyIp repl fam p ct) =
      .ok (applyTuple repl fam p ct num) :=
    tryIf_nest hproto applyProto_nil fun _ _ hat => parseProto_fields hat h.ip
  unfold ctParseTuple inAttr
  simp only [hparse, lt_irrefl, if_false, h1, bind, Except.bind, h2]

theorem OfFam.tuple (h : OfFam fam ct) (num : Option (BitVec 8)) : OfFam fam (applyTuple repl fam p ct num) :=
  h.ip.proto num

end

/-! ## Whole messages -/

section

variable [HostOrder]

/-- the object before any attribute is read -/
def ctBase (msgtype : ℤ) (fam : Fam) : CtObj := nfnlCtSetFamily { nfnlCtAlloc with ceMsgtype := msgtype } fam.num

omit [HostOrder] in
theorem ctBase_fam (msgtype : ℤ) (fam : Fam) : OfFam fam (ctBase msgtype fam) :=
  ⟨by rw [ctBase, nfnlCtSetFamily, hasAttr_withAttr, Bool.or_eq_true]; exact Or.inr rfl, rfl⟩

/-- what the parser makes of the parts of a message -/
def ctOf (msgtype : ℤ) (fam : Fam) (num : Option (BitVec 8)) (orig reply : TupleParts) (s : ScalarParts) : CtObj :=
  applyScalars s (applyTuple true fam reply (applyTuple false fam orig (ctBase msgtype fam) num) num)

omit [HostOrder] in
theorem scalarFields_sendable (s : ScalarParts) : Sendable ctPolicy (scalarFields s) := by
  refine Sendable.cons (by decide) (sends_be32 (by decide) _) ?_
  refine Sendable.cons (by decide) (sends_be32 (by decide) _) ?_
  refine Sendable.cons (by decide) (sends_be32 (by decide) _) ?_
  refine Sendable.cons (by decide) (sends_be32 (by decide) _) ?_
  exact Sendable.cons (by decide) (sends_be16 (by decide) _) (Sendable.nil _)

theorem ctFields_sendable {orig reply : FieldList} (horig : (encLeaves (leavesOf orig)).length ≤ 104)
    (hreply : (encLeaves (leavesOf reply)).length ≤ 104) (s : ScalarParts) :
    Sendable ctPolicy (ctFields orig reply s) := by
  refine Sendable.cons (by decide) (sends_nested (by decide) fun q hq => ?_)
    (Sendable.cons (by decide) (sends_nested (by decide) fun q hq => ?_) (scalarFields_sendable s))
  · have hlen := nestPayload_length horig q hq
    omega
  · have hlen := nestPayload_length hreply q hq
    omega

theorem ctFields_types (orig reply : FieldList) (s : ScalarParts) :
    (ctFields orig reply s).map (fun f => f.1 % 16384) = [1, 2, CTA_STATUS, CTA_TIMEOUT, CTA_MARK, CTA_ID, CTA_ZONE] := by
  simp only [ctFields, scalarFields, List.map_cons, List.map_nil]
  decide

theorem ctFields_distinct (orig reply : FieldList) (s : ScalarParts) : Distinct (ctFields orig reply s) := by
  rw [Distinct, ctFields_types]
  decide

/-- **The parser**, on a message with these parts; the reply may be missing if there is nothing in it -/
theorem ctParse_fields {nlh : NlMsg} {tb : Index} {fam : Fam} {num : Option (BitVec 8)} {orig reply : TupleParts}
    {replyFields : FieldList} {s : ScalarParts} (horig : FullParts fam orig) (hreply : FullParts fam reply)
    (hfields : replyFields = tupleFields fam num reply ∨ replyFields = [] ∧ reply = .none)
    (hparse : nlmsgParse nlh NFGENMSG_LEN CTA_MAX (some ctPolicy) = (0, tb))
    (hidx : Indexes nlh.buf CTA_MAX (leavesOf (ctFields (tupleFields fam num orig) replyFields s)) tb)
    (hhdr : (nlh.buf nlmsgData).toBitVec = fam.num) :
    nfnlmsgCtParse nlh = .ok (ctOf nlh.nlmsgType fam num orig reply s) := by
  have hd := ctFields_distinct (tupleFields fam num orig) replyFields s
  have hget : ∀ i t o, (ctFields (tupleFields fam num orig) replyFields s)[i]? = some (t, o) → t ≤ CTA_MAX →
      Shown nlh.buf tb t o := fun i t o hi ht => shown_plain hidx hd (by decide) (List.mem_of_getElem? hi) ht
  have hnone : ∀ t ≤ CTA_MAX, t ∉ [1, 2, CTA_STATUS, CTA_TIMEOUT, CTA_MARK, CTA_ID, CTA_ZONE] → tb t = none := by
    intro t ht hnot
    refine none_of_indexes hidx ht fun f hf heq => hnot ?_
    have hmem : f.1 % 16384 ∈ (ctFields (tupleFields fam num orig) replyFields s).map fun f => f.1 % 16384 :=
      List.mem_map.2 ⟨f, hf, rfl⟩
    rwa [heq, ctFields_types] at hmem
  have hs0 : Shown nlh.buf tb CTA_TUPLE_ORIG (nestPayload (tupleFields fam num orig)) :=
    shown_of_indexes hidx hd (t := 32768 + CTA_TUPLE_ORIG) List.mem_cons_self (by decide)
  have hs1 : Shown nlh.buf tb CTA_TUPLE_REPLY (nestPayload replyFields) :=
    shown_of_indexes hidx hd (t := 32768 + CTA_TUPLE_REPLY) (List.mem_cons_of_mem _ List.mem_cons_self) (by decide)
  have hbase := ctBase_fam nlh.nlmsgType fam
  have hnil : ∀ (repl : Bool) (p : TupleParts) (ct : CtObj), leavesOf (tupleFields fam num p) = [] →
      applyTuple repl fam p ct num = ct := by
    intro repl p ct h
    have hnest : ∀ {fs : FieldList}, nestPayload fs = none → leavesOf fs = [] := by
      intro fs hn
      unfold nestPayload at hn
      split_ifs at hn with hnil
      exact hnil
    have hip := hnest (none_of_leaves_nil h _ (List.mem_pair.2 (Or.inl rfl)))
    have hproto := hnest (none_of_leaves_nil h _ (List.mem_pair.2 (Or.inr rfl)))
    rw [applyTuple, applyIp_nil hip, applyProto_nil hproto]
  have h0 : tryIf (tb CTA_TUPLE_ORIG) (ctParseTuple nlh.buf false) (ctBase nlh.nlmsgType fam) =
      .ok (applyTuple false fam orig (ctBase nlh.nlmsgType fam) num) :=
    tryIf_nest hs0 (hnil false orig _) fun _ _ hat => parseTuple_fields hat horig hbase
  have h1 : tryIf (tb CTA_TUPLE_REPLY) (ctParseTuple nlh.buf true) (applyTuple false fam orig (ctBase nlh.nlmsgType fam) num) =
      .ok (applyTuple true fam reply (applyTuple false fam orig (ctBase nlh.nlmsgType fam) num) num) := by
    rcases hfields with rfl | ⟨rfl, rfl⟩
    · exact tryIf_nest hs1 (hnil true reply _) fun _ _ hat => parseTuple_fields hat hreply (hbase.tuple num)
    · have htb : tb CTA_TUPLE_REPLY = none := hs1
      rw [htb]
      rfl
  have hstatus := (hget 2 CTA_STATUS _ rfl (by decide)).be32
  have htimeout := (hget 3 CTA_TIMEOUT _ rfl (by decide)).be32
  have hmark := (hget 4 CTA_MARK _ rfl (by decide)).be32
  have hid := (hget 5 CTA_ID _ rfl (by decide)).be32
  have hzone := (hget 6 CTA_ZONE _ rfl (by decide)).be16
  have huse := hnone CTA_USE (by decide) (by decide)
  have hinfo := hnone CTA_PROTOINFO (by decide) (by decide)
  have hc0 := hnone CTA_COUNTERS_ORIG (by decide) (by decide)
  have hc1 := hnone CTA_COUNTERS_REPLY (by decide) (by decide)
  have htime := hnone CTA_TIMESTAMP (by decide) (by decide)
  have hscalars : ∀ ct, ctScalars nlh.buf tb ct = applyScalars s ct := by
    intro ct
    simp only [ctScalars, setIf_read (f := nfnlCtSetStatus) hstatus, setIf_read (f := nfnlCtSetTimeout) htimeout,
      setIf_read (f := nfnlCtSetMark) hmark, setIf_read (f := nfnlCtSetId) hid, setIf_read (f := nfnlCtSetZone) hzone,
      huse]
    rfl
  unfold nfnlmsgCtParse
  simp only [hparse, lt_irrefl, if_false, hhdr]
  show (tryIf (tb CTA_TUPLE_ORIG) (ctParseTuple nlh.buf false) (ctBase nlh.nlmsgType fam) >>= fun ct => _) = _
  rw [h0]
  simp only [bind, Except.bind, h1, hinfo, hc0, hc1, htime, hscalars]
  rfl

end

end Libnl.Ct
