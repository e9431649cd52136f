/-
Conntrack messages: the round trip.

The parser calls a setter for each part it finds. All values come from one connection, so what the object holds so far
agrees with that connection wherever it says anything (`Held`), even where two attributes share their storage. In the end
the object says something for just those attributes that were there.

- `Whole.built`: the image of the message that the builder hands out.
- `Whole.held`: the setter calls of the parser keep `Held`. `ctAgain_has`: the bits in the end.
- `ct_round_trip`: the parser returns what was set.
-/
import Mathlib.Tactic
import Libnl.Netfilter.CtCodec

namespace Libnl.Ct

open Bytes Msg Attr AttrWalk AttrTree AttrStream Writer Fields Mask
open Object Addr Addr.Family

/-! ## What travels -/

/-- the attributes for the addresses of a direction, and when two connections have the same there -/
def addrTravels (repl : Bool) : List (BitVec 64 × (NfnlCt → NfnlCt → Prop)) :=
  [(srcAttr repl, fun a b => (a.dir repl).src = (b.dir repl).src),
    (dstAttr repl, fun a b => (a.dir repl).dst = (b.dir repl).dst)]

/-- the same for the protocol part -/
def protoTravels (repl : Bool) : List (BitVec 64 × (NfnlCt → NfnlCt → Prop)) :=
  [(srcPortAttr repl, fun a b => (a.dir repl).proto.first = (b.dir repl).proto.first),
    (dstPortAttr repl, fun a b =>
      (a.dir repl).proto.type = (b.dir repl).proto.type ∧ (a.dir repl).proto.code = (b.dir repl).proto.code),
    (icmpIdAttr repl, fun a b => (a.dir repl).proto.first = (b.dir repl).proto.first),
    (icmpTypeAttr repl, fun a b => (a.dir repl).proto.type = (b.dir repl).proto.type),
    (icmpCodeAttr repl, fun a b => (a.dir repl).proto.code = (b.dir repl).proto.code)]

/-- **What travels**: the attributes, and when two connections have the same there -/
def travels : List (BitVec 64 × (NfnlCt → NfnlCt → Prop)) :=
  [(CT_ATTR_FAMILY, fun a b => a.ctFamily = b.ctFamily)] ++ addrTravels false ++
    [(CT_ATTR_PROTO, fun a b => a.ctProto = b.ctProto)] ++ protoTravels false ++ addrTravels true ++ protoTravels true ++
    [(CT_ATTR_STATUS, fun a b => a.ctStatus = b.ctStatus), (CT_ATTR_TIMEOUT, fun a b => a.ctTimeout = b.ctTimeout),
      (CT_ATTR_MARK, fun a b => a.ctMark = b.ctMark), (CT_ATTR_ID, fun a b => a.ctId = b.ctId),
      (CT_ATTR_ZONE, fun a b => a.ctZone = b.ctZone)]

theorem travels_separate : separate (travels.map Prod.fst) = true := by decide

/-! ## Bits -/

theorem setIf_mask {β : Type} (f : CtObj → β → CtObj) (attr : BitVec 64) {o : Option β} {ct : CtObj}
    (hf : ∀ ct x, ∃ data, f ct x = withAttr ct attr data) :
    (setIf o f ct).ceMask = ct.ceMask ||| (if o.isSome then attr else 0) := by
  cases o with
  | none => exact BitVec.or_zero.symm
  | some x =>
    obtain ⟨data, heq⟩ := hf ct x
    have hset : setIf (some x) f ct = withAttr ct attr data := heq
    rw [hset]
    rfl

section

variable [HostOrder]

omit [HostOrder] in
theorem applyIp_mask (repl : Bool) (fam : Fam) (p : TupleParts) (ct : CtObj) :
    (applyIp repl fam p ct).ceMask =
      ct.ceMask ||| (if p.src.isSome then srcAttr repl else 0) ||| (if p.dst.isSome then dstAttr repl else 0) := by
  rw [applyIp, setIf_mask (applyDst repl fam) (dstAttr repl) fun _ _ => ⟨_, rfl⟩,
    setIf_mask (applySrc repl fam) (srcAttr repl) fun _ _ => ⟨_, rfl⟩]

theorem applyProto_mask (repl : Bool) (num : Option (BitVec 8)) (p : TupleParts) (ct : CtObj) :
    (applyProto repl num p ct).ceMask =
      (if repl then ct.ceMask else ct.ceMask ||| (if num.isSome then CT_ATTR_PROTO else 0)) |||
        (if p.srcPort.isSome then srcPortAttr repl else 0) ||| (if p.dstPort.isSome then dstPortAttr repl else 0) |||
        (if p.icmpId.isSome then icmpIdAttr repl else 0) ||| (if p.icmpType.isSome then icmpTypeAttr repl else 0) |||
        (if p.icmpCode.isSome then icmpCodeAttr repl else 0) := by
  unfold applyProto
  dsimp only
  rw [setIf_mask (nfnlCtSetIcmpCode · repl) (icmpCodeAttr repl) fun _ _ => ⟨_, rfl⟩,
    setIf_mask (nfnlCtSetIcmpType · repl) (icmpTypeAttr repl) fun _ _ => ⟨_, rfl⟩,
    setIf_mask (nfnlCtSetIcmpId · repl) (icmpIdAttr repl) fun _ _ => ⟨_, rfl⟩,
    setIf_mask (nfnlCtSetDstPort · repl) (dstPortAttr repl) fun _ _ => ⟨_, rfl⟩,
    setIf_mask (nfnlCtSetSrcPort · repl) (srcPortAttr repl) fun _ _ => ⟨_, rfl⟩]
  cases repl with
  | true => rfl
  | false =>
    simp only [Bool.false_eq_true, if_false]
    rw [setIf_mask nfnlCtSetProto CT_ATTR_PROTO fun _ _ => ⟨_, rfl⟩]

omit [HostOrder] in
theorem applyScalars_mask (s : ScalarParts) (ct : CtObj) :
    (applyScalars s ct).ceMask =
      ct.ceMask ||| (if s.status.isSome then CT_ATTR_STATUS else 0) |||
        (if s.timeout.isSome then CT_ATTR_TIMEOUT else 0) ||| (if s.mark.isSome then CT_ATTR_MARK else 0) |||
        (if s.id.isSome then CT_ATTR_ID else 0) ||| (if s.zone.isSome then CT_ATTR_ZONE else 0) := by
  unfold applyScalars
  dsimp only
  rw [setIf_mask nfnlCtSetZone CT_ATTR_ZONE fun _ _ => ⟨_, rfl⟩, setIf_mask nfnlCtSetId CT_ATTR_ID fun _ _ => ⟨_, rfl⟩,
    setIf_mask nfnlCtSetMark CT_ATTR_MARK fun _ _ => ⟨_, rfl⟩,
    setIf_mask nfnlCtSetTimeout CT_ATTR_TIMEOUT fun _ _ => ⟨_, rfl⟩,
    setIf_mask nfnlCtSetStatus CT_ATTR_STATUS fun _ _ => ⟨_, rfl⟩]

/-- the object read from the parts of `ct` -/
def ctAgain (msgtype : ℤ) (fam : Fam) (ct : CtObj) : CtObj :=
  ctOf msgtype fam (numOf ct) (tuplePartsOf ct false) (tuplePartsOf ct true) (scalarsOf ct)

section

variable {ct : CtObj} {fam : Fam} (hown : Owns ct) (hfam : hasAttr ct CT_ATTR_FAMILY = true)

include hown

theorem srcPart_isSome (repl : Bool) : (tuplePartsOf ct repl).src.isSome = hasAttr ct (srcAttr repl) := by
  have h := (hown repl).1
  simp only [tuplePartsOf, nfnlCtGetSrc, Option.isSome_map]
  cases hhas : hasAttr ct (srcAttr repl) with
  | true => exact h hhas
  | false => rfl

theorem dstPart_isSome (repl : Bool) : (tuplePartsOf ct repl).dst.isSome = hasAttr ct (dstAttr repl) := by
  have h := (hown repl).2
  simp only [tuplePartsOf, nfnlCtGetDst, Option.isSome_map]
  cases hhas : hasAttr ct (dstAttr repl) with
  | true => exact h hhas
  | false => rfl

include hfam

theorem ctAgain_mask (msgtype : ℤ) :
    (ctAgain msgtype fam ct).ceMask = maskOf (travels.map fun c => (c.1, hasAttr ct c.1)) := by
  have hbase : (ctBase msgtype fam).ceMask = CT_ATTR_FAMILY := BitVec.zero_or
  have hsrc := srcPart_isSome hown
  have hdst := dstPart_isSome hown
  simp only [ctAgain, ctOf, applyTuple, applyScalars_mask, applyProto_mask, applyIp_mask, hbase, hsrc, hdst]
  simp only [travels, addrTravels, protoTravels, List.cons_append, List.nil_append, List.map_cons, List.map_nil, maskOf,
    hfam, if_true, tuplePartsOf, numOf, scalarsOf, valIf_isSome, Bool.false_eq_true, if_false, BitVec.or_assoc,
    BitVec.ofNat_eq_ofNat, BitVec.or_zero]

/-- **The attributes that travel** are there again. -/
theorem ctAgain_has (msgtype : ℤ) : ∀ c ∈ travels, hasAttr (ctAgain msgtype fam ct) c.1 = hasAttr ct c.1 := by
  intro c hc
  have hsep : separate ((travels.map fun c => (c.1, hasAttr ct c.1)).map Prod.fst) = true := by
    rw [List.map_map]
    exact travels_separate
  have hhas := maskOf_has hsep (List.mem_map.2 ⟨c, hc, rfl⟩)
  rw [Bool.eq_iff_iff, ← hhas, ← ctAgain_mask hown hfam msgtype, hasAttr, decide_eq_true_eq]

end

/-! ## Values -/

omit [HostOrder] in
/-- **What the object says** is what `d` says, and a status that is not there is zero. -/
structure Held (d : NfnlCt) (ct : CtObj) : Prop where
  same : ∀ c ∈ travels, hasAttr ct c.1 = true → c.2 ct.data d
  status : hasAttr ct CT_ATTR_STATUS = false → ct.data.ctStatus = 0

section

variable {d : NfnlCt} {ct : CtObj}

omit [HostOrder] in
/-- a change to what `d` says, for the attribute and for those that share its storage -/
theorem Held.step (h : Held d ct) {attr : BitVec 64} {data : NfnlCt}
    (hstatus : attr &&& CT_ATTR_STATUS = 0 ∧ data.ctStatus = ct.data.ctStatus)
    (hdata : ∀ c ∈ travels, (attr &&& c.1 = 0 ∧ (c.2 ct.data d → c.2 data d)) ∨ c.2 data d) :
    Held d (withAttr ct attr data) where
  same c hc hhas := by
    rw [hasAttr_withAttr] at hhas
    rcases hdata c hc with ⟨hzero, hkeep⟩ | hnew
    · rw [hzero] at hhas
      exact hkeep (h.same c hc (by simpa using hhas))
    · exact hnew
  status hnone := by
    rw [hasAttr_withAttr, hstatus.1] at hnone
    exact hstatus.2.trans (h.status (by simpa using hnone))

omit [HostOrder] in
theorem Held.setIf {β : Type} {o : Option β} {f : CtObj → β → CtObj} (h : Held d ct)
    (hf : ∀ x ∈ o, ∀ ct, Held d ct → Held d (f ct x)) : Held d (setIf o f ct) := by
  cases o with
  | none => exact h
  | some x => exact hf x rfl ct h

/-- what travels for the connection as a whole -/
def wholeTravels : List (BitVec 64 × (NfnlCt → NfnlCt → Prop)) :=
  [(CT_ATTR_FAMILY, fun a b => a.ctFamily = b.ctFamily), (CT_ATTR_PROTO, fun a b => a.ctProto = b.ctProto),
    (CT_ATTR_STATUS, fun a b => a.ctStatus = b.ctStatus), (CT_ATTR_TIMEOUT, fun a b => a.ctTimeout = b.ctTimeout),
    (CT_ATTR_MARK, fun a b => a.ctMark = b.ctMark), (CT_ATTR_ID, fun a b => a.ctId = b.ctId),
    (CT_ATTR_ZONE, fun a b => a.ctZone = b.ctZone)]

/-- what travels for one direction -/
def dirTravels (repl : Bool) : List (BitVec 64 × (NfnlCt → NfnlCt → Prop)) := addrTravels repl ++ protoTravels repl

omit [HostOrder] in
theorem travels_cases {c : BitVec 64 × (NfnlCt → NfnlCt → Prop)} (hc : c ∈ travels) :
    c ∈ wholeTravels ∨ ∃ repl, c ∈ dirTravels repl := by
  unfold travels at hc
  simp only [List.mem_append] at hc
  rcases hc with (((((hfamily | haddr) | hproto) | hport) | haddr) | hport) | hrest
  · rw [List.mem_singleton.1 hfamily]
    exact Or.inl List.mem_cons_self
  · exact Or.inr ⟨false, List.mem_append_left _ haddr⟩
  · rw [List.mem_singleton.1 hproto]
    exact Or.inl (List.mem_cons_of_mem _ List.mem_cons_self)
  · exact Or.inr ⟨false, List.mem_append_right _ hport⟩
  · exact Or.inr ⟨true, List.mem_append_left _ haddr⟩
  · exact Or.inr ⟨true, List.mem_append_right _ hport⟩
  · exact Or.inl (List.mem_cons_of_mem _ (List.mem_cons_of_mem _ hrest))

/-- no bit is in both lists -/
def apart (attrs attrs' : List (BitVec 64)) : Bool := attrs.all fun attr => attrs'.all fun attr' => attr &&& attr' == 0

omit [HostOrder] in
theorem and_of_apart {attrs attrs' : List (BitVec 64)} (h : apart attrs attrs' = true) {attr attr' : BitVec 64}
    (hattr : attr ∈ attrs) (hattr' : attr' ∈ attrs') : attr &&& attr' = 0 := by
  simp only [apart, List.all_eq_true, beq_iff_eq] at h
  exact h attr hattr attr' hattr'

omit [HostOrder] in
theorem whole_apart (repl : Bool) : apart (wholeTravels.map Prod.fst) ((dirTravels repl).map Prod.fst) = true := by
  cases repl with
  | true => decide
  | false => decide

omit [HostOrder] in
theorem dir_apart (repl : Bool) : apart ((dirTravels repl).map Prod.fst) ((dirTravels !repl).map Prod.fst) = true := by
  cases repl with
  | true => decide
  | false => decide

omit [HostOrder] in
/-- a direction that is the same says the same -/
theorem dirTravels_congr {repl : Bool} {a a' : NfnlCt} (h : a'.dir repl = a.dir repl) :
    ∀ c ∈ dirTravels repl, c.2 a d → c.2 a' d := by
  simp [dirTravels, addrTravels, protoTravels, h]

omit [HostOrder] in
/-- a direction is stored apart from what is for the connection as a whole -/
theorem wholeTravels_setDir (a : NfnlCt) (repl : Bool) (x : NfnlCtDir) :
    ∀ c ∈ wholeTravels, c.2 a d → c.2 (a.setDir repl x) d := by
  cases repl with
  | true => simp [wholeTravels, NfnlCt.setDir]
  | false => simp [wholeTravels, NfnlCt.setDir]

omit [HostOrder] in
/-- a change for the connection as a whole -/
theorem whole_changed {attr : BitVec 64} {data : NfnlCt} (hattr : attr ∈ wholeTravels.map Prod.fst)
    (hdirs : ∀ repl, data.dir repl = ct.data.dir repl)
    (hwhole : ∀ c ∈ wholeTravels, (attr &&& c.1 = 0 ∧ (c.2 ct.data d → c.2 data d)) ∨ c.2 data d) :
    ∀ c ∈ travels, (attr &&& c.1 = 0 ∧ (c.2 ct.data d → c.2 data d)) ∨ c.2 data d := by
  intro c hc
  rcases travels_cases hc with hin | ⟨repl, hin⟩
  · exact hwhole c hin
  · exact Or.inl ⟨and_of_apart (whole_apart repl) hattr (List.mem_map_of_mem hin), dirTravels_congr (hdirs repl) c hin⟩

omit [HostOrder] in
/-- a change in one direction -/
theorem Held.dirStep (h : Held d ct) {repl : Bool} {attr : BitVec 64} {x : NfnlCtDir}
    (hattr : attr ∈ (dirTravels repl).map Prod.fst)
    (hdata : ∀ c ∈ dirTravels repl,
      (attr &&& c.1 = 0 ∧ (c.2 ct.data d → c.2 (ct.data.setDir repl x) d)) ∨ c.2 (ct.data.setDir repl x) d) :
    Held d (withAttr ct attr (ct.data.setDir repl x)) := by
  have hapart : ∀ b ∈ wholeTravels.map Prod.fst, attr &&& b = 0 := by
    intro b hb
    rw [BitVec.and_comm]
    exact and_of_apart (whole_apart repl) hb hattr
  refine h.step ⟨hapart CT_ATTR_STATUS (by decide), ?_⟩ fun c hc => ?_
  · cases repl with
    | true => rfl
    | false => rfl
  · rcases travels_cases hc with hin | ⟨repl', hin⟩
    · exact Or.inl ⟨hapart c.1 (List.mem_map_of_mem hin), wholeTravels_setDir ct.data repl x c hin⟩
    · by_cases heq : repl' = repl
      · subst heq
        exact hdata c hin
      · have hother : repl' = !repl := Bool.eq_not.2 heq
        have hsame : (ct.data.setDir repl x).dir repl' = ct.data.dir repl' := by
          rw [dir_setDir, if_neg heq]
        have hkeep : c.2 ct.data d → c.2 (ct.data.setDir repl x) d := dirTravels_congr hsame c hin
        rw [hother] at hin
        exact Or.inl ⟨and_of_apart (dir_apart repl) hattr (List.mem_map_of_mem hin), hkeep⟩

omit [HostOrder] in
theorem Held.family (h : Held d ct) : Held d (nfnlCtSetFamily ct d.ctFamily) := by
  refine h.step ⟨by decide, rfl⟩ (whole_changed (by decide) (fun _ => rfl) ?_)
  simp [wholeTravels]
  and_intros <;> exact Or.inl (by decide)

omit [HostOrder] in
theorem Held.num (h : Held d ct) : Held d (nfnlCtSetProto ct d.ctProto) := by
  refine h.step ⟨by decide, rfl⟩ (whole_changed (by decide) (fun _ => rfl) ?_)
  simp [wholeTravels]
  and_intros <;> exact Or.inl (by decide)

omit [HostOrder] in
theorem Held.timeout (h : Held d ct) : Held d (nfnlCtSetTimeout ct d.ctTimeout) := by
  refine h.step ⟨by decide, rfl⟩ (whole_changed (by decide) (fun _ => rfl) ?_)
  simp [wholeTravels]
  and_intros <;> exact Or.inl (by decide)

omit [HostOrder] in
theorem Held.mark (h : Held d ct) : Held d (nfnlCtSetMark ct d.ctMark) := by
  refine h.step ⟨by decide, rfl⟩ (whole_changed (by decide) (fun _ => rfl) ?_)
  simp [wholeTravels]
  and_intros <;> exact Or.inl (by decide)

omit [HostOrder] in
theorem Held.id (h : Held d ct) : Held d (nfnlCtSetId ct d.ctId) := by
  refine h.step ⟨by decide, rfl⟩ (whole_changed (by decide) (fun _ => rfl) ?_)
  simp [wholeTravels]
  and_intros <;> exact Or.inl (by decide)

omit [HostOrder] in
theorem Held.zone (h : Held d ct) : Held d (nfnlCtSetZone ct d.ctZone) := by
  refine h.step ⟨by decide, rfl⟩ (whole_changed (by decide) (fun _ => rfl) ?_)
  simp [wholeTravels]
  and_intros <;> exact Or.inl (by decide)

omit [HostOrder] in
/-- the status is added to what is there: to nothing, or to itself -/
theorem Held.addStatus (h : Held d ct) : Held d (nfnlCtSetStatus ct d.ctStatus) := by
  have hor : ct.data.ctStatus ||| d.ctStatus = d.ctStatus := by
    cases hhas : hasAttr ct CT_ATTR_STATUS with
    | true =>
      have heq : ct.data.ctStatus = d.ctStatus :=
        h.same (CT_ATTR_STATUS, fun a b => a.ctStatus = b.ctStatus) (by simp [travels]) hhas
      rw [heq, BitVec.or_self]
    | false =>
      rw [h.status hhas]
      exact BitVec.zero_or
  have hdata : ∀ c ∈ travels, (CT_ATTR_STATUS &&& c.1 = 0 ∧ (c.2 ct.data d → c.2 (nfnlCtSetStatus ct d.ctStatus).data d)) ∨
      c.2 (nfnlCtSetStatus ct d.ctStatus).data d := by
    refine whole_changed (by decide) (fun _ => rfl) ?_
    simp [wholeTravels, nfnlCtSetStatus, withAttr, hor]
    and_intros <;> exact Or.inl (by decide)
  refine ⟨fun c hc hhas => ?_, fun hnone => ?_⟩
  · rcases hdata c hc with ⟨hzero, hkeep⟩ | hnew
    · rw [nfnlCtSetStatus, hasAttr_withAttr, hzero] at hhas
      exact hkeep (h.same c hc (by simpa using hhas))
    · exact hnew
  · rw [nfnlCtSetStatus, hasAttr_withAttr, Bool.or_eq_false_iff] at hnone
    exact absurd hnone.2 (by decide)

variable (repl : Bool)

omit [HostOrder] in
theorem Held.src {fam : Fam} {bs : List UInt8} (h : Held d ct) (hsrc : (d.dir repl).src = some (fam.addr bs)) :
    Held d (applySrc repl fam ct bs) := by
  refine h.dirStep (by cases repl <;> decide) ?_
  simp [dirTravels, addrTravels, protoTravels, dir_setDir, hsrc]
  cases repl <;> and_intros <;> exact Or.inl (by decide)

omit [HostOrder] in
theorem Held.dst {fam : Fam} {bs : List UInt8} (h : Held d ct) (hdst : (d.dir repl).dst = some (fam.addr bs)) :
    Held d (applyDst repl fam ct bs) := by
  refine h.dirStep (by cases repl <;> decide) ?_
  simp [dirTravels, addrTravels, protoTravels, dir_setDir, hdst]
  cases repl <;> and_intros <;> exact Or.inl (by decide)

omit [HostOrder] in
theorem Held.srcPort (h : Held d ct) : Held d (nfnlCtSetSrcPort ct repl (d.dir repl).proto.first) := by
  refine h.dirStep (by cases repl <;> decide) ?_
  simp [dirTravels, addrTravels, protoTravels, dir_setDir]
  cases repl <;> and_intros <;> exact Or.inl (by decide)

omit [HostOrder] in
theorem Held.icmpId (h : Held d ct) : Held d (nfnlCtSetIcmpId ct repl (d.dir repl).proto.first) := by
  refine h.dirStep (by cases repl <;> decide) ?_
  simp [dirTravels, addrTravels, protoTravels, dir_setDir]
  cases repl <;> and_intros <;> exact Or.inl (by decide)

omit [HostOrder] in
theorem Held.icmpType (h : Held d ct) : Held d (nfnlCtSetIcmpType ct repl (d.dir repl).proto.type.toBitVec) := by
  refine h.dirStep (by cases repl <;> decide) ?_
  simp [dirTravels, addrTravels, protoTravels, dir_setDir]
  cases repl <;> and_intros <;> exact Or.inl (by decide)

omit [HostOrder] in
theorem Held.icmpCode (h : Held d ct) : Held d (nfnlCtSetIcmpCode ct repl (d.dir repl).proto.code.toBitVec) := by
  refine h.dirStep (by cases repl <;> decide) ?_
  simp +contextual [dirTravels, addrTravels, protoTravels, dir_setDir]
  cases repl <;> and_intros <;> exact Or.inl (by decide)

/-- a port that is stored again -/
theorem setDst_dst (p q : NfnlCtProto) : p.setDst q.dst = { p with type := q.type, code := q.code } := by
  have hlt := getU16_lt (memOf [q.type, q.code]) 0
  have hbytes : u16Bytes q.dst.toNat = [q.type, q.code] := by
    rw [NfnlCtProto.dst, BitVec.toNat_ofNat, Nat.mod_eq_of_lt hlt, u16Bytes_getU16]
    rfl
  rw [NfnlCtProto.setDst, hbytes]
  rfl

theorem Held.dstPort (h : Held d ct) : Held d (nfnlCtSetDstPort ct repl (d.dir repl).proto.dst) := by
  rw [nfnlCtSetDstPort]
  simp only [setProtoPart, setDst_dst]
  refine h.dirStep (by cases repl <;> decide) ?_
  simp [dirTravels, addrTravels, protoTravels, dir_setDir]
  cases repl <;> and_intros <;> exact Or.inl (by decide)

end

/-! ## The object read -/

omit [HostOrder] in
theorem of_valIf {ct : CtObj} {attr : BitVec 64} {β : Type} {v x : β} (h : x ∈ valIf ct attr v) : x = v := by
  unfold valIf at h
  split_ifs at h
  · exact (Option.some.inj h).symm
  · cases h

/-- addresses of the family, of full length and with a full prefix -/
structure FullAddr (fam : Fam) (a : NlAddr) : Prop where
  family : a.aFamily = fam.num.toNat
  len : a.aAddr.length = fam.addrLen
  prefixlen : a.aPrefixlen = 8 * fam.addrLen

omit [HostOrder] in
theorem FullAddr.eq {fam : Fam} {a : NlAddr} (h : FullAddr fam a) : a = fam.addr a.aAddr := by
  obtain ⟨family, prefixlen, addr⟩ := a
  have hfam : family = fam.num.toNat := h.family
  have hlen : addr.length = fam.addrLen := h.len
  have hprefix : prefixlen = 8 * fam.addrLen := h.prefixlen
  have hmpls : ¬ ((fam.num.toNat : ℤ) = AF_MPLS) := by
    cases fam with
    | v4 => decide
    | v6 => decide
  rw [Fam.addr, nlAddrBuild, if_neg hmpls, hfam, hprefix, hlen, mul_comm]

/-- **The domain**: a connection of IPv4 or IPv6 with whole addresses, which has something for the reply only together with
both addresses of the reply -/
structure Whole (fam : Fam) (ct : CtObj) : Prop where
  family : nfnlCtGetFamily ct = fam.num
  src : ∀ repl, ∀ a ∈ nfnlCtGetSrc ct repl, FullAddr fam a
  dst : ∀ repl, ∀ a ∈ nfnlCtGetDst ct repl, FullAddr fam a
  reply : ∀ c ∈ addrTravels true ++ protoTravels true, hasAttr ct c.1 = true →
    hasAttr ct (srcAttr true) = true ∧ hasAttr ct (dstAttr true) = true

section

variable {ct : CtObj} {fam : Fam} (h : Whole fam ct)

include h

omit [HostOrder] in
theorem Whole.has : hasAttr ct CT_ATTR_FAMILY = true := by
  have hfam := h.family
  unfold nfnlCtGetFamily at hfam
  split_ifs at hfam with hhas
  · exact hhas
  · cases fam with
    | v4 => cases hfam
    | v6 => cases hfam

omit [HostOrder] in
theorem Whole.ctFamily : ct.data.ctFamily = fam.num := by
  have hfam := h.family
  rwa [nfnlCtGetFamily, if_pos h.has] at hfam

theorem Whole.full (repl : Bool) : FullParts fam (tuplePartsOf ct repl) := by
  refine ⟨fun bs hbs => ?_, fun bs hbs => ?_⟩
  · obtain ⟨a, ha, rfl⟩ := Option.mem_map.1 hbs
    exact (h.src repl a ha).len
  · obtain ⟨a, ha, rfl⟩ := Option.mem_map.1 hbs
    exact (h.dst repl a ha).len

/-- a tuple read -/
theorem Whole.tuple {ct' : CtObj} (repl : Bool) (hh : Held ct.data ct') :
    Held ct.data (applyTuple repl fam (tuplePartsOf ct repl) ct' (numOf ct)) := by
  have hip : Held ct.data (applyIp repl fam (tuplePartsOf ct repl) ct') := by
    refine (hh.setIf fun bs hbs ct' hct => ?_).setIf fun bs hbs ct' hct => ?_
    · obtain ⟨a, ha, rfl⟩ := Option.mem_map.1 hbs
      refine hct.src repl ?_
      rw [← (h.src repl a ha).eq]
      unfold nfnlCtGetSrc at ha
      split_ifs at ha
      · exact ha
      · cases ha
    · obtain ⟨a, ha, rfl⟩ := Option.mem_map.1 hbs
      refine hct.dst repl ?_
      rw [← (h.dst repl a ha).eq]
      unfold nfnlCtGetDst at ha
      split_ifs at ha
      · exact ha
      · cases ha
  have hnum : Held ct.data (if repl then applyIp repl fam (tuplePartsOf ct repl) ct'
      else setIf (numOf ct) nfnlCtSetProto (applyIp repl fam (tuplePartsOf ct repl) ct')) := by
    cases repl with
    | true => exact hip
    | false => exact hip.setIf fun x hx ct' hct => of_valIf hx ▸ hct.num
  have hsport := hnum.setIf (o := (tuplePartsOf ct repl).srcPort) (f := (nfnlCtSetSrcPort · repl)) fun x hx ct' hct =>
    of_valIf hx ▸ hct.srcPort repl
  have hdport := hsport.setIf (o := (tuplePartsOf ct repl).dstPort) (f := (nfnlCtSetDstPort · repl)) fun x hx ct' hct =>
    of_valIf hx ▸ hct.dstPort repl
  have hid := hdport.setIf (o := (tuplePartsOf ct repl).icmpId) (f := (nfnlCtSetIcmpId · repl)) fun x hx ct' hct =>
    of_valIf hx ▸ hct.icmpId repl
  have htype := hid.setIf (o := (tuplePartsOf ct repl).icmpType) (f := (nfnlCtSetIcmpType · repl)) fun x hx ct' hct =>
    of_valIf hx ▸ hct.icmpType repl
  exact htype.setIf (o := (tuplePartsOf ct repl).icmpCode) (f := (nfnlCtSetIcmpCode · repl)) fun x hx ct' hct =>
    of_valIf hx ▸ hct.icmpCode repl

/-- **The object read** says what the connection says. -/
theorem Whole.held (msgtype : ℤ) : Held ct.data (ctAgain msgtype fam ct) := by
  have hnone : ∀ attr, hasAttr { nfnlCtAlloc with ceMsgtype := msgtype } attr = false := fun attr => by
    simp [hasAttr, nfnlCtAlloc]
  have hempty : Held ct.data { nfnlCtAlloc with ceMsgtype := msgtype } :=
    ⟨fun c _ hhas => by simp [hnone] at hhas, fun _ => rfl⟩
  have hbase : Held ct.data (ctBase msgtype fam) := by
    rw [ctBase, ← h.ctFamily]
    exact hempty.family
  have htuples := h.tuple true (h.tuple false hbase)
  have hstatus := htuples.setIf (o := (scalarsOf ct).status) (f := nfnlCtSetStatus) fun x hx ct' hct =>
    of_valIf hx ▸ hct.addStatus
  have htimeout := hstatus.setIf (o := (scalarsOf ct).timeout) (f := nfnlCtSetTimeout) fun x hx ct' hct =>
    of_valIf hx ▸ hct.timeout
  have hmark := htimeout.setIf (o := (scalarsOf ct).mark) (f := nfnlCtSetMark) fun x hx ct' hct =>
    of_valIf hx ▸ hct.mark
  have hid := hmark.setIf (o := (scalarsOf ct).id) (f := nfnlCtSetId) fun x hx ct' hct => of_valIf hx ▸ hct.id
  exact hid.setIf (o := (scalarsOf ct).zone) (f := nfnlCtSetZone) fun x hx ct' hct => of_valIf hx ▸ hct.zone

end

/-! ## The message -/

/-- the attributes in a tuple -/
def tupleLeaves (ct : CtObj) (repl : Bool) : List Leaf :=
  nestLeaves CTA_TUPLE_IP (leavesOf (ctIpFields ct repl)) ++ nestLeaves CTA_TUPLE_PROTO (leavesOf (ctProtoFields ct repl))

/-- both addresses of the reply are there -/
def hasReply (ct : CtObj) : Bool := (nfnlCtGetSrc ct true).isSome && (nfnlCtGetDst ct true).isSome

/-- the attributes of a message -/
def ctLeaves (ct : CtObj) : List Leaf :=
  nestLeaves CTA_TUPLE_ORIG (tupleLeaves ct false) ++
    ((if hasReply ct then nestLeaves CTA_TUPLE_REPLY (tupleLeaves ct true) else []) ++ leavesOf (ctScalarFields ct))

/-- the calls of the builder, when none of them fails -/
theorem buildMessage_ok {ct : CtObj} {size cmd flags : ℕ} {m0 m1 m2 m3 m4 : NlMsg}
    (halloc : nlmsgAllocSimple size (256 + cmd % 256) flags = some m0)
    (h1 : nfnlmsgAppend m0 (nfnlCtGetFamily ct) = (m1, 0)) (h2 : nfnlCtBuildTuple ct false m1 = (m2, 0))
    (h3 : (if (nfnlCtGetSrc ct true).isSome && (nfnlCtGetDst ct true).isSome then nfnlCtBuildTuple ct true m2
      else (m2, 0)) = (m3, 0))
    (h4 : putAll (-NLE_MSGSIZE) (leavesOf (ctScalarFields ct)) m3 = (m4, 0)) :
    nfnlCtBuildMessage ct size cmd flags = .ok (some m4) := by
  unfold nfnlCtBuildMessage
  -- case by case, as reducing all at once would have the kernel run the calls
  split
  case h_1 heq =>
    rw [halloc] at heq
    cases heq
  case h_2 msg heq =>
    rw [halloc] at heq
    cases heq
    split
    rename_i msg err heq
    rw [h1] at heq
    cases heq
    rw [if_neg (lt_irrefl 0)]
    split
    rename_i msg err heq
    rw [h2] at heq
    cases heq
    rw [if_neg (lt_irrefl 0)]
    extract_lets reply
    split
    rename_i msg err heq
    rw [h3] at heq
    cases heq
    rw [if_neg (lt_irrefl 0)]
    split
    rename_i msg err heq
    rw [h4] at heq
    cases heq
    rw [if_neg (lt_irrefl 0)]
/-- the header of a message -/
def nfgenmsg (family : BitVec 8) : List UInt8 := [UInt8.ofBitVec family, 0, 0, 0]

/-- **Enough room**: the headers, the attributes, and the headers of two nests that may be dropped again -/
def ctRoom (ct : CtObj) : ℕ := 16 + 4 + (encLeaves (ctLeaves ct)).length + 8

section

variable {ct : CtObj} {fam : Fam} (h : Whole fam ct)

include h

theorem Whole.tupleLeaves_eq (repl : Bool) :
    tupleLeaves ct repl = leavesOf (tupleFields fam (numOf ct) (tuplePartsOf ct repl)) := by
  rw [tupleLeaves, ctIpFields_eq h.family, ctProtoFields_eq h.family, nestLeaves_fields, nestLeaves_fields, tupleFields,
    leavesOf_cons, leavesOf_cons, leavesOf_cons, leavesOf_cons]
  simp only [List.append_assoc]
  rfl

/-- **A tuple**, written -/
theorem Whole.tuple_puts (repl : Bool) :
    Puts (nfnlCtBuildTuple ct repl) (nestLeaves (if repl then CTA_TUPLE_REPLY else CTA_TUPLE_ORIG) (tupleLeaves ct repl))
      8 := by
  have hwf1 : ∀ l ∈ leavesOf (ctIpFields ct repl), l.WF := by
    rw [ctIpFields_eq h.family]
    exact (ipFields_sendable (h.full repl)).wf
  have hwf2 : ∀ l ∈ leavesOf (ctProtoFields ct repl), l.WF := by
    rw [ctProtoFields_eq h.family]
    exact (protoFields_sendable _).wf
  have hlen1 : (encLeaves (leavesOf (ctIpFields ct repl))).length ≤ 40 := by
    rw [ctIpFields_eq h.family]
    exact ipFields_length (h.full repl)
  have hlen2 : (encLeaves (leavesOf (ctProtoFields ct repl))).length ≤ 48 := by
    rw [ctProtoFields_eq h.family]
    exact protoFields_length fam _ _
  have hlen : (encLeaves (tupleLeaves ct repl)).length ≤ 104 := by
    rw [h.tupleLeaves_eq]
    exact tupleFields_length (h.full repl) _
  have hip := Puts.nest (-NLE_MSGSIZE) (t := CTA_TUPLE_IP) (by decide) (puts_putAll (-NLE_MSGSIZE) hwf1 0) (by omega)
  have hproto := Puts.nest (-NLE_MSGSIZE) (t := CTA_TUPLE_PROTO) (by decide) (puts_putAll (-NLE_MSGSIZE) hwf2 0)
    (by omega)
  have ht : (if repl then CTA_TUPLE_REPLY else CTA_TUPLE_ORIG) < 16384 := by
    cases repl with
    | true => decide
    | false => decide
  exact Puts.nest (-NLE_MSGSIZE) ht (hip.seq (-NLE_MSGSIZE) hproto) (by show 4 + (encLeaves (tupleLeaves ct repl)).length ≤ _; omega)

/-- the fields of the reply, if it is written -/
def replyFields (fam : Fam) (ct : CtObj) : FieldList :=
  if hasReply ct then tupleFields fam (numOf ct) (tuplePartsOf ct true) else []

theorem Whole.leaves_eq :
    ctLeaves ct =
      leavesOf (ctFields (tupleFields fam (numOf ct) (tuplePartsOf ct false)) (replyFields fam ct) (scalarsOf ct)) := by
  have hreply : (if hasReply ct then nestLeaves CTA_TUPLE_REPLY (tupleLeaves ct true) else []) =
      leavesOf [(32768 + CTA_TUPLE_REPLY, nestPayload (replyFields fam ct))] := by
    unfold replyFields
    by_cases hr : hasReply ct = true
    · rw [if_pos hr, if_pos hr, h.tupleLeaves_eq, nestLeaves_fields]
    · rw [if_neg hr, if_neg hr]
      rfl
  rw [ctLeaves, hreply, h.tupleLeaves_eq, nestLeaves_fields, ctScalarFields_eq, ctFields, leavesOf_cons, leavesOf_cons,
    leavesOf_cons, leavesOf_cons]
  simp only [List.append_assoc]
  rfl

/-- what is not written for the reply is not there -/
theorem Whole.reply_cases (hown : Owns ct) : replyFields fam ct = tupleFields fam (numOf ct) (tuplePartsOf ct true) ∨
    replyFields fam ct = [] ∧ tuplePartsOf ct true = .none := by
  unfold replyFields
  by_cases hr : hasReply ct = true
  · rw [if_pos hr]
    exact Or.inl rfl
  · rw [if_neg hr]
    have hno : ∀ c ∈ addrTravels true ++ protoTravels true, hasAttr ct c.1 = false := by
      intro c hc
      rw [← Bool.not_eq_true]
      intro hhas
      obtain ⟨hsrc, hdst⟩ := h.reply c hc hhas
      refine hr ?_
      rw [hasReply, nfnlCtGetSrc, nfnlCtGetDst, if_pos hsrc, if_pos hdst, (hown true).1 hsrc, (hown true).2 hdst]
      rfl
    simp only [addrTravels, protoTravels, List.cons_append, List.nil_append, List.forall_mem_cons] at hno
    obtain ⟨hsrc, hdst, hsport, hdport, hid, htype, hcode, -⟩ := hno
    refine Or.inr ⟨rfl, ?_⟩
    simp only [tuplePartsOf, nfnlCtGetSrc, nfnlCtGetDst, valIf, hsrc, hdst, hsport, hdport, hid, htype, hcode,
      Bool.false_eq_true, if_false, Option.map_none]
    rfl

theorem Whole.sendable :
    Sendable ctPolicy (ctFields (tupleFields fam (numOf ct) (tuplePartsOf ct false)) (replyFields fam ct) (scalarsOf ct)) := by
  refine ctFields_sendable (tupleFields_length (h.full false) _) ?_ _
  unfold replyFields
  by_cases hr : hasReply ct = true
  · rw [if_pos hr]
    exact tupleFields_length (h.full true) _
  · rw [if_neg hr]
    exact Nat.zero_le _

/-- the reply, if it is written -/
theorem Whole.reply_puts :
    Puts (fun msg => if hasReply ct then nfnlCtBuildTuple ct true msg else (msg, 0))
      (if hasReply ct then nestLeaves CTA_TUPLE_REPLY (tupleLeaves ct true) else []) 8 := by
  by_cases hr : hasReply ct = true
  · simp only [if_pos hr]
    exact h.tuple_puts true
  · simp only [if_neg hr]
    exact puts_nothing 8

/-- **The builder**, with enough room -/
theorem Whole.built {size : ℕ} (cmd flags : ℕ) (hsize : size ≤ PTRDIFF_MAX) (hroom : ctRoom ct ≤ size) :
    ∃ m0 m, m0.nlmsgLen = 16 ∧ nfnlCtBuildMessage ct size cmd flags = .ok (some m) ∧
      Wrote m0 m (nfgenmsg fam.num ++ encLeaves (ctLeaves ct)) := by
  obtain ⟨m0, halloc, hfresh, hle, -⟩ := allocSimple_some (t := 256 + cmd % 256) (f := flags) hsize
  have hlen0 := hfresh.len
  have hint : (encLeaves (ctLeaves ct)).length ≤ 65536 * 7 := by
    have hle7 := h.sendable.length_le
    have hseven : (ctFields (tupleFields fam (numOf ct) (tuplePartsOf ct false)) (replyFields fam ct)
      (scalarsOf ct)).length = 7 := rfl
    rw [hseven] at hle7
    rwa [h.leaves_eq]
  have hroom0 : Room m0 (4 + ((encLeaves (ctLeaves ct)).length + 8)) := by
    unfold ctRoom at hroom
    exact ⟨by omega, by omega⟩
  have hlen : (nfgenmsg fam.num).length = 4 := rfl
  have hwf : ∀ l ∈ leavesOf (ctScalarFields ct), l.WF := by
    rw [ctScalarFields_eq]
    exact (scalarFields_sendable _).wf
  rw [ctLeaves, encLeaves_append, encLeaves_append, List.length_append, List.length_append] at hroom0
  obtain ⟨m1, h1, hw1⟩ := nlmsgAppend_aligned (a := nfgenmsg fam.num) (tidy_of_fresh hfresh) (by rw [hlen])
    (room_mono hroom0 (by rw [hlen]; omega))
  have hroom1 := room_after hw1 hroom0
  have horig : Puts (nfnlCtBuildTuple ct false) (nestLeaves CTA_TUPLE_ORIG (tupleLeaves ct false)) 8 := h.tuple_puts false
  obtain ⟨m2, h2, hw2⟩ := horig m1 hw1.tidy (room_mono hroom1 (by omega))
  have hroom2 := room_after hw2 (room_mono hroom1 (Nat.add_assoc _ _ _).ge)
  obtain ⟨m3, h3, hw3⟩ := h.reply_puts m2 hw2.tidy (room_mono hroom2 (by omega))
  have hroom3 := room_after hw3 (room_mono hroom2 (Nat.add_assoc _ _ _).ge)
  obtain ⟨m4, h4, hw4⟩ := putAll_room (-NLE_MSGSIZE) hwf hw3.tidy (room_mono hroom3 (Nat.le_add_right _ _))
  refine ⟨m0, m4, hlen0, ?_, ?_⟩
  · have happend : nfnlmsgAppend m0 (nfnlCtGetFamily ct) = (m1, 0) := by
      rw [h.family]
      exact h1
    exact buildMessage_ok halloc happend h2 h3 h4
  · rw [ctLeaves, encLeaves_append, encLeaves_append]
    exact hw1.append (hw2.append (hw3.append hw4))

/-- **Written and read** -/
theorem Whole.read (hown : Owns ct) {size : ℕ} (cmd flags : ℕ) (hsize : size ≤ PTRDIFF_MAX) (hroom : ctRoom ct ≤ size) :
    ∃ msg msgtype, nfnlCtBuildMessage ct size cmd flags = .ok (some msg) ∧
      nfnlmsgCtParse msg = .ok (ctAgain msgtype fam ct) := by
  obtain ⟨m0, m, hlen0, hbuild, hw⟩ := h.built cmd flags hsize hroom
  rw [h.leaves_eq] at hw
  have hsend := h.sendable
  have hlen : (nfgenmsg fam.num).length = 4 := rfl
  obtain ⟨tb, hparse, hidx, hseg⟩ := parse_message CTA_MAX hlen0 (by rw [hlen]) hsend.wf (hsend.valid CTA_MAX) hw
  refine ⟨m, m.nlmsgType, hbuild, ?_⟩
  refine ctParse_fields (h.full false) (h.full true) (h.reply_cases hown) hparse hidx ?_
  have hbyte : m.buf 16 = UInt8.ofBitVec fam.num := hseg 0 (by rw [hlen]; decide)
  rw [nlmsgData, NLMSG_HDRLEN, hbyte]

end

/-! ## The round trip -/

/-- **Conntrack codec round trip.** For a connection built with the setters, the builder, with enough room, makes a message
from which the parser gets a connection with the same attributes, and with the same values for those that are there. -/
theorem ct_round_trip (sets : List CtSet) (fam : Fam) (h : Whole fam (builtWith sets)) (size cmd flags : ℕ)
    (hsize : size ≤ PTRDIFF_MAX) (hroom : ctRoom (builtWith sets) ≤ size) :
    ∃ msg ct, nfnlCtBuildMessage (builtWith sets) size cmd flags = .ok (some msg) ∧ nfnlmsgCtParse msg = .ok ct ∧
      ∀ c ∈ travels, hasAttr ct c.1 = hasAttr (builtWith sets) c.1 ∧
        (hasAttr ct c.1 = true → c.2 ct.data (builtWith sets).data) := by
  have hown := built_owns sets
  obtain ⟨msg, msgtype, hbuild, hparse⟩ := h.read hown cmd flags hsize hroom
  exact ⟨msg, _, hbuild, hparse, fun c hc => ⟨ctAgain_has hown h.has msgtype c hc, (h.held msgtype).same c hc⟩⟩

end

/-! a connection with ICMP, with a status that was changed, and with one direction only -/

def sampleSrc : NlAddr := ⟨2, 32, [192, 168, 0, 1]⟩
def sampleDst : NlAddr := ⟨2, 32, [192, 168, 0, 2]⟩

def sampleSets : List CtSet :=
  [.src false sampleSrc, .dst false sampleDst, .proto 1, .srcPort false 7, .icmpId false 9, .icmpType false 8,
    .icmpCode false 0, .status 6, .unsetStatus 2, .timeout 30, .zone 3]

/-- the object that these calls build -/
def sampleCt : CtObj where
  ceOps := 0
  ceMsgtype := 0
  ceMask := 0x800771b
  data := { nfnlCtAlloc.data with
    ctFamily := 2
    ctProto := 1
    ctStatus := 4
    ctStatusMask := 6
    ctTimeout := 30
    ctZone := 3
    ctOrig := ⟨some sampleSrc, some sampleDst, ⟨9, 8, 0⟩, 0, 0⟩ }

theorem sample_built : @builtWith ⟨false⟩ sampleSets = sampleCt := by rfl

theorem sample_whole : Whole .v4 sampleCt where
  family := rfl
  src repl a ha := by
    cases repl with
    | true => cases ha
    | false =>
      cases ha
      exact ⟨rfl, rfl, rfl⟩
  dst repl a ha := by
    cases repl with
    | true => cases ha
    | false =>
      cases ha
      exact ⟨rfl, rfl, rfl⟩
  reply := by
    simp only [addrTravels, protoTravels, List.cons_append, List.nil_append, List.forall_mem_cons]
    and_intros <;> exact nofun

/-- the round trip of this connection, in a message of a page -/
theorem ct_round_trip_sample : ∃ msg ct,
    @nfnlCtBuildMessage (@builtWith ⟨false⟩ sampleSets) ⟨false⟩ 4096 0 0 = .ok (some msg) ∧
    @nfnlmsgCtParse ⟨false⟩ msg = .ok ct ∧
      ∀ c ∈ travels, hasAttr ct c.1 = hasAttr (@builtWith ⟨false⟩ sampleSets) c.1 ∧
        (hasAttr ct c.1 = true → c.2 ct.data (@builtWith ⟨false⟩ sampleSets).data) := by
  refine @ct_round_trip ⟨false⟩ sampleSets .v4 ?_ 4096 0 0 (by decide) ?_
  · rw [sample_built]
    exact sample_whole
  · rw [sample_built]
    decide +kernel

end Libnl.Ct
