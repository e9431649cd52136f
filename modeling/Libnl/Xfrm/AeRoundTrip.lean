/-
Messages for asynchronous events: which events come back.

A replay state with a bitmap may be longer than an attribute can be. Its attribute then says less than it has, and the parser
goes on inside of the bitmap; the state is read whole nevertheless, as its own length says. So what matters is what the bitmap
spells, read as attributes.

- `Survives`: the event comes back. `AeRoom`: there is room for its message.
- `EsnShows`: what the bytes of the replay state show, read alone, is the replay state, and nothing that the event does not say.
- `plain_survives_iff`, `long_survives_iff`: events without a bitmap, and with one.
- `ae_round_trip_iff`: all of them. `maxage_lost`: one that does not come back.
-/
import Mathlib.Tactic
import Libnl.Message.Overlong
import Libnl.Xfrm.SameBytes
import Libnl.Xfrm.AeCodec

namespace Libnl.Xfrm

open Bytes Layout Msg Attr AttrWalk AttrTree AttrStream Writer Fields
open Mask Object Addr Overlong Validate Window

section

variable [HostOrder]

/-! ## Coming back -/

/-- the event comes back of its message, with the same attributes and values -/
def Survives (stack : Mem) (r : AeVal) (size cmd flags : ℕ) : Prop :=
  ∃ m r', buildXfrmAeMessage stack size r cmd flags = .ok m ∧ xfrmnlAeParse m = some (.ok r') ∧ r'.ceMask = r.ceMask ∧
    AeSame r r'

/-- bytes of the message for an event -/
def aeMsgSize (r : AeVal) : ℕ := 16 + (48 + (encLeaves (leavesOf (aeFields r))).length)

/-- room in a message that can be allocated, and for its length in an `int` -/
structure AeRoom (r : AeVal) (size : ℕ) : Prop where
  room : aeMsgSize r ≤ size
  int : aeMsgSize r ≤ 2147483647
  alloc : size ≤ PTRDIFF_MAX

/-- attributes as an event with a replay state has them -/
structure ReadsAs (r : AeVal) (p : AePresent) (a : AeAttrs) : Prop where
  mark : a.mark = (carried r p).mark
  lifetime : a.lifetimeCur = (carried r p).lifetimeCur
  maxage : a.replayMaxage = (carried r p).replayMaxage
  maxdiff : a.replayMaxdiff = (carried r p).replayMaxdiff
  esn : a.replayStateEsn = r.data.replayStateEsn
  replay : r.data.replayStateEsn = none → a.replayState.getD ⟨0, 0, 0⟩ = r.data.replayState

omit [HostOrder] in
theorem isSome_carried {γ : Type} (c : Bool) (x : γ) : (if c then some x else none).isSome = c := by
  cases c with
  | true => rfl
  | false => rfl

omit [HostOrder] in
theorem carried_of_getD {γ : Type} {o : Option γ} {c : Bool} {x d : γ} (hc : o.isSome = c) (hx : c = true → o.getD d = x) :
    o = if c then some x else none := by
  cases o with
  | none =>
    subst hc
    rfl
  | some y =>
    subst hc
    exact congrArg some (hx rfl)

omit [HostOrder] in
theorem none_carried_iff {γ : Type} (c : Bool) (x : γ) : (if c then some x else none) = none ↔ c = false := by
  cases c with
  | true => exact iff_of_false (by simp) (by simp)
  | false => exact iff_of_true rfl rfl

/-- **What comes back** of an event with a replay state -/
theorem back_iff {stack : Mem} {r : AeVal} {p : AePresent} (hr : AeCarries r p) (hreplay : p.replay = true) {m : Mem}
    (hseg : Seg m 16 (aeIdBytes stack r)) (msgtype : ℤ) (a : AeAttrs) :
    (aeOf msgtype (aeIdAt m 16) a).ceMask = r.ceMask ∧ AeSame r (aeOf msgtype (aeIdAt m 16) a) ↔
      ShortAddrs r ∧ ReadsAs r p a := by
  have hmark := has_ae hr.mask 7 XFRM_AE_ATTR_MARK rfl
  have hlifetime := has_ae hr.mask 8 XFRM_AE_ATTR_LIFETIME rfl
  have hmaxage := has_ae hr.mask 9 XFRM_AE_ATTR_REPLAY_MAXAGE rfl
  have hmaxdiff := has_ae hr.mask 10 XFRM_AE_ATTR_REPLAY_MAXDIFF rfl
  have hstate := (has_ae hr.mask 11 XFRM_AE_ATTR_REPLAY_STATE rfl).trans hreplay
  constructor
  · rintro ⟨hmask, hsame⟩
    have hp : p = ⟨a.mark.isSome, a.lifetimeCur.isSome, a.replayMaxage.isSome, a.replayMaxdiff.isSome, true⟩ :=
      aeBits_inj hr.mask hmask.symm
    refine ⟨⟨short_of_begins hsame.daddr, short_of_begins hsame.saddr⟩, ?_, ?_, ?_, ?_, ?_, ?_⟩
    · exact carried_of_getD (by rw [hp]) fun h => hsame.mark (hmark.trans h)
    · exact carried_of_getD (by rw [hp]) fun h => hsame.lifetime (hlifetime.trans h)
    · exact carried_of_getD (by rw [hp]) fun h => hsame.maxage (hmaxage.trans h)
    · exact carried_of_getD (by rw [hp]) fun h => hsame.maxdiff (hmaxdiff.trans h)
    · exact hsame.esn hstate
    · intro hnone
      have hval := hsame.replay hstate hnone
      have hesn : a.replayStateEsn = none := (hsame.esn hstate).trans hnone
      simp only [aeOf, hesn, Option.isSome_none, Bool.false_eq_true, if_false] at hval
      exact hval
  · rintro ⟨hshort, ha⟩
    have hheld : Holds m 16 (aePieces r) :=
      (stores_holds stack 0 (aePieces_laidOut hshort)).moved hseg (aePieces_laidOut hshort)
    obtain ⟨hdaddr, hsaddr, hspi, hfamily, hproto, hflags, hreqid⟩ := aeIdAt_holds hr hshort hheld
    have hgetD : ∀ {γ : Type} {o : Option γ} {c : Bool} {x d : γ}, o = (if c then some x else none) → c = true →
        o.getD d = x := by
      intro γ o c x d ho hc
      rw [ho, hc]
      rfl
    refine ⟨?_, hdaddr, hsaddr, hspi, hfamily, hproto, hflags, hreqid, fun h => ?_, fun h => ?_, fun h => ?_, fun h => ?_,
      fun _ => ha.esn, fun _ hnone => ?_⟩
    · have hp : p = ⟨p.mark, p.lifetime, p.maxage, p.maxdiff, true⟩ := by rw [← hreplay]
      simp only [aeOf, ha.mark, ha.lifetime, ha.maxage, ha.maxdiff, carried, isSome_carried]
      rw [← hp]
      exact hr.mask.symm
    · exact hgetD ha.mark (hmark.symm.trans h)
    · exact hgetD ha.lifetime (hlifetime.symm.trans h)
    · exact hgetD ha.maxage (hmaxage.symm.trans h)
    · exact hgetD ha.maxdiff (hmaxdiff.symm.trans h)
    · have hesn : a.replayStateEsn = none := ha.esn.trans hnone
      simp only [aeOf, hesn, Option.isSome_none, Bool.false_eq_true, if_false]
      exact ha.replay hnone

/-- the builder, by what it puts -/
theorem build_ok {stack : Mem} {r : AeVal} {p : AePresent} (hr : AeCarries r p) {size cmd flags : ℕ} {m0 m : NlMsg}
    (halloc : nlmsgAllocSimple size cmd flags = some m0)
    (hput : thenPut (-NLE_MSGSIZE) (nlmsgAppend m0 (aeIdBytes stack r) 4) (putAll (-NLE_MSGSIZE) (leavesOf (aeFields r))) =
      (m, 0)) : buildXfrmAeMessage stack size r cmd flags = .ok m := by
  have hdaddr := has_ae hr.mask 0 XFRM_AE_ATTR_DADDR rfl
  have hspi := has_ae hr.mask 2 XFRM_AE_ATTR_SPI rfl
  have hproto := has_ae hr.mask 3 XFRM_AE_ATTR_PROTO rfl
  rw [buildXfrmAeMessage, hdaddr, hspi, hproto, halloc, if_neg (by simp)]
  simp only [hput, lt_irrefl, if_false]

/-- a message that was built comes back, or does not -/
theorem survives_of_built {stack : Mem} {r : AeVal} {size cmd flags : ℕ} {m : NlMsg}
    (hbuild : buildXfrmAeMessage stack size r cmd flags = .ok m) :
    Survives stack r size cmd flags ↔ ∃ r', xfrmnlAeParse m = some (.ok r') ∧ r'.ceMask = r.ceMask ∧ AeSame r r' := by
  constructor
  · rintro ⟨m', r', hbuild', h⟩
    obtain rfl : m = m' := Except.ok.inj (hbuild.symm.trans hbuild')
    exact ⟨r', h⟩
  · rintro ⟨r', h⟩
    exact ⟨m, r', hbuild, h⟩

/-! ## Without a bitmap -/

theorem leavesOf_plain {a : AeAttrs} (h : a.replayStateEsn = none) : leavesOf (aeAttrFields a) = leavesOf (aePlainFields a) := by
  rw [aeAttrFields, aePlainFields, leavesOf_append, leavesOf_append, h]
  rfl

/-- **Events without a bitmap** -/
theorem plain_survives_iff (stack : Mem) {r : AeVal} {p : AePresent} (hr : AeCarries r p)
    (hesn : (carried r p).replayStateEsn = none) {size : ℕ} (cmd flags : ℕ) (hroom : AeRoom r size) :
    Survives stack r size cmd flags ↔ ShortAddrs r ∧ p.replay = true ∧ p.maxage = false ∧ p.maxdiff = false := by
  have hhdr : (aeIdBytes stack r).length = 48 := readBytes_length _ _ _
  have hleaves : leavesOf (aeFields r) = leavesOf (aePlainFields (carried r p)) := by
    rw [aeFields_carried hr, leavesOf_plain hesn]
  have hsize := hroom.room
  rw [aeMsgSize, hleaves] at hsize
  obtain ⟨m0, m, tb, halloc, hput, hparse, hidx, hseg⟩ := fields_written (-NLE_MSGSIZE) XFRMA_MAX cmd flags
    (show (aeIdBytes stack r).length % 4 = 0 by rw [hhdr]) (aePlainFields_sendable (carried r p))
    (by rw [hhdr]; exact (by decide : 48 + 65536 * 5 ≤ 2147483631)) hroom.alloc (by rw [List.length_append, hhdr]; exact hsize)
  rw [← hleaves] at hput
  rw [hhdr, Nat.cast_ofNat] at hparse
  obtain ⟨hhead, hread, hval⟩ := read_plain hesn hidx
  have hreadable : aeReadable m tb = p.replay := by
    simp only [aeReadable, hhead.esn, hhead.maxage, hhead.maxdiff, hval, Option.isSome_none, Option.all_none, Bool.and_true,
      Bool.false_or]
    revert hesn
    simp only [carried]
    cases p.replay with
    | false => exact fun _ => rfl
    | true =>
      intro hnone
      have hnone : r.data.replayStateEsn = none := hnone
      rw [hnone]
      rfl
  have hresult : xfrmnlAeParse m = if p.replay then some (.ok (aeOf m.nlmsgType (aeIdAt m.buf 16)
      { carried r p with replayMaxage := none, replayMaxdiff := none })) else none := by
    simp only [xfrmnlAeParse, hparse, lt_irrefl, if_false, hreadable, hread]
    rfl
  rw [survives_of_built (build_ok hr halloc hput), hresult]
  constructor
  · rintro ⟨r', hback, hsame⟩
    split_ifs at hback with hreplay
    obtain rfl := Except.ok.inj (Option.some.inj hback)
    obtain ⟨hshort, ha⟩ := (back_iff hr hreplay hseg _ _).1 hsame
    exact ⟨hshort, hreplay, (none_carried_iff _ _).1 ha.maxage.symm, (none_carried_iff _ _).1 ha.maxdiff.symm⟩
  · rintro ⟨hshort, hreplay, hmaxage, hmaxdiff⟩
    refine ⟨_, if_pos hreplay, (back_iff hr hreplay hseg _ _).2 ⟨hshort, rfl, rfl, ?_, ?_, ?_, fun hnone => ?_⟩⟩
    · exact ((none_carried_iff _ _).2 hmaxage).symm
    · exact ((none_carried_iff _ _).2 hmaxdiff).symm
    · exact if_pos hreplay
    · show (carried r p).replayState.getD ⟨0, 0, 0⟩ = r.data.replayState
      rw [carried, hreplay, hnone]
      rfl

/-! ## With a bitmap -/

/-- the replay state as it stands in a message -/
def esnAttr (e : XfrmnlReplayStateEsn) : List UInt8 := cutAttr XFRMA_REPLAY_ESN_VAL e.taken

/-- the attributes in it -/
def esnIndex (e : XfrmnlReplayStateEsn) : ℤ × Index := alone (esnAttr e) XFRMA_MAX xfrmAePolicy

/-- and what they say -/
def esnReads (e : XfrmnlReplayStateEsn) : AeAttrs := readAeAttrs (memOf (esnAttr e)) (esnIndex e).2

/-- the bytes of the replay state, read as attributes, show the replay state itself, which is all there, and nothing that the
event does not say -/
structure EsnShows (r : AeVal) (p : AePresent) (e : XfrmnlReplayStateEsn) : Prop where
  passes : ¬ (esnIndex e).1 < 0
  found : (esnIndex e).2 XFRMA_REPLAY_ESN_VAL = some 0
  whole : 24 + 4 * e.bmpLen.toNat < 4294967296
  mark : ∀ x ∈ (esnReads e).mark, p.mark = true ∧ x = r.data.mark
  lifetime : ∀ x ∈ (esnReads e).lifetimeCur, p.lifetime = true ∧ x = r.data.lifetimeCur
  maxage : (esnReads e).replayMaxage = (carried r p).replayMaxage
  maxdiff : (esnReads e).replayMaxdiff = (carried r p).replayMaxdiff
  inside : ∀ t ∈ [XFRM_AE_ETHR, XFRM_AE_RTHR], ∀ nla, (esnIndex e).2 t = some nla → nla + 8 ≤ (esnAttr e).length

theorem taken_length {e : XfrmnlReplayStateEsn} (hbmp : e.bmp.length = 4 * e.bmpLen.toNat) :
    e.taken.length = (24 + 4 * e.bmpLen.toNat) % 4294967296 := by
  have hlen := replayEsn_length e
  rw [XfrmnlReplayStateEsn.taken, List.length_take, hlen, hbmp]
  exact min_eq_left (Nat.mod_le _ _)

theorem taken_whole {e : XfrmnlReplayStateEsn} (hbmp : e.bmp.length = 4 * e.bmpLen.toNat)
    (hwhole : 24 + 4 * e.bmpLen.toNat < 4294967296) : e.taken = e.bytes := by
  have hlen := replayEsn_length e
  rw [XfrmnlReplayStateEsn.taken, Nat.mod_eq_of_lt hwhole]
  exact List.take_of_length_le (by omega)

/-- the message for an event with a bitmap, and its index -/
structure Sent (stack : Mem) (r : AeVal) (p : AePresent) (e : XfrmnlReplayStateEsn) (m : NlMsg) (q : ℕ) (tb : Index) :
    Prop where
  front : Seg m.buf 16 (aeIdBytes stack r)
  behind : Seg m.buf q (esnAttr e)
  len : m.nlmsgLen = q + (esnAttr e).length
  small : (esnAttr e).length < 2147483648
  head : HeadRead m.buf tb (carried r p)
  err : (nlmsgParse m 48 XFRMA_MAX (some xfrmAePolicy)).1 = (esnIndex e).1
  index : Shifted q tb (nlmsgParse m 48 XFRMA_MAX (some xfrmAePolicy)).2 (esnIndex e).2

theorem leavesOf_long {a : AeAttrs} {e : XfrmnlReplayStateEsn} (hesn : a.replayStateEsn = some e) (hstate : a.replayState = none) :
    leavesOf (aeAttrFields a) = leavesOf (aeHeadFields a) ++ [⟨XFRMA_REPLAY_ESN_VAL, e.taken⟩] := by
  rw [aeAttrFields, leavesOf_append, hesn, hstate]
  rfl

theorem long_sent (stack : Mem) {r : AeVal} {p : AePresent} (hr : AeCarries r p) {e : XfrmnlReplayStateEsn}
    (he : r.data.replayStateEsn = some e) (hreplay : p.replay = true) {size : ℕ} (cmd flags : ℕ) (hroom : AeRoom r size) :
    ∃ m q tb, buildXfrmAeMessage stack size r cmd flags = .ok m ∧ Sent stack r p e m q tb := by
  have hhdr : (aeIdBytes stack r).length = 48 := readBytes_length _ _ _
  have hleaves : leavesOf (aeFields r) = leavesOf (aeHeadFields (carried r p)) ++ [⟨XFRMA_REPLAY_ESN_VAL, e.taken⟩] := by
    have hstate : (carried r p).replayState = none := by
      rw [carried, he, Option.isNone_some, Bool.and_false]
      rfl
    rw [aeFields_carried hr, leavesOf_long (by rw [carried, hreplay, he]; rfl) hstate]
  have htaken := taken_length (hr.esn e he)
  have hwords : e.taken.length % 4 = 0 := by omega
  have hsend := aeHeadFields_sendable (carried r p)
  have hbytes : (encLeaves (leavesOf (aeFields r))).length =
      (encLeaves (leavesOf (aeHeadFields (carried r p)))).length + (4 + e.taken.length) := by
    have halign : align4 (4 + e.taken.length) = 4 + e.taken.length := align4_of_mod (by omega)
    rw [hleaves, encLeaves_append, List.length_append, encLeaves_cons, encLeaves_nil, List.append_nil, encLeaf_length]
    exact congrArg ((encLeaves (leavesOf (aeHeadFields (carried r p)))).length + ·) halign
  have hsize := hroom.room
  have hint := hroom.int
  rw [aeMsgSize, hbytes] at hsize hint
  obtain ⟨m0, halloc, hfresh, hle, -⟩ := allocSimple_some (t := cmd) (f := flags) hroom.alloc
  have hlen0 := hfresh.len
  obtain ⟨m1, hfront, hw1⟩ := nlmsgAppend_aligned (tidy_of_fresh hfresh) (show (aeIdBytes stack r).length % 4 = 0 by rw [hhdr])
    ⟨by omega, by omega⟩
  have hl1 := hw1.len
  have hs1 := hw1.size
  obtain ⟨m, hput, hw⟩ := putAll_long (show -NLE_MSGSIZE < 0 by decide) hsend.wf
    (show XFRMA_REPLAY_ESN_VAL < 65536 by decide) hwords hw1.tidy ⟨by omega, by omega⟩
  have hall := hw1.append hw
  have hl := hall.len
  have hseg := hall.seg
  rw [List.length_append, List.length_append, cutAttr_length, hhdr, hlen0] at hl
  rw [hlen0] at hseg
  obtain ⟨hsegid, hsegattrs⟩ := seg_append.1 hseg
  rw [hhdr] at hsegattrs
  have hcut := cutAttr_length XFRMA_REPLAY_ESN_VAL e.taken
  obtain ⟨tb, hidx, herr, hindex⟩ := parse_behind hsend.wf
    (fun l hl pos hat => show 0 ≤ validateNla m.buf pos XFRMA_MAX xfrmAePolicy from hsend.valid XFRMA_MAX l hl pos hat)
    (show 48 % 4 = 0 by decide) (by omega) (by omega) hsegattrs
  have htypes : ∀ f ∈ aeHeadFields (carried r p), f.1 ∈ [XFRMA_MARK, XFRMA_LTIME_VAL, XFRMA_ETIMER_THRESH,
      XFRMA_REPLAY_THRESH, XFRMA_REPLAY_VAL] := fun f hf =>
    List.mem_append_left [XFRMA_REPLAY_VAL] (List.mem_map_of_mem (f := Prod.fst) hf)
  have hdistinct : Distinct (aeHeadFields (carried r p)) := by
    show List.Nodup _
    simp only [aeHeadFields, List.map_cons, List.map_nil]
    decide
  refine ⟨m, _, tb, build_ok hr halloc ?_, hsegid, (seg_append.1 hsegattrs).2, ?_, ?_,
    head_read hdistinct (fun f hf => hf) htypes hidx, herr, hindex⟩
  · rw [hfront, thenPut_ok, hleaves, hput]
  · rw [esnAttr, hcut]
    omega
  · rw [esnAttr, hcut]
    omega

section

variable {stack : Mem} {r : AeVal} {p : AePresent} {e : XfrmnlReplayStateEsn} {m : NlMsg} {q : ℕ} {tb : Index}

/-- an attribute of the bitmap that has so many bytes, alone and in the message -/
theorem Sent.window (h : Sent stack r p e m q tb) {o n : ℕ} (hn : o + 4 + n ≤ (esnAttr e).length) :
    Same m.buf (memOf (esnAttr e)) (nlaData (q + o)) (nlaData o) n := by
  have hsame := (same_of_seg h.behind (seg_memOf _)).sub (o + 4) n hn
  rw [zero_add, ← add_assoc] at hsame
  exact hsame

/-- what the policy asks for is in the bytes of the replay state -/
theorem Sent.inside (h : Sent stack r p e m q tb) (hok : ¬ (esnIndex e).1 < 0) {t n : ℕ}
    (hn : policyMinlen (xfrmAePolicy t) = n) (o : ℕ) (hget : (esnIndex e).2 t = some o) : o + 4 + n ≤ (esnAttr e).length := by
  have hentry := alone_entry h.small hok hget
  have hin := hentry.right
  have hmin := hentry.conforms.min
  rw [hn, nlaLen, NLA_HDRLEN] at hmin
  omega

/-- **What is read** of a type, of which the bitmap has an attribute or what stands before it -/
theorem Sent.reads {γ : Type} (h : Sent stack r p e m q tb) {t n : ℕ} {read : Mem → ℕ → γ} {own : Option γ}
    (hsame : ∀ {m m' : Mem} {p p' : ℕ}, Same m m' p p' n → read m p = read m' p')
    (hin : ∀ o, (esnIndex e).2 t = some o → o + 4 + n ≤ (esnAttr e).length)
    (hown : (tb t).map (fun nla => read m.buf (nlaData nla)) = own) :
    ((nlmsgParse m 48 XFRMA_MAX (some xfrmAePolicy)).2 t).map (fun nla => read m.buf (nlaData nla)) =
      (((esnIndex e).2 t).map fun nla => read (memOf (esnAttr e)) (nlaData nla)).or own := by
  rcases h.index t with ⟨hnone, hbase⟩ | ⟨o, ho, hq⟩
  · rw [hnone, hbase, hown]
    rfl
  · rw [ho, hq]
    exact congrArg some (hsame (h.window (hin o ho)))

/-- thresholds within the message are thresholds within the bitmap -/
theorem Sent.threshold_iff (h : Sent stack r p e m q tb) {t : ℕ} (hbase : tb t = none) :
    ((nlmsgParse m 48 XFRMA_MAX (some xfrmAePolicy)).2 t).all (fun a => decide (nlaData a + 4 ≤ m.nlmsgLen)) = true ↔
      ∀ nla, (esnIndex e).2 t = some nla → nla + 8 ≤ (esnAttr e).length := by
  have hlen := h.len
  rcases h.index t with ⟨hnone, hq⟩ | ⟨o, ho, hq⟩
  · rw [hq, hbase, hnone]
    exact iff_of_true rfl nofun
  · rw [hq, ho, Option.all_some, decide_eq_true_eq]
    unfold nlaData NLA_HDRLEN
    constructor
    · intro hin nla hnla
      obtain rfl := Option.some.inj hnla
      omega
    · intro hin
      have hle := hin o rfl
      omega

/-- the replay state is read of its own attribute only, and only if it is all there -/
theorem Sent.found_iff (h : Sent stack r p e m q tb) (hbmp : e.bmp.length = 4 * e.bmpLen.toNat) :
    (((nlmsgParse m 48 XFRMA_MAX (some xfrmAePolicy)).2 XFRMA_REPLAY_ESN_VAL).all (fun a =>
        decide (nlaData a + (24 + 4 * (replayEsnAt m.buf (nlaData a)).bmpLen.toNat) ≤ m.nlmsgLen)) = true ∧
      ((nlmsgParse m 48 XFRMA_MAX (some xfrmAePolicy)).2 XFRMA_REPLAY_ESN_VAL).map (fun a => replayEsnAt m.buf (nlaData a)) =
        some e) ↔ (esnIndex e).2 XFRMA_REPLAY_ESN_VAL = some 0 ∧ 24 + 4 * e.bmpLen.toNat < 4294967296 := by
  have hlen := h.len
  have htaken := taken_length hbmp
  have hcut := cutAttr_length XFRMA_REPLAY_ESN_VAL e.taken
  rw [← esnAttr] at hcut
  rcases h.index XFRMA_REPLAY_ESN_VAL with ⟨hnone, hq⟩ | ⟨o, ho, hq⟩
  · rw [hq, h.head.esn, hnone]
    exact iff_of_false (fun hboth => by cases hboth.2) fun hboth => by cases hboth.1
  · rw [hq, ho, Option.all_some, decide_eq_true_eq, Option.map_some, Option.some.injEq, Option.some.injEq]
    constructor
    · rintro ⟨hin, hread⟩
      rw [hread] at hin
      unfold nlaData NLA_HDRLEN at hin
      omega
    · rintro ⟨rfl, hwhole⟩
      have hseg : Seg m.buf (nlaData (q + 0)) e.bytes := by
        have hpayload := (seg_append.1 h.behind).2
        rwa [nlaHeader_length, taken_whole hbmp hwhole] at hpayload
      have hread := replayEsnAt_seg hbmp hseg
      rw [hread]
      unfold nlaData NLA_HDRLEN
      exact ⟨by omega, rfl⟩

end

omit [HostOrder] in
/-- something that is said again, if at all -/
theorem or_carried_iff {γ : Type} (o : Option γ) (c : Bool) (v : γ) :
    o.or (if c then some v else none) = (if c then some v else none) ↔ ∀ x ∈ o, c = true ∧ x = v := by
  cases o with
  | none => exact iff_of_true rfl nofun
  | some x =>
    cases c with
    | true =>
      constructor
      · intro h y hy
        obtain rfl := Option.some.inj hy
        exact ⟨rfl, Option.some.inj h⟩
      · intro h
        exact congrArg some (h x rfl).2
    | false =>
      constructor
      · intro h
        cases h
      · intro h
        cases (h x rfl).1

/-- what no policy promises -/
theorem aeReadable_iff {m : NlMsg} {tb : Index} : aeReadable m tb = true ↔
    ((tb XFRMA_REPLAY_ESN_VAL).isSome || (tb XFRMA_REPLAY_VAL).isSome) = true ∧
      (tb XFRM_AE_ETHR).all (fun a => decide (nlaData a + 4 ≤ m.nlmsgLen)) = true ∧
      (tb XFRM_AE_RTHR).all (fun a => decide (nlaData a + 4 ≤ m.nlmsgLen)) = true ∧
      (tb XFRMA_REPLAY_ESN_VAL).all (fun a =>
        decide (nlaData a + (24 + 4 * (replayEsnAt m.buf (nlaData a)).bmpLen.toNat) ≤ m.nlmsgLen)) = true := by
  simp only [aeReadable, Bool.and_eq_true, and_assoc]

/-- what the parser delivers -/
theorem xfrmnlAeParse_iff {m : NlMsg} {r' : AeVal} : xfrmnlAeParse m = some (.ok r') ↔
    ¬ (nlmsgParse m 48 XFRMA_MAX (some xfrmAePolicy)).1 < 0 ∧
      aeReadable m (nlmsgParse m 48 XFRMA_MAX (some xfrmAePolicy)).2 = true ∧
      r' = aeOf m.nlmsgType (aeIdAt m.buf 16) (readAeAttrs m.buf (nlmsgParse m 48 XFRMA_MAX (some xfrmAePolicy)).2) := by
  simp only [xfrmnlAeParse]
  by_cases herr : (nlmsgParse m 48 XFRMA_MAX (some xfrmAePolicy)).1 < 0
  · rw [if_pos herr]
    exact iff_of_false (fun h => by cases h) fun h => h.1 herr
  · rw [if_neg herr]
    by_cases hread : aeReadable m (nlmsgParse m 48 XFRMA_MAX (some xfrmAePolicy)).2 = true
    · rw [if_pos hread]
      constructor
      · intro h
        exact ⟨herr, hread, (Except.ok.inj (Option.some.inj h)).symm⟩
      · rintro ⟨-, -, rfl⟩
        rfl
    · rw [if_neg hread]
      exact iff_of_false (fun h => by cases h) fun h => hread h.2.1

/-- **Events with a bitmap** -/
theorem long_survives_iff (stack : Mem) {r : AeVal} {p : AePresent} (hr : AeCarries r p) {e : XfrmnlReplayStateEsn}
    (he : r.data.replayStateEsn = some e) (hreplay : p.replay = true) {size : ℕ} (cmd flags : ℕ) (hroom : AeRoom r size) :
    Survives stack r size cmd flags ↔ ShortAddrs r ∧ EsnShows r p e := by
  obtain ⟨m, q, tb, hbuild, h⟩ := long_sent stack hr he hreplay cmd flags hroom
  rw [survives_of_built hbuild]
  have hfound := h.found_iff (hr.esn e he)
  have hether := h.threshold_iff h.head.maxage
  have hrthr := h.threshold_iff h.head.maxdiff
  -- marks and lifetimes within the bitmap are those of the event, and thresholds are found nowhere else
  have hmark := fun hok => h.reads markAt_same (h.inside hok (show policyMinlen _ = 8 by decide)) h.head.mark
  have hlifetime := fun hok =>
    h.reads lifetimeCurAt_same (h.inside hok (show policyMinlen _ = 32 by decide)) h.head.lifetime
  have hu32 : ∀ {t}, tb t = none → (∀ nla, (esnIndex e).2 t = some nla → nla + 8 ≤ (esnAttr e).length) →
      ((nlmsgParse m 48 XFRMA_MAX (some xfrmAePolicy)).2 t).map (nlaGetU32 m.buf) =
        ((esnIndex e).2 t).map (nlaGetU32 (memOf (esnAttr e))) := by
    intro t hnone hin
    have hreads : _ = (((esnIndex e).2 t).map fun nla => u32At (memOf (esnAttr e)) (nlaData nla)).or none :=
      h.reads Same.u32At (fun o ho => hin o ho) (by rw [hnone]; rfl)
    rw [Option.or_none] at hreads
    exact hreads
  constructor
  · rintro ⟨r', hparse, hback⟩
    obtain ⟨herr, hreadable, rfl⟩ := xfrmnlAeParse_iff.1 hparse
    obtain ⟨hshort, ha⟩ := (back_iff hr hreplay h.front _ _).1 hback
    obtain ⟨-, hetherin, hrthrin, hesnin⟩ := aeReadable_iff.1 hreadable
    have hok : ¬ (esnIndex e).1 < 0 := by rwa [← h.err]
    obtain ⟨hown, hwhole⟩ := hfound.1 ⟨hesnin, ha.esn.trans he⟩
    refine ⟨hshort, hok, hown, hwhole, ?_, ?_, ?_, ?_, ?_⟩
    · exact (or_carried_iff _ _ _).1 ((hmark hok).symm.trans ha.mark)
    · exact (or_carried_iff _ _ _).1 ((hlifetime hok).symm.trans ha.lifetime)
    · exact (hu32 h.head.maxage (hether.1 hetherin)).symm.trans ha.maxage
    · exact (hu32 h.head.maxdiff (hrthr.1 hrthrin)).symm.trans ha.maxdiff
    · intro t ht
      rcases List.mem_cons.1 ht with rfl | ht
      · exact hether.1 hetherin
      · obtain rfl := List.mem_singleton.1 ht
        exact hrthr.1 hrthrin
  · rintro ⟨hshort, hshows⟩
    have hetherin := hshows.inside XFRM_AE_ETHR (by decide)
    have hrthrin := hshows.inside XFRM_AE_RTHR (by decide)
    obtain ⟨hesnin, hread⟩ := hfound.2 ⟨hshows.found, hshows.whole⟩
    have hsome : ((nlmsgParse m 48 XFRMA_MAX (some xfrmAePolicy)).2 XFRMA_REPLAY_ESN_VAL).isSome = true := by
      rw [← Option.isSome_map (f := fun a => replayEsnAt m.buf (nlaData a)), hread]
      rfl
    have hreadable : aeReadable m (nlmsgParse m 48 XFRMA_MAX (some xfrmAePolicy)).2 = true := by
      refine aeReadable_iff.2 ⟨?_, hether.2 hetherin, hrthr.2 hrthrin, hesnin⟩
      rw [hsome]
      rfl
    refine ⟨_, xfrmnlAeParse_iff.2 ⟨?_, hreadable, rfl⟩, (back_iff hr hreplay h.front _ _).2 ⟨hshort, ?_, ?_, ?_, ?_, ?_, ?_⟩⟩
    · rw [h.err]
      exact hshows.passes
    · exact (hmark hshows.passes).trans ((or_carried_iff _ _ _).2 hshows.mark)
    · exact (hlifetime hshows.passes).trans ((or_carried_iff _ _ _).2 hshows.lifetime)
    · exact (hu32 h.head.maxage hetherin).trans hshows.maxage
    · exact (hu32 h.head.maxdiff hrthrin).trans hshows.maxdiff
    · exact hread.trans he.symm
    · intro hnone
      rw [he] at hnone
      cases hnone

/-! ## All events -/

/-- a replay state that fits its attribute, read alone -/
theorem esnIndex_fits {e : XfrmnlReplayStateEsn} (hbmp : e.bmp.length = 4 * e.bmpLen.toNat)
    (hfit : 28 + 4 * e.bmpLen.toNat ≤ 65535) :
    esnIndex e = (0, Function.update (fun _ => none) XFRMA_REPLAY_ESN_VAL (some 0)) := by
  have htaken := taken_length hbmp
  have hpass : Accepts (xfrmAePolicy (XFRMA_REPLAY_ESN_VAL % 16384)) e.taken :=
    ⟨show 24 ≤ e.taken.length by omega, Or.inl rfl, fun h => by cases h⟩
  rw [esnIndex, esnAttr, cutAttr_fits (by omega) (by omega)]
  exact alone_leaf ⟨show XFRMA_REPLAY_ESN_VAL < 65536 by decide, show 4 + e.taken.length ≤ 65535 by omega⟩
    (show XFRMA_REPLAY_ESN_VAL % 16384 ≤ XFRMA_MAX by decide) fun buf pos hat => by
      rw [validate_accepts hat _ (show e.taken.length < 4294967296 by omega) hpass]

/-- shows itself, and neither of the thresholds -/
theorem fits_shows_iff {r : AeVal} {p : AePresent} {e : XfrmnlReplayStateEsn} (hbmp : e.bmp.length = 4 * e.bmpLen.toNat)
    (hfit : 28 + 4 * e.bmpLen.toNat ≤ 65535) : EsnShows r p e ↔ p.maxage = false ∧ p.maxdiff = false := by
  have hindex := esnIndex_fits hbmp hfit
  have hnone : ∀ t, t ≠ XFRMA_REPLAY_ESN_VAL → (esnIndex e).2 t = none := fun t ht => by
    rw [hindex]
    exact Function.update_of_ne ht (some 0) fun _ => none
  have hmark : (esnReads e).mark = none := by
    rw [esnReads, readAeAttrs, hnone XFRMA_MARK (by decide)]
    rfl
  have hlifetime : (esnReads e).lifetimeCur = none := by
    rw [esnReads, readAeAttrs, hnone XFRMA_LTIME_VAL (by decide)]
    rfl
  have hmaxage : (esnReads e).replayMaxage = none := by
    rw [esnReads, readAeAttrs, hnone XFRM_AE_ETHR (by decide)]
    rfl
  have hmaxdiff : (esnReads e).replayMaxdiff = none := by
    rw [esnReads, readAeAttrs, hnone XFRM_AE_RTHR (by decide)]
    rfl
  constructor
  · intro h
    exact ⟨(none_carried_iff _ _).1 (h.maxage.symm.trans hmaxage), (none_carried_iff _ _).1 (h.maxdiff.symm.trans hmaxdiff)⟩
  · rintro ⟨hage, hdiff⟩
    refine ⟨?_, ?_, by omega, ?_, ?_, ?_, ?_, fun t ht nla hnla => ?_⟩
    · rw [hindex]
      exact lt_irrefl 0
    · rw [hindex]
      exact Function.update_self XFRMA_REPLAY_ESN_VAL (some 0) fun _ => none
    · rw [hmark]
      intro x hx
      cases hx
    · rw [hlifetime]
      intro x hx
      cases hx
    · exact hmaxage.trans ((none_carried_iff _ _).2 hage).symm
    · exact hmaxdiff.trans ((none_carried_iff _ _).2 hdiff).symm
    · have hne : t ≠ XFRMA_REPLAY_ESN_VAL := by
        rcases List.mem_cons.1 ht with rfl | ht
        · decide
        · rw [List.mem_singleton.1 ht]
          decide
      rw [hnone t hne] at hnla
      cases hnla

/-- **What an event must be** to come back: its addresses fit the message, and it has a replay state. If the bitmap fits an
attribute, it has neither threshold; if not, its bytes show nothing else. -/
structure ComesBack (r : AeVal) (p : AePresent) : Prop where
  short : ShortAddrs r
  replay : p.replay = true
  fits : (∀ e ∈ r.data.replayStateEsn, 28 + 4 * e.bmpLen.toNat ≤ 65535) → p.maxage = false ∧ p.maxdiff = false
  long : ∀ e ∈ r.data.replayStateEsn, 65535 < 28 + 4 * e.bmpLen.toNat → EsnShows r p e

/-- **Round trip.** Every event that has addresses, an index, a protocol, a family, a request and flags, and any of the rest,
comes back of its message, when there is room, exactly under these conditions. -/
theorem ae_round_trip_iff (stack : Mem) {r : AeVal} {p : AePresent} (hr : AeCarries r p) {size : ℕ} (cmd flags : ℕ)
    (hroom : AeRoom r size) : Survives stack r size cmd flags ↔ ComesBack r p := by
  cases hreplay : p.replay with
  | false =>
    have hesn : (carried r p).replayStateEsn = none := by
      rw [carried, hreplay]
      rfl
    rw [plain_survives_iff stack hr hesn cmd flags hroom]
    exact iff_of_false (fun h => by rw [h.2.1] at hreplay; cases hreplay) fun h => by rw [h.replay] at hreplay; cases hreplay
  | true =>
    cases he : r.data.replayStateEsn with
    | none =>
      have hesn : (carried r p).replayStateEsn = none := by
        rw [carried, hreplay, he]
        rfl
      rw [plain_survives_iff stack hr hesn cmd flags hroom]
      constructor
      · rintro ⟨hshort, -, hboth⟩
        refine ⟨hshort, hreplay, fun _ => hboth, fun e hmem => ?_⟩
        rw [he] at hmem
        exact absurd hmem (Option.not_mem_none e)
      · intro h
        refine ⟨h.short, hreplay, h.fits fun e hmem => ?_⟩
        rw [he] at hmem
        exact absurd hmem (Option.not_mem_none e)
    | some e =>
      have hshows := fits_shows_iff (r := r) (p := p) (hr.esn e he)
      rw [long_survives_iff stack hr he hreplay cmd flags hroom]
      constructor
      · rintro ⟨hshort, h⟩
        refine ⟨hshort, hreplay, fun hfit => (hshows (hfit e he)).1 h, fun e' he' _ => ?_⟩
        obtain rfl := Option.some.inj (he.symm.trans he')
        exact h
      · intro h
        refine ⟨h.short, ?_⟩
        rcases Nat.lt_or_ge 65535 (28 + 4 * e.bmpLen.toNat) with hlong | hfit
        · exact h.long e he hlong
        · refine (hshows hfit).2 (h.fits fun e' he' => ?_)
          obtain rfl := Option.some.inj (he.symm.trans he')
          exact hfit

end

/-! an event with a mark, a lifetime and a long replay state -/

def sampleAePresent (maxage : Bool) : AePresent := ⟨true, true, maxage, false, true⟩

def sampleAe (maxage : Bool) : AeVal where
  ceOps := 0
  ceMsgtype := 0
  ceMask := maskOf (aeBits (sampleAePresent maxage))
  data :=
    { saId := ⟨some (nlAddrBuild 2 [10, 0, 0, 1]), 0x100, 2, 50⟩
      saddr := some (nlAddrBuild 2 [10, 0, 0, 2])
      flags := 2
      reqid := 1
      mark := ⟨7, 255⟩
      lifetimeCur := ⟨1000, 10, 3, 4⟩
      replayMaxage := 10
      replayMaxdiff := 0
      replayState := ⟨0, 0, 0⟩
      replayStateEsn := some ⟨2, 1, 1, 0, 0, 64, [1, 0, 0, 0, 0, 0, 0, 0]⟩ }

theorem sampleAe_carries (maxage : Bool) : AeCarries (sampleAe maxage) (sampleAePresent maxage) where
  mask := rfl
  daddr := rfl
  saddr := rfl
  esn e he := by
    obtain rfl := Option.some.inj he
    rfl

theorem sampleAe_room (maxage : Bool) : @AeRoom ⟨false⟩ (sampleAe maxage) 1000000 := by
  have hsize : @aeMsgSize ⟨false⟩ (sampleAe maxage) ≤ 200 := by
    cases maxage with
    | true => decide +kernel
    | false => decide +kernel
  exact @AeRoom.mk ⟨false⟩ _ _ (hsize.trans (by decide)) (hsize.trans (by decide)) (by decide)

/-- its round trip -/
theorem ae_round_trip_sample : @Survives ⟨false⟩ (fun _ => 0) (sampleAe false) 1000000 XFRM_MSG_NEWAE 0 := by
  let order : HostOrder := ⟨false⟩
  have hshort : ShortAddrs (sampleAe false) := by
    refine ⟨fun a ha => ?_, fun a ha => ?_⟩
    · obtain rfl := Option.some.inj ha
      decide
    · obtain rfl := Option.some.inj ha
      decide
  refine (ae_round_trip_iff (fun _ => 0) (sampleAe_carries false) XFRM_MSG_NEWAE 0 (sampleAe_room false)).2
    ⟨hshort, rfl, fun _ => ⟨rfl, rfl⟩, fun e he hlong => ?_⟩
  obtain rfl := Option.some.inj he
  exact absurd hlong (by decide)

/-- **A lost threshold.** With a maximal age of the replay state, the same event does not come back. -/
theorem maxage_lost : AeCarries (sampleAe true) (sampleAePresent true) ∧ @AeRoom ⟨false⟩ (sampleAe true) 1000000 ∧
    ¬ @Survives ⟨false⟩ (fun _ => 0) (sampleAe true) 1000000 XFRM_MSG_NEWAE 0 := by
  let order : HostOrder := ⟨false⟩
  have hcarries := sampleAe_carries true
  refine ⟨hcarries, sampleAe_room true, fun hback => ?_⟩
  have hshows := ((long_survives_iff (fun _ => 0) hcarries rfl rfl XFRM_MSG_NEWAE 0 (sampleAe_room true)).1 hback).2
  have hthresholds := (fits_shows_iff (hcarries.esn _ rfl) (by decide)).1 hshows
  cases hthresholds.1

end Libnl.Xfrm
