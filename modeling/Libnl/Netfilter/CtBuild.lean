/-
Conntrack messages that do not fit (`nfnl_ct_build_message` in `lib/netfilter/ct.c`).

The message is built in three stages: its header, one or two tuples, and the attributes that are no nests. The tuples are
built by a function of its own, which returns an error if something does not fit. The last attributes are put by macros that
jump to a label, where the message is freed and the result of the last tuple is returned, which is zero. And an address may
be longer than an attribute can be; the nest it is in is dropped when it is closed.

- `frontPlan`, `lastPlan`: the stages as plans. `built_cases`: what comes of them.
- `build_reports_iff`: for which connections and sizes the result is an error or the whole message.
- `last_attribute_unreported`: a message without room for the last attribute.
-/
import Mathlib.Tactic
import Libnl.Message.Plan
import Libnl.Netfilter.CtRoundTrip

namespace Libnl.Ct

open Bytes Msg Attr AttrTree AttrStream Writer Fields Object Addr
open Plans Plans.Plan

/-! ## Stages -/

section
variable [HostOrder] (ct : CtObj)

/-- a tuple -/
def tuplePlan (repl : Bool) : Plan :=
  .nest (if repl then CTA_TUPLE_REPLY else CTA_TUPLE_ORIG) true false
    (.seq (.nest CTA_TUPLE_IP true false (puts ((leavesOf (ctIpFields ct repl)).map .attr)))
      (.nest CTA_TUPLE_PROTO true false (puts ((leavesOf (ctProtoFields ct repl)).map .attr))))

/-- the header and the tuples -/
def frontPlan : Plan :=
  .seq (.put (.bytes (nfgenmsg (nfnlCtGetFamily ct))) true)
    (.seq (tuplePlan ct false) (if hasReply ct then tuplePlan ct true else .done))

/-- the attributes that are no nests -/
def lastPlan : Plan := puts ((leavesOf (ctScalarFields ct)).map .attr)

/-- the function up to the last attributes -/
def ctFront (msg : NlMsg) : NlMsg × ℤ :=
  thenPut (-NLE_NOMEM) (nfnlmsgAppend msg (nfnlCtGetFamily ct)) fun msg =>
    thenPut (-NLE_MSGSIZE) (nfnlCtBuildTuple ct false msg) fun msg =>
      if hasReply ct then nfnlCtBuildTuple ct true msg else (msg, 0)

theorem tuple_does (repl : Bool) : Does (nfnlCtBuildTuple ct repl) (tuplePlan ct repl) := by
  have hcode : -NLE_MSGSIZE < 0 := by decide
  have hbody := (Does.nest hcode CTA_TUPLE_IP (does_putAll hcode (leavesOf (ctIpFields ct repl)))).seq hcode
    (Does.nest hcode CTA_TUPLE_PROTO (does_putAll hcode (leavesOf (ctProtoFields ct repl))))
  exact Does.nest hcode (if repl then CTA_TUPLE_REPLY else CTA_TUPLE_ORIG) hbody

theorem reply_does : Does (fun msg => if hasReply ct then nfnlCtBuildTuple ct true msg else (msg, 0))
    (if hasReply ct then tuplePlan ct true else .done) := by
  cases hasReply ct with
  | true => exact tuple_does ct true
  | false => exact does_done

theorem header_does : Does (fun msg => nfnlmsgAppend msg (nfnlCtGetFamily ct))
    (.put (.bytes (nfgenmsg (nfnlCtGetFamily ct))) true) := does_bytes _

theorem front_does : Does (ctFront ct) (frontPlan ct) :=
  (header_does ct).seq (by decide) ((tuple_does ct false).seq (by decide) (reply_does ct))

variable {ct} {size cmd flags : ℕ} {m0 : NlMsg}

/-- **The builder**, stage by stage -/
theorem buildMessage_stages (halloc : nlmsgAllocSimple size (256 + cmd % 256) flags = some m0) :
    ((ctFront ct m0).2 < 0 ∧ ∃ e < 0, nfnlCtBuildMessage ct size cmd flags = .error e) ∨
    (¬ (ctFront ct m0).2 < 0 ∧ nfnlCtBuildMessage ct size cmd flags =
      if (putAll (-NLE_MSGSIZE) (leavesOf (ctScalarFields ct)) (ctFront ct m0).1).2 < 0 then .ok none
      else .ok (some (putAll (-NLE_MSGSIZE) (leavesOf (ctScalarFields ct)) (ctFront ct m0).1).1)) := by
  have hsize : -NLE_MSGSIZE < 0 := by decide
  have hmem : -NLE_NOMEM < 0 := by decide
  have hthen : ∀ code (r : NlMsg × ℤ) (f : NlMsg → NlMsg × ℤ), thenPut code r f = if r.2 < 0 then (r.1, code) else f r.1 :=
    fun _ _ _ => rfl
  generalize hbuild : nfnlCtBuildMessage ct size cmd flags = b
  unfold nfnlCtBuildMessage at hbuild
  -- case by case, as reducing all at once would have the kernel run the calls
  split at hbuild
  case h_1 heq =>
    rw [halloc] at heq
    cases heq
  case h_2 msg heq =>
    rw [halloc] at heq
    cases heq
    split at hbuild
    rename_i m1 e1 h1
    rw [ctFront, hthen, h1]
    by_cases hn1 : e1 < 0
    · rw [if_pos hn1] at hbuild ⊢
      exact Or.inl ⟨hmem, _, hmem, hbuild.symm⟩
    rw [if_neg hn1] at hbuild ⊢
    split at hbuild
    rename_i m2 e2 h2
    rw [hthen, h2]
    by_cases hn2 : e2 < 0
    · rw [if_pos hn2] at hbuild ⊢
      exact Or.inl ⟨hsize, _, hn2, hbuild.symm⟩
    rw [if_neg hn2] at hbuild ⊢
    extract_lets reply at hbuild
    split at hbuild
    rename_i m3 e3 h3
    have hreply : (if hasReply ct then nfnlCtBuildTuple ct true m2 else (m2, 0)) = (m3, e3) := h3
    rw [hreply]
    by_cases hn3 : e3 < 0
    · rw [if_pos hn3] at hbuild
      exact Or.inl ⟨hn3, _, hn3, hbuild.symm⟩
    rw [if_neg hn3] at hbuild
    split at hbuild
    rename_i m4 e4 h4
    refine Or.inr ⟨hn3, ?_⟩
    rw [h4]
    exact hbuild.symm

end

/-! ## The whole message -/

/-- the bytes an attribute can be asked to have, so that its size is an `int` -/
def AddrsSized (ct : CtObj) : Prop := ∀ repl, (∀ a ∈ nfnlCtGetSrc ct repl, a.aAddr.length ≤ 2147483640) ∧
  ∀ a ∈ nfnlCtGetDst ct repl, a.aAddr.length ≤ 2147483640

section
variable [HostOrder] (ct : CtObj)

/-- the payload of a message with all attributes -/
def ctPayload : List UInt8 := nfgenmsg (nfnlCtGetFamily ct) ++ encLeaves (ctLeaves ct)

/-- the message has all attributes in it -/
structure Complete (m : NlMsg) : Prop where
  len : m.nlmsgLen = 16 + (ctPayload ct).length
  bytes : Seg m.buf 16 (ctPayload ct)

/-- an error is returned, or the whole message is handed out -/
def Reports (defaultMsgSize cmd flags : ℕ) : Prop :=
  (∃ e < 0, nfnlCtBuildMessage ct defaultMsgSize cmd flags = .error e) ∨
    ∃ m, nfnlCtBuildMessage ct defaultMsgSize cmd flags = .ok (some m) ∧ Complete ct m

/-- the header and the tuples have no room -/
def FrontRefused (defaultMsgSize : ℕ) : Prop := walk (capOf defaultMsgSize) (frontPlan ct) 16 = .fail

/-- everything has room, and no attribute is too long -/
def AllFits (defaultMsgSize : ℕ) : Prop := Clean (capOf defaultMsgSize) (.seq (frontPlan ct) (lastPlan ct)) 16

/-! ### The plans -/

theorem encLeaves_nest (t : ℕ) (ls : List Leaf) : encLeaves (nestLeaves t ls) = nestImage t (encLeaves ls) := by
  unfold nestLeaves nestImage
  by_cases hnil : ls = []
  · have hempty : encLeaves ls = [] := by rw [hnil, encLeaves_nil]
    rw [if_pos hnil, if_pos hempty, encLeaves_nil]
  · rw [if_neg hnil, if_neg (encLeaves_ne_nil hnil)]

theorem tuple_image (repl : Bool) : (tuplePlan ct repl).image =
    encLeaves (nestLeaves (if repl then CTA_TUPLE_REPLY else CTA_TUPLE_ORIG) (tupleLeaves ct repl)) := by
  rw [encLeaves_nest, tupleLeaves, encLeaves_append, encLeaves_nest, encLeaves_nest, ← puts_image, ← puts_image]
  rfl

theorem plan_image : (Plan.seq (frontPlan ct) (lastPlan ct)).image = ctPayload ct := by
  have hreply : (if hasReply ct then tuplePlan ct true else .done).image =
      encLeaves (if hasReply ct then nestLeaves CTA_TUPLE_REPLY (tupleLeaves ct true) else []) := by
    cases hasReply ct with
    | true => exact tuple_image ct true
    | false => rfl
  show (nfgenmsg (nfnlCtGetFamily ct) ++ ((tuplePlan ct false).image ++ _)) ++ (lastPlan ct).image = _
  rw [tuple_image, hreply, lastPlan, puts_image, ctPayload, ctLeaves, encLeaves_append, encLeaves_append]
  simp only [List.append_assoc]
  rfl

theorem tuple_straight (repl : Bool) : Straight (tuplePlan ct repl) :=
  ⟨rfl, ⟨rfl, puts_straight _⟩, rfl, puts_straight _⟩

theorem front_straight : Straight (frontPlan ct) := by
  refine ⟨trivial, tuple_straight ct false, ?_⟩
  cases hasReply ct with
  | true => exact tuple_straight ct true
  | false => trivial

theorem plan_straight : Straight (.seq (frontPlan ct) (lastPlan ct)) := ⟨front_straight ct, puts_straight _⟩

omit [HostOrder] in
theorem scalars_wf : ∀ l ∈ leavesOf (ctScalarFields ct), l.WF := by
  rw [ctScalarFields_eq]
  exact (scalarFields_sendable _).wf

theorem plan_shortTop : ShortTop (.seq (frontPlan ct) (lastPlan ct)) := by
  refine ⟨⟨trivial, trivial, ?_⟩, puts_shortTop (scalars_wf ct)⟩
  cases hasReply ct with
  | true => trivial
  | false => trivial

variable {ct}

omit [HostOrder] in
/-- attributes that can be put, however long they are -/
theorem fields_sized {fs : FieldList} (h : ∀ f ∈ fs, f.1 < 65536 ∧ ∀ p ∈ f.2, p.length ≤ 2147483640) :
    ∀ l ∈ leavesOf fs, l.type < 65536 ∧ l.payload.length ≤ 2147483640 := by
  intro l hl
  obtain ⟨f, hf, htype, hpayload⟩ := mem_leavesOf.1 hl
  obtain ⟨h1, h2⟩ := h f hf
  exact ⟨htype ▸ h1, h2 l.payload hpayload.symm⟩

omit [HostOrder] in
theorem ipFields_sized (h : AddrsSized ct) (repl : Bool) :
    ∀ l ∈ leavesOf (ctIpFields ct repl), l.type < 65536 ∧ l.payload.length ≤ 2147483640 := by
  refine fields_sized ?_
  obtain ⟨hsrc, hdst⟩ := h repl
  unfold ctIpFields
  simp only [List.forall_mem_cons, List.not_mem_nil, false_imp_iff, implies_true, and_true]
  refine ⟨⟨?_, ?_⟩, ?_, ?_⟩
  · split_ifs <;> decide
  · intro p hp
    obtain ⟨a, ha, rfl⟩ := Option.map_eq_some_iff.1 hp
    exact hsrc a ha
  · split_ifs <;> decide
  · intro p hp
    obtain ⟨a, ha, rfl⟩ := Option.map_eq_some_iff.1 hp
    exact hdst a ha

omit [HostOrder] in
theorem ifAttr_length {attr : BitVec 64} {payload : List UInt8} (h : payload.length ≤ 2147483640) :
    ∀ p ∈ ifAttr ct attr payload, p.length ≤ 2147483640 := by
  intro p hp
  unfold ifAttr at hp
  split_ifs at hp
  · cases hp
    exact h
  · cases hp

theorem protoFields_sized (repl : Bool) :
    ∀ l ∈ leavesOf (ctProtoFields ct repl), l.type < 65536 ∧ l.payload.length ≤ 2147483640 := by
  refine fields_sized ?_
  have hone : ∀ (t : ℕ) (attr : BitVec 64) (b : UInt8), t < 65536 →
      t < 65536 ∧ ∀ p ∈ ifAttr ct attr [b], p.length ≤ 2147483640 := by
    intro t attr b ht
    have hlen : [b].length ≤ 2147483640 := (by decide : 1 ≤ 2147483640)
    exact ⟨ht, ifAttr_length hlen⟩
  have htwo : ∀ (t : ℕ) (attr : BitVec 64) (v : BitVec 16), t < 65536 →
      t < 65536 ∧ ∀ p ∈ ifAttr ct attr (be16Bytes v), p.length ≤ 2147483640 := by
    intro t attr v ht
    have hlen : (be16Bytes v).length ≤ 2147483640 := (by decide : 2 ≤ 2147483640)
    exact ⟨ht, ifAttr_length hlen⟩
  intro f hf
  rcases List.mem_append.1 hf with hf | hf
  · simp only [List.mem_cons, List.not_mem_nil, or_false] at hf
    rcases hf with rfl | rfl | rfl
    · exact hone CTA_PROTO_NUM _ _ (by decide)
    · exact htwo CTA_PROTO_SRC_PORT _ _ (by decide)
    · exact htwo CTA_PROTO_DST_PORT _ _ (by decide)
  · unfold icmpTypes at hf
    split_ifs at hf
    · simp only [List.mem_cons, List.not_mem_nil, or_false] at hf
      rcases hf with rfl | rfl | rfl
      · exact htwo CTA_PROTO_ICMP_ID _ _ (by decide)
      · exact hone CTA_PROTO_ICMP_TYPE _ _ (by decide)
      · exact hone CTA_PROTO_ICMP_CODE _ _ (by decide)
    · simp only [List.mem_cons, List.not_mem_nil, or_false] at hf
      rcases hf with rfl | rfl | rfl
      · exact htwo CTA_PROTO_ICMPV6_ID _ _ (by decide)
      · exact hone CTA_PROTO_ICMPV6_TYPE _ _ (by decide)
      · exact hone CTA_PROTO_ICMPV6_CODE _ _ (by decide)
    · cases hf

theorem tuple_wf (h : AddrsSized ct) (repl : Bool) (u : ℕ) : (tuplePlan ct repl).WF u := by
  refine ⟨?_, ⟨by decide, puts_wf (ipFields_sized h repl) _⟩, by decide, puts_wf (protoFields_sized repl) _⟩
  cases repl with
  | true => decide
  | false => decide

theorem front_wf (h : AddrsSized ct) : (frontPlan ct).WF 16 := by
  have hlen : (nfgenmsg (nfnlCtGetFamily ct)).length = 4 := rfl
  have hheader : (Piece.bytes (nfgenmsg (nfnlCtGetFamily ct))).WF 16 := by
    refine ⟨List.cons_ne_nil _ _, ?_, ?_⟩
    · rw [hlen]
    · rw [hlen]
      decide
  refine ⟨hheader, tuple_wf h false _, ?_⟩
  cases hasReply ct with
  | true => exact tuple_wf h true _
  | false => trivial

theorem plan_wf (h : AddrsSized ct) : (Plan.seq (frontPlan ct) (lastPlan ct)).WF 16 := by
  refine ⟨front_wf h, puts_wf (fun l hl => ?_) _⟩
  have hwf := scalars_wf ct l hl
  have hlen := hwf.len
  exact ⟨hwf.type, by omega⟩

/-! ### What comes of the stages -/

/-- how the builder ends -/
inductive Outcome (ct : CtObj) (size cmd flags : ℕ) : Prop where
  /-- the front has no room, which is reported -/
  | refused (hfront : FrontRefused ct size) {e : ℤ} (he : e < 0) (h : nfnlCtBuildMessage ct size cmd flags = .error e)
  /-- one of the last attributes has no room, and zero is returned -/
  | nothing (hfront : ¬ FrontRefused ct size) (hall : ¬ AllFits ct size)
      (h : nfnlCtBuildMessage ct size cmd flags = .ok none)
  | built (hfront : ¬ FrontRefused ct size) {m0 m : NlMsg} (hm : Tidy m0) (hlen : m0.nlmsgLen = 16)
      (hlimit : limit m0 = capOf size) (hrun : run (.seq (frontPlan ct) (lastPlan ct)) m0 = .ok m)
      (h : nfnlCtBuildMessage ct size cmd flags = .ok (some m))

/-- **What comes of the stages** -/
theorem built_cases (h : AddrsSized ct) {size : ℕ} (cmd flags : ℕ) (hsize : size ≤ PTRDIFF_MAX) :
    Outcome ct size cmd flags := by
  obtain ⟨m0, halloc, hm, hlen, hlimit⟩ := alloc_tidy (256 + cmd % 256) flags hsize
  have hrel := run_agrees (frontPlan ct) hm (front_wf h) hlen.le
  have hends := front_does ct m0
  have hstages := @buildMessage_stages _ ct _ _ _ _ halloc
  have hclean : AllFits ct size → ∃ m, run (.seq (frontPlan ct) (lastPlan ct)) m0 = .ok m := by
    intro hall
    rw [AllFits, ← hlen, ← hlimit] at hall
    obtain ⟨m, hrun, -⟩ := run_clean _ hm (plan_wf h) hlen.le hall
    exact ⟨m, hrun⟩
  have hseq : run (.seq (frontPlan ct) (lastPlan ct)) m0 = (run (frontPlan ct) m0).next (run (lastPlan ct)) := rfl
  rw [hlen, hlimit] at hrel
  rw [hseq] at hclean
  have hlast : ∀ m, run (.seq (frontPlan ct) (lastPlan ct)) m0 = .ok m ↔
      (run (frontPlan ct) m0).next (run (lastPlan ct)) = .ok m := fun m => by rw [hseq]
  generalize run (frontPlan ct) m0 = r at hrel hends hclean hlast
  generalize hwalk : walk (capOf size) (frontPlan ct) 16 = w at hrel
  generalize ctFront ct m0 = f at hends hstages
  cases hends with
  | fail hneg =>
    cases hrel
    rcases hstages with ⟨-, e, he, herror⟩ | ⟨hdone, -⟩
    · exact .refused hwalk he herror
    · exact absurd hneg hdone
  | ok =>
    rename_i m1
    cases hrel
    rename_i v hbehind
    have hfront : ¬ FrontRefused ct size := by
      rw [FrontRefused, hwalk]
      intro hfail
      cases hfail
    rcases hstages with ⟨hneg, -⟩ | ⟨-, hbuild⟩
    · exact absurd hneg (lt_irrefl 0)
    · have hends := does_putAll (show -NLE_MSGSIZE < 0 by decide) (leavesOf (ctScalarFields ct)) m1
      have hrest : ∀ m, run (.seq (frontPlan ct) (lastPlan ct)) m0 = .ok m ↔ run (lastPlan ct) m1 = .ok m := hlast
      have hfits : AllFits ct size → ∃ m, run (lastPlan ct) m1 = .ok m := hclean
      have hplan : puts ((leavesOf (ctScalarFields ct)).map .attr) = lastPlan ct := rfl
      rw [hplan] at hends
      dsimp only at hbuild
      generalize putAll (-NLE_MSGSIZE) (leavesOf (ctScalarFields ct)) m1 = g at hends hbuild
      generalize run (lastPlan ct) m1 = r at hends hrest hfits
      cases hends with
      | fail hneg =>
        rw [if_pos hneg] at hbuild
        refine .nothing hfront (fun hall => ?_) hbuild
        obtain ⟨m, hrun⟩ := hfits hall
        cases hrun
      | ok =>
        rw [if_neg (lt_irrefl 0)] at hbuild
        exact .built hfront hm hlen hlimit ((hrest _).2 rfl) hbuild

/-- **A message that is built** is complete just if there was room for everything and nothing is too long. -/
theorem complete_iff (h : AddrsSized ct) {size : ℕ} {m0 m : NlMsg} (hm : Tidy m0) (hlen : m0.nlmsgLen = 16)
    (hlimit : limit m0 = capOf size) (hrun : run (.seq (frontPlan ct) (lastPlan ct)) m0 = .ok m) :
    Complete ct m ↔ AllFits ct size := by
  have hiff := wrote_iff _ (plan_straight ct) (plan_shortTop ct) hm (plan_wf h) hlen.le hrun
  rw [plan_image, hlen, hlimit] at hiff
  constructor
  · intro hcomplete
    exact hiff.1 hcomplete.len
  · intro hall
    have hclean : Clean (limit m0) (.seq (frontPlan ct) (lastPlan ct)) m0.nlmsgLen := by
      rw [hlen, hlimit]
      exact hall
    obtain ⟨m', hrun', hw⟩ := run_clean _ hm (plan_wf h) hlen.le hclean
    rw [hrun] at hrun'
    cases hrun'
    rw [plan_image] at hw
    have hwlen := hw.len
    have hseg := hw.seg
    rw [hlen] at hwlen hseg
    exact ⟨hwlen, hseg⟩

/-- nothing is reported of what has no room after the tuples, or of an attribute that is too long -/
theorem unreported (h : AddrsSized ct) {size : ℕ} (cmd flags : ℕ) (hsize : size ≤ PTRDIFF_MAX)
    (hfront : ¬ FrontRefused ct size) (hall : ¬ AllFits ct size) : ¬ Reports ct size cmd flags := by
  intro hreports
  cases built_cases h cmd flags hsize with
  | refused hrefused => exact hfront hrefused
  | nothing _ _ hnone =>
    rcases hreports with ⟨e, -, herror⟩ | ⟨m, hsome, -⟩
    · rw [hnone] at herror
      cases herror
    · rw [hnone] at hsome
      cases hsome
  | built _ hm hlen hlimit hrun hbuild =>
    rcases hreports with ⟨e, -, herror⟩ | ⟨m, hsome, hcomplete⟩
    · rw [hbuild] at herror
      cases herror
    · rw [hbuild] at hsome
      cases hsome
      exact hall ((complete_iff h hm hlen hlimit hrun).1 hcomplete)

/-- **Requests that do not fit are reported**, or built with everything in them, just if there is no message to build in, or
no room for the tuples, or room for everything and no attribute that is too long. -/
theorem build_reports_iff (h : AddrsSized ct) (size cmd flags : ℕ) :
    Reports ct size cmd flags ↔ PTRDIFF_MAX < size ∨ FrontRefused ct size ∨ AllFits ct size := by
  by_cases hsize : PTRDIFF_MAX < size
  · refine iff_of_true (Or.inl ⟨-NLE_NOMEM, by decide, ?_⟩) (Or.inl hsize)
    have halloc := alloc_none (256 + cmd % 256) flags hsize
    unfold nfnlCtBuildMessage
    rw [halloc]
  · rw [or_iff_right hsize]
    constructor
    · intro hreports
      by_contra hcond
      rw [not_or] at hcond
      exact unreported h cmd flags (not_lt.1 hsize) hcond.1 hcond.2 hreports
    · intro hcond
      cases built_cases h cmd flags (not_lt.1 hsize) with
      | refused _ he herror => exact Or.inl ⟨_, he, herror⟩
      | nothing hfront hall => exact absurd hcond (not_or.2 ⟨hfront, hall⟩)
      | built hfront hm hlen hlimit hrun hbuild =>
        exact Or.inr ⟨_, hbuild, (complete_iff h hm hlen hlimit hrun).2 (hcond.resolve_left hfront)⟩

end

/-! a connection with a status and a mark -/

def markedCt : CtObj := nfnlCtSetMark (nfnlCtSetStatus nfnlCtAlloc 6) 1

theorem markedCt_sized : AddrsSized markedCt := by
  intro repl
  have hsrc : nfnlCtGetSrc markedCt repl = none := by cases repl <;> rfl
  have hdst : nfnlCtGetDst markedCt repl = none := by cases repl <;> rfl
  constructor
  · intro a ha
    rw [hsrc] at ha
    cases ha
  · intro a ha
    rw [hdst] at ha
    cases ha

/-- with room for it all, it is built -/
theorem build_reports_marked : @Reports ⟨false⟩ markedCt 36 0 0 := by
  let order : HostOrder := ⟨false⟩
  have hwalk : walk (capOf 36) (.seq (frontPlan markedCt) (lastPlan markedCt)) 16 = .ok 36 := by rfl
  have hall := walk_full _ (plan_straight markedCt) (plan_wf markedCt_sized) hwalk
  exact (build_reports_iff markedCt_sized 36 0 0).2 (Or.inr (Or.inr (hall.2 rfl (plan_shortTop markedCt))))

/-- **The last attribute.** In 28 bytes there is room for the header and the status, and not for the mark. -/
theorem last_attribute_unreported : ¬ ∀ ct size cmd flags, AddrsSized ct → @Reports ⟨false⟩ ct size cmd flags := by
  let order : HostOrder := ⟨false⟩
  intro hall
  have hfront : walk (capOf 28) (frontPlan markedCt) 16 = .ok 20 := by rfl
  refine unreported markedCt_sized 0 0 (by decide : 28 ≤ PTRDIFF_MAX) ?_ ?_ (hall markedCt 28 0 0 markedCt_sized)
  · rw [FrontRefused, hfront]
    intro hfail
    cases hfail
  · intro hclean
    have hmark : 28 + 8 ≤ 28 := hclean.2.2.1.1
    omega

end Libnl.Ct
