/-
Requests about traffic control objects (`rtnl_tc_msg_build`, `lib/route/tc.c`).

The request has the header of the object, its kind and its chain; behind them the module for the kind puts its options, in a
nest that the builder opens for it, or all by itself.

- `rtnlTcMsgBuild`: the builder.
- `raw_front`: what stands in the message when a module puts its options by itself.
-/
import Mathlib.Tactic
import Libnl.Message.Fields

namespace Libnl.Tc

open Bytes Msg Attr AttrTree AttrStream Writer Fields

def TCA_KIND : ℕ := 1
def TCA_OPTIONS : ℕ := 2
def TCA_CHAIN : ℕ := 11

def TCKINDSIZ : ℕ := 32

/-- `sizeof(struct tcmsg)` -/
def SIZEOF_TCMSG : ℕ := 20

/-- `struct rtnl_tc`, as far as it goes into a request -/
structure RtnlTc where
  tcIfindex : BitVec 32
  tcHandle : BitVec 32
  tcParent : BitVec 32
  tcKind : Option (List UInt8)
  tcChain : Option (BitVec 32)
  isKind : ∀ k ∈ tcKind, IsStr k ∧ k.length < TCKINDSIZ

section

variable [HostOrder]

/-- what the module of the kind puts: nothing, attributes in a nest (`to_msg_fill`), or anything (`to_msg_fill_raw`) -/
inductive Fill where
  | nothing
  | nested (body : NlMsg → NlMsg × ℤ)
  | raw (body : NlMsg → NlMsg × ℤ)

/-- `struct tcmsg` of the request -/
def tchdr (tc : RtnlTc) : List UInt8 :=
  List.replicate 4 0 ++ u32Bytes tc.tcIfindex.toNat ++ u32Bytes tc.tcHandle.toNat ++ u32Bytes tc.tcParent.toNat ++ u32Bytes 0

theorem tchdr_length (tc : RtnlTc) : (tchdr tc).length = SIZEOF_TCMSG := by
  simp [tchdr, SIZEOF_TCMSG]

/-- the attributes in front of the options -/
def tcFields (tc : RtnlTc) : FieldList :=
  [(TCA_KIND, tc.tcKind.map fun k => k ++ [0]), (TCA_CHAIN, tc.tcChain.map fun v => u32Bytes v.toNat)]

/-- the nest that is opened for a module; that of the control group classifier is kept when it is empty -/
def tcNest (tc : RtnlTc) (body : NlMsg → NlMsg × ℤ) (msg : NlMsg) : NlMsg × ℤ :=
  inNest (-NLE_NOMEM) (nlaNestStart msg TCA_OPTIONS) fun msg opts =>
    thenPass (body msg) fun msg =>
      if tc.tcKind = some [99, 103, 114, 111, 117, 112] then ((nlaNestEndKeepEmpty msg opts).1, 0) else ((nlaNestEnd msg opts).1, 0)

/-- the options -/
def fillTc (tc : RtnlTc) : Fill → NlMsg → NlMsg × ℤ
  | .nothing, msg => (msg, 0)
  | .nested body, msg => tcNest tc body msg
  | .raw body, msg => body msg

/-- the header, and the attributes in front of the options -/
def putFront (tc : RtnlTc) (msg : NlMsg) : NlMsg × ℤ :=
  thenPut (-NLE_MSGSIZE) (nlmsgAppend msg (tchdr tc) 4) (putAll (-NLE_NOMEM) (leavesOf (tcFields tc)))

/-- `rtnl_tc_msg_build` -/
def rtnlTcMsgBuild (defaultMsgSize type flags : ℕ) (tc : RtnlTc) (fill : Fill) : Except ℤ NlMsg :=
  match nlmsgAllocSimple defaultMsgSize type flags with
  | none => .error (-NLE_NOMEM)
  | some msg =>
    let r := thenPass (putFront tc msg) (fillTc tc fill)
    if r.2 < 0 then .error r.2 else .ok r.1

/-! ## What stands in front of the options -/

theorem tc_wf (tc : RtnlTc) : ∀ l ∈ leavesOf (tcFields tc), l.WF := by
  intro l hl
  obtain ⟨f, hf, htype, hpay⟩ := mem_leavesOf.1 hl
  rcases List.mem_cons.1 hf with rfl | hf
  · obtain ⟨k, hk, heq⟩ := Option.map_eq_some_iff.1 hpay.symm
    have hlen := (tc.isKind k hk).2
    unfold TCKINDSIZ at hlen
    refine ⟨htype ▸ (by decide : TCA_KIND < 65536), ?_⟩
    rw [← heq, List.length_append, List.length_singleton]
    omega
  · rw [List.mem_singleton] at hf
    subst hf
    obtain ⟨v, -, heq⟩ := Option.map_eq_some_iff.1 hpay.symm
    exact ⟨htype ▸ (by decide : TCA_CHAIN < 65536), by rw [← heq, u32Bytes_length]; decide⟩

omit [HostOrder] in
/-- appending the header without room for it -/
theorem append_refused {m : NlMsg} (hm : Fresh m) {hdr : List UInt8} (hhdr : hdr.length = SIZEOF_TCMSG)
    (hroom : ¬ Room m hdr.length) : (nlmsgAppend m hdr 4).2 < 0 := by
  have hlen := hm.len
  have hreserve : reserveLen SIZEOF_TCMSG 4 = 20 := by decide
  have hsmall : m.nmSize < 36 := by
    by_contra hge
    refine hroom ⟨?_, ?_⟩
    · rw [hlen, hhdr]
      unfold SIZEOF_TCMSG
      omega
    · rw [hlen, hhdr]
      decide
  have hnone : nlmsgReserve m hdr.length 4 = (m, none) := by
    unfold nlmsgReserve
    rw [hhdr, hreserve, hlen]
    by_cases hless : m.nmSize < SIZEOF_TCMSG
    · exact if_pos hless
    · rw [if_neg hless]
      exact if_pos (by omega)
  unfold nlmsgAppend
  rw [hnone]
  exact (by decide : -NLE_NOMEM < 0)

/-- **The front**, if the builder does not fail there -/
theorem front_wrote {m : NlMsg} (hm : Fresh m) (tc : RtnlTc) (h : ¬ (putFront tc m).2 < 0) :
    Wrote m (putFront tc m).1 (tchdr tc ++ encLeaves (leavesOf (tcFields tc))) ∧
      (putFront tc m).1.nlmsgLen ≤ (putFront tc m).1.nmSize := by
  have htidy := tidy_of_fresh hm
  have hlen := hm.len
  have hmod : (tchdr tc).length % 4 = 0 := by rw [tchdr_length]; decide
  have hroom : Room m (tchdr tc ++ encLeaves (leavesOf (tcFields tc))).length := by
    by_contra hfull
    refine h ?_
    by_cases hhdr : Room m (tchdr tc).length
    · obtain ⟨m1, h1, hw1⟩ := nlmsgAppend_aligned htidy hmod hhdr
      have hneg : (putAll (-NLE_NOMEM) (leavesOf (tcFields tc)) m1).2 = -NLE_NOMEM := by
        refine putAll_full (tc_wf tc) hw1.tidy (room_after hw1 hhdr) fun hrest => hfull ?_
        have hlen1 := hw1.len
        have hsize1 := hw1.size
        have hr1 := hrest.size
        have hr2 := hrest.int
        rw [List.length_append]
        exact ⟨by omega, by omega⟩
      rw [putFront, h1, thenPut_ok, hneg]
      decide
    · have hneg := append_refused hm (tchdr_length tc) hhdr
      rw [putFront, thenPut, if_pos hneg]
      exact (by decide : -NLE_MSGSIZE < 0)
  rw [List.length_append] at hroom
  obtain ⟨m1, h1, hw1⟩ := nlmsgAppend_aligned htidy hmod (room_mono hroom (Nat.le_add_right _ _))
  obtain ⟨m2, h2, hw2⟩ := putAll_room (-NLE_NOMEM) (tc_wf tc) hw1.tidy (room_after hw1 hroom)
  have hput : putFront tc m = (m2, 0) := by rw [putFront, h1, thenPut_ok, h2]
  have hw := hw1.append hw2
  rw [hput]
  refine ⟨hw, ?_⟩
  have hr := hroom.size
  have hlen2 := hw.len
  rw [List.length_append] at hlen2
  rw [hlen2, hw.size]
  exact hr

/-- **A request** with options that the module puts by itself -/
theorem raw_front {defaultMsgSize type flags : ℕ} {tc : RtnlTc} {body : NlMsg → NlMsg × ℤ} {msg : NlMsg}
    (h : rtnlTcMsgBuild defaultMsgSize type flags tc (.raw body) = .ok msg) :
    ∃ m0 m, Fresh m0 ∧ Wrote m0 m (tchdr tc ++ encLeaves (leavesOf (tcFields tc))) ∧ m.nlmsgLen ≤ m.nmSize ∧
      ¬ (body m).2 < 0 ∧ (body m).1 = msg := by
  unfold rtnlTcMsgBuild at h
  cases halloc : nlmsgAllocSimple defaultMsgSize type flags with
  | none =>
    rw [halloc] at h
    cases h
  | some m0 =>
    rw [halloc] at h
    have hfresh := fresh_alloc_simple halloc
    dsimp only at h
    by_cases hfront : (putFront tc m0).2 < 0
    · rw [thenPass, if_pos hfront, if_pos hfront] at h
      cases h
    · rw [thenPass, if_neg hfront] at h
      obtain ⟨hw, hfits⟩ := front_wrote hfresh tc hfront
      by_cases hbody : (body (putFront tc m0).1).2 < 0
      · rw [fillTc, if_pos hbody] at h
        cases h
      · rw [fillTc, if_neg hbody] at h
        exact ⟨m0, _, hfresh, hw, hfits, hbody, Except.ok.inj h⟩

end

end Libnl.Tc
