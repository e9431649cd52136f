/-
Requests that could not be sent (`nl_send_auto`, `nl_sendmsg`).

`nl_complete_msg` takes the number of a request from the socket before the request is sent. If sending fails, the number is
not given back, and no answer will ever bring it; the counter of expected answers stays at it. Requests that are sent later
are answered with numbers behind it.

The system is that of `Sequence`, with sending that may fail: the socket has no file descriptor, `NL_CB_MSG_OUT` has a
verdict of its own, or `sendmsg` reports an error. Requests that were sent after a failure are kept apart (`late`).

- `failed_sends_in_step`: in every run in which no answer to such a request is on its way, every check of `recvmsgs` passes;
  and once everything before the failure was answered, the answer to any request sent after it is a mismatch.
- `failed_send_breaks`: one request that could not be sent, one that was, and its answer.
-/
import Mathlib.Tactic
import Libnl.Socket.Sequence

namespace Libnl.Recv

open Bytes Walk Msg Stage

/-! ## Sending -/

/-- what a send meets -/
structure SendEnv where
  sFd : ℤ
  /-- what `NL_CB_MSG_OUT` returns, if it is set -/
  msgOut : Option ℤ
  /-- `sendmsg`: an `errno`, or the number of bytes -/
  sendmsg : Except ℤ ℤ

/-- `nl_sendmsg`: the result, and whether the message was handed to the kernel -/
def nlSendmsg (env : SendEnv) : ℤ × Bool :=
  if env.sFd < 0 then (-NLE_BAD_SOCK, false)
  else if env.msgOut.any (fun ret => decide (ret ≠ NL_OK)) then (env.msgOut.getD NL_OK, false)
  else match env.sendmsg with
    | .error errno => (-nlSyserr2nlerr errno, false)
    | .ok n => (n, true)

/-- `nl_send_auto`, with the function `nl_send` that is not replaced: the message, the counter, and how it went -/
def nlSendAuto (sk : SockConf) (sSeqNext : BitVec 32) (msg : OutMsg) (env : SendEnv) :
    (OutMsg × BitVec 32) × (ℤ × Bool) :=
  (nlCompleteMsg sk sSeqNext msg, nlSendmsg env)

/-! ## The system -/

variable {σ : Type}

section

variable [HostOrder]

/-- the system, and what is known of the requests after a send that failed -/
structure LossySys extends Sys where
  /-- numbers of the requests that were sent after a failure and are not answered completely, oldest first -/
  late : List (BitVec 32)
  /-- how many numbers were given out from the first failure on -/
  since : ℕ

/-- the number of the first request that could not be sent, or the next one to give out -/
def LossySys.edge (s : LossySys) : BitVec 32 := s.sSeqNext - BitVec.ofNat 32 s.since

/-- after `nl_send_auto` -/
def LossySys.sent (s : LossySys) (sk : SockConf) (msg : OutMsg) (env : SendEnv) : LossySys :=
  let r := nlSendAuto sk s.sSeqNext msg env
  { s with
    sSeqNext := r.1.2
    queue := if r.2.2 ∧ s.since = 0 then s.queue ++ [r.1.1.nlmsgSeq] else s.queue
    late := if r.2.2 ∧ s.since ≠ 0 then s.late ++ [r.1.1.nlmsgSeq] else s.late
    since := if msg.nlmsgSeq = NL_AUTO_SEQ ∧ ¬ (r.2.2 ∧ s.since = 0) then s.since + 1 else s.since }

/-- what can happen -/
inductive LossyEvent (σ : Type) where
  | send (msg : OutMsg) (env : SendEnv)
  /-- a datagram with parts of answers, and the requests that are left -/
  | answer (r : Received) (queue late : List (BitVec 32))
  /-- a call of `recvmsgs` that returns; `nl_recv` may fail when there is nothing left to read -/
  | recv (env : σ) (fails : List Received)

/-- what comes of it; requests are answered in the order in which they were sent -/
def LossyStep (cb : NlCb σ) (sk : SockConf) (s : LossySys) : LossyEvent σ → LossySys → Prop
  | .send msg env, s' => s' = s.sent sk msg env
  | .answer r queue late, s' => Delivers cb (s.queue ++ s.late) r (queue ++ late) ∧ queue <:+ s.queue ∧ late <:+ s.late ∧
      s' = { s with queue := queue, late := late, wire := s.wire ++ [r] }
  | .recv env fails, s' => ∃ fin ret calls, (∀ f ∈ fails, f.n.toInt ≤ 0) ∧
      recvmsgs cb sk.noAutoAck env s.sSeqExpect (s.wire ++ fails) = .returned fin ret calls ∧
      s' = { s with sSeqExpect := fin.sSeqExpect, wire := s.wire.drop calls }

/-- a request that is sent leaves its number to the library, and one that was sent after a failure is not answered -/
def LossyEvent.Meets (cb : NlCb σ) (s : LossySys) : LossyEvent σ → Prop
  | .send msg env => (nlSendmsg env).2 = true → msg.nlmsgSeq = NL_AUTO_SEQ
  | .answer r queue late => Delivers cb s.queue r queue ∧ late = s.late
  | .recv _ _ => True

/-- from a new socket, by events that meet the condition -/
inductive Orderly (cb : NlCb σ) (sk : SockConf) : LossySys → Prop
  | new (time : BitVec 32) : Orderly cb sk ⟨⟨time, time, [], []⟩, [], 0⟩
  | step {s s' : LossySys} {e : LossyEvent σ} :
      Orderly cb sk s → e.Meets cb s → LossyStep cb sk s e s' → Orderly cb sk s'

/-! ## The invariant -/

/-- the requests sent before the first failure are in step up to its number; those sent after it have numbers behind it -/
structure LossyInv (cb : NlCb σ) (s : LossySys) : Prop where
  inStep : ∃ outstanding, Wired cb outstanding s.wire s.queue ∧ Consecutive s.sSeqExpect outstanding s.edge
  behind : ∀ q ∈ s.late, ∃ k, 1 ≤ k ∧ k < s.since ∧ q = s.edge + BitVec.ofNat 32 k

section

variable {cb : NlCb σ} {sk : SockConf} {s s' : LossySys}

omit [HostOrder] in
theorem complete_auto {msg : OutMsg} (hauto : msg.nlmsgSeq = NL_AUTO_SEQ) (next : BitVec 32) :
    (nlCompleteMsg sk next msg).1.nlmsgSeq = next ∧ (nlCompleteMsg sk next msg).2 = next + 1 := by
  unfold nlCompleteMsg
  dsimp only
  rw [if_pos hauto, if_pos hauto]
  exact ⟨rfl, rfl⟩

omit [HostOrder] in
theorem complete_given {msg : OutMsg} (hgiven : msg.nlmsgSeq ≠ NL_AUTO_SEQ) (next : BitVec 32) :
    (nlCompleteMsg sk next msg).2 = next := by
  unfold nlCompleteMsg
  dsimp only
  rw [if_neg hgiven]

omit [HostOrder] in
/-- one more number is given out behind the failure -/
theorem edge_succ (next : BitVec 32) (n : ℕ) : next + 1 - BitVec.ofNat 32 (n + 1) = next - BitVec.ofNat 32 n := by
  have hone : (1 : BitVec 32).toNat = 1 := rfl
  apply BitVec.eq_of_toNat_eq
  rw [BitVec.toNat_sub, BitVec.toNat_sub, BitVec.toNat_add, BitVec.toNat_ofNat, BitVec.toNat_ofNat,
    hone]
  omega

/-- **Sending**, or not -/
theorem send_inv (h : LossyInv cb s) {msg : OutMsg} {env : SendEnv}
    (hauto : (nlSendmsg env).2 = true → msg.nlmsgSeq = NL_AUTO_SEQ) : LossyInv cb (s.sent sk msg env) := by
  obtain ⟨⟨qs, hw, hc⟩, hbehind⟩ := h
  have hmore : ∀ q ∈ s.late, ∃ k, 1 ≤ k ∧ k < s.since + 1 ∧ q = s.edge + BitVec.ofNat 32 k := fun q hq => by
    obtain ⟨k, hge, hlt, heq⟩ := hbehind q hq
    exact ⟨k, hge, Nat.lt_succ_of_lt hlt, heq⟩
  unfold LossySys.sent nlSendAuto
  dsimp only
  by_cases hnum : msg.nlmsgSeq = NL_AUTO_SEQ
  · obtain ⟨hseq, hnext⟩ : (nlCompleteMsg sk s.sSeqNext msg).1.nlmsgSeq = s.sSeqNext ∧
        (nlCompleteMsg sk s.sSeqNext msg).2 = s.sSeqNext + 1 := complete_auto hnum s.sSeqNext
    rw [hseq, hnext]
    by_cases hsent : (nlSendmsg env).2 = true
    · by_cases hzero : s.since = 0
      · -- no send failed so far
        have hedge : s.edge = s.sSeqNext := by rw [LossySys.edge, hzero, BitVec.sub_zero]
        rw [hedge] at hc
        rw [if_pos ⟨hsent, hzero⟩, if_neg (not_and_not_right.2 fun _ => hzero), if_neg (fun h => h.2 ⟨hsent, hzero⟩)]
        refine ⟨⟨qs ++ [s.sSeqNext], wired_append hw _, ?_⟩, fun q hq => ?_⟩
        · rw [LossySys.edge]
          dsimp only
          rw [hzero, BitVec.sub_zero]
          exact consecutive_snoc hc
        · obtain ⟨k, hge, hlt, -⟩ := hbehind q hq
          omega
      · rw [if_neg (fun h => hzero h.2), if_pos ⟨hsent, hzero⟩, if_pos ⟨hnum, fun h => hzero h.2⟩]
        have hedge : s.sSeqNext + 1 - BitVec.ofNat 32 (s.since + 1) = s.edge := edge_succ _ _
        refine ⟨⟨qs, hw, ?_⟩, fun q hq => ?_⟩
        · rw [LossySys.edge]
          dsimp only
          rwa [hedge]
        · rw [LossySys.edge]
          dsimp only
          rw [hedge]
          rcases List.mem_append.1 hq with hold | hnew
          · exact hmore q hold
          · refine ⟨s.since, Nat.one_le_iff_ne_zero.2 hzero, Nat.lt_succ_self _, ?_⟩
            rw [List.mem_singleton.1 hnew, LossySys.edge, BitVec.sub_add_cancel]
    · -- the number is lost
      rw [if_neg (fun h => hsent h.1), if_neg (fun h => hsent h.1), if_pos ⟨hnum, fun h => hsent h.1⟩]
      have hedge : s.sSeqNext + 1 - BitVec.ofNat 32 (s.since + 1) = s.edge := edge_succ _ _
      refine ⟨⟨qs, hw, ?_⟩, fun q hq => ?_⟩
      · rw [LossySys.edge]
        dsimp only
        rwa [hedge]
      · rw [LossySys.edge]
        dsimp only
        rw [hedge]
        exact hmore q hq
  · have hsent : ¬ (nlSendmsg env).2 = true := fun h => hnum (hauto h)
    rw [complete_given hnum, if_neg (fun h => hsent h.1), if_neg (fun h => hsent h.1), if_neg (fun h => hnum h.1)]
    exact ⟨⟨qs, hw, hc⟩, hbehind⟩

/-- **One event** that meets the condition -/
theorem lossy_step (ha : Attentive cb) (h : LossyInv cb s) {e : LossyEvent σ} (hmeets : e.Meets cb s)
    (hstep : LossyStep cb sk s e s') : LossyInv cb s' := by
  cases e with
  | send msg env =>
    cases hstep
    exact send_inv h hmeets
  | answer r queue late =>
    obtain ⟨-, -, -, rfl⟩ := hstep
    obtain ⟨hr, rfl⟩ := hmeets
    obtain ⟨qs, hw, hc⟩ := h.inStep
    exact ⟨⟨qs, wired_snoc hw hr, hc⟩, h.behind⟩
  | recv env fails =>
    obtain ⟨fin, ret, calls, hfails, hret, rfl⟩ := hstep
    obtain ⟨qs, hw, hc⟩ := h.inStep
    obtain ⟨fin', k, left, hends, hwired, hleft, -⟩ := recvmsgs_wired ha sk.noAutoAck hw hc hfails env
    have hres := hends.result
    rw [Nat.zero_add] at hres
    unfold recvmsgs at hret
    rw [hret] at hres
    rcases hres with ⟨ret', heq⟩ | heq
    · cases heq
      exact ⟨⟨left, hwired, hleft⟩, h.behind⟩
    · cases heq

theorem orderly_inv (ha : Attentive cb) (h : Orderly cb sk s) : LossyInv cb s := by
  induction h with
  | new time => exact ⟨⟨[], rfl, by simp [LossySys.edge, Consecutive]⟩, nofun⟩
  | step _ hmeets hstep ih => exact lossy_step ha ih hmeets hstep

omit [HostOrder] in
/-- the default check rejects a message with any other number -/
theorem unchecked (ha : Attentive cb) (hinvalid : cb.cbSet .invalid = none) {m : Message} {st : RecvState σ}
    (h : m.nlmsgSeq ≠ st.sSeqExpect) : (seqCheck cb false m (shown cb m st).2).1 = .out (-NLE_SEQ_MISMATCH) := by
  have hseq : m.nlmsgSeq ≠ (shown cb m st).2.sSeqExpect := by rwa [shown_seq ha]
  unfold seqCheck callOr
  rw [ha.seqCheck, hinvalid]
  dsimp only
  rw [if_neg Bool.false_ne_true, if_pos hseq]
  rfl

/-- a number behind the failure is not the one that is expected -/
theorem late_ne (h : LossyInv cb s) (hqueue : s.queue = []) (hwire : s.wire = []) (hsince : s.since ≤ 4294967296) :
    ∀ q ∈ s.late, q ≠ s.sSeqExpect := by
  obtain ⟨⟨qs, hw, hc⟩, hbehind⟩ := h
  intro q hq heq
  obtain ⟨k, hge, hlt, hk⟩ := hbehind q hq
  rw [hwire, hqueue] at hw
  cases hw
  have hedge : s.sSeqExpect = s.edge := hc
  rw [heq, hedge] at hk
  have hnat := congrArg BitVec.toNat hk
  rw [BitVec.toNat_add, BitVec.toNat_ofNat] at hnat
  have hsmall := s.edge.isLt
  omega

end

/-- **Sends that fail.** In every state that is reached by events that meet the condition: a call of `recvmsgs`, on what is
on its way, makes the default check for messages that pass it; and when everything that was sent before the first failure
was answered, the check rejects whatever answers a request that was sent after it. -/
theorem failed_sends_in_step {cb : NlCb σ} (ha : Attentive cb) {sk : SockConf} {s : LossySys} (h : Orderly cb sk s) :
    (∀ env fails, (∀ f ∈ fails, f.n.toInt ≤ 0) → ∃ fin calls,
      ((∃ ret, recvmsgs cb sk.noAutoAck env s.sSeqExpect (s.wire ++ fails) = .returned fin ret calls) ∨
        recvmsgs cb sk.noAutoAck env s.sSeqExpect (s.wire ++ fails) = .waiting fin calls) ∧
      ∀ x ∈ trace cb sk.noAutoAck (start env s.sSeqExpect) (messagesFrom 0 ((s.wire ++ fails).take calls)),
        (seqCheck cb sk.noAutoAck x.1 (shown cb x.1 x.2).2).1 = .next) ∧
    (cb.cbSet .invalid = none → s.queue = [] → s.wire = [] → s.since ≤ 4294967296 → ∀ m : Message, m.nlmsgSeq ∈ s.late →
      ∀ env, (seqCheck cb false m (shown cb m (start env s.sSeqExpect)).2).1 = .out (-NLE_SEQ_MISMATCH)) := by
  have hinv := orderly_inv ha h
  constructor
  · intro env fails hfails
    obtain ⟨qs, hw, hc⟩ := hinv.inStep
    obtain ⟨fin, k, left, hends, -, -, htrace⟩ := recvmsgs_wired ha sk.noAutoAck hw hc hfails env
    have hres := hends.result
    rw [Nat.zero_add] at hres
    exact ⟨fin, k, hres, fun x hx => checked sk.noAutoAck ha (htrace x hx)⟩
  · intro hinvalid hqueue hwire hsince m hm env
    exact unchecked ha hinvalid (late_ne hinv hqueue hwire hsince m.nlmsgSeq hm)

end

/-! ## Samples -/

/-- little endian, for runs on given inputs -/
local instance sendOrder : HostOrder := ⟨false⟩

/-- there is a file descriptor, and no callback -/
def sampleSend (result : Except ℤ ℤ) : SendEnv := ⟨3, none, result⟩

/-- `ENOBUFS` -/
def ENOBUFS : ℤ := 105

/-- what a datagram with one acknowledgement delivers -/
theorem delivers_ack : Delivers (sampleCb none) [100] (sampleDatagram [sampleMsg 2 0 100 0]) [] := by
  refine ⟨fun i => ?_, fun i pre m m' post heq => ?_⟩
  · rw [messagesOf_ack]
    exact .ending rfl rfl (.nil [])
  · rw [messagesOf_ack] at heq
    have hlen := congrArg List.length heq
    simp only [List.length_append, List.length_cons, List.length_nil] at hlen
    omega

/-- a request is sent, the next one is not, and the first one is acknowledged -/
theorem failed_sends_sample :
    Orderly (sampleCb none) sampleSock ⟨⟨102, 100, [], [sampleDatagram [sampleMsg 2 0 100 0]]⟩, [], 1⟩ ∧
      ∀ x ∈ trace (sampleCb none) false (start () 100) (messagesFrom 0 [sampleDatagram [sampleMsg 2 0 100 0]]),
        (seqCheck (sampleCb none) false x.1 (shown (sampleCb none) x.1 x.2).2).1 = .next := by
  have hsent : Orderly (sampleCb none) sampleSock ⟨⟨101, 100, [100], []⟩, [], 0⟩ :=
    .step (e := .send ⟨0, 0, 0, -1⟩ (sampleSend (.ok 20))) (.new 100) (fun _ => rfl) rfl
  have hfailed : Orderly (sampleCb none) sampleSock ⟨⟨102, 100, [100], []⟩, [], 1⟩ :=
    .step (e := .send ⟨0, 0, 0, -1⟩ (sampleSend (.error ENOBUFS))) hsent (fun h => absurd h Bool.false_ne_true) rfl
  have hreach : Orderly (sampleCb none) sampleSock
      ⟨⟨102, 100, [], [sampleDatagram [sampleMsg 2 0 100 0]]⟩, [], 1⟩ :=
    .step (e := .answer (sampleDatagram [sampleMsg 2 0 100 0]) [] []) hfailed ⟨delivers_ack, rfl⟩
      ⟨delivers_ack, List.nil_suffix, List.suffix_rfl, rfl⟩
  refine ⟨hreach, ?_⟩
  obtain ⟨fin, calls, hres, htrace⟩ := (failed_sends_in_step (sampleCb_attentive none) hreach).1 () [] nofun
  obtain ⟨fin', heq⟩ : ∃ fin, recvmsgs (sampleCb none) false () 100 [sampleDatagram [sampleMsg 2 0 100 0]] =
      .returned fin 1 1 := ⟨_, rfl⟩
  rcases hres with ⟨ret, hret⟩ | hwait
  · have hone : calls = 1 := by
      cases hret.symm.trans heq
      rfl
    subst hone
    exact htrace
  · cases hwait.symm.trans heq

/-- **A send that fails breaks the socket.** The first request is not sent, for lack of memory; the second one is, and is
acknowledged; the acknowledgement is rejected, and the counter stays behind. -/
theorem failed_send_breaks : ∃ failed sent answered : LossySys,
    LossyStep (sampleCb none) sampleSock ⟨⟨99, 99, [], []⟩, [], 0⟩
      (.send ⟨0, 0, 0, -1⟩ (sampleSend (.error ENOBUFS))) failed ∧
    LossyStep (sampleCb none) sampleSock failed (.send ⟨0, 0, 0, -1⟩ (sampleSend (.ok 20))) sent ∧
    LossyStep (sampleCb none) sampleSock sent (.answer (sampleDatagram [sampleMsg 2 0 100 0]) [] []) answered ∧
    ∃ fin, recvmsgs (sampleCb none) sampleSock.noAutoAck () answered.sSeqExpect answered.wire =
      .returned fin (-NLE_SEQ_MISMATCH) 1 ∧ fin.sSeqExpect = 99 :=
  ⟨_, _, _, rfl, rfl, ⟨delivers_ack, List.suffix_rfl, List.nil_suffix, rfl⟩, _, rfl, rfl⟩

end Libnl.Recv
