/-
Receiving messages (`recvmsgs` of `lib/nl.c`).

A datagram is read, every message in it is handled, and another datagram is read while a multipart sequence is open. A
message goes through stages: it is converted, shown to `NL_CB_MSG_IN`, its sequence number is checked, the socket's
counter is advanced, and what the flags and the type ask for is done. Each stage may call a callback, and `NL_CB_CALL` sends
the message on, or to the labels `skip`, `stop` or `out`: this is the `Flow` of a stage.

What comes from the kernel is a list: what each call of `nl_recv` returns. A callback is any function of a state of its
own and of the message. The calls are recorded (`log`).

- `handle_spec`: what one message does to the counter, the multipart flag, the count and the calls of `NL_CB_MSG_IN`.
- `recvmsgs_dispatch`: the loop over a datagram ends, messages are handled in order up to the first stop or error, the
  counter is advanced once for every ending message that passed its checks, and another datagram is read if and only if a
  multipart sequence is open.
-/
import Mathlib.Tactic
import Libnl.Message.AttrWalk

namespace Libnl.Recv

open Bytes Walk Msg

/-! ## Messages and callbacks -/

def NL_OK : ℤ := 0
def NL_SKIP : ℤ := 1
def NL_STOP : ℤ := 2

def NLMSG_NOOP : ℕ := 1
def NLMSG_ERROR : ℕ := 2
def NLMSG_DONE : ℕ := 3
def NLMSG_OVERRUN : ℕ := 4

def NLM_F_MULTI : ℕ := 0x02
def NLM_F_ACK : ℕ := 0x04
def NLM_F_DUMP_INTR : ℕ := 0x10

/-- `nl_syserr2nlerr` -/
def nlSyserr2nlerr (error : ℤ) : ℤ :=
  match error.natAbs with
  | 9 => NLE_BAD_SOCK
  | 98 => NLE_EXIST
  | 17 => NLE_EXIST
  | 99 => NLE_NOADDR
  | 3 => NLE_OBJ_NOTFOUND
  | 2 => NLE_OBJ_NOTFOUND
  | 4 => NLE_INTR
  | 11 => NLE_AGAIN
  | 88 => NLE_BAD_SOCK
  | 92 => NLE_INVAL
  | 14 => NLE_INVAL
  | 13 => NLE_NOACCESS
  | 22 => NLE_INVAL
  | 105 => NLE_NOMEM
  | 12 => NLE_NOMEM
  | 97 => NLE_AF_NOSUPPORT
  | 93 => NLE_PROTO_MISMATCH
  | 95 => NLE_OPNOTSUPP
  | 1 => NLE_PERM
  | 16 => NLE_BUSY
  | 34 => NLE_RANGE
  | 19 => NLE_NODEV
  | _ => NLE_FAILURE

/-- a message, and where it stands: in which datagram, at which offset -/
structure Message where
  dgram : ℕ
  pos : ℕ
  nlmsgLen : ℕ
  nlmsgType : ℕ
  nlmsgFlags : ℕ
  nlmsgSeq : BitVec 32
  /-- the field `error` of a `struct nlmsgerr` -/
  error : ℤ
deriving DecidableEq, Repr

def Message.has (m : Message) (flag : ℕ) : Bool := decide (m.nlmsgFlags &&& flag ≠ 0)

/-- the message ends an answer, or stands for nothing -/
def Message.ending (m : Message) : Bool :=
  decide (m.nlmsgType = NLMSG_DONE ∨ m.nlmsgType = NLMSG_ERROR ∨ m.nlmsgType = NLMSG_NOOP ∨
    m.nlmsgType = NLMSG_OVERRUN)

def msgAt [HostOrder] (dgram : ℕ) (buf : Mem) (pos : ℕ) : Message where
  dgram := dgram
  pos := pos
  nlmsgLen := getU32 buf pos
  nlmsgType := getU16 buf (pos + 4)
  nlmsgFlags := getU16 buf (pos + 6)
  nlmsgSeq := BitVec.ofNat 32 (getU32 buf (pos + 8))
  error := toInt32 (getU32 buf (pos + 16))

/-- what `nl_recv`, or the function set in its place, returns -/
structure Received where
  n : Int32
  buf : Mem

inductive CbType where
  | valid | finish | overrun | skipped | ack | msgIn | msgOut | invalid | seqCheck | sendAck | dumpIntr
deriving DecidableEq, Repr

/-- `struct nl_cb`, with a state that callbacks may read and change -/
structure NlCb (σ : Type) where
  cbSet : CbType → Option (σ → Message → σ × ℤ)
  cbErr : Option (σ → Message → σ × ℤ)
  /-- whether `nlmsg_convert` gets its memory -/
  nlmsgConvert : σ → Message → σ × Bool

/-- a call that was made; `none` stands for `cb_err` -/
structure Call where
  type : Option CbType
  msg : Message
  ret : ℤ
deriving DecidableEq, Repr

/-- the variables of `recvmsgs`, the counter of the socket, the state of the callbacks -/
structure RecvState (σ : Type) where
  env : σ
  sSeqExpect : BitVec 32
  multipart : Bool
  interrupted : Bool
  nrecv : ℕ
  log : List Call

/-- where a stage sends the message -/
inductive Flow where
  | next | skip | stop
  | out (err : ℤ)
deriving DecidableEq, Repr

/-! ## Stages -/

abbrev Stage (σ : Type) := RecvState σ → Flow × RecvState σ

namespace Stage

variable {σ : Type}

def goto (flow : Flow) : Stage σ := fun s => (flow, s)

/-- the second stage, if the first sends the message on -/
def andThen (f g : Stage σ) : Stage σ := fun s =>
  match (f s).1 with
  | .next => g (f s).2
  | flow => (flow, (f s).2)

end Stage

open Stage

variable {σ : Type} (cb : NlCb σ) (noAutoAck : Bool) (m : Message)

/-- `NL_CB_CALL` -/
def nlCbCall (type : CbType) (f : σ → Message → σ × ℤ) : Stage σ := fun s =>
  let r := f s.env m
  (if r.2 = NL_OK then .next else if r.2 = NL_SKIP then .skip else if r.2 = NL_STOP then .stop else .out r.2,
    { s with env := r.1, log := s.log ++ [⟨some type, m, r.2⟩] })

/-- the callback if it is set, else something else -/
def callOr (type : CbType) (dflt : Stage σ) : Stage σ :=
  match cb.cbSet type with
  | some f => nlCbCall m type f
  | none => dflt

def convert : Stage σ := fun s =>
  let r := cb.nlmsgConvert s.env m
  if r.2 then (.next, { s with env := r.1, nrecv := s.nrecv + 1 }) else (.out (-NLE_NOMEM), { s with env := r.1 })

/-- the default check is made in auto-ack mode only -/
def seqCheck : Stage σ :=
  match cb.cbSet .seqCheck with
  | some f => nlCbCall m .seqCheck f
  | none => fun s =>
    if noAutoAck then (.next, s)
    else if m.nlmsgSeq ≠ s.sSeqExpect then callOr cb m .invalid (goto (.out (-NLE_SEQ_MISMATCH))) s
    else (.next, s)

/-- what comes before the counter is advanced -/
def checks : Stage σ := (convert cb m).andThen ((callOr cb m .msgIn (goto .next)).andThen (seqCheck cb noAutoAck m))

def advance : Stage σ := fun s =>
  (.next, { s with
    sSeqExpect := if m.ending then s.sSeqExpect + 1 else s.sSeqExpect
    multipart := s.multipart || m.has NLM_F_MULTI })

def dumpIntr : Stage σ :=
  if m.has NLM_F_DUMP_INTR then callOr cb m .dumpIntr fun s => (.next, { s with interrupted := true }) else goto .next

def sendAck : Stage σ := if m.has NLM_F_ACK then callOr cb m .sendAck (goto .next) else goto .next

/-- an error reported by the kernel -/
def kernelError : Stage σ :=
  match cb.cbErr with
  | some f => fun s =>
    let r := f s.env m
    (if r.2 < 0 then .out r.2 else if r.2 = NL_SKIP then .skip
      else if r.2 = NL_STOP then .out (-nlSyserr2nlerr m.error) else .next,
      { s with env := r.1, log := s.log ++ [⟨none, m, r.2⟩] })
  | none => goto (.out (-nlSyserr2nlerr m.error))

/-- `nlmsg_size(sizeof(struct nlmsgerr))` -/
def NLMSGERR_SIZE : ℕ := 36

/-- what is done for the type of the message -/
def dispatch : Stage σ :=
  if m.nlmsgType = NLMSG_DONE then fun s => callOr cb m .finish (goto .next) { s with multipart := false }
  else if m.nlmsgType = NLMSG_NOOP then callOr cb m .skipped (goto .skip)
  else if m.nlmsgType = NLMSG_OVERRUN then callOr cb m .overrun (goto (.out (-NLE_MSG_OVERFLOW)))
  else if m.nlmsgType = NLMSG_ERROR then
    if m.nlmsgLen < NLMSGERR_SIZE then callOr cb m .invalid (goto (.out (-NLE_MSG_TRUNC)))
    else if m.error ≠ 0 then kernelError cb m
    else callOr cb m .ack (goto .next)
  else callOr cb m .valid (goto .next)

/-- up to what is done for the type -/
def flagged : Stage σ := (checks cb noAutoAck m).andThen ((advance m).andThen ((dumpIntr cb m).andThen (sendAck cb m)))

/-- the body of the loop -/
def handle : Stage σ := (flagged cb noAutoAck m).andThen (dispatch cb m)

/-- on to the next message, or out of the loop -/
def loopBody (s : RecvState σ) (m : Message) : Except (RecvState σ × ℤ) (RecvState σ) :=
  match handle cb noAutoAck m s with
  | (.next, s) => .ok s
  | (.skip, s) => .ok s
  | (.stop, s) => .error (s, 0)
  | (.out err, s) => .error (s, err)

/-! ## The function -/

/-- what is behind the label `out` -/
def finish (s : RecvState σ) (err : ℤ) : ℤ :=
  let err := if s.interrupted then -NLE_DUMP_INTR else err
  if err = 0 then s.nrecv else err

/-- how a call of `recvmsgs` ends, with how often `nl_recv` was called -/
inductive Result (σ : Type) where
  | returned (s : RecvState σ) (ret : ℤ) (calls : ℕ)
  /-- `nl_recv` does not return -/
  | waiting (s : RecvState σ) (calls : ℕ)
  /-- the loop over a datagram does not end -/
  | looping

/-- the label `continue_reading`; `i` calls of `nl_recv` were made so far -/
def continueReading [HostOrder] : ℕ → RecvState σ → List Received → Result σ
  | i, s, [] => .waiting s (i + 1)
  | i, s, r :: rs =>
    if r.n.toInt ≤ 0 then .returned s r.n.toInt (i + 1)
    else
      match forEach (nlmsgOk r.buf) (nlmsgNext r.buf) (fun s pos => loopBody cb noAutoAck s (msgAt i r.buf pos))
          (r.n.toInt.toNat + 1) s 0 r.n.toInt with
      | none => .looping
      | some (.error (s, err)) => .returned s (finish s err) (i + 1)
      | some (.ok s) => if s.multipart then continueReading (i + 1) s rs else .returned s (finish s 0) (i + 1)

def start (env : σ) (sSeqExpect : BitVec 32) : RecvState σ := ⟨env, sSeqExpect, false, false, 0, []⟩

def recvmsgs [HostOrder] (env : σ) (sSeqExpect : BitVec 32) (rs : List Received) : Result σ :=
  continueReading cb noAutoAck 0 (start env sSeqExpect) rs

/-! ## One message -/

/-- the messages `NL_CB_MSG_IN` was called for, in order -/
def msgIns (log : List Call) : List Message := (log.filter fun c => decide (c.type = some .msgIn)).map Call.msg

/-- the message gets past its conversion -/
def converts (s : RecvState σ) : Bool := (cb.nlmsgConvert s.env m).2

/-- it gets past the checks -/
def passes (s : RecvState σ) : Bool := decide ((checks cb noAutoAck m s).1 = .next)

/-- it gets to what is done for its type -/
def reaches (s : RecvState σ) : Bool := decide ((flagged cb noAutoAck m s).1 = .next)

/-- `NL_CB_MSG_IN` is set -/
def hasMsgIn : Bool := (cb.cbSet .msgIn).isSome

theorem andThen_next {f : Stage σ} (g : Stage σ) {s : RecvState σ} (h : (f s).1 = .next) :
    f.andThen g s = g (f s).2 := by
  unfold Stage.andThen
  rw [h]

theorem andThen_other {f : Stage σ} (g : Stage σ) {s : RecvState σ} (h : (f s).1 ≠ .next) : f.andThen g s = f s := by
  unfold Stage.andThen
  generalize f s = r at h
  obtain ⟨flow, s'⟩ := r
  cases flow with
  | next => exact absurd rfl h
  | skip => rfl
  | stop => rfl
  | out err => rfl

/-- the counter, the flag, the count and the calls of `NL_CB_MSG_IN` are the same -/
structure Same (s s' : RecvState σ) : Prop where
  seq : s'.sSeqExpect = s.sSeqExpect
  multipart : s'.multipart = s.multipart
  nrecv : s'.nrecv = s.nrecv
  msgIns : msgIns s'.log = msgIns s.log

theorem Same.refl (s : RecvState σ) : Same s s := ⟨rfl, rfl, rfl, rfl⟩

theorem Same.trans {s s' s'' : RecvState σ} (h : Same s s') (h' : Same s' s'') : Same s s'' :=
  ⟨h'.seq.trans h.seq, h'.multipart.trans h.multipart, h'.nrecv.trans h.nrecv, h'.msgIns.trans h.msgIns⟩

/-- a stage that leaves them alone -/
def Still (f : Stage σ) : Prop := ∀ s, Same s (f s).2

theorem still_goto (flow : Flow) : Still (goto flow : Stage σ) := fun s => Same.refl s

theorem Still.andThen {f g : Stage σ} (hf : Still f) (hg : Still g) : Still (f.andThen g) := by
  intro s
  by_cases h : (f s).1 = .next
  · rw [andThen_next g h]
    exact (hf s).trans (hg _)
  · rw [andThen_other g h]
    exact hf s

theorem msgIns_append (log : List Call) (c : Call) :
    msgIns (log ++ [c]) = msgIns log ++ if c.type = some .msgIn then [c.msg] else [] := by
  unfold msgIns
  rw [List.filter_append, List.map_append, List.filter_cons, List.filter_nil]
  by_cases h : c.type = some .msgIn
  · simp [h]
  · simp [h]

/-- a call of any other callback -/
theorem still_log {s s' : RecvState σ} {c : Call} (hc : c.type ≠ some .msgIn) (hseq : s'.sSeqExpect = s.sSeqExpect)
    (hmulti : s'.multipart = s.multipart) (hn : s'.nrecv = s.nrecv) (hlog : s'.log = s.log ++ [c]) : Same s s' :=
  ⟨hseq, hmulti, hn, by rw [hlog, msgIns_append, if_neg hc, List.append_nil]⟩

theorem still_call {type : CbType} (htype : type ≠ .msgIn) (f : σ → Message → σ × ℤ) : Still (nlCbCall m type f) :=
  fun s => still_log (c := ⟨some type, m, (f s.env m).2⟩) (fun h => htype (Option.some.inj h)) rfl rfl rfl rfl

theorem still_callOr {type : CbType} (htype : type ≠ .msgIn) {dflt : Stage σ} (hd : Still dflt) :
    Still (callOr cb m type dflt) := by
  unfold callOr
  cases cb.cbSet type with
  | some f => exact still_call m htype f
  | none => exact hd

theorem still_seqCheck : Still (seqCheck cb noAutoAck m) := by
  unfold seqCheck
  cases cb.cbSet .seqCheck with
  | some f => exact still_call m (by decide) f
  | none =>
    intro s
    dsimp only
    by_cases hack : noAutoAck = true
    · rw [if_pos hack]
      exact Same.refl s
    · rw [if_neg hack]
      by_cases hseq : m.nlmsgSeq ≠ s.sSeqExpect
      · rw [if_pos hseq]
        exact still_callOr cb m (by decide) (still_goto _) s
      · rw [if_neg hseq]
        exact Same.refl s

theorem still_flags : Still ((dumpIntr cb m).andThen (sendAck cb m)) := by
  refine Still.andThen ?_ ?_
  · unfold dumpIntr
    split_ifs
    · exact still_callOr cb m (by decide) fun s => ⟨rfl, rfl, rfl, rfl⟩
    · exact still_goto _
  · unfold sendAck
    split_ifs
    · exact still_callOr cb m (by decide) (still_goto _)
    · exact still_goto _

theorem still_kernelError : Still (kernelError cb m) := by
  unfold kernelError
  cases cb.cbErr with
  | none => exact still_goto _
  | some f => exact fun s => still_log (c := ⟨none, m, (f s.env m).2⟩) nofun rfl rfl rfl rfl

/-- a message that is not `NLMSG_DONE` -/
theorem still_dispatch (h : m.nlmsgType ≠ NLMSG_DONE) : Still (dispatch cb m) := by
  unfold dispatch
  rw [if_neg h]
  split_ifs
  · exact still_callOr cb m (by decide) (still_goto _)
  · exact still_callOr cb m (by decide) (still_goto _)
  · exact still_callOr cb m (by decide) (still_goto _)
  · exact still_kernelError cb m
  · exact still_callOr cb m (by decide) (still_goto _)
  · exact still_callOr cb m (by decide) (still_goto _)

theorem dispatch_done (h : m.nlmsgType = NLMSG_DONE) (s : RecvState σ) :
    Same { s with multipart := false } (dispatch cb m s).2 := by
  unfold dispatch
  rw [if_pos h]
  exact still_callOr cb m (by decide) (still_goto _) _

/-- what the checks do: the message is counted and shown to `NL_CB_MSG_IN` -/
theorem checks_spec (s : RecvState σ) : (checks cb noAutoAck m s).2.sSeqExpect = s.sSeqExpect ∧
    (checks cb noAutoAck m s).2.multipart = s.multipart ∧
    (checks cb noAutoAck m s).2.nrecv = s.nrecv + (if converts cb m s then 1 else 0) ∧
    msgIns (checks cb noAutoAck m s).2.log =
      msgIns s.log ++ if converts cb m s && hasMsgIn cb then [m] else [] := by
  unfold checks
  cases hc : converts cb m s with
  | false =>
    have hout : convert cb m s = (.out (-NLE_NOMEM), { s with env := (cb.nlmsgConvert s.env m).1 }) := by
      unfold convert
      unfold converts at hc
      rw [if_neg (by rw [hc]; exact Bool.false_ne_true)]
    rw [andThen_other _ (by rw [hout]; exact nofun), hout]
    simp
  | true =>
    have hnext : convert cb m s =
        (.next, { s with env := (cb.nlmsgConvert s.env m).1, nrecv := s.nrecv + 1 }) := by
      unfold convert
      unfold converts at hc
      rw [if_pos hc]
    rw [andThen_next _ (by rw [hnext]), hnext]
    dsimp only
    generalize hs1 : ({ s with env := (cb.nlmsgConvert s.env m).1, nrecv := s.nrecv + 1 } : RecvState σ) = s1
    -- the call of `NL_CB_MSG_IN`, and what comes behind it
    have hin : (callOr cb m .msgIn (goto .next) s1).2.sSeqExpect = s.sSeqExpect ∧
        (callOr cb m .msgIn (goto .next) s1).2.multipart = s.multipart ∧
        (callOr cb m .msgIn (goto .next) s1).2.nrecv = s.nrecv + 1 ∧
        msgIns (callOr cb m .msgIn (goto .next) s1).2.log = msgIns s.log ++ if hasMsgIn cb then [m] else [] := by
      subst hs1
      unfold callOr hasMsgIn
      cases hset : cb.cbSet .msgIn with
      | none => simp [goto]
      | some f => exact ⟨rfl, rfl, rfl, by simp [nlCbCall, msgIns_append]⟩
    have hsame : Same (callOr cb m .msgIn (goto .next) s1).2
        ((callOr cb m .msgIn (goto .next)).andThen (seqCheck cb noAutoAck m) s1).2 := by
      by_cases h : (callOr cb m .msgIn (goto .next) s1).1 = .next
      · rw [andThen_next _ h]
        exact still_seqCheck cb noAutoAck m _
      · rw [andThen_other _ h]
        exact Same.refl _
    refine ⟨hsame.seq.trans hin.1, hsame.multipart.trans hin.2.1, ?_, ?_⟩
    · rw [hsame.nrecv, hin.2.2.1, if_pos rfl]
    · rw [hsame.msgIns, hin.2.2.2, Bool.true_and]

theorem flagged_of_passes {s : RecvState σ} (h : passes cb noAutoAck m s = true) : flagged cb noAutoAck m s =
    (dumpIntr cb m).andThen (sendAck cb m) (advance m (checks cb noAutoAck m s).2).2 := by
  unfold flagged
  rw [andThen_next _ (of_decide_eq_true h)]
  exact andThen_next _ rfl

theorem flagged_of_not_passes {s : RecvState σ} (h : passes cb noAutoAck m s = false) :
    flagged cb noAutoAck m s = checks cb noAutoAck m s := andThen_other _ (of_decide_eq_false h)

/-- who does not pass the checks does not get further -/
theorem reaches_passes {s : RecvState σ} (h : reaches cb noAutoAck m s = true) : passes cb noAutoAck m s = true := by
  by_contra hp
  rw [Bool.not_eq_true] at hp
  have hr := of_decide_eq_true h
  rw [flagged_of_not_passes cb noAutoAck m hp] at hr
  exact of_decide_eq_false hp hr

/-- what one message does -/
structure HandleSpec (s s' : RecvState σ) : Prop where
  seq : s'.sSeqExpect = if passes cb noAutoAck m s && m.ending then s.sSeqExpect + 1 else s.sSeqExpect
  multipart : s'.multipart = if reaches cb noAutoAck m s && decide (m.nlmsgType = NLMSG_DONE) then false
    else s.multipart || (passes cb noAutoAck m s && m.has NLM_F_MULTI)
  nrecv : s'.nrecv = s.nrecv + (if converts cb m s then 1 else 0)
  msgIns : msgIns s'.log = msgIns s.log ++ if converts cb m s && hasMsgIn cb then [m] else []

/-- **One message.** -/
theorem handle_spec (s : RecvState σ) : HandleSpec cb noAutoAck m s (handle cb noAutoAck m s).2 := by
  obtain ⟨hseq, hmulti, hn, hin⟩ := checks_spec cb noAutoAck m s
  cases hp : passes cb noAutoAck m s with
  | false =>
    have hr : reaches cb noAutoAck m s = false := by
      by_contra hr
      rw [reaches_passes cb noAutoAck m (Bool.not_eq_false _ ▸ hr)] at hp
      cases hp
    have hstop : handle cb noAutoAck m s = checks cb noAutoAck m s := by
      unfold handle
      rw [andThen_other _ (of_decide_eq_false hr), flagged_of_not_passes cb noAutoAck m hp]
    rw [hstop]
    exact ⟨by rw [hp]; exact hseq, by rw [hp, hr]; simpa using hmulti, hn, hin⟩
  | true =>
    have hflags := still_flags cb m (advance m (checks cb noAutoAck m s).2).2
    rw [← flagged_of_passes cb noAutoAck m hp] at hflags
    have hseq' : (flagged cb noAutoAck m s).2.sSeqExpect = if m.ending then s.sSeqExpect + 1 else s.sSeqExpect := by
      rw [hflags.seq, ← hseq]
      rfl
    have hmulti' : (flagged cb noAutoAck m s).2.multipart = (s.multipart || m.has NLM_F_MULTI) := by
      rw [hflags.multipart, ← hmulti]
      rfl
    have hn' := hflags.nrecv.trans hn
    have hin' := hflags.msgIns.trans hin
    cases hr : reaches cb noAutoAck m s with
    | false =>
      have hstop : handle cb noAutoAck m s = flagged cb noAutoAck m s := andThen_other _ (of_decide_eq_false hr)
      rw [hstop]
      exact ⟨by rw [hp]; exact hseq', by rw [hp, hr]; exact hmulti', hn', hin'⟩
    | true =>
      have hgo : handle cb noAutoAck m s = dispatch cb m (flagged cb noAutoAck m s).2 :=
        andThen_next _ (of_decide_eq_true hr)
      rw [hgo]
      by_cases hdone : m.nlmsgType = NLMSG_DONE
      · have hd := dispatch_done cb m hdone (flagged cb noAutoAck m s).2
        exact ⟨by rw [hp, hd.seq]; exact hseq', by rw [hr, hd.multipart, decide_eq_true hdone]; rfl,
          hd.nrecv.trans hn', hd.msgIns.trans hin'⟩
      · have hd := still_dispatch cb m hdone (flagged cb noAutoAck m s).2
        exact ⟨by rw [hp, hd.seq]; exact hseq', by rw [hp, hr, hd.multipart, decide_eq_false hdone]; exact hmulti',
          hd.nrecv.trans hn', hd.msgIns.trans hin'⟩

/-! ## Many messages -/

/-- the message does not end the loop -/
def goesOn (s : RecvState σ) : Bool :=
  match (handle cb noAutoAck m s).1 with
  | .next => true
  | .skip => true
  | .stop => false
  | .out _ => false

/-- the messages that are handled, each with the state it is handled in -/
def trace : RecvState σ → List Message → List (Message × RecvState σ)
  | _, [] => []
  | s, m :: ms => (m, s) :: if goesOn cb noAutoAck m s then trace (handle cb noAutoAck m s).2 ms else []

/-- the state after them -/
def after : RecvState σ → List Message → RecvState σ
  | s, [] => s
  | s, m :: ms => if goesOn cb noAutoAck m s then after (handle cb noAutoAck m s).2 ms else (handle cb noAutoAck m s).2

/-- none of the messages ends the loop -/
def through : RecvState σ → List Message → Bool
  | _, [] => true
  | s, m :: ms => goesOn cb noAutoAck m s && through (handle cb noAutoAck m s).2 ms

section

variable {cb noAutoAck} {s : RecvState σ}

theorem loopBody_goesOn (h : goesOn cb noAutoAck m s = true) :
    loopBody cb noAutoAck s m = .ok (handle cb noAutoAck m s).2 := by
  unfold goesOn at h
  unfold loopBody
  generalize handle cb noAutoAck m s = r at h
  obtain ⟨flow, s'⟩ := r
  cases flow with
  | next => rfl
  | skip => rfl
  | stop => cases h
  | out err => cases h

theorem loopBody_ends (h : goesOn cb noAutoAck m s = false) :
    ∃ err, loopBody cb noAutoAck s m = .error ((handle cb noAutoAck m s).2, err) := by
  unfold goesOn at h
  unfold loopBody
  generalize handle cb noAutoAck m s = r at h
  obtain ⟨flow, s'⟩ := r
  cases flow with
  | next => cases h
  | skip => cases h
  | stop => exact ⟨0, rfl⟩
  | out err => exact ⟨err, rfl⟩

theorem goesOn_false {m : Message} {s : RecvState σ} (h : goesOn cb noAutoAck m s = false) :
    (handle cb noAutoAck m s).1 = .stop ∨ ∃ err, (handle cb noAutoAck m s).1 = .out err := by
  unfold goesOn at h
  cases hflow : (handle cb noAutoAck m s).1 with
  | next =>
    rw [hflow] at h
    cases h
  | skip =>
    rw [hflow] at h
    cases h
  | stop => exact Or.inl rfl
  | out err => exact Or.inr ⟨err, rfl⟩

/-- the loop, if no message ends it -/
theorem loop_through {ms : List Message} (h : through cb noAutoAck s ms = true) :
    ms.foldlM (loopBody cb noAutoAck) s = .ok (after cb noAutoAck s ms) := by
  induction ms generalizing s with
  | nil => rfl
  | cons m ms ih =>
    rw [through, Bool.and_eq_true] at h
    rw [List.foldlM_cons, loopBody_goesOn m h.1, after, if_pos h.1]
    exact ih h.2

/-- the loop, if a message ends it -/
theorem loop_ends {ms : List Message} (h : through cb noAutoAck s ms = false) :
    ∃ err, ms.foldlM (loopBody cb noAutoAck) s = .error (after cb noAutoAck s ms, err) := by
  induction ms generalizing s with
  | nil => cases h
  | cons m ms ih =>
    rw [List.foldlM_cons, after]
    cases hgo : goesOn cb noAutoAck m s with
    | true =>
      rw [loopBody_goesOn m hgo]
      rw [through, hgo, Bool.true_and] at h
      exact ih h
    | false =>
      obtain ⟨err, herr⟩ := loopBody_ends m hgo
      rw [herr]
      exact ⟨err, rfl⟩

theorem through_append (ms ms' : List Message) : through cb noAutoAck s (ms ++ ms') =
    (through cb noAutoAck s ms && through cb noAutoAck (after cb noAutoAck s ms) ms') := by
  induction ms generalizing s with
  | nil => rfl
  | cons m ms ih =>
    rw [List.cons_append, through, through, after, ih]
    cases goesOn cb noAutoAck m s with
    | true => rfl
    | false => rfl

theorem after_append {ms : List Message} (ms' : List Message) (h : through cb noAutoAck s ms = true) :
    after cb noAutoAck s (ms ++ ms') = after cb noAutoAck (after cb noAutoAck s ms) ms' := by
  induction ms generalizing s with
  | nil => rfl
  | cons m ms ih =>
    rw [through, Bool.and_eq_true] at h
    rw [List.cons_append, after, after, if_pos h.1, if_pos h.1]
    exact ih h.2

theorem trace_cons (s : RecvState σ) (m : Message) (ms : List Message) : trace cb noAutoAck s (m :: ms) =
    (m, s) :: if goesOn cb noAutoAck m s then trace cb noAutoAck (handle cb noAutoAck m s).2 ms else [] := rfl

theorem trace_append {ms : List Message} (ms' : List Message) (h : through cb noAutoAck s ms = true) :
    trace cb noAutoAck s (ms ++ ms') =
      trace cb noAutoAck s ms ++ trace cb noAutoAck (after cb noAutoAck s ms) ms' := by
  induction ms generalizing s with
  | nil => rfl
  | cons m ms ih =>
    rw [through, Bool.and_eq_true] at h
    rw [List.cons_append, trace_cons, trace_cons, after, if_pos h.1, if_pos h.1, if_pos h.1, List.cons_append, ih h.2]

/-- messages are handled in order, each once -/
theorem trace_prefix (s : RecvState σ) (ms : List Message) : (trace cb noAutoAck s ms).map Prod.fst <+: ms := by
  induction ms generalizing s with
  | nil => exact List.prefix_rfl
  | cons m ms ih =>
    rw [trace_cons, List.map_cons]
    refine (List.prefix_cons_inj m).2 ?_
    split_ifs
    · exact ih _
    · exact List.nil_prefix

variable (cb noAutoAck) in
/-- all of them are handled, or the last one ended the loop -/
theorem trace_ends (s : RecvState σ) (ms : List Message) : (trace cb noAutoAck s ms).map Prod.fst = ms ∨
    ∃ x, (trace cb noAutoAck s ms).getLast? = some x ∧ goesOn cb noAutoAck x.1 x.2 = false := by
  induction ms generalizing s with
  | nil => exact Or.inl rfl
  | cons m ms ih =>
    rw [trace_cons]
    cases hgo : goesOn cb noAutoAck m s with
    | false => exact Or.inr ⟨(m, s), rfl, hgo⟩
    | true =>
      rw [if_pos rfl]
      rcases ih (handle cb noAutoAck m s).2 with hall | ⟨x, hx, hend⟩
      · exact Or.inl (by rw [List.map_cons, hall])
      · refine Or.inr ⟨x, ?_, hend⟩
        rw [List.getLast?_cons, hx]
        rfl

/-- the counter after some messages -/
theorem after_seq (s : RecvState σ) (ms : List Message) : (after cb noAutoAck s ms).sSeqExpect =
    s.sSeqExpect + BitVec.ofNat 32 ((trace cb noAutoAck s ms).countP fun x =>
      passes cb noAutoAck x.1 x.2 && x.1.ending) := by
  induction ms generalizing s with
  | nil => simp [after, trace]
  | cons m ms ih =>
    have hone := (handle_spec cb noAutoAck m s).seq
    have hhead : (handle cb noAutoAck m s).2.sSeqExpect = s.sSeqExpect +
        BitVec.ofNat 32 (if passes cb noAutoAck m s && m.ending then 1 else 0) := by
      rw [hone]
      split_ifs
      · rfl
      · simp
    rw [trace_cons, List.countP_cons, after]
    cases hgo : goesOn cb noAutoAck m s with
    | false =>
      rw [if_neg Bool.false_ne_true, if_neg Bool.false_ne_true, hhead]
      simp
    | true =>
      rw [if_pos rfl, if_pos rfl, ih, hhead, BitVec.add_assoc, ← BitVec.ofNat_add]
      congr 2
      exact Nat.add_comm _ _

/-- the calls of `NL_CB_MSG_IN` after some messages -/
theorem after_msgIns (s : RecvState σ) (ms : List Message) : msgIns (after cb noAutoAck s ms).log = msgIns s.log ++
    if hasMsgIn cb then ((trace cb noAutoAck s ms).filter fun x => converts cb x.1 x.2).map Prod.fst else [] := by
  induction ms generalizing s with
  | nil => simp [after, trace]
  | cons m ms ih =>
    have hone := (handle_spec cb noAutoAck m s).msgIns
    rw [trace_cons, after]
    cases hgo : goesOn cb noAutoAck m s with
    | false =>
      rw [if_neg Bool.false_ne_true, if_neg Bool.false_ne_true, hone]
      cases hasMsgIn cb with
      | false => simp
      | true =>
        cases hc : converts cb m s with
        | false => simp [hc]
        | true => simp [hc]
    | true =>
      rw [if_pos rfl, if_pos rfl, ih, hone]
      cases hasMsgIn cb with
      | false => simp
      | true =>
        cases hc : converts cb m s with
        | false => simp [hc]
        | true => simp [hc]

end

/-! ## Multipart sequences -/

/-- `NLMSG_DONE`, when its turn comes, closes the sequence -/
def closes (x : Message × RecvState σ) : Bool :=
  reaches cb noAutoAck x.1 x.2 && decide (x.1.nlmsgType = NLMSG_DONE)

/-- any other message with `NLM_F_MULTI` opens a sequence when it has passed its checks -/
def opens (x : Message × RecvState σ) : Bool :=
  passes cb noAutoAck x.1 x.2 && x.1.has NLM_F_MULTI && !closes cb noAutoAck x

/-- a message has opened a sequence, and none has closed it since -/
def IsOpen (tr : List (Message × RecvState σ)) : Prop :=
  ∃ pre x post, tr = pre ++ x :: post ∧ opens cb noAutoAck x = true ∧ ∀ y ∈ post, closes cb noAutoAck y = false

section

variable {cb noAutoAck}

theorem isOpen_cons (x : Message × RecvState σ) (tr : List (Message × RecvState σ)) :
    IsOpen cb noAutoAck (x :: tr) ↔
      (opens cb noAutoAck x = true ∧ ∀ y ∈ tr, closes cb noAutoAck y = false) ∨ IsOpen cb noAutoAck tr := by
  constructor
  · rintro ⟨pre, y, post, heq, ho, hc⟩
    cases pre with
    | nil =>
      cases heq
      exact Or.inl ⟨ho, hc⟩
    | cons z pre =>
      cases heq
      exact Or.inr ⟨pre, y, post, rfl, ho, hc⟩
  · rintro (⟨ho, hc⟩ | ⟨pre, y, post, rfl, ho, hc⟩)
    · exact ⟨[], x, tr, rfl, ho, hc⟩
    · exact ⟨x :: pre, y, post, rfl, ho, hc⟩

theorem not_isOpen_nil : ¬ IsOpen cb noAutoAck ([] : List (Message × RecvState σ)) := by
  rintro ⟨pre, x, post, heq, -⟩
  cases pre with
  | nil => cases heq
  | cons y pre => cases heq

variable (cb noAutoAck) in
/-- the multipart flag after one message -/
theorem handle_multipart (m : Message) (s : RecvState σ) : (handle cb noAutoAck m s).2.multipart = true ↔
    opens cb noAutoAck (m, s) = true ∨ (s.multipart = true ∧ closes cb noAutoAck (m, s) = false) := by
  rw [(handle_spec cb noAutoAck m s).multipart]
  unfold opens
  have hcl : closes cb noAutoAck (m, s) = (reaches cb noAutoAck m s && decide (m.nlmsgType = NLMSG_DONE)) := rfl
  rw [← hcl]
  cases closes cb noAutoAck (m, s) with
  | true => simp
  | false =>
    simp only [Bool.false_eq_true, if_false, Bool.or_eq_true, Bool.not_false, Bool.and_true, and_true]
    exact or_comm

/-- **The multipart flag** says whether a sequence is open. -/
theorem after_multipart (s : RecvState σ) (ms : List Message) : (after cb noAutoAck s ms).multipart = true ↔
    IsOpen cb noAutoAck (trace cb noAutoAck s ms) ∨
      (s.multipart = true ∧ ∀ y ∈ trace cb noAutoAck s ms, closes cb noAutoAck y = false) := by
  induction ms generalizing s with
  | nil =>
    simp only [after, trace, not_isOpen_nil, false_or, List.not_mem_nil, false_imp_iff, implies_true, and_true]
  | cons m ms ih =>
    have hone := handle_multipart cb noAutoAck m s
    rw [trace_cons, after, isOpen_cons, List.forall_mem_cons]
    cases hgo : goesOn cb noAutoAck m s with
    | false =>
      rw [if_neg Bool.false_ne_true, if_neg Bool.false_ne_true, hone]
      simp only [not_isOpen_nil, or_false, List.not_mem_nil, false_imp_iff, implies_true, and_true]
    | true =>
      rw [if_pos rfl, if_pos rfl, ih, hone]
      tauto

end

/-! ## Datagrams -/

section

variable [HostOrder]

/-- the messages of what the `i`-th call of `nl_recv` returned, as `nlmsg_ok` and `nlmsg_next` delimit them -/
def messagesOf (i : ℕ) (r : Received) : List Message :=
  if r.n.toInt ≤ 0 then []
  else ((visits (nlmsgOk r.buf) (nlmsgNext r.buf) (r.n.toInt.toNat + 1) 0 r.n.toInt).getD []).map (msgAt i r.buf)

def messagesFrom : ℕ → List Received → List Message
  | _, [] => []
  | i, r :: rs => messagesOf i r ++ messagesFrom (i + 1) rs

variable {cb noAutoAck}

/-- **The loop over a datagram ends**, and goes through its messages. -/
theorem loop_messages {r : Received} (hn : ¬ r.n.toInt ≤ 0) (i : ℕ) (s : RecvState σ) :
    forEach (nlmsgOk r.buf) (nlmsgNext r.buf) (fun s pos => loopBody cb noAutoAck s (msgAt i r.buf pos))
      (r.n.toInt.toNat + 1) s 0 r.n.toInt = some ((messagesOf i r).foldlM (loopBody cb noAutoAck) s) := by
  have hlt : r.n.toInt < 2147483648 := by simpa using r.n.toInt_lt
  obtain ⟨offs, hv, -⟩ := (AttrWalk.nlmsgStream r.buf).walk 0 r.n.toInt hlt
  have hvisits := hv (r.n.toInt.toNat + 1) (Nat.lt_succ_self _)
  rw [forEach_eq_foldlM _ _ _ _ _ _ _ offs hvisits]
  unfold messagesOf
  rw [if_neg hn, hvisits, Option.getD_some, List.foldlM_map]

/-- another datagram is read after this one -/
def readsOn (cb : NlCb σ) (noAutoAck : Bool) (s : RecvState σ) (ms : List Message) : Bool :=
  through cb noAutoAck s ms && (after cb noAutoAck s ms).multipart

theorem continueReading_on {r : Received} (hn : ¬ r.n.toInt ≤ 0) {i : ℕ} {s : RecvState σ}
    (h : readsOn cb noAutoAck s (messagesOf i r) = true) (rs : List Received) :
    continueReading cb noAutoAck i s (r :: rs) =
      continueReading cb noAutoAck (i + 1) (after cb noAutoAck s (messagesOf i r)) rs := by
  rw [readsOn, Bool.and_eq_true] at h
  rw [continueReading, if_neg hn, loop_messages hn, loop_through h.1]
  dsimp only
  rw [if_pos h.2]

theorem continueReading_ends {r : Received} (hn : ¬ r.n.toInt ≤ 0) {i : ℕ} {s : RecvState σ}
    (h : readsOn cb noAutoAck s (messagesOf i r) = false) (rs : List Received) :
    ∃ err, continueReading cb noAutoAck i s (r :: rs) = .returned (after cb noAutoAck s (messagesOf i r))
      (finish (after cb noAutoAck s (messagesOf i r)) err) (i + 1) := by
  rw [continueReading, if_neg hn, loop_messages hn]
  cases hthrough : through cb noAutoAck s (messagesOf i r) with
  | true =>
    rw [readsOn, hthrough, Bool.true_and] at h
    rw [loop_through hthrough]
    dsimp only
    rw [if_neg (by rw [h]; exact Bool.false_ne_true)]
    exact ⟨_, rfl⟩
  | false =>
    obtain ⟨err, herr⟩ := loop_ends hthrough
    rw [herr]
    exact ⟨_, rfl⟩

/-- how the reading ends, after `k` more calls of `nl_recv` -/
structure Ends (cb : NlCb σ) (noAutoAck : Bool) (i : ℕ) (s : RecvState σ) (rs : List Received) (fin : RecvState σ)
    (k : ℕ) : Prop where
  result : (∃ ret, continueReading cb noAutoAck i s rs = .returned fin ret (i + k)) ∨
    continueReading cb noAutoAck i s rs = .waiting fin (i + k)
  called : 0 < k
  state : fin = after cb noAutoAck s (messagesFrom i (rs.take k))
  reads : ∀ pre r post, rs = pre ++ r :: post → pre.length < k →
    (pre.length + 1 < k ↔ 0 < r.n.toInt ∧ readsOn cb noAutoAck s (messagesFrom i (pre ++ [r])) = true)

theorem messagesFrom_single (i : ℕ) (r : Received) : messagesFrom i [r] = messagesOf i r := List.append_nil _

theorem messagesOf_nil {r : Received} (hn : r.n.toInt ≤ 0) (i : ℕ) : messagesOf i r = [] := if_pos hn

/-- the first call is the last one -/
theorem Ends.first {i : ℕ} {s : RecvState σ} {r : Received} {rs : List Received}
    (hret : ∃ ret, continueReading cb noAutoAck i s (r :: rs) =
      .returned (after cb noAutoAck s (messagesOf i r)) ret (i + 1))
    (hstop : ¬ (0 < r.n.toInt ∧ readsOn cb noAutoAck s (messagesOf i r) = true)) :
    Ends cb noAutoAck i s (r :: rs) (after cb noAutoAck s (messagesOf i r)) 1 where
  result := Or.inl hret
  called := Nat.one_pos
  state := by rw [List.take_succ_cons, List.take_zero, messagesFrom_single]
  reads pre r' post heq hlt := by
    have hpre : pre = [] := List.length_eq_zero_iff.1 (Nat.lt_one_iff.1 hlt)
    subst hpre
    cases heq
    rw [List.nil_append, messagesFrom_single]
    exact ⟨fun h => absurd h (Nat.lt_irrefl 1), fun h => absurd h hstop⟩

variable (cb noAutoAck) in
theorem continueReading_spec (i : ℕ) (s : RecvState σ) (rs : List Received) :
    ∃ fin k, Ends cb noAutoAck i s rs fin k := by
  induction rs generalizing i s with
  | nil =>
    refine ⟨s, 1, Or.inr rfl, Nat.one_pos, rfl, fun pre r post heq => ?_⟩
    exact absurd heq (List.ne_nil_of_length_pos (by simp) |>.symm)
  | cons r rs ih =>
    by_cases hn : r.n.toInt ≤ 0
    · have hfirst : Ends cb noAutoAck i s (r :: rs) (after cb noAutoAck s (messagesOf i r)) 1 := by
        refine Ends.first ⟨r.n.toInt, ?_⟩ fun h => absurd h.1 (not_lt.2 hn)
        rw [continueReading, if_pos hn, messagesOf_nil hn]
        rfl
      exact ⟨_, 1, hfirst⟩
    · cases hon : readsOn cb noAutoAck s (messagesOf i r) with
      | false =>
        obtain ⟨err, herr⟩ := continueReading_ends hn hon rs
        refine ⟨_, 1, Ends.first ⟨_, herr⟩ fun h => ?_⟩
        rw [hon] at h
        exact Bool.false_ne_true h.2
      | true =>
        obtain ⟨fin, k, hends⟩ := ih (i + 1) (after cb noAutoAck s (messagesOf i r))
        have hthrough : through cb noAutoAck s (messagesOf i r) = true := (Bool.and_eq_true _ _ ▸ hon).1
        have hmore : ∀ ms, readsOn cb noAutoAck s (messagesOf i r ++ ms) =
            readsOn cb noAutoAck (after cb noAutoAck s (messagesOf i r)) ms := by
          intro ms
          unfold readsOn
          rw [through_append, after_append ms hthrough, hthrough, Bool.true_and]
        refine ⟨fin, k + 1, ?_, Nat.succ_pos k, ?_, ?_⟩
        · rw [continueReading_on hn hon, Nat.add_comm k 1, ← Nat.add_assoc]
          exact hends.result
        · rw [List.take_succ_cons, messagesFrom, after_append _ hthrough]
          exact hends.state
        · intro pre r' post heq hlt
          cases pre with
          | nil =>
            cases heq
            rw [List.nil_append, messagesFrom_single]
            exact ⟨fun _ => ⟨not_le.1 hn, hon⟩, fun _ => Nat.succ_lt_succ hends.called⟩
          | cons x pre =>
            cases heq
            rw [List.cons_append, messagesFrom, hmore, List.length_cons, Nat.add_lt_add_iff_right]
            exact hends.reads pre r' post rfl (Nat.lt_of_succ_lt_succ hlt)

/-- what happens in a call of `recvmsgs` that ends in the state `fin` after `calls` calls of `nl_recv`; `msgs` are the
messages of the datagrams that were read, and `tr` those of them that were handled -/
structure Dispatched (cb : NlCb σ) (noAutoAck : Bool) (s : RecvState σ) (rs : List Received) (fin : RecvState σ)
    (calls : ℕ) (msgs : List Message) (tr : List (Message × RecvState σ)) : Prop where
  /-- messages are handled in order -/
  inOrder : tr.map Prod.fst <+: msgs
  /-- up to one that is stopped or fails; one that is skipped does not keep the next from being handled -/
  untilStop : tr.map Prod.fst = msgs ∨ ∃ x, tr.getLast? = some x ∧
    ((handle cb noAutoAck x.1 x.2).1 = .stop ∨ ∃ err, (handle cb noAutoAck x.1 x.2).1 = .out err)
  /-- each message there is memory for is shown to `NL_CB_MSG_IN`, if that is set, once -/
  msgIn : hasMsgIn cb = true → msgIns fin.log = (tr.filter fun x => converts cb x.1 x.2).map Prod.fst
  /-- the counter counts the ending messages that passed their checks -/
  seq : fin.sSeqExpect = s.sSeqExpect +
    BitVec.ofNat 32 (tr.countP fun x => passes cb noAutoAck x.1 x.2 && x.1.ending)
  /-- after a datagram there is another call of `nl_recv` just when all its messages were handled, none of them was
  stopped or failed, and a multipart sequence is open -/
  reads : ∀ pre r post, rs = pre ++ r :: post → pre.length < calls →
    (pre.length + 1 < calls ↔ 0 < r.n.toInt ∧
      through cb noAutoAck s (messagesFrom 0 (pre ++ [r])) = true ∧
        IsOpen cb noAutoAck (trace cb noAutoAck s (messagesFrom 0 (pre ++ [r]))))

variable (cb noAutoAck) in
/-- **Dispatch.** For everything `nl_recv` may return and all callbacks, a call of `recvmsgs` returns, or waits for
`nl_recv`; and what it did is `Dispatched`. -/
theorem recvmsgs_dispatch (env : σ) (sSeqExpect : BitVec 32) (rs : List Received) : ∃ fin calls,
    ((∃ ret, recvmsgs cb noAutoAck env sSeqExpect rs = .returned fin ret calls) ∨
      recvmsgs cb noAutoAck env sSeqExpect rs = .waiting fin calls) ∧
    Dispatched cb noAutoAck (start env sSeqExpect) rs fin calls (messagesFrom 0 (rs.take calls))
      (trace cb noAutoAck (start env sSeqExpect) (messagesFrom 0 (rs.take calls))) := by
  obtain ⟨fin, k, hends⟩ := continueReading_spec cb noAutoAck 0 (start env sSeqExpect) rs
  refine ⟨fin, k, ?_, trace_prefix _ _, ?_, fun hin => ?_, ?_, fun pre r post heq hlt => ?_⟩
  · have hres := hends.result
    rwa [Nat.zero_add] at hres
  · rcases trace_ends cb noAutoAck (start env sSeqExpect) (messagesFrom 0 (rs.take k)) with
      hall | ⟨x, hx, hend⟩
    · exact Or.inl hall
    · exact Or.inr ⟨x, hx, goesOn_false hend⟩
  · rw [hends.state, after_msgIns, if_pos hin]
    rfl
  · rw [hends.state, after_seq]
  · rw [hends.reads pre r post heq hlt, readsOn, Bool.and_eq_true, after_multipart]
    simp [start]

end

end Libnl.Recv
