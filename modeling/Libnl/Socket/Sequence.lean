/-
Sequence numbers of requests and answers (`nl_complete_msg`, `nl_send_auto`, the default check of `recvmsgs`).

The socket gives out numbers from one counter and expects answers by another. The system is the socket, the requests the
kernel has not finished answering, and the datagrams on their way. Requests are sent and answered in any order of steps;
answers come in the order of the requests, each as any number of datagrams with messages that carry the number of the
request, the last message of the last one being `NLMSG_DONE` or `NLMSG_ERROR`.

The invariant (`Inv`): the numbers from the expected one on are those of what is on its way, and then of what is still to be
answered, one after the other up to the next number to give out. It holds modulo 2^32, zero included.

- `sequence_protocol`: in every reachable state the check lets every message pass, and the counters are equal when nothing
  is outstanding, for requests that leave their number to the library and callbacks that do not discard messages.
- `sequence_broken`: a request with a number of its own is answered by a mismatch; a callback that stops leaves the
  counters apart.
-/
import Mathlib.Tactic
import Libnl.Socket.Recvmsgs

namespace Libnl.Recv

open Bytes Walk Msg Stage

/-! ## Sending -/

def NL_AUTO_PORT : BitVec 32 := 0
def NL_AUTO_SEQ : BitVec 32 := 0
def NLM_F_REQUEST : BitVec 16 := 1

/-- what `nl_complete_msg` reads and writes of a message -/
structure OutMsg where
  nlmsgPid : BitVec 32
  nlmsgSeq : BitVec 32
  nlmsgFlags : BitVec 16
  nmProtocol : ℤ
deriving DecidableEq, Repr

/-- what it reads of a socket -/
structure SockConf where
  /-- what `nl_socket_get_local_port` returns -/
  localPort : BitVec 32
  sProto : ℤ
  noAutoAck : Bool
deriving DecidableEq, Repr

/-- `nl_complete_msg`: the message, and `s_seq_next` -/
def nlCompleteMsg (sk : SockConf) (sSeqNext : BitVec 32) (msg : OutMsg) : OutMsg × BitVec 32 :=
  let msg := { msg with nlmsgPid := if msg.nlmsgPid = NL_AUTO_PORT then sk.localPort else msg.nlmsgPid }
  let next := if msg.nlmsgSeq = NL_AUTO_SEQ then sSeqNext + 1 else sSeqNext
  let msg := { msg with nlmsgSeq := if msg.nlmsgSeq = NL_AUTO_SEQ then sSeqNext else msg.nlmsgSeq }
  let msg := { msg with nmProtocol := if msg.nmProtocol = -1 then sk.sProto else msg.nmProtocol }
  let msg := { msg with nlmsgFlags := msg.nlmsgFlags ||| NLM_F_REQUEST }
  ({ msg with nlmsgFlags := if sk.noAutoAck then msg.nlmsgFlags else msg.nlmsgFlags ||| BitVec.ofNat 16 NLM_F_ACK }, next)

/-! ## Callbacks -/

variable {σ : Type}

/-- a message that is part of an answer and does not end it -/
def Message.isData (m : Message) : Bool := !m.ending

/-- a message that ends an answer -/
def Message.isEnd (m : Message) : Bool := decide (m.nlmsgType = NLMSG_DONE ∨ m.nlmsgType = NLMSG_ERROR)

/-- callbacks that leave the check to the library, and do not take away the end of an answer before it is counted -/
structure Attentive (cb : NlCb σ) : Prop where
  convert : ∀ env m, (cb.nlmsgConvert env m).2 = true
  seqCheck : cb.cbSet .seqCheck = none
  msgIn : ∀ f, cb.cbSet .msgIn = some f → ∀ env m, m.isEnd = true → (f env m).2 = NL_OK

/-- the message is not stopped, and does not fail -/
def Mild (flow : Flow) : Prop := flow = .next ∨ flow = .skip

/-- what is done with a message that passed its checks and was counted -/
def served (cb : NlCb σ) (m : Message) : Stage σ := ((dumpIntr cb m).andThen (sendAck cb m)).andThen (dispatch cb m)

/-- callbacks that let the loop go on behind this message -/
structure Lets (cb : NlCb σ) (m : Message) : Prop where
  msgIn : ∀ f, cb.cbSet .msgIn = some f → ∀ env, (f env m).2 = NL_OK ∨ (f env m).2 = NL_SKIP
  served : ∀ s, Mild (served cb m s).1

/-! ## One message -/

section

variable {cb : NlCb σ} {m : Message} {s : RecvState σ}

theorem nlCbCall_ok {type : CbType} {f : σ → Message → σ × ℤ} (h : (f s.env m).2 = NL_OK) :
    (nlCbCall m type f s).1 = .next := if_pos h

theorem nlCbCall_skip {type : CbType} {f : σ → Message → σ × ℤ} (h : (f s.env m).2 = NL_SKIP) :
    (nlCbCall m type f s).1 = .skip := by
  unfold nlCbCall
  dsimp only
  rw [h]
  rfl

theorem mild_andThen {f g : Stage σ} (hf : Mild (f s).1) (hg : (f s).1 = .next → Mild (g (f s).2).1) :
    Mild (f.andThen g s).1 := by
  by_cases hnext : (f s).1 = .next
  · rw [andThen_next g hnext]
    exact hg hnext
  · rw [andThen_other g hnext]
    exact hf

theorem andThen_assoc (f g h : Stage σ) : f.andThen (g.andThen h) = (f.andThen g).andThen h := by
  funext s
  by_cases hf : (f s).1 = .next
  · rw [andThen_next _ hf]
    by_cases hg : (g (f s).2).1 = .next
    · rw [andThen_next _ hg, andThen_next _ (by rw [andThen_next _ hf]; exact hg), andThen_next _ hf]
    · rw [andThen_other _ hg, andThen_other _ (by rw [andThen_next _ hf]; exact hg), andThen_next _ hf]
  · rw [andThen_other _ hf, andThen_other _ (by rw [andThen_other _ hf]; exact hf), andThen_other _ hf]

/-- the message as it comes to the check -/
def shown (cb : NlCb σ) (m : Message) : Stage σ := (convert cb m).andThen (callOr cb m .msgIn (goto .next))

variable (noAutoAck : Bool)

theorem checks_eq : checks cb noAutoAck m = (shown cb m).andThen (seqCheck cb noAutoAck m) := andThen_assoc _ _ _

theorem handle_eq : handle cb noAutoAck m = (checks cb noAutoAck m).andThen ((advance m).andThen (served cb m)) := by
  unfold handle flagged served
  rw [← andThen_assoc, ← andThen_assoc]

theorem goesOn_of_mild (h : Mild (handle cb noAutoAck m s).1) : goesOn cb noAutoAck m s = true := by
  unfold goesOn
  rcases h with h | h
  · rw [h]
  · rw [h]

variable (ha : Attentive cb)

include ha

theorem convert_next (s : RecvState σ) :
    convert cb m s = (.next, { s with env := (cb.nlmsgConvert s.env m).1, nrecv := s.nrecv + 1 }) := by
  unfold convert
  dsimp only
  rw [if_pos (ha.convert s.env m)]

/-- what comes before the check does not touch the counter -/
theorem shown_seq (s : RecvState σ) : (shown cb m s).2.sSeqExpect = s.sSeqExpect := by
  unfold shown
  rw [andThen_next _ (by rw [convert_next ha]), convert_next ha]
  unfold callOr
  cases cb.cbSet .msgIn with
  | none => rfl
  | some f => rfl

/-- the default check lets a message with the expected number pass -/
theorem checked (h : m.nlmsgSeq = s.sSeqExpect) : (seqCheck cb noAutoAck m (shown cb m s).2).1 = .next := by
  have hseq : m.nlmsgSeq = (shown cb m s).2.sSeqExpect := by rw [shown_seq ha, h]
  unfold seqCheck
  rw [ha.seqCheck]
  dsimp only
  by_cases hack : noAutoAck = true
  · rw [if_pos hack]
  · rw [if_neg hack, if_neg (not_not.2 hseq)]

/-- **A message that is let go on** with the expected number does not end the loop. -/
theorem lets_goesOn (hl : Lets cb m) (hseq : m.nlmsgSeq = s.sSeqExpect) : goesOn cb noAutoAck m s = true := by
  refine goesOn_of_mild noAutoAck ?_
  rw [handle_eq, checks_eq]
  have hshown : Mild (shown cb m s).1 := by
    unfold shown
    refine mild_andThen (Or.inl (by rw [convert_next ha])) fun _ => ?_
    unfold callOr
    cases hset : cb.cbSet .msgIn with
    | none => exact Or.inl rfl
    | some f =>
      rcases hl.msgIn f hset (convert cb m s).2.env with hok | hskip
      · exact Or.inl (nlCbCall_ok hok)
      · exact Or.inr (nlCbCall_skip hskip)
  refine mild_andThen (mild_andThen hshown fun _ => Or.inl (checked noAutoAck ha hseq)) fun _ => ?_
  exact mild_andThen (Or.inl rfl) fun _ => hl.served _

omit ha in
variable (cb s) in
/-- **A data message** leaves the counter as it is. -/
theorem data_keeps (hd : m.isData = true) : (handle cb noAutoAck m s).2.sSeqExpect = s.sSeqExpect := by
  have hend : m.ending = false := by simpa [Message.isData] using hd
  rw [(handle_spec cb noAutoAck m s).seq, hend, Bool.and_false]
  rfl

/-- **The end of an answer** is counted, whatever becomes of it then. -/
theorem end_counts (he : m.isEnd = true) (hseq : m.nlmsgSeq = s.sSeqExpect) :
    (handle cb noAutoAck m s).2.sSeqExpect = s.sSeqExpect + 1 := by
  have hend : m.ending = true := by
    unfold Message.ending
    rw [decide_eq_true_eq]
    rcases of_decide_eq_true he with h | h
    · exact Or.inl h
    · exact Or.inr (Or.inl h)
  have hshown : (shown cb m s).1 = .next := by
    unfold shown
    rw [andThen_next _ (by rw [convert_next ha])]
    unfold callOr
    cases hset : cb.cbSet .msgIn with
    | none => rfl
    | some f => exact nlCbCall_ok (ha.msgIn f hset _ m he)
  have hpass : passes cb noAutoAck m s = true := by
    refine decide_eq_true ?_
    rw [checks_eq, andThen_next _ hshown]
    exact checked noAutoAck ha hseq
  rw [(handle_spec cb noAutoAck m s).seq, hpass, hend]
  rfl

end

/-! ## The system -/

section

variable [HostOrder]

/-- messages that answer the requests `qs`, oldest first, and leave the requests `qs'` -/
inductive Answers : List (BitVec 32) → List Message → List (BitVec 32) → Prop
  | nil (qs : List (BitVec 32)) : Answers qs [] qs
  | data {q : BitVec 32} {qs qs' : List (BitVec 32)} {m : Message} {ms : List Message} :
      m.isData = true → m.nlmsgSeq = q → Answers (q :: qs) ms qs' → Answers (q :: qs) (m :: ms) qs'
  | ending {q : BitVec 32} {qs qs' : List (BitVec 32)} {m : Message} {ms : List Message} :
      m.isEnd = true → m.nlmsgSeq = q → Answers qs ms qs' → Answers (q :: qs) (m :: ms) qs'

/-- the callbacks let the loop go on behind every message but the last -/
def LetsAll (cb : NlCb σ) (ms : List Message) : Prop := ∀ pre m m' post, ms = pre ++ m :: m' :: post → Lets cb m

/-- what a datagram does -/
structure Delivers (cb : NlCb σ) (qs : List (BitVec 32)) (r : Received) (qs' : List (BitVec 32)) : Prop where
  answers : ∀ i, Answers qs (messagesOf i r) qs'
  lets : ∀ i, LetsAll cb (messagesOf i r)

structure Sys where
  sSeqNext : BitVec 32
  sSeqExpect : BitVec 32
  /-- numbers of the requests that are not answered completely, oldest first -/
  queue : List (BitVec 32)
  /-- datagrams on their way to the socket -/
  wire : List Received

/-- what can happen; the callbacks start a call of `recvmsgs` in any state of theirs -/
inductive Step (cb : NlCb σ) (sk : SockConf) : Sys → Sys → Prop
  /-- `nl_send_auto` succeeds, with a message that has no number yet -/
  | send (s : Sys) (msg : OutMsg) : msg.nlmsgSeq = NL_AUTO_SEQ →
      Step cb sk s { s with
        sSeqNext := (nlCompleteMsg sk s.sSeqNext msg).2
        queue := s.queue ++ [(nlCompleteMsg sk s.sSeqNext msg).1.nlmsgSeq] }
  /-- the kernel sends a datagram with parts of answers -/
  | answer (s : Sys) (r : Received) (queue : List (BitVec 32)) : Delivers cb s.queue r queue →
      Step cb sk s { s with queue := queue, wire := s.wire ++ [r] }
  /-- a call of `recvmsgs` that returns; `nl_recv` may fail when there is nothing left to read -/
  | recv (s : Sys) (env : σ) (fails : List Received) (fin : RecvState σ) (ret : ℤ) (calls : ℕ) :
      (∀ f ∈ fails, f.n.toInt ≤ 0) →
      recvmsgs cb sk.noAutoAck env s.sSeqExpect (s.wire ++ fails) = .returned fin ret calls →
      Step cb sk s { s with sSeqExpect := fin.sSeqExpect, wire := s.wire.drop calls }

/-- from a new socket, whose counters are both set to the time -/
inductive Reachable (cb : NlCb σ) (sk : SockConf) : Sys → Prop
  | new (time : BitVec 32) : Reachable cb sk ⟨time, time, [], []⟩
  | step {s s' : Sys} : Reachable cb sk s → Step cb sk s s' → Reachable cb sk s'

/-! ## The invariant -/

/-- the datagrams on the wire bring the answers to the requests `qs`, but for the requests `qs'` -/
def Wired (cb : NlCb σ) : List (BitVec 32) → List Received → List (BitVec 32) → Prop
  | qs, [], qs' => qs = qs'
  | qs, r :: rs, qs' => ∃ mid, Delivers cb qs r mid ∧ Wired cb mid rs qs'

/-- the numbers from `e` up to `e'`, one after the other -/
def Consecutive : BitVec 32 → List (BitVec 32) → BitVec 32 → Prop
  | e, [], e' => e = e'
  | e, q :: qs, e' => q = e ∧ Consecutive (e + 1) qs e'

/-- the requests whose end was not read have the numbers from the expected one up to the next one to give out -/
def Inv (cb : NlCb σ) (s : Sys) : Prop :=
  ∃ outstanding, Wired cb outstanding s.wire s.queue ∧ Consecutive s.sSeqExpect outstanding s.sSeqNext

theorem wired_snoc {cb : NlCb σ} {qs mid qs' : List (BitVec 32)} {rs : List Received} {r : Received}
    (h : Wired cb qs rs mid) (hr : Delivers cb mid r qs') : Wired cb qs (rs ++ [r]) qs' := by
  induction rs generalizing qs with
  | nil =>
    cases h
    exact ⟨qs', hr, rfl⟩
  | cons x rs ih =>
    obtain ⟨between, hx, hrs⟩ := h
    exact ⟨between, hx, ih hrs⟩

omit [HostOrder] in
theorem consecutive_snoc {e e' : BitVec 32} {qs : List (BitVec 32)} (h : Consecutive e qs e') :
    Consecutive e (qs ++ [e']) (e' + 1) := by
  induction qs generalizing e with
  | nil =>
    cases h
    exact ⟨rfl, rfl⟩
  | cons q qs ih => exact ⟨h.1, ih h.2⟩

omit [HostOrder] in
/-- more requests wait, and nothing else changes -/
theorem answers_append {qs qs' : List (BitVec 32)} {ms : List Message} (h : Answers qs ms qs') (more : List (BitVec 32)) :
    Answers (qs ++ more) ms (qs' ++ more) := by
  induction h with
  | nil qs => exact .nil _
  | data hd hseq _ ih => exact .data hd hseq ih
  | ending he hseq _ ih => exact .ending he hseq ih

theorem wired_append {cb : NlCb σ} {qs qs' : List (BitVec 32)} {rs : List Received} (h : Wired cb qs rs qs')
    (more : List (BitVec 32)) : Wired cb (qs ++ more) rs (qs' ++ more) := by
  induction rs generalizing qs with
  | nil =>
    cases h
    rfl
  | cons r rs ih =>
    obtain ⟨mid, hr, hrs⟩ := h
    exact ⟨mid ++ more, ⟨fun i => answers_append (hr.answers i) more, hr.lets⟩, ih hrs⟩

section

variable {cb : NlCb σ} (noAutoAck : Bool) (ha : Attentive cb)

include ha

omit [HostOrder] in
/-- **The messages of a datagram**: the counter stays in step with the requests they answer. -/
theorem answers_messages {qs qs' : List (BitVec 32)} {ms : List Message} (h : Answers qs ms qs') (hl : LetsAll cb ms)
    {s : RecvState σ} {next : BitVec 32} (hc : Consecutive s.sSeqExpect qs next) :
    Consecutive (after cb noAutoAck s ms).sSeqExpect qs' next ∧
      ∀ x ∈ trace cb noAutoAck s ms, x.1.nlmsgSeq = x.2.sSeqExpect := by
  induction h generalizing s with
  | nil qs => exact ⟨hc, fun x hx => absurd hx List.not_mem_nil⟩
  | @data q qs qs' m ms hd hseq hrest ih =>
    have hm : m.nlmsgSeq = s.sSeqExpect := hseq.trans hc.1
    have hkeeps := data_keeps cb s noAutoAck hd
    obtain ⟨hafter, htrace⟩ := ih (fun pre x y post heq => hl (m :: pre) x y post (by rw [heq]; rfl))
      (s := (handle cb noAutoAck m s).2) (by rw [hkeeps]; exact hc)
    rw [after, trace_cons]
    by_cases hgo : goesOn cb noAutoAck m s = true
    · rw [if_pos hgo, if_pos hgo, List.forall_mem_cons]
      exact ⟨hafter, hm, htrace⟩
    · -- only the last message can end the loop
      cases ms with
      | nil =>
        cases hrest
        rw [if_neg hgo, if_neg hgo, hkeeps, List.forall_mem_cons]
        exact ⟨hc, hm, fun x hx => absurd hx List.not_mem_nil⟩
      | cons y ms => exact absurd (lets_goesOn noAutoAck ha (hl [] m y ms rfl) hm) hgo
  | @ending q qs qs' m ms he hseq hrest ih =>
    have hm : m.nlmsgSeq = s.sSeqExpect := hseq.trans hc.1
    have hcounts := end_counts noAutoAck ha he hm
    obtain ⟨hafter, htrace⟩ := ih (fun pre x y post heq => hl (m :: pre) x y post (by rw [heq]; rfl))
      (s := (handle cb noAutoAck m s).2) (by rw [hcounts]; exact hc.2)
    rw [after, trace_cons]
    by_cases hgo : goesOn cb noAutoAck m s = true
    · rw [if_pos hgo, if_pos hgo, List.forall_mem_cons]
      exact ⟨hafter, hm, htrace⟩
    · cases ms with
      | nil =>
        cases hrest
        rw [if_neg hgo, if_neg hgo, hcounts, List.forall_mem_cons]
        exact ⟨hc.2, hm, fun x hx => absurd hx List.not_mem_nil⟩
      | cons y ms => exact absurd (lets_goesOn noAutoAck ha (hl [] m y ms rfl) hm) hgo

/-- **The datagrams that a call reads**, the first `k` of the wire: the counter stays in step. -/
theorem wired_taken {qs qs' : List (BitVec 32)} {rs : List Received} (hw : Wired cb qs rs qs') {s : RecvState σ}
    {next : BitVec 32} (hc : Consecutive s.sSeqExpect qs next) (i k : ℕ)
    (hgo : ∀ pre r post, rs = pre ++ r :: post → pre.length + 1 < k →
      through cb noAutoAck s (messagesFrom i (pre ++ [r])) = true) :
    ∃ left, Wired cb left (rs.drop k) qs' ∧
      Consecutive (after cb noAutoAck s (messagesFrom i (rs.take k))).sSeqExpect left next ∧
      ∀ x ∈ trace cb noAutoAck s (messagesFrom i (rs.take k)), x.1.nlmsgSeq = x.2.sSeqExpect := by
  induction rs generalizing i k s qs with
  | nil =>
    rw [List.take_nil, List.drop_nil]
    exact ⟨qs, hw, hc, fun x hx => absurd hx List.not_mem_nil⟩
  | cons r rs ih =>
    match k with
    | 0 => exact ⟨qs, hw, hc, fun x hx => absurd hx List.not_mem_nil⟩
    | 1 =>
      obtain ⟨mid, hr, hrs⟩ := hw
      obtain ⟨hdgram, htrace⟩ := answers_messages noAutoAck ha (hr.answers i) (hr.lets i) hc
      rw [List.take_succ_cons, List.take_zero, messagesFrom_single, List.drop_succ_cons, List.drop_zero]
      exact ⟨mid, hrs, hdgram, htrace⟩
    | k + 2 =>
      obtain ⟨mid, hr, hrs⟩ := hw
      obtain ⟨hdgram, htrace⟩ := answers_messages noAutoAck ha (hr.answers i) (hr.lets i) hc
      have hthrough : through cb noAutoAck s (messagesOf i r) = true := by
        rw [← messagesFrom_single]
        exact hgo [] r rs rfl (by simp)
      obtain ⟨left, hwired, hleft, hrest⟩ := ih hrs hdgram (i + 1) (k + 1) fun pre r' post heq hlt => by
        have hpre := hgo (r :: pre) r' post (by rw [heq]; rfl) (by simpa using hlt)
        rw [List.cons_append, messagesFrom, through_append, Bool.and_eq_true] at hpre
        exact hpre.2
      rw [List.take_succ_cons, List.drop_succ_cons, messagesFrom, after_append _ hthrough, trace_append _ hthrough]
      refine ⟨left, hwired, hleft, fun x hx => ?_⟩
      rcases List.mem_append.1 hx with hx | hx
      · exact htrace x hx
      · exact hrest x hx

end

/-- nothing comes from calls of `nl_recv` that fail -/
theorem messagesFrom_fails {fails : List Received} (h : ∀ f ∈ fails, f.n.toInt ≤ 0) (i : ℕ) :
    messagesFrom i fails = [] := by
  induction fails generalizing i with
  | nil => rfl
  | cons f fails ih =>
    rw [messagesFrom, messagesOf_nil (h f List.mem_cons_self), List.nil_append]
    exact ih (fun g hg => h g (List.mem_cons_of_mem f hg)) (i + 1)

theorem messagesFrom_append_fails {fails : List Received} (h : ∀ f ∈ fails, f.n.toInt ≤ 0) (i : ℕ) (rs : List Received) :
    messagesFrom i (rs ++ fails) = messagesFrom i rs := by
  induction rs generalizing i with
  | nil => exact messagesFrom_fails h i
  | cons r rs ih => rw [List.cons_append, messagesFrom, messagesFrom, ih]

theorem messagesFrom_take {fails : List Received} (h : ∀ f ∈ fails, f.n.toInt ≤ 0) (i k : ℕ) (rs : List Received) :
    messagesFrom i ((rs ++ fails).take k) = messagesFrom i (rs.take k) := by
  rw [List.take_append, messagesFrom_append_fails fun f hf => h f (List.mem_of_mem_take hf)]

/-- **A call of `recvmsgs`** in a state that is in step -/
theorem recvmsgs_wired {cb : NlCb σ} (ha : Attentive cb) (noAutoAck : Bool) {qs qs' : List (BitVec 32)}
    {wire fails : List Received} (hw : Wired cb qs wire qs') {e next : BitVec 32} (hc : Consecutive e qs next)
    (hfails : ∀ f ∈ fails, f.n.toInt ≤ 0) (env : σ) :
    ∃ fin k left, Ends cb noAutoAck 0 (start env e) (wire ++ fails) fin k ∧
      Wired cb left (wire.drop k) qs' ∧ Consecutive fin.sSeqExpect left next ∧
      ∀ x ∈ trace cb noAutoAck (start env e) (messagesFrom 0 ((wire ++ fails).take k)),
        x.1.nlmsgSeq = x.2.sSeqExpect := by
  obtain ⟨fin, k, hends⟩ := continueReading_spec cb noAutoAck 0 (start env e) (wire ++ fails)
  obtain ⟨left, htaken⟩ := wired_taken noAutoAck ha hw (s := start env e) hc 0 k fun pre r post heq hlt => by
    have hread := (hends.reads pre r (post ++ fails) (by rw [heq, List.append_assoc]; rfl)
      (Nat.lt_of_succ_lt hlt)).1 hlt
    exact ((Bool.and_eq_true _ _).mp hread.2).1
  rw [← messagesFrom_take hfails, ← hends.state] at htaken
  exact ⟨fin, k, left, hends, htaken⟩

/-- **One step** keeps the counters in step. -/
theorem step_inv {cb : NlCb σ} (ha : Attentive cb) {sk : SockConf} {s s' : Sys} (h : Inv cb s) (hstep : Step cb sk s s') :
    Inv cb s' := by
  obtain ⟨qs, hw, hc⟩ := h
  cases hstep with
  | send msg hauto =>
    refine ⟨qs ++ [s.sSeqNext], ?_, ?_⟩
    · unfold nlCompleteMsg
      dsimp only
      rw [if_pos hauto]
      exact wired_append hw _
    · unfold nlCompleteMsg
      dsimp only
      rw [if_pos hauto]
      exact consecutive_snoc hc
  | answer r queue hr => exact ⟨qs, wired_snoc hw hr, hc⟩
  | recv env fails fin ret calls hfails hret =>
    obtain ⟨fin', k, left, hends, hwired, hleft, -⟩ := recvmsgs_wired ha sk.noAutoAck hw hc hfails env
    have hres := hends.result
    rw [Nat.zero_add] at hres
    unfold recvmsgs at hret
    rw [hret] at hres
    rcases hres with ⟨ret', heq⟩ | heq
    · cases heq
      exact ⟨left, hwired, hleft⟩
    · cases heq

theorem reachable_inv {cb : NlCb σ} (ha : Attentive cb) {sk : SockConf} {s : Sys} (h : Reachable cb sk s) : Inv cb s := by
  induction h with
  | new time => exact ⟨[], rfl, rfl⟩
  | step _ hstep ih => exact step_inv ha ih hstep

/-- **Sequence numbers.** In every reachable state: a call of `recvmsgs`, on what is on its way, makes the default check for
messages that pass it; and the two counters are equal if no request is waiting for an answer and nothing is on its way. -/
theorem sequence_protocol {cb : NlCb σ} (ha : Attentive cb) {sk : SockConf} {s : Sys} (h : Reachable cb sk s) :
    (∀ env fails, (∀ f ∈ fails, f.n.toInt ≤ 0) → ∃ fin calls,
      ((∃ ret, recvmsgs cb sk.noAutoAck env s.sSeqExpect (s.wire ++ fails) = .returned fin ret calls) ∨
        recvmsgs cb sk.noAutoAck env s.sSeqExpect (s.wire ++ fails) = .waiting fin calls) ∧
      ∀ x ∈ trace cb sk.noAutoAck (start env s.sSeqExpect) (messagesFrom 0 ((s.wire ++ fails).take calls)),
        (seqCheck cb sk.noAutoAck x.1 (shown cb x.1 x.2).2).1 = .next) ∧
    (s.queue = [] → s.wire = [] → s.sSeqExpect = s.sSeqNext) := by
  obtain ⟨qs, hw, hc⟩ := reachable_inv ha h
  constructor
  · intro env fails hfails
    obtain ⟨fin, k, left, hends, -, -, htrace⟩ := recvmsgs_wired ha sk.noAutoAck hw hc hfails env
    have hres := hends.result
    rw [Nat.zero_add] at hres
    exact ⟨fin, k, hres, fun x hx => checked sk.noAutoAck ha (htrace x hx)⟩
  · intro hq hwire
    rw [hq, hwire] at hw
    cases hw
    exact hc

end

/-! ## Samples -/

local instance : HostOrder := ⟨false⟩

/-- a message with room for a `struct nlmsgerr`; every byte of the error is `error` -/
def sampleMsg (type flags seq error : UInt8) : List UInt8 :=
  [36, 0, 0, 0, type, 0, flags, 0, seq, 0, 0, 0, 0, 0, 0, 0] ++ List.replicate 4 error ++ List.replicate 16 0

def sampleDatagram (ms : List (List UInt8)) : Received :=
  ⟨Int32.ofNat ms.flatten.length, write (fun _ => 0) 0 ms.flatten⟩

/-- no callback but perhaps one for valid messages, with this verdict -/
def sampleCb (valid : Option ℤ) : NlCb Unit where
  cbSet type := if type = .valid then valid.map fun verdict _ _ => ((), verdict) else none
  cbErr := none
  nlmsgConvert _ _ := ((), true)

def sampleSock : SockConf := ⟨77, 0, false⟩

theorem sampleCb_attentive (valid : Option ℤ) : Attentive (sampleCb valid) :=
  ⟨fun _ _ => rfl, rfl, fun f hf => absurd hf (by simp [sampleCb])⟩

/-- what stands in a datagram with an acknowledgement -/
theorem messagesOf_ack (i : ℕ) :
    messagesOf i (sampleDatagram [sampleMsg 2 0 100 0]) = [⟨i, 0, 36, 2, 0, 100, 0⟩] := by
  have hwalk : visits (nlmsgOk (sampleDatagram [sampleMsg 2 0 100 0]).buf)
      (nlmsgNext (sampleDatagram [sampleMsg 2 0 100 0]).buf) 37 0 36 = some [0] := by decide
  have hn : (sampleDatagram [sampleMsg 2 0 100 0]).n.toInt = 36 := by decide
  unfold messagesOf
  rw [hn, if_neg (by decide)]
  rw [show (36 : ℤ).toNat + 1 = 37 from rfl, hwalk]
  refine congrArg (fun m => [m]) ?_
  unfold msgAt
  rw [Message.mk.injEq]
  exact ⟨rfl, rfl, by decide, by decide, by decide, by decide, by decide⟩

/-- a request is sent and acknowledged -/
theorem sequence_protocol_sample :
    Reachable (sampleCb none) sampleSock ⟨101, 100, [], [sampleDatagram [sampleMsg 2 0 100 0]]⟩ ∧
      (∃ fin, recvmsgs (sampleCb none) false () 100 [sampleDatagram [sampleMsg 2 0 100 0]] = .returned fin 1 1 ∧
        fin.sSeqExpect = 101) ∧
      ∀ x ∈ trace (sampleCb none) false (start () 100) (messagesFrom 0 [sampleDatagram [sampleMsg 2 0 100 0]]),
        (seqCheck (sampleCb none) false x.1 (shown (sampleCb none) x.1 x.2).2).1 = .next := by
  have hreach : Reachable (sampleCb none) sampleSock
      ⟨101, 100, [], [sampleDatagram [sampleMsg 2 0 100 0]]⟩ := by
    refine .step (.step (.new 100) (.send _ ⟨0, 0, 0, -1⟩ rfl)) (.answer _ (sampleDatagram [sampleMsg 2 0 100 0]) [] ?_)
    refine ⟨fun i => ?_, fun i pre m m' post heq => ?_⟩
    · rw [messagesOf_ack]
      exact .ending rfl rfl (.nil [])
    · rw [messagesOf_ack] at heq
      have hlen := congrArg List.length heq
      simp only [List.length_append, List.length_cons, List.length_nil] at hlen
      omega
  obtain ⟨hcheck, -⟩ := sequence_protocol (sampleCb_attentive none) hreach
  obtain ⟨fin, calls, hres, htrace⟩ := hcheck () [] (fun f hf => absurd hf List.not_mem_nil)
  have hcall : ∃ fin, recvmsgs (sampleCb none) false () 100 [sampleDatagram [sampleMsg 2 0 100 0]] =
      .returned fin 1 1 ∧ fin.sSeqExpect = 101 := ⟨_, rfl, rfl⟩
  refine ⟨hreach, hcall, ?_⟩
  obtain ⟨fin', heq, -⟩ := hcall
  rcases hres with ⟨ret, hret⟩ | hwait
  · have hone : calls = 1 := by
      have := hret.symm.trans heq
      cases this
      rfl
    subst hone
    exact htrace
  · cases hwait.symm.trans heq

/-- **Out of step.** A request that has a number of its own is sent with it and answered by a mismatch. A callback that
stops leaves the counter behind, and so does an error in front of another answer. -/
theorem sequence_broken :
    ((nlCompleteMsg sampleSock 100 ⟨0, 5, 0, -1⟩).1.nlmsgSeq = 5 ∧
      ∃ fin, recvmsgs (sampleCb none) false () 100 [sampleDatagram [sampleMsg 2 0 5 0]] =
        .returned fin (-NLE_SEQ_MISMATCH) 1) ∧
    (∃ fin, recvmsgs (sampleCb (some NL_STOP)) false () 100
        [sampleDatagram [sampleMsg 16 2 100 0, sampleMsg 3 2 100 0]] = .returned fin 1 1 ∧ fin.sSeqExpect = 100) ∧
    (∃ fin, recvmsgs (sampleCb none) false () 100
        [sampleDatagram [sampleMsg 2 0 100 255, sampleMsg 2 0 101 0]] = .returned fin (-NLE_PERM) 1 ∧
      fin.sSeqExpect = 101) :=
  ⟨⟨rfl, _, rfl⟩, ⟨_, rfl, rfl⟩, ⟨_, rfl, rfl⟩⟩

end Libnl.Recv
