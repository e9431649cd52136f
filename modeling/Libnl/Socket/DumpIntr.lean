/-
Dumps that were interrupted (`NLM_F_DUMP_INTR` in `recvmsgs`).

Without a handler the flag is remembered in a variable of the call, reading goes on to clear the rest of the dump, and the
inconsistency is reported behind the label `out`. A read that returns nothing or fails returns from the middle of the
function, and the flag is forgotten.

- `handle_interrupted`: what one message does to the variable.
- `reading_ends`: the call reports the flag, or ends with a read that brought nothing.
- `dump_intr_reported_iff`: it is reported just if no such read is made behind a message that carried it.
- `dump_intr_lost`: a dump that is cut short.
-/
import Mathlib.Tactic
import Libnl.Socket.Sequence

namespace Libnl.Recv

open Bytes Walk Msg Stage

variable {σ : Type}

/-! ## One message -/

/-- a stage that leaves the variable alone -/
def Quiet (f : Stage σ) : Prop := ∀ s, (f s).2.interrupted = s.interrupted

section

variable (cb : NlCb σ) (noAutoAck : Bool) (m : Message)

theorem quiet_goto (flow : Flow) : Quiet (goto flow : Stage σ) := fun _ => rfl

theorem Quiet.andThen {f g : Stage σ} (hf : Quiet f) (hg : Quiet g) : Quiet (f.andThen g) := by
  intro s
  by_cases h : (f s).1 = .next
  · rw [andThen_next g h, hg, hf]
  · rw [andThen_other g h, hf]

theorem quiet_callOr (type : CbType) {dflt : Stage σ} (hd : Quiet dflt) : Quiet (callOr cb m type dflt) := by
  unfold callOr
  cases cb.cbSet type with
  | some f => exact fun _ => rfl
  | none => exact hd

theorem quiet_checks : Quiet (checks cb noAutoAck m) := by
  have hconvert : Quiet (convert cb m) := by
    intro s
    unfold convert
    dsimp only
    split_ifs
    · rfl
    · rfl
  have hseq : Quiet (seqCheck cb noAutoAck m) := by
    unfold seqCheck
    cases cb.cbSet .seqCheck with
    | some f => exact fun _ => rfl
    | none =>
      intro s
      dsimp only
      split_ifs
      · rfl
      · exact quiet_callOr cb m .invalid (quiet_goto _) s
      · rfl
  exact hconvert.andThen ((quiet_callOr cb m .msgIn (quiet_goto _)).andThen hseq)

theorem quiet_sendAck : Quiet (sendAck cb m) := by
  unfold sendAck
  split_ifs
  · exact quiet_callOr cb m .sendAck (quiet_goto _)
  · exact quiet_goto _

theorem quiet_dispatch : Quiet (dispatch cb m) := by
  unfold dispatch
  split_ifs
  · exact fun s => quiet_callOr cb m .finish (quiet_goto .next) { s with multipart := false }
  · exact quiet_callOr cb m .skipped (quiet_goto _)
  · exact quiet_callOr cb m .overrun (quiet_goto _)
  · exact quiet_callOr cb m .invalid (quiet_goto _)
  · unfold kernelError
    cases cb.cbErr with
    | none => exact quiet_goto _
    | some f => exact fun _ => rfl
  · exact quiet_callOr cb m .ack (quiet_goto _)
  · exact quiet_callOr cb m .valid (quiet_goto _)

/-- the message is looked at, past its checks, and carries the flag -/
def carries (s : RecvState σ) : Bool := passes cb noAutoAck m s && m.has NLM_F_DUMP_INTR

variable {cb}

theorem dumpIntr_interrupted (hintr : cb.cbSet .dumpIntr = none) (s : RecvState σ) :
    (dumpIntr cb m s).1 = .next ∧ (dumpIntr cb m s).2.interrupted = (s.interrupted || m.has NLM_F_DUMP_INTR) := by
  unfold dumpIntr callOr
  rw [hintr]
  cases m.has NLM_F_DUMP_INTR with
  | true => exact ⟨rfl, (Bool.or_true _).symm⟩
  | false => exact ⟨rfl, (Bool.or_false _).symm⟩

/-- **One message** -/
theorem handle_interrupted (hintr : cb.cbSet .dumpIntr = none) (s : RecvState σ) :
    (handle cb noAutoAck m s).2.interrupted = (s.interrupted || carries cb noAutoAck m s) := by
  have hchecks := quiet_checks cb noAutoAck m s
  unfold carries
  cases hp : passes cb noAutoAck m s with
  | false =>
    have hstop : (checks cb noAutoAck m s).1 ≠ .next := of_decide_eq_false hp
    rw [handle_eq, andThen_other _ hstop, hchecks, Bool.false_and, Bool.or_false]
  | true =>
    have hnext : (checks cb noAutoAck m s).1 = .next := of_decide_eq_true hp
    obtain ⟨hflow, hset⟩ := dumpIntr_interrupted m hintr (advance m (checks cb noAutoAck m s).2).2
    have hrest := ((quiet_sendAck cb m).andThen (quiet_dispatch cb m)) (dumpIntr cb m (advance m (checks cb noAutoAck m s).2).2).2
    rw [handle_eq, andThen_next _ hnext, andThen_next _ rfl, served, ← andThen_assoc, andThen_next _ hflow, hrest, hset,
      Bool.true_and, ← hchecks]
    rfl

/-- **Many messages** -/
theorem after_interrupted (hintr : cb.cbSet .dumpIntr = none) (s : RecvState σ) (ms : List Message) :
    (after cb noAutoAck s ms).interrupted =
      (s.interrupted || (trace cb noAutoAck s ms).any fun x => carries cb noAutoAck x.1 x.2) := by
  induction ms generalizing s with
  | nil => exact (Bool.or_false _).symm
  | cons m ms ih =>
    have hone := handle_interrupted noAutoAck m hintr s
    rw [after, trace_cons, List.any_cons]
    cases hgo : goesOn cb noAutoAck m s with
    | true => rw [if_pos rfl, if_pos rfl, ih, hone, Bool.or_assoc]
    | false => rw [if_neg Bool.false_ne_true, if_neg Bool.false_ne_true, hone, List.any_nil, Bool.or_false]

end

/-! ## Reading -/

section

variable [HostOrder] (cb : NlCb σ) (noAutoAck : Bool)

/-- each of these reads brings a datagram and is followed by another read -/
def ReadsAll : ℕ → RecvState σ → List Received → Prop
  | _, _, [] => True
  | i, s, r :: rs => 0 < r.n.toInt ∧ readsOn cb noAutoAck s (messagesOf i r) = true ∧
      ReadsAll (i + 1) (after cb noAutoAck s (messagesOf i r)) rs

variable {cb noAutoAck}

theorem reads_all {i : ℕ} {s : RecvState σ} {pre : List Received} (h : ReadsAll cb noAutoAck i s pre)
    (rs : List Received) : continueReading cb noAutoAck i s (pre ++ rs) =
      continueReading cb noAutoAck (i + pre.length) (after cb noAutoAck s (messagesFrom i pre)) rs := by
  induction pre generalizing i s with
  | nil => rfl
  | cons r pre ih =>
    obtain ⟨hn, hon, hrest⟩ := h
    have hthrough : through cb noAutoAck s (messagesOf i r) = true := ((Bool.and_eq_true _ _).mp hon).1
    rw [List.cons_append, continueReading_on (not_le.2 hn) hon, ih hrest, messagesFrom, after_append _ hthrough,
      List.length_cons, Nat.add_right_comm, Nat.add_assoc]

/-- **How the reading ends**: what is returned goes through the label `out`, or comes from a read that brought nothing -/
theorem reading_ends {i : ℕ} {s fin : RecvState σ} {rs : List Received} {ret : ℤ} {calls : ℕ}
    (h : continueReading cb noAutoAck i s rs = .returned fin ret calls) :
    (∃ err, ret = finish fin err) ∨ ∃ pre r post, rs = pre ++ r :: post ∧ ReadsAll cb noAutoAck i s pre ∧
      r.n.toInt ≤ 0 ∧ ret = r.n.toInt ∧ fin = after cb noAutoAck s (messagesFrom i pre) := by
  induction rs generalizing i s with
  | nil => cases h
  | cons r rs ih =>
    by_cases hn : r.n.toInt ≤ 0
    · rw [continueReading, if_pos hn] at h
      cases h
      exact Or.inr ⟨[], r, rs, rfl, trivial, hn, rfl, rfl⟩
    · cases hon : readsOn cb noAutoAck s (messagesOf i r) with
      | false =>
        obtain ⟨err, herr⟩ := continueReading_ends hn hon rs
        rw [herr] at h
        cases h
        exact Or.inl ⟨err, rfl⟩
      | true =>
        rw [continueReading_on hn hon] at h
        have hthrough : through cb noAutoAck s (messagesOf i r) = true := ((Bool.and_eq_true _ _).mp hon).1
        rcases ih h with herr | ⟨pre, r', post, heq, hreads, hn', hret, hfin⟩
        · exact Or.inl herr
        · refine Or.inr ⟨r :: pre, r', post, by rw [heq]; rfl, ⟨not_le.1 hn, hon, hreads⟩, hn', hret, ?_⟩
          rw [messagesFrom, after_append _ hthrough]
          exact hfin

/-- some message among those that are handled carries the flag -/
def Interrupts (cb : NlCb σ) (noAutoAck : Bool) (s : RecvState σ) (ms : List Message) : Prop :=
  (trace cb noAutoAck s ms).any (fun x => carries cb noAutoAck x.1 x.2) = true

/-- if a message carried the flag, the call reports it -/
def Reported (cb : NlCb σ) (noAutoAck : Bool) (env : σ) (sSeqExpect : BitVec 32) (rs : List Received) : Prop :=
  ∀ fin ret calls, recvmsgs cb noAutoAck env sSeqExpect rs = .returned fin ret calls →
    Interrupts cb noAutoAck (start env sSeqExpect) (messagesFrom 0 (rs.take calls)) → ret = -NLE_DUMP_INTR

/-- behind a message that carried the flag, a read is made that brings nothing, or an error other than the report itself -/
def CutShort (cb : NlCb σ) (noAutoAck : Bool) (env : σ) (sSeqExpect : BitVec 32) (rs : List Received) : Prop :=
  ∃ pre r post, rs = pre ++ r :: post ∧ ReadsAll cb noAutoAck 0 (start env sSeqExpect) pre ∧
    Interrupts cb noAutoAck (start env sSeqExpect) (messagesFrom 0 pre) ∧ r.n.toInt ≤ 0 ∧ r.n.toInt ≠ -NLE_DUMP_INTR

omit [HostOrder] in
/-- the variable at the end of a call -/
theorem interrupted_iff (hintr : cb.cbSet .dumpIntr = none) (env : σ) (sSeqExpect : BitVec 32) (ms : List Message) :
    (after cb noAutoAck (start env sSeqExpect) ms).interrupted = true ↔
      Interrupts cb noAutoAck (start env sSeqExpect) ms := by
  rw [after_interrupted noAutoAck hintr]
  exact Iff.of_eq (congrArg (· = true) (Bool.false_or _))

/-- the state in which a call returns is the one after the messages of the datagrams that were read -/
theorem returned_state {env : σ} {sSeqExpect : BitVec 32} {rs : List Received} {fin : RecvState σ} {ret : ℤ} {calls : ℕ}
    (h : recvmsgs cb noAutoAck env sSeqExpect rs = .returned fin ret calls) :
    fin = after cb noAutoAck (start env sSeqExpect) (messagesFrom 0 (rs.take calls)) := by
  obtain ⟨fin', k, hends⟩ := continueReading_spec cb noAutoAck 0 (start env sSeqExpect) rs
  have hres := hends.result
  rw [Nat.zero_add] at hres
  unfold recvmsgs at h
  rw [h] at hres
  rcases hres with ⟨ret', heq⟩ | heq
  · cases heq
    exact hends.state
  · cases heq

/-- **Interrupted dumps.** For everything `nl_recv` may return and all callbacks without a handler for the flag: the call
reports a flag that a message carried, if and only if no read behind that message brings nothing. -/
theorem dump_intr_reported_iff (hintr : cb.cbSet .dumpIntr = none) (env : σ) (sSeqExpect : BitVec 32)
    (rs : List Received) :
    Reported cb noAutoAck env sSeqExpect rs ↔ ¬ CutShort cb noAutoAck env sSeqExpect rs := by
  constructor
  · rintro hreported ⟨pre, r, post, rfl, hreads, hcarries, hn, hother⟩
    -- the call returns what the read returned
    have hret : recvmsgs cb noAutoAck env sSeqExpect (pre ++ r :: post) =
        .returned (after cb noAutoAck (start env sSeqExpect) (messagesFrom 0 pre)) r.n.toInt (pre.length + 1) := by
      rw [recvmsgs, reads_all hreads, continueReading, if_pos hn, Nat.zero_add]
    have htake : messagesFrom 0 ((pre ++ r :: post).take (pre.length + 1)) = messagesFrom 0 pre := by
      have hsplit : (pre ++ r :: post).take (pre.length + 1) = pre ++ [r] := by simp [List.take_append]
      rw [hsplit]
      exact messagesFrom_append_fails (fun f hf => (List.mem_singleton.1 hf) ▸ hn) 0 pre
    exact hother (hreported _ _ _ hret (htake.symm ▸ hcarries))
  · intro hcut fin ret calls hret hcarries
    have hfin := returned_state hret
    have hset : fin.interrupted = true := by
      rw [hfin]
      exact (interrupted_iff hintr env sSeqExpect _).2 hcarries
    rcases reading_ends hret with ⟨err, herr⟩ | ⟨pre, r, post, heq, hreads, hn, hr, hstate⟩
    · rw [herr, finish, hset]
      rfl
    · by_contra hother
      refine hcut ⟨pre, r, post, heq, hreads, ?_, hn, hr ▸ hother⟩
      rw [hstate] at hset
      exact (interrupted_iff hintr env sSeqExpect _).1 hset

end

/-! ## Samples -/

/-- little endian, for runs on given inputs -/
local instance dumpOrder : HostOrder := ⟨false⟩

/-- a part of a dump that was interrupted, and the end of the dump -/
def sampleDump : List Received :=
  [sampleDatagram [sampleMsg 16 0x12 100 0], sampleDatagram [sampleMsg 3 2 100 0]]

/-- a read that brings nothing -/
def sampleNothing : Received := ⟨0, fun _ => 0⟩

/-- a dump that was interrupted and is read to its end -/
theorem dump_intr_reported_sample : Reported (sampleCb none) false () 100 sampleDump := by
  refine (dump_intr_reported_iff rfl () 100 sampleDump).2 ?_
  rintro ⟨pre, r, post, heq, -, -, hn, -⟩
  have hr : r ∈ sampleDump := by
    rw [heq]
    exact List.mem_append_right pre List.mem_cons_self
  rcases List.mem_cons.1 hr with rfl | hr
  · exact absurd hn (by decide)
  · rw [List.mem_singleton.1 hr] at hn
    exact absurd hn (by decide)

/-- **A dump that is cut short.** Behind a part of a dump that was interrupted nothing is left to read: the call reports
success. -/
theorem dump_intr_lost : ∃ fin, recvmsgs (sampleCb none) false () 100
    [sampleDatagram [sampleMsg 16 0x12 100 0], sampleNothing] = .returned fin 0 2 ∧ fin.interrupted = true :=
  ⟨_, rfl, rfl⟩

end Libnl.Recv
