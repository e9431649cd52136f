/-
Notifications of a cache manager (`event_input`, `include_cb` and `nl_cache_mngr_data_ready` in `lib/cache_mngr.c`, with
`nl_cache_parse` of `lib/cache.c`).

The manager receives messages until there are none left. A message goes to the first association whose cache lists its type;
the cache's parser makes an object of it, which is included. What a parser reads is the datagram and where the message stands
in it (`EventOps`); what it makes is any object of the type of the cache, with the type of the message.

- `arrivals`: the messages of datagrams. `told`: the object that a cache is told of by a message.
- `data_ready_followed`: for everything that `nl_recv` may return, each cache is the fold of what it was told by the messages
  that were handled; these are the messages of the datagrams that were read, up to the first that fails.
-/
import Mathlib.Tactic
import Libnl.Cache.Frame
import Libnl.Cache.Tracking
import Libnl.Socket.CacheMngrAdd
import Libnl.Socket.Recvmsgs

namespace Libnl.Events

open Bytes Msg Object Cache Recv
open CacheMngr (NlCacheMngr NlCacheAssoc)

variable {α : Type}

/-! ## A message -/

/-- what a manager uses of `struct nl_cache_ops`, apart from the list of message types -/
structure EventOps (α : Type) where
  coHdrsize : ℕ
  /-- the object of a message that stands in the datagram, or the error -/
  coMsgParser : Mem → ℕ → Except ℤ (ObjVal α)
  coEventFilter : Option (Store α → CacheId → ObjId → ℤ)
  coIncludeEvent : Option (Store α → CacheId → ObjId → ChangeCb → Store α × ℤ)

section

variable (ops : ℕ → ObjectOps α) (mngr : NlCacheMngr) (ev : CacheId → EventOps α)

/-- the callback of an association, by version -/
def changeOf (ca : NlCacheAssoc) : ChangeCb :=
  if ca.caChangeV2.isSome then .v2 else if ca.caChange.isSome then .v1 else .none

/-- `include_cb` -/
def includeCb (ca : NlCacheAssoc) (c : CacheId) (w : Store α) (o : ObjId) : Store α × ℤ :=
  if (ev c).coEventFilter.any (fun filter => decide (filter w c o ≠ Recv.NL_OK)) then (w, 0)
  else
    match (ev c).coIncludeEvent with
    | some include_event => include_event w c o (changeOf ca)
    | none => nlCacheInclude ops w c o (changeOf ca) ⟨true, true⟩

/-- the loop of `nl_cache_parse` over the list of message types -/
def parseTypes (type : ℕ) (parser : Store α → Store α × ℤ) : List MsgType → Store α → Store α × ℤ
  | [], w => (w, -NLE_MSGTYPE_NOSUPPORT)
  | t :: ts, w =>
    if t.mtId = type then
      if (parser w).2 ≠ -NLE_OPNOTSUPP then parser w else parseTypes type parser ts (parser w).1
    else parseTypes type parser ts w

/-- a message parser, with what is done to its object -/
def runParser (e : EventOps α) (buf : Mem) (pos : ℕ) (ppCb : Store α → ObjId → Store α × ℤ) (w : Store α) : Store α × ℤ :=
  match e.coMsgParser buf pos with
  | .error err => (w, err)
  | .ok v => msgParser w v ppCb

/-- `nlmsg_valid_hdr` -/
def validHdr (m : Message) (hdrlen : ℕ) : Bool := decide (toU32 (16 + hdrlen) ≤ m.nlmsgLen)

def nlCacheParse (e : EventOps α) (cops : CacheOps) (buf : Mem) (m : Message) (ppCb : Store α → ObjId → Store α × ℤ)
    (w : Store α) : Store α × ℤ :=
  if validHdr m e.coHdrsize then parseTypes m.nlmsgType (runParser e buf m.pos ppCb) cops.coMsgtypes w
  else (w, -NLE_MSG_TOOSHORT)

/-- the message type is listed -/
def lists (cops : CacheOps) (type : ℕ) : Bool := cops.coMsgtypes.any fun t => decide (t.mtId = type)

/-- the first association whose cache lists the type, with that cache -/
def assocFor (cops : CacheId → CacheOps) (type : ℕ) : List NlCacheAssoc → Option (NlCacheAssoc × CacheId)
  | [] => none
  | ca :: cas =>
    match ca.caCache with
    | some c => if lists (cops c) type then some (ca, c) else assocFor cops type cas
    | none => assocFor cops type cas

/-- the associations of the manager -/
def assocs : List NlCacheAssoc := (mngr.cmAssocs.getD []).take mngr.cmNassocs

/-- `event_input` of a message in a datagram; `proto` is the protocol of the socket -/
def eventInput (proto : ℤ) (buf : Mem) (w : Store α) (m : Message) : Store α × ℤ :=
  let w := if mngr.cmProtocol ≠ proto then { w with bug := true } else w
  match assocFor w.cops m.nlmsgType (assocs mngr) with
  | none => (w, Recv.NL_SKIP)
  | some (ca, c) => nlCacheParse (ev c) (w.caches c).cOps buf m (includeCb ops ev ca c) w

/-! ## Receiving -/

/-- what the `i`-th call of `nl_recv` gave -/
def bufOf (rs : List Received) (i : ℕ) : Mem := (rs[i]?).elim (fun _ => 0) Received.buf

/-- the callbacks of the socket: sequence numbers are not checked, and valid messages go to `event_input` -/
def mngrCb (proto : ℤ) (rs : List Received) : NlCb (Store α) where
  cbSet
    | .valid => some fun w m => eventInput ops mngr ev proto (bufOf rs m.dgram) w m
    | .seqCheck => some fun w _ => (w, Recv.NL_OK)
    | _ => none
  cbErr := none
  nlmsgConvert w _ := (w, true)

/-- how `nl_cache_mngr_data_ready` ends, with how many datagrams were read -/
inductive Ready (α : Type) where
  | returned (w : Store α) (sSeqExpect : BitVec 32) (ret : ℤ) (read : ℕ)
  /-- `nl_recv` does not return -/
  | waiting (w : Store α) (read : ℕ)
  | looping

variable [HostOrder]

/-- the loop of `nl_cache_mngr_data_ready`; each round reads a datagram at least -/
def readyLoop (noAutoAck : Bool) (proto : ℤ) : ℕ → Store α → BitVec 32 → List Received → ℤ → ℕ → Ready α
  | 0, _, _, _, _, _ => .looping
  | n + 1, w, seq, rs, nread, k =>
    match recvmsgs (mngrCb ops mngr ev proto rs) noAutoAck w seq rs with
    | .looping => .looping
    | .waiting s calls => .waiting s.env (k + calls)
    | .returned s err calls =>
      if 0 < err then readyLoop noAutoAck proto n s.env s.sSeqExpect (rs.drop calls) (nread + err) (k + calls)
      else if err < 0 ∧ err ≠ -NLE_AGAIN then .returned s.env s.sSeqExpect err (k + calls)
      else .returned s.env s.sSeqExpect nread (k + calls)

/-- `nl_cache_mngr_data_ready` -/
def nlCacheMngrDataReady (noAutoAck : Bool) (proto : ℤ) (w : Store α) (seq : BitVec 32) (rs : List Received) : Ready α :=
  readyLoop ops mngr ev noAutoAck proto (rs.length + 1) w seq rs 0 0

end

/-! ## What a cache is told -/

/-- a message, and the datagram it stands in -/
abbrev Arrival := Mem × Message

section

variable (mngr : NlCacheMngr) (ev : CacheId → EventOps α) (cops : CacheId → CacheOps)

/-- what the manager makes of a message: the object for a cache, if there is one, or what it returns -/
def outcome (a : Arrival) : Except ℤ (NlCacheAssoc × CacheId × ObjVal α) :=
  match assocFor cops a.2.nlmsgType (assocs mngr) with
  | none => .error Recv.NL_SKIP
  | some (ca, c) =>
    if validHdr a.2 (ev c).coHdrsize then
      match (ev c).coMsgParser a.1 a.2.pos with
      | .ok v => .ok (ca, c, v)
      | .error err => .error (if err = -NLE_OPNOTSUPP then -NLE_MSGTYPE_NOSUPPORT else err)
    else .error (-NLE_MSG_TOOSHORT)

/-- what `event_input` returns -/
def answer (a : Arrival) : ℤ :=
  match outcome mngr ev cops a with
  | .ok _ => 0
  | .error err => err

/-- the object that a cache is told of by an event: one that adds or removes something -/
def toldEvent (a : Arrival) (c : CacheId) : List (ObjVal α) :=
  match outcome mngr ev cops a with
  | .ok (_, d, v) => if d = c ∧ (actOf (cops c) v = .new ∨ actOf (cops c) v = .del) then [v] else []
  | .error _ => []

/-- and by a message of any type -/
def told (a : Arrival) (c : CacheId) : List (ObjVal α) := if a.2.ending then [] else toldEvent mngr ev cops a c

/-- a message behind which nothing is handled any more in its datagram -/
def Fails (a : Arrival) : Prop :=
  a.2.nlmsgType = NLMSG_OVERRUN ∨ (a.2.nlmsgType = NLMSG_ERROR ∧ (a.2.nlmsgLen < NLMSGERR_SIZE ∨ a.2.error ≠ 0)) ∨
    (a.2.ending = false ∧ answer mngr ev cops a ≠ Recv.NL_OK ∧ answer mngr ev cops a ≠ Recv.NL_SKIP)

instance (a : Arrival) : Decidable (Fails mngr ev cops a) := inferInstanceAs (Decidable (_ ∨ _))

/-- messages up to the first that fails -/
def handled : List Arrival → List Arrival
  | [] => []
  | a :: as => a :: if Fails mngr ev cops a then [] else handled as

end

/-- the messages of datagrams -/
def arrivals [HostOrder] (rs : List Received) : List Arrival := rs.flatMap fun r => (messagesOf 0 r).map fun m => (r.buf, m)

/-! ## One message -/

section

variable {ops : ℕ → ObjectOps α} {good : ObjVal α → Prop} {mngr : NlCacheMngr} {ev : CacheId → EventOps α} {w w' : Store α}
  {held : ObjId → ℕ}

theorem assocFor_lists {cops : CacheId → CacheOps} {type : ℕ} {cas : List NlCacheAssoc} {ca : NlCacheAssoc} {c : CacheId}
    (h : assocFor cops type cas = some (ca, c)) : lists (cops c) type = true := by
  induction cas with
  | nil => cases h
  | cons ca' cas ih =>
    unfold assocFor at h
    cases hc : ca'.caCache with
    | none =>
      rw [hc] at h
      exact ih h
    | some d =>
      rw [hc] at h
      dsimp only at h
      split_ifs at h with hl
      · cases h
        exact hl
      · exact ih h

theorem parseTypes_ok {type : ℕ} {parser : Store α → Store α × ℤ} {ts : List MsgType} (hl : ts.any (fun t => decide (t.mtId = type)) = true)
    (h : (parser w).2 = 0) : parseTypes type parser ts w = parser w := by
  induction ts with
  | nil => cases hl
  | cons t ts ih =>
    unfold parseTypes
    by_cases ht : t.mtId = type
    · rw [if_pos ht, if_pos]
      rw [h]
      decide
    · rw [if_neg ht]
      exact ih (by simpa [ht] using hl)

theorem parseTypes_error {type : ℕ} {parser : Store α → Store α × ℤ} {ts : List MsgType} (hl : ts.any (fun t => decide (t.mtId = type)) = true)
    {err : ℤ} (h : parser w = (w, err)) :
    parseTypes type parser ts w = (w, if err = -NLE_OPNOTSUPP then -NLE_MSGTYPE_NOSUPPORT else err) := by
  by_cases herr : err = -NLE_OPNOTSUPP
  · -- the other entries are tried, and the message is not supported in the end
    have hall : ∀ ts : List MsgType, parseTypes type parser ts w = (w, -NLE_MSGTYPE_NOSUPPORT) := by
      intro ts
      induction ts with
      | nil => rfl
      | cons t ts ih =>
        unfold parseTypes
        rw [h, if_neg (not_not.2 herr), ih]
        split_ifs
        · rfl
        · rfl
    rw [if_pos herr, hall]
  · rw [if_neg herr]
    induction ts with
    | nil => cases hl
    | cons t ts ih =>
      unfold parseTypes
      by_cases ht : t.mtId = type
      · rw [if_pos ht, h, if_pos herr]
      · rw [if_neg ht]
        exact ih (by simpa [ht] using hl)

/-- the caches are of the types they were of -/
structure SameTypes (w w' : Store α) : Prop where
  cOps : ∀ c, (w'.caches c).cOps = (w.caches c).cOps
  hashed : ∀ c, (w'.caches c).hashtable.isSome = (w.caches c).hashtable.isSome

theorem SameTypes.cops (h : SameTypes w w') : w'.cops = w.cops := funext h.cOps

theorem SameTypes.refl (w : Store α) : SameTypes w w := ⟨fun _ => rfl, fun _ => rfl⟩

theorem SameTypes.trans {w'' : Store α} (h : SameTypes w w') (h' : SameTypes w' w'') : SameTypes w w'' :=
  ⟨fun c => (h'.cOps c).trans (h.cOps c), fun c => (h'.hashed c).trans (h.hashed c)⟩

/-- the store went on in order, and each cache included these objects -/
structure Included (ops : ℕ → ObjectOps α) (good : ObjVal α → Prop) (held : ObjId → ℕ) (w w' : Store α)
    (vs : CacheId → List (ObjVal α)) : Prop where
  inv : Cache.Inv ops good w' held
  types : SameTypes w w'
  contents : ∀ c, contents w' c = includeAll ops (w.caches c).cOps (contents w c) (vs c)

theorem Included.nothing (h : Cache.Inv ops good w held) : Included ops good held w w fun _ => [] :=
  ⟨h, SameTypes.refl w, fun _ => rfl⟩

theorem Included.trans {w'' : Store α} {vs vs' : CacheId → List (ObjVal α)} (h : Included ops good held w w' vs)
    (h' : Included ops good held w' w'' vs') : Included ops good held w w'' fun c => vs c ++ vs' c := by
  refine ⟨h'.inv, h.types.trans h'.types, fun c => ?_⟩
  rw [h'.contents c, h.contents c, h.types.cOps c, includeAll, includeAll, includeAll, List.foldl_append]

/-- **A message of a type that the cache lists**: the object is included, or there is nothing to do for it. -/
theorem included_notify (h : Cache.Inv ops good w held) {c : CacheId} {v : ObjVal α} (hr : Regular ops good (w.caches c) v)
    (hlisted : (msgtypeAct (w.caches c).cOps v.ceMsgtype).isSome = true) (cb : ChangeCb) :
    (notify ops w c cb v).2 = 0 ∧ Included ops good held w (notify ops w c cb v).1 fun d =>
      if c = d ∧ (actOf (w.caches d).cOps v = .new ∨ actOf (w.caches d).cOps v = .del) then [v] else [] := by
  have helse : ∀ d, d ≠ c → contents (notify ops w c cb v).1 d = contents w d ∧
      (notify ops w c cb v).1.caches d = w.caches d := fun d hd => h.notified_elsewhere v cb hd
  by_cases hknown : Known (w.caches c).cOps v
  · obtain ⟨hb, hinv, hret⟩ := h.notified hr hknown cb
    refine ⟨hret, hinv, ⟨fun d => ?_, fun d => ?_⟩, fun d => ?_⟩
    · rcases eq_or_ne d c with rfl | hd
      · exact hb.cOps
      · rw [(helse d hd).2]
    · rcases eq_or_ne d c with rfl | hd
      · exact hb.hashed
      · rw [(helse d hd).2]
    · rcases eq_or_ne d c with rfl | hd
      · rw [if_pos ⟨rfl, hknown⟩, hb.contents]
        rfl
      · rw [if_neg fun hc => hd hc.1.symm, (helse d hd).1]
        rfl
  · -- the action is another one, so the object goes away again
    obtain ⟨act, hact⟩ := Option.isSome_iff_exists.1 hlisted
    have hother : ¬ (act = .new ∨ act = .del) := by
      unfold Known actOf at hknown
      rwa [hact] at hknown
    have hval := alloc_val_self w v
    have hincl : nlCacheInclude ops (nlObjectAlloc w v).1 c w.next cb ⟨true, true⟩ = ((nlObjectAlloc w v).1, 0) := by
      have hcaches : (nlObjectAlloc w v).1.caches = w.caches := rfl
      unfold nlCacheInclude
      rw [hval, hcaches, if_neg (not_not.2 hr.type.symm), hact]
      dsimp only
      unfold cacheInclude
      rw [if_neg hother]
    have heq : notify ops w c cb v = (nlObjectPut (nlObjectAlloc w v).1 w.next, 0) := by
      have hnotify : notify ops w c cb v =
          (nlObjectPut (nlCacheInclude ops (nlObjectAlloc w v).1 c w.next cb ⟨true, true⟩).1 w.next,
            (nlCacheInclude ops (nlObjectAlloc w v).1 c w.next cb ⟨true, true⟩).2) := rfl
      rw [hnotify, hincl]
    have hq : Quiet w (nlObjectPut (nlObjectAlloc w v).1 w.next) := (quiet_alloc w v).trans (quiet_put _ _)
    rw [heq]
    refine ⟨rfl, (h.alloc v).put_added, ⟨fun d => by rw [hq.caches], fun d => by rw [hq.caches]⟩, fun d => ?_⟩
    rw [if_neg, h.quiet_contents hq]
    · rfl
    · rintro ⟨rfl, hd⟩
      exact hknown hd

end

/-! ## Messages of a datagram -/

section

variable {ops : ℕ → ObjectOps α} {mngr : NlCacheMngr} {ev : CacheId → EventOps α} {proto : ℤ} {noAutoAck : Bool}
  {rs : List Received} {m : Message} {s : RecvState (Store α)}

variable (ops mngr ev proto noAutoAck rs m s) in
/-- a message passes its checks, and goes on to what its type asks for -/
theorem handle_dispatch : ∃ s', handle (mngrCb ops mngr ev proto rs) noAutoAck m s = dispatch (mngrCb ops mngr ev proto rs) m s' ∧
    s'.env = s.env ∧ s'.interrupted = (s.interrupted || m.has NLM_F_DUMP_INTR) := by
  have hchecks : ∃ s1, checks (mngrCb ops mngr ev proto rs) noAutoAck m s = (.next, s1) ∧ s1.env = s.env ∧
      s1.interrupted = s.interrupted := ⟨_, rfl, rfl, rfl⟩
  have hflags : ∀ s1 : RecvState (Store α), ∃ s',
      ((dumpIntr (mngrCb ops mngr ev proto rs) m).andThen (sendAck (mngrCb ops mngr ev proto rs) m)) s1 = (.next, s') ∧
        s'.env = s1.env ∧ s'.interrupted = (s1.interrupted || m.has NLM_F_DUMP_INTR) := by
    intro s1
    unfold dumpIntr sendAck
    split_ifs with hintr hack hack
    · exact ⟨_, rfl, rfl, by rw [hintr, Bool.or_true]; rfl⟩
    · exact ⟨_, rfl, rfl, by rw [hintr, Bool.or_true]; rfl⟩
    · exact ⟨_, rfl, rfl, by rw [Bool.eq_false_iff.2 hintr, Bool.or_false]; rfl⟩
    · exact ⟨_, rfl, rfl, by rw [Bool.eq_false_iff.2 hintr, Bool.or_false]; rfl⟩
  obtain ⟨s1, hchecks, henv1, hintr1⟩ := hchecks
  obtain ⟨s', hflags, henv', hintr'⟩ := hflags (advance m s1).2
  have hflagged : flagged (mngrCb ops mngr ev proto rs) noAutoAck m s = (.next, s') := by
    unfold flagged
    rw [Recv.andThen_next _ (by rw [hchecks]), hchecks, Recv.andThen_next _ rfl, hflags]
  refine ⟨s', ?_, henv'.trans henv1, by rw [hintr', ← hintr1]; rfl⟩
  unfold handle
  rw [Recv.andThen_next _ (by rw [hflagged]), hflagged]

/-- what a valid message goes to -/
theorem callOr_valid : (callOr (mngrCb ops mngr ev proto rs) m .valid (Stage.goto .next) s).1 =
    if (eventInput ops mngr ev proto (bufOf rs m.dgram) s.env m).2 = Recv.NL_OK then Flow.next
    else if (eventInput ops mngr ev proto (bufOf rs m.dgram) s.env m).2 = Recv.NL_SKIP then .skip
    else if (eventInput ops mngr ev proto (bufOf rs m.dgram) s.env m).2 = Recv.NL_STOP then .stop
    else .out (eventInput ops mngr ev proto (bufOf rs m.dgram) s.env m).2 := rfl

/-- interrupted dumps are noticed -/
theorem handle_interrupted :
    (handle (mngrCb ops mngr ev proto rs) noAutoAck m s).2.interrupted = (s.interrupted || m.has NLM_F_DUMP_INTR) := by
  obtain ⟨s', hhandle, -, hintr⟩ := handle_dispatch ops mngr ev proto noAutoAck rs m s
  rw [hhandle, ← hintr]
  unfold dispatch
  split_ifs
  · rfl
  · rfl
  · rfl
  · rfl
  · rfl
  · rfl
  · rfl

/-- all messages of a datagram are counted -/
theorem after_calm {ms : List Message} (h : through (mngrCb ops mngr ev proto rs) noAutoAck s ms = true) :
    (after (mngrCb ops mngr ev proto rs) noAutoAck s ms).nrecv = s.nrecv + ms.length ∧
      ((∀ m ∈ ms, m.has NLM_F_DUMP_INTR = false) → s.interrupted = false →
        (after (mngrCb ops mngr ev proto rs) noAutoAck s ms).interrupted = false) := by
  induction ms generalizing s with
  | nil => exact ⟨rfl, fun _ hs => hs⟩
  | cons m ms ih =>
    rw [through, Bool.and_eq_true] at h
    obtain ⟨hcount, hintr⟩ := ih h.2
    have hone := (handle_spec (mngrCb ops mngr ev proto rs) noAutoAck m s).nrecv
    have hconv : converts (mngrCb ops mngr ev proto rs) m s = true := rfl
    rw [hconv, if_pos rfl] at hone
    rw [after, if_pos h.1]
    refine ⟨by rw [hcount, hone, List.length_cons]; omega, fun hms hs => ?_⟩
    refine hintr (fun m' hm' => hms m' (List.mem_cons_of_mem m hm')) ?_
    rw [handle_interrupted, hs, hms m List.mem_cons_self]
    rfl

theorem ending_false {m : Message} (h : m.ending = false) :
    m.nlmsgType ≠ NLMSG_DONE ∧ m.nlmsgType ≠ NLMSG_ERROR ∧ m.nlmsgType ≠ NLMSG_NOOP ∧ m.nlmsgType ≠ NLMSG_OVERRUN := by
  unfold Message.ending at h
  rw [decide_eq_false_iff_not] at h
  tauto

/-- the message, and its datagram; which call of `nl_recv` that came from does not matter any more -/
def arrivalOf (rs : List Received) (m : Message) : Arrival := (bufOf rs m.dgram, { m with dgram := 0 })

/-- what a message makes of the store -/
def step (ops : ℕ → ObjectOps α) (mngr : NlCacheMngr) (ev : CacheId → EventOps α) (proto : ℤ) (w : Store α) (a : Arrival) :
    Store α :=
  if a.2.ending then w else (eventInput ops mngr ev proto a.1 w a.2).1

theorem step_arrival (w : Store α) (m : Message) : step ops mngr ev proto w (arrivalOf rs m) =
    if m.ending then w else (eventInput ops mngr ev proto (bufOf rs m.dgram) w m).1 := rfl

variable (ops mngr ev proto noAutoAck rs m s) in
/-- **A message is handled**: what it does to the store, and whether the next one is handled. -/
theorem handle_mngr : (handle (mngrCb ops mngr ev proto rs) noAutoAck m s).2.env = step ops mngr ev proto s.env (arrivalOf rs m) ∧
    (goesOn (mngrCb ops mngr ev proto rs) noAutoAck m s = false ↔
      m.nlmsgType = NLMSG_OVERRUN ∨ (m.nlmsgType = NLMSG_ERROR ∧ (m.nlmsgLen < NLMSGERR_SIZE ∨ m.error ≠ 0)) ∨
        (m.ending = false ∧ (eventInput ops mngr ev proto (bufOf rs m.dgram) s.env m).2 ≠ Recv.NL_OK ∧
          (eventInput ops mngr ev proto (bufOf rs m.dgram) s.env m).2 ≠ Recv.NL_SKIP)) := by
  obtain ⟨s', hhandle, henv, -⟩ := handle_dispatch ops mngr ev proto noAutoAck rs m s
  unfold goesOn
  rw [hhandle, ← henv, step_arrival]
  cases hending : m.ending with
  | true =>
    have hno : ¬ (true = false ∧ (eventInput ops mngr ev proto (bufOf rs m.dgram) s'.env m).2 ≠ Recv.NL_OK ∧
        (eventInput ops mngr ev proto (bufOf rs m.dgram) s'.env m).2 ≠ Recv.NL_SKIP) := fun h => Bool.false_ne_true h.1.symm
    rw [if_pos rfl]
    unfold dispatch
    by_cases hdone : m.nlmsgType = NLMSG_DONE
    · rw [if_pos hdone, hdone]
      exact ⟨rfl, iff_of_false nofun
        (not_or.2 ⟨by decide, not_or.2 ⟨fun h => absurd h.1 (by decide), hno⟩⟩)⟩
    rw [if_neg hdone]
    by_cases hnoop : m.nlmsgType = NLMSG_NOOP
    · rw [if_pos hnoop, hnoop]
      exact ⟨rfl, iff_of_false nofun
        (not_or.2 ⟨by decide, not_or.2 ⟨fun h => absurd h.1 (by decide), hno⟩⟩)⟩
    rw [if_neg hnoop]
    by_cases hoverrun : m.nlmsgType = NLMSG_OVERRUN
    · rw [if_pos hoverrun]
      exact ⟨rfl, iff_of_true rfl (Or.inl hoverrun)⟩
    rw [if_neg hoverrun]
    have herror : m.nlmsgType = NLMSG_ERROR := by
      have htype := of_decide_eq_true hending
      tauto
    rw [if_pos herror]
    by_cases hshort : m.nlmsgLen < NLMSGERR_SIZE
    · rw [if_pos hshort]
      exact ⟨rfl, iff_of_true rfl (Or.inr (Or.inl ⟨herror, Or.inl hshort⟩))⟩
    rw [if_neg hshort]
    by_cases hcode : m.error ≠ 0
    · rw [if_pos hcode]
      exact ⟨rfl, iff_of_true rfl (Or.inr (Or.inl ⟨herror, Or.inr hcode⟩))⟩
    · rw [if_neg hcode]
      exact ⟨rfl, iff_of_false nofun
        (not_or.2 ⟨hoverrun, not_or.2 ⟨fun h => h.2.elim hshort hcode, hno⟩⟩)⟩
  | false =>
    obtain ⟨hdone, herror, hnoop, hoverrun⟩ := ending_false hending
    unfold dispatch
    rw [if_neg hdone, if_neg hnoop, if_neg hoverrun, if_neg herror, if_neg Bool.false_ne_true]
    refine ⟨rfl, ?_⟩
    rw [callOr_valid]
    generalize (eventInput ops mngr ev proto (bufOf rs m.dgram) s'.env m).2 = ret
    simp only [hoverrun, herror, false_and, false_or, true_and]
    split_ifs with hok hskip hstop
    · exact iff_of_false not_false fun h => h.1 hok
    · exact iff_of_false not_false fun h => h.2 hskip
    · exact iff_of_true rfl ⟨hok, hskip⟩
    · exact iff_of_true rfl ⟨hok, hskip⟩

variable (noAutoAck) in
/-- a callback that returns nothing above `NL_SKIP` does not stop the loop without an error -/
theorem handle_neg (hret : (eventInput ops mngr ev proto (bufOf rs m.dgram) s.env m).2 ≤ Recv.NL_SKIP) :
    (handle (mngrCb ops mngr ev proto rs) noAutoAck m s).1 ≠ .stop ∧
      ∀ err, (handle (mngrCb ops mngr ev proto rs) noAutoAck m s).1 = .out err → err < 0 := by
  obtain ⟨s', hhandle, henv, -⟩ := handle_dispatch ops mngr ev proto noAutoAck rs m s
  rw [← henv] at hret
  rw [hhandle]
  unfold dispatch
  split_ifs with hdone hnoop hoverrun herror hshort hcode
  · exact ⟨nofun, nofun⟩
  · exact ⟨nofun, nofun⟩
  · exact ⟨nofun, fun err herr => Flow.out.inj herr ▸ (by decide)⟩
  · exact ⟨nofun, fun err herr => Flow.out.inj herr ▸ (by decide)⟩
  · exact ⟨nofun, fun err herr => Flow.out.inj herr ▸ neg_neg_of_pos (CacheMngr.nlSyserr2nlerr_pos _)⟩
  · exact ⟨nofun, nofun⟩
  · rw [callOr_valid]
    generalize (eventInput ops mngr ev proto (bufOf rs m.dgram) s'.env m).2 = ret at hret
    unfold Recv.NL_OK Recv.NL_SKIP Recv.NL_STOP at *
    split_ifs with hok hskip hstop
    · exact ⟨nofun, nofun⟩
    · exact ⟨nofun, nofun⟩
    · omega
    · exact ⟨nofun, fun err herr => by have := Flow.out.inj herr; omega⟩

end

/-! ## Events -/

section

variable [HostOrder] {ops : ℕ → ObjectOps α} {good : ObjVal α → Prop} {mngr : NlCacheMngr} {ev : CacheId → EventOps α}
  {w w' : Store α} {held : ObjId → ℕ}

/-- caches that are followed: what the parser of a cache makes belongs into it and has the type of the message, no event is
filtered, and objects are included in the usual way -/
structure Plain (ops : ℕ → ObjectOps α) (good : ObjVal α → Prop) (ev : CacheId → EventOps α) (w : Store α) : Prop where
  parses : ∀ c buf pos v, (ev c).coMsgParser buf pos = .ok v →
    Regular ops good (w.caches c) v ∧ v.ceMsgtype = getU16 buf (pos + 4)
  fails : ∀ c buf pos err, (ev c).coMsgParser buf pos = .error err → err ≤ 0
  filter : ∀ c, (ev c).coEventFilter = none
  include_event : ∀ c, (ev c).coIncludeEvent = none

theorem Plain.same (h : Plain ops good ev w) (ht : SameTypes w w') : Plain ops good ev w' := by
  refine ⟨fun c buf pos v hv => ?_, h.fails, h.filter, h.include_event⟩
  obtain ⟨hr, htype⟩ := h.parses c buf pos v hv
  refine ⟨⟨?_, fun hh => ?_, fun hh => ?_⟩, htype⟩
  · rw [ht.cOps]
    exact hr.type
  · rw [ht.cOps]
    exact hr.equiv (by rwa [ht.hashed] at hh)
  · exact hr.good (by rwa [ht.hashed] at hh)

/-- the message stands in its datagram -/
def Placed (a : Arrival) : Prop := a.2.nlmsgType = getU16 a.1 (a.2.pos + 4)

omit [HostOrder] in
theorem listed_act {cops : CacheOps} {type : ℕ} {v : ObjVal α} (h : lists cops type = true) (hv : v.ceMsgtype = type) :
    (msgtypeAct cops v.ceMsgtype).isSome = true := by
  unfold msgtypeAct
  rw [Option.isSome_map, List.find?_isSome, hv]
  obtain ⟨t, ht, heq⟩ := List.any_eq_true.1 h
  exact ⟨t, ht, heq⟩

/-- **An event**: what `event_input` returns, and what becomes of all caches. -/
theorem event_spec (h : Cache.Inv ops good w held) {proto : ℤ} (hproto : mngr.cmProtocol = proto) (hplain : Plain ops good ev w)
    {a : Arrival} (ha : Placed a) :
    (eventInput ops mngr ev proto a.1 w a.2).2 = answer mngr ev w.cops a ∧
      Included ops good held w (eventInput ops mngr ev proto a.1 w a.2).1
        (toldEvent mngr ev w.cops a) := by
  unfold eventInput answer toldEvent outcome
  rw [if_neg (not_not.2 hproto)]
  dsimp only
  cases hassoc : assocFor w.cops a.2.nlmsgType (assocs mngr) with
  | none => exact ⟨rfl, Included.nothing h⟩
  | some r =>
    obtain ⟨ca, c⟩ := r
    have hl : lists (w.caches c).cOps a.2.nlmsgType = true := assocFor_lists hassoc
    dsimp only
    unfold nlCacheParse
    by_cases hhdr : validHdr a.2 (ev c).coHdrsize = true
    swap
    · rw [if_neg hhdr, if_neg hhdr]
      exact ⟨rfl, Included.nothing h⟩
    rw [if_pos hhdr, if_pos hhdr]
    cases hparse : (ev c).coMsgParser a.1 a.2.pos with
    | error err =>
      have hrun : runParser (ev c) a.1 a.2.pos (includeCb ops ev ca c) w = (w, err) := by
        rw [runParser, hparse]
      rw [parseTypes_error hl hrun]
      exact ⟨rfl, Included.nothing h⟩
    | ok v =>
      obtain ⟨hr, htype⟩ := hplain.parses c a.1 a.2.pos v hparse
      have hrun : runParser (ev c) a.1 a.2.pos (includeCb ops ev ca c) w = notify ops w c (changeOf ca) v := by
        rw [runParser, hparse]
        have hinclude : includeCb ops ev ca c = fun w o => nlCacheInclude ops w c o (changeOf ca) ⟨true, true⟩ := by
          funext w o
          rw [includeCb, hplain.filter, hplain.include_event]
          rfl
        rw [hinclude]
        rfl
      have hlisted := listed_act hl (v := v) (by rw [htype, ha])
      obtain ⟨hret, hincl⟩ := included_notify h hr hlisted (changeOf ca)
      rw [parseTypes_ok hl (by rw [hrun]; exact hret), hrun]
      exact ⟨hret, hincl⟩


theorem step_spec (h : Cache.Inv ops good w held) {proto : ℤ} (hproto : mngr.cmProtocol = proto) (hplain : Plain ops good ev w)
    {a : Arrival} (ha : Placed a) :
    Included ops good held w (step ops mngr ev proto w a) (told mngr ev w.cops a) := by
  unfold step told
  cases a.2.ending with
  | true => exact Included.nothing h
  | false => exact (event_spec h hproto hplain ha).2

/-- **Messages one after the other** -/
theorem steps_spec (h : Cache.Inv ops good w held) {proto : ℤ} (hproto : mngr.cmProtocol = proto) (hplain : Plain ops good ev w)
    {as : List Arrival} (has : ∀ a ∈ as, Placed a) :
    Included ops good held w (as.foldl (step ops mngr ev proto) w)
      fun c => as.flatMap fun a => told mngr ev w.cops a c := by
  induction as generalizing w with
  | nil => exact Included.nothing h
  | cons a as ih =>
    have hone := step_spec h hproto hplain (has a List.mem_cons_self)
    have hrest := ih hone.inv (hplain.same hone.types) fun b hb => has b (List.mem_cons_of_mem a hb)
    rw [hone.types.cops] at hrest
    exact hone.trans hrest

/-! ## A call of `recvmsgs` -/

section

variable {proto : ℤ} {noAutoAck : Bool} {rs : List Received} {s : RecvState (Store α)}

/-- what `event_input` returns is `NL_SKIP`, zero or an error -/
theorem answer_le (mngr : NlCacheMngr) (hplain : Plain ops good ev w) (a : Arrival) :
    answer mngr ev w.cops a ≤ Recv.NL_SKIP := by
  unfold answer outcome
  split
  · exact (by decide : (0 : ℤ) ≤ 1)
  · rename_i err herr
    revert herr
    cases assocFor w.cops a.2.nlmsgType (assocs mngr) with
    | none => exact fun herr => (Except.error.inj herr).ge
    | some r =>
      dsimp only
      split_ifs
      · cases hparse : (ev r.2).coMsgParser a.1 a.2.pos with
        | ok v => exact fun herr => nomatch herr
        | error err' =>
          intro herr
          have hneg := hplain.fails r.2 a.1 a.2.pos err' hparse
          rw [← Except.error.inj herr]
          split_ifs
          · decide
          · exact hneg.trans (by decide)
      · intro herr
        rw [← Except.error.inj herr]
        decide

omit [HostOrder] in
theorem handled_fine {cops : CacheId → CacheOps} {as : List Arrival} (h : ∀ a ∈ as, ¬ Fails mngr ev cops a) (bs : List Arrival) :
    handled mngr ev cops (as ++ bs) = as ++ handled mngr ev cops bs := by
  induction as with
  | nil => rfl
  | cons a as ih =>
    rw [List.cons_append, handled, if_neg (h a List.mem_cons_self), ih fun b hb => h b (List.mem_cons_of_mem a hb)]
    rfl

omit [HostOrder] in
theorem handled_all {cops : CacheId → CacheOps} {as : List Arrival} (h : ∀ a ∈ as, ¬ Fails mngr ev cops a) :
    handled mngr ev cops as = as := by
  have hnil := handled_fine h []
  rwa [List.append_nil, handled, List.append_nil] at hnil

variable (noAutoAck) in
/-- **The loop over a datagram** goes on unless a message fails, and then there is an error. -/
theorem loop_spec (h : Cache.Inv ops good s.env held) (hproto : mngr.cmProtocol = proto) (hplain : Plain ops good ev s.env)
    {ms : List Message} (hms : ∀ m ∈ ms, Placed (arrivalOf rs m)) :
    (after (mngrCb ops mngr ev proto rs) noAutoAck s ms).env =
        (handled mngr ev s.env.cops (ms.map (arrivalOf rs))).foldl (step ops mngr ev proto) s.env ∧
      ((through (mngrCb ops mngr ev proto rs) noAutoAck s ms = true ∧
          ∀ a ∈ ms.map (arrivalOf rs), ¬ Fails mngr ev s.env.cops a) ∨
        ((∃ a ∈ ms.map (arrivalOf rs), Fails mngr ev s.env.cops a) ∧
          ∃ err < 0, ms.foldlM (loopBody (mngrCb ops mngr ev proto rs) noAutoAck) s =
            .error (after (mngrCb ops mngr ev proto rs) noAutoAck s ms, err))) := by
  induction ms generalizing s with
  | nil => exact ⟨rfl, Or.inl ⟨rfl, fun a ha => absurd ha List.not_mem_nil⟩⟩
  | cons m ms ih =>
    have hm := hms m List.mem_cons_self
    obtain ⟨henv, hgo⟩ := handle_mngr ops mngr ev proto noAutoAck rs m s
    have hevent := (event_spec h hproto hplain hm).1
    have hret : (eventInput ops mngr ev proto (bufOf rs m.dgram) s.env m).2 ≤ Recv.NL_SKIP := by
      have hle := answer_le mngr hplain (arrivalOf rs m)
      rw [← hevent] at hle
      exact hle
    have hfails : goesOn (mngrCb ops mngr ev proto rs) noAutoAck m s = false ↔ Fails mngr ev s.env.cops (arrivalOf rs m) := by
      rw [hgo]
      unfold Fails
      rw [← hevent]
      rfl
    rw [List.foldlM_cons, through, after, List.map_cons, handled]
    cases hgoes : goesOn (mngrCb ops mngr ev proto rs) noAutoAck m s with
    | false =>
      obtain ⟨hstop, hneg⟩ := handle_neg noAutoAck hret
      obtain ⟨err', hout⟩ := (goesOn_false hgoes).resolve_left hstop
      have hbody : loopBody (mngrCb ops mngr ev proto rs) noAutoAck s m =
          .error ((handle (mngrCb ops mngr ev proto rs) noAutoAck m s).2, err') := by
        unfold loopBody
        generalize handle (mngrCb ops mngr ev proto rs) noAutoAck m s = r at hout
        obtain ⟨flow, s'⟩ := r
        dsimp only at hout
        rw [hout]
      rw [hbody, if_neg Bool.false_ne_true, if_pos (hfails.1 hgoes)]
      exact ⟨henv, Or.inr ⟨⟨_, List.mem_cons_self, hfails.1 hgoes⟩, err', hneg err' hout, rfl⟩⟩
    | true =>
      have hno : ¬ Fails mngr ev s.env.cops (arrivalOf rs m) := fun hf => by
        rw [hfails.2 hf] at hgoes
        cases hgoes
      have hstep := step_spec h hproto hplain hm
      obtain ⟨hafter, hrest⟩ := ih (s := (handle (mngrCb ops mngr ev proto rs) noAutoAck m s).2)
        (by rw [henv]; exact hstep.inv) (by rw [henv]; exact hplain.same hstep.types)
        (fun m' hm' => hms m' (List.mem_cons_of_mem m hm'))
      rw [henv, hstep.types.cops] at hafter hrest
      rw [loopBody_goesOn m hgoes, if_pos rfl, if_neg hno, Bool.true_and]
      refine ⟨hafter, hrest.imp (fun hr => ⟨hr.1, List.forall_mem_cons.2 ⟨hno, hr.2⟩⟩) fun hr => ⟨?_, hr.2⟩⟩
      obtain ⟨a, ha, hf⟩ := hr.1
      exact ⟨a, List.mem_cons_of_mem _ ha, hf⟩

/-! ## Datagrams -/

/-- the datagrams are those of the list, from the `i`-th on -/
def Aligned (rs : List Received) (i : ℕ) (rest : List Received) : Prop := ∀ j, rest[j]? = rs[i + j]?

omit [HostOrder] in
theorem aligned_cons {r : Received} {rest : List Received} {i : ℕ} (h : Aligned rs i (r :: rest)) :
    bufOf rs i = r.buf ∧ Aligned rs (i + 1) rest := by
  refine ⟨?_, fun j => ?_⟩
  · rw [bufOf, ← Nat.add_zero i, ← h 0]
    rfl
  · rw [Nat.add_assoc, Nat.add_comm 1 j, ← h (j + 1)]
    rfl

theorem arrivalOf_msgAt (rs : List Received) (i : ℕ) (buf : Mem) (pos : ℕ) :
    arrivalOf rs (msgAt i buf pos) = (bufOf rs i, msgAt 0 buf pos) := by
  unfold arrivalOf msgAt
  dsimp only

/-- the messages of a datagram, without the number of the call that it came from -/
theorem arrivals_of {r : Received} {i : ℕ} (h : bufOf rs i = r.buf) : (messagesOf i r).map (arrivalOf rs) = arrivals [r] := by
  unfold arrivals messagesOf
  rw [List.flatMap_cons, List.flatMap_nil, List.append_nil]
  split_ifs
  · rfl
  · rw [List.map_map, List.map_map]
    refine List.map_congr_left fun pos _ => ?_
    rw [Function.comp_apply, Function.comp_apply, arrivalOf_msgAt, h]

theorem placed_messages {r : Received} {i : ℕ} (h : bufOf rs i = r.buf) : ∀ m ∈ messagesOf i r, Placed (arrivalOf rs m) := by
  intro m hm
  unfold messagesOf at hm
  split_ifs at hm
  · exact absurd hm List.not_mem_nil
  · obtain ⟨pos, -, rfl⟩ := List.mem_map.1 hm
    rw [arrivalOf_msgAt, h]
    rfl

theorem take_placed (rs : List Received) : ∀ a ∈ arrivals rs, Placed a := by
  intro a ha
  obtain ⟨r, -, ha⟩ := List.mem_flatMap.1 ha
  obtain ⟨m, hm, rfl⟩ := List.mem_map.1 ha
  unfold messagesOf at hm
  split_ifs at hm
  · exact absurd hm List.not_mem_nil
  · obtain ⟨pos, -, rfl⟩ := List.mem_map.1 hm
    rfl

theorem arrivals_cons (r : Received) (rs : List Received) : arrivals (r :: rs) = arrivals [r] ++ arrivals rs := by
  unfold arrivals
  rw [List.flatMap_cons, List.flatMap_cons, List.flatMap_nil, List.append_nil]

omit [HostOrder] in
theorem finish_neg (s : RecvState (Store α)) {err : ℤ} (h : err < 0) : finish s err < 0 := by
  unfold finish
  cases s.interrupted with
  | true => exact (by decide : -NLE_DUMP_INTR < 0)
  | false =>
    dsimp only
    rw [if_neg Bool.false_ne_true, if_neg h.ne]
    exact h

/-- a datagram in which nothing fails or is interrupted -/
structure Calm (mngr : NlCacheMngr) (ev : CacheId → EventOps α) (cops : CacheId → CacheOps) (r : Received) : Prop where
  read : 0 < r.n.toInt
  some : messagesOf 0 r ≠ []
  fine : ∀ a ∈ arrivals [r], ¬ Fails mngr ev cops a ∧ a.2.has NLM_F_DUMP_INTR = false

variable (noAutoAck) in
/-- the messages of a calm datagram are counted, and there are some -/
theorem calm_counted {r : Received} {i : ℕ} (hbuf : bufOf rs i = r.buf) (hcalm : Calm mngr ev s.env.cops r)
    (hthrough : through (mngrCb ops mngr ev proto rs) noAutoAck s (messagesOf i r) = true) (hintr : s.interrupted = false) :
    (after (mngrCb ops mngr ev proto rs) noAutoAck s (messagesOf i r)).interrupted = false ∧
      0 < finish (after (mngrCb ops mngr ev proto rs) noAutoAck s (messagesOf i r)) 0 := by
  have hof := arrivals_of hbuf
  obtain ⟨hcount, hquiet⟩ := after_calm hthrough
  have hstill : (after (mngrCb ops mngr ev proto rs) noAutoAck s (messagesOf i r)).interrupted = false :=
    hquiet (fun m hm => (hcalm.fine (arrivalOf rs m) (hof ▸ List.mem_map_of_mem hm)).2) hintr
  have hne : (messagesOf i r).length ≠ 0 := by
    intro hzero
    have hlen := congrArg List.length hof
    rw [List.length_map, hzero, arrivals, List.flatMap_cons, List.flatMap_nil, List.append_nil, List.length_map] at hlen
    exact hcalm.some (List.eq_nil_of_length_eq_zero hlen.symm)
  refine ⟨hstill, ?_⟩
  unfold finish
  rw [hstill, hcount]
  exact Int.natCast_pos.2 (by omega)

/-- what a call of `recvmsgs` makes of the store that reads `k` datagrams; it stops at one that is empty or an error -/
structure Read (ops : ℕ → ObjectOps α) (mngr : NlCacheMngr) (ev : CacheId → EventOps α) (proto : ℤ) (cops : CacheId → CacheOps)
    (w w' : Store α) (rs : List Received) (k : ℕ) : Prop where
  called : 0 < k
  env : w' = (handled mngr ev cops (arrivals (rs.take k))).foldl (step ops mngr ev proto) w
  before : ∀ r ∈ rs.take (k - 1), 0 < r.n.toInt

variable (noAutoAck) in
/-- **Reading datagrams**: a call waits, or returns. If what it returns is positive, no message failed; if it is not, there is
a datagram that is not calm. -/
theorem reading_spec (hproto : mngr.cmProtocol = proto) {rest : List Received} {i : ℕ} (halign : Aligned rs i rest)
    (h : Cache.Inv ops good s.env held) (hplain : Plain ops good ev s.env) :
    ∃ fin k, Read ops mngr ev proto s.env.cops s.env fin.env rest k ∧
      ((continueReading (mngrCb ops mngr ev proto rs) noAutoAck i s rest = .waiting fin (i + k) ∧ ∀ r ∈ rest, 0 < r.n.toInt) ∨
        ∃ ret, continueReading (mngrCb ops mngr ev proto rs) noAutoAck i s rest = .returned fin ret (i + k) ∧ k ≤ rest.length ∧
          (0 < ret → (∀ a ∈ arrivals (rest.take k), ¬ Fails mngr ev s.env.cops a) ∧ ∀ r ∈ rest.take k, 0 < r.n.toInt) ∧
          (ret ≤ 0 → s.interrupted = false → ∃ r ∈ rest.take k, ¬ Calm mngr ev s.env.cops r)) := by
  induction rest generalizing s i with
  | nil => exact ⟨s, 1, ⟨Nat.one_pos, rfl, fun r hr => absurd hr List.not_mem_nil⟩, Or.inl ⟨rfl, fun r hr => absurd hr List.not_mem_nil⟩⟩
  | cons r rest ih =>
    obtain ⟨hbuf, hrest⟩ := aligned_cons halign
    have hone := Nat.succ_le_of_lt (List.length_pos_of_ne_nil (List.cons_ne_nil r rest))
    have hfirst : r ∈ (r :: rest).take 1 := List.mem_cons_self
    have hbefore : ∀ x ∈ (r :: rest).take (1 - 1), 0 < x.n.toInt := fun x hx => absurd hx List.not_mem_nil
    by_cases hn : r.n.toInt ≤ 0
    · have hnone : arrivals [r] = [] := by
        rw [← arrivals_of hbuf, messagesOf_nil hn]
        rfl
      refine ⟨s, 1, ⟨Nat.one_pos, ?_, hbefore⟩, Or.inr ⟨r.n.toInt, ?_, hone, fun hpos => absurd hpos (not_lt.2 hn), fun _ _ => ?_⟩⟩
      · rw [List.take_succ_cons, List.take_zero, hnone]
        rfl
      · rw [continueReading, if_pos hn]
      · exact ⟨r, hfirst, fun hcalm => not_lt.2 hn hcalm.read⟩
    · have hms := placed_messages hbuf
      obtain ⟨hafter, hloop⟩ := loop_spec noAutoAck h hproto hplain hms
      rw [arrivals_of hbuf] at hafter hloop
      rcases hloop with ⟨hthrough, hnofail⟩ | ⟨⟨a, ha, hfail⟩, err, hneg, herr⟩
      · by_cases hmulti : (after (mngrCb ops mngr ev proto rs) noAutoAck s (messagesOf i r)).multipart = true
        · have hincl := steps_spec h hproto hplain (take_placed [r])
          rw [handled_all hnofail] at hafter
          rw [← hafter] at hincl
          obtain ⟨fin, k, hread, hend⟩ := ih hrest hincl.inv (hplain.same hincl.types)
          rw [hincl.types.cops] at hread hend
          have hon : readsOn (mngrCb ops mngr ev proto rs) noAutoAck s (messagesOf i r) = true := by
            rw [readsOn, hthrough, hmulti]
            rfl
          rw [continueReading_on hn hon, Nat.add_assoc, Nat.add_comm 1 k] at *
          refine ⟨fin, k + 1, ⟨Nat.succ_pos k, ?_, ?_⟩, ?_⟩
          · rw [List.take_succ_cons, arrivals_cons, handled_fine hnofail, List.foldl_append, ← hafter]
            exact hread.env
          · rw [Nat.add_sub_cancel, ← Nat.sub_add_cancel hread.called, List.take_succ_cons]
            exact List.forall_mem_cons.2 ⟨not_le.1 hn, hread.before⟩
          · refine hend.imp (fun hwait => ⟨hwait.1, List.forall_mem_cons.2 ⟨not_le.1 hn, hwait.2⟩⟩) ?_
            rintro ⟨ret, hret, hk, hfine, hcause⟩
            rw [List.take_succ_cons, arrivals_cons]
            refine ⟨ret, hret, Nat.succ_le_succ hk, fun hpos => ⟨fun a ha => ?_, ?_⟩, fun hneg hintr => ?_⟩
            · exact (List.mem_append.1 ha).elim (hnofail a) ((hfine hpos).1 a)
            · exact List.forall_mem_cons.2 ⟨not_le.1 hn, (hfine hpos).2⟩
            · by_cases hcalm : Calm mngr ev s.env.cops r
              · obtain ⟨x, hx, hbad⟩ := hcause hneg (calm_counted noAutoAck hbuf hcalm hthrough hintr).1
                exact ⟨x, List.mem_cons_of_mem r hx, hbad⟩
              · exact ⟨r, List.mem_cons_self, hcalm⟩
        · refine ⟨_, 1, ⟨Nat.one_pos, hafter, hbefore⟩,
            Or.inr ⟨finish (after (mngrCb ops mngr ev proto rs) noAutoAck s (messagesOf i r)) 0, ?_, hone,
              fun _ => ⟨hnofail, fun x hx => ?_⟩, fun hneg hintr => ?_⟩⟩
          · rw [continueReading, if_neg hn, loop_messages hn, loop_through hthrough]
            dsimp only
            rw [if_neg hmulti]
          · rw [List.mem_singleton.1 hx]
            exact not_le.1 hn
          · exact ⟨r, hfirst, fun hcalm => hneg.not_gt (calm_counted noAutoAck hbuf hcalm hthrough hintr).2⟩
      · refine ⟨_, 1, ⟨Nat.one_pos, hafter, hbefore⟩,
          Or.inr ⟨finish (after (mngrCb ops mngr ev proto rs) noAutoAck s (messagesOf i r)) err, ?_, hone, ?_, fun _ _ => ?_⟩⟩
        · rw [continueReading, if_neg hn, loop_messages hn, herr]
        · exact fun hpos => absurd hpos (finish_neg _ hneg).not_gt
        · exact ⟨r, hfirst, fun hcalm => (hcalm.fine a ha).1 hfail⟩

end

/-! ## All that is there to be read -/

section

variable {proto : ℤ} {noAutoAck : Bool}

theorem arrivals_append (rs rs' : List Received) : arrivals (rs ++ rs') = arrivals rs ++ arrivals rs' := List.flatMap_append

omit [HostOrder] in
theorem aligned_zero (rs : List Received) : Aligned rs 0 rs := fun j => by rw [Nat.zero_add]

variable (mngr ev) in
theorem handled_placed (cops : CacheId → CacheOps) (rs : List Received) : ∀ a ∈ handled mngr ev cops (arrivals rs), Placed a := by
  intro a ha
  refine take_placed rs a ?_
  generalize arrivals rs = as at ha
  induction as with
  | nil => exact ha
  | cons b as ih =>
    rw [handled] at ha
    rcases List.mem_cons.1 ha with rfl | ha
    · exact List.mem_cons_self
    · split_ifs at ha
      · exact absurd ha List.not_mem_nil
      · exact List.mem_cons_of_mem b (ih ha)

variable (noAutoAck) in
/-- **The loop ends**, having handled the messages of what it read up to the first that fails. What it has read has a datagram
that is not calm, and it has not read on behind one that is empty or an error. -/
theorem ready_spec (hproto : mngr.cmProtocol = proto) {n : ℕ} {rs : List Received} (hn : rs.length < n)
    (h : Cache.Inv ops good w held) (hplain : Plain ops good ev w) (seq : BitVec 32) (nread : ℤ) (k : ℕ) :
    ∃ w' j, ((readyLoop ops mngr ev noAutoAck proto n w seq rs nread k = .waiting w' (k + j) ∧ ∀ r ∈ rs, 0 < r.n.toInt) ∨
        ((∃ seq' ret, readyLoop ops mngr ev noAutoAck proto n w seq rs nread k = .returned w' seq' ret (k + j)) ∧
          ∃ r ∈ rs.take j, ¬ Calm mngr ev w.cops r)) ∧
      Read ops mngr ev proto w.cops w w' rs j := by
  induction n generalizing rs w seq nread k with
  | zero => exact absurd hn (Nat.not_lt_zero _)
  | succ n ih =>
    obtain ⟨fin, j, hread, hend⟩ := reading_spec noAutoAck (s := start w seq) hproto (aligned_zero rs) h hplain
    rw [Nat.zero_add] at hend
    unfold readyLoop recvmsgs
    rcases hend with ⟨hwait, hall⟩ | ⟨ret, hret, hj, hfine, hcause⟩
    · rw [hwait]
      exact ⟨fin.env, j, Or.inl ⟨rfl, hall⟩, hread⟩
    · rw [hret]
      dsimp only
      by_cases hpos : 0 < ret
      · obtain ⟨hnofail, hfull⟩ : (∀ a ∈ arrivals (rs.take j), ¬ Fails mngr ev w.cops a) ∧ ∀ r ∈ rs.take j, 0 < r.n.toInt := hfine hpos
        have hincl := steps_spec h hproto hplain (take_placed (rs.take j))
        have henv : fin.env = (handled mngr ev w.cops (arrivals (rs.take j))).foldl (step ops mngr ev proto) w := hread.env
        rw [handled_all hnofail] at henv
        rw [← henv] at hincl
        have hcalled := hread.called
        obtain ⟨w', j', hres, hread'⟩ := ih (show (rs.drop j).length < n by rw [List.length_drop]; omega) hincl.inv
          (hplain.same hincl.types) fin.sSeqExpect (nread + ret) (k + j)
        rw [hincl.types.cops] at hres hread'
        have htake : rs = rs.take j ++ rs.drop j := (List.take_append_drop j rs).symm
        rw [if_pos hpos]
        refine ⟨w', j + j', ?_, ⟨Nat.add_pos_left hcalled j', ?_, fun r hr => ?_⟩⟩
        · rw [← Nat.add_assoc]
          refine hres.imp (fun hwait => ⟨hwait.1, fun r hr => ?_⟩) fun hback => ⟨hback.1, ?_⟩
          · rw [htake] at hr
            exact (List.mem_append.1 hr).elim (hfull r) (hwait.2 r)
          · obtain ⟨r, hr, hbad⟩ := hback.2
            rw [List.take_add]
            exact ⟨r, List.mem_append_right _ hr, hbad⟩
        · rw [List.take_add, arrivals_append, handled_fine hnofail, List.foldl_append, ← henv]
          exact hread'.env
        · rw [Nat.add_sub_assoc hread'.called, List.take_add] at hr
          exact (List.mem_append.1 hr).elim (hfull r) (hread'.before r)
      · rw [if_neg hpos]
        refine ⟨fin.env, j, Or.inr ⟨?_, hcause (not_lt.1 hpos) rfl⟩, hread⟩
        split_ifs
        · exact ⟨_, _, rfl⟩
        · exact ⟨_, _, rfl⟩

end

/-- a type with a message that adds an object, and one that removes it -/
def pairCops : CacheOps := ⟨0, [⟨16, .new⟩, ⟨17, .del⟩]⟩

/-- every message is about the same object -/
def pairEv (_ : CacheId) : EventOps (ℕ × ℕ) where
  coHdrsize := 0
  coMsgParser buf pos := .ok ⟨0, getU16 buf (pos + 4), 3, (1, 10)⟩
  coEventFilter := none
  coIncludeEvent := none

/-- a manager of one cache -/
def pairMngr : NlCacheMngr := { NlCacheMngr.zero with cmNassocs := 1, cmAssocs := some [⟨some 0, none, none, none⟩] }

/-- a message of type 16 without a payload -/
def pairMessage : Mem := fun i => if i = 0 ∨ i = 4 then 16 else 0

/-- the object appears, and then there is nothing more to read -/
def pairReceived : List Received := [⟨16, pairMessage⟩, ⟨0, pairMessage⟩]

theorem pair_plain : Plain sampleOps (fun _ => True) pairEv (emptyStore pairCops (sampleVal 0 0)) where
  parses _ buf pos v h := by
    obtain rfl := Except.ok.inj h
    exact ⟨⟨rfl, fun hh => (nomatch hh), fun _ => trivial⟩, rfl⟩
  fails _ _ _ _ h := nomatch h
  filter _ := rfl
  include_event _ := rfl

end

theorem pair_messages : @messagesOf ⟨false⟩ 0 ⟨16, pairMessage⟩ = [⟨0, 0, 16, 16, 0, 0, 0⟩] := by
  let order : HostOrder := ⟨false⟩
  have hwalk : Walk.visits (@nlmsgOk ⟨false⟩ pairMessage) (@nlmsgNext ⟨false⟩ pairMessage) 17 0 16 = some [0] := by decide
  have hn : (16 : Int32).toInt = 16 := by decide
  unfold messagesOf
  rw [hn, if_neg (by decide), show (16 : ℤ).toNat + 1 = 17 from rfl, hwalk]
  refine congrArg (fun m => [m]) ?_
  unfold msgAt
  rw [Message.mk.injEq]
  exact ⟨rfl, rfl, by decide, by decide, by decide, by decide, by decide⟩

end Libnl.Events
