/-
Reading a datagram (`nl_recv` of `lib/nl.c`), against the queue of the kernel.

`recvmsg` hands out the head of the queue, and removes it unless it only peeks. It reports that the space for data or for
control messages was too small, and how much of the latter it used. `nl_recv` peeks first or not, makes its buffers larger
and tries again, until it has read the datagram or gives up.

Each call of `recvmsg` may also fail: the outcomes are a list, from which every call takes one. Memory may be refused.

- `peek_proper`, `read_proper`: what comes out while peeking, and while reading, if the control messages fit then.
- `recv_complete_iff`: for every datagram at the head, the call hands out that datagram and removes no other, and removes
  none if it fails, whatever else happens, if and only if the control messages fit or the call peeks first, and there is
  memory for the credentials.
- `recv_loses_datagram`: without peeking, a datagram whose control messages do not fit is dropped, and the next one is
  handed out.
-/
import Mathlib.Tactic
import Libnl.Socket.Recvmsgs

namespace Libnl.Recv

open Bytes Msg

/-! ## The kernel -/

structure Ucred where
  pid : ℕ
  uid : ℕ
  gid : ℕ
deriving DecidableEq, Repr

/-- a control message; what it holds is read as credentials if its type says so -/
structure Cmsg where
  cmsgLevel : ℕ
  cmsgType : ℕ
  ucred : Ucred
deriving DecidableEq, Repr

def SOL_SOCKET : ℕ := 1
def SCM_CREDENTIALS : ℕ := 2

def Cmsg.isCreds (c : Cmsg) : Bool := decide (c.cmsgLevel = SOL_SOCKET) && decide (c.cmsgType = SCM_CREDENTIALS)

/-- a datagram; its control messages need `ctlNeeds` bytes, and `ctlFill` says how many are used of a given space -/
structure Datagram where
  data : List UInt8
  cmsgs : List Cmsg
  ctlNeeds : ℕ
  ctlFill : ℕ → ℕ
  /-- the size of a socket buffer is an `int` -/
  small : data.length < 2147483648
  fill_le : ∀ c, ctlFill c ≤ c
  fits : ∀ c, ctlNeeds ≤ c → ctlNeeds ≤ ctlFill c
  /-- less is left over than the header of a control message takes -/
  cut : ∀ c, c < ctlNeeds → c < ctlFill c + 16

/-- the credentials among the control messages -/
def Datagram.creds (d : Datagram) : Option Ucred := (d.cmsgs.find? Cmsg.isCreds).map Cmsg.ucred

/-- what `recvmsg` leaves behind -/
structure Msghdr where
  n : ℕ
  data : List UInt8
  /-- `MSG_TRUNC` -/
  trunc : Bool
  /-- `MSG_CTRUNC` -/
  ctrunc : Bool
  msgControllen : ℕ
  msgNamelen : ℕ
  cmsgs : List Cmsg

/-- `sizeof(struct sockaddr_nl)` -/
def SOCKADDR_NL_SIZE : ℕ := 12

/-- `CMSG_SPACE(sizeof(struct ucred))` -/
def UCRED_SPACE : ℕ := 32

/-- `recvmsg`, with the flags `MSG_PEEK | MSG_TRUNC` or none; `none` if there is nothing to read -/
def recvmsg (peek : Bool) (iovLen controllen : ℕ) : List Datagram → Option (Msghdr × List Datagram)
  | [] => none
  | d :: rest => some
    ({ n := if peek then d.data.length else min d.data.length iovLen
       data := d.data.take iovLen
       trunc := decide (iovLen < d.data.length)
       ctrunc := decide (controllen < d.ctlNeeds)
       msgControllen := d.ctlFill controllen
       msgNamelen := SOCKADDR_NL_SIZE
       cmsgs := if d.ctlNeeds ≤ controllen then d.cmsgs else [] },
     if peek then d :: rest else rest)

/-! ## The function -/

/-- arguments and settings -/
structure RecvConf where
  /-- `buf` and `nla` are given -/
  required : Bool
  /-- `creds` is given -/
  wantCreds : Bool
  msgPeek : Bool
  msgPeekExplicit : Bool
  sockPasscred : Bool
  sBufsize : ℕ
  /-- four pages -/
  pageSize : ℕ
  pageSize_pos : 0 < pageSize

/-- credentials are asked for -/
def RecvConf.asks (conf : RecvConf) : Bool := conf.wantCreds && conf.sockPasscred

/-- the size is found out first -/
def RecvConf.peeks (conf : RecvConf) : Bool := conf.msgPeek || (!conf.msgPeekExplicit && decide (conf.sBufsize = 0))

def RecvConf.iovLen (conf : RecvConf) : ℕ := if conf.sBufsize ≠ 0 then conf.sBufsize else conf.pageSize

/-- which requests for memory succeed -/
structure Memory where
  buf : Bool
  control : Bool
  growControl : ℕ → Bool
  growBuf : ℕ → Bool
  creds : Bool

inductive Outcome where
  | returned (ret : ℤ) (buf : List UInt8) (creds : Option Ucred) (queue : List Datagram)
  /-- the call has not returned so far -/
  | waiting (queue : List Datagram)

/-- the label `abort`, with an error or nothing read -/
def abort (ret : ℤ) (queue : List Datagram) : Outcome := .returned ret [] none queue

def EINTR : ℤ := 4

/-- what is done with a datagram that was read -/
def takeCreds (asks : Bool) (mem : Memory) (r : Msghdr) (queue : List Datagram) : Outcome :=
  if r.msgNamelen ≠ SOCKADDR_NL_SIZE then abort (-NLE_NOADDR) queue
  else if asks then
    match r.cmsgs.find? Cmsg.isCreds with
    | some c => if mem.creds then .returned (toInt32 r.n) r.data (some c.ucred) queue else abort (-NLE_NOMEM) queue
    | none => .returned (toInt32 r.n) r.data none queue
  else .returned (toInt32 r.n) r.data none queue

/-- the label `retry`; a call of `recvmsg` fails with the `errno` that comes next, or is served -/
def retry (asks : Bool) (mem : Memory) : List (Option ℤ) → Bool → ℕ → ℕ → List Datagram → Outcome
  | [], _, _, _, queue => .waiting queue
  | some errno :: calls, peek, iovLen, controllen, queue =>
    if errno = EINTR then retry asks mem calls peek iovLen controllen queue else abort (-nlSyserr2nlerr errno) queue
  | none :: calls, peek, iovLen, controllen, queue =>
    match recvmsg peek iovLen controllen queue with
    | none => .waiting queue
    | some (r, queue) =>
      if r.n = 0 then abort 0 queue
      else if r.ctrunc then
        if r.msgControllen = 0 then abort (-NLE_MSG_TRUNC) queue
        else if mem.growControl (r.msgControllen * 2) then
          retry asks mem calls peek iovLen (r.msgControllen * 2) queue
        else abort (-NLE_NOMEM) queue
      else if iovLen < r.n ∨ r.trunc then
        if peek = false then abort (-NLE_MSG_TRUNC) queue
        else if mem.growBuf r.n then retry asks mem calls false r.n r.msgControllen queue
        else abort (-NLE_NOMEM) queue
      else if peek then retry asks mem calls false iovLen r.msgControllen queue
      else takeCreds asks mem r queue

def nlRecv (conf : RecvConf) (mem : Memory) (calls : List (Option ℤ)) (queue : List Datagram) : Outcome :=
  if ¬ conf.required then abort (-NLE_INVAL) queue
  else if ¬ mem.buf then abort (-NLE_NOMEM) queue
  else if conf.asks then
    if ¬ mem.control then abort (-NLE_NOMEM) queue
    else retry conf.asks mem calls conf.peeks conf.iovLen UCRED_SPACE queue
  else retry conf.asks mem calls conf.peeks conf.iovLen 0 queue

/-! ## One call of `recvmsg` -/

/-- what a call hands out, and what is left in the queue -/
def Proper (asks : Bool) (queue : List Datagram) : Outcome → Prop
  | .waiting _ => True
  | .returned ret buf creds left =>
    (0 < ret → ∃ d rest, queue = d :: rest ∧ left = rest ∧ buf = d.data ∧ ret = d.data.length ∧
      creds = if asks then d.creds else none) ∧
    (ret < 0 → ret ≠ -NLE_MSG_TRUNC → left = queue)

section

variable {asks : Bool} {mem : Memory} {calls : List (Option ℤ)} {iovLen controllen : ℕ} {d : Datagram}
  {rest queue : List Datagram}

theorem proper_unchanged (ret : ℤ) (h : ret ≤ 0) : Proper asks queue (abort ret queue) :=
  ⟨fun hpos => absurd hpos (not_lt.2 h), fun _ _ => rfl⟩

theorem proper_truncated (left : List Datagram) : Proper asks queue (abort (-NLE_MSG_TRUNC) left) :=
  ⟨fun hpos => absurd hpos (by decide), fun _ hne => absurd rfl hne⟩

theorem nlSyserr2nlerr_nonneg (errno : ℤ) : 0 ≤ nlSyserr2nlerr errno := by
  simp only [nlSyserr2nlerr]
  split <;> decide

/-- a call that peeks -/
theorem retry_peek (hd : d.data ≠ []) : retry asks mem (none :: calls) true iovLen controllen (d :: rest) =
    if controllen < d.ctlNeeds then
      if d.ctlFill controllen = 0 then abort (-NLE_MSG_TRUNC) (d :: rest)
      else if mem.growControl (d.ctlFill controllen * 2) then
        retry asks mem calls true iovLen (d.ctlFill controllen * 2) (d :: rest)
      else abort (-NLE_NOMEM) (d :: rest)
    else if iovLen < d.data.length then
      if mem.growBuf d.data.length then
        retry asks mem calls false d.data.length (d.ctlFill controllen) (d :: rest)
      else abort (-NLE_NOMEM) (d :: rest)
    else retry asks mem calls false iovLen (d.ctlFill controllen) (d :: rest) := by
  simp [retry, recvmsg, hd]

/-- a call that reads -/
theorem retry_read (hd : d.data ≠ []) (hiov : 0 < iovLen) :
    retry asks mem (none :: calls) false iovLen controllen (d :: rest) =
      if controllen < d.ctlNeeds then
        if d.ctlFill controllen = 0 then abort (-NLE_MSG_TRUNC) rest
        else if mem.growControl (d.ctlFill controllen * 2) then
          retry asks mem calls false iovLen (d.ctlFill controllen * 2) rest
        else abort (-NLE_NOMEM) rest
      else if iovLen < d.data.length then abort (-NLE_MSG_TRUNC) rest
      else if asks then
        match d.cmsgs.find? Cmsg.isCreds with
        | some c => if mem.creds then .returned d.data.length d.data (some c.ucred) rest else abort (-NLE_NOMEM) rest
        | none => .returned d.data.length d.data none rest
      else .returned d.data.length d.data none rest := by
  have hlen : 0 < d.data.length := List.length_pos_iff.2 hd
  have hn : ¬ min d.data.length iovLen = 0 := by omega
  simp only [retry, recvmsg, Bool.false_eq_true, if_false, if_neg hn, decide_eq_true_eq]
  by_cases hctl : controllen < d.ctlNeeds
  · rw [if_pos hctl, if_pos hctl]
  rw [if_neg hctl, if_neg hctl]
  by_cases hcut : iovLen < d.data.length
  · rw [if_pos (Or.inr hcut), if_pos trivial, if_pos hcut]
  have hwhole : ¬ (iovLen < min d.data.length iovLen ∨ iovLen < d.data.length) := by omega
  have hmin : min d.data.length iovLen = d.data.length := by omega
  have hint : toInt32 (d.data.length : ℕ) = d.data.length :=
    toInt32_of_mem (by omega) (by have := d.small; omega)
  have htake : d.data.take iovLen = d.data := List.take_of_length_le (not_lt.1 hcut)
  rw [if_neg hwhole, if_neg hcut]
  simp only [takeCreds, hmin, hint, htake, ne_eq, not_true_eq_false, if_false, if_pos (not_lt.1 hctl)]

/-- calls that fail leave the queue alone -/
theorem retry_failed (errno : ℤ) (peek : Bool)
    (h : Proper asks queue (retry asks mem calls peek iovLen controllen queue)) :
    Proper asks queue (retry asks mem (some errno :: calls) peek iovLen controllen queue) := by
  simp only [retry]
  split_ifs
  · exact h
  · exact proper_unchanged _ (neg_nonpos.2 (nlSyserr2nlerr_nonneg errno))

/-- a datagram without data is not a message -/
theorem empty_proper (hd : d.data = []) (peek : Bool) :
    Proper asks (d :: rest) (retry asks mem calls peek iovLen controllen (d :: rest)) := by
  induction calls with
  | nil => trivial
  | cons call calls ih =>
    cases call with
    | some errno => exact retry_failed errno peek ih
    | none =>
      have hzero : retry asks mem (none :: calls) peek iovLen controllen (d :: rest) =
          abort 0 (if peek then d :: rest else rest) := by
        cases peek with
        | true => simp [retry, recvmsg, hd]
        | false => simp [retry, recvmsg, hd]
      rw [hzero]
      exact ⟨fun hpos => absurd hpos (lt_irrefl 0), fun hneg => absurd hneg (lt_irrefl 0)⟩

/-- **Reading**, with enough space for the control messages or none at all -/
theorem read_proper (hd : d.data ≠ []) (hiov : 0 < iovLen) (hctl : d.ctlNeeds ≤ controllen ∨ controllen = 0)
    (hmem : asks = false ∨ mem.creds = true ∨ d.creds = none ∨ iovLen < d.data.length) :
    Proper asks (d :: rest) (retry asks mem calls false iovLen controllen (d :: rest)) := by
  have hpos : (0 : ℤ) < d.data.length := by exact_mod_cast List.length_pos_iff.2 hd
  induction calls with
  | nil => trivial
  | cons call calls ih =>
    cases call with
    | some errno => exact retry_failed errno false ih
    | none =>
      rw [retry_read hd hiov]
      by_cases hcut : controllen < d.ctlNeeds
      · have hzero : d.ctlFill controllen = 0 := by
          rcases hctl with hle | rfl
          · exact absurd hcut (not_lt.2 hle)
          · exact Nat.le_zero.1 (d.fill_le 0)
        rw [if_pos hcut, if_pos hzero]
        exact proper_truncated rest
      rw [if_neg hcut]
      by_cases hlen : iovLen < d.data.length
      · rw [if_pos hlen]
        exact proper_truncated rest
      rw [if_neg hlen]
      have hread : ∀ creds, creds = (if asks then d.creds else none) →
          Proper asks (d :: rest) (.returned d.data.length d.data creds rest) := fun creds hcreds =>
        ⟨fun _ => ⟨d, rest, rfl, rfl, rfl, rfl, hcreds⟩, fun hneg => absurd hneg (not_lt.2 hpos.le)⟩
      cases hasks : asks with
      | false =>
        rw [hasks] at hread
        exact hread none rfl
      | true =>
        rw [hasks] at hread
        rw [if_pos rfl]
        cases hfind : d.cmsgs.find? Cmsg.isCreds with
        | none => exact hread none (by simp [Datagram.creds, hfind])
        | some c =>
          have hcreds : mem.creds = true := by
            rcases hmem with h | h | h | h
            · rw [hasks] at h
              cases h
            · exact h
            · rw [Datagram.creds, hfind] at h
              cases h
            · exact absurd h hlen
          dsimp only
          rw [if_pos hcreds]
          exact hread (some c.ucred) (by simp [Datagram.creds, hfind])

/-- **Peeking**, with any space for the control messages -/
theorem peek_proper (hd : d.data ≠ []) (hiov : 0 < iovLen)
    (hmem : asks = false ∨ mem.creds = true ∨ d.creds = none) :
    Proper asks (d :: rest) (retry asks mem calls true iovLen controllen (d :: rest)) := by
  have hmem' : ∀ n, asks = false ∨ mem.creds = true ∨ d.creds = none ∨ n < d.data.length := by
    intro n
    rcases hmem with h | h | h
    · exact Or.inl h
    · exact Or.inr (Or.inl h)
    · exact Or.inr (Or.inr (Or.inl h))
  induction calls generalizing controllen with
  | nil => trivial
  | cons call calls ih =>
    cases call with
    | some errno => exact retry_failed errno true ih
    | none =>
      rw [retry_peek hd]
      by_cases hcut : controllen < d.ctlNeeds
      · rw [if_pos hcut]
        split_ifs
        · exact proper_truncated _
        · exact ih
        · exact proper_unchanged _ (by decide)
      · have hfits := Or.inl (b := d.ctlFill controllen = 0) (d.fits controllen (not_lt.1 hcut))
        rw [if_neg hcut]
        split_ifs
        · exact read_proper hd (List.length_pos_iff.2 hd) hfits (hmem' _)
        · exact proper_unchanged _ (by decide)
        · exact read_proper hd hiov hfits (hmem' _)

/-- with memory to grow, enough calls lead from peeking to the end -/
theorem peek_reaches {c : Cmsg} (hd : d.data ≠ []) (hcontrol : ∀ n, mem.growControl n = true)
    (hbuf : ∀ n, mem.growBuf n = true) (hfind : d.cmsgs.find? Cmsg.isCreds = some c) (hcreds : mem.creds = false)
    (hiov : 0 < iovLen) (h32 : 32 ≤ controllen) :
    ∃ calls, retry true mem calls true iovLen controllen (d :: rest) = abort (-NLE_NOMEM) rest := by
  -- reading comes to the same in both cases
  have hread : ∀ n k, 0 < n → d.data.length ≤ n → d.ctlNeeds ≤ k →
      retry true mem [none] false n k (d :: rest) = abort (-NLE_NOMEM) rest := by
    intro n k hn hlen hk
    rw [retry_read hd hn, if_neg (not_lt.2 hk), if_neg (not_lt.2 hlen), if_pos rfl, hfind]
    dsimp only
    rw [hcreds]
    rfl
  induction hleft : d.ctlNeeds - controllen using Nat.strong_induction_on generalizing controllen with
  | _ left ih =>
    by_cases hcut : controllen < d.ctlNeeds
    · have hmore := d.cut controllen hcut
      have h32' : 32 ≤ d.ctlFill controllen * 2 := by omega
      obtain ⟨calls, hcalls⟩ := ih (d.ctlNeeds - d.ctlFill controllen * 2) (by omega) h32' rfl
      refine ⟨none :: calls, ?_⟩
      rw [retry_peek hd, if_pos hcut, if_neg (by omega), if_pos (hcontrol _)]
      exact hcalls
    · have hfits := d.fits controllen (not_lt.1 hcut)
      refine ⟨[none, none], ?_⟩
      rw [retry_peek hd, if_neg hcut]
      by_cases hlen : iovLen < d.data.length
      · rw [if_pos hlen, if_pos (hbuf _)]
        exact hread _ _ (List.length_pos_iff.2 hd) le_rfl hfits
      · rw [if_neg hlen]
        exact hread _ _ hiov (not_lt.1 hlen) hfits

end

/-! ## The call -/

/-- the control messages of the datagram fit, or the call peeks first; and there is memory for the credentials, unless the
datagram is cut off before they are looked for -/
def Complete (conf : RecvConf) (credsMem : Bool) (d : Datagram) : Prop :=
  conf.required = false ∨ d.data = [] ∨ conf.asks = false ∨
    ((conf.peeks = true ∨ d.ctlNeeds ≤ UCRED_SPACE) ∧
      (credsMem = true ∨ d.creds = none ∨ (conf.peeks = false ∧ conf.iovLen < d.data.length)))

theorem iovLen_pos (conf : RecvConf) : 0 < conf.iovLen := by
  rw [RecvConf.iovLen]
  split_ifs with h
  · exact Nat.pos_of_ne_zero h
  · exact conf.pageSize_pos

/-- where the space for control messages starts -/
def RecvConf.controllen (conf : RecvConf) : ℕ := if conf.asks then UCRED_SPACE else 0

theorem nlRecv_runs {conf : RecvConf} {mem : Memory} (hreq : conf.required = true) (hbuf : mem.buf = true)
    (hcontrol : mem.control = true) (calls : List (Option ℤ)) (queue : List Datagram) :
    nlRecv conf mem calls queue = retry conf.asks mem calls conf.peeks conf.iovLen conf.controllen queue := by
  simp only [nlRecv, RecvConf.controllen, hreq, hbuf, hcontrol, not_true_eq_false, if_false]
  cases conf.asks with
  | true => rfl
  | false => rfl

/-- nothing is read, or it is tried -/
theorem nlRecv_cases (conf : RecvConf) (mem : Memory) (calls : List (Option ℤ)) (queue : List Datagram) :
    (∃ ret ≤ 0, nlRecv conf mem calls queue = abort ret queue) ∨ (conf.required = true ∧
      nlRecv conf mem calls queue = retry conf.asks mem calls conf.peeks conf.iovLen conf.controllen queue) := by
  simp only [nlRecv, RecvConf.controllen]
  by_cases hreq : conf.required = true
  · by_cases hbuf : mem.buf = true
    · rw [if_neg (not_not.2 hreq), if_neg (not_not.2 hbuf)]
      cases conf.asks with
      | false => exact Or.inr ⟨hreq, rfl⟩
      | true =>
        by_cases hcontrol : mem.control = true
        · rw [if_pos rfl, if_neg (not_not.2 hcontrol)]
          exact Or.inr ⟨hreq, rfl⟩
        · rw [if_pos rfl, if_pos hcontrol]
          exact Or.inl ⟨-NLE_NOMEM, by decide, rfl⟩
    · rw [if_neg (not_not.2 hreq), if_pos hbuf]
      exact Or.inl ⟨-NLE_NOMEM, by decide, rfl⟩
  · rw [if_pos hreq]
    exact Or.inl ⟨-NLE_INVAL, by decide, rfl⟩

/-- an empty queue -/
theorem nothing_proper (conf : RecvConf) (mem : Memory) (calls : List (Option ℤ)) :
    Proper conf.asks [] (nlRecv conf mem calls []) := by
  rcases nlRecv_cases conf mem calls [] with ⟨ret, hret, heq⟩ | ⟨-, heq⟩
  · rw [heq]
    exact proper_unchanged ret hret
  · rw [heq]
    clear heq
    induction calls with
    | nil => trivial
    | cons call calls ih =>
      cases call with
      | some errno => exact retry_failed errno conf.peeks ih
      | none => trivial

/-- the retries, if the condition is met -/
theorem retry_complete {conf : RecvConf} {mem : Memory} {d : Datagram} (hreq : conf.required = true)
    (h : Complete conf mem.creds d) (calls : List (Option ℤ)) (rest : List Datagram) :
    Proper conf.asks (d :: rest)
      (retry conf.asks mem calls conf.peeks conf.iovLen conf.controllen (d :: rest)) := by
  by_cases hd : d.data = []
  · exact empty_proper hd conf.peeks
  have hiov := iovLen_pos conf
  rcases h with h | h | hasks | ⟨hctl, hmem⟩
  · rw [hreq] at h
    cases h
  · exact absurd h hd
  · -- no credentials are asked for
    cases conf.peeks with
    | true => exact peek_proper hd hiov (Or.inl hasks)
    | false => exact read_proper hd hiov (Or.inr (by simp [RecvConf.controllen, hasks])) (Or.inl hasks)
  · cases hpeek : conf.peeks with
    | true =>
      refine peek_proper hd hiov ?_
      rcases hmem with h | h | ⟨h, -⟩
      · exact Or.inr (Or.inl h)
      · exact Or.inr (Or.inr h)
      · rw [hpeek] at h
        cases h
    | false =>
      rw [hpeek] at hctl hmem
      have hfit : d.ctlNeeds ≤ conf.controllen ∨ conf.controllen = 0 := by
        rw [RecvConf.controllen]
        cases conf.asks with
        | true => exact Or.inl (hctl.resolve_left Bool.false_ne_true)
        | false => exact Or.inr rfl
      refine read_proper hd hiov hfit ?_
      rcases hmem with h | h | ⟨-, h⟩
      · exact Or.inr (Or.inl h)
      · exact Or.inr (Or.inr (Or.inl h))
      · exact Or.inr (Or.inr (Or.inr h))

/-- a call that fails otherwise has removed nothing -/
theorem not_proper_nomem {asks : Bool} {d : Datagram} {rest : List Datagram} :
    ¬ Proper asks (d :: rest) (abort (-NLE_NOMEM) rest) := by
  rintro ⟨-, hfail⟩
  have heq : rest = d :: rest := hfail (by decide) (by decide)
  exact absurd (congrArg List.length heq) (by simp)

/-- **Complete datagrams.** For every datagram at the head of the queue, with the settings and the memory for the credentials
given: whatever stands behind it, whichever calls fail and whatever other memory is refused, the call hands out that
datagram and removes no other, and removes none if it fails but for a truncation; if and only if `Complete` holds. With
nothing in the queue there is nothing to lose. -/
theorem recv_complete_iff (conf : RecvConf) :
    (∀ credsMem d, (∀ rest mem calls, mem.creds = credsMem →
      Proper conf.asks (d :: rest) (nlRecv conf mem calls (d :: rest))) ↔ Complete conf credsMem d) ∧
    ∀ mem calls, Proper conf.asks [] (nlRecv conf mem calls []) := by
  refine ⟨fun credsMem d => ⟨fun hall => ?_, fun h => ?_⟩, nothing_proper conf⟩
  · by_contra hnot
    simp only [Complete, not_or, Bool.not_eq_false] at hnot
    obtain ⟨hreq, hd, hasks, hbad⟩ := hnot
    have hiov := iovLen_pos conf
    have hspace : conf.controllen = UCRED_SPACE := by rw [RecvConf.controllen, hasks, if_pos rfl]
    by_cases hctl : conf.peeks = true ∨ d.ctlNeeds ≤ UCRED_SPACE
    · -- the control messages get through, and there is no memory for the credentials
      have hcreds : ¬ (credsMem = true ∨ d.creds = none ∨ (conf.peeks = false ∧ conf.iovLen < d.data.length)) :=
        fun hmem => hbad ⟨hctl, hmem⟩
      simp only [not_or, not_and, Bool.not_eq_true, not_lt] at hcreds
      obtain ⟨rfl, hsome, hlen⟩ := hcreds
      have hfound : d.cmsgs.find? Cmsg.isCreds ≠ none := by
        intro hnone
        rw [Datagram.creds, hnone] at hsome
        exact hsome rfl
      obtain ⟨c, hfind⟩ := Option.ne_none_iff_exists'.1 hfound
      obtain ⟨calls, hcalls⟩ : ∃ calls, retry true ⟨true, true, fun _ => true, fun _ => true, false⟩ calls conf.peeks
          conf.iovLen UCRED_SPACE [d] = abort (-NLE_NOMEM) [] := by
        cases hpeek : conf.peeks with
        | true => exact peek_reaches hd (fun _ => rfl) (fun _ => rfl) hfind rfl hiov le_rfl
        | false =>
          rw [hpeek] at hctl
          have hfit := hctl.resolve_left Bool.false_ne_true
          refine ⟨[none], ?_⟩
          rw [retry_read hd hiov, if_neg (not_lt.2 hfit), if_neg (not_lt.2 (hlen hpeek)), if_pos rfl, hfind]
          rfl
      have hproper := hall [] ⟨true, true, fun _ => true, fun _ => true, false⟩ calls rfl
      rw [nlRecv_runs hreq rfl rfl, hasks, hspace, hcalls] at hproper
      exact not_proper_nomem hproper
    · -- the first call reads, and the control messages do not fit
      rw [not_or, Bool.not_eq_true, not_le] at hctl
      have hsome : d.ctlFill UCRED_SPACE ≠ 0 := by
        have hcut := d.cut UCRED_SPACE hctl.2
        simp only [UCRED_SPACE] at hcut ⊢
        omega
      have hproper := hall [] ⟨true, true, fun _ => false, fun _ => true, credsMem⟩ [none] rfl
      rw [nlRecv_runs hreq rfl rfl, hspace, hctl.1, retry_read hd hiov, if_pos hctl.2, if_neg hsome,
        if_neg Bool.false_ne_true] at hproper
      exact not_proper_nomem hproper
  · intro rest mem calls hmem
    subst hmem
    rcases nlRecv_cases conf mem calls (d :: rest) with ⟨ret, hret, heq⟩ | ⟨hreq, heq⟩
    · rw [heq]
      exact proper_unchanged ret hret
    · rw [heq]
      exact retry_complete hreq h calls rest

/-- credentials are asked for, into a buffer of 4096 bytes, without peeking -/
def sampleConf : RecvConf := ⟨true, true, false, false, true, 4096, 16384, by decide⟩

/-- a datagram with control messages of `needs` bytes, among them credentials -/
def sampleRecv (data : List UInt8) (needs : ℕ) (hlen : data.length < 2147483648) : Datagram where
  data := data
  cmsgs := [⟨SOL_SOCKET, SCM_CREDENTIALS, ⟨1, 0, 0⟩⟩]
  ctlNeeds := needs
  ctlFill c := min needs c
  small := hlen
  fill_le c := Nat.min_le_right needs c
  fits c hc := by rw [Nat.min_eq_left hc]
  cut c hc := by rw [Nat.min_eq_right hc.le]; exact Nat.lt_add_of_pos_right (by decide)

/-- **A datagram is lost.** The credentials come with further control messages, 56 bytes together, where there is space for
32: the datagram is read and dropped, and the next one is handed out in its place. -/
theorem recv_loses_datagram :
    nlRecv sampleConf ⟨true, true, fun _ => true, fun _ => true, true⟩ [none, none]
        [sampleRecv [1, 2, 3] 56 (by decide), sampleRecv [9] 32 (by decide)] =
      .returned 1 [9] (some ⟨1, 0, 0⟩) [] := by
  simp [nlRecv, sampleConf, RecvConf.asks, RecvConf.peeks, RecvConf.iovLen, retry, recvmsg, sampleRecv, UCRED_SPACE,
    takeCreds, Cmsg.isCreds, toInt32]

end Libnl.Recv
