/-
Cache managers and their sockets (`nl_cache_mngr_alloc` and `nl_cache_mngr_free` in `lib/cache_mngr.c`).

A manager has two sockets: one that it gets from its caller or allocates, and one for synchronous requests that is always
its own. The process keeps a ledger of the sockets given to `nl_socket_free`; a socket that is not there any more and is
used again sets a flag. Addresses are not handed out twice.

What allocations and system calls return is an argument. `BUG()` and the use of a null pointer end the program (`none`).

- `alloc_safe_iff`: a manager that cannot be made leaves no socket and no port behind, and one that was made frees the
  sockets that were allocated for it, if and only if the call is `RollsBack`: the table could be allocated, the second
  socket connected if it came to that, and a socket of the caller has the port it had before, if something else failed.
- `sync_socket_freed_twice`: the second socket cannot be connected, and is freed twice.
-/
import Mathlib.Tactic
import Libnl.Socket.Ports

namespace Libnl.CacheMngr

open Bitmap Msg Ports
open Recv (nlSyserr2nlerr)

/-! ## Managers -/

def NL_ALLOCATED_SOCK : BitVec 32 := 2
def NASSOC_INIT : ℕ := 16

/-- `struct nl_cache_assoc`; functions and data are known by numbers, and a null pointer is `none` -/
structure NlCacheAssoc where
  caCache : Option ℕ
  caChange : Option ℕ
  caChangeV2 : Option ℕ
  caChangeData : Option ℕ
deriving DecidableEq, Repr

/-- what `calloc` and `memset` leave -/
def NlCacheAssoc.empty : NlCacheAssoc := ⟨none, none, none, none⟩

structure NlCacheMngr where
  cmProtocol : ℤ
  cmFlags : BitVec 32
  cmNassocs : ℕ
  cmSock : Option ℕ
  cmSyncSock : Option ℕ
  /-- `none` is a null pointer -/
  cmAssocs : Option (List NlCacheAssoc)
deriving DecidableEq, Repr

/-- what `calloc` leaves -/
def NlCacheMngr.zero : NlCacheMngr := ⟨0, 0, 0, none, none, none⟩

/-- sockets and ports, and what was given back so far -/
structure Proc where
  sockets : State
  /-- addresses from here on were not handed out yet -/
  next : ℕ
  /-- sockets given to `nl_socket_free` -/
  freedSocks : List ℕ
  /-- caches given to `nl_cache_mngt_unprovide` and `nl_cache_free` -/
  freedCaches : List ℕ
  /-- a socket was used that is not there any more -/
  dangling : Bool

/-- `nl_socket_set_nonblocking`; `fcntl` gives its `errno`, and zero if it succeeds -/
def setNonblocking (fcntl : ℤ) (sk : NlSock) : ℤ :=
  if sk.sFd = -1 then -NLE_BAD_SOCK else if fcntl ≠ 0 then -nlSyserr2nlerr fcntl else 0

namespace Proc

def nlSocketAlloc (p : Proc) (ok : Bool) : Proc × Option ℕ :=
  if ok then
    ({ p with sockets := p.sockets.put p.next p.sockets.ports (some allocSocket), next := p.next + 1 }, some p.next)
  else (p, none)

def nlSocketFree (p : Proc) (id : ℕ) : Proc :=
  match p.sockets.socks id with
  | some sk =>
    { p with
      sockets := p.sockets.put id (Ports.nlSocketFree p.sockets.ports sk) none
      freedSocks := p.freedSocks ++ [id] }
  | none => { p with freedSocks := p.freedSocks ++ [id], dangling := true }

def nlClose (p : Proc) (id : ℕ) : Proc :=
  match p.sockets.socks id with
  | some sk => { p with sockets := p.sockets.put id p.sockets.ports (some (Ports.nlClose sk)) }
  | none => { p with dangling := true }

def nlConnect (p : Proc) (e : ConnectEnv) (protocol : ℤ) (id : ℕ) : ℤ × Proc :=
  match p.sockets.socks id with
  | some sk =>
    let r := Ports.nlConnect e protocol p.sockets.ports sk
    (r.1, { p with sockets := p.sockets.put id r.2.1 (some r.2.2) })
  | none => (-NLE_BAD_SOCK, { p with dangling := true })

def nlSocketSetNonblocking (p : Proc) (fcntl : ℤ) (id : ℕ) : ℤ :=
  match p.sockets.socks id with
  | some sk => setNonblocking fcntl sk
  | none => -NLE_BAD_SOCK

end Proc

/-- the loop over the associations, and what comes after it -/
def freeAssocs (p : Proc) (mngr : NlCacheMngr) : Option Proc :=
  match mngr.cmAssocs with
  | some assocs =>
    some { p with freedCaches := p.freedCaches ++ (assocs.take mngr.cmNassocs).filterMap NlCacheAssoc.caCache }
  | none => if mngr.cmNassocs = 0 then some p else none

def nlCacheMngrFree (p : Proc) (mngr : NlCacheMngr) : Option Proc :=
  let p := match mngr.cmSock with
    | some sk => p.nlClose sk
    | none => p
  let p := match mngr.cmSyncSock with
    | some sk => (p.nlClose sk).nlSocketFree sk
    | none => p
  let p := match mngr.cmSock with
    | some sk => if mngr.cmFlags &&& NL_ALLOCATED_SOCK ≠ 0 then p.nlSocketFree sk else p
    | none => p
  freeAssocs p mngr

/-- answers of the system during `nl_cache_mngr_alloc` -/
structure AllocEnv where
  /-- the manager could be allocated -/
  mngr : Bool
  sock : Bool
  assocs : Bool
  connect : ConnectEnv
  fcntl : ℤ
  syncSock : Bool
  syncConnect : ConnectEnv

/-- the label `errout` -/
def errout (p : Proc) (mngr : NlCacheMngr) (err : ℤ) : Option (Proc × Except ℤ NlCacheMngr) :=
  (nlCacheMngrFree p mngr).map fun p => (p, .error err)

/-- the end of `nl_cache_mngr_alloc`: the socket for synchronous requests -/
def allocSync (e : AllocEnv) (p : Proc) (mngr : NlCacheMngr) : Option (Proc × Except ℤ NlCacheMngr) :=
  match p.nlSocketAlloc e.syncSock with
  | (p, none) => errout p mngr (-NLE_NOMEM)
  | (p, some sync) =>
    let mngr := { mngr with cmSyncSock := some sync }
    let r := p.nlConnect e.syncConnect mngr.cmProtocol sync
    if r.1 < 0 then errout (r.2.nlSocketFree sync) mngr r.1 else some (r.2, .ok mngr)

/-- the manager, once there is a socket -/
def initMngr (assocs : Bool) (sk : ℕ) (protocol : ℤ) (flags : BitVec 32) : NlCacheMngr :=
  { NlCacheMngr.zero with
    cmSock := some sk
    cmNassocs := NASSOC_INIT
    cmProtocol := protocol
    cmFlags := flags
    cmAssocs := if assocs then some (List.replicate NASSOC_INIT NlCacheAssoc.empty) else none }

/-- `nl_cache_mngr_alloc`, once there is a socket -/
def allocWith (e : AllocEnv) (p : Proc) (sk : ℕ) (protocol : ℤ) (flags : BitVec 32) :
    Option (Proc × Except ℤ NlCacheMngr) :=
  let mngr := initMngr e.assocs sk protocol flags
  if !e.assocs then errout p mngr (-NLE_NOMEM)
  else
    let r := p.nlConnect e.connect protocol sk
    if r.1 < 0 then errout r.2 mngr r.1
    else if r.2.nlSocketSetNonblocking e.fcntl sk < 0 then errout r.2 mngr (r.2.nlSocketSetNonblocking e.fcntl sk)
    else allocSync e r.2 mngr

def nlCacheMngrAlloc (e : AllocEnv) (p : Proc) (sk : Option ℕ) (protocol : ℤ) (flags : BitVec 32) :
    Option (Proc × Except ℤ NlCacheMngr) :=
  if flags &&& NL_ALLOCATED_SOCK ≠ 0 then none
  else if !e.mngr then some (p, .error (-NLE_NOMEM))
  else
    match sk with
    | some sk => allocWith e p sk protocol flags
    | none =>
      match p.nlSocketAlloc e.sock with
      | (p, none) => errout p NlCacheMngr.zero (-NLE_NOMEM)
      | (p, some sk) => allocWith e p sk protocol (flags ||| NL_ALLOCATED_SOCK)

/-! ## What was freed -/

/-- sockets freed between two points of time -/
def newFrees (p p' : Proc) : List ℕ := p'.freedSocks.drop p.freedSocks.length

/-- the socket was allocated between `p` and `p'` -/
def Allocated (p p' : Proc) (id : ℕ) : Prop := p.next ≤ id ∧ id < p'.next

/-- the sockets allocated between `p` and `p'` were freed between `q` and `q'`, each once, and no others -/
structure FreesThose (p p' q q' : Proc) : Prop where
  once : ∀ id, Allocated p p' id → (newFrees q q').count id = 1
  others : ∀ id, ¬ Allocated p p' id → id ∉ newFrees q q'
  used : q'.dangling = q.dangling

/-- nothing is left of a call that failed -/
structure Undone (p p' : Proc) : Prop where
  frees : FreesThose p p' p p'
  ports : p'.sockets.ports.usedPortsMap = p.sockets.ports.usedPortsMap

/-- whenever the manager is freed, with whatever caches it has by then and its sockets still there, the sockets that were
allocated for it are freed -/
def FreedLater (p p' : Proc) (mngr : NlCacheMngr) : Prop :=
  ∀ (q : Proc) (assocs : List NlCacheAssoc),
    (∀ id, mngr.cmSock = some id ∨ mngr.cmSyncSock = some id → (q.sockets.socks id).isSome = true) →
    ∃ q', nlCacheMngrFree q { mngr with cmAssocs := some assocs, cmNassocs := assocs.length } = some q' ∧
      FreesThose p p' q q'

def ExceptionSafe (p : Proc) : Option (Proc × Except ℤ NlCacheMngr) → Prop
  | none => False
  | some (p', .error _) => Undone p p'
  | some (p', .ok mngr) => FreedLater p p' mngr

/-- map and sockets agree, and no socket is at an address that was not handed out -/
structure Ready (p : Proc) : Prop where
  inv : Ports.Inv p.sockets
  fresh : ∀ id, p.next ≤ id → p.sockets.socks id = none

/-- both sockets have the same port from the map, or none -/
def SamePort (a b : NlSock) : Prop := ∀ nr, Generated a nr ↔ Generated b nr

/-- the socket for notifications, as it is given or allocated -/
def notifySock (p : Proc) (sk : Option ℕ) : NlSock :=
  match sk with
  | some id => (p.sockets.socks id).getD allocSocket
  | none => allocSocket

/-- the socket for notifications can be used, and there is a second one -/
def SocketsReady (e : AllocEnv) (r : ℤ × PortMap × NlSock) : Prop :=
  0 ≤ r.1 ∧ 0 ≤ setNonblocking e.fcntl r.2.2 ∧ e.syncSock = true

/-- the table is there if it is needed, the second socket connects, and if it does not come to that, a socket of the
caller has the port it had -/
def RollsBack (e : AllocEnv) (p : Proc) (sk : Option ℕ) (protocol : ℤ) : Prop :=
  let r := Ports.nlConnect e.connect protocol p.sockets.ports (notifySock p sk)
  e.mngr = true → (sk = none → e.sock = true) →
    e.assocs = true ∧
      (SocketsReady e r → 0 ≤ (Ports.nlConnect e.syncConnect protocol r.2.1 allocSocket).1) ∧
      (¬ SocketsReady e r → sk ≠ none → SamePort (notifySock p sk) r.2.2)

/-! ## Ports -/

section

variable {others : ℕ → Prop} {pm pm' : PortMap} {a b : NlSock}

theorem map_eq_of_holds (h : Holds others pm) (h' : Holds others pm') : pm'.usedPortsMap = pm.usedPortsMap :=
  words_ext fun nr => by rw [Bool.eq_iff_iff, h.used, h'.used]

/-- **The map is the same** just when the socket has the same port. -/
theorem map_eq_iff_samePort (h : Balanced others pm a) (h' : Balanced others pm' b) :
    pm'.usedPortsMap = pm.usedPortsMap ↔ SamePort a b := by
  constructor
  · intro heq nr
    have hused := h.holds.used nr
    rw [← heq, h'.holds.used] at hused
    constructor
    · intro hgen
      exact (hused.2 (Or.inr hgen)).resolve_left (h.apart nr hgen)
    · intro hgen
      exact (hused.1 (Or.inr hgen)).resolve_left (h'.apart nr hgen)
  · intro hsame
    refine words_ext fun nr => ?_
    rw [Bool.eq_iff_iff, h.holds.used, h'.holds.used, hsame nr]

end

/-! ## Freeing a manager -/

namespace Proc

variable (p : Proc) (id : ℕ)

theorem nlClose_frame : (p.nlClose id).freedSocks = p.freedSocks ∧ (p.nlClose id).next = p.next := by
  unfold nlClose
  cases p.sockets.socks id with
  | none => exact ⟨rfl, rfl⟩
  | some sk => exact ⟨rfl, rfl⟩

/-- the ledger has the socket, whether or not it was there -/
theorem nlSocketFree_frame :
    (p.nlSocketFree id).freedSocks = p.freedSocks ++ [id] ∧ (p.nlSocketFree id).next = p.next := by
  unfold nlSocketFree
  cases p.sockets.socks id with
  | none => exact ⟨rfl, rfl⟩
  | some sk => exact ⟨rfl, rfl⟩

end Proc

section

variable {q : Proc} {mngr : NlCacheMngr} {id sync : ℕ} {sk : NlSock} {assocs : List NlCacheAssoc}

/-- the manager allocated its first socket -/
abbrev NlCacheMngr.owns (mngr : NlCacheMngr) : Prop := mngr.cmFlags &&& NL_ALLOCATED_SOCK ≠ 0

variable (q mngr) in
/-- a manager with one socket -/
theorem free_alone (hsock : mngr.cmSock = some id) (hsync : mngr.cmSyncSock = none) (hassocs : mngr.cmAssocs = some assocs)
    (hsk : q.sockets.socks id = some sk) :
    ∃ q', nlCacheMngrFree q mngr = some q' ∧ q'.next = q.next ∧ q'.dangling = q.dangling ∧
      q'.freedSocks = q.freedSocks ++ (if mngr.owns then [id] else []) ∧
      q'.sockets.ports = if mngr.owns then Ports.nlSocketFree q.sockets.ports sk else q.sockets.ports := by
  have hclose : q.nlClose id = { q with sockets := q.sockets.put id q.sockets.ports (some (Ports.nlClose sk)) } := by
    rw [Proc.nlClose, hsk]
  have hclosed : (q.sockets.put id q.sockets.ports (some (Ports.nlClose sk))).socks id = some (Ports.nlClose sk) :=
    put_self _
  unfold nlCacheMngrFree freeAssocs
  simp only [hsock, hsync, hassocs, hclose]
  by_cases howns : mngr.owns
  · simp only [if_pos howns, Proc.nlSocketFree, hclosed]
    exact ⟨_, rfl, rfl, rfl, rfl, rfl⟩
  · simp only [if_neg howns]
    exact ⟨_, rfl, rfl, rfl, (List.append_nil _).symm, rfl⟩

variable (q mngr) in
/-- whatever is there, the second socket is freed -/
theorem free_sync (hsock : mngr.cmSock = some id) (hsync : mngr.cmSyncSock = some sync)
    (hassocs : mngr.cmAssocs = some assocs) :
    ∃ q', nlCacheMngrFree q mngr = some q' ∧ q'.next = q.next ∧
      q'.freedSocks = q.freedSocks ++ sync :: (if mngr.owns then [id] else []) := by
  obtain ⟨hf1, hn1⟩ := q.nlClose_frame id
  obtain ⟨hf2, hn2⟩ := (q.nlClose id).nlClose_frame sync
  obtain ⟨hf3, hn3⟩ := ((q.nlClose id).nlClose sync).nlSocketFree_frame sync
  obtain ⟨hf4, hn4⟩ := (((q.nlClose id).nlClose sync).nlSocketFree sync).nlSocketFree_frame id
  unfold nlCacheMngrFree freeAssocs
  simp only [hsock, hsync, hassocs]
  by_cases howns : mngr.owns
  · simp only [if_pos howns]
    refine ⟨_, rfl, ?_, ?_⟩
    · rw [hn4, hn3, hn2, hn1]
    · rw [hf4, hf3, hf2, hf1, List.append_assoc]
      rfl
  · simp only [if_neg howns]
    refine ⟨_, rfl, ?_, ?_⟩
    · rw [hn3, hn2, hn1]
    · rw [hf3, hf2, hf1]

variable (q mngr) in
/-- **A manager with both sockets** -/
theorem free_both (hsock : mngr.cmSock = some id) (hsync : mngr.cmSyncSock = some sync)
    (hassocs : mngr.cmAssocs = some assocs) (hne : id ≠ sync) (hid : (q.sockets.socks id).isSome = true)
    (hsyncs : (q.sockets.socks sync).isSome = true) :
    ∃ q', nlCacheMngrFree q mngr = some q' ∧ q'.dangling = q.dangling ∧
      q'.freedSocks = q.freedSocks ++ sync :: (if mngr.owns then [id] else []) := by
  obtain ⟨q', hfree, -, hfreed⟩ := free_sync q mngr hsock hsync hassocs
  obtain ⟨sk, hsk⟩ := Option.isSome_iff_exists.1 hid
  obtain ⟨sk2, hsk2⟩ := Option.isSome_iff_exists.1 hsyncs
  refine ⟨q', hfree, ?_, hfreed⟩
  unfold nlCacheMngrFree freeAssocs at hfree
  simp only [hsock, hsync, hassocs, Proc.nlClose, hsk, put_other hne.symm, hsk2, Proc.nlSocketFree, put_self,
    put_other hne] at hfree
  rw [← Option.some.inj hfree]
  by_cases howns : mngr.owns
  · rw [if_pos howns]
  · rw [if_neg howns]

end

/-! ## Making a manager -/

theorem newFrees_of_append {q q' : Proc} {l : List ℕ} (h : q'.freedSocks = q.freedSocks ++ l) : newFrees q q' = l := by
  rw [newFrees, h, List.drop_left]

theorem freesThose_of_mem {p p' q q' : Proc} {l : List ℕ} (h : q'.freedSocks = q.freedSocks ++ l) (hnodup : l.Nodup)
    (hmem : ∀ id, id ∈ l ↔ Allocated p p' id) (hused : q'.dangling = q.dangling) : FreesThose p p' q q' := by
  refine ⟨fun id hid => ?_, fun id hid => ?_, hused⟩
  · rw [newFrees_of_append h]
    exact List.count_eq_one_of_mem hnodup ((hmem id).2 hid)
  · rw [newFrees_of_append h, hmem]
    exact hid

section

variable {e : AllocEnv} {p : Proc} {id : ℕ} {sk : NlSock} {protocol : ℤ} {flags : BitVec 32} {r : ℤ × PortMap × NlSock}

/-- the process, with the first socket connected -/
def withConnected (p : Proc) (id : ℕ) (r : ℤ × PortMap × NlSock) : Proc :=
  { p with sockets := p.sockets.put id r.2.1 (some r.2.2) }

/-- the process, with both sockets connected -/
def withBoth (p : Proc) (id : ℕ) (r r2 : ℤ × PortMap × NlSock) : Proc :=
  { p with
    sockets := ((p.sockets.put id r.2.1 (some r.2.2)).put p.next r.2.1 (some allocSocket)).put p.next r2.2.1 (some r2.2.2)
    next := p.next + 1 }

/-- the table cannot be allocated: its slots are looked at all the same -/
theorem allocWith_crash (hassocs : e.assocs = false) : allocWith e p id protocol flags = none := by
  unfold allocWith errout nlCacheMngrFree freeAssocs initMngr
  simp only [hassocs, Bool.not_false, if_true, Bool.false_eq_true, if_false]
  rfl

theorem nlConnect_connected (hsk : p.sockets.socks id = some sk)
    (hr : Ports.nlConnect e.connect protocol p.sockets.ports sk = r) :
    p.nlConnect e.connect protocol id = (r.1, withConnected p id r) := by
  simp only [Proc.nlConnect, hsk, hr, withConnected]

theorem setNonblocking_connected (fcntl : ℤ) :
    (withConnected p id r).nlSocketSetNonblocking fcntl id = setNonblocking fcntl r.2.2 := by
  simp only [Proc.nlSocketSetNonblocking, withConnected, put_self]

variable (flags) in
theorem allocWith_failed (hsk : p.sockets.socks id = some sk)
    (hr : Ports.nlConnect e.connect protocol p.sockets.ports sk = r) (hassocs : e.assocs = true)
    (hnot : ¬ SocketsReady e r) :
    ∃ err, allocWith e p id protocol flags = errout (withConnected p id r) (initMngr true id protocol flags) err := by
  unfold allocWith
  simp only [hassocs, Bool.not_true, Bool.false_eq_true, if_false, nlConnect_connected hsk hr, setNonblocking_connected]
  by_cases hneg : r.1 < 0
  · rw [if_pos hneg]
    exact ⟨_, rfl⟩
  rw [if_neg hneg]
  by_cases hblock : setNonblocking e.fcntl r.2.2 < 0
  · rw [if_pos hblock]
    exact ⟨_, rfl⟩
  rw [if_neg hblock]
  have hsync : e.syncSock = false := by
    rw [← Bool.not_eq_true]
    exact fun hsync => hnot ⟨Int.not_lt.1 hneg, Int.not_lt.1 hblock, hsync⟩
  unfold allocSync Proc.nlSocketAlloc
  rw [hsync]
  exact ⟨_, rfl⟩

theorem allocWith_ready (hsk : p.sockets.socks id = some sk)
    (hr : Ports.nlConnect e.connect protocol p.sockets.ports sk = r) (hassocs : e.assocs = true)
    (hready : SocketsReady e r) {r2 : ℤ × PortMap × NlSock}
    (hr2 : Ports.nlConnect e.syncConnect protocol r.2.1 allocSocket = r2) :
    allocWith e p id protocol flags =
      if r2.1 < 0 then
        errout ((withBoth p id r r2).nlSocketFree p.next)
          { initMngr true id protocol flags with cmSyncSock := some p.next } r2.1
      else some (withBoth p id r r2, .ok { initMngr true id protocol flags with cmSyncSock := some p.next }) := by
  obtain ⟨hpos, hblock, hsync⟩ := hready
  unfold allocWith
  simp only [hassocs, Bool.not_true, Bool.false_eq_true, if_false, nlConnect_connected hsk hr, setNonblocking_connected, if_neg (Int.not_lt.2 hpos),
    if_neg (Int.not_lt.2 hblock)]
  unfold allocSync Proc.nlSocketAlloc
  simp only [hsync, if_true, Proc.nlConnect, withConnected, put_self]
  have hports : ((p.sockets.put id r.2.1 (some r.2.2)).put p.next r.2.1 (some allocSocket)).ports = r.2.1 := rfl
  have hproto : (initMngr true id protocol flags).cmProtocol = protocol := rfl
  have hports' : (p.sockets.put id r.2.1 (some r.2.2)).ports = r.2.1 := rfl
  rw [hports', hports, hproto, hr2]
  rfl

/-- who the first socket belongs to: it was allocated after `p0`, or was there before -/
structure Obtained (p0 p : Proc) (id : ℕ) (owned : Prop) : Prop where
  ports : p.sockets.ports = p0.sockets.ports
  freedSocks : p.freedSocks = p0.freedSocks
  dangling : p.dangling = p0.dangling
  own : owned → id = p0.next ∧ p.next = p0.next + 1
  caller : ¬ owned → id < p0.next ∧ p.next = p0.next

/-- it was there before the second one -/
theorem Obtained.order {p0 p : Proc} {owned : Prop} (ho : Obtained p0 p id owned) : id < p.next ∧ p0.next ≤ p.next := by
  by_cases howned : owned
  · obtain ⟨hid, hn⟩ := ho.own howned
    omega
  · obtain ⟨hid, hn⟩ := ho.caller howned
    omega

variable {p0 : Proc} {others : ℕ → Prop}

/-- what is left when there is no second socket -/
theorem Obtained.undone_iff (ho : Obtained p0 p id (flags &&& NL_ALLOCATED_SOCK ≠ 0)) (hb : Balanced others p.sockets.ports sk)
    (hown : flags &&& NL_ALLOCATED_SOCK ≠ 0 → sk.ownPort = true)
    (hr : Ports.nlConnect e.connect protocol p.sockets.ports sk = r) (err : ℤ) :
    ExceptionSafe p0 (errout (withConnected p id r) (initMngr true id protocol flags) err) ↔
      (¬ flags &&& NL_ALLOCATED_SOCK ≠ 0 → SamePort sk r.2.2) := by
  have hb' : Balanced others r.2.1 r.2.2 := by
    rw [← hr]
    exact connect_balanced e.connect protocol hb
  obtain ⟨q, hq, hnext, hdang, hfreed, hports⟩ := free_alone (withConnected p id r)
    (initMngr true id protocol flags) rfl rfl rfl (put_self r.2.2)
  have hports0 : (withConnected p id r).sockets.ports = r.2.1 := rfl
  have hfreed0 : (withConnected p id r).freedSocks = p0.freedSocks := ho.freedSocks
  have hnext0 : (withConnected p id r).next = p.next := rfl
  have hdang0 : q.dangling = p0.dangling := hdang.trans ho.dangling
  rw [hfreed0] at hfreed
  rw [hports0] at hports
  rw [hnext0] at hnext
  unfold errout
  rw [hq]
  show Undone p0 q ↔ _
  by_cases howned : flags &&& NL_ALLOCATED_SOCK ≠ 0
  · -- the socket is freed, and its port with it
    obtain ⟨hid, hn⟩ := ho.own howned
    have howns : (initMngr true id protocol flags).owns := howned
    rw [if_pos howns] at hfreed hports
    refine iff_of_true ⟨freesThose_of_mem hfreed (List.nodup_singleton id) (fun a => ?_) hdang0, ?_⟩
      (fun hnot => absurd howned hnot)
    · rw [List.mem_singleton, Allocated, hnext, hn, hid]
      omega
    · rw [hports, ← ho.ports]
      have hothers : Holds others p.sockets.ports := by
        refine hb.holds.congr fun nr => or_iff_left ?_
        rintro ⟨hfalse, -⟩
        rw [hown howned] at hfalse
        cases hfalse
      exact map_eq_of_holds hothers hb'.free
  · -- the socket stays with the caller
    obtain ⟨hid, hn⟩ := ho.caller howned
    have howns : ¬ (initMngr true id protocol flags).owns := howned
    rw [if_neg howns] at hfreed hports
    have hfrees : FreesThose p0 q p0 q := by
      refine freesThose_of_mem hfreed List.nodup_nil (fun a => ?_) hdang0
      rw [Allocated, hnext, hn]
      refine iff_of_false List.not_mem_nil ?_
      omega
    rw [imp_iff_right howned, ← map_eq_iff_samePort hb hb', ← hports, ho.ports]
    exact ⟨fun hundone => hundone.ports, fun hsame => ⟨hfrees, hsame⟩⟩

/-- the manager that is returned -/
abbrev fullMngr (id sync : ℕ) (protocol : ℤ) (flags : BitVec 32) : NlCacheMngr :=
  { initMngr true id protocol flags with cmSyncSock := some sync }

theorem Obtained.freedLater (ho : Obtained p0 p id (flags &&& NL_ALLOCATED_SOCK ≠ 0)) (r r2 : ℤ × PortMap × NlSock) :
    FreedLater p0 (withBoth p id r r2) (fullMngr id p.next protocol flags) := by
  intro q assocs hthere
  have hnext : (withBoth p id r r2).next = p.next + 1 := rfl
  have hne : id ≠ p.next := ho.order.1.ne
  obtain ⟨q', hq', hdang, hfreed⟩ := free_both q
    ({ fullMngr id p.next protocol flags with cmAssocs := some assocs, cmNassocs := assocs.length } : NlCacheMngr)
    rfl rfl rfl hne (hthere id (Or.inl rfl)) (hthere p.next (Or.inr rfl))
  change q'.freedSocks = q.freedSocks ++ p.next :: (if flags &&& NL_ALLOCATED_SOCK ≠ 0 then [id] else []) at hfreed
  refine ⟨q', hq', freesThose_of_mem hfreed ?_ (fun a => ?_) hdang⟩
  · split_ifs
    · exact List.nodup_cons.2 ⟨fun hmem => hne (List.mem_singleton.1 hmem).symm, List.nodup_singleton id⟩
    · exact List.nodup_singleton _
  · rw [Allocated, hnext]
    by_cases howned : flags &&& NL_ALLOCATED_SOCK ≠ 0
    · obtain ⟨hid, hn⟩ := ho.own howned
      rw [if_pos howned, List.mem_cons, List.mem_singleton]
      omega
    · obtain ⟨hid, hn⟩ := ho.caller howned
      rw [if_neg howned, List.mem_singleton]
      omega

/-- **The second socket is freed twice**, at `errout_free_sync_sock` and in `nl_cache_mngr_free`. -/
theorem Obtained.freed_twice (ho : Obtained p0 p id (flags &&& NL_ALLOCATED_SOCK ≠ 0)) (r r2 : ℤ × PortMap × NlSock)
    (err : ℤ) :
    ¬ ExceptionSafe p0
      (errout ((withBoth p id r r2).nlSocketFree p.next) (fullMngr id p.next protocol flags) err) := by
  obtain ⟨hfreed1, hnext1⟩ := (withBoth p id r r2).nlSocketFree_frame p.next
  obtain ⟨q', hq', hnext, hfreed⟩ := free_sync ((withBoth p id r r2).nlSocketFree p.next)
    (fullMngr id p.next protocol flags) rfl rfl rfl
  have hfreed0 : (withBoth p id r r2).freedSocks = p0.freedSocks := ho.freedSocks
  have hnext0 : (withBoth p id r r2).next = p.next + 1 := rfl
  rw [hfreed1, hfreed0, List.append_assoc] at hfreed
  rw [hnext1, hnext0] at hnext
  unfold errout
  rw [hq']
  intro hundone
  have honce := hundone.frees.once p.next ⟨ho.order.2, by rw [hnext]; exact Nat.lt_succ_self _⟩
  rw [newFrees_of_append hfreed, List.singleton_append, List.count_cons_self, List.count_cons_self] at honce
  omega

variable (e protocol) in
/-- **A call with a socket at hand** -/
theorem Obtained.safe_iff (ho : Obtained p0 p id (flags &&& NL_ALLOCATED_SOCK ≠ 0))
    (hsk : p.sockets.socks id = some sk) (hb : Balanced others p.sockets.ports sk)
    (hown : flags &&& NL_ALLOCATED_SOCK ≠ 0 → sk.ownPort = true)
    (hr : Ports.nlConnect e.connect protocol p.sockets.ports sk = r) :
    ExceptionSafe p0 (allocWith e p id protocol flags) ↔ e.assocs = true ∧
      (SocketsReady e r → 0 ≤ (Ports.nlConnect e.syncConnect protocol r.2.1 allocSocket).1) ∧
      (¬ SocketsReady e r → ¬ flags &&& NL_ALLOCATED_SOCK ≠ 0 → SamePort sk r.2.2) := by
  cases hassocs : e.assocs with
  | false =>
    rw [allocWith_crash hassocs]
    exact iff_of_false (fun hsafe => hsafe) fun hfalse => Bool.false_ne_true hfalse.1
  | true =>
    rw [eq_self_iff_true, true_and]
    by_cases hready : SocketsReady e r
    · rw [allocWith_ready hsk hr hassocs hready rfl]
      simp only [hready, true_implies, not_true_eq_false, false_implies, and_true]
      by_cases hneg : (Ports.nlConnect e.syncConnect protocol r.2.1 allocSocket).1 < 0
      · rw [if_pos hneg]
        exact iff_of_false (ho.freed_twice r _ _) (Int.not_le.2 hneg)
      · rw [if_neg hneg]
        exact iff_of_true (ho.freedLater r _) (Int.not_lt.1 hneg)
    · obtain ⟨err, herr⟩ := allocWith_failed flags hsk hr hassocs hready
      rw [herr, ho.undone_iff hb hown hr err]
      simp only [hready, false_implies, not_false_eq_true, true_implies, true_and]

end

theorem owned_flags (flags : BitVec 32) : (flags ||| NL_ALLOCATED_SOCK) &&& NL_ALLOCATED_SOCK ≠ 0 := by
  have hself : (flags ||| NL_ALLOCATED_SOCK) &&& NL_ALLOCATED_SOCK = NL_ALLOCATED_SOCK := by
    refine BitVec.eq_of_getLsbD_eq fun i _ => ?_
    rw [BitVec.getLsbD_and, BitVec.getLsbD_or]
    cases NL_ALLOCATED_SOCK.getLsbD i with
    | true => simp
    | false => simp
  rw [hself]
  decide

/-- **Exception safety of `nl_cache_mngr_alloc`.** For every state of the process, with a socket of the caller or without,
every protocol, and whatever each call in it returns: a call that fails has freed the sockets it allocated, each once, and no
others, and the ports in use are those that were, and a manager that was made frees just these sockets later; if and only if
the call rolls back. -/
theorem alloc_safe_iff {p : Proc} (h : Ready p) {sk : Option ℕ} {flags : BitVec 32}
    (hsk : ∀ id, sk = some id → (p.sockets.socks id).isSome = true) (hflags : flags &&& NL_ALLOCATED_SOCK = 0) (e : AllocEnv)
    (protocol : ℤ) :
    ExceptionSafe p (nlCacheMngrAlloc e p sk protocol flags) ↔ RollsBack e p sk protocol := by
  have hnone : FreesThose p p p p :=
    freesThose_of_mem (List.append_nil _).symm List.nodup_nil
      (fun id => iff_of_false List.not_mem_nil fun hid => Nat.lt_irrefl _ (Nat.lt_of_le_of_lt hid.1 hid.2)) rfl
  unfold nlCacheMngrAlloc RollsBack
  rw [if_neg (not_not.2 hflags)]
  cases hmngr : e.mngr with
  | false =>
    refine iff_of_true ?_ (fun hfalse => absurd hfalse Bool.false_ne_true)
    exact ⟨hnone, rfl⟩
  | true =>
    rw [imp_iff_right rfl]
    cases sk with
    | some id =>
      obtain ⟨s, hs⟩ := Option.isSome_iff_exists.1 (hsk id rfl)
      have hlt : id < p.next := by
        by_contra hge
        rw [h.fresh id (Nat.not_lt.1 hge)] at hs
        cases hs
      have hobtained : Obtained p p id (flags &&& NL_ALLOCATED_SOCK ≠ 0) :=
        ⟨rfl, rfl, rfl, fun hne => absurd hflags hne, fun _ => ⟨hlt, rfl⟩⟩
      have hgiven : notifySock p (some id) = s := by
        rw [notifySock, hs, Option.getD_some]
      rw [hgiven]
      have hsafe := hobtained.safe_iff e protocol hs (h.inv.balanced hs) (fun hne => absurd hflags hne) rfl
      rw [imp_iff_right (not_not.2 hflags)] at hsafe
      refine hsafe.trans ?_
      simp
    | none =>
      cases hsock : e.sock with
      | false =>
        refine iff_of_true ?_ (fun hfalse => absurd (hfalse rfl) Bool.false_ne_true)
        exact ⟨hnone, rfl⟩
      | true =>
        have hspare := h.inv.spare (h.fresh p.next le_rfl)
        have hobtained : Obtained p (p.nlSocketAlloc true).1 p.next ((flags ||| NL_ALLOCATED_SOCK) &&& NL_ALLOCATED_SOCK ≠ 0) :=
          ⟨rfl, rfl, rfl, fun _ => ⟨rfl, rfl⟩, fun hno => absurd (owned_flags flags) hno⟩
        have hthere : (p.nlSocketAlloc true).1.sockets.socks p.next = some allocSocket := put_self _
        have hsafe := hobtained.safe_iff e protocol hthere (balanced_own hspare rfl) (fun _ => rfl) rfl
        refine Iff.trans hsafe ?_
        have hports : (p.nlSocketAlloc true).1.sockets.ports = p.sockets.ports := rfl
        rw [hports, imp_iff_right (fun _ => rfl)]
        exact and_congr_right fun _ => and_congr_right fun _ =>
          iff_of_true (fun _ hno => absurd (owned_flags flags) hno) fun _ hne => absurd rfl hne

/-- a process without sockets -/
def Proc.init : Proc := ⟨State.init, 0, [], [], false⟩

theorem init_ready : Ready Proc.init := ⟨Ports.Inv.init, fun _ _ => rfl⟩

/-- answers for a socket that connects, at the port the system says it has -/
def connects : ConnectEnv where
  socket := .ok 7
  setBufferSize := 0
  gen _ := ⟨4242, 0⟩
  bind _ := 0
  lastBind := 0
  getsockname := .ok ⟨true, AF_NETLINK, 4242⟩

/-- answers of a system that has no file descriptor left (`EMFILE`) for the second socket -/
def noSecondSocket : AllocEnv where
  mngr := true
  sock := true
  assocs := true
  connect := connects
  fcntl := 0
  syncSock := true
  syncConnect := { connects with socket := .error 24 }

/-- memory is short when the second socket is to be allocated -/
theorem alloc_safe_iff_nomem : ExceptionSafe Proc.init
    (nlCacheMngrAlloc { noSecondSocket with syncSock := false } Proc.init none 0 1) := by
  refine (alloc_safe_iff init_ready (fun id hid => absurd hid (Option.some_ne_none id).symm) (by decide) _ 0).2 fun _ _ => ⟨rfl, fun hready => ?_, ?_⟩
  · exact absurd hready.2.2 Bool.false_ne_true
  · exact fun _ hne => absurd rfl hne

/-- **A double free.** Nothing fails but the connection of the second socket, which is then freed twice; after that the first
one is freed. -/
theorem sync_socket_freed_twice :
    (nlCacheMngrAlloc noSecondSocket Proc.init none 0 1).map (fun r => (r.1.freedSocks, r.1.dangling)) =
      some ([1, 1, 0], true) ∧
    ¬ ExceptionSafe Proc.init (nlCacheMngrAlloc noSecondSocket Proc.init none 0 1) := by
  obtain ⟨p', err, heq, hfreed, hused, hnext⟩ : ∃ p' err,
      nlCacheMngrAlloc noSecondSocket Proc.init none 0 1 = some (p', .error err) ∧ p'.freedSocks = [1, 1, 0] ∧
        p'.dangling = true ∧ p'.next = 2 := ⟨_, _, rfl, rfl, rfl, rfl⟩
  rw [heq]
  refine ⟨?_, fun hundone => ?_⟩
  · rw [Option.map_some, hfreed, hused]
  · have honce := hundone.frees.once 1 ⟨Nat.zero_le 1, by rw [hnext]; exact Nat.lt_succ_self 1⟩
    rw [newFrees_of_append hfreed] at honce
    exact absurd honce (by decide)

end Libnl.CacheMngr
