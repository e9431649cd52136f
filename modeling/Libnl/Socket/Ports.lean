/-
Local ports (`generate_local_port` and its users in `lib/socket.c`, `nl_connect` in `lib/nl.c`).

A process has 1024 ports, one for each value of the upper ten bits. A map of bits, shared by all sockets, says which are
in use; each socket says by a flag whether the port it has is its own affair (`NL_OWN_PORT`) or comes from the map.
`nl_connect` takes ports, finds some of them in use elsewhere, and gives these back together when it is done.

What the system answers (process id, time, results of `socket`, `bind`, `getsockname` and `getsockopt`) is an argument
of each operation, so that every outcome is covered. `BUG_ON` sets a flag.

- `generate_spec`: a port is given out unless all of them are in use; the walk over words and bits comes everywhere.
- `Balanced`: the map holds what others have and what this socket has. Every operation on a socket keeps this, whatever
  the others have.
- `ports_in_step`: in every run the bits are those of the ports that sockets have from the map, no two have the same one,
  and no `BUG_ON` is reached; and a port is refused if and only if all 1024 are in use.
- `block_zero_is_given_out`: the ports of the first word are not reserved.
-/
import Mathlib.Tactic
import Mathlib.Data.List.TakeWhile
import Libnl.Core.Bitmap
import Libnl.Socket.Recvmsgs

namespace Libnl.Ports

open Bitmap Msg
open Recv (nlSyserr2nlerr)

/-! ## The map -/

structure PortMap where
  usedPortsMap : Words
  idxState : BitVec 16
  /-- a `BUG_ON` was reached -/
  bug : Bool

/-- what `getpid` and `time` return -/
structure Env where
  pid : BitVec 32
  time : BitVec 32

/-- the upper ten bits of a port -/
def slotOf (port : BitVec 32) : ℕ := (port >>> 22).toNat

/-- the next value of `idx_state` -/
def nextIdx (idx : BitVec 16) (t : BitVec 32) : BitVec 16 :=
  if idx = 0 then (t ^^^ (t >>> 16) ^^^ 0x3047).setWidth 16 else idx + 20011

/-- the loop over the bits of a word, with `m` rounds left: the bit, and whether it is free -/
def walkBits (w : BitVec 32) : ℕ → ℕ → ℕ × Bool
  | 0, n => (n, false)
  | m + 1, n =>
    let n := (n + 13) % 32
    if w.getLsbD n then walkBits w m n else (n, true)

/-- the loop over the words, with `left` rounds left; the last round is for word 0 -/
def walkBlocks (map : Words) : ℕ → ℕ → ℕ → Option ℕ
  | 0, _, _ => none
  | left + 1, i, n =>
    let i := if left = 0 then 0 else (i + 6) % 31 + 1
    if map i = 0xFFFFFFFF then walkBlocks map left i n
    else
      match walkBits (map i) 32 n with
      | (n, true) => some (n + i * 32)
      | (n, false) => walkBlocks map left i n

def generateLocalPort (env : Env) (pm : PortMap) : BitVec 32 × PortMap :=
  let idx := nextIdx pm.idxState env.time
  let pid := env.pid &&& 0x3FFFFF#32
  match walkBlocks pm.usedPortsMap 32 (idx.toNat / 32) idx.toNat with
  | none => (0, { pm with idxState := idx })
  | some n =>
    let pid := pid + (BitVec.ofNat 32 n <<< 22)
    (if pid = 0 then 1024 else pid, { pm with usedPortsMap := set pm.usedPortsMap n, idxState := idx })

def releaseLocalPort (port : BitVec 32) (pm : PortMap) : PortMap :=
  let nr := slotOf port
  let mask := wordMask nr
  { pm with
    bug := pm.bug || decide (port = 0) || decide (pm.usedPortsMap (nr / 32) &&& mask ≠ mask)
    usedPortsMap := clear pm.usedPortsMap nr }

/-- `_nl_socket_used_ports_set` -/
def usedPortsSet (used : Words) (port : BitVec 32) : Words := set used (slotOf port)

/-- one word of `_nl_socket_used_ports_release_all` -/
def releaseWord (used : Words) (pm : PortMap) (i : ℕ) : PortMap :=
  { pm with
    bug := pm.bug || decide (pm.usedPortsMap i &&& used i ≠ used i)
    usedPortsMap := Function.update pm.usedPortsMap i (pm.usedPortsMap i &&& ~~~used i) }

/-- `_nl_socket_used_ports_release_all`, from the first word that is not zero -/
def usedPortsReleaseAll (used : Words) (pm : PortMap) : PortMap :=
  ((List.range 32).dropWhile fun i => decide (used i = 0)).foldl (releaseWord used) pm

/-! ## Operations on a socket -/

/-- `struct nl_sock`, as far as ports are concerned -/
structure NlSock where
  sFd : ℤ
  sProto : ℤ
  /-- `s_local.nl_pid` -/
  nlPid : BitVec 32
  /-- `NL_OWN_PORT` -/
  ownPort : Bool
deriving DecidableEq, Repr

/-- `__alloc_socket` -/
def allocSocket : NlSock := ⟨-1, 0, 0, true⟩

/-- `nl_socket_free`, what it does to the map -/
def nlSocketFree (pm : PortMap) (sk : NlSock) : PortMap :=
  if sk.ownPort then pm else releaseLocalPort sk.nlPid pm

/-- `_nl_socket_set_local_port_no_release` -/
def setLocalPortNoRelease (env : Env) (generateOther : Bool) (pm : PortMap) (sk : NlSock) :
    BitVec 32 × PortMap × NlSock :=
  let r := if generateOther then generateLocalPort env pm else (0, pm)
  (r.1, r.2, { sk with nlPid := r.1, ownPort := decide (r.1 = 0) })

def nlSocketGetLocalPort (env : Env) (pm : PortMap) (sk : NlSock) : BitVec 32 × PortMap × NlSock :=
  if sk.nlPid = 0 then
    let r := generateLocalPort env pm
    if r.1 = 0 then (0xFFFFFFFF, r.2, { sk with nlPid := 0xFFFFFFFF, ownPort := true })
    else (r.1, r.2, { sk with nlPid := r.1, ownPort := false })
  else (sk.nlPid, pm, sk)

def nlSocketSetLocalPort (port : BitVec 32) (pm : PortMap) (sk : NlSock) : PortMap × NlSock :=
  (if sk.ownPort then pm else releaseLocalPort sk.nlPid pm, { sk with ownPort := true, nlPid := port })

/-- what `getsockname` leaves: whether the length is that of a `struct sockaddr_nl`, the family, the port -/
structure SockName where
  lenOk : Bool
  nlFamily : ℕ
  nlPid : BitVec 32

def AF_NETLINK : ℕ := 16
def SOCK_RAW : ℤ := 3
def EADDRINUSE : ℤ := 98
def ENOPROTOOPT : ℤ := 92

/-- what `getsockopt` leaves -/
structure SockOpt where
  lenOk : Bool
  val : ℤ

/-- answers of the system during `nl_connect`; a failing call gives its `errno`, and `bind` zero if it succeeds -/
structure ConnectEnv where
  socket : Except ℤ ℤ
  /-- what `nl_socket_set_buffer_size` returns -/
  setBufferSize : ℤ
  gen : ℕ → Env
  bind : ℕ → ℤ
  lastBind : ℤ
  getsockname : Except ℤ SockName

inductive Tried where
  | bound | unbound
  | failed (err : ℤ)

/-- the loop that tries generated ports, with `left` tries left -/
def connectLoop (e : ConnectEnv) : ℕ → PortMap → NlSock → Words → Tried × PortMap × NlSock
  | 0, pm, sk, used =>
    let r := setLocalPortNoRelease (e.gen 0) false pm sk
    (.unbound, usedPortsReleaseAll used r.2.1, r.2.2)
  | left + 1, pm, sk, used =>
    let r := setLocalPortNoRelease (e.gen left) true pm sk
    if r.1 = 0 then (.unbound, usedPortsReleaseAll used r.2.1, r.2.2)
    else if e.bind left = 0 then (.bound, usedPortsReleaseAll used r.2.1, r.2.2)
    else if e.bind left = EADDRINUSE then connectLoop e left r.2.1 r.2.2 (usedPortsSet used r.1)
    else (.failed (-nlSyserr2nlerr (e.bind left)), usedPortsReleaseAll used r.2.1, r.2.2)

/-- the label `errout` of `nl_connect` -/
def errout (err : ℤ) (pm : PortMap) (sk : NlSock) : ℤ × PortMap × NlSock := (err, pm, { sk with sFd := -1 })

/-- the end of `nl_connect`, when the socket is bound -/
def connectName (e : ConnectEnv) (protocol : ℤ) (pm : PortMap) (sk : NlSock) : ℤ × PortMap × NlSock :=
  match e.getsockname with
  | .error errno => errout (-nlSyserr2nlerr errno) pm sk
  | .ok loc =>
    if ¬ loc.lenOk then errout (-NLE_NOADDR) pm sk
    else if loc.nlFamily ≠ AF_NETLINK then errout (-NLE_AF_NOSUPPORT) pm sk
    else
      let r := if sk.nlPid ≠ loc.nlPid then nlSocketSetLocalPort loc.nlPid pm sk else (pm, sk)
      (0, r.1, { r.2 with nlPid := loc.nlPid, sProto := protocol })

def nlConnect (e : ConnectEnv) (protocol : ℤ) (pm : PortMap) (sk : NlSock) : ℤ × PortMap × NlSock :=
  if sk.sFd ≠ -1 then (-NLE_BAD_SOCK, pm, sk)
  else
    match e.socket with
    | .error errno => errout (-nlSyserr2nlerr errno) pm sk
    | .ok fd =>
      let sk := { sk with sFd := fd }
      if e.setBufferSize < 0 then errout e.setBufferSize pm sk
      else
        match if sk.nlPid = 0 then connectLoop e 6 pm sk fun _ => 0 else (.unbound, pm, sk) with
        | (.failed err, pm, sk) => errout err pm sk
        | (.unbound, pm, sk) =>
          if e.lastBind ≠ 0 then errout (-nlSyserr2nlerr e.lastBind) pm sk else connectName e protocol pm sk
        | (.bound, pm, sk) => connectName e protocol pm sk

/-- answers of the system during `nl_socket_set_fd`; `soProtocol` is `none` if there is no such option -/
structure FdEnv where
  getsockname : Except ℤ SockName
  soType : Except ℤ SockOpt
  soProtocol : Option (Except ℤ SockOpt)

/-- the checks of `nl_socket_set_fd`: the port and the protocol, or an error -/
def probeFd (e : FdEnv) (protocol fd : ℤ) (sk : NlSock) : Except ℤ (BitVec 32 × ℤ) := do
  if sk.sFd ≠ -1 then throw (-NLE_BAD_SOCK)
  if fd < 0 then throw (-NLE_INVAL)
  let loc ← e.getsockname.mapError fun errno => -nlSyserr2nlerr errno
  if ¬ loc.lenOk then throw (-NLE_INVAL)
  if loc.nlFamily ≠ AF_NETLINK then throw (-NLE_INVAL)
  let soType ← e.soType.mapError fun errno => -nlSyserr2nlerr errno
  if ¬ soType.lenOk then throw (-NLE_INVAL)
  if soType.val ≠ SOCK_RAW then throw (-NLE_INVAL)
  match e.soProtocol with
  | some (.ok opt) =>
    if ¬ opt.lenOk then throw (-NLE_INVAL)
    if protocol ≥ 0 ∧ protocol ≠ opt.val then throw (-NLE_INVAL)
    return (loc.nlPid, opt.val)
  | some (.error errno) =>
    if errno ≠ ENOPROTOOPT then throw (-nlSyserr2nlerr errno)
    if protocol < 0 then throw (-NLE_INVAL)
    return (loc.nlPid, protocol)
  | none =>
    if protocol < 0 then throw (-NLE_INVAL)
    return (loc.nlPid, protocol)

def nlSocketSetFd (e : FdEnv) (protocol fd : ℤ) (pm : PortMap) (sk : NlSock) : ℤ × PortMap × NlSock :=
  match probeFd e protocol fd sk with
  | .error err => (err, pm, sk)
  | .ok (pid, proto) =>
    let r := nlSocketSetLocalPort pid pm sk
    (0, r.1, { r.2 with nlPid := pid, sFd := fd, sProto := proto })

/-- `nl_close` -/
def nlClose (sk : NlSock) : NlSock := { sk with sFd := if sk.sFd ≥ 0 then -1 else sk.sFd, sProto := 0 }

/-! ## Generating a port -/

theorem walkBits_found {w : BitVec 32} {m n n' : ℕ} (h : walkBits w m n = (n', true)) :
    n' < 32 ∧ w.getLsbD n' = false := by
  induction m generalizing n with
  | zero => cases h
  | succ m ih =>
    simp only [walkBits] at h
    by_cases hbit : w.getLsbD ((n + 13) % 32) = true
    · rw [if_pos hbit] at h
      exact ih h
    · rw [if_neg hbit] at h
      cases h
      exact ⟨Nat.mod_lt _ (by decide), Bool.eq_false_iff.2 hbit⟩

/-- the bits a walk without success has come to -/
theorem walkBits_none {w : BitVec 32} {m n : ℕ} (h : (walkBits w m n).2 = false) :
    ∀ j < m, w.getLsbD ((n + 13 + 13 * j) % 32) = true := by
  induction m generalizing n with
  | zero =>
    intro j hj
    exact absurd hj (Nat.not_lt_zero j)
  | succ m ih =>
    simp only [walkBits] at h
    by_cases hbit : w.getLsbD ((n + 13) % 32) = true
    · rw [if_pos hbit] at h
      intro j hj
      cases j with
      | zero => exact hbit
      | succ j =>
        have hnext := ih h j (Nat.lt_of_succ_lt_succ hj)
        have hsame : ((n + 13) % 32 + 13 + 13 * j) % 32 = (n + 13 + 13 * (j + 1)) % 32 := by omega
        rwa [hsame] at hnext
    · rw [if_neg hbit] at h
      cases h

/-- **A word that is not full** has a bit the walk comes to. -/
theorem walkBits_full {w : BitVec 32} {n : ℕ} (h : (walkBits w 32 n).2 = false) : w = 0xFFFFFFFF := by
  rw [full_iff]
  intro b hb
  obtain ⟨j, hj, heq⟩ := exists_step (c := 13) (N := 32) (by decide) (by decide) (n + 13) b hb
  rw [← heq]
  exact walkBits_none h j hj

theorem walkBlocks_found {map : Words} {left i n k : ℕ} (h : walkBlocks map left i n = some k) :
    k < 1024 ∧ has map k = false := by
  induction left generalizing i n with
  | zero => cases h
  | succ left ih =>
    simp only [walkBlocks] at h
    generalize hi : (if left = 0 then 0 else (i + 6) % 31 + 1) = i' at h
    have hlt : i' < 32 := by
      rw [← hi]
      split_ifs
      · decide
      · omega
    by_cases hfull : map i' = 0xFFFFFFFF
    · rw [if_pos hfull] at h
      exact ih h
    · rw [if_neg hfull] at h
      cases hw : walkBits (map i') 32 n with
      | mk n' found =>
        rw [hw] at h
        cases found with
        | false => exact ih h
        | true =>
          cases h
          obtain ⟨hn, hbit⟩ := walkBits_found hw
          have hdiv : (n' + i' * 32) / 32 = i' := by omega
          have hmod : (n' + i' * 32) % 32 = n' := by omega
          refine ⟨by omega, ?_⟩
          rw [has, hdiv, hmod]
          exact hbit

/-- the words a walk without success has come to -/
theorem walkBlocks_none {map : Words} {left i n : ℕ} (h : walkBlocks map left i n = none) :
    (∀ j, j + 1 < left → map ((i + 6 + 7 * j) % 31 + 1) = 0xFFFFFFFF) ∧ (0 < left → map 0 = 0xFFFFFFFF) := by
  induction left generalizing i n with
  | zero =>
    refine ⟨?_, ?_⟩
    · intro j hj
      exact absurd hj (Nat.not_lt_zero _)
    · intro hpos
      exact absurd hpos (Nat.lt_irrefl 0)
  | succ left ih =>
    simp only [walkBlocks] at h
    generalize hi : (if left = 0 then 0 else (i + 6) % 31 + 1) = i' at h
    have hhere : map i' = 0xFFFFFFFF ∧ ∃ n', walkBlocks map left i' n' = none := by
      by_cases hfull : map i' = 0xFFFFFFFF
      · rw [if_pos hfull] at h
        exact ⟨hfull, n, h⟩
      · rw [if_neg hfull] at h
        cases hw : walkBits (map i') 32 n with
        | mk n' found =>
          rw [hw] at h
          cases found with
          | true => cases h
          | false => exact absurd (walkBits_full (by rw [hw])) hfull
    obtain ⟨hfull, n', hrest⟩ := hhere
    obtain ⟨hwords, hzero⟩ := ih hrest
    by_cases hlast : left = 0
    · rw [if_pos hlast] at hi
      subst hi
      refine ⟨?_, fun _ => hfull⟩
      intro j hj
      omega
    · rw [if_neg hlast] at hi
      refine ⟨?_, fun _ => hzero (Nat.pos_of_ne_zero hlast)⟩
      intro j hj
      cases j with
      | zero =>
        rw [Nat.mul_zero, Nat.add_zero, hi]
        exact hfull
      | succ j =>
        have hword := hwords j (Nat.lt_of_succ_lt_succ hj)
        have hsame : (i' + 6 + 7 * j) % 31 = (i + 6 + 7 * (j + 1)) % 31 := by omega
        rwa [hsame] at hword

/-- **A walk without success** has come to every word. -/
theorem walkBlocks_full {map : Words} {i n : ℕ} (h : walkBlocks map 32 i n = none) :
    ∀ nr < 1024, has map nr = true := by
  obtain ⟨hwords, hzero⟩ := walkBlocks_none h
  intro nr hnr
  have hfull : map (nr / 32) = 0xFFFFFFFF := by
    cases hw : nr / 32 with
    | zero => exact hzero (by decide)
    | succ k =>
      obtain ⟨j, hj, heq⟩ := exists_step (c := 7) (N := 31) (by decide) (by decide) (i + 6) k (by omega)
      rw [← heq]
      exact hwords j (by omega)
  exact (full_iff _).1 hfull (nr % 32) (Nat.mod_lt _ (by decide))

/-- the slot of a generated port -/
theorem slotOf_generated (pid : BitVec 32) {n : ℕ} (hn : n < 1024) :
    slotOf ((pid &&& 0x3FFFFF#32) + (BitVec.ofNat 32 n <<< 22)) = n := by
  have hpid : (pid &&& 0x3FFFFF#32).toNat < 4194304 := by
    rw [BitVec.toNat_and]
    exact lt_of_le_of_lt Nat.and_le_right (by decide)
  have hshift : (BitVec.ofNat 32 n <<< 22).toNat = n * 4194304 := by
    rw [BitVec.toNat_shiftLeft, BitVec.toNat_ofNat, Nat.shiftLeft_eq]
    omega
  rw [slotOf, BitVec.toNat_ushiftRight, BitVec.toNat_add, hshift, Nat.shiftRight_eq_div_pow]
  omega

theorem slotOf_lt (port : BitVec 32) : slotOf port < 1024 := by
  have h := port.isLt
  rw [slotOf, BitVec.toNat_ushiftRight, Nat.shiftRight_eq_div_pow]
  omega

/-- **A port is given out, or all of them are in use.** -/
theorem generate_spec (env : Env) (pm : PortMap) : (generateLocalPort env pm).2.bug = pm.bug ∧
    (((generateLocalPort env pm).1 = 0 ∧ (generateLocalPort env pm).2.usedPortsMap = pm.usedPortsMap ∧
        ∀ nr < 1024, has pm.usedPortsMap nr = true) ∨
      ((generateLocalPort env pm).1 ≠ 0 ∧ has pm.usedPortsMap (slotOf (generateLocalPort env pm).1) = false ∧
        (generateLocalPort env pm).2.usedPortsMap =
          set pm.usedPortsMap (slotOf (generateLocalPort env pm).1))) := by
  simp only [generateLocalPort]
  cases hw : walkBlocks pm.usedPortsMap 32 ((nextIdx pm.idxState env.time).toNat / 32)
      (nextIdx pm.idxState env.time).toNat with
  | none => exact ⟨rfl, Or.inl ⟨rfl, rfl, walkBlocks_full hw⟩⟩
  | some n =>
    obtain ⟨hn, hfree⟩ := walkBlocks_found hw
    have hslot := slotOf_generated env.pid hn
    refine ⟨rfl, Or.inr ?_⟩
    dsimp only
    by_cases hzero : (env.pid &&& 0x3FFFFF#32) + (BitVec.ofNat 32 n <<< 22) = 0
    · -- only the port zero is replaced, by another one of the same slot
      rw [hzero] at hslot
      have hsame : slotOf 1024 = n := hslot
      rw [if_pos hzero, hsame]
      exact ⟨by decide, hfree, rfl⟩
    · rw [if_neg hzero, hslot]
      exact ⟨hzero, hfree, rfl⟩

theorem generate_fails_iff (env : Env) (pm : PortMap) :
    (generateLocalPort env pm).1 = 0 ↔ ∀ nr < 1024, has pm.usedPortsMap nr = true := by
  constructor
  · intro hfail
    rcases (generate_spec env pm).2 with ⟨-, -, hall⟩ | ⟨hne, -, -⟩
    · exact hall
    · exact absurd hfail hne
  · intro hall
    rcases (generate_spec env pm).2 with ⟨hfail, -, -⟩ | ⟨-, hfree, -⟩
    · exact hfail
    · rw [hall _ (slotOf_lt _)] at hfree
      cases hfree

/-! ## What the map holds -/

/-- the bits of the map are those of `S`, and nothing went wrong -/
structure Holds (S : ℕ → Prop) (pm : PortMap) : Prop where
  used : ∀ nr, has pm.usedPortsMap nr = true ↔ S nr
  noBug : pm.bug = false

theorem Holds.congr {S T : ℕ → Prop} {pm : PortMap} (h : Holds S pm) (hST : ∀ nr, S nr ↔ T nr) : Holds T pm :=
  ⟨fun nr => (h.used nr).trans (hST nr), h.noBug⟩

section

variable {S : ℕ → Prop} {pm : PortMap}

/-- a port is generated -/
theorem Holds.generate (h : Holds S pm) (env : Env) :
    ((generateLocalPort env pm).1 = 0 ∧ Holds S (generateLocalPort env pm).2) ∨
      ((generateLocalPort env pm).1 ≠ 0 ∧ ¬ S (slotOf (generateLocalPort env pm).1) ∧
        Holds (fun nr => S nr ∨ nr = slotOf (generateLocalPort env pm).1) (generateLocalPort env pm).2) := by
  obtain ⟨hbug, hgen⟩ := generate_spec env pm
  rcases hgen with ⟨hfail, hmap, -⟩ | ⟨hne, hfree, hmap⟩
  · refine Or.inl ⟨hfail, ?_, hbug.trans h.noBug⟩
    intro nr
    rw [hmap]
    exact h.used nr
  · refine Or.inr ⟨hne, ?_, ?_, hbug.trans h.noBug⟩
    · intro hS
      rw [(h.used _).2 hS] at hfree
      cases hfree
    · intro nr
      rw [hmap, has_set, Bool.or_eq_true, h.used, decide_eq_true_eq]

/-- a port is given back -/
theorem Holds.release (h : Holds S pm) {port : BitVec 32} (hne : port ≠ 0) (hS : S (slotOf port)) :
    Holds (fun nr => S nr ∧ nr ≠ slotOf port) (releaseLocalPort port pm) := by
  have hmask := (masked_iff pm.usedPortsMap (slotOf port)).2 ((h.used _).2 hS)
  constructor
  · intro nr
    simp only [releaseLocalPort, has_clear, Bool.and_eq_true, h.used, Bool.not_eq_true', decide_eq_false_iff_not, ne_eq]
  · simp only [releaseLocalPort, h.noBug, hmask, decide_eq_false hne]
    simp

end

/-- the words a loop of `releaseWord` goes through, each once -/
theorem foldl_releaseWord (used : Words) {l : List ℕ} (hl : l.Nodup) (pm : PortMap) :
    (l.foldl (releaseWord used) pm).usedPortsMap =
        (fun i => if i ∈ l then pm.usedPortsMap i &&& ~~~used i else pm.usedPortsMap i) ∧
      ((∀ i ∈ l, pm.usedPortsMap i &&& used i = used i) → (l.foldl (releaseWord used) pm).bug = pm.bug) := by
  induction l generalizing pm with
  | nil => simp
  | cons i l ih =>
    obtain ⟨hi, hl⟩ := List.nodup_cons.1 hl
    obtain ⟨hmap, hbug⟩ := ih hl (releaseWord used pm i)
    rw [List.foldl_cons]
    constructor
    · rw [hmap]
      funext k
      by_cases hk : k = i
      · subst hk
        simp [hi, releaseWord]
      · simp [hk, releaseWord]
    · intro hall
      rw [hbug]
      · simp [releaseWord, hall i List.mem_cons_self]
      · intro k hk
        have hne : k ≠ i := by
          rintro rfl
          exact hi hk
        simp only [releaseWord, Function.update_of_ne hne]
        exact hall k (List.mem_cons_of_mem i hk)

/-- the loop leaves out only words that are zero -/
theorem mem_or_zero (used : Words) {i : ℕ} (hi : i < 32) :
    i ∈ (List.range 32).dropWhile (fun i => decide (used i = 0)) ∨ used i = 0 := by
  have hmem : i ∈ (List.range 32).takeWhile (fun i => decide (used i = 0)) ++
      (List.range 32).dropWhile (fun i => decide (used i = 0)) := by
    rw [List.takeWhile_append_dropWhile]
    exact List.mem_range.2 hi
  rcases List.mem_append.1 hmem with h | h
  · have hzero := List.mem_takeWhile_imp h
    exact Or.inr (of_decide_eq_true hzero)
  · exact Or.inl h

/-- ports are given back together -/
theorem Holds.releaseAll {S : ℕ → Prop} {pm : PortMap} {used : Words} (h : Holds S pm)
    (hsmall : ∀ i, 32 ≤ i → used i = 0) (hsub : ∀ nr, has used nr = true → S nr) :
    Holds (fun nr => S nr ∧ has used nr = false) (usedPortsReleaseAll used pm) := by
  have hnodup : ((List.range 32).dropWhile fun i => decide (used i = 0)).Nodup :=
    List.nodup_range.sublist (List.dropWhile_sublist _)
  obtain ⟨hmap, hbug⟩ := foldl_releaseWord used hnodup pm
  have hall : (usedPortsReleaseAll used pm).usedPortsMap = fun i => pm.usedPortsMap i &&& ~~~used i := by
    rw [usedPortsReleaseAll, hmap]
    funext i
    split_ifs with hi
    · rfl
    · have hzero : used i = 0 := by
        by_cases hlt : i < 32
        · exact (mem_or_zero used hlt).resolve_left hi
        · exact hsmall i (Nat.le_of_not_lt hlt)
      have hones : ~~~(0 : BitVec 32) = BitVec.allOnes 32 := rfl
      rw [hzero, hones, BitVec.and_allOnes]
  constructor
  · intro nr
    rw [hall, has_diff, Bool.and_eq_true, h.used, Bool.not_eq_true']
  · rw [usedPortsReleaseAll, hbug, h.noBug]
    intro i _
    rw [covered_iff]
    intro nr _ hnr
    exact (h.used nr).2 (hsub nr hnr)

theorem usedPortsSet_small {used : Words} (hsmall : ∀ i, 32 ≤ i → used i = 0) (port : BitVec 32) :
    ∀ i, 32 ≤ i → usedPortsSet used port i = 0 := by
  intro i hi
  have hslot := slotOf_lt port
  have hne : i ≠ slotOf port / 32 := by omega
  rw [usedPortsSet, Bitmap.set, Function.update_of_ne hne]
  exact hsmall i hi

/-! ## One socket -/

/-- the socket has the slot `nr` from the map -/
def Generated (sk : NlSock) (nr : ℕ) : Prop := sk.ownPort = false ∧ slotOf sk.nlPid = nr

/-- the map holds what others have and what the socket has -/
structure Balanced (others : ℕ → Prop) (pm : PortMap) (sk : NlSock) : Prop where
  holds : Holds (fun nr => others nr ∨ Generated sk nr) pm
  apart : ∀ nr, Generated sk nr → ¬ others nr
  nonzero : sk.ownPort = false → sk.nlPid ≠ 0

section

variable {others : ℕ → Prop} {pm : PortMap} {sk : NlSock}

/-- a socket whose port is its own affair -/
theorem balanced_own (h : Holds others pm) (hown : sk.ownPort = true) : Balanced others pm sk := by
  have hnone : ∀ nr, ¬ Generated sk nr := by
    rintro nr ⟨hfalse, -⟩
    rw [hown] at hfalse
    cases hfalse
  refine ⟨h.congr fun nr => (or_iff_left (hnone nr)).symm, fun nr hnr => absurd hnr (hnone nr), fun hfalse => ?_⟩
  rw [hown] at hfalse
  cases hfalse

/-- a socket with a port from the map -/
theorem balanced_generated {port : BitVec 32} (h : Holds (fun nr => others nr ∨ nr = slotOf port) pm)
    (hnot : ¬ others (slotOf port)) (hne : port ≠ 0) (hpid : sk.nlPid = port) (hown : sk.ownPort = false) :
    Balanced others pm sk := by
  have hgen : ∀ nr, Generated sk nr ↔ nr = slotOf port := by
    intro nr
    rw [Generated, hpid]
    exact ⟨fun h => h.2.symm, fun h => ⟨hown, h.symm⟩⟩
  refine ⟨h.congr fun nr => by rw [hgen], fun nr hnr => ?_, fun _ => hpid ▸ hne⟩
  rw [(hgen nr).1 hnr]
  exact hnot

/-- the port is given back, if it is from the map -/
theorem Balanced.free (h : Balanced others pm sk) : Holds others (nlSocketFree pm sk) := by
  simp only [nlSocketFree]
  cases hown : sk.ownPort with
  | true =>
    refine h.holds.congr fun nr => or_iff_left ?_
    rintro ⟨hfalse, -⟩
    rw [hown] at hfalse
    cases hfalse
  | false =>
    have hrel := h.holds.release (h.nonzero hown) (Or.inr ⟨hown, rfl⟩)
    refine hrel.congr fun nr => ?_
    constructor
    · rintro ⟨hothers | ⟨-, hslot⟩, hne⟩
      · exact hothers
      · exact absurd hslot.symm hne
    · intro hothers
      refine ⟨Or.inl hothers, ?_⟩
      rintro rfl
      exact h.apart _ ⟨hown, rfl⟩ hothers

theorem Balanced.setLocalPort (h : Balanced others pm sk) (port : BitVec 32) :
    Balanced others (nlSocketSetLocalPort port pm sk).1 (nlSocketSetLocalPort port pm sk).2 :=
  balanced_own h.free rfl

theorem Balanced.getLocalPort (h : Balanced others pm sk) (env : Env) :
    Balanced others (nlSocketGetLocalPort env pm sk).2.1 (nlSocketGetLocalPort env pm sk).2.2 := by
  simp only [nlSocketGetLocalPort]
  by_cases hzero : sk.nlPid = 0
  · have hothers : Holds others pm := by
      refine h.holds.congr fun nr => or_iff_left ?_
      rintro ⟨hown, -⟩
      exact h.nonzero hown hzero
    rw [if_pos hzero]
    rcases hothers.generate env with ⟨hfail, hsame⟩ | ⟨hne, hnot, hmore⟩
    · rw [if_pos hfail]
      exact balanced_own hsame rfl
    · rw [if_neg hne]
      exact balanced_generated hmore hnot hne rfl rfl
  · rw [if_neg hzero]
    exact h

omit sk in
/-- what is left when ports found in use elsewhere are given back -/
theorem Holds.giveBack {used : Words} {T : ℕ → Prop} (hsmall : ∀ i, 32 ≤ i → used i = 0)
    (hapart : ∀ nr, has used nr = true → ¬ others nr) (hT : ∀ nr, T nr → has used nr = false)
    (h : Holds (fun nr => (others nr ∨ has used nr = true) ∨ T nr) pm) :
    Holds (fun nr => others nr ∨ T nr) (usedPortsReleaseAll used pm) := by
  refine (h.releaseAll hsmall fun nr hnr => Or.inl (Or.inr hnr)).congr fun nr => ?_
  have hothers := hapart nr
  have hfresh := hT nr
  cases hused : has used nr with
  | true =>
    simp only [hused, forall_true_left, Bool.true_eq_false, imp_false] at hothers hfresh
    simp [hothers, hfresh]
  | false => simp

/-- **The loop of `nl_connect`.** The ports found in use elsewhere are given back, however the loop ends. -/
theorem connectLoop_balanced (e : ConnectEnv) {used : Words} (hsmall : ∀ i, 32 ≤ i → used i = 0)
    (hapart : ∀ nr, has used nr = true → ¬ others nr) (h : Holds (fun nr => others nr ∨ has used nr = true) pm)
    (left : ℕ) :
    Balanced others (connectLoop e left pm sk used).2.1 (connectLoop e left pm sk used).2.2 := by
  -- a socket that ends without a port from the map
  have hnone : ∀ {used : Words} {pm : PortMap} {sk : NlSock}, (∀ i, 32 ≤ i → used i = 0) →
      (∀ nr, has used nr = true → ¬ others nr) → Holds (fun nr => others nr ∨ has used nr = true) pm →
      sk.ownPort = true → Balanced others (usedPortsReleaseAll used pm) sk := by
    intro used pm sk hsmall hapart h hown
    have hback := Holds.giveBack (T := fun _ => False) hsmall hapart (fun nr hf => hf.elim)
      (h.congr fun nr => (or_iff_left id).symm)
    exact balanced_own (hback.congr fun nr => or_iff_left id) hown
  induction left generalizing pm sk used with
  | zero => exact hnone hsmall hapart h rfl
  | succ left ih =>
    simp only [connectLoop, setLocalPortNoRelease, if_true]
    rcases h.generate (e.gen left) with ⟨hfail, hsame⟩ | ⟨hne, hnot, hmore⟩
    · rw [if_pos hfail]
      exact hnone hsmall hapart hsame (decide_eq_true hfail)
    · rw [if_neg hne]
      rw [not_or] at hnot
      generalize hport : (generateLocalPort (e.gen left) pm).1 = port at hne hnot hmore ⊢
      have hfresh : ∀ nr, nr = slotOf port → has used nr = false := by
        rintro nr rfl
        exact Bool.eq_false_iff.2 hnot.2
      have hkept := Holds.giveBack hsmall hapart hfresh hmore
      split_ifs
      · exact balanced_generated hkept hnot.1 hne rfl (decide_eq_false hne)
      · refine ih (usedPortsSet_small hsmall port) ?_ ?_
        · intro nr hnr
          rw [usedPortsSet, has_set, Bool.or_eq_true, decide_eq_true_eq] at hnr
          rcases hnr with hused | rfl
          · exact hapart nr hused
          · exact hnot.1
        · refine hmore.congr fun nr => ?_
          rw [usedPortsSet, has_set, Bool.or_eq_true, decide_eq_true_eq, or_assoc]
      · exact balanced_generated hkept hnot.1 hne rfl (decide_eq_false hne)

/-- a file descriptor or a protocol makes no difference -/
theorem Balanced.with (h : Balanced others pm sk) (fd proto : ℤ) :
    Balanced others pm { sk with sFd := fd, sProto := proto } := ⟨h.holds, h.apart, h.nonzero⟩

theorem connectName_balanced (e : ConnectEnv) (protocol : ℤ) (h : Balanced others pm sk) :
    Balanced others (connectName e protocol pm sk).2.1 (connectName e protocol pm sk).2.2 := by
  simp only [connectName]
  cases e.getsockname with
  | error errno => exact h.with (-1) sk.sProto
  | ok loc =>
    dsimp only
    by_cases hlen : ¬ loc.lenOk = true
    · rw [if_pos hlen]
      exact h.with (-1) sk.sProto
    rw [if_neg hlen]
    by_cases hfam : loc.nlFamily ≠ AF_NETLINK
    · rw [if_pos hfam]
      exact h.with (-1) sk.sProto
    rw [if_neg hfam]
    by_cases hpid : sk.nlPid ≠ loc.nlPid
    · rw [if_pos hpid]
      exact (h.setLocalPort loc.nlPid).with sk.sFd protocol
    · rw [if_neg hpid, ← not_not.1 hpid]
      exact h.with sk.sFd protocol

/-- **`nl_connect`**, whatever the system answers -/
theorem connect_balanced (e : ConnectEnv) (protocol : ℤ) (h : Balanced others pm sk) :
    Balanced others (nlConnect e protocol pm sk).2.1 (nlConnect e protocol pm sk).2.2 := by
  simp only [nlConnect]
  by_cases hfd : sk.sFd ≠ -1
  · rw [if_pos hfd]
    exact h
  rw [if_neg hfd]
  cases e.socket with
  | error errno => exact h.with (-1) sk.sProto
  | ok fd =>
    dsimp only
    by_cases hbuf : e.setBufferSize < 0
    · rw [if_pos hbuf]
      exact h.with (-1) sk.sProto
    rw [if_neg hbuf]
    have htried : Balanced others
        (if sk.nlPid = 0 then connectLoop e 6 pm { sk with sFd := fd } fun _ => 0
          else (.unbound, pm, { sk with sFd := fd })).2.1
        (if sk.nlPid = 0 then connectLoop e 6 pm { sk with sFd := fd } fun _ => 0
          else (.unbound, pm, { sk with sFd := fd })).2.2 := by
      by_cases hzero : sk.nlPid = 0
      · rw [if_pos hzero]
        have hempty : Holds (fun nr => others nr ∨ has (fun _ => 0) nr = true) pm := by
          refine h.holds.congr fun nr => or_congr_right ?_
          rw [has_zero]
          refine ⟨fun hgen => absurd hzero (h.nonzero hgen.1), fun hfalse => ?_⟩
          cases hfalse
        refine connectLoop_balanced e (fun i _ => rfl) (fun nr hnr => ?_) hempty 6
        rw [has_zero] at hnr
        cases hnr
      · rw [if_neg hzero]
        exact h.with fd sk.sProto
    generalize (if sk.nlPid = 0 then connectLoop e 6 pm { sk with sFd := fd } fun _ => 0
      else (.unbound, pm, { sk with sFd := fd })) = tried at htried ⊢
    obtain ⟨result, pm', sk'⟩ := tried
    cases result with
    | bound => exact connectName_balanced e protocol htried
    | failed err => exact htried.with (-1) sk'.sProto
    | unbound =>
      dsimp only
      by_cases hbind : e.lastBind ≠ 0
      · rw [if_pos hbind]
        exact htried.with (-1) sk'.sProto
      · rw [if_neg hbind]
        exact connectName_balanced e protocol htried

theorem setFd_balanced (e : FdEnv) (protocol fd : ℤ) (h : Balanced others pm sk) :
    Balanced others (nlSocketSetFd e protocol fd pm sk).2.1 (nlSocketSetFd e protocol fd pm sk).2.2 := by
  simp only [nlSocketSetFd]
  cases probeFd e protocol fd sk with
  | error err => exact h
  | ok found => exact (h.setLocalPort found.1).with fd found.2

end

/-! ## All sockets -/

/-- the map, and the sockets there are; a socket is known by a number -/
structure State where
  ports : PortMap
  socks : ℕ → Option NlSock

def State.init : State := ⟨⟨fun _ => 0, 0, false⟩, fun _ => none⟩

inductive Op where
  | alloc (id : ℕ)
  | getLocalPort (id : ℕ) (env : Env)
  | setLocalPort (id : ℕ) (port : BitVec 32)
  | connect (id : ℕ) (e : ConnectEnv) (protocol : ℤ)
  | setFd (id : ℕ) (e : FdEnv) (protocol fd : ℤ)
  | close (id : ℕ)
  | free (id : ℕ)

def State.put (s : State) (id : ℕ) (pm : PortMap) (sk : Option NlSock) : State :=
  ⟨pm, Function.update s.socks id sk⟩

/-- one operation, on a socket that is there; a new socket gets a number that is not in use -/
def step (s : State) : Op → Option State
  | .alloc id => if (s.socks id).isNone then some (s.put id s.ports (some allocSocket)) else none
  | .getLocalPort id env => (s.socks id).map fun sk =>
      s.put id (nlSocketGetLocalPort env s.ports sk).2.1 (some (nlSocketGetLocalPort env s.ports sk).2.2)
  | .setLocalPort id port => (s.socks id).map fun sk =>
      s.put id (nlSocketSetLocalPort port s.ports sk).1 (some (nlSocketSetLocalPort port s.ports sk).2)
  | .connect id e protocol => (s.socks id).map fun sk =>
      s.put id (nlConnect e protocol s.ports sk).2.1 (some (nlConnect e protocol s.ports sk).2.2)
  | .setFd id e protocol fd => (s.socks id).map fun sk =>
      s.put id (nlSocketSetFd e protocol fd s.ports sk).2.1 (some (nlSocketSetFd e protocol fd s.ports sk).2.2)
  | .close id => (s.socks id).map fun sk => s.put id s.ports (some (nlClose sk))
  | .free id => (s.socks id).map fun sk => s.put id (nlSocketFree s.ports sk) none

def run (s : State) (ops : List Op) : Option State := ops.foldlM step s

/-- what the sockets have from the map, those with another number than `id` -/
def others (s : State) (id : ℕ) (nr : ℕ) : Prop := ∃ id' sk, id' ≠ id ∧ s.socks id' = some sk ∧ Generated sk nr

/-- the map and the sockets agree -/
structure Inv (s : State) : Prop where
  holds : Holds (fun nr => ∃ id sk, s.socks id = some sk ∧ Generated sk nr) s.ports
  distinct : ∀ {id id' sk sk' nr}, s.socks id = some sk → s.socks id' = some sk' → Generated sk nr → Generated sk' nr →
    id = id'
  nonzero : ∀ {id sk}, s.socks id = some sk → sk.ownPort = false → sk.nlPid ≠ 0

theorem Inv.init : Inv State.init := by
  refine ⟨⟨fun nr => ?_, rfl⟩, ?_, ?_⟩
  · rw [State.init, has_zero]
    refine ⟨fun hfalse => ?_, ?_⟩
    · cases hfalse
    · rintro ⟨id, sk, hsk, -⟩
      cases hsk
  · intro id id' sk sk' nr hsk
    cases hsk
  · intro id sk hsk
    cases hsk

section

variable {s : State} {id : ℕ} {sk : NlSock} {pm : PortMap}

/-- one socket, seen from the others -/
theorem Inv.balanced (h : Inv s) (hsk : s.socks id = some sk) : Balanced (others s id) s.ports sk := by
  refine ⟨h.holds.congr fun nr => ?_, ?_, h.nonzero hsk⟩
  · constructor
    · rintro ⟨id', sk', hsk', hgen⟩
      by_cases heq : id' = id
      · subst heq
        cases hsk.symm.trans hsk'
        exact Or.inr hgen
      · exact Or.inl ⟨id', sk', heq, hsk', hgen⟩
    · rintro (⟨id', sk', -, hsk', hgen⟩ | hgen)
      · exact ⟨id', sk', hsk', hgen⟩
      · exact ⟨id, sk, hsk, hgen⟩
  · rintro nr hgen ⟨id', sk', hne, hsk', hgen'⟩
    exact hne (h.distinct hsk' hsk hgen' hgen)

/-- a number that is not in use: the others are all -/
theorem Inv.spare (h : Inv s) (hnone : s.socks id = none) : Holds (others s id) s.ports := by
  refine h.holds.congr fun nr => ?_
  constructor
  · rintro ⟨id', sk, hsk, hgen⟩
    refine ⟨id', sk, ?_, hsk, hgen⟩
    rintro rfl
    cases hnone.symm.trans hsk
  · rintro ⟨id', sk, -, hsk, hgen⟩
    exact ⟨id', sk, hsk, hgen⟩

theorem put_self (sk : Option NlSock) : (s.put id pm sk).socks id = sk := by
  simp [State.put]

theorem put_other {id' : ℕ} (hne : id' ≠ id) (sk : Option NlSock) : (s.put id pm sk).socks id' = s.socks id' := by
  simp [State.put, hne]

/-- **One socket changes**, in balance with the others. -/
theorem Inv.put (h : Inv s) (hb : Balanced (others s id) pm sk) : Inv (s.put id pm (some sk)) := by
  refine ⟨hb.holds.congr fun nr => ?_, ?_, ?_⟩
  · constructor
    · rintro (⟨id', sk', hne, hsk', hgen⟩ | hgen)
      · exact ⟨id', sk', by rw [put_other hne, hsk'], hgen⟩
      · exact ⟨id, sk, put_self _, hgen⟩
    · rintro ⟨id', sk', hsk', hgen⟩
      by_cases heq : id' = id
      · subst heq
        rw [put_self] at hsk'
        cases hsk'
        exact Or.inr hgen
      · rw [put_other heq] at hsk'
        exact Or.inl ⟨id', sk', heq, hsk', hgen⟩
  · intro id₁ id₂ sk₁ sk₂ nr h₁ h₂ g₁ g₂
    by_cases e₁ : id₁ = id
    · by_cases e₂ : id₂ = id
      · exact e₁.trans e₂.symm
      · subst e₁
        rw [put_self] at h₁
        rw [put_other e₂] at h₂
        cases h₁
        exact absurd ⟨id₂, sk₂, e₂, h₂, g₂⟩ (hb.apart nr g₁)
    · by_cases e₂ : id₂ = id
      · subst e₂
        rw [put_self] at h₂
        rw [put_other e₁] at h₁
        cases h₂
        exact absurd ⟨id₁, sk₁, e₁, h₁, g₁⟩ (hb.apart nr g₂)
      · rw [put_other e₁] at h₁
        rw [put_other e₂] at h₂
        exact h.distinct h₁ h₂ g₁ g₂
  · intro id' sk' hsk' hown
    by_cases heq : id' = id
    · subst heq
      rw [put_self] at hsk'
      cases hsk'
      exact hb.nonzero hown
    · rw [put_other heq] at hsk'
      exact h.nonzero hsk' hown

/-- a socket is gone -/
theorem Inv.remove (h : Inv s) (hothers : Holds (others s id) pm) : Inv (s.put id pm none) := by
  have hold : ∀ {id' sk'}, (s.put id pm none).socks id' = some sk' → id' ≠ id ∧ s.socks id' = some sk' := by
    intro id' sk' hsk'
    by_cases heq : id' = id
    · subst heq
      rw [put_self] at hsk'
      cases hsk'
    · rw [put_other heq] at hsk'
      exact ⟨heq, hsk'⟩
  refine ⟨hothers.congr fun nr => ?_, ?_, ?_⟩
  · constructor
    · rintro ⟨id', sk', hne, hsk', hgen⟩
      exact ⟨id', sk', by rw [put_other hne, hsk'], hgen⟩
    · rintro ⟨id', sk', hsk', hgen⟩
      exact ⟨id', sk', (hold hsk').1, (hold hsk').2, hgen⟩
  · intro id₁ id₂ sk₁ sk₂ nr h₁ h₂
    exact h.distinct (hold h₁).2 (hold h₂).2
  · intro id' sk' hsk'
    exact h.nonzero (hold hsk').2

end

/-- **One operation** keeps the map and the sockets in step. -/
theorem step_inv {s s' : State} {op : Op} (h : Inv s) (hstep : step s op = some s') : Inv s' := by
  cases op with
  | alloc id =>
    simp only [step] at hstep
    by_cases hnone : (s.socks id).isNone = true
    · rw [if_pos hnone] at hstep
      cases hstep
      exact h.put (balanced_own (h.spare (Option.isNone_iff_eq_none.1 hnone)) rfl)
    · rw [if_neg hnone] at hstep
      cases hstep
  | getLocalPort id env =>
    obtain ⟨sk, hsk, rfl⟩ := Option.map_eq_some_iff.1 hstep
    exact h.put ((h.balanced hsk).getLocalPort env)
  | setLocalPort id port =>
    obtain ⟨sk, hsk, rfl⟩ := Option.map_eq_some_iff.1 hstep
    exact h.put ((h.balanced hsk).setLocalPort port)
  | connect id e protocol =>
    obtain ⟨sk, hsk, rfl⟩ := Option.map_eq_some_iff.1 hstep
    exact h.put (connect_balanced e protocol (h.balanced hsk))
  | setFd id e protocol fd =>
    obtain ⟨sk, hsk, rfl⟩ := Option.map_eq_some_iff.1 hstep
    exact h.put (setFd_balanced e protocol fd (h.balanced hsk))
  | close id =>
    obtain ⟨sk, hsk, rfl⟩ := Option.map_eq_some_iff.1 hstep
    exact h.put ((h.balanced hsk).with _ _)
  | free id =>
    obtain ⟨sk, hsk, rfl⟩ := Option.map_eq_some_iff.1 hstep
    exact h.remove (h.balanced hsk).free

theorem run_inv {s s' : State} {ops : List Op} (h : Inv s) (hrun : run s ops = some s') : Inv s' := by
  induction ops generalizing s with
  | nil =>
    cases hrun
    exact h
  | cons op ops ih =>
    obtain ⟨mid, hstep, hrest⟩ := Option.bind_eq_some_iff.1 hrun
    exact ih (step_inv h hstep) hrest

/-- **Ports in step.** After every run from the start: the bits of the map are those of the ports that sockets without
`NL_OWN_PORT` have, no two of these have the same port, no `BUG_ON` was reached; and `generate_local_port` fails if and only
if all 1024 bits are set. -/
theorem ports_in_step {ops : List Op} {s : State} (hrun : run State.init ops = some s) :
    (∀ nr, has s.ports.usedPortsMap nr = true ↔ ∃ id sk, s.socks id = some sk ∧ sk.ownPort = false ∧ sk.nlPid ≠ 0 ∧
      slotOf sk.nlPid = nr) ∧
    (∀ id id' sk sk', s.socks id = some sk → s.socks id' = some sk' → sk.ownPort = false → sk'.ownPort = false →
      sk.nlPid = sk'.nlPid → id = id') ∧
    s.ports.bug = false ∧
    ∀ env, (generateLocalPort env s.ports).1 = 0 ↔ ∀ nr < 1024, has s.ports.usedPortsMap nr = true := by
  have h := run_inv Inv.init hrun
  refine ⟨fun nr => ?_, ?_, h.holds.noBug, fun env => generate_fails_iff env s.ports⟩
  · rw [h.holds.used]
    constructor
    · rintro ⟨id, sk, hsk, hown, hslot⟩
      exact ⟨id, sk, hsk, hown, h.nonzero hsk hown, hslot⟩
    · rintro ⟨id, sk, hsk, hown, -, hslot⟩
      exact ⟨id, sk, hsk, hown, hslot⟩
  · intro id id' sk sk' hsk hsk' hown hown' hpid
    exact h.distinct hsk hsk' ⟨hown, rfl⟩ ⟨hown', by rw [hpid]⟩

/-- answers for a socket whose first port is in use elsewhere -/
def sampleConnect : ConnectEnv where
  socket := .ok 7
  setBufferSize := 0
  gen _ := ⟨4242, 0⟩
  bind left := if left = 5 then EADDRINUSE else 0
  lastBind := 0
  getsockname := .error 9

/-- two sockets, one of which tries two ports, fails in `getsockname` and is freed -/
theorem ports_in_step_sample : ∃ s, run State.init [.alloc 0, .alloc 1, .getLocalPort 0 ⟨4242, 0⟩,
      .connect 1 sampleConnect 0, .free 1] = some s ∧ s.ports.bug = false ∧
    ((generateLocalPort ⟨4242, 0⟩ s.ports).1 = 0 ↔ ∀ nr < 1024, has s.ports.usedPortsMap nr = true) := by
  obtain ⟨s, hs⟩ : ∃ s, run State.init [.alloc 0, .alloc 1, .getLocalPort 0 ⟨4242, 0⟩,
      .connect 1 sampleConnect 0, .free 1] = some s := ⟨_, rfl⟩
  obtain ⟨-, -, hbug, hgen⟩ := ports_in_step hs
  exact ⟨s, hs, hbug, hgen _⟩

/-- **No port is reserved.** All words but the first are full, the first is empty: a port of the first word is given out. -/
theorem block_zero_is_given_out :
    (∀ nr < 1024, has (fun i => if i = 0 then 0 else 0xFFFFFFFF) nr = decide (32 ≤ nr)) ∧
      slotOf (generateLocalPort ⟨4242, 0⟩ ⟨fun i => if i = 0 then 0 else 0xFFFFFFFF, 1, false⟩).1 < 32 ∧
      (generateLocalPort ⟨4242, 0⟩ ⟨fun i => if i = 0 then 0 else 0xFFFFFFFF, 1, false⟩).1 ≠ 0 := by
  decide +kernel

end Libnl.Ports
