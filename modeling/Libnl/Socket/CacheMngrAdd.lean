/-
Adding a cache to a manager (`nl_cache_mngr_add_cache` and `nl_cache_mngr_add_cache_v2` in `lib/cache_mngr.c`).

The manager joins the groups of the type of the cache, fills the cache, and puts it into its table. If a group cannot be
joined, the function returns at once, and the socket stays in the groups before it. If the cache cannot be filled, all
groups are left again, those included that the socket was in for other reasons.

What allocations, `setsockopt` and the dump return is an argument.

- `add_all_or_nothing_iff`: a call that fails has the same associations, and leaves the socket in no group it was not in, if
  and only if it is `Reverts`: before the first group that cannot be joined there are only groups that the socket was in
  already, and if it is the dump that fails, every other group is left. The table may have grown, unless it is `KeepsSize`.
- `groups_left_joined`: the second of two groups cannot be joined, and the socket stays in the first.
-/
import Mathlib.Tactic
import Libnl.Socket.CacheMngr
import Libnl.Cache.Dump
import Libnl.Cache.Runs

namespace Libnl.CacheMngr

open Msg Object Cache
open Recv (nlSyserr2nlerr)

/-! ## Tables -/

def NASSOC_EXPAND : ℕ := 8

/-- a manager that was made: `cm_assocs` has `cm_nassocs` slots -/
structure WellFormed (mngr : NlCacheMngr) : Prop where
  slots : ∃ assocs, mngr.cmAssocs = some assocs ∧ assocs.length = mngr.cmNassocs

theorem initMngr_wellFormed (sk : ℕ) (protocol : ℤ) (flags : BitVec 32) : WellFormed (initMngr true sk protocol flags) :=
  ⟨_, rfl, List.length_replicate⟩

def NlCacheMngr.table (mngr : NlCacheMngr) : List NlCacheAssoc := mngr.cmAssocs.getD []

/-- what is in a slot, and where there is none an association with no cache -/
def NlCacheMngr.assoc (mngr : NlCacheMngr) (i : ℕ) : NlCacheAssoc := mngr.table[i]?.getD NlCacheAssoc.empty

/-- what `realloc` and `memset` leave -/
def expand (mngr : NlCacheMngr) : NlCacheMngr :=
  { mngr with
    cmAssocs := some (mngr.table ++ List.replicate NASSOC_EXPAND NlCacheAssoc.empty)
    cmNassocs := mngr.cmNassocs + NASSOC_EXPAND }

/-- the first free slot, in a larger table if there was none -/
def reserve (ok : Bool) (mngr : NlCacheMngr) : Option (NlCacheMngr × ℕ) :=
  let i := mngr.table.findIdx fun a => a.caCache.isNone
  if i < mngr.cmNassocs then some (mngr, i)
  else if !ok then none
  else some (expand mngr, i)

def setAssoc (mngr : NlCacheMngr) (i : ℕ) (f : NlCacheAssoc → NlCacheAssoc) : NlCacheMngr :=
  { mngr with cmAssocs := some (mngr.table.modify i f) }

/-! ## Groups -/

structure NlAfGroup where
  agFamily : ℕ
  agGroup : ℤ
deriving DecidableEq, Repr

/-- `struct nl_cache_ops`, as far as it is read here -/
structure MngrOps where
  coProtocol : ℕ
  coRequestUpdate : Bool
  /-- up to the terminating entry, whose group is zero -/
  coGroups : Option (List NlAfGroup)

/-- the socket `cm_sock`, and the groups it is in -/
structure GroupSock where
  sFd : ℤ
  joined : Finset ℤ

/-- `nl_socket_add_membership`; `setsockopt` gives its `errno`, and zero if it succeeds -/
def nlSocketAddMembership (setsockopt : ℤ) (s : GroupSock) (group : ℤ) : ℤ × GroupSock :=
  if s.sFd = -1 then (-NLE_BAD_SOCK, s)
  else if group = 0 then (0, s)
  else if group < 0 then (-NLE_INVAL, s)
  else if setsockopt ≠ 0 then (-nlSyserr2nlerr setsockopt, s)
  else (0, { s with joined := insert group s.joined })

def nlSocketDropMembership (setsockopt : ℤ) (s : GroupSock) (group : ℤ) : ℤ × GroupSock :=
  if s.sFd = -1 then (-NLE_BAD_SOCK, s)
  else if group = 0 then (0, s)
  else if group < 0 then (-NLE_INVAL, s)
  else if setsockopt ≠ 0 then (-nlSyserr2nlerr setsockopt, s)
  else (0, { s with joined := s.joined.erase group })

/-- the loop that joins groups; the answer for the first of them has number `n` -/
def joinGroups (answer : ℕ → ℤ) : ℕ → List NlAfGroup → GroupSock → ℤ × GroupSock
  | _, [], s => (0, s)
  | n, g :: gs, s =>
    if g.agGroup = 0 then (0, s)
    else
      let r := nlSocketAddMembership (answer n) s g.agGroup
      if r.1 < 0 then r else joinGroups answer (n + 1) gs r.2

/-- the loop at `errout_drop_membership` -/
def leaveGroups (answer : ℕ → ℤ) : ℕ → List NlAfGroup → GroupSock → GroupSock
  | _, [], s => s
  | n, g :: gs, s =>
    if g.agGroup = 0 then s
    else leaveGroups answer (n + 1) gs (nlSocketDropMembership (answer n) s g.agGroup).2

/-! ## Adding -/

variable {α : Type}

/-- caches and their operations: `none` is a null pointer -/
structure Kinds where
  cOps : CacheId → Option ℕ
  ops : ℕ → MngrOps
  /-- `NL_CACHE_AF_ITER` -/
  afIter : CacheId → Bool

/-- what a dump reads; it only asks whether a group is zero -/
def Kinds.dumpOps (k : Kinds) (o : ℕ) (c : CacheId) : DumpOps where
  coProtocol := (k.ops o).coProtocol
  coRequestUpdate := (k.ops o).coRequestUpdate
  coGroups := (k.ops o).coGroups.map fun gs => gs.map fun g => ⟨g.agFamily, g.agGroup.natAbs⟩
  afIter := k.afIter c

structure MngrState (α : Type) where
  mngr : NlCacheMngr
  sock : GroupSock
  /-- `s_proto` of `cm_sync_sock` -/
  syncProto : ℕ
  store : Store α
  /-- caches given to `nl_cache_mngt_provide` -/
  provided : List CacheId

def NL_AUTO_PROVIDE : BitVec 32 := 1

/-- answers of the system during `nl_cache_mngr_add_cache` -/
structure AddEnv (α : Type) where
  realloc : Bool
  join : ℕ → ℤ
  passes : List (Pass α)
  leave : ℕ → ℤ

/-- a cache of these operations is being managed -/
def manages (k : Kinds) (mngr : NlCacheMngr) (o : ℕ) : Bool :=
  mngr.table.any fun a => match a.caCache with
    | some c => decide (k.cOps c = some o)
    | none => false

/-- `nl_cache_mngr_add_cache`, once there is a slot; `none` if the answers to the dump run out -/
def addInto (ops : ℕ → ObjectOps α) (k : Kinds) (e : AddEnv α) (s : MngrState α) (c : CacheId) (o : ℕ)
    (groups : List NlAfGroup) (i : ℕ) (cb data : Option ℕ) : Option (MngrState α × ℤ) :=
  let j := joinGroups e.join 0 groups s.sock
  let s := { s with sock := j.2 }
  if j.1 < 0 then some (s, j.1)
  else
    match nlCacheRefill ops s.syncProto (k.dumpOps o c) s.store c e.passes with
    | none => none
    | some (store, err) =>
      let s := { s with store := store }
      if err < 0 then some ({ s with sock := leaveGroups e.leave 0 groups s.sock }, err)
      else
        some ({ s with
          mngr := setAssoc s.mngr i fun a => { a with caCache := some c, caChange := cb, caChangeData := data }
          provided := if s.mngr.cmFlags &&& NL_AUTO_PROVIDE ≠ 0 then s.provided ++ [c] else s.provided }, 0)

def nlCacheMngrAddCache (ops : ℕ → ObjectOps α) (k : Kinds) (e : AddEnv α) (s : MngrState α) (c : CacheId)
    (cb data : Option ℕ) : Option (MngrState α × ℤ) :=
  match k.cOps c with
  | none => some (s, -NLE_INVAL)
  | some o =>
    if ((k.ops o).coProtocol : ℤ) ≠ s.mngr.cmProtocol then some (s, -NLE_PROTO_MISMATCH)
    else
      match (k.ops o).coGroups with
      | none => some (s, -NLE_OPNOTSUPP)
      | some groups =>
        if manages k s.mngr o then some (s, -NLE_EXIST)
        else
          match reserve e.realloc s.mngr with
          | none => some (s, -NLE_NOMEM)
          | some (mngr, i) => addInto ops k e { s with mngr := mngr } c o groups i cb data

def nlCacheMngrSetChangeFuncV2 (k : Kinds) (mngr : NlCacheMngr) (c : CacheId) (cb data : Option ℕ) : NlCacheMngr × ℤ :=
  match k.cOps c with
  | none => (mngr, -NLE_INVAL)
  | some o =>
    if ((k.ops o).coProtocol : ℤ) ≠ mngr.cmProtocol then (mngr, -NLE_PROTO_MISMATCH)
    else if (k.ops o).coGroups.isNone then (mngr, -NLE_OPNOTSUPP)
    else
      let i := mngr.table.findIdx fun a => decide (a.caCache = some c)
      if i ≥ mngr.cmNassocs then (mngr, -NLE_RANGE)
      else (setAssoc mngr i fun a => { a with caChangeV2 := cb, caChangeData := data }, 0)

def nlCacheMngrAddCacheV2 (ops : ℕ → ObjectOps α) (k : Kinds) (e : AddEnv α) (s : MngrState α) (c : CacheId)
    (cb data : Option ℕ) : Option (MngrState α × ℤ) :=
  match nlCacheMngrAddCache ops k e s c none none with
  | none => none
  | some (s, err) =>
    if err < 0 then some (s, err)
    else
      let r := nlCacheMngrSetChangeFuncV2 k s.mngr c cb data
      some ({ s with mngr := r.1 }, r.2)

/-! ## What the loops do -/

/-- the groups up to the terminating entry -/
def groupsOf (gs : List NlAfGroup) : List ℤ := (gs.map NlAfGroup.agGroup).takeWhile fun g => decide (g ≠ 0)

/-- `setsockopt` is called for the group with number `n`, and succeeds -/
def Granted (answer : ℕ → ℤ) (sFd : ℤ) (n : ℕ) (group : ℤ) : Prop := sFd ≠ -1 ∧ 0 < group ∧ answer n = 0

/-- all groups are granted; the first of them has number `n` -/
def AllGranted (answer : ℕ → ℤ) (sFd : ℤ) (n : ℕ) (gs : List ℤ) : Prop :=
  ∀ j g, gs[j]? = some g → Granted answer sFd (n + j) g

/-- the group at position `m` is the first that is not granted -/
structure FirstRefused (answer : ℕ → ℤ) (sFd : ℤ) (n : ℕ) (gs : List ℤ) (m : ℕ) : Prop where
  refused : ∃ g, gs[m]? = some g ∧ ¬ Granted answer sFd (n + m) g
  before : ∀ j < m, ∀ g, gs[j]? = some g → Granted answer sFd (n + j) g

section

variable {answer : ℕ → ℤ} {s : GroupSock} {sFd : ℤ} {n : ℕ} {g : ℤ} {gs : List ℤ}

theorem nlSyserr2nlerr_pos (errno : ℤ) : 0 < nlSyserr2nlerr errno := by
  unfold nlSyserr2nlerr
  split <;> decide

theorem addMembership_granted (h : Granted answer s.sFd n g) :
    nlSocketAddMembership (answer n) s g = (0, { s with joined := insert g s.joined }) := by
  obtain ⟨hfd, hpos, hanswer⟩ := h
  unfold nlSocketAddMembership
  rw [if_neg hfd, if_neg (ne_of_gt hpos), if_neg (not_lt_of_gt hpos), if_neg (not_not.2 hanswer)]

theorem addMembership_refused (hne : g ≠ 0) (h : ¬ Granted answer s.sFd n g) :
    ∃ err < 0, nlSocketAddMembership (answer n) s g = (err, s) := by
  unfold nlSocketAddMembership
  by_cases hfd : s.sFd = -1
  · rw [if_pos hfd]
    exact ⟨_, by decide, rfl⟩
  rw [if_neg hfd, if_neg hne]
  by_cases hneg : g < 0
  · rw [if_pos hneg]
    exact ⟨_, by decide, rfl⟩
  rw [if_neg hneg]
  by_cases hanswer : answer n ≠ 0
  · rw [if_pos hanswer]
    exact ⟨_, Int.neg_neg_of_pos (nlSyserr2nlerr_pos _), rfl⟩
  · have hpos : 0 < g := lt_of_le_of_ne (Int.not_lt.1 hneg) hne.symm
    exact absurd ⟨hfd, hpos, not_not.1 hanswer⟩ h

theorem groupsOf_zero {a : NlAfGroup} (h : a.agGroup = 0) (as : List NlAfGroup) : groupsOf (a :: as) = [] := by
  simp [groupsOf, h]

theorem groupsOf_cons {a : NlAfGroup} (h : a.agGroup ≠ 0) (as : List NlAfGroup) :
    groupsOf (a :: as) = a.agGroup :: groupsOf as := by
  simp [groupsOf, h]

theorem allGranted_nil : AllGranted answer sFd n [] := by
  intro j g hj
  cases hj

theorem allGranted_cons (hfirst : Granted answer sFd n g) (h : AllGranted answer sFd (n + 1) gs) :
    AllGranted answer sFd n (g :: gs) := by
  intro j g' hj
  cases j with
  | zero =>
    cases hj
    exact hfirst
  | succ j =>
    rw [← Nat.add_assoc, Nat.add_right_comm]
    exact h j g' hj

theorem firstRefused_cons {m : ℕ} (hfirst : Granted answer sFd n g) (h : FirstRefused answer sFd (n + 1) gs m) :
    FirstRefused answer sFd n (g :: gs) (m + 1) := by
  obtain ⟨⟨g', hg', hno⟩, hbefore⟩ := h
  refine ⟨⟨g', hg', ?_⟩, fun j hj g'' hj' => ?_⟩
  · rw [← Nat.add_assoc, Nat.add_right_comm]
    exact hno
  · cases j with
    | zero =>
      cases hj'
      exact hfirst
    | succ j =>
      rw [← Nat.add_assoc, Nat.add_right_comm]
      exact hbefore j (Nat.lt_of_succ_lt_succ hj) g'' hj'

/-- **The loop that joins groups** comes to the end of the list, or to the first group that is not granted. -/
theorem joinGroups_spec (answer : ℕ → ℤ) (n : ℕ) (as : List NlAfGroup) (s : GroupSock) :
    (joinGroups answer n as s).2.sFd = s.sFd ∧
      ((AllGranted answer s.sFd n (groupsOf as) ∧ (joinGroups answer n as s).1 = 0 ∧
          ∀ g, g ∈ (joinGroups answer n as s).2.joined ↔ g ∈ s.joined ∨ g ∈ groupsOf as) ∨
        ∃ m, FirstRefused answer s.sFd n (groupsOf as) m ∧ (joinGroups answer n as s).1 < 0 ∧
          ∀ g, g ∈ (joinGroups answer n as s).2.joined ↔ g ∈ s.joined ∨ g ∈ (groupsOf as).take m) := by
  have hnone : ∀ g, g ∈ s.joined ↔ g ∈ s.joined ∨ g ∈ ([] : List ℤ) := fun g => (or_iff_left List.not_mem_nil).symm
  induction as generalizing n s with
  | nil => exact ⟨rfl, Or.inl ⟨allGranted_nil, rfl, hnone⟩⟩
  | cons a as ih =>
    unfold joinGroups
    by_cases hzero : a.agGroup = 0
    · rw [if_pos hzero, groupsOf_zero hzero]
      exact ⟨rfl, Or.inl ⟨allGranted_nil, rfl, hnone⟩⟩
    rw [if_neg hzero, groupsOf_cons hzero]
    by_cases hgranted : Granted answer s.sFd n a.agGroup
    · -- one more group, and the rest of the list
      rw [addMembership_granted hgranted]
      simp only [Int.lt_irrefl, if_false]
      obtain ⟨hfd, hrest⟩ := ih (n + 1) { s with joined := insert a.agGroup s.joined }
        (fun g => (or_iff_left List.not_mem_nil).symm)
      refine ⟨hfd, ?_⟩
      rcases hrest with ⟨hall, hret, hjoined⟩ | ⟨m, hfirst, hret, hjoined⟩
      · refine Or.inl ⟨allGranted_cons hgranted hall, hret, fun g => ?_⟩
        rw [hjoined, Finset.mem_insert, List.mem_cons, or_comm (a := g = a.agGroup), or_assoc]
      · refine Or.inr ⟨m + 1, firstRefused_cons hgranted hfirst, hret, fun g => ?_⟩
        rw [hjoined, Finset.mem_insert, List.take_succ_cons, List.mem_cons, or_comm (a := g = a.agGroup), or_assoc]
    · obtain ⟨err, herr, heq⟩ := addMembership_refused hzero hgranted
      rw [heq]
      simp only [herr, if_true]
      exact ⟨trivial, Or.inr ⟨0, ⟨⟨a.agGroup, rfl, hgranted⟩, fun j hj => absurd hj (Nat.not_lt_zero j)⟩, trivial, hnone⟩⟩

theorem dropMembership_granted (h : Granted answer s.sFd n g) :
    nlSocketDropMembership (answer n) s g = (0, { s with joined := s.joined.erase g }) := by
  obtain ⟨hfd, hpos, hanswer⟩ := h
  unfold nlSocketDropMembership
  rw [if_neg hfd, if_neg (ne_of_gt hpos), if_neg (not_lt_of_gt hpos), if_neg (not_not.2 hanswer)]

/-- a group that is not granted stays -/
theorem dropMembership_refused (h : ¬ Granted answer s.sFd n g) : (nlSocketDropMembership (answer n) s g).2 = s := by
  unfold nlSocketDropMembership
  split_ifs with hfd hzero hneg hanswer
  · rfl
  · rfl
  · rfl
  · rfl
  · exact absurd ⟨hfd, lt_of_le_of_ne (Int.not_lt.1 hneg) (Ne.symm hzero), not_not.1 hanswer⟩ h

/-- one group at the head of the list -/
theorem dropMembership_spec (answer : ℕ → ℤ) (n : ℕ) (s : GroupSock) (g : ℤ) :
    (nlSocketDropMembership (answer n) s g).2.sFd = s.sFd ∧
      ∀ x, x ∈ (nlSocketDropMembership (answer n) s g).2.joined ↔
        x ∈ s.joined ∧ (g = x → ¬ Granted answer s.sFd n x) := by
  by_cases hgranted : Granted answer s.sFd n g
  · rw [dropMembership_granted hgranted]
    refine ⟨rfl, fun x => ?_⟩
    rw [Finset.mem_erase, and_comm]
    refine and_congr_right fun _ => ⟨fun hne heq => absurd heq.symm hne, fun hno heq => ?_⟩
    subst heq
    exact hno rfl hgranted
  · rw [dropMembership_refused hgranted]
    refine ⟨rfl, fun x => ⟨fun hx => ⟨hx, fun heq => ?_⟩, fun hx => hx.1⟩⟩
    subst heq
    exact hgranted

/-- **The loop that leaves groups**: a group stays if no call for it succeeds. -/
theorem leaveGroups_spec (answer : ℕ → ℤ) (n : ℕ) (as : List NlAfGroup) (s : GroupSock) (x : ℤ) :
    x ∈ (leaveGroups answer n as s).joined ↔
      x ∈ s.joined ∧ ∀ j, (groupsOf as)[j]? = some x → ¬ Granted answer s.sFd (n + j) x := by
  induction as generalizing n s with
  | nil => exact ⟨fun hx => ⟨hx, fun j hj => by cases hj⟩, fun hx => hx.1⟩
  | cons a as ih =>
    unfold leaveGroups
    by_cases hzero : a.agGroup = 0
    · rw [if_pos hzero, groupsOf_zero hzero]
      exact ⟨fun hx => ⟨hx, fun j hj => by cases hj⟩, fun hx => hx.1⟩
    rw [if_neg hzero, groupsOf_cons hzero]
    obtain ⟨hfd, hone⟩ := dropMembership_spec answer n s a.agGroup
    rw [ih, hone, hfd, and_assoc]
    refine and_congr_right fun _ => ?_
    constructor
    · rintro ⟨hfirst, hrest⟩ j hj
      cases j with
      | zero =>
        cases hj
        exact hfirst rfl
      | succ j =>
        rw [← Nat.add_assoc, Nat.add_right_comm]
        exact hrest j hj
    · intro hall
      refine ⟨fun heq => hall 0 (congrArg some heq), fun j hj => ?_⟩
      have hlater := hall (j + 1) hj
      rwa [← Nat.add_assoc, Nat.add_right_comm] at hlater

end

/-! ## The table -/

section

variable {mngr mngr' : NlCacheMngr} {ok : Bool} {i : ℕ}

theorem WellFormed.length (h : WellFormed mngr) : mngr.table.length = mngr.cmNassocs := by
  obtain ⟨assocs, hassocs, hlen⟩ := h.slots
  rw [NlCacheMngr.table, hassocs, Option.getD_some, hlen]

theorem WellFormed.expand (h : WellFormed mngr) : WellFormed (expand mngr) :=
  ⟨_, rfl, by rw [List.length_append, List.length_replicate, h.length]; rfl⟩

theorem WellFormed.setAssoc (h : WellFormed mngr) (i : ℕ) (f : NlCacheAssoc → NlCacheAssoc) :
    WellFormed (setAssoc mngr i f) :=
  ⟨_, rfl, by rw [List.length_modify, h.length]; rfl⟩

/-- what was put into a slot is in the table -/
theorem mem_setAssoc (hi : i < mngr.table.length) (f : NlCacheAssoc → NlCacheAssoc) :
    f mngr.table[i] ∈ (setAssoc mngr i f).table := by
  refine List.mem_iff_getElem?.2 ⟨i, ?_⟩
  show (mngr.table.modify i f)[i]? = _
  rw [List.getElem?_modify_eq, List.getElem?_eq_getElem hi]
  rfl

/-- **A larger table** has the same associations. -/
theorem expand_assoc (mngr : NlCacheMngr) (i : ℕ) : (expand mngr).assoc i = mngr.assoc i := by
  have htable : (expand mngr).table = mngr.table ++ List.replicate NASSOC_EXPAND NlCacheAssoc.empty := rfl
  unfold NlCacheMngr.assoc
  rw [htable]
  by_cases hi : i < mngr.table.length
  · rw [List.getElem?_append_left hi]
  · rw [List.getElem?_append_right (Nat.not_lt.1 hi), List.getElem?_eq_none (Nat.not_lt.1 hi), List.getElem?_replicate]
    split_ifs
    · rfl
    · rfl

/-- a slot was free, or the table has grown -/
theorem reserve_spec (hw : WellFormed mngr) (h : reserve ok mngr = some (mngr', i)) :
    WellFormed mngr' ∧ i < mngr'.table.length ∧
      (mngr' = mngr ∨ ((∀ a ∈ mngr.table, a.caCache.isSome = true) ∧ mngr' = expand mngr)) := by
  unfold reserve at h
  simp only at h
  split_ifs at h with hfree hok
  · cases h
    rw [← hw.length] at hfree
    exact ⟨hw, hfree, Or.inl rfl⟩
  · cases h
    rw [← hw.length] at hfree
    refine ⟨hw.expand, ?_, Or.inr ⟨fun a ha => ?_, rfl⟩⟩
    · have hle : mngr.table.findIdx (fun a => a.caCache.isNone) ≤ mngr.table.length := List.findIdx_le_length
      have hlen : (expand mngr).table.length = mngr.table.length + NASSOC_EXPAND := by
        show (mngr.table ++ List.replicate NASSOC_EXPAND NlCacheAssoc.empty).length = _
        rw [List.length_append, List.length_replicate]
      rw [hlen]
      exact Nat.lt_of_le_of_lt hle (Nat.lt_add_of_pos_right (by decide))
    · by_contra hnone
      refine hfree (List.findIdx_lt_length_of_exists ⟨a, ha, ?_⟩)
      rw [Bool.not_eq_true, Option.isSome_eq_false_iff] at hnone
      exact hnone

end

/-! ## All or nothing -/

variable {ops : ℕ → ObjectOps α} {k : Kinds} {e : AddEnv α} {s s' : MngrState α} {c : CacheId} {o i : ℕ}
  {groups : List NlAfGroup} {cb data : Option ℕ} {err : ℤ}

/-- no group that the socket was not in -/
def NoNewGroup (s s' : MngrState α) : Prop := ∀ g ∈ s'.sock.joined, g ∈ s.sock.joined

/-- the same associations -/
def SameAssocs (s s' : MngrState α) : Prop := ∀ i, s'.mngr.assoc i = s.mngr.assoc i

/-- the same associations in a table of the same size -/
def SameTable (s s' : MngrState α) : Prop := s'.mngr = s.mngr

/-- what holds of a call that fails -/
def OnFailure (R : MngrState α → MngrState α → Prop) (s : MngrState α) (r : Option (MngrState α × ℤ)) : Prop :=
  ∀ s' err, r = some (s', err) → err < 0 → R s s'

/-- a call that fails has no effect on the table, in the sense of `T`, and joins no group -/
def AllOrNothing (T : MngrState α → MngrState α → Prop) (s : MngrState α) (r : Option (MngrState α × ℤ)) : Prop :=
  OnFailure T s r ∧ OnFailure NoNewGroup s r

/-- the checks are passed, and there is a slot -/
structure Reaches (k : Kinds) (e : AddEnv α) (s : MngrState α) (c : CacheId) (o : ℕ) (groups : List NlAfGroup) : Prop where
  cOps : k.cOps c = some o
  protocol : ((k.ops o).coProtocol : ℤ) = s.mngr.cmProtocol
  coGroups : (k.ops o).coGroups = some groups
  unmanaged : manages k s.mngr o = false
  slot : (reserve e.realloc s.mngr).isSome = true

/-- `nl_cache_refill` fails -/
def RefillFails (ops : ℕ → ObjectOps α) (k : Kinds) (e : AddEnv α) (s : MngrState α) (c : CacheId) (o : ℕ) : Prop :=
  ∃ store err, nlCacheRefill ops s.syncProto (k.dumpOps o c) s.store c e.passes = some (store, err) ∧ err < 0

/-- groups before one that is refused were joined before; and after a dump that fails the others can be left -/
structure RevertsGroups (ops : ℕ → ObjectOps α) (k : Kinds) (e : AddEnv α) (s : MngrState α) (c : CacheId) (o : ℕ)
    (gs : List ℤ) : Prop where
  refused : ∀ m, FirstRefused e.join s.sock.sFd 0 gs m → ∀ g ∈ gs.take m, g ∈ s.sock.joined
  failed : AllGranted e.join s.sock.sFd 0 gs → RefillFails ops k e s c o →
    ∀ g ∈ gs, g ∉ s.sock.joined → ∃ j, gs[j]? = some g ∧ e.leave j = 0

def Reverts (ops : ℕ → ObjectOps α) (k : Kinds) (e : AddEnv α) (s : MngrState α) (c : CacheId) : Prop :=
  ∀ o groups, Reaches k e s c o groups → RevertsGroups ops k e s c o (groupsOf groups)

/-- a list is not granted as a whole, and refused somewhere -/
theorem FirstRefused.not_all {answer : ℕ → ℤ} {sFd : ℤ} {n m : ℕ} {gs : List ℤ} (h : FirstRefused answer sFd n gs m) :
    ¬ AllGranted answer sFd n gs := by
  obtain ⟨⟨g, hg, hno⟩, -⟩ := h
  exact fun hall => hno (hall m g hg)

/-- the first group that is refused is the only first one -/
theorem FirstRefused.unique {answer : ℕ → ℤ} {sFd : ℤ} {n m m' : ℕ} {gs : List ℤ} (h : FirstRefused answer sFd n gs m)
    (h' : FirstRefused answer sFd n gs m') : m = m' := by
  obtain ⟨⟨g, hg, hno⟩, hbefore⟩ := h
  obtain ⟨⟨g', hg', hno'⟩, hbefore'⟩ := h'
  rcases Nat.lt_trichotomy m m' with hlt | heq | hlt
  · exact absurd (hbefore' m hlt g hg) hno
  · exact heq
  · exact absurd (hbefore m' hlt g' hg') hno'

theorem addInto_refused (hret : (joinGroups e.join 0 groups s.sock).1 < 0) :
    addInto ops k e s c o groups i cb data =
      some ({ s with sock := (joinGroups e.join 0 groups s.sock).2 }, (joinGroups e.join 0 groups s.sock).1) := by
  unfold addInto
  simp only [hret, if_true]

theorem addInto_unfilled (hret : (joinGroups e.join 0 groups s.sock).1 = 0) {store : Store α}
    (hrefill : nlCacheRefill ops s.syncProto (k.dumpOps o c) s.store c e.passes = some (store, err)) (herr : err < 0) :
    addInto ops k e s c o groups i cb data = some ({ s with
      sock := leaveGroups e.leave 0 groups (joinGroups e.join 0 groups s.sock).2
      store := store }, err) := by
  unfold addInto
  simp only [hret, Int.lt_irrefl, if_false, hrefill, herr, if_true]

/-- nothing else fails; what there is then -/
theorem addInto_filled (hret : (joinGroups e.join 0 groups s.sock).1 = 0) (hrefill : ¬ RefillFails ops k e s c o)
    (h : addInto ops k e s c o groups i cb data = some (s', err)) :
    err = 0 ∧ s'.mngr = setAssoc s.mngr i fun a => { a with caCache := some c, caChange := cb, caChangeData := data } := by
  unfold addInto at h
  simp only [hret, Int.lt_irrefl, if_false] at h
  cases hcall : nlCacheRefill ops s.syncProto (k.dumpOps o c) s.store c e.passes with
  | none =>
    rw [hcall] at h
    cases h
  | some r =>
    obtain ⟨store, err'⟩ := r
    have herr : ¬ err' < 0 := fun herr => hrefill ⟨store, err', hcall, herr⟩
    rw [hcall] at h
    simp only [herr, if_false] at h
    cases h
    exact ⟨rfl, rfl⟩

/-- **The loop and the dump**: whether groups are left as they were. -/
theorem addInto_noNewGroup : OnFailure NoNewGroup s (addInto ops k e s c o groups i cb data) ↔
    RevertsGroups ops k e s c o (groupsOf groups) := by
  obtain ⟨hfd, hspec⟩ := joinGroups_spec e.join 0 groups s.sock
  rcases hspec with ⟨hall, hret, hjoined⟩ | ⟨m, hfirst, hret, hjoined⟩
  · by_cases hfail : RefillFails ops k e s c o
    · obtain ⟨store, err, hrefill, herr⟩ := id hfail
      rw [addInto_unfilled hret hrefill herr]
      constructor
      · intro hres
        refine ⟨fun m hfirst => absurd hall hfirst.not_all, fun _ _ g hg hnot => ?_⟩
        -- if no call for it succeeds, the socket is in the group afterwards
        by_contra hno
        rw [not_exists] at hno
        refine hnot (hres _ _ rfl herr g ((leaveGroups_spec _ _ _ _ _).2 ⟨(hjoined g).2 (Or.inr hg), ?_⟩))
        intro i hi hgranted
        rw [Nat.zero_add] at hgranted
        exact hno i ⟨hi, hgranted.2.2⟩
      · intro hrev t err' ht _
        cases ht
        intro g hg
        obtain ⟨hin, hstays⟩ := (leaveGroups_spec _ _ _ _ _).1 hg
        by_contra hnot
        have hgs := ((hjoined g).1 hin).resolve_left hnot
        obtain ⟨i, hi, hleave⟩ := hrev.failed hall hfail g hgs hnot
        obtain ⟨hopen, hpos, -⟩ := hall i g hi
        refine hstays i hi ⟨by rw [hfd]; exact hopen, hpos, ?_⟩
        rw [Nat.zero_add]
        exact hleave
    · refine iff_of_true (fun t err ht herr => ?_) ⟨fun m hfirst => absurd hall hfirst.not_all, fun _ h => absurd h hfail⟩
      rw [(addInto_filled hret hfail ht).1] at herr
      exact absurd herr (Int.lt_irrefl 0)
  · rw [addInto_refused hret]
    constructor
    · intro hres
      refine ⟨fun m' hfirst' g hg => ?_, fun hall => absurd hall hfirst.not_all⟩
      have heq := hfirst.unique hfirst'
      subst heq
      exact hres _ _ rfl hret g ((hjoined g).2 (Or.inr hg))
    · intro hrev t err ht _
      cases ht
      intro g hg
      exact ((hjoined g).1 hg).elim id (hrev.refused m hfirst g)

/-- every group is joined, and the dump does not fail -/
def Adds (ops : ℕ → ObjectOps α) (k : Kinds) (e : AddEnv α) (s : MngrState α) (c : CacheId) (o : ℕ) (gs : List ℤ) : Prop :=
  AllGranted e.join s.sock.sFd 0 gs ∧ ¬ RefillFails ops k e s c o

/-- it fails if a group is refused or the dump fails, and then the table is what it was given -/
theorem addInto_failed (h : addInto ops k e s c o groups i cb data = some (s', err)) (herr : err < 0) :
    ¬ Adds ops k e s c o (groupsOf groups) ∧ s'.mngr = s.mngr := by
  obtain ⟨-, hspec⟩ := joinGroups_spec e.join 0 groups s.sock
  rcases hspec with ⟨-, hret, -⟩ | ⟨m, hfirst, hret, -⟩
  · by_cases hfail : RefillFails ops k e s c o
    · obtain ⟨store, err', hrefill, herr'⟩ := id hfail
      rw [addInto_unfilled hret hrefill herr'] at h
      cases h
      exact ⟨fun hadds => hadds.2 hfail, rfl⟩
    · rw [(addInto_filled hret hfail h).1] at herr
      exact absurd herr (Int.lt_irrefl 0)
  · rw [addInto_refused hret] at h
    cases h
    exact ⟨fun hadds => hfirst.not_all hadds.1, rfl⟩

variable (ops i cb data) in
theorem addInto_fails (h : ¬ Adds ops k e s c o (groupsOf groups)) :
    ∃ s' err, addInto ops k e s c o groups i cb data = some (s', err) ∧ err < 0 := by
  obtain ⟨-, hspec⟩ := joinGroups_spec e.join 0 groups s.sock
  rcases hspec with ⟨hall, hret, -⟩ | ⟨m, -, hret, -⟩
  · obtain ⟨store, err, hrefill, herr⟩ := not_not.1 fun hfail => h ⟨hall, hfail⟩
    exact ⟨_, err, addInto_unfilled hret hrefill herr, herr⟩
  · exact ⟨_, _, addInto_refused hret, hret⟩

/-- what is in the table if it does not fail -/
theorem addInto_added (h : addInto ops k e s c o groups i cb data = some (s', err)) (herr : ¬ err < 0) :
    s'.mngr = setAssoc s.mngr i fun a => { a with caCache := some c, caChange := cb, caChangeData := data } := by
  by_cases hadds : Adds ops k e s c o (groupsOf groups)
  · obtain ⟨-, hspec⟩ := joinGroups_spec e.join 0 groups s.sock
    rcases hspec with ⟨-, hret, -⟩ | ⟨m, hfirst, -, -⟩
    · exact (addInto_filled hret hadds.2 h).2
    · exact absurd hadds.1 hfirst.not_all
  · obtain ⟨t, err', ht, herr'⟩ := addInto_fails ops i cb data hadds
    rw [h] at ht
    cases ht
    exact absurd herr' herr

/-! ## The whole call -/

theorem Reaches.unique {o' : ℕ} {groups' : List NlAfGroup} (h : Reaches k e s c o groups)
    (h' : Reaches k e s c o' groups') : o' = o ∧ groups' = groups := by
  have ho := h'.cOps
  rw [h.cOps] at ho
  cases ho
  have hgroups := h'.coGroups
  rw [h.coGroups] at hgroups
  cases hgroups
  exact ⟨rfl, rfl⟩

/-- **Two ways for the call**: there is a slot and the groups are joined, or it fails before anything is done. -/
theorem addCache_cases (ops : ℕ → ObjectOps α) (k : Kinds) (e : AddEnv α) (s : MngrState α) (c : CacheId)
    (cb data : Option ℕ) :
    (∃ o groups mngr i, Reaches k e s c o groups ∧ reserve e.realloc s.mngr = some (mngr, i) ∧
        nlCacheMngrAddCache ops k e s c cb data = addInto ops k e { s with mngr := mngr } c o groups i cb data) ∨
      (∀ o groups, ¬ Reaches k e s c o groups) ∧ ∃ err < 0, nlCacheMngrAddCache ops k e s c cb data = some (s, err) := by
  unfold nlCacheMngrAddCache
  cases hops : k.cOps c with
  | none =>
    refine Or.inr ⟨fun o groups h => ?_, _, by decide, rfl⟩
    rw [h.cOps] at hops
    cases hops
  | some o =>
    have hsame : ∀ {o' groups}, Reaches k e s c o' groups → o' = o := fun h => Option.some.inj (h.cOps.symm.trans hops)
    simp only
    by_cases hproto : ((k.ops o).coProtocol : ℤ) ≠ s.mngr.cmProtocol
    · rw [if_pos hproto]
      refine Or.inr ⟨fun o' groups h => hproto ?_, _, by decide, rfl⟩
      rw [← hsame h]
      exact h.protocol
    rw [if_neg hproto]
    cases hgroups : (k.ops o).coGroups with
    | none =>
      refine Or.inr ⟨fun o' groups h => ?_, _, by decide, rfl⟩
      have h' := h.coGroups
      rw [hsame h, hgroups] at h'
      cases h'
    | some groups =>
      simp only
      by_cases hmanaged : manages k s.mngr o = true
      · rw [if_pos hmanaged]
        refine Or.inr ⟨fun o' groups h => ?_, _, by decide, rfl⟩
        have h' := h.unmanaged
        rw [hsame h, hmanaged] at h'
        cases h'
      rw [if_neg hmanaged]
      cases hslot : reserve e.realloc s.mngr with
      | none =>
        refine Or.inr ⟨fun o' groups h => ?_, _, by decide, rfl⟩
        have h' := h.slot
        rw [hslot] at h'
        cases h'
      | some r =>
        have hreaches : Reaches k e s c o groups :=
          { cOps := hops
            protocol := not_not.1 hproto
            coGroups := hgroups
            unmanaged := Bool.eq_false_iff.2 hmanaged
            slot := by rw [hslot]; rfl }
        exact Or.inl ⟨o, groups, r.1, r.2, hreaches, rfl, rfl⟩

/-- if the table has to grow, the call does not fail -/
def KeepsSize (ops : ℕ → ObjectOps α) (k : Kinds) (e : AddEnv α) (s : MngrState α) (c : CacheId) : Prop :=
  ∀ o groups, Reaches k e s c o groups → (∀ a ∈ s.mngr.table, a.caCache.isSome = true) →
    Adds ops k e s c o (groupsOf groups)

/-- **The groups.** -/
theorem addCache_noNewGroup : OnFailure NoNewGroup s (nlCacheMngrAddCache ops k e s c cb data) ↔ Reverts ops k e s c := by
  rcases addCache_cases ops k e s c cb data with ⟨o, groups, mngr, i, hreaches, -, heq⟩ | ⟨hno, err, -, heq⟩
  · rw [heq]
    refine (addInto_noNewGroup (s := { s with mngr := mngr })).trans ⟨fun hrev o' groups' h => ?_, fun hrev => ?_⟩
    · obtain ⟨ho, hgroups⟩ := hreaches.unique h
      rw [ho, hgroups]
      exact ⟨hrev.refused, hrev.failed⟩
    · have h := hrev o groups hreaches
      exact ⟨h.refused, h.failed⟩
  · rw [heq]
    refine iff_of_true (fun s' err' h _ => ?_) fun o groups h => absurd h (hno o groups)
    cases h
    exact fun g hg => hg

/-- **The associations** are never changed by a call that fails. -/
theorem addCache_sameAssocs (hw : WellFormed s.mngr) : OnFailure SameAssocs s (nlCacheMngrAddCache ops k e s c cb data) := by
  intro s' err h herr
  rcases addCache_cases ops k e s c cb data with ⟨o, groups, mngr, i, -, hslot, heq⟩ | ⟨-, err', -, heq⟩
  · rw [heq] at h
    obtain ⟨-, hmngr⟩ := addInto_failed h herr
    obtain ⟨-, -, hkept | ⟨-, hgrown⟩⟩ := reserve_spec hw hslot
    · rw [SameAssocs, hmngr]
      exact fun i => congrArg (fun m => m.assoc i) hkept
    · rw [SameAssocs, hmngr]
      exact fun i => (congrArg (fun m => m.assoc i) hgrown).trans (expand_assoc s.mngr i)
  · rw [heq] at h
    cases h
    exact fun i => rfl

theorem expand_ne (mngr : NlCacheMngr) : expand mngr ≠ mngr := by
  intro heq
  have hsize : mngr.cmNassocs + NASSOC_EXPAND = mngr.cmNassocs := congrArg NlCacheMngr.cmNassocs heq
  exact absurd (Nat.add_eq_left.1 hsize) (by decide)

/-- a table in which a slot is free does not grow -/
theorem reserve_of_free {ok : Bool} {mngr mngr' : NlCacheMngr} (hw : WellFormed mngr)
    (hfull : ¬ ∀ a ∈ mngr.table, a.caCache.isSome = true) (h : reserve ok mngr = some (mngr', i)) : mngr' = mngr := by
  obtain ⟨-, -, hkept | ⟨hall, -⟩⟩ := reserve_spec hw h
  · exact hkept
  · exact absurd hall hfull

/-- and one that is full does -/
theorem reserve_of_full {ok : Bool} {mngr mngr' : NlCacheMngr} (hw : WellFormed mngr)
    (hfull : ∀ a ∈ mngr.table, a.caCache.isSome = true) (h : reserve ok mngr = some (mngr', i)) : mngr' = expand mngr := by
  obtain ⟨-, hi, heq | ⟨-, hgrown⟩⟩ := reserve_spec hw h
  · -- the slot that is taken is free
    have hidx : i = mngr.table.findIdx fun a => a.caCache.isNone := by
      unfold reserve at h
      simp only at h
      split_ifs at h
      · cases h
        rfl
      · cases h
        rfl
    rw [heq, hidx] at hi
    have hnone := List.findIdx_getElem (w := hi)
    have hsome := hfull _ (List.getElem_mem hi)
    rw [Option.isNone_iff_eq_none] at hnone
    rw [hnone] at hsome
    cases hsome
  · exact hgrown

/-- **The size of the table.** -/
theorem addCache_sameTable (hw : WellFormed s.mngr) :
    OnFailure SameTable s (nlCacheMngrAddCache ops k e s c cb data) ↔ KeepsSize ops k e s c := by
  rcases addCache_cases ops k e s c cb data with ⟨o, groups, mngr, i, hreaches, hslot, heq⟩ | ⟨hno, err, -, heq⟩
  · rw [heq]
    constructor
    · intro hsame o' groups' h hfull
      obtain ⟨ho, hgroups⟩ := hreaches.unique h
      rw [ho, hgroups]
      by_contra hadds
      obtain ⟨s', err, h', herr⟩ := addInto_fails (s := { s with mngr := mngr }) ops i cb data hadds
      have hmngr : s'.mngr = mngr := (addInto_failed h' herr).2
      have hgrown : s'.mngr = expand s.mngr := hmngr.trans (reserve_of_full hw hfull hslot)
      exact expand_ne s.mngr (hgrown.symm.trans (hsame s' err h' herr))
    · intro hkeeps s' err h herr
      obtain ⟨hadds, hmngr⟩ := addInto_failed h herr
      refine hmngr.trans (reserve_of_free hw (fun hfull => hadds ?_) hslot)
      exact hkeeps o groups hreaches hfull
  · rw [heq]
    refine iff_of_true (fun s' err' h _ => ?_) fun o groups h => absurd h (hno o groups)
    cases h
    rfl

/-- a manager stays well formed from call to call -/
theorem addCache_wellFormed (hw : WellFormed s.mngr)
    (h : nlCacheMngrAddCache ops k e s c cb data = some (s', err)) : WellFormed s'.mngr := by
  rcases addCache_cases ops k e s c cb data with ⟨o, groups, mngr, i, -, hslot, heq⟩ | ⟨-, err', -, heq⟩
  · rw [heq] at h
    obtain ⟨hwell, -, -⟩ := reserve_spec hw hslot
    by_cases herr : err < 0
    · rw [(addInto_failed h herr).2]
      exact hwell
    · rw [addInto_added h herr]
      exact hwell.setAssoc i _
  · rw [heq] at h
    cases h
    exact hw

/-- after `nl_cache_mngr_add_cache` the function can be set -/
theorem setChangeFunc_added {cb' data' : Option ℕ} (hw : WellFormed s.mngr)
    (h : nlCacheMngrAddCache ops k e s c cb data = some (s', err)) (herr : ¬ err < 0) :
    (nlCacheMngrSetChangeFuncV2 k s'.mngr c cb' data').2 = 0 := by
  rcases addCache_cases ops k e s c cb data with ⟨o, groups, mngr, i, hreaches, hslot, heq⟩ | ⟨-, err', herr', heq⟩
  · rw [heq] at h
    have hadded : s'.mngr = setAssoc mngr i _ := addInto_added h herr
    obtain ⟨hwell, hi, hmngr⟩ := reserve_spec hw hslot
    have hproto : mngr.cmProtocol = s.mngr.cmProtocol := by
      rcases hmngr with hkept | ⟨-, hgrown⟩
      · rw [hkept]
      · rw [hgrown]
        rfl
    have hsome : (k.ops o).coGroups.isNone = false := by
      rw [hreaches.coGroups]
      rfl
    have hfound : s'.mngr.table.findIdx (fun a => decide (a.caCache = some c)) < s'.mngr.cmNassocs := by
      rw [hadded, ← (hwell.setAssoc i _).length]
      exact List.findIdx_lt_length_of_exists ⟨_, mem_setAssoc hi _, decide_eq_true rfl⟩
    unfold nlCacheMngrSetChangeFuncV2
    rw [hreaches.cOps]
    simp only [hsome, Bool.false_eq_true, if_false]
    have hsame : ((k.ops o).coProtocol : ℤ) = s'.mngr.cmProtocol := by
      rw [hreaches.protocol, hadded, ← hproto]
      rfl
    rw [if_neg (not_not.2 hsame), if_neg (Nat.not_le.2 hfound)]
  · rw [heq] at h
    cases h
    exact absurd herr' herr

/-- **`nl_cache_mngr_add_cache_v2`** fails where `nl_cache_mngr_add_cache` does, and with the same state. -/
theorem addCacheV2_onFailure (hw : WellFormed s.mngr) (R : MngrState α → MngrState α → Prop) :
    OnFailure R s (nlCacheMngrAddCacheV2 ops k e s c cb data) ↔ OnFailure R s (nlCacheMngrAddCache ops k e s c none none) := by
  unfold nlCacheMngrAddCacheV2
  cases hcall : nlCacheMngrAddCache ops k e s c none none with
  | none => exact Iff.rfl
  | some r =>
    obtain ⟨t, err⟩ := r
    simp only
    by_cases herr : err < 0
    · rw [if_pos herr]
    rw [if_neg herr]
    refine iff_of_true (fun s' err' h herr' => ?_) (fun s' err' h herr' => ?_)
    · cases h
      rw [setChangeFunc_added hw hcall herr] at herr'
      exact absurd herr' (Int.lt_irrefl 0)
    · cases h
      exact absurd herr' herr

/-- **All or nothing.** A call that fails has the same associations, and joins no group, if and only if it is `Reverts`;
and in a table of the same size, if also `KeepsSize`. -/
theorem add_all_or_nothing_iff (ops : ℕ → ObjectOps α) (k : Kinds) (e : AddEnv α) (s : MngrState α) (c : CacheId)
    (cb data : Option ℕ) (hw : WellFormed s.mngr) :
    (AllOrNothing SameAssocs s (nlCacheMngrAddCache ops k e s c cb data) ↔ Reverts ops k e s c) ∧
      (AllOrNothing SameAssocs s (nlCacheMngrAddCacheV2 ops k e s c cb data) ↔ Reverts ops k e s c) ∧
      (AllOrNothing SameTable s (nlCacheMngrAddCache ops k e s c cb data) ↔
        KeepsSize ops k e s c ∧ Reverts ops k e s c) ∧
      (AllOrNothing SameTable s (nlCacheMngrAddCacheV2 ops k e s c cb data) ↔
        KeepsSize ops k e s c ∧ Reverts ops k e s c) := by
  have hassocs : ∀ cb data, AllOrNothing SameAssocs s (nlCacheMngrAddCache ops k e s c cb data) ↔ Reverts ops k e s c := by
    intro cb data
    rw [AllOrNothing, addCache_noNewGroup]
    exact and_iff_right (addCache_sameAssocs hw)
  have htable : ∀ cb data, AllOrNothing SameTable s (nlCacheMngrAddCache ops k e s c cb data) ↔
      KeepsSize ops k e s c ∧ Reverts ops k e s c := by
    intro cb data
    rw [AllOrNothing, addCache_noNewGroup, addCache_sameTable hw]
  have hsecond : ∀ T, AllOrNothing T s (nlCacheMngrAddCacheV2 ops k e s c cb data) ↔
      AllOrNothing T s (nlCacheMngrAddCache ops k e s c none none) := by
    intro T
    rw [AllOrNothing, AllOrNothing, addCacheV2_onFailure hw, addCacheV2_onFailure hw]
  exact ⟨hassocs cb data, (hsecond SameAssocs).trans (hassocs none none), htable cb data,
    (hsecond SameTable).trans (htable none none)⟩

/-- the cache `route/addr`, of two groups -/
def addrKinds : Kinds where
  cOps c := if c = 0 then some 0 else none
  ops _ := { coProtocol := 0, coRequestUpdate := true, coGroups := some [⟨2, 5⟩, ⟨10, 9⟩] }
  afIter _ := false

def addrState : MngrState (ℕ × ℕ) where
  mngr := initMngr true 0 0 0
  sock := { sFd := 3, joined := ∅ }
  syncProto := 0
  store := sampleStore
  provided := []

/-- `ENOMEM` for the second group -/
def secondRefused : AddEnv (ℕ × ℕ) where
  realloc := true
  join n := if n = 1 then 12 else 0
  passes := []
  leave _ := 0

/-- the socket was in the first group already -/
def firstJoined : MngrState (ℕ × ℕ) := { addrState with sock := { sFd := 3, joined := {5} } }

theorem add_all_or_nothing_iff_addr :
    AllOrNothing SameAssocs firstJoined (nlCacheMngrAddCache sampleOps addrKinds secondRefused firstJoined 0 none none) := by
  have hsecond : FirstRefused secondRefused.join 3 0 [5, 9] 1 := by
    refine ⟨⟨9, rfl, fun h => absurd h.2.2 (by decide)⟩, fun j hj g hg => ?_⟩
    obtain rfl := Nat.lt_one_iff.1 hj
    cases hg
    exact ⟨by decide, by decide, rfl⟩
  refine (add_all_or_nothing_iff sampleOps addrKinds secondRefused firstJoined 0 none none
    (initMngr_wellFormed 0 0 0)).1.2 fun o groups h => ?_
  have hgroups : some [⟨2, 5⟩, ⟨10, 9⟩] = some groups := h.coGroups
  obtain rfl := Option.some.inj hgroups
  refine ⟨fun m hfirst g hg => ?_, fun hall => absurd hall hsecond.not_all⟩
  obtain rfl := hsecond.unique hfirst
  exact Finset.mem_singleton.2 (List.mem_singleton.1 hg)

/-- **The second group cannot be joined**, and the socket stays in the first. -/
theorem groups_left_joined :
    ¬ AllOrNothing SameAssocs addrState (nlCacheMngrAddCache sampleOps addrKinds secondRefused addrState 0 none none) := by
  rintro ⟨-, hgroups⟩
  have hcall : nlCacheMngrAddCache sampleOps addrKinds secondRefused addrState 0 none none =
      some ({ addrState with sock := { sFd := 3, joined := {5} } }, -NLE_NOMEM) := rfl
  exact Finset.notMem_empty 5 (hgroups _ _ hcall (by decide) 5 (Finset.mem_singleton_self 5))

end Libnl.CacheMngr
