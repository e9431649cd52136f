/-
The multicast database of a bridge (`lib/route/mdb.c`).

An object of this type is all that is known of one bridge: its multicast groups, each with the ports that joined it, and
its router ports. Beside every list there is a counter; counters are natural numbers, as a list never has 2^32 elements.
A pointer to an element of a list is its index there.

Messages about a bridge are merged into the object (`mdb_update`), by the first group, port or router port they carry. An
update that fails has changed the object all the same; the cache removes it then.

- `Counted`: every counter is the length of its list.
- `mdbMsgParser_counted`: so it is in whatever the parser delivers.
- `counters_exact_iff`: in a run of operations on any number of objects, the counters are right all along exactly when no
  step copies a list that has elements. Copies of objects and of groups take over the counter, and count again.
- `clone_counts_twice`: the shortest run that goes wrong.
-/
import Mathlib.Tactic
import Libnl.Core.Prefix
import Libnl.Message.AttrWalk
import Libnl.Cache.Object
import Libnl.Route.Addr

namespace Libnl.Mdb

open Bytes Msg Attr AttrWalk Object Addr Addr.Family Prefix

/-! ## Data -/

def MDB_ATTR_IFINDEX : BitVec 64 := 0x01
def MDB_ATTR_ADDR : BitVec 64 := 0x02
def MDB_ATTR_RPORT : BitVec 64 := 0x04

def RTM_NEWMDB : ℤ := 84
def RTM_DELMDB : ℤ := 85
def RTM_GETMDB : ℤ := 86

def ETH_P_ALL : ℕ := 0x0003
def ETH_P_IP : ℕ := 0x0800
def ETH_P_IPV6 : ℕ := 0x86DD

/-- `struct rtnl_mgrp`; a group that is in use has an address -/
structure RtnlMgrp where
  addr : NlAddr
  proto : ℕ
  vid : ℕ
  state : ℕ
  numMgport : ℕ
  /-- the `mgport_ifi` of its ports -/
  mgportList : List ℕ
deriving DecidableEq, Repr

/-- `struct rtnl_mdb`, behind the common header -/
structure RtnlMdb where
  mFamily : ℕ
  mBrifindex : ℕ
  numMgrp : ℕ
  mgrpList : List RtnlMgrp
  numMrport : ℕ
  /-- the `mrport_ifi` of the router ports -/
  mrportList : List ℕ
deriving DecidableEq, Repr

abbrev MdbObj := ObjVal RtnlMdb

/-- the index of the type -/
def MDB_OPS : ℕ := 0

/-- `rtnl_mdb_alloc` -/
def rtnlMdbAlloc : MdbObj := ⟨MDB_OPS, 0, 0, ⟨0, 0, 0, [], 0, []⟩⟩

/-! ## Groups and ports -/

def rtnlMgrpAddMgport (mgrp : RtnlMgrp) (mgport : ℕ) : RtnlMgrp :=
  { mgrp with mgportList := mgrp.mgportList ++ [mgport], numMgport := mgrp.numMgport + 1 }

def rtnlMgrpDelMgport (mgrp : RtnlMgrp) (mgport : ℕ) : RtnlMgrp :=
  { mgrp with mgportList := mgrp.mgportList.eraseIdx mgport, numMgport := mgrp.numMgport - 1 }

/-- `rtnl_mgrp_free_mgports`: one after the other, always the first -/
def rtnlMgrpFreeMgports (mgrp : RtnlMgrp) : RtnlMgrp :=
  mgrp.mgportList.foldl (fun mgrp _ => rtnlMgrpDelMgport mgrp 0) mgrp

def rtnlMgrpMgportN (grp : RtnlMgrp) (n : ℕ) : Option ℕ :=
  if n < grp.numMgport then grp.mgportList[n]? else none

/-! ## Databases -/

def rtnlMdbAddMrport (mdb : MdbObj) (mr : ℕ) : MdbObj :=
  { mdb with
    ceMask := mdb.ceMask ||| MDB_ATTR_RPORT
    data := { mdb.data with mrportList := mdb.data.mrportList ++ [mr], numMrport := mdb.data.numMrport + 1 } }

def rtnlMdbDelMrport (mdb : MdbObj) (mr : ℕ) : MdbObj :=
  if mdb.ceMask &&& MDB_ATTR_RPORT ≠ 0 then
    { mdb with
      data := { mdb.data with mrportList := mdb.data.mrportList.eraseIdx mr, numMrport := mdb.data.numMrport - 1 } }
  else mdb

def rtnlMdbAddMgrp (mdb : MdbObj) (mg : RtnlMgrp) : MdbObj :=
  { mdb with
    ceMask := mdb.ceMask ||| MDB_ATTR_ADDR
    data := { mdb.data with mgrpList := mdb.data.mgrpList ++ [mg], numMgrp := mdb.data.numMgrp + 1 } }

/-- `rtnl_mdb_del_mgrp`; the group that leaves the list has lost its ports -/
def rtnlMdbDelMgrp (mdb : MdbObj) (mg : ℕ) : MdbObj :=
  { mdb with
    ceMask := mdb.ceMask ||| MDB_ATTR_ADDR
    data := { mdb.data with mgrpList := mdb.data.mgrpList.eraseIdx mg, numMgrp := mdb.data.numMgrp - 1 } }

def rtnlMdbMrportN (m : MdbObj) (n : ℕ) : Option ℕ :=
  if m.ceMask &&& MDB_ATTR_RPORT ≠ 0 ∧ n < m.data.numMrport then m.data.mrportList[n]? else none

def rtnlMdbMgrpN (m : MdbObj) (n : ℕ) : Option RtnlMgrp :=
  if m.ceMask &&& MDB_ATTR_ADDR ≠ 0 ∧ n < m.data.numMgrp then m.data.mgrpList[n]? else none

/-- the group at an index is changed where it is -/
def setMgrp (mdb : MdbObj) (k : ℕ) (mgrp : RtnlMgrp) : MdbObj :=
  { mdb with data := { mdb.data with mgrpList := mdb.data.mgrpList.set k mgrp } }

/-! ## Copies -/

/-- `mgrp_clone`: the counter is taken over, then every port is added -/
def mgrpClone (src : RtnlMgrp) : RtnlMgrp :=
  src.mgportList.foldl rtnlMgrpAddMgport
    { addr := src.addr, proto := src.proto, vid := src.vid, state := 0, numMgport := src.numMgport, mgportList := [] }

/-- `mdb_clone` of a source into a destination, whose counters stay -/
def mdbClone (dst src : MdbObj) : MdbObj :=
  let dst := { dst with
    ceMask := src.ceMask
    data := { dst.data with
      mgrpList := []
      mrportList := []
      mFamily := src.data.mFamily
      mBrifindex := src.data.mBrifindex } }
  let dst := src.data.mrportList.foldl rtnlMdbAddMrport dst
  src.data.mgrpList.foldl (fun dst mgrp => rtnlMdbAddMgrp dst (mgrpClone mgrp)) dst

/-- `nl_object_clone`: the destination is a flat copy of the object -/
def mdbCopy (obj : MdbObj) : MdbObj := mdbClone obj obj

/-! ## Comparison -/

def mdbCompare (a b : MdbObj) (attrs : BitVec 64) (_flags : ℕ) : BitVec 64 :=
  let diff := attrDiff attrs MDB_ATTR_IFINDEX a b (decide (a.data.mBrifindex ≠ b.data.mBrifindex))
  if attrs = MDB_ATTR_IFINDEX then diff
  else
    let diff := diff ||| attrDiff attrs MDB_ATTR_RPORT a b (decide (a.data.numMrport ≠ b.data.numMrport))
    -- a port counts as found when there is one that is not the same
    if a.data.mrportList.any fun mr => !b.data.mrportList.any fun mr' => decide (mr ≠ mr') then
      diff ||| attrDiff attrs MDB_ATTR_RPORT a b true
    else diff ||| attrDiff attrs MDB_ATTR_ADDR a b (decide (a.data.numMgrp ≠ b.data.numMgrp))

/-! ## Updates -/

/-- the two are the same group -/
def sameMgrp (new old : RtnlMgrp) : Bool := !nlAddrCmp (some old.addr) (some new.addr) && decide (old.vid = new.vid)

/-- `mgport_update`, and the return code -/
def mgportUpdate (oldMgrp newMgrp : RtnlMgrp) (action : ℤ) : RtnlMgrp × ℤ :=
  match rtnlMgrpMgportN newMgrp 0 with
  | none => (oldMgrp, -NLE_OPNOTSUPP)
  | some newMgport =>
    let oldMgport := oldMgrp.mgportList.findIdx fun p => decide (p = newMgport)
    let foundOldMgport := oldMgport < oldMgrp.mgportList.length
    if action = RTM_NEWMDB then
      if foundOldMgport then (oldMgrp, 0) else (rtnlMgrpAddMgport oldMgrp newMgport, 0)
    else if action = RTM_DELMDB then
      if foundOldMgport then (rtnlMgrpDelMgport oldMgrp oldMgport, 0) else (oldMgrp, 0)
    else (oldMgrp, -NLE_OPNOTSUPP)

/-- what `mgrp_update` and `mdb_update` return after a deletion: an error when nothing is left -/
def emptied (oldMdb : MdbObj) : ℤ := if oldMdb.data.numMgrp = 0 ∧ oldMdb.data.numMrport = 0 then -NLE_OPNOTSUPP else 0

/-- `mgrp_update`, and the return code -/
def mgrpUpdate (oldMdb newMdb : MdbObj) (action : ℤ) : MdbObj × ℤ :=
  match rtnlMdbMgrpN newMdb 0 with
  | none => (oldMdb, -NLE_OPNOTSUPP)
  | some newMgrp =>
    let k := oldMdb.data.mgrpList.findIdx (sameMgrp newMgrp)
    if h : k < oldMdb.data.mgrpList.length then
      let oldMgrp := oldMdb.data.mgrpList[k]
      if action = RTM_NEWMDB ∨ (action = RTM_DELMDB ∧ 1 < oldMgrp.numMgport) then
        let r := mgportUpdate oldMgrp newMgrp action
        (setMgrp oldMdb k r.1, r.2)
      else if action = RTM_DELMDB then
        let oldMdb := rtnlMdbDelMgrp oldMdb k
        (oldMdb, emptied oldMdb)
      else (oldMdb, -NLE_OPNOTSUPP)
    else if action = RTM_NEWMDB then (rtnlMdbAddMgrp oldMdb (mgrpClone newMgrp), 0)
    else if action = RTM_DELMDB then (oldMdb, emptied oldMdb)
    else (oldMdb, -NLE_OPNOTSUPP)

/-- `mdb_update`: the object as it is then, and the return code -/
def mdbUpdate (oldMdb newMdb : MdbObj) : MdbObj × ℤ :=
  let action := newMdb.ceMsgtype
  if newMdb.ceMask &&& MDB_ATTR_ADDR ≠ 0 then mgrpUpdate oldMdb newMdb action
  else
    match rtnlMdbMrportN newMdb 0 with
    | none => (oldMdb, -NLE_OPNOTSUPP)
    | some newMrport =>
      let oldMrport := oldMdb.data.mrportList.findIdx fun p => decide (p = newMrport)
      let foundOldMrport := oldMrport < oldMdb.data.mrportList.length
      if action = RTM_NEWMDB then
        if foundOldMrport then (oldMdb, 0) else (rtnlMdbAddMrport oldMdb newMrport, 0)
      else if action = RTM_DELMDB then
        let oldMdb := if foundOldMrport then rtnlMdbDelMrport oldMdb oldMrport else oldMdb
        (oldMdb, emptied oldMdb)
      else (oldMdb, -NLE_OPNOTSUPP)

/-- `mdb_obj_ops` -/
def mdbObjOps : ObjectOps RtnlMdb where
  ooIdAttrs := MDB_ATTR_IFINDEX.setWidth 32
  ooIdAttrsGet := none
  ooCompare := some mdbCompare
  ooUpdate := some fun old new => if (mdbUpdate old new).2 = 0 then some (mdbUpdate old new).1 else none
  ooKeygen := none
  ooClone := some mdbCopy

/-! ## Parsing -/

def MDBA_MDB : ℕ := 1
def MDBA_ROUTER : ℕ := 2
def MDBA_MAX : ℤ := 2
def MDBA_ROUTER_PORT : ℕ := 1

/-- `ntohs` of the two bytes at an offset -/
def getBe16 (buf : Mem) (p : ℕ) : ℕ := (buf p).toNat * 256 + (buf (p + 1)).toNat

/-- the address of a group, for the protocols the parser knows -/
def groupAddr (buf : Mem) (proto p : ℕ) : Option NlAddr :=
  if proto = ETH_P_IP then some (nlAddrBuild AF_INET (readBytes buf p 4))
  else if proto = ETH_P_IPV6 then some (nlAddrBuild AF_INET6 (readBytes buf p 16))
  else if proto = ETH_P_ALL then some (nlAddrBuild AF_LLC (readBytes buf p 6))
  else none

variable [HostOrder]

/-- one `struct br_mdb_entry`, with the flag `found_old_grp`. The flag is not reset between the entries of one attribute: an
entry for a new group behind one for a known group is lost. -/
def parseEntryInfo (buf : Mem) (s : MdbObj × Bool) (mi : ℕ) : MdbObj × Bool :=
  let bm := nlaData mi
  let proto := getBe16 buf (bm + 24)
  match groupAddr buf proto (bm + 8) with
  | none => s
  | some addr =>
    let mgrp : RtnlMgrp := ⟨addr, proto, getU16 buf (bm + 6), (buf (bm + 4)).toNat, 0, []⟩
    let mgprt := getU32 buf bm
    let k := s.1.data.mgrpList.findIdx (sameMgrp mgrp)
    let r :=
      if h : k < s.1.data.mgrpList.length then (setMgrp s.1 k (rtnlMgrpAddMgport s.1.data.mgrpList[k] mgprt), true)
      else if s.2 then s
      else (rtnlMdbAddMgrp s.1 (rtnlMgrpAddMgport mgrp mgprt), false)
    ({ r.1 with ceMask := r.1.ceMask ||| MDB_ATTR_ADDR }, r.2)

/-- one `MDBA_MDB_ENTRY` -/
def parseEntry (buf : Mem) (mdb : MdbObj) (me : ℕ) : MdbObj :=
  ((nestedAttrs buf me).foldl (parseEntryInfo buf) (mdb, false)).1

/-- one attribute of `MDBA_ROUTER` -/
def parseRouterPort (buf : Mem) (mdb : MdbObj) (attr : ℕ) : MdbObj :=
  if nlaType buf attr ≠ MDBA_ROUTER_PORT then mdb else rtnlMdbAddMrport mdb (getU32 buf (nlaData attr))

/-- `mdb_msg_parser`: the object that is handed to the callback, or the return code without one -/
def mdbMsgParser (n : NlMsg) : Except ℤ MdbObj :=
  let mdb : MdbObj := { rtnlMdbAlloc with ceMsgtype := n.nlmsgType }
  let (err, tb) := nlmsgParse n 8 MDBA_MAX none
  if err < 0 then .error err
  else
    let mdb : MdbObj := { mdb with
      data := { mdb.data with mBrifindex := getU32 n.buf (nlmsgData + 4), mFamily := (n.buf nlmsgData).toNat } }
    if tb MDBA_MDB = none ∧ tb MDBA_ROUTER = none then .error err
    else
      let mdb : MdbObj := match tb MDBA_MDB with
        | some attr => (nestedAttrs n.buf attr).foldl (parseEntry n.buf) mdb
        | none => mdb
      let mdb : MdbObj := match tb MDBA_ROUTER with
        | some attr => (nestedAttrs n.buf attr).foldl (parseRouterPort n.buf) mdb
        | none => mdb
      if mdb.ceMask = 0 then .error err else .ok { mdb with ceMask := mdb.ceMask ||| MDB_ATTR_IFINDEX }

/-! ## Counters -/

def MgrpCounted (g : RtnlMgrp) : Prop := g.numMgport = g.mgportList.length

/-- every counter is the length of its list -/
structure Counted (m : RtnlMdb) : Prop where
  mgrp : m.numMgrp = m.mgrpList.length
  mrport : m.numMrport = m.mrportList.length
  mgport : ∀ g ∈ m.mgrpList, MgrpCounted g

section

omit [HostOrder]

variable {g : RtnlMgrp} {m : MdbObj}

theorem addMgport_counted (h : MgrpCounted g) (p : ℕ) : MgrpCounted (rtnlMgrpAddMgport g p) := by
  unfold MgrpCounted at *
  simp [rtnlMgrpAddMgport, h]

theorem delMgport_counted (h : MgrpCounted g) {k : ℕ} (hk : k < g.mgportList.length) :
    MgrpCounted (rtnlMgrpDelMgport g k) := by
  unfold MgrpCounted at *
  simp only [rtnlMgrpDelMgport, List.length_eraseIdx_of_lt hk, h]

/-- the ports are gone, and each was counted -/
theorem rtnlMgrpFreeMgports_eq (g : RtnlMgrp) :
    rtnlMgrpFreeMgports g = { g with mgportList := [], numMgport := g.numMgport - g.mgportList.length } := by
  have hloop : ∀ (l : List ℕ) (g : RtnlMgrp), g.mgportList = l → l.foldl (fun g _ => rtnlMgrpDelMgport g 0) g =
      { g with mgportList := [], numMgport := g.numMgport - l.length } := by
    intro l
    induction l with
    | nil =>
      intro g hg
      cases g
      subst hg
      rfl
    | cons p l ih =>
      intro g hg
      have hrest : (rtnlMgrpDelMgport g 0).mgportList = l := by simp [rtnlMgrpDelMgport, hg]
      rw [List.foldl_cons, ih _ hrest]
      simp only [rtnlMgrpDelMgport, List.length_cons]
      congr 1
      omega
  exact hloop _ g rfl

theorem freeMgports_counted (h : MgrpCounted g) : MgrpCounted (rtnlMgrpFreeMgports g) := by
  unfold MgrpCounted at *
  rw [rtnlMgrpFreeMgports_eq, h]
  simp

theorem addMrport_counted (h : Counted m.data) (mr : ℕ) : Counted (rtnlMdbAddMrport m mr).data where
  mgrp := h.mgrp
  mrport := by simp [rtnlMdbAddMrport, h.mrport]
  mgport := h.mgport

theorem delMrport_counted (h : Counted m.data) {k : ℕ} (hk : k < m.data.mrportList.length) :
    Counted (rtnlMdbDelMrport m k).data := by
  unfold rtnlMdbDelMrport
  by_cases hmask : m.ceMask &&& MDB_ATTR_RPORT ≠ 0
  · rw [if_pos hmask]
    refine ⟨h.mgrp, ?_, h.mgport⟩
    simp only [List.length_eraseIdx_of_lt hk, h.mrport]
  · rw [if_neg hmask]
    exact h

/-- a group that is added has to be counted itself -/
theorem addMgrp_counted_iff (h : Counted m.data) (g : RtnlMgrp) :
    Counted (rtnlMdbAddMgrp m g).data ↔ MgrpCounted g := by
  constructor
  · intro h'
    exact h'.mgport g (by simp [rtnlMdbAddMgrp])
  · intro hg
    refine ⟨by simp [rtnlMdbAddMgrp, h.mgrp], h.mrport, ?_⟩
    intro x hx
    rcases List.mem_append.1 hx with hx | hx
    · exact h.mgport x hx
    · rw [List.mem_singleton.1 hx]
      exact hg

theorem delMgrp_counted (h : Counted m.data) {k : ℕ} (hk : k < m.data.mgrpList.length) :
    Counted (rtnlMdbDelMgrp m k).data where
  mgrp := by simp only [rtnlMdbDelMgrp, List.length_eraseIdx_of_lt hk, h.mgrp]
  mrport := h.mrport
  mgport x hx := h.mgport x (List.mem_of_mem_eraseIdx hx)

theorem setMgrp_counted (h : Counted m.data) (k : ℕ) (hg : MgrpCounted g) : Counted (setMgrp m k g).data where
  mgrp := by simp [setMgrp, h.mgrp]
  mrport := h.mrport
  mgport x hx := by
    rcases List.mem_or_eq_of_mem_set hx with hx | rfl
    · exact h.mgport x hx
    · exact hg

/-! ## Copies count again -/

/-- what the copy of a group is -/
theorem mgrpClone_eq (src : RtnlMgrp) :
    mgrpClone src = { src with state := 0, numMgport := src.numMgport + src.mgportList.length } := by
  have hloop : ∀ (l : List ℕ) (g : RtnlMgrp), l.foldl rtnlMgrpAddMgport g =
      { g with mgportList := g.mgportList ++ l, numMgport := g.numMgport + l.length } := by
    intro l
    induction l with
    | nil =>
      intro g
      simp
    | cons p l ih =>
      intro g
      rw [List.foldl_cons, ih]
      simp only [rtnlMgrpAddMgport, List.append_assoc, List.singleton_append, List.length_cons]
      congr 1
      omega
  rw [mgrpClone, hloop, List.nil_append]

theorem mgrpClone_counted_iff (h : MgrpCounted g) : MgrpCounted (mgrpClone g) ↔ g.mgportList = [] := by
  unfold MgrpCounted at *
  rw [mgrpClone_eq, ← List.length_eq_zero_iff]
  simp only
  omega

theorem foldl_addMrport (l : List ℕ) (m : MdbObj) : (l.foldl rtnlMdbAddMrport m).data =
    { m.data with mrportList := m.data.mrportList ++ l, numMrport := m.data.numMrport + l.length } := by
  induction l generalizing m with
  | nil => simp
  | cons p l ih =>
    rw [List.foldl_cons, ih]
    simp only [rtnlMdbAddMrport, List.append_assoc, List.singleton_append, List.length_cons]
    congr 1
    omega

theorem foldl_addMgrp (l : List RtnlMgrp) (m : MdbObj) :
    (l.foldl (fun m g => rtnlMdbAddMgrp m (mgrpClone g)) m).data =
      { m.data with mgrpList := m.data.mgrpList ++ l.map mgrpClone, numMgrp := m.data.numMgrp + l.length } := by
  induction l generalizing m with
  | nil => simp
  | cons g l ih =>
    rw [List.foldl_cons, ih]
    simp only [rtnlMdbAddMgrp, List.append_assoc, List.singleton_append, List.length_cons, List.map_cons]
    congr 1
    omega

/-- what the copy of a database is -/
theorem mdbCopy_data (m : MdbObj) : (mdbCopy m).data =
    { m.data with
      numMgrp := m.data.numMgrp + m.data.mgrpList.length
      mgrpList := m.data.mgrpList.map mgrpClone
      numMrport := m.data.numMrport + m.data.mrportList.length } := by
  unfold mdbCopy mdbClone
  rw [foldl_addMgrp, foldl_addMrport]
  simp

theorem mdbCopy_counted_iff (h : Counted m.data) :
    Counted (mdbCopy m).data ↔ m.data.mgrpList = [] ∧ m.data.mrportList = [] := by
  have hgrp := h.mgrp
  have hport := h.mrport
  constructor
  · intro h'
    have hgrp' := h'.mgrp
    have hport' := h'.mrport
    simp only [mdbCopy_data, List.length_map] at hgrp' hport'
    rw [← List.length_eq_zero_iff, ← List.length_eq_zero_iff]
    omega
  · intro hnil
    refine ⟨?_, ?_, ?_⟩
    · simp [mdbCopy_data, hnil.1, hgrp]
    · simp [mdbCopy_data, hnil.2, hport]
    · simp [mdbCopy_data, hnil.1]

/-! ## Updates -/

/-- a search in a list finds the first element of a kind, or there is none -/
theorem findIdx_cases {β : Type} (p : β → Bool) (l : List β) :
    (l.findIdx p < l.length ∧ ∃ as x bs, l = as ++ x :: bs ∧ as.length = l.findIdx p ∧ p x = true) ∨
    (¬ l.findIdx p < l.length ∧ ∀ x ∈ l, p x = false) := by
  by_cases hlt : l.findIdx p < l.length
  · refine Or.inl ⟨hlt, l.take (l.findIdx p), l[l.findIdx p], l.drop (l.findIdx p + 1), ?_, ?_, List.findIdx_getElem⟩
    · rw [List.getElem_cons_drop, List.take_append_drop]
    · exact List.length_take_of_le hlt.le
  · refine Or.inr ⟨hlt, ?_⟩
    intro x hx
    rw [List.findIdx_lt_length] at hlt
    by_contra hpx
    exact hlt ⟨x, hx, by simpa using hpx⟩

theorem mgportUpdate_counted (h : MgrpCounted g) (new : RtnlMgrp) (action : ℤ) :
    MgrpCounted (mgportUpdate g new action).1 := by
  unfold mgportUpdate
  cases rtnlMgrpMgportN new 0 with
  | none => exact h
  | some p =>
    simp only
    by_cases hnew : action = RTM_NEWMDB
    · rw [if_pos hnew]
      split_ifs
      · exact h
      · exact addMgport_counted h p
    · rw [if_neg hnew]
      split_ifs with hdel hfound
      · exact delMgport_counted h hfound
      · exact h
      · exact h

/-- the update copies a group that has ports: it is a new group that the object does not have -/
def CopiesPorts (old new : MdbObj) : Prop :=
  new.ceMask &&& MDB_ATTR_ADDR ≠ 0 ∧ new.ceMsgtype = RTM_NEWMDB ∧
    ∃ g, rtnlMdbMgrpN new 0 = some g ∧ g.mgportList ≠ [] ∧ ∀ x ∈ old.data.mgrpList, sameMgrp g x = false

theorem rtnlMdbMgrpN_mem {n : ℕ} (h : rtnlMdbMgrpN m n = some g) : g ∈ m.data.mgrpList := by
  unfold rtnlMdbMgrpN at h
  split_ifs at h
  exact List.mem_of_getElem? h

/-- a group that is known, or a deletion: the update copies no group -/
theorem mgrpUpdate_counted_iff {old new : MdbObj} (hold : Counted old.data) (hnew : Counted new.data) (action : ℤ) :
    Counted (mgrpUpdate old new action).1.data ↔
      ¬ (action = RTM_NEWMDB ∧
        ∃ g, rtnlMdbMgrpN new 0 = some g ∧ g.mgportList ≠ [] ∧ ∀ x ∈ old.data.mgrpList, sameMgrp g x = false) := by
  unfold mgrpUpdate
  cases hg : rtnlMdbMgrpN new 0 with
  | none => simp [hold]
  | some g =>
    simp only [Option.some.injEq, exists_eq_left']
    have hcg : MgrpCounted g := hnew.mgport g (rtnlMdbMgrpN_mem hg)
    rcases findIdx_cases (sameMgrp g) old.data.mgrpList with ⟨hlt, as, x, bs, hl, -, hx⟩ | ⟨hlt, hnone⟩
    · have hknown : ¬ (action = RTM_NEWMDB ∧ g.mgportList ≠ [] ∧ ∀ x ∈ old.data.mgrpList, sameMgrp g x = false) := by
        intro ⟨_, _, hall⟩
        rw [hall x (by rw [hl]; simp)] at hx
        cases hx
      rw [dif_pos hlt]
      refine iff_of_true ?_ hknown
      have hmem := List.getElem_mem hlt
      split_ifs
      · exact setMgrp_counted hold _ (mgportUpdate_counted (hold.mgport _ hmem) g action)
      · exact delMgrp_counted hold hlt
      · exact hold
    · rw [dif_neg hlt]
      by_cases hact : action = RTM_NEWMDB
      · rw [if_pos hact]
        simp only
        rw [addMgrp_counted_iff hold, mgrpClone_counted_iff hcg]
        constructor
        · intro hnil hcopy
          exact hcopy.2.1 hnil
        · intro hcopy
          by_contra hports
          exact hcopy ⟨hact, hports, hnone⟩
      · rw [if_neg hact]
        refine iff_of_true ?_ fun h => hact h.1
        split_ifs
        · exact hold
        · exact hold

/-- **Updates.** The counters of an updated object are right unless the update copied ports. -/
theorem mdbUpdate_counted_iff {old new : MdbObj} (hold : Counted old.data) (hnew : Counted new.data) :
    Counted (mdbUpdate old new).1.data ↔ ¬ CopiesPorts old new := by
  unfold mdbUpdate CopiesPorts
  by_cases haddr : new.ceMask &&& MDB_ATTR_ADDR ≠ 0
  · rw [if_pos haddr, mgrpUpdate_counted_iff hold hnew, and_iff_right haddr]
  · rw [if_neg haddr]
    refine iff_of_true ?_ fun h => haddr h.1
    cases rtnlMdbMrportN new 0 with
    | none => exact hold
    | some p =>
      simp only
      by_cases hact : new.ceMsgtype = RTM_NEWMDB
      · rw [if_pos hact]
        split_ifs
        · exact hold
        · exact addMrport_counted hold p
      · rw [if_neg hact]
        by_cases hdel : new.ceMsgtype = RTM_DELMDB
        · rw [if_pos hdel]
          split_ifs with hfound
          · exact delMrport_counted hold hfound
          · exact hold
        · rw [if_neg hdel]
          exact hold

end

/-! ## Messages -/

theorem parseEntryInfo_counted (buf : Mem) {s : MdbObj × Bool} (h : Counted s.1.data) (mi : ℕ) :
    Counted (parseEntryInfo buf s mi).1.data := by
  unfold parseEntryInfo
  simp only
  cases groupAddr buf (getBe16 buf (nlaData mi + 24)) (nlaData mi + 8) with
  | none => exact h
  | some addr =>
    simp only
    split_ifs with hfound hflag
    · exact setMgrp_counted h _ (addMgport_counted (h.mgport _ (List.getElem_mem hfound)) _)
    · exact h
    · refine (addMgrp_counted_iff h _).2 (addMgport_counted ?_ _)
      rfl

theorem parseEntry_counted (buf : Mem) {m : MdbObj} (h : Counted m.data) (me : ℕ) : Counted (parseEntry buf m me).data := by
  unfold parseEntry
  generalize nestedAttrs buf me = l
  have hloop : ∀ s : MdbObj × Bool, Counted s.1.data → Counted (l.foldl (parseEntryInfo buf) s).1.data := by
    induction l with
    | nil => exact fun s hs => hs
    | cons mi l ih => exact fun s hs => ih _ (parseEntryInfo_counted buf hs mi)
  exact hloop (m, false) h

theorem parseRouterPort_counted (buf : Mem) {m : MdbObj} (h : Counted m.data) (attr : ℕ) :
    Counted (parseRouterPort buf m attr).data := by
  unfold parseRouterPort
  split_ifs
  · exact h
  · exact addMrport_counted h _

omit [HostOrder] in
/-- a loop that keeps the counters right -/
theorem foldl_counted {f : MdbObj → ℕ → MdbObj} (hf : ∀ m, Counted m.data → ∀ a, Counted (f m a).data) (l : List ℕ)
    {m : MdbObj} (h : Counted m.data) : Counted (l.foldl f m).data := by
  induction l generalizing m with
  | nil => exact h
  | cons a l ih => exact ih (hf m h a)

/-- **What the parser delivers** is counted. -/
theorem mdbMsgParser_counted {n : NlMsg} {m : MdbObj} (h : mdbMsgParser n = .ok m) : Counted m.data := by
  unfold mdbMsgParser at h
  simp only at h
  split_ifs at h
  cases h
  simp only
  have hzero : Counted { rtnlMdbAlloc.data with
      mBrifindex := getU32 n.buf (nlmsgData + 4), mFamily := (n.buf nlmsgData).toNat } := ⟨rfl, rfl, nofun⟩
  have hgroups : ∀ m : MdbObj, Counted m.data → Counted (match (nlmsgParse n 8 MDBA_MAX none).2 MDBA_MDB with
      | some attr => (nestedAttrs n.buf attr).foldl (parseEntry n.buf) m
      | none => m : MdbObj).data := by
    intro m hm
    cases (nlmsgParse n 8 MDBA_MAX none).2 MDBA_MDB with
    | none => exact hm
    | some attr => exact foldl_counted (fun m hm me => parseEntry_counted n.buf hm me) _ hm
  cases (nlmsgParse n 8 MDBA_MAX none).2 MDBA_ROUTER with
  | none => exact hgroups _ hzero
  | some attr => exact foldl_counted (fun m hm a => parseRouterPort_counted n.buf hm a) _ (hgroups _ hzero)

/-! ## Runs of operations -/

/-- the objects there are, and the groups that are in none of them -/
structure Heap where
  mdbs : List MdbObj
  mgrps : List RtnlMgrp

/-- a group in no database, or one of a database -/
inductive MgrpRef where
  | loose (j : ℕ)
  | listed (i j : ℕ)

inductive Op where
  | mdbAlloc
  | parse (n : NlMsg)
  | clone (i : ℕ)
  | update (i j : ℕ)
  | addMrport (i mr : ℕ)
  | delMrport (i k : ℕ)
  | mgrpAlloc (addr : NlAddr) (proto vid state : ℕ)
  | addMgrp (i j : ℕ)
  | delMgrp (i k : ℕ)
  | addMgport (g : MgrpRef) (p : ℕ)
  | delMgport (g : MgrpRef) (k : ℕ)
  | freeMgports (g : MgrpRef)

section

omit [HostOrder]

/-- change the `i`-th database -/
def onMdb (h : Heap) (i : ℕ) (f : MdbObj → MdbObj) : Heap :=
  match h.mdbs[i]? with
  | some m => { h with mdbs := h.mdbs.set i (f m) }
  | none => h

/-- change a group -/
def onMgrp (h : Heap) (g : MgrpRef) (f : RtnlMgrp → RtnlMgrp) : Heap :=
  match g with
  | .loose j =>
    match h.mgrps[j]? with
    | some g => { h with mgrps := h.mgrps.set j (f g) }
    | none => h
  | .listed i j => onMdb h i fun m =>
    match m.data.mgrpList[j]? with
    | some g => setMgrp m j (f g)
    | none => m

end

/-- one operation; what names an object, a group or a port that is not there does nothing -/
def step (h : Heap) : Op → Heap
  | .mdbAlloc => { h with mdbs := h.mdbs ++ [rtnlMdbAlloc] }
  | .parse n =>
    match mdbMsgParser n with
    | .ok m => { h with mdbs := h.mdbs ++ [m] }
    | .error _ => h
  | .clone i =>
    match h.mdbs[i]? with
    | some m => { h with mdbs := h.mdbs ++ [mdbCopy m] }
    | none => h
  | .update i j =>
    match h.mdbs[j]? with
    | some new => onMdb h i fun old => (mdbUpdate old new).1
    | none => h
  | .addMrport i mr => onMdb h i fun m => rtnlMdbAddMrport m mr
  | .delMrport i k => onMdb h i fun m => if k < m.data.mrportList.length then rtnlMdbDelMrport m k else m
  | .mgrpAlloc addr proto vid state => { h with mgrps := h.mgrps ++ [⟨addr, proto, vid, state, 0, []⟩] }
  | .addMgrp i j =>
    match h.mdbs[i]?, h.mgrps[j]? with
    | some m, some g => { mdbs := h.mdbs.set i (rtnlMdbAddMgrp m g), mgrps := h.mgrps.eraseIdx j }
    | _, _ => h
  | .delMgrp i k =>
    match h.mdbs[i]? with
    | some m =>
      match m.data.mgrpList[k]? with
      | some g => { mdbs := h.mdbs.set i (rtnlMdbDelMgrp m k), mgrps := h.mgrps ++ [rtnlMgrpFreeMgports g] }
      | none => h
    | none => h
  | .addMgport g p => onMgrp h g fun g => rtnlMgrpAddMgport g p
  | .delMgport g k => onMgrp h g fun g => if k < g.mgportList.length then rtnlMgrpDelMgport g k else g
  | .freeMgports g => onMgrp h g rtnlMgrpFreeMgports

def run (ops : List Op) : Heap := ops.foldl step ⟨[], []⟩

/-- all counters are right -/
structure HeapCounted (h : Heap) : Prop where
  mdbs : ∀ m ∈ h.mdbs, Counted m.data
  mgrps : ∀ g ∈ h.mgrps, MgrpCounted g

/-- the operation copies no list that has elements -/
def CopiesNothing (h : Heap) : Op → Prop
  | .clone i => ∀ m, h.mdbs[i]? = some m → m.data.mgrpList = [] ∧ m.data.mrportList = []
  | .update i j => ∀ new, h.mdbs[j]? = some new → ∀ old, h.mdbs[i]? = some old → ¬ CopiesPorts old new
  | _ => True

section

omit [HostOrder]

variable {h : Heap}

theorem HeapCounted.pushMdb_iff (hc : HeapCounted h) (m : MdbObj) :
    HeapCounted { h with mdbs := h.mdbs ++ [m] } ↔ Counted m.data := by
  constructor
  · intro hc'
    exact hc'.mdbs m (by simp)
  · intro hm
    refine ⟨?_, hc.mgrps⟩
    intro x hx
    rcases List.mem_append.1 hx with hx | hx
    · exact hc.mdbs x hx
    · rw [List.mem_singleton.1 hx]
      exact hm

theorem HeapCounted.pushMgrp (hc : HeapCounted h) {g : RtnlMgrp} (hg : MgrpCounted g) :
    HeapCounted { h with mgrps := h.mgrps ++ [g] } := by
  refine ⟨hc.mdbs, ?_⟩
  intro x hx
  rcases List.mem_append.1 hx with hx | hx
  · exact hc.mgrps x hx
  · rw [List.mem_singleton.1 hx]
    exact hg

theorem HeapCounted.setMdb (hc : HeapCounted h) (i : ℕ) {m : MdbObj} (hm : Counted m.data) :
    HeapCounted { h with mdbs := h.mdbs.set i m } := by
  refine ⟨?_, hc.mgrps⟩
  intro x hx
  rcases List.mem_or_eq_of_mem_set hx with hx | rfl
  · exact hc.mdbs x hx
  · exact hm

theorem HeapCounted.onMdb_iff (hc : HeapCounted h) (i : ℕ) (f : MdbObj → MdbObj) :
    HeapCounted (onMdb h i f) ↔ ∀ m, h.mdbs[i]? = some m → Counted (f m).data := by
  unfold onMdb
  cases hi : h.mdbs[i]? with
  | none => exact iff_of_true hc nofun
  | some m =>
    simp only [Option.some.injEq, forall_eq']
    constructor
    · intro hc'
      exact hc'.mdbs (f m) (List.mem_set (List.getElem?_eq_some_iff.1 hi).1 _)
    · exact hc.setMdb i

/-- a change that keeps every group counted -/
theorem HeapCounted.onMgrp (hc : HeapCounted h) (g : MgrpRef) {f : RtnlMgrp → RtnlMgrp}
    (hf : ∀ g, MgrpCounted g → MgrpCounted (f g)) : HeapCounted (onMgrp h g f) := by
  cases g with
  | loose j =>
    simp only [Mdb.onMgrp]
    cases hj : h.mgrps[j]? with
    | none => exact hc
    | some g =>
      refine ⟨hc.mdbs, ?_⟩
      intro x hx
      rcases List.mem_or_eq_of_mem_set hx with hx | rfl
      · exact hc.mgrps x hx
      · exact hf g (hc.mgrps g (List.mem_of_getElem? hj))
  | listed i j =>
    refine (hc.onMdb_iff i _).2 fun m hm => ?_
    have hcm := hc.mdbs m (List.mem_of_getElem? hm)
    cases hj : m.data.mgrpList[j]? with
    | none => exact hcm
    | some g => exact setMgrp_counted hcm j (hf g (hcm.mgport g (List.mem_of_getElem? hj)))

end

/-- **One operation** keeps the counters right exactly when it copies no elements. -/
theorem step_counted_iff {h : Heap} (hc : HeapCounted h) (op : Op) :
    HeapCounted (step h op) ↔ CopiesNothing h op := by
  have hmdb : ∀ {i : ℕ} {m : MdbObj}, h.mdbs[i]? = some m → Counted m.data := fun hm =>
    hc.mdbs _ (List.mem_of_getElem? hm)
  cases op with
  | mdbAlloc => exact iff_of_true ((hc.pushMdb_iff _).2 ⟨rfl, rfl, nofun⟩) trivial
  | parse n =>
    refine iff_of_true ?_ trivial
    simp only [step]
    cases hp : mdbMsgParser n with
    | error e => exact hc
    | ok m => exact (hc.pushMdb_iff m).2 (mdbMsgParser_counted hp)
  | clone i =>
    simp only [step, CopiesNothing]
    cases hi : h.mdbs[i]? with
    | none => exact iff_of_true hc nofun
    | some m =>
      simp only [Option.some.injEq, forall_eq']
      rw [hc.pushMdb_iff, mdbCopy_counted_iff (hmdb hi)]
  | update i j =>
    simp only [step, CopiesNothing]
    cases hj : h.mdbs[j]? with
    | none => exact iff_of_true hc nofun
    | some new =>
      rw [hc.onMdb_iff]
      simp only [Option.some.injEq, forall_eq']
      exact forall₂_congr fun old hold => mdbUpdate_counted_iff (hmdb hold) (hmdb hj)
  | addMrport i mr =>
    exact iff_of_true ((hc.onMdb_iff i _).2 fun m hm => addMrport_counted (hmdb hm) mr) trivial
  | delMrport i k =>
    refine iff_of_true ((hc.onMdb_iff i _).2 fun m hm => ?_) trivial
    split_ifs with hk
    · exact delMrport_counted (hmdb hm) hk
    · exact hmdb hm
  | mgrpAlloc addr proto vid state => exact iff_of_true (hc.pushMgrp rfl) trivial
  | addMgrp i j =>
    refine iff_of_true ?_ trivial
    simp only [step]
    cases hi : h.mdbs[i]? with
    | none => exact hc
    | some m =>
      cases hj : h.mgrps[j]? with
      | none => exact hc
      | some g =>
        have hg := hc.mgrps g (List.mem_of_getElem? hj)
        have hset := hc.setMdb i ((addMgrp_counted_iff (hmdb hi) g).2 hg)
        exact ⟨hset.mdbs, fun x hx => hc.mgrps x (List.mem_of_mem_eraseIdx hx)⟩
  | delMgrp i k =>
    refine iff_of_true ?_ trivial
    simp only [step]
    cases hi : h.mdbs[i]? with
    | none => exact hc
    | some m =>
      simp only
      cases hk : m.data.mgrpList[k]? with
      | none => exact hc
      | some g =>
        have hset := hc.setMdb i (delMgrp_counted (hmdb hi) (List.getElem?_eq_some_iff.1 hk).1)
        exact hset.pushMgrp (freeMgports_counted ((hmdb hi).mgport g (List.mem_of_getElem? hk)))
  | addMgport g p => exact iff_of_true (hc.onMgrp g fun g hg => addMgport_counted hg p) trivial
  | delMgport g k =>
    refine iff_of_true (hc.onMgrp g fun g hg => ?_) trivial
    split_ifs with hk
    · exact delMgport_counted hg hk
    · exact hg
  | freeMgports g => exact iff_of_true (hc.onMgrp g fun g hg => freeMgports_counted hg) trivial

/-- **Counters.** In every run of operations, the counters of all objects and groups are right after every prefix exactly
when no operation copies a list that has elements. -/
theorem counters_exact_iff (ops : List Op) :
    (∀ as, as <+: ops → HeapCounted (run as)) ↔ ∀ as op, as ++ [op] <+: ops → CopiesNothing (run as) op := by
  refine all_prefixes_iff (P := fun as => HeapCounted (run as)) (Q := fun as op => CopiesNothing (run as) op)
    ⟨nofun, nofun⟩ ?_ ops
  intro as op hc
  have hrun : run (as ++ [op]) = step (run as) op := List.foldl_concat ..
  rw [hrun]
  exact step_counted_iff hc op

omit [HostOrder] in
/-- **A copy counts twice**: a database with one router port, and its clone, which says it has two. -/
theorem clone_counts_twice : ¬ ∀ as, as <+: [Op.mdbAlloc, .addMrport 0 7, .clone 0] →
    HeapCounted (@run ⟨false⟩ as) := by
  intro hall
  have hc := (hall _ (List.prefix_refl _)).mdbs (mdbCopy (rtnlMdbAddMrport rtnlMdbAlloc 7)) (by decide)
  exact absurd hc.mrport (by decide)

end Libnl.Mdb
