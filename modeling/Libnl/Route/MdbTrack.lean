/-
Following the multicast database of a bridge through its notifications.

Every notification is about one entry, that is a port in a group, or about one router port: it is there now, or it is gone.
The cache merges them into the object of the bridge. What it should hold are the entries and router ports of which the
last notification said that they are there.

The groups of an object are a list keyed by address and VLAN, so what an update does to them is said with the operations
on such lists (`update_entry`). Two invariants: `Base` holds in every run. `Tracks` is the claim itself, and does not.

- `parser_announces`: the object the parser makes of a notification.
- `mdb_follows`: the cache has one object for the bridge, and messages do to it what `follow` says.
- `mdb_tracked_iff`: the object tracks the notifications all along exactly when every deletion is `Sane`: its group counts
  one port, and that port is the one to go; or it counts more, and another port stays.
- `empty_group_stays`: a group that came by an update counts its port twice, so it stays when the port goes.
-/
import Mathlib.Tactic
import Libnl.Core.Prefix
import Libnl.Core.KeyedList
import Libnl.Cache.Contents
import Libnl.Route.Mdb

namespace Libnl.Mdb

open Bytes Msg Attr AttrWalk Object Addr Addr.Family KeyedList Prefix Cache

/-! ## Notifications -/

/-- the protocols of groups -/
inductive Proto where
  | ip | ipv6 | all
deriving DecidableEq, Repr

def Proto.ethertype : Proto → ℕ
  | .ip => ETH_P_IP
  | .ipv6 => ETH_P_IPV6
  | .all => ETH_P_ALL

def Proto.family : Proto → ℤ
  | .ip => AF_INET
  | .ipv6 => AF_INET6
  | .all => AF_LLC

def Proto.addrLen : Proto → ℕ
  | .ip => 4
  | .ipv6 => 16
  | .all => 6

/-- the address of a group, of the length its protocol has -/
structure GroupAddr where
  proto : Proto
  bytes : List UInt8
  len : bytes.length = proto.addrLen
deriving DecidableEq

def GroupAddr.nl (a : GroupAddr) : NlAddr := nlAddrBuild a.proto.family a.bytes

/-- what a notification can be about -/
inductive Item where
  | entry (addr : GroupAddr) (vid port : ℕ)
  | router (port : ℕ)
deriving DecidableEq

structure Notif where
  /-- `RTM_NEWMDB`, else `RTM_DELMDB` -/
  new : Bool
  item : Item
  state : ℕ
  family : ℕ
deriving DecidableEq

def Notif.msgtype (n : Notif) : ℤ := if n.new then RTM_NEWMDB else RTM_DELMDB

/-- the object the parser makes of a notification about bridge `br` -/
def Notif.obj (br : ℕ) (n : Notif) : MdbObj :=
  match n.item with
  | .entry addr vid port =>
    ⟨MDB_OPS, n.msgtype, MDB_ATTR_ADDR ||| MDB_ATTR_IFINDEX,
      ⟨n.family, br, 1, [⟨addr.nl, addr.proto.ethertype, vid, n.state, 1, [port]⟩], 0, []⟩⟩
  | .router port => ⟨MDB_OPS, n.msgtype, MDB_ATTR_RPORT ||| MDB_ATTR_IFINDEX, ⟨n.family, br, 0, [], 1, [port]⟩⟩

section

variable [HostOrder]

/-- the message carries this notification about bridge `br`, and no other -/
structure Announces (msg : NlMsg) (br : ℕ) (n : Notif) : Prop where
  type : (msg.nlmsgType : ℤ) = n.msgtype
  family : (msg.buf nlmsgData).toNat = n.family
  bridge : getU32 msg.buf (nlmsgData + 4) = br
  parses : (nlmsgParse msg 8 MDBA_MAX none).1 = 0
  item : match n.item with
    | .entry addr vid port => ∃ attr me mi, (nlmsgParse msg 8 MDBA_MAX none).2 MDBA_MDB = some attr ∧
        (nlmsgParse msg 8 MDBA_MAX none).2 MDBA_ROUTER = none ∧ nestedAttrs msg.buf attr = [me] ∧
        nestedAttrs msg.buf me = [mi] ∧ getU32 msg.buf (nlaData mi) = port ∧
        (msg.buf (nlaData mi + 4)).toNat = n.state ∧ getU16 msg.buf (nlaData mi + 6) = vid ∧
        readBytes msg.buf (nlaData mi + 8) addr.proto.addrLen = addr.bytes ∧
        getBe16 msg.buf (nlaData mi + 24) = addr.proto.ethertype
    | .router port => ∃ attr p, (nlmsgParse msg 8 MDBA_MAX none).2 MDBA_MDB = none ∧
        (nlmsgParse msg 8 MDBA_MAX none).2 MDBA_ROUTER = some attr ∧ nestedAttrs msg.buf attr = [p] ∧
        nlaType msg.buf p = MDBA_ROUTER_PORT ∧ getU32 msg.buf (nlaData p) = port

omit [HostOrder] in
theorem groupAddr_of {buf : Mem} {a : GroupAddr} {p : ℕ} (h : readBytes buf p a.proto.addrLen = a.bytes) :
    groupAddr buf a.proto.ethertype p = some a.nl := by
  unfold groupAddr GroupAddr.nl
  cases hp : a.proto <;> rw [hp] at h <;> exact congrArg (fun bs => some (nlAddrBuild _ bs)) h

/-- **What the parser makes of a notification.** -/
theorem parser_announces {msg : NlMsg} {br : ℕ} {n : Notif} (h : Announces msg br n) :
    mdbMsgParser msg = .ok (n.obj br) := by
  have hitem := h.item
  unfold mdbMsgParser Notif.obj
  simp only [h.parses, h.type, h.family, h.bridge, lt_irrefl, if_false]
  cases hn : n.item with
  | entry addr vid port =>
    rw [hn] at hitem
    obtain ⟨attr, me, mi, hmdb, hrouter, hme, hmi, hport, hstate, hvid, hbytes, hproto⟩ := hitem
    simp only [hmdb, hrouter, hme, hmi, reduceCtorEq, false_and, if_false, List.foldl_cons, List.foldl_nil, parseEntry,
      parseEntryInfo, hproto, groupAddr_of hbytes, hport, hstate, hvid, rtnlMdbAlloc, List.length_nil, Nat.not_lt_zero,
      dif_neg, not_false_eq_true, Bool.false_eq_true, rtnlMdbAddMgrp, rtnlMgrpAddMgport, List.nil_append, Nat.zero_add]
    have hmask : ¬ ((0 : BitVec 64) ||| MDB_ATTR_ADDR ||| MDB_ATTR_ADDR = 0) := by decide
    have hor : (0 : BitVec 64) ||| MDB_ATTR_ADDR ||| MDB_ATTR_ADDR ||| MDB_ATTR_IFINDEX =
        MDB_ATTR_ADDR ||| MDB_ATTR_IFINDEX := by decide
    rw [if_neg hmask, hor]
  | router port =>
    rw [hn] at hitem
    obtain ⟨attr, p, hmdb, hrouter, hp, htype, hport⟩ := hitem
    simp only [hmdb, hrouter, hp, reduceCtorEq, and_false, if_false, List.foldl_cons, List.foldl_nil, parseRouterPort,
      htype, ne_eq, not_true_eq_false, hport, rtnlMdbAlloc, rtnlMdbAddMrport, List.nil_append, Nat.zero_add]
    have hmask : ¬ ((0 : BitVec 64) ||| MDB_ATTR_RPORT = 0) := by decide
    have hor : (0 : BitVec 64) ||| MDB_ATTR_RPORT ||| MDB_ATTR_IFINDEX = MDB_ATTR_RPORT ||| MDB_ATTR_IFINDEX := by decide
    rw [if_neg hmask, hor]

end

/-- the last notification about it said that it is there -/
def Live (ns : List Notif) (x : Item) : Prop :=
  ((ns.filter fun n => decide (n.item = x)).getLast?.map Notif.new) = some true

theorem live_nil (x : Item) : ¬ Live [] x := nofun

theorem live_snoc (ns : List Notif) (n : Notif) (x : Item) :
    Live (ns ++ [n]) x ↔ if n.item = x then n.new = true else Live ns x := by
  unfold Live
  rw [List.filter_append]
  by_cases h : n.item = x
  · simp [h]
  · simp [h]

/-! ## Groups by key -/

/-- what identifies a group -/
def mgrpKey (g : RtnlMgrp) : NlAddr × ℕ := (g.addr, g.vid)

/-- the comparison of `mgrp_update` -/
def sameKey (k k' : NlAddr × ℕ) : Bool := !nlAddrCmp (some k.1) (some k'.1) && decide (k.2 = k'.2)

/-- the group with this key -/
abbrev mgrpOf (gs : List RtnlMgrp) (k : NlAddr × ℕ) : Option RtnlMgrp := look mgrpKey sameKey gs k

def GroupAddr.key (a : GroupAddr) (vid : ℕ) : NlAddr × ℕ := (a.nl, vid)

theorem sameMgrp_eq (new old : RtnlMgrp) : sameMgrp new old = sameKey (mgrpKey old) (mgrpKey new) := rfl

theorem sameKey_iff (k k' : NlAddr × ℕ) :
    sameKey k k' = true ↔ addrKey (some k.1) = addrKey (some k'.1) ∧ k.2 = k'.2 := by
  simp only [sameKey, Bool.and_eq_true, Bool.not_eq_true', nlAddrCmp_eq_false_iff, decide_eq_true_eq]

theorem sameKey_equiv : EquivOn sameKey fun _ => True where
  refl a _ := (sameKey_iff a a).2 ⟨rfl, rfl⟩
  symm a b _ _ h := by
    rw [sameKey_iff] at h ⊢
    exact ⟨h.1.symm, h.2.symm⟩
  trans a b c _ _ _ hab hbc := by
    rw [sameKey_iff] at hab hbc ⊢
    exact ⟨hab.1.trans hbc.1, hab.2.trans hbc.2⟩

theorem GroupAddr.addrKey_inj {a b : GroupAddr} (h : addrKey (some a.nl) = addrKey (some b.nl)) : a = b := by
  obtain ⟨pa, as, ha⟩ := a
  obtain ⟨pb, bs, hb⟩ := b
  simp only [addrKey, GroupAddr.nl, nlAddrBuild, Option.map_some, Option.some.injEq, Prod.mk.injEq] at h
  obtain ⟨hfam, rfl, -⟩ := h
  have hp : pa = pb := by
    cases pa <;> cases pb <;> first | rfl | exact absurd hfam (by decide)
  subst hp
  rfl

theorem sameKey_group (a b : GroupAddr) (vid vid' : ℕ) :
    sameKey (a.key vid) (b.key vid') = true ↔ a = b ∧ vid = vid' := by
  rw [sameKey_iff]
  constructor
  · intro h
    exact ⟨GroupAddr.addrKey_inj h.1, h.2⟩
  · rintro ⟨rfl, rfl⟩
    exact ⟨rfl, rfl⟩

/-- a search by index, in the words of keyed lists -/
theorem findIdx_look {β : Type} (p : β → Bool) (l : List β) : l[l.findIdx p]? = l.find? p ∧
    l.eraseIdx (l.findIdx p) = l.eraseP p ∧
    ∀ (f : β → β) (x : β), l.find? p = some x →
      l.set (l.findIdx p) (f x) = l.replaceF fun e => if p e then some (f e) else none := by
  induction l with
  | nil => exact ⟨rfl, rfl, fun _ _ _ => rfl⟩
  | cons a l ih =>
    rw [List.findIdx_cons]
    cases h : p a with
    | true => simp [h]
    | false =>
      obtain ⟨h1, h2, h3⟩ := ih
      simp only [cond_false, List.getElem?_cons_succ, List.eraseIdx_cons_succ, List.set_cons_succ, List.find?_cons, h,
        List.eraseP_cons, List.replaceF_cons, Bool.false_eq_true, if_false, h1, h2, true_and]
      intro f x hx
      rw [h3 f x hx]

/-! ## One update -/

/-- a port of a group comes or goes -/
def changePort (new : Bool) (port : ℕ) (g : RtnlMgrp) : RtnlMgrp :=
  if new then if port ∈ g.mgportList then g else rtnlMgrpAddMgport g port
  else if port ∈ g.mgportList then { g with mgportList := g.mgportList.erase port, numMgport := g.numMgport - 1 }
  else g

def withMgrps (m : MdbObj) (gs : List RtnlMgrp) : MdbObj := { m with data := { m.data with mgrpList := gs } }

theorem findIdx_lt_iff_mem (l : List ℕ) (x : ℕ) : (l.findIdx fun y => decide (y = x)) < l.length ↔ x ∈ l := by
  rw [List.findIdx_lt_length]
  simp

theorem eraseIdx_findIdx (l : List ℕ) (x : ℕ) : l.eraseIdx (l.findIdx fun y => decide (y = x)) = l.erase x := by
  rw [(findIdx_look _ l).2.1, List.erase_eq_eraseP]
  congr 1
  funext y
  rw [Bool.eq_iff_iff, decide_eq_true_eq, beq_iff_eq]
  exact eq_comm

theorem mgportUpdate_single (old : RtnlMgrp) {g : RtnlMgrp} {port : ℕ} (hnum : g.numMgport = 1)
    (hports : g.mgportList = [port]) (n : Notif) :
    mgportUpdate old g n.msgtype = (changePort n.new port old, 0) := by
  have hfirst : rtnlMgrpMgportN g 0 = some port := by simp [rtnlMgrpMgportN, hnum, hports]
  unfold mgportUpdate Notif.msgtype changePort
  rw [hfirst]
  simp only [findIdx_lt_iff_mem]
  cases n.new with
  | true =>
    simp only [if_true]
    split_ifs
    · rfl
    · rfl
  | false =>
    have hne : ¬ (RTM_DELMDB = RTM_NEWMDB) := by decide
    simp only [Bool.false_eq_true, if_false, hne, if_true]
    split_ifs
    · rw [rtnlMgrpDelMgport, eraseIdx_findIdx]
    · rfl

/-- the group a new entry makes in an object that is there already: its port is counted twice -/
def addedMgrp (addr : GroupAddr) (vid port : ℕ) : RtnlMgrp := ⟨addr.nl, addr.proto.ethertype, vid, 0, 2, [port]⟩

/-- the object that is made of an entry: one group, with one port -/
theorem obj_entry (br : ℕ) {n : Notif} {addr : GroupAddr} {vid port : ℕ} (hitem : n.item = .entry addr vid port) :
    (n.obj br).ceMask &&& MDB_ATTR_ADDR ≠ 0 ∧ (n.obj br).ceMsgtype = n.msgtype ∧
      rtnlMdbMgrpN (n.obj br) 0 = some ⟨addr.nl, addr.proto.ethertype, vid, n.state, 1, [port]⟩ := by
  have hmask : (n.obj br).ceMask &&& MDB_ATTR_ADDR ≠ 0 := by
    simp only [Notif.obj, hitem]
    decide
  have hpos : 0 < (n.obj br).data.numMgrp := by simp [Notif.obj, hitem]
  refine ⟨hmask, ?_, ?_⟩
  · simp only [Notif.obj, hitem]
  · rw [rtnlMdbMgrpN, if_pos ⟨hmask, hpos⟩]
    simp [Notif.obj, hitem]

/-- **An entry is merged.** -/
theorem update_entry (br : ℕ) (m : MdbObj) {n : Notif} {addr : GroupAddr} {vid port : ℕ}
    (hitem : n.item = .entry addr vid port) : mdbUpdate m (n.obj br) =
      match mgrpOf m.data.mgrpList (addr.key vid) with
      | some g =>
        if n.new = true ∨ 1 < g.numMgport then
          (withMgrps m (amend mgrpKey sameKey m.data.mgrpList (addr.key vid) (changePort n.new port)), 0)
        else
          let m' := { m with
            ceMask := m.ceMask ||| MDB_ATTR_ADDR
            data := { m.data with
              mgrpList := drop mgrpKey sameKey m.data.mgrpList (addr.key vid)
              numMgrp := m.data.numMgrp - 1 } }
          (m', emptied m')
      | none => if n.new then (rtnlMdbAddMgrp m (addedMgrp addr vid port), 0) else (m, emptied m) := by
  obtain ⟨hmask, htype, hfirst⟩ := obj_entry br hitem
  generalize hg : (⟨addr.nl, addr.proto.ethertype, vid, n.state, 1, [port]⟩ : RtnlMgrp) = g at hfirst
  have hclone : mgrpClone g = addedMgrp addr vid port := by
    rw [mgrpClone_eq, ← hg]
    rfl
  have hkey : mgrpKey g = addr.key vid := by
    rw [← hg]
    rfl
  have hpred : sameMgrp g = fun e => sameKey (mgrpKey e) (addr.key vid) := by
    funext e
    rw [sameMgrp_eq, hkey]
  obtain ⟨hget, herase, hset⟩ := findIdx_look (sameMgrp g) m.data.mgrpList
  rw [mdbUpdate, if_pos hmask, htype, mgrpUpdate, hfirst]
  simp only
  rw [hpred] at hget herase hset ⊢
  generalize hk : m.data.mgrpList.findIdx (fun e => sameKey (mgrpKey e) (addr.key vid)) = k at hget herase hset
  change m.data.mgrpList[k]? = mgrpOf m.data.mgrpList (addr.key vid) at hget
  cases hlook : mgrpOf m.data.mgrpList (addr.key vid) with
  | none =>
    rw [hlook] at hget
    have hge : ¬ k < m.data.mgrpList.length := Nat.not_lt.2 (List.getElem?_eq_none_iff.1 hget)
    rw [dif_neg hge]
    unfold Notif.msgtype
    cases n.new with
    | true => simp [hclone]
    | false =>
      have hne : ¬ (RTM_DELMDB = RTM_NEWMDB) := by decide
      simp [hne]
  | some old =>
    rw [hlook] at hget
    obtain ⟨hlt, hold⟩ := List.getElem?_eq_some_iff.1 hget
    have hamend := hset (changePort n.new port) old hlook
    have hport : mgportUpdate old g n.msgtype = (changePort n.new port old, 0) :=
      mgportUpdate_single old (by rw [← hg]) (by rw [← hg]) n
    rw [dif_pos hlt]
    simp only [hold]
    cases hnew : n.new with
    | true =>
      have htypeN : n.msgtype = RTM_NEWMDB := by simp [Notif.msgtype, hnew]
      rw [htypeN] at hport ⊢
      rw [if_pos (Or.inl rfl), hport, setMgrp, hamend, hnew]
      simp [withMgrps, amend]
    | false =>
      have htypeD : n.msgtype = RTM_DELMDB := by simp [Notif.msgtype, hnew]
      have hne : ¬ (RTM_DELMDB = RTM_NEWMDB) := by decide
      rw [htypeD] at hport ⊢
      by_cases hnum : 1 < old.numMgport
      · rw [if_pos (Or.inr ⟨rfl, hnum⟩), hport, setMgrp, hamend, hnew]
        simp [withMgrps, amend, hnum]
      · have hno : ¬ (RTM_DELMDB = RTM_NEWMDB ∨ (RTM_DELMDB = RTM_DELMDB ∧ 1 < old.numMgport)) := by
          intro h
          rcases h with h | h
          · exact hne h
          · exact hnum h.2
        rw [if_neg hno, if_pos rfl, rtnlMdbDelMgrp, herase]
        simp [hnum, drop]

/-- **A router port is merged.** -/
theorem update_router (br : ℕ) (m : MdbObj) {n : Notif} {port : ℕ} (hitem : n.item = .router port)
    (hmask : m.data.mrportList ≠ [] → m.ceMask &&& MDB_ATTR_RPORT ≠ 0) : mdbUpdate m (n.obj br) =
      if n.new then (if port ∈ m.data.mrportList then m else rtnlMdbAddMrport m port, 0)
      else
        let m' := if port ∈ m.data.mrportList then
            { m with
              data := { m.data with
                mrportList := m.data.mrportList.erase port
                numMrport := m.data.numMrport - 1 } }
          else m
        (m', emptied m') := by
  have hno : ¬ ((n.obj br).ceMask &&& MDB_ATTR_ADDR ≠ 0) := by
    simp only [Notif.obj, hitem]
    decide
  have hfirst : rtnlMdbMrportN (n.obj br) 0 = some port := by
    have hm : (n.obj br).ceMask &&& MDB_ATTR_RPORT ≠ 0 := by
      simp only [Notif.obj, hitem]
      decide
    have hpos : 0 < (n.obj br).data.numMrport := by simp [Notif.obj, hitem]
    rw [rtnlMdbMrportN, if_pos ⟨hm, hpos⟩]
    simp [Notif.obj, hitem]
  have htype : (n.obj br).ceMsgtype = n.msgtype := by simp only [Notif.obj, hitem]
  rw [mdbUpdate, if_neg hno, hfirst, htype]
  simp only [findIdx_lt_iff_mem]
  unfold Notif.msgtype
  cases n.new with
  | true =>
    simp only [if_true]
    split_ifs
    · rfl
    · rfl
  | false =>
    have hne : ¬ (RTM_DELMDB = RTM_NEWMDB) := by decide
    simp only [Bool.false_eq_true, if_false, hne, if_true]
    by_cases hin : port ∈ m.data.mrportList
    · have hcar := hmask (List.ne_nil_of_mem hin)
      simp only [if_pos hin, rtnlMdbDelMrport, if_pos hcar, eraseIdx_findIdx]
    · simp only [if_neg hin]

/-! ## What holds in every run -/

structure GroupOk (g : RtnlMgrp) : Prop where
  addr : ∃ a : GroupAddr, g.addr = a.nl
  ports : g.mgportList.Nodup
  /-- the counter may be too high, never too low -/
  num : g.mgportList.length ≤ g.numMgport

structure Base (br : ℕ) (m : MdbObj) : Prop where
  ops : m.ceOps = MDB_OPS
  carries : m.ceMask &&& MDB_ATTR_IFINDEX = MDB_ATTR_IFINDEX
  bridge : m.data.mBrifindex = br
  numMgrp : m.data.numMgrp = m.data.mgrpList.length
  numMrport : m.data.numMrport = m.data.mrportList.length
  rport : m.data.mrportList ≠ [] → m.ceMask &&& MDB_ATTR_RPORT ≠ 0
  distinct : Distinct mgrpKey sameKey m.data.mgrpList
  groups : ∀ g ∈ m.data.mgrpList, GroupOk g
  routers : m.data.mrportList.Nodup

theorem mask_or_ifindex {x : BitVec 64} (h : x &&& MDB_ATTR_IFINDEX = MDB_ATTR_IFINDEX) (y : BitVec 64) :
    (x ||| y) &&& MDB_ATTR_IFINDEX = MDB_ATTR_IFINDEX := by
  refine BitVec.eq_of_getLsbD_eq fun i hi => ?_
  have hx := congrArg (fun b => b.getLsbD i) h
  simp only [BitVec.getLsbD_and, BitVec.getLsbD_or] at hx ⊢
  cases hb : MDB_ATTR_IFINDEX.getLsbD i with
  | true => simp_all
  | false => simp

theorem mask_or_ne_zero {x : BitVec 64} (y a : BitVec 64) (h : x &&& a ≠ 0) : (x ||| y) &&& a ≠ 0 := by
  intro hzero
  refine h (BitVec.eq_of_getLsbD_eq fun i hi => ?_)
  have hi0 := congrArg (fun b => b.getLsbD i) hzero
  simp only [BitVec.getLsbD_and, BitVec.getLsbD_or] at hi0 ⊢
  cases hx : x.getLsbD i with
  | true => simpa [hx] using hi0
  | false => simp

theorem mask_or_self_ne_zero (x a : BitVec 64) (h : a ≠ 0) : (x ||| a) &&& a ≠ 0 := by
  have hself : a &&& a ≠ 0 := by rwa [BitVec.and_self]
  rw [BitVec.or_comm]
  exact mask_or_ne_zero x a hself

theorem mgrpKey_changePort (new : Bool) (port : ℕ) (g : RtnlMgrp) : mgrpKey (changePort new port g) = mgrpKey g := by
  unfold changePort
  split_ifs <;> rfl

theorem changePort_ok (new : Bool) (port : ℕ) {g : RtnlMgrp} (h : GroupOk g) : GroupOk (changePort new port g) := by
  have hnum := h.num
  unfold changePort
  split_ifs with hnew hin hin
  · exact h
  · refine ⟨h.addr, ?_, ?_⟩
    · exact List.nodup_append'.2 ⟨h.ports, List.nodup_singleton port, by simpa using hin⟩
    · simp only [rtnlMgrpAddMgport, List.length_append, List.length_singleton]
      omega
  · refine ⟨h.addr, h.ports.erase port, ?_⟩
    simp only [List.length_erase_of_mem hin]
    omega
  · exact h

theorem obj_base (br : ℕ) (n : Notif) : Base br (n.obj br) := by
  cases hitem : n.item with
  | entry addr vid port =>
    have hobj : n.obj br = ⟨MDB_OPS, n.msgtype, MDB_ATTR_ADDR ||| MDB_ATTR_IFINDEX,
        ⟨n.family, br, 1, [⟨addr.nl, addr.proto.ethertype, vid, n.state, 1, [port]⟩], 0, []⟩⟩ := by
      simp only [Notif.obj, hitem]
    have hmask : (MDB_ATTR_ADDR ||| MDB_ATTR_IFINDEX) &&& MDB_ATTR_IFINDEX = MDB_ATTR_IFINDEX := by decide
    rw [hobj]
    refine ⟨rfl, hmask, rfl, rfl, rfl, fun h => absurd rfl h, List.pairwise_singleton _ _, ?_, List.nodup_nil⟩
    intro g hg
    rw [List.mem_singleton.1 hg]
    exact ⟨⟨addr, rfl⟩, List.nodup_singleton port, le_rfl⟩
  | router port =>
    have hobj : n.obj br = ⟨MDB_OPS, n.msgtype, MDB_ATTR_RPORT ||| MDB_ATTR_IFINDEX, ⟨n.family, br, 0, [], 1, [port]⟩⟩ := by
      simp only [Notif.obj, hitem]
    have hmask : (MDB_ATTR_RPORT ||| MDB_ATTR_IFINDEX) &&& MDB_ATTR_IFINDEX = MDB_ATTR_IFINDEX := by decide
    have hrport : (MDB_ATTR_RPORT ||| MDB_ATTR_IFINDEX) &&& MDB_ATTR_RPORT ≠ 0 := by decide
    rw [hobj]
    exact ⟨rfl, hmask, rfl, rfl, rfl, fun _ => hrport, List.Pairwise.nil, nofun, List.nodup_singleton port⟩

section

variable {br : ℕ} {m : MdbObj}

theorem Base.amended (h : Base br m) (k : NlAddr × ℕ) (new : Bool) (port : ℕ) :
    Base br (withMgrps m (amend mgrpKey sameKey m.data.mgrpList k (changePort new port))) where
  ops := h.ops
  carries := h.carries
  bridge := h.bridge
  numMgrp := by simp [withMgrps, amend, h.numMgrp]
  numMrport := h.numMrport
  rport := h.rport
  distinct := h.distinct.amend sameKey_equiv (fun _ _ => trivial) fun g _ _ => ⟨trivial, fun x _ => by
    rw [mgrpKey_changePort]⟩
  groups g hg := by
    rcases mem_amend hg with hg | ⟨e, he, -, rfl⟩
    · exact h.groups g hg
    · exact changePort_ok new port (h.groups e he)
  routers := h.routers

theorem Base.dropped (h : Base br m) {k : NlAddr × ℕ} {g : RtnlMgrp} (hg : mgrpOf m.data.mgrpList k = some g) :
    Base br { m with
      ceMask := m.ceMask ||| MDB_ATTR_ADDR
      data := { m.data with
        mgrpList := drop mgrpKey sameKey m.data.mgrpList k
        numMgrp := m.data.numMgrp - 1 } } where
  ops := h.ops
  carries := mask_or_ifindex h.carries _
  bridge := h.bridge
  numMgrp := by
    obtain ⟨hmem, hsame⟩ := look_some hg
    have hlen := List.length_eraseP_of_mem (p := fun e => sameKey (mgrpKey e) k) hmem hsame
    simp only [drop, hlen, h.numMgrp]
  numMrport := h.numMrport
  rport hne := mask_or_ne_zero _ _ (h.rport hne)
  distinct := h.distinct.drop k
  groups x hx := h.groups x (mem_of_mem_drop hx)
  routers := h.routers

theorem Base.pushedMgrp (h : Base br m) {addr : GroupAddr} {vid : ℕ} (port : ℕ)
    (hnone : mgrpOf m.data.mgrpList (addr.key vid) = none) : Base br (rtnlMdbAddMgrp m (addedMgrp addr vid port)) where
  ops := h.ops
  carries := mask_or_ifindex h.carries _
  bridge := h.bridge
  numMgrp := by simp [rtnlMdbAddMgrp, h.numMgrp]
  numMrport := h.numMrport
  rport hne := mask_or_ne_zero _ _ (h.rport hne)
  distinct := by
    refine List.pairwise_append.2 ⟨h.distinct, List.pairwise_singleton _ _, ?_⟩
    intro x hx y hy
    rw [List.mem_singleton.1 hy]
    exact look_none.1 hnone x hx
  groups x hx := by
    rcases List.mem_append.1 hx with hx | hx
    · exact h.groups x hx
    · rw [List.mem_singleton.1 hx]
      exact ⟨⟨addr, rfl⟩, List.nodup_singleton port, show 1 ≤ 2 by decide⟩
  routers := h.routers

theorem Base.pushedMrport (h : Base br m) {port : ℕ} (hnew : port ∉ m.data.mrportList) :
    Base br (rtnlMdbAddMrport m port) where
  ops := h.ops
  carries := mask_or_ifindex h.carries _
  bridge := h.bridge
  numMgrp := h.numMgrp
  numMrport := by simp [rtnlMdbAddMrport, h.numMrport]
  rport _ := mask_or_self_ne_zero _ _ (by decide)
  distinct := h.distinct
  groups := h.groups
  routers := List.nodup_append'.2 ⟨h.routers, List.nodup_singleton port, by simpa using hnew⟩

theorem Base.erasedMrport (h : Base br m) {port : ℕ} (hin : port ∈ m.data.mrportList) :
    Base br { m with
      data := { m.data with
        mrportList := m.data.mrportList.erase port
        numMrport := m.data.numMrport - 1 } } where
  ops := h.ops
  carries := h.carries
  bridge := h.bridge
  numMgrp := h.numMgrp
  numMrport := by simp only [List.length_erase_of_mem hin, h.numMrport]
  rport _ := h.rport (List.ne_nil_of_mem hin)
  distinct := h.distinct
  groups := h.groups
  routers := h.routers.erase port

/-- **`Base` is kept**, and an update fails only when it was a deletion that left nothing. -/
theorem Base.updated (h : Base br m) (n : Notif) : Base br (mdbUpdate m (n.obj br)).1 ∧
    ((mdbUpdate m (n.obj br)).2 = 0 ∨
      (n.new = false ∧ (mdbUpdate m (n.obj br)).2 = emptied (mdbUpdate m (n.obj br)).1)) := by
  cases hitem : n.item with
  | entry addr vid port =>
    rw [update_entry br m hitem]
    cases hlook : mgrpOf m.data.mgrpList (addr.key vid) with
    | some g =>
      simp only
      by_cases hkeep : n.new = true ∨ 1 < g.numMgport
      · rw [if_pos hkeep]
        exact ⟨h.amended _ _ _, Or.inl rfl⟩
      · rw [if_neg hkeep]
        exact ⟨h.dropped hlook, Or.inr ⟨by simpa using fun hn => hkeep (Or.inl hn), rfl⟩⟩
    | none =>
      cases hnew : n.new with
      | true => exact ⟨h.pushedMgrp port hlook, Or.inl rfl⟩
      | false => exact ⟨h, Or.inr ⟨rfl, rfl⟩⟩
  | router port =>
    rw [update_router br m hitem h.rport]
    cases hnew : n.new with
    | true =>
      refine ⟨?_, Or.inl rfl⟩
      by_cases hin : port ∈ m.data.mrportList
      · simp only [if_true, if_pos hin]
        exact h
      · simp only [if_true, if_neg hin]
        exact h.pushedMrport hin
    | false =>
      refine ⟨?_, Or.inr ⟨rfl, rfl⟩⟩
      by_cases hin : port ∈ m.data.mrportList
      · simp only [Bool.false_eq_true, if_false, if_pos hin]
        exact h.erasedMrport hin
      · simp only [Bool.false_eq_true, if_false, if_neg hin]
        exact h

end

/-! ## Tracking -/

/-- the entries of an object -/
def entriesOf (m : MdbObj) : List (NlAddr × ℕ × ℕ) :=
  m.data.mgrpList.flatMap fun g => g.mgportList.map fun p => (g.addr, g.vid, p)

/-- the cached object, if there is one, holds what is live and nothing else, and nothing twice -/
structure Tracks (ns : List Notif) (o : Option MdbObj) : Prop where
  entries : ∀ e, e ∈ o.elim [] entriesOf ↔ ∃ addr vid port, e = (GroupAddr.nl addr, vid, port) ∧
    Live ns (.entry addr vid port)
  routers : ∀ p, p ∈ o.elim [] (fun m => m.data.mrportList) ↔ Live ns (.router p)
  once : (o.elim [] entriesOf).Nodup ∧ (o.elim [] fun m => m.data.mrportList).Nodup
  gone : ∀ m, o = some m → ∀ g ∈ m.data.mgrpList, g.mgportList ≠ []

/-- the object holds an entry or a router port -/
def Holds (m : MdbObj) : Item → Prop
  | .entry addr vid port => ∃ g, mgrpOf m.data.mgrpList (addr.key vid) = some g ∧ port ∈ g.mgportList
  | .router port => port ∈ m.data.mrportList

section

variable {br : ℕ} {m : MdbObj}

theorem Base.mem_entries (h : Base br m) (e : NlAddr × ℕ × ℕ) :
    e ∈ entriesOf m ↔ ∃ addr vid port, e = (GroupAddr.nl addr, vid, port) ∧ Holds m (.entry addr vid port) := by
  unfold entriesOf Holds
  simp only [List.mem_flatMap, List.mem_map]
  constructor
  · rintro ⟨g, hg, p, hp, rfl⟩
    obtain ⟨addr, haddr⟩ := (h.groups g hg).addr
    have hkey : mgrpKey g = addr.key g.vid := by rw [mgrpKey, haddr, GroupAddr.key]
    have hlook := h.distinct.look_eq sameKey_equiv (fun _ _ => trivial) (k := addr.key g.vid) trivial hg
      (by rw [hkey]; exact sameKey_equiv.refl _ trivial)
    exact ⟨addr, g.vid, p, by rw [haddr], g, hlook, hp⟩
  · rintro ⟨addr, vid, port, rfl, g, hg, hp⟩
    obtain ⟨hmem, hsame⟩ := look_some hg
    obtain ⟨addr', haddr⟩ := (h.groups g hmem).addr
    have hkey : mgrpKey g = addr'.key g.vid := by rw [mgrpKey, haddr, GroupAddr.key]
    rw [hkey, sameKey_group] at hsame
    obtain ⟨rfl, rfl⟩ := hsame
    exact ⟨g, hmem, port, hp, by rw [haddr]⟩

theorem Base.entries_nodup (h : Base br m) : (entriesOf m).Nodup := by
  refine List.nodup_flatMap.2 ⟨?_, ?_⟩
  · intro g hg
    refine (h.groups g hg).ports.map ?_
    intro p q hpq
    simpa using hpq
  · refine List.Pairwise.imp ?_ h.distinct
    intro g g' hne x hx hx'
    obtain ⟨p, -, rfl⟩ := List.mem_map.1 hx
    obtain ⟨p', -, heq⟩ := List.mem_map.1 hx'
    simp only [Prod.mk.injEq] at heq
    have hsame : mgrpKey g = mgrpKey g' := by rw [mgrpKey, mgrpKey, heq.1, heq.2.1]
    rw [hsame, sameKey_equiv.refl _ trivial] at hne
    cases hne

theorem GroupAddr.nl_inj {a b : GroupAddr} (h : a.nl = b.nl) : a = b := GroupAddr.addrKey_inj (by rw [h])

/-- tracking, item by item -/
theorem Base.tracks_iff (h : Base br m) (ns : List Notif) : Tracks ns (some m) ↔
    (∀ x, Holds m x ↔ Live ns x) ∧ ∀ g ∈ m.data.mgrpList, g.mgportList ≠ [] := by
  constructor
  · intro ht
    refine ⟨?_, ht.gone m rfl⟩
    intro x
    cases x with
    | router p => exact ht.routers p
    | entry addr vid port =>
      have hmem := (h.mem_entries (addr.nl, vid, port)).symm.trans (ht.entries (addr.nl, vid, port))
      constructor
      · intro hh
        obtain ⟨a, v, p, heq, hlive⟩ := hmem.1 ⟨addr, vid, port, rfl, hh⟩
        simp only [Prod.mk.injEq] at heq
        obtain ⟨ha, rfl, rfl⟩ := heq
        rw [GroupAddr.nl_inj ha]
        exact hlive
      · intro hlive
        obtain ⟨a, v, p, heq, hh⟩ := hmem.2 ⟨addr, vid, port, rfl, hlive⟩
        simp only [Prod.mk.injEq] at heq
        obtain ⟨ha, rfl, rfl⟩ := heq
        rw [GroupAddr.nl_inj ha]
        exact hh
  · rintro ⟨hall, hne⟩
    refine ⟨?_, fun p => hall (.router p), ⟨h.entries_nodup, h.routers⟩, ?_⟩
    · intro e
      refine (h.mem_entries e).trans ?_
      simp only [hall]
    · rintro m' hm'
      cases hm'
      exact hne

theorem tracks_none_iff (ns : List Notif) : Tracks ns none ↔ ∀ x, ¬ Live ns x := by
  constructor
  · intro ht x hlive
    cases x with
    | router p => exact absurd ((ht.routers p).2 hlive) List.not_mem_nil
    | entry addr vid port =>
      exact absurd ((ht.entries (addr.nl, vid, port)).2 ⟨addr, vid, port, rfl, hlive⟩) List.not_mem_nil
  · intro hall
    refine ⟨?_, ?_, ⟨List.nodup_nil, List.nodup_nil⟩, nofun⟩
    · intro e
      constructor
      · intro he
        cases he
      · rintro ⟨addr, vid, port, -, hlive⟩
        exact absurd hlive (hall _)
    · intro p
      exact ⟨nofun, fun hlive => absurd hlive (hall _)⟩

/-- an object with nothing in it is as good as none -/
theorem Base.tracks_emptied (h : Base br m) (hempty : emptied m ≠ 0) (ns : List Notif) :
    Tracks ns none ↔ Tracks ns (some m) := by
  have hnil : m.data.mgrpList = [] ∧ m.data.mrportList = [] := by
    have hboth : m.data.numMgrp = 0 ∧ m.data.numMrport = 0 := by
      by_contra hno
      exact hempty (if_neg hno)
    rw [h.numMgrp, h.numMrport] at hboth
    exact ⟨List.length_eq_zero_iff.1 hboth.1, List.length_eq_zero_iff.1 hboth.2⟩
  have hholds : ∀ x, ¬ Holds m x := by
    intro x
    cases x with
    | router p =>
      unfold Holds
      rw [hnil.2]
      exact List.not_mem_nil
    | entry addr vid port =>
      unfold Holds
      rw [hnil.1]
      rintro ⟨g, hg, -⟩
      cases hg
  rw [tracks_none_iff, h.tracks_iff]
  constructor
  · intro hall
    refine ⟨fun x => iff_of_false (hholds x) (hall x), ?_⟩
    rw [hnil.1]
    exact nofun
  · rintro ⟨hall, -⟩ x hlive
    exact hholds x ((hall x).2 hlive)

end

/-! ## One notification -/

/-- what `cache_include` makes of the cached object of the bridge -/
def follow (br : ℕ) (o : Option MdbObj) (n : Notif) : Option MdbObj :=
  match o with
  | none => if n.new then some (n.obj br) else none
  | some m =>
    if (mdbUpdate m (n.obj br)).2 = 0 then some (mdbUpdate m (n.obj br)).1
    else if n.new then some (n.obj br) else none

/-- a deletion meets a group that counts one port and has that port, or one that counts more and has another port -/
def Sane (o : Option MdbObj) (n : Notif) : Prop :=
  match n.item with
  | .entry addr vid port => n.new = false → ∀ m g, o = some m → mgrpOf m.data.mgrpList (addr.key vid) = some g →
      (g.numMgport ≤ 1 ↔ g.mgportList = [port])
  | .router _ => True

theorem mem_changePort {port p : ℕ} {g : RtnlMgrp} (hnd : g.mgportList.Nodup) (new : Bool) :
    p ∈ (changePort new port g).mgportList ↔ if p = port then new = true else p ∈ g.mgportList := by
  unfold changePort
  cases new with
  | true =>
    by_cases hin : port ∈ g.mgportList
    · simp only [if_true, if_pos hin]
      by_cases hp : p = port
      · simp [hp, hin]
      · simp [hp]
    · simp only [if_true, if_neg hin, rtnlMgrpAddMgport, List.mem_append, List.mem_singleton]
      by_cases hp : p = port
      · simp [hp]
      · simp [hp]
  | false =>
    by_cases hin : port ∈ g.mgportList
    · simp only [Bool.false_eq_true, if_false, if_pos hin, hnd.mem_erase_iff]
      by_cases hp : p = port
      · simp [hp]
      · simp [hp]
    · simp only [Bool.false_eq_true, if_false, if_neg hin]
      by_cases hp : p = port
      · simp [hp, hin]
      · simp [hp]

section

variable {br : ℕ} {m : MdbObj} {n : Notif}

theorem Base.mgrpOf_ok (h : Base br m) {k : NlAddr × ℕ} {g : RtnlMgrp} (hg : mgrpOf m.data.mgrpList k = some g) :
    GroupOk g := h.groups g (look_some hg).1

theorem mgrpOf_amend (gs : List RtnlMgrp) (k k' : NlAddr × ℕ) (new : Bool) (port : ℕ) :
    mgrpOf (amend mgrpKey sameKey gs k (changePort new port)) k' =
      if sameKey k k' then (mgrpOf gs k').map (changePort new port) else mgrpOf gs k' :=
  look_amend sameKey_equiv (fun _ _ => trivial) trivial trivial fun e _ _ x _ => by rw [mgrpKey_changePort]

/-- the port comes to or goes from the group, which stays -/
theorem Base.holds_amended (h : Base br m) {addr : GroupAddr} {vid : ℕ} {g : RtnlMgrp}
    (hg : mgrpOf m.data.mgrpList (addr.key vid) = some g) (new : Bool) (port : ℕ) (x : Item) :
    Holds (withMgrps m (amend mgrpKey sameKey m.data.mgrpList (addr.key vid) (changePort new port))) x ↔
      if .entry addr vid port = x then new = true else Holds m x := by
  cases x with
  | router p => exact (iff_of_eq (if_neg nofun)).symm
  | entry a v p =>
    unfold Holds withMgrps
    simp only [mgrpOf_amend]
    by_cases hkey : sameKey (addr.key vid) (a.key v) = true
    · obtain ⟨rfl, rfl⟩ := (sameKey_group _ _ _ _).1 hkey
      rw [if_pos hkey, hg]
      simp only [Option.map_some, Option.some.injEq, exists_eq_left', mem_changePort (h.mgrpOf_ok hg).ports,
        Item.entry.injEq, true_and]
      by_cases hp : p = port
      · rw [if_pos hp, if_pos hp.symm]
      · rw [if_neg hp, if_neg (Ne.symm hp)]
    · rw [if_neg hkey, if_neg]
      intro heq
      simp only [Item.entry.injEq] at heq
      exact hkey ((sameKey_group _ _ _ _).2 ⟨heq.1, heq.2.1⟩)

theorem holds_added {addr : GroupAddr} {vid : ℕ}
    (hnone : mgrpOf m.data.mgrpList (addr.key vid) = none) (port : ℕ) (x : Item) :
    Holds (rtnlMdbAddMgrp m (addedMgrp addr vid port)) x ↔ if .entry addr vid port = x then true = true else Holds m x := by
  cases x with
  | router p => exact (iff_of_eq (if_neg nofun)).symm
  | entry a v p =>
    unfold Holds rtnlMdbAddMgrp
    simp only [mgrpOf, look_append]
    have hkeyOf : mgrpKey (addedMgrp addr vid port) = addr.key vid := rfl
    by_cases hkey : sameKey (addr.key vid) (a.key v) = true
    · obtain ⟨rfl, rfl⟩ := (sameKey_group _ _ _ _).1 hkey
      rw [look_cons, hkeyOf, if_pos hkey]
      simp only [mgrpOf] at hnone
      simp only [hnone, Option.none_or, Option.some.injEq, exists_eq_left', addedMgrp, List.mem_singleton,
        Item.entry.injEq, true_and]
      by_cases hp : p = port
      · simp [hp]
      · simp [hp, Ne.symm hp]
    · have hne : ¬ Item.entry addr vid port = .entry a v p := by
        intro heq
        simp only [Item.entry.injEq] at heq
        exact hkey ((sameKey_group _ _ _ _).2 ⟨heq.1, heq.2.1⟩)
      have hlast : look mgrpKey sameKey [addedMgrp addr vid port] (a.key v) = none := by
        rw [look_cons, hkeyOf, if_neg hkey]
        rfl
      rw [hlast, if_neg hne, Option.or_none]

/-- the group goes, with all its ports -/
theorem Base.holds_dropped (h : Base br m) (addr : GroupAddr) (vid : ℕ) (num : ℕ) (mask : BitVec 64) (x : Item) :
    Holds { m with
        ceMask := mask
        data := { m.data with
          mgrpList := drop mgrpKey sameKey m.data.mgrpList (addr.key vid)
          numMgrp := num } } x ↔ (∀ p, .entry addr vid p ≠ x) ∧ Holds m x := by
  cases x with
  | router p => exact ⟨fun hh => ⟨nofun, hh⟩, fun hh => hh.2⟩
  | entry a v p =>
    unfold Holds
    simp only [mgrpOf]
    rw [look_drop sameKey_equiv (fun _ _ => trivial) h.distinct trivial trivial]
    by_cases hkey : sameKey (addr.key vid) (a.key v) = true
    · obtain ⟨rfl, rfl⟩ := (sameKey_group _ _ _ _).1 hkey
      rw [if_pos hkey]
      exact iff_of_false (fun ⟨_, hh, _⟩ => nomatch hh) fun hh => hh.1 p rfl
    · rw [if_neg hkey]
      refine (and_iff_right ?_).symm
      intro q heq
      simp only [Item.entry.injEq] at heq
      exact hkey ((sameKey_group _ _ _ _).2 ⟨heq.1, heq.2.1⟩)

/-- a router port comes or goes; the groups stay as they are -/
theorem Base.holds_router (h : Base br m) {port : ℕ} (hitem : n.item = .router port) :
    (mdbUpdate m (n.obj br)).1.data.mgrpList = m.data.mgrpList ∧
    ∀ x, Holds (mdbUpdate m (n.obj br)).1 x ↔ if n.item = x then n.new = true else Holds m x := by
  have hgroups : (mdbUpdate m (n.obj br)).1.data.mgrpList = m.data.mgrpList := by
    rw [update_router br m hitem h.rport]
    split_ifs <;> rfl
  refine ⟨hgroups, ?_⟩
  intro x
  cases x with
  | entry a v p =>
    rw [if_neg (by simp [hitem]), Holds, hgroups, Holds]
  | router p =>
    rw [hitem, update_router br m hitem h.rport]
    simp only [Item.router.injEq, Holds]
    cases n.new with
    | true =>
      by_cases hin : port ∈ m.data.mrportList
      · by_cases hp : port = p
        · simp [← hp, hin]
        · simp [hin, hp]
      · by_cases hp : port = p
        · simp [← hp, hin, rtnlMdbAddMrport]
        · simp [hin, rtnlMdbAddMrport, hp, Ne.symm hp]
    | false =>
      by_cases hin : port ∈ m.data.mrportList
      · by_cases hp : port = p
        · simp [← hp, hin, h.routers.mem_erase_iff]
        · simp [hin, hp, h.routers.mem_erase_iff, Ne.symm hp]
      · by_cases hp : port = p
        · simp [← hp, hin]
        · simp [hin, hp]

/-- a group loses its last port only by the deletion of that port -/
theorem changePort_eq_nil_iff {g : RtnlMgrp} (hne : g.mgportList ≠ []) (new : Bool) (port : ℕ) :
    (changePort new port g).mgportList = [] ↔ new = false ∧ g.mgportList = [port] := by
  unfold changePort
  cases new with
  | true =>
    by_cases hin : port ∈ g.mgportList
    · simp [hin, hne]
    · simp [hin, rtnlMgrpAddMgport]
  | false =>
    by_cases hin : port ∈ g.mgportList
    · simp only [Bool.false_eq_true, if_false, if_pos hin, true_and, List.erase_eq_nil_iff, hne, false_or]
    · simp only [Bool.false_eq_true, if_false, if_neg hin, true_and]
      refine iff_of_false hne ?_
      intro hone
      rw [hone] at hin
      exact hin List.mem_cons_self

section

variable (h : Base br m) {ns : List Notif} (ht : Tracks ns (some m)) {addr : GroupAddr} {vid port : ℕ}
  (hitem : n.item = .entry addr vid port)

include h ht

/-- an object in which what the notification says came true, and no group is empty -/
theorem Base.tracks_changed {m' : MdbObj} (h' : Base br m')
    (hholds : ∀ x, Holds m' x ↔ if n.item = x then n.new = true else Holds m x)
    (hne : ∀ g ∈ m'.data.mgrpList, g.mgportList ≠ []) : Tracks (ns ++ [n]) (some m') := by
  obtain ⟨hold, -⟩ := (h.tracks_iff ns).1 ht
  refine (h'.tracks_iff _).2 ⟨?_, hne⟩
  intro x
  rw [hholds, live_snoc, hold]

include hitem

/-- the group is not there -/
theorem Base.tracks_absent (hnone : mgrpOf m.data.mgrpList (addr.key vid) = none) :
    Tracks (ns ++ [n]) (some (mdbUpdate m (n.obj br)).1) := by
  obtain ⟨-, hne⟩ := (h.tracks_iff ns).1 ht
  refine h.tracks_changed ht (h.updated n).1 ?_ ?_
  · intro x
    rw [update_entry br m hitem, hnone, hitem]
    cases n.new with
    | true => exact holds_added hnone port x
    | false =>
      by_cases hx : .entry addr vid port = x
      · rw [if_pos hx, ← hx]
        refine iff_of_false ?_ Bool.false_ne_true
        rintro ⟨g, hg, -⟩
        change mgrpOf m.data.mgrpList (addr.key vid) = some g at hg
        rw [hnone] at hg
        cases hg
      · rw [if_neg hx]
        rfl
  · rw [update_entry br m hitem, hnone]
    cases n.new with
    | true =>
      intro g hg
      rcases List.mem_append.1 hg with hg | hg
      · exact hne g hg
      · rw [List.mem_singleton.1 hg]
        exact List.cons_ne_nil _ _
    | false => exact hne

variable {g : RtnlMgrp} (hg : mgrpOf m.data.mgrpList (addr.key vid) = some g)

include hg

/-- the group is there and stays: it must not have become empty -/
theorem Base.tracks_stays (hkeep : n.new = true ∨ 1 < g.numMgport) :
    Tracks (ns ++ [n]) (some (mdbUpdate m (n.obj br)).1) ↔ ¬ (n.new = false ∧ g.mgportList = [port]) := by
  obtain ⟨-, hne⟩ := (h.tracks_iff ns).1 ht
  have hgne : g.mgportList ≠ [] := hne g (look_some hg).1
  have hbase := h.amended (addr.key vid) n.new port
  have hupd : (mdbUpdate m (n.obj br)).1 =
      withMgrps m (amend mgrpKey sameKey m.data.mgrpList (addr.key vid) (changePort n.new port)) := by
    rw [update_entry br m hitem, hg]
    simp only [if_pos hkeep]
  rw [hupd, ← changePort_eq_nil_iff hgne]
  constructor
  · intro htr
    have hleft : mgrpOf (amend mgrpKey sameKey m.data.mgrpList (addr.key vid) (changePort n.new port)) (addr.key vid) =
        some (changePort n.new port g) := by
      rw [mgrpOf_amend, if_pos (sameKey_equiv.refl _ trivial), hg]
      rfl
    exact htr.gone _ rfl _ (look_some hleft).1
  · intro hleft
    refine h.tracks_changed ht hbase ?_ ?_
    · intro x
      rw [h.holds_amended hg, hitem]
    · intro x hx
      rcases mem_amend hx with hx | ⟨e, he, hek, rfl⟩
      · exact hne x hx
      · have hsame : mgrpOf m.data.mgrpList (addr.key vid) = some e :=
          h.distinct.look_eq sameKey_equiv (fun _ _ => trivial) trivial he hek
        rw [hg] at hsame
        cases hsame
        exact hleft

/-- the group is there and goes: it must have had no other port -/
theorem Base.tracks_goes (hnew : n.new = false) (hnum : g.numMgport ≤ 1) :
    Tracks (ns ++ [n]) (some (mdbUpdate m (n.obj br)).1) ↔ g.mgportList = [port] := by
  obtain ⟨hold, hne⟩ := (h.tracks_iff ns).1 ht
  have hgne : g.mgportList ≠ [] := hne g (look_some hg).1
  have hkeep : ¬ (n.new = true ∨ 1 < g.numMgport) := by
    intro hk
    rcases hk with hk | hk
    · rw [hnew] at hk
      cases hk
    · exact absurd hk (Nat.not_lt.2 hnum)
  have hbase := (h.updated n).1
  have hholds : ∀ x, Holds (mdbUpdate m (n.obj br)).1 x ↔ (∀ p, .entry addr vid p ≠ x) ∧ Holds m x := by
    intro x
    rw [update_entry br m hitem, hg]
    simp only [if_neg hkeep]
    exact h.holds_dropped addr vid _ _ x
  constructor
  · intro htr
    obtain ⟨hnow, -⟩ := (hbase.tracks_iff _).1 htr
    -- a port that was there and is not the one deleted is still live, but its group is gone
    have hall : ∀ p ∈ g.mgportList, p = port := by
      intro p hp
      by_contra hne'
      have hheld : Holds m (.entry addr vid p) := ⟨g, hg, hp⟩
      have hlive : Live (ns ++ [n]) (.entry addr vid p) := by
        rw [live_snoc, hitem, if_neg (by simpa using fun heq => hne' heq.symm), ← hold]
        exact hheld
      exact ((hholds _).1 ((hnow _).2 hlive)).1 p rfl
    have hlen : g.mgportList.length = 1 := by
      have hle := (h.mgrpOf_ok hg).num
      have hpos := List.length_pos_iff.2 hgne
      omega
    obtain ⟨p, hp⟩ := List.length_eq_one_iff.1 hlen
    rw [hp, hall p (by rw [hp]; exact List.mem_cons_self)]
  · intro hone
    refine h.tracks_changed ht hbase ?_ ?_
    · intro x
      rw [hholds, hitem, hnew]
      by_cases hx : .entry addr vid port = x
      · rw [if_pos hx]
        exact iff_of_false (fun hh => hh.1 port hx) Bool.false_ne_true
      · rw [if_neg hx]
        refine and_iff_right_of_imp ?_
        rintro hheld p rfl
        obtain ⟨g', hg', hp⟩ := hheld
        rw [hg] at hg'
        cases hg'
        rw [hone] at hp
        exact hx (by rw [List.mem_singleton.1 hp])
    · intro x hx
      rw [update_entry br m hitem, hg] at hx
      simp only [if_neg hkeep] at hx
      exact hne x (mem_of_mem_drop hx)

end

/-- **Tracking, one notification on.** -/
theorem Base.tracks_step (h : Base br m) {ns : List Notif} (ht : Tracks ns (some m)) (n : Notif) :
    Tracks (ns ++ [n]) (some (mdbUpdate m (n.obj br)).1) ↔ Sane (some m) n := by
  obtain ⟨-, hne⟩ := (h.tracks_iff ns).1 ht
  unfold Sane
  cases hitem : n.item with
  | router port =>
    obtain ⟨hsame, hholds⟩ := h.holds_router hitem
    exact iff_of_true (h.tracks_changed ht (h.updated n).1 hholds (by rwa [hsame])) trivial
  | entry addr vid port =>
    cases hlook : mgrpOf m.data.mgrpList (addr.key vid) with
    | none =>
      refine iff_of_true (h.tracks_absent ht hitem hlook) ?_
      intro _ m' g hm' hg
      cases hm'
      rw [hlook] at hg
      cases hg
    | some g =>
      have hsane : (n.new = false → ∀ m' g', some m = some m' → mgrpOf m'.data.mgrpList (addr.key vid) = some g' →
          (g'.numMgport ≤ 1 ↔ g'.mgportList = [port])) ↔
          (n.new = false → (g.numMgport ≤ 1 ↔ g.mgportList = [port])) := by
        constructor
        · exact fun hs hn => hs hn m g rfl hlook
        · intro hs hn m' g' hm' hg'
          cases hm'
          rw [hlook] at hg'
          cases hg'
          exact hs hn
      refine Iff.trans ?_ hsane.symm
      cases hnew : n.new with
      | true => simp [h.tracks_stays ht hitem hlook (Or.inl hnew), hnew]
      | false =>
        by_cases hnum : g.numMgport ≤ 1
        · rw [h.tracks_goes ht hitem hlook hnew hnum]
          simp [hnum]
        · rw [h.tracks_stays ht hitem hlook (Or.inr (Nat.not_le.1 hnum)), hnew]
          simp [hnum]

end

/-! ## Runs -/

section

variable {br : ℕ}

theorem obj_holds (br : ℕ) (n : Notif) (x : Item) : Holds (n.obj br) x ↔ n.item = x := by
  cases hitem : n.item with
  | router port =>
    cases x with
    | router p => simp [Holds, Notif.obj, hitem, eq_comm]
    | entry a v p => simp [Holds, Notif.obj, hitem, look]
  | entry addr vid port =>
    cases x with
    | router p => simp [Holds, Notif.obj, hitem]
    | entry a v p =>
      have hlook : mgrpOf (n.obj br).data.mgrpList (a.key v) = if sameKey (addr.key vid) (a.key v) then
          some ⟨addr.nl, addr.proto.ethertype, vid, n.state, 1, [port]⟩ else none := by
        simp only [Notif.obj, hitem]
        exact look_cons _ _ _
      simp only [Holds]
      rw [hlook]
      by_cases hkey : sameKey (addr.key vid) (a.key v) = true
      · obtain ⟨rfl, rfl⟩ := (sameKey_group _ _ _ _).1 hkey
        rw [if_pos hkey]
        simp [eq_comm]
      · rw [if_neg hkey]
        refine iff_of_false ?_ ?_
        · rintro ⟨_, hnone, _⟩
          cases hnone
        · intro heq
          simp only [Item.entry.injEq] at heq
          exact hkey ((sameKey_group _ _ _ _).2 ⟨heq.1, heq.2.1⟩)

theorem obj_groups (br : ℕ) (n : Notif) : ∀ g ∈ (n.obj br).data.mgrpList, g.mgportList ≠ [] := by
  intro g hg
  cases hitem : n.item with
  | router port => simp [Notif.obj, hitem] at hg
  | entry addr vid port =>
    simp only [Notif.obj, hitem, List.mem_singleton] at hg
    rw [hg]
    exact List.cons_ne_nil _ _

/-- **One notification**, whether the object is there or not. -/
theorem tracks_follow_iff {o : Option MdbObj} (hbase : ∀ m, o = some m → Base br m) {ns : List Notif} (ht : Tracks ns o)
    (n : Notif) : Tracks (ns ++ [n]) (follow br o n) ↔ Sane o n := by
  cases o with
  | none =>
    have hnone := (tracks_none_iff ns).1 ht
    have hsane : Sane none n := by
      unfold Sane
      cases n.item with
      | router port => exact trivial
      | entry addr vid port => exact fun _ m g hm => nomatch hm
    refine iff_of_true ?_ hsane
    unfold follow
    cases hnew : n.new with
    | true =>
      refine ((obj_base br n).tracks_iff _).2 ⟨?_, obj_groups br n⟩
      intro x
      rw [obj_holds, live_snoc, hnew]
      by_cases hx : n.item = x
      · simp [hx]
      · simp [hx, hnone x]
    | false =>
      refine (tracks_none_iff _).2 ?_
      intro x
      rw [live_snoc, hnew]
      by_cases hx : n.item = x
      · simp [hx]
      · simp [hx, hnone x]
  | some m =>
    have hm := hbase m rfl
    obtain ⟨hm', hcode⟩ := hm.updated n
    rw [← hm.tracks_step ht n]
    unfold follow
    by_cases hzero : (mdbUpdate m (n.obj br)).2 = 0
    · simp only [if_pos hzero]
    · rcases hcode with hcode | ⟨hnew, hcode⟩
      · exact absurd hcode hzero
      · simp only [if_neg hzero, hnew, Bool.false_eq_true, if_false]
        rw [hcode] at hzero
        exact hm'.tracks_emptied hzero _

theorem base_follow {o : Option MdbObj} (hbase : ∀ m, o = some m → Base br m) (n : Notif) :
    ∀ m, follow br o n = some m → Base br m := by
  intro m hm
  unfold follow at hm
  cases o with
  | none =>
    simp only at hm
    split_ifs at hm
    cases hm
    exact obj_base br n
  | some old =>
    simp only at hm
    split_ifs at hm
    · cases hm
      exact ((hbase old rfl).updated n).1
    · cases hm
      exact obj_base br n

/-- the cached object of the bridge after the notifications -/
def followAll (br : ℕ) (ns : List Notif) : Option MdbObj := ns.foldl (follow br) none

theorem followAll_snoc (br : ℕ) (ns : List Notif) (n : Notif) :
    followAll br (ns ++ [n]) = follow br (followAll br ns) n := List.foldl_concat ..

theorem base_followAll (ns : List Notif) : ∀ m, followAll br ns = some m → Base br m := by
  induction ns using List.reverseRecOn with
  | nil => exact nofun
  | append_singleton ns n ih =>
    rw [followAll_snoc]
    exact base_follow ih n

end

/-! ## The cache -/

/-- the operations of every type there is -/
def mdbOps (_ : ℕ) : ObjectOps RtnlMdb := mdbObjOps

/-- `rtnl_mdb_ops` -/
def rtnlMdbOps : CacheOps := ⟨MDB_OPS, [⟨RTM_NEWMDB, .new⟩, ⟨RTM_DELMDB, .del⟩, ⟨RTM_GETMDB, .get⟩]⟩

/-- an empty cache; the type has no key generator, so there is no hash table -/
def mdbStore : Store RtnlMdb where
  heap _ := ⟨0, none, false, false, rtnlMdbAlloc⟩
  caches _ := ⟨[], 0, none, rtnlMdbOps⟩
  next := 0
  log := []
  bug := false

/-- the notifications are parsed and included, one after the other -/
def notified (br : ℕ) (cb : ChangeCb) (ns : List Notif) : Store RtnlMdb :=
  notifyAll mdbOps mdbStore 0 cb (ns.map (Notif.obj br))

/-- `rtnl_mdb_get_by_ifi` -/
def rtnlMdbGetByIfi (w : Store RtnlMdb) (cache : CacheId) (ifi : ℕ) : Option MdbObj :=
  if (w.caches cache).cOps ≠ rtnlMdbOps then none
  else ((w.caches cache).cItems.find? fun o => decide ((w.val o).data.mBrifindex = ifi)).map w.val

section

variable {br : ℕ}

/-- objects of one bridge have one identity -/
theorem Base.identical {m m' : MdbObj} (h : Base br m) (h' : Base br m') : nlObjectIdentical mdbOps m m' = true := by
  have hreq : reqAttrs mdbOps m m' = 1 := rfl
  have hcar : ∀ x : MdbObj, Base br x → Object.carries x 1 = true := fun x hx => decide_eq_true hx.carries
  have hcmp : mdbCompare m m' MDB_ATTR_IFINDEX ID_COMPARISON = 0 := by
    unfold mdbCompare
    rw [if_pos rfl, attrDiff_eq_zero_iff (by decide) (by decide) h.carries h'.carries]
    simp [h.bridge, h'.bridge]
  simp only [nlObjectIdentical, hreq, hcar m h, hcar m' h', h.ops, h'.ops, sameIdAttrs, mdbOps, mdbObjOps, decide_true,
    Bool.and_self, Bool.true_and]
  exact decide_eq_true hcmp

/-- the contents of a cache with this object in it, or with none -/
def cells (o : Option MdbObj) : List (Entry RtnlMdb) := (o.map fun m => ⟨m, false⟩).toList

theorem actOf_obj (n : Notif) : actOf rtnlMdbOps (n.obj br) = if n.new then .new else .del := by
  have htype : (n.obj br).ceMsgtype = n.msgtype := by
    unfold Notif.obj
    cases n.item <;> rfl
  unfold actOf
  rw [htype, Notif.msgtype]
  cases n.new <;> rfl

/-- **`cache_include`** on the object of the bridge -/
theorem include_follow {o : Option MdbObj} (hbase : ∀ m, o = some m → Base br m) (n : Notif) :
    includeEntries mdbOps (actOf rtnlMdbOps (n.obj br)) (cells o) (n.obj br) = cells (follow br o n) := by
  rw [actOf_obj]
  unfold includeEntries
  cases o with
  | none =>
    unfold follow
    cases n.new <;> rfl
  | some m =>
    have hm := hbase m rfl
    have hid := hm.identical (obj_base br n)
    have hlook : entryOf mdbOps (cells (some m)) (n.obj br) = some ⟨m, false⟩ := by
      unfold entryOf cells
      rw [Option.map_some, Option.toList_some, look_cons, if_pos hid]
    rw [hlook]
    have hupd : nlObjectUpdate mdbOps m (n.obj br) =
        if (mdbUpdate m (n.obj br)).2 = 0 then some (mdbUpdate m (n.obj br)).1 else none := by
      have hops : (mdbUpdate m (n.obj br)).1.ceOps = m.ceOps := by rw [(hm.updated n).1.ops, hm.ops]
      unfold nlObjectUpdate mdbOps mdbObjOps
      simp only
      split_ifs
      · rw [Option.map_some, ← hops]
      · rfl
    simp only [hupd, follow]
    by_cases hzero : (mdbUpdate m (n.obj br)).2 = 0
    · simp only [if_pos hzero, cells, Option.map_some, Option.toList_some]
      rw [amend_cons, if_pos hid]
    · simp only [if_neg hzero, cells, Option.map_some, Option.toList_some]
      have hdrop : KeyedList.drop Entry.val (nlObjectIdentical mdbOps) [(⟨m, false⟩ : Entry RtnlMdb)] (n.obj br) = [] := by
        rw [drop_cons, if_pos hid]
      cases n.new with
      | true =>
        simp only [if_true, reduceCtorEq, if_false, put, hdrop, List.nil_append, Option.map_some, Option.toList_some]
      | false => simp only [Bool.false_eq_true, if_false, if_true, hdrop, Option.map_none, Option.toList_none]

theorem includeAll_follow (ns : List Notif) :
    includeAll mdbOps rtnlMdbOps [] (ns.map (Notif.obj br)) = cells (followAll br ns) := by
  induction ns using List.reverseRecOn with
  | nil => rfl
  | append_singleton ns n ih =>
    unfold includeAll at ih ⊢
    rw [List.map_append, List.foldl_append, ih, followAll_snoc]
    exact include_follow (base_followAll ns) n

theorem mdbStore_inv : Inv mdbOps (fun _ => True) mdbStore fun _ => 0 := by
  have hinit : Initial mdbStore :=
    ⟨fun _ => ⟨rfl, rfl⟩, fun _ => ⟨rfl, rfl⟩, fun _ _ hht _ => (nomatch hht), rfl⟩
  exact hinit.inv fun _ _ hht => nomatch hht

/-- **The cache follows**: it has what `followAll` says under the index of the bridge. -/
theorem mdb_follows (br : ℕ) (cb : ChangeCb) (ns : List Notif) :
    rtnlMdbGetByIfi (notified br cb ns) 0 br = followAll br ns := by
  have hvs : ∀ v ∈ ns.map (Notif.obj br), Regular mdbOps (fun _ => True) (mdbStore.caches 0) v ∧
      Known (mdbStore.caches 0).cOps v := by
    intro v hv
    obtain ⟨n, -, rfl⟩ := List.mem_map.1 hv
    refine ⟨⟨(obj_base br n).ops, fun hht => (nomatch hht), fun _ => trivial⟩, ?_⟩
    have hact : actOf (mdbStore.caches 0).cOps (n.obj br) = if n.new then .new else .del := actOf_obj n
    unfold Known
    rw [hact]
    cases n.new with
    | true => exact Or.inl rfl
    | false => exact Or.inr rfl
  obtain ⟨hb, -⟩ := mdbStore_inv.notifiedAll (c := 0) _ hvs cb
  have hcont : contents (notified br cb ns) 0 = cells (followAll br ns) := hb.contents.trans (includeAll_follow ns)
  have hcops : ((notified br cb ns).caches 0).cOps = rtnlMdbOps := hb.cOps
  have hget : rtnlMdbGetByIfi (notified br cb ns) 0 br =
      ((contents (notified br cb ns) 0).find? fun e => decide (e.val.data.mBrifindex = br)).map Entry.val := by
    unfold rtnlMdbGetByIfi contents
    rw [if_neg (not_not.2 hcops), List.find?_map, Option.map_map]
    rfl
  rw [hget, hcont]
  cases hall : followAll br ns with
  | none => rfl
  | some m =>
    have hbr := (base_followAll ns m hall).bridge
    simp [cells, hbr]

end

/-- **Tracking.** For every sequence of notifications about one bridge: the cached object holds exactly the live entries and
router ports, each once and without empty groups, after every prefix, exactly when every deletion in it is sane. -/
theorem mdb_tracked_iff (br : ℕ) (cb : ChangeCb) (ns : List Notif) :
    (∀ as, as <+: ns → Tracks as (rtnlMdbGetByIfi (notified br cb as) 0 br)) ↔
      ∀ as n, as ++ [n] <+: ns → Sane (rtnlMdbGetByIfi (notified br cb as) 0 br) n := by
  simp only [mdb_follows]
  refine all_prefixes_iff (P := fun as => Tracks as (followAll br as)) (Q := fun as n => Sane (followAll br as) n)
    ((tracks_none_iff []).2 live_nil) ?_ ns
  intro as n ht
  rw [followAll_snoc]
  exact tracks_follow_iff (base_followAll as) ht n

/-- the group of the last byte `x` -/
def sampleGroup (x : UInt8) : GroupAddr := ⟨.ip, [224, 0, 0, x], rfl⟩

/-- a port joins a group, then another one, and leaves that one -/
def sampleNotifs : List Notif :=
  [⟨true, .entry (sampleGroup 1) 0 5, 0, 7⟩, ⟨true, .entry (sampleGroup 2) 0 5, 0, 7⟩,
    ⟨false, .entry (sampleGroup 2) 0 5, 0, 7⟩]

/-- **An empty group stays**: the last port of the second group is gone, the group is not. -/
theorem empty_group_stays : ¬ ∀ as, as <+: sampleNotifs → Tracks as (rtnlMdbGetByIfi (notified 3 .none as) 0 3) := by
  intro hall
  have ht := hall sampleNotifs (List.prefix_refl _)
  rw [mdb_follows] at ht
  obtain ⟨m, hm, g, hg, hempty⟩ : ∃ m, followAll 3 sampleNotifs = some m ∧
      ∃ g ∈ m.data.mgrpList, g.mgportList = [] := by
    refine ⟨_, rfl, ⟨(sampleGroup 2).nl, ETH_P_IP, 0, 0, 1, []⟩, ?_, rfl⟩
    decide
  rw [hm] at ht
  exact ht.gone m rfl g hg hempty

end Libnl.Mdb
