/-
What the parser makes of a message that lists many entries (`mdb_msg_parser` in `lib/route/mdb.c`).

A message about a bridge has a number of `MDBA_MDB_ENTRY`, each with a number of records, that is ports in groups, and a
list of router ports. The parser groups the records as they come. The flag that says that a group was there already is reset
for every `MDBA_MDB_ENTRY`, not for every record.

- `kept`: the records that are not lost that way, from the list of records alone.
- `Shows`: the invariant. The groups are those of the records kept so far, each once, with their ports.
- `parser_lists`: the object the parser delivers.
- `mdbMsgParser_exact_iff`: the message is in it exactly when it lists anything at all, and every record is kept, or one
  with the same group and port is.
- `new_group_lost`: three records, of which one is lost.
-/
import Mathlib.Tactic
import Libnl.Route.MdbTrack

namespace Libnl.Mdb

open Bytes Msg Attr AttrWalk Object Addr KeyedList

/-! ## Messages -/

/-- a port in a group -/
structure MdbRecord where
  addr : GroupAddr
  vid : ℕ
  state : ℕ
  port : ℕ
deriving DecidableEq

/-- its group -/
def MdbRecord.group (r : MdbRecord) : GroupAddr × ℕ := (r.addr, r.vid)

section
variable [HostOrder]

/-- the `struct br_mdb_entry` of a record -/
structure RecordAt (buf : Mem) (mi : ℕ) (r : MdbRecord) : Prop where
  port : getU32 buf (nlaData mi) = r.port
  state : (buf (nlaData mi + 4)).toNat = r.state
  vid : getU16 buf (nlaData mi + 6) = r.vid
  addr : readBytes buf (nlaData mi + 8) r.addr.proto.addrLen = r.addr.bytes
  proto : getBe16 buf (nlaData mi + 24) = r.addr.proto.ethertype

/-- an `MDBA_MDB_ENTRY` and its records -/
def EntryAt (buf : Mem) (me : ℕ) (rs : List MdbRecord) : Prop := List.Forall₂ (RecordAt buf) (nestedAttrs buf me) rs

def RouterAt (buf : Mem) (attr port : ℕ) : Prop := nlaType buf attr = MDBA_ROUTER_PORT ∧ getU32 buf (nlaData attr) = port

/-- the message lists these entries and router ports of bridge `br` -/
structure Lists (msg : NlMsg) (br : ℕ) (entries : List (List MdbRecord)) (routers : List ℕ) : Prop where
  type : (msg.nlmsgType : ℤ) = RTM_NEWMDB
  bridge : getU32 msg.buf (nlmsgData + 4) = br
  parses : (nlmsgParse msg 8 MDBA_MAX none).1 = 0
  entries : match (nlmsgParse msg 8 MDBA_MAX none).2 MDBA_MDB with
    | some attr => List.Forall₂ (EntryAt msg.buf) (nestedAttrs msg.buf attr) entries
    | none => entries = []
  routers : match (nlmsgParse msg 8 MDBA_MAX none).2 MDBA_ROUTER with
    | some attr => List.Forall₂ (RouterAt msg.buf) (nestedAttrs msg.buf attr) routers
    | none => routers = []

end

/-! ## Which records are kept -/

/-- a record of a known group is kept; one of a new group is too, unless one of a known group was before it -/
def keepRecord (acc : List MdbRecord × Bool) (r : MdbRecord) : List MdbRecord × Bool :=
  if ∃ q ∈ acc.1, q.group = r.group then (acc.1 ++ [r], true)
  else if acc.2 then acc
  else (acc.1 ++ [r], false)

/-- the records of one `MDBA_MDB_ENTRY` -/
def keepEntry (acc : List MdbRecord) (rs : List MdbRecord) : List MdbRecord := (rs.foldl keepRecord (acc, false)).1

def kept (entries : List (List MdbRecord)) : List MdbRecord := entries.foldl keepEntry []

/-! ## Groups -/

/-- the key of a record's group -/
def MdbRecord.key (r : MdbRecord) : NlAddr × ℕ := r.addr.key r.vid

theorem MdbRecord.key_inj {q r : MdbRecord} : q.key = r.key ↔ q.group = r.group := by
  constructor
  · intro h
    have haddr : q.addr = r.addr := GroupAddr.nl_inj (congrArg Prod.fst h)
    have hvid : q.vid = r.vid := congrArg Prod.snd h
    rw [group, group, haddr, hvid]
  · intro h
    have haddr : q.addr = r.addr := congrArg Prod.fst h
    have hvid : q.vid = r.vid := congrArg Prod.snd h
    rw [key, key, haddr, hvid]

/-- the groups are those of the records, each once, with their ports -/
structure Shows (gs : List RtnlMgrp) (qs : List MdbRecord) : Prop where
  once : (gs.map mgrpKey).Nodup
  groups : ∀ g ∈ gs, ∃ q ∈ qs, mgrpKey g = q.key
  known : ∀ q ∈ qs, ∃ g ∈ gs, mgrpKey g = q.key ∧ q.port ∈ g.mgportList
  ports : ∀ g ∈ gs, ∀ p ∈ g.mgportList, ∃ q ∈ qs, mgrpKey g = q.key ∧ q.port = p

theorem shows_nil : Shows [] [] where
  once := List.nodup_nil
  groups g hg := by cases hg
  known q hq := by cases hq
  ports g hg := by cases hg

/-- what the search of the parser looks for -/
theorem Shows.same_iff {gs : List RtnlMgrp} {qs : List MdbRecord} (h : Shows gs qs) {g new : RtnlMgrp} (hg : g ∈ gs)
    {r : MdbRecord} (hnew : mgrpKey new = r.key) : sameMgrp new g = true ↔ mgrpKey g = r.key := by
  obtain ⟨q, -, hkey⟩ := h.groups g hg
  rw [sameMgrp_eq, hkey, hnew, MdbRecord.key_inj]
  exact (sameKey_group _ _ _ _).trans (by simp [MdbRecord.group])

/-- a group that is there, and its place -/
theorem Shows.found_iff {gs : List RtnlMgrp} {qs : List MdbRecord} (h : Shows gs qs) {new : RtnlMgrp} {r : MdbRecord}
    (hnew : mgrpKey new = r.key) : gs.findIdx (sameMgrp new) < gs.length ↔ ∃ q ∈ qs, q.group = r.group := by
  rw [List.findIdx_lt_length]
  constructor
  · rintro ⟨g, hg, hsame⟩
    obtain ⟨q, hq, hkey⟩ := h.groups g hg
    exact ⟨q, hq, MdbRecord.key_inj.1 (hkey.symm.trans ((h.same_iff hg hnew).1 hsame))⟩
  · rintro ⟨q, hq, hgroup⟩
    obtain ⟨g, hg, hkey, -⟩ := h.known q hq
    exact ⟨g, hg, (h.same_iff hg hnew).2 (hkey.trans (MdbRecord.key_inj.2 hgroup))⟩

/-- one element of a list, among the others -/
theorem split_at {β : Type} {l : List β} {k : ℕ} (hk : k < l.length) (x : β) :
    ∃ as bs, l = as ++ l[k] :: bs ∧ l.set k x = as ++ x :: bs := by
  refine ⟨l.take k, l.drop (k + 1), ?_, ?_⟩
  · rw [← List.drop_eq_getElem_cons hk, List.take_append_drop]
  · rw [List.set_eq_take_append_cons_drop, if_pos hk]

/-- a port joins its group -/
theorem Shows.join {gs : List RtnlMgrp} {qs : List MdbRecord} (h : Shows gs qs) {k : ℕ} (hk : k < gs.length)
    {r : MdbRecord} (hkey : mgrpKey gs[k] = r.key) : Shows (gs.set k (rtnlMgrpAddMgport gs[k] r.port)) (qs ++ [r]) := by
  obtain ⟨as, bs, hgs, hset⟩ := split_at hk (rtnlMgrpAddMgport gs[k] r.port)
  rw [hset]
  generalize gs[k] = g at hgs hkey ⊢
  subst hgs
  -- every group has its counterpart with the same key and no fewer ports
  have hold : ∀ x ∈ as ++ g :: bs, ∃ y ∈ as ++ rtnlMgrpAddMgport g r.port :: bs, mgrpKey y = mgrpKey x ∧
      ∀ p ∈ x.mgportList, p ∈ y.mgportList := by
    intro x hx
    rcases List.mem_append.1 hx with hx | hx
    · exact ⟨x, List.mem_append_left _ hx, rfl, fun p hp => hp⟩
    · rcases List.mem_cons.1 hx with rfl | hx
      · exact ⟨_, List.mem_append_right _ List.mem_cons_self, rfl, fun p hp => List.mem_append_left _ hp⟩
      · exact ⟨x, List.mem_append_right _ (List.mem_cons_of_mem _ hx), rfl, fun p hp => hp⟩
  have hnew : ∀ y ∈ as ++ rtnlMgrpAddMgport g r.port :: bs, y ∈ as ++ g :: bs ∨ y = rtnlMgrpAddMgport g r.port := by
    intro y hy
    rcases List.mem_append.1 hy with hy | hy
    · exact Or.inl (List.mem_append_left _ hy)
    · rcases List.mem_cons.1 hy with rfl | hy
      · exact Or.inr rfl
      · exact Or.inl (List.mem_append_right _ (List.mem_cons_of_mem _ hy))
  have hg : g ∈ as ++ g :: bs := List.mem_append_right _ List.mem_cons_self
  refine ⟨?_, ?_, ?_, ?_⟩
  · have honce := h.once
    rw [List.map_append, List.map_cons] at honce ⊢
    exact honce
  · intro y hy
    rcases hnew y hy with hy | rfl
    · obtain ⟨q, hq, hkeyq⟩ := h.groups y hy
      exact ⟨q, List.mem_append_left _ hq, hkeyq⟩
    · exact ⟨r, List.mem_append_right _ List.mem_cons_self, hkey⟩
  · intro q hq
    rcases List.mem_append.1 hq with hq | hq
    · obtain ⟨x, hx, hkeyx, hp⟩ := h.known q hq
      obtain ⟨y, hy, hkeyy, hports⟩ := hold x hx
      exact ⟨y, hy, hkeyy.trans hkeyx, hports _ hp⟩
    · rw [List.mem_singleton.1 hq]
      exact ⟨_, List.mem_append_right _ List.mem_cons_self, hkey, List.mem_append_right _ List.mem_cons_self⟩
  · intro y hy p hp
    have hports : ∀ x ∈ as ++ g :: bs, p ∈ x.mgportList → ∃ q ∈ qs ++ [r], mgrpKey x = q.key ∧ q.port = p := by
      intro x hx hp
      obtain ⟨q, hq, hq'⟩ := h.ports x hx p hp
      exact ⟨q, List.mem_append_left _ hq, hq'⟩
    rcases hnew y hy with hy | rfl
    · exact hports y hy hp
    · rcases List.mem_append.1 hp with hp | hp
      · exact hports g hg hp
      · exact ⟨r, List.mem_append_right _ List.mem_cons_self, hkey, (List.mem_singleton.1 hp).symm⟩

/-- a group of its own -/
theorem Shows.push {gs : List RtnlMgrp} {qs : List MdbRecord} (h : Shows gs qs) {new : RtnlMgrp} {r : MdbRecord}
    (hkey : mgrpKey new = r.key) (hports : new.mgportList = [r.port]) (hno : ¬ ∃ q ∈ qs, q.group = r.group) :
    Shows (gs ++ [new]) (qs ++ [r]) := by
  refine ⟨?_, ?_, ?_, ?_⟩
  · rw [List.map_append, List.map_singleton]
    refine List.nodup_append'.2 ⟨h.once, List.nodup_singleton _, ?_⟩
    intro k hk hk'
    obtain ⟨g, hg, rfl⟩ := List.mem_map.1 hk
    obtain ⟨q, hq, hkeyq⟩ := h.groups g hg
    have hsame := (hkeyq.symm.trans (List.mem_singleton.1 hk')).trans hkey
    exact hno ⟨q, hq, MdbRecord.key_inj.1 hsame⟩
  · intro g hg
    rcases List.mem_append.1 hg with hg | hg
    · obtain ⟨q, hq, hkeyq⟩ := h.groups g hg
      exact ⟨q, List.mem_append_left _ hq, hkeyq⟩
    · rw [List.mem_singleton.1 hg]
      exact ⟨r, List.mem_append_right _ List.mem_cons_self, hkey⟩
  · intro q hq
    rcases List.mem_append.1 hq with hq | hq
    · obtain ⟨g, hg, hkeyq⟩ := h.known q hq
      exact ⟨g, List.mem_append_left _ hg, hkeyq⟩
    · rw [List.mem_singleton.1 hq]
      exact ⟨new, List.mem_append_right _ List.mem_cons_self, hkey, by rw [hports]; exact List.mem_cons_self⟩
  · intro g hg p hp
    rcases List.mem_append.1 hg with hg | hg
    · obtain ⟨q, hq, hq'⟩ := h.ports g hg p hp
      exact ⟨q, List.mem_append_left _ hq, hq'⟩
    · rw [List.mem_singleton.1 hg, hports] at hp
      rw [List.mem_singleton.1 hg]
      exact ⟨r, List.mem_append_right _ List.mem_cons_self, hkey, (List.mem_singleton.1 hp).symm⟩

/-! ## The parser -/

/-- what records change in the object, beside the groups: the mask says that there were some -/
structure Beside (rs : List MdbRecord) (m m' : MdbObj) : Prop where
  bridge : m'.data.mBrifindex = m.data.mBrifindex
  routers : m'.data.mrportList = m.data.mrportList
  mask : m'.ceMask = 0 ↔ m.ceMask = 0 ∧ rs = []

theorem Beside.nil (m : MdbObj) : Beside [] m m := ⟨rfl, rfl, (and_iff_left rfl).symm⟩

theorem Beside.trans {rs rs' : List MdbRecord} {m m' m'' : MdbObj} (h : Beside rs m m') (h' : Beside rs' m' m'') :
    Beside (rs ++ rs') m m'' where
  bridge := h'.bridge.trans h.bridge
  routers := h'.routers.trans h.routers
  mask := by rw [h'.mask, h.mask, List.append_eq_nil_iff, and_assoc]

/-- the bit of an attribute in a mask -/
theorem mask_or_ne_zero_self (x : BitVec 64) {a : BitVec 64} (ha : a ≠ 0) : x ||| a ≠ 0 := by
  intro h
  exact ha (BitVec.or_eq_zero_iff.1 h).2

section
variable [HostOrder]

/-- **One record.** -/
theorem parseEntryInfo_record {buf : Mem} {mi : ℕ} {r : MdbRecord} (hr : RecordAt buf mi r) {s : MdbObj × Bool}
    {qs : List MdbRecord} (h : Shows s.1.data.mgrpList qs) :
    Shows (parseEntryInfo buf s mi).1.data.mgrpList (keepRecord (qs, s.2) r).1 ∧
      (parseEntryInfo buf s mi).2 = (keepRecord (qs, s.2) r).2 ∧ Beside [r] s.1 (parseEntryInfo buf s mi).1 := by
  have haddr : groupAddr buf (getBe16 buf (nlaData mi + 24)) (nlaData mi + 8) = some r.addr.nl := by
    rw [hr.proto]
    exact groupAddr_of hr.addr
  have hnew : mgrpKey ⟨r.addr.nl, getBe16 buf (nlaData mi + 24), r.vid, r.state, 0, []⟩ = r.key := rfl
  have hmask : ∀ m : MdbObj, ∀ x : BitVec 64, x ||| MDB_ATTR_ADDR = 0 ↔ m.ceMask = 0 ∧ [r] = [] :=
    fun m x => iff_of_false (mask_or_ne_zero_self x (by decide)) fun h => List.cons_ne_nil _ _ h.2
  unfold parseEntryInfo keepRecord
  simp only [haddr, hr.vid, hr.state, hr.port, ← h.found_iff hnew]
  by_cases hfound : s.1.data.mgrpList.findIdx
      (sameMgrp ⟨r.addr.nl, getBe16 buf (nlaData mi + 24), r.vid, r.state, 0, []⟩) < s.1.data.mgrpList.length
  · rw [dif_pos hfound, if_pos hfound]
    have hsame := (h.same_iff (List.getElem_mem hfound) hnew).1 (List.findIdx_getElem (w := hfound))
    exact ⟨h.join hfound hsame, rfl, rfl, rfl, hmask _ _⟩
  · rw [dif_neg hfound, if_neg hfound]
    by_cases hflag : s.2 = true
    · rw [if_pos hflag, if_pos hflag]
      exact ⟨h, rfl, rfl, rfl, hmask _ _⟩
    · rw [if_neg hflag, if_neg hflag]
      have hno := mt (h.found_iff hnew).2 hfound
      exact ⟨h.push rfl rfl hno, rfl, rfl, rfl, hmask _ _⟩

/-- one `MDBA_MDB_ENTRY` -/
theorem parseEntry_records {buf : Mem} {me : ℕ} {rs : List MdbRecord} (hme : EntryAt buf me rs) {m : MdbObj}
    {qs : List MdbRecord} (h : Shows m.data.mgrpList qs) :
    Shows (parseEntry buf m me).data.mgrpList (keepEntry qs rs) ∧ Beside rs m (parseEntry buf m me) := by
  unfold parseEntry keepEntry
  unfold EntryAt at hme
  generalize nestedAttrs buf me = mis at hme
  have hloop : ∀ (s : MdbObj × Bool) (qs : List MdbRecord), Shows s.1.data.mgrpList qs →
      Shows (mis.foldl (parseEntryInfo buf) s).1.data.mgrpList (rs.foldl keepRecord (qs, s.2)).1 ∧
        Beside rs s.1 (mis.foldl (parseEntryInfo buf) s).1 := by
    induction hme with
    | nil => exact fun s qs hs => ⟨hs, Beside.nil s.1⟩
    | cons hr _ ih =>
      intro s qs hs
      obtain ⟨hshows, hflag, hbeside⟩ := parseEntryInfo_record hr hs
      obtain ⟨hrest, hbeside'⟩ := ih _ _ hshows
      rw [hflag] at hrest
      exact ⟨hrest, hbeside.trans hbeside'⟩
  exact hloop (m, false) qs h

/-- all of them -/
theorem parseEntries {buf : Mem} {mes : List ℕ} {entries : List (List MdbRecord)}
    (h : List.Forall₂ (EntryAt buf) mes entries) {m : MdbObj} {qs : List MdbRecord} (hm : Shows m.data.mgrpList qs) :
    Shows (mes.foldl (parseEntry buf) m).data.mgrpList (entries.foldl keepEntry qs) ∧
      Beside entries.flatten m (mes.foldl (parseEntry buf) m) := by
  induction h generalizing m qs with
  | nil => exact ⟨hm, Beside.nil m⟩
  | cons hme _ ih =>
    obtain ⟨hshows, hbeside⟩ := parseEntry_records hme hm
    obtain ⟨hrest, hbeside'⟩ := ih hshows
    exact ⟨hrest, hbeside.trans hbeside'⟩

/-- the router ports -/
theorem parseRouters {buf : Mem} {attrs routers : List ℕ} (h : List.Forall₂ (RouterAt buf) attrs routers) (m : MdbObj) :
    (attrs.foldl (parseRouterPort buf) m).data = { m.data with
        mrportList := m.data.mrportList ++ routers, numMrport := m.data.numMrport + routers.length } ∧
      ((attrs.foldl (parseRouterPort buf) m).ceMask = 0 ↔ m.ceMask = 0 ∧ routers = []) := by
  induction h generalizing m with
  | nil => simp
  | cons hp _ ih =>
    rename_i attr port attrs routers _
    have hone : parseRouterPort buf m attr = rtnlMdbAddMrport m port := by
      rw [parseRouterPort, if_neg (not_not.2 hp.1), hp.2]
    rw [List.foldl_cons, hone]
    obtain ⟨hdata, hmask⟩ := ih (rtnlMdbAddMrport m port)
    refine ⟨?_, ?_⟩
    · rw [hdata]
      simp only [rtnlMdbAddMrport, List.append_assoc, List.singleton_append, List.length_cons]
      congr 1
      omega
    · rw [hmask]
      exact iff_of_false (fun h => mask_or_ne_zero_self m.ceMask (by decide) h.1) fun h => List.cons_ne_nil _ _ h.2

/-- the object before the lists are read -/
def emptyMdb (msg : NlMsg) : MdbObj :=
  { rtnlMdbAlloc with
    ceMsgtype := msg.nlmsgType
    data := { rtnlMdbAlloc.data with
      mBrifindex := getU32 msg.buf (nlmsgData + 4), mFamily := (msg.buf nlmsgData).toNat } }

/-- the object with the groups of the message -/
def withEntries (msg : NlMsg) : MdbObj :=
  match (nlmsgParse msg 8 MDBA_MAX none).2 MDBA_MDB with
  | some attr => (nestedAttrs msg.buf attr).foldl (parseEntry msg.buf) (emptyMdb msg)
  | none => emptyMdb msg

/-- and with its router ports -/
def withRouters (msg : NlMsg) (m : MdbObj) : MdbObj :=
  match (nlmsgParse msg 8 MDBA_MAX none).2 MDBA_ROUTER with
  | some attr => (nestedAttrs msg.buf attr).foldl (parseRouterPort msg.buf) m
  | none => m

/-- the parser, if the message is well formed -/
theorem mdbMsgParser_eq {msg : NlMsg} (h : (nlmsgParse msg 8 MDBA_MAX none).1 = 0) : mdbMsgParser msg =
    if (nlmsgParse msg 8 MDBA_MAX none).2 MDBA_MDB = none ∧ (nlmsgParse msg 8 MDBA_MAX none).2 MDBA_ROUTER = none then .error 0
    else
      let m := withRouters msg (withEntries msg)
      if m.ceMask = 0 then .error 0 else .ok { m with ceMask := m.ceMask ||| MDB_ATTR_IFINDEX } := by
  unfold mdbMsgParser
  simp only [h, lt_irrefl, if_false]
  rfl

theorem withEntries_lists {msg : NlMsg} {br : ℕ} {entries : List (List MdbRecord)} {routers : List ℕ}
    (h : Lists msg br entries routers) :
    Shows (withEntries msg).data.mgrpList (kept entries) ∧ Beside entries.flatten (emptyMdb msg) (withEntries msg) := by
  have hentries := h.entries
  unfold withEntries
  cases htb : (nlmsgParse msg 8 MDBA_MAX none).2 MDBA_MDB with
  | none =>
    rw [htb] at hentries
    rw [hentries]
    exact ⟨shows_nil, Beside.nil _⟩
  | some attr =>
    rw [htb] at hentries
    exact parseEntries hentries shows_nil

theorem withRouters_lists {msg : NlMsg} {br : ℕ} {entries : List (List MdbRecord)} {routers : List ℕ}
    (h : Lists msg br entries routers) (m : MdbObj) :
    (withRouters msg m).data = { m.data with
        mrportList := m.data.mrportList ++ routers, numMrport := m.data.numMrport + routers.length } ∧
      ((withRouters msg m).ceMask = 0 ↔ m.ceMask = 0 ∧ routers = []) := by
  have hrouters := h.routers
  unfold withRouters
  cases htb : (nlmsgParse msg 8 MDBA_MAX none).2 MDBA_ROUTER with
  | none =>
    rw [htb] at hrouters
    rw [hrouters]
    simp
  | some attr =>
    rw [htb] at hrouters
    exact parseRouters hrouters m

/-- **What the parser delivers**: nothing for a message that lists nothing, else an object with the records that are kept. -/
theorem parser_lists {msg : NlMsg} {br : ℕ} {entries : List (List MdbRecord)} {routers : List ℕ}
    (h : Lists msg br entries routers) :
    (entries.flatten = [] ∧ routers = [] → mdbMsgParser msg = .error 0) ∧
      (¬ (entries.flatten = [] ∧ routers = []) → ∃ m, mdbMsgParser msg = .ok m ∧ m.data.mBrifindex = br ∧
        Shows m.data.mgrpList (kept entries) ∧ m.data.mrportList = routers) := by
  obtain ⟨hshows, hbeside⟩ := withEntries_lists h
  obtain ⟨hdata, hmask⟩ := withRouters_lists h (withEntries msg)
  have hzero : (withRouters msg (withEntries msg)).ceMask = 0 ↔ entries.flatten = [] ∧ routers = [] := by
    rw [hmask, hbeside.mask]
    exact and_congr_left fun _ => and_iff_right rfl
  rw [mdbMsgParser_eq h.parses]
  constructor
  · intro hnothing
    split_ifs
    · rfl
    · exact if_pos (hzero.2 hnothing)
  · intro hsome
    have hattr : ¬ ((nlmsgParse msg 8 MDBA_MAX none).2 MDBA_MDB = none ∧
        (nlmsgParse msg 8 MDBA_MAX none).2 MDBA_ROUTER = none) := by
      rintro ⟨hmdb, hrouter⟩
      have hentries := h.entries
      have hrouters := h.routers
      rw [hmdb] at hentries
      rw [hrouter] at hrouters
      exact hsome ⟨by rw [hentries]; rfl, hrouters⟩
    rw [if_neg hattr]
    refine ⟨_, if_neg (mt hzero.1 hsome), ?_, ?_, ?_⟩
    · simp only [hdata]
      rw [hbeside.bridge]
      exact h.bridge
    · simp only [hdata]
      exact hshows
    · simp only [hdata]
      rw [hbeside.routers]
      rfl

/-- the object holds the records and router ports of the message, and nothing else, and every group once -/
structure Exact (m : MdbObj) (br : ℕ) (entries : List (List MdbRecord)) (routers : List ℕ) : Prop where
  bridge : m.data.mBrifindex = br
  entries : ∀ e, e ∈ entriesOf m ↔ ∃ r ∈ entries.flatten, e = (r.addr.nl, r.vid, r.port)
  once : (m.data.mgrpList.map mgrpKey).Nodup
  routers : m.data.mrportList = routers

omit [HostOrder] in
/-- what the groups hold -/
theorem Shows.mem_entries {m : MdbObj} {qs : List MdbRecord} (h : Shows m.data.mgrpList qs) (e : NlAddr × ℕ × ℕ) :
    e ∈ entriesOf m ↔ ∃ q ∈ qs, e = (q.addr.nl, q.vid, q.port) := by
  unfold entriesOf
  simp only [List.mem_flatMap, List.mem_map]
  constructor
  · rintro ⟨g, hg, p, hp, rfl⟩
    obtain ⟨q, hq, hkey, hport⟩ := h.ports g hg p hp
    have haddr : g.addr = q.addr.nl := congrArg Prod.fst hkey
    have hvid : g.vid = q.vid := congrArg Prod.snd hkey
    exact ⟨q, hq, by rw [haddr, hvid, hport]⟩
  · rintro ⟨q, hq, rfl⟩
    obtain ⟨g, hg, hkey, hport⟩ := h.known q hq
    have haddr : g.addr = q.addr.nl := congrArg Prod.fst hkey
    have hvid : g.vid = q.vid := congrArg Prod.snd hkey
    exact ⟨g, hg, q.port, hport, by rw [haddr, hvid]⟩

omit [HostOrder] in
/-- nothing is kept that was not there -/
theorem mem_of_mem_kept {entries : List (List MdbRecord)} {q : MdbRecord} (h : q ∈ kept entries) : q ∈ entries.flatten := by
  have hrecord : ∀ (acc : List MdbRecord × Bool) (r : MdbRecord), ∀ q ∈ (keepRecord acc r).1, q ∈ acc.1 ∨ q = r := by
    intro acc r q hq
    unfold keepRecord at hq
    split_ifs at hq
    · exact (List.mem_append.1 hq).imp_right List.mem_singleton.1
    · exact Or.inl hq
    · exact (List.mem_append.1 hq).imp_right List.mem_singleton.1
  have hentry : ∀ (rs : List MdbRecord) (acc : List MdbRecord × Bool), ∀ q ∈ (rs.foldl keepRecord acc).1, q ∈ acc.1 ∨ q ∈ rs := by
    intro rs
    induction rs with
    | nil => exact fun acc q hq => Or.inl hq
    | cons r rs ih =>
      intro acc q hq
      rcases ih _ q hq with hq | hq
      · refine (hrecord acc r q hq).imp_right ?_
        rintro rfl
        exact List.mem_cons_self
      · exact Or.inr (List.mem_cons_of_mem r hq)
  have hall : ∀ (entries : List (List MdbRecord)) (acc : List MdbRecord), ∀ q ∈ entries.foldl keepEntry acc,
      q ∈ acc ∨ q ∈ entries.flatten := by
    intro entries
    induction entries with
    | nil => exact fun acc q hq => Or.inl hq
    | cons rs entries ih =>
      intro acc q hq
      rw [List.flatten_cons, List.mem_append]
      rcases ih _ q hq with hq | hq
      · exact (hentry rs (acc, false) q hq).imp_right Or.inl
      · exact Or.inr (Or.inr hq)
  rcases hall entries [] q h with hq | hq
  · cases hq
  · exact hq

/-- **The parser is exact** about a message exactly when it lists anything, and every record is kept, or one with the same
group and port. -/
theorem mdbMsgParser_exact_iff {msg : NlMsg} {br : ℕ} {entries : List (List MdbRecord)} {routers : List ℕ}
    (h : Lists msg br entries routers) :
    (∃ m, mdbMsgParser msg = .ok m ∧ Exact m br entries routers) ↔
      (entries.flatten ≠ [] ∨ routers ≠ []) ∧
        ∀ r ∈ entries.flatten, ∃ q ∈ kept entries, q.group = r.group ∧ q.port = r.port := by
  obtain ⟨hnothing, hsome⟩ := parser_lists h
  constructor
  · rintro ⟨m, hm, hexact⟩
    have hany : ¬ (entries.flatten = [] ∧ routers = []) := by
      intro hno
      rw [hnothing hno] at hm
      cases hm
    obtain ⟨m', hm', -, hshows, -⟩ := hsome hany
    obtain rfl : m = m' := Except.ok.inj (hm.symm.trans hm')
    refine ⟨not_and_or.1 hany, ?_⟩
    intro r hr
    obtain ⟨q, hq, heq⟩ := (hshows.mem_entries _).1 ((hexact.entries _).2 ⟨r, hr, rfl⟩)
    simp only [Prod.mk.injEq] at heq
    refine ⟨q, hq, ?_, heq.2.2.symm⟩
    rw [MdbRecord.group, MdbRecord.group, GroupAddr.nl_inj heq.1, heq.2.1]
  · rintro ⟨hany, hkept⟩
    obtain ⟨m, hm, hbridge, hshows, hrouters⟩ := hsome (not_and_or.2 hany)
    refine ⟨m, hm, hbridge, fun e => ?_, hshows.once, hrouters⟩
    rw [hshows.mem_entries]
    constructor
    · rintro ⟨q, hq, rfl⟩
      exact ⟨q, mem_of_mem_kept hq, rfl⟩
    · rintro ⟨r, hr, rfl⟩
      obtain ⟨q, hq, hgroup, hport⟩ := hkept r hr
      have haddr : q.addr = r.addr := congrArg Prod.fst hgroup
      have hvid : q.vid = r.vid := congrArg Prod.snd hgroup
      exact ⟨q, hq, by rw [haddr, hvid, hport]⟩

end

/-! ## Two messages with three records -/

/-- the record of a port in the group 224.0.0.`last` of VLAN 1 -/
def record (x : UInt8 × UInt8) : MdbRecord := ⟨sampleGroup x.1, 1, 0, x.2.toNat⟩

def recordBytes (x : UInt8 × UInt8) : List UInt8 :=
  [32, 0, 1, 0, x.2, 0, 0, 0, 0, 0, 1, 0, 224, 0, 0, x.1, 0, 0, 0, 0, 0, 0, 0, 0, 0, 0, 0, 0, 8, 0, 0, 0]

/-- a message about bridge 3 with one `MDBA_MDB_ENTRY` of three records -/
def threeRecords (x y z : UInt8 × UInt8) : NlMsg :=
  ⟨4096, 128, 84, 0, 0, 0, fun i =>
    (List.replicate 16 0 ++ [7, 0, 0, 0, 3, 0, 0, 0, 104, 0, 1, 0, 100, 0, 1, 0] ++ recordBytes x ++ recordBytes y ++
      recordBytes z).getD i 0, false⟩

instance [HostOrder] (buf : Mem) (mi : ℕ) (r : MdbRecord) : Decidable (RecordAt buf mi r) :=
  decidable_of_iff (getU32 buf (nlaData mi) = r.port ∧ (buf (nlaData mi + 4)).toNat = r.state ∧
      getU16 buf (nlaData mi + 6) = r.vid ∧ readBytes buf (nlaData mi + 8) r.addr.proto.addrLen = r.addr.bytes ∧
      getBe16 buf (nlaData mi + 24) = r.addr.proto.ethertype)
    ⟨fun ⟨h1, h2, h3, h4, h5⟩ => ⟨h1, h2, h3, h4, h5⟩, fun h => ⟨h.port, h.state, h.vid, h.addr, h.proto⟩⟩

/-- where its attributes are -/
def LaidOut (x y z : UInt8 × UInt8) : Prop :=
  let _ : HostOrder := ⟨false⟩
  let msg := threeRecords x y z
  (getU32 msg.buf (nlmsgData + 4) = 3 ∧ (nlmsgParse msg 8 MDBA_MAX none).1 = 0 ∧
    (nlmsgParse msg 8 MDBA_MAX none).2 MDBA_MDB = some 24 ∧ (nlmsgParse msg 8 MDBA_MAX none).2 MDBA_ROUTER = none) ∧
    (nestedAttrs msg.buf 24 = [28] ∧ nestedAttrs msg.buf 28 = [32, 64, 96]) ∧
    RecordAt msg.buf 32 (record x) ∧ RecordAt msg.buf 64 (record y) ∧ RecordAt msg.buf 96 (record z)

instance (x y z : UInt8 × UInt8) : Decidable (LaidOut x y z) := inferInstanceAs (Decidable (_ ∧ _))

/-- what is in it -/
theorem LaidOut.lists {x y z : UInt8 × UInt8} (h : LaidOut x y z) :
    @Lists ⟨false⟩ (threeRecords x y z) 3 [[record x, record y, record z]] [] := by
  let _ : HostOrder := ⟨false⟩
  obtain ⟨⟨hbridge, hparses, hmdb, hrouter⟩, ⟨hentry, hinfos⟩, hx, hy, hz⟩ := h
  refine ⟨rfl, hbridge, hparses, ?_, ?_⟩
  · rw [hmdb]
    dsimp only
    rw [hentry]
    refine .cons ?_ .nil
    rw [EntryAt, hinfos]
    exact .cons hx (.cons hy (.cons hz .nil))
  · rw [hrouter]

/-- **A message that is in its object**: two groups, then a second port of the first. -/
theorem two_groups_exact : ∃ m, @mdbMsgParser ⟨false⟩ (threeRecords (1, 1) (2, 1) (1, 2)) = .ok m ∧
    Exact m 3 [[record (1, 1), record (2, 1), record (1, 2)]] [] :=
  (@mdbMsgParser_exact_iff ⟨false⟩ _ _ _ _ (LaidOut.lists (by decide))).2 (by decide)

/-- **A new group is lost** behind a second port of a known one. -/
theorem new_group_lost : @Lists ⟨false⟩ (threeRecords (1, 1) (1, 2) (2, 1)) 3 [[record (1, 1), record (1, 2), record (2, 1)]] [] ∧
    ¬ ∃ m, @mdbMsgParser ⟨false⟩ (threeRecords (1, 1) (1, 2) (2, 1)) = .ok m ∧
      Exact m 3 [[record (1, 1), record (1, 2), record (2, 1)]] [] := by
  have hlists := LaidOut.lists (x := (1, 1)) (y := (1, 2)) (z := (2, 1)) (by decide)
  refine ⟨hlists, ?_⟩
  rintro ⟨m, hm, hexact⟩
  obtain ⟨m', hm', -, hshows, -⟩ := (@parser_lists ⟨false⟩ _ _ _ _ hlists).2 (by decide)
  obtain rfl : m = m' := Except.ok.inj (hm.symm.trans hm')
  obtain ⟨q, hq, heq⟩ := (hshows.mem_entries _).1 ((hexact.entries _).2 ⟨record (2, 1), by simp, rfl⟩)
  have hkept : kept [[record (1, 1), record (1, 2), record (2, 1)]] = [record (1, 1), record (1, 2)] := by rfl
  rw [hkept] at hq
  simp only [List.mem_cons, List.not_mem_nil, or_false] at hq
  rcases hq with rfl | rfl
  · exact absurd (congrArg Prod.fst heq) (by decide)
  · exact absurd (congrArg Prod.fst heq) (by decide)

end Libnl.Mdb
