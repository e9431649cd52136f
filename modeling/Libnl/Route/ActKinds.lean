/-
Kinds of actions: `gact`, `mirred`, `skbedit` and `vlan` (`lib/route/act/`).

Each kind has a structure that all actions begin with, and attributes of its own. What comes out of a message when it is read is
what the writer put, with two exceptions: the module for `skbedit` does not read the structure, and reads 16 bits of a queue
mapping that was written as 32. A list of actions thus loses what it says about the packets that `skbedit` has edited.

- `gactOps`, `mirredOps`, `skbeditOps`, `vlanOps`: the modules, with what a list of actions asks of them.
- `parsed_of_parse`: an action that was read has the data that its module makes of its options.
- `list_echoed`: what a list comes back as. `actions_kept_iff`: which lists come back unchanged.
-/
import Mathlib.Tactic
import Libnl.Route.U32
import Libnl.Route.ActRoundTrip

namespace Libnl.ActKinds

open Bytes Layout Msg Attr AttrWalk AttrTree AttrStream Writer Fields
open Actions
open U32 (tcaParse tcaParse_some optBuf)

def TCA_GACT_PARMS : ℕ := 2
def TCA_GACT_MAX : ℕ := 4
def TCA_MIRRED_PARMS : ℕ := 2
def TCA_MIRRED_MAX : ℕ := 3
def TCA_SKBEDIT_PARMS : ℕ := 2
def TCA_SKBEDIT_PRIORITY : ℕ := 3
def TCA_SKBEDIT_QUEUE_MAPPING : ℕ := 4
def TCA_SKBEDIT_MARK : ℕ := 5
def TCA_SKBEDIT_MAX : ℕ := 9
def TCA_VLAN_PARMS : ℕ := 2
def TCA_VLAN_PUSH_VLAN_ID : ℕ := 3
def TCA_VLAN_PUSH_VLAN_PROTOCOL : ℕ := 4
def TCA_VLAN_PUSH_VLAN_PRIORITY : ℕ := 6
def TCA_VLAN_MAX : ℕ := 6

def TCA_VLAN_ACT_POP : BitVec 32 := 1

def gactKind : List UInt8 := [103, 97, 99, 116]

def mirredKind : List UInt8 := [109, 105, 114, 114, 101, 100]

def skbeditKind : List UInt8 := [115, 107, 98, 101, 100, 105, 116]

def vlanKind : List UInt8 := [118, 108, 97, 110]

/-- `tc_gen`: what the structures of all actions begin with -/
structure TcGen where
  index : BitVec 32
  capab : BitVec 32
  action : BitVec 32
  refcnt : BitVec 32
  bindcnt : BitVec 32
deriving DecidableEq

def zeroGen : TcGen := ⟨0, 0, 0, 0, 0⟩

/-- `struct tc_mirred` -/
structure TcMirred where
  gen : TcGen
  eaction : BitVec 32
  ifindex : BitVec 32
deriving DecidableEq

/-- `struct rtnl_skbedit`; a value is there if its flag is set -/
structure RtnlSkbedit where
  sParm : TcGen
  sPrio : Option (BitVec 32)
  sMark : Option (BitVec 32)
  sQueueMapping : Option (BitVec 16)
deriving DecidableEq

/-- `struct rtnl_vlan`; `hasAct` and `hasMode` are the flags of the two members of the structure that have one -/
structure RtnlVlan where
  gen : TcGen
  vAction : BitVec 32
  hasAct : Bool
  hasMode : Bool
  vVid : Option (BitVec 16)
  vProto : Option (BitVec 16)
  vPrio : Option (BitVec 8)
deriving DecidableEq

section

variable [HostOrder]

/-! ## The common structure -/

def genBytes (g : TcGen) : List UInt8 :=
  u32Bytes g.index.toNat ++ u32Bytes g.capab.toNat ++ u32Bytes g.action.toNat ++ u32Bytes g.refcnt.toNat ++ u32Bytes g.bindcnt.toNat

@[simp] theorem genBytes_length (g : TcGen) : (genBytes g).length = 20 := by simp [genBytes]

def genAt (buf : Mem) (pos : ℕ) : TcGen :=
  ⟨u32At buf pos, u32At buf (pos + 4), u32At buf (pos + 8), u32At buf (pos + 12), u32At buf (pos + 16)⟩

theorem seg_genAt {buf : Mem} {pos : ℕ} {g : TcGen} (h : Seg buf pos (genBytes g)) : genAt buf pos = g := by
  obtain ⟨h, hbindcnt⟩ := seg_append.1 h
  obtain ⟨h, hrefcnt⟩ := seg_append.1 h
  obtain ⟨h, haction⟩ := seg_append.1 h
  obtain ⟨hindex, hcapab⟩ := seg_append.1 h
  simp only [List.length_append, u32Bytes_length] at hbindcnt hrefcnt haction hcapab
  rw [genAt, seg_u32At hindex, seg_u32At hcapab, seg_u32At haction, seg_u32At hrefcnt, seg_u32At hbindcnt]

def mirredBytes (u : TcMirred) : List UInt8 := genBytes u.gen ++ u32Bytes u.eaction.toNat ++ u32Bytes u.ifindex.toNat

def mirredAt (buf : Mem) (pos : ℕ) : TcMirred := ⟨genAt buf pos, u32At buf (pos + 20), u32At buf (pos + 24)⟩

theorem seg_mirredAt {buf : Mem} {pos : ℕ} {u : TcMirred} (h : Seg buf pos (mirredBytes u)) : mirredAt buf pos = u := by
  obtain ⟨h, hifindex⟩ := seg_append.1 h
  obtain ⟨hgen, heaction⟩ := seg_append.1 h
  simp only [List.length_append, u32Bytes_length, genBytes_length] at hifindex heaction
  rw [mirredAt, seg_genAt hgen, seg_u32At heaction, seg_u32At hifindex]

def vlanBytes (v : RtnlVlan) : List UInt8 := genBytes v.gen ++ u32Bytes v.vAction.toNat

/-! ## Fields of a module -/

/-- fields that a module writes and reads: the structure comes first, and the rest is short -/
structure Wire (policy : ℕ → NlaPolicy) (fs : FieldList) : Prop where
  sends : Sendable policy fs
  distinct : Distinct fs
  first : leavesOf fs ≠ []
  short : (encLeaves (leavesOf fs)).length ≤ 1200

theorem Wire.options {policy : ℕ → NlaPolicy} {fs : FieldList} (h : Wire policy fs) : Options (leavesOf fs) :=
  ⟨h.sends.wf, h.first, h.short⟩

/-- **Fields of a module**, read by it -/
theorem Wire.parsed {policy : ℕ → NlaPolicy} {fs : FieldList} (h : Wire policy fs) {maxtype : ℕ} (hmax : maxtype < 16384) :
    ∃ tb, tcaParse maxtype (some (encLeaves (leavesOf fs))) policy = (0, tb) ∧
      ∀ t p, (t, p) ∈ fs → t ≤ maxtype → Shown (optBuf (some (encLeaves (leavesOf fs)))) tb t p := by
  have hshort := h.short
  obtain ⟨tb, hparse, hidx⟩ := parseBytes_fields maxtype h.sends (by omega)
  exact ⟨tb, (tcaParse_some maxtype _ policy).trans hparse, fun t p hmem ht => shown_plain hidx h.distinct hmax hmem ht⟩

omit [HostOrder] in
theorem first_leaf (t : ℕ) (p : List UInt8) (fs : FieldList) : leavesOf ((t, some p) :: fs) ≠ [] := by
  rw [leavesOf_cons]
  exact List.cons_ne_nil _ _

/-- a field takes little more than its payload -/
theorem field_le {t : ℕ} {p : Option (List UInt8)} {n k : ℕ} {fs : FieldList} (hp : ∀ q ∈ p, q.length ≤ n)
    (h : (encLeaves (leavesOf fs)).length ≤ k) : (encLeaves (leavesOf ((t, p) :: fs))).length ≤ n + 7 + k := by
  rw [leavesOf_cons, encLeaves_append, List.length_append]
  refine Nat.add_le_add ?_ h
  cases p with
  | none => exact Nat.zero_le _
  | some q =>
    have hlen := hp q rfl
    have hlt := align4_lt (4 + q.length)
    rw [Option.map_some, Option.toList_some, encLeaves_cons, encLeaves_nil, List.append_nil, encLeaf_length]
    dsimp only
    omega

omit [HostOrder] in
theorem some_le {p : List UInt8} {n : ℕ} (h : p.length = n) : ∀ q ∈ some p, q.length ≤ n := by
  intro q hq
  rw [← Option.some.inj hq, h]

omit [HostOrder] in
theorem map_le {α : Type} {o : Option α} {enc : α → List UInt8} {n : ℕ} (h : ∀ a, (enc a).length = n) :
    ∀ q ∈ o.map enc, q.length ≤ n := by
  intro q hq
  obtain ⟨a, -, rfl⟩ := Option.map_eq_some_iff.1 hq
  exact (h a).le

omit [HostOrder] in
theorem sends_parms {pt : NlaPolicy} {n : ℕ} (hpt : pt = ⟨.unspec, n, 0⟩) (hn : n ≤ 65531) {p : List UInt8} (hp : p.length = n) :
    Sends pt (some p) :=
  sends_struct hpt hn fun q hq => by rw [← Option.some.inj hq, hp]

omit [HostOrder] in
/-- 16 bits, in two bytes or in four -/
theorem sends_u16 {pt : NlaPolicy} (hpt : pt = ⟨.u16, 0, 0⟩) {α : Type} {o : Option α} {enc : α → List UInt8} {n : ℕ}
    (h : ∀ a, (enc a).length = n) (hn : 2 ≤ n ∧ n ≤ 4) : Sends pt (o.map enc) := by
  subst hpt
  refine sends_min rfl (by decide) fun q hq => ?_
  obtain ⟨a, -, rfl⟩ := Option.map_eq_some_iff.1 hq
  rw [h a]
  exact ⟨by omega, hn.1⟩

/-- the structure, where the options have it -/
theorem shown_some {buf : Mem} {tb : Index} {t : ℕ} {p : List UInt8} (h : Shown buf tb t (some p)) :
    ∃ pos, tb t = some pos ∧ Seg buf (nlaData pos) p := by
  obtain ⟨pos, type, hpos, hat⟩ := h
  exact ⟨pos, hpos, hat.data⟩

/-! ## `gact` -/

def gactPolicy : ℕ → NlaPolicy := fun t => if t = TCA_GACT_PARMS then ⟨.unspec, 20, 0⟩ else ⟨.unspec, 0, 0⟩

def gactFields (u : TcGen) : FieldList := [(TCA_GACT_PARMS, some (genBytes u))]

/-- `gact_msg_fill` -/
def gactMsgFill (u : TcGen) : NlMsg → NlMsg × ℤ := putAll (-NLE_NOMEM) (leavesOf (gactFields u))

/-- `gact_msg_parser` -/
def gactMsgParser (opts : Option (List UInt8)) (_ : TcGen) : Except ℤ TcGen :=
  let r := tcaParse TCA_GACT_MAX opts gactPolicy
  if r.1 < 0 then .error r.1
  else (r.2 TCA_GACT_PARMS).elim (.error (-NLE_MISSING_ATTR)) fun a => .ok (genAt (optBuf opts) (nlaData a))

theorem gact_wire (u : TcGen) : Wire gactPolicy (gactFields u) where
  sends := Sendable.cons (by decide) (sends_parms rfl (by decide) (genBytes_length u)) (Sendable.nil _)
  distinct := show List.Nodup [2] by decide
  first := first_leaf _ _ _
  short := (field_le (some_le (genBytes_length u)) (k := 0) (Nat.zero_le _)).trans (by decide)

/-- **`gact`**: read as it was written -/
theorem gact_echo (u d : TcGen) : gactMsgParser (some (encLeaves (leavesOf (gactFields u)))) d = .ok u := by
  obtain ⟨tb, hparse, hshown⟩ := (gact_wire u).parsed (by decide : TCA_GACT_MAX < 16384)
  obtain ⟨pos, hpos, hseg⟩ := shown_some (hshown TCA_GACT_PARMS _ List.mem_cons_self (by decide))
  unfold gactMsgParser
  rw [hparse]
  dsimp only
  rw [if_neg (lt_irrefl (0 : ℤ)), hpos, Option.elim_some, seg_genAt hseg]

def gactOps : ActOps where
  toKind := gactKind
  Data := TcGen
  fresh := zeroGen
  toMsgFill _ u := gactMsgFill u
  toMsgParser opts d := (gactMsgParser opts d).map fun u => (u, none)
  leaves _ u := some (leavesOf (gactFields u))
  options _ u _ h := Option.some.inj h ▸ (gact_wire u).options
  writes _ u _ h := Option.some.inj h ▸ puts_putAll _ (gact_wire u).sends.wf 0
  refuses _ _ h := absurd h (Option.some_ne_none _)
  reads _ u _ h := ⟨(u, none), by rw [← Option.some.inj h, gact_echo]; rfl⟩

theorem gactOps_reads (opts : Option (List UInt8)) (d : TcGen) :
    gactOps.toMsgParser opts d = (gactMsgParser opts d).map fun u => (u, none) := rfl

/-! ## `mirred` -/

def mirredPolicy : ℕ → NlaPolicy := fun t => if t = TCA_MIRRED_PARMS then ⟨.unspec, 28, 0⟩ else ⟨.unspec, 0, 0⟩

theorem mirredBytes_length (u : TcMirred) : (mirredBytes u).length = 28 := by simp [mirredBytes]

/-- the index of the action goes into the structure -/
def TcMirred.withIndex (u : TcMirred) (index : Option (BitVec 32)) : TcMirred :=
  { u with gen := { u.gen with index := index.getD u.gen.index } }

def mirredFields (u : TcMirred) : FieldList := [(TCA_MIRRED_PARMS, some (mirredBytes u))]

/-- `mirred_msg_fill` -/
def mirredMsgFill (index : Option (BitVec 32)) (u : TcMirred) : NlMsg → NlMsg × ℤ :=
  putAll (-NLE_NOMEM) (leavesOf (mirredFields (u.withIndex index)))

/-- `mirred_msg_parser`; the index of the action is set -/
def mirredMsgParser (opts : Option (List UInt8)) (_ : TcMirred) : Except ℤ (TcMirred × Option (BitVec 32)) :=
  let r := tcaParse TCA_MIRRED_MAX opts mirredPolicy
  if r.1 < 0 then .error r.1
  else (r.2 TCA_MIRRED_PARMS).elim (.error (-NLE_MISSING_ATTR)) fun a =>
    .ok (mirredAt (optBuf opts) (nlaData a), some (mirredAt (optBuf opts) (nlaData a)).gen.index)

theorem mirred_wire (u : TcMirred) : Wire mirredPolicy (mirredFields u) where
  sends := Sendable.cons (by decide) (sends_parms rfl (by decide) (mirredBytes_length u)) (Sendable.nil _)
  distinct := show List.Nodup [2] by decide
  first := first_leaf _ _ _
  short := (field_le (some_le (mirredBytes_length u)) (k := 0) (Nat.zero_le _)).trans (by decide)

/-- **`mirred`**: read as it was written, with its index -/
theorem mirred_echo (u d : TcMirred) :
    mirredMsgParser (some (encLeaves (leavesOf (mirredFields u)))) d = .ok (u, some u.gen.index) := by
  obtain ⟨tb, hparse, hshown⟩ := (mirred_wire u).parsed (by decide : TCA_MIRRED_MAX < 16384)
  obtain ⟨pos, hpos, hseg⟩ := shown_some (hshown TCA_MIRRED_PARMS _ List.mem_cons_self (by decide))
  unfold mirredMsgParser
  rw [hparse]
  dsimp only
  rw [if_neg (lt_irrefl (0 : ℤ)), hpos, Option.elim_some, seg_mirredAt hseg]

def mirredOps : ActOps where
  toKind := mirredKind
  Data := TcMirred
  fresh := ⟨zeroGen, 0, 0⟩
  toMsgFill := mirredMsgFill
  toMsgParser := mirredMsgParser
  leaves index u := some (leavesOf (mirredFields (u.withIndex index)))
  options index u _ h := Option.some.inj h ▸ (mirred_wire (u.withIndex index)).options
  writes index u _ h := Option.some.inj h ▸ puts_putAll _ (mirred_wire (u.withIndex index)).sends.wf 0
  refuses _ _ h := absurd h (Option.some_ne_none _)
  reads index u _ h := ⟨(u.withIndex index, some (u.withIndex index).gen.index), by rw [← Option.some.inj h, mirred_echo]⟩

theorem mirredOps_reads (opts : Option (List UInt8)) (d : TcMirred) :
    mirredOps.toMsgParser opts d = mirredMsgParser opts d := rfl

/-! ## `skbedit` -/

def skbeditPolicy : ℕ → NlaPolicy := fun t =>
  if t = TCA_SKBEDIT_PARMS then ⟨.unspec, 20, 0⟩
  else if t = TCA_SKBEDIT_PRIORITY then ⟨.u32, 0, 0⟩
  else if t = TCA_SKBEDIT_QUEUE_MAPPING then ⟨.u16, 0, 0⟩
  else if t = TCA_SKBEDIT_MARK then ⟨.u32, 0, 0⟩
  else ⟨.unspec, 0, 0⟩

def skbeditFields (u : RtnlSkbedit) : FieldList :=
  [(TCA_SKBEDIT_PARMS, some (genBytes u.sParm)),
    (TCA_SKBEDIT_MARK, u.sMark.map fun v => u32Bytes v.toNat),
    (TCA_SKBEDIT_PRIORITY, u.sPrio.map fun v => u32Bytes v.toNat),
    -- written with `NLA_PUT_U32`
    (TCA_SKBEDIT_QUEUE_MAPPING, u.sQueueMapping.map fun v => u32Bytes v.toNat)]

/-- `skbedit_msg_fill` -/
def skbeditMsgFill (u : RtnlSkbedit) : NlMsg → NlMsg × ℤ := putAll (-NLE_NOMEM) (leavesOf (skbeditFields u))

/-- `skbedit_msg_parser`; the structure has to be there, but is not read -/
def skbeditMsgParser (opts : Option (List UInt8)) (u : RtnlSkbedit) : Except ℤ RtnlSkbedit :=
  let r := tcaParse TCA_SKBEDIT_MAX opts skbeditPolicy
  let buf := optBuf opts
  if r.1 < 0 then .error r.1
  else (r.2 TCA_SKBEDIT_PARMS).elim (.error (-NLE_MISSING_ATTR)) fun _ =>
    .ok ⟨u.sParm, (r.2 TCA_SKBEDIT_PRIORITY).map (nlaGetU32 buf), (r.2 TCA_SKBEDIT_MARK).map (nlaGetU32 buf),
      (r.2 TCA_SKBEDIT_QUEUE_MAPPING).map (nlaGetU16 buf)⟩

theorem skbedit_wire (u : RtnlSkbedit) : Wire skbeditPolicy (skbeditFields u) where
  sends := Sendable.cons (by decide) (sends_parms rfl (by decide) (genBytes_length _)) (Sendable.cons (by decide) (sends_u32 rfl _)
    (Sendable.cons (by decide) (sends_u32 rfl _) (Sendable.cons (by decide)
      (sends_u16 rfl (fun _ => u32Bytes_length _) (by decide)) (Sendable.nil _))))
  distinct := show List.Nodup [2, 5, 3, 4] by decide
  first := first_leaf _ _ _
  short := (field_le (some_le (genBytes_length _)) (field_le (map_le fun _ => u32Bytes_length _)
    (field_le (map_le fun _ => u32Bytes_length _) (field_le (map_le fun _ => u32Bytes_length _) (k := 0) (Nat.zero_le _))))).trans
      (by decide)

/-- the first two bytes of four: the low half of the number, or the high half -/
def queueRead (v : BitVec 16) : BitVec 16 := if HostOrder.big then 0 else v

theorem at_queue {buf : Mem} {pos t : ℕ} {v : BitVec 16} (h : At buf pos ⟨t, u32Bytes v.toNat⟩) :
    nlaGetU16 buf pos = queueRead v := by
  have hlt := v.isLt
  have hhigh : v.toNat / 65536 = 0 := Nat.div_eq_of_lt hlt
  have hdata := h.data
  unfold u32Bytes at hdata
  rw [hhigh] at hdata
  unfold queueRead
  by_cases hbig : HostOrder.big = true
  · rw [if_pos hbig] at hdata ⊢
    rw [nlaGetU16, (seg_append.1 hdata).1.getU16]
    rfl
  · rw [if_neg hbig] at hdata ⊢
    rw [nlaGetU16, (seg_append.1 hdata).1.getU16, Nat.mod_eq_of_lt hlt, BitVec.ofNat_toNat, BitVec.setWidth_eq]

/-- what is left of the data of an action: not the structure, and of the queue mapping what can be read -/
def RtnlSkbedit.left (u d : RtnlSkbedit) : RtnlSkbedit :=
  { u with sParm := d.sParm, sQueueMapping := u.sQueueMapping.map queueRead }

/-- **`skbedit`**: what is read of what was written -/
theorem skbedit_echo (u d : RtnlSkbedit) : skbeditMsgParser (some (encLeaves (leavesOf (skbeditFields u)))) d = .ok (u.left d) := by
  obtain ⟨tb, hparse, hshown⟩ := (skbedit_wire u).parsed (by decide : TCA_SKBEDIT_MAX < 16384)
  obtain ⟨pos, hpos, -⟩ := shown_some (hshown TCA_SKBEDIT_PARMS (some (genBytes u.sParm)) (by simp [skbeditFields]) (by decide))
  have hmark := hshown TCA_SKBEDIT_MARK (u.sMark.map fun v => u32Bytes v.toNat) (by simp [skbeditFields]) (by decide)
  have hprio := hshown TCA_SKBEDIT_PRIORITY (u.sPrio.map fun v => u32Bytes v.toNat) (by simp [skbeditFields]) (by decide)
  have hqueue := hshown TCA_SKBEDIT_QUEUE_MAPPING (u.sQueueMapping.map fun v => u32Bytes v.toNat) (by simp [skbeditFields])
    (by decide)
  unfold skbeditMsgParser
  rw [hparse]
  dsimp only
  have hread : (tb TCA_SKBEDIT_QUEUE_MAPPING).map (nlaGetU16 _) = u.sQueueMapping.map queueRead :=
    hqueue.map fun _ _ _ _ hat => at_queue hat
  rw [if_neg (lt_irrefl (0 : ℤ)), hpos, Option.elim_some, hmark.u32, hprio.u32, hread]
  rfl

def skbeditOps : ActOps where
  toKind := skbeditKind
  Data := RtnlSkbedit
  fresh := ⟨zeroGen, none, none, none⟩
  toMsgFill _ u := skbeditMsgFill u
  toMsgParser opts d := (skbeditMsgParser opts d).map fun u => (u, none)
  leaves _ u := some (leavesOf (skbeditFields u))
  options _ u _ h := Option.some.inj h ▸ (skbedit_wire u).options
  writes _ u _ h := Option.some.inj h ▸ puts_putAll _ (skbedit_wire u).sends.wf 0
  refuses _ _ h := absurd h (Option.some_ne_none _)
  reads _ u _ h := ⟨(u.left ⟨zeroGen, none, none, none⟩, none), by rw [← Option.some.inj h, skbedit_echo]; rfl⟩

theorem skbeditOps_reads (opts : Option (List UInt8)) (d : RtnlSkbedit) :
    skbeditOps.toMsgParser opts d = (skbeditMsgParser opts d).map fun u => (u, none) := rfl

/-! ## `vlan` -/

def vlanPolicy : ℕ → NlaPolicy := fun t =>
  if t = TCA_VLAN_PARMS then ⟨.unspec, 24, 0⟩
  else if t = TCA_VLAN_PUSH_VLAN_ID then ⟨.u16, 0, 0⟩
  else if t = TCA_VLAN_PUSH_VLAN_PROTOCOL then ⟨.u16, 0, 0⟩
  else if t = TCA_VLAN_PUSH_VLAN_PRIORITY then ⟨.u8, 0, 0⟩
  else ⟨.unspec, 0, 0⟩

def vlanAt (buf : Mem) (pos : ℕ) : TcGen × BitVec 32 := (genAt buf pos, u32At buf (pos + 20))

theorem seg_vlanAt {buf : Mem} {pos : ℕ} {v : RtnlVlan} (h : Seg buf pos (vlanBytes v)) : vlanAt buf pos = (v.gen, v.vAction) := by
  obtain ⟨hgen, haction⟩ := seg_append.1 h
  rw [genBytes_length] at haction
  rw [vlanAt, seg_genAt hgen, seg_u32At haction]

theorem vlanBytes_length (v : RtnlVlan) : (vlanBytes v).length = 24 := by simp [vlanBytes]

/-- what is written behind the structure -/
def vlanTag (v : RtnlVlan) : FieldList :=
  [(TCA_VLAN_PUSH_VLAN_ID, v.vVid.map fun x => u16Bytes x.toNat),
    (TCA_VLAN_PUSH_VLAN_PROTOCOL, v.vProto.map fun x => u16Bytes x.toNat),
    (TCA_VLAN_PUSH_VLAN_PRIORITY, v.vPrio.map fun x => [UInt8.ofBitVec x])]

def vlanFields (v : RtnlVlan) : FieldList := (TCA_VLAN_PARMS, some (vlanBytes v)) :: vlanTag v

/-- `vlan_msg_fill` -/
def vlanMsgFill (v : RtnlVlan) (msg : NlMsg) : NlMsg × ℤ :=
  if v.hasMode = false then (msg, -NLE_MISSING_ATTR)
  else thenPass (putAll (-NLE_NOMEM) [⟨TCA_VLAN_PARMS, vlanBytes v⟩] msg) fun msg =>
    -- vid is required for PUSH & MODIFY modes
    if v.vAction ≠ TCA_VLAN_ACT_POP ∧ v.vVid = none then (msg, -NLE_MISSING_ATTR)
    else putAll (-NLE_NOMEM) (leavesOf (vlanTag v)) msg

/-- `vlan_msg_parser` -/
def vlanMsgParser (opts : Option (List UInt8)) (_ : RtnlVlan) : Except ℤ RtnlVlan :=
  let r := tcaParse TCA_VLAN_MAX opts vlanPolicy
  let buf := optBuf opts
  if r.1 < 0 then .error r.1
  else (r.2 TCA_VLAN_PARMS).elim (.error (-NLE_MISSING_ATTR)) fun a =>
    .ok ⟨(vlanAt buf (nlaData a)).1, (vlanAt buf (nlaData a)).2, true, true, (r.2 TCA_VLAN_PUSH_VLAN_ID).map (nlaGetU16 buf),
      (r.2 TCA_VLAN_PUSH_VLAN_PROTOCOL).map (nlaGetU16 buf), (r.2 TCA_VLAN_PUSH_VLAN_PRIORITY).map (nlaGetU8 buf)⟩

/-- a mode is set, and a number where one is required -/
def RtnlVlan.Complete (v : RtnlVlan) : Prop := v.hasMode = true ∧ (v.vAction = TCA_VLAN_ACT_POP ∨ v.vVid ≠ none)

instance (v : RtnlVlan) : Decidable v.Complete := inferInstanceAs (Decidable (_ ∧ _))

theorem vlan_wire (v : RtnlVlan) : Wire vlanPolicy (vlanFields v) where
  sends := Sendable.cons (by decide) (sends_parms rfl (by decide) (vlanBytes_length v)) (Sendable.cons (by decide)
    (sends_u16 rfl (fun _ => u16Bytes_length _) (by decide)) (Sendable.cons (by decide)
      (sends_u16 rfl (fun _ => u16Bytes_length _) (by decide)) (Sendable.cons (by decide) (sends_u8 rfl _) (Sendable.nil _))))
  distinct := show List.Nodup [2, 3, 4, 6] by decide
  first := first_leaf _ _ _
  short := (field_le (some_le (vlanBytes_length v)) (field_le (map_le fun _ => u16Bytes_length _)
    (field_le (map_le fun _ => u16Bytes_length _) (field_le (map_le (n := 1) fun _ => rfl) (k := 0) (Nat.zero_le _))))).trans (by decide)

/-- **`vlan`**: read as it was written; the flag of the action is always set -/
theorem vlan_echo (v d : RtnlVlan) (hmode : v.hasMode = true) :
    vlanMsgParser (some (encLeaves (leavesOf (vlanFields v)))) d = .ok { v with hasAct := true } := by
  obtain ⟨tb, hparse, hshown⟩ := (vlan_wire v).parsed (by decide : TCA_VLAN_MAX < 16384)
  obtain ⟨pos, hpos, hseg⟩ := shown_some (hshown TCA_VLAN_PARMS (some (vlanBytes v)) (by simp [vlanFields]) (by decide))
  have hvid := hshown TCA_VLAN_PUSH_VLAN_ID (v.vVid.map fun x => u16Bytes x.toNat) (by simp [vlanFields, vlanTag]) (by decide)
  have hproto := hshown TCA_VLAN_PUSH_VLAN_PROTOCOL (v.vProto.map fun x => u16Bytes x.toNat) (by simp [vlanFields, vlanTag])
    (by decide)
  have hprio := hshown TCA_VLAN_PUSH_VLAN_PRIORITY (v.vPrio.map fun x => [UInt8.ofBitVec x]) (by simp [vlanFields, vlanTag])
    (by decide)
  unfold vlanMsgParser
  rw [hparse]
  dsimp only
  rw [if_neg (lt_irrefl (0 : ℤ)), hpos, Option.elim_some, seg_vlanAt hseg, hvid.u16, hproto.u16, hprio.u8, ← hmode]

theorem vlan_puts {v : RtnlVlan} (h : v.Complete) : Puts (vlanMsgFill v) (leavesOf (vlanFields v)) 0 := by
  obtain ⟨hmode, hvid⟩ := h
  have hwf := (vlan_wire v).sends.wf
  have hfields : leavesOf (vlanFields v) = [⟨TCA_VLAN_PARMS, vlanBytes v⟩] ++ leavesOf (vlanTag v) := leavesOf_cons _ _ _
  rw [hfields] at hwf ⊢
  have hparms := puts_putAll (-NLE_NOMEM) (fun l hl => hwf l (List.mem_append_left _ hl)) 0
  have htag := puts_putAll (-NLE_NOMEM) (fun l hl => hwf l (List.mem_append_right _ hl)) 0
  have hfill : vlanMsgFill v = fun msg => thenPass (putAll (-NLE_NOMEM) [⟨TCA_VLAN_PARMS, vlanBytes v⟩] msg)
      (putAll (-NLE_NOMEM) (leavesOf (vlanTag v))) := by
    funext msg
    unfold vlanMsgFill
    rw [if_neg (by rw [hmode]; exact Bool.true_eq_false_eq_False.elim)]
    refine congrArg _ (funext fun msg => if_neg ?_)
    rintro ⟨hpop, hnone⟩
    exact hvid.elim hpop fun hsome => hsome hnone
  rw [hfill]
  exact hparms.pass htag

theorem vlan_refuses {v : RtnlVlan} (h : ¬ v.Complete) : Refuses (vlanMsgFill v) := by
  by_cases hmode : v.hasMode = false
  · intro m
    rw [vlanMsgFill, if_pos hmode]
    exact (by decide : -NLE_MISSING_ATTR < 0)
  · have hfill : vlanMsgFill v = fun msg => thenPass (putAll (-NLE_NOMEM) [⟨TCA_VLAN_PARMS, vlanBytes v⟩] msg)
        fun msg => (msg, -NLE_MISSING_ATTR) := by
      funext msg
      unfold vlanMsgFill
      rw [if_neg hmode]
      refine congrArg _ (funext fun msg => if_pos ?_)
      by_contra hvid
      rw [not_and_or, not_not] at hvid
      exact h ⟨Bool.eq_true_of_not_eq_false hmode, hvid⟩
    rw [hfill]
    exact Refuses.after (fun m => (by decide : -NLE_MISSING_ATTR < 0)) _

/-- what is written, if it can be -/
def vlanLeaves (v : RtnlVlan) : Option (List Leaf) := if v.Complete then some (leavesOf (vlanFields v)) else none

theorem vlanLeaves_some {v : RtnlVlan} {ls : List Leaf} (h : vlanLeaves v = some ls) :
    v.Complete ∧ leavesOf (vlanFields v) = ls := by
  unfold vlanLeaves at h
  split_ifs at h with hcomplete
  exact ⟨hcomplete, Option.some.inj h⟩

def vlanOps : ActOps where
  toKind := vlanKind
  Data := RtnlVlan
  fresh := ⟨zeroGen, 0, false, false, none, none, none⟩
  toMsgFill _ v := vlanMsgFill v
  toMsgParser opts d := (vlanMsgParser opts d).map fun v => (v, none)
  leaves _ v := vlanLeaves v
  options _ v _ h := (vlanLeaves_some h).2 ▸ (vlan_wire v).options
  writes _ v _ h := (vlanLeaves_some h).2 ▸ vlan_puts (vlanLeaves_some h).1
  refuses _ v h := vlan_refuses fun hcomplete => Option.some_ne_none _ ((if_pos hcomplete).symm.trans h)
  reads _ v _ h := ⟨({ v with hasAct := true }, none), by
    rw [← (vlanLeaves_some h).2, vlan_echo v _ (vlanLeaves_some h).1.1]
    rfl⟩

theorem vlanOps_reads (opts : Option (List UInt8)) (d : RtnlVlan) :
    vlanOps.toMsgParser opts d = (vlanMsgParser opts d).map fun v => (v, none) := rfl

/-- the modules -/
def kinds : List ActOps := [gactOps, mirredOps, skbeditOps, vlanOps]

/-! ## What was read of a list -/

variable {modules : List ActOps}

/-- what the module makes of options -/
def dataOf (ops : Option ActOps) (opts : Option (List UInt8)) :
    Except ℤ (Option ((ops : ActOps) × ops.Data) × Option (BitVec 32)) := (parseData ops opts).map Subtype.val

/-- the data and the index of an action are what its module made of its options -/
def FromOpts (act : Act modules) : Prop :=
  dataOf (rtnlTcLookupOps modules (act.kind.getD [])) act.opts = .ok (act.data, act.index)

theorem parsedAct_fromOpts {kind : List UInt8} {hkind : IsStr kind ∧ kind.length < TCKINDSIZ} {opts : Option (List UInt8)}
    {act : Act modules} (h : parsedAct kind hkind opts = .ok act) : FromOpts act := by
  unfold parsedAct at h
  cases hdata : parseData (rtnlTcLookupOps modules kind) opts with
  | error err =>
    rw [hdata] at h
    cases h
  | ok r =>
    rw [hdata] at h
    cases h
    rw [FromOpts, Option.getD_some, dataOf, hdata]
    rfl

theorem append_fromOpts {head new acts : List (Act modules)} (h : rtnlActAppend head new = .ok acts)
    (hhead : ∀ act ∈ head, FromOpts act) (hnew : ∀ act ∈ new, FromOpts act) : ∀ act ∈ acts, FromOpts act := by
  unfold rtnlActAppend at h
  split_ifs at h with hnil hfull
  · cases h
    exact hnew
  · cases h
    exact fun act hact => (List.mem_append.1 hact).elim (hhead act) (hnew act)

theorem parseIndex_fromOpts {buf : Mem} {nla : Index} {head acts : List (Act modules)} {i : ℕ}
    (h : parseIndex buf nla head i = .ok acts) (hhead : ∀ act ∈ head, FromOpts act) : ∀ act ∈ acts, FromOpts act := by
  unfold parseIndex at h
  cases hi : nla i with
  | none =>
    rw [hi] at h
    cases h
    exact hhead
  | some a =>
    rw [hi] at h
    dsimp only at h
    unfold parseAct at h
    dsimp only at h
    split_ifs at h with herr
    cases hkind : (nlaParseNested buf TCA_ACT_MAX a none).2 TCA_ACT_KIND with
    | none =>
      rw [hkind] at h
      cases h
    | some k =>
      rw [hkind] at h
      dsimp only at h
      cases hact : (parsedAct _ (kind_fits buf k)
          (((nlaParseNested buf TCA_ACT_MAX a none).2 TCA_ACT_OPTIONS).map (nlaBytes buf)) : Except ℤ (Act modules)) with
      | error err =>
        rw [hact] at h
        cases h
      | ok act =>
        rw [hact] at h
        refine append_fromOpts h hhead fun act' hact' => ?_
        rw [List.mem_singleton.1 hact']
        exact parsedAct_fromOpts hact

/-- **Every action that was read** has the data that its module makes of its options. -/
theorem parsed_of_parse {buf : Mem} {head got : List (Act modules)} {tb : ℕ} (h : rtnlActParse buf head tb = .ok got)
    (hhead : ∀ act ∈ head, FromOpts act) : ∀ act ∈ got, FromOpts act := by
  unfold rtnlActParse at h
  dsimp only at h
  split_ifs at h with herr
  revert h
  generalize List.range TCA_ACT_MAX_PRIO = is
  intro h
  induction is generalizing head with
  | nil =>
    cases h
    exact hhead
  | cons i is ih =>
    rw [List.foldlM_cons] at h
    cases hstep : parseIndex buf _ head i with
    | error err =>
      rw [hstep] at h
      cases h
    | ok acts =>
      rw [hstep] at h
      exact ih (parseIndex_fromOpts hstep hhead) h

theorem readBack_fromOpts {old msg : NlMsg} {got : List (Act modules)} (h : readBack old msg = .ok got) :
    ∀ act ∈ got, FromOpts act := by
  unfold readBack at h
  split_ifs at h with hlen
  · cases h
    exact fun act hact => absurd hact List.not_mem_nil
  · exact parsed_of_parse h fun act hact => absurd hact List.not_mem_nil

/-- the kind of an action, its data and its index -/
def told (act : Act modules) : Option (List UInt8) × Option ((ops : ActOps) × ops.Data) × Option (BitVec 32) :=
  (act.kind, act.data, act.index)

/-- what actions that were read have is decided by what the message says of them -/
theorem told_of_heard {I : Type} {f g : I → Act modules} (hkind : ∀ i, (g i).kind = (f i).kind)
    (hecho : ∀ i, Writable (f i) → dataOf (rtnlTcLookupOps modules ((f i).kind.getD [])) (optionBytes (f i)) =
      .ok ((g i).data, (g i).index)) {items : List I} (hwrite : ∀ i ∈ items, Writable (f i)) {got : List (Act modules)}
    (hgot : ∀ act ∈ got, FromOpts act) (h : got.map heard = (items.map f).map said) :
    got.map told = items.map fun i => told (g i) := by
  induction items generalizing got with
  | nil =>
    obtain rfl : got = [] := List.map_eq_nil_iff.1 h
    rfl
  | cons i items ih =>
    obtain ⟨act, rest, rfl, hact, hrest⟩ := List.map_eq_cons_iff.1 h
    have hfrom := hgot act List.mem_cons_self
    have hopts : act.opts = optionBytes (f i) := congrArg Prod.snd hact
    have hk : act.kind = (f i).kind := congrArg Prod.fst hact
    rw [FromOpts, hk, hopts, hecho i (hwrite i List.mem_cons_self)] at hfrom
    have htail := ih (fun j hj => hwrite j (List.mem_cons_of_mem _ hj)) (fun a ha => hgot a (List.mem_cons_of_mem _ ha)) hrest
    obtain ⟨hdata, hindex⟩ := Prod.mk.inj (Except.ok.inj hfrom)
    rw [List.map_cons, List.map_cons, htail, told, told, hkind i, hk, hdata, hindex]

/-! ## Actions of these kinds -/

/-- an action of one of these kinds, with its index -/
inductive Item where
  | gact (index : Option (BitVec 32)) (u : TcGen)
  | mirred (index : Option (BitVec 32)) (u : TcMirred)
  | skbedit (index : Option (BitVec 32)) (u : RtnlSkbedit)
  | vlan (index : Option (BitVec 32)) (v : RtnlVlan)
deriving DecidableEq

omit [HostOrder] in
theorem gact_isKind : IsStr gactKind ∧ gactKind.length < TCKINDSIZ := ⟨isStr_of_all rfl, by decide⟩

theorem gact_known : rtnlTcLookupOps kinds gactKind = some gactOps := rfl

omit [HostOrder] in
theorem mirred_isKind : IsStr mirredKind ∧ mirredKind.length < TCKINDSIZ := ⟨isStr_of_all rfl, by decide⟩

theorem mirred_known : rtnlTcLookupOps kinds mirredKind = some mirredOps := rfl

omit [HostOrder] in
theorem skbedit_isKind : IsStr skbeditKind ∧ skbeditKind.length < TCKINDSIZ := ⟨isStr_of_all rfl, by decide⟩

theorem skbedit_known : rtnlTcLookupOps kinds skbeditKind = some skbeditOps := rfl

omit [HostOrder] in
theorem vlan_isKind : IsStr vlanKind ∧ vlanKind.length < TCKINDSIZ := ⟨isStr_of_all rfl, by decide⟩

theorem vlan_known : rtnlTcLookupOps kinds vlanKind = some vlanOps := rfl

/-- an action with data of a module that is known by its kind -/
def actOf (ops : ActOps) (hknown : rtnlTcLookupOps kinds ops.toKind = some ops) (hkind : IsStr ops.toKind ∧ ops.toKind.length < TCKINDSIZ)
    (index : Option (BitVec 32)) (d : ops.Data) : Act kinds where
  kind := some ops.toKind
  isKind _ hk := Option.some.inj hk ▸ hkind
  index := index
  opts := none
  data := some ⟨ops, d⟩
  known := hknown.symm

def Item.act : Item → Act kinds
  | .gact index u => actOf gactOps gact_known gact_isKind index u
  | .mirred index u => actOf mirredOps mirred_known mirred_isKind index u
  | .skbedit index u => actOf skbeditOps skbedit_known skbedit_isKind index u
  | .vlan index v => actOf vlanOps vlan_known vlan_isKind index v

/-- what an action comes back as -/
def Item.echo : Item → Item
  | .gact _ u => .gact none u
  | .mirred index u => .mirred (some (u.withIndex index).gen.index) (u.withIndex index)
  | .skbedit _ u => .skbedit none (u.left ⟨zeroGen, none, none, none⟩)
  | .vlan _ v => .vlan none { v with hasAct := true }

/-- the data that the module makes of the options it wrote -/
theorem actOf_echo {ops : ActOps} (hknown : rtnlTcLookupOps kinds ops.toKind = some ops)
    (hkind : IsStr ops.toKind ∧ ops.toKind.length < TCKINDSIZ) {index index' : Option (BitVec 32)} {d d' : ops.Data} {ls : List Leaf}
    (hls : ops.leaves index d = some ls) (h : ops.toMsgParser (some (encLeaves ls)) ops.fresh = .ok (d', index')) :
    dataOf (rtnlTcLookupOps kinds ((actOf ops hknown hkind index d).kind.getD [])) (optionBytes (actOf ops hknown hkind index d)) =
      .ok (some ⟨ops, d'⟩, index') := by
  have hopts : optionBytes (actOf ops hknown hkind index d) = some (encLeaves ls) := congrArg (Option.map encLeaves) hls
  have hlookup : rtnlTcLookupOps kinds ((actOf ops hknown hkind index d).kind.getD []) = some ops := hknown
  rw [hlookup, hopts]
  simp only [dataOf, parseData, h]
  rfl

theorem actOf_writable {ops : ActOps} (hknown : rtnlTcLookupOps kinds ops.toKind = some ops)
    (hkind : IsStr ops.toKind ∧ ops.toKind.length < TCKINDSIZ) {index : Option (BitVec 32)} {d : ops.Data} :
    Writable (actOf ops hknown hkind index d) ↔ (ops.leaves index d).isSome = true := by
  rw [Writable, content, Option.isSome_map]
  show ((ops.leaves index d).map _).isSome = true ↔ _
  rw [Option.isSome_map]

theorem item_echo (i : Item) (hwrite : Writable i.act) :
    dataOf (rtnlTcLookupOps kinds (i.act.kind.getD [])) (optionBytes i.act) = .ok (i.echo.act.data, i.echo.act.index) := by
  cases i with
  | gact index u =>
    refine actOf_echo gact_known gact_isKind rfl ?_
    exact (gactOps_reads _ _).trans (congrArg _ (gact_echo u _))
  | mirred index u =>
    refine actOf_echo mirred_known mirred_isKind rfl ?_
    exact (mirredOps_reads _ _).trans (mirred_echo (u.withIndex index) _)
  | skbedit index u =>
    refine actOf_echo skbedit_known skbedit_isKind rfl ?_
    exact (skbeditOps_reads _ _).trans (congrArg _ (skbedit_echo u _))
  | vlan index v =>
    obtain ⟨ls, hls⟩ := Option.isSome_iff_exists.1 ((actOf_writable vlan_known vlan_isKind).1 hwrite)
    obtain ⟨⟨hmode, -⟩, rfl⟩ := vlanLeaves_some hls
    refine actOf_echo vlan_known vlan_isKind hls ?_
    exact (vlanOps_reads _ _).trans (congrArg _ (vlan_echo v _ hmode))

/-- the actions that a module writes -/
def Item.Complete : Item → Prop
  | .gact _ _ => True
  | .mirred _ _ => True
  | .skbedit _ _ => True
  | .vlan _ v => v.Complete

theorem item_writable (i : Item) : Writable i.act ↔ i.Complete := by
  cases i with
  | gact index u => exact iff_of_true ((actOf_writable gact_known gact_isKind).2 rfl) trivial
  | mirred index u => exact iff_of_true ((actOf_writable mirred_known mirred_isKind).2 rfl) trivial
  | skbedit index u => exact iff_of_true ((actOf_writable skbedit_known skbedit_isKind).2 rfl) trivial
  | vlan index v =>
    refine (actOf_writable vlan_known vlan_isKind).trans ?_
    show (vlanLeaves v).isSome = true ↔ v.Complete
    unfold vlanLeaves
    split_ifs with hcomplete
    · exact iff_of_true rfl hcomplete
    · exact iff_of_false Bool.false_ne_true hcomplete

theorem item_kind (i : Item) : i.act.kind.isSome = true := by
  cases i <;> rfl

/-- **A list that was written**, read: each action as its module reads it. -/
theorem list_echoed {items : List Item} (hwrite : ∀ i ∈ items, i.Complete) (hlen : items.length < TCA_ACT_MAX_PRIO) (attrtype : ℤ)
    {m : NlMsg} (hm : Tidy m) (hroom : Room m (need (items.map Item.act))) :
    ∃ m' got, rtnlActFill attrtype (items.map Item.act) m = (m', 0) ∧ readBack m m' = .ok (got : List (Act kinds)) ∧
      got.map told = items.map fun i => told i.echo.act := by
  have hkind : ∀ act ∈ items.map Item.act, act.kind.isSome = true := by
    intro act hact
    obtain ⟨i, -, rfl⟩ := List.mem_map.1 hact
    exact item_kind i
  have hwritable : ∀ i ∈ items, Writable i.act := fun i hi => (item_writable i).2 (hwrite i hi)
  have hwritables : ∀ act ∈ items.map Item.act, Writable act := by
    intro act hact
    obtain ⟨i, hi, rfl⟩ := List.mem_map.1 hact
    exact hwritable i hi
  have hshort : (items.map Item.act).length < TCA_ACT_MAX_PRIO := by rwa [List.length_map]
  obtain ⟨m', got, hfill, hread, hheard⟩ := fill_then_heard hkind hwritables attrtype hm hroom
  rw [if_pos (need_short hshort), List.take_of_length_le (Nat.le_sub_one_of_lt hshort)] at hheard
  refine ⟨m', got, hfill, hread, ?_⟩
  refine told_of_heard (fun i => ?_) item_echo hwritable (readBack_fromOpts hread) hheard
  cases i <;> rfl

/-- what an action does: its kind and its data -/
def rule (act : Act modules) : Option (List UInt8) × Option ((ops : ActOps) × ops.Data) := (act.kind, act.data)

/-- what an action needs to come back as it was -/
def Item.Same : Item → Prop
  | .gact _ _ => True
  | .mirred index u => ∀ i ∈ index, i = u.gen.index
  | .skbedit _ u => u.sParm = zeroGen ∧ (HostOrder.big = true → ∀ q ∈ u.sQueueMapping, q = 0)
  | .vlan _ v => v.hasAct = true

theorem data_inj {ops : ActOps} {d d' : ops.Data} :
    some (⟨ops, d⟩ : (ops : ActOps) × ops.Data) = some ⟨ops, d'⟩ ↔ d = d' := by
  rw [Option.some.injEq, Sigma.mk.injEq]
  exact ⟨fun h => eq_of_heq h.2, fun h => ⟨rfl, heq_of_eq h⟩⟩

omit [HostOrder] in
theorem withIndex_same {u : TcMirred} {index : Option (BitVec 32)} : u.withIndex index = u ↔ ∀ i ∈ index, i = u.gen.index := by
  cases index with
  | none => exact iff_of_true rfl fun i hi => absurd hi (Option.not_mem_none i)
  | some i =>
    constructor
    · intro h j hj
      obtain rfl := Option.some.inj hj
      exact congrArg (fun u : TcMirred => u.gen.index) h
    · intro h
      rw [TcMirred.withIndex, Option.getD_some, h i rfl]

theorem queue_same {o : Option (BitVec 16)} : o.map queueRead = o ↔ (HostOrder.big = true → ∀ q ∈ o, q = 0) := by
  cases o with
  | none => exact iff_of_true rfl fun _ q hq => absurd hq (Option.not_mem_none q)
  | some q =>
    unfold queueRead
    rw [Option.map_some, Option.some.injEq]
    by_cases hbig : HostOrder.big = true
    · rw [if_pos hbig]
      constructor
      · rintro hq - q' hq'
        rw [← Option.some.inj hq', hq]
      · exact fun h => (h hbig q rfl).symm
    · rw [if_neg hbig]
      exact iff_of_true rfl fun h => absurd h hbig

theorem left_same {u : RtnlSkbedit} : u.left ⟨zeroGen, none, none, none⟩ = u ↔
    u.sParm = zeroGen ∧ (HostOrder.big = true → ∀ q ∈ u.sQueueMapping, q = 0) := by
  rw [← queue_same]
  constructor
  · intro h
    exact ⟨(congrArg RtnlSkbedit.sParm h).symm, congrArg RtnlSkbedit.sQueueMapping h⟩
  · rintro ⟨hparm, hqueue⟩
    unfold RtnlSkbedit.left
    rw [hqueue, ← hparm]

theorem echo_same (i : Item) : rule i.echo.act = rule i.act ↔ i.Same := by
  cases i with
  | gact index u => exact iff_of_true rfl trivial
  | mirred index u =>
    refine Iff.trans ?_ withIndex_same
    exact ⟨fun h => data_inj.1 (congrArg Prod.snd h), fun h => Prod.ext rfl (data_inj.2 h)⟩
  | skbedit index u =>
    refine Iff.trans ?_ left_same
    exact ⟨fun h => data_inj.1 (congrArg Prod.snd h), fun h => Prod.ext rfl (data_inj.2 h)⟩
  | vlan index v =>
    constructor
    · intro h
      have hv : ({ v with hasAct := true } : RtnlVlan) = v := data_inj.1 (congrArg Prod.snd h)
      exact (congrArg RtnlVlan.hasAct hv).symm
    · intro h
      refine Prod.ext rfl (data_inj.2 ?_)
      show ({ v with hasAct := true } : RtnlVlan) = v
      rw [← show v.hasAct = true from h]

/-- the list can be written where there is room, and comes back with its kinds and its data -/
structure Kept (items : List Item) (attrtype : ℤ) : Prop where
  finite : ∃ m, Tidy m ∧ Room m (need (items.map Item.act))
  comes : ∀ m, Tidy m → Room m (need (items.map Item.act)) → ∃ m' got, rtnlActFill attrtype (items.map Item.act) m = (m', 0) ∧
    readBack m m' = .ok (got : List (Act kinds)) ∧ got.map rule = (items.map Item.act).map rule

theorem Kept.survives {items : List Item} {attrtype : ℤ} (h : Kept items attrtype) : Survives (items.map Item.act) attrtype where
  finite := h.finite
  comes m hm hroom := by
    obtain ⟨m', got, hfill, hread, hrule⟩ := h.comes m hm hroom
    refine ⟨m', got, hfill, hread, ?_⟩
    have hfst := congrArg (List.map Prod.fst) hrule
    rwa [List.map_map, List.map_map] at hfst

/-- **Lists of `gact`, `mirred`, `skbedit` and `vlan`** come back from a message with all their kinds and data if and only if
there are fewer than 32 actions, each can be written, and none of them is changed by its own module: the index of a `mirred`
action is that of its structure, an `skbedit` action has nothing in its structure, and where the host is big-endian no queue
other than the first, and the flag of the action is set for `vlan`. -/
theorem actions_kept_iff (items : List Item) (attrtype : ℤ) :
    Kept items attrtype ↔ items.length < TCA_ACT_MAX_PRIO ∧ (∀ i ∈ items, i.Complete) ∧ ∀ i ∈ items, i.Same := by
  have hkinds : ∀ act ∈ items.map Item.act, act.kind.isSome = true := by
    intro act hact
    obtain ⟨i, -, rfl⟩ := List.mem_map.1 hact
    exact item_kind i
  have hrule : ∀ {got : List (Act kinds)}, (got.map told = items.map fun i => told i.echo.act) →
      got.map rule = items.map fun i => rule i.echo.act := by
    intro got h
    have hrule := congrArg (List.map fun t => (t.1, t.2.1)) h
    rwa [List.map_map, List.map_map] at hrule
  constructor
  · intro h
    obtain ⟨hlen, hwritable⟩ := h.survives.bounded hkinds
    rw [List.length_map] at hlen
    have hcomplete : ∀ i ∈ items, i.Complete := fun i hi => (item_writable i).1 (hwritable i.act (List.mem_map_of_mem hi))
    refine ⟨hlen, hcomplete, fun i hi => ?_⟩
    obtain ⟨m, hm, hroom⟩ := h.finite
    obtain ⟨m', got, hfill, hread, hkept⟩ := h.comes m hm hroom
    obtain ⟨m1, got1, hfill1, hread1, htold⟩ := list_echoed hcomplete hlen attrtype hm hroom
    obtain rfl : m1 = m' := congrArg Prod.fst (hfill1.symm.trans hfill)
    obtain rfl : got1 = got := Except.ok.inj (hread1.symm.trans hread)
    have hsame := (hrule htold).symm.trans hkept
    rw [List.map_map] at hsame
    exact (echo_same i).1 (List.map_inj_left.1 hsame i hi)
  · rintro ⟨hlen, hcomplete, hsame⟩
    have hshort : need (items.map Item.act) ≤ 65547 := need_short (by rwa [List.length_map])
    -- a message with room for any list of this length
    refine ⟨⟨⟨65600, 16, 0, 0, 0, 0, fun _ => 0, false⟩, ⟨rfl, by decide, by decide⟩, by dsimp only; omega, by dsimp only; omega⟩, ?_⟩
    intro m hm hroom
    obtain ⟨m', got, hfill, hread, htold⟩ := list_echoed hcomplete hlen attrtype hm hroom
    refine ⟨m', got, hfill, hread, (hrule htold).trans ?_⟩
    rw [List.map_map]
    exact List.map_congr_left fun i hi => (echo_same i).2 (hsame i hi)

end

end Libnl.ActKinds
