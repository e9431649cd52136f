/-
VLAN links (`lib/route/link/vlan.c`): their data, what callers set in it, and clones.

The egress map is an array that grows as mappings are added. A clone gets an array of its own, with room for just the
mappings there are; but only if there are any. Otherwise it takes over the pointer of the source with all other fields, so
the two have one array between them, and each writes its mappings into it.

- `setEgress_spec`: what adding a mapping does, or where it fails.
- `both_run`: two links with arrays of their own do not disturb each other, whatever the order of the calls.
- `vlan_clones_iff`: so a clone is independent iff the source has mappings, or no array.
-/
import Mathlib.Tactic
import Libnl.Core.Arrays
import Libnl.Message.Msg

namespace Libnl.Vlan

open Msg Arrays

/-! ## Data -/

def VLAN_HAS_ID : BitVec 32 := 1 <<< 0
def VLAN_HAS_FLAGS : BitVec 32 := 1 <<< 1
def VLAN_HAS_INGRESS_QOS : BitVec 32 := 1 <<< 2
def VLAN_HAS_EGRESS_QOS : BitVec 32 := 1 <<< 3
def VLAN_HAS_PROTOCOL : BitVec 32 := 1 <<< 4

def VLAN_PRIO_MAX : ℕ := 7

structure VlanMap where
  vmFrom : BitVec 32
  vmTo : BitVec 32
deriving DecidableEq

/-- what `calloc` leaves in an entry -/
def VlanMap.zero : VlanMap := ⟨0, 0⟩

abbrev VlanHeap := Heap VlanMap

structure VlanInfo where
  viVlanId : BitVec 16
  viProtocol : BitVec 16
  viIngressQosMask : BitVec 8
  viFlags : BitVec 32
  viFlagsMask : BitVec 32
  viIngressQos : Fin (VLAN_PRIO_MAX + 1) → BitVec 32
  viNegress : ℕ
  viEgressSize : ℕ
  viEgressQos : Option ℕ
  viMask : BitVec 32
deriving DecidableEq

def VlanInfo.zero : VlanInfo := ⟨0, 0, 0, 0, 0, fun _ => 0, 0, 0, none, 0⟩

/-- whether an attribute is there -/
def VlanInfo.has (vi : VlanInfo) (bit : BitVec 32) : Bool := decide (vi.viMask &&& bit ≠ 0)

/-- `vlan_alloc`: info that is there is cleared. Whether there is memory for the array is not looked at. -/
def vlanAlloc (h : VlanHeap) (lInfo : Option VlanInfo) : Except ℤ (VlanHeap × VlanInfo) :=
  match lInfo with
  | some vi => .ok (h.free vi.viEgressQos, VlanInfo.zero)
  | none =>
    let r := h.ask
    if r.1 then
      let a := r.2.alloc (List.replicate 32 VlanMap.zero)
      .ok (a.2, { VlanInfo.zero with viEgressSize := 32, viEgressQos := a.1 })
    else .error (-NLE_NOMEM)

/-! ## Setting -/

def rtnlLinkVlanSetId (vi : VlanInfo) (id : BitVec 16) : VlanInfo :=
  { vi with viVlanId := id, viMask := vi.viMask ||| VLAN_HAS_ID }

def rtnlLinkVlanSetProtocol (vi : VlanInfo) (protocol : BitVec 16) : VlanInfo :=
  { vi with viProtocol := protocol, viMask := vi.viMask ||| VLAN_HAS_PROTOCOL }

def rtnlLinkVlanSetFlags (vi : VlanInfo) (flags : BitVec 32) : VlanInfo :=
  { vi with
    viFlagsMask := vi.viFlagsMask ||| flags, viFlags := vi.viFlags ||| flags, viMask := vi.viMask ||| VLAN_HAS_FLAGS }

def rtnlLinkVlanUnsetFlags (vi : VlanInfo) (flags : BitVec 32) : VlanInfo :=
  { vi with
    viFlagsMask := vi.viFlagsMask ||| flags, viFlags := vi.viFlags &&& ~~~flags, viMask := vi.viMask ||| VLAN_HAS_FLAGS }

/-- the mapping of a priority -/
def VlanInfo.setIngress (vi : VlanInfo) (from' : Fin (VLAN_PRIO_MAX + 1)) (to' : BitVec 32) : VlanInfo :=
  { vi with
    viIngressQosMask := vi.viIngressQosMask ||| BitVec.twoPow 8 from'
    viIngressQos := Function.update vi.viIngressQos from' to' }

def rtnlLinkVlanSetIngressMap (vi : VlanInfo) (from' : ℤ) (to' : BitVec 32) : VlanInfo × ℤ :=
  if h : from' < 0 ∨ VLAN_PRIO_MAX < from' then (vi, -NLE_INVAL)
  else
    let vi := vi.setIngress ⟨from'.toNat, by have hle := not_or.1 h; omega⟩ to'
    ({ vi with viMask := vi.viMask ||| VLAN_HAS_INGRESS_QOS }, 0)

/-- the last lines of `rtnl_link_vlan_set_egress_map` -/
def addEgress (h : VlanHeap) (vi : VlanInfo) (x : VlanMap) : Option (VlanHeap × VlanInfo × ℤ) :=
  (h.write vi.viEgressQos vi.viNegress x).map fun h =>
    (h, { vi with viNegress := vi.viNegress + 1, viMask := vi.viMask ||| VLAN_HAS_EGRESS_QOS }, 0)

/-- `rtnl_link_vlan_set_egress_map`; `none` where it writes outside the array. Sizes are of 32 bits, bytes of 64. -/
def rtnlLinkVlanSetEgressMap (h : VlanHeap) (vi : VlanInfo) (from' : BitVec 32) (to' : ℤ) :
    Option (VlanHeap × VlanInfo × ℤ) :=
  if to' < 0 ∨ VLAN_PRIO_MAX < to' then some (h, vi, -NLE_INVAL)
  else if vi.viEgressSize ≤ vi.viNegress then
    let newSize := (vi.viEgressSize + 1 + vi.viEgressSize / 2) % 2 ^ 32
    let bytes := newSize * 8 % 2 ^ 64
    if newSize < vi.viEgressSize then some (h, vi, -NLE_NOMEM)
    else if bytes / 8 ≠ newSize then some (h, vi, -NLE_NOMEM)
    else
      (h.resize vi.viEgressQos newSize VlanMap.zero).bind fun r =>
        match r.1 with
        | none => some (r.2, vi, -NLE_NOMEM)
        | some ptr => addEgress r.2 { vi with viEgressQos := some ptr, viEgressSize := newSize } ⟨from', BitVec.ofInt 32 to'⟩
  else addEgress h vi ⟨from', BitVec.ofInt 32 to'⟩

/-- `rtnl_link_vlan_get_egress_map`: the entries it gives the number and the address of -/
def rtnlLinkVlanGetEgressMap (h : VlanHeap) (vi : VlanInfo) : List VlanMap :=
  if vi.has VLAN_HAS_EGRESS_QOS then (h.entries vi.viEgressQos).take vi.viNegress else []

/-! ## Clones -/

/-- `vlan_clone`; `rtnl_link_set_type` of the new link comes down to `vlan_alloc` -/
def vlanClone (h : VlanHeap) (vsrc : VlanInfo) : Except ℤ (VlanHeap × VlanInfo) :=
  match vlanAlloc h none with
  | .error err => .error err
  | .ok (h, _) =>
    if vsrc.viNegress ≠ 0 then
      -- `calloc`, and the copy of the entries that is made once the fields are copied
      match h.alloc ((h.entries vsrc.viEgressQos).take vsrc.viNegress) with
      | (none, _) => .error (-NLE_NOMEM)
      | (some p, h) => .ok (h, { vsrc with viEgressSize := vsrc.viNegress, viEgressQos := some p })
    else .ok (h, vsrc)

/-! ## Links that callers make -/

/-- a call of one of the setters -/
inductive Setter where
  | id (vlanId : BitVec 16)
  | protocol (proto : BitVec 16)
  | setFlags (flags : BitVec 32)
  | unsetFlags (flags : BitVec 32)
  | ingress (from' : ℤ) (to' : BitVec 32)
  | egress (from' : BitVec 32) (to' : ℤ)

/-- what it does to the link, whatever it returns -/
def Setter.call (h : VlanHeap) (vi : VlanInfo) : Setter → Option (VlanHeap × VlanInfo)
  | .id vlanId => some (h, rtnlLinkVlanSetId vi vlanId)
  | .protocol proto => some (h, rtnlLinkVlanSetProtocol vi proto)
  | .setFlags flags => some (h, rtnlLinkVlanSetFlags vi flags)
  | .unsetFlags flags => some (h, rtnlLinkVlanUnsetFlags vi flags)
  | .ingress from' to' => some (h, (rtnlLinkVlanSetIngressMap vi from' to').1)
  | .egress from' to' => (rtnlLinkVlanSetEgressMap h vi from' to').map fun r => (r.1, r.2.1)

def callAll (h : VlanHeap) (vi : VlanInfo) : List Setter → Option (VlanHeap × VlanInfo)
  | [] => some (h, vi)
  | c :: cs => (c.call h vi).bind fun r => callAll r.1 r.2 cs

/-! ## The egress map -/

/-- the link has these mappings, in an array that is large enough; the null pointer is an array without entries -/
structure Maps (h : VlanHeap) (vi : VlanInfo) (ms : List VlanMap) : Prop where
  count : vi.viNegress = ms.length
  room : vi.viNegress ≤ vi.viEgressSize
  word : vi.viEgressSize < 2 ^ 32
  array : ∃ xs, h.block vi.viEgressQos = some xs ∧ vi.viEgressSize ≤ xs.length ∧ xs.take ms.length = ms
  bit : ms ≠ [] → vi.has VLAN_HAS_EGRESS_QOS = true

theorem or_bit_ne_zero (m : BitVec 32) {bit : BitVec 32} (hbit : bit ≠ 0) : (m ||| bit) &&& bit ≠ 0 := by
  rw [BitVec.and_or_distrib_right, BitVec.and_self]
  exact fun h => hbit (BitVec.or_eq_zero_iff.1 h).2

/-- what is reported -/
theorem Maps.reported {h : VlanHeap} {vi : VlanInfo} {ms : List VlanMap} (hm : Maps h vi ms) :
    rtnlLinkVlanGetEgressMap h vi = ms := by
  rw [rtnlLinkVlanGetEgressMap]
  by_cases hnil : ms = []
  · rw [hm.count, hnil, List.length_nil, List.take_zero, ite_self]
  · obtain ⟨xs, hblock, -, htake⟩ := hm.array
    rw [if_pos (hm.bit hnil), Heap.entries, hblock, Option.getD_some, hm.count, htake]

/-- other arrays do not matter -/
theorem Maps.frame {h h' : VlanHeap} {vi : VlanInfo} {ms : List VlanMap} (hm : Maps h vi ms)
    (hblock : h'.block vi.viEgressQos = h.block vi.viEgressQos) : Maps h' vi ms :=
  ⟨hm.count, hm.room, hm.word, by rw [hblock]; exact hm.array, hm.bit⟩

/-- the mapping is written behind the others -/
theorem addEgress_spec {h : VlanHeap} (ht : h.Tidy) {vi : VlanInfo} {ms xs : List VlanMap} {p : ℕ}
    (hqos : vi.viEgressQos = some p) (hcell : h.cells p = some xs) (hcount : vi.viNegress = ms.length)
    (hlt : vi.viNegress < vi.viEgressSize) (hword : vi.viEgressSize < 2 ^ 32) (hsize : vi.viEgressSize ≤ xs.length) (htake : xs.take ms.length = ms)
    (x : VlanMap) :
    ∃ h' vi', addEgress h vi x = some (h', vi', 0) ∧ h'.Tidy ∧ Heap.Others h h' (some p) ∧ h'.next = h.next ∧
      vi'.viEgressQos = some p ∧ Maps h' vi' (ms ++ [x]) := by
  obtain ⟨h', hwrite, htidy, hothers, hcell', hnext⟩ := Heap.write_spec ht hcell (hlt.trans_le hsize) x
  refine ⟨h', { vi with viNegress := vi.viNegress + 1, viMask := vi.viMask ||| VLAN_HAS_EGRESS_QOS },
    by rw [addEgress, hqos, hwrite, Option.map_some], htidy, hothers, hnext, hqos, ?_⟩
  constructor
  case count =>
    rw [List.length_append, List.length_singleton, ← hcount]
  case room => exact hlt
  case word => exact hword
  case array =>
    refine ⟨xs.set vi.viNegress x, ?_, by rw [List.length_set]; exact hsize, ?_⟩
    · show h'.block vi.viEgressQos = _
      rw [hqos]
      exact hcell'
    · have hin : ms.length < (xs.set vi.viNegress x).length := by
        rw [List.length_set]
        omega
      rw [List.length_append, List.length_singleton, hcount, List.take_add_one, List.take_set_of_le le_rfl, htake,
        List.getElem?_set_self (by omega), Option.toList_some]
  case bit => exact fun _ => decide_eq_true (or_bit_ne_zero _ (by decide))

/-- the new size is larger, unless it does not fit -/
theorem grown {size : ℕ} (h : size ≤ (size + 1 + size / 2) % 2 ^ 32) : size < (size + 1 + size / 2) % 2 ^ 32 := by
  omega

/-- **Adding a mapping** puts it behind the others, in the same array or in a new one, or fails and changes nothing. -/
theorem setEgress_spec {h : VlanHeap} (ht : h.Tidy) {vi : VlanInfo} {ms : List VlanMap} (hm : Maps h vi ms)
    (from' : BitVec 32) (to' : ℤ) :
    ∃ h' vi' ret, rtnlLinkVlanSetEgressMap h vi from' to' = some (h', vi', ret) ∧ h'.Tidy ∧
      Heap.Others h h' vi.viEgressQos ∧
      (ret = 0 ∧ Maps h' vi' (ms ++ [⟨from', BitVec.ofInt 32 to'⟩]) ∧
          (vi'.viEgressQos = vi.viEgressQos ∨ vi'.viEgressQos = some h.next) ∨
        ret ≠ 0 ∧ vi' = vi ∧ Maps h' vi ms) := by
  obtain ⟨xs, hblock, hsize, htake⟩ := hm.array
  have hcount := hm.count
  have hroom := hm.room
  -- where nothing is changed
  have hfail : ∀ ret : ℤ, ret ≠ 0 → ∀ h', h'.Tidy → Heap.Others h h' none →
      rtnlLinkVlanSetEgressMap h vi from' to' = some (h', vi, ret) → ∃ h' vi' ret,
        rtnlLinkVlanSetEgressMap h vi from' to' = some (h', vi', ret) ∧ h'.Tidy ∧ Heap.Others h h' vi.viEgressQos ∧
        (ret = 0 ∧ Maps h' vi' (ms ++ [⟨from', BitVec.ofInt 32 to'⟩]) ∧
            (vi'.viEgressQos = vi.viEgressQos ∨ vi'.viEgressQos = some h.next) ∨
          ret ≠ 0 ∧ vi' = vi ∧ Maps h' vi ms) := by
    intro ret hret h' htidy hothers heq
    have hsame : h'.block vi.viEgressQos = h.block vi.viEgressQos :=
      hothers.block fun r hr => ⟨Heap.block_lt ht hblock hr, (Option.some_ne_none r).symm⟩
    exact ⟨h', vi, ret, heq, htidy, hothers.weaken _, Or.inr ⟨hret, rfl, hm.frame hsame⟩⟩
  rw [rtnlLinkVlanSetEgressMap] at hfail ⊢
  by_cases hprio : to' < 0 ∨ (VLAN_PRIO_MAX : ℤ) < to'
  · rw [if_pos hprio] at hfail ⊢
    exact hfail (-NLE_INVAL) (by decide) h ht (Heap.Others.refl h none) rfl
  · rw [if_neg hprio] at hfail ⊢
    by_cases hfull : vi.viEgressSize ≤ vi.viNegress
    · rw [if_pos hfull] at hfail ⊢
      dsimp only at hfail ⊢
      have hgrown : vi.viEgressSize ≤ (vi.viEgressSize + 1 + vi.viEgressSize / 2) % 2 ^ 32 → _ := grown
      have hsmall : (vi.viEgressSize + 1 + vi.viEgressSize / 2) % 2 ^ 32 < 2 ^ 32 := Nat.mod_lt _ (by decide)
      generalize (vi.viEgressSize + 1 + vi.viEgressSize / 2) % 2 ^ 32 = newSize at hfail hgrown hsmall ⊢
      by_cases hwrap : newSize < vi.viEgressSize
      · rw [if_pos hwrap] at hfail ⊢
        exact hfail (-NLE_NOMEM) (by decide) h ht (Heap.Others.refl h none) rfl
      · have hbytes : newSize * 8 % 2 ^ 64 / 8 = newSize := by omega
        rw [if_neg hwrap, if_neg (not_not.2 hbytes)] at hfail ⊢
        have hlt : vi.viEgressSize < newSize := hgrown (not_lt.1 hwrap)
        rcases Heap.resize_spec ht hblock newSize VlanMap.zero with
          ⟨h', hnone, htidy, hothers⟩ | ⟨h', hsome, htidy, hothers, hcell, hnext⟩
        · rw [hnone, Option.bind_some] at hfail ⊢
          exact hfail (-NLE_NOMEM) (by decide) h' htidy hothers rfl
        · rw [hsome, Option.bind_some]
          have hmsle : ms.length ≤ xs.length := by omega
          have htake' : (xs.take newSize ++ List.replicate (newSize - xs.length) VlanMap.zero).take ms.length = ms := by
            rw [List.take_append_of_le_length (by rw [List.length_take]; omega), List.take_take,
              min_eq_left (by omega), htake]
          obtain ⟨h2, vi', hadd, htidy2, hothers2, -, hqos', hmaps⟩ := @addEgress_spec h' htidy
            { vi with viEgressQos := some h.next, viEgressSize := newSize } ms _ h.next rfl hcell hcount
            (show vi.viNegress < newSize by omega) hsmall
            (by simp only [List.length_append, List.length_take, List.length_replicate]; omega) htake'
            ⟨from', BitVec.ofInt 32 to'⟩
          exact ⟨h2, vi', 0, hadd, htidy2, hothers.trans_new hothers2 le_rfl, Or.inl ⟨rfl, hmaps, Or.inr hqos'⟩⟩
    · rw [if_neg hfull]
      cases hqos : vi.viEgressQos with
      | none =>
        rw [hqos] at hblock
        obtain rfl : [] = xs := Option.some.inj hblock
        rw [List.length_nil] at hsize
        omega
      | some p =>
        rw [hqos] at hblock
        obtain ⟨h', vi', hadd, htidy, hothers, -, hqos', hmaps⟩ := addEgress_spec ht hqos hblock hcount (not_le.1 hfull)
          hm.word hsize htake ⟨from', BitVec.ofInt 32 to'⟩
        exact ⟨h', vi', 0, hadd, htidy, hothers, Or.inl ⟨rfl, hmaps, Or.inl hqos'⟩⟩

/-! ## Two links -/

inductive Who where
  | src | dst
deriving DecidableEq

/-- a call of `rtnl_link_vlan_set_egress_map` -/
structure Call where
  who : Who
  from' : BitVec 32
  to' : ℤ

structure Both where
  heap : VlanHeap
  src : VlanInfo
  dst : VlanInfo

def Both.step (s : Both) (c : Call) : Option (Both × ℤ) :=
  match c.who with
  | .src => (rtnlLinkVlanSetEgressMap s.heap s.src c.from' c.to').map fun r => (⟨r.1, r.2.1, s.dst⟩, r.2.2)
  | .dst => (rtnlLinkVlanSetEgressMap s.heap s.dst c.from' c.to').map fun r => (⟨r.1, s.src, r.2.1⟩, r.2.2)

/-- calls one after the other, and what they return -/
def Both.run (s : Both) : List Call → Option (Both × List (Call × ℤ))
  | [] => some (s, [])
  | c :: cs => (s.step c).bind fun r => (r.1.run cs).map fun t => (t.1, (c, r.2) :: t.2)

/-- the mappings one of the two was given in calls that succeeded -/
def given (who : Who) (rets : List (Call × ℤ)) : List VlanMap :=
  (rets.filter fun r => decide (r.1.who = who ∧ r.2 = 0)).map fun r => ⟨r.1.from', BitVec.ofInt 32 r.1.to'⟩

/-- the link reports these mappings, and they fit the array it has -/
structure Reports (h : VlanHeap) (vi : VlanInfo) (ms : List VlanMap) : Prop where
  reported : rtnlLinkVlanGetEgressMap h vi = ms
  room : vi.viNegress ≤ vi.viEgressSize
  array : ∃ xs, h.block vi.viEgressQos = some xs ∧ vi.viEgressSize ≤ xs.length

/-- each of the two reports its mappings, and has an array of its own -/
structure Apart (s : Both) (ms ns : List VlanMap) : Prop where
  src : Reports s.heap s.src ms
  dst : Reports s.heap s.dst ns
  own : ∀ p ∈ s.src.viEgressQos, p ∉ s.dst.viEgressQos

/-- whatever is called on the two, each has the mappings it began with, and those it was given -/
def Independent (s : Both) (ms : List VlanMap) : Prop :=
  ∀ calls, ∃ s' rets, s.run calls = some (s', rets) ∧ Apart s' (ms ++ given .src rets) (ms ++ given .dst rets)

/-- the invariant behind that -/
structure Both.Inv (s : Both) (ms ns : List VlanMap) : Prop where
  tidy : s.heap.Tidy
  src : Maps s.heap s.src ms
  dst : Maps s.heap s.dst ns
  own : ∀ p ∈ s.src.viEgressQos, p ∉ s.dst.viEgressQos

theorem Maps.reports {h : VlanHeap} {vi : VlanInfo} {ms : List VlanMap} (hm : Maps h vi ms) : Reports h vi ms := by
  obtain ⟨xs, hblock, hsize, -⟩ := hm.array
  exact ⟨hm.reported, hm.room, xs, hblock, hsize⟩

theorem Both.Inv.apart {s : Both} {ms ns : List VlanMap} (hi : s.Inv ms ns) : Apart s ms ns :=
  ⟨hi.src.reports, hi.dst.reports, hi.own⟩

/-- a call on one link leaves the other alone, and the arrays stay apart -/
theorem setEgress_apart {h : VlanHeap} (ht : h.Tidy) {vi other : VlanInfo} {ms ns : List VlanMap} (hm : Maps h vi ms)
    (hn : Maps h other ns) (hown : ∀ p ∈ vi.viEgressQos, p ∉ other.viEgressQos) (from' : BitVec 32) (to' : ℤ) :
    ∃ h' vi' ret, rtnlLinkVlanSetEgressMap h vi from' to' = some (h', vi', ret) ∧ h'.Tidy ∧
      Maps h' vi' (ms ++ if ret = 0 then [⟨from', BitVec.ofInt 32 to'⟩] else []) ∧ Maps h' other ns ∧
      ∀ p ∈ vi'.viEgressQos, p ∉ other.viEgressQos := by
  obtain ⟨h', vi', ret, heq, htidy, hothers, hresult⟩ := setEgress_spec ht hm from' to'
  obtain ⟨xs, hblock, -⟩ := hn.array
  have hlt : ∀ p ∈ other.viEgressQos, p < h.next := fun p hp => Heap.block_lt ht hblock hp
  have hother : Maps h' other ns := hn.frame (hothers.block fun p hp => ⟨hlt p hp, fun heq => hown p heq hp⟩)
  refine ⟨h', vi', ret, heq, htidy, ?_, hother, ?_⟩
  · rcases hresult with ⟨hret, hmaps, -⟩ | ⟨hret, rfl, hmaps⟩
    · rw [if_pos hret]
      exact hmaps
    · rw [if_neg hret, List.append_nil]
      exact hmaps
  · rcases hresult with ⟨-, -, hsame | hnew⟩ | ⟨-, rfl, -⟩
    · rw [hsame]
      exact hown
    · intro p hp hp'
      rw [hnew] at hp
      obtain rfl : h.next = p := Option.some.inj hp
      exact absurd (hlt _ hp') (lt_irrefl _)
    · exact hown

/-- one call -/
theorem Both.Inv.step {s : Both} {ms ns : List VlanMap} (hi : s.Inv ms ns) (c : Call) :
    ∃ s' ret, s.step c = some (s', ret) ∧ s'.Inv (ms ++ given .src [(c, ret)]) (ns ++ given .dst [(c, ret)]) := by
  obtain ⟨who, from', to'⟩ := c
  cases who with
  | src =>
    obtain ⟨h', vi', ret, heq, htidy, hsrc, hdst, hown⟩ := setEgress_apart hi.tidy hi.src hi.dst hi.own from' to'
    refine ⟨⟨h', vi', s.dst⟩, ret, by simp only [Both.step, heq, Option.map_some], htidy, ?_, ?_, hown⟩
    · by_cases hret : ret = 0
      · simpa [given, hret] using hsrc
      · simpa [given, hret] using hsrc
    · simpa [given] using hdst
  | dst =>
    have hown : ∀ p ∈ s.dst.viEgressQos, p ∉ s.src.viEgressQos := fun p hp hp' => hi.own p hp' hp
    obtain ⟨h', vi', ret, heq, htidy, hdst, hsrc, hown⟩ := setEgress_apart hi.tidy hi.dst hi.src hown from' to'
    refine ⟨⟨h', s.src, vi'⟩, ret, by simp only [Both.step, heq, Option.map_some], htidy, ?_, ?_,
      fun p hp hp' => hown p hp' hp⟩
    · simpa [given] using hsrc
    · by_cases hret : ret = 0
      · simpa [given, hret] using hdst
      · simpa [given, hret] using hdst

/-- **Two links with arrays of their own**: every run of calls gives each of them its own mappings. -/
theorem both_run {s : Both} {ms ns : List VlanMap} (hi : s.Inv ms ns) (calls : List Call) :
    ∃ s' rets, s.run calls = some (s', rets) ∧ s'.Inv (ms ++ given .src rets) (ns ++ given .dst rets) := by
  induction calls generalizing s ms ns with
  | nil => exact ⟨s, [], rfl, by simpa [given] using hi⟩
  | cons c calls ih =>
    obtain ⟨s1, ret, hstep, hi1⟩ := hi.step c
    obtain ⟨s2, rets, hrun, hi2⟩ := ih hi1
    refine ⟨s2, (c, ret) :: rets, ?_, ?_⟩
    · rw [Both.run, hstep, Option.bind_some]
      dsimp only
      rw [hrun, Option.map_some]
    · have happend : ∀ who, given who ((c, ret) :: rets) = given who [(c, ret)] ++ given who rets := by
        intro who
        rw [given, given, given, ← List.map_append, ← List.filter_append, List.singleton_append]
      rw [happend, happend, ← List.append_assoc, ← List.append_assoc]
      exact hi2

/-! ## Clones and their sources -/

/-- a link that can be there: its mappings fit its array. Without memory for the first array, it has none, but a size. -/
structure Source (h : VlanHeap) (vi : VlanInfo) : Prop where
  tidy : h.Tidy
  word : vi.viEgressSize < 2 ^ 32
  bit : vi.viNegress ≠ 0 → vi.has VLAN_HAS_EGRESS_QOS = true
  null : vi.viEgressQos = none → vi.viNegress = 0
  array : ∀ p ∈ vi.viEgressQos, ∃ xs, h.cells p = some xs ∧ vi.viNegress ≤ vi.viEgressSize ∧ vi.viEgressSize ≤ xs.length

/-- such a link has its mappings, unless there was no memory for the array -/
theorem Source.maps {h : VlanHeap} {vi : VlanInfo} (hs : Source h vi)
    (harray : vi.viEgressQos = none → vi.viEgressSize = 0) : Maps h vi ((h.entries vi.viEgressQos).take vi.viNegress) := by
  have hbit : (h.entries vi.viEgressQos).take vi.viNegress ≠ [] → vi.has VLAN_HAS_EGRESS_QOS = true := by
    intro hne
    refine hs.bit fun hzero => hne ?_
    rw [hzero, List.take_zero]
  cases hqos : vi.viEgressQos with
  | none =>
    have hzero := hs.null hqos
    have hsize := harray hqos
    refine ⟨by rw [hzero]; rfl, by omega, hs.word, ⟨[], by rw [hqos]; rfl, by omega, ?_⟩, ?_⟩
    · rw [List.take_nil, Heap.entries, hzero, List.take_zero]
    · rw [← hqos]
      exact hbit
  | some p =>
    obtain ⟨xs, hcell, hroom, hsize⟩ := hs.array p hqos
    have hblock : h.block (some p) = some xs := hcell
    have hlen : (xs.take vi.viNegress).length = vi.viNegress := List.length_take_of_le (by omega)
    rw [hqos, Heap.entries, hblock, Option.getD_some] at hbit
    rw [Heap.entries, hblock, Option.getD_some]
    refine ⟨hlen.symm, hroom, hs.word, ⟨xs, by rw [hqos]; exact hblock, hsize, by rw [hlen]⟩, hbit⟩

theorem Maps.source {h : VlanHeap} (ht : h.Tidy) {vi : VlanInfo} {ms : List VlanMap} (hm : Maps h vi ms) : Source h vi := by
  obtain ⟨xs, hblock, hsize, -⟩ := hm.array
  have hroom := hm.room
  refine ⟨ht, hm.word, fun hne => hm.bit ?_, fun hqos => ?_, fun p hp => ?_⟩
  · rintro rfl
    exact hne hm.count
  · rw [hqos] at hblock
    obtain rfl : [] = xs := Option.some.inj hblock
    exact Nat.le_zero.1 (hroom.trans hsize)
  · have hqos : vi.viEgressQos = some p := hp
    rw [hqos] at hblock
    exact ⟨xs, hblock, hroom, hsize⟩

theorem vlanAlloc_spec {h h' : VlanHeap} {vi : VlanInfo} (ht : h.Tidy) (halloc : vlanAlloc h none = .ok (h', vi)) :
    h'.Tidy ∧ Heap.Others h h' none ∧ vi = { VlanInfo.zero with viEgressSize := 32, viEgressQos := vi.viEgressQos } ∧
      ∀ p ∈ vi.viEgressQos, h'.cells p = some (List.replicate 32 VlanMap.zero) := by
  rw [vlanAlloc] at halloc
  dsimp only at halloc
  by_cases hask : h.ask.1 = true
  · rw [if_pos hask] at halloc
    obtain ⟨rfl, rfl⟩ := Prod.ext_iff.1 (Except.ok.inj halloc)
    obtain ⟨htidy, hothers, hresult⟩ := Heap.alloc_spec (Heap.ask_tidy ht) (List.replicate 32 VlanMap.zero)
    refine ⟨htidy, ⟨hothers.next, hothers.cells⟩, rfl, fun p hp => ?_⟩
    have hp : (h.ask.2.alloc (List.replicate 32 VlanMap.zero)).1 = some p := hp
    rcases hresult with hnone | ⟨hsome, hcell, -⟩
    · rw [hnone] at hp
      cases hp
    · rw [hsome] at hp
      obtain rfl := Option.some.inj hp
      exact hcell
  · rw [if_neg hask] at halloc
    cases halloc

theorem vlanAlloc_source {h h' : VlanHeap} {vi : VlanInfo} (ht : h.Tidy) (halloc : vlanAlloc h none = .ok (h', vi)) :
    Source h' vi := by
  obtain ⟨htidy, -, hvi, hcell⟩ := vlanAlloc_spec ht halloc
  have hnegress : vi.viNegress = 0 := by rw [hvi]; rfl
  have hsize : vi.viEgressSize = 32 := by rw [hvi]
  refine ⟨htidy, by omega, fun hne => absurd hnegress hne, fun _ => hnegress, fun p hp => ⟨_, hcell p hp, by omega, ?_⟩⟩
  rw [List.length_replicate, hsize]

/-- fields other than those of the egress map do not matter -/
theorem Source.congr {h : VlanHeap} {vi vi' : VlanInfo} (hs : Source h vi) (hnegress : vi'.viNegress = vi.viNegress)
    (hsize : vi'.viEgressSize = vi.viEgressSize) (hqos : vi'.viEgressQos = vi.viEgressQos)
    (hbit : vi.has VLAN_HAS_EGRESS_QOS = true → vi'.has VLAN_HAS_EGRESS_QOS = true) : Source h vi' where
  tidy := hs.tidy
  word := hsize ▸ hs.word
  bit hne := hbit (hs.bit (hnegress ▸ hne))
  null hnone := by rw [hnegress]; exact hs.null (hqos ▸ hnone)
  array p hp := by rw [hnegress, hsize]; exact hs.array p (hqos ▸ hp)

theorem has_or {m bit bit' : BitVec 32} (h : decide (m &&& bit ≠ 0) = true) : decide ((m ||| bit') &&& bit ≠ 0) = true := by
  rw [decide_eq_true_eq] at h ⊢
  rw [BitVec.and_or_distrib_right]
  exact fun hzero => h (BitVec.or_eq_zero_iff.1 hzero).1

/-- a setter leaves the link as it should be -/
theorem Setter.source {h h' : VlanHeap} {vi vi' : VlanInfo} (hs : Source h vi) {c : Setter}
    (hcall : c.call h vi = some (h', vi')) : Source h' vi' := by
  cases c with
  | id vlanId =>
    cases hcall
    exact hs.congr rfl rfl rfl has_or
  | protocol proto =>
    cases hcall
    exact hs.congr rfl rfl rfl has_or
  | setFlags flags =>
    cases hcall
    exact hs.congr rfl rfl rfl has_or
  | unsetFlags flags =>
    cases hcall
    exact hs.congr rfl rfl rfl has_or
  | ingress from' to' =>
    cases hcall
    show Source h (rtnlLinkVlanSetIngressMap vi from' to').1
    rw [rtnlLinkVlanSetIngressMap]
    split_ifs
    · exact hs
    · exact hs.congr rfl rfl rfl has_or
  | egress from' to' =>
    obtain ⟨r, hset, hr⟩ : ∃ r, rtnlLinkVlanSetEgressMap h vi from' to' = some r ∧ (r.1, r.2.1) = (h', vi') :=
      Option.map_eq_some_iff.1 hcall
    cases hr
    by_cases harray : vi.viEgressQos = none → vi.viEgressSize = 0
    · obtain ⟨h1, vi1, ret, heq, htidy, -, hresult⟩ := setEgress_spec hs.tidy (hs.maps harray) from' to'
      rw [hset] at heq
      obtain rfl := Option.some.inj heq
      rcases hresult with ⟨-, hmaps, -⟩ | ⟨-, rfl, hmaps⟩
      · exact hmaps.source htidy
      · exact hmaps.source htidy
    · -- there is no array to write to
      rw [Classical.not_imp] at harray
      obtain ⟨hqos, hsize⟩ := harray
      have hzero := hs.null hqos
      rw [rtnlLinkVlanSetEgressMap] at hset
      by_cases hprio : to' < 0 ∨ (VLAN_PRIO_MAX : ℤ) < to'
      · rw [if_pos hprio] at hset
        obtain rfl := Option.some.inj hset
        exact hs
      · rw [if_neg hprio, if_neg (by omega), addEgress, hqos] at hset
        cases hset

/-- **Links that callers make** from one of `vlan_alloc` are links that can be there. -/
theorem callAll_source {h h' : VlanHeap} {vi vi' : VlanInfo} (hs : Source h vi) {cs : List Setter}
    (hrun : callAll h vi cs = some (h', vi')) : Source h' vi' := by
  induction cs generalizing h vi with
  | nil =>
    obtain ⟨rfl, rfl⟩ := Prod.ext_iff.1 (Option.some.inj hrun)
    exact hs
  | cons c cs ih =>
    obtain ⟨r, hcall, hrest⟩ := Option.bind_eq_some_iff.1 hrun
    exact ih (Setter.source hs hcall) hrest

/-- a clone has an array of its own where the source has mappings, else it is like the source -/
theorem vlanClone_spec {h h' : VlanHeap} {vsrc vdst : VlanInfo} (ht : h.Tidy) (hlt : ∀ p ∈ vsrc.viEgressQos, p < h.next)
    (hclone : vlanClone h vsrc = .ok (h', vdst)) :
    h'.Tidy ∧ Heap.Others h h' none ∧
      (vsrc.viNegress = 0 ∧ vdst = vsrc ∨
        vsrc.viNegress ≠ 0 ∧ ∃ p, h.next ≤ p ∧ h'.cells p = some ((h.entries vsrc.viEgressQos).take vsrc.viNegress) ∧
          vdst = { vsrc with viEgressSize := vsrc.viNegress, viEgressQos := some p }) := by
  rw [vlanClone] at hclone
  cases halloc : vlanAlloc h none with
  | error err =>
    rw [halloc] at hclone
    cases hclone
  | ok r =>
    obtain ⟨h1, vi⟩ := r
    obtain ⟨ht1, hothers1, -⟩ := vlanAlloc_spec ht halloc
    rw [halloc] at hclone
    dsimp only at hclone
    by_cases hne : vsrc.viNegress ≠ 0
    · rw [if_pos hne] at hclone
      have hblock := hothers1.block fun p hp => ⟨hlt p hp, (Option.some_ne_none p).symm⟩
      have hentries : h1.entries vsrc.viEgressQos = h.entries vsrc.viEgressQos := congrArg (·.getD []) hblock
      obtain ⟨ht2, hothers2, hresult⟩ := Heap.alloc_spec ht1 ((h1.entries vsrc.viEgressQos).take vsrc.viNegress)
      generalize h1.alloc ((h1.entries vsrc.viEgressQos).take vsrc.viNegress) = r at *
      obtain ⟨p, h2⟩ := r
      rcases hresult with hnone | ⟨hsome, hcell, -⟩
      · obtain rfl : p = none := hnone
        cases hclone
      · obtain rfl : p = some h1.next := hsome
        obtain ⟨rfl, rfl⟩ := Prod.ext_iff.1 (Except.ok.inj hclone)
        rw [hentries] at hcell
        exact ⟨ht2, hothers1.trans hothers2, Or.inr ⟨hne, h1.next, hothers1.next, hcell, rfl⟩⟩
    · rw [if_neg hne] at hclone
      obtain ⟨rfl, rfl⟩ := Prod.ext_iff.1 (Except.ok.inj hclone)
      exact ⟨ht1, hothers1, Or.inl ⟨not_not.1 hne, rfl⟩⟩

/-- **Clones**: whatever is called on the two, each reports what the source had and what it was given, in an array of its
own, iff the source has mappings, or has no array and no room for any. -/
theorem vlan_clones_iff {h h' : VlanHeap} {vsrc vdst : VlanInfo} (hs : Source h vsrc)
    (hclone : vlanClone h vsrc = .ok (h', vdst)) :
    Independent ⟨h', vsrc, vdst⟩ (rtnlLinkVlanGetEgressMap h vsrc) ↔
      vsrc.viNegress ≠ 0 ∨ (vsrc.viEgressQos = none ∧ vsrc.viEgressSize = 0) := by
  have hlt : ∀ p ∈ vsrc.viEgressQos, p < h.next := fun p hp => by
    obtain ⟨xs, hcell, -⟩ := hs.array p hp
    exact Heap.lt_next hs.tidy hcell
  obtain ⟨htidy, hothers, hdst⟩ := vlanClone_spec hs.tidy hlt hclone
  constructor
  · intro hind
    by_contra hno
    rw [not_or, not_not, not_and] at hno
    obtain ⟨hzero, hnull⟩ := hno
    obtain rfl : vdst = vsrc := by
      rcases hdst with ⟨-, heq⟩ | ⟨hne, -⟩
      · exact heq
      · exact absurd hzero hne
    obtain ⟨s', rets, hrun, hapart⟩ := hind []
    obtain ⟨rfl, -⟩ := Prod.ext_iff.1 (Option.some.inj hrun)
    cases hqos : vdst.viEgressQos with
    | none =>
      obtain ⟨xs, hblock, hsize⟩ := hapart.src.array
      have hblock : Heap.block h' vdst.viEgressQos = some xs := hblock
      rw [hqos] at hblock
      obtain rfl : [] = xs := Option.some.inj hblock
      exact hnull hqos (Nat.le_zero.1 hsize)
    | some p => exact hapart.own p hqos hqos
  · intro hcond
    have harray : vsrc.viEgressQos = none → vsrc.viEgressSize = 0 := by
      intro hqos
      rcases hcond with hne | ⟨-, hsize⟩
      · exact absurd (hs.null hqos) hne
      · exact hsize
    have hmaps := hs.maps harray
    rw [hmaps.reported]
    have hsrc := hmaps.frame (hothers.block fun p hp => ⟨hlt p hp, (Option.some_ne_none p).symm⟩)
    have hinv : (Both.mk h' vsrc vdst).Inv ((h.entries vsrc.viEgressQos).take vsrc.viNegress)
        ((h.entries vsrc.viEgressQos).take vsrc.viNegress) := by
      rcases hdst with ⟨hzero, rfl⟩ | ⟨-, p, hp, hcell, rfl⟩
      · have hqos : vdst.viEgressQos = none := by
          rcases hcond with hne | ⟨hqos, -⟩
          · exact absurd hzero hne
          · exact hqos
        refine ⟨htidy, hsrc, hsrc, fun q hq => ?_⟩
        rw [show (Both.mk h' vdst vdst).src.viEgressQos = none from hqos] at hq
        cases hq
      · have hcount := hmaps.count
        refine ⟨htidy, hsrc, ⟨hcount, le_rfl, ?_, ⟨_, hcell, hcount.le, List.take_of_length_le le_rfl⟩, hmaps.bit⟩, ?_⟩
        · exact hmaps.room.trans_lt hs.word
        · intro q hq hq'
          obtain rfl : p = q := Option.some.inj hq'
          exact absurd (hlt p hq) (not_lt.2 hp)
    intro calls
    obtain ⟨s', rets, hrun, hi⟩ := both_run hinv calls
    exact ⟨s', rets, hrun, hi.apart⟩

/-- memory that is always there -/
def roomy : VlanHeap := ⟨fun _ => none, 0, fun _ => true, 0⟩

/-- a link of `vlan_alloc`, and one with a mapping -/
def freshVlan : VlanInfo := { VlanInfo.zero with viEgressSize := 32, viEgressQos := some 0 }
def mappedVlan : VlanInfo := { freshVlan with viNegress := 1, viMask := VLAN_HAS_EGRESS_QOS }

/-- and memory with an array for it -/
def withArray : VlanHeap := ⟨Function.update (fun _ => none) 0 (some (⟨1, 2⟩ :: List.replicate 31 VlanMap.zero)), 1, fun _ => true, 0⟩

theorem withArray_tidy : withArray.Tidy := by
  intro p hp
  have hpos : 1 ≤ p := hp
  have hne : p ≠ 0 := by omega
  show Function.update (fun _ => none) 0 _ p = none
  rw [Function.update_of_ne hne]

theorem vlan_clones_iff_mapped : ∃ h' vdst, vlanClone withArray mappedVlan = .ok (h', vdst) ∧
    Independent ⟨h', mappedVlan, vdst⟩ [⟨1, 2⟩] := by
  have hs : Source withArray mappedVlan := by
    refine ⟨withArray_tidy, by decide, fun _ => rfl, fun h => (by cases h), fun p hp => ?_⟩
    obtain rfl : 0 = p := Option.some.inj hp
    exact ⟨_, rfl, by decide, by decide⟩
  exact ⟨_, _, rfl, (vlan_clones_iff hs rfl).2 (Or.inl (by decide))⟩

/-- a link without mappings, its clone, and a call on each: the clone reports the mapping of the source -/
theorem clone_shares_array : ∃ h vsrc h' vdst s rets, vlanAlloc roomy none = .ok (h, vsrc) ∧
    vlanClone h vsrc = .ok (h', vdst) ∧ (Both.mk h' vsrc vdst).run [⟨.dst, 1, 2⟩, ⟨.src, 3, 4⟩] = some (s, rets) ∧
    given .dst rets = [⟨1, 2⟩] ∧ rtnlLinkVlanGetEgressMap s.heap s.dst = [⟨3, 4⟩] ∧
    ¬ Independent ⟨h', vsrc, vdst⟩ (rtnlLinkVlanGetEgressMap h vsrc) := by
  refine ⟨_, _, _, _, _, _, rfl, rfl, rfl, rfl, rfl, fun hind => ?_⟩
  obtain ⟨s', rets, hrun, hapart⟩ := hind []
  obtain ⟨rfl, -⟩ := Prod.ext_iff.1 (Option.some.inj hrun)
  exact hapart.own 0 rfl rfl

end Libnl.Vlan
