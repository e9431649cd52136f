/-
Cloning objects (`nl_object_clone` in `lib/object.c`) with the clone functions of addresses, rules, conntrack entries and
links.

`nl_object_clone` copies the whole object and has `oo_clone` replace the pointers. When that fails, `nl_object_free`
destroys the copy, with those pointers of the source that were not yet replaced. Strings and data of modules are cells
with one reference. The peer of a `veth` is one cell, and cloning it takes a number of allocations.

- `clone_fine_iff`: when a clone leaves the source alone, for all four types.
- `broadcast_lost`: without memory for the local address of an interface address, its broadcast address is gone.
-/
import Mathlib.Tactic
import Libnl.Core.FlatClone

namespace Libnl.ObjectClone

open FlatClone

/-! ## Objects -/

/-- the pointers of `struct rtnl_addr` -/
structure RtnlAddr where
  aLink : Option ℕ
  aPeer : Option ℕ
  aLocal : Option ℕ
  aBcast : Option ℕ
  aMulticast : Option ℕ
  aAnycast : Option ℕ

structure RtnlRule where
  rSrc : Option ℕ
  rDst : Option ℕ

structure NfnlCt where
  origSrc : Option ℕ
  origDst : Option ℕ
  replSrc : Option ℕ
  replDst : Option ℕ

/-- `l_info`, by what its kind does about it -/
inductive LinkInfo where
  /-- no `io_clone` -/
  | aliased (lInfo : ℕ)
  /-- `io_clone` copies data without pointers -/
  | flat (lInfo : ℕ)
  | can (lInfo : ℕ)
  | vlan (lInfo : ℕ) (viEgressQos : Option ℕ) (viNegress : ℕ)
  /-- the array is there if there are addresses -/
  | macvlan (lInfo mviMacaddr : ℕ) (addrs : List ℕ)
  | veth (peer allocs : ℕ)

/-- data of an address family, and whether the family has `ao_clone` -/
structure AfData where
  data : ℕ
  aoClone : Bool

/-- `nl_vf_vlans_t` -/
structure NlVfVlans where
  self : ℕ
  ceRefcnt : ℕ
  /-- the array -/
  vlans : ℕ

/-- `struct rtnl_link_vf`; the pointers are there if the mask has their attributes -/
structure RtnlLinkVf where
  self : ℕ
  ceRefcnt : ℕ
  vfLladdr : Option ℕ
  vfVlans : Option NlVfVlans

/-- `l_vf_list`, of a link with `LINK_ATTR_VF_LIST` -/
structure VfList where
  head : ℕ
  vfs : List RtnlLinkVf

structure RtnlLink where
  lAddr : Option ℕ
  lBcast : Option ℕ
  lIfalias : Option ℕ
  lInfoKind : Option ℕ
  lInfoSlaveKind : Option ℕ
  lInfo : Option LinkInfo
  /-- the families that have data, in order -/
  lAfData : List AfData
  lPhysPortId : Option ℕ
  lPhysSwitchId : Option ℕ
  lVfList : Option VfList

/-! ## Clone functions -/

/-- the addresses, in the order in which they are cloned -/
def RtnlAddr.addrs (a : RtnlAddr) : List ℕ := [a.aPeer, a.aLocal, a.aBcast, a.aMulticast, a.aAnycast].reduceOption

def RtnlRule.addrs (r : RtnlRule) : List ℕ := [r.rSrc, r.rDst].reduceOption

def NfnlCt.addrs (c : NfnlCt) : List ℕ := [c.origSrc, c.origDst, c.replSrc, c.replDst].reduceOption

/-- `addr_clone` -/
def addrClone (src : RtnlAddr) : List Field := copies src.aLink.toList src.addrs

/-- `rule_clone` -/
def ruleClone (src : RtnlRule) : List Field := copies [] src.addrs

/-- `ct_clone`, which assigns what is not `NULL` only -/
def ctClone (src : NfnlCt) : List Field := keptCopies src.addrs

/-- `if (src->x) if (!(dst->x = clone(src->x))) return -NLE_NOMEM` -/
def copied (allocs : ℕ) (ptr : Option ℕ) : List Field := ptr.toList.map fun p => ⟨.copied, allocs, some p⟩

/-- `rtnl_link_set_type`, which frees `l_info_kind` and, without memory for the string or `io_alloc`, leaves it there for
the destructor to free again -/
def setType (lInfoKind : Option ℕ) (lInfo : ℕ) : Field :=
  ⟨if lInfoKind.isSome then .vital else .copied, 2, some lInfo⟩

/-- `io_clone` of the kinds of links -/
def ioClone (lInfoKind : Option ℕ) : LinkInfo → List Field
  | .aliased lInfo => [⟨.shared, 0, some lInfo⟩]
  | .flat lInfo => [setType lInfoKind lInfo]
  -- the data comes on top of that of `io_alloc`
  | .can lInfo => [setType lInfoKind lInfo, ⟨.copied, 1, none⟩]
  -- `io_alloc` has an array of its own, for which it does not check; the array of the source takes its place
  | .vlan lInfo viEgressQos viNegress =>
    [setType lInfoKind lInfo, ⟨.optional, 1, none⟩, ⟨if 0 < viNegress then .copied else .shared, 1, viEgressQos⟩]
  -- no check here either, and the array is written
  | .macvlan lInfo mviMacaddr addrs =>
    setType lInfoKind lInfo ::
      if addrs = [] then [] else ⟨.vital, 1, some mviMacaddr⟩ :: addrs.map fun p => ⟨.optional, 1, some p⟩
  | .veth peer allocs => [⟨.kept, allocs, some peer⟩]

/-- `af_clone` -/
def afClone (af : AfData) : Field := ⟨if af.aoClone then .copied else .shared, 1, some af.data⟩

/-- `link_clone`, up to the virtual functions; strings are duplicated, and `nl_data` takes two allocations -/
def linkClone (src : RtnlLink) : List Field :=
  copied 1 src.lAddr ++ copied 1 src.lBcast ++ copied 1 src.lIfalias ++ copied 1 src.lInfoKind ++
    copied 1 src.lInfoSlaveKind ++ src.lInfo.elim [] (ioClone src.lInfoKind) ++ src.lAfData.map afClone ++
    copied 2 src.lPhysPortId ++ copied 2 src.lPhysSwitchId

/-! ## Virtual functions -/

/-- what `rtnl_link_vf_vlan_put` lets go of -/
def NlVfVlans.held (v : NlVfVlans) : List ℕ := v.self :: if v.ceRefcnt ≤ 1 then [v.vlans] else []

/-- what `rtnl_link_vf_put` lets go of -/
def RtnlLinkVf.held (vf : RtnlLinkVf) : List ℕ :=
  vf.self :: if vf.ceRefcnt ≤ 1 then vf.vfLladdr.toList ++ vf.vfVlans.elim [] NlVfVlans.held else []

def RtnlLinkVf.refers (vf : RtnlLinkVf) : List ℕ :=
  vf.self :: (vf.vfLladdr.toList ++ vf.vfVlans.elim [] fun v => [v.self, v.vlans])

/-- what `rtnl_link_sriov_free_data` lets go of -/
def VfList.held (l : VfList) : List ℕ := l.vfs.flatMap RtnlLinkVf.held ++ [l.head]

/-- the address of the copy, unless there is no memory -/
def cloneLladdr (src : RtnlLinkVf) (m : Mem) : Option (Option ℕ × Mem) :=
  match src.vfLladdr with
  | none => some (none, m)
  | some _ => (m.alloc 1).map fun (addr, m) => (some addr, m)

/-- the VLANs of the copy: all bytes of those of the source, with the pointer to the array -/
def cloneVlans (src : RtnlLinkVf) (m : Mem) : Option (Option NlVfVlans × Mem) :=
  match src.vfVlans with
  | none => some (none, m)
  | some vlans => (m.alloc 2).map fun (self, m) => (some { vlans with self := self }, m)

/-- one round of the loop of `rtnl_link_sriov_clone` -/
def cloneVf (src : RtnlLinkVf) (m : Mem) : Outcome :=
  match m.alloc 1 with
  | none => ⟨false, false, false, [], [], m⟩
  | some (self, m) =>
    -- the bytes of the source, with its counter and its pointers
    let vf := { src with self := self }
    match cloneLladdr src m with
    | none => ⟨false, false, false, [], [], m.letGo vf.held⟩
    | some (lladdr, m) =>
      let vf := { vf with vfLladdr := lladdr }
      match cloneVlans src m with
      | none => ⟨false, false, false, [], [], m.letGo vf.held⟩
      | some (vlans, m) =>
        let vf := { vf with vfVlans := vlans }
        ⟨true, false, false, vf.held, vf.refers, m⟩

/-- the allocations for the address -/
def RtnlLinkVf.addrNeeds (vf : RtnlLinkVf) : ℕ := if vf.vfLladdr.isSome then 1 else 0

/-- and for the VLANs -/
def RtnlLinkVf.vlansNeeds (vf : RtnlLinkVf) : ℕ := if vf.vfVlans.isSome then 2 else 0

def vfPart (vf : RtnlLinkVf) : Part where
  refs := vf.refers
  aliased := []
  links := []
  shares := vf.vfVlans.elim [] fun v => [v.vlans]
  needs := 1 + vf.addrNeeds + vf.vlansNeeds
  takes := 1 + vf.addrNeeds + vf.vlansNeeds
  leaks := vf.vfVlans.elim [] fun v => if vf.ceRefcnt ≤ 1 ∧ v.ceRefcnt ≤ 1 then [v.vlans] else []
  left := fun b =>
    if 1 ≤ b ∧ vf.ceRefcnt ≤ 1 then
      (if b < 1 + vf.addrNeeds then vf.vfLladdr.toList else []) ++ vf.vfVlans.elim [] NlVfVlans.held
    else []
  faults := fun _ => false
  clone := cloneVf vf

/-- the head of the list; the destructor takes it for granted -/
def headPart (l : VfList) : Part where
  refs := l.head :: l.vfs.flatMap RtnlLinkVf.refers
  aliased := l.held
  links := []
  shares := []
  needs := 1
  takes := 1
  leaks := []
  left := fun _ => []
  faults := fun _ => true
  clone := replace [] true 1

/-- `rtnl_link_sriov_clone` -/
def sriovClone (l : VfList) : List Part := headPart l :: l.vfs.map vfPart

/-! ## Objects to clone -/

inductive NlObject where
  | addr (a : RtnlAddr)
  | rule (r : RtnlRule)
  | ct (c : NfnlCt)
  | link (l : RtnlLink)

def linkParts (l : RtnlLink) : List Part := fieldParts (linkClone l) ++ l.lVfList.elim [] sriovClone

/-- `oo_clone` -/
def NlObject.ooClone : NlObject → List Part
  | .addr a => fieldParts (addrClone a)
  | .rule r => fieldParts (ruleClone r)
  | .ct c => fieldParts (ctClone c)
  | .link l => linkParts l

def nlObjectClone (obj : NlObject) (m : Mem) : Result := cloneObject obj.ooClone m

/-! ## Lawful parts -/

section

variable (vf : RtnlLinkVf) {m : Mem}

theorem cloneLladdr_fail (h : m.budget < vf.addrNeeds) : cloneLladdr vf m = none := by
  rw [RtnlLinkVf.addrNeeds] at h
  rw [cloneLladdr]
  cases haddr : vf.vfLladdr with
  | none =>
    rw [haddr] at h
    exact absurd h (Nat.not_lt_zero _)
  | some addr =>
    rw [haddr] at h
    have hlt : m.budget < 1 := h
    show (m.alloc 1).map _ = none
    rw [Mem.alloc_none hlt]
    rfl

theorem cloneVlans_fail (h : m.budget < vf.vlansNeeds) : cloneVlans vf m = none := by
  rw [RtnlLinkVf.vlansNeeds] at h
  rw [cloneVlans]
  cases hvlans : vf.vfVlans with
  | none =>
    rw [hvlans] at h
    exact absurd h (Nat.not_lt_zero _)
  | some vlans =>
    rw [hvlans] at h
    have hlt : m.budget < 2 := h
    show (m.alloc 2).map _ = none
    rw [Mem.alloc_none hlt]
    rfl

/-- the address is a new cell -/
theorem cloneLladdr_ok (h : vf.addrNeeds ≤ m.budget) : ∃ lladdr m', cloneLladdr vf m = some (lladdr, m') ∧
    m.Extends m' vf.addrNeeds ∧ ∀ p ∈ lladdr, m.brk ≤ p := by
  rw [RtnlLinkVf.addrNeeds] at h ⊢
  rw [cloneLladdr]
  cases haddr : vf.vfLladdr with
  | none => exact ⟨none, m, rfl, Mem.Extends.refl m, fun p hp => absurd hp (Option.not_mem_none p)⟩
  | some addr =>
    rw [haddr] at h
    obtain ⟨m', heq, hext⟩ := Mem.extends_alloc h
    refine ⟨some m.brk, m', congrArg (Option.map _) heq, hext, fun p hp => ?_⟩
    exact (Option.mem_some_iff.1 hp).le

/-- the VLANs have a new cell, and the array of the source -/
theorem cloneVlans_ok (h : vf.vlansNeeds ≤ m.budget) : ∃ vlans m', cloneVlans vf m = some (vlans, m') ∧
    m.Extends m' vf.vlansNeeds ∧ ∃ self, m.brk ≤ self ∧ vlans = vf.vfVlans.map fun v => { v with self := self } := by
  rw [RtnlLinkVf.vlansNeeds] at h ⊢
  rw [cloneVlans]
  cases hvlans : vf.vfVlans with
  | none => exact ⟨none, m, rfl, Mem.Extends.refl m, m.brk, le_rfl, rfl⟩
  | some vlans =>
    rw [hvlans] at h
    obtain ⟨m', heq, hext⟩ := Mem.extends_alloc h
    exact ⟨some { vlans with self := m.brk }, m', congrArg (Option.map _) heq, hext, m.brk, le_rfl, rfl⟩

variable {vf}

theorem cloneVf_none (h : m.budget < 1) : cloneVf vf m = ⟨false, false, false, [], [], m⟩ := by
  rw [cloneVf, Mem.alloc_none h]

/-- half a virtual function is let go of, with the address of the source if that was not yet replaced -/
theorem cloneVf_half (hself : 1 ≤ m.budget) (h : m.budget < (vfPart vf).needs) :
    ∃ (self : ℕ) (lladdr : Option ℕ) (m' : Mem), cloneVf vf m =
        ⟨false, false, false, [], [], m'.letGo { vf with self := self, vfLladdr := lladdr }.held⟩ ∧
      m.brk ≤ m'.brk ∧ (∀ q < m.brk, m'.count q = m.count q) ∧ m.brk ≤ self ∧
      if m.budget < 1 + vf.addrNeeds then lladdr = vf.vfLladdr else ∀ p ∈ lladdr, m.brk ≤ p := by
  obtain ⟨m1, hself1, hext1⟩ := Mem.extends_alloc hself
  have hneeds : m.budget < 1 + vf.addrNeeds + vf.vlansNeeds := h
  have hbudget1 := hext1.budget
  rw [cloneVf, hself1]
  by_cases haddr : m.budget < 1 + vf.addrNeeds
  · refine ⟨m.brk, vf.vfLladdr, m1, ?_, hext1.brk, hext1.count, le_rfl, ?_⟩
    · simp only [cloneLladdr_fail vf (m := m1) (by omega)]
    · rw [if_pos haddr]
  · obtain ⟨lladdr, m2, heq, hext2, hfresh⟩ := cloneLladdr_ok vf (m := m1) (by omega)
    have hext := hext1.trans hext2
    have hbudget := hext.budget
    refine ⟨m.brk, lladdr, m2, ?_, hext.brk, hext.count, le_rfl, ?_⟩
    · simp only [heq, cloneVlans_fail vf (m := m2) (by omega)]
    · rw [if_neg haddr]
      exact fun p hp => hext1.brk.trans (hfresh p hp)

/-- the copy of a virtual function -/
def RtnlLinkVf.copy (vf : RtnlLinkVf) (self : ℕ) (lladdr : Option ℕ) (vlans : ℕ) : RtnlLinkVf :=
  ⟨self, vf.ceRefcnt, lladdr, vf.vfVlans.map fun v => { v with self := vlans }⟩

/-- a whole one has new cells, and the array -/
theorem cloneVf_whole (h : (vfPart vf).needs ≤ m.budget) :
    ∃ (self : ℕ) (lladdr : Option ℕ) (vlans : ℕ) (m' : Mem),
      cloneVf vf m = ⟨true, false, false, (vf.copy self lladdr vlans).held, (vf.copy self lladdr vlans).refers, m'⟩ ∧
      m.Extends m' (vfPart vf).needs ∧ m.brk ≤ self ∧ (∀ p ∈ lladdr, m.brk ≤ p) ∧ m.brk ≤ vlans := by
  have hneeds : 1 + vf.addrNeeds + vf.vlansNeeds ≤ m.budget := h
  have hone : 1 ≤ m.budget := by omega
  obtain ⟨m1, hself, hext1⟩ := Mem.extends_alloc hone
  have hbudget1 := hext1.budget
  obtain ⟨lladdr, m2, haddr, hext2, hfresh⟩ := cloneLladdr_ok vf (m := m1) (by omega)
  have hext := hext1.trans hext2
  have hbudget2 := hext.budget
  obtain ⟨_, m3, hvlans, hext3, vlans, hnew, rfl⟩ := cloneVlans_ok vf (m := m2) (by omega)
  refine ⟨m.brk, lladdr, vlans, m3, ?_, hext.trans hext3, le_rfl, ?_, hext.brk.trans hnew⟩
  · rw [cloneVf, hself]
    simp only [haddr, hvlans, RtnlLinkVf.copy]
  · exact fun p hp => hext1.brk.trans (hfresh p hp)

theorem count_cons_fresh {ps : List ℕ} {n p q : ℕ} (hp : n ≤ p) (hq : q < n) : (p :: ps).count q = ps.count q :=
  List.count_cons_of_ne (hq.trans_le hp).ne'

/-- what is let go of with half a virtual function -/
theorem half_held_count {self n q : ℕ} {lladdr : Option ℕ} {b : ℕ} (hself : n ≤ self) (hq : q < n) (hb : 1 ≤ b)
    (haddr : if b < 1 + vf.addrNeeds then lladdr = vf.vfLladdr else ∀ p ∈ lladdr, n ≤ p) :
    { vf with self := self, vfLladdr := lladdr }.held.count q = ((vfPart vf).left b).count q := by
  show (self :: if vf.ceRefcnt ≤ 1 then lladdr.toList ++ vf.vfVlans.elim [] NlVfVlans.held else []).count q =
    (if 1 ≤ b ∧ vf.ceRefcnt ≤ 1 then (if b < 1 + vf.addrNeeds then vf.vfLladdr.toList else []) ++
      vf.vfVlans.elim [] NlVfVlans.held else []).count q
  rw [count_cons_fresh hself hq]
  by_cases hcount : vf.ceRefcnt ≤ 1
  · rw [if_pos hcount, if_pos ⟨hb, hcount⟩, List.count_append, List.count_append]
    split_ifs at haddr ⊢
    · rw [haddr]
    · have hfresh : ∀ p ∈ lladdr.toList, n ≤ p := fun p hp => haddr p (Option.mem_toList.1 hp)
      rw [count_fresh hfresh hq, List.count_nil]
  · rw [if_neg hcount, if_neg fun h => hcount h.2]

/-- what is let go of with a whole one -/
theorem whole_held_count {self n q vlans : ℕ} {lladdr : Option ℕ} (hself : n ≤ self) (hq : q < n)
    (haddr : ∀ p ∈ lladdr, n ≤ p) (hvlans : n ≤ vlans) :
    (vf.copy self lladdr vlans).held.count q = (vfPart vf).leaks.count q := by
  have hfresh : ∀ p ∈ lladdr.toList, n ≤ p := fun p hp => haddr p (Option.mem_toList.1 hp)
  show (self :: if vf.ceRefcnt ≤ 1 then lladdr.toList ++
      (vf.vfVlans.map fun v => { v with self := vlans }).elim [] NlVfVlans.held else []).count q =
    (vf.vfVlans.elim [] fun v => if vf.ceRefcnt ≤ 1 ∧ v.ceRefcnt ≤ 1 then [v.vlans] else []).count q
  rw [count_cons_fresh hself hq]
  cases vf.vfVlans with
  | none =>
    show (if vf.ceRefcnt ≤ 1 then lladdr.toList ++ [] else []).count q = 0
    split_ifs
    · rw [List.append_nil, count_fresh hfresh hq]
    · rfl
  | some v =>
    show (if vf.ceRefcnt ≤ 1 then lladdr.toList ++ (vlans :: if v.ceRefcnt ≤ 1 then [v.vlans] else []) else []).count q =
      (if vf.ceRefcnt ≤ 1 ∧ v.ceRefcnt ≤ 1 then [v.vlans] else []).count q
    by_cases hcount : vf.ceRefcnt ≤ 1
    · rw [if_pos hcount, List.count_append, count_fresh hfresh hq, Nat.zero_add, count_cons_fresh hvlans hq]
      simp only [hcount, true_and]
    · rw [if_neg hcount, if_neg fun h => hcount h.1]

/-- of the cells of the source, the copy refers to the array only -/
theorem whole_refers {self n q vlans : ℕ} {lladdr : Option ℕ} (hself : n ≤ self) (hq : q < n)
    (haddr : ∀ p ∈ lladdr, n ≤ p) (hvlans : n ≤ vlans) :
    q ∈ (vf.copy self lladdr vlans).refers ↔ q ∈ (vfPart vf).shares := by
  have hfresh : q ∉ lladdr.toList := fun hmem => absurd (haddr q (Option.mem_toList.1 hmem)) (not_le.2 hq)
  have hne : q ≠ self := (hq.trans_le hself).ne
  have hne' : q ≠ vlans := (hq.trans_le hvlans).ne
  show q ∈ self :: (lladdr.toList ++ (vf.vfVlans.map fun v => { v with self := vlans }).elim [] fun v =>
    [v.self, v.vlans]) ↔ q ∈ vf.vfVlans.elim [] fun v => [v.vlans]
  rw [List.mem_cons, or_iff_right hne, List.mem_append, or_iff_right hfresh]
  cases vf.vfVlans with
  | none => exact Iff.rfl
  | some v =>
    show q ∈ [vlans, v.vlans] ↔ q ∈ [v.vlans]
    rw [List.mem_cons, or_iff_right hne']

theorem mem_elim {α : Type} {o : Option α} {f : α → List ℕ} {p : ℕ} :
    p ∈ o.elim [] f ↔ ∃ a, o = some a ∧ p ∈ f a := by
  cases o with
  | none => simp
  | some a => simp

theorem vlans_held_sub (v : NlVfVlans) : ∀ p ∈ v.held, p ∈ [v.self, v.vlans] := by
  intro p hp
  rw [NlVfVlans.held] at hp
  split_ifs at hp
  · exact hp
  · exact List.mem_cons.2 (Or.inl (List.mem_singleton.1 hp))

/-- a virtual function refers to what is let go of with it -/
theorem mem_refers {p : ℕ} (h : p ∈ vf.vfLladdr ∨ p ∈ vf.vfVlans.elim [] NlVfVlans.held) : p ∈ vf.refers := by
  refine List.mem_cons_of_mem _ (List.mem_append.2 ?_)
  rcases h with haddr | hvlans
  · exact Or.inl (Option.mem_toList.2 haddr)
  · obtain ⟨v, hv, hheld⟩ := mem_elim.1 hvlans
    exact Or.inr (mem_elim.2 ⟨v, hv, vlans_held_sub v p hheld⟩)

theorem held_sub : ∀ p ∈ vf.held, p ∈ vf.refers := by
  intro p hp
  rw [RtnlLinkVf.held] at hp
  rcases List.mem_cons.1 hp with rfl | hrest
  · exact List.mem_cons_self
  · split_ifs at hrest
    · rcases List.mem_append.1 hrest with haddr | hvlans
      · exact mem_refers (Or.inl (Option.mem_toList.1 haddr))
      · exact mem_refers (Or.inr hvlans)
    · exact absurd hrest List.not_mem_nil

theorem vf_left_sub {b : ℕ} : ∀ p ∈ (vfPart vf).left b, p ∈ vf.refers := by
  intro p hp
  have hleft : (vfPart vf).left b = if 1 ≤ b ∧ vf.ceRefcnt ≤ 1 then
      (if b < 1 + vf.addrNeeds then vf.vfLladdr.toList else []) ++ vf.vfVlans.elim [] NlVfVlans.held else [] := rfl
  rw [hleft] at hp
  split_ifs at hp
  · rcases List.mem_append.1 hp with haddr | hvlans
    · exact mem_refers (Or.inl (Option.mem_toList.1 haddr))
    · exact mem_refers (Or.inr hvlans)
  · exact mem_refers (Or.inr hp)
  · exact absurd hp List.not_mem_nil

theorem vf_shares_sub : ∀ p ∈ (vfPart vf).shares, p ∈ vf.refers := by
  intro p hp
  obtain ⟨v, hv, harray⟩ := mem_elim.1 hp
  exact List.mem_cons_of_mem _ (List.mem_append_right _ (mem_elim.2 ⟨v, hv, List.mem_cons_of_mem _ harray⟩))

/-- what is lost with a whole virtual function is shared -/
theorem vf_leaks_sub : ∀ p ∈ (vfPart vf).leaks, p ∈ (vfPart vf).shares := by
  intro p hp
  obtain ⟨v, hv, hleak⟩ := mem_elim.1 hp
  split_ifs at hleak
  · exact mem_elim.2 ⟨v, hv, hleak⟩
  · exact absurd hleak List.not_mem_nil

theorem vfPart_lawful (vf : RtnlLinkVf) : (vfPart vf).Lawful where
  brk m := by
    show m.brk ≤ (cloneVf vf m).mem.brk
    rcases Nat.lt_or_ge m.budget 1 with hnone | hself
    · rw [cloneVf_none hnone]
    · rcases Nat.lt_or_ge m.budget (vfPart vf).needs with hlt | hge
      · obtain ⟨self, lladdr, m', heq, hbrk, -, -, -⟩ := cloneVf_half hself hlt
        rw [heq, Mem.letGo_brk]
        exact hbrk
      · obtain ⟨self, lladdr, vlans, m', heq, hext, -, -, -⟩ := cloneVf_whole hge
        rw [heq]
        exact hext.brk
  enough := le_rfl
  copies m h := by
    obtain ⟨self, lladdr, vlans, m', heq, hext, hself, haddr, hvlans⟩ := cloneVf_whole h
    have hclone : (vfPart vf).clone m = _ := heq
    constructor
    case ok => rw [hclone]
    case fault => rw [hclone]
    case missed =>
      rw [hclone]
      exact (decide_eq_false (not_lt.2 h)).symm
    case budget =>
      rw [hclone]
      exact hext.budget
    case taken =>
      intro q hq
      rw [hclone, hext.count q hq]
      exact (add_zero _).symm
    case refers =>
      intro q hq
      rw [hclone]
      exact (whole_refers hself hq haddr hvlans).trans (or_iff_right List.not_mem_nil).symm
    case net =>
      intro q hq
      rw [hclone, Outcome.net, hext.count q hq, whole_held_count hself hq haddr hvlans]
  fails m h := by
    rcases Nat.lt_or_ge m.budget 1 with hnone | hone
    · have hclone : (vfPart vf).clone m = _ := cloneVf_none hnone
      have hleft : (vfPart vf).left m.budget = [] := if_neg fun hle => absurd hnone (not_lt.2 hle.1)
      exact ⟨by rw [hclone], by rw [hclone]; rfl, fun q _ => by rw [hclone, hleft, Outcome.net]⟩
    · obtain ⟨self, lladdr, m', heq, -, hcount, hself, haddr⟩ := cloneVf_half hone h
      have hclone : (vfPart vf).clone m = _ := heq
      refine ⟨by rw [hclone], by rw [hclone]; rfl, fun q hq => ?_⟩
      rw [hclone, Outcome.net]
      show (m'.letGo _).count q - (([] : List ℕ).count q : ℤ) = _
      rw [Mem.letGo_count, hcount q hq, half_held_count hself hq hone haddr, List.count_nil, Nat.cast_zero, sub_zero]
  leaks p hp := vf_shares_sub p (vf_leaks_sub p hp)
  left _ := vf_left_sub
  aliased p hp := absurd hp List.not_mem_nil
  shares := vf_shares_sub

theorem headPart_lawful (l : VfList) : (headPart l).Lawful := by
  refine replace_lawful rfl rfl rfl rfl rfl (fun _ => rfl) (fun _ => rfl) (fun p hp => absurd hp List.not_mem_nil) ?_
  intro p hp
  rcases List.mem_append.1 hp with hvf | hhead
  · obtain ⟨vf, hmem, hheld⟩ := List.mem_flatMap.1 hvf
    exact List.mem_cons_of_mem _ (List.mem_flatMap.2 ⟨vf, hmem, held_sub p hheld⟩)
  · exact List.mem_cons.2 (Or.inl (List.mem_singleton.1 hhead))

/-- the parts of a link: its pointers, the head of a list, and virtual functions -/
theorem linkParts_cases {l : RtnlLink} {P : Part} (hP : P ∈ linkParts l) :
    (∃ f ∈ linkClone l, P = f.part) ∨ (∃ list, P = headPart list) ∨ ∃ vf, P = vfPart vf := by
  rcases List.mem_append.1 hP with hfield | hlist
  · obtain ⟨f, hf, rfl⟩ := List.mem_map.1 hfield
    exact Or.inl ⟨f, hf, rfl⟩
  · cases hl : l.lVfList with
    | none =>
      rw [hl] at hlist
      exact absurd hlist List.not_mem_nil
    | some list =>
      rw [hl] at hlist
      rcases List.mem_cons.1 hlist with rfl | hmem
      · exact Or.inr (Or.inl ⟨list, rfl⟩)
      · obtain ⟨vf, -, rfl⟩ := List.mem_map.1 hmem
        exact Or.inr (Or.inr ⟨vf, rfl⟩)

theorem linkParts_lawful (l : RtnlLink) : ∀ P ∈ linkParts l, P.Lawful := by
  intro P hP
  rcases linkParts_cases hP with ⟨f, -, rfl⟩ | ⟨list, rfl⟩ | ⟨vf, rfl⟩
  · exact f.lawful
  · exact headPart_lawful list
  · exact vfPart_lawful vf

theorem ooClone_lawful (obj : NlObject) : ∀ P ∈ obj.ooClone, P.Lawful := by
  cases obj with
  | addr a => exact fieldParts_lawful _
  | rule r => exact fieldParts_lawful _
  | ct c => exact fieldParts_lawful _
  | link l => exact linkParts_lawful l

end

/-! ## When a clone is safe -/

/-- With a budget of `b` allocations behind that for the object: at most the last address of an interface address or a
rule cannot be cloned, all addresses of a conntrack entry are, and a link loses nothing to its half-made copy and shares
nothing with a whole one. -/
def NlObject.CloneSafe (obj : NlObject) (b : ℕ) : Prop :=
  match obj with
  | .addr a => a.addrs.length ≤ b + 1
  | .rule r => r.addrs.length ≤ b + 1
  | .ct c => c.addrs.length ≤ b
  | .link l => Safe (linkParts l) b

/-- **Clones**: cloning leaves the source alone, and the copy has no part in it but links, just if there is no memory for
the object itself or `CloneSafe` says so. -/
theorem clone_fine_iff (obj : NlObject) (m : Mem) (hrefs : ∀ p ∈ refsOf obj.ooClone, p < m.brk) :
    Fine obj.ooClone m ↔ m.budget = 0 ∨ obj.CloneSafe (m.budget - 1) := by
  rw [cloneObject_fine_iff (ooClone_lawful obj) hrefs]
  refine or_congr_right ?_
  cases obj with
  | addr a => exact copies_safe_iff
  | rule r => exact copies_safe_iff
  | ct c => exact kept_safe_iff
  | link l => exact Iff.rfl

/-- an address with a local (0) and a broadcast address (1) -/
def pointAddr : NlObject := .addr ⟨none, none, some 0, some 1, none, none⟩

def shortMem (budget : ℕ) : Mem := ⟨fun _ => 1, 2, budget⟩

theorem clone_fine_iff_pointAddr : Fine pointAddr.ooClone (shortMem 2) :=
  (clone_fine_iff pointAddr (shortMem 2) (by decide)).2 (Or.inr (show [0, 1].length ≤ 2 from le_rfl))

/-- without memory for the local address, the broadcast address is let go of -/
theorem broadcast_lost : (∃ m', nlObjectClone pointAddr (shortMem 1) = .null m' ∧ m'.count 1 = 0) ∧
    1 ∈ refsOf pointAddr.ooClone ∧ (shortMem 1).count 1 = 1 ∧ ¬ Fine pointAddr.ooClone (shortMem 1) := by
  refine ⟨⟨_, rfl, by decide⟩, by decide, rfl, fun hfine => ?_⟩
  have hkept : (0 : ℤ) = 1 := hfine 1 (by decide)
  exact absurd hkept (by decide)

end Libnl.ObjectClone
