/-
What a comparison of multicast databases says (`mdb_compare` in `lib/route/mdb.c`).

The comparison counts router ports and groups. Beyond that, it looks for a router port of the one that all router ports of
the other equal: the test in the loop is the wrong way round. Groups and their ports are not looked at.

- `mdbCompare_eq_zero_iff`: what the comparison tells apart.
- `mdbCompare_exact_iff`: where its answer is right about the two as sets.
-/
import Mathlib.Tactic
import Libnl.Core.Mask
import Libnl.Route.Mdb

namespace Libnl.Mdb

open Object Addr

/-! ## The same bridge, groups and ports -/

def SamePorts (p q : List ℕ) : Prop := ∀ x, x ∈ p ↔ x ∈ q

/-- one group, with the same ports -/
structure SameGroup (g g' : RtnlMgrp) : Prop where
  addr : g.addr = g'.addr
  vid : g.vid = g'.vid
  ports : SamePorts g.mgportList g'.mgportList

/-- the same bridge, the same set of groups with the same ports, the same set of router ports -/
structure SameMdb (a b : RtnlMdb) : Prop where
  bridge : a.mBrifindex = b.mBrifindex
  groups : ∀ g ∈ a.mgrpList, ∃ g' ∈ b.mgrpList, SameGroup g g'
  groups' : ∀ g ∈ b.mgrpList, ∃ g' ∈ a.mgrpList, SameGroup g g'
  routers : SamePorts a.mrportList b.mrportList

theorem SameGroup.refl (g : RtnlMgrp) : SameGroup g g := ⟨rfl, rfl, fun _ => Iff.rfl⟩

theorem SameMdb.refl (a : RtnlMdb) : SameMdb a a :=
  ⟨rfl, fun g hg => ⟨g, hg, SameGroup.refl g⟩, fun g hg => ⟨g, hg, SameGroup.refl g⟩, fun _ => Iff.rfl⟩

/-! ## What the comparison sees -/

def Carries (m : MdbObj) (attr : BitVec 64) : Prop := m.ceMask &&& attr ≠ 0

/-- an attribute that only one carries, or both do and differ in it -/
def Differs (a b : MdbObj) (attr : BitVec 64) (differ : Prop) : Prop :=
  ¬(Carries a attr ↔ Carries b attr) ∨ (Carries a attr ∧ differ)

/-- there is a port in the first list that no port of the second differs from -/
def Lonely (p q : List ℕ) : Prop := ∃ x ∈ p, ∀ y ∈ q, y = x

/-- the comparison does not tell the two apart. Groups are counted where the loop over the router ports does not end it. -/
structure Unseen (a b : MdbObj) : Prop where
  bridge : ¬ Differs a b MDB_ATTR_IFINDEX (a.data.mBrifindex ≠ b.data.mBrifindex)
  routers : ¬ Differs a b MDB_ATTR_RPORT
    (a.data.numMrport ≠ b.data.numMrport ∨ Lonely a.data.mrportList b.data.mrportList)
  groups : ¬ Lonely a.data.mrportList b.data.mrportList →
    ¬ Differs a b MDB_ATTR_ADDR (a.data.numMgrp ≠ b.data.numMgrp)

/-- one bit of the answer -/
theorem attrDiff_bit_eq_zero_iff {i : ℕ} (hi : i < 64) (a b : MdbObj) (differ : Bool) :
    attrDiff (BitVec.allOnes 64) (BitVec.twoPow 64 i) a b differ = 0 ↔
      ¬ Differs a b (BitVec.twoPow 64 i) (differ = true) := by
  have hbit : ∀ x : BitVec 64, x &&& BitVec.twoPow 64 i = 0 ↔ x.getLsbD i = false :=
    Mask.and_twoPow_eq_zero_iff hi
  rw [attrDiff_all_eq_zero_iff (Mask.twoPow_ne_zero hi), hbit, hbit, Differs, Carries, Carries, ne_eq, ne_eq, hbit, hbit,
    BitVec.getLsbD_xor, BitVec.getLsbD_and]
  cases a.ceMask.getLsbD i <;> cases b.ceMask.getLsbD i <;> cases differ <;> simp

/-- the loop ends the comparison -/
theorem any_lonely_iff (p q : List ℕ) :
    (p.any fun mr => !q.any fun mr' => decide (mr ≠ mr')) = true ↔ Lonely p q := by
  simp only [List.any_eq_true, Bool.not_eq_true', List.any_eq_false, decide_eq_true_eq, not_not, Lonely]
  exact exists_congr fun x => and_congr_right fun _ => forall₂_congr fun y _ => eq_comm

/-- **What the comparison tells apart**, asked for all attributes. -/
theorem mdbCompare_eq_zero_iff (a b : MdbObj) (flags : ℕ) : mdbCompare a b (BitVec.allOnes 64) flags = 0 ↔ Unseen a b := by
  have hifindex : ∀ differ, attrDiff (BitVec.allOnes 64) MDB_ATTR_IFINDEX a b differ = 0 ↔
      ¬ Differs a b MDB_ATTR_IFINDEX (differ = true) := attrDiff_bit_eq_zero_iff (i := 0) (by decide) a b
  have haddr : ∀ differ, attrDiff (BitVec.allOnes 64) MDB_ATTR_ADDR a b differ = 0 ↔
      ¬ Differs a b MDB_ATTR_ADDR (differ = true) := attrDiff_bit_eq_zero_iff (i := 1) (by decide) a b
  have hrport : ∀ differ, attrDiff (BitVec.allOnes 64) MDB_ATTR_RPORT a b differ = 0 ↔
      ¬ Differs a b MDB_ATTR_RPORT (differ = true) := attrDiff_bit_eq_zero_iff (i := 2) (by decide) a b
  have hor : ∀ x y : BitVec 64, x ||| y = 0 ↔ x = 0 ∧ y = 0 := fun _ _ => BitVec.or_eq_zero_iff
  rw [mdbCompare, if_neg (by decide)]
  by_cases hlonely : Lonely a.data.mrportList b.data.mrportList
  · rw [if_pos ((any_lonely_iff _ _).2 hlonely), hor, hor, hifindex, hrport, hrport,
      decide_eq_true_eq, decide_eq_true_eq]
    constructor
    · rintro ⟨⟨hbridge, -⟩, hrouters⟩
      refine ⟨hbridge, ?_, fun h => absurd hlonely h⟩
      exact fun h => hrouters (h.imp_right fun h => ⟨h.1, rfl⟩)
    · intro h
      refine ⟨⟨h.bridge, ?_⟩, ?_⟩
      · exact fun hd => h.routers (hd.imp_right fun hd => ⟨hd.1, Or.inl hd.2⟩)
      · exact fun hd => h.routers (hd.imp_right fun hd => ⟨hd.1, Or.inr hlonely⟩)
  · rw [if_neg (mt (any_lonely_iff _ _).1 hlonely), hor, hor, hifindex, hrport, haddr,
      decide_eq_true_eq, decide_eq_true_eq, decide_eq_true_eq]
    constructor
    · rintro ⟨⟨hbridge, hrouters⟩, hgroups⟩
      refine ⟨hbridge, ?_, fun _ => hgroups⟩
      exact fun h => hrouters (h.imp_right fun h => ⟨h.1, h.2.resolve_right hlonely⟩)
    · intro h
      refine ⟨⟨h.bridge, ?_⟩, h.groups hlonely⟩
      exact fun hd => h.routers (hd.imp_right fun hd => ⟨hd.1, Or.inl hd.2⟩)

/-! ## Where it is right -/

/-- the one port there is, maybe several times -/
def OnePort (p : List ℕ) : Prop := ∃ x ∈ p, ∀ y ∈ p, y = x

/-- the two carry the same attributes and count alike, and there is not just one router port -/
structure Steady (a b : MdbObj) : Prop where
  bridge : Carries a MDB_ATTR_IFINDEX ↔ Carries b MDB_ATTR_IFINDEX
  rport : Carries a MDB_ATTR_RPORT ↔ Carries b MDB_ATTR_RPORT
  routers : Carries a MDB_ATTR_RPORT → a.data.numMrport = b.data.numMrport ∧ ¬ OnePort a.data.mrportList
  groups : ¬ OnePort a.data.mrportList → (Carries a MDB_ATTR_ADDR ↔ Carries b MDB_ATTR_ADDR) ∧
    (Carries a MDB_ATTR_ADDR → a.data.numMgrp = b.data.numMgrp)

theorem not_differs_iff (a b : MdbObj) (attr : BitVec 64) (differ : Prop) :
    ¬ Differs a b attr differ ↔ (Carries a attr ↔ Carries b attr) ∧ (Carries a attr → ¬ differ) := by
  rw [Differs, not_or, not_not, not_and]

/-- among the same ports, a port is lonely when it is the only one -/
theorem lonely_iff_onePort {p q : List ℕ} (h : SamePorts p q) : Lonely p q ↔ OnePort p :=
  exists_congr fun _ => and_congr_right fun _ => forall_congr' fun y => imp_congr (h y).symm Iff.rfl

/-- two databases that are the same, and that the comparison does not tell apart -/
theorem SameMdb.unseen_iff {a b : MdbObj} (h : SameMdb a.data b.data) : Unseen a b ↔ Steady a b := by
  have hone := lonely_iff_onePort h.routers
  constructor
  · rintro ⟨hbridge, hrouters, hgroups⟩
    rw [not_differs_iff] at hbridge hrouters
    rw [hone] at hrouters hgroups
    refine ⟨hbridge.1, hrouters.1, ?_, ?_⟩
    · intro hcarry
      obtain ⟨hnum, hlone⟩ := not_or.1 (hrouters.2 hcarry)
      exact ⟨not_not.1 hnum, hlone⟩
    · intro hlone
      obtain ⟨hmask, hnum⟩ := (not_differs_iff _ _ _ _).1 (hgroups hlone)
      exact ⟨hmask, fun hcarry => not_not.1 (hnum hcarry)⟩
  · rintro ⟨hbridge, hrport, hrouters, hgroups⟩
    refine ⟨?_, ?_, ?_⟩
    · exact (not_differs_iff _ _ _ _).2 ⟨hbridge, fun _ hne => hne h.bridge⟩
    · refine (not_differs_iff _ _ _ _).2 ⟨hrport, fun hcarry => ?_⟩
      rw [hone]
      exact not_or.2 ⟨not_not.2 (hrouters hcarry).1, (hrouters hcarry).2⟩
    · intro hlone
      rw [hone] at hlone
      exact (not_differs_iff _ _ _ _).2 ⟨(hgroups hlone).1, fun hcarry => not_not.2 ((hgroups hlone).2 hcarry)⟩

/-- **The answer is right** about two databases exactly when they are the same and steady, or differ in what the comparison
looks at. -/
theorem mdbCompare_exact_iff (a b : MdbObj) (flags : ℕ) :
    (mdbCompare a b (BitVec.allOnes 64) flags = 0 ↔ SameMdb a.data b.data) ↔
      (SameMdb a.data b.data ∧ Steady a b) ∨ (¬ SameMdb a.data b.data ∧ ¬ Unseen a b) := by
  rw [mdbCompare_eq_zero_iff]
  by_cases hsame : SameMdb a.data b.data
  · rw [hsame.unseen_iff]
    simp [hsame]
  · simp [hsame]

/-- a database with one router port -/
def oneRouterPort : MdbObj := rtnlMdbAddMrport rtnlMdbAlloc 7

/-- **It differs from itself.** -/
theorem one_router_port_differs : ¬ (mdbCompare oneRouterPort oneRouterPort (BitVec.allOnes 64) 0 = 0 ↔
    SameMdb oneRouterPort.data oneRouterPort.data) := by
  intro h
  exact absurd (h.2 (SameMdb.refl _)) (by decide)

end Libnl.Mdb
