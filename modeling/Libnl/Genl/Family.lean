/-
Generic netlink families (`lib/genl/family.c`).

A family has a list of operations and a list of multicast groups, each a ring through a head that is part of the object. A
copy of an object is flat at first, so that its heads point where those of the source point; the clone function of the module
then adds a copy of each entry of the source to the lists of the new object.

- `genlFamilyAddOp`, `familyClone`, `nlObjectClone`, …: the functions of the source.
- `Holds`: a family and its lists. `built_holds`: families that were put together with the functions of the library.
-/
import Mathlib.Tactic
import Libnl.Core.Rings
import Libnl.Message.Msg

namespace Libnl.Genl

open Msg Rings

def GENL_NAMSIZ : ℕ := 16

def FAMILY_ATTR_OPS : BitVec 64 := 0x20

/-- `struct genl_family_op` -/
structure GenlFamilyOp where
  oId : BitVec 32
  oFlags : BitVec 32
deriving DecidableEq, Repr

/-- `struct genl_family_grp` -/
structure GenlFamilyGrp where
  name : List UInt8
  id : BitVec 32
deriving DecidableEq, Repr

/-- `struct genl_family`; a head is known by its number -/
structure GenlFamily where
  ceMsgtype : BitVec 32
  ceMask : BitVec 64
  gfId : BitVec 16
  gfName : List UInt8
  gfVersion : BitVec 32
  gfHdrsize : BitVec 32
  gfMaxattr : BitVec 32
  gfOps : ℕ
  gfMcGrps : ℕ

/-- memory: the pointers of nodes, and the entries that nodes are part of -/
structure Mem where
  links : Links
  op : ℕ → Option GenlFamilyOp
  grp : ℕ → Option GenlFamilyGrp
  /-- this node and those behind it are not in use -/
  brk : ℕ
  /-- which allocations succeed, and how many were asked for -/
  grants : ℕ → Bool
  asked : ℕ

/-- `calloc` of something with `n` nodes: the first of them -/
def Mem.calloc (m : Mem) (n : ℕ) : Option ℕ × Mem :=
  if m.grants m.asked then (some m.brk, { m with brk := m.brk + n, asked := m.asked + 1 })
  else (none, { m with asked := m.asked + 1 })

/-- `family_constructor` -/
def familyConstructor (m : Mem) (family : GenlFamily) : Mem :=
  { m with links := (m.links.init family.gfOps).init family.gfMcGrps }

/-- `nl_object_alloc` of a family -/
def nlObjectAlloc (m : Mem) : Mem × Option GenlFamily :=
  match m.calloc 2 with
  | (none, m) => (m, none)
  | (some head, m) =>
    let new : GenlFamily := ⟨0, 0, 0, [], 0, 0, 0, head, head + 1⟩
    (familyConstructor m new, some new)

/-- `genl_family_add_op` -/
def genlFamilyAddOp (s : Mem × GenlFamily) (id flags : BitVec 32) : (Mem × GenlFamily) × ℤ :=
  match s.1.calloc 1 with
  | (none, m) => ((m, s.2), -NLE_NOMEM)
  | (some op, m) =>
    (({ m with op := Function.update m.op op (some ⟨id, flags⟩), links := m.links.addTail op s.2.gfOps },
      { s.2 with ceMask := s.2.ceMask ||| FAMILY_ATTR_OPS }), 0)

/-- `genl_family_add_grp` -/
def genlFamilyAddGrp (s : Mem × GenlFamily) (id : BitVec 32) : Option (List UInt8) → (Mem × GenlFamily) × ℤ
  | none => (s, -NLE_INVAL)
  | some name =>
    if GENL_NAMSIZ ≤ name.length then (s, -NLE_INVAL)
    else
      match s.1.calloc 1 with
      | (none, m) => ((m, s.2), -NLE_NOMEM)
      | (some grp, m) =>
        (({ m with grp := Function.update m.grp grp (some ⟨name, id⟩), links := m.links.addTail grp s.2.gfMcGrps }, s.2), 0)

/-- the body of the first loop of `family_clone`, at an operation -/
def cloneOp (s : Mem × GenlFamily) (ops : ℕ) : Option ((Mem × GenlFamily) × ℤ) :=
  (s.1.op ops).map fun op => genlFamilyAddOp s op.oId op.oFlags

/-- and of the second, at a group -/
def cloneGrp (s : Mem × GenlFamily) (grp : ℕ) : Option ((Mem × GenlFamily) × ℤ) :=
  (s.1.grp grp).map fun g => genlFamilyAddGrp s g.id (some g.name)

/-- the pointers in the memory of a loop -/
def linksOf (s : Mem × GenlFamily) : Links := s.1.links

/-- `family_clone`; `none` if it is not done after so many rounds of a loop, or reads something that is no entry -/
def familyClone (fuel : ℕ) (s : Mem × GenlFamily) (src : GenlFamily) : Option ((Mem × GenlFamily) × ℤ) :=
  (forEach linksOf cloneOp src.gfOps fuel s (s.1.links.next src.gfOps)).bind fun r =>
    if r.2 < 0 then some r
    else forEach linksOf cloneGrp src.gfMcGrps fuel r.1 (r.1.1.links.next src.gfMcGrps)

/-- an operation is taken out of its list, and freed -/
def freeOp (m : Mem) (ops : ℕ) : Option Mem :=
  (m.op ops).map fun _ => { m with links := m.links.del ops, op := Function.update m.op ops none }

def freeGrp (m : Mem) (grp : ℕ) : Option Mem :=
  (m.grp grp).map fun _ => { m with links := m.links.del grp, grp := Function.update m.grp grp none }

/-- `family_free_data` -/
def familyFreeData (fuel : ℕ) (m : Mem) (family : GenlFamily) : Option Mem :=
  let ops := m.links.next family.gfOps
  (forEachSafe Mem.links freeOp family.gfOps fuel m ops (m.links.next ops)).bind fun m =>
    let grp := m.links.next family.gfMcGrps
    forEachSafe Mem.links freeGrp family.gfMcGrps fuel m grp (m.links.next grp)

/-- what `memcpy` does to the pointers of a head -/
def copyHead (l : Links) (dst src : ℕ) : Links := (l.setNext dst (l.next src)).setPrev dst (l.prev src)

/-- the new object with all that the source has, pointers included -/
def flatCopy (m : Mem) (new obj : GenlFamily) : Mem × GenlFamily :=
  ({ m with links := copyHead (copyHead m.links new.gfOps obj.gfOps) new.gfMcGrps obj.gfMcGrps },
    { obj with gfOps := new.gfOps, gfMcGrps := new.gfMcGrps })

/-- `nl_object_clone` of a family -/
def nlObjectClone (fuel : ℕ) (m : Mem) (obj : GenlFamily) : Option (Mem × Option GenlFamily) :=
  match nlObjectAlloc m with
  | (m, none) => some (m, none)
  | (m, some new) =>
    (familyClone fuel (flatCopy m new obj) obj).bind fun r =>
      if r.2 < 0 then (familyFreeData fuel r.1.1 r.1.2).map fun m => (m, none)
      else some (r.1.1, some r.1.2)

/-! ## Lists -/

/-- the family has these operations and groups, each with the node it is at -/
structure Holds (m : Mem) (f : GenlFamily) (ops : List (ℕ × GenlFamilyOp)) (grps : List (ℕ × GenlFamilyGrp)) : Prop where
  rings : Apart m.links m.brk f.gfOps (ops.map Prod.fst) f.gfMcGrps (grps.map Prod.fst)
  op : ∀ p ∈ ops, m.op p.1 = some p.2
  grp : ∀ p ∈ grps, m.grp p.1 = some p.2

theorem calloc_cases (m : Mem) (n : ℕ) :
    m.calloc n = (none, { m with asked := m.asked + 1 }) ∨
      m.calloc n = (some m.brk, { m with brk := m.brk + n, asked := m.asked + 1 }) := by
  unfold Mem.calloc
  cases m.grants m.asked with
  | false => exact Or.inl rfl
  | true => exact Or.inr rfl

/-- **A new family** has empty lists. -/
theorem alloc_holds {m m' : Mem} {f : GenlFamily} (h : nlObjectAlloc m = (m', some f)) : Holds m' f [] [] := by
  unfold nlObjectAlloc at h
  rcases calloc_cases m 2 with hfail | hsome
  · simp only [hfail] at h
    cases h
  · simp only [hsome] at h
    cases h
    refine ⟨⟨?_, init_ring _ _, ?_, ?_⟩, nofun, nofun⟩
    · refine (init_ring m.links m.brk).frame fun a ha => ?_
      obtain rfl := List.mem_singleton.1 ha
      simp [familyConstructor, Links.init, Links.setNext, Links.setPrev]
    · simp
    · simp only [List.map_nil, List.mem_singleton, familyConstructor]
      omega

section

variable {m : Mem} {f : GenlFamily} {ops : List (ℕ × GenlFamilyOp)} {grps : List (ℕ × GenlFamilyGrp)}

/-- other allocations do not matter -/
theorem Holds.asked (h : Holds m f ops grps) (asked : ℕ) : Holds { m with asked := asked } f ops grps :=
  ⟨h.rings, h.op, h.grp⟩

/-- **An operation more**, or an error -/
theorem add_op_holds (h : Holds m f ops grps) (id flags : BitVec 32) :
    ∃ m' f' err, genlFamilyAddOp (m, f) id flags = ((m', f'), err) ∧
      (err < 0 ∧ Holds m' f' ops grps ∨ err = 0 ∧ Holds m' f' (ops ++ [(m.brk, ⟨id, flags⟩)]) grps) := by
  unfold genlFamilyAddOp
  rcases calloc_cases m 1 with hfail | hsome
  · simp only [hfail]
    exact ⟨_, _, _, rfl, Or.inl ⟨by decide, h.asked _⟩⟩
  · simp only [hsome]
    refine ⟨_, _, _, rfl, Or.inr ⟨rfl, ?_, fun p hp => ?_, h.grp⟩⟩
    · rw [List.map_append]
      exact h.rings.addTail
    · dsimp only
      rcases List.mem_append.1 hp with hp | hp
      · have hlt := h.rings.used p.1 (Or.inl (List.mem_cons_of_mem _ (List.mem_map_of_mem hp)))
        rw [Function.update_of_ne hlt.ne]
        exact h.op p hp
      · rw [List.mem_singleton.1 hp]
        exact Function.update_self _ _ _

/-- **A group more**, or an error -/
theorem add_grp_holds (h : Holds m f ops grps) (id : BitVec 32) (name : List UInt8) :
    ∃ m' f' err, genlFamilyAddGrp (m, f) id (some name) = ((m', f'), err) ∧
      (err < 0 ∧ Holds m' f' ops grps ∨ err = 0 ∧ Holds m' f' ops (grps ++ [(m.brk, ⟨name, id⟩)])) := by
  unfold genlFamilyAddGrp
  dsimp only
  by_cases hlong : GENL_NAMSIZ ≤ name.length
  · rw [if_pos hlong]
    exact ⟨_, _, _, rfl, Or.inl ⟨by decide, h⟩⟩
  rw [if_neg hlong]
  rcases calloc_cases m 1 with hfail | hsome
  · simp only [hfail]
    exact ⟨_, _, _, rfl, Or.inl ⟨by decide, h.asked _⟩⟩
  · simp only [hsome]
    refine ⟨_, _, _, rfl, Or.inr ⟨rfl, ?_, h.op, fun p hp => ?_⟩⟩
    · rw [List.map_append]
      exact h.rings.swap.addTail.swap
    · dsimp only
      rcases List.mem_append.1 hp with hp | hp
      · have hlt := h.rings.used p.1 (Or.inr (List.mem_cons_of_mem _ (List.mem_map_of_mem hp)))
        rw [Function.update_of_ne hlt.ne]
        exact h.grp p hp
      · rw [List.mem_singleton.1 hp]
        exact Function.update_self _ _ _

end

/-- a call that adds something to a family -/
inductive Call where
  | op (id flags : BitVec 32)
  | grp (id : BitVec 32) (name : Option (List UInt8))

def Call.apply (s : Mem × GenlFamily) : Call → (Mem × GenlFamily) × ℤ
  | .op id flags => genlFamilyAddOp s id flags
  | .grp id name => genlFamilyAddGrp s id name

/-- **Families that were put together** with calls, whatever these return, have their lists. -/
theorem built_holds {m m' : Mem} {f : GenlFamily} (h : nlObjectAlloc m = (m', some f)) (calls : List Call) :
    ∃ ops grps, Holds (calls.foldl (fun s c => (Call.apply s c).1) (m', f)).1
      (calls.foldl (fun s c => (Call.apply s c).1) (m', f)).2 ops grps := by
  induction calls using List.reverseRecOn with
  | nil => exact ⟨[], [], alloc_holds h⟩
  | append_singleton calls c ih =>
    obtain ⟨ops, grps, hold⟩ := ih
    rw [List.foldl_append, List.foldl_cons, List.foldl_nil]
    generalize calls.foldl (fun s c => (Call.apply s c).1) (m', f) = s at hold ⊢
    obtain ⟨m1, f1⟩ := s
    cases c with
    | op id flags =>
      obtain ⟨m2, f2, err, hadd, ⟨-, hold⟩ | ⟨-, hold⟩⟩ := add_op_holds hold id flags
      · exact ⟨_, _, by rw [Call.apply, hadd]; exact hold⟩
      · exact ⟨_, _, by rw [Call.apply, hadd]; exact hold⟩
    | grp id name =>
      cases name with
      | none => exact ⟨ops, grps, hold⟩
      | some name =>
        obtain ⟨m2, f2, err, hadd, ⟨-, hold⟩ | ⟨-, hold⟩⟩ := add_grp_holds hold id name
        · exact ⟨_, _, by rw [Call.apply, hadd]; exact hold⟩
        · exact ⟨_, _, by rw [Call.apply, hadd]; exact hold⟩

end Libnl.Genl
