/-
Cloning a generic netlink family.

The heads of the new object are copies of those of the source, and nobody makes them heads of their own again. So a copy of an
entry is added in front of the new head, which is behind the last entry of the source: the loop over the source comes to it,
and makes a copy of the copy. Only the loop over an empty list ends, and then the new head is still no list.

- `Copied`: the pointers after the flat copy.
- `clone_of_ops`, `clone_of_grps`, `clone_of_empty`: what becomes of a family.
- `family_never_cloned`: no family is cloned. `one_op_is_not_cloned`: one with an operation.
-/
import Mathlib.Tactic
import Libnl.Genl.Family

namespace Libnl.Genl

open Msg Rings

/-- the same operations and groups, in lists of its own, with the lists of the source as they were -/
structure Cloned (src : GenlFamily) (ops : List (ℕ × GenlFamilyOp)) (grps : List (ℕ × GenlFamilyGrp)) (m' : Mem)
    (dst : GenlFamily) : Prop where
  lists : ∃ ops' grps', Holds m' dst ops' grps' ∧ ops'.map Prod.snd = ops.map Prod.snd ∧ grps'.map Prod.snd = grps.map Prod.snd ∧
    (ops'.map Prod.fst).Disjoint (ops.map Prod.fst) ∧ (grps'.map Prod.fst).Disjoint (grps.map Prod.fst)
  source : Holds m' src ops grps

/-! ## The flat copy -/

/-- memory with the new object, whose heads point where those of the source point -/
structure Copied (m : Mem) (src : GenlFamily) (m1 : Mem) (dst : GenlFamily) : Prop where
  gfOps : dst.gfOps = m.brk
  gfMcGrps : dst.gfMcGrps = m.brk + 1
  brk : m1.brk = m.brk + 2
  old : ∀ a < m.brk, m1.links.next a = m.links.next a ∧ m1.links.prev a = m.links.prev a
  nextOps : m1.links.next dst.gfOps = m.links.next src.gfOps
  prevOps : m1.links.prev dst.gfOps = m.links.prev src.gfOps
  prevGrps : m1.links.prev dst.gfMcGrps = m.links.prev src.gfMcGrps

theorem Holds.copied {m m0 : Mem} {src new : GenlFamily} {ops : List (ℕ × GenlFamilyOp)} {grps : List (ℕ × GenlFamilyGrp)}
    (hold : Holds m src ops grps) (h : nlObjectAlloc m = (m0, some new)) :
    Copied m src (flatCopy m0 new src).1 (flatCopy m0 new src).2 := by
  have hops : src.gfOps < m.brk := hold.rings.used _ (Or.inl List.mem_cons_self)
  have hgrps : src.gfMcGrps < m.brk := hold.rings.used _ (Or.inr List.mem_cons_self)
  unfold nlObjectAlloc at h
  rcases calloc_cases m 2 with hfail | hsome
  · simp only [hfail] at h
    cases h
  · simp only [hsome] at h
    cases h
    have hops1 : src.gfOps ≠ m.brk := hops.ne
    have hops2 : src.gfOps ≠ m.brk + 1 := (hops.trans (Nat.lt_succ_self _)).ne
    have hgrps1 : src.gfMcGrps ≠ m.brk := hgrps.ne
    have hgrps2 : src.gfMcGrps ≠ m.brk + 1 := (hgrps.trans (Nat.lt_succ_self _)).ne
    refine ⟨rfl, rfl, rfl, fun a ha => ?_, ?_, ?_, ?_⟩
    · have ha1 : a ≠ m.brk := ha.ne
      have ha2 : a ≠ m.brk + 1 := (ha.trans (Nat.lt_succ_self _)).ne
      simp [flatCopy, copyHead, familyConstructor, Links.init, Links.setNext, Links.setPrev, ha1, ha2]
    · simp [flatCopy, copyHead, familyConstructor, Links.init, Links.setNext, Links.setPrev, hops1, hops2]
    · simp [flatCopy, copyHead, familyConstructor, Links.init, Links.setNext, Links.setPrev, hops1, hops2]
    · simp [flatCopy, copyHead, familyConstructor, Links.init, Links.setNext, Links.setPrev, hgrps1, hgrps2]

/-! ## The loops -/

/-- a round of the first loop -/
theorem cloneOp_adds (s : Mem × GenlFamily) (pos : ℕ) (s' : Mem × GenlFamily) (err : ℤ) (h : cloneOp s pos = some (s', err)) :
    err < 0 ∨ s'.1.links = s.1.links.addTail s.1.brk s.2.gfOps ∧ s'.1.brk = s.1.brk + 1 ∧ s'.2.gfOps = s.2.gfOps := by
  obtain ⟨op, -, hadd⟩ := Option.map_eq_some_iff.1 h
  unfold genlFamilyAddOp at hadd
  rcases calloc_cases s.1 1 with hfail | hsome
  · simp only [hfail] at hadd
    cases hadd
    exact Or.inl (by decide)
  · simp only [hsome] at hadd
    cases hadd
    exact Or.inr ⟨rfl, rfl, rfl⟩

/-- and of the second -/
theorem cloneGrp_adds (s : Mem × GenlFamily) (pos : ℕ) (s' : Mem × GenlFamily) (err : ℤ) (h : cloneGrp s pos = some (s', err)) :
    err < 0 ∨ s'.1.links = s.1.links.addTail s.1.brk s.2.gfMcGrps ∧ s'.1.brk = s.1.brk + 1 ∧ s'.2.gfMcGrps = s.2.gfMcGrps := by
  obtain ⟨grp, -, hadd⟩ := Option.map_eq_some_iff.1 h
  unfold genlFamilyAddGrp at hadd
  by_cases hlong : GENL_NAMSIZ ≤ grp.name.length
  · simp only [if_pos hlong] at hadd
    cases hadd
    exact Or.inl (by decide)
  simp only [if_neg hlong] at hadd
  rcases calloc_cases s.1 1 with hfail | hsome
  · simp only [hfail] at hadd
    cases hadd
    exact Or.inl (by decide)
  · simp only [hsome] at hadd
    cases hadd
    exact Or.inr ⟨rfl, rfl, rfl⟩

section

variable {m m1 : Mem} {src dst : GenlFamily} {ops : List (ℕ × GenlFamilyOp)} {grps : List (ℕ × GenlFamilyGrp)}

/-- **Operations**: the loop over them does not come to its end. -/
theorem clone_of_ops (h : Holds m src ops grps) (hops : ops ≠ []) (hc : Copied m src m1 dst) {fuel : ℕ}
    {r : (Mem × GenlFamily) × ℤ} (hclone : familyClone fuel (m1, dst) src = some r) : r.2 < 0 := by
  obtain ⟨⟨x, op⟩, ops, rfl⟩ := List.exists_cons_of_ne_nil hops
  have hring : Ring m.links src.gfOps (x :: ops.map Prod.fst) := h.rings.first
  have hused : ∀ a ∈ src.gfOps :: x :: ops.map Prod.fst, a < m.brk := fun a ha => h.rings.used a (Or.inl ha)
  have hhead : src.gfOps < m.brk := hused _ List.mem_cons_self
  have hpos : m1.links.next src.gfOps = x := (hc.old _ hhead).1.trans hring.first
  have hchased : Chased m1.links dst.gfOps x (ops.map Prod.fst) :=
    hring.chased hc.prevOps fun a ha => (hc.old a (hused a (List.mem_cons_of_mem _ ha))).1
  obtain ⟨⟨s, err⟩, hloop, hrest⟩ := Option.bind_eq_some_iff.1 hclone
  dsimp only at hloop
  rw [hpos] at hloop
  have hneg := forEach_never_done (fun s => s.1.brk) (fun s => s.2.gfOps) cloneOp_adds hchased
    (List.nodup_cons.1 hring.nodup).1 (by rw [hc.brk]; omega)
    (fun a ha => by have := hused a (List.mem_cons_of_mem _ ha); rw [hc.brk]; omega) hloop
  rw [if_pos hneg] at hrest
  obtain rfl := Option.some.inj hrest
  exact hneg

/-- without operations the first loop is done at once -/
theorem clone_without_ops (h : Holds m src [] grps) (hc : Copied m src m1 dst) {fuel : ℕ} {r : (Mem × GenlFamily) × ℤ}
    (hclone : familyClone fuel (m1, dst) src = some r) :
    forEach linksOf cloneGrp src.gfMcGrps fuel (m1, dst) (m1.links.next src.gfMcGrps) = some r := by
  have hhead : src.gfOps < m.brk := h.rings.used _ (Or.inl List.mem_cons_self)
  have hpos : m1.links.next src.gfOps = src.gfOps := (hc.old _ hhead).1.trans h.rings.first.empty.1
  cases fuel with
  | zero => cases hclone
  | succ fuel =>
    unfold familyClone at hclone
    dsimp only at hclone
    rw [hpos, forEach_empty, Option.bind_some, if_neg (lt_irrefl (0 : ℤ))] at hclone
    exact hclone

/-- **Groups**: the loop over them does not come to its end, if it is begun. -/
theorem clone_of_grps (h : Holds m src [] grps) (hgrps : grps ≠ []) (hc : Copied m src m1 dst) {fuel : ℕ}
    {r : (Mem × GenlFamily) × ℤ} (hclone : familyClone fuel (m1, dst) src = some r) : r.2 < 0 := by
  have hloop := clone_without_ops h hc hclone
  obtain ⟨⟨x, grp⟩, grps, rfl⟩ := List.exists_cons_of_ne_nil hgrps
  have hring : Ring m.links src.gfMcGrps (x :: grps.map Prod.fst) := h.rings.second
  have hused : ∀ a ∈ src.gfMcGrps :: x :: grps.map Prod.fst, a < m.brk := fun a ha => h.rings.used a (Or.inr ha)
  have hhead : src.gfMcGrps < m.brk := hused _ List.mem_cons_self
  have hpos : m1.links.next src.gfMcGrps = x := (hc.old _ hhead).1.trans hring.first
  have hchased : Chased m1.links dst.gfMcGrps x (grps.map Prod.fst) :=
    hring.chased hc.prevGrps fun a ha => (hc.old a (hused a (List.mem_cons_of_mem _ ha))).1
  obtain ⟨s, err⟩ := r
  rw [hpos] at hloop
  exact forEach_never_done (fun s => s.1.brk) (fun s => s.2.gfMcGrps) cloneGrp_adds hchased
    (List.nodup_cons.1 hring.nodup).1 (by rw [hc.brk]; omega)
    (fun a ha => by have := hused a (List.mem_cons_of_mem _ ha); rw [hc.brk]; omega) hloop

/-- **Nothing at all**: the new head points to the head of the source. -/
theorem clone_of_empty (h : Holds m src [] []) (hc : Copied m src m1 dst) {fuel : ℕ} {r : (Mem × GenlFamily) × ℤ}
    (hclone : familyClone fuel (m1, dst) src = some r) : r = ((m1, dst), 0) ∧ m1.links.next dst.gfOps = src.gfOps := by
  have hloop := clone_without_ops h hc hclone
  have hhead : src.gfMcGrps < m.brk := h.rings.used _ (Or.inr List.mem_cons_self)
  have hpos : m1.links.next src.gfMcGrps = src.gfMcGrps := (hc.old _ hhead).1.trans h.rings.second.empty.1
  cases fuel with
  | zero => cases hloop
  | succ fuel =>
    rw [hpos, forEach_empty] at hloop
    exact ⟨(Option.some.inj hloop).symm, hc.nextOps.trans h.rings.first.empty.1⟩

/-- what a clone comes from -/
theorem clone_made {fuel : ℕ} {m' : Mem} {dst : GenlFamily} (h : nlObjectClone fuel m src = some (m', some dst)) :
    ∃ m0 new r, nlObjectAlloc m = (m0, some new) ∧ familyClone fuel (flatCopy m0 new src) src = some r ∧ 0 ≤ r.2 ∧
      r.1 = (m', dst) := by
  unfold nlObjectClone at h
  generalize hnew : nlObjectAlloc m = a at h
  obtain ⟨m0, new⟩ := a
  cases new with
  | none =>
    cases h
  | some new =>
    dsimp only at h
    obtain ⟨r, hclone, hrest⟩ := Option.bind_eq_some_iff.1 h
    by_cases hneg : r.2 < 0
    · rw [if_pos hneg] at hrest
      obtain ⟨m2, -, hmade⟩ := Option.map_eq_some_iff.1 hrest
      cases hmade
    · rw [if_neg hneg] at hrest
      cases hrest
      exact ⟨m0, new, r, rfl, hclone, not_lt.1 hneg, rfl⟩

/-- **No family is cloned**, with whatever lists, and however memory is granted. -/
theorem family_never_cloned (h : Holds m src ops grps) :
    ¬ ∃ fuel m' dst, nlObjectClone fuel m src = some (m', some dst) ∧ Cloned src ops grps m' dst := by
  rintro ⟨fuel, m', dst, hmade, hcloned⟩
  obtain ⟨m0, new, r, hnew, hclone, herr, hr⟩ := clone_made hmade
  have hhead : src.gfOps < m.brk := h.rings.used _ (Or.inl List.mem_cons_self)
  have hc := h.copied hnew
  by_cases hops : ops = []
  · subst hops
    by_cases hgrps : grps = []
    · subst hgrps
      obtain ⟨rfl, hnext⟩ := clone_of_empty h hc hclone
      obtain rfl : m' = (flatCopy m0 new src).1 := (congrArg Prod.fst hr).symm
      obtain rfl : dst = (flatCopy m0 new src).2 := (congrArg Prod.snd hr).symm
      -- the new list is one without entries, so its head should point to itself
      obtain ⟨ops', grps', hdst, hsame, -⟩ := hcloned.lists
      obtain rfl : ops' = [] := List.map_eq_nil_iff.1 hsame
      have hself := hdst.rings.first.empty.1
      rw [hnext, hc.gfOps] at hself
      exact hhead.ne hself
    · exact absurd (clone_of_grps h hgrps hc hclone) (not_lt.2 herr)
  · exact absurd (clone_of_ops h hops hc hclone) (not_lt.2 herr)

end

/-- memory with nothing in it, of which there is always more -/
def noMem : Mem := ⟨⟨id, id⟩, fun _ => none, fun _ => none, 0, fun _ => true, 0⟩

/-- a new family, with the memory it is in -/
def noLists : Mem × GenlFamily := (familyConstructor { noMem with brk := 2, asked := 1 } ⟨0, 0, 0, [], 0, 0, 0, 0, 1⟩,
  ⟨0, 0, 0, [], 0, 0, 0, 0, 1⟩)

theorem noLists_holds : Holds noLists.1 noLists.2 [] [] := alloc_holds (m := noMem) rfl

/-- a new family is not cloned -/
theorem new_family_not_cloned : ¬ ∃ fuel m' dst, nlObjectClone fuel noLists.1 noLists.2 = some (m', some dst) ∧
    Cloned noLists.2 [] [] m' dst := family_never_cloned noLists_holds

/-- one with an operation -/
def oneOp : Mem × GenlFamily := (genlFamilyAddOp noLists 3 4).1

/-- **A family with an operation**: there is no number of rounds after which the loop is done. -/
theorem one_op_runs_on : ¬ ∃ fuel m' dst, nlObjectClone fuel oneOp.1 oneOp.2 = some (m', some dst) := by
  rintro ⟨fuel, m', dst, hmade⟩
  obtain ⟨m1, f1, err, hadd, hcases⟩ := add_op_holds noLists_holds 3 4
  obtain rfl : err = 0 := (congrArg Prod.snd hadd).symm
  have hone : (m1, f1) = oneOp := (congrArg Prod.fst hadd).symm
  have hold : Holds m1 f1 [(2, ⟨3, 4⟩)] [] := (hcases.resolve_left fun h => lt_irrefl _ h.1).2
  obtain ⟨rfl, rfl⟩ : m1 = oneOp.1 ∧ f1 = oneOp.2 := ⟨congrArg Prod.fst hone, congrArg Prod.snd hone⟩
  obtain ⟨m0, new, r, hnew, hclone, herr, -⟩ := clone_made hmade
  exact absurd (clone_of_ops hold (List.cons_ne_nil _ _) (hold.copied hnew) hclone) (not_lt.2 herr)

end Libnl.Genl
