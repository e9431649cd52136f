/-
Copies of trees of extended matches (`rtnl_ematch_tree_clone` in `lib/route/cls/ematch.c`).

A copy has the shape of its source, and the fields of every match. The data of a match are a block of their own, and the
copy gets a new one: `rtnl_ematch_set_ops` allocates it, and nobody copies anything into it. Any allocation may fail; the
copy of the list is then given up, which the caller does not look at, so an empty tree is delivered.

What a block of data holds depends on the kind. Here it is any type, with the contents of a block of zeros.

- `cloneEmatchList_eq`: what becomes of a list.
- `tree_clone_same_iff`: the copy is the same as its source exactly when no allocation fails and all data are zeros.
- `clone_loses_data`: a comparison with a number, and its copy.
-/
import Mathlib.Tactic

namespace Libnl.EmatchClone

/-! ## Trees -/

/-- `struct rtnl_ematch_ops`, as far as copies look at it -/
structure EmatchOps where
  eoKind : UInt16
  eoDatalen : ℕ
deriving DecidableEq

/-- `struct rtnl_ematch`, with data in `D`. Operations come with their kind and with a block for the data, if they have
any; `e_datalen` is the size of that block. -/
structure Ematch (D : Type) where
  eId : UInt16
  eKind : UInt16
  eFlags : UInt16
  eIndex : UInt16
  eOps : Option EmatchOps
  eData : Option D
  kind_eq : ∀ ops ∈ eOps, ops.eoKind = eKind
  data_eq : eData.isSome = eOps.any fun ops => decide (0 < ops.eoDatalen)

/-- a list of matches: the first one, its `e_childs`, and those behind it in `e_list` -/
inductive EmatchList (D : Type) where
  | nil
  | cons (e : Ematch D) (childs next : EmatchList D)

structure EmatchTree (D : Type) where
  etProgid : UInt16
  etList : EmatchList D

/-! ## Copies -/

section
variable {D : Type} (zeroed : ℕ → D) (alloc : ℕ → Bool)

/-- a match with the fields of another one, and the operations set -/
def withOps (pos : Ematch D) : Ematch D where
  eId := pos.eId
  eKind := (pos.eOps.map EmatchOps.eoKind).getD pos.eKind
  eFlags := pos.eFlags
  eIndex := pos.eIndex
  eOps := pos.eOps
  eData := pos.eOps.bind fun ops => if 0 < ops.eoDatalen then some (zeroed ops.eoDatalen) else none
  kind_eq ops hops := by rw [Option.mem_def.1 hops]; rfl
  data_eq := by
    cases pos.eOps with
    | none => rfl
    | some ops =>
      rw [Option.bind_some, Option.any_some]
      split_ifs with h
      · simp [h]
      · simp [h]

/-- allocations for one match: the match, and its data -/
def Ematch.allocs (e : Ematch D) : ℕ := if e.eData.isSome then 2 else 1

/-- loop body of `clone_ematch_list` without the children: `rtnl_ematch_alloc`, the fields, `rtnl_ematch_set_ops`. The
number counts the allocations; `alloc` says which of them succeed. -/
def cloneEmatch (pos : Ematch D) (k : ℕ) : Option (Ematch D × ℕ) :=
  if alloc k then
    match pos.eOps with
    | none => some (withOps zeroed pos, k + 1)
    | some ops =>
      if 0 < ops.eoDatalen then if alloc (k + 1) then some (withOps zeroed pos, k + 2) else none
      else some (withOps zeroed pos, k + 1)
  else none

/-- `clone_ematch_list`; `none` is `-NLE_NOMEM`, with the whole list freed -/
def cloneEmatchList : EmatchList D → ℕ → Option (EmatchList D × ℕ)
  | .nil, k => some (.nil, k)
  | .cons pos childs next, k => do
    let (new, k) ← cloneEmatch zeroed alloc pos k
    let (childs', k) ← cloneEmatchList childs k
    let (next', k) ← cloneEmatchList next k
    return (.cons new childs' next', k)

/-- `rtnl_ematch_tree_clone`; what copying the list returns is not looked at -/
def rtnlEmatchTreeClone (src : Option (EmatchTree D)) : Option (EmatchTree D) :=
  match src with
  | none => none
  | some src =>
    if alloc 0 then
      some ⟨src.etProgid, match cloneEmatchList zeroed alloc src.etList 1 with
        | some r => r.1
        | none => .nil⟩
    else none

/-! ## The same tree -/

/-- the same identity, kind, flags and index, and the same data -/
structure SameEmatch (e e' : Ematch D) : Prop where
  id : e'.eId = e.eId
  kind : e'.eKind = e.eKind
  flags : e'.eFlags = e.eFlags
  index : e'.eIndex = e.eIndex
  data : e'.eData = e.eData

/-- the same shape, and the same matches -/
def SameList : EmatchList D → EmatchList D → Prop
  | .nil, .nil => True
  | .cons e childs next, .cons e' childs' next' => SameEmatch e e' ∧ SameList childs childs' ∧ SameList next next'
  | _, _ => False

structure SameTree (t t' : EmatchTree D) : Prop where
  progid : t'.etProgid = t.etProgid
  list : SameList t.etList t'.etList

/-- the data are zeros, if there are any -/
def Ematch.Zero (e : Ematch D) : Prop := ∀ d ∈ e.eData, ∀ ops ∈ e.eOps, d = zeroed ops.eoDatalen

namespace EmatchList

/-- number of allocations for a copy -/
def allocs : EmatchList D → ℕ
  | nil => 0
  | cons e childs next => e.allocs + childs.allocs + next.allocs

/-- a copy, if there is memory for it -/
def copied : EmatchList D → EmatchList D
  | nil => nil
  | cons e childs next => cons (withOps zeroed e) childs.copied next.copied

/-- all data are zeros -/
def Zero : EmatchList D → Prop
  | nil => True
  | cons e childs next => e.Zero zeroed ∧ childs.Zero ∧ next.Zero

end EmatchList

end

section
variable {D : Type} {zeroed : ℕ → D} {alloc : ℕ → Bool}

/-- the allocations from `k` on, up to a number of them, succeed -/
def AllocsFrom (alloc : ℕ → Bool) (k n : ℕ) : Prop := ∀ i, k ≤ i → i < k + n → alloc i = true

theorem allocsFrom_add (k m n : ℕ) : AllocsFrom alloc k (m + n) ↔ AllocsFrom alloc k m ∧ AllocsFrom alloc (k + m) n := by
  constructor
  · intro h
    exact ⟨fun i hk hi => h i hk (by omega), fun i hk hi => h i (by omega) (by omega)⟩
  · rintro ⟨h, h'⟩ i hk hi
    by_cases hlt : i < k + m
    · exact h i hk hlt
    · exact h' i (by omega) (by omega)

theorem allocsFrom_one (k : ℕ) : AllocsFrom alloc k 1 ↔ alloc k = true := by
  constructor
  · intro h
    exact h k le_rfl (Nat.lt_succ_self k)
  · intro h i hk hi
    rwa [show i = k by omega]

theorem Ematch.allocs_eq (e : Ematch D) :
    e.allocs = match e.eOps with
      | none => 1
      | some ops => if 0 < ops.eoDatalen then 2 else 1 := by
  rw [allocs, e.data_eq]
  cases e.eOps with
  | none => rfl
  | some ops => simp only [Option.any_some, decide_eq_true_eq]

variable (zeroed alloc) in
/-- one match is copied if there is memory for it -/
theorem cloneEmatch_eq (e : Ematch D) (k : ℕ) :
    (AllocsFrom alloc k e.allocs → cloneEmatch zeroed alloc e k = some (withOps zeroed e, k + e.allocs)) ∧
      (¬ AllocsFrom alloc k e.allocs → cloneEmatch zeroed alloc e k = none) := by
  rw [e.allocs_eq, cloneEmatch]
  cases e.eOps with
  | none =>
    rw [allocsFrom_one]
    exact ⟨fun h => if_pos h, fun h => if_neg h⟩
  | some ops =>
    dsimp only
    by_cases hdata : 0 < ops.eoDatalen
    · rw [if_pos hdata, if_pos hdata, show (2 : ℕ) = 1 + 1 from rfl, allocsFrom_add, allocsFrom_one, allocsFrom_one]
      constructor
      · rintro ⟨h, h'⟩
        rw [if_pos h, if_pos h']
      · intro h
        by_cases hfirst : alloc k = true
        · rw [if_pos hfirst, if_neg fun h' => h ⟨hfirst, h'⟩]
        · rw [if_neg hfirst]
    · rw [if_neg hdata, if_neg hdata, allocsFrom_one]
      exact ⟨fun h => if_pos h, fun h => if_neg h⟩

variable (zeroed alloc) in
/-- **A list** is copied if there is memory for it, and given up else. -/
theorem cloneEmatchList_eq (l : EmatchList D) (k : ℕ) :
    (AllocsFrom alloc k l.allocs → cloneEmatchList zeroed alloc l k = some (l.copied zeroed, k + l.allocs)) ∧
      (¬ AllocsFrom alloc k l.allocs → cloneEmatchList zeroed alloc l k = none) := by
  induction l generalizing k with
  | nil => exact ⟨fun _ => rfl, fun h => absurd (fun i hk hi => absurd hi (by simp [EmatchList.allocs]; omega)) h⟩
  | cons e childs next ihc ihn =>
    obtain ⟨hnew, hnew'⟩ := cloneEmatch_eq zeroed alloc e k
    obtain ⟨hchilds, hchilds'⟩ := ihc (k + e.allocs)
    obtain ⟨hnext, hnext'⟩ := ihn (k + e.allocs + childs.allocs)
    rw [EmatchList.allocs, allocsFrom_add, allocsFrom_add, cloneEmatchList, ← Nat.add_assoc]
    constructor
    · rintro ⟨⟨h, hc⟩, hn⟩
      simp only [hnew h, hchilds hc, hnext hn, Option.bind_eq_bind, Option.bind_some, EmatchList.copied]
      exact congrArg (fun n => some (_, n)) (by omega)
    · intro h
      by_cases h1 : AllocsFrom alloc k e.allocs
      · by_cases h2 : AllocsFrom alloc (k + e.allocs) childs.allocs
        · have h3 : ¬ AllocsFrom alloc (k + e.allocs + childs.allocs) next.allocs := fun hn => h ⟨⟨h1, h2⟩, hn⟩
          simp only [hnew h1, hchilds h2, hnext' h3, Option.bind_eq_bind, Option.bind_some, Option.bind_none]
        · simp only [hnew h1, hchilds' h2, Option.bind_eq_bind, Option.bind_some, Option.bind_none]
      · simp only [hnew' h1, Option.bind_eq_bind, Option.bind_none]

/-! ## What a copy keeps -/

/-- everything but the data -/
theorem sameEmatch_withOps_iff (e : Ematch D) : SameEmatch e (withOps zeroed e) ↔ e.Zero zeroed := by
  have hkind : (withOps zeroed e).eKind = e.eKind := by
    have hops := e.kind_eq
    change (e.eOps.map EmatchOps.eoKind).getD e.eKind = e.eKind
    cases heq : e.eOps with
    | none => rfl
    | some ops => exact hops ops heq
  have hdata : (withOps zeroed e).eData = e.eData ↔ e.Zero zeroed := by
    have hsome := e.data_eq
    change (e.eOps.bind fun ops => if 0 < ops.eoDatalen then some (zeroed ops.eoDatalen) else none) = e.eData ↔ _
    unfold Ematch.Zero
    cases heq : e.eOps with
    | none =>
      rw [heq, Option.any_none, Option.isSome_eq_false_iff, Option.isNone_iff_eq_none] at hsome
      simp [hsome]
    | some ops =>
      rw [heq, Option.any_some] at hsome
      by_cases hlen : 0 < ops.eoDatalen
      · rw [decide_eq_true hlen] at hsome
        obtain ⟨d, hd⟩ := Option.isSome_iff_exists.1 hsome
        simp [hd, hlen, eq_comm]
      · rw [decide_eq_false hlen] at hsome
        rw [Option.isSome_eq_false_iff.1 hsome |> Option.isNone_iff_eq_none.1]
        simp [hlen]
  constructor
  · intro h
    exact hdata.1 h.data
  · intro h
    exact ⟨rfl, hkind, rfl, rfl, hdata.2 h⟩

theorem sameList_copied_iff (l : EmatchList D) : SameList l (l.copied zeroed) ↔ l.Zero zeroed := by
  induction l with
  | nil => exact Iff.rfl
  | cons e childs next ihc ihn =>
    exact and_congr (sameEmatch_withOps_iff e) (and_congr ihc ihn)

/-- nothing is the same as an empty list but an empty list -/
theorem sameList_nil_iff (l : EmatchList D) : SameList l .nil ↔ l = .nil := by
  cases l with
  | nil => exact iff_of_true trivial rfl
  | cons e childs next => exact iff_of_false (fun h => h) (fun h => by cases h)

/-- **A copy is the same** as its source exactly when every allocation succeeds, and all data of the source are zeros. -/
theorem tree_clone_same_iff (src : EmatchTree D) :
    (∃ dst, rtnlEmatchTreeClone zeroed alloc (some src) = some dst ∧ SameTree src dst) ↔
      AllocsFrom alloc 0 (1 + src.etList.allocs) ∧ src.etList.Zero zeroed := by
  obtain ⟨hsome, hnone⟩ := cloneEmatchList_eq zeroed alloc src.etList 1
  rw [allocsFrom_add, allocsFrom_one, rtnlEmatchTreeClone]
  by_cases htree : alloc 0 = true
  · simp only [htree, if_true, true_and, Option.some.injEq, exists_eq_left']
    by_cases hlist : AllocsFrom alloc 1 src.etList.allocs
    · simp only [hsome hlist, Nat.zero_add, hlist, true_and]
      rw [← sameList_copied_iff]
      exact ⟨fun h => h.list, fun h => ⟨rfl, h⟩⟩
    · simp only [hnone hlist, Nat.zero_add, hlist, false_and, iff_false]
      intro h
      have hempty := (sameList_nil_iff _).1 h.list
      rw [hempty] at hlist
      exact hlist fun i hk hi => by simp only [EmatchList.allocs] at hi; omega
  · simp [htree]

end

/-! ## A match that loses its data -/

def TCF_EM_CMP : UInt16 := 1

/-- a comparison with 80, and nothing else: `struct tcf_em_cmp` has twelve bytes -/
def cmpEmatch : Ematch (List UInt8) where
  eId := 0
  eKind := TCF_EM_CMP
  eFlags := 0
  eIndex := 0
  eOps := some ⟨TCF_EM_CMP, 12⟩
  eData := some [80, 0, 0, 0, 255, 255, 0, 0, 2, 0, 2, 1]
  kind_eq := by
    intro ops hops
    rw [← Option.some.inj hops]
  data_eq := rfl

/-- **Its copy** compares with zero, although there is memory for everything. -/
theorem clone_loses_data : ¬ ∃ dst, rtnlEmatchTreeClone (fun n => List.replicate n 0) (fun _ => true)
    (some ⟨1, .cons cmpEmatch .nil .nil⟩) = some dst ∧ SameTree ⟨1, .cons cmpEmatch .nil .nil⟩ dst := by
  rintro ⟨dst, hdst, hsame⟩
  have hlist := hsame.list
  rw [← Option.some.inj hdst] at hlist
  have hdata := hlist.1.data
  exact absurd hdata (by decide)

end Libnl.EmatchClone
