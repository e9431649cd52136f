/-
Every sequence of cache calls: the representation of caches over whole runs.

A system is a store and the references its callers hold. Callers allocate objects, take and give back references, change
objects, and call the functions of `lib/cache.c` on several caches, with any outcome of the allocations inside. What is
asked of them is `Legal`: they use objects that are alive, give back only references they hold, put into caches with a
hash table only objects that carry their id attributes, and do not change the identity of an object while it is cached.

- `cache_invariant`: in every run in which no `nl_cache_move` fails (its own, or the one inside `nl_cache_include`), list,
  counter, hash table, back pointers and reference counters agree after every call.
- `move_leaks_reference`: a failing move leaves the object with a reference nobody holds. `nl_cache_add` gives the
  reference back in the same situation.
- `run_inv`: with or without such failures, lists and hash tables agree.
-/
import Mathlib.Tactic
import Libnl.Cache.Functions

namespace Libnl.Cache

open Msg Object

/-! ## Systems and calls -/

structure Sys (α : Type) where
  store : Store α
  /-- references held by callers -/
  held : ObjId → ℕ

inductive Call (α : Type) where
  | alloc (v : ObjVal α)
  | get (o : ObjId)
  | put (o : ObjId)
  | set (o : ObjId) (v : ObjVal α)
  | add (c : CacheId) (o : ObjId) (mem : Alloc)
  | move (c : CacheId) (o : ObjId) (mem : Alloc)
  | remove (o : ObjId)
  | clear (c : CacheId)
  | incl (c : CacheId) (o : ObjId) (cb : ChangeCb) (mem : Alloc)

variable {α : Type} (ops : ℕ → ObjectOps α) (good : ObjVal α → Prop)

def step (s : Sys α) : Call α → Sys α
  | .alloc v => ⟨(nlObjectAlloc s.store v).1, addRef s.held s.store.next⟩
  | .get o => ⟨nlObjectGet s.store o, addRef s.held o⟩
  | .put o => ⟨nlObjectPut s.store o, dropRef s.held o⟩
  | .set o v => ⟨s.store.modObj o fun x => { x with val := v }, s.held⟩
  | .add c o mem => ⟨(nlCacheAdd ops s.store c o mem).1, s.held⟩
  | .move c o mem => ⟨(nlCacheMove ops s.store c o mem).1, s.held⟩
  | .remove o => ⟨nlCacheRemove ops s.store o, s.held⟩
  | .clear c => ⟨nlCacheClear ops s.store c, s.held⟩
  | .incl c o cb mem => ⟨(nlCacheInclude ops s.store c o cb mem).1, s.held⟩

def run (s : Sys α) (calls : List (Call α)) : Sys α := calls.foldl (step ops) s

/-- the object has been allocated and not been freed -/
def Live (w : Store α) (o : ObjId) : Prop := o < w.next ∧ 0 < (w.heap o).ceRefcnt

/-- the object may go into the cache: the cache has no hash table, or the object is of the given class -/
def Fit (w : Store α) (c : CacheId) (o : ObjId) : Prop :=
  (w.caches c).hashtable.isSome = true → good (w.val o)

/-- what is asked of a caller -/
def Legal (s : Sys α) : Call α → Prop
  | .alloc _ => True
  | .get o => Live s.store o
  | .put o => 0 < s.held o
  | .set o v => Live s.store o ∧
      ∀ c, (s.store.heap o).ceCache = some c → SameEntry ops good (s.store.caches c) (s.store.val o) v
  | .add c o _ => Live s.store o ∧ Fit good s.store c o
  | .move c o _ => Live s.store o ∧ Fit good s.store c o
  | .remove o => Live s.store o
  | .clear _ => True
  | .incl c o _ _ => Live s.store o ∧ Fit good s.store c o

/-- a move in the call does not fail in `__cache_add` -/
def MoveSucceeds (s : Sys α) : Call α → Prop
  | .move c o mem => (s.store.caches c).cOps.coObjOps = (s.store.val o).ceOps → Takes ops s.store c o none mem
  | .incl c o _ mem => (s.store.caches c).cOps.coObjOps = (s.store.val o).ceOps →
      ∀ act, msgtypeAct (s.store.caches c).cOps (s.store.val o).ceMsgtype = some act → Moves ops s.store c o act →
        Takes ops s.store c o (searchResult ops s.store c (s.store.val o)) mem
  | _ => True

/-- every call of the run satisfies `P` in the state it is made in -/
def Throughout (P : Sys α → Call α → Prop) (s : Sys α) : List (Call α) → Prop
  | [] => True
  | call :: calls => P s call ∧ Throughout P (step ops s call) calls

/-! ## One call -/

variable {ops good}

theorem addRef_mono {a b : ObjId → ℕ} (h : ∀ o, a o ≤ b o) (o o' : ObjId) : addRef a o o' ≤ addRef b o o' := by
  unfold addRef
  rw [Function.update_apply, Function.update_apply]
  split_ifs
  · exact Nat.succ_le_succ (h o)
  · exact h o'

theorem dropRef_mono {a b : ObjId → ℕ} (h : ∀ o, a o ≤ b o) (o o' : ObjId) : dropRef a o o' ≤ dropRef b o o' := by
  unfold dropRef
  rw [Function.update_apply, Function.update_apply]
  split_ifs
  · exact Nat.sub_le_sub_right (h o) 1
  · exact h o'

/-- **One call** keeps the invariant, up to a reference that a failing move keeps. -/
theorem step_inv {s : Sys α} {held : ObjId → ℕ} {call : Call α} (h : Inv ops good s.store held)
    (hle : ∀ o, s.held o ≤ held o) (hl : Legal ops good s call) :
    ∃ held', Inv ops good (step ops s call).store held' ∧ (∀ o, (step ops s call).held o ≤ held' o) ∧
      (held = s.held → MoveSucceeds ops s call → held' = (step ops s call).held) := by
  cases call with
  | alloc v =>
    refine ⟨_, h.alloc v, addRef_mono hle _, ?_⟩
    rintro rfl -
    rfl
  | get o =>
    refine ⟨_, h.get hl.1, addRef_mono hle o, ?_⟩
    rintro rfl -
    rfl
  | put o =>
    refine ⟨_, h.put (Nat.lt_of_lt_of_le hl (hle o)), dropRef_mono hle o, ?_⟩
    rintro rfl -
    rfl
  | set o v =>
    refine ⟨held, ?_, hle, fun he _ => he⟩
    exact h.modified (f := fun x => { x with val := v }) rfl (fun c hc => ⟨rfl, hl.2 c hc⟩) (h.refs o) (fun _ _ => rfl)
      (Or.inl hl.1.1)
  | add c o mem => exact ⟨held, h.add hl.1.1 hl.2 mem, hle, fun he _ => he⟩
  | move c o mem =>
    rcases h.move hl.1.1 hl.2 mem with hm | ⟨htakes, hm⟩
    · exact ⟨held, hm, hle, fun he _ => he⟩
    · by_cases htype : (s.store.caches c).cOps.coObjOps = (s.store.val o).ceOps
      · refine ⟨_, hm, fun a => (hle a).trans (le_addRef held o a), ?_⟩
        intro _ hsucc
        exact absurd (hsucc htype) htakes
      · -- an object of the wrong type is refused before anything is done
        refine ⟨held, ?_, hle, fun he _ => he⟩
        simp only [step, nlCacheMove]
        rw [if_pos htype]
        exact h
  | remove o => exact ⟨held, h.remove o, hle, fun he _ => he⟩
  | clear c => exact ⟨held, h.clear c, hle, fun he _ => he⟩
  | incl c o cb mem =>
    simp only [step, nlCacheInclude]
    by_cases htype : (s.store.caches c).cOps.coObjOps ≠ (s.store.val o).ceOps
    · rw [if_pos htype]
      exact ⟨held, h, hle, fun he _ => he⟩
    rw [if_neg htype]
    rw [not_not] at htype
    cases hact : msgtypeAct (s.store.caches c).cOps (s.store.val o).ceMsgtype with
    | none => exact ⟨held, h, hle, fun he _ => he⟩
    | some act =>
      rcases h.included hl.1.1 hl.2 act cb mem with hi | ⟨hmoves, htakes, hi⟩
      · exact ⟨held, hi, hle, fun he _ => he⟩
      · refine ⟨_, hi, fun a => (hle a).trans (le_addRef held o a), ?_⟩
        intro _ hsucc
        exact absurd (hsucc htype act hact hmoves) htakes

/-! ## Runs -/

variable (ops) in
/-- nothing allocated, every cache empty -/
structure Initial (w : Store α) : Prop where
  heap : ∀ o, (w.heap o).ceCache = none ∧ (w.heap o).ceRefcnt = 0
  items : ∀ c, (w.caches c).cItems = [] ∧ (w.caches c).cNitems = 0
  chains : ∀ c ht, (w.caches c).hashtable = some ht → ∀ k, ht.nodes k = []
  nobug : w.bug = false

variable (ops good) in
/-- the types of the caches with a hash table -/
def HashedLawful (w : Store α) : Prop := ∀ c ht, (w.caches c).hashtable = some ht →
  Lawful ops good (w.caches c).cOps.coObjOps ∧ KeepsIdentity ops good (w.caches c).cOps.coObjOps

theorem Initial.inv {w : Store α} (h : Initial w) (hlaw : HashedLawful ops good w) : Inv ops good w fun _ => 0 := by
  have hnil : ∀ c o, o ∉ (w.caches c).cItems := by
    intro c o hmem
    rw [(h.items c).1] at hmem
    cases hmem
  refine ⟨⟨fun c => ?_, fun c => ?_, fun c o => ?_, fun o c hc => ?_, fun c o hmem => absurd hmem (hnil c o)⟩,
    ⟨fun c ht hht k o => ?_, fun c ht hht k => ?_, fun c ht _ a ha => absurd ha (hnil c a),
      fun c ht _ o ho => absurd ho (hnil c o), hlaw⟩, h.nobug, fun o => ?_, fun o _ => ⟨(h.heap o).1, rfl⟩⟩
  · rw [(h.items c).1, (h.items c).2]
    rfl
  · rw [(h.items c).1]
    exact List.nodup_nil
  · rw [(h.heap o).1]
    exact ⟨fun hmem => absurd hmem (hnil c o), nofun⟩
  · rw [(h.heap o).1] at hc
    cases hc
  · rw [h.chains c ht hht k]
    exact ⟨nofun, fun hmem => absurd hmem.1 (hnil c o)⟩
  · rw [h.chains c ht hht k]
    exact List.nodup_nil
  · unfold cacheRefs
    rw [(h.heap o).1, (h.heap o).2]
    rfl

/-- **Every run**, whatever fails in it -/
theorem run_inv {s : Sys α} {held : ObjId → ℕ} (calls : List (Call α)) (h : Inv ops good s.store held)
    (hle : ∀ o, s.held o ≤ held o) (hl : Throughout ops (Legal ops good) s calls) :
    ∃ held', Inv ops good (run ops s calls).store held' ∧ ∀ o, (run ops s calls).held o ≤ held' o := by
  induction calls generalizing s held with
  | nil => exact ⟨held, h, hle⟩
  | cons call calls ih =>
    obtain ⟨held', h', hle', -⟩ := step_inv h hle hl.1
    exact ih h' hle' hl.2

/-- **Every run without a failing move** -/
theorem run_inv_exact {s : Sys α} (calls : List (Call α)) (h : Inv ops good s.store s.held)
    (hl : Throughout ops (Legal ops good) s calls) (hm : Throughout ops (MoveSucceeds ops) s calls) :
    Inv ops good (run ops s calls).store (run ops s calls).held := by
  induction calls generalizing s with
  | nil => exact h
  | cons call calls ih =>
    obtain ⟨held', h', -, heq⟩ := step_inv h (fun _ => le_rfl) hl.1
    rw [heq rfl hm.1] at h'
    exact ih h' hl.2 hm.2

/-- list, counter, hash table, back pointers and reference counters of cache `c` agree -/
structure Consistent (ops : ℕ → ObjectOps α) (s : Sys α) (c : CacheId) : Prop where
  nitems : (s.store.caches c).cNitems = (s.store.caches c).cItems.length
  table : ∀ ht, (s.store.caches c).hashtable = some ht → ∀ o, (∃ k, o ∈ ht.nodes k) ↔ o ∈ (s.store.caches c).cItems
  unique : (s.store.caches c).hashtable.isSome = true → ∀ a ∈ (s.store.caches c).cItems,
    ∀ b ∈ (s.store.caches c).cItems, nlObjectIdentical ops (s.store.val a) (s.store.val b) = true → a = b
  back : ∀ o, (s.store.heap o).ceCache = some c ↔ o ∈ (s.store.caches c).cItems
  refs : ∀ o, (s.store.heap o).ceCache = some c → (s.store.heap o).ceRefcnt =
    s.held o + 1 + if (s.store.caches c).hashtable.isSome then 1 else 0
  refsOut : ∀ o, (s.store.heap o).ceCache = none → (s.store.heap o).ceRefcnt = s.held o

theorem Inv.consistent {s : Sys α} (h : Inv ops good s.store s.held) (c : CacheId) : Consistent ops s c := by
  refine ⟨h.nitems c, fun ht hht o => ?_, fun hh => ?_, fun o => (h.back c o).symm, fun o hc => ?_, fun o hc => ?_⟩
  · constructor
    · rintro ⟨k, hk⟩
      exact ((h.chains c ht hht k o).1 hk).1
    · intro hmem
      exact ⟨_, (h.chains c ht hht _ o).2 ⟨hmem, rfl⟩⟩
  · obtain ⟨ht, hht⟩ := Option.isSome_iff_exists.1 hh
    exact h.unique c ht hht
  · have href := h.refs o
    unfold cacheRefs at href
    rw [hc] at href
    rw [href]
    simp only
    split_ifs <;> ring
  · have href := h.refs o
    unfold cacheRefs at href
    rw [hc] at href
    simpa using href

/-- **Cache representation invariant.** From empty caches, after every call of every run in which no move fails, the list,
the counter, the hash table, the back pointers and the reference counters of every cache agree. -/
theorem cache_invariant {w : Store α} (hw : Initial w) (hlaw : HashedLawful ops good w) (calls : List (Call α))
    (hl : Throughout ops (Legal ops good) ⟨w, fun _ => 0⟩ calls)
    (hm : Throughout ops (MoveSucceeds ops) ⟨w, fun _ => 0⟩ calls) (c : CacheId) :
    Consistent ops (run ops ⟨w, fun _ => 0⟩ calls) c :=
  (run_inv_exact calls (hw.inv hlaw) hl hm).consistent c

/-- empty caches of the small object type, with hash tables -/
def sampleStore : Store (ℕ × ℕ) where
  heap _ := ⟨0, none, false, false, sampleVal 0 0⟩
  caches _ := ⟨[], 0, some ⟨8, fun _ => []⟩, ⟨0, [⟨1, .new⟩, ⟨2, .del⟩]⟩⟩
  next := 0
  log := []
  bug := false

theorem sample_initial : Initial sampleStore :=
  ⟨fun _ => ⟨rfl, rfl⟩, fun _ => ⟨rfl, rfl⟩, fun _ _ hht _ => by cases hht; rfl, rfl⟩

theorem sample_hashedLawful : HashedLawful sampleOps (CarriesId sampleOps) sampleStore := fun _ _ _ =>
  ⟨(twoAttr_lawful _ _).toLawful, twoAttr_keeps _ _⟩

/-- an object allocated and added -/
theorem cache_invariant_add : Consistent sampleOps
    (run sampleOps ⟨sampleStore, fun _ => 0⟩ [.alloc (sampleVal 1 10), .add 0 0 ⟨true, true⟩]) 0 := by
  have hlegal : Throughout sampleOps (Legal sampleOps (CarriesId sampleOps)) ⟨sampleStore, fun _ => 0⟩
      [.alloc (sampleVal 1 10), .add 0 0 ⟨true, true⟩] := by
    refine ⟨trivial, ⟨⟨?_, ?_⟩, fun _ => rfl⟩, trivial⟩ <;> decide
  exact cache_invariant sample_initial sample_hashedLawful _ hlegal ⟨trivial, trivial, trivial⟩ 0

/-- a second object of the same identity is moved into the cache -/
def movedTwice : List (Call (ℕ × ℕ)) :=
  [.alloc (sampleVal 1 10), .alloc (sampleVal 1 20), .add 0 0 ⟨true, true⟩, .move 0 1 ⟨true, true⟩]

/-- **A failing move.** The caller holds one reference on the object, it is in no cache, and its counter is two. -/
theorem move_leaks_reference : Throughout sampleOps (Legal sampleOps (CarriesId sampleOps)) ⟨sampleStore, fun _ => 0⟩ movedTwice ∧
    ((run sampleOps ⟨sampleStore, fun _ => 0⟩ movedTwice).store.heap 1).ceCache = none ∧
    ((run sampleOps ⟨sampleStore, fun _ => 0⟩ movedTwice).store.heap 1).ceRefcnt = 2 ∧
    (run sampleOps ⟨sampleStore, fun _ => 0⟩ movedTwice).held 1 = 1 := by
  refine ⟨⟨trivial, trivial, ⟨⟨?_, ?_⟩, fun _ => rfl⟩, ⟨⟨?_, ?_⟩, fun _ => rfl⟩, trivial⟩, rfl, rfl, rfl⟩ <;> decide

end Libnl.Cache
