/-
`nl_cache_move` takes the object out of its cache before it knows whether the other cache will have it, and does nothing
when `__cache_add` fails.

- `Inv.move_cases`: the store after a move, by whether the target accepts the object.
- `move_all_or_nothing_iff`: in every state a run reaches, for every object in a cache and every target of the same
  type, a failing move leaves things as they were if and only if it does not fail: the target has no hash table, or a
  node can be allocated and the chain of the object's key holds no other identical object.
- `move_loses_object`: an object moved to a cache that holds an identical one is in neither afterwards.
-/
import Mathlib.Tactic
import Libnl.Cache.Runs

namespace Libnl.Cache

open Msg Object

variable {α : Type} (ops : ℕ → ObjectOps α) {good : ObjVal α → Prop}

/-- what `nl_hash_table_add` asks for: a node, and no other identical object in the chain of the key -/
def Accepts (w : Store α) (c : CacheId) (o : ObjId) (mem : Alloc) : Prop :=
  ∀ ht, (w.caches c).hashtable = some ht → mem.node = true ∧
    ∀ n ∈ ht.nodes (nlObjectKeygen ops (w.val o) ht.size), n ≠ o → nlObjectIdentical ops (w.val n) (w.val o) = false

/-- source, target and the object's reference counter are what they were -/
structure Untouched (w w' : Store α) (src c : CacheId) (o : ObjId) : Prop where
  source : w'.caches src = w.caches src
  target : w'.caches c = w.caches c
  refcnt : (w'.heap o).ceRefcnt = (w.heap o).ceRefcnt

/-- a move of `o` from `src` to `c` that fails has changed nothing -/
def AllOrNothing (w : Store α) (src c : CacheId) (o : ObjId) (mem : Alloc) : Prop :=
  (nlCacheMove ops w c o mem).2 < 0 → Untouched w (nlCacheMove ops w c o mem).1 src c o

/-! ## One move -/

variable {ops}

section

variable {w : Store α} {held : ObjId → ℕ} {src c : CacheId} {o : ObjId}

/-- **`__cache_add`** of an object in no cache, by whether the cache accepts it -/
theorem Inv.cacheAdd_cases (h : Inv ops good w held) (hnone : (w.heap o).ceCache = none) (mem : Alloc) :
    (Accepts ops w c o mem ∧ cacheAdd ops w c o mem = (attach ops w c o, 0)) ∨
    (¬ Accepts ops w c o mem ∧ ∃ err < 0, cacheAdd ops w c o mem = (w, err)) := by
  rw [cacheAdd_eq ops w c o mem hnone]
  rcases Option.eq_none_or_eq_some (w.caches c).hashtable with hht | ⟨ht, hht⟩
  · refine Or.inl ⟨fun ht hht' => ?_, by rw [hht]⟩
    rw [hht] at hht'
    cases hht'
  · rw [hht]
    cases hl : nlHashTableLookup ops w ht (w.val o) with
    | some n =>
      -- the object that was found is another one: this one is in no chain
      have hmem := List.mem_of_find?_eq_some hl
      have hne : n ≠ o := by
        rintro rfl
        exact h.not_mem hnone c ((h.chains c ht hht _ n).1 hmem).1
      refine Or.inr ⟨fun hacc => ?_, -NLE_EXIST, by decide, by simp [hl]⟩
      have hno := (hacc ht hht).2 n hmem hne
      rw [lookup_identical hl] at hno
      cases hno
    | none =>
      cases hn : mem.node with
      | false =>
        refine Or.inr ⟨fun hacc => ?_, -NLE_NOMEM, by decide, by simp [hl]⟩
        rw [(hacc ht hht).1] at hn
        cases hn
      | true =>
        refine Or.inl ⟨fun ht' hht' => ⟨hn, fun n hmem _ => ?_⟩, by simp [hl]⟩
        rw [hht] at hht'
        cases hht'
        have hno := List.find?_eq_none.1 hl n hmem
        simpa using hno

/-- taking the object itself out of a cache makes no difference to whether a cache accepts it -/
theorem Inv.accepts_detach (h : Inv ops good w held) (src c : CacheId) (o : ObjId) (mem : Alloc) :
    Accepts ops (detach ops w src o) c o mem ↔ Accepts ops w c o mem := by
  by_cases hc : c = src
  · subst hc
    simp only [Accepts, detach_caches_self, detach_val, Option.map_eq_some_iff]
    constructor
    · intro hacc ht hht
      obtain ⟨hnode, hids⟩ := hacc _ ⟨ht, hht, rfl⟩
      refine ⟨hnode, fun n hmem hne => hids n ?_ hne⟩
      dsimp only
      rw [Function.update_self]
      exact ((h.chainNodup c ht hht _).mem_erase_iff).2 ⟨hne, hmem⟩
    · rintro hacc ht' ⟨ht, hht, rfl⟩
      obtain ⟨hnode, hids⟩ := hacc ht hht
      refine ⟨hnode, fun n hmem hne => hids n ?_ hne⟩
      dsimp only at hmem
      rw [Function.update_self] at hmem
      exact List.mem_of_mem_erase hmem
  · simp only [Accepts, detach_caches_ne _ _ _ _ hc, detach_val]

theorem accepts_get (w : Store α) (o : ObjId) (c : CacheId) (mem : Alloc) :
    Accepts ops (nlObjectGet w o) c o mem ↔ Accepts ops w c o mem := by
  simp only [Accepts, get_val, get_caches]

/-- **`nl_cache_move`** of an object in cache `src` to a cache of its type. The object leaves `src` in any case. -/
theorem Inv.move_cases (h : Inv ops good w held) (hin : (w.heap o).ceCache = some src)
    (htype : (w.caches c).cOps.coObjOps = (w.val o).ceOps) (mem : Alloc) :
    (Accepts ops w c o mem ∧
      nlCacheMove ops w c o mem = (attach ops (detach ops (nlObjectGet w o) src o) c o, 0)) ∨
    (¬ Accepts ops w c o mem ∧
      ∃ err < 0, nlCacheMove ops w c o mem = (detach ops (nlObjectGet w o) src o, err)) := by
  have hlive : o < w.next := h.mem_lt_next ((h.back src o).2 hin)
  have hget := h.get hlive
  have hin' : ((nlObjectGet w o).heap o).ceCache = some src := by
    unfold nlObjectGet
    rw [Store.modObj_heap_self]
    exact hin
  have hmove : nlCacheMove ops w c o mem = cacheAdd ops (detach ops (nlObjectGet w o) src o) c o mem := by
    unfold nlCacheMove
    rw [if_neg (not_not.2 htype)]
    have hout := (hget.unlink_eq o).trans (hget.remove_eq hin')
    simp only [hout]
  have hacc : Accepts ops (detach ops (nlObjectGet w o) src o) c o mem ↔ Accepts ops w c o mem :=
    (hget.accepts_detach src c o mem).trans (accepts_get w o c mem)
  rw [hmove, ← hacc]
  exact (hget.detached hin').cacheAdd_cases (by rw [detach_heap_self]) mem

/-- what is left of a failed move: the object is in no cache, and one reference more is counted on it than anybody holds -/
theorem Inv.failed_move (h : Inv ops good w held) (hin : (w.heap o).ceCache = some src)
    (htype : (w.caches c).cOps.coObjOps = (w.val o).ceOps) {mem : Alloc} (hno : ¬ Accepts ops w c o mem) :
    let w' := (nlCacheMove ops w c o mem).1
    (w'.caches src).cItems = (w.caches src).cItems.erase o ∧ (w'.heap o).ceCache = none ∧
      (w'.heap o).ceRefcnt = held o + 1 := by
  have hlive : o < w.next := h.mem_lt_next ((h.back src o).2 hin)
  rcases h.move_cases hin htype mem with ⟨hacc, -⟩ | ⟨-, err, -, heq⟩
  · exact absurd hacc hno
  · have hout : ((detach ops (nlObjectGet w o) src o).heap o).ceCache = none := by rw [detach_heap_self]
    have hin' : ((nlObjectGet w o).heap o).ceCache = some src := by
      unfold nlObjectGet
      rw [Store.modObj_heap_self]
      exact hin
    have href := ((h.get hlive).detached hin').refs o
    unfold cacheRefs at href
    rw [hout, addRef_self] at href
    rw [heq]
    refine ⟨by rw [detach_caches_self, get_caches], hout, ?_⟩
    simpa using href

theorem Inv.allOrNothing_iff (h : Inv ops good w held) (hin : (w.heap o).ceCache = some src)
    (htype : (w.caches c).cOps.coObjOps = (w.val o).ceOps) (mem : Alloc) :
    AllOrNothing ops w src c o mem ↔ Accepts ops w c o mem := by
  have hmem := (h.back src o).2 hin
  rcases h.move_cases hin htype mem with ⟨hacc, heq⟩ | ⟨hno, err, herr, heq⟩
  · refine iff_of_true (fun hfail => ?_) hacc
    rw [heq] at hfail
    exact absurd hfail (lt_irrefl 0)
  · refine iff_of_false (fun hall => ?_) hno
    have hsame := (hall (by rw [heq]; exact herr)).source
    -- the list of the source is shorter than it was
    have hitems := (h.failed_move hin htype hno).1
    rw [hsame] at hitems
    have hlen := congrArg List.length hitems
    have hpos := List.length_pos_of_mem hmem
    rw [List.length_erase_of_mem hmem] at hlen
    omega

end

/-! ## Moves in any state a run reaches -/

/-- **Moving is all or nothing only where it cannot fail.** -/
theorem move_all_or_nothing_iff {w : Store α} (hw : Initial w) (hlaw : HashedLawful ops good w) (calls : List (Call α))
    (hl : Throughout ops (Legal ops good) ⟨w, fun _ => 0⟩ calls) {src c : CacheId} {o : ObjId}
    (hin : o ∈ ((run ops ⟨w, fun _ => 0⟩ calls).store.caches src).cItems)
    (htype : ((run ops ⟨w, fun _ => 0⟩ calls).store.caches c).cOps =
      ((run ops ⟨w, fun _ => 0⟩ calls).store.caches src).cOps) (mem : Alloc) :
    AllOrNothing ops (run ops ⟨w, fun _ => 0⟩ calls).store src c o mem ↔
      Accepts ops (run ops ⟨w, fun _ => 0⟩ calls).store c o mem := by
  obtain ⟨held, h, -⟩ := run_inv calls (hw.inv hlaw) (fun _ => le_rfl) hl
  refine h.allOrNothing_iff ((h.back src o).1 hin) ?_ mem
  rw [htype]
  exact (h.type src o hin).symm

/-- two objects of one identity in two caches -/
def oneInEach : List (Call (ℕ × ℕ)) :=
  [.alloc (sampleVal 1 10), .alloc (sampleVal 1 20), .add 0 0 ⟨true, true⟩, .add 1 1 ⟨true, true⟩]

theorem oneInEach_legal :
    Throughout sampleOps (Legal sampleOps (CarriesId sampleOps)) ⟨sampleStore, fun _ => 0⟩ oneInEach := by
  refine ⟨trivial, trivial, ⟨⟨?_, ?_⟩, fun _ => rfl⟩, ⟨⟨?_, ?_⟩, fun _ => rfl⟩, trivial⟩ <;> decide

/-- to a third cache, which is empty -/
theorem move_all_or_nothing_sample :
    AllOrNothing sampleOps (run sampleOps ⟨sampleStore, fun _ => 0⟩ oneInEach).store 1 2 1 ⟨true, true⟩ := by
  have hin : 1 ∈ ((run sampleOps ⟨sampleStore, fun _ => 0⟩ oneInEach).store.caches 1).cItems := by decide
  have htype : ((run sampleOps ⟨sampleStore, fun _ => 0⟩ oneInEach).store.caches 2).cOps =
      ((run sampleOps ⟨sampleStore, fun _ => 0⟩ oneInEach).store.caches 1).cOps := by decide
  refine (move_all_or_nothing_iff sample_initial sample_hashedLawful oneInEach oneInEach_legal hin htype _).2 ?_
  intro ht hht
  cases hht
  exact ⟨rfl, nofun⟩

/-- **A move that loses the object.** The other cache holds an identical object and refuses this one, which is then in
no cache; its counter says two, and the caller holds one reference. -/
theorem move_loses_object : Throughout sampleOps (Legal sampleOps (CarriesId sampleOps)) ⟨sampleStore, fun _ => 0⟩ oneInEach ∧
    ((run sampleOps ⟨sampleStore, fun _ => 0⟩ oneInEach).store.caches 1).cItems = [1] ∧
    (nlCacheMove sampleOps (run sampleOps ⟨sampleStore, fun _ => 0⟩ oneInEach).store 0 1 ⟨true, true⟩).2 = -NLE_EXIST ∧
    ((nlCacheMove sampleOps (run sampleOps ⟨sampleStore, fun _ => 0⟩ oneInEach).store 0 1 ⟨true, true⟩).1.heap 1).ceRefcnt = 2 ∧
    ¬ AllOrNothing sampleOps (run sampleOps ⟨sampleStore, fun _ => 0⟩ oneInEach).store 1 0 1 ⟨true, true⟩ := by
  refine ⟨oneInEach_legal, by decide, by decide, by decide, fun hall => ?_⟩
  have hitems := congrArg NlCache.cItems (hall (by decide)).source
  revert hitems
  decide

end Libnl.Cache
