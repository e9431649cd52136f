/-
The representation of caches: list, counter, hash chains, back pointers and reference counters agree.

`Inv w held` says so for a store in which the callers hold `held o` references on object `o`. Two operations change the
representation, `attach` and `detach`; every function of `lib/cache.c` is one of them, or several, around calls that
take or give back references. So it is enough that these two keep the invariant (`Inv.attached`, `Inv.detached`), and each
function is followed through with the references it owes at every point.

- `cache_invariant`: the invariant over every run in which no `nl_cache_move` fails.
- `move_leaks_reference`: a failing `nl_cache_move` keeps the reference it took.
-/
import Mathlib.Tactic
import Libnl.Cache.Cache

namespace Libnl.Cache

open Msg Object

variable {α : Type} (ops : ℕ → ObjectOps α) (good : ObjVal α → Prop)

/-! ## The invariant -/

/-- references the cache an object is in holds on it: one for the list, one for the hash node -/
def cacheRefs (w : Store α) (o : ObjId) : ℤ :=
  match (w.heap o).ceCache with
  | none => 0
  | some c => if (w.caches c).hashtable.isSome then 2 else 1

/-- counter, list and back pointers agree -/
structure Lists (w : Store α) : Prop where
  nitems : ∀ c, (w.caches c).cNitems = (w.caches c).cItems.length
  nodup : ∀ c, (w.caches c).cItems.Nodup
  /-- an object is listed by the cache it points to, and by no other -/
  back : ∀ c o, o ∈ (w.caches c).cItems ↔ (w.heap o).ceCache = some c
  linked : ∀ o c, (w.heap o).ceCache = some c → (w.heap o).linked = true
  type : ∀ c, ∀ o ∈ (w.caches c).cItems, (w.val o).ceOps = (w.caches c).cOps.coObjOps

/-- the hash tables hold what the lists hold, once, and nothing twice -/
structure Tables (w : Store α) : Prop where
  /-- a chain holds the listed objects with its key -/
  chains : ∀ c ht, (w.caches c).hashtable = some ht → ∀ k o, o ∈ ht.nodes k ↔
    o ∈ (w.caches c).cItems ∧ nlObjectKeygen ops (w.val o) ht.size = k
  chainNodup : ∀ c ht, (w.caches c).hashtable = some ht → ∀ k, (ht.nodes k).Nodup
  unique : ∀ c ht, (w.caches c).hashtable = some ht → ∀ a ∈ (w.caches c).cItems, ∀ b ∈ (w.caches c).cItems,
    nlObjectIdentical ops (w.val a) (w.val b) = true → a = b
  allGood : ∀ c ht, (w.caches c).hashtable = some ht → ∀ o ∈ (w.caches c).cItems, good (w.val o)
  lawful : ∀ c ht, (w.caches c).hashtable = some ht →
    Lawful ops good (w.caches c).cOps.coObjOps ∧ KeepsIdentity ops good (w.caches c).cOps.coObjOps

structure Inv (w : Store α) (held : ObjId → ℕ) : Prop extends Lists w, Tables ops good w where
  nobug : w.bug = false
  refs : ∀ o, (w.heap o).ceRefcnt = held o + cacheRefs w o
  /-- nobody knows of an address that was not handed out yet -/
  fresh : ∀ o, w.next ≤ o → (w.heap o).ceCache = none ∧ held o = 0

/-! ## Putting an object into a cache, taking it out -/

/-- what a successful `__cache_add` does -/
def attach (w : Store α) (c : CacheId) (o : ObjId) : Store α :=
  (w.modObj o fun x => { x with
      ceCache := some c
      linked := true
      ceRefcnt := x.ceRefcnt + if (w.caches c).hashtable.isSome then 1 else 0 }).modCache c fun k =>
    { k with
      cItems := k.cItems ++ [o]
      cNitems := k.cNitems + 1
      hashtable := k.hashtable.map fun ht => ht.insert (nlObjectKeygen ops (w.val o) ht.size) o }

/-- what `nl_cache_remove` does to an object in cache `c` -/
def detach (w : Store α) (c : CacheId) (o : ObjId) : Store α :=
  (w.modObj o fun x => { x with
      ceCache := none
      ceRefcnt := x.ceRefcnt - if (w.caches c).hashtable.isSome then 2 else 1 }).modCache c fun k =>
    { k with
      cItems := k.cItems.erase o
      cNitems := k.cNitems - 1
      hashtable := k.hashtable.map fun ht =>
        let key := nlObjectKeygen ops (w.val o) ht.size
        { ht with nodes := Function.update ht.nodes key ((ht.nodes key).erase o) } }

/-- **`__cache_add`** of an object that is in no cache attaches it, or fails and changes nothing. -/
theorem cacheAdd_eq (w : Store α) (c : CacheId) (o : ObjId) (mem : Alloc) (hnone : (w.heap o).ceCache = none) :
    cacheAdd ops w c o mem =
      match (w.caches c).hashtable with
      | none => (attach ops w c o, 0)
      | some ht =>
        if (nlHashTableLookup ops w ht (w.val o)).isSome then (w, -NLE_EXIST)
        else if !mem.node then (w, -NLE_NOMEM)
        else (attach ops w c o, 0) := by
  have hval : ∀ n, (w.modObj o fun x => { x with ceCache := some c }).val n = w.val n := fun n =>
    Store.modObj_val _ _ _ _ rfl
  have hback : (w.modObj o fun x => { x with ceCache := some c }).modObj o (fun x => { x with ceCache := none }) = w := by
    rw [Store.modObj_modObj, Store.modObj_eq_self]
    rw [← hnone]
  rcases Option.eq_none_or_eq_some (w.caches c).hashtable with hht | ⟨ht, hht⟩
  · simp only [cacheAdd, Store.modObj_caches, hht, lt_self_iff_false, if_false, Store.modObj_modObj]
    refine congrArg (fun s => (s, (0 : ℤ))) ?_
    unfold attach
    apply Store.mod_congr
    · simp [hht]
    · simp [hht]
  · simp only [cacheAdd, Store.modObj_caches, hht, nlHashTableAdd, nlHashTableLookup_congr ops hval, hval]
    by_cases h1 : (nlHashTableLookup ops w ht (w.val o)).isSome
    · have hneg : (-NLE_EXIST) < 0 := by decide
      simp only [h1, if_true, hneg, hback]
    · by_cases h2 : mem.node
      · simp only [h1, h2, Bool.not_true, if_false, Bool.false_eq_true, lt_self_iff_false, nlObjectGet,
          Store.modCache_modObj, Store.modObj_modObj, Store.modCache_modCache]
        refine congrArg (fun s => (s, (0 : ℤ))) ?_
        unfold attach
        apply Store.mod_congr
        · simp [hht]
        · simp [hht, Store.val]
      · have hneg : (-NLE_NOMEM) < 0 := by decide
        simp only [h1, h2, if_true, hneg, hback, Bool.not_false, if_false, Bool.false_eq_true]

section

variable (w : Store α) (c : CacheId) (o : ObjId)

@[simp] theorem attach_val (o' : ObjId) : (attach ops w c o).val o' = w.val o' := by
  unfold attach
  rw [Store.modCache_val, Store.modObj_val]
  rfl

@[simp] theorem attach_next : (attach ops w c o).next = w.next := rfl
@[simp] theorem attach_bug : (attach ops w c o).bug = w.bug := rfl

theorem attach_heap_ne {o' : ObjId} (h : o' ≠ o) : (attach ops w c o).heap o' = w.heap o' := by
  unfold attach
  rw [Store.modCache_heap, Store.modObj_heap_ne _ _ _ _ h]

@[simp] theorem attach_heap_self : (attach ops w c o).heap o = { w.heap o with
    ceCache := some c
    linked := true
    ceRefcnt := (w.heap o).ceRefcnt + if (w.caches c).hashtable.isSome then 1 else 0 } := by
  unfold attach
  rw [Store.modCache_heap, Store.modObj_heap_self]

theorem attach_caches_ne {c' : CacheId} (h : c' ≠ c) : (attach ops w c o).caches c' = w.caches c' := by
  unfold attach
  rw [Store.modCache_caches_ne _ _ _ _ h, Store.modObj_caches]

@[simp] theorem attach_caches_self : (attach ops w c o).caches c = { w.caches c with
    cItems := (w.caches c).cItems ++ [o]
    cNitems := (w.caches c).cNitems + 1
    hashtable := (w.caches c).hashtable.map fun ht => ht.insert (nlObjectKeygen ops (w.val o) ht.size) o } := by
  unfold attach
  rw [Store.modCache_caches_self, Store.modObj_caches]

@[simp] theorem attach_hashed (c' : CacheId) :
    ((attach ops w c o).caches c').hashtable.isSome = (w.caches c').hashtable.isSome := by
  by_cases h : c' = c
  · subst h
    simp
  · rw [attach_caches_ne _ _ _ _ h]

@[simp] theorem attach_cOps (c' : CacheId) : ((attach ops w c o).caches c').cOps = (w.caches c').cOps := by
  by_cases h : c' = c
  · subst h
    simp
  · rw [attach_caches_ne _ _ _ _ h]

theorem mem_attach {c' : CacheId} {o' : ObjId} (h : o' ∈ ((attach ops w c o).caches c').cItems) :
    o' ∈ (w.caches c').cItems ∨ (c' = c ∧ o' = o) := by
  by_cases hc : c' = c
  · subst hc
    rw [attach_caches_self] at h
    simpa using h
  · rw [attach_caches_ne _ _ _ _ hc] at h
    exact Or.inl h

/-- a hash table after the change was one before it -/
theorem attach_hashtable {c' : CacheId} {ht' : HashTable} (h : ((attach ops w c o).caches c').hashtable = some ht') :
    ∃ ht, (w.caches c').hashtable = some ht := by
  rw [← Option.isSome_iff_exists, ← attach_hashed ops w c o, h]
  rfl

end

variable {ops} {good : ObjVal α → Prop}

/-- counting the references of an object needs its cache, and which caches have a hash table -/
theorem cacheRefs_congr {w w' : Store α} {o : ObjId} (hc : (w'.heap o).ceCache = (w.heap o).ceCache)
    (hh : ∀ c, (w'.caches c).hashtable.isSome = (w.caches c).hashtable.isSome) : cacheRefs w' o = cacheRefs w o := by
  unfold cacheRefs
  simp only [hc, hh]

section

variable {w : Store α} {held : ObjId → ℕ} {c : CacheId} {o : ObjId}

theorem Lists.not_mem (h : Lists w) (hnone : (w.heap o).ceCache = none) (c : CacheId) : o ∉ (w.caches c).cItems := by
  intro hmem
  rw [h.back, hnone] at hmem
  cases hmem

/-- what the lookup does not find is nowhere in the cache -/
theorem Inv.lookup_none (h : Inv ops good w held) {ht : HashTable} (hht : (w.caches c).hashtable = some ht)
    {needle : ObjVal α} (hgood : good needle) (hl : nlHashTableLookup ops w ht needle = none) (a : ObjId) (ha : a ∈ (w.caches c).cItems) :
    nlObjectIdentical ops (w.val a) needle = false := by
  by_contra hid
  rw [Bool.not_eq_false] at hid
  have hkey := (h.lawful c ht hht).1.keygen _ _ ht.size (h.type c a ha) (h.allGood c ht hht a ha) hgood hid
  have hchain := (h.chains c ht hht _ a).2 ⟨ha, hkey⟩
  exact absurd hid (List.find?_eq_none.1 hl a hchain)

theorem Lists.attached (h : Lists w) (hnone : (w.heap o).ceCache = none)
    (htype : (w.val o).ceOps = (w.caches c).cOps.coObjOps) : Lists (attach ops w c o) := by
  have hout := h.not_mem hnone
  refine ⟨fun c' => ?_, fun c' => ?_, fun c' o' => ?_, fun o' c' hc => ?_, fun c' o' ho' => ?_⟩
  · by_cases hc : c' = c
    · subst hc
      simp [h.nitems]
    · rw [attach_caches_ne _ _ _ _ hc, h.nitems]
  · by_cases hc : c' = c
    · subst hc
      simpa using List.Nodup.append (h.nodup c') (List.nodup_singleton o) (by simpa using hout c')
    · rw [attach_caches_ne _ _ _ _ hc]
      exact h.nodup c'
  · by_cases hc : c' = c
    · subst hc
      by_cases ho : o' = o
      · subst ho
        simp
      · simp [attach_heap_ne _ _ _ _ ho, h.back, ho]
    · rw [attach_caches_ne _ _ _ _ hc]
      by_cases ho : o' = o
      · subst ho
        simp [hout c', Ne.symm hc]
      · rw [attach_heap_ne _ _ _ _ ho, h.back]
  · by_cases ho : o' = o
    · subst ho
      simp
    · rw [attach_heap_ne _ _ _ _ ho] at hc ⊢
      exact h.linked o' c' hc
  · rw [attach_val, attach_cOps]
    rcases mem_attach ops w c o ho' with ho' | ⟨rfl, rfl⟩
    · exact h.type c' o' ho'
    · exact htype

/-- the new object stands first in the chain of its key -/
theorem attach_chain {ht : HashTable} (hch : ∀ k o', o' ∈ ht.nodes k ↔
      o' ∈ (w.caches c).cItems ∧ nlObjectKeygen ops (w.val o') ht.size = k)
    (hout : o ∉ (w.caches c).cItems) (k : ℕ) (o' : ObjId) :
    o' ∈ (ht.insert (nlObjectKeygen ops (w.val o) ht.size) o).nodes k ↔
      o' ∈ (w.caches c).cItems ++ [o] ∧ nlObjectKeygen ops (w.val o') ht.size = k := by
  simp only [HashTable.insert, List.mem_append, List.mem_singleton]
  by_cases hk : k = nlObjectKeygen ops (w.val o) ht.size
  · subst hk
    by_cases ho : o' = o
    · subst ho
      simp
    · simp [ho, hch]
  · by_cases ho : o' = o
    · subst ho
      simp [Function.update_of_ne hk, hch, hout, Ne.symm hk]
    · simp [Function.update_of_ne hk, hch, ho]

theorem Inv.attach_tables (h : Inv ops good w held) (hnone : (w.heap o).ceCache = none)
    (htype : (w.val o).ceOps = (w.caches c).cOps.coObjOps)
    (hnew : ∀ ht, (w.caches c).hashtable = some ht →
      good (w.val o) ∧ nlHashTableLookup ops w ht (w.val o) = none) :
    Tables ops good (attach ops w c o) := by
  have hout := h.toLists.not_mem hnone
  refine ⟨fun c' ht' hht k o' => ?_, fun c' ht' hht k => ?_, fun c' ht' hht a ha b hb hid => ?_,
    fun c' ht' hht o' ho' => ?_, fun c' ht' hht => ?_⟩
  · by_cases hc : c' = c
    · subst hc
      rw [attach_caches_self] at hht
      obtain ⟨ht, hht0, rfl⟩ := Option.map_eq_some_iff.1 hht
      rw [attach_caches_self, attach_val]
      exact attach_chain (h.chains c' ht hht0) (hout c') k o'
    · rw [attach_caches_ne _ _ _ _ hc] at hht ⊢
      simpa using h.chains c' ht' hht k o'
  · by_cases hc : c' = c
    · subst hc
      rw [attach_caches_self] at hht
      obtain ⟨ht, hht0, rfl⟩ := Option.map_eq_some_iff.1 hht
      simp only [HashTable.insert]
      by_cases hk : k = nlObjectKeygen ops (w.val o) ht.size
      · subst hk
        rw [Function.update_self, List.nodup_cons]
        refine ⟨fun hmem => ?_, h.chainNodup c' ht hht0 _⟩
        exact hout c' ((h.chains c' ht hht0 _ o).1 hmem).1
      · rw [Function.update_of_ne hk]
        exact h.chainNodup c' ht hht0 k
    · rw [attach_caches_ne _ _ _ _ hc] at hht
      exact h.chainNodup c' ht' hht k
  · -- a new pair has the new object in it, and the lookup found nothing identical to that
    obtain ⟨ht, hht0⟩ := attach_hashtable ops w c o hht
    obtain ⟨hlaw, -⟩ := h.lawful c' ht hht0
    simp only [attach_val] at hid
    rcases mem_attach ops w c o ha with ha' | ⟨hac, hao⟩ <;> rcases mem_attach ops w c o hb with hb' | ⟨hbc, hbo⟩
    · exact h.unique c' ht hht0 a ha' b hb' hid
    · subst hbc hbo
      have hno := h.lookup_none hht0 (hnew ht hht0).1 (hnew ht hht0).2 a ha'
      rw [hid] at hno
      cases hno
    · subst hac hao
      have hno := h.lookup_none hht0 (hnew ht hht0).1 (hnew ht hht0).2 b hb'
      rw [hlaw.symm _ _ htype (hnew ht hht0).1 (h.allGood c' ht hht0 b hb') hid] at hno
      cases hno
    · rw [hao, hbo]
  · obtain ⟨ht, hht0⟩ := attach_hashtable ops w c o hht
    rw [attach_val]
    rcases mem_attach ops w c o ho' with ho' | ⟨rfl, rfl⟩
    · exact h.allGood c' ht hht0 o' ho'
    · exact (hnew ht hht0).1
  · obtain ⟨ht, hht0⟩ := attach_hashtable ops w c o hht
    rw [attach_cOps]
    exact h.lawful c' ht hht0

/-- **Attaching** an object keeps the invariant; the cache takes over a reference of the caller. -/
theorem Inv.attached (h : Inv ops good w held) (hnone : (w.heap o).ceCache = none) (hheld : 0 < held o)
    (htype : (w.val o).ceOps = (w.caches c).cOps.coObjOps)
    (hnew : ∀ ht, (w.caches c).hashtable = some ht →
      good (w.val o) ∧ nlHashTableLookup ops w ht (w.val o) = none) :
    Inv ops good (attach ops w c o) (Function.update held o (held o - 1)) := by
  refine ⟨h.toLists.attached hnone htype, h.attach_tables hnone htype hnew, h.nobug, fun o' => ?_, fun o' ho' => ?_⟩
  · by_cases ho : o' = o
    · subst ho
      have href := h.refs o'
      have h0 : cacheRefs w o' = 0 := by
        unfold cacheRefs
        rw [hnone]
      have h1 : cacheRefs (attach ops w c o') o' = if (w.caches c).hashtable.isSome then 2 else 1 := by
        unfold cacheRefs
        simp
      rw [h1, attach_heap_self, Function.update_self]
      simp only
      split_ifs <;> omega
    · rw [attach_heap_ne _ _ _ _ ho, Function.update_of_ne ho, h.refs o']
      rw [cacheRefs_congr (by rw [attach_heap_ne _ _ _ _ ho]) (attach_hashed ops w c o)]
  · have hne : o' ≠ o := by
      rintro rfl
      have := (h.fresh o' ho').2
      omega
    rw [attach_heap_ne _ _ _ _ hne, Function.update_of_ne hne]
    exact h.fresh o' ho'

end

section

variable (ops) (w : Store α) (c : CacheId) (o : ObjId)

@[simp] theorem detach_val (o' : ObjId) : (detach ops w c o).val o' = w.val o' := by
  unfold detach
  rw [Store.modCache_val, Store.modObj_val]
  rfl

@[simp] theorem detach_next : (detach ops w c o).next = w.next := rfl
@[simp] theorem detach_bug : (detach ops w c o).bug = w.bug := rfl
@[simp] theorem detach_log : (detach ops w c o).log = w.log := rfl

theorem detach_heap_ne {o' : ObjId} (h : o' ≠ o) : (detach ops w c o).heap o' = w.heap o' := by
  unfold detach
  rw [Store.modCache_heap, Store.modObj_heap_ne _ _ _ _ h]

@[simp] theorem detach_heap_self : (detach ops w c o).heap o = { w.heap o with
    ceCache := none
    ceRefcnt := (w.heap o).ceRefcnt - if (w.caches c).hashtable.isSome then 2 else 1 } := by
  unfold detach
  rw [Store.modCache_heap, Store.modObj_heap_self]

theorem detach_caches_ne {c' : CacheId} (h : c' ≠ c) : (detach ops w c o).caches c' = w.caches c' := by
  unfold detach
  rw [Store.modCache_caches_ne _ _ _ _ h, Store.modObj_caches]

@[simp] theorem detach_caches_self : (detach ops w c o).caches c = { w.caches c with
    cItems := (w.caches c).cItems.erase o
    cNitems := (w.caches c).cNitems - 1
    hashtable := (w.caches c).hashtable.map fun ht =>
      let key := nlObjectKeygen ops (w.val o) ht.size
      { ht with nodes := Function.update ht.nodes key ((ht.nodes key).erase o) } } := by
  unfold detach
  rw [Store.modCache_caches_self, Store.modObj_caches]

@[simp] theorem detach_hashed (c' : CacheId) :
    ((detach ops w c o).caches c').hashtable.isSome = (w.caches c').hashtable.isSome := by
  by_cases h : c' = c
  · subst h
    simp
  · rw [detach_caches_ne _ _ _ _ h]

@[simp] theorem detach_cOps (c' : CacheId) : ((detach ops w c o).caches c').cOps = (w.caches c').cOps := by
  by_cases h : c' = c
  · subst h
    simp
  · rw [detach_caches_ne _ _ _ _ h]

theorem mem_detach {c' : CacheId} {o' : ObjId} (h : o' ∈ ((detach ops w c o).caches c').cItems) :
    o' ∈ (w.caches c').cItems := by
  by_cases hc : c' = c
  · subst hc
    rw [detach_caches_self] at h
    exact List.mem_of_mem_erase h
  · rwa [detach_caches_ne _ _ _ _ hc] at h

theorem detach_hashtable {c' : CacheId} {ht' : HashTable} (h : ((detach ops w c o).caches c').hashtable = some ht') :
    ∃ ht, (w.caches c').hashtable = some ht := by
  rw [← Option.isSome_iff_exists, ← detach_hashed ops w c o, h]
  rfl

end

section

variable {w : Store α} {held : ObjId → ℕ} {c : CacheId} {o : ObjId}

theorem Lists.detached (h : Lists w) (hin : (w.heap o).ceCache = some c) : Lists (detach ops w c o) := by
  have hmem := (h.back c o).2 hin
  refine ⟨fun c' => ?_, fun c' => ?_, fun c' o' => ?_, fun o' c' hc => ?_, fun c' o' ho' => ?_⟩
  · by_cases hc : c' = c
    · subst hc
      have hpos := List.length_pos_of_mem hmem
      simp only [detach_caches_self, h.nitems, List.length_erase_of_mem hmem]
      omega
    · rw [detach_caches_ne _ _ _ _ hc, h.nitems]
  · by_cases hc : c' = c
    · subst hc
      simpa using (h.nodup c').erase o
    · rw [detach_caches_ne _ _ _ _ hc]
      exact h.nodup c'
  · by_cases hc : c' = c
    · subst hc
      rw [detach_caches_self, (h.nodup c').mem_erase_iff]
      by_cases ho : o' = o
      · subst ho
        simp
      · simp [detach_heap_ne _ _ _ _ ho, h.back, ho]
    · rw [detach_caches_ne _ _ _ _ hc, h.back]
      by_cases ho : o' = o
      · subst ho
        simp [hin, Ne.symm hc]
      · rw [detach_heap_ne _ _ _ _ ho]
  · by_cases ho : o' = o
    · subst ho
      simp at hc
    · rw [detach_heap_ne _ _ _ _ ho] at hc ⊢
      exact h.linked o' c' hc
  · rw [detach_val, detach_cOps]
    exact h.type c' o' (mem_detach ops w c o ho')

/-- the object leaves the chain of its key -/
theorem detach_chain {ht : HashTable} (hch : ∀ k o', o' ∈ ht.nodes k ↔
      o' ∈ (w.caches c).cItems ∧ nlObjectKeygen ops (w.val o') ht.size = k)
    (hnd : ∀ k, (ht.nodes k).Nodup) (hl : (w.caches c).cItems.Nodup) (k : ℕ) (o' : ObjId) :
    o' ∈ Function.update ht.nodes (nlObjectKeygen ops (w.val o) ht.size)
        ((ht.nodes (nlObjectKeygen ops (w.val o) ht.size)).erase o) k ↔
      o' ∈ (w.caches c).cItems.erase o ∧ nlObjectKeygen ops (w.val o') ht.size = k := by
  rw [hl.mem_erase_iff]
  by_cases hk : k = nlObjectKeygen ops (w.val o) ht.size
  · subst hk
    rw [Function.update_self, (hnd _).mem_erase_iff, hch, and_assoc]
  · rw [Function.update_of_ne hk, hch]
    constructor
    · rintro ⟨hmem, hkey⟩
      refine ⟨⟨?_, hmem⟩, hkey⟩
      rintro rfl
      exact hk hkey.symm
    · rintro ⟨⟨-, hmem⟩, hkey⟩
      exact ⟨hmem, hkey⟩

theorem Inv.detach_tables (h : Inv ops good w held) : Tables ops good (detach ops w c o) := by
  refine ⟨fun c' ht' hht k o' => ?_, fun c' ht' hht k => ?_, fun c' ht' hht a ha b hb hid => ?_,
    fun c' ht' hht o' ho' => ?_, fun c' ht' hht => ?_⟩
  · by_cases hc : c' = c
    · subst hc
      rw [detach_caches_self] at hht
      obtain ⟨ht, hht0, rfl⟩ := Option.map_eq_some_iff.1 hht
      rw [detach_caches_self, detach_val]
      exact detach_chain (h.chains c' ht hht0) (h.chainNodup c' ht hht0) (h.nodup c') k o'
    · rw [detach_caches_ne _ _ _ _ hc] at hht ⊢
      simpa using h.chains c' ht' hht k o'
  · by_cases hc : c' = c
    · subst hc
      rw [detach_caches_self] at hht
      obtain ⟨ht, hht0, rfl⟩ := Option.map_eq_some_iff.1 hht
      dsimp only
      by_cases hk : k = nlObjectKeygen ops (w.val o) ht.size
      · subst hk
        rw [Function.update_self]
        exact (h.chainNodup c' ht hht0 _).erase o
      · rw [Function.update_of_ne hk]
        exact h.chainNodup c' ht hht0 k
    · rw [detach_caches_ne _ _ _ _ hc] at hht
      exact h.chainNodup c' ht' hht k
  · obtain ⟨ht, hht0⟩ := detach_hashtable ops w c o hht
    simp only [detach_val] at hid
    exact h.unique c' ht hht0 a (mem_detach ops w c o ha) b (mem_detach ops w c o hb) hid
  · obtain ⟨ht, hht0⟩ := detach_hashtable ops w c o hht
    rw [detach_val]
    exact h.allGood c' ht hht0 o' (mem_detach ops w c o ho')
  · obtain ⟨ht, hht0⟩ := detach_hashtable ops w c o hht
    rw [detach_cOps]
    exact h.lawful c' ht hht0

/-- **Detaching** an object keeps the invariant, and what callers hold. -/
theorem Inv.detached (h : Inv ops good w held) (hin : (w.heap o).ceCache = some c) : Inv ops good (detach ops w c o) held := by
  refine ⟨h.toLists.detached hin, h.detach_tables, h.nobug, fun o' => ?_, fun o' ho' => ?_⟩
  · by_cases ho : o' = o
    · subst ho
      have href := h.refs o'
      have h0 : cacheRefs (detach ops w c o') o' = 0 := by
        unfold cacheRefs
        simp
      have h1 : cacheRefs w o' = if (w.caches c).hashtable.isSome then 2 else 1 := by
        unfold cacheRefs
        rw [hin]
      rw [h0, detach_heap_self]
      simp only
      omega
    · rw [detach_heap_ne _ _ _ _ ho, h.refs o']
      rw [cacheRefs_congr (by rw [detach_heap_ne _ _ _ _ ho]) (detach_hashed ops w c o)]
  · have hne : o' ≠ o := by
      rintro rfl
      rw [(h.fresh o' ho').1] at hin
      cases hin
    rw [detach_heap_ne _ _ _ _ hne]
    exact h.fresh o' ho'

theorem lookup_identical {ht : HashTable} {needle : ObjVal α} {n : ObjId}
    (hl : nlHashTableLookup ops w ht needle = some n) : nlObjectIdentical ops (w.val n) needle = true := by
  have h := List.find?_some hl
  exact h

theorem Inv.lookup_some (h : Inv ops good w held) {ht : HashTable} (hht : (w.caches c).hashtable = some ht)
    {needle : ObjVal α} {n : ObjId} (hl : nlHashTableLookup ops w ht needle = some n) :
    n ∈ (w.caches c).cItems ∧ nlObjectIdentical ops (w.val n) needle = true :=
  ⟨((h.chains c ht hht _ n).1 (List.mem_of_find?_eq_some hl)).1, lookup_identical hl⟩

/-- a listed object is found by its own value -/
theorem Inv.lookup_self (h : Inv ops good w held) {ht : HashTable} (hht : (w.caches c).hashtable = some ht)
    (hmem : o ∈ (w.caches c).cItems) : nlHashTableLookup ops w ht (w.val o) = some o := by
  have hself := (h.lawful c ht hht).1.refl _ (h.type c o hmem) (h.allGood c ht hht o hmem)
  cases hl : nlHashTableLookup ops w ht (w.val o) with
  | none =>
    rw [h.lookup_none hht (h.allGood c ht hht o hmem) hl o hmem] at hself
    cases hself
  | some n =>
    obtain ⟨hn, hid⟩ := h.lookup_some hht hl
    rw [h.unique c ht hht n hn o hmem hid]

theorem eraseP_eq_erase {l : List ObjId} {p : ObjId → Bool} {a : ObjId} (hp : p a = true)
    (h : ∀ b ∈ l, p b = true → b = a) : l.eraseP p = l.erase a := by
  rw [List.erase_eq_eraseP]
  induction l with
  | nil => rfl
  | cons b l ih =>
    have ih := ih fun x hx => h x (List.mem_cons_of_mem b hx)
    by_cases hb : b = a
    · subst hb
      simp [hp]
    · have hpb : p b = false := by
        by_contra hc
        exact hb (h b List.mem_cons_self (by simpa using hc))
      have hab : (a == b) = false := by simpa using Ne.symm hb
      rw [List.eraseP_cons_of_neg (by simp [hpb]), List.eraseP_cons_of_neg (by simp [hab]), ih]

/-- giving back a reference that is not the last one, or the last one on an object in no cache -/
theorem nlObjectPut_eq (hb : w.bug = false)
    (h : 1 < (w.heap o).ceRefcnt ∨ ((w.heap o).ceRefcnt = 1 ∧ (w.heap o).ceCache = none)) :
    nlObjectPut w o = w.modObj o fun x => { x with ceRefcnt := x.ceRefcnt - 1 } := by
  have hbug : (w.bug || decide ((w.heap o).ceRefcnt - 1 < 0) ||
      (decide ((w.heap o).ceRefcnt - 1 = 0) && (w.heap o).ceCache.isSome)) = w.bug := by
    rw [hb]
    rcases h with h | ⟨h, hc⟩
    · have h1 : ¬ ((w.heap o).ceRefcnt - 1 < 0) := by omega
      have h2 : ¬ ((w.heap o).ceRefcnt - 1 = 0) := by omega
      simp [h1, h2]
    · simp [h, hc]
  unfold nlObjectPut
  simp only [hbug]
  rfl

/-- **`nl_cache_remove`** detaches an object that is in a cache. -/
theorem Inv.remove_eq (h : Inv ops good w held) (hin : (w.heap o).ceCache = some c) :
    nlCacheRemove ops w o = detach ops w c o := by
  have hmem := (h.back c o).2 hin
  have href := h.refs o
  rcases Option.eq_none_or_eq_some (w.caches c).hashtable with hht | ⟨ht, hht⟩
  · have hrefs : cacheRefs w o = 1 := by
      unfold cacheRefs
      simp [hin, hht]
    simp only [nlCacheRemove, hin, hht]
    rw [nlObjectPut_eq (by exact h.nobug) (by simp; omega)]
    simp only [Store.modCache_modObj, Store.modObj_modObj, Store.modCache_modCache]
    unfold detach
    apply Store.mod_congr
    · simp [hht]
    · simp [hht]
  · have hrefs : cacheRefs w o = 2 := by
      unfold cacheRefs
      simp [hin, hht]
    have hself : nlObjectIdentical ops (w.val o) (w.val o) = true :=
      (h.lawful c ht hht).1.refl _ (h.type c o hmem) (h.allGood c ht hht o hmem)
    have hlook := h.lookup_self hht hmem
    have herase : ((ht.nodes (nlObjectKeygen ops (w.val o) ht.size)).eraseP fun n =>
        nlObjectIdentical ops (w.val n) (w.val o)) = (ht.nodes (nlObjectKeygen ops (w.val o) ht.size)).erase o := by
      refine eraseP_eq_erase hself fun b hb hid => ?_
      exact h.unique c ht hht b ((h.chains c ht hht _ b).1 hb).1 o hmem hid
    simp only [nlCacheRemove, hin, hht, nlHashTableDel, hlook, Option.isSome_some, if_true, herase]
    rw [nlObjectPut_eq h.nobug (Or.inl (by omega))]
    rw [nlObjectPut_eq (by exact h.nobug) (by simp; omega)]
    simp only [Store.modCache_modObj, Store.modObj_modObj, Store.modCache_modCache]
    unfold detach
    apply Store.mod_congr
    · simp [hht, sub_sub]
    · simp [hht]

/-! ## References -/

/-- a value a cached object may be changed to -/
structure SameEntry (ops : ℕ → ObjectOps α) (good : ObjVal α → Prop) (k : NlCache) (v v' : ObjVal α) : Prop where
  type : v'.ceOps = v.ceOps
  identity : k.hashtable.isSome = true → SameIdentity ops good v v'

theorem SameEntry.refl (k : NlCache) (v : ObjVal α) : SameEntry ops good k v v := ⟨rfl, fun _ => SameIdentity.refl v⟩

/-- **Changing an object in place.** Its place in the caches stays, its value stays the same entry, and its counter is
the one that the callers' references ask for. -/
theorem Inv.modified (h : Inv ops good w held) {f : Obj α → Obj α} {held' : ObjId → ℕ}
    (hcache : (f (w.heap o)).ceCache = (w.heap o).ceCache)
    (hin : ∀ c, (w.heap o).ceCache = some c → (f (w.heap o)).linked = (w.heap o).linked ∧
      SameEntry ops good (w.caches c) (w.val o) (f (w.heap o)).val)
    (hrefs : (f (w.heap o)).ceRefcnt = held' o + cacheRefs w o) (hne : ∀ o' ≠ o, held' o' = held o')
    (hfresh : o < w.next ∨ held' o = 0) : Inv ops good (w.modObj o f) held' := by
  have hcache' : ∀ o', ((w.modObj o f).heap o').ceCache = (w.heap o').ceCache := by
    intro o'
    by_cases ho : o' = o
    · rw [ho, Store.modObj_heap_self, hcache]
    · rw [Store.modObj_heap_ne _ _ _ _ ho]
  have hsome : ∀ c ht, ((w.modObj o f).caches c).hashtable = some ht → (w.caches c).hashtable.isSome = true := by
    intro c ht hht
    rw [Store.modObj_caches] at hht
    rw [hht, Option.isSome_some]
  have hsame : ∀ c, ∀ o' ∈ (w.caches c).cItems, SameEntry ops good (w.caches c) (w.val o') ((w.modObj o f).val o') := by
    intro c o' hmem
    have hc := (h.back c o').1 hmem
    by_cases ho : o' = o
    · subst ho
      rw [Store.modObj_val_self]
      exact (hin c hc).2
    · rw [Store.modObj_val_ne _ _ _ _ ho]
      exact SameEntry.refl _ _
  refine ⟨⟨h.nitems, h.nodup, fun c o' => ?_, fun o' c hc => ?_, fun c o' ho' => ?_⟩,
    ⟨fun c ht hht k o' => ?_, h.chainNodup, fun c ht hht a ha b hb hid => ?_, fun c ht hht o' ho' => ?_, h.lawful⟩,
    h.nobug, fun o' => ?_, fun o' ho' => ?_⟩
  · rw [hcache']
    exact h.back c o'
  · rw [hcache'] at hc
    by_cases ho : o' = o
    · subst ho
      rw [Store.modObj_heap_self, (hin c hc).1]
      exact h.linked o' c hc
    · rw [Store.modObj_heap_ne _ _ _ _ ho]
      exact h.linked o' c hc
  · exact (hsame c o' ho').type.trans (h.type c o' ho')
  · -- the key is that of an identical object
    rw [h.chains c ht hht k o', Store.modObj_caches]
    exact and_congr_right fun hmem => by rw [((hsame c o' hmem).identity (hsome c ht hht)).keygen]
  · rw [← ((hsame c a ha).identity (hsome c ht hht)).left, ← ((hsame c b hb).identity (hsome c ht hht)).right] at hid
    exact h.unique c ht hht a ha b hb hid
  · exact ((hsame c o' ho').identity (hsome c ht hht)).good (h.allGood c ht hht o' ho')
  · rw [cacheRefs_congr (hcache' o') fun _ => rfl]
    by_cases ho : o' = o
    · subst ho
      rw [Store.modObj_heap_self]
      exact hrefs
    · rw [Store.modObj_heap_ne _ _ _ _ ho, hne o' ho]
      exact h.refs o'
  · rw [hcache']
    refine ⟨(h.fresh o' ho').1, ?_⟩
    by_cases ho : o' = o
    · subst ho
      rcases hfresh with hlt | h0
      · exact absurd hlt (Nat.not_lt.2 ho')
      · exact h0
    · rw [hne o' ho]
      exact (h.fresh o' ho').2

/-- one reference more, or less, on an object -/
def addRef (held : ObjId → ℕ) (o : ObjId) : ObjId → ℕ := Function.update held o (held o + 1)

def dropRef (held : ObjId → ℕ) (o : ObjId) : ObjId → ℕ := Function.update held o (held o - 1)

@[simp] theorem dropRef_addRef (held : ObjId → ℕ) (o : ObjId) : dropRef (addRef held o) o = held := by
  simp [dropRef, addRef]

@[simp] theorem addRef_self (held : ObjId → ℕ) (o : ObjId) : addRef held o o = held o + 1 := Function.update_self ..

theorem addRef_pos (held : ObjId → ℕ) (o : ObjId) : 0 < addRef held o o := by simp

theorem le_addRef (held : ObjId → ℕ) (o o' : ObjId) : held o' ≤ addRef held o o' := by
  unfold addRef
  rw [Function.update_apply]
  split_ifs with h
  · rw [h]
    exact Nat.le_succ _
  · exact le_rfl

/-- **`nl_object_get`** -/
theorem Inv.get (h : Inv ops good w held) (hlive : o < w.next) : Inv ops good (nlObjectGet w o) (addRef held o) := by
  refine h.modified rfl (fun c hc => ⟨rfl, SameEntry.refl _ _⟩) ?_ (fun o' ho => Function.update_of_ne ho ..)
    (Or.inl hlive)
  have href := h.refs o
  rw [addRef_self]
  push_cast
  omega

theorem Inv.lt_next (h : Inv ops good w held) (hheld : 0 < held o) : o < w.next := by
  by_contra hc
  have := (h.fresh o (Nat.not_lt.1 hc)).2
  omega

/-- **`nl_object_put`** by someone who holds a reference -/
theorem Inv.put (h : Inv ops good w held) (hheld : 0 < held o) : Inv ops good (nlObjectPut w o) (dropRef held o) := by
  have href := h.refs o
  rw [nlObjectPut_eq h.nobug]
  · refine h.modified rfl (fun c hc => ⟨rfl, SameEntry.refl _ _⟩) ?_ (fun o' ho => Function.update_of_ne ho ..)
      (Or.inl (h.lt_next hheld))
    unfold dropRef
    rw [Function.update_self]
    simp only
    omega
  · unfold cacheRefs at href
    cases hc : (w.heap o).ceCache with
    | none =>
      rw [hc] at href
      simp only at href
      rcases Nat.lt_or_ge 1 (held o) with h1 | h1
      · left; omega
      · right; exact ⟨by omega, rfl⟩
    | some c =>
      rw [hc] at href
      simp only at href
      left
      split_ifs at href <;> omega

/-- **`nl_object_alloc`** hands out the first reference -/
theorem Inv.alloc (h : Inv ops good w held) (v : ObjVal α) :
    Inv ops good (nlObjectAlloc w v).1 (addRef held w.next) := by
  have hf := h.fresh w.next le_rfl
  have hbump : Inv ops good { w with next := w.next + 1 } held :=
    ⟨⟨h.nitems, h.nodup, h.back, h.linked, h.type⟩, ⟨h.chains, h.chainNodup, h.unique, h.allGood, h.lawful⟩, h.nobug,
      h.refs, fun o ho => h.fresh o (Nat.le_of_succ_le ho)⟩
  refine hbump.modified (o := w.next) (f := fun _ => ⟨1, none, false, false, v⟩) hf.1.symm ?_ ?_
    (fun o' ho => Function.update_of_ne ho ..) (Or.inl (Nat.lt_succ_self _))
  · intro c hc
    rw [show (Store.heap { w with next := w.next + 1 } w.next).ceCache = none from hf.1] at hc
    cases hc
  · have h0 : cacheRefs { w with next := w.next + 1 } w.next = 0 := by
      unfold cacheRefs
      simp only [hf.1]
    rw [h0, addRef_self, hf.2]
    rfl

theorem Inv.emit (h : Inv ops good w held) (e : Event α) : Inv ops good (w.emit e) held :=
  ⟨⟨h.nitems, h.nodup, h.back, h.linked, h.type⟩, ⟨h.chains, h.chainNodup, h.unique, h.allGood, h.lawful⟩, h.nobug,
    h.refs, h.fresh⟩

theorem Inv.called (h : Inv ops good w held) (cb : ChangeCb) (e1 e2 : Event α) :
    Inv ops good (callback w cb e1 e2) held := by
  cases cb with
  | none => exact h
  | v1 => exact h.emit e1
  | v2 => exact h.emit e2

/-- **`nl_cache_remove`** -/
theorem Inv.remove (h : Inv ops good w held) (o : ObjId) : Inv ops good (nlCacheRemove ops w o) held := by
  cases hc : (w.heap o).ceCache with
  | none =>
    unfold nlCacheRemove
    rw [hc]
    exact h
  | some c =>
    rw [h.remove_eq hc]
    exact h.detached hc

end

end Libnl.Cache
