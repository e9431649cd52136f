/-
Removing any object from a cache (`nl_cache_remove` of `lib/cache.c`, `nl_hash_table_del` of `lib/hashtable.c`).

The invariant of `Invariant` is about objects that are identical to themselves. `nl_cache_add` takes others as well: an
object that lacks an id attribute is identical to none, not even to itself, and goes into the hash table all the same. When
an object is removed its node is not looked up by its address, but by its identity.

- `Woven`, `adds_woven`: after any run of `nl_cache_add` every chain has the listed objects with its key, newest first.
- `removal_complete_iff`: a cached object is gone after `nl_cache_remove` if and only if it is identical to itself and
  no object with its key that was added later is identical to it.
- `node_left_behind`: a neighbour without destination stays in the hash table.
-/
import Mathlib.Tactic
import Libnl.Cache.Lookup

namespace Libnl.Cache

open Msg Object Neigh

variable {α : Type} {ops : ℕ → ObjectOps α} {w w' : Store α} {c : CacheId} {o : ObjId}

/-! ## Chains as they grow -/

variable (ops) in
/-- the listed objects with a key, newest first -/
def newestFirst (w : Store α) (items : List ObjId) (size k : ℕ) : List ObjId :=
  (items.filter fun o => decide (nlObjectKeygen ops (w.val o) size = k)).reverse

variable (ops) in
/-- lists and hash tables of caches to which objects were only added -/
structure Woven (w : Store α) : Prop extends Lists w where
  chains : ∀ c ht, (w.caches c).hashtable = some ht → ∀ k, ht.nodes k = newestFirst ops w (w.caches c).cItems ht.size k
  fresh : ∀ o, w.next ≤ o → (w.heap o).ceCache = none

theorem newestFirst_congr {items : List ObjId} (h : ∀ o ∈ items, w'.val o = w.val o) (size k : ℕ) :
    newestFirst ops w' items size k = newestFirst ops w items size k := by
  unfold newestFirst
  congr 1
  refine List.filter_congr fun o ho => ?_
  rw [h o ho]

theorem mem_newestFirst {items : List ObjId} {size k : ℕ} :
    o ∈ newestFirst ops w items size k ↔ o ∈ items ∧ nlObjectKeygen ops (w.val o) size = k := by
  rw [newestFirst, List.mem_reverse, List.mem_filter, decide_eq_true_iff]

theorem newestFirst_snoc (w : Store α) (items : List ObjId) (o : ObjId) (size k : ℕ) :
    newestFirst ops w (items ++ [o]) size k =
      if nlObjectKeygen ops (w.val o) size = k then o :: newestFirst ops w items size k
      else newestFirst ops w items size k := by
  rw [newestFirst, List.filter_append, List.filter_cons, List.filter_nil, List.reverse_append, newestFirst]
  by_cases hk : nlObjectKeygen ops (w.val o) size = k
  · rw [if_pos hk, if_pos (decide_eq_true hk)]
    rfl
  · rw [if_neg hk, if_neg (by simpa using hk)]
    rfl

/-- changes that leave lists and hash tables alone, and what cached objects say -/
theorem Woven.congr (h : Woven ops w) (hcaches : w'.caches = w.caches)
    (hback : ∀ o, (w'.heap o).ceCache = (w.heap o).ceCache)
    (hkept : ∀ o c, (w.heap o).ceCache = some c → (w'.heap o).linked = (w.heap o).linked ∧ w'.val o = w.val o)
    (hnext : w.next ≤ w'.next) : Woven ops w' := by
  have hval : ∀ c, ∀ o ∈ (w.caches c).cItems, w'.val o = w.val o := fun c o ho => (hkept o c ((h.back c o).1 ho)).2
  refine ⟨⟨fun c => ?_, fun c => ?_, fun c o => ?_, fun o c hc => ?_, fun c o ho => ?_⟩, fun c ht hht k => ?_, fun o ho => ?_⟩
  · rw [hcaches]
    exact h.nitems c
  · rw [hcaches]
    exact h.nodup c
  · rw [hcaches, hback]
    exact h.back c o
  · rw [hback] at hc
    rw [(hkept o c hc).1]
    exact h.linked o c hc
  · rw [hcaches] at ho ⊢
    rw [hval c o ho]
    exact h.type c o ho
  · rw [hcaches] at hht ⊢
    rw [h.chains c ht hht k, newestFirst_congr (hval c)]
  · rw [hback]
    exact h.fresh o (hnext.trans ho)

theorem Woven.get (h : Woven ops w) (o : ObjId) : Woven ops (nlObjectGet w o) := by
  have hheap : ∀ a, ((nlObjectGet w o).heap a).ceCache = (w.heap a).ceCache ∧
      ((nlObjectGet w o).heap a).linked = (w.heap a).linked ∧ (nlObjectGet w o).val a = w.val a := by
    intro a
    rw [Store.val, Store.val, nlObjectGet, Store.modObj_heap]
    split_ifs with ha
    · rw [ha]
      exact ⟨rfl, rfl, rfl⟩
    · exact ⟨rfl, rfl, rfl⟩
  exact h.congr rfl (fun a => (hheap a).1) (fun a _ _ => (hheap a).2) le_rfl

theorem Woven.put (h : Woven ops w) (o : ObjId) : Woven ops (nlObjectPut w o) := by
  have hheap : ∀ a, ((nlObjectPut w o).heap a).ceCache = (w.heap a).ceCache ∧
      ((nlObjectPut w o).heap a).linked = (w.heap a).linked ∧ (nlObjectPut w o).val a = w.val a := by
    intro a
    simp only [Store.val, nlObjectPut, Store.modObj_heap]
    split_ifs with ha
    · rw [ha]
      exact ⟨rfl, rfl, rfl⟩
    · exact ⟨rfl, rfl, rfl⟩
  exact h.congr rfl (fun a => (hheap a).1) (fun a _ _ => (hheap a).2) le_rfl

theorem Woven.alloc (h : Woven ops w) (v : ObjVal α) : Woven ops (nlObjectAlloc w v).1 := by
  have hnew := h.fresh w.next le_rfl
  have hother : ∀ a, a ≠ w.next → ((nlObjectAlloc w v).1.heap a) = w.heap a := fun a ha => Function.update_of_ne ha ..
  refine h.congr rfl (fun a => ?_) (fun a c hc => ?_) (Nat.le_succ _)
  · by_cases ha : a = w.next
    · rw [ha, hnew, nlObjectAlloc]
      simp only [Function.update_self]
    · rw [hother a ha]
  · have ha : a ≠ w.next := by
      rintro rfl
      rw [hnew] at hc
      cases hc
    rw [Store.val, Store.val, hother a ha]
    exact ⟨rfl, rfl⟩

/-- **Attaching** an object puts it at the end of the list and in front of its chain. -/
theorem Woven.attached (h : Woven ops w) (hnone : (w.heap o).ceCache = none) (hlt : o < w.next)
    (htype : (w.val o).ceOps = (w.caches c).cOps.coObjOps) : Woven ops (attach ops w c o) := by
  refine ⟨h.toLists.attached hnone htype, fun c' ht' hht k => ?_, fun a ha => ?_⟩
  · rw [newestFirst_congr (w := w) fun a _ => attach_val ops w c o a]
    by_cases hc : c' = c
    · subst hc
      rw [attach_caches_self] at hht ⊢
      obtain ⟨ht, hht0, rfl⟩ := Option.map_eq_some_iff.1 hht
      show Function.update ht.nodes (nlObjectKeygen ops (w.val o) ht.size)
        (o :: ht.nodes (nlObjectKeygen ops (w.val o) ht.size)) k =
          newestFirst ops w ((w.caches c').cItems ++ [o]) ht.size k
      rw [newestFirst_snoc]
      by_cases hk : nlObjectKeygen ops (w.val o) ht.size = k
      · rw [if_pos hk, hk, Function.update_self, h.chains c' ht hht0]
      · rw [if_neg hk, Function.update_of_ne (Ne.symm hk), h.chains c' ht hht0]
    · rw [attach_caches_ne _ _ _ _ hc] at hht ⊢
      exact h.chains c' ht' hht k
  · rw [attach_next] at ha
    rw [attach_heap_ne ops w c o (Nat.ne_of_gt (lt_of_lt_of_le hlt ha))]
    exact h.fresh a ha

/-! ## Runs of additions -/

theorem Woven.cacheAdded (h : Woven ops w) (hnone : (w.heap o).ceCache = none) (hlt : o < w.next)
    (htype : (w.val o).ceOps = (w.caches c).cOps.coObjOps) (mem : Alloc) : Woven ops (cacheAdd ops w c o mem).1 := by
  rw [cacheAdd_eq ops w c o mem hnone]
  cases (w.caches c).hashtable with
  | none => exact h.attached hnone hlt htype
  | some ht =>
    dsimp only
    split_ifs
    · exact h
    · exact h
    · exact h.attached hnone hlt htype

/-- **`nl_cache_add`** of any object, with any outcome of the allocations -/
theorem Woven.add (h : Woven ops w) (hlt : o < w.next) (mem : Alloc) : Woven ops (nlCacheAdd ops w c o mem).1 := by
  have hput : ∀ {w' : Store α} {n : ObjId}, Woven ops w' → (w'.heap n).ceCache = none → n < w'.next →
      (w'.val n).ceOps = (w'.caches c).cOps.coObjOps →
      Woven ops (if (cacheAdd ops w' c n mem).2 < 0 then
        (nlObjectPut (cacheAdd ops w' c n mem).1 n, (cacheAdd ops w' c n mem).2) else cacheAdd ops w' c n mem).1 := by
    intro w' n hw' hnone hn htype
    have hadded := hw'.cacheAdded hnone hn htype mem
    split_ifs
    · exact hadded.put n
    · exact hadded
  unfold nlCacheAdd
  by_cases htype : (w.caches c).cOps.coObjOps ≠ (w.val o).ceOps
  · rw [if_pos htype]
    exact h
  · rw [if_neg htype]
    rw [not_not] at htype
    by_cases hlinked : (w.heap o).linked = true
    · rw [if_pos hlinked, nlObjectClone]
      cases mem.clone with
      | false => exact h
      | true =>
        refine hput (h.alloc _) ?_ (Nat.lt_succ_self _) ?_
        · simp [nlObjectAlloc]
        · simp [nlObjectAlloc, Store.val, htype]
    · rw [if_neg hlinked]
      have hnone : (w.heap o).ceCache = none := by
        rw [Option.eq_none_iff_forall_ne_some]
        exact fun c' hc' => hlinked (h.linked o c' hc')
      refine hput (h.get o) ?_ hlt ?_
      · simp [nlObjectGet, hnone]
      · simp [nlObjectGet, Store.val, htype]

/-- objects are allocated and added, and nothing else -/
def AddsOnly (s : Sys α) : Call α → Prop
  | .alloc _ => True
  | .add _ o _ => Live s.store o
  | _ => False

theorem Initial.woven (h : Initial w) : Woven ops w := by
  have hnil : ∀ c o, o ∉ (w.caches c).cItems := by
    intro c o hmem
    rw [(h.items c).1] at hmem
    cases hmem
  refine ⟨⟨fun c => ?_, fun c => ?_, fun c o => ?_, fun o c hc => ?_, fun c o hmem => absurd hmem (hnil c o)⟩,
    fun c ht hht k => ?_, fun o _ => (h.heap o).1⟩
  · rw [(h.items c).1, (h.items c).2]
    rfl
  · rw [(h.items c).1]
    exact List.nodup_nil
  · rw [(h.heap o).1]
    exact ⟨fun hmem => absurd hmem (hnil c o), nofun⟩
  · rw [(h.heap o).1] at hc
    cases hc
  · rw [h.chains c ht hht k, (h.items c).1]
    rfl

/-- **Runs of additions** -/
theorem adds_woven {s : Sys α} (calls : List (Call α)) (h : Woven ops s.store) (hl : Throughout ops AddsOnly s calls) :
    Woven ops (run ops s calls).store := by
  induction calls generalizing s with
  | nil => exact h
  | cons call calls ih =>
    refine ih ?_ hl.2
    cases call with
    | alloc v => exact h.alloc v
    | add c o mem => exact h.add hl.1.1 mem
    | get o | put o | set o v | move c o mem | remove o | clear c | incl c o cb mem => exact absurd hl.1 id

/-! ## Removal -/

/-- the hash table after `nl_hash_table_del` -/
def HashTable.without (ops : ℕ → ObjectOps α) (w : Store α) (ht : HashTable) (o : ObjId) : HashTable :=
  let key := nlObjectKeygen ops (w.val o) ht.size
  let chain := (ht.nodes key).eraseP fun n => nlObjectIdentical ops (w.val n) (w.val o)
  { ht with nodes := Function.update ht.nodes key chain }

theorem nlObjectPut_caches (w : Store α) (o : ObjId) : (nlObjectPut w o).caches = w.caches := rfl

theorem nlObjectPut_val (w : Store α) (o a : ObjId) : (nlObjectPut w o).val a = w.val a := by
  simp only [Store.val, nlObjectPut, Store.modObj_heap]
  split_ifs with ha
  · rw [ha]
  · rfl

/-- nothing is taken out of a chain that has no node for the object -/
theorem eraseP_of_lookup_none {ht : HashTable} {needle : ObjVal α} (h : nlHashTableLookup ops w ht needle = none) :
    ((ht.nodes (nlObjectKeygen ops needle ht.size)).eraseP fun n => nlObjectIdentical ops (w.val n) needle) =
      ht.nodes (nlObjectKeygen ops needle ht.size) :=
  List.eraseP_of_forall_not (List.find?_eq_none.1 h)

variable (ops) in
/-- **`nl_hash_table_del`** -/
theorem nlHashTableDel_table {ht : HashTable} (hht : (w.caches c).hashtable = some ht) (o : ObjId) :
    ((nlHashTableDel ops w c ht o).1.caches c).hashtable = some (ht.without ops w o) ∧
    ((nlHashTableDel ops w c ht o).1.caches c).cItems = (w.caches c).cItems ∧
    (∀ c', c' ≠ c → (nlHashTableDel ops w c ht o).1.caches c' = w.caches c') ∧
    ∀ a, (nlHashTableDel ops w c ht o).1.val a = w.val a := by
  unfold nlHashTableDel
  cases hl : nlHashTableLookup ops w ht (w.val o) with
  | none =>
    refine ⟨?_, rfl, fun _ _ => rfl, fun _ => rfl⟩
    simp only [Option.isSome_none, Bool.false_eq_true, if_false]
    rw [hht, HashTable.without, eraseP_of_lookup_none hl, Function.update_eq_self]
  | some n =>
    simp only [Option.isSome_some, if_true]
    refine ⟨?_, ?_, fun c' hc => ?_, fun a => ?_⟩
    · rw [Store.modCache_caches_self]
      rfl
    · rw [Store.modCache_caches_self]
      rfl
    · rw [Store.modCache_caches_ne _ _ _ _ hc]
      rfl
    · rw [Store.modCache_val, nlObjectPut_val]

variable (ops) in
/-- **`nl_cache_remove`** of an object in a cache with a hash table -/
theorem nlCacheRemove_table {ht : HashTable} (hin : (w.heap o).ceCache = some c) (hht : (w.caches c).hashtable = some ht) :
    ((nlCacheRemove ops w o).caches c).hashtable = some (ht.without ops w o) ∧
    ((nlCacheRemove ops w o).caches c).cItems = (w.caches c).cItems.erase o ∧
    (∀ c', c' ≠ c → (nlCacheRemove ops w o).caches c' = w.caches c') ∧
    ∀ a, (nlCacheRemove ops w o).val a = w.val a := by
  obtain ⟨htable, hitems, hother, hval⟩ := nlHashTableDel_table ops hht o
  unfold nlCacheRemove
  rw [hin]
  dsimp only
  rw [hht]
  dsimp only
  refine ⟨?_, ?_, fun c' hc => ?_, fun a => ?_⟩
  · rw [Store.modCache_caches_self, nlObjectPut_caches, Store.modObj_caches, Store.modCache_caches_self]
    exact htable
  · rw [Store.modCache_caches_self, nlObjectPut_caches, Store.modObj_caches, Store.modCache_caches_self]
    exact congrArg (List.erase · o) hitems
  · rw [Store.modCache_caches_ne _ _ _ _ hc, nlObjectPut_caches, Store.modObj_caches, Store.modCache_caches_ne _ _ _ _ hc]
    exact hother c' hc
  · rw [Store.modCache_val, nlObjectPut_val, Store.modObj_val _ _ _ _ rfl, Store.modCache_val]
    exact hval a

/-- the object is in no list, every hash node is that of a listed object, and no search returns the object -/
structure Gone (ops : ℕ → ObjectOps α) (w : Store α) (o : ObjId) : Prop where
  unlisted : ∀ c, o ∉ (w.caches c).cItems
  nodes : ∀ c ht, (w.caches c).hashtable = some ht → ∀ k, ∀ n ∈ ht.nodes k, n ∈ (w.caches c).cItems
  unfound : ∀ c needle, (nlCacheSearch ops w c needle).2 ≠ some o

/-- the objects of a list behind another one: those added later -/
def addedAfter (items : List ObjId) (o : ObjId) : List ObjId := (items.dropWhile fun n => decide (n ≠ o)).tail

/-- the object is identical to itself, and no object with its key that was added later is identical to it -/
def FoundByDel (ops : ℕ → ObjectOps α) (w : Store α) (items : List ObjId) (size : ℕ) (o : ObjId) : Prop :=
  nlObjectIdentical ops (w.val o) (w.val o) = true ∧
    ∀ n ∈ addedAfter items o, nlObjectKeygen ops (w.val n) size = nlObjectKeygen ops (w.val o) size →
      nlObjectIdentical ops (w.val n) (w.val o) = false

theorem addedAfter_eq {before after : List ObjId} (h : o ∉ before) : addedAfter (before ++ o :: after) o = after := by
  have hdrop : (before ++ o :: after).dropWhile (fun n => decide (n ≠ o)) = o :: after := by
    rw [List.dropWhile_append_of_pos]
    · exact List.dropWhile_cons_of_neg (by simp)
    · intro n hn
      exact decide_eq_true fun heq => h (heq ▸ hn)
  rw [addedAfter, hdrop, List.tail_cons]

section

variable {ht : HashTable} (h : Woven ops w) (hht : (w.caches c).hashtable = some ht) (ho : o ∈ (w.caches c).cItems)

include h hht ho

/-- the chain of the object: the later objects, the object, the earlier ones -/
theorem Woven.chain_split : ∃ newer older, ht.nodes (nlObjectKeygen ops (w.val o) ht.size) = newer ++ o :: older ∧
    (∀ n, n ∈ newer ↔ n ∈ addedAfter (w.caches c).cItems o ∧
      nlObjectKeygen ops (w.val n) ht.size = nlObjectKeygen ops (w.val o) ht.size) ∧ o ∉ newer ∧ o ∉ older := by
  obtain ⟨before, after, hitems⟩ := List.append_of_mem ho
  have hnodup := h.nodup c
  rw [hitems, List.nodup_append, List.nodup_cons] at hnodup
  obtain ⟨-, ⟨hafter, -⟩, hsep⟩ := hnodup
  have hbefore : o ∉ before := fun hmem => hsep o hmem o List.mem_cons_self rfl
  refine ⟨newestFirst ops w after ht.size (nlObjectKeygen ops (w.val o) ht.size),
    newestFirst ops w before ht.size (nlObjectKeygen ops (w.val o) ht.size), ?_, fun n => ?_, ?_, ?_⟩
  · rw [h.chains c ht hht, hitems, newestFirst, List.filter_append, List.filter_cons_of_pos (p := fun n => decide (nlObjectKeygen ops (w.val n) ht.size =
      nlObjectKeygen ops (w.val o) ht.size)) (decide_eq_true rfl), List.reverse_append, List.reverse_cons, List.append_assoc]
    rfl
  · rw [hitems, addedAfter_eq hbefore, mem_newestFirst]
  · exact fun hmem => hafter (mem_newestFirst.1 hmem).1
  · exact fun hmem => hbefore (mem_newestFirst.1 hmem).1

/-- **Removing finds the node** of the object just when it is the first one of its chain that is identical. -/
theorem Woven.without_iff : (∀ k, o ∉ (ht.without ops w o).nodes k) ↔ FoundByDel ops w (w.caches c).cItems ht.size o := by
  obtain ⟨newer, older, hchain, hnewer, hout, hout'⟩ := h.chain_split hht ho
  have hkey : (ht.without ops w o).nodes (nlObjectKeygen ops (w.val o) ht.size) =
      (newer ++ o :: older).eraseP fun n => nlObjectIdentical ops (w.val n) (w.val o) := by
    rw [← hchain]
    exact Function.update_self ..
  constructor
  · intro hgone
    have hnode := hgone (nlObjectKeygen ops (w.val o) ht.size)
    rw [hkey] at hnode
    have hself : nlObjectIdentical ops (w.val o) (w.val o) = true := by
      by_contra hself
      exact hnode ((List.mem_eraseP_of_neg (p := fun n => nlObjectIdentical ops (w.val n) (w.val o)) hself).2
        (List.mem_append_right _ List.mem_cons_self))
    refine ⟨hself, fun n hn hk => ?_⟩
    by_contra hid
    rw [Bool.not_eq_false] at hid
    -- a later object is taken out instead
    rw [List.eraseP_append_left (p := fun n => nlObjectIdentical ops (w.val n) (w.val o)) hid _
      ((hnewer n).2 ⟨hn, hk⟩)] at hnode
    exact hnode (List.mem_append_right _ List.mem_cons_self)
  · rintro ⟨hself, hlater⟩ k
    by_cases hk : k = nlObjectKeygen ops (w.val o) ht.size
    · have hnone : ∀ n ∈ newer, ¬ nlObjectIdentical ops (w.val n) (w.val o) = true := by
        intro n hn
        obtain ⟨hafter, hsame⟩ := (hnewer n).1 hn
        rw [hlater n hafter hsame]
        exact Bool.false_ne_true
      rw [hk, hkey, List.eraseP_append_right _ hnone, 
        List.eraseP_cons_of_pos (p := fun n => nlObjectIdentical ops (w.val n) (w.val o)) hself, List.mem_append, not_or]
      exact ⟨hout, hout'⟩
    · have hother : (ht.without ops w o).nodes k = ht.nodes k := Function.update_of_ne hk ..
      rw [hother, h.chains c ht hht, mem_newestFirst]
      exact fun hmem => hk hmem.2.symm

/-- the nodes that are left are those of listed objects, when the object's is not among them -/
theorem Woven.gone_iff : Gone ops (nlCacheRemove ops w o) o ↔ FoundByDel ops w (w.caches c).cItems ht.size o := by
  obtain ⟨htable, hitems, hother, hval⟩ := nlCacheRemove_table ops ((h.back c o).1 ho) hht
  have hunlisted : ∀ c', o ∉ ((nlCacheRemove ops w o).caches c').cItems := by
    intro c'
    by_cases hc : c' = c
    · rw [hc, hitems, (h.nodup c).mem_erase_iff]
      exact fun hmem => hmem.1 rfl
    · rw [hother c' hc, h.back, (h.back c o).1 ho]
      exact fun heq => hc (Option.some.inj heq).symm
  rw [← h.without_iff hht ho]
  constructor
  · intro hgone k hnode
    exact hunlisted c (hgone.nodes c _ htable k o hnode)
  · intro hnode
    have hnodes : ∀ c' ht', ((nlCacheRemove ops w o).caches c').hashtable = some ht' → ∀ k, ∀ n ∈ ht'.nodes k,
        n ∈ ((nlCacheRemove ops w o).caches c').cItems := by
      intro c' ht' hht' k n hn
      by_cases hc : c' = c
      · subst hc
        rw [htable] at hht'
        cases hht'
        have hne : n ≠ o := fun heq => hnode k (heq ▸ hn)
        have hold : n ∈ ht.nodes k := by
          by_cases hk : k = nlObjectKeygen ops (w.val o) ht.size
          · rw [hk] at hn ⊢
            exact List.mem_of_mem_eraseP (by simpa [HashTable.without] using hn)
          · have hother' : (ht.without ops w o).nodes k = ht.nodes k := Function.update_of_ne hk ..
            rwa [hother'] at hn
        rw [h.chains c' ht hht, mem_newestFirst] at hold
        rw [hitems, (h.nodup c').mem_erase_iff]
        exact ⟨hne, hold.1⟩
      · rw [hother c' hc] at hht' ⊢
        rw [h.chains c' ht' hht', mem_newestFirst] at hn
        exact hn.1
    refine ⟨hunlisted, hnodes, fun c' needle hfound => ?_⟩
    have hresult : searchResult ops (nlCacheRemove ops w o) c' needle = some o := by
      rw [nlCacheSearch] at hfound
      cases hs : searchResult ops (nlCacheRemove ops w o) c' needle with
      | none =>
        rw [hs] at hfound
        cases hfound
      | some n =>
        rw [hs] at hfound
        exact hfound
    rw [searchResult] at hresult
    cases hht' : ((nlCacheRemove ops w o).caches c').hashtable with
    | none =>
      rw [hht'] at hresult
      exact hunlisted c' (List.mem_of_find?_eq_some hresult)
    | some ht' =>
      rw [hht'] at hresult
      exact hunlisted c' (hnodes c' ht' hht' _ o (List.mem_of_find?_eq_some hresult))

end

/-- **Removal is complete** if and only if the object is identical to itself, and no object with its key that was added
later is identical to it. -/
theorem removal_complete_iff {w : Store α} (hw : Initial w) (calls : List (Call α))
    (hl : Throughout ops AddsOnly ⟨w, fun _ => 0⟩ calls) {c : CacheId} {ht : HashTable}
    (hht : ((run ops ⟨w, fun _ => 0⟩ calls).store.caches c).hashtable = some ht) {o : ObjId}
    (ho : o ∈ ((run ops ⟨w, fun _ => 0⟩ calls).store.caches c).cItems) :
    Gone ops (nlCacheRemove ops (run ops ⟨w, fun _ => 0⟩ calls).store o) o ↔
      FoundByDel ops (run ops ⟨w, fun _ => 0⟩ calls).store
        ((run ops ⟨w, fun _ => 0⟩ calls).store.caches c).cItems ht.size o :=
  (adds_woven calls hw.woven hl).gone_iff hht ho

/-- an object that carries its id attributes is allocated, added and removed -/
theorem removal_complete_iff_sample :
    let w' := (run sampleOps ⟨sampleStore, fun _ => 0⟩ [.alloc (sampleVal 1 10), .add 0 0 ⟨true, true⟩]).store
    Gone sampleOps (nlCacheRemove sampleOps w' 0) 0 ↔ FoundByDel sampleOps w' (w'.caches 0).cItems 8 0 := by
  have hlegal : Throughout sampleOps AddsOnly ⟨sampleStore, fun _ => 0⟩ [.alloc (sampleVal 1 10), .add 0 0 ⟨true, true⟩] :=
    ⟨trivial, ⟨by decide, by decide⟩, trivial⟩
  exact removal_complete_iff (c := 0) (o := 0) sample_initial _ hlegal (by rfl) (by decide)

/-- a neighbour without destination -/
def noDstEntry : ObjVal RtnlNeigh :=
  { ownEntry with
    ceMask := NEIGH_ATTR_FAMILY ||| NEIGH_ATTR_IFINDEX ||| NEIGH_ATTR_LLADDR
    data := { ownEntry.data with nFamily := 2 } }

theorem neigh_initial : Initial neighStore :=
  ⟨fun _ => ⟨rfl, rfl⟩, fun _ => ⟨rfl, rfl⟩, fun _ _ hht _ => by cases hht; rfl, rfl⟩

/-- **A node is left behind.** A neighbour is added that has no destination, and removed. -/
theorem node_left_behind :
    ¬ ∀ (w : Store RtnlNeigh) (calls : List (Call RtnlNeigh)), Initial w →
      Throughout (fun _ => neighObjOps byteSum) AddsOnly ⟨w, fun _ => 0⟩ calls → ∀ (c : CacheId) (ht : HashTable),
      ((run (fun _ => neighObjOps byteSum) ⟨w, fun _ => 0⟩ calls).store.caches c).hashtable = some ht → ∀ o,
      o ∈ ((run (fun _ => neighObjOps byteSum) ⟨w, fun _ => 0⟩ calls).store.caches c).cItems →
      Gone (fun _ => neighObjOps byteSum)
        (nlCacheRemove (fun _ => neighObjOps byteSum) (run (fun _ => neighObjOps byteSum) ⟨w, fun _ => 0⟩ calls).store o) o := by
  intro h
  have hlegal : Throughout (fun _ => neighObjOps byteSum) AddsOnly ⟨neighStore, fun _ => 0⟩
      [.alloc noDstEntry, .add 0 0 ⟨true, true⟩] := ⟨trivial, ⟨by decide, by decide⟩, trivial⟩
  have hgone := h neighStore [.alloc noDstEntry, .add 0 0 ⟨true, true⟩] neigh_initial hlegal 0 _ (by rfl) 0 (by decide)
  have hself := ((adds_woven _ neigh_initial.woven hlegal).gone_iff (c := 0) (o := 0) (by rfl) (by decide)).1 hgone
  exact absurd hself.1 (by decide)

end Libnl.Cache
