/-
Caches (`lib/cache.c`, `lib/hashtable.c`, reference management of `lib/object.c`).

The store is what the functions work on: the objects, known by their addresses, and the caches. An object has a reference
counter, the cache it is in, and whether its list head has ever been linked: `nl_list_del` does not reset the list head of
what it takes out, so an object that left a cache still does not look unlinked. A cache is the list of its objects in
order, a counter, and a hash table for types that have a key generator.

Functions follow the source statement by statement. Change callbacks are recorded (`log`): they see objects, and do not
touch the cache. `malloc` may fail; whether it does is an argument (`Alloc`). `bug` records that `BUG()` was reached.
-/
import Mathlib.Tactic
import Libnl.Cache.Object

namespace Libnl.Cache

open Msg Object

/-! ## The store -/

abbrev ObjId := ℕ
abbrev CacheId := ℕ

structure Obj (α : Type) where
  ceRefcnt : ℤ
  ceCache : Option CacheId
  /-- `ce_list` is not empty -/
  linked : Bool
  /-- `NL_OBJ_MARK` -/
  marked : Bool
  val : ObjVal α

structure HashTable where
  size : ℕ
  /-- the chains, first node first -/
  nodes : ℕ → List ObjId

inductive Act where
  | unspec | new | del | get | set | change
deriving DecidableEq, Repr

structure MsgType where
  mtId : ℤ
  mtAct : Act
deriving DecidableEq, Repr

structure CacheOps where
  coObjOps : ℕ
  coMsgtypes : List MsgType
deriving DecidableEq, Repr

structure NlCache where
  cItems : List ObjId
  cNitems : ℤ
  hashtable : Option HashTable
  cOps : CacheOps

/-- a change callback that was made, by version -/
inductive Event (α : Type) where
  | v1 (obj : ObjVal α) (act : Act)
  | v2 (old new : Option (ObjVal α)) (diff : BitVec 64) (act : Act)
deriving DecidableEq

structure Store (α : Type) where
  heap : ObjId → Obj α
  caches : CacheId → NlCache
  /-- addresses from here on have never been allocated -/
  next : ObjId
  log : List (Event α)
  /-- `BUG()` was reached -/
  bug : Bool

namespace Store

variable {α : Type}

def modObj (w : Store α) (o : ObjId) (f : Obj α → Obj α) : Store α :=
  { w with heap := Function.update w.heap o (f (w.heap o)) }

def modCache (w : Store α) (c : CacheId) (f : NlCache → NlCache) : Store α :=
  { w with caches := Function.update w.caches c (f (w.caches c)) }

def emit (w : Store α) (e : Event α) : Store α := { w with log := w.log ++ [e] }

/-- what the object at an address says -/
def val (w : Store α) (o : ObjId) : ObjVal α := (w.heap o).val

section

variable (w : Store α) (o o' : ObjId) (c c' : CacheId) (f g : Obj α → Obj α) (k m : NlCache → NlCache)

theorem modObj_heap : (w.modObj o f).heap o' = if o' = o then f (w.heap o) else w.heap o' :=
  Function.update_apply _ _ _ _

@[simp] theorem modObj_caches : (w.modObj o f).caches = w.caches := rfl
@[simp] theorem modObj_next : (w.modObj o f).next = w.next := rfl
@[simp] theorem modObj_log : (w.modObj o f).log = w.log := rfl
@[simp] theorem modObj_bug : (w.modObj o f).bug = w.bug := rfl
@[simp] theorem modObj_heap_self : (w.modObj o f).heap o = f (w.heap o) := Function.update_self ..
@[simp] theorem modCache_heap : (w.modCache c k).heap = w.heap := rfl
@[simp] theorem modCache_next : (w.modCache c k).next = w.next := rfl
@[simp] theorem modCache_log : (w.modCache c k).log = w.log := rfl
@[simp] theorem modCache_bug : (w.modCache c k).bug = w.bug := rfl
@[simp] theorem modCache_caches_self : (w.modCache c k).caches c = k (w.caches c) := Function.update_self ..
@[simp] theorem modCache_val : (w.modCache c k).val o = w.val o := rfl

theorem modObj_heap_ne (h : o' ≠ o) : (w.modObj o f).heap o' = w.heap o' := Function.update_of_ne h ..

theorem modCache_caches_ne (h : c' ≠ c) : (w.modCache c k).caches c' = w.caches c' := Function.update_of_ne h ..

/-- two changes of one object are one -/
theorem modObj_modObj : (w.modObj o f).modObj o g = w.modObj o fun x => g (f x) := by
  simp [modObj]

theorem modCache_modCache : (w.modCache c k).modCache c m = w.modCache c fun x => m (k x) := by
  simp [modCache]

theorem modCache_modObj : (w.modCache c k).modObj o f = (w.modObj o f).modCache c k := rfl

variable {f g k m} in
/-- changes are the same if they are the same on what is there -/
theorem mod_congr (hf : f (w.heap o) = g (w.heap o)) (hk : k (w.caches c) = m (w.caches c)) :
    (w.modObj o f).modCache c k = (w.modObj o g).modCache c m := by
  simp only [modObj, modCache, hf, hk]

/-- a change that changes nothing -/
theorem modObj_eq_self (h : f (w.heap o) = w.heap o) : w.modObj o f = w := by
  unfold modObj
  rw [h, Function.update_eq_self]

@[simp] theorem modObj_val_self : (w.modObj o f).val o = (f (w.heap o)).val := by
  rw [val, modObj_heap_self]

theorem modObj_val_ne (h : o' ≠ o) : (w.modObj o f).val o' = w.val o' := by
  rw [val, modObj_heap_ne _ _ _ _ h, val]

theorem modObj_val (h : (f (w.heap o)).val = w.val o) : (w.modObj o f).val o' = w.val o' := by
  unfold val
  rw [modObj_heap]
  split_ifs with heq
  · rw [h, heq]
    rfl
  · rfl

end

end Store

/-- which of the allocations a call makes succeed -/
structure Alloc where
  clone : Bool
  node : Bool
deriving DecidableEq, Repr

/-- the callback given to an include function -/
inductive ChangeCb where
  | none | v1 | v2
deriving DecidableEq, Repr

variable {α : Type} (ops : ℕ → ObjectOps α)

/-! ## References -/

/-- `nl_object_alloc`, and whatever fills the object -/
def nlObjectAlloc (w : Store α) (v : ObjVal α) : Store α × ObjId :=
  ({ w with heap := Function.update w.heap w.next ⟨1, none, false, false, v⟩, next := w.next + 1 }, w.next)

def nlObjectGet (w : Store α) (o : ObjId) : Store α := w.modObj o fun x => { x with ceRefcnt := x.ceRefcnt + 1 }

/-- `nl_object_put`. With the last reference the object is freed; if it is still in a cache, `nl_object_free` takes it out,
which puts it once more. -/
def nlObjectPut (w : Store α) (o : ObjId) : Store α :=
  let refcnt := (w.heap o).ceRefcnt - 1
  { w.modObj o (fun x => { x with ceRefcnt := refcnt }) with
    bug := w.bug || decide (refcnt < 0) || (decide (refcnt = 0) && (w.heap o).ceCache.isSome) }

/-- `nl_object_put` of a pointer that may be `NULL` -/
def nlObjectPutOpt (w : Store α) : Option ObjId → Store α
  | none => w
  | some o => nlObjectPut w o

/-- `nl_object_clone`: common header and mark are those of a new object -/
def nlObjectClone (w : Store α) (o : ObjId) (ok : Bool) : Store α × Option ObjId :=
  if ok then
    let r := nlObjectAlloc w (cloneVal ops (w.val o))
    (r.1, some r.2)
  else (w, none)

def nlObjectMark (w : Store α) (o : ObjId) : Store α := w.modObj o fun x => { x with marked := true }

/-! ## Hash table -/

/-- first object of the needle's chain that is identical to it -/
def nlHashTableLookup (w : Store α) (ht : HashTable) (needle : ObjVal α) : Option ObjId :=
  (ht.nodes (nlObjectKeygen ops needle ht.size)).find? fun n => nlObjectIdentical ops (w.val n) needle

/-- the lookup reads nothing but what the objects say -/
theorem nlHashTableLookup_congr {w w' : Store α} (h : ∀ o, w'.val o = w.val o) (ht : HashTable) (needle : ObjVal α) :
    nlHashTableLookup ops w' ht needle = nlHashTableLookup ops w ht needle := by
  unfold nlHashTableLookup
  simp only [h]

/-- the chains with a new first node -/
def HashTable.insert (ht : HashTable) (key : ℕ) (o : ObjId) : HashTable :=
  { ht with nodes := Function.update ht.nodes key (o :: ht.nodes key) }

def nlHashTableAdd (w : Store α) (c : CacheId) (ht : HashTable) (o : ObjId) (ok : Bool) : Store α × ℤ :=
  if (nlHashTableLookup ops w ht (w.val o)).isSome then (w, -NLE_EXIST)
  else if !ok then (w, -NLE_NOMEM)
  else
    let w := nlObjectGet w o
    let key := nlObjectKeygen ops (w.val o) ht.size
    (w.modCache c fun k => { k with hashtable := some (ht.insert key o) }, 0)

/-- `nl_hash_table_del`: the node that is taken out is the first one with an identical object, the reference that is
given back is one on `o` -/
def nlHashTableDel (w : Store α) (c : CacheId) (ht : HashTable) (o : ObjId) : Store α × ℤ :=
  let key := nlObjectKeygen ops (w.val o) ht.size
  if (nlHashTableLookup ops w ht (w.val o)).isSome then
    let chain := (ht.nodes key).eraseP fun n => nlObjectIdentical ops (w.val n) (w.val o)
    let w := nlObjectPut w o
    (w.modCache c fun k => { k with hashtable := some { ht with nodes := Function.update ht.nodes key chain } }, 0)
  else (w, -NLE_OBJ_NOTFOUND)

/-! ## Adding, moving, removing -/

/-- `__cache_add` -/
def cacheAdd (w : Store α) (c : CacheId) (o : ObjId) (mem : Alloc) : Store α × ℤ :=
  let w := w.modObj o fun x => { x with ceCache := some c }
  let r := match (w.caches c).hashtable with
    | some ht => nlHashTableAdd ops w c ht o mem.node
    | none => (w, 0)
  if r.2 < 0 then (r.1.modObj o fun x => { x with ceCache := none }, r.2)
  else
    ((r.1.modObj o fun x => { x with linked := true }).modCache c fun k =>
      { k with cItems := k.cItems ++ [o], cNitems := k.cNitems + 1 }, 0)

def nlCacheRemove (w : Store α) (o : ObjId) : Store α :=
  match (w.heap o).ceCache with
  | none => w
  | some c =>
    let w := match (w.caches c).hashtable with
      | some ht => (nlHashTableDel ops w c ht o).1
      | none => w
    let w := w.modCache c fun k => { k with cItems := k.cItems.erase o }
    let w := w.modObj o fun x => { x with ceCache := none }
    let w := nlObjectPut w o
    w.modCache c fun k => { k with cNitems := k.cNitems - 1 }

def nlCacheAdd (w : Store α) (c : CacheId) (o : ObjId) (mem : Alloc) : Store α × ℤ :=
  if (w.caches c).cOps.coObjOps ≠ (w.val o).ceOps then (w, -NLE_OBJ_MISMATCH)
  else
    let r := if (w.heap o).linked then nlObjectClone ops w o mem.clone else (nlObjectGet w o, some o)
    match r.2 with
    | none => (r.1, -NLE_NOMEM)
    | some n =>
      let a := cacheAdd ops r.1 c n mem
      if a.2 < 0 then (nlObjectPut a.1 n, a.2) else a

/-- `nl_cache_move`: what `__cache_add` returns is returned, and nothing else is done about it -/
def nlCacheMove (w : Store α) (c : CacheId) (o : ObjId) (mem : Alloc) : Store α × ℤ :=
  if (w.caches c).cOps.coObjOps ≠ (w.val o).ceOps then (w, -NLE_OBJ_MISMATCH)
  else
    let w := nlObjectGet w o
    let w := if (w.heap o).linked then nlCacheRemove ops w o else w
    cacheAdd ops w c o mem

/-- `nl_cache_clear`: the successor is fetched before an object is removed -/
def nlCacheClear (w : Store α) (c : CacheId) : Store α := (w.caches c).cItems.foldl (nlCacheRemove ops) w

/-! ## Lookup -/

/-- the returned object is referenced once more -/
def withRef (w : Store α) : Option ObjId → Store α × Option ObjId
  | none => (w, none)
  | some o => (nlObjectGet w o, some o)

/-- first object of the list that is identical to the needle -/
def scanIdentical (w : Store α) (c : CacheId) (needle : ObjVal α) : Option ObjId :=
  (w.caches c).cItems.find? fun o => nlObjectIdentical ops (w.val o) needle

/-- first object of the list that matches the filter -/
def scanFilter (w : Store α) (c : CacheId) (filter : ObjVal α) : Option ObjId :=
  (w.caches c).cItems.find? fun o => nlObjectMatchFilter ops (w.val o) filter

/-- the object `nl_cache_search` returns -/
def searchResult (w : Store α) (c : CacheId) (needle : ObjVal α) : Option ObjId :=
  match (w.caches c).hashtable with
  | some ht => nlHashTableLookup ops w ht needle
  | none => scanIdentical ops w c needle

def nlCacheSearch (w : Store α) (c : CacheId) (needle : ObjVal α) : Store α × Option ObjId :=
  withRef w (searchResult ops w c needle)

/-- the object `nl_cache_find` returns -/
def findResult (w : Store α) (c : CacheId) (filter : ObjVal α) : Option ObjId :=
  match (w.caches c).hashtable with
  | some ht =>
    if (nlObjectGetIdAttrs ops filter).setWidth 64 = filter.ceMask then nlHashTableLookup ops w ht filter
    else scanFilter ops w c filter
  | none => scanFilter ops w c filter

def nlCacheFind (w : Store α) (c : CacheId) (filter : ObjVal α) : Store α × Option ObjId :=
  withRef w (findResult ops w c filter)

def nlCacheMarkAll (w : Store α) (c : CacheId) : Store α := (w.caches c).cItems.foldl nlObjectMark w

/-! ## Inclusion -/

/-- call the change callback, whichever version it is -/
def callback (w : Store α) (cb : ChangeCb) (e1 e2 : Event α) : Store α :=
  match cb with
  | .none => w
  | .v1 => w.emit e1
  | .v2 => w.emit e2

/-- `cache_include`, an object of the same identity is there: the two are merged -/
def includeUpdated (w : Store α) (o old : ObjId) (clone : Option ObjId) (diff : BitVec 64) (v : ObjVal α)
    (cb : ChangeCb) : Store α × ℤ :=
  let w := w.modObj old fun x => { x with val := v }
  let w := callback w cb (.v1 v .change) (.v2 (clone.map w.val) (some (w.val o)) diff .change)
  let w := nlObjectPutOpt w clone
  (nlObjectPut w old, 0)

/-- `cache_include`, an object of the same identity is there and cannot be updated -/
def includeReplaced (w : Store α) (c : CacheId) (o old : ObjId) (act : Act) (cb : ChangeCb) (mem : Alloc) :
    Store α × ℤ :=
  let w := nlCacheRemove ops w old
  if act = .del then
    let w := callback w cb (.v1 (w.val old) .del) (.v2 (some (w.val old)) none 0 .del)
    (nlObjectPut w old, 0)
  else
    let w := (nlCacheMove ops w c o mem).1
    let diff := nlObjectDiff64 ops (w.val old) (w.val o)
    let w := if diff ≠ 0 then
        callback w cb (.v1 (w.val o) .change) (.v2 (some (w.val old)) (some (w.val o)) diff .change)
      else w
    (nlObjectPut w old, 0)

/-- `cache_include`, no object of the same identity is there -/
def includeAbsent (w : Store α) (c : CacheId) (o : ObjId) (act : Act) (cb : ChangeCb) (mem : Alloc) : Store α × ℤ :=
  if act = .new then
    let w := (nlCacheMove ops w c o mem).1
    (callback w cb (.v1 (w.val o) .new) (.v2 none (some (w.val o)) 0 .new), 0)
  else (w, 0)

/-- the second version of the callback gets a clone of an object that may be updated in place -/
def wantsClone (w : Store α) (old : ObjId) (cb : ChangeCb) : Bool :=
  decide (cb = .v2) && (ops (w.val old).ceOps).ooUpdate.isSome

def cloneOld (w : Store α) (old : ObjId) (cb : ChangeCb) (ok : Bool) : Store α × Option ObjId :=
  if wantsClone ops w old cb then nlObjectClone ops w old ok else (w, none)

/-- `cache_include`, an object of the same identity is there -/
def includePresent (w : Store α) (c : CacheId) (o old : ObjId) (act : Act) (cb : ChangeCb) (mem : Alloc) :
    Store α × ℤ :=
  let diff := if wantsClone ops w old cb then nlObjectDiff64 ops (w.val old) (w.val o) else 0
  let r := cloneOld ops w old cb mem.clone
  match nlObjectUpdate ops (r.1.val old) (r.1.val o) with
  | some v => includeUpdated r.1 o old r.2 diff v cb
  | none => includeReplaced ops (nlObjectPutOpt r.1 r.2) c o old act cb mem

def cacheInclude (w : Store α) (c : CacheId) (o : ObjId) (act : Act) (cb : ChangeCb) (mem : Alloc) : Store α × ℤ :=
  if act = .new ∨ act = .del then
    let r := nlCacheSearch ops w c (w.val o)
    match r.2 with
    | none => includeAbsent ops r.1 c o act cb mem
    | some old => includePresent ops r.1 c o old act cb mem
  else (w, 0)

/-- first entry of the message-type table with this id -/
def msgtypeAct (cops : CacheOps) (msgtype : ℤ) : Option Act :=
  (cops.coMsgtypes.find? fun m => decide (m.mtId = msgtype)).map MsgType.mtAct

/-- `nl_cache_include` and `nl_cache_include_v2`, by the callback -/
def nlCacheInclude (w : Store α) (c : CacheId) (o : ObjId) (cb : ChangeCb) (mem : Alloc) : Store α × ℤ :=
  if (w.caches c).cOps.coObjOps ≠ (w.val o).ceOps then (w, -NLE_OBJ_MISMATCH)
  else
    match msgtypeAct (w.caches c).cOps (w.val o).ceMsgtype with
    | some act => cacheInclude ops w c o act cb mem
    | none => (w, -NLE_MSGTYPE_NOSUPPORT)

end Libnl.Cache
