/-
The functions of `lib/cache.c` keep the representation of caches.

Each function is followed with the references that are owed while it runs: a lookup adds one on what it found, a cloned
or allocated object comes with one, `__cache_add` takes one over. `nl_cache_move` is the only function that can end with
a reference too many, when `__cache_add` fails (`Inv.move`), and `cache_include` inherits that (`Inv.included`).
-/
import Mathlib.Tactic
import Libnl.Cache.Invariant

namespace Libnl.Cache

open Msg Object

variable {α : Type} {ops : ℕ → ObjectOps α} {good : ObjVal α → Prop} {w : Store α} {held : ObjId → ℕ} {c : CacheId} {o : ObjId}

/-! ## Removing -/

section

variable (h : Inv ops good w held)

include h

theorem Inv.remove_cases (o : ObjId) : ((w.heap o).ceCache = none ∧ nlCacheRemove ops w o = w) ∨
    ∃ c, (w.heap o).ceCache = some c ∧ nlCacheRemove ops w o = detach ops w c o := by
  cases hc : (w.heap o).ceCache with
  | none =>
    left
    unfold nlCacheRemove
    rw [hc]
    exact ⟨rfl, rfl⟩
  | some c => exact Or.inr ⟨c, rfl, h.remove_eq hc⟩

theorem Inv.remove_ceCache (o : ObjId) : ((nlCacheRemove ops w o).heap o).ceCache = none := by
  rcases h.remove_cases o with ⟨hc, heq⟩ | ⟨c, -, heq⟩
  · rw [heq, hc]
  · rw [heq, detach_heap_self]

theorem Inv.remove_val (o o' : ObjId) : (nlCacheRemove ops w o).val o' = w.val o' := by
  rcases h.remove_cases o with ⟨-, heq⟩ | ⟨c, -, heq⟩
  · rw [heq]
  · rw [heq, detach_val]

theorem Inv.remove_next (o : ObjId) : (nlCacheRemove ops w o).next = w.next := by
  rcases h.remove_cases o with ⟨-, heq⟩ | ⟨c, -, heq⟩
  · rw [heq]
  · rw [heq, detach_next]

theorem Inv.remove_cOps (o : ObjId) (c : CacheId) : ((nlCacheRemove ops w o).caches c).cOps = (w.caches c).cOps := by
  rcases h.remove_cases o with ⟨-, heq⟩ | ⟨c', -, heq⟩
  · rw [heq]
  · rw [heq, detach_cOps]

theorem Inv.remove_hashed (o : ObjId) (c : CacheId) :
    ((nlCacheRemove ops w o).caches c).hashtable.isSome = (w.caches c).hashtable.isSome := by
  rcases h.remove_cases o with ⟨-, heq⟩ | ⟨c', -, heq⟩
  · rw [heq]
  · rw [heq, detach_hashed]

theorem Inv.mem_remove {o a : ObjId} {c : CacheId} (ha : a ∈ ((nlCacheRemove ops w o).caches c).cItems) :
    a ∈ (w.caches c).cItems ∧ a ≠ o := by
  have hne : a ≠ o := by
    rintro rfl
    rw [(h.remove a).back, h.remove_ceCache a] at ha
    cases ha
  rcases h.remove_cases o with ⟨-, heq⟩ | ⟨c', -, heq⟩
  · rw [heq] at ha
    exact ⟨ha, hne⟩
  · rw [heq] at ha
    exact ⟨mem_detach ops w c' o ha, hne⟩

end

/-- **`nl_cache_clear`** -/
theorem Inv.clear (h : Inv ops good w held) (c : CacheId) : Inv ops good (nlCacheClear ops w c) held := by
  unfold nlCacheClear
  generalize (w.caches c).cItems = l
  induction l generalizing w with
  | nil => exact h
  | cons o l ih => exact ih (h.remove o)

/-! ## Adding -/

/-- the hash table of cache `c` takes object `o` in place of `old`: a node can be allocated, and nothing else in it is
identical to the object -/
def Takes (ops : ℕ → ObjectOps α) (w : Store α) (c : CacheId) (o : ObjId) (old : Option ObjId) (mem : Alloc) : Prop :=
  (w.caches c).hashtable.isSome = true → mem.node = true ∧
    ∀ a ∈ (w.caches c).cItems, a ≠ o → some a ≠ old → nlObjectIdentical ops (w.val a) (w.val o) = false

/-- **`__cache_add`** of an object in no cache: it takes over a reference, or fails. -/
theorem Inv.cacheAdded (h : Inv ops good w held) (hnone : (w.heap o).ceCache = none) (hheld : 0 < held o)
    (htype : (w.val o).ceOps = (w.caches c).cOps.coObjOps)
    (hcar : (w.caches c).hashtable.isSome = true → good (w.val o)) (mem : Alloc) :
    (cacheAdd ops w c o mem = (attach ops w c o, 0) ∧ Inv ops good (attach ops w c o) (dropRef held o)) ∨
    (¬ Takes ops w c o none mem ∧ ∃ err < 0, cacheAdd ops w c o mem = (w, err)) := by
  rw [cacheAdd_eq ops w c o mem hnone]
  rcases Option.eq_none_or_eq_some (w.caches c).hashtable with hht | ⟨ht, hht⟩
  · rw [hht]
    refine Or.inl ⟨rfl, h.attached hnone hheld htype fun ht hht' => ?_⟩
    rw [hht] at hht'
    cases hht'
  · rw [hht]
    have hsome : (w.caches c).hashtable.isSome = true := by rw [hht, Option.isSome_some]
    cases hl : nlHashTableLookup ops w ht (w.val o) with
    | some n =>
      -- an identical object is there, and it is another one
      obtain ⟨hmem, hid⟩ := h.lookup_some hht hl
      refine Or.inr ⟨fun ht => ?_, -NLE_EXIST, by decide, by simp [hl]⟩
      have hne : n ≠ o := by
        rintro rfl
        exact h.not_mem hnone c hmem
      rw [(ht hsome).2 n hmem hne nofun] at hid
      cases hid
    | none =>
      cases hn : mem.node with
      | false =>
        refine Or.inr ⟨fun ht => ?_, -NLE_NOMEM, by decide, by simp [hl]⟩
        rw [(ht hsome).1] at hn
        cases hn
      | true =>
        refine Or.inl ⟨by simp [hl], h.attached hnone hheld htype fun ht' hht' => ?_⟩
        rw [hht] at hht'
        cases hht'
        exact ⟨hcar hsome, hl⟩

/-- `__cache_add` with a reference that is given back when it fails -/
theorem Inv.cacheAdd_or_put (h : Inv ops good w (addRef held o)) (hnone : (w.heap o).ceCache = none)
    (htype : (w.val o).ceOps = (w.caches c).cOps.coObjOps)
    (hcar : (w.caches c).hashtable.isSome = true → good (w.val o)) (mem : Alloc) :
    Inv ops good (if (cacheAdd ops w c o mem).2 < 0 then
        (nlObjectPut (cacheAdd ops w c o mem).1 o, (cacheAdd ops w c o mem).2)
      else cacheAdd ops w c o mem).1 held := by
  rcases h.cacheAdded hnone (addRef_pos held o) htype hcar mem with ⟨heq, hinv⟩ | ⟨-, err, herr, heq⟩
  · rw [heq, if_neg (lt_irrefl _)]
    rwa [dropRef_addRef] at hinv
  · rw [heq, if_pos herr]
    have hput := h.put (addRef_pos held o)
    rwa [dropRef_addRef] at hput

theorem Inv.ceCache_of_not_linked (h : Inv ops good w held) (hl : (w.heap o).linked = false) :
    (w.heap o).ceCache = none := by
  cases hc : (w.heap o).ceCache with
  | none => rfl
  | some c =>
    rw [h.linked o c hc] at hl
    cases hl

/-- **`nl_cache_add`**, whatever it returns -/
theorem Inv.add (h : Inv ops good w held) (hlive : o < w.next)
    (hcar : (w.caches c).hashtable.isSome = true → good (w.val o)) (mem : Alloc) :
    Inv ops good (nlCacheAdd ops w c o mem).1 held := by
  unfold nlCacheAdd
  by_cases htype : (w.caches c).cOps.coObjOps ≠ (w.val o).ceOps
  · rw [if_pos htype]
    exact h
  rw [if_neg htype]
  rw [not_not] at htype
  cases hl : (w.heap o).linked with
  | true =>
    cases hm : mem.clone with
    | false => exact h
    | true =>
      -- a clone is added, with the reference it was made with
      refine (h.alloc (cloneVal ops (w.val o))).cacheAdd_or_put ?_ ?_ ?_ mem
      · simp [nlObjectAlloc]
      · simp [nlObjectAlloc, Store.val, htype]
      · intro hh
        obtain ⟨ht, hht⟩ := Option.isSome_iff_exists.1 hh
        have hclone := (h.lawful c ht hht).2.clone (w.val o) htype.symm (hcar hh)
        simpa [nlObjectAlloc, Store.val] using hclone
  | false =>
    refine (h.get hlive).cacheAdd_or_put ?_ ?_ ?_ mem
    · simpa [nlObjectGet] using h.ceCache_of_not_linked hl
    · rw [nlObjectGet, Store.modObj_val _ _ _ _ (by rfl), Store.modObj_caches]
      exact htype.symm
    · rw [nlObjectGet, Store.modObj_val _ _ _ _ (by rfl), Store.modObj_caches]
      exact hcar

/-! ## Moving -/

@[simp] theorem get_val (w : Store α) (o o' : ObjId) : (nlObjectGet w o).val o' = w.val o' :=
  Store.modObj_val _ _ _ _ (by rfl)

@[simp] theorem get_caches (w : Store α) (o : ObjId) : (nlObjectGet w o).caches = w.caches := rfl
@[simp] theorem get_next (w : Store α) (o : ObjId) : (nlObjectGet w o).next = w.next := rfl

/-- an object that is not linked is in no cache, so the removal in `nl_cache_move` can be thought unconditional -/
theorem Inv.unlink_eq (h : Inv ops good w held) (o : ObjId) :
    (if (w.heap o).linked then nlCacheRemove ops w o else w) = nlCacheRemove ops w o := by
  cases hl : (w.heap o).linked with
  | true => rfl
  | false =>
    unfold nlCacheRemove
    rw [h.ceCache_of_not_linked hl]
    rfl

/-- **`nl_cache_move`** keeps the invariant, with the reference it took when it fails. -/
theorem Inv.move (h : Inv ops good w held) (hlive : o < w.next)
    (hcar : (w.caches c).hashtable.isSome = true → good (w.val o)) (mem : Alloc) :
    Inv ops good (nlCacheMove ops w c o mem).1 held ∨
    (¬ Takes ops w c o none mem ∧ Inv ops good (nlCacheMove ops w c o mem).1 (addRef held o)) := by
  unfold nlCacheMove
  by_cases htype : (w.caches c).cOps.coObjOps ≠ (w.val o).ceOps
  · rw [if_pos htype]
    exact Or.inl h
  rw [if_neg htype]
  rw [not_not] at htype
  have h1 := h.get hlive
  have h2 := h1.remove o
  simp only [h1.unlink_eq o]
  have hval : ∀ a, (nlCacheRemove ops (nlObjectGet w o) o).val a = w.val a := fun a => by
    rw [h1.remove_val, get_val]
  have hhash : ((nlCacheRemove ops (nlObjectGet w o) o).caches c).hashtable.isSome =
      (w.caches c).hashtable.isSome := by rw [h1.remove_hashed, get_caches]
  rcases h2.cacheAdded (c := c) (h1.remove_ceCache o) (addRef_pos held o)
      (by rw [hval, h1.remove_cOps, get_caches]; exact htype.symm)
      (by rw [hval, hhash]; exact hcar) mem with ⟨heq, hinv⟩ | ⟨hno, err, -, heq⟩
  · left
    rw [heq]
    rwa [dropRef_addRef] at hinv
  · right
    rw [heq]
    refine ⟨fun htakes => hno fun hh => ?_, h2⟩
    obtain ⟨hnode, hids⟩ := htakes (by rwa [hhash] at hh)
    refine ⟨hnode, fun a ha hne _ => ?_⟩
    rw [hval, hval]
    exact hids a (h1.mem_remove ha).1 hne nofun

/-! ## Searching -/

theorem Inv.search_some (h : Inv ops good w held) {needle : ObjVal α} {n : ObjId}
    (hs : searchResult ops w c needle = some n) :
    n ∈ (w.caches c).cItems ∧ nlObjectIdentical ops (w.val n) needle = true := by
  unfold searchResult at hs
  rcases Option.eq_none_or_eq_some (w.caches c).hashtable with hht | ⟨ht, hht⟩
  · rw [hht] at hs
    have hid := List.find?_some hs
    exact ⟨List.mem_of_find?_eq_some hs, hid⟩
  · rw [hht] at hs
    exact h.lookup_some hht hs

theorem Inv.search_none (h : Inv ops good w held) {needle : ObjVal α} (hgood : good needle) (hs : searchResult ops w c needle = none)
    (a : ObjId) (ha : a ∈ (w.caches c).cItems) : nlObjectIdentical ops (w.val a) needle = false := by
  unfold searchResult at hs
  rcases Option.eq_none_or_eq_some (w.caches c).hashtable with hht | ⟨ht, hht⟩
  · rw [hht] at hs
    have hid := List.find?_eq_none.1 hs a ha
    simpa using hid
  · rw [hht] at hs
    exact h.lookup_none hht hgood hs a ha

theorem Inv.mem_lt_next (h : Inv ops good w held) {a : ObjId} (ha : a ∈ (w.caches c).cItems) : a < w.next := by
  by_contra hc
  rw [h.back, (h.fresh a (Nat.not_lt.1 hc)).1] at ha
  cases ha

/-! ## Inclusion -/

/-- the order in which references come does not matter -/
theorem dropRef_addRef_addRef (held : ObjId → ℕ) (a b : ObjId) :
    dropRef (addRef (addRef held a) b) a = addRef held b := by
  funext x
  unfold dropRef addRef
  by_cases hxa : x = a
  · subst hxa
    by_cases hxb : x = b
    · subst hxb
      simp
    · simp [Function.update_of_ne hxb]
  · by_cases hxb : x = b
    · subst hxb
      simp [Function.update_of_ne hxa]
    · simp [Function.update_of_ne hxa, Function.update_of_ne hxb]

theorem Inv.put_added (h : Inv ops good w (addRef held o)) : Inv ops good (nlObjectPut w o) held := by
  have hput := h.put (addRef_pos held o)
  rwa [dropRef_addRef] at hput

theorem Inv.put_under {a b : ObjId} (h : Inv ops good w (addRef (addRef held a) b)) :
    Inv ops good (nlObjectPut w a) (addRef held b) := by
  have hput := h.put (o := a) (Nat.lt_of_lt_of_le (addRef_pos held a) (le_addRef _ b a))
  rwa [dropRef_addRef_addRef] at hput

theorem Inv.called_if (h : Inv ops good w held) (p : Prop) [Decidable p] (cb : ChangeCb) (e1 e2 : Event α) :
    Inv ops good (if p then callback w cb e1 e2 else w) held := by
  split_ifs
  · exact h.called cb e1 e2
  · exact h

/-- references with the one of a clone, if there is one -/
def withClone (held : ObjId → ℕ) : Option ObjId → ObjId → ℕ
  | none => held
  | some n => addRef held n

theorem Inv.put_clone {clone : Option ObjId} (h : Inv ops good w (withClone held clone)) :
    Inv ops good (nlObjectPutOpt w clone) held := by
  cases clone with
  | none => exact h
  | some n => exact h.put_added

/-- the clone `cache_include` may take of the old object leaves what was there as it is -/
theorem Inv.cloned (h : Inv ops good w held) (o : ObjId) (cb : ChangeCb) (ok : Bool) :
    Inv ops good (cloneOld ops w o cb ok).1 (withClone held (cloneOld ops w o cb ok).2) ∧
      (∀ a < w.next, (cloneOld ops w o cb ok).1.val a = w.val a) ∧ (cloneOld ops w o cb ok).1.caches = w.caches ∧
      w.next ≤ (cloneOld ops w o cb ok).1.next := by
  unfold cloneOld nlObjectClone
  split_ifs
  · refine ⟨h.alloc _, fun a ha => ?_, rfl, Nat.le_succ _⟩
    simp [nlObjectAlloc, Store.val, Function.update_of_ne (Nat.ne_of_lt ha)]
  · exact ⟨h, fun _ _ => rfl, rfl, le_rfl⟩
  · exact ⟨h, fun _ _ => rfl, rfl, le_rfl⟩

@[simp] theorem put_val (w : Store α) (o o' : ObjId) : (nlObjectPut w o).val o' = w.val o' :=
  Store.modObj_val w o o' (fun x => { x with ceRefcnt := (w.heap o).ceRefcnt - 1 }) rfl

@[simp] theorem put_caches (w : Store α) (o : ObjId) : (nlObjectPut w o).caches = w.caches := rfl
@[simp] theorem put_next (w : Store α) (o : ObjId) : (nlObjectPut w o).next = w.next := rfl

theorem putOpt_frame (w : Store α) (o : Option ObjId) : (∀ a, (nlObjectPutOpt w o).val a = w.val a) ∧
    (nlObjectPutOpt w o).caches = w.caches ∧ (nlObjectPutOpt w o).next = w.next := by
  cases o with
  | none => exact ⟨fun _ => rfl, rfl, rfl⟩
  | some n => exact ⟨fun a => put_val w n a, rfl, rfl⟩

/-- the inclusion of `o` comes to `nl_cache_move`: the message adds an object, and it is not merged into an old one -/
def Moves (ops : ℕ → ObjectOps α) (w : Store α) (c : CacheId) (o : ObjId) (act : Act) : Prop :=
  act = .new ∧ ∀ old, searchResult ops w c (w.val o) = some old → nlObjectUpdate ops (w.val old) (w.val o) = none

theorem Inv.absent (h : Inv ops good w held) (hlive : o < w.next)
    (hcar : (w.caches c).hashtable.isSome = true → good (w.val o)) (act : Act) (cb : ChangeCb) (mem : Alloc) :
    Inv ops good (includeAbsent ops w c o act cb mem).1 held ∨
    (act = .new ∧ ¬ Takes ops w c o none mem ∧ Inv ops good (includeAbsent ops w c o act cb mem).1 (addRef held o)) := by
  unfold includeAbsent
  by_cases hact : act = .new
  · rw [if_pos hact]
    rcases h.move hlive hcar mem with hm | ⟨htakes, hm⟩
    · exact Or.inl (hm.called cb _ _)
    · exact Or.inr ⟨hact, htakes, hm.called cb _ _⟩
  · rw [if_neg hact]
    exact Or.inl h

theorem Inv.replaced {old : ObjId} (h : Inv ops good w (addRef held old)) (hlive : o < w.next)
    (hcar : (w.caches c).hashtable.isSome = true → good (w.val o)) (act : Act) (cb : ChangeCb) (mem : Alloc) :
    Inv ops good (includeReplaced ops w c o old act cb mem).1 held ∨
    (act ≠ .del ∧ ¬ Takes ops w c o (some old) mem ∧
      Inv ops good (includeReplaced ops w c o old act cb mem).1 (addRef held o)) := by
  have h1 := h.remove old
  unfold includeReplaced
  by_cases hact : act = .del
  · rw [if_pos hact]
    exact Or.inl (h1.called cb _ _).put_added
  · rw [if_neg hact]
    have hhash := h.remove_hashed old c
    rcases h1.move (by rwa [h.remove_next]) (by rw [hhash, h.remove_val]; exact hcar) mem with hm | ⟨htakes, hm⟩
    · exact Or.inl (hm.called_if _ cb _ _).put_added
    · refine Or.inr ⟨hact, fun hold => htakes fun hh => ?_, (hm.called_if _ cb _ _).put_under⟩
      rw [hhash] at hh
      obtain ⟨hnode, hids⟩ := hold hh
      refine ⟨hnode, fun a ha hne _ => ?_⟩
      obtain ⟨hain, hna⟩ := h.mem_remove ha
      rw [h.remove_val, h.remove_val]
      exact hids a hain hne fun heq => hna (Option.some.inj heq)

theorem Inv.valueSet {old : ObjId} {v : ObjVal α} (h : Inv ops good w held) (hmem : old ∈ (w.caches c).cItems)
    (hsame : SameEntry ops good (w.caches c) (w.val old) v) :
    Inv ops good (w.modObj old fun x => { x with val := v }) held := by
  refine h.modified rfl (fun c' hc' => ⟨rfl, ?_⟩) (h.refs old) (fun _ _ => rfl) (Or.inl (h.mem_lt_next hmem))
  rw [(h.back c old).1 hmem, Option.some.injEq] at hc'
  subst hc'
  exact hsame

/-- merging the new object into the old one -/
theorem Inv.updated {old : ObjId} {clone : Option ObjId} {v : ObjVal α}
    (h : Inv ops good w (withClone (addRef held old) clone)) (hmem : old ∈ (w.caches c).cItems)
    (hsame : SameEntry ops good (w.caches c) (w.val old) v) (diff : BitVec 64) (cb : ChangeCb) :
    Inv ops good (includeUpdated w o old clone diff v cb).1 held :=
  ((h.valueSet hmem hsame).called cb _ _).put_clone.put_added

/-- what an update makes of a cached object is the same entry -/
theorem Inv.sameEntry {old : ObjId} {v v' : ObjVal α} (h : Inv ops good w held) (hmem : old ∈ (w.caches c).cItems)
    (hcar : (w.caches c).hashtable.isSome = true → good v) (hu : nlObjectUpdate ops (w.val old) v = some v') :
    SameEntry ops good (w.caches c) (w.val old) v' := by
  refine ⟨nlObjectUpdate_ceOps ops hu, fun hh => ?_⟩
  obtain ⟨ht, hht⟩ := Option.isSome_iff_exists.1 hh
  exact (h.lawful c ht hht).2.update _ _ v' (h.type c old hmem) (h.allGood c ht hht old hmem) (hcar hh) hu

theorem Inv.present (h : Inv ops good w held) {old : ObjId} (hs : searchResult ops w c (w.val o) = some old)
    (hlive : o < w.next) (hcar : (w.caches c).hashtable.isSome = true → good (w.val o))
    (act : Act) (cb : ChangeCb) (mem : Alloc) :
    Inv ops good (includePresent ops (nlObjectGet w old) c o old act cb mem).1 held ∨
    (act ≠ .del ∧ nlObjectUpdate ops (w.val old) (w.val o) = none ∧ ¬ Takes ops w c o (some old) mem ∧
      Inv ops good (includePresent ops (nlObjectGet w old) c o old act cb mem).1 (addRef held o)) := by
  obtain ⟨hmem, -⟩ := h.search_some hs
  have hold := h.mem_lt_next hmem
  obtain ⟨h2, hval, hcaches, hnext⟩ := (h.get hold).cloned old cb mem.clone
  rw [get_caches] at hcaches
  simp only [get_next, get_val] at hval hnext
  unfold includePresent
  simp only [hval old hold, hval o hlive]
  cases hu : nlObjectUpdate ops (w.val old) (w.val o) with
  | some v =>
    left
    refine h2.updated (c := c) (by rw [hcaches]; exact hmem) ?_ _ cb
    rw [hcaches, hval old hold]
    exact h.sameEntry hmem hcar hu
  | none =>
    obtain ⟨pval, pcaches, pnext⟩ := putOpt_frame (cloneOld ops (nlObjectGet w old) old cb mem.clone).1
      (cloneOld ops (nlObjectGet w old) old cb mem.clone).2
    have h3 := h2.put_clone
    rcases h3.replaced (c := c) (o := o) (by rw [pnext]; exact Nat.lt_of_lt_of_le hlive hnext)
        (by rw [pval, hval o hlive, pcaches, hcaches]; exact hcar) act cb mem with hi | ⟨ha, htakes, hi⟩
    · exact Or.inl hi
    · refine Or.inr ⟨ha, rfl, fun ht => htakes fun hh => ?_, hi⟩
      rw [pcaches, hcaches] at hh ⊢
      obtain ⟨hnode, hids⟩ := ht hh
      refine ⟨hnode, fun a hain hne hna => ?_⟩
      rw [pval, pval, hval o hlive, hval a (h.mem_lt_next hain)]
      exact hids a hain hne hna

/-- **`cache_include`** keeps the invariant, except that the new object keeps the reference `nl_cache_move` took when the
hash table does not take it. -/
theorem Inv.included (h : Inv ops good w held) (hlive : o < w.next)
    (hcar : (w.caches c).hashtable.isSome = true → good (w.val o)) (act : Act) (cb : ChangeCb) (mem : Alloc) :
    Inv ops good (cacheInclude ops w c o act cb mem).1 held ∨
    (Moves ops w c o act ∧ ¬ Takes ops w c o (searchResult ops w c (w.val o)) mem ∧
      Inv ops good (cacheInclude ops w c o act cb mem).1 (addRef held o)) := by
  unfold cacheInclude
  by_cases hact : act = .new ∨ act = .del
  swap
  · rw [if_neg hact]
    exact Or.inl h
  rw [if_pos hact]
  unfold nlCacheSearch Moves
  cases hs : searchResult ops w c (w.val o) with
  | none =>
    simp only [withRef]
    rcases h.absent hlive hcar act cb mem with hi | ⟨ha, htakes, hi⟩
    · exact Or.inl hi
    · exact Or.inr ⟨⟨ha, nofun⟩, htakes, hi⟩
  | some old =>
    rcases h.present hs hlive hcar act cb mem with hi | ⟨ha, hupd, htakes, hi⟩
    · exact Or.inl hi
    · refine Or.inr ⟨⟨hact.resolve_right ha, fun old' hold' => ?_⟩, htakes, hi⟩
      cases hold'
      exact hupd

end Libnl.Cache
