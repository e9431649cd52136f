/-
What an inclusion leaves alone.

A message that is included in a cache changes that cache, the object it finds there, and objects that are allocated meanwhile.
Whatever is in another cache stays as it is (`Inv.notified_elsewhere`), also when the inclusion fails.

- `Touches`: the objects and the cache that a step may change.
- `included_touches`: `nl_cache_include`. `Touches.contents`: what follows for other caches.
-/
import Mathlib.Tactic
import Libnl.Cache.Contents

namespace Libnl.Cache

open Msg Object KeyedList

variable {α : Type}

/-- the type of each cache -/
def Store.cops (w : Store α) : CacheId → CacheOps := fun c => (w.caches c).cOps

/-- only objects of `S` and the cache `c` change -/
structure Touches (S : ObjId → Prop) (c : CacheId) (w w' : Store α) : Prop where
  heap : ∀ a, ¬ S a → w'.heap a = w.heap a
  caches : ∀ d, d ≠ c → w'.caches d = w.caches d

section

variable {S : ObjId → Prop} {c : CacheId} {w w' w'' : Store α} {o : ObjId}

theorem Touches.refl (S : ObjId → Prop) (c : CacheId) (w : Store α) : Touches S c w w := ⟨fun _ _ => rfl, fun _ _ => rfl⟩

theorem Touches.trans (h : Touches S c w w') (h' : Touches S c w' w'') : Touches S c w w'' :=
  ⟨fun a ha => (h'.heap a ha).trans (h.heap a ha), fun d hd => (h'.caches d hd).trans (h.caches d hd)⟩

theorem touches_modObj (ho : S o) (f : Obj α → Obj α) : Touches S c w (w.modObj o f) where
  heap a ha := by
    rw [Store.modObj_heap, if_neg]
    rintro rfl
    exact ha ho
  caches _ _ := rfl

theorem touches_modCache (f : NlCache → NlCache) : Touches S c w (w.modCache c f) where
  heap _ _ := rfl
  caches _ hd := Store.modCache_caches_ne _ _ _ _ hd

theorem touches_get (ho : S o) : Touches S c w (nlObjectGet w o) := touches_modObj ho _

theorem touches_put (ho : S o) : Touches S c w (nlObjectPut w o) := by
  obtain ⟨hheap, hcaches⟩ := touches_modObj (c := c) (w := w) ho fun x => { x with ceRefcnt := (w.heap o).ceRefcnt - 1 }
  exact ⟨hheap, hcaches⟩

theorem touches_putOpt {p : Option ObjId} (hp : ∀ o ∈ p, S o) : Touches S c w (nlObjectPutOpt w p) := by
  cases p with
  | none => exact Touches.refl S c w
  | some o => exact touches_put (hp o rfl)

theorem touches_alloc (hnext : S w.next) (v : ObjVal α) : Touches S c w (nlObjectAlloc w v).1 where
  heap a ha := by
    refine Function.update_of_ne ?_ _ _
    rintro rfl
    exact ha hnext
  caches _ _ := rfl

theorem touches_callback (cb : ChangeCb) (e1 e2 : Event α) : Touches S c w (callback w cb e1 e2) := by
  cases cb with
  | none => exact Touches.refl S c w
  | v1 => exact ⟨fun _ _ => rfl, fun _ _ => rfl⟩
  | v2 => exact ⟨fun _ _ => rfl, fun _ _ => rfl⟩

theorem touches_if {p : Prop} [Decidable p] (h : Touches S c w w') : Touches S c w (if p then w' else w) := by
  split_ifs
  · exact h
  · exact Touches.refl S c w

variable (ops : ℕ → ObjectOps α)

theorem touches_hashAdd (ho : S o) (ht : HashTable) (ok : Bool) : Touches S c w (nlHashTableAdd ops w c ht o ok).1 := by
  unfold nlHashTableAdd
  split_ifs
  · exact Touches.refl S c w
  · exact Touches.refl S c w
  · dsimp only
    exact (touches_get ho).trans (touches_modCache _)

theorem touches_hashDel (ho : S o) (ht : HashTable) : Touches S c w (nlHashTableDel ops w c ht o).1 := by
  unfold nlHashTableDel
  dsimp only
  split_ifs
  · dsimp only
    exact (touches_put ho).trans (touches_modCache _)
  · exact Touches.refl S c w

theorem touches_cacheAdd (ho : S o) (mem : Alloc) : Touches S c w (cacheAdd ops w c o mem).1 := by
  have hset := touches_modObj (c := c) (w := w) ho fun x => { x with ceCache := some c }
  unfold cacheAdd
  dsimp only
  generalize w.modObj o (fun x => { x with ceCache := some c }) = w1 at hset
  cases (w1.caches c).hashtable with
  | none =>
    rw [if_neg (lt_irrefl _)]
    dsimp only
    exact hset.trans ((touches_modObj ho _).trans (touches_modCache _))
  | some ht =>
    have hadd := hset.trans (touches_hashAdd ops ho ht mem.node)
    dsimp only
    split_ifs
    · dsimp only
      exact hadd.trans (touches_modObj ho _)
    · dsimp only
      exact hadd.trans ((touches_modObj ho _).trans (touches_modCache _))

/-- an object that is in no other cache is taken out -/
theorem touches_remove (ho : S o) (hc : ∀ d, (w.heap o).ceCache = some d → d = c) : Touches S c w (nlCacheRemove ops w o) := by
  unfold nlCacheRemove
  cases hcache : (w.heap o).ceCache with
  | none => exact Touches.refl S c w
  | some d =>
    obtain rfl := hc d hcache
    dsimp only
    refine (((Touches.trans ?_ (touches_modCache _)).trans (touches_modObj ho _)).trans (touches_put ho)).trans (touches_modCache _)
    cases (w.caches d).hashtable with
    | none => exact Touches.refl S d w
    | some ht => exact touches_hashDel ops ho ht

theorem touches_move (ho : S o) (hc : ∀ d, (w.heap o).ceCache = some d → d = c) (mem : Alloc) :
    Touches S c w (nlCacheMove ops w c o mem).1 := by
  have hget := touches_get (c := c) (w := w) ho
  have hcache : ((nlObjectGet w o).heap o).ceCache = (w.heap o).ceCache := by rw [nlObjectGet, Store.modObj_heap_self]
  unfold nlCacheMove
  split_ifs
  · exact Touches.refl S c w
  · dsimp only
    refine hget.trans (Touches.trans (touches_if (touches_remove ops ho ?_)) (touches_cacheAdd ops ho mem))
    rw [hcache]
    exact hc

end

/-! ## Inclusion -/

variable {ops : ℕ → ObjectOps α} {good : ObjVal α → Prop} {w w' : Store α} {held : ObjId → ℕ} {c : CacheId} {o : ObjId}

theorem touches_replaced {S : ObjId → Prop} {old : ObjId} (ho : S o) (hold : S old)
    (hc : ∀ d, (w.heap o).ceCache = some d → d = c) (holdc : ∀ d, (w.heap old).ceCache = some d → d = c) (hne : old ≠ o)
    (act : Act) (cb : ChangeCb) (mem : Alloc) : Touches S c w (includeReplaced ops w c o old act cb mem).1 := by
  have hremove := touches_remove ops hold holdc
  have hcache : ∀ d, ((nlCacheRemove ops w old).heap o).ceCache = some d → d = c := by
    -- taking out the old object does not put the new one anywhere
    have hsame := (touches_remove (S := fun a => a = old) ops rfl holdc).heap o fun h => hne h.symm
    rw [hsame]
    exact hc
  unfold includeReplaced
  dsimp only
  split_ifs
  · exact (hremove.trans (touches_callback _ _ _)).trans (touches_put hold)
  · exact (hremove.trans (touches_move ops ho hcache mem)).trans ((touches_callback _ _ _).trans (touches_put hold))
  · exact (hremove.trans (touches_move ops ho hcache mem)).trans (touches_put hold)

/-- the objects that an inclusion in `c` may change: those that are there, and new ones -/
def Near (w : Store α) (c : CacheId) (a : ObjId) : Prop := w.next ≤ a ∨ (w.heap a).ceCache = some c

/-- **`nl_cache_include`** of an object that is in no other cache -/
theorem included_touches (h : Inv ops good w held) {S : ObjId → Prop} (ho : S o) (hnear : ∀ a, Near w c a → S a)
    (hnone : (w.heap o).ceCache = none) (hlive : o < w.next) (cb : ChangeCb) (mem : Alloc) :
    Touches S c w (nlCacheInclude ops w c o cb mem).1 := by
  have hocache : ∀ d, (w.heap o).ceCache = some d → d = c := fun d hd => by rw [hnone] at hd; cases hd
  unfold nlCacheInclude
  by_cases htype : (w.caches c).cOps.coObjOps ≠ (w.val o).ceOps
  · rw [if_pos htype]
    exact Touches.refl S c w
  rw [if_neg htype]
  cases msgtypeAct (w.caches c).cOps (w.val o).ceMsgtype with
  | none => exact Touches.refl S c w
  | some act =>
    dsimp only
    unfold cacheInclude
    split_ifs with hact
    swap
    · exact Touches.refl S c w
    dsimp only
    unfold nlCacheSearch
    cases hsearch : searchResult ops w c (w.val o) with
    | none =>
      dsimp only [withRef]
      unfold includeAbsent
      split_ifs
      · exact (touches_move ops ho hocache mem).trans (touches_callback _ _ _)
      · exact Touches.refl S c w
    | some old =>
      obtain ⟨hmem, -⟩ := h.search_some hsearch
      have hcold : (w.heap old).ceCache = some c := (h.back c old).1 hmem
      have hold : S old := hnear old (Or.inr hcold)
      have holdlive := h.mem_lt_next hmem
      have hne : old ≠ o := by
        rintro rfl
        rw [hnone] at hcold
        cases hcold
      have hget := touches_get (c := c) (w := w) hold
      have hgnext : (nlObjectGet w old).next = w.next := rfl
      have hgcache : ∀ a, ((nlObjectGet w old).heap a).ceCache = (w.heap a).ceCache := fun a => by
        unfold nlObjectGet
        rw [Store.modObj_heap]
        split_ifs with heq
        · rw [heq]
        · rfl
      dsimp only [withRef]
      refine hget.trans ?_
      generalize nlObjectGet w old = w1 at hgnext hgcache ⊢
      -- the clone for the callback is a new object
      have hclone : Touches S c w1 (cloneOld ops w1 old cb mem.clone).1 ∧
          (∀ a ∈ (cloneOld ops w1 old cb mem.clone).2, a = w1.next) ∧
          (∀ a < w1.next, (cloneOld ops w1 old cb mem.clone).1.heap a = w1.heap a) := by
        have hnext : S w1.next := hnear _ (Or.inl (Nat.le_of_eq hgnext.symm))
        unfold cloneOld nlObjectClone
        split_ifs
        · refine ⟨touches_alloc hnext _, fun a ha => (Option.some.inj ha).symm, fun a ha => ?_⟩
          exact Function.update_of_ne (Nat.ne_of_lt ha) _ _
        · exact ⟨Touches.refl S c w1, fun a ha => (nomatch ha), fun a _ => rfl⟩
        · exact ⟨Touches.refl S c w1, fun a ha => (nomatch ha), fun a _ => rfl⟩
      obtain ⟨htouch, hnew, hsame⟩ := hclone
      have hput : ∀ a ∈ (cloneOld ops w1 old cb mem.clone).2, S a := fun a ha =>
        hnear a (Or.inl (by rw [hnew a ha, hgnext]))
      unfold includePresent
      dsimp only
      cases nlObjectUpdate ops ((cloneOld ops w1 old cb mem.clone).1.val old) ((cloneOld ops w1 old cb mem.clone).1.val o) with
      | some v =>
        unfold includeUpdated
        exact htouch.trans (((touches_modObj hold _).trans (touches_callback _ _ _)).trans
          ((touches_putOpt hput).trans (touches_put hold)))
      | none =>
        have hcaches : ∀ a < w1.next, ((nlObjectPutOpt (cloneOld ops w1 old cb mem.clone).1
            (cloneOld ops w1 old cb mem.clone).2).heap a).ceCache = (w.heap a).ceCache := by
          intro a ha
          have hputs := (touches_putOpt (S := fun b => b = w1.next) (c := c) (w := (cloneOld ops w1 old cb mem.clone).1)
            hnew).heap a (Nat.ne_of_lt ha)
          rw [hputs, hsame a ha, hgcache]
        refine (htouch.trans (touches_putOpt hput)).trans (touches_replaced ho hold ?_ ?_ hne act cb mem)
        · rw [hcaches o (lt_of_lt_of_eq hlive hgnext.symm)]
          exact hocache
        · rw [hcaches old (lt_of_lt_of_eq holdlive hgnext.symm), hcold]
          exact fun d hd => (Option.some.inj hd).symm

/-- other caches hold what they held -/
theorem Touches.contents (h : Inv ops good w held) (ht : Touches (Near w c) c w w') {d : CacheId} (hd : d ≠ c) :
    contents w' d = contents w d := by
  unfold Cache.contents
  rw [ht.caches d hd]
  refine List.map_congr_left fun a ha => ?_
  have hcache : (w.heap a).ceCache = some d := (h.back d a).1 ha
  have hheap : w'.heap a = w.heap a := ht.heap a fun hnear => hnear.elim
    (fun hnext => absurd (h.mem_lt_next ha) (Nat.not_lt.2 hnext))
    fun hc => hd (Option.some.inj (hcache.symm.trans hc))
  unfold Store.entry Store.val
  rw [hheap]

/-- **A message leaves other caches alone**, also one that cannot be included. -/
theorem Inv.notified_elsewhere (h : Inv ops good w held) (v : ObjVal α) (cb : ChangeCb) {d : CacheId} (hd : d ≠ c) :
    Cache.contents (notify ops w c cb v).1 d = Cache.contents w d ∧ (notify ops w c cb v).1.caches d = w.caches d := by
  have halloc := touches_alloc (S := Near w c) (c := c) (Or.inl le_rfl) v
  have hself : ((nlObjectAlloc w v).1.heap w.next).ceCache = none := by simp [nlObjectAlloc]
  have hinclude : Touches (Near w c) c (nlObjectAlloc w v).1
      (nlCacheInclude ops (nlObjectAlloc w v).1 c w.next cb ⟨true, true⟩).1 := by
    refine included_touches (h.alloc v) (Or.inl le_rfl) (fun a ha => ?_) hself (Nat.lt_succ_self _) cb _
    rcases ha with ha | ha
    · exact Or.inl (Nat.le_of_succ_le ha)
    · rcases Nat.lt_or_ge a w.next with hlt | hge
      · have hsame : (nlObjectAlloc w v).1.heap a = w.heap a := Function.update_of_ne (Nat.ne_of_lt hlt) _ _
        rw [hsame] at ha
        exact Or.inr ha
      · exact Or.inl hge
  have ht : Touches (Near w c) c w (notify ops w c cb v).1 :=
    (halloc.trans hinclude).trans (touches_put (Or.inl le_rfl))
  exact ⟨ht.contents h hd, ht.caches d hd⟩

end Libnl.Cache
