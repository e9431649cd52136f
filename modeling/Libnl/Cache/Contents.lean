/-
What a cache holds, and what an inclusion makes of it.

The contents of a cache are the values of its objects in list order, with their marks. Seen through its contents, a cache
is a list keyed by `nl_object_identical`, and `cache_include` is a function on such lists (`includeEntries`) that makes
certain callbacks (`includeEvents`). `Inv.notified` is the refinement: a message that is parsed and included does this to
the contents, makes these callbacks, and leaves the representation in order, with or without a hash table.

What follows is then about lists only: `look_include` says what becomes of each key.
-/
import Mathlib.Tactic
import Libnl.Core.KeyedList
import Libnl.Cache.Lookup

namespace Libnl.Cache

open Msg Object KeyedList

variable {α : Type}

/-! ## Contents -/

structure Entry (α : Type) where
  val : ObjVal α
  marked : Bool
deriving DecidableEq

def Store.entry (w : Store α) (o : ObjId) : Entry α := ⟨w.val o, (w.heap o).marked⟩

def contents (w : Store α) (c : CacheId) : List (Entry α) := (w.caches c).cItems.map w.entry

section

variable (ops : ℕ → ObjectOps α)

/-- the entry for an identity -/
abbrev entryOf (es : List (Entry α)) (k : ObjVal α) : Option (Entry α) := look Entry.val (nlObjectIdentical ops) es k

/-- no two objects are identical -/
abbrev DistinctEntries (es : List (Entry α)) : Prop := Distinct Entry.val (nlObjectIdentical ops) es

/-- `cache_include` on contents: merged into the old entry where that can be updated, else in place of it, as the last -/
def includeEntries (act : Act) (es : List (Entry α)) (v : ObjVal α) : List (Entry α) :=
  match entryOf ops es v with
  | none => if act = .new then es ++ [⟨v, false⟩] else es
  | some old =>
    match nlObjectUpdate ops old.val v with
    | some m => amend Entry.val (nlObjectIdentical ops) es v fun e => { e with val := m }
    | none =>
      if act = .del then drop Entry.val (nlObjectIdentical ops) es v
      else put Entry.val (nlObjectIdentical ops) es ⟨v, false⟩

/-- the callback that is made, if there is one -/
def calls (cb : ChangeCb) (e1 e2 : Event α) : List (Event α) :=
  match cb with
  | .none => []
  | .v1 => [e1]
  | .v2 => [e2]

/-- the callbacks `cache_include` makes -/
def includeEvents (cb : ChangeCb) (act : Act) (es : List (Entry α)) (v : ObjVal α) : List (Event α) :=
  match entryOf ops es v with
  | none => if act = .new then calls cb (.v1 v .new) (.v2 none (some v) 0 .new) else []
  | some old =>
    match nlObjectUpdate ops old.val v with
    | some m =>
      calls cb (.v1 m .change) (.v2 (some (cloneVal ops old.val)) (some v) (nlObjectDiff64 ops old.val v) .change)
    | none =>
      if act = .del then calls cb (.v1 old.val .del) (.v2 (some old.val) none 0 .del)
      else if nlObjectDiff64 ops old.val v ≠ 0 then
        calls cb (.v1 v .change) (.v2 (some old.val) (some v) (nlObjectDiff64 ops old.val v) .change)
      else []

/-- what message parsers do with the object they made from a message: hand it on, and give up their reference -/
def msgParser (w : Store α) (v : ObjVal α) (ppCb : Store α → ObjId → Store α × ℤ) : Store α × ℤ :=
  let r := nlObjectAlloc w v
  let a := ppCb r.1 r.2
  (nlObjectPut a.1 r.2, a.2)

/-- a message is parsed and included, with all the memory that takes -/
def notify (w : Store α) (c : CacheId) (cb : ChangeCb) (v : ObjVal α) : Store α × ℤ :=
  msgParser w v fun w o => nlCacheInclude ops w c o cb ⟨true, true⟩

end

/-! ## Steps that do not show -/

/-- caches, callbacks and what objects say stay as they are -/
structure Quiet (w w' : Store α) : Prop where
  caches : w'.caches = w.caches
  entry : ∀ o < w.next, w'.entry o = w.entry o
  linked : ∀ o < w.next, (w'.heap o).linked = (w.heap o).linked
  next : w.next ≤ w'.next
  log : w'.log = w.log

section

variable {w w' w'' : Store α}

theorem Quiet.refl (w : Store α) : Quiet w w := ⟨rfl, fun _ _ => rfl, fun _ _ => rfl, le_rfl, rfl⟩

theorem Quiet.trans (h : Quiet w w') (h' : Quiet w' w'') : Quiet w w'' where
  caches := h'.caches.trans h.caches
  entry o ho := (h'.entry o (Nat.lt_of_lt_of_le ho h.next)).trans (h.entry o ho)
  linked o ho := (h'.linked o (Nat.lt_of_lt_of_le ho h.next)).trans (h.linked o ho)
  next := h.next.trans h'.next
  log := h'.log.trans h.log

theorem Quiet.val (h : Quiet w w') {o : ObjId} (ho : o < w.next) : w'.val o = w.val o :=
  congrArg Entry.val (h.entry o ho)

/-- counting references does not show -/
theorem quiet_refcnt (w : Store α) (o : ObjId) (n : ℤ) : Quiet w (w.modObj o fun x => { x with ceRefcnt := n }) where
  caches := rfl
  entry a _ := by
    unfold Store.entry
    rw [Store.modObj_val _ _ _ _ (by rfl), Store.modObj_heap]
    split_ifs with h
    · rw [h]
    · rfl
  linked a _ := by
    rw [Store.modObj_heap]
    split_ifs with h
    · rw [h]
    · rfl
  next := le_rfl
  log := rfl

theorem quiet_get (w : Store α) (o : ObjId) : Quiet w (nlObjectGet w o) := quiet_refcnt w o ((w.heap o).ceRefcnt + 1)

theorem quiet_put (w : Store α) (o : ObjId) : Quiet w (nlObjectPut w o) := by
  obtain ⟨hc, he, hl, hn, hlog⟩ := quiet_refcnt w o ((w.heap o).ceRefcnt - 1)
  exact ⟨hc, he, hl, hn, hlog⟩

theorem quiet_putOpt (w : Store α) (o : Option ObjId) : Quiet w (nlObjectPutOpt w o) := by
  cases o with
  | none => exact Quiet.refl w
  | some o => exact quiet_put w o

theorem quiet_alloc (w : Store α) (v : ObjVal α) : Quiet w (nlObjectAlloc w v).1 where
  caches := rfl
  entry a ha := by
    unfold Store.entry Store.val nlObjectAlloc
    simp only [Function.update_of_ne (Nat.ne_of_lt ha)]
  linked a ha := by
    unfold nlObjectAlloc
    simp only [Function.update_of_ne (Nat.ne_of_lt ha)]
  next := Nat.le_succ _
  log := rfl

theorem alloc_val_self (w : Store α) (v : ObjVal α) : (nlObjectAlloc w v).1.val w.next = v := by
  simp [nlObjectAlloc, Store.val]

theorem quiet_cloneOld (ops : ℕ → ObjectOps α) (w : Store α) (o : ObjId) (cb : ChangeCb) (ok : Bool) :
    Quiet w (cloneOld ops w o cb ok).1 := by
  unfold cloneOld nlObjectClone
  split_ifs
  · exact quiet_alloc w _
  · exact Quiet.refl w
  · exact Quiet.refl w

theorem callback_log (w : Store α) (cb : ChangeCb) (e1 e2 : Event α) :
    (callback w cb e1 e2).log = w.log ++ calls cb e1 e2 := by
  cases cb with
  | none => simp [callback, calls]
  | v1 => rfl
  | v2 => rfl

theorem callback_caches (w : Store α) (cb : ChangeCb) (e1 e2 : Event α) : (callback w cb e1 e2).caches = w.caches := by
  cases cb with
  | none => rfl
  | v1 => rfl
  | v2 => rfl

theorem callback_next (w : Store α) (cb : ChangeCb) (e1 e2 : Event α) : (callback w cb e1 e2).next = w.next := by
  cases cb with
  | none => rfl
  | v1 => rfl
  | v2 => rfl

theorem callback_entry (w : Store α) (cb : ChangeCb) (e1 e2 : Event α) (o : ObjId) :
    (callback w cb e1 e2).entry o = w.entry o := by
  cases cb with
  | none => rfl
  | v1 => rfl
  | v2 => rfl

theorem callback_contents (w : Store α) (cb : ChangeCb) (e1 e2 : Event α) (c : CacheId) :
    contents (callback w cb e1 e2) c = contents w c := by
  unfold contents
  rw [callback_caches]
  exact List.map_congr_left fun o _ => callback_entry w cb e1 e2 o

end

variable {ops : ℕ → ObjectOps α} {good : ObjVal α → Prop} {w w' : Store α} {held : ObjId → ℕ} {c : CacheId} {o : ObjId}

theorem Inv.quiet_contents (h : Inv ops good w held) (hq : Quiet w w') (c : CacheId) :
    contents w' c = contents w c := by
  unfold contents
  rw [hq.caches]
  exact List.map_congr_left fun o ho => hq.entry o (h.mem_lt_next ho)

theorem Inv.quiet_scan (h : Inv ops good w held) (hq : Quiet w w') (c : CacheId) (k : ObjVal α) :
    scanIdentical ops w' c k = scanIdentical ops w c k := by
  unfold scanIdentical
  rw [hq.caches]
  refine List.find?_congr fun o ho => ?_
  rw [hq.val (h.mem_lt_next ho)]

/-! ## Objects that come and go -/

theorem attach_entry (w : Store α) (c : CacheId) (o o' : ObjId) : (attach ops w c o).entry o' = w.entry o' := by
  unfold Store.entry
  rw [attach_val]
  by_cases h : o' = o
  · subst h
    simp
  · rw [attach_heap_ne _ _ _ _ h]

theorem detach_entry (w : Store α) (c : CacheId) (o o' : ObjId) : (detach ops w c o).entry o' = w.entry o' := by
  unfold Store.entry
  rw [detach_val]
  by_cases h : o' = o
  · subst h
    simp
  · rw [detach_heap_ne _ _ _ _ h]

theorem contents_attach (w : Store α) (c : CacheId) (o : ObjId) :
    contents (attach ops w c o) c = contents w c ++ [w.entry o] := by
  unfold contents
  rw [attach_caches_self, List.map_congr_left fun o' _ => attach_entry w c o o']
  simp

theorem contents_detach {k : ObjVal α} (w : Store α) (c : CacheId) (hs : scanIdentical ops w c k = some o) :
    contents (detach ops w c o) c = drop Entry.val (nlObjectIdentical ops) (contents w c) k := by
  unfold contents
  rw [detach_caches_self, List.map_congr_left fun o' _ => detach_entry w c o o']
  exact map_erase (f := w.entry) hs

theorem look_contents (w : Store α) (c : CacheId) (k : ObjVal α) :
    entryOf ops (contents w c) k = (scanIdentical ops w c k).map w.entry := look_map _ _ _

/-! ## Inclusion on contents -/

/-- cache `c` becomes one with the contents `es`, and the callbacks `evs` are made meanwhile -/
structure Becomes (c : CacheId) (w w' : Store α) (es : List (Entry α)) (evs : List (Event α)) : Prop where
  contents : contents w' c = es
  log : w'.log = w.log ++ evs
  cOps : (w'.caches c).cOps = (w.caches c).cOps
  hashed : (w'.caches c).hashtable.isSome = (w.caches c).hashtable.isSome

theorem Becomes.nothing (c : CacheId) (w : Store α) : Becomes c w w (Cache.contents w c) [] :=
  ⟨rfl, (List.append_nil _).symm, rfl, rfl⟩

section

variable {w'' : Store α} {es : List (Entry α)} {evs : List (Event α)}

theorem Becomes.after (hq : Quiet w w') (h : Becomes c w' w'' es evs) : Becomes c w w'' es evs :=
  ⟨h.contents, by rw [h.log, hq.log], by rw [h.cOps, hq.caches], by rw [h.hashed, hq.caches]⟩

theorem Becomes.quiet (h : Becomes c w w' es evs) (hi : Inv ops good w' held) (hq : Quiet w' w'') :
    Becomes c w w'' es evs :=
  ⟨by rw [hi.quiet_contents hq, h.contents], by rw [hq.log, h.log], by rw [hq.caches, h.cOps],
    by rw [hq.caches, h.hashed]⟩

theorem Becomes.trans {es' : List (Entry α)} {evs' : List (Event α)} (h : Becomes c w w' es evs)
    (h' : Becomes c w' w'' es' evs') : Becomes c w w'' es' (evs ++ evs') :=
  ⟨h'.contents, by rw [h'.log, h.log, List.append_assoc], h'.cOps.trans h.cOps, h'.hashed.trans h.hashed⟩

theorem Becomes.call (h : Becomes c w w' es []) (cb : ChangeCb) (e1 e2 : Event α) :
    Becomes c w (callback w' cb e1 e2) es (calls cb e1 e2) :=
  ⟨by rw [callback_contents, h.contents], by rw [callback_log, h.log, List.append_nil], by rw [callback_caches, h.cOps],
    by rw [callback_caches, h.hashed]⟩

end

/-- where there is a hash table, identity is an equivalence, and the object is of its class -/
structure Regular (ops : ℕ → ObjectOps α) (good : ObjVal α → Prop) (k : NlCache) (v : ObjVal α) : Prop where
  type : v.ceOps = k.cOps.coObjOps
  equiv : k.hashtable.isSome = true → LawfulEquiv ops good k.cOps.coObjOps
  good : k.hashtable.isSome = true → good v

theorem Inv.search_scan (h : Inv ops good w held) {v : ObjVal α} (hr : Regular ops good (w.caches c) v) :
    searchResult ops w c v = scanIdentical ops w c v := by
  rcases Option.eq_none_or_eq_some (w.caches c).hashtable with hht | ⟨ht, hht⟩
  · unfold searchResult
    rw [hht]
  · have hsome : (w.caches c).hashtable.isSome = true := by rw [hht, Option.isSome_some]
    exact h.search_eq_scan hht (hr.equiv hsome) (Or.inl (hr.good hsome))

/-- the hash table takes an object once the one it found for it is out -/
theorem Inv.takes (h : Inv ops good w held) (hr : Regular ops good (w.caches c) (w.val o)) :
    Takes ops w c o (searchResult ops w c (w.val o)) ⟨true, true⟩ := by
  intro hh
  refine ⟨rfl, fun a ha hao hold => ?_⟩
  obtain ⟨ht, hht⟩ := Option.isSome_iff_exists.1 hh
  cases hs : searchResult ops w c (w.val o) with
  | none => exact h.search_none (hr.good hh) hs a ha
  | some old =>
    rw [hs] at hold
    obtain ⟨hmem, hid⟩ := h.search_some hs
    by_contra hida
    rw [Bool.not_eq_false] at hida
    have haold := (hr.equiv hh).euclid (h.type c a ha) (h.allGood c ht hht a ha) (h.allGood c ht hht old hmem)
      (hr.good hh) hida hid
    exact hold (congrArg some (h.unique c ht hht a ha old hmem haold))

/-- **`nl_cache_move`** of an object that was never in a list -/
theorem Inv.moved (h : Inv ops good w held) (hlive : o < w.next) (hlink : (w.heap o).linked = false)
    (hr : Regular ops good (w.caches c) (w.val o)) {mem : Alloc} (htakes : Takes ops w c o none mem) :
    (nlCacheMove ops w c o mem).1 = attach ops (nlObjectGet w o) c o := by
  have h1 := h.get hlive
  have hlink' : ((nlObjectGet w o).heap o).linked = false := by simpa [nlObjectGet] using hlink
  unfold nlCacheMove
  rw [if_neg (not_not.2 hr.type.symm)]
  simp only [hlink', Bool.false_eq_true, if_false]
  rcases h1.cacheAdded (c := c) (h1.ceCache_of_not_linked hlink') (addRef_pos held o) (by rw [get_val]; exact hr.type)
      (by rw [get_val]; exact hr.good) mem with ⟨heq, -⟩ | ⟨hno, -⟩
  · rw [heq]
  · refine absurd (fun hh => ?_) hno
    simpa using htakes hh

theorem Inv.becomes_moved (h : Inv ops good w held) (hlive : o < w.next) (hlink : (w.heap o).linked = false)
    (hr : Regular ops good (w.caches c) (w.val o)) {mem : Alloc} (htakes : Takes ops w c o none mem) :
    Becomes c w (nlCacheMove ops w c o mem).1 (contents w c ++ [w.entry o]) [] := by
  have hq := quiet_get w o
  rw [h.moved hlive hlink hr htakes]
  refine ⟨?_, ?_, ?_, ?_⟩
  · rw [contents_attach, h.quiet_contents hq, hq.entry o hlive]
  · rw [List.append_nil]
    exact hq.log
  · rw [attach_cOps, get_caches]
  · rw [attach_hashed, get_caches]

theorem Inv.becomes_removed (h : Inv ops good w held) {k : ObjVal α} (hs : scanIdentical ops w c k = some o) :
    Becomes c w (nlCacheRemove ops w o) (drop Entry.val (nlObjectIdentical ops) (contents w c) k) [] := by
  have hin := (h.back c o).1 (List.mem_of_find?_eq_some hs)
  rw [h.remove_eq hin]
  exact ⟨contents_detach w c hs, by rw [detach_log, List.append_nil], detach_cOps .., detach_hashed ..⟩

/-- the new object is in no list yet -/
structure Fresh (w : Store α) (o : ObjId) : Prop where
  live : o < w.next
  linked : (w.heap o).linked = false
  marked : (w.heap o).marked = false

theorem Fresh.quiet (hf : Fresh w o) (hq : Quiet w w') : Fresh w' o where
  live := Nat.lt_of_lt_of_le hf.live hq.next
  linked := (hq.linked o hf.live).trans hf.linked
  marked := (congrArg Entry.marked (hq.entry o hf.live)).trans hf.marked

theorem Fresh.entry (hf : Fresh w o) : w.entry o = ⟨w.val o, false⟩ := by
  unfold Store.entry
  rw [hf.marked]

theorem Inv.becomes_absent (h : Inv ops good w held) (hf : Fresh w o) (hr : Regular ops good (w.caches c) (w.val o))
    (hs : searchResult ops w c (w.val o) = none) (act : Act) (cb : ChangeCb) :
    Becomes c w (includeAbsent ops w c o act cb ⟨true, true⟩).1 (includeEntries ops act (contents w c) (w.val o))
      (includeEvents ops cb act (contents w c) (w.val o)) := by
  have hlook : entryOf ops (contents w c) (w.val o) = none := by
    rw [look_contents, ← h.search_scan hr, hs]
    rfl
  unfold includeEntries includeEvents includeAbsent
  simp only [hlook]
  by_cases hact : act = .new
  · simp only [if_pos hact]
    have htakes := h.takes hr
    rw [hs] at htakes
    have hm := h.becomes_moved hf.live hf.linked hr htakes
    have hval : (nlCacheMove ops w c o ⟨true, true⟩).1.val o = w.val o := by
      rw [h.moved hf.live hf.linked hr htakes, attach_val, get_val]
    rw [hval]
    rw [hf.entry] at hm
    exact hm.call cb _ _
  · simp only [if_neg hact]
    exact Becomes.nothing c w

/-- **`nl_cache_remove` and `nl_cache_move`**, the one object out and the other in -/
theorem Inv.becomes_exchanged (h : Inv ops good w held) (hf : Fresh w o) (hr : Regular ops good (w.caches c) (w.val o))
    {old : ObjId} (hs : searchResult ops w c (w.val o) = some old) :
    Becomes c w (nlCacheMove ops (nlCacheRemove ops w old) c o ⟨true, true⟩).1
        (KeyedList.put Entry.val (nlObjectIdentical ops) (contents w c) ⟨w.val o, false⟩) [] ∧
      ∀ a, (nlCacheMove ops (nlCacheRemove ops w old) c o ⟨true, true⟩).1.val a = w.val a := by
  have hscan := (h.search_scan hr).symm.trans hs
  obtain ⟨hmem, -⟩ := h.search_some hs
  have hin := (h.back c old).1 hmem
  have h1 := h.remove old
  have hb1 := h.becomes_removed hscan
  have hne : o ≠ old := by
    rintro rfl
    have hl := h.linked o c hin
    rw [hf.linked] at hl
    cases hl
  have hheap : (nlCacheRemove ops w old).heap o = w.heap o := by
    rw [h.remove_eq hin, detach_heap_ne _ _ _ _ hne]
  have hlive : o < (nlCacheRemove ops w old).next := by
    rw [h.remove_next]
    exact hf.live
  have hlink : ((nlCacheRemove ops w old).heap o).linked = false := by
    rw [hheap]
    exact hf.linked
  have hr1 : Regular ops good ((nlCacheRemove ops w old).caches c) ((nlCacheRemove ops w old).val o) := by
    rw [h.remove_val]
    exact ⟨by rw [hb1.cOps]; exact hr.type, by rw [hb1.hashed, hb1.cOps]; exact hr.equiv,
      by rw [hb1.hashed]; exact hr.good⟩
  have htakes1 : Takes ops (nlCacheRemove ops w old) c o none ⟨true, true⟩ := by
    intro hh
    rw [hb1.hashed] at hh
    have htakes := h.takes hr hh
    refine ⟨htakes.1, fun a ha hao _ => ?_⟩
    obtain ⟨hain, haold⟩ := h.mem_remove ha
    rw [h.remove_val, h.remove_val]
    refine htakes.2 a hain hao fun heq => haold ?_
    rw [hs] at heq
    exact Option.some.inj heq
  have hm := hb1.trans (h1.becomes_moved hlive hlink hr1 htakes1)
  have hentry : (nlCacheRemove ops w old).entry o = ⟨w.val o, false⟩ := by
    unfold Store.entry
    rw [h.remove_val, hheap, hf.marked]
  rw [hb1.contents, hentry] at hm
  refine ⟨hm, fun a => ?_⟩
  rw [h1.moved hlive hlink hr1 htakes1, attach_val, get_val, h.remove_val]

theorem Inv.becomes_replaced (h : Inv ops good w held) (hf : Fresh w o) (hr : Regular ops good (w.caches c) (w.val o))
    {old : ObjId} (hs : searchResult ops w c (w.val o) = some old) (act : Act) (cb : ChangeCb)
    (hu : nlObjectUpdate ops (w.val old) (w.val o) = none) :
    Becomes c w (includeReplaced ops w c o old act cb ⟨true, true⟩).1 (includeEntries ops act (contents w c) (w.val o))
      (includeEvents ops cb act (contents w c) (w.val o)) := by
  have hscan := (h.search_scan hr).symm.trans hs
  have hlook : entryOf ops (contents w c) (w.val o) = some (w.entry old) := by
    rw [look_contents, hscan]
    rfl
  have hupd : nlObjectUpdate ops (w.entry old).val (w.val o) = none := hu
  have h1 := h.remove old
  have hb1 := h.becomes_removed hscan
  unfold includeEntries includeEvents includeReplaced
  simp only [hlook, hupd]
  by_cases hact : act = .del
  · simp only [if_pos hact]
    rw [h.remove_val]
    exact (hb1.call cb _ _).quiet (h1.called cb _ _) (quiet_put _ old)
  · simp only [if_neg hact]
    obtain ⟨hb2, hval⟩ := h.becomes_exchanged hf hr hs
    have h2 : ∃ held', Inv ops good (nlCacheMove ops (nlCacheRemove ops w old) c o ⟨true, true⟩).1 held' := by
      rcases h1.move (c := c) (o := o) (by rw [h.remove_next]; exact hf.live)
          (by rw [hb1.hashed, h.remove_val]; exact hr.good) ⟨true, true⟩ with hm | ⟨-, hm⟩
      · exact ⟨_, hm⟩
      · exact ⟨_, hm⟩
    obtain ⟨held', h2⟩ := h2
    rw [hval, hval]
    change Becomes c w _ _ (if nlObjectDiff64 ops (w.val old) (w.val o) ≠ 0 then _ else _)
    by_cases hdiff : nlObjectDiff64 ops (w.val old) (w.val o) ≠ 0
    · rw [if_pos hdiff, if_pos hdiff]
      exact (hb2.call cb _ _).quiet (h2.called cb _ _) (quiet_put _ old)
    · rw [if_neg hdiff, if_neg hdiff]
      exact hb2.quiet h2 (quiet_put _ old)

theorem Inv.becomes_set (h : Inv ops good w held) {k m : ObjVal α} (hs : scanIdentical ops w c k = some o) :
    Becomes c w (w.modObj o fun x => { x with val := m })
      (amend Entry.val (nlObjectIdentical ops) (contents w c) k fun e => { e with val := m }) [] := by
  refine ⟨?_, (List.append_nil _).symm, rfl, rfl⟩
  refine map_amend (h.nodup c) hs (fun a _ hne => ?_) ?_
  · unfold Store.entry
    rw [Store.modObj_val_ne _ _ _ _ hne, Store.modObj_heap_ne _ _ _ _ hne]
  · unfold Store.entry
    rw [Store.modObj_val_self, Store.modObj_heap_self]

/-- what the second version of the callback is told about an object that is updated in place -/
theorem cloneOld_v2 {old : ObjId} (hu : (ops (w.val old).ceOps).ooUpdate.isSome = true) :
    cloneOld ops w old .v2 true = ((nlObjectAlloc w (cloneVal ops (w.val old))).1, some w.next) := by
  unfold cloneOld wantsClone nlObjectClone
  simp only [hu, decide_true, Bool.and_self, if_true]
  rfl

theorem update_isSome {a b v : ObjVal α} (h : nlObjectUpdate ops a b = some v) : (ops a.ceOps).ooUpdate.isSome = true := by
  unfold nlObjectUpdate at h
  cases hu : (ops a.ceOps).ooUpdate with
  | none =>
    rw [hu] at h
    cases h
  | some update => rfl

theorem Inv.becomes_merged {old : ObjId} {clone : Option ObjId} {k m : ObjVal α}
    (h : Inv ops good w (withClone (addRef held old) clone)) (hs : scanIdentical ops w c k = some old)
    (hsame : SameEntry ops good (w.caches c) (w.val old) m) (o : ObjId) (diff : BitVec 64) (cb : ChangeCb) :
    Becomes c w (includeUpdated w o old clone diff m cb).1
      (amend Entry.val (nlObjectIdentical ops) (contents w c) k fun e => { e with val := m })
      (calls cb (.v1 m .change) (.v2 (clone.map (w.modObj old fun x => { x with val := m }).val)
        (some ((w.modObj old fun x => { x with val := m }).val o)) diff .change)) := by
  have hset := h.valueSet (List.mem_of_find?_eq_some hs) hsame
  have hcall := (h.becomes_set (m := m) hs).call cb (.v1 m .change)
    (.v2 (clone.map (w.modObj old fun x => { x with val := m }).val)
      (some ((w.modObj old fun x => { x with val := m }).val o)) diff .change)
  exact (hcall.quiet (hset.called cb _ _) (quiet_putOpt _ clone)).quiet (hset.called cb _ _).put_clone (quiet_put _ old)

theorem Inv.becomes_updated (h : Inv ops good w held) (hf : Fresh w o) (hr : Regular ops good (w.caches c) (w.val o))
    {old : ObjId} (hs : searchResult ops w c (w.val o) = some old) (act : Act) (cb : ChangeCb) {m : ObjVal α}
    (hu : nlObjectUpdate ops (w.val old) (w.val o) = some m) :
    Becomes c w (includePresent ops (nlObjectGet w old) c o old act cb ⟨true, true⟩).1
      (includeEntries ops act (contents w c) (w.val o)) (includeEvents ops cb act (contents w c) (w.val o)) := by
  obtain ⟨hmem, -⟩ := h.search_some hs
  have hold := h.mem_lt_next hmem
  have hne : o ≠ old := by
    rintro rfl
    have hl := h.linked o c ((h.back c o).1 hmem)
    rw [hf.linked] at hl
    cases hl
  have hscan := (h.search_scan hr).symm.trans hs
  have hlook : entryOf ops (contents w c) (w.val o) = some (w.entry old) := by
    rw [look_contents, hscan]
    rfl
  have hupd : nlObjectUpdate ops (w.entry old).val (w.val o) = some m := hu
  have hq : Quiet w (cloneOld ops (nlObjectGet w old) old cb true).1 :=
    (quiet_get w old).trans (quiet_cloneOld ops _ old cb true)
  obtain ⟨h2, -, -, -⟩ := (h.get hold).cloned old cb true
  have hend := h2.becomes_merged (m := m) ((h.quiet_scan hq c (w.val o)).trans hscan)
    (by rw [hq.caches, hq.val hold]; exact h.sameEntry hmem hr.good hu) o
    (if wantsClone ops (nlObjectGet w old) old cb then nlObjectDiff64 ops (w.val old) (w.val o) else 0) cb
  rw [h.quiet_contents hq, Store.modObj_val_ne _ _ _ _ hne, hq.val hf.live] at hend
  unfold includeEntries includeEvents includePresent
  simp only [hlook, hupd, hq.val hold, hq.val hf.live, hu, get_val]
  convert hend.after hq using 1
  -- only the second version is told about the clone, and for it there is one
  cases cb with
  | none => rfl
  | v1 => rfl
  | v2 =>
    have hsome : (ops ((nlObjectGet w old).val old).ceOps).ooUpdate.isSome = true := by
      rw [get_val]
      exact update_isSome hu
    have hwants : wantsClone ops (nlObjectGet w old) old .v2 = true := by
      unfold wantsClone
      rw [hsome]
      rfl
    have hnext : (nlObjectGet w old).next ≠ old := (Nat.ne_of_lt hold).symm
    rw [cloneOld_v2 hsome, Option.map_some, Store.modObj_val_ne _ _ _ _ hnext, alloc_val_self, get_val, hwants]
    rfl

theorem Inv.becomes_present (h : Inv ops good w held) (hf : Fresh w o) (hr : Regular ops good (w.caches c) (w.val o))
    {old : ObjId} (hs : searchResult ops w c (w.val o) = some old) (act : Act) (cb : ChangeCb) :
    Becomes c w (includePresent ops (nlObjectGet w old) c o old act cb ⟨true, true⟩).1
      (includeEntries ops act (contents w c) (w.val o)) (includeEvents ops cb act (contents w c) (w.val o)) := by
  cases hu : nlObjectUpdate ops (w.val old) (w.val o) with
  | some m => exact h.becomes_updated hf hr hs act cb hu
  | none =>
    obtain ⟨hmem, -⟩ := h.search_some hs
    have hold := h.mem_lt_next hmem
    have hclone : Quiet w (cloneOld ops (nlObjectGet w old) old cb true).1 :=
      (quiet_get w old).trans (quiet_cloneOld ops _ old cb true)
    have hq := hclone.trans (quiet_putOpt _ (cloneOld ops (nlObjectGet w old) old cb true).2)
    obtain ⟨h2, -, -, -⟩ := (h.get hold).cloned old cb true
    have h3 := h2.put_clone
    unfold includePresent
    simp only [hclone.val hold, hclone.val hf.live, hu]
    have hr3 : Regular ops good ((nlObjectPutOpt (cloneOld ops (nlObjectGet w old) old cb true).1
        (cloneOld ops (nlObjectGet w old) old cb true).2).caches c) ((nlObjectPutOpt
          (cloneOld ops (nlObjectGet w old) old cb true).1 (cloneOld ops (nlObjectGet w old) old cb true).2).val o) := by
      rw [hq.caches, hq.val hf.live]
      exact hr
    have hs3 := h3.search_scan hr3
    rw [h.quiet_scan hq, hq.val hf.live, ← h.search_scan hr, hs] at hs3
    have hend := h3.becomes_replaced (hf.quiet hq) hr3 (by rw [hq.val hf.live]; exact hs3) act cb
      (by rw [hq.val hf.live, hq.val hold]; exact hu)
    rw [h.quiet_contents hq, hq.val hf.live] at hend
    exact hend.after hq

theorem includeReplaced_ret (w : Store α) (c : CacheId) (o old : ObjId) (act : Act) (cb : ChangeCb) (mem : Alloc) :
    (includeReplaced ops w c o old act cb mem).2 = 0 := by
  unfold includeReplaced
  split_ifs
  · rfl
  · rfl

/-- `cache_include` never fails -/
theorem cacheInclude_ret (w : Store α) (c : CacheId) (o : ObjId) (act : Act) (cb : ChangeCb) (mem : Alloc) :
    (cacheInclude ops w c o act cb mem).2 = 0 := by
  unfold cacheInclude
  by_cases hact : act = .new ∨ act = .del
  · rw [if_pos hact]
    dsimp only
    cases (nlCacheSearch ops w c (w.val o)).2 with
    | none =>
      dsimp only [includeAbsent]
      split_ifs
      · rfl
      · rfl
    | some old =>
      dsimp only [includePresent]
      split
      · rfl
      · exact includeReplaced_ret ..
  · rw [if_neg hact]

/-- **`cache_include`** does to the contents what `includeEntries` says. -/
theorem Inv.becomes_included (h : Inv ops good w held) (hf : Fresh w o) (hr : Regular ops good (w.caches c) (w.val o))
    {act : Act} (hact : act = .new ∨ act = .del) (cb : ChangeCb) :
    Becomes c w (cacheInclude ops w c o act cb ⟨true, true⟩).1 (includeEntries ops act (contents w c) (w.val o))
        (includeEvents ops cb act (contents w c) (w.val o)) ∧
      Inv ops good (cacheInclude ops w c o act cb ⟨true, true⟩).1 held := by
  constructor
  · unfold cacheInclude nlCacheSearch
    rw [if_pos hact]
    cases hs : searchResult ops w c (w.val o) with
    | none => exact h.becomes_absent hf hr hs act cb
    | some old => exact h.becomes_present hf hr hs act cb
  · rcases h.included hf.live hr.good act cb ⟨true, true⟩ with hi | ⟨-, hno, -⟩
    · exact hi
    · exact absurd (h.takes hr) hno

/-- what a message does to caches of a kind -/
def actOf (cops : CacheOps) (v : ObjVal α) : Act := (msgtypeAct cops v.ceMsgtype).getD .unspec

/-- the message is one that adds or removes an object -/
def Known (cops : CacheOps) (v : ObjVal α) : Prop := actOf cops v = .new ∨ actOf cops v = .del

theorem Known.msgtype {cops : CacheOps} {v : ObjVal α} (h : Known cops v) :
    msgtypeAct cops v.ceMsgtype = some (actOf cops v) := by
  unfold Known actOf at *
  cases hact : msgtypeAct cops v.ceMsgtype with
  | some act => rfl
  | none =>
    rw [hact] at h
    rcases h with h | h
    · cases h
    · cases h

/-- **A message is included.** The contents become what `includeEntries` says, the callbacks are those of `includeEvents`,
and the representation stays in order; nothing else holds on to the object. -/
theorem Inv.notified (h : Inv ops good w held) {v : ObjVal α} (hr : Regular ops good (w.caches c) v)
    (hact : Known (w.caches c).cOps v) (cb : ChangeCb) :
    Becomes c w (notify ops w c cb v).1 (includeEntries ops (actOf (w.caches c).cOps v) (contents w c) v)
        (includeEvents ops cb (actOf (w.caches c).cOps v) (contents w c) v) ∧
      Inv ops good (notify ops w c cb v).1 held ∧ (notify ops w c cb v).2 = 0 := by
  have hq := quiet_alloc w v
  have hval := alloc_val_self w v
  have h1 := h.alloc v
  have hf : Fresh (nlObjectAlloc w v).1 w.next :=
    ⟨Nat.lt_succ_self _, by simp [nlObjectAlloc], by simp [nlObjectAlloc]⟩
  obtain ⟨hb, hi⟩ := h1.becomes_included (c := c) hf (by rw [hq.caches, hval]; exact hr) hact cb
  rw [h.quiet_contents hq, hval] at hb
  have hincl : nlCacheInclude ops (nlObjectAlloc w v).1 c w.next cb ⟨true, true⟩ =
      cacheInclude ops (nlObjectAlloc w v).1 c w.next (actOf (w.caches c).cOps v) cb ⟨true, true⟩ := by
    unfold nlCacheInclude
    rw [hval, hq.caches, if_neg (not_not.2 hr.type.symm), hact.msgtype]
  have heq : notify ops w c cb v =
      (nlObjectPut (cacheInclude ops (nlObjectAlloc w v).1 c w.next (actOf (w.caches c).cOps v) cb ⟨true, true⟩).1 w.next,
        (cacheInclude ops (nlObjectAlloc w v).1 c w.next (actOf (w.caches c).cOps v) cb ⟨true, true⟩).2) := by
    rw [← hincl]
    rfl
  rw [heq]
  exact ⟨(hb.after hq).quiet hi (quiet_put _ w.next), hi.put_added, cacheInclude_ret ..⟩

/-! ## A sequence of messages -/

/-- messages are parsed and included one after the other -/
def notifyAll (ops : ℕ → ObjectOps α) (w : Store α) (c : CacheId) (cb : ChangeCb) (vs : List (ObjVal α)) : Store α :=
  vs.foldl (fun w v => (notify ops w c cb v).1) w

def includeAll (ops : ℕ → ObjectOps α) (cops : CacheOps) (es : List (Entry α)) (vs : List (ObjVal α)) : List (Entry α) :=
  vs.foldl (fun es v => includeEntries ops (actOf cops v) es v) es

def includeAllEvents (ops : ℕ → ObjectOps α) (cops : CacheOps) (cb : ChangeCb) (es : List (Entry α)) :
    List (ObjVal α) → List (Event α)
  | [] => []
  | v :: vs => includeEvents ops cb (actOf cops v) es v ++
      includeAllEvents ops cops cb (includeEntries ops (actOf cops v) es v) vs

theorem Regular.of_becomes {v : ObjVal α} {es : List (Entry α)} {evs : List (Event α)}
    (hr : Regular ops good (w.caches c) v) (hb : Becomes c w w' es evs) : Regular ops good (w'.caches c) v :=
  ⟨by rw [hb.cOps]; exact hr.type, by rw [hb.hashed, hb.cOps]; exact hr.equiv, by rw [hb.hashed]; exact hr.good⟩

/-- **Messages are included**, any number of them. -/
theorem Inv.notifiedAll (h : Inv ops good w held) (vs : List (ObjVal α))
    (hvs : ∀ v ∈ vs, Regular ops good (w.caches c) v ∧ Known (w.caches c).cOps v) (cb : ChangeCb) :
    Becomes c w (notifyAll ops w c cb vs) (includeAll ops (w.caches c).cOps (contents w c) vs)
        (includeAllEvents ops (w.caches c).cOps cb (contents w c) vs) ∧
      Inv ops good (notifyAll ops w c cb vs) held := by
  induction vs generalizing w with
  | nil => exact ⟨Becomes.nothing c w, h⟩
  | cons v vs ih =>
    obtain ⟨hr, hact⟩ := hvs v List.mem_cons_self
    obtain ⟨hb, h1, -⟩ := h.notified hr hact cb
    obtain ⟨hb2, h2⟩ := ih h1 fun v' hv' => by
      obtain ⟨hr', hact'⟩ := hvs v' (List.mem_cons_of_mem v hv')
      refine ⟨hr'.of_becomes hb, ?_⟩
      rw [hb.cOps]
      exact hact'
    rw [hb.contents, hb.cOps] at hb2
    exact ⟨hb.trans hb2, h2⟩

/-! ## What becomes of a key -/

/-- what `cache_include` makes of the entry with the identity of the message -/
def includeEntry (ops : ℕ → ObjectOps α) (act : Act) (e : Option (Entry α)) (v : ObjVal α) : Option (Entry α) :=
  match e with
  | none => if act = .new then some ⟨v, false⟩ else none
  | some old =>
    match nlObjectUpdate ops old.val v with
    | some m => some { old with val := m }
    | none => if act = .del then none else some ⟨v, false⟩

/-- objects of one type, in the class on which identity is an equivalence -/
structure Member (good : ObjVal α → Prop) (t : ℕ) (v : ObjVal α) : Prop where
  type : v.ceOps = t
  good : good v

theorem equivOn {t : ℕ} (hl : LawfulEquiv ops good t) : EquivOn (nlObjectIdentical ops) (Member good t) where
  refl a ha := hl.refl a ha.type ha.good
  symm a b ha hb := hl.symm a b ha.type ha.good hb.good
  trans a b c ha hb hc := hl.trans a b c ha.type ha.good hb.good hc.good

/-- contents of members of a class, no two of them identical -/
structure Sound (ops : ℕ → ObjectOps α) (good : ObjVal α → Prop) (t : ℕ) (es : List (Entry α)) : Prop where
  member : ∀ e ∈ es, Member good t e.val
  distinct : DistinctEntries ops es

/-- a cache with a hash table has such contents -/
theorem Inv.sound (h : Inv ops good w held) (hh : (w.caches c).hashtable.isSome = true) :
    Sound ops good (w.caches c).cOps.coObjOps (contents w c) := by
  obtain ⟨ht, hht⟩ := Option.isSome_iff_exists.1 hh
  constructor
  · intro e he
    obtain ⟨o, ho, rfl⟩ := List.mem_map.1 he
    exact ⟨h.type c o ho, h.allGood c ht hht o ho⟩
  · refine List.pairwise_map.2 ((h.nodup c).pairwise_of_forall_ne fun a ha b hb hne => ?_)
    by_contra hid
    rw [Bool.not_eq_false] at hid
    exact hne (h.unique c ht hht a ha b hb hid)

section

variable {t : ℕ} {es : List (Entry α)} {v : ObjVal α} (hl : LawfulEquiv ops good t) (hk : UpdateKeeps ops good t)
  (hs : Sound ops good t es) (hv : Member good t v)

include hl hk hs hv

/-- the entry that is updated in place keeps its identity -/
theorem update_keeps {old : Entry α} {m : ObjVal α} (hlook : entryOf ops es v = some old)
    (hu : nlObjectUpdate ops old.val v = some m) (e : Entry α) (he : e ∈ es)
    (hid : nlObjectIdentical ops e.val v = true) :
    Member good t m ∧ ∀ x, nlObjectIdentical ops m x = nlObjectIdentical ops e.val x := by
  have hold : entryOf ops es v = some e := hs.distinct.look_eq (equivOn hl) hs.member hv he hid
  rw [hlook] at hold
  cases hold
  have hm := hs.member old he
  have hsame := hk _ _ m hm.type hm.good hv.good hu
  exact ⟨⟨(nlObjectUpdate_ceOps ops hu).trans hm.type, hsame.good hm.good⟩, fun x => (hsame.left x).symm⟩

theorem includeEntries_member (act : Act) : ∀ e ∈ includeEntries ops act es v, Member good t e.val := by
  intro e he
  unfold includeEntries at he
  cases hlook : entryOf ops es v with
  | none =>
    simp only [hlook] at he
    split_ifs at he
    · rcases List.mem_append.1 he with he | he
      · exact hs.member e he
      · rw [List.mem_singleton.1 he]
        exact hv
    · exact hs.member e he
  | some old =>
    cases hu : nlObjectUpdate ops old.val v with
    | some m =>
      simp only [hlook, hu] at he
      rcases mem_amend he with he | ⟨e', he', hid, rfl⟩
      · exact hs.member e he
      · exact (update_keeps hl hk hs hv hlook hu e' he' hid).1
    | none =>
      simp only [hlook, hu] at he
      split_ifs at he
      · exact hs.member e (mem_of_mem_drop he)
      · rcases mem_put he with he | rfl
        · exact hs.member e he
        · exact hv

theorem distinct_include (act : Act) : DistinctEntries ops (includeEntries ops act es v) := by
  unfold includeEntries
  cases hlook : entryOf ops es v with
  | none =>
    dsimp only
    split_ifs
    · have hput := hs.distinct.put (equivOn hl) hs.member (x := ⟨v, false⟩) hv
      unfold put at hput
      rwa [drop_of_look_none hlook] at hput
    · exact hs.distinct
  | some old =>
    dsimp only
    cases hu : nlObjectUpdate ops old.val v with
    | some m =>
      refine hs.distinct.amend (equivOn hl) hs.member fun e he hid => ?_
      obtain ⟨hm, hsame⟩ := update_keeps hl hk hs hv hlook hu e he hid
      exact ⟨hm, fun x _ => hsame x⟩
    | none =>
      dsimp only
      split_ifs
      · exact hs.distinct.drop v
      · exact hs.distinct.put (equivOn hl) hs.member hv

/-- **One key.** Including a message changes the entry with its identity, and no other. -/
theorem look_include (act : Act) {k : ObjVal α} (hkm : Member good t k) :
    entryOf ops (includeEntries ops act es v) k =
      if nlObjectIdentical ops v k then includeEntry ops act (entryOf ops es k) v else entryOf ops es k := by
  have hcongr : nlObjectIdentical ops v k = true →
      look Entry.val (nlObjectIdentical ops) es k = look Entry.val (nlObjectIdentical ops) es v := fun h =>
    (look_congr (equivOn hl) hs.member hv hkm h).symm
  unfold includeEntries includeEntry entryOf
  cases hlook : look Entry.val (nlObjectIdentical ops) es v with
  | none =>
    dsimp only
    by_cases hvk : nlObjectIdentical ops v k = true
    · rw [if_pos hvk, hcongr hvk, hlook]
      dsimp only
      split_ifs
      · rw [look_append, hcongr hvk, hlook, look_cons, if_pos hvk, Option.none_or]
      · rw [hcongr hvk, hlook]
    · rw [if_neg hvk]
      split_ifs
      · rw [look_append, look_cons, if_neg hvk]
        exact Option.or_none
      · rfl
  | some old =>
    dsimp only
    cases hu : nlObjectUpdate ops old.val v with
    | some m =>
      dsimp only
      rw [look_amend (equivOn hl) hs.member hv hkm fun e he hid x _ =>
        (update_keeps hl hk hs hv hlook hu e he hid).2 x]
      by_cases hvk : nlObjectIdentical ops v k = true
      · rw [if_pos hvk, if_pos hvk, hcongr hvk, hlook]
        simp [hu]
      · rw [if_neg hvk, if_neg hvk]
    | none =>
      dsimp only
      by_cases hact : act = .del
      · rw [if_pos hact, look_drop (equivOn hl) hs.member hs.distinct hv hkm]
        by_cases hvk : nlObjectIdentical ops v k = true
        · rw [if_pos hvk, if_pos hvk, hcongr hvk, hlook]
          simp [hu, hact]
        · rw [if_neg hvk, if_neg hvk]
      · rw [if_neg hact, look_put (equivOn hl) hs.member hs.distinct hv hkm]
        by_cases hvk : nlObjectIdentical ops v k = true
        · rw [if_pos hvk, if_pos hvk, hcongr hvk, hlook]
          simp [hu, hact]
        · rw [if_neg hvk, if_neg hvk]

theorem Sound.included (act : Act) : Sound ops good t (includeEntries ops act es v) :=
  ⟨includeEntries_member hl hk hs hv act, distinct_include hl hk hs hv act⟩

end

theorem Sound.includedAll {t : ℕ} {cops : CacheOps} {es : List (Entry α)} (hl : LawfulEquiv ops good t)
    (hk : UpdateKeeps ops good t) (hs : Sound ops good t es) {vs : List (ObjVal α)} (hvs : ∀ v ∈ vs, Member good t v) :
    Sound ops good t (includeAll ops cops es vs) := by
  induction vs generalizing es with
  | nil => exact hs
  | cons v vs ih =>
    exact ih (Sound.included hl hk hs (hvs v List.mem_cons_self) _) fun u hu => hvs u (List.mem_cons_of_mem v hu)

/-- **One key, many messages.** The entry goes through what the messages with its identity make of it. -/
theorem look_includeAll {t : ℕ} (cops : CacheOps) {es : List (Entry α)} (hl : LawfulEquiv ops good t)
    (hk : UpdateKeeps ops good t) (hs : Sound ops good t es) {vs : List (ObjVal α)} (hvs : ∀ v ∈ vs, Member good t v)
    {k : ObjVal α} (hkm : Member good t k) : entryOf ops (includeAll ops cops es vs) k =
      (vs.filter fun v => nlObjectIdentical ops v k).foldl (fun e v => includeEntry ops (actOf cops v) e v)
        (entryOf ops es k) := by
  induction vs generalizing es with
  | nil => rfl
  | cons v vs ih =>
    have hv := hvs v List.mem_cons_self
    have hcons : includeAll ops cops es (v :: vs) = includeAll ops cops (includeEntries ops (actOf cops v) es v) vs := rfl
    rw [hcons, ih (Sound.included hl hk hs hv _) fun u hu => hvs u (List.mem_cons_of_mem v hu),
      look_include hl hk hs hv _ hkm, List.filter_cons]
    by_cases hvk : nlObjectIdentical ops v k = true
    · rw [if_pos hvk, if_pos hvk, List.foldl_cons]
    · rw [if_neg hvk, if_neg hvk]

end Libnl.Cache
