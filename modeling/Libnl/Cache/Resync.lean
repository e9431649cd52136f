/-
Resynchronisation of a cache with the kernel (`nl_cache_resync`).

All objects are marked, the answers to the dump requests are included, and what is still marked is removed. On contents
this is `resyncEntries`, for any number of interrupted answers before a complete one (`Inv.resynced`).

- `resync_uninterrupted`: without interruptions the cache ends up with the last object the dump has for every identity,
  and nothing else, nothing is marked, and the callbacks tell the differences.
- `resync_keys`: with interruptions the cache has the identities of all answers. What came only in an interrupted answer
  is not marked any more when the complete one has come, and stays. So the cache has just the identities of the complete
  answer if and only if the interrupted ones have no others.
- `resync_keeps_stale`: an object that was deleted between the two answers is left in the cache.
-/
import Mathlib.Tactic
import Libnl.Cache.Dump
import Libnl.Cache.Notify

namespace Libnl.Cache

open Msg Object KeyedList

variable {α : Type}

/-! ## Marking and sweeping -/

def markEntry (e : Entry α) : Entry α := { e with marked := true }

/-- the callbacks for the marked entries -/
def sweepEvents (cb : ChangeCb) (es : List (Entry α)) : List (Event α) :=
  (es.filter Entry.marked).flatMap fun e => calls cb (.v1 e.val .del) (.v1 e.val .del)

/-- the contents before the sweep -/
def resyncEntries (ops : ℕ → ObjectOps α) (cops : CacheOps) (es : List (Entry α)) (vs : List (ObjVal α)) :
    List (Entry α) := includeAll ops cops (es.map markEntry) vs

section

variable {ops : ℕ → ObjectOps α} {good : ObjVal α → Prop} {w : Store α} {held : ObjId → ℕ} {c : CacheId} {o : ObjId}

theorem Inv.marked (h : Inv ops good w held) (ho : o < w.next) : Inv ops good (nlObjectMark w o) held :=
  h.modified (f := fun x => { x with marked := true }) rfl (fun _ _ => ⟨rfl, SameEntry.refl _ _⟩) (h.refs o)
    (fun _ _ => rfl) (Or.inl ho)

theorem mark_entry (w : Store α) (o a : ObjId) :
    (nlObjectMark w o).entry a = if a = o then markEntry (w.entry a) else w.entry a := by
  unfold Store.entry nlObjectMark
  rw [Store.modObj_val _ _ _ _ (by rfl), Store.modObj_heap]
  split_ifs with h
  · rw [h]
    rfl
  · rfl

theorem Inv.markedAll (h : Inv ops good w held) {l : List ObjId} (hl : ∀ o ∈ l, o < w.next) :
    Inv ops good (l.foldl nlObjectMark w) held ∧ (l.foldl nlObjectMark w).caches = w.caches ∧
      (l.foldl nlObjectMark w).log = w.log ∧
      ∀ o, (l.foldl nlObjectMark w).entry o = if o ∈ l then markEntry (w.entry o) else w.entry o := by
  induction l generalizing w with
  | nil => exact ⟨h, rfl, rfl, fun _ => rfl⟩
  | cons o l ih =>
    obtain ⟨h', hc, hlog, hentry⟩ := ih (h.marked (hl o List.mem_cons_self)) fun a ha => hl a (List.mem_cons_of_mem o ha)
    refine ⟨h', hc, hlog, fun a => ?_⟩
    rw [List.foldl_cons, hentry a, mark_entry]
    by_cases hao : a = o
    · simp [hao, markEntry]
    · simp [hao]

/-- **`nl_cache_mark_all`** -/
theorem Inv.becomes_marked (h : Inv ops good w held) (c : CacheId) :
    Becomes c w (nlCacheMarkAll w c) ((contents w c).map markEntry) [] ∧ Inv ops good (nlCacheMarkAll w c) held := by
  obtain ⟨h', hc, hlog, hentry⟩ := h.markedAll (l := (w.caches c).cItems) fun o ho => h.mem_lt_next ho
  refine ⟨⟨?_, by rw [List.append_nil]; exact hlog, by rw [nlCacheMarkAll, hc], by rw [nlCacheMarkAll, hc]⟩, h'⟩
  unfold contents nlCacheMarkAll
  rw [hc, List.map_map]
  refine List.map_congr_left fun o ho => ?_
  rw [hentry o, if_pos ho]
  rfl

/-- **The sweep**, one object: it goes if it is marked. -/
theorem Inv.swept (h : Inv ops good w held) (ho : o ∈ (w.caches c).cItems) (cb : ChangeCb) :
    Inv ops good (sweepObject ops cb w o) held ∧
      ((sweepObject ops cb w o).caches c).cItems =
        (if (w.heap o).marked then (w.caches c).cItems.erase o else (w.caches c).cItems) ∧
      (∀ a ∈ (w.caches c).cItems, (sweepObject ops cb w o).entry a = w.entry a) ∧
      (sweepObject ops cb w o).log =
        w.log ++ (if (w.heap o).marked then calls cb (.v1 (w.val o) .del) (.v1 (w.val o) .del) else []) ∧
      ((sweepObject ops cb w o).caches c).cOps = (w.caches c).cOps ∧
      ((sweepObject ops cb w o).caches c).hashtable.isSome = (w.caches c).hashtable.isSome := by
  unfold sweepObject
  cases hm : (w.heap o).marked with
  | false => exact ⟨h, rfl, fun _ _ => rfl, (List.append_nil _).symm, rfl, rfl⟩
  | true =>
    have h1 := h.get (h.mem_lt_next ho)
    have hin : ((nlObjectGet w o).heap o).ceCache = some c := by
      simpa [nlObjectGet] using (h.back c o).1 ho
    have h2 := h1.remove o
    dsimp only
    rw [if_pos rfl, if_pos rfl, if_pos rfl, h1.remove_val, get_val]
    refine ⟨(h2.called cb _ _).put_added, ?_, fun a ha => ?_, ?_, ?_, ?_⟩
    · rw [put_caches, callback_caches, h1.remove_eq hin, detach_caches_self, get_caches]
    · have hlt := h.mem_lt_next ha
      rw [(quiet_put _ o).entry a (by rw [callback_next, h1.remove_next]; exact hlt), callback_entry, h1.remove_eq hin,
        detach_entry, (quiet_get w o).entry a hlt]
    · rw [(quiet_put _ o).log, callback_log, h1.remove_eq hin, detach_log, (quiet_get w o).log]
    · rw [put_caches, callback_caches, h1.remove_cOps, get_caches]
    · rw [put_caches, callback_caches, h1.remove_hashed, get_caches]

/-- the sweep, with the unmarked objects it has gone past in front of it -/
theorem Inv.sweptAll (h : Inv ops good w held) (cb : ChangeCb) (past : List ObjId) {l : List ObjId}
    (hitems : (w.caches c).cItems = past ++ l) :
    Inv ops good (l.foldl (sweepObject ops cb) w) held ∧
      ((l.foldl (sweepObject ops cb) w).caches c).cItems = past ++ l.filter (fun o => !(w.heap o).marked) ∧
      (∀ a ∈ past ++ l.filter (fun o => !(w.heap o).marked), (l.foldl (sweepObject ops cb) w).entry a = w.entry a) ∧
      (l.foldl (sweepObject ops cb) w).log = w.log ++ sweepEvents cb (l.map w.entry) ∧
      ((l.foldl (sweepObject ops cb) w).caches c).cOps = (w.caches c).cOps ∧
      ((l.foldl (sweepObject ops cb) w).caches c).hashtable.isSome = (w.caches c).hashtable.isSome := by
  induction l generalizing w past with
  | nil => exact ⟨h, by simpa using hitems, fun _ _ => rfl, (List.append_nil _).symm, rfl, rfl⟩
  | cons o l ih =>
    have ho : o ∈ (w.caches c).cItems := by simp [hitems]
    have hnd := h.nodup c
    rw [hitems] at hnd
    obtain ⟨h1, hitems1, hentry1, hlog1, hops1, hhash1⟩ := h.swept ho cb
    have hsub : ∀ a ∈ l, a ∈ (w.caches c).cItems := fun a ha => by simp [hitems, ha]
    have hmarked : ∀ a ∈ l, ((sweepObject ops cb w o).heap a).marked = (w.heap a).marked := fun a ha =>
      congrArg Entry.marked (hentry1 a (hsub a ha))
    have hentries : l.map (sweepObject ops cb w o).entry = l.map w.entry :=
      List.map_congr_left fun a ha => hentry1 a (hsub a ha)
    have hfilter : l.filter (fun a => !((sweepObject ops cb w o).heap a).marked) = l.filter fun a => !(w.heap a).marked :=
      List.filter_congr fun a ha => by rw [hmarked a ha]
    cases hm : (w.heap o).marked with
    | true =>
      have hout : o ∉ past := fun hin => (List.nodup_append.1 hnd).2.2 o hin o List.mem_cons_self rfl
      rw [if_pos hm, hitems, List.erase_append_right _ hout, List.erase_cons_head] at hitems1
      rw [if_pos hm] at hlog1
      obtain ⟨h2, hitems2, hentry2, hlog2, hops2, hhash2⟩ := ih h1 _ hitems1
      rw [hfilter] at hitems2 hentry2
      have hcons : (o :: l).filter (fun a => !(w.heap a).marked) = l.filter fun a => !(w.heap a).marked := by
        simp [hm]
      refine ⟨h2, by rw [hcons]; exact hitems2, fun a ha => ?_, ?_, hops2.trans hops1, hhash2.trans hhash1⟩
      · rw [hcons] at ha
        refine (hentry2 a ha).trans (hentry1 a ?_)
        rw [hitems]
        rcases List.mem_append.1 ha with ha | ha
        · exact List.mem_append_left _ ha
        · exact List.mem_append_right _ (List.mem_cons_of_mem o (List.mem_of_mem_filter ha))
      · rw [List.foldl_cons, hlog2, hlog1, hentries, List.append_assoc]
        simp [sweepEvents, Store.entry, hm]
    | false =>
      have hnext : (w.caches c).cItems = (past ++ [o]) ++ l := by rw [hitems, List.append_assoc]; rfl
      rw [hm, if_neg (by decide), hnext] at hitems1
      rw [hm, if_neg (by decide), List.append_nil] at hlog1
      obtain ⟨h2, hitems2, hentry2, hlog2, hops2, hhash2⟩ := ih h1 _ hitems1
      rw [hfilter] at hitems2 hentry2
      have hcons : past ++ (o :: l).filter (fun a => !(w.heap a).marked) =
          past ++ [o] ++ l.filter fun a => !(w.heap a).marked := by simp [hm]
      refine ⟨h2, by rw [hcons]; exact hitems2, fun a ha => ?_, ?_, hops2.trans hops1, hhash2.trans hhash1⟩
      · rw [hcons] at ha
        refine (hentry2 a ha).trans (hentry1 a ?_)
        rw [hnext]
        rcases List.mem_append.1 ha with ha | ha
        · exact List.mem_append_left _ ha
        · exact List.mem_append_right _ (List.mem_of_mem_filter ha)
      · rw [List.foldl_cons, hlog2, hlog1, hentries]
        simp [sweepEvents, Store.entry, hm]

theorem Inv.becomes_swept (h : Inv ops good w held) (c : CacheId) (cb : ChangeCb) :
    Becomes c w ((w.caches c).cItems.foldl (sweepObject ops cb) w) ((contents w c).filter fun e => !e.marked)
      (sweepEvents cb (contents w c)) := by
  obtain ⟨-, hitems, hentry, hlog, hops, hhash⟩ := h.sweptAll (c := c) cb [] (List.nil_append _).symm
  rw [List.nil_append] at hitems hentry
  refine ⟨?_, hlog, hops, hhash⟩
  unfold contents
  rw [hitems, List.map_congr_left hentry, List.filter_map]
  rfl

/-- what is in a dump: objects of the type of the cache, in messages that add objects -/
structure Dumped (good : ObjVal α → Prop) (cops : CacheOps) (v : ObjVal α) : Prop where
  member : Member good cops.coObjOps v
  new : actOf cops v = .new

/-- the parser of `nl_cache_resync` takes everything that belongs into the cache -/
theorem swallows_notify (ops : ℕ → ObjectOps α) (good : ObjVal α → Prop) (w : Store α) (held : ObjId → ℕ) (c : CacheId)
    (cb : ChangeCb) : Swallows (fun w v => notify ops w c cb v)
      (fun w' => Inv ops good w' held ∧ (w'.caches c).cOps = (w.caches c).cOps ∧
        (w'.caches c).hashtable.isSome = (w.caches c).hashtable.isSome)
      (fun v => Regular ops good (w.caches c) v ∧ Known (w.caches c).cOps v) := by
  rintro w' v ⟨h, hops, hhash⟩ ⟨hr, hact⟩
  have hr' : Regular ops good (w'.caches c) v :=
    ⟨by rw [hops]; exact hr.type, by rw [hops, hhash]; exact hr.equiv, by rw [hhash]; exact hr.good⟩
  obtain ⟨hb, h', hret⟩ := h.notified hr' (by rw [hops]; exact hact) cb
  exact ⟨⟨h', hb.cOps.trans hops, hb.hashed.trans hhash⟩, Or.inl hret⟩

/-- **`nl_cache_resync`** succeeds if all rounds get their answers, and does to the contents what marking, including and
sweeping does. -/
theorem Inv.resynced (h : Inv ops good w held) (hl : LawfulEquiv ops good (w.caches c).cOps.coObjOps) {sProto : ℕ}
    {d : DumpOps} {rounds : List (Round α)} (ha : Answered sProto d rounds)
    (hvs : ∀ v ∈ received (answers rounds), Dumped good (w.caches c).cOps v) (change : Bool) :
    ∃ w', nlCacheResync ops sProto d w c change (answers rounds) = some (w', 0) ∧
      Becomes c w w' ((resyncEntries ops (w.caches c).cOps (contents w c) (received (answers rounds))).filter
          fun e => !e.marked)
        (includeAllEvents ops (w.caches c).cOps (changeCb change) ((contents w c).map markEntry)
            (received (answers rounds)) ++
          sweepEvents (changeCb change) (resyncEntries ops (w.caches c).cOps (contents w c)
            (received (answers rounds)))) := by
  obtain ⟨hb0, h0⟩ := h.becomes_marked c
  have hregular : ∀ v ∈ received (answers rounds),
      Regular ops good (w.caches c) v ∧ Known (w.caches c).cOps v := fun v hv =>
    ⟨⟨(hvs v hv).member.type, fun _ => hl, fun _ => (hvs v hv).member.good⟩, Or.inl (hvs v hv).new⟩
  have hloop := (swallows_notify ops good w held c (changeCb change)).dumpRounds ha.proto ha.request hregular
    ⟨h0, hb0.cOps, hb0.hashed⟩
  obtain ⟨hb1, h1⟩ := h0.notifiedAll (received (answers rounds))
    (fun v hv => ⟨(hregular v hv).1.of_becomes hb0, by rw [hb0.cOps]; exact (hregular v hv).2⟩) (changeCb change)
  have hb2 := h1.becomes_swept c (changeCb change)
  rw [hb0.contents, hb0.cOps] at hb1
  rw [hb1.contents] at hb2
  refine ⟨_, ?_, hb0.trans (hb1.trans hb2)⟩
  unfold nlCacheResync
  rw [if_neg (not_not.2 ha.proto), ← ha.rounds]
  dsimp only
  rw [hloop]
  rfl

end

/-! ## Identities -/

section

variable {ops : ℕ → ObjectOps α} {good : ObjVal α → Prop} {t : ℕ} {cops : CacheOps} {es : List (Entry α)} {v k : ObjVal α}
  (hl : LawfulEquiv ops good t) (hupd : (ops t).ooUpdate = none)

/-- a new object of a type without updates becomes the last, unmarked -/
theorem include_new (hupd : (ops t).ooUpdate = none) (hes : ∀ e ∈ es, e.val.ceOps = t) (v : ObjVal α) :
    includeEntries ops .new es v = put Entry.val (nlObjectIdentical ops) es ⟨v, false⟩ := by
  unfold includeEntries entryOf put
  cases hlook : look Entry.val (nlObjectIdentical ops) es v with
  | none =>
    dsimp only
    rw [if_pos rfl, drop_of_look_none hlook]
  | some old =>
    dsimp only
    rw [nlObjectUpdate_none hupd (hes old (look_some hlook).1), if_neg (by decide)]

theorem includeAll_cons (es : List (Entry α)) (v : ObjVal α) (vs : List (ObjVal α)) :
    includeAll ops cops es (v :: vs) = includeAll ops cops (includeEntries ops (actOf cops v) es v) vs := rfl

/-- an unmarked entry has the identity -/
def HasUnmarked (ops : ℕ → ObjectOps α) (es : List (Entry α)) (k : ObjVal α) : Prop :=
  ∃ e ∈ es, e.marked = false ∧ nlObjectIdentical ops e.val k = true

include hl hupd

/-- an included object adds its identity to those of the unmarked entries -/
theorem unmarked_include (hes : ∀ e ∈ es, Member good t e.val) (hv : Member good t v) (hk : Member good t k) :
    HasUnmarked ops (includeEntries ops .new es v) k ↔
      HasUnmarked ops es k ∨ nlObjectIdentical ops v k = true := by
  rw [include_new hupd fun e he => (hes e he).type]
  constructor
  · rintro ⟨e, he, hm, hid⟩
    rcases mem_put he with he | rfl
    · exact Or.inl ⟨e, he, hm, hid⟩
    · exact Or.inr hid
  · intro h
    by_cases hvk : nlObjectIdentical ops v k = true
    · exact ⟨⟨v, false⟩, List.mem_append_right _ (List.mem_singleton_self _), rfl, hvk⟩
    · obtain ⟨e, he, hm, hid⟩ := h.resolve_right hvk
      refine ⟨e, List.mem_append_left _ (List.mem_eraseP_of_neg ?_ |>.2 he), hm, hid⟩
      intro hev
      have hve := hl.symm _ _ (hes e he).type (hes e he).good hv.good hev
      exact hvk (hl.trans _ _ _ hv.type hv.good (hes e he).good hk.good hve hid)

theorem unmarked_includeAll (cops : CacheOps) (hes : ∀ e ∈ es, Member good t e.val) {vs : List (ObjVal α)}
    (hvs : ∀ v ∈ vs, Member good t v ∧ actOf cops v = .new) (hk : Member good t k) :
    HasUnmarked ops (includeAll ops cops es vs) k ↔
      HasUnmarked ops es k ∨ ∃ v ∈ vs, nlObjectIdentical ops v k = true := by
  induction vs generalizing es with
  | nil => simp [includeAll]
  | cons v vs ih =>
    obtain ⟨hv, hact⟩ := hvs v List.mem_cons_self
    have hes' : ∀ e ∈ includeEntries ops .new es v, Member good t e.val := by
      rw [include_new hupd fun e he => (hes e he).type]
      intro e he
      rcases mem_put he with he | rfl
      · exact hes e he
      · exact hv
    rw [includeAll_cons, hact, ih hes' fun v' hv' => hvs v' (List.mem_cons_of_mem v hv'), unmarked_include hl hupd hes hv hk, or_assoc]
    simp

end

/-! ## Objects and callbacks -/

/-- the last object of a list with an identity -/
def lastOf (ops : ℕ → ObjectOps α) (vs : List (ObjVal α)) (k : ObjVal α) : Option (ObjVal α) :=
  (vs.filter fun v => nlObjectIdentical ops v k).getLast?

theorem lastOf_cons (ops : ℕ → ObjectOps α) (v : ObjVal α) (vs : List (ObjVal α)) (k : ObjVal α) :
    lastOf ops (v :: vs) k = (lastOf ops vs k).or (if nlObjectIdentical ops v k then some v else none) := by
  unfold lastOf
  rw [List.filter_cons]
  split_ifs with h
  · rw [List.getLast?_cons]
    cases (List.filter (fun v => nlObjectIdentical ops v k) vs).getLast? with
    | none => rfl
    | some u => rfl
  · simp

section

variable {ops : ℕ → ObjectOps α} {good : ObjVal α → Prop} {t : ℕ} {cops : CacheOps} {es : List (Entry α)}

theorem entryOf_mark (es : List (Entry α)) (k : ObjVal α) :
    entryOf ops (es.map markEntry) k = (entryOf ops es k).map markEntry := look_map es markEntry k

theorem view_mark (es : List (Entry α)) : viewOf ops (es.map markEntry) = viewOf ops es := by
  funext k
  unfold viewOf
  rw [entryOf_mark, Option.map_map]
  rfl

theorem mark_members (hes : ∀ e ∈ es, Member good t e.val) : ∀ e ∈ es.map markEntry, Member good t e.val := by
  intro e he
  obtain ⟨e', he', rfl⟩ := List.mem_map.1 he
  exact hes e' he'

theorem Sound.mark (hs : Sound ops good t es) : Sound ops good t (es.map markEntry) where
  member := mark_members hs.member
  distinct := List.pairwise_map.2 hs.distinct

variable (hl : LawfulEquiv ops good t) (hupd : (ops t).ooUpdate = none)

include hl hupd

theorem entry_includeAll (hs : Sound ops good t es) {vs : List (ObjVal α)}
    (hvs : ∀ v ∈ vs, Member good t v ∧ actOf cops v = .new) {k : ObjVal α} (hk : Member good t k) :
    entryOf ops (includeAll ops cops es vs) k =
      ((lastOf ops vs k).map fun v => ⟨v, false⟩).or (entryOf ops es k) := by
  induction vs generalizing es with
  | nil => rfl
  | cons v vs ih =>
    obtain ⟨hv, hact⟩ := hvs v List.mem_cons_self
    rw [includeAll_cons, hact, ih (Sound.included hl (updateKeeps_of_none hupd) hs hv .new) fun v' hv' => hvs v' (List.mem_cons_of_mem v hv'), lastOf_cons,
      include_new hupd fun e he => (hs.member e he).type]
    unfold entryOf
    rw [look_put (equivOn hl) hs.member hs.distinct hv hk]
    cases lastOf ops vs k with
    | some u => rfl
    | none =>
      by_cases hvk : nlObjectIdentical ops v k = true
      · simp [hvk]
      · simp [hvk]

/-- the marked entries that are left are those no object is identical to -/
theorem marked_includeAll (hs : Sound ops good t es) {vs : List (ObjVal α)}
    (hvs : ∀ v ∈ vs, Member good t v ∧ actOf cops v = .new) :
    (includeAll ops cops es vs).filter Entry.marked =
      es.filter fun e => e.marked && vs.all fun v => !nlObjectIdentical ops e.val v := by
  induction vs generalizing es with
  | nil => simp [includeAll]
  | cons v vs ih =>
    obtain ⟨hv, hact⟩ := hvs v List.mem_cons_self
    rw [includeAll_cons, hact, ih (Sound.included hl (updateKeeps_of_none hupd) hs hv .new) fun v' hv' => hvs v' (List.mem_cons_of_mem v hv'),
      include_new hupd fun e he => (hs.member e he).type]
    unfold put
    rw [drop_eq_filter (equivOn hl) hs.member hs.distinct hv, List.filter_append, List.filter_filter]
    simp only [List.filter_cons, Bool.false_and, Bool.false_eq_true, if_false, List.filter_nil, List.append_nil,
      List.all_cons]
    refine List.filter_congr fun e _ => ?_
    rw [Bool.and_right_comm, Bool.and_assoc]

/-- without repeated identities, each object is compared with what was there before the dump -/
theorem events_includeAll (hs : Sound ops good t es) {vs : List (ObjVal α)}
    (hvs : ∀ v ∈ vs, Member good t v ∧ actOf cops v = .new) (hd : Distinct id (nlObjectIdentical ops) vs)
    (cb : ChangeCb) :
    includeAllEvents ops cops cb es vs = vs.flatMap (expected ops cb .new (viewOf ops es)) := by
  induction vs generalizing es with
  | nil => rfl
  | cons v vs ih =>
    obtain ⟨hv, hact⟩ := hvs v List.mem_cons_self
    obtain ⟨hdv, hdvs⟩ := List.pairwise_cons.1 hd
    have hrest : ∀ u ∈ vs, Member good t u ∧ actOf cops u = .new := fun u hu => hvs u (List.mem_cons_of_mem v hu)
    unfold includeAllEvents
    rw [hact, ih (Sound.included hl (updateKeeps_of_none hupd) hs hv .new) hrest hdvs, ← expected_eq hupd hs, List.flatMap_cons]
    congr 1
    refine List.flatMap_congr fun u hu => ?_
    have hview : viewOf ops (includeEntries ops .new es v) u = viewOf ops es u := by
      rw [view_include hl hupd hs hv (Or.inl rfl) (hrest u hu).1, follow_apply (Or.inl rfl)]
      have hvu : nlObjectIdentical ops v u = false := hdv u hu
      rw [hvu]
      rfl
    unfold expected
    rw [hview]

end

theorem calls_act {cb : ChangeCb} {e1 e2 ev : Event α} {act : Act} (hev : ev ∈ calls cb e1 e2) (h1 : e1.act = act)
    (h2 : e2.act = act) : ev.act = act := by
  cases cb with
  | none => cases hev
  | v1 => rwa [List.mem_singleton.1 hev]
  | v2 => rwa [List.mem_singleton.1 hev]

theorem new_not_del (ops : ℕ → ObjectOps α) (cb : ChangeCb) (es : List (Entry α)) (v : ObjVal α) :
    ∀ ev ∈ includeEvents ops cb .new es v, ev.act = .new ∨ ev.act = .change := by
  intro ev hev
  unfold includeEvents at hev
  cases hlook : entryOf ops es v with
  | none =>
    rw [hlook] at hev
    dsimp only at hev
    rw [if_pos rfl] at hev
    exact Or.inl (calls_act hev rfl rfl)
  | some old =>
    right
    rw [hlook] at hev
    dsimp only at hev
    cases hu : nlObjectUpdate ops old.val v with
    | some m =>
      rw [hu] at hev
      dsimp only at hev
      exact calls_act hev rfl rfl
    | none =>
      rw [hu] at hev
      dsimp only at hev
      rw [if_neg (by decide)] at hev
      split_ifs at hev
      · exact calls_act hev rfl rfl
      · cases hev

theorem newAll_not_del {ops : ℕ → ObjectOps α} {cops : CacheOps} {vs : List (ObjVal α)}
    (hvs : ∀ v ∈ vs, actOf cops v = .new) (cb : ChangeCb) (es : List (Entry α)) :
    ∀ ev ∈ includeAllEvents ops cops cb es vs, ev.act = .new ∨ ev.act = .change := by
  induction vs generalizing es with
  | nil => exact nofun
  | cons v vs ih =>
    intro ev hev
    unfold includeAllEvents at hev
    rw [hvs v List.mem_cons_self] at hev
    rcases List.mem_append.1 hev with hev | hev
    · exact new_not_del ops cb es v ev hev
    · exact ih (fun u hu => hvs u (List.mem_cons_of_mem v hu)) _ ev hev

/-- **Resync without interruptions.** The cache has, for every identity, the last object of the dump, and nothing else;
no object is marked. The callbacks are: some for objects that are new or changed; then one for each object whose identity
is not in the dump. If the dump does not repeat an identity, the first are one for each object that was not there, and
one for each that differs from what was there. -/
theorem resync_uninterrupted {ops : ℕ → ObjectOps α} {good : ObjVal α → Prop} {w : Store α} {held : ObjId → ℕ}
    {c : CacheId} {t : ℕ} (h : Inv ops good w held) (ht : (w.caches c).cOps.coObjOps = t) (hl : LawfulEquiv ops good t)
    (hupd : (ops t).ooUpdate = none) (hs : Sound ops good t (contents w c)) {sProto : ℕ} {d : DumpOps}
    {rounds : List (Round α)} (ha : Answered sProto d rounds) (hun : ∀ r ∈ rounds, r.retried = [])
    (hvs : ∀ v ∈ completed rounds, Dumped good (w.caches c).cOps v) (change : Bool) :
    ∃ w' evs, nlCacheResync ops sProto d w c change (answers rounds) = some (w', 0) ∧
      (∀ k, Member good t k → viewOf ops (contents w' c) k = lastOf ops (completed rounds) k) ∧
      DistinctEntries ops (contents w' c) ∧ (∀ e ∈ contents w' c, e.marked = false) ∧
      w'.log = w.log ++ evs ++ ((contents w c).filter fun e =>
          (completed rounds).all fun v => !nlObjectIdentical ops e.val v).flatMap
            (fun e => calls (changeCb change) (.v1 e.val .del) (.v1 e.val .del)) ∧
      (∀ ev ∈ evs, ev.act = .new ∨ ev.act = .change) ∧
      (Distinct id (nlObjectIdentical ops) (completed rounds) →
        evs = (completed rounds).flatMap (expected ops (changeCb change) .new (viewOf ops (contents w c)))) := by
  subst ht
  rw [← received_of_uninterrupted hun] at hvs ⊢
  obtain ⟨w', hret, hb⟩ := h.resynced hl ha hvs change
  have hvs' : ∀ v ∈ received (answers rounds), Member good (w.caches c).cOps.coObjOps v ∧
      actOf (w.caches c).cOps v = .new := fun v hv => ⟨(hvs v hv).member, (hvs v hv).new⟩
  have hsound : Sound ops good _ (resyncEntries ops (w.caches c).cOps (contents w c) (received (answers rounds))) :=
    (Sound.followed hl hupd hs.mark (w.caches c).cOps (changeCb change) fun v hv => ⟨(hvs v hv).member, Or.inl (hvs v hv).new⟩).1
  refine ⟨w', includeAllEvents ops (w.caches c).cOps (changeCb change) ((contents w c).map markEntry)
    (received (answers rounds)), hret, fun k hk => ?_, ?_, ?_, ?_, ?_, fun hd => ?_⟩
  · have hentry : look Entry.val (nlObjectIdentical ops) (resyncEntries ops (w.caches c).cOps (contents w c)
        (received (answers rounds))) k = _ := entry_includeAll hl hupd hs.mark hvs' hk
    unfold viewOf entryOf
    rw [hb.contents, look_filter (equivOn hl) hsound.member hsound.distinct hk, hentry, entryOf_mark]
    cases lastOf ops (received (answers rounds)) k with
    | some v => rfl
    | none =>
      cases entryOf ops (contents w c) k with
      | none => rfl
      | some e => rfl
  · rw [hb.contents]
    exact hsound.distinct.filter _
  · rw [hb.contents]
    intro e he
    simpa using (List.mem_filter.1 he).2
  · rw [hb.log, ← List.append_assoc]
    congr 1
    unfold sweepEvents resyncEntries
    rw [marked_includeAll hl hupd hs.mark hvs', List.filter_map, List.flatMap_map]
    rfl
  · exact newAll_not_del (fun v hv => (hvs v hv).new) _ _
  · rw [events_includeAll hl hupd hs.mark hvs' hd, view_mark]

/-- a cache with two objects -/
def sampleFilled : Store (ℕ × ℕ) := notifyAll sampleOps sampleStore 0 .none [sampleVal 1 10, sampleVal 2 20]

theorem sample_filled : Inv sampleOps (CarriesId sampleOps) sampleFilled (fun _ => 0) ∧
    Sound sampleOps (CarriesId sampleOps) 0 (contents sampleFilled 0) := by
  have hvs : ∀ v ∈ [sampleVal 1 10, sampleVal 2 20], Member (CarriesId sampleOps) 0 v ∧
      Known (sampleStore.caches 0).cOps v := by
    intro v hv
    fin_cases hv
    · exact ⟨⟨rfl, rfl⟩, Or.inl rfl⟩
    · exact ⟨⟨rfl, rfl⟩, Or.inl rfl⟩
  obtain ⟨hb, h⟩ := (sample_initial.inv sample_hashedLawful).notifiedAll (c := 0) [sampleVal 1 10, sampleVal 2 20]
    (fun v hv => ⟨⟨(hvs v hv).1.type, fun _ => twoAttr_lawful _ _, fun _ => (hvs v hv).1.good⟩, (hvs v hv).2⟩) .none
  refine ⟨h, ?_⟩
  unfold sampleFilled
  rw [hb.contents]
  have hempty : Sound sampleOps (CarriesId sampleOps) 0 (contents sampleStore 0) := ⟨nofun, List.Pairwise.nil⟩
  exact (Sound.followed (twoAttr_lawful _ 0) rfl hempty _ .none hvs).1

/-- one request is enough -/
def sampleDump : DumpOps := ⟨0, true, none, false⟩

def completePass (vs : List (ObjVal (ℕ × ℕ))) : Pass (ℕ × ℕ) := ⟨0, vs.map fun v => (v, false), false, 0⟩

/-- the interruption shows in the last message -/
def interruptedPass (vs : List (ObjVal (ℕ × ℕ))) : Pass (ℕ × ℕ) := ⟨0, vs.map fun v => (v, false), true, 0⟩

/-- a dump in which one of the two objects is missing, one has changed, and there is a third -/
def sampleRound : Round (ℕ × ℕ) :=
  ⟨[], completePass [sampleVal 2 30, sampleVal 3 40], nofun, by decide⟩

theorem sample_answered {r : Round (ℕ × ℕ)} : Answered 0 sampleDump [r] := ⟨rfl, rfl, rfl⟩

theorem resync_uninterrupted_sample : ∃ w' evs,
    nlCacheResync sampleOps 0 sampleDump sampleFilled 0 true (answers [sampleRound]) = some (w', 0) ∧
    (∀ e ∈ contents w' 0, e.marked = false) ∧
    w'.log = sampleFilled.log ++ evs ++ [.v1 (sampleVal 1 10) .del] ∧
    evs = [.v1 (sampleVal 2 30) .change, .v1 (sampleVal 3 40) .new] := by
  have hvs : ∀ v ∈ completed [sampleRound], Dumped (CarriesId sampleOps) (sampleFilled.caches 0).cOps v := by
    intro v hv
    fin_cases hv
    · exact ⟨⟨rfl, rfl⟩, rfl⟩
    · exact ⟨⟨rfl, rfl⟩, rfl⟩
  obtain ⟨w', evs, hret, -, -, hmarked, hlog, -, hevs⟩ := resync_uninterrupted (c := 0) sample_filled.1
    rfl (twoAttr_lawful _ 0) rfl sample_filled.2 sample_answered (by decide) hvs true
  exact ⟨w', evs, hret, hmarked, hlog, hevs (by unfold Distinct; decide)⟩

/-- **Resync with interruptions.** The cache, whatever it held, has the identities of the complete answers afterwards if
and only if the interrupted answers have no others. -/
theorem resync_keys {ops : ℕ → ObjectOps α} {good : ObjVal α → Prop} {w : Store α} {held : ObjId → ℕ} {c : CacheId}
    {t : ℕ} (h : Inv ops good w held) (ht : (w.caches c).cOps.coObjOps = t) (hl : LawfulEquiv ops good t)
    (hupd : (ops t).ooUpdate = none) (hes : ∀ e ∈ contents w c, Member good t e.val) {sProto : ℕ} {d : DumpOps}
    {rounds : List (Round α)} (ha : Answered sProto d rounds)
    (hvs : ∀ v ∈ received (answers rounds), Dumped good (w.caches c).cOps v) (change : Bool) :
    ∃ w', nlCacheResync ops sProto d w c change (answers rounds) = some (w', 0) ∧
      ((∀ k, Member good t k → ((∃ e ∈ contents w' c, nlObjectIdentical ops e.val k = true) ↔
          ∃ v ∈ completed rounds, nlObjectIdentical ops v k = true)) ↔
        ∀ v ∈ aborted rounds, ∃ u ∈ completed rounds, nlObjectIdentical ops u v = true) := by
  subst ht
  obtain ⟨w', hret, hb⟩ := h.resynced hl ha hvs change
  refine ⟨w', hret, ?_⟩
  have hkeys : ∀ k, Member good (w.caches c).cOps.coObjOps k →
      ((∃ e ∈ contents w' c, nlObjectIdentical ops e.val k = true) ↔
        ∃ v ∈ received (answers rounds), nlObjectIdentical ops v k = true) := by
    intro k hk
    have hmarked : ¬ HasUnmarked ops ((contents w c).map markEntry) k := by
      rintro ⟨e, he, hm, -⟩
      obtain ⟨e', -, rfl⟩ := List.mem_map.1 he
      cases hm
    have hall := unmarked_includeAll hl hupd (w.caches c).cOps (mark_members hes)
      (fun v hv => ⟨(hvs v hv).member, (hvs v hv).new⟩) hk
    rw [or_iff_right hmarked] at hall
    rw [← hall, hb.contents]
    unfold HasUnmarked resyncEntries
    simp only [List.mem_filter, Bool.not_eq_true', and_assoc]
  constructor
  · intro hsame v hv
    have hvm := (hvs v (mem_received.2 (Or.inl hv))).member
    refine (hsame v hvm).1 ((hkeys v hvm).2 ⟨v, mem_received.2 (Or.inl hv), ?_⟩)
    exact hl.refl v hvm.type hvm.good
  · intro hsub k hk
    rw [hkeys k hk]
    constructor
    · rintro ⟨v, hv, hid⟩
      rcases mem_received.1 hv with hab | hco
      · obtain ⟨u, hu, huv⟩ := hsub v hab
        have hum := (hvs u (mem_received.2 (Or.inr hu))).member
        exact ⟨u, hu, hl.trans u v k hum.type hum.good (hvs v hv).member.good hk.good huv hid⟩
      · exact ⟨v, hco, hid⟩
    · rintro ⟨v, hv, hid⟩
      exact ⟨v, mem_received.2 (Or.inr hv), hid⟩

/-- the second object is in the first answer, which is interrupted, and not in the second -/
def staleRound : Round (ℕ × ℕ) :=
  ⟨[interruptedPass [sampleVal 1 10, sampleVal 2 20]], completePass [sampleVal 1 10], by decide, by decide⟩

theorem stale_dumped : ∀ v ∈ received (answers [staleRound]),
    Dumped (CarriesId sampleOps) (sampleStore.caches 0).cOps v := by
  intro v hv
  fin_cases hv
  · exact ⟨⟨rfl, rfl⟩, rfl⟩
  · exact ⟨⟨rfl, rfl⟩, rfl⟩
  · exact ⟨⟨rfl, rfl⟩, rfl⟩

theorem resync_keys_sample : ∃ w',
    nlCacheResync sampleOps 0 sampleDump sampleStore 0 true (answers [staleRound]) = some (w', 0) ∧
    ((∀ k, Member (CarriesId sampleOps) 0 k → ((∃ e ∈ contents w' 0, nlObjectIdentical sampleOps e.val k = true) ↔
        ∃ v ∈ completed [staleRound], nlObjectIdentical sampleOps v k = true)) ↔
      ∀ v ∈ aborted [staleRound], ∃ u ∈ completed [staleRound], nlObjectIdentical sampleOps u v = true) :=
  resync_keys (sample_initial.inv sample_hashedLawful) rfl (twoAttr_lawful _ 0) rfl nofun sample_answered stale_dumped true

/-- **A stale object.** The cache was empty, the second object is not in the complete answer, and yet it is in the cache
in the end. -/
theorem resync_keeps_stale : (nlCacheResync sampleOps 0 sampleDump sampleStore 0 true (answers [staleRound])).map
      (fun r => (r.2, (contents r.1 0).map Entry.val)) = some (0, [sampleVal 2 20, sampleVal 1 10]) ∧
    ∀ v ∈ completed [staleRound], nlObjectIdentical sampleOps v (sampleVal 2 20) = false := by
  refine ⟨by rfl, ?_⟩
  decide

end Libnl.Cache
