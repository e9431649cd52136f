/-
Refilling a cache (`nl_cache_refill`).

The cache is cleared once, and then everything that comes is added, from interrupted answers as from the complete one.
With a hash table, an object is refused if one with its identity is there (`-NLE_EXIST`, which is taken for a message to
be skipped), so the cache keeps the first object it got for every identity. Without one, the cache keeps everything.

- `refill_exact`: the cache has the objects of the complete answer, each once, if and only if (with a hash table) each
  object that came first for its identity in an interrupted answer is also in the complete one, or (without) nothing came
  before the complete answer, and that does not repeat an identity.
- `refill_keeps_stale`: an object that changed between the two answers keeps its old value; without a hash table it is in
  the cache twice.
-/
import Mathlib.Tactic
import Libnl.Cache.Resync

namespace Libnl.Cache

open Msg Object KeyedList

variable {α : Type}

/-! ## Adding on contents -/

section

variable (ops : ℕ → ObjectOps α)

/-- `nl_cache_add` on contents, with and without a hash table -/
def addEntry (hashed : Bool) (es : List (Entry α)) (v : ObjVal α) : List (Entry α) :=
  if hashed && (entryOf ops es v).isSome then es else es ++ [⟨v, false⟩]

def addAll (hashed : Bool) (es : List (Entry α)) (vs : List (ObjVal α)) : List (Entry α) :=
  vs.foldl (addEntry ops hashed) es

end

section

variable {ops : ℕ → ObjectOps α} {good : ObjVal α → Prop} {w : Store α} {held : ObjId → ℕ} {c : CacheId} {o : ObjId}

/-- **`nl_cache_add`** of a new object -/
theorem Inv.becomes_added (h : Inv ops good w held) (hf : Fresh w o) (hr : Regular ops good (w.caches c) (w.val o)) :
    Becomes c w (nlCacheAdd ops w c o ⟨true, true⟩).1
        (addEntry ops (w.caches c).hashtable.isSome (contents w c) (w.val o)) [] ∧
      ((nlCacheAdd ops w c o ⟨true, true⟩).2 = 0 ∨ (nlCacheAdd ops w c o ⟨true, true⟩).2 = -NLE_EXIST) := by
  have hq := quiet_get w o
  have h1 := h.get hf.live
  have hlink : ((nlObjectGet w o).heap o).linked = false := (hq.linked o hf.live).trans hf.linked
  have hscan := h.search_scan hr
  have hattach : Becomes c w (attach ops (nlObjectGet w o) c o) (contents w c ++ [⟨w.val o, false⟩]) [] := by
    refine ⟨?_, ?_, by rw [attach_cOps, get_caches], by rw [attach_hashed, get_caches]⟩
    · rw [contents_attach, h.quiet_contents hq, hq.entry o hf.live, hf.entry]
    · rw [List.append_nil]
      exact hq.log
  have hadd : nlCacheAdd ops w c o ⟨true, true⟩ =
      if (cacheAdd ops (nlObjectGet w o) c o ⟨true, true⟩).2 < 0 then
        (nlObjectPut (cacheAdd ops (nlObjectGet w o) c o ⟨true, true⟩).1 o,
          (cacheAdd ops (nlObjectGet w o) c o ⟨true, true⟩).2)
      else cacheAdd ops (nlObjectGet w o) c o ⟨true, true⟩ := by
    unfold nlCacheAdd
    rw [if_neg (not_not.2 hr.type.symm), hf.linked]
    rfl
  have hcache := cacheAdd_eq ops (nlObjectGet w o) c o ⟨true, true⟩ (h1.ceCache_of_not_linked hlink)
  have hlook : entryOf ops (contents w c) (w.val o) = (searchResult ops w c (w.val o)).map w.entry := by
    rw [look_contents, hscan]
  rw [hadd]
  unfold searchResult at hlook
  rcases Option.eq_none_or_eq_some (w.caches c).hashtable with hht | ⟨ht, hht⟩
  · rw [get_caches, hht] at hcache
    rw [hcache, hht]
    exact ⟨hattach, Or.inl rfl⟩
  · rw [get_caches, hht] at hcache
    dsimp only at hcache
    rw [get_val, nlHashTableLookup_congr ops (get_val w o) ht (w.val o)] at hcache
    rw [hht] at hlook
    dsimp only at hlook
    rw [hht]
    cases hfound : nlHashTableLookup ops w ht (w.val o) with
    | none =>
      rw [hfound] at hcache hlook
      rw [if_neg (by decide), if_neg (by decide)] at hcache
      have hnew : addEntry ops (some ht).isSome (contents w c) (w.val o) = contents w c ++ [⟨w.val o, false⟩] := by
        simp [addEntry, hlook]
      rw [hcache, hnew]
      exact ⟨hattach, Or.inl rfl⟩
    | some n =>
      -- the reference that was taken is given back
      rw [hfound] at hcache hlook
      rw [Option.isSome_some, if_pos rfl] at hcache
      have hold : addEntry ops (some ht).isSome (contents w c) (w.val o) = contents w c := by
        simp [addEntry, hlook]
      rw [hcache, hold]
      exact ⟨((Becomes.nothing c w).quiet h hq).quiet h1 (quiet_put _ o), Or.inr rfl⟩

/-- a message is parsed and added -/
theorem Inv.picked (h : Inv ops good w held) {v : ObjVal α} (hr : Regular ops good (w.caches c) v) :
    Becomes c w (pickup ops c w v).1 (addEntry ops (w.caches c).hashtable.isSome (contents w c) v) [] ∧
      Inv ops good (pickup ops c w v).1 held ∧ ((pickup ops c w v).2 = 0 ∨ (pickup ops c w v).2 = -NLE_EXIST) := by
  have hq := quiet_alloc w v
  have hval := alloc_val_self w v
  have h1 := h.alloc v
  have hf : Fresh (nlObjectAlloc w v).1 w.next :=
    ⟨Nat.lt_succ_self _, by simp [nlObjectAlloc], by simp [nlObjectAlloc]⟩
  have hr1 : Regular ops good ((nlObjectAlloc w v).1.caches c) ((nlObjectAlloc w v).1.val w.next) := by
    rw [hq.caches, hval]
    exact hr
  obtain ⟨hb, hret⟩ := h1.becomes_added hf hr1
  have hi := h1.add hf.live hr1.good ⟨true, true⟩
  rw [h.quiet_contents hq, hval, hq.caches] at hb
  exact ⟨(hb.after hq).quiet hi (quiet_put _ w.next), hi.put_added, hret⟩

/-! ## Clearing -/

theorem Inv.remove_log (h : Inv ops good w held) (o : ObjId) : (nlCacheRemove ops w o).log = w.log := by
  rcases h.remove_cases o with ⟨-, heq⟩ | ⟨c, -, heq⟩
  · rw [heq]
  · rw [heq, detach_log]

theorem Inv.removedAll (h : Inv ops good w held) (c : CacheId) (l : List ObjId) :
    (∀ a ∈ ((l.foldl (nlCacheRemove ops) w).caches c).cItems, a ∈ (w.caches c).cItems ∧ a ∉ l) ∧
      (l.foldl (nlCacheRemove ops) w).log = w.log ∧
      ((l.foldl (nlCacheRemove ops) w).caches c).cOps = (w.caches c).cOps ∧
      ((l.foldl (nlCacheRemove ops) w).caches c).hashtable.isSome = (w.caches c).hashtable.isSome := by
  induction l generalizing w with
  | nil => exact ⟨fun a ha => ⟨ha, List.not_mem_nil⟩, rfl, rfl, rfl⟩
  | cons o l ih =>
    obtain ⟨hmem, hlog, hops, hhash⟩ := ih (h.remove o)
    refine ⟨fun a ha => ?_, hlog.trans (h.remove_log o), hops.trans (h.remove_cOps o c),
      hhash.trans (h.remove_hashed o c)⟩
    obtain ⟨hin, hnl⟩ := hmem a ha
    obtain ⟨hw, hne⟩ := h.mem_remove hin
    exact ⟨hw, fun hal => (List.mem_cons.1 hal).elim hne hnl⟩

/-- **`nl_cache_clear`** -/
theorem Inv.becomes_cleared (h : Inv ops good w held) (c : CacheId) : Becomes c w (nlCacheClear ops w c) [] [] := by
  obtain ⟨hmem, hlog, hops, hhash⟩ := h.removedAll c (w.caches c).cItems
  refine ⟨?_, by rw [List.append_nil]; exact hlog, hops, hhash⟩
  unfold contents nlCacheClear
  rw [List.map_eq_nil_iff, List.eq_nil_iff_forall_not_mem]
  exact fun a ha => (hmem a ha).2 (hmem a ha).1

/-! ## The refill -/

theorem Inv.pickedAll (h : Inv ops good w held) {vs : List (ObjVal α)}
    (hvs : ∀ v ∈ vs, Regular ops good (w.caches c) v) :
    Becomes c w (parseAll (pickup ops c) w vs) (addAll ops (w.caches c).hashtable.isSome (contents w c) vs) [] := by
  induction vs generalizing w with
  | nil => exact Becomes.nothing c w
  | cons v vs ih =>
    obtain ⟨hb, h1, -⟩ := h.picked (hvs v List.mem_cons_self)
    have hb2 := ih h1 fun u hu => (hvs u (List.mem_cons_of_mem v hu)).of_becomes hb
    rw [hb.contents, hb.hashed] at hb2
    exact hb.trans hb2

theorem swallows_pickup (ops : ℕ → ObjectOps α) (good : ObjVal α → Prop) (w : Store α) (held : ObjId → ℕ)
    (c : CacheId) : Swallows (pickup ops c)
      (fun w' => Inv ops good w' held ∧ (w'.caches c).cOps = (w.caches c).cOps ∧
        (w'.caches c).hashtable.isSome = (w.caches c).hashtable.isSome)
      (Regular ops good (w.caches c)) := by
  rintro w' v ⟨h, hops, hhash⟩ hr
  have hr' : Regular ops good (w'.caches c) v :=
    ⟨by rw [hops]; exact hr.type, by rw [hops, hhash]; exact hr.equiv, by rw [hhash]; exact hr.good⟩
  obtain ⟨hb, h', hret⟩ := h.picked hr'
  exact ⟨⟨h', hb.cOps.trans hops, hb.hashed.trans hhash⟩, hret⟩

/-- **`nl_cache_refill`** succeeds if all rounds get their answers, and adds everything that comes to an empty cache. -/
theorem Inv.refilled (h : Inv ops good w held) {sProto : ℕ} {d : DumpOps} {rounds : List (Round α)}
    (ha : Answered sProto d rounds) (hvs : ∀ v ∈ received (answers rounds), Regular ops good (w.caches c) v) :
    ∃ w', nlCacheRefill ops sProto d w c (answers rounds) = some (w', 0) ∧
      Becomes c w w' (addAll ops (w.caches c).hashtable.isSome [] (received (answers rounds))) [] := by
  have hb0 := h.becomes_cleared c
  have h0 := h.clear c
  have hloop := (swallows_pickup ops good w held c).dumpRounds ha.proto ha.request hvs ⟨h0, hb0.cOps, hb0.hashed⟩
  have hb1 := h0.pickedAll (c := c) fun v hv => (hvs v hv).of_becomes hb0
  rw [hb0.contents, hb0.hashed] at hb1
  refine ⟨_, ?_, hb0.trans hb1⟩
  unfold nlCacheRefill
  rw [if_neg (not_not.2 ha.proto), ← ha.rounds, hloop]

end

/-! ## What is in the cache then -/

section

variable {ops : ℕ → ObjectOps α} {good : ObjVal α → Prop} {t : ℕ} {es : List (Entry α)} {vs : List (ObjVal α)}

/-- without a hash table, everything -/
theorem addAll_unhashed (es : List (Entry α)) (vs : List (ObjVal α)) :
    addAll ops false es vs = es ++ vs.map fun v => ⟨v, false⟩ := by
  induction vs generalizing es with
  | nil => simp [addAll]
  | cons v vs ih =>
    have hcons : addAll ops false es (v :: vs) = addAll ops false (es ++ [⟨v, false⟩]) vs := rfl
    rw [hcons, ih]
    simp

theorem Sound.added (hl : LawfulEquiv ops good t) (hs : Sound ops good t es) {v : ObjVal α} (hv : Member good t v) :
    Sound ops good t (addEntry ops true es v) := by
  unfold addEntry
  cases hlook : entryOf ops es v with
  | some e => exact hs
  | none =>
    have hput := hs.distinct.put (equivOn hl) hs.member (x := ⟨v, false⟩) hv
    unfold put at hput
    rw [drop_of_look_none hlook] at hput
    refine ⟨fun e he => ?_, hput⟩
    rcases List.mem_append.1 he with he | he
    · exact hs.member e he
    · rw [List.mem_singleton.1 he]
      exact hv

theorem view_addEntry (hl : LawfulEquiv ops good t) (hs : Sound ops good t es) {v k : ObjVal α} (hv : Member good t v)
    (hk : Member good t k) : viewOf ops (addEntry ops true es v) k =
      (viewOf ops es k).or (if nlObjectIdentical ops v k then some v else none) := by
  cases hlook : entryOf ops es v with
  | some e =>
    have hadd : addEntry ops true es v = es := by simp [addEntry, hlook]
    rw [hadd]
    by_cases hvk : nlObjectIdentical ops v k = true
    · rw [view_congr hl hs hv hk hvk, viewOf, hlook]
      rfl
    · rw [if_neg hvk, Option.or_none]
  | none =>
    have hadd : addEntry ops true es v = es ++ [⟨v, false⟩] := by simp [addEntry, hlook]
    unfold viewOf entryOf
    rw [hadd, look_append, look_cons]
    cases look Entry.val (nlObjectIdentical ops) es k with
    | some e => rfl
    | none =>
      by_cases hvk : nlObjectIdentical ops v k = true
      · simp [hvk]
      · simp [hvk, look]

/-- with one, the first object of each identity -/
theorem addAll_hashed (hl : LawfulEquiv ops good t) (hs : Sound ops good t es) (hvs : ∀ v ∈ vs, Member good t v) :
    Sound ops good t (addAll ops true es vs) ∧ ∀ k, Member good t k → viewOf ops (addAll ops true es vs) k =
      (viewOf ops es k).or (vs.find? fun v => nlObjectIdentical ops v k) := by
  induction vs generalizing es with
  | nil => exact ⟨hs, fun k _ => by simp [addAll]⟩
  | cons v vs ih =>
    have hv := hvs v List.mem_cons_self
    obtain ⟨hsound, hview⟩ := ih (hs.added hl hv) fun u hu => hvs u (List.mem_cons_of_mem v hu)
    refine ⟨hsound, fun k hk => ?_⟩
    have hcons : addAll ops true es (v :: vs) = addAll ops true (addEntry ops true es v) vs := rfl
    rw [hcons, hview k hk, view_addEntry hl hs hv hk, List.find?_cons, Option.or_assoc]
    cases nlObjectIdentical ops v k with
    | true => rfl
    | false => rfl

/-- **A refilled cache**: no two identical objects, every object is one of the answer, and none of the answer is missing -/
structure Refilled (ops : ℕ → ObjectOps α) (es : List (Entry α)) (answer : List (ObjVal α)) : Prop where
  once : DistinctEntries ops es
  current : ∀ e ∈ es, e.val ∈ answer
  all : ∀ v ∈ answer, ∃ e ∈ es, nlObjectIdentical ops e.val v = true

/-- what came before the complete answer does no harm -/
def Harmless (ops : ℕ → ObjectOps α) (hashed : Bool) (before answer : List (ObjVal α)) : Prop :=
  if hashed then ∀ v, before.find? (fun u => nlObjectIdentical ops u v) = some v → v ∈ answer
  else before = [] ∧ Distinct id (nlObjectIdentical ops) answer

section

variable {before answer : List (ObjVal α)} (hl : LawfulEquiv ops good t)
  (hvs : ∀ v ∈ before ++ answer, Member good t v)

include hl hvs

theorem refilled_hashed : Refilled ops (addAll ops true [] (before ++ answer)) answer ↔
    Harmless ops true before answer := by
  have hempty : Sound ops good t [] := ⟨nofun, List.Pairwise.nil⟩
  obtain ⟨hs, hview⟩ := addAll_hashed hl hempty hvs
  have hfirst : ∀ k, Member good t k → viewOf ops (addAll ops true [] (before ++ answer)) k =
      (before ++ answer).find? fun v => nlObjectIdentical ops v k := hview
  unfold Harmless
  rw [if_pos rfl]
  constructor
  · intro hr v hfind
    have hv := hvs v (List.mem_append_left _ (List.mem_of_find?_eq_some hfind))
    have hstay := hfirst v hv
    rw [List.find?_append, hfind] at hstay
    obtain ⟨e, hlook, rfl⟩ := Option.map_eq_some_iff.1 hstay
    exact hr.current e (look_some hlook).1
  · intro hharm
    refine ⟨hs.distinct, fun e he => ?_, fun v hv => ?_⟩
    · have hem := hs.member e he
      have hstay := hfirst e.val hem
      rw [viewOf, entryOf, hs.distinct.look_eq (equivOn hl) hs.member hem he (hl.refl _ hem.type hem.good),
        List.find?_append] at hstay
      cases hbefore : before.find? fun v => nlObjectIdentical ops v e.val with
      | some u =>
        rw [hbefore] at hstay
        cases hstay
        exact hharm e.val hbefore
      | none =>
        rw [hbefore] at hstay
        exact List.mem_of_find?_eq_some hstay.symm
    · have hvm := hvs v (List.mem_append_right _ hv)
      have hsome : ((before ++ answer).find? fun u => nlObjectIdentical ops u v).isSome = true :=
        List.find?_isSome.2 ⟨v, List.mem_append_right _ hv, hl.refl v hvm.type hvm.good⟩
      rw [← hfirst v hvm, viewOf, Option.isSome_map] at hsome
      obtain ⟨e, hlook⟩ := Option.isSome_iff_exists.1 hsome
      exact ⟨e, look_some hlook⟩

theorem refilled_unhashed : Refilled ops (addAll ops false [] (before ++ answer)) answer ↔
    Harmless ops false before answer := by
  rw [addAll_unhashed, List.nil_append]
  unfold Harmless
  rw [if_neg (by decide)]
  constructor
  · intro hr
    have hd : Distinct id (nlObjectIdentical ops) (before ++ answer) := List.pairwise_map.1 hr.once
    obtain ⟨-, hanswer, hcross⟩ := List.pairwise_append.1 hd
    refine ⟨List.eq_nil_iff_forall_not_mem.2 fun v hv => ?_, hanswer⟩
    -- what came before is in the answer too, so it is in the cache twice
    have hvm := hvs v (List.mem_append_left _ hv)
    have hin := hr.current ⟨v, false⟩ (List.mem_map.2 ⟨v, List.mem_append_left _ hv, rfl⟩)
    have hne := hcross v hv v hin
    rw [id, hl.refl v hvm.type hvm.good] at hne
    cases hne
  · rintro ⟨rfl, hd⟩
    rw [List.nil_append]
    refine ⟨List.pairwise_map.2 hd, fun e he => ?_, fun v hv => ?_⟩
    · obtain ⟨v, hv, rfl⟩ := List.mem_map.1 he
      exact hv
    · have hvm := hvs v (List.mem_append_right _ hv)
      exact ⟨⟨v, false⟩, List.mem_map.2 ⟨v, hv, rfl⟩, hl.refl v hvm.type hvm.good⟩

end

end

/-- **Refill.** Whatever the cache held, it has the objects of the complete answer, each once, if and only if what came in
interrupted answers does no harm. -/
theorem refill_exact {ops : ℕ → ObjectOps α} {good : ObjVal α → Prop} {w : Store α} {held : ObjId → ℕ} {c : CacheId}
    {t : ℕ} (h : Inv ops good w held) (ht : (w.caches c).cOps.coObjOps = t) (hl : LawfulEquiv ops good t) {sProto : ℕ}
    {d : DumpOps} (r : Round α) (ha : Answered sProto d [r]) (hvs : ∀ v ∈ received r.passes, Member good t v) :
    ∃ w', nlCacheRefill ops sProto d w c r.passes = some (w', 0) ∧
      (Refilled ops (contents w' c) r.last.objs ↔
        Harmless ops (w.caches c).hashtable.isSome (received r.retried) r.last.objs) := by
  have hanswers : answers [r] = r.passes := by simp [answers]
  have hreceived : received r.passes = received r.retried ++ r.last.objs := by simp [received, Round.passes]
  obtain ⟨w', hret, hb⟩ := h.refilled (c := c) ha (by
    rw [hanswers]
    intro v hv
    exact ⟨by rw [ht]; exact (hvs v hv).type, fun _ => by rw [ht]; exact hl, fun _ => (hvs v hv).good⟩)
  rw [hanswers] at hret hb
  refine ⟨w', hret, ?_⟩
  rw [hb.contents, hreceived]
  rw [hreceived] at hvs
  cases (w.caches c).hashtable.isSome with
  | true => exact refilled_hashed hl hvs
  | false => exact refilled_unhashed hl hvs

/-- the first answer is interrupted, and the object has changed in the second -/
def changedRound : Round (ℕ × ℕ) :=
  ⟨[interruptedPass [sampleVal 1 10]], completePass [sampleVal 1 20], by decide, by decide⟩

theorem refill_exact_sample : ∃ w', nlCacheRefill sampleOps 0 sampleDump sampleFilled 0 changedRound.passes = some (w', 0) ∧
    (Refilled sampleOps (contents w' 0) [sampleVal 1 20] ↔ Harmless sampleOps true [sampleVal 1 10] [sampleVal 1 20]) := by
  have hvs : ∀ v ∈ received changedRound.passes, Member (CarriesId sampleOps) 0 v := by
    intro v hv
    fin_cases hv
    · exact ⟨rfl, rfl⟩
    · exact ⟨rfl, rfl⟩
  exact refill_exact sample_filled.1 rfl (twoAttr_lawful _ 0) changedRound sample_answered hvs

/-- the same caches without hash tables -/
def plainStore : Store (ℕ × ℕ) :=
  { sampleStore with caches := fun c => { sampleStore.caches c with hashtable := none } }

/-- **Stale objects.** With a hash table, the cache has the value of the interrupted answer; without, it has both. -/
theorem refill_keeps_stale :
    (nlCacheRefill sampleOps 0 sampleDump sampleStore 0 changedRound.passes).map
      (fun r => (r.2, (contents r.1 0).map Entry.val)) = some (0, [sampleVal 1 10]) ∧
    (nlCacheRefill sampleOps 0 sampleDump plainStore 0 changedRound.passes).map
      (fun r => (r.2, (contents r.1 0).map Entry.val)) = some (0, [sampleVal 1 10, sampleVal 1 20]) ∧
    changedRound.last.objs = [sampleVal 1 20] := by
  refine ⟨by rfl, by rfl, by rfl⟩

end Libnl.Cache
