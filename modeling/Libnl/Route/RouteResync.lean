/-
Resynchronisation of a route cache (`nl_cache_resync` with `route_update`).

`cache_include` asks `route_update` first. A message that it merges changes the route that is there in place: the route
keeps its mark and the nexthops it had. So a route that was in the cache and is dumped again with a gateway as its only
nexthop is still marked when the dump is over, and is removed.

- `route_resync_iff`: after the resync the cache has, for every route key of the dump, the nexthops the dump reported, and
  nothing for the other keys, if and only if the dump of every key is `Takeable`: its first message is not one to merge
  when the route was in the cache before, and every later one is merged without losing realms or encapsulation, or comes
  after messages without nexthops.
- `route_resync_loses`: a cache with one IPv6 route is empty after a dump that has just that route.
-/
import Mathlib.Tactic
import Libnl.Cache.Resync
import Libnl.Route.RouteObj

namespace Libnl.Route

open Msg Object Cache KeyedList

/-- `rtnl_route_ops`, for a type -/
def rtnlRouteOps (t : ℕ) : CacheOps := ⟨t, [⟨RTM_NEWROUTE, .new⟩, ⟨RTM_DELROUTE, .del⟩, ⟨RTM_GETROUTE, .get⟩]⟩

theorem actOf_new {t : ℕ} {v : RouteVal} (h : v.ceMsgtype = RTM_NEWROUTE) : actOf (rtnlRouteOps t) v = .new := by
  unfold actOf
  rw [h]
  rfl

theorem actOf_del {t : ℕ} {v : RouteVal} (h : v.ceMsgtype = RTM_DELROUTE) : actOf (rtnlRouteOps t) v = .del := by
  unfold actOf
  rw [h]
  rfl

abbrev nexthops (v : RouteVal) : List RtnlNexthop := v.data.rtNexthops

/-! ## One message -/

section

variable {nlHash : List UInt8 → ℕ} {old : Entry RtnlRoute} {v : RouteVal} {nh : RtnlNexthop}

theorem route_nlObjectUpdate (old v : RouteVal) : nlObjectUpdate (routeOps nlHash) old v = routeUpdate old v := by
  unfold nlObjectUpdate
  dsimp only [routeOps, routeObjOps]
  cases hu : routeUpdate old v with
  | none => rfl
  | some u =>
    rw [Option.map_some, ← (onlyNexthops_update hu).type]

/-- a merged message adds a clone of its nexthop; the mark stays -/
theorem include_merged (hm : Mergeable v nh) (hnew : v.ceMsgtype = RTM_NEWROUTE) :
    includeEntry (routeOps nlHash) .new (some old) v =
      some { old with val := rtnlRouteAddNexthop old.val (rtnlRouteNhClone nh) } := by
  unfold includeEntry
  dsimp only
  rw [route_nlObjectUpdate, hm.update, if_pos hnew]

/-- any other message replaces the route -/
theorem include_not_merged (hm : ∀ nh, ¬ Mergeable v nh) :
    includeEntry (routeOps nlHash) .new (some old) v = some ⟨v, false⟩ := by
  unfold includeEntry
  dsimp only
  rw [route_nlObjectUpdate, routeUpdate_of_not_mergeable hm]
  rfl

end

/-! ## The messages for a key -/

/-- what the messages `D` make of an entry -/
def dumpEntry (nlHash : List UInt8 → ℕ) (e : Option (Entry RtnlRoute)) (D : List RouteVal) : Option (Entry RtnlRoute) :=
  D.foldl (fun e v => includeEntry (routeOps nlHash) .new e v) e

/-- the sweep leaves what is not marked -/
def unmarked (e : Option (Entry RtnlRoute)) : Option (Entry RtnlRoute) := e.filter fun e => !e.marked

/-- the cache has what the messages `D` reported: the route with their nexthops, or nothing if there were none -/
def Synced (e : Option (Entry RtnlRoute)) (D : List RouteVal) : Prop :=
  match e with
  | none => D = []
  | some e => D ≠ [] ∧ (nexthops e.val).Perm (D.flatMap nexthops)

/-- every message is merged and its nexthop cloned without loss, or there were no nexthops before it -/
def Kept : List RtnlNexthop → List RouteVal → Prop
  | _, [] => True
  | seen, v :: D => ((∃ nh, Mergeable v nh ∧ rtnlRouteNhClone nh = nh) ∨ ((∀ nh, ¬ Mergeable v nh) ∧ seen = [])) ∧
      Kept (seen ++ nexthops v) D

/-- the first message makes a new object, and the others are kept -/
def Takeable (present : Bool) : List RouteVal → Prop
  | [] => True
  | v :: D => (present = true → ∀ nh, ¬ Mergeable v nh) ∧ Kept (nexthops v) D

/-- how many nexthops have something that is not cloned -/
def lossy (l : List RtnlNexthop) : ℕ := l.countP fun nh => decide (rtnlRouteNhClone nh ≠ nh)

/-- the entry has all the nexthops there were so far -/
def InStep (e : Option (Entry RtnlRoute)) (seen : List RtnlNexthop) : Prop :=
  ∃ cur, e = some cur ∧ cur.marked = false ∧ (nexthops cur.val).Perm seen

/-- the entry will be removed, or has lost nexthops or parts of them -/
def OutOfStep (e : Option (Entry RtnlRoute)) (seen : List RtnlNexthop) : Prop :=
  ∃ cur, e = some cur ∧ ((cur.marked = true ∧ seen ≠ []) ∨ (nexthops cur.val).length < seen.length ∨
    lossy (nexthops cur.val) < lossy seen)

section

variable {nlHash : List UInt8 → ℕ} {e : Option (Entry RtnlRoute)} {v : RouteVal} {seen : List RtnlNexthop}
  {D : List RouteVal}

theorem lossy_append (l m : List RtnlNexthop) : lossy (l ++ m) = lossy l + lossy m := List.countP_append

/-- clones have nothing that is not cloned -/
theorem lossy_clone (nh : RtnlNexthop) : lossy [rtnlRouteNhClone nh] = 0 := by simp [lossy, rtnlRouteNhClone]

variable (nlHash) in
theorem InStep.include (h : InStep e seen) (hnew : v.ceMsgtype = RTM_NEWROUTE)
    (hv : (∃ nh, Mergeable v nh ∧ rtnlRouteNhClone nh = nh) ∨ ((∀ nh, ¬ Mergeable v nh) ∧ seen = [])) :
    InStep (includeEntry (routeOps nlHash) .new e v) (seen ++ nexthops v) := by
  obtain ⟨cur, rfl, hmark, hperm⟩ := h
  rcases hv with ⟨nh, hm, hclone⟩ | ⟨hm, rfl⟩
  · refine ⟨_, include_merged hm hnew, hmark, ?_⟩
    dsimp only [nexthops, rtnlRouteAddNexthop]
    rw [hm.nexthops, hclone]
    exact hperm.append_right [nh]
  · exact ⟨_, include_not_merged hm, rfl, List.Perm.refl _⟩

variable (nlHash) in
theorem InStep.break (h : InStep e seen) (hnew : v.ceMsgtype = RTM_NEWROUTE)
    (hv : ¬ ((∃ nh, Mergeable v nh ∧ rtnlRouteNhClone nh = nh) ∨ ((∀ nh, ¬ Mergeable v nh) ∧ seen = []))) :
    OutOfStep (includeEntry (routeOps nlHash) .new e v) (seen ++ nexthops v) := by
  obtain ⟨cur, rfl, -, hperm⟩ := h
  rw [not_or] at hv
  by_cases hm : ∃ nh, Mergeable v nh
  · -- the clone differs from the nexthop
    obtain ⟨nh, hm⟩ := hm
    have hne : rtnlRouteNhClone nh ≠ nh := fun heq => hv.1 ⟨nh, hm, heq⟩
    refine ⟨_, include_merged hm hnew, Or.inr (Or.inr ?_)⟩
    have hcount : lossy (nexthops cur.val) = lossy seen := hperm.countP_eq _
    have hone : lossy [nh] = 1 := by simp [lossy, hne]
    dsimp only [nexthops, rtnlRouteAddNexthop]
    rw [lossy_append, lossy_clone, lossy_append, hm.nexthops, hone, ← hcount]
    exact Nat.lt_succ_self _
  · -- the nexthops so far are replaced
    rw [not_exists] at hm
    have hseen : seen ≠ [] := fun heq => hv.2 ⟨hm, heq⟩
    refine ⟨_, include_not_merged hm, Or.inr (Or.inl ?_)⟩
    rw [List.length_append]
    exact Nat.lt_add_of_pos_left (List.length_pos_iff.2 hseen)

theorem OutOfStep.ne_nil (h : OutOfStep e seen) : seen ≠ [] := by
  rintro rfl
  obtain ⟨cur, -, ⟨-, hne⟩ | hlt | hlt⟩ := h
  · exact hne rfl
  · exact Nat.not_lt_zero _ hlt
  · exact Nat.not_lt_zero _ hlt

variable (nlHash) in
theorem OutOfStep.include (h : OutOfStep e seen) (hnew : v.ceMsgtype = RTM_NEWROUTE) :
    OutOfStep (includeEntry (routeOps nlHash) .new e v) (seen ++ nexthops v) := by
  have hseen := h.ne_nil
  obtain ⟨cur, rfl, hcur⟩ := h
  by_cases hm : ∃ nh, Mergeable v nh
  · obtain ⟨nh, hm⟩ := hm
    refine ⟨_, include_merged hm hnew, ?_⟩
    dsimp only [nexthops, rtnlRouteAddNexthop]
    rw [hm.nexthops]
    rcases hcur with ⟨hmark, -⟩ | hlt | hlt
    · exact Or.inl ⟨hmark, List.append_ne_nil_of_left_ne_nil hseen _⟩
    · refine Or.inr (Or.inl ?_)
      rw [List.length_append, List.length_append]
      exact Nat.add_lt_add_right hlt 1
    · refine Or.inr (Or.inr ?_)
      rw [lossy_append, lossy_append, lossy_clone]
      exact Nat.lt_add_right _ hlt
  · refine ⟨_, include_not_merged (not_exists.1 hm), Or.inr (Or.inl ?_)⟩
    rw [List.length_append]
    exact Nat.lt_add_of_pos_left (List.length_pos_iff.2 hseen)

variable (nlHash) in
theorem OutOfStep.dump (h : OutOfStep e seen) (hD : ∀ v ∈ D, v.ceMsgtype = RTM_NEWROUTE) :
    OutOfStep (dumpEntry nlHash e D) (seen ++ D.flatMap nexthops) := by
  induction D generalizing e seen with
  | nil => simpa [dumpEntry] using h
  | cons v D ih =>
    have hstep := h.include nlHash (hD v List.mem_cons_self)
    have hrest := ih hstep fun u hu => hD u (List.mem_cons_of_mem v hu)
    rw [List.append_assoc] at hrest
    exact hrest

variable (nlHash) in
theorem InStep.dump (h : InStep e seen) (hD : ∀ v ∈ D, v.ceMsgtype = RTM_NEWROUTE) :
    (Kept seen D → InStep (dumpEntry nlHash e D) (seen ++ D.flatMap nexthops)) ∧
      (¬ Kept seen D → OutOfStep (dumpEntry nlHash e D) (seen ++ D.flatMap nexthops)) := by
  induction D generalizing e seen with
  | nil => exact ⟨fun _ => by simpa [dumpEntry] using h, fun hk => absurd trivial hk⟩
  | cons v D ih =>
    have hv := hD v List.mem_cons_self
    have hrest : ∀ u ∈ D, u.ceMsgtype = RTM_NEWROUTE := fun u hu => hD u (List.mem_cons_of_mem v hu)
    rw [List.flatMap_cons, ← List.append_assoc]
    by_cases hok : (∃ nh, Mergeable v nh ∧ rtnlRouteNhClone nh = nh) ∨ ((∀ nh, ¬ Mergeable v nh) ∧ seen = [])
    · obtain ⟨hin, hout⟩ := ih (h.include nlHash hv hok) hrest
      exact ⟨fun hk => hin hk.2, fun hk => hout fun hk' => hk ⟨hok, hk'⟩⟩
    · have hout := (h.break nlHash hv hok).dump nlHash hrest
      exact ⟨fun hk => absurd hk.1 hok, fun _ => hout⟩

theorem InStep.synced (h : InStep e (D.flatMap nexthops)) (hD : D ≠ []) : Synced (unmarked e) D := by
  obtain ⟨cur, rfl, hmark, hperm⟩ := h
  have hun : unmarked (some cur) = some cur := by simp [unmarked, hmark]
  rw [hun]
  exact ⟨hD, hperm⟩

theorem OutOfStep.not_synced (h : OutOfStep e (D.flatMap nexthops)) (hD : D ≠ []) : ¬ Synced (unmarked e) D := by
  obtain ⟨cur, rfl, hcur⟩ := h
  cases hmark : cur.marked with
  | true =>
    have hun : unmarked (some cur) = none := by simp [unmarked, hmark]
    rw [hun]
    exact hD
  | false =>
    have hun : unmarked (some cur) = some cur := by simp [unmarked, hmark]
    rw [hun]
    rintro ⟨-, hperm⟩
    rcases hcur with ⟨hmark', -⟩ | hlt | hlt
    · rw [hmark] at hmark'
      cases hmark'
    · exact absurd hperm.length_eq (Nat.ne_of_lt hlt)
    · exact absurd (hperm.countP_eq _) (Nat.ne_of_lt hlt)

/-- **One key.** The entry, marked before the dump, is what the dump says if and only if the dump is takeable. -/
theorem synced_iff (hmark : ∀ old, e = some old → old.marked = true) (hD : ∀ v ∈ D, v.ceMsgtype = RTM_NEWROUTE) :
    Synced (unmarked (dumpEntry nlHash e D)) D ↔ Takeable e.isSome D := by
  cases D with
  | nil =>
    have hgone : unmarked (dumpEntry nlHash e []) = none := by
      cases e with
      | none => rfl
      | some old => simp [unmarked, dumpEntry, hmark old rfl]
    rw [hgone]
    exact ⟨fun _ => trivial, fun _ => rfl⟩
  | cons v D =>
    have hv := hD v List.mem_cons_self
    have hrest : ∀ u ∈ D, u.ceMsgtype = RTM_NEWROUTE := fun u hu => hD u (List.mem_cons_of_mem v hu)
    have hcons : dumpEntry nlHash e (v :: D) = dumpEntry nlHash (includeEntry (routeOps nlHash) .new e v) D := rfl
    rw [hcons]
    by_cases hfirst : e.isSome = true → ∀ nh, ¬ Mergeable v nh
    · -- the first message makes a new object
      have hin : InStep (includeEntry (routeOps nlHash) .new e v) (nexthops v) := by
        cases e with
        | none => exact ⟨_, rfl, rfl, List.Perm.refl _⟩
        | some old => exact ⟨_, include_not_merged (hfirst rfl), rfl, List.Perm.refl _⟩
      obtain ⟨hkept, hlost⟩ := hin.dump nlHash hrest
      constructor
      · intro hs
        refine ⟨hfirst, ?_⟩
        by_contra hk
        exact OutOfStep.not_synced (D := v :: D) (hlost hk) (List.cons_ne_nil v D) hs
      · intro ht
        exact InStep.synced (D := v :: D) (hkept ht.2) (List.cons_ne_nil v D)
    · -- it is merged into the marked one
      refine ⟨fun hs => ?_, fun ht => absurd ht.1 hfirst⟩
      rw [Classical.not_imp, not_forall_not] at hfirst
      obtain ⟨hsome, nh, hm⟩ := hfirst
      obtain ⟨old, rfl⟩ := Option.isSome_iff_exists.1 hsome
      have hout : OutOfStep (includeEntry (routeOps nlHash) .new (some old) v) (nexthops v) := by
        refine ⟨_, include_merged hm hv, Or.inl ⟨hmark old rfl, ?_⟩⟩
        rw [nexthops, hm.nexthops]
        exact List.cons_ne_nil nh []
      exact absurd hs (OutOfStep.not_synced (D := v :: D) (hout.dump nlHash hrest) (List.cons_ne_nil v D))

end

/-! ## The cache -/

/-- the messages for a key -/
def forKey (nlHash : List UInt8 → ℕ) (vs : List RouteVal) (k : RouteVal) : List RouteVal :=
  vs.filter fun v => nlObjectIdentical (routeOps nlHash) v k

/-- the messages of a dump of routes -/
structure RouteDumped (t : ℕ) (v : RouteVal) : Prop where
  member : Member RouteGood t v
  new : v.ceMsgtype = RTM_NEWROUTE

/-- an entry after the resync is made of what was there and the messages for its key -/
theorem entry_resynced {nlHash : List UInt8 → ℕ} {t : ℕ} {es : List (Entry RtnlRoute)} {vs : List RouteVal} {k : RouteVal}
    (hs : Sound (routeOps nlHash) RouteGood t es) (hvs : ∀ v ∈ vs, RouteDumped t v) (hk : Member RouteGood t k) :
    entryOf (routeOps nlHash)
        ((resyncEntries (routeOps nlHash) (rtnlRouteOps t) es vs).filter fun e => !e.marked) k =
      unmarked (dumpEntry nlHash ((entryOf (routeOps nlHash) es k).map markEntry) (forKey nlHash vs k)) := by
  have hl := route_lawful nlHash t
  have hup := (route_keeps nlHash t).update
  have hvm : ∀ v ∈ vs, Member RouteGood t v := fun v hv => (hvs v hv).member
  have hsound : Sound (routeOps nlHash) RouteGood t (resyncEntries (routeOps nlHash) (rtnlRouteOps t) es vs) :=
    Sound.includedAll hl hup hs.mark hvm
  have hentry : look Entry.val (nlObjectIdentical (routeOps nlHash))
      (resyncEntries (routeOps nlHash) (rtnlRouteOps t) es vs) k = _ :=
    look_includeAll (rtnlRouteOps t) hl hup hs.mark hvm hk
  unfold entryOf
  rw [look_filter (equivOn hl) hsound.member hsound.distinct hk, hentry, entryOf_mark]
  unfold unmarked dumpEntry forKey entryOf
  congr 1
  refine List.foldl_ext _ _ _ fun e v hv => ?_
  rw [actOf_new (hvs v (List.mem_of_mem_filter hv)).new]

/-- **Resync of routes.** The cache has, for every key, the route with the nexthops of the dump, or nothing if the dump
does not have the key, if and only if the dump of every key is takeable. -/
theorem route_resync_iff {nlHash : List UInt8 → ℕ} {w : Store RtnlRoute} {held : ObjId → ℕ} {c : CacheId} {t : ℕ}
    (h : Inv (routeOps nlHash) RouteGood w held) (hcops : (w.caches c).cOps = rtnlRouteOps t)
    (hhash : (w.caches c).hashtable.isSome = true) {sProto : ℕ} {d : DumpOps} {rounds : List (Round RtnlRoute)}
    (ha : Answered sProto d rounds) (hun : ∀ r ∈ rounds, r.retried = [])
    (hvs : ∀ v ∈ completed rounds, RouteDumped t v) (change : Bool) :
    ∃ w', nlCacheResync (routeOps nlHash) sProto d w c change (answers rounds) = some (w', 0) ∧
      ((∀ k, Member RouteGood t k →
          Synced (entryOf (routeOps nlHash) (contents w' c) k) (forKey nlHash (completed rounds) k)) ↔
        ∀ k, Member RouteGood t k →
          Takeable (entryOf (routeOps nlHash) (contents w c) k).isSome (forKey nlHash (completed rounds) k)) := by
  have htype : (w.caches c).cOps.coObjOps = t := by
    rw [hcops]
    rfl
  have hs := h.sound hhash
  rw [htype] at hs
  rw [← received_of_uninterrupted hun] at hvs ⊢
  have hdumped : ∀ v ∈ received (answers rounds), Dumped RouteGood (w.caches c).cOps v := fun v hv =>
    ⟨by rw [htype]; exact (hvs v hv).member, by rw [hcops]; exact actOf_new (hvs v hv).new⟩
  obtain ⟨w', hret, hb⟩ := h.resynced (by rw [htype]; exact route_lawful nlHash t) ha hdumped change
  refine ⟨w', hret, ?_⟩
  refine forall_congr' fun k => imp_congr_right fun hk => ?_
  rw [hb.contents, hcops, entry_resynced hs hvs hk]
  have hmarked : ∀ old, (entryOf (routeOps nlHash) (contents w c) k).map markEntry = some old → old.marked = true := by
    intro old hold
    obtain ⟨e, -, rfl⟩ := Option.map_eq_some_iff.1 hold
    rfl
  have hnew : ∀ v ∈ forKey nlHash (received (answers rounds)) k, v.ceMsgtype = RTM_NEWROUTE := fun v hv =>
    (hvs v (List.mem_of_mem_filter hv)).new
  rw [synced_iff hmarked hnew, Option.isSome_map]

/-! ## An IPv6 route -/

/-- a hash of byte strings -/
def sumHash (bs : List UInt8) : ℕ := (bs.map UInt8.toNat).sum

/-- a nexthop with a gateway and an interface -/
def sampleNexthop (gw : UInt8) : RtnlNexthop :=
  { rtnlRouteNhAlloc with
    rtnhIfindex := 2
    rtnhGateway := some ⟨10, 128, [0xfe, 0x80, 0, 0, 0, 0, 0, 0, 0, 0, 0, 0, 0, 0, 0, gw]⟩
    ceMask := NH_ATTR_IFINDEX ||| NH_ATTR_GATEWAY ||| NH_ATTR_FLAGS }

/-- the default route of IPv6 in the main table, as the parser makes it from a message -/
def sampleRoute (msgtype : ℤ) (nh : RtnlNexthop) : RouteVal :=
  ⟨0, msgtype, 0x90ff,
    { rtFamily := AF_INET6, rtTos := 0, rtProtocol := 3, rtScope := 0, rtType := 1, rtNmetrics := 0,
      rtTtlPropagate := 0, rtFlags := 0, rtDst := some ⟨10, 0, []⟩, rtSrc := none, rtTable := 254, rtIif := 0,
      rtPrio := 1024, rtMetrics := fun _ => 0, rtMetricsMask := 0, rtPrefSrc := none, rtNexthops := [nh],
      rtFlagMask := 0 }⟩

theorem sampleRoute_member (msgtype : ℤ) (nh : RtnlNexthop) : Member RouteGood 0 (sampleRoute msgtype nh) :=
  ⟨rfl, (by decide : decide ((0x90ff#64) &&& routeIdAttrs.setWidth 64 = routeIdAttrs.setWidth 64) = true), nofun⟩

/-- empty route caches -/
def sampleRoutes : Store RtnlRoute where
  heap _ := ⟨0, none, false, false, sampleRoute 0 rtnlRouteNhAlloc⟩
  caches _ := ⟨[], 0, some ⟨8, fun _ => []⟩, rtnlRouteOps 0⟩
  next := 0
  log := []
  bug := false

theorem sampleRoutes_inv : Inv (routeOps sumHash) RouteGood sampleRoutes fun _ => 0 :=
  Initial.inv ⟨fun _ => ⟨rfl, rfl⟩, fun _ => ⟨rfl, rfl⟩, fun _ _ hht _ => by cases hht; rfl, rfl⟩ fun _ _ _ =>
    ⟨(route_lawful sumHash _).toLawful, route_keeps sumHash _⟩

/-- a cache with the route -/
def oneRoute : Store RtnlRoute :=
  notifyAll (routeOps sumHash) sampleRoutes 0 .none [sampleRoute RTM_NEWROUTE (sampleNexthop 1)]

/-- a dump that has the route, as it is in the cache -/
def oneRouteRound : Round RtnlRoute :=
  ⟨[], ⟨0, [(sampleRoute RTM_NEWROUTE (sampleNexthop 1), false)], false, 0⟩, nofun, by decide⟩

/-- what a dump reads of `rtnl_route_ops` and a cache without `NL_CACHE_AF_ITER` -/
def routeDump : DumpOps := ⟨0, true, some [⟨2, 7⟩, ⟨10, 11⟩, ⟨28, 27⟩, ⟨12, 15⟩], false⟩

theorem oneRoute_answered : Answered 0 routeDump [oneRouteRound] := ⟨rfl, rfl, rfl⟩

theorem oneRoute_dumped : ∀ v ∈ completed [oneRouteRound], RouteDumped 0 v := by
  intro v hv
  rw [List.mem_singleton.1 (show v ∈ [sampleRoute RTM_NEWROUTE (sampleNexthop 1)] from hv)]
  exact ⟨sampleRoute_member _ _, rfl⟩

theorem route_resync_iff_empty : ∃ w',
    nlCacheResync (routeOps sumHash) 0 routeDump sampleRoutes 0 true (answers [oneRouteRound]) = some (w', 0) ∧
    ((∀ k, Member RouteGood 0 k →
        Synced (entryOf (routeOps sumHash) (contents w' 0) k) (forKey sumHash (completed [oneRouteRound]) k)) ↔
      ∀ k, Member RouteGood 0 k →
        Takeable (entryOf (routeOps sumHash) (contents sampleRoutes 0) k).isSome
          (forKey sumHash (completed [oneRouteRound]) k)) :=
  route_resync_iff (c := 0) sampleRoutes_inv rfl rfl oneRoute_answered (by decide) oneRoute_dumped true

/-- **A live route is lost.** The cache has one route, the dump has the same route, and the cache is empty afterwards. -/
theorem route_resync_loses : (contents oneRoute 0).map Entry.val = [sampleRoute RTM_NEWROUTE (sampleNexthop 1)] ∧
    completed [oneRouteRound] = [sampleRoute RTM_NEWROUTE (sampleNexthop 1)] ∧
    (nlCacheResync (routeOps sumHash) 0 routeDump oneRoute 0 true (answers [oneRouteRound])).map
      (fun r => (r.2, contents r.1 0)) = some (0, []) := by
  refine ⟨by rfl, by rfl, by rfl⟩

end Libnl.Route
