/-
IPv6 multipath routes, followed through notifications (`route_update` under `cache_include`).

Every nexthop of such a route is announced and withdrawn in a message of its own. `live` is what the messages say: the
nexthops of a route key that were announced and not withdrawn since. The cache should have, for every key, one route with
these nexthops, and none when there are none left.

- `ecmp_tracked_iff`: it does so after every message if and only if every nexthop announced beside others can be merged:
  the route is not in the local table, and the nexthop has neither realms nor an encapsulation, which
  `rtnl_route_nh_clone` does not copy.
- `ecmp_realms_lost`: a second nexthop with realms is not in the cache as it was announced, and its withdrawal does not
  find it.
-/
import Mathlib.Tactic
import Libnl.Route.RouteResync

namespace Libnl.Route

open Msg Object Cache KeyedList

/-! ## What the messages say -/

/-- a notification about one IPv6 nexthop with a gateway -/
structure Notified (t : ℕ) (v : RouteVal) (nh : RtnlNexthop) : Prop where
  member : Member RouteGood t v
  family : v.data.rtFamily = AF_INET6
  mask : v.ceMask &&& ROUTE_ATTR_MULTIPATH ≠ 0
  nexthops : v.data.rtNexthops = [nh]
  gateway : nh.rtnhGateway ≠ none
  msgtype : v.ceMsgtype = RTM_NEWROUTE ∨ v.ceMsgtype = RTM_DELROUTE

def liveStep (l : List RtnlNexthop) (v : RouteVal) : List RtnlNexthop :=
  if v.ceMsgtype = RTM_NEWROUTE then l ++ nexthops v
  else l.filter fun x => !(nexthops v).any fun nh => nhSame x nh

/-- the live nexthops of a key after some messages -/
def live (nlHash : List UInt8 → ℕ) (vs : List RouteVal) (k : RouteVal) : List RtnlNexthop :=
  (forKey nlHash vs k).foldl liveStep []

/-- `P` holds of every message of a sequence, with the messages before it -/
def Along (P : List RouteVal → RouteVal → Prop) : List RouteVal → List RouteVal → Prop
  | _, [] => True
  | pre, v :: vs => P pre v ∧ Along P (pre ++ [v]) vs

/-- a message announces a nexthop that is not live, or withdraws one that is -/
def Announces (nlHash : List UInt8 → ℕ) (pre : List RouteVal) (v : RouteVal) : Prop :=
  (v.ceMsgtype = RTM_NEWROUTE → ∀ x ∈ live nlHash pre v, ∀ nh ∈ nexthops v, nhSame x nh = false) ∧
    (v.ceMsgtype = RTM_DELROUTE → ∀ nh ∈ nexthops v, ∃ x ∈ live nlHash pre v, nhSame x nh = true)

/-- a nexthop that is announced beside others can be merged with them -/
def Mergesafe (nlHash : List UInt8 → ℕ) (pre : List RouteVal) (v : RouteVal) : Prop :=
  v.ceMsgtype = RTM_NEWROUTE → live nlHash pre v ≠ [] → v.data.rtTable ≠ RT_TABLE_LOCAL ∧ ∀ nh ∈ nexthops v, Clonable nh

instance (nlHash : List UInt8 → ℕ) (pre : List RouteVal) (v : RouteVal) : Decidable (Announces nlHash pre v) :=
  inferInstanceAs (Decidable (_ ∧ _))

instance (nlHash : List UInt8 → ℕ) (pre : List RouteVal) (v : RouteVal) : Decidable (Mergesafe nlHash pre v) :=
  inferInstanceAs (Decidable (_ → _ → _))

/-- of every nexthop, as many are in the one list as in the other -/
def SameNexthops (cur l : List RtnlNexthop) : Prop :=
  ∀ nh, (cur.countP fun x => nhSame x nh) = l.countP fun x => nhSame x nh

/-- the cache has the route just when there are live nexthops, and with these -/
def Tracked (e : Option (Entry RtnlRoute)) (l : List RtnlNexthop) : Prop :=
  match e with
  | none => l = []
  | some e => l ≠ [] ∧ SameNexthops (nexthops e.val) l

section

variable {cur l : List RtnlNexthop} {nh : RtnlNexthop}

theorem countP_same (l : List RtnlNexthop) (nh : RtnlNexthop) :
    (l.countP fun x => nhSame x nh) = (l.map nhKey).count (nhKey nh) := by
  rw [List.count, List.countP_map]
  refine List.countP_congr fun x _ => ?_
  rw [nhSame_iff, Function.comp_apply, beq_iff_eq]

theorem sameNexthops_iff : SameNexthops cur l ↔ (cur.map nhKey).Perm (l.map nhKey) := by
  constructor
  · intro h
    rw [List.perm_iff_count]
    intro key
    by_cases hkey : ∃ nh, nhKey nh = key
    · obtain ⟨nh, rfl⟩ := hkey
      have hnh := h nh
      rwa [countP_same, countP_same] at hnh
    · -- a key of no nexthop is in neither list
      have hnot : ∀ m : List RtnlNexthop, key ∉ m.map nhKey := by
        intro m hm
        obtain ⟨x, -, hx⟩ := List.mem_map.1 hm
        exact hkey ⟨x, hx⟩
      rw [List.count_eq_zero.2 (hnot cur), List.count_eq_zero.2 (hnot l)]
  · intro h nh
    rw [countP_same, countP_same]
    exact h.count_eq _

theorem SameNexthops.length (h : SameNexthops cur l) : cur.length = l.length := by
  have hlen := (sameNexthops_iff.1 h).length_eq
  rwa [List.length_map, List.length_map] at hlen

theorem map_eraseP (l : List RtnlNexthop) (nh : RtnlNexthop) :
    (l.eraseP fun x => nhSame x nh).map nhKey = (l.map nhKey).erase (nhKey nh) := by
  rw [List.erase_eq_eraseP, List.eraseP_map]
  congr 2
  funext x
  rw [Bool.eq_iff_iff, nhSame_iff, Function.comp_apply, beq_iff_eq]
  exact eq_comm

theorem map_filter_same (l : List RtnlNexthop) (nh : RtnlNexthop) :
    (l.filter fun x => !nhSame x nh).map nhKey = (l.map nhKey).filter (· != nhKey nh) := by
  rw [List.filter_map]
  congr 1
  refine List.filter_congr fun x _ => ?_
  rw [Function.comp_apply, Bool.eq_iff_iff, Bool.not_eq_true', bne_iff_ne, ← Bool.not_eq_true, nhSame_iff]

end

/-! ## One message -/

section

variable {nlHash : List UInt8 → ℕ} {t : ℕ} {e : Option (Entry RtnlRoute)} {l : List RtnlNexthop} {v : RouteVal}
  {nh : RtnlNexthop}

/-- what a notification makes of the entry of its key -/
def notifiedEntry (nlHash : List UInt8 → ℕ) (t : ℕ) (e : Option (Entry RtnlRoute)) (v : RouteVal) :
    Option (Entry RtnlRoute) := includeEntry (routeOps nlHash) (actOf (rtnlRouteOps t) v) e v

/-- what is kept from message to message, for a key of the local table or not -/
structure Tracks (isLocal : Prop) (e : Option (Entry RtnlRoute)) (l : List RtnlNexthop) : Prop where
  tracked : Tracked e l
  mask : ∀ cur, e = some cur → cur.val.ceMask &&& ROUTE_ATTR_MULTIPATH ≠ 0
  nodup : (l.map nhKey).Nodup
  single : isLocal → l.length ≤ 1

/-- no route, and no nexthops -/
theorem tracks_none (isLocal : Prop) : Tracks isLocal none [] :=
  ⟨rfl, fun _ h => absurd h.symm (Option.some_ne_none _), List.nodup_nil, fun _ => Nat.zero_le _⟩

theorem Notified.mergeable (h : Notified t v nh) (htable : v.data.rtTable ≠ RT_TABLE_LOCAL) : Mergeable v nh :=
  ⟨h.family, htable, h.mask, h.nexthops, h.gateway⟩

theorem not_mergeable_local (htable : v.data.rtTable = RT_TABLE_LOCAL) (nh : RtnlNexthop) : ¬ Mergeable v nh :=
  fun hm => hm.table htable

theorem or_multipath_ne_zero (m : BitVec 64) : (m ||| ROUTE_ATTR_MULTIPATH) &&& ROUTE_ATTR_MULTIPATH ≠ 0 := by
  intro h
  have hbit := congrArg (fun x => x.getLsbD 15) h
  simp [ROUTE_ATTR_MULTIPATH] at hbit

/-- **A nexthop is announced.** -/
theorem Tracks.new (h : Tracks (v.data.rtTable = RT_TABLE_LOCAL) e l) (hv : Notified t v nh)
    (hnew : v.ceMsgtype = RTM_NEWROUTE) (hfresh : ∀ x ∈ l, nhSame x nh = false)
    (hsafe : l ≠ [] → v.data.rtTable ≠ RT_TABLE_LOCAL ∧ Clonable nh) :
    Tracks (v.data.rtTable = RT_TABLE_LOCAL) (notifiedEntry nlHash t e v) (liveStep l v) := by
  have hlive : liveStep l v = l ++ [nh] := by
    unfold liveStep
    rw [if_pos hnew, nexthops, hv.nexthops]
  have hnodup : ((l ++ [nh]).map nhKey).Nodup := by
    rw [List.map_append, List.nodup_append]
    refine ⟨h.nodup, List.nodup_singleton _, ?_⟩
    intro key hkey key' hkey' heq
    obtain ⟨x, hx, rfl⟩ := List.mem_map.1 hkey
    rw [List.mem_singleton.1 hkey', ← nhSame_iff, hfresh x hx] at heq
    cases heq
  unfold notifiedEntry
  rw [actOf_new hnew, hlive]
  cases e with
  | none =>
    have hnil : l = [] := h.tracked
    subst hnil
    refine ⟨⟨List.cons_ne_nil nh [], ?_⟩, ?_, hnodup, fun _ => le_rfl⟩
    · intro x
      rw [nexthops, hv.nexthops]
      rfl
    · rintro cur ⟨⟩
      exact hv.mask
  | some old =>
    obtain ⟨hne, hsame⟩ := h.tracked
    obtain ⟨htable, hclone⟩ := hsafe hne
    rw [include_merged (hv.mergeable htable) hnew]
    refine ⟨⟨List.append_ne_nil_of_left_ne_nil hne _, ?_⟩, ?_, hnodup, fun hloc => absurd hloc htable⟩
    · rw [sameNexthops_iff] at hsame ⊢
      dsimp only [nexthops, rtnlRouteAddNexthop]
      rw [List.map_append, List.map_append, List.map_singleton, List.map_singleton, (clone_same_iff nh).2 hclone]
      exact hsame.append_right _
    · rintro cur ⟨⟩
      exact or_multipath_ne_zero _

theorem length_one_of_mem {l : List RtnlNexthop} {x : RtnlNexthop} (hx : x ∈ l) (hlen : l.length ≤ 1) : l = [x] := by
  obtain ⟨y, rfl⟩ := List.length_eq_one_iff.1 (le_antisymm hlen (List.length_pos_of_mem hx))
  rw [List.mem_singleton.1 hx]

theorem removeMatching_ceMask (r : RouteVal) (nh : RtnlNexthop) : (removeMatching r nh).ceMask = r.ceMask := by
  unfold removeMatching
  split_ifs
  · rfl
  · rfl

theorem nexthops_removeMatching {r : RouteVal} {nh : RtnlNexthop} (hmask : r.ceMask &&& ROUTE_ATTR_MULTIPATH ≠ 0) :
    nexthops (removeMatching r nh) = (nexthops r).eraseP fun y => nhSame y nh := by
  unfold removeMatching
  rw [if_pos hmask]

/-- **A nexthop is withdrawn.** -/
theorem Tracks.del (h : Tracks (v.data.rtTable = RT_TABLE_LOCAL) e l) (hv : Notified t v nh)
    (hdel : v.ceMsgtype = RTM_DELROUTE) {x : RtnlNexthop} (hx : x ∈ l) (hxnh : nhSame x nh = true) :
    Tracks (v.data.rtTable = RT_TABLE_LOCAL) (notifiedEntry nlHash t e v) (liveStep l v) := by
  have hnotnew : v.ceMsgtype ≠ RTM_NEWROUTE := by
    rw [hdel]
    decide
  have hlive : liveStep l v = l.filter fun y => !nhSame y nh := by
    unfold liveStep
    rw [if_neg hnotnew, nexthops, hv.nexthops]
    simp
  have hnodup : ((l.filter fun y => !nhSame y nh).map nhKey).Nodup := by
    rw [map_filter_same]
    exact h.nodup.filter _
  have hshort : (l.filter fun y => !nhSame y nh).length ≤ l.length := List.length_filter_le _ _
  have hkeys : ((l.filter fun y => !nhSame y nh).map nhKey) = (l.map nhKey).erase (nhKey nh) := by
    rw [map_filter_same, h.nodup.erase_eq_filter]
  unfold notifiedEntry
  rw [actOf_del hdel, hlive]
  cases e with
  | none =>
    have hnil : l = [] := h.tracked
    rw [hnil] at hx
    cases hx
  | some old =>
    obtain ⟨hne, hsame⟩ := h.tracked
    have hlen := hsame.length
    have hcount : rtnlRouteGetNnexthops old.val = l.length := by
      unfold rtnlRouteGetNnexthops
      rw [if_pos (h.mask old rfl)]
      exact hlen
    by_cases hlast : l.length ≤ 1
    · -- the last one: the route goes
      have hupdate : routeUpdate old.val v = none := by
        by_cases htable : v.data.rtTable = RT_TABLE_LOCAL
        · exact routeUpdate_of_not_mergeable (not_mergeable_local htable) _
        · rw [(hv.mergeable htable).update, if_neg hnotnew, if_pos hdel, hcount, if_pos hlast]
      have hgone : includeEntry (routeOps nlHash) .del (some old) v = none := by
        unfold includeEntry
        dsimp only
        rw [route_nlObjectUpdate, hupdate]
        rfl
      have hempty : (l.filter fun y => !nhSame y nh) = [] := by
        rw [length_one_of_mem hx hlast]
        simp [hxnh]
      rw [hgone, hempty]
      exact tracks_none _
    · -- others are left
      have htable : v.data.rtTable ≠ RT_TABLE_LOCAL := fun hloc => hlast (h.single hloc)
      have hupdate : routeUpdate old.val v = some (removeMatching old.val nh) := by
        rw [(hv.mergeable htable).update, if_neg hnotnew, if_pos hdel, hcount, if_neg hlast]
      have hkept : includeEntry (routeOps nlHash) .del (some old) v =
          some { old with val := removeMatching old.val nh } := by
        unfold includeEntry
        dsimp only
        rw [route_nlObjectUpdate, hupdate]
      have hperm : SameNexthops (nexthops (removeMatching old.val nh)) (l.filter fun y => !nhSame y nh) := by
        rw [sameNexthops_iff, nexthops_removeMatching (h.mask old rfl), map_eraseP, hkeys]
        exact (sameNexthops_iff.1 hsame).erase _
      rw [hkept]
      refine ⟨⟨?_, hperm⟩, ?_, hnodup, fun hloc => absurd hloc htable⟩
      · intro hnil
        have hlen' : ((l.map nhKey).erase (nhKey nh)).length = 0 := by
          rw [← hkeys, hnil]
          rfl
        rw [List.length_erase_of_mem (List.mem_map.2 ⟨x, hx, (nhSame_iff x nh).1 hxnh⟩), List.length_map] at hlen'
        omega
      · rintro cur ⟨⟩
        rw [removeMatching_ceMask]
        exact h.mask old rfl

/-- what an announcement beside other nexthops must be for the entry to stay right -/
theorem Tracked.mergesafe (h : Tracked e l) (hv : Notified t v nh) (hnew : v.ceMsgtype = RTM_NEWROUTE)
    (hafter : Tracked (notifiedEntry nlHash t e v) (liveStep l v)) (hne : l ≠ []) :
    v.data.rtTable ≠ RT_TABLE_LOCAL ∧ Clonable nh := by
  have hlive : liveStep l v = l ++ [nh] := by
    unfold liveStep
    rw [if_pos hnew, nexthops, hv.nexthops]
  unfold notifiedEntry at hafter
  rw [actOf_new hnew, hlive] at hafter
  cases e with
  | none => exact absurd h hne
  | some old =>
    have htable : v.data.rtTable ≠ RT_TABLE_LOCAL := by
      intro htable
      rw [include_not_merged (not_mergeable_local htable)] at hafter
      have hlen := hafter.2.length
      rw [nexthops, hv.nexthops, List.length_append] at hlen
      have hpos := List.length_pos_iff.2 hne
      simp only [List.length_singleton] at hlen
      omega
    refine ⟨htable, ?_⟩
    rw [include_merged (hv.mergeable htable) hnew] at hafter
    have hperm := sameNexthops_iff.1 hafter.2
    dsimp only [nexthops, rtnlRouteAddNexthop] at hperm
    rw [List.map_append, List.map_append] at hperm
    have hone := (List.perm_append_left_iff _).1 ((sameNexthops_iff.1 h.2).symm.append_right _ |>.trans hperm)
    have hkey := List.singleton_perm_singleton.1 hone
    exact (clone_same_iff nh).1 hkey

end

/-! ## Sequences of messages -/

section

variable {nlHash : List UInt8 → ℕ} {t : ℕ} {pre vs : List RouteVal} {v k : RouteVal}

/-- the entry of a key after some messages, from an empty cache -/
def entryAfter (nlHash : List UInt8 → ℕ) (t : ℕ) (vs : List RouteVal) (k : RouteVal) : Option (Entry RtnlRoute) :=
  (forKey nlHash vs k).foldl (notifiedEntry nlHash t) none

theorem forKey_snoc (pre : List RouteVal) (v k : RouteVal) : forKey nlHash (pre ++ [v]) k =
    forKey nlHash pre k ++ if nlObjectIdentical (routeOps nlHash) v k then [v] else [] := by
  unfold forKey
  rw [List.filter_append, List.filter_cons, List.filter_nil]

/-- messages with the identity of the key have its messages -/
theorem forKey_congr (hpre : ∀ u ∈ pre, Member RouteGood t u) (hv : Member RouteGood t v) (hk : Member RouteGood t k)
    (hvk : nlObjectIdentical (routeOps nlHash) v k = true) : forKey nlHash pre v = forKey nlHash pre k :=
  List.filter_congr fun u hu =>
    (route_lawful nlHash t).congr_right hv.type hv.good hk.good hvk u (hpre u hu).good

/-- a message changes what belongs to its key -/
theorem entryAfter_snoc (pre : List RouteVal) (v k : RouteVal) : entryAfter nlHash t (pre ++ [v]) k =
    if nlObjectIdentical (routeOps nlHash) v k then notifiedEntry nlHash t (entryAfter nlHash t pre k) v
    else entryAfter nlHash t pre k := by
  unfold entryAfter
  rw [forKey_snoc, List.foldl_append]
  split_ifs
  · rfl
  · rfl

theorem live_snoc (pre : List RouteVal) (v k : RouteVal) : live nlHash (pre ++ [v]) k =
    if nlObjectIdentical (routeOps nlHash) v k then liveStep (live nlHash pre k) v else live nlHash pre k := by
  unfold live
  rw [forKey_snoc, List.foldl_append]
  split_ifs
  · rfl
  · rfl

/-- every key is as it should be after the messages -/
def AllTrack (nlHash : List UInt8 → ℕ) (t : ℕ) (vs : List RouteVal) : Prop :=
  ∀ k, Member RouteGood t k →
    Tracks (k.data.rtTable = RT_TABLE_LOCAL) (entryAfter nlHash t vs k) (live nlHash vs k)

theorem allTrack_nil (nlHash : List UInt8 → ℕ) (t : ℕ) : AllTrack nlHash t [] := fun _ _ =>
  tracks_none _

theorem AllTrack.snoc (h : AllTrack nlHash t pre) (hpre : ∀ u ∈ pre, Member RouteGood t u) {nh : RtnlNexthop}
    (hv : Notified t v nh) (hlegal : Announces nlHash pre v) (hsafe : Mergesafe nlHash pre v) :
    AllTrack nlHash t (pre ++ [v]) := by
  intro k hk
  by_cases hvk : nlObjectIdentical (routeOps nlHash) v k = true
  · rw [entryAfter_snoc, live_snoc, if_pos hvk, if_pos hvk]
    have htable : k.data.rtTable = v.data.rtTable := by
      have hkey := ((route_identical_iff nlHash v k).1 hvk).2.2
      simp only [routeKey, Prod.mk.injEq] at hkey
      exact hkey.2.2.2.1.symm
    have hkt := h k hk
    rw [htable] at hkt ⊢
    have hlive : live nlHash pre v = live nlHash pre k := by
      unfold live
      rw [forKey_congr hpre hv.member hk hvk]
    unfold Announces at hlegal
    unfold Mergesafe at hsafe
    rw [hlive] at hlegal hsafe
    have hmem : nh ∈ nexthops v := by
      rw [nexthops, hv.nexthops]
      exact List.mem_singleton_self nh
    rcases hv.msgtype with hnew | hdel
    · exact hkt.new hv hnew (fun x hx => hlegal.1 hnew x hx nh hmem) fun hne =>
        ⟨(hsafe hnew hne).1, (hsafe hnew hne).2 nh hmem⟩
    · obtain ⟨x, hx, hxnh⟩ := hlegal.2 hdel nh hmem
      exact hkt.del hv hdel hx hxnh
  · rw [entryAfter_snoc, live_snoc, if_neg hvk, if_neg hvk]
    exact h k hk

/-- the messages before, and the next one -/
theorem members_snoc (hpre : ∀ u ∈ pre, Member RouteGood t u) (hv : Member RouteGood t v) :
    ∀ u ∈ pre ++ [v], Member RouteGood t u := by
  intro u hu
  rcases List.mem_append.1 hu with hu | hu
  · exact hpre u hu
  · rw [List.mem_singleton.1 hu]
    exact hv

/-- **Every prefix**, if all nexthops can be merged -/
theorem AllTrack.along (h : AllTrack nlHash t pre) (hpre : ∀ u ∈ pre, Member RouteGood t u)
    (hvs : ∀ v ∈ vs, ∃ nh, Notified t v nh) (hlegal : Along (Announces nlHash) pre vs)
    (hsafe : Along (Mergesafe nlHash) pre vs) {q : List RouteVal} (hq : q <+: vs) : AllTrack nlHash t (pre ++ q) := by
  induction vs generalizing pre q with
  | nil =>
    rw [List.prefix_nil.1 hq, List.append_nil]
    exact h
  | cons v vs ih =>
    rcases List.prefix_cons_iff.1 hq with rfl | ⟨q', rfl, hq'⟩
    · rw [List.append_nil]
      exact h
    · obtain ⟨nh, hv⟩ := hvs v List.mem_cons_self
      have hrest := ih (h.snoc hpre hv hlegal.1 hsafe.1) (members_snoc hpre hv.member)
        (fun u hu => hvs u (List.mem_cons_of_mem v hu)) hlegal.2 hsafe.2 hq'
      rwa [List.append_assoc] at hrest

/-- **All nexthops can be merged**, if every prefix is as it should be -/
theorem mergesafe_along (hvs : ∀ v ∈ vs, ∃ nh, Notified t v nh)
    (h : ∀ q, q <+: vs → ∀ k, Member RouteGood t k →
      Tracked (entryAfter nlHash t (pre ++ q) k) (live nlHash (pre ++ q) k)) : Along (Mergesafe nlHash) pre vs := by
  induction vs generalizing pre with
  | nil => trivial
  | cons v vs ih =>
    obtain ⟨nh, hv⟩ := hvs v List.mem_cons_self
    refine ⟨fun hnew hne => ?_, ih (fun u hu => hvs u (List.mem_cons_of_mem v hu)) fun q hq k hk => ?_⟩
    · have hself : nlObjectIdentical (routeOps nlHash) v v = true :=
        (route_lawful nlHash t).refl v hv.member.type hv.member.good
      have hbefore := h [] List.nil_prefix v hv.member
      rw [List.append_nil] at hbefore
      have hafter := h [v] (List.prefix_cons_iff.2 (Or.inr ⟨[], rfl, List.nil_prefix⟩)) v hv.member
      rw [entryAfter_snoc, live_snoc, if_pos hself, if_pos hself] at hafter
      obtain ⟨htable, hclone⟩ := hbefore.mergesafe hv hnew hafter hne
      refine ⟨htable, fun x hx => ?_⟩
      rw [nexthops, hv.nexthops] at hx
      rw [List.mem_singleton.1 hx]
      exact hclone
    · rw [List.append_assoc]
      exact h (v :: q) (List.prefix_cons_iff.2 (Or.inr ⟨q, rfl, hq⟩)) k hk

end

/-- the cache after some notifications, by key -/
theorem entry_notified {nlHash : List UInt8 → ℕ} {w : Store RtnlRoute} {held : ObjId → ℕ} {c : CacheId} {t : ℕ}
    (h : Inv (routeOps nlHash) RouteGood w held) (hcops : (w.caches c).cOps = rtnlRouteOps t)
    (hempty : contents w c = []) {vs : List RouteVal} (hvs : ∀ v ∈ vs, ∃ nh, Notified t v nh) (cb : ChangeCb)
    {k : RouteVal} (hk : Member RouteGood t k) :
    entryOf (routeOps nlHash) (contents (notifyAll (routeOps nlHash) w c cb vs) c) k = entryAfter nlHash t vs k := by
  have hl := route_lawful nlHash t
  have htype : (w.caches c).cOps.coObjOps = t := by
    rw [hcops]
    rfl
  have hmember : ∀ v ∈ vs, Member RouteGood t v := by
    intro v hv
    obtain ⟨nh, hnh⟩ := hvs v hv
    exact hnh.member
  have hknown : ∀ v ∈ vs, Known (rtnlRouteOps t) v := by
    intro v hv
    obtain ⟨nh, hnh⟩ := hvs v hv
    rcases hnh.msgtype with hnew | hdel
    · exact Or.inl (actOf_new hnew)
    · exact Or.inr (actOf_del hdel)
  have hs : Sound (routeOps nlHash) RouteGood t (contents w c) := by
    rw [hempty]
    exact ⟨fun _ he => absurd he List.not_mem_nil, List.Pairwise.nil⟩
  obtain ⟨hb, -⟩ := h.notifiedAll (c := c) vs (fun v hv => ⟨⟨by rw [htype]; exact (hmember v hv).type,
    fun _ => by rw [htype]; exact hl, fun _ => (hmember v hv).good⟩, by rw [hcops]; exact hknown v hv⟩) cb
  rw [hb.contents, hcops, look_includeAll _ hl (route_keeps nlHash t).update hs hmember hk, hempty]
  rfl

/-- **Multipath routes are tracked.** From an empty cache, for notifications that announce nexthops which are not live and
withdraw live ones: after every prefix the cached route of every key has the live nexthops, and is there just when there
are some, if and only if every nexthop that is announced beside others can be merged with them. -/
theorem ecmp_tracked_iff {nlHash : List UInt8 → ℕ} {w : Store RtnlRoute} {held : ObjId → ℕ} {c : CacheId} {t : ℕ}
    (h : Inv (routeOps nlHash) RouteGood w held) (hcops : (w.caches c).cOps = rtnlRouteOps t)
    (hempty : contents w c = []) {vs : List RouteVal} (hvs : ∀ v ∈ vs, ∃ nh, Notified t v nh)
    (hlegal : Along (Announces nlHash) [] vs) (cb : ChangeCb) :
    (∀ q, q <+: vs → ∀ k, Member RouteGood t k →
        Tracked (entryOf (routeOps nlHash) (contents (notifyAll (routeOps nlHash) w c cb q) c) k) (live nlHash q k)) ↔
      Along (Mergesafe nlHash) [] vs := by
  have hentry : ∀ q, q <+: vs → ∀ k, Member RouteGood t k →
      entryOf (routeOps nlHash) (contents (notifyAll (routeOps nlHash) w c cb q) c) k = entryAfter nlHash t q k :=
    fun q hq k hk => entry_notified h hcops hempty (fun v hv => hvs v (hq.subset hv)) cb hk
  constructor
  · intro htracked
    refine mergesafe_along hvs fun q hq k hk => ?_
    rw [List.nil_append, ← hentry q hq k hk]
    exact htracked q hq k hk
  · intro hsafe q hq k hk
    rw [hentry q hq k hk]
    exact ((allTrack_nil nlHash t).along (fun _ hu => absurd hu List.not_mem_nil) hvs hlegal hsafe hq k hk).tracked

/-- two nexthops are announced, and the first is withdrawn -/
def sampleEcmp : List RouteVal :=
  [sampleRoute RTM_NEWROUTE (sampleNexthop 1), sampleRoute RTM_NEWROUTE (sampleNexthop 2),
    sampleRoute RTM_DELROUTE (sampleNexthop 1)]

theorem sampleEcmp_notified : ∀ v ∈ sampleEcmp, ∃ nh, Notified 0 v nh := by
  intro v hv
  fin_cases hv
  · exact ⟨_, sampleRoute_member _ _, rfl, by decide, rfl, nofun, Or.inl rfl⟩
  · exact ⟨_, sampleRoute_member _ _, rfl, by decide, rfl, nofun, Or.inl rfl⟩
  · exact ⟨_, sampleRoute_member _ _, rfl, by decide, rfl, nofun, Or.inr rfl⟩

theorem ecmp_tracked_iff_sample : (∀ q, q <+: sampleEcmp → ∀ k, Member RouteGood 0 k →
      Tracked (entryOf (routeOps sumHash) (contents (notifyAll (routeOps sumHash) sampleRoutes 0 .v1 q) 0) k)
        (live sumHash q k)) ↔
    Along (Mergesafe sumHash) [] sampleEcmp :=
  ecmp_tracked_iff (c := 0) sampleRoutes_inv rfl rfl sampleEcmp_notified
    ⟨by decide, by decide, by decide, trivial⟩ .v1

/-- the second nexthop has realms -/
def realmsNexthop : RtnlNexthop :=
  { sampleNexthop 2 with rtnhRealms := 7, ceMask := (sampleNexthop 2).ceMask ||| NH_ATTR_REALMS }

/-- it is announced beside another one, and withdrawn -/
def realmsEcmp : List RouteVal :=
  [sampleRoute RTM_NEWROUTE (sampleNexthop 1), sampleRoute RTM_NEWROUTE realmsNexthop,
    sampleRoute RTM_DELROUTE realmsNexthop]

/-- **A nexthop that is not withdrawn.** Nexthops are announced that are not live and withdrawn that are; in the end one
is live, and the cached route has two. -/
theorem ecmp_realms_lost : Along (Announces sumHash) [] realmsEcmp ∧
    live sumHash realmsEcmp (sampleRoute RTM_NEWROUTE (sampleNexthop 1)) = [sampleNexthop 1] ∧
    (contents (notifyAll (routeOps sumHash) sampleRoutes 0 .v1 realmsEcmp) 0).map (fun e => nexthops e.val) =
      [[sampleNexthop 1, rtnlRouteNhClone realmsNexthop]] ∧
    nhSame (rtnlRouteNhClone realmsNexthop) realmsNexthop = false := by
  refine ⟨⟨by decide, by decide, by decide, trivial⟩, by decide, by rfl, by decide⟩

end Libnl.Route
