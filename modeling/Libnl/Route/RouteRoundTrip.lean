/-
Routes with several nexthops, written and read again.

- `diff_zero`, `SameRoute.diff`: when two routes have no difference.
- `written_again`: a route that shows a content shows what comes back of it, when it has been written and read.
- `again_same`, `again_differs`: what is lost.
- `route_round_trip`: when routes come back with no difference.

Witnesses:
- `zero_realms_lost`: realms of zero are not written.
-/
import Mathlib.Tactic
import Libnl.Route.RouteFields

namespace Libnl.Route

open Bytes Walk Msg Attr AttrWalk AttrTree AttrStream Writer Fields
open Object Addr

section

variable [HostOrder]

/-! ## Differences -/

omit [HostOrder] in
theorem routeMask_cacheinfo : ∀ p s f i m n c t, routeMask p s f i m n c t ^^^ routeMask p s f i m n false t =
    if c then ROUTE_ATTR_CACHEINFO else 0 := by
  decide

omit [HostOrder] in
/-- two routes that are the same, but for their cache information -/
structure SameRoute (a b : RouteVal) : Prop where
  ops : a.ceOps = b.ceOps
  mask : ∀ attr, attr &&& ROUTE_ATTR_CACHEINFO = 0 → (a.ceMask ^^^ b.ceMask) &&& attr = 0
  family : a.data.rtFamily = b.data.rtFamily
  tos : a.data.rtTos = b.data.rtTos
  table : a.data.rtTable = b.data.rtTable
  protocol : a.data.rtProtocol = b.data.rtProtocol
  scope : a.data.rtScope = b.data.rtScope
  type : a.data.rtType = b.data.rtType
  flags : a.data.rtFlags = b.data.rtFlags
  prio : a.data.rtPrio = b.data.rtPrio
  dst : a.data.rtDst = b.data.rtDst
  src : a.data.rtSrc = b.data.rtSrc
  iif : a.data.rtIif = b.data.rtIif
  prefSrc : a.data.rtPrefSrc = b.data.rtPrefSrc
  ttl : a.data.rtTtlPropagate = b.data.rtTtlPropagate
  metrics : ∀ i, a.data.rtMetrics i = b.data.rtMetrics i
  metricsMask : ∀ i : Fin RTAX_MAX, a.data.rtMetricsMask.getLsbD i = b.data.rtMetricsMask.getLsbD i
  nexthops : a.data.rtNexthops = b.data.rtNexthops

omit [HostOrder] in
theorem SameRoute.diff {a b : RouteVal} (h : SameRoute a b) (nlHash : List UInt8 → ℕ) :
    nlObjectDiff64 (routeOps nlHash) a b = 0 := by
  have hzero : ∀ attr, attr &&& ROUTE_ATTR_CACHEINFO = 0 → attrDiff (BitVec.allOnes 64) attr a b false = 0 := by
    intro attr hattr
    rw [attrDiff, if_neg]
    rintro ⟨-, hx | ⟨-, hfalse⟩⟩
    · exact hx (h.mask attr hattr)
    · exact Bool.false_ne_true hfalse
  have hsame : ∀ nh : RtnlNexthop, nhSame nh nh = true := fun nh => (nhSame_iff nh nh).2 rfl
  have hnexthops : nhMismatch a.data b.data = false := by
    have hfound : (b.data.rtNexthops.all fun x => b.data.rtNexthops.any fun y => nhSame x y) = true :=
      List.all_eq_true.2 fun x hx => List.any_eq_true.2 ⟨x, hx, hsame x⟩
    have hfound' : (b.data.rtNexthops.all fun y => b.data.rtNexthops.any fun x => nhSame x y) = true :=
      List.all_eq_true.2 fun x hx => List.any_eq_true.2 ⟨x, hx, hsame x⟩
    rw [nhMismatch, h.nexthops, hfound, hfound']
    simp
  have hmetrics : metricsDiffer a.data b.data = false := by
    rw [metricsDiffer, List.any_eq_false]
    intro i _
    simp [h.metrics i, h.metricsMask i]
  have haddr : ∀ x : Option NlAddr, nlAddrCmp x x = false := fun x => (nlAddrCmp_eq_false_iff x x).2 rfl
  rw [nlObjectDiff64, if_neg (not_not.2 h.ops)]
  show routeCompare a b (BitVec.allOnes 64) 0 = 0
  rw [routeCompare, if_neg (by decide), hnexthops, hmetrics, h.family, h.tos, h.table, h.protocol, h.scope, h.type, h.flags,
    h.prio, h.dst, h.src, h.iif, h.prefSrc, h.ttl]
  simp (disch := decide) only [ne_eq, not_true_eq_false, decide_false, haddr, hzero, Bool.false_eq_true, if_false]
  decide

/-! ## Round trip -/

omit [HostOrder] in
/-- the nexthops have no realms, or some that are not zero -/
def RealmsGiven (r : RouteVal) : Prop := ∀ nh ∈ r.data.rtNexthops, nh.ceMask &&& NH_ATTR_REALMS ≠ 0 → nh.rtnhRealms ≠ 0

omit [HostOrder] in
theorem nhMask_realms : ∀ g n v e, nhMask g true n v e &&& NH_ATTR_REALMS ≠ 0 := by decide

omit [HostOrder] in
theorem again_hasPrio (c : RouteContent) : c.again.hasPrio = c.hasPrio := by
  have hagain : c.again.hasPrio = (decide (c.rtm.rtmFamily ≠ AF_MPLS) || c.hasPrio) := by
    rw [RouteContent.hasPrio, RouteContent.again]
    cases c.hasPrio with
    | true => rfl
    | false => rfl
  rw [hagain, RouteContent.hasPrio, ← Bool.or_assoc, Bool.or_self]

omit [HostOrder] in
/-- a nexthop without realms that are zero comes back as it was -/
theorem again_nexthops {c : RouteContent} {r : RouteVal} (h : Shows c r) (hrealms : RealmsGiven r) :
    c.nexthops.map NhContent.again = c.nexthops := by
  refine (List.map_congr_left (g := id) fun x hx => ?_).trans (List.map_id _)
  have hmem : x.nexthop c.rtm.rtmFamily ∈ r.data.rtNexthops := by
    rw [h.nexthops]
    exact List.mem_map_of_mem hx
  cases hv : x.realms with
  | none =>
    rw [NhContent.again, hv, Option.filter_none, ← hv]
    rfl
  | some v =>
    have hne : v ≠ 0 := by
      have hgiven := hrealms _ hmem
      simp only [NhContent.nexthop, hv, Option.isSome_some, Option.getD_some] at hgiven
      exact hgiven (nhMask_realms _ _ _ _)
    rw [NhContent.again, hv, Option.filter, if_pos (decide_eq_true hne), ← hv]
    rfl

omit [HostOrder] in
theorem again_table (c : RouteContent) (hmpls : c.rtm.rtmFamily = AF_MPLS → c.tableOf.toNat < 256) :
    c.again.tableOf = c.tableOf := by
  rw [RouteContent.tableOf, RouteContent.again]
  by_cases hfamily : c.rtm.rtmFamily = AF_MPLS
  · have hlt := hmpls hfamily
    simp only [hfamily, if_true, Option.getD_none]
    refine BitVec.eq_of_toNat_eq ?_
    rw [BitVec.toNat_setWidth, BitVec.toNat_setWidth]
    omega
  · simp only [hfamily, if_false, Option.getD_some]

omit [HostOrder] in
/-- the attributes are the same, but for the cache information -/
theorem again_mask {c : RouteContent} {r' : RouteVal} (h' : Shows c.again r') :
    r'.ceMask = routeMask c.hasPrio c.src.isSome c.prefSrc.isSome c.iif.isSome c.hasMetrics (!c.nexthops.isEmpty) false
      c.ttlPropagate.isSome := by
  have hempty : c.again.nexthops.isEmpty = c.nexthops.isEmpty := List.isEmpty_map
  rw [h'.mask, again_hasPrio, hempty]
  rfl

omit [HostOrder] in
/-- **What comes back** is the same route. -/
theorem again_same {c : RouteContent} {r r' : RouteVal} (h : Shows c r) (h' : Shows c.again r') (hrealms : RealmsGiven r)
    (htable : r.data.rtFamily = AF_MPLS → r.data.rtTable.toNat < 256) : SameRoute r r' where
  ops := h.ops.trans h'.ops.symm
  mask attr hattr := by
    rw [h.mask, again_mask h', routeMask_cacheinfo]
    split_ifs
    · rw [BitVec.and_comm, hattr]
    · exact BitVec.zero_and
  family := h.family.trans h'.family.symm
  tos := h.tos.trans h'.tos.symm
  table := by
    have hmpls : c.rtm.rtmFamily = AF_MPLS → c.tableOf.toNat < 256 := by
      rw [← h.family, RouteContent.tableOf, ← h.table]
      exact htable
    exact (h.table.trans (again_table c hmpls).symm).trans h'.table.symm
  protocol := h.protocol.trans h'.protocol.symm
  scope := h.scope.trans h'.scope.symm
  type := h.type.trans h'.type.symm
  flags := h.flags.trans h'.flags.symm
  prio := by
    rw [h.prio, h'.prio, RouteContent.again]
    cases hprio : c.hasPrio with
    | true => rfl
    | false =>
      have hsome : c.prio.isSome = false := (Bool.or_eq_false_iff.1 hprio).2
      have hnone : c.prio = none := Option.isSome_eq_false_iff.1 hsome |> Option.isNone_iff_eq_none.1
      rw [hnone]
      rfl
  dst := by
    have hbytes : c.again.dst.getD [] = c.dst.getD [] := by
      rw [RouteContent.again]
      cases c.dst with
      | none => rfl
      | some a =>
        by_cases ha : a = []
        · rw [ha]
          rfl
        · simp [Option.filter, ha]
    rw [h.dst, h'.dst, hbytes]
    rfl
  src := by
    rw [h.src, h'.src, RouteContent.again]
    cases c.src with
    | none => rfl
    | some a => rfl
  iif := h.iif.trans h'.iif.symm
  prefSrc := h.prefSrc.trans h'.prefSrc.symm
  ttl := h.ttl.trans h'.ttl.symm
  metrics i := (h.metrics i).trans (h'.metrics i).symm
  metricsMask i := (h.metricsMask i).trans (h'.metricsMask i).symm
  nexthops := by
    have hagain : c.again.nexthops = c.nexthops := again_nexthops h hrealms
    rw [h.nexthops, h'.nexthops, hagain]
    rfl

omit [HostOrder] in
/-- what it means that there is no difference in the table and in the nexthops -/
theorem diff_zero {a b : RouteVal} (nlHash : List UInt8 → ℕ) (hops : a.ceOps = b.ceOps)
    (h : nlObjectDiff64 (routeOps nlHash) a b = 0) :
    attrDiff (BitVec.allOnes 64) ROUTE_ATTR_TABLE a b (decide (a.data.rtTable ≠ b.data.rtTable)) = 0 ∧
      (nhMismatch a.data b.data = true → attrDiff (BitVec.allOnes 64) ROUTE_ATTR_MULTIPATH a b true = 0) := by
  rw [nlObjectDiff64, if_neg (not_not.2 hops)] at h
  have hcmp : routeCompare a b (BitVec.allOnes 64) 0 = 0 := h
  rw [routeCompare, if_neg (by decide)] at hcmp
  split_ifs at hcmp with hmismatch
  · simp only [BitVec.ofNat_eq_ofNat, BitVec.or_eq_zero_iff, and_assoc] at hcmp
    exact ⟨hcmp.2.2.1, fun _ => hcmp.2.2.2.2.2.2.2.2.2.2.2.2⟩
  · simp only [BitVec.ofNat_eq_ofNat, BitVec.or_eq_zero_iff, and_assoc] at hcmp
    exact ⟨hcmp.2.2.1, fun hyes => absurd hyes hmismatch⟩

omit [HostOrder] in
/-- both routes have a table, and nexthops if there are some -/
theorem routeMask_both :
    (∀ p s f i m n c t, routeMask p s f i m n c t &&& routeMask p s f i m n false t &&& ROUTE_ATTR_TABLE ≠ 0) ∧
      ∀ p s f i m c t, routeMask p s f i m true c t &&& routeMask p s f i m true false t &&& ROUTE_ATTR_MULTIPATH ≠ 0 := by
  decide

omit [HostOrder] in
theorem attrDiff_shared {attr : BitVec 64} {a b : RouteVal} {differ : Bool} (hattr : BitVec.allOnes 64 &&& attr ≠ 0)
    (hboth : a.ceMask &&& b.ceMask &&& attr ≠ 0) (h : attrDiff (BitVec.allOnes 64) attr a b differ = 0) : differ = false := by
  cases differ with
  | false => rfl
  | true =>
    rw [attrDiff, if_pos ⟨hattr, Or.inr ⟨hboth, rfl⟩⟩] at h
    rw [h] at hattr
    exact absurd BitVec.and_zero hattr

omit [HostOrder] in
/-- the realms of a nexthop, as they are compared -/
theorem carried_realms (family : BitVec 8) (x : NhContent) :
    carried (x.nexthop family) NH_ATTR_REALMS (x.nexthop family).rtnhRealms = x.realms := by
  have hnot : ∀ g n v e, nhMask g false n v e &&& NH_ATTR_REALMS = 0 := by decide
  rw [carried, NhContent.nexthop]
  cases x.realms with
  | none => rw [Option.isSome_none, if_pos (hnot _ _ _ _)]
  | some v =>
    rw [Option.isSome_some, if_neg (nhMask_realms _ _ _ _)]
    rfl

omit [HostOrder] in
/-- **What is lost.** If there is no difference, then no nexthop had realms of zero and the table was one that can be said. -/
theorem again_differs {c : RouteContent} {r r' : RouteVal} (h : Shows c r) (h' : Shows c.again r')
    (nlHash : List UInt8 → ℕ) (hdiff : nlObjectDiff64 (routeOps nlHash) r r' = 0) :
    RealmsGiven r ∧ (r.data.rtFamily = AF_MPLS → r.data.rtTable.toNat < 256) := by
  obtain ⟨htable, hnexthops⟩ := diff_zero nlHash (h.ops.trans h'.ops.symm) hdiff
  refine ⟨fun nh hnh hgiven hzero => ?_, fun hmpls => ?_⟩
  · have hsame : nhMismatch r.data r'.data = false := by
      refine Bool.eq_false_iff.2 fun hyes => ?_
      have hboth : r.ceMask &&& r'.ceMask &&& ROUTE_ATTR_MULTIPATH ≠ 0 := by
        rw [h.mask, again_mask h']
        cases hnhs : c.nexthops with
        | nil =>
          rw [h.nexthops, hnhs] at hnh
          cases hnh
        | cons x xs => exact routeMask_both.2 _ _ _ _ _ _ _
      exact absurd (attrDiff_shared (by decide) hboth (hnexthops hyes)) (by decide)
    rw [nhMismatch, Bool.or_eq_false_iff, Bool.or_eq_false_iff, Bool.not_eq_false'] at hsame
    have hall := List.all_eq_true.1 hsame.1.2 nh hnh
    obtain ⟨nh', hnh', hkey⟩ := List.any_eq_true.1 hall
    have hrealms := congrArg (fun k => k.2.2.1) ((nhSame_iff nh nh').1 hkey)
    dsimp only [nhKey] at hrealms
    rw [h'.nexthops] at hnh'
    obtain ⟨y, hy, rfl⟩ := List.mem_map.1 hnh'
    obtain ⟨x, -, rfl⟩ := List.mem_map.1 hy
    rw [carried_realms, carried, if_neg hgiven, hzero] at hrealms
    exact (Option.mem_filter_iff.1 hrealms.symm).2 |> of_decide_eq_true |> absurd rfl
  · have hboth : r.ceMask &&& r'.ceMask &&& ROUTE_ATTR_TABLE ≠ 0 := by
      rw [h.mask, again_mask h']
      exact routeMask_both.1 _ _ _ _ _ _ _ _
    have hsame := of_decide_eq_false (attrDiff_shared (by decide) hboth htable)
    rw [not_not, h'.table] at hsame
    have hfamily : c.rtm.rtmFamily = AF_MPLS := h.family.symm.trans hmpls
    have hagain : c.again.table = none := if_pos hfamily
    rw [hsame, hagain, Option.getD_none, BitVec.toNat_setWidth]
    exact Nat.lt_of_le_of_lt (Nat.mod_le _ _) (BitVec.isLt _)

/-- **Written and read again**, a route shows what comes back of its content. -/
theorem written_again {pton : ℕ → List UInt8 → Bool} {c : RouteContent} {r : RouteVal} {n : ℕ} {m : NlMsg} (h : Shows c r)
    (hc : c.Valid pton) (hn : c.nexthops.length < n) (hmany : 1 < r.data.rtNexthops.length)
    (hfit : 4 + (nhImages r.data.rtNexthops).length ≤ 65535) (hm : Fresh m)
    (hroom : 16 + (routeImage r (dstAddr c)).length ≤ m.nmSize) :
    ∃ m' r', rtnlRouteBuildMsg m r = (m', 0) ∧ rtnlRouteParse pton n m' = .ok r' ∧ Shows c.again r' := by
  have hfits := again_fits h hfit
  have hsend := routeFields_sendable hc.again hfits
  have hlong := hsend.length_le
  have hlength : (routeFields c.again).length = 9 := rfl
  have himage := routeImage_fields h hmany
  have hroom' : Room m (routeImage r (dstAddr c)).length := by
    refine ⟨by rw [hm.len]; exact hroom, ?_⟩
    rw [hm.len, himage, List.length_append, rtMsg_length]
    omega
  obtain ⟨m', hbuild, hw⟩ := build_room (tidy_of_fresh hm) (writable h hmany hc hfit) hfit hroom'
  rw [himage] at hw
  obtain ⟨tb, hparse, hidx, hhdr⟩ := parse_message RTA_MAX hm.len (by rw [rtMsg_length]) hsend.wf (hsend.valid RTA_MAX) hw
  rw [rtMsg_length] at hparse
  have hcarried : c.again.Carried := by
    refine ⟨fun hnone => ?_, rfl⟩
    have hsrc : c.src = none := hnone
    rw [RouteContent.again, hsrc]
    rfl
  obtain ⟨r', hread, hshows⟩ := parse_fields hc.again hcarried (by rwa [RouteContent.again, List.length_map]) hfits hparse
    hidx hhdr
  exact ⟨m', r', hbuild, hread, hshows⟩

/-- **Routes with several nexthops** come back from a message with no difference, if and only if no nexthop has realms that are
zero and, for a route of MPLS, the table fits into the header. -/
theorem route_round_trip {pton : ℕ → List UInt8 → Bool} {n : ℕ} {nlh : NlMsg} {r : RouteVal}
    (hparse : rtnlRouteParse pton n nlh = .ok r) (hmany : 1 < rtnlRouteGetNnexthops r)
    (hfit : 4 + (nhImages r.data.rtNexthops).length ≤ 65535) {m : NlMsg} (hm : Fresh m)
    (hroom : ∀ dst ∈ r.data.rtDst, 16 + (routeImage r dst).length ≤ m.nmSize) (nlHash : List UInt8 → ℕ) :
    ∃ m' r', rtnlRouteBuildMsg m r = (m', 0) ∧ rtnlRouteParse pton n m' = .ok r' ∧
      (nlObjectDiff64 (routeOps nlHash) r r' = 0 ↔
        RealmsGiven r ∧ (r.data.rtFamily = AF_MPLS → r.data.rtTable.toNat < 256)) := by
  have hlen : 1 < r.data.rtNexthops.length := by
    rw [rtnlRouteGetNnexthops] at hmany
    split_ifs at hmany with hbit
    · exact hmany
    · exact absurd hmany (by decide)
  obtain ⟨c, hshows, hc, hn⟩ := parse_shows hparse hlen
  obtain ⟨m', r', hbuild, hread, hagain⟩ := written_again hshows hc hn hlen hfit hm (hroom (dstAddr c) hshows.dst)
  refine ⟨m', r', hbuild, hread, ⟨again_differs hshows hagain nlHash, ?_⟩⟩
  rintro ⟨hrealms, htable⟩
  exact (again_same hshows hagain hrealms htable).diff nlHash

/-- the image of a route is not long -/
theorem routeImage_length_le {pton : ℕ → List UInt8 → Bool} {c : RouteContent} {r : RouteVal} (h : Shows c r)
    (hc : c.Valid pton) (hmany : 1 < r.data.rtNexthops.length) (hfit : 4 + (nhImages r.data.rtNexthops).length ≤ 65535) :
    (routeImage r (dstAddr c)).length ≤ 600000 := by
  have hlong := (routeFields_sendable hc.again (again_fits h hfit)).length_le
  have hlength : (routeFields c.again).length = 9 := rfl
  rw [routeImage_fields h hmany, List.length_append, rtMsg_length]
  omega

/-- a message with this content -/
theorem content_read {pton : ℕ → List UInt8 → Bool} {c : RouteContent} {n : ℕ} (hc : c.Valid pton) (hcarried : c.Carried)
    (hn : c.nexthops.length < n) (hfit : 4 + (nhsBytes c.nexthops).length ≤ 65535) :
    ∃ m nlh r, Fresh m ∧ 700000 ≤ m.nmSize ∧ rtnlRouteParse pton n nlh = .ok r ∧ Shows c r := by
  have hsend := routeFields_sendable hc hfit
  have hlong := hsend.length_le
  have hlength : (routeFields c).length = 9 := rfl
  have hroom : 16 + (c.rtm.bytes ++ encLeaves (leavesOf (routeFields c))).length ≤ 700000 := by
    rw [List.length_append, rtMsg_length]
    omega
  have hsize : 700000 ≤ PTRDIFF_MAX := by
    rw [PTRDIFF_MAX]
    omega
  obtain ⟨m, nlh, tb, halloc, -, hparse, hidx, hhdr⟩ := fields_written (-NLE_MSGSIZE) RTA_MAX RTM_NEWROUTE.toNat 0
    (by rw [rtMsg_length]) hsend (by rw [rtMsg_length, hlength]; decide) hsize hroom
  rw [rtMsg_length] at hparse
  obtain ⟨m', halloc', hfresh, hle, -⟩ := allocSimple_some (t := RTM_NEWROUTE.toNat) (f := 0) hsize
  obtain ⟨r, hread, hshows⟩ := parse_fields hc hcarried hn hfit hparse hidx hhdr
  exact ⟨m', nlh, r, hfresh, hle, hread, hshows⟩

end

/-! ## Samples -/

local instance roundTripOrder : HostOrder := ⟨false⟩

def multiNh (ifindex : BitVec 32) (realms : Option (BitVec 32)) : NhContent :=
  ⟨0, 1, ifindex, some [10, 0, 0, 1], realms, none, none, none⟩

/-- a route with a metric and two nexthops -/
def multiRoute (family : BitVec 8) (table : BitVec 32) (realms : Option (BitVec 32)) : RouteContent where
  rtm := ⟨family, 24, 0, 0, 254, 2, 0, 1, 0⟩
  table := some table
  prio := some 5
  iif := some 1
  dst := some [10, 0, 0, 0]
  src := none
  prefSrc := some [10, 0, 0, 9]
  ttlPropagate := none
  metrics i := if i.val = 1 then some 1400 else none
  nexthops := [multiNh 1 realms, multiNh 2 (some 7)]
  cacheinfo := false

theorem multiRoute_valid (family : BitVec 8) (table : BitVec 32) (realms : Option (BitVec 32)) :
    (multiRoute family table realms).Valid fun _ _ => true where
  dst a ha := by
    cases ha
    decide
  src a ha := by cases ha
  family a ha := by cases ha
  prefSrc a ha := by
    cases ha
    decide
  nexthops x hx := by
    have hnone : x.newdst = none ∧ x.via = none ∧ x.encap = none := by
      rcases List.mem_pair.1 hx with rfl | rfl
      · exact ⟨rfl, rfl, rfl⟩
      · exact ⟨rfl, rfl, rfl⟩
    refine ⟨fun a ha => ?_, fun a ha => ?_, fun a ha => ?_, fun a ha => ?_⟩
    · rw [hnone.1] at ha
      cases ha
    · rw [hnone.2.1] at ha
      cases ha
    · rw [hnone.2.2] at ha
      cases ha
    · rw [hnone.2.2] at ha
      cases ha

theorem multiNh_length (ifindex : BitVec 32) (realms : Option (BitVec 32)) :
    (nhBytes (multiNh ifindex realms)).length ≤ 56 := by
  have hle : (encLeaves (leavesOf (nhFieldList (multiNh ifindex realms)))).length ≤ 48 := by
    refine fields_length_le (n := 4) fun f hf p hp => ?_
    simp only [nhFieldList, multiNh, List.mem_cons, List.not_mem_nil, or_false, Option.map_none] at hf
    rcases hf with rfl | rfl | rfl | rfl | rfl | rfl
    · cases hp
      decide
    · cases hp
    · cases hp
    · obtain ⟨v, -, rfl⟩ := Option.mem_map.1 hp
      exact (u32Bytes_length _).le
    · cases hp
    · cases hp
  rw [nhBytes_length]
  exact Nat.add_le_add_left hle 8

theorem multiNhs_fit (realms : Option (BitVec 32)) :
    4 + (nhsBytes [multiNh 1 realms, multiNh 2 (some 7)]).length ≤ 65535 := by
  have hone := multiNh_length 1 realms
  have htwo := multiNh_length 2 (some 7)
  rw [nhsBytes_cons, nhsBytes_cons, List.length_append, List.length_append, nhsBytes, List.flatMap_nil, List.length_nil]
  omega

/-- the route is in some message, and it can be written -/
theorem multiRoute_read (family : BitVec 8) (table : BitVec 32) (realms : Option (BitVec 32)) :
    ∃ m nlh r, Fresh m ∧ rtnlRouteParse (fun _ _ => true) 3 nlh = .ok r ∧ Shows (multiRoute family table realms) r ∧
      rtnlRouteGetNnexthops r = 2 ∧ 4 + (nhImages r.data.rtNexthops).length ≤ 65535 ∧
      ∀ dst ∈ r.data.rtDst, 16 + (routeImage r dst).length ≤ m.nmSize := by
  have hvalid := multiRoute_valid family table realms
  obtain ⟨m, nlh, r, hm, hsize, hparse, hshows⟩ := content_read hvalid ⟨fun _ => rfl, rfl⟩ (n := 3) (Nat.lt_succ_self 2)
    (multiNhs_fit realms)
  have hlen : r.data.rtNexthops.length = 2 := by
    rw [hshows.nexthops, List.length_map]
    rfl
  have hbit : r.ceMask &&& ROUTE_ATTR_MULTIPATH ≠ 0 := by
    refine of_decide_eq_true ?_
    rw [hshows.mask, routeMask_bits.2.2.2.2.1]
    rfl
  have hfit : 4 + (nhImages r.data.rtNexthops).length ≤ 65535 := by
    rw [hshows.nexthops, nhImages_content]
    exact multiNhs_fit (realms.filter fun v => decide (v ≠ 0))
  refine ⟨m, nlh, r, hm, hparse, hshows, by rw [rtnlRouteGetNnexthops, if_pos hbit, hlen], hfit, fun dst hdst => ?_⟩
  rw [hshows.dst] at hdst
  cases hdst
  have himage := routeImage_length_le hshows hvalid (by rw [hlen]; exact Nat.lt_succ_self 1) hfit
  exact (Nat.add_le_add_left himage 16).trans (le_trans (by omega) hsize)

/-- the route is written and read again -/
theorem multiRoute_again (family : BitVec 8) (table : BitVec 32) (realms : Option (BitVec 32)) :
    ∃ m nlh r m' r', Fresh m ∧ rtnlRouteParse (fun _ _ => true) 3 nlh = .ok r ∧
      Shows (multiRoute family table realms) r ∧ rtnlRouteGetNnexthops r = 2 ∧ rtnlRouteBuildMsg m r = (m', 0) ∧
      rtnlRouteParse (fun _ _ => true) 3 m' = .ok r' ∧
      Shows (multiRoute family table realms).again r' := by
  obtain ⟨m, nlh, r, hm, hparse, hshows, hcount, hfit, hroom⟩ := multiRoute_read family table realms
  have hlen : r.data.rtNexthops.length = 2 := by
    rw [hshows.nexthops, List.length_map]
    rfl
  obtain ⟨m', r', hbuild, hread, hagain⟩ := written_again hshows (multiRoute_valid family table realms) (Nat.lt_succ_self 2)
    (by rw [hlen]; exact Nat.lt_succ_self 1) hfit hm (hroom _ hshows.dst)
  exact ⟨m, nlh, r, m', r', hm, hparse, hshows, hcount, hbuild, hread, hagain⟩

/-- a route in table 1000, with realms for both nexthops -/
theorem route_round_trip_sample : ∃ m nlh r m' r', Fresh m ∧ rtnlRouteParse (fun _ _ => true) 3 nlh = .ok r ∧
    Shows (multiRoute AF_INET 1000 (some 5)) r ∧ rtnlRouteBuildMsg m r = (m', 0) ∧
    rtnlRouteParse (fun _ _ => true) 3 m' = .ok r' ∧ nlObjectDiff64 (routeOps fun _ => 0) r r' = 0 := by
  obtain ⟨m, nlh, r, hm, hparse, hshows, hcount, hfit, hroom⟩ := multiRoute_read AF_INET 1000 (some 5)
  obtain ⟨m', r', hbuild, hread, hdiff⟩ := route_round_trip hparse (by rw [hcount]; exact Nat.lt_succ_self 1) hfit hm hroom
    fun _ => 0
  refine ⟨m, nlh, r, m', r', hm, hparse, hshows, hbuild, hread, hdiff.2 ⟨fun nh hnh _ => ?_, fun hmpls => ?_⟩⟩
  · rw [hshows.nexthops] at hnh
    obtain ⟨x, hx, rfl⟩ := List.mem_map.1 hnh
    rcases List.mem_pair.1 hx with rfl | rfl
    · show (5 : BitVec 32) ≠ 0
      decide
    · show (7 : BitVec 32) ≠ 0
      decide
  · rw [hshows.family] at hmpls
    exact absurd hmpls (show AF_INET ≠ AF_MPLS by decide)

/-- **Realms of zero** are not written: the first nexthop has an attribute less when it is read again. -/
theorem zero_realms_lost : ∃ m nlh r m' r', Fresh m ∧ rtnlRouteParse (fun _ _ => true) 3 nlh = .ok r ∧
    Shows (multiRoute AF_INET 1000 (some 0)) r ∧ rtnlRouteGetNnexthops r = 2 ∧ rtnlRouteBuildMsg m r = (m', 0) ∧
    rtnlRouteParse (fun _ _ => true) 3 m' = .ok r' ∧ nlObjectDiff64 (routeOps fun _ => 0) r r' ≠ 0 := by
  obtain ⟨m, nlh, r, m', r', hm, hparse, hshows, hcount, hbuild, hread, hagain⟩ := multiRoute_again AF_INET 1000 (some 0)
  refine ⟨m, nlh, r, m', r', hm, hparse, hshows, hcount, hbuild, hread, fun hdiff => ?_⟩
  have hmem : (multiNh 1 (some 0)).nexthop AF_INET ∈ r.data.rtNexthops := by
    rw [hshows.nexthops]
    exact List.mem_map_of_mem List.mem_cons_self
  exact (again_differs hshows hagain _ hdiff).1 _ hmem (nhMask_realms _ _ _ _) rfl

end Libnl.Route
