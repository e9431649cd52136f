/-
Routes (`lib/route/route_obj.c`): identity, comparison and update.

A route is identified by family, TOS, table, destination and, unless it is an MPLS route, priority. `route_compare` looks
at the nexthops whatever it is asked for, but reports a difference in them only as `ROUTE_ATTR_MULTIPATH`, so they have
no part in the identity (`route_identical_iff`).

IPv6 multipath routes come as one message for every nexthop. `route_update` collects them in one object: a new route
with one nexthop that has a gateway adds a clone of the nexthop to the route that is there, and its deletion takes the
nexthop out, as long as another one is left. `Mergeable` is what a message must be for this.

The counter `rt_nr_nh` is the length of the list.
-/
import Mathlib.Tactic
import Libnl.Cache.Object
import Libnl.Route.Nexthop

namespace Libnl.Route

open Object Addr

def ROUTE_ATTR_FAMILY : BitVec 64 := 0x1
def ROUTE_ATTR_TOS : BitVec 64 := 0x2
def ROUTE_ATTR_TABLE : BitVec 64 := 0x4
def ROUTE_ATTR_PROTOCOL : BitVec 64 := 0x8
def ROUTE_ATTR_SCOPE : BitVec 64 := 0x10
def ROUTE_ATTR_TYPE : BitVec 64 := 0x20
def ROUTE_ATTR_FLAGS : BitVec 64 := 0x40
def ROUTE_ATTR_DST : BitVec 64 := 0x80
def ROUTE_ATTR_SRC : BitVec 64 := 0x100
def ROUTE_ATTR_IIF : BitVec 64 := 0x200
def ROUTE_ATTR_PRIO : BitVec 64 := 0x1000
def ROUTE_ATTR_PREF_SRC : BitVec 64 := 0x2000
def ROUTE_ATTR_METRICS : BitVec 64 := 0x4000
def ROUTE_ATTR_MULTIPATH : BitVec 64 := 0x8000
def ROUTE_ATTR_CACHEINFO : BitVec 64 := 0x20000
def ROUTE_ATTR_TTL_PROPAGATE : BitVec 64 := 0x40000

def AF_INET : BitVec 8 := 2
def AF_INET6 : BitVec 8 := 10
def AF_MPLS : BitVec 8 := 28
def RT_TABLE_LOCAL : BitVec 32 := 255
def RTAX_MAX : ℕ := 17
def RTM_NEWROUTE : ℤ := 24
def RTM_DELROUTE : ℤ := 25
def RTM_GETROUTE : ℤ := 26

/-- `struct rtnl_route`, less the lengths that are kept in the addresses and the cache information -/
structure RtnlRoute where
  rtFamily : BitVec 8
  rtTos : BitVec 8
  rtProtocol : BitVec 8
  rtScope : BitVec 8
  rtType : BitVec 8
  rtNmetrics : BitVec 8
  rtTtlPropagate : BitVec 8
  rtFlags : BitVec 32
  rtDst : Option NlAddr
  rtSrc : Option NlAddr
  rtTable : BitVec 32
  rtIif : BitVec 32
  rtPrio : BitVec 32
  rtMetrics : Fin RTAX_MAX → BitVec 32
  rtMetricsMask : BitVec 32
  rtPrefSrc : Option NlAddr
  rtNexthops : List RtnlNexthop
  rtFlagMask : BitVec 32
deriving DecidableEq

abbrev RouteVal := ObjVal RtnlRoute

/-! ## Nexthops -/

def rtnlRouteGetNnexthops (r : RouteVal) : ℕ :=
  if r.ceMask &&& ROUTE_ATTR_MULTIPATH ≠ 0 then r.data.rtNexthops.length else 0

def rtnlRouteNexthopN (r : RouteVal) (n : ℕ) : Option RtnlNexthop :=
  if r.ceMask &&& ROUTE_ATTR_MULTIPATH ≠ 0 then r.data.rtNexthops[n]? else none

def rtnlRouteAddNexthop (r : RouteVal) (nh : RtnlNexthop) : RouteVal :=
  { r with
    ceMask := r.ceMask ||| ROUTE_ATTR_MULTIPATH
    data := { r.data with rtNexthops := r.data.rtNexthops ++ [nh] } }

/-- the search in `route_update`, and `rtnl_route_remove_nexthop` of what it finds -/
def removeMatching (r : RouteVal) (nh : RtnlNexthop) : RouteVal :=
  if r.ceMask &&& ROUTE_ATTR_MULTIPATH ≠ 0 then
    { r with data := { r.data with rtNexthops := r.data.rtNexthops.eraseP fun old => nhSame old nh } }
  else r

/-! ## Operations -/

/-- `route_clone` -/
def routeClone (src : RouteVal) : RouteVal :=
  { src with
    ceMask := if src.data.rtNexthops = [] then src.ceMask else src.ceMask ||| ROUTE_ATTR_MULTIPATH
    data := { src.data with rtNexthops := src.data.rtNexthops.map rtnlRouteNhClone } }

/-- the bytes of a 32-bit field of the hash key -/
def keyBytes (n : BitVec 32) : List UInt8 :=
  [UInt8.ofNat n.toNat, UInt8.ofNat (n.toNat / 256), UInt8.ofNat (n.toNat / 65536), UInt8.ofNat (n.toNat / 16777216)]

/-- `route_keygen`; the hash of a byte string is a parameter -/
def routeKeygen (nlHash : List UInt8 → ℕ) (r : RouteVal) (tableSz : ℕ) : ℕ :=
  let key := [UInt8.ofNat r.data.rtFamily.toNat, UInt8.ofNat r.data.rtTos.toNat] ++ keyBytes r.data.rtTable ++
    keyBytes r.data.rtPrio ++ (r.data.rtDst.map NlAddr.aAddr).getD []
  nlHash key % tableSz

/-- `oo_id_attrs` of routes -/
def routeIdAttrs : BitVec 32 :=
  (ROUTE_ATTR_FAMILY ||| ROUTE_ATTR_TOS ||| ROUTE_ATTR_TABLE ||| ROUTE_ATTR_DST ||| ROUTE_ATTR_PRIO).setWidth 32

/-- `route_id_attrs_get`: MPLS does not allow a priority -/
def routeIdAttrsGet (r : RouteVal) : BitVec 32 :=
  if r.data.rtFamily = AF_MPLS then routeIdAttrs &&& ~~~( ROUTE_ATTR_PRIO.setWidth 32) else routeIdAttrs

/-- some nexthop of the filter is not found -/
def nhMismatchLoose (a b : RtnlRoute) : Bool :=
  !b.rtNexthops.all fun nhB => a.rtNexthops.any fun nhA => decide (rtnlRouteNhCompare nhA nhB nhB.ceMask true = 0)

/-- the routes have different nexthops -/
def nhMismatch (a b : RtnlRoute) : Bool :=
  decide (a.rtNexthops.length ≠ b.rtNexthops.length) ||
    !(a.rtNexthops.all fun nhA => b.rtNexthops.any fun nhB => nhSame nhA nhB) ||
    !(b.rtNexthops.all fun nhB => a.rtNexthops.any fun nhA => nhSame nhA nhB)

/-- a metric of the first route is missing from the filter or differs; the last one is not looked at -/
def metricsDifferLoose (a b : RtnlRoute) : Bool :=
  (List.finRange RTAX_MAX).any fun i => decide (i.val < RTAX_MAX - 1) && a.rtMetricsMask.getLsbD i &&
    (!b.rtMetricsMask.getLsbD i || decide (a.rtMetrics i ≠ b.rtMetrics i))

/-- some metric differs; the last one is not looked at -/
def metricsDiffer (a b : RtnlRoute) : Bool :=
  (List.finRange RTAX_MAX).any fun i => decide (i.val < RTAX_MAX - 1) &&
    ((a.rtMetricsMask.getLsbD i ^^ b.rtMetricsMask.getLsbD i) || decide (a.rtMetrics i ≠ b.rtMetrics i))

/-- `route_compare` -/
def routeCompare (a b : RouteVal) (attrs : BitVec 64) (flags : ℕ) : BitVec 64 :=
  let diff := attrDiff attrs ROUTE_ATTR_FAMILY a b (decide (a.data.rtFamily ≠ b.data.rtFamily)) |||
    attrDiff attrs ROUTE_ATTR_TOS a b (decide (a.data.rtTos ≠ b.data.rtTos)) |||
    attrDiff attrs ROUTE_ATTR_TABLE a b (decide (a.data.rtTable ≠ b.data.rtTable)) |||
    attrDiff attrs ROUTE_ATTR_PROTOCOL a b (decide (a.data.rtProtocol ≠ b.data.rtProtocol)) |||
    attrDiff attrs ROUTE_ATTR_SCOPE a b (decide (a.data.rtScope ≠ b.data.rtScope)) |||
    attrDiff attrs ROUTE_ATTR_TYPE a b (decide (a.data.rtType ≠ b.data.rtType)) |||
    attrDiff attrs ROUTE_ATTR_PRIO a b (decide (a.data.rtPrio ≠ b.data.rtPrio)) |||
    attrDiff attrs ROUTE_ATTR_DST a b (nlAddrCmp a.data.rtDst b.data.rtDst) |||
    attrDiff attrs ROUTE_ATTR_SRC a b (nlAddrCmp a.data.rtSrc b.data.rtSrc) |||
    attrDiff attrs ROUTE_ATTR_IIF a b (decide (a.data.rtIif ≠ b.data.rtIif)) |||
    attrDiff attrs ROUTE_ATTR_PREF_SRC a b (nlAddrCmp a.data.rtPrefSrc b.data.rtPrefSrc) |||
    attrDiff attrs ROUTE_ATTR_TTL_PROPAGATE a b (decide (a.data.rtTtlPropagate ≠ b.data.rtTtlPropagate))
  if flags &&& LOOSE_COMPARISON ≠ 0 then
    if nhMismatchLoose a.data b.data then diff ||| attrDiff attrs ROUTE_ATTR_MULTIPATH a b true
    else
      diff ||| (if metricsDifferLoose a.data b.data then attrDiff attrs ROUTE_ATTR_METRICS a b true else 0) |||
        attrDiff attrs ROUTE_ATTR_FLAGS a b
          (decide ((a.data.rtFlags ^^^ b.data.rtFlags) &&& b.data.rtFlagMask ≠ 0))
  else
    if nhMismatch a.data b.data then diff ||| attrDiff attrs ROUTE_ATTR_MULTIPATH a b true
    else
      diff ||| attrDiff attrs ROUTE_ATTR_METRICS a b (metricsDiffer a.data b.data) |||
        attrDiff attrs ROUTE_ATTR_FLAGS a b (decide (a.data.rtFlags ≠ b.data.rtFlags))

/-- `route_update`; allocations succeed -/
def routeUpdate (oldRoute newRoute : RouteVal) : Option RouteVal :=
  if newRoute.data.rtFamily ≠ AF_INET6 ∨ newRoute.data.rtTable = RT_TABLE_LOCAL then none
  else if rtnlRouteGetNnexthops newRoute ≠ 1 then none
  else match rtnlRouteNexthopN newRoute 0 with
    | none => none
    | some newNh =>
      if newNh.rtnhGateway = none then none
      else if newRoute.ceMsgtype = RTM_NEWROUTE then some (rtnlRouteAddNexthop oldRoute (rtnlRouteNhClone newNh))
      else if newRoute.ceMsgtype = RTM_DELROUTE then
        if rtnlRouteGetNnexthops oldRoute ≤ 1 then none else some (removeMatching oldRoute newNh)
      else none

/-- `route_obj_ops` -/
def routeObjOps (nlHash : List UInt8 → ℕ) : ObjectOps RtnlRoute where
  ooIdAttrs := routeIdAttrs
  ooIdAttrsGet := some routeIdAttrsGet
  ooCompare := some routeCompare
  ooUpdate := some routeUpdate
  ooKeygen := some (routeKeygen nlHash)
  ooClone := some routeClone

/-- the table of types, with routes in every place -/
abbrev routeOps (nlHash : List UInt8 → ℕ) : ℕ → ObjectOps RtnlRoute := fun _ => routeObjOps nlHash

/-! ## Identity -/

/-- what identifies a route -/
def routeKey (r : RouteVal) :=
  (r.ceOps, r.data.rtFamily, r.data.rtTos, r.data.rtTable, addrKey r.data.rtDst,
    if r.data.rtFamily = AF_MPLS then 0 else r.data.rtPrio)

/-- a route as the parser makes it: it has its id attributes, and the kernel gives MPLS routes no priority -/
structure RouteGood (r : RouteVal) : Prop where
  carries : carries r (routeIdAttrsGet r) = true
  prio : r.data.rtFamily = AF_MPLS → r.data.rtPrio = 0

section

variable (nlHash : List UInt8 → ℕ)

theorem routeIdAttrsGet_cases (r : RouteVal) :
    (r.data.rtFamily = AF_MPLS ∧ (routeIdAttrsGet r).setWidth 64 = 0x87#64) ∨
      (r.data.rtFamily ≠ AF_MPLS ∧ (routeIdAttrsGet r).setWidth 64 = 0x1087#64) := by
  unfold routeIdAttrsGet
  by_cases h : r.data.rtFamily = AF_MPLS
  · rw [if_pos h]
    exact Or.inl ⟨h, by decide⟩
  · rw [if_neg h]
    exact Or.inr ⟨h, by decide⟩

theorem route_reqAttrs (a b : RouteVal) : reqAttrs (routeOps nlHash) a b = routeIdAttrsGet a := by
  unfold reqAttrs
  dsimp only [routeOps, routeObjOps]
  rw [if_neg]
  unfold routeIdAttrsGet
  split_ifs
  · decide
  · decide

/-- the comparison `nl_object_identical` makes, on routes that have the attributes -/
theorem route_compare_id {a b : RouteVal} (ha : carries a (routeIdAttrsGet a) = true)
    (hb : carries b (routeIdAttrsGet a) = true) :
    routeCompare a b ((routeIdAttrsGet a).setWidth 64) ID_COMPARISON = 0 ↔
      a.data.rtFamily = b.data.rtFamily ∧ a.data.rtTos = b.data.rtTos ∧ a.data.rtTable = b.data.rtTable ∧
        addrKey a.data.rtDst = addrKey b.data.rtDst ∧ (a.data.rtFamily = AF_MPLS ∨ a.data.rtPrio = b.data.rtPrio) := by
  have hid : ∀ attr, attr ≠ 0 → (routeIdAttrsGet a).setWidth 64 &&& attr = attr → ∀ differ,
      (attrDiff ((routeIdAttrsGet a).setWidth 64) attr a b differ = 0 ↔ differ = false) := fun attr hne hreq differ =>
    attrDiff_eq_zero_iff hreq hne (carries_attr ha hreq) (carries_attr hb hreq) differ
  have hout : ∀ attr ∈ [ROUTE_ATTR_PROTOCOL, ROUTE_ATTR_SCOPE, ROUTE_ATTR_TYPE, ROUTE_ATTR_SRC, ROUTE_ATTR_IIF,
      ROUTE_ATTR_PREF_SRC, ROUTE_ATTR_TTL_PROPAGATE, ROUTE_ATTR_MULTIPATH, ROUTE_ATTR_METRICS, ROUTE_ATTR_FLAGS],
      ∀ differ, attrDiff ((routeIdAttrsGet a).setWidth 64) attr a b differ = 0 := by
    intro attr hattr differ
    refine attrDiff_of_not_asked ?_ a b differ
    rcases routeIdAttrsGet_cases a with ⟨-, hreq⟩ | ⟨-, hreq⟩
    · rw [hreq]
      fin_cases hattr <;> rfl
    · rw [hreq]
      fin_cases hattr <;> rfl
  have hprio : attrDiff ((routeIdAttrsGet a).setWidth 64) ROUTE_ATTR_PRIO a b (decide (a.data.rtPrio ≠ b.data.rtPrio)) = 0 ↔
      a.data.rtFamily = AF_MPLS ∨ a.data.rtPrio = b.data.rtPrio := by
    rcases routeIdAttrsGet_cases a with ⟨hf, hreq⟩ | ⟨hf, hreq⟩
    · rw [hreq]
      simp [hf, attrDiff_of_not_asked (by decide : (0x87#64) &&& ROUTE_ATTR_PRIO = 0)]
    · rw [hid ROUTE_ATTR_PRIO (by decide) (by rw [hreq]; rfl)]
      simp [hf]
  have hreq : ∀ attr ∈ [ROUTE_ATTR_FAMILY, ROUTE_ATTR_TOS, ROUTE_ATTR_TABLE, ROUTE_ATTR_DST],
      attr ≠ 0 ∧ (routeIdAttrsGet a).setWidth 64 &&& attr = attr := by
    intro attr hattr
    rcases routeIdAttrsGet_cases a with ⟨-, hreq⟩ | ⟨-, hreq⟩
    · rw [hreq]
      fin_cases hattr <;> decide
    · rw [hreq]
      fin_cases hattr <;> decide
  have hkey : ∀ attr ∈ [ROUTE_ATTR_FAMILY, ROUTE_ATTR_TOS, ROUTE_ATTR_TABLE, ROUTE_ATTR_DST], ∀ differ,
      (attrDiff ((routeIdAttrsGet a).setWidth 64) attr a b differ = 0 ↔ differ = false) := fun attr hattr =>
    hid attr (hreq attr hattr).1 (hreq attr hattr).2
  unfold routeCompare
  rw [if_neg (by decide)]
  simp only [List.mem_cons, forall_eq_or_imp, List.not_mem_nil, false_imp_iff, implies_true, and_true] at hout hkey
  obtain ⟨h1, h2, h3, h4, h5, h6, h7, h8, h9, h10⟩ := hout
  obtain ⟨hfamily, htos, htable, hdst⟩ := hkey
  simp only [h1, h2, h3, h4, h5, h6, h7, h8, h9, h10, BitVec.ofNat_eq_ofNat, BitVec.or_zero, ite_self,
    BitVec.or_eq_zero_iff] at hfamily htos htable hdst hprio ⊢
  rw [hfamily, htos, htable, hdst, hprio]
  simp only [decide_eq_false_iff_not, not_not, nlAddrCmp_eq_false_iff]
  tauto

/-- **Identity of routes.** -/
theorem route_identical_iff (a b : RouteVal) : nlObjectIdentical (routeOps nlHash) a b = true ↔
    carries a (routeIdAttrsGet a) = true ∧ carries b (routeIdAttrsGet b) = true ∧ routeKey a = routeKey b := by
  have hsame : sameIdAttrs (routeOps nlHash) a b = decide (routeIdAttrsGet a = routeIdAttrsGet b) := rfl
  have hfamily : a.data.rtFamily = b.data.rtFamily → routeIdAttrsGet a = routeIdAttrsGet b := by
    intro h
    unfold routeIdAttrsGet
    rw [h]
  unfold nlObjectIdentical
  rw [hsame, route_reqAttrs]
  simp only [Bool.and_eq_true, decide_eq_true_eq, routeObjOps, routeKey, Prod.mk.injEq]
  constructor
  · rintro ⟨⟨⟨⟨hops, hget⟩, ha⟩, hb⟩, hcmp⟩
    obtain ⟨hf, ht, htab, hdst, hprio⟩ := (route_compare_id ha hb).1 hcmp
    refine ⟨ha, by rwa [← hget], hops, hf, ht, htab, hdst, ?_⟩
    rw [← hf]
    rcases hprio with hmpls | hprio
    · rw [if_pos hmpls, if_pos hmpls]
    · rw [hprio]
  · rintro ⟨ha, hb, hops, hf, ht, htab, hdst, hprio⟩
    rw [← hfamily hf] at hb
    refine ⟨⟨⟨⟨hops, hfamily hf⟩, ha⟩, hb⟩, (route_compare_id ha hb).2 ⟨hf, ht, htab, hdst, ?_⟩⟩
    rw [← hf] at hprio
    by_cases hmpls : a.data.rtFamily = AF_MPLS
    · exact Or.inl hmpls
    · rw [if_neg hmpls, if_neg hmpls] at hprio
      exact Or.inr hprio

theorem addrKey_addr {a b : Option NlAddr} (h : addrKey a = addrKey b) : a.map NlAddr.aAddr = b.map NlAddr.aAddr := by
  have hmap := congrArg (Option.map fun k => k.2.1) h
  unfold addrKey at hmap
  rw [Option.map_map, Option.map_map] at hmap
  exact hmap

/-- the hash key of a route is made of what identifies it -/
theorem routeKeygen_congr {a b : RouteVal} (ha : RouteGood a) (hb : RouteGood b) (h : routeKey a = routeKey b) (size : ℕ) :
    routeKeygen nlHash a size = routeKeygen nlHash b size := by
  simp only [routeKey, Prod.mk.injEq] at h
  obtain ⟨-, hf, ht, htab, hdst, hprio⟩ := h
  have hprio' : a.data.rtPrio = b.data.rtPrio := by
    by_cases hmpls : a.data.rtFamily = AF_MPLS
    · rw [ha.prio hmpls, hb.prio (hf ▸ hmpls)]
    · rwa [if_neg hmpls, if_neg (hf ▸ hmpls)] at hprio
  unfold routeKeygen
  rw [hf, ht, htab, hprio', addrKey_addr hdst]

theorem route_lawful (t : ℕ) : LawfulEquiv (routeOps nlHash) RouteGood t where
  refl a _ ha := (route_identical_iff nlHash a a).2 ⟨ha.carries, ha.carries, rfl⟩
  symm a b _ ha hb h := by
    rw [route_identical_iff] at h ⊢
    exact ⟨hb.carries, ha.carries, h.2.2.symm⟩
  keygen a b size _ ha hb h := by
    rw [route_identical_iff] at h
    exact routeKeygen_congr nlHash ha hb h.2.2 size
  trans a b c _ ha _ hc hab hbc := by
    rw [route_identical_iff] at hab hbc ⊢
    exact ⟨ha.carries, hc.carries, hab.2.2.trans hbc.2.2⟩

end

/-! ## Updates -/

/-- nothing but the nexthops has changed -/
structure OnlyNexthops (a a' : RouteVal) : Prop where
  type : a'.ceOps = a.ceOps
  mask : a'.ceMask ||| ROUTE_ATTR_MULTIPATH = a.ceMask ||| ROUTE_ATTR_MULTIPATH
  data : ∃ nhs, a'.data = { a.data with rtNexthops := nhs }

theorem OnlyNexthops.key {a a' : RouteVal} (h : OnlyNexthops a a') : routeKey a' = routeKey a := by
  obtain ⟨nhs, hdata⟩ := h.data
  unfold routeKey
  rw [hdata, h.type]

theorem carries_multipath (r : RouteVal) {req : BitVec 32} (hreq : req.setWidth 64 &&& ROUTE_ATTR_MULTIPATH = 0) :
    carries r req = decide ((r.ceMask ||| ROUTE_ATTR_MULTIPATH) &&& req.setWidth 64 = req.setWidth 64) := by
  have hor : (r.ceMask ||| ROUTE_ATTR_MULTIPATH) &&& req.setWidth 64 = r.ceMask &&& req.setWidth 64 := by
    refine BitVec.eq_of_getLsbD_eq fun i hi => ?_
    have hbit := congrArg (fun x => x.getLsbD i) hreq
    simp only [BitVec.getLsbD_and, BitVec.getLsbD_or] at hbit ⊢
    cases hr : (req.setWidth 64).getLsbD i with
    | true => simp_all
    | false => simp
  unfold carries
  rw [hor]

theorem OnlyNexthops.carries {a a' : RouteVal} (h : OnlyNexthops a a') :
    routeIdAttrsGet a' = routeIdAttrsGet a ∧
      Object.carries a' (routeIdAttrsGet a') = Object.carries a (routeIdAttrsGet a) := by
  obtain ⟨nhs, hdata⟩ := h.data
  have hget : routeIdAttrsGet a' = routeIdAttrsGet a := by
    unfold routeIdAttrsGet
    rw [hdata]
  have hreq : (routeIdAttrsGet a).setWidth 64 &&& ROUTE_ATTR_MULTIPATH = 0 := by
    rcases routeIdAttrsGet_cases a with ⟨-, hreq⟩ | ⟨-, hreq⟩
    · rw [hreq]
      rfl
    · rw [hreq]
      rfl
  rw [hget, carries_multipath a hreq, carries_multipath a' hreq, h.mask]
  exact ⟨rfl, rfl⟩

theorem OnlyNexthops.good {a a' : RouteVal} (h : OnlyNexthops a a') (ha : RouteGood a) : RouteGood a' := by
  obtain ⟨nhs, hdata⟩ := h.data
  refine ⟨by rw [h.carries.2]; exact ha.carries, ?_⟩
  rw [hdata]
  exact ha.prio

theorem OnlyNexthops.sameIdentity {a a' : RouteVal} (h : OnlyNexthops a a') (nlHash : List UInt8 → ℕ) :
    SameIdentity (routeOps nlHash) RouteGood a a' where
  good := h.good
  left x := by
    rw [Bool.eq_iff_iff, route_identical_iff, route_identical_iff, h.carries.2, h.key]
  right x := by
    rw [Bool.eq_iff_iff, route_identical_iff, route_identical_iff, h.carries.2, h.key]
  keygen size := by
    obtain ⟨nhs, hdata⟩ := h.data
    unfold nlObjectKeygen
    dsimp only [routeOps, routeObjOps]
    unfold routeKeygen
    rw [hdata]

theorem onlyNexthops_add (r : RouteVal) (nh : RtnlNexthop) : OnlyNexthops r (rtnlRouteAddNexthop r nh) :=
  ⟨rfl, by simp [rtnlRouteAddNexthop, BitVec.or_assoc], _, rfl⟩

theorem onlyNexthops_remove (r : RouteVal) (nh : RtnlNexthop) : OnlyNexthops r (removeMatching r nh) := by
  unfold removeMatching
  by_cases hm : r.ceMask &&& ROUTE_ATTR_MULTIPATH ≠ 0
  · rw [if_pos hm]
    exact ⟨rfl, rfl, _, rfl⟩
  · rw [if_neg hm]
    exact ⟨rfl, rfl, r.data.rtNexthops, rfl⟩

theorem onlyNexthops_clone (r : RouteVal) : OnlyNexthops r (routeClone r) := by
  refine ⟨rfl, ?_, _, rfl⟩
  unfold routeClone
  dsimp only
  split_ifs
  · rfl
  · rw [BitVec.or_assoc, BitVec.or_self]

/-- a message that `route_update` merges: an IPv6 route outside the local table with one nexthop, which has a gateway -/
structure Mergeable (r : RouteVal) (nh : RtnlNexthop) : Prop where
  family : r.data.rtFamily = AF_INET6
  table : r.data.rtTable ≠ RT_TABLE_LOCAL
  mask : r.ceMask &&& ROUTE_ATTR_MULTIPATH ≠ 0
  nexthops : r.data.rtNexthops = [nh]
  gateway : nh.rtnhGateway ≠ none

/-- what `route_update` does with the message -/
theorem Mergeable.update {new : RouteVal} {nh : RtnlNexthop} (h : Mergeable new nh) (old : RouteVal) :
    routeUpdate old new =
      if new.ceMsgtype = RTM_NEWROUTE then some (rtnlRouteAddNexthop old (rtnlRouteNhClone nh))
      else if new.ceMsgtype = RTM_DELROUTE then
        if rtnlRouteGetNnexthops old ≤ 1 then none else some (removeMatching old nh)
      else none := by
  have hn : rtnlRouteGetNnexthops new = 1 := by
    unfold rtnlRouteGetNnexthops
    rw [if_pos h.mask, h.nexthops]
    rfl
  have hnh : rtnlRouteNexthopN new 0 = some nh := by
    unfold rtnlRouteNexthopN
    rw [if_pos h.mask, h.nexthops]
    rfl
  unfold routeUpdate
  rw [if_neg (not_or.2 ⟨not_not.2 h.family, h.table⟩), if_neg (not_not.2 hn), hnh]
  dsimp only
  rw [if_neg h.gateway]

/-- every other message is not merged -/
theorem routeUpdate_of_not_mergeable {new : RouteVal} (h : ∀ nh, ¬ Mergeable new nh) (old : RouteVal) :
    routeUpdate old new = none := by
  unfold routeUpdate
  by_cases hf : new.data.rtFamily ≠ AF_INET6 ∨ new.data.rtTable = RT_TABLE_LOCAL
  · rw [if_pos hf]
  · rw [if_neg hf]
    by_cases hn : rtnlRouteGetNnexthops new ≠ 1
    · rw [if_pos hn]
    · rw [if_neg hn]
      rw [not_not] at hn
      unfold rtnlRouteGetNnexthops at hn
      by_cases hm : new.ceMask &&& ROUTE_ATTR_MULTIPATH ≠ 0
      · rw [if_pos hm] at hn
        obtain ⟨nh, hnh⟩ := List.length_eq_one_iff.1 hn
        have hget : rtnlRouteNexthopN new 0 = some nh := by
          unfold rtnlRouteNexthopN
          rw [if_pos hm, hnh]
          rfl
        rw [hget]
        dsimp only
        by_cases hgw : nh.rtnhGateway = none
        · rw [if_pos hgw]
        · rw [not_or, not_not] at hf
          exact absurd ⟨hf.1, hf.2, hm, hnh, hgw⟩ (h nh)
      · rw [if_neg hm] at hn
        cases hn

theorem onlyNexthops_update {old new v : RouteVal} (h : routeUpdate old new = some v) : OnlyNexthops old v := by
  by_cases hm : ∃ nh, Mergeable new nh
  · obtain ⟨nh, hm⟩ := hm
    rw [hm.update old] at h
    split_ifs at h with hnew hdel hone
    · cases h
      exact onlyNexthops_add old _
    · cases h
      exact onlyNexthops_remove old nh
  · rw [routeUpdate_of_not_mergeable (not_exists.1 hm)] at h
    cases h

theorem route_keeps (nlHash : List UInt8 → ℕ) (t : ℕ) : KeepsIdentity (routeOps nlHash) RouteGood t where
  update a b a' _ _ _ h := by
    unfold nlObjectUpdate at h
    dsimp only [routeOps, routeObjOps] at h
    obtain ⟨v, hv, rfl⟩ := Option.map_eq_some_iff.1 h
    have honly := onlyNexthops_update hv
    have hops : { v with ceOps := a.ceOps } = v := by rw [← honly.type]
    rw [hops]
    exact honly.sameIdentity nlHash
  clone a _ ha := (onlyNexthops_clone a).good ha

end Libnl.Route
