/-
What `rtnl_route_parse` makes of a message.

- `NhContent`, `RouteContent`: what a message says of a nexthop and of a route, attribute by attribute. `nexthop` is the
  nexthop with this content, and `Shows c r` says that the route `r` is one with content `c`.
- `parse_head`, `Shows.parseMetrics`, `multipath_content`: the stages of the parser.
- `parse_shows`: every route with several nexthops that is read shows some content.
-/
import Mathlib.Tactic
import Libnl.Message.Validate
import Libnl.Route.RouteWire

namespace Libnl.Route

open Bytes Walk Msg Attr AttrWalk AttrTree AttrStream Writer Fields Object
open Addr Validate

/-! ## Content -/

/-- what a message says of a nexthop -/
structure NhContent where
  flags : BitVec 8
  hops : BitVec 8
  ifindex : BitVec 32
  gateway : Option (List UInt8)
  realms : Option (BitVec 32)
  newdst : Option (List UInt8)
  /-- family and address -/
  via : Option (BitVec 16 × List UInt8)
  /-- labels and TTL -/
  encap : Option (List UInt8 × BitVec 8)
deriving DecidableEq

/-- the attributes a nexthop has besides those of its header -/
def nhMask (gateway realms newdst via encap : Bool) : BitVec 32 :=
  NH_ATTR_WEIGHT ||| NH_ATTR_IFINDEX ||| NH_ATTR_FLAGS ||| (if gateway then NH_ATTR_GATEWAY else 0) |||
    (if realms then NH_ATTR_REALMS else 0) ||| (if newdst then NH_ATTR_NEWDST else 0) |||
    (if via then NH_ATTR_VIA else 0) ||| (if encap then NH_ATTR_ENCAP else 0)

/-- the nexthop with this content, in a route of this family -/
def NhContent.nexthop (family : BitVec 8) (c : NhContent) : RtnlNexthop where
  rtnhFlags := c.flags
  rtnhFlagMask := c.flags
  rtnhWeight := c.hops
  rtnhIfindex := c.ifindex
  rtnhGateway := c.gateway.map (nlAddrBuild family.toNat)
  ceMask := nhMask c.gateway.isSome c.realms.isSome c.newdst.isSome c.via.isSome c.encap.isSome
  rtnhRealms := c.realms.getD 0
  rtnhNewdst := c.newdst.map (nlAddrBuild family.toNat)
  rtnhVia := c.via.map fun v => nlAddrBuild v.1.toNat v.2
  rtnhEncap := c.encap.map fun e => ⟨some (nlAddrBuild Family.AF_MPLS e.1), e.2⟩

/-- the addresses the setters check pass, and there is a label at least -/
structure NhContent.Valid (pton : ℕ → List UInt8 → Bool) (c : NhContent) : Prop where
  newdst : ∀ a ∈ c.newdst, nlAddrValid pton a a.length = true
  via : ∀ v ∈ c.via, nlAddrValid pton v.2 v.2.length = true
  encap : ∀ e ∈ c.encap, nlAddrValid pton e.1 e.1.length = true
  labels : ∀ e ∈ c.encap, 4 ≤ e.1.length

/-- what a message says of a route -/
structure RouteContent where
  rtm : RtMsg
  table : Option (BitVec 32)
  prio : Option (BitVec 32)
  iif : Option (BitVec 32)
  dst : Option (List UInt8)
  /-- the source that is taken -/
  src : Option (List UInt8)
  prefSrc : Option (List UInt8)
  ttlPropagate : Option (BitVec 8)
  metrics : Fin RTAX_MAX → Option (BitVec 32)
  nexthops : List NhContent
  cacheinfo : Bool

/-- the attributes a route has besides those of its header -/
def routeMask (prio src prefSrc iif metrics nexthops cacheinfo ttl : Bool) : BitVec 64 :=
  ROUTE_ATTR_FAMILY ||| ROUTE_ATTR_TOS ||| ROUTE_ATTR_TABLE ||| ROUTE_ATTR_TYPE ||| ROUTE_ATTR_SCOPE |||
    ROUTE_ATTR_PROTOCOL ||| ROUTE_ATTR_FLAGS ||| ROUTE_ATTR_DST ||| (if prio then ROUTE_ATTR_PRIO else 0) |||
    (if src then ROUTE_ATTR_SRC else 0) ||| (if prefSrc then ROUTE_ATTR_PREF_SRC else 0) |||
    (if iif then ROUTE_ATTR_IIF else 0) ||| (if metrics then ROUTE_ATTR_METRICS else 0) |||
    (if nexthops then ROUTE_ATTR_MULTIPATH else 0) ||| (if cacheinfo then ROUTE_ATTR_CACHEINFO else 0) |||
    (if ttl then ROUTE_ATTR_TTL_PROPAGATE else 0)

/-- some metric is given -/
def RouteContent.hasMetrics (c : RouteContent) : Bool := (List.finRange RTAX_MAX).any fun i => (c.metrics i).isSome

/-- MPLS routes have a priority only if the message has one -/
def RouteContent.hasPrio (c : RouteContent) : Bool := decide (c.rtm.rtmFamily ≠ AF_MPLS) || c.prio.isSome

/-- the route has this content -/
structure Shows (c : RouteContent) (r : RouteVal) : Prop where
  ops : r.ceOps = 0
  mask : r.ceMask = routeMask c.hasPrio c.src.isSome c.prefSrc.isSome c.iif.isSome c.hasMetrics
    (!c.nexthops.isEmpty) c.cacheinfo c.ttlPropagate.isSome
  family : r.data.rtFamily = c.rtm.rtmFamily
  tos : r.data.rtTos = c.rtm.rtmTos
  protocol : r.data.rtProtocol = c.rtm.rtmProtocol
  scope : r.data.rtScope = c.rtm.rtmScope
  type : r.data.rtType = c.rtm.rtmType
  flags : r.data.rtFlags = c.rtm.rtmFlags
  dst : r.data.rtDst = some ⟨c.rtm.rtmFamily.toNat, c.rtm.rtmDstLen.toNat, c.dst.getD []⟩
  src : r.data.rtSrc = c.src.map fun a => ⟨c.rtm.rtmFamily.toNat, c.rtm.rtmSrcLen.toNat, a⟩
  prefSrc : r.data.rtPrefSrc = c.prefSrc.map (nlAddrBuild c.rtm.rtmFamily.toNat)
  table : r.data.rtTable = c.table.getD (c.rtm.rtmTable.setWidth 32)
  iif : r.data.rtIif = c.iif.getD 0
  prio : r.data.rtPrio = c.prio.getD 0
  ttl : r.data.rtTtlPropagate = c.ttlPropagate.getD 0
  metrics : ∀ i, r.data.rtMetrics i = (c.metrics i).getD 0
  metricsMask : ∀ i : Fin RTAX_MAX, r.data.rtMetricsMask.getLsbD i = (c.metrics i).isSome
  nmetrics : 0 < r.data.rtNmetrics.toNat ↔ c.hasMetrics = true
  nexthops : r.data.rtNexthops = c.nexthops.map (NhContent.nexthop c.rtm.rtmFamily)

/-! ## One nexthop -/

theorem nhMask_set :
    (∀ g r n v e, nhMask g r n v e ||| NH_ATTR_GATEWAY = nhMask true r n v e) ∧
      (∀ g r n v e, nhMask g r n v e ||| NH_ATTR_REALMS = nhMask g true n v e) ∧
      (∀ g r n v e, nhMask g r n v e ||| NH_ATTR_NEWDST = nhMask g r true v e) ∧
      (∀ g r n v e, nhMask g r n v e ||| NH_ATTR_VIA = nhMask g r n true e) ∧
      ∀ g r n v e, nhMask g r n v e ||| NH_ATTR_ENCAP = nhMask g r n v true := by
  decide

section

variable (c : NhContent) (family : BitVec 8)

theorem nhSetGateway_content (a : List UInt8) :
    rtnlRouteNhSetGateway (c.nexthop family) (nlAddrBuild family.toNat a) = NhContent.nexthop family { c with gateway := some a } := by
  simp only [rtnlRouteNhSetGateway, NhContent.nexthop, nhMask_set.1]
  rfl

theorem nhSetRealms_content (v : BitVec 32) :
    rtnlRouteNhSetRealms (c.nexthop family) v = NhContent.nexthop family { c with realms := some v } := by
  simp only [rtnlRouteNhSetRealms, NhContent.nexthop, nhMask_set.2.1]
  rfl

variable (pton : ℕ → List UInt8 → Bool)

theorem nhSetNewdst_content (a : List UInt8) :
    rtnlRouteNhSetNewdst (c.nexthop family) pton (nlAddrBuild family.toNat a) =
      if nlAddrValid pton a a.length then .ok (NhContent.nexthop family { c with newdst := some a })
      else .error (.code (-NLE_INVAL)) := by
  simp only [rtnlRouteNhSetNewdst, NhContent.nexthop, nhMask_set.2.2.1]
  rfl

theorem nhSetVia_content (v : BitVec 16 × List UInt8) :
    rtnlRouteNhSetVia (c.nexthop family) pton (nlAddrBuild v.1.toNat v.2) =
      if nlAddrValid pton v.2 v.2.length then .ok (NhContent.nexthop family { c with via := some v })
      else .error (.code (-NLE_INVAL)) := by
  simp only [rtnlRouteNhSetVia, NhContent.nexthop, nhMask_set.2.2.2.1]
  rfl

theorem nhSetEncap_content (e : List UInt8 × BitVec 8) :
    rtnlRouteNhEncapMpls (c.nexthop family) pton (nlAddrBuild Family.AF_MPLS e.1) e.2 =
      if nlAddrValid pton e.1 e.1.length then .ok (NhContent.nexthop family { c with encap := some e })
      else .error (.code (-NLE_INVAL)) := by
  simp only [rtnlRouteNhEncapMpls, NhContent.nexthop, nhMask_set.2.2.2.2]
  rfl

end

/-- a nexthop with nothing but its header -/
def bareNexthop (flags hops : BitVec 8) (ifindex : BitVec 32) : NhContent := ⟨flags, hops, ifindex, none, none, none, none, none⟩

theorem bareNexthop_valid (pton : ℕ → List UInt8 → Bool) (flags hops : BitVec 8) (ifindex : BitVec 32) :
    (bareNexthop flags hops ifindex).Valid pton := by
  refine ⟨?_, ?_, ?_, ?_⟩
  all_goals
    intro x hx
    cases hx

theorem nhHeader_content (family flags hops : BitVec 8) (ifindex : BitVec 32) :
    rtnlRouteNhSetFlags (rtnlRouteNhSetIfindex (rtnlRouteNhSetWeight rtnlRouteNhAlloc hops) ifindex) flags =
      (bareNexthop flags hops ifindex).nexthop family := by
  simp only [rtnlRouteNhSetFlags, rtnlRouteNhSetIfindex, rtnlRouteNhSetWeight, rtnlRouteNhAlloc, NhContent.nexthop,
    bareNexthop, BitVec.zero_or, BitVec.ofNat_eq_ofNat]
  rfl

theorem except_bind_ok {ε α β : Type} {x : Except ε α} {f : α → Except ε β} {b : β} (h : x.bind f = .ok b) :
    ∃ a, x = .ok a ∧ f a = .ok b := by
  cases x with
  | error e => cases h
  | ok a => exact ⟨a, rfl, h⟩

section

variable [HostOrder]

variable (buf : Mem) (tb : Index) (c : NhContent) (family : BitVec 8)

theorem parseGateway_content : parseGateway buf family.toNat tb (c.nexthop family) =
    NhContent.nexthop family { c with gateway := ((tb RTA_GATEWAY).map (nlaBytes buf)).or c.gateway } := by
  rw [parseGateway]
  cases tb RTA_GATEWAY with
  | none => rfl
  | some a => exact nhSetGateway_content c family _

theorem parseFlow_content : parseFlow buf tb (c.nexthop family) =
    NhContent.nexthop family { c with realms := ((tb RTA_FLOW).map (nlaGetU32 buf)).or c.realms } := by
  rw [parseFlow]
  cases tb RTA_FLOW with
  | none => rfl
  | some a => exact nhSetRealms_content c family _

variable {c} {pton : ℕ → List UInt8 → Bool} {nh : RtnlNexthop}

theorem parseNewdst_content (hc : c.Valid pton) (h : parseNewdst pton buf family.toNat tb (c.nexthop family) = .ok nh) :
    ∃ c' : NhContent, nh = c'.nexthop family ∧ c'.Valid pton := by
  rw [parseNewdst] at h
  cases htb : tb RTA_NEWDST with
  | none =>
    rw [htb] at h
    cases h
    exact ⟨c, rfl, hc⟩
  | some a =>
    rw [htb] at h
    simp only [nlAddrAllocAttr] at h
    rw [nhSetNewdst_content] at h
    split_ifs at h with hv
    cases h
    refine ⟨_, rfl, ?_, hc.via, hc.encap, hc.labels⟩
    intro x hx
    cases hx
    exact hv

theorem parseVia_content (hc : c.Valid pton) (h : parseVia pton buf tb (c.nexthop family) = .ok nh) :
    ∃ c' : NhContent, nh = c'.nexthop family ∧ c'.Valid pton := by
  rw [parseVia] at h
  cases htb : tb RTA_VIA with
  | none =>
    rw [htb] at h
    cases h
    exact ⟨c, rfl, hc⟩
  | some a =>
    rw [htb] at h
    obtain ⟨addr, hparse, hset⟩ := except_bind_ok h
    rw [rtnlRouteParseVia] at hparse
    split_ifs at hparse with hneg
    cases hparse
    have hlt := getU16_lt buf (nlaData a)
    have hfam : (getU16 buf (nlaData a) : ℤ) = ((BitVec.ofNat 16 (getU16 buf (nlaData a))).toNat : ℤ) := by
      rw [BitVec.toNat_ofNat, Nat.mod_eq_of_lt hlt]
    rw [hfam, nhSetVia_content c family pton (BitVec.ofNat 16 (getU16 buf (nlaData a)), _)] at hset
    split_ifs at hset with hv
    cases hset
    refine ⟨_, rfl, hc.newdst, ?_, hc.encap, hc.labels⟩
    intro x hx
    cases hx
    exact hv

theorem parseEncap_content (hc : c.Valid pton) (h : parseEncap pton buf tb (c.nexthop family) = .ok nh) :
    ∃ c' : NhContent, nh = c'.nexthop family ∧ c'.Valid pton := by
  rw [parseEncap] at h
  split at h
  · rename_i encap encapType _ _
    rw [nhEncapParseMsg] at h
    split_ifs at h
    simp only [mplsEncapParseMsg] at h
    split_ifs at h with herr
    rw [not_not] at herr
    cases hdst : (nlaParseNested buf MPLS_IPTUNNEL_MAX encap (some mplsEncapPolicy)).2 MPLS_IPTUNNEL_DST with
    | none =>
      rw [hdst] at h
      cases h
    | some dst =>
      have hlen : 4 ≤ (nlaBytes buf dst).length := by
        have hmin : (4 : ℤ) ≤ nlaLen buf dst := (nlaParseNested_conforms herr.ge hdst).min
        rw [nlaBytes, readBytes_length]
        omega
      rw [hdst] at h
      simp only [nlAddrAllocAttr] at h
      rw [nhSetEncap_content c family pton (_, _)] at h
      split_ifs at h with hv
      cases h
      refine ⟨_, rfl, hc.newdst, hc.via, ?_, ?_⟩
      · intro x hx
        cases hx
        exact hv
      · intro x hx
        cases hx
        exact hlen
  · cases h
    exact ⟨c, rfl, hc⟩

/-- the attributes of a nexthop, whatever they are, make a nexthop with some content -/
theorem parseNhAttrs_content (hc : c.Valid pton) (h : parseNhAttrs pton buf family.toNat tb (c.nexthop family) = .ok nh) :
    ∃ c' : NhContent, nh = c'.nexthop family ∧ c'.Valid pton := by
  obtain ⟨c0, hstart, hc0⟩ : ∃ c0 : NhContent, parseFlow buf tb (parseGateway buf family.toNat tb (c.nexthop family)) =
      c0.nexthop family ∧ c0.Valid pton :=
    ⟨_, (congrArg (parseFlow buf tb) (parseGateway_content buf tb c family)).trans (parseFlow_content buf tb _ family),
      hc.newdst, hc.via, hc.encap, hc.labels⟩
  rw [parseNhAttrs, hstart] at h
  obtain ⟨nh1, h1, hrest⟩ := except_bind_ok h
  obtain ⟨nh2, h2, h3⟩ := except_bind_ok hrest
  obtain ⟨c1, rfl, hc1⟩ := parseNewdst_content buf tb family hc0 h1
  obtain ⟨c2, rfl, hc2⟩ := parseVia_content buf tb family hc1 h2
  exact parseEncap_content buf tb family hc2 h3

theorem parseRtnexthop_content {rtnh : ℕ} (h : parseRtnexthop pton buf family.toNat rtnh = .ok nh) :
    ∃ c, nh = NhContent.nexthop family c ∧ c.Valid pton := by
  rw [parseRtnexthop] at h
  simp only [nhHeader_content family] at h
  split_ifs at h
  · exact parseNhAttrs_content buf _ family (bareNexthop_valid pton _ _ _) h
  · cases h
    exact ⟨_, rfl, bareNexthop_valid pton _ _ _⟩

end

/-! ## Setters -/

theorem routeMask_set :
    (∀ p s f i m n c t, routeMask p s f i m n c t ||| ROUTE_ATTR_TABLE = routeMask p s f i m n c t) ∧
      (∀ p s f i m n c t, routeMask p s f i m n c t ||| ROUTE_ATTR_PRIO = routeMask true s f i m n c t) ∧
      (∀ p s f i m n c t, routeMask p s f i m n c t ||| (ROUTE_ATTR_SRC ||| ROUTE_ATTR_FAMILY) =
        routeMask p true f i m n c t) ∧
      (∀ p s f i m n c t, routeMask p s f i m n c t ||| (ROUTE_ATTR_PREF_SRC ||| ROUTE_ATTR_FAMILY) =
        routeMask p s true i m n c t) ∧
      (∀ p s f i m n c t, routeMask p s f i m n c t ||| ROUTE_ATTR_IIF = routeMask p s f true m n c t) ∧
      (∀ p s f i m n c t, routeMask p s f i m n c t ||| ROUTE_ATTR_METRICS = routeMask p s f i true n c t) ∧
      (∀ p s f i m n c t, routeMask p s f i m n c t ||| ROUTE_ATTR_MULTIPATH = routeMask p s f i m true c t) ∧
      (∀ p s f i m n c t, routeMask p s f i m n c t ||| ROUTE_ATTR_CACHEINFO = routeMask p s f i m n true t) ∧
      ∀ p s f i m n c t, routeMask p s f i m n c t ||| ROUTE_ATTR_TTL_PROPAGATE = routeMask p s f i m n c true := by
  decide

theorem routeMask_family : ∀ p s f i m n c t, routeMask p s f i m n c t &&& ROUTE_ATTR_FAMILY ≠ 0 := by
  decide

theorem matchFamily_same {r : RouteVal} {addr : NlAddr} (hmask : r.ceMask &&& ROUTE_ATTR_FAMILY ≠ 0)
    (hfamily : addr.aFamily = r.data.rtFamily.toNat) : matchFamily r addr = some r := by
  rw [matchFamily, if_pos hmask, if_neg (not_not.2 hfamily)]

theorem metrics_any {ms : Fin RTAX_MAX → Option (BitVec 32)} {i : Fin RTAX_MAX} {v : BitVec 32} (h : ms i = some v) :
    ((List.finRange RTAX_MAX).any fun i => (ms i).isSome) = true :=
  List.any_eq_true.2 ⟨i, List.mem_finRange i, by rw [h]; rfl⟩

section

variable {c : RouteContent} {r : RouteVal} (h : Shows c r)

include h

theorem Shows.setTable (v : BitVec 32) : Shows { c with table := some v } (rtnlRouteSetTable r v) :=
  { h with
    mask := by rw [rtnlRouteSetTable, h.mask, routeMask_set.1]; rfl
    table := rfl }

theorem Shows.setIif (v : BitVec 32) : Shows { c with iif := some v } (rtnlRouteSetIif r v) :=
  { h with
    mask := by rw [rtnlRouteSetIif, h.mask, routeMask_set.2.2.2.2.1]; rfl
    iif := rfl }

theorem Shows.setPriority (v : BitVec 32) : Shows { c with prio := some v } (rtnlRouteSetPriority r v) :=
  { h with
    mask := by rw [rtnlRouteSetPriority, h.mask, routeMask_set.2.1, RouteContent.hasPrio, Option.isSome_some, Bool.or_true]; rfl
    prio := rfl }

theorem Shows.setTtlPropagate (v : BitVec 8) : Shows { c with ttlPropagate := some v } (rtnlRouteSetTtlPropagate r v) :=
  { h with
    mask := by rw [rtnlRouteSetTtlPropagate, h.mask, routeMask_set.2.2.2.2.2.2.2.2]; rfl
    ttl := rfl }

theorem Shows.setCacheinfo : Shows { c with cacheinfo := true } { r with ceMask := r.ceMask ||| ROUTE_ATTR_CACHEINFO } :=
  { h with
    mask := by rw [h.mask, routeMask_set.2.2.2.2.2.2.2.1]; rfl }

theorem Shows.hasFamily : r.ceMask &&& ROUTE_ATTR_FAMILY ≠ 0 := by
  rw [h.mask]
  exact routeMask_family _ _ _ _ _ _ _ _

theorem Shows.setPrefSrc (a : List UInt8) : Shows { c with prefSrc := some a }
    (rtnlRouteSetPrefSrc r (nlAddrBuild c.rtm.rtmFamily.toNat a)).1 := by
  rw [rtnlRouteSetPrefSrc, matchFamily_same h.hasFamily (by rw [h.family]; rfl)]
  exact { h with
    mask := by dsimp only; rw [h.mask, routeMask_set.2.2.2.1]; rfl
    prefSrc := rfl }

theorem Shows.setSrc (src : NlAddr) (hne : c.rtm.rtmFamily ≠ AF_INET) (hfamily : src.aFamily = c.rtm.rtmFamily.toNat)
    (hplen : src.aPrefixlen = c.rtm.rtmSrcLen.toNat) :
    Shows { c with src := some src.aAddr } (rtnlRouteSetSrc r src).1 := by
  have hinet : src.aFamily ≠ Family.AF_INET := fun heq => hne (BitVec.eq_of_toNat_eq (by
    rw [hfamily, Family.AF_INET] at heq
    exact_mod_cast heq))
  rw [rtnlRouteSetSrc, if_neg hinet, matchFamily_same h.hasFamily (by rw [h.family, hfamily])]
  exact { h with
    mask := by dsimp only; rw [h.mask, routeMask_set.2.2.1]; rfl
    src := by
      show some src = some _
      rw [← hfamily, ← hplen] }

theorem Shows.setMetric (hn : r.data.rtNmetrics.toNat < 255) (i : Fin RTAX_MAX) (v : BitVec 32) :
    Shows { c with metrics := Function.update c.metrics i (some v) } (rtnlRouteSetMetric r i v) ∧
      (rtnlRouteSetMetric r i v).data.rtNmetrics.toNat ≤ r.data.rtNmetrics.toNat + 1 := by
  have hall : RouteContent.hasMetrics { c with metrics := Function.update c.metrics i (some v) } = true :=
    metrics_any (Function.update_self ..)
  have hsucc : (r.data.rtNmetrics + 1).toNat = r.data.rtNmetrics.toNat + 1 := by
    rw [BitVec.toNat_add, Nat.mod_eq_of_lt (by simp only [BitVec.ofNat_eq_ofNat, BitVec.toNat_ofNat]; omega)]
    rfl
  refine ⟨{ h with mask := ?_, metrics := ?_, metricsMask := ?_, nmetrics := ?_ }, ?_⟩
  · rw [hall, rtnlRouteSetMetric]
    dsimp only
    rw [h.mask, routeMask_set.2.2.2.2.2.1]
    rfl
  · intro j
    show Function.update r.data.rtMetrics i v j = (Function.update c.metrics i (some v) j).getD 0
    by_cases hj : j = i
    · rw [hj, Function.update_self, Function.update_self]
      rfl
    · rw [Function.update_of_ne hj, Function.update_of_ne hj]
      exact h.metrics j
  · intro j
    show (r.data.rtMetricsMask ||| BitVec.twoPow 32 i).getLsbD j = (Function.update c.metrics i (some v) j).isSome
    have hlt : j.val < 32 := j.isLt.trans (by decide)
    rw [BitVec.getLsbD_or, BitVec.getLsbD_twoPow, h.metricsMask j]
    by_cases hj : j = i
    · subst hj
      simp [hlt]
    · have hne : ¬ i.val = j.val := fun heq => hj (Fin.ext heq.symm)
      simp [Function.update_of_ne hj, hne]
  · rw [hall, rtnlRouteSetMetric]
    dsimp only
    split_ifs with hset
    · refine iff_of_true (h.nmetrics.2 ?_) rfl
      rw [h.metricsMask i] at hset
      obtain ⟨w, hw⟩ := Option.isSome_iff_exists.1 hset
      exact metrics_any hw
    · exact iff_of_true (by rw [hsucc]; exact Nat.succ_pos _) rfl
  · rw [rtnlRouteSetMetric]
    dsimp only
    split_ifs
    · exact Nat.le_succ _
    · exact hsucc.le

theorem Shows.addNexthop (x : NhContent) : Shows { c with nexthops := c.nexthops ++ [x] }
    (rtnlRouteAddNexthop r (x.nexthop c.rtm.rtmFamily)) :=
  { h with
    mask := by
      have hsome : (!(c.nexthops ++ [x]).isEmpty) = true := by simp
      rw [hsome, rtnlRouteAddNexthop]
      dsimp only
      rw [h.mask, routeMask_set.2.2.2.2.2.2.1]
      rfl
    nexthops := by
      rw [rtnlRouteAddNexthop]
      dsimp only
      rw [h.nexthops, List.map_append]
      rfl }

/-- the nexthops, one after the other -/
theorem Shows.addNexthops (xs : List NhContent) : Shows { c with nexthops := c.nexthops ++ xs }
    (xs.foldl (fun r x => rtnlRouteAddNexthop r (x.nexthop c.rtm.rtmFamily)) r) := by
  induction xs generalizing c r with
  | nil =>
    rw [List.append_nil]
    exact h
  | cons x xs ih =>
    have hrest := ih (h.addNexthop x)
    rw [List.append_assoc] at hrest
    exact hrest

end

/-! ## The route without its nexthops -/

section

variable [HostOrder] (buf : Mem) (rtm : RtMsg) (tb : Index)

/-- the source that is taken: an IPv4 route has none, and a length without an address is a source without a family -/
def srcOf : Option (List UInt8) :=
  match tb RTA_SRC with
  | some a => if rtm.rtmFamily = AF_INET then none else some (nlaBytes buf a)
  | none => if rtm.rtmSrcLen ≠ 0 ∧ rtm.rtmFamily = 0 then some [] else none

/-- what the header and the attributes in front of the metrics say -/
def headContent : RouteContent where
  rtm := rtm
  table := (tb RTA_TABLE).map (nlaGetU32 buf)
  prio := (tb RTA_PRIORITY).map (nlaGetU32 buf)
  iif := (tb RTA_IIF).map (nlaGetU32 buf)
  dst := (tb RTA_DST).map (nlaBytes buf)
  src := srcOf buf rtm tb
  prefSrc := (tb RTA_PREFSRC).map (nlaBytes buf)
  ttlPropagate := none
  metrics := fun _ => none
  nexthops := []
  cacheinfo := false

/-- what is known once the destination is read -/
def dstContent : RouteContent :=
  { headContent buf rtm tb with table := none, prio := none, iif := none, src := none, prefSrc := none }

theorem parseDst_shows (msgtype : ℤ) : ∃ r, parseDst buf rtm tb (parseHeader rtm msgtype) = .ok r ∧
    Shows (dstContent buf rtm tb) r := by
  have hset : ∀ addr : NlAddr, addr.aFamily = rtm.rtmFamily.toNat →
      rtnlRouteSetDst (parseHeader rtm msgtype) addr =
        ({ parseHeader rtm msgtype with
            ceMask := (parseHeader rtm msgtype).ceMask ||| (ROUTE_ATTR_DST ||| ROUTE_ATTR_FAMILY)
            data := { (parseHeader rtm msgtype).data with rtDst := some addr } }, 0) := by
    intro addr hfamily
    have hmask : (parseHeader rtm msgtype).ceMask &&& ROUTE_ATTR_FAMILY ≠ 0 := by
      simp only [parseHeader]
      split_ifs <;> decide
    rw [rtnlRouteSetDst, matchFamily_same hmask hfamily]
  have hdst : ∃ bytes, parseDst buf rtm tb (parseHeader rtm msgtype) = .ok
        { parseHeader rtm msgtype with
          ceMask := (parseHeader rtm msgtype).ceMask ||| (ROUTE_ATTR_DST ||| ROUTE_ATTR_FAMILY)
          data := { (parseHeader rtm msgtype).data with
            rtDst := some ⟨rtm.rtmFamily.toNat, rtm.rtmDstLen.toNat, bytes⟩ } } ∧
      ((tb RTA_DST).map (nlaBytes buf)).getD [] = bytes := by
    rw [parseDst]
    cases tb RTA_DST with
    | none =>
      dsimp only
      rw [hset _ rfl]
      exact ⟨[], rfl, rfl⟩
    | some a =>
      dsimp only
      rw [hset _ rfl]
      exact ⟨nlaBytes buf a, rfl, rfl⟩
  obtain ⟨bytes, hparse, rfl⟩ := hdst
  refine ⟨_, hparse, ⟨rfl, ?_, rfl, rfl, rfl, rfl, rfl, rfl, rfl, rfl, rfl, rfl, rfl, rfl, rfl, fun _ => rfl, ?_, ?_, rfl⟩⟩
  · simp only [parseHeader, dstContent, headContent, RouteContent.hasPrio, RouteContent.hasMetrics]
    by_cases hmpls : rtm.rtmFamily = AF_MPLS
    · simp only [hmpls, ne_eq, not_true_eq_false, if_false, decide_false]
      decide
    · simp only [hmpls, ne_eq, not_false_eq_true, if_true, decide_true]
      decide
  · intro i
    exact BitVec.getLsbD_zero
  · have hno : (dstContent buf rtm tb).hasMetrics = false := rfl
    rw [hno]
    exact iff_of_false (by decide : ¬ 0 < (0 : BitVec 8).toNat) Bool.false_ne_true

variable {c : RouteContent} {r : RouteVal}

theorem Shows.parseSrc (h : Shows c r) :
    Shows { c with src := (srcOf buf c.rtm tb).or c.src } (parseSrc buf c.rtm tb r) := by
  rw [Route.parseSrc, srcOf]
  cases tb RTA_SRC with
  | some a =>
    dsimp only
    by_cases hinet : c.rtm.rtmFamily = AF_INET
    · have hrefused : (rtnlRouteSetSrc r { nlAddrAllocAttr buf a c.rtm.rtmFamily.toNat with
          aPrefixlen := c.rtm.rtmSrcLen.toNat }).1 = r := by
        rw [rtnlRouteSetSrc, if_pos (by rw [hinet]; rfl)]
      rw [if_pos hinet, hrefused]
      exact h
    · rw [if_neg hinet]
      exact h.setSrc { nlAddrAllocAttr buf a c.rtm.rtmFamily.toNat with aPrefixlen := c.rtm.rtmSrcLen.toNat } hinet rfl rfl
  | none =>
    dsimp only
    by_cases hlen : c.rtm.rtmSrcLen ≠ 0
    · rw [if_pos hlen]
      by_cases hzero : c.rtm.rtmFamily = 0
      · rw [if_pos ⟨hlen, hzero⟩]
        exact h.setSrc ⟨0, c.rtm.rtmSrcLen.toNat, []⟩ (by rw [hzero]; decide) (by rw [hzero]; rfl) rfl
      · have hmismatch : matchFamily r ⟨0, c.rtm.rtmSrcLen.toNat, []⟩ = none := by
          rw [matchFamily, if_pos h.hasFamily, if_pos]
          rw [h.family]
          intro heq
          have hnat : ((c.rtm.rtmFamily.toNat : ℕ) : ℤ) = 0 := heq.symm
          exact hzero (BitVec.eq_of_toNat_eq (by exact_mod_cast hnat))
        have hrefused : (rtnlRouteSetSrc r ⟨0, c.rtm.rtmSrcLen.toNat, []⟩).1 = r := by
          have hinet : (0 : ℤ) ≠ Family.AF_INET := by decide
          rw [rtnlRouteSetSrc, if_neg hinet, hmismatch]
        rw [if_neg fun hboth => hzero hboth.2]
        dsimp only
        rw [hrefused]
        exact h
    · rw [if_neg hlen, if_neg fun hboth => hlen hboth.1]
      exact h

theorem Shows.parseTable (h : Shows c r) : Shows { c with table := ((tb RTA_TABLE).map (nlaGetU32 buf)).or c.table }
    (parseU32 buf tb r RTA_TABLE rtnlRouteSetTable) := by
  rw [parseU32]
  cases tb RTA_TABLE with
  | none => exact h
  | some a => exact h.setTable _

theorem Shows.parseIif (h : Shows c r) : Shows { c with iif := ((tb RTA_IIF).map (nlaGetU32 buf)).or c.iif }
    (parseU32 buf tb r RTA_IIF rtnlRouteSetIif) := by
  rw [parseU32]
  cases tb RTA_IIF with
  | none => exact h
  | some a => exact h.setIif _

theorem Shows.parsePriority (h : Shows c r) : Shows { c with prio := ((tb RTA_PRIORITY).map (nlaGetU32 buf)).or c.prio }
    (parseU32 buf tb r RTA_PRIORITY rtnlRouteSetPriority) := by
  rw [parseU32]
  cases tb RTA_PRIORITY with
  | none => exact h
  | some a => exact h.setPriority _

theorem Shows.parsePrefSrc (h : Shows c r) :
    Shows { c with prefSrc := ((tb RTA_PREFSRC).map (nlaBytes buf)).or c.prefSrc } (parsePrefSrc buf c.rtm tb r) := by
  rw [Route.parsePrefSrc]
  cases tb RTA_PREFSRC with
  | none => exact h
  | some a => exact h.setPrefSrc _

omit [HostOrder] in
theorem Shows.parseTtlPropagate (h : Shows c r) :
    Shows { c with ttlPropagate := ((tb RTA_TTL_PROPAGATE).map (nlaGetU8 buf)).or c.ttlPropagate }
      (parseTtlPropagate buf tb r) := by
  rw [Route.parseTtlPropagate]
  cases tb RTA_TTL_PROPAGATE with
  | none => exact h
  | some a => exact h.setTtlPropagate _

omit [HostOrder] in
theorem Shows.parseCacheinfo (h : Shows c r) :
    Shows { c with cacheinfo := (tb RTA_CACHEINFO).isSome || c.cacheinfo } (parseCacheinfo tb r) := by
  rw [Route.parseCacheinfo]
  cases tb RTA_CACHEINFO with
  | none => exact h
  | some a => exact h.setCacheinfo

/-- **What is read in front of the metrics** -/
theorem parse_head (msgtype : ℤ) : ∃ r, parseDst buf rtm tb (parseHeader rtm msgtype) = .ok r ∧
    Shows (headContent buf rtm tb) (parsePrefSrc buf rtm tb (parseU32 buf tb (parseU32 buf tb (parseU32 buf tb
      (parseSrc buf rtm tb r) RTA_TABLE rtnlRouteSetTable) RTA_IIF rtnlRouteSetIif) RTA_PRIORITY rtnlRouteSetPriority)) := by
  obtain ⟨r, hr, h⟩ := parseDst_shows buf rtm tb msgtype
  have hall := ((((h.parseSrc buf tb).parseTable buf tb).parseIif buf tb).parsePriority buf tb).parsePrefSrc buf tb
  simp only [dstContent, Option.or_none] at hall
  exact ⟨r, hr, hall⟩

/-! ## Metrics -/

/-- the value of a metric, if it is there and long enough -/
def metricOf (mtb : Index) (i : Fin RTAX_MAX) : Option (BitVec 32) :=
  ((mtb (i + 1)).filter fun a => decide (4 ≤ nlaLen buf a)).map (nlaGetU32 buf)

theorem Shows.parseMetric (h : Shows c r) (mtb : Index) (i : Fin RTAX_MAX) (hn : r.data.rtNmetrics.toNat < 255) :
    Shows { c with metrics := Function.update c.metrics i ((metricOf buf mtb i).or (c.metrics i)) } (parseMetric buf mtb r i) ∧
      (parseMetric buf mtb r i).data.rtNmetrics.toNat ≤ r.data.rtNmetrics.toNat + 1 := by
  rw [Route.parseMetric, metricOf]
  cases mtb (i + 1) with
  | none =>
    have hsame : Function.update c.metrics i ((none : Option (BitVec 32)).or (c.metrics i)) = c.metrics := by
      rw [Option.none_or, Function.update_eq_self]
    exact ⟨by simpa only [Option.filter_none, Option.map_none, hsame] using h, Nat.le_succ _⟩
  | some a =>
    dsimp only
    by_cases hlen : 4 ≤ nlaLen buf a
    · have hkept : (some a).filter (fun a => decide (4 ≤ nlaLen buf a)) = some a := by simp [Option.filter, hlen]
      rw [if_pos hlen, hkept]
      exact h.setMetric hn i _
    · have hsame : Function.update c.metrics i ((none : Option (BitVec 32)).or (c.metrics i)) = c.metrics := by
        rw [Option.none_or, Function.update_eq_self]
      have hgone : (some a).filter (fun a => decide (4 ≤ nlaLen buf a)) = none := by simp [Option.filter, hlen]
      rw [if_neg hlen, hgone, Option.map_none, hsame]
      exact ⟨h, Nat.le_succ _⟩

/-- the loop over the metrics -/
theorem Shows.parseMetricLoop (h : Shows c r) (mtb : Index) (is : List (Fin RTAX_MAX))
    (hn : r.data.rtNmetrics.toNat + is.length ≤ 255) :
    Shows { c with metrics := fun i => if i ∈ is then (metricOf buf mtb i).or (c.metrics i) else c.metrics i }
      (is.foldl (Route.parseMetric buf mtb) r) := by
  induction is generalizing c r with
  | nil => simpa using h
  | cons i is ih =>
    rw [List.length_cons] at hn
    obtain ⟨hone, hcount⟩ := h.parseMetric buf mtb i (by omega)
    have hrest := ih hone (by omega)
    have heq : (fun j => if j ∈ is then (metricOf buf mtb j).or (Function.update c.metrics i
          ((metricOf buf mtb i).or (c.metrics i)) j)
        else Function.update c.metrics i ((metricOf buf mtb i).or (c.metrics i)) j) =
        fun j => if j ∈ i :: is then (metricOf buf mtb j).or (c.metrics j) else c.metrics j := by
      funext j
      by_cases hj : j = i
      · subst hj
        rw [Function.update_self, if_pos List.mem_cons_self]
        split_ifs
        · rw [← Option.or_assoc, Option.or_self]
        · rfl
      · rw [Function.update_of_ne hj]
        simp only [List.mem_cons, hj, false_or]
    simp only [heq] at hrest
    exact hrest

/-- **What is read of the metrics** -/
theorem Shows.parseMetrics (h : Shows c r) (hnone : c.metrics = fun _ => none) {r' : RouteVal}
    (hparse : parseMetrics buf tb r = .ok r') :
    Shows { c with metrics := fun i => (tb RTA_METRICS).bind fun a => metricOf buf (nlaParseNested buf RTAX_MAX a none).2 i } r' := by
  have hn : r.data.rtNmetrics.toNat = 0 := by
    have hno : c.hasMetrics = false := by
      rw [RouteContent.hasMetrics, hnone]
      rfl
    have hnot : ¬ 0 < r.data.rtNmetrics.toNat := fun hpos => Bool.false_ne_true (hno ▸ h.nmetrics.1 hpos)
    omega
  rw [Route.parseMetrics] at hparse
  cases htb : tb RTA_METRICS with
  | none =>
    rw [htb] at hparse
    cases hparse
    simpa only [Option.bind_none, ← hnone] using h
  | some a =>
    rw [htb] at hparse
    dsimp only at hparse
    split_ifs at hparse
    cases hparse
    have hloop := h.parseMetricLoop buf (nlaParseNested buf RTAX_MAX a none).2 (List.finRange RTAX_MAX)
      (by rw [hn, List.length_finRange]; decide)
    simpa only [List.mem_finRange, if_true, hnone, Option.or_none, Option.bind_some] using hloop

/-! ## All of the message -/

/-- **What is read of the nexthops**: each adds one, and there are less of them than rounds. -/
theorem multipath_content {pton : ℕ → List UInt8 → Bool} {n pos tlen : ℕ} {family : BitVec 8} {r' : RouteVal}
    (hfamily : r.data.rtFamily = family) (h : rtnlRouteParseMultipath pton buf n pos tlen r = .ok r') :
    ∃ xs : List NhContent, r' = xs.foldl (fun r x => rtnlRouteAddNexthop r (x.nexthop family)) r ∧
      (∀ x ∈ xs, x.Valid pton) ∧ xs.length < n := by
  induction n generalizing pos tlen r with
  | zero => cases h
  | succ n ih =>
    simp only [rtnlRouteParseMultipath] at h
    split_ifs at h with hmore
    · obtain ⟨nh, hnh, hrest⟩ := except_bind_ok h
      rw [hfamily] at hnh
      obtain ⟨x, rfl, hx⟩ := parseRtnexthop_content buf family hnh
      obtain ⟨xs, hxs, hvalid, hlen⟩ := ih (r := rtnlRouteAddNexthop r (x.nexthop family)) hfamily hrest
      refine ⟨x :: xs, hxs, fun y hy => ?_, Nat.succ_lt_succ hlen⟩
      rcases List.mem_cons.1 hy with rfl | hy
      · exact hx
      · exact hvalid y hy
    · cases h
      exact ⟨[], rfl, nofun, Nat.succ_pos n⟩

/-- what a content that is read is like: the attributes were in a message, and the addresses pass -/
structure RouteContent.Valid (pton : ℕ → List UInt8 → Bool) (c : RouteContent) : Prop where
  dst : ∀ a ∈ c.dst, 4 + a.length ≤ 65535
  src : ∀ a ∈ c.src, 4 + a.length ≤ 65535
  family : ∀ a ∈ c.src, c.rtm.rtmFamily ≠ AF_INET
  prefSrc : ∀ a ∈ c.prefSrc, 4 + a.length ≤ 65535
  nexthops : ∀ x ∈ c.nexthops, x.Valid pton

theorem srcOf_valid : ∀ a ∈ srcOf buf rtm tb, rtm.rtmFamily ≠ AF_INET ∧ 4 + a.length ≤ 65535 := by
  intro a ha
  rw [srcOf] at ha
  cases htb : tb RTA_SRC with
  | some nla =>
    rw [htb] at ha
    dsimp only at ha
    split_ifs at ha with hinet
    · cases ha
    · cases ha
      exact ⟨hinet, nlaBytes_length buf nla⟩
  | none =>
    rw [htb] at ha
    dsimp only at ha
    split_ifs at ha with hzero
    · cases ha
      exact ⟨fun hinet => absurd (hinet.symm.trans hzero.2) (by decide), by decide⟩
    · cases ha

theorem bytes_fit {t : ℕ} : ∀ a ∈ (tb t).map (nlaBytes buf), 4 + a.length ≤ 65535 := by
  intro a ha
  obtain ⟨nla, -, rfl⟩ := Option.mem_map.1 ha
  exact nlaBytes_length buf nla

omit [HostOrder] in
/-- a nexthop in the message itself is not added to others -/
theorem addOldNh_many {r' : RouteVal} {oldNh : Option RtnlNexthop} (h : addOldNh rtm r oldNh = .ok r')
    (hmany : 1 < r'.data.rtNexthops.length) : r' = r := by
  cases oldNh with
  | none =>
    simp only [addOldNh] at h
    exact (Except.ok.inj h).symm
  | some nh =>
    simp only [addOldNh] at h
    cases hnhs : r.data.rtNexthops with
    | nil =>
      rw [hnhs] at h
      cases h
      simp [rtnlRouteAddNexthop, hnhs] at hmany
    | cons first rest =>
      rw [hnhs] at h
      dsimp only at h
      split_ifs at h
      exact (Except.ok.inj h).symm

omit [HostOrder] in
theorem parseLast_nexthops : (Route.parseTtlPropagate buf tb (Route.parseCacheinfo tb r)).data.rtNexthops = r.data.rtNexthops := by
  rw [Route.parseTtlPropagate, Route.parseCacheinfo]
  cases tb RTA_TTL_PROPAGATE <;> cases tb RTA_CACHEINFO <;> rfl

end

/-- **What is read.** Every route with several nexthops that is read has a content, with less nexthops than rounds. -/
theorem parse_shows [HostOrder] {pton : ℕ → List UInt8 → Bool} {n : ℕ} {nlh : NlMsg} {r : RouteVal}
    (h : rtnlRouteParse pton n nlh = .ok r) (hmany : 1 < r.data.rtNexthops.length) :
    ∃ c : RouteContent, Shows c r ∧ c.Valid pton ∧ c.nexthops.length < n := by
  unfold rtnlRouteParse at h
  generalize nlmsgParse nlh 12 RTA_MAX (some routePolicy) = parsed at h
  obtain ⟨err, tb⟩ := parsed
  obtain ⟨r1, hr1, hhead⟩ := parse_head nlh.buf (readRtMsg nlh.buf) tb nlh.nlmsgType
  dsimp only at h
  split_ifs at h
  rw [hr1] at h
  obtain ⟨_, hfirst, hmore⟩ := except_bind_ok h
  cases hfirst
  obtain ⟨r2, hr2, hrest⟩ := except_bind_ok hmore
  obtain ⟨r3, hr3, hlast⟩ := except_bind_ok hrest
  obtain ⟨oldNh, -, hold⟩ := except_bind_ok hlast
  obtain rfl := addOldNh_many _ hold hmany
  rw [parseLast_nexthops] at hmany
  have hmetrics := hhead.parseMetrics nlh.buf tb rfl hr2
  rw [Route.parseMultipathAttr] at hr3
  cases hmp : tb RTA_MULTIPATH with
  | none =>
    rw [hmp] at hr3
    cases hr3
    have hnil : r2.data.rtNexthops = [] := hmetrics.nexthops
    rw [hnil] at hmany
    exact absurd hmany (by decide)
  | some attr =>
    rw [hmp] at hr3
    obtain ⟨xs, rfl, hvalid, hlen⟩ := multipath_content nlh.buf hmetrics.family hr3
    have hall := ((hmetrics.addNexthops xs).parseCacheinfo tb).parseTtlPropagate nlh.buf tb
    refine ⟨_, hall, ⟨bytes_fit _ _, fun a ha => (srcOf_valid _ _ _ a ha).2, fun a ha => (srcOf_valid _ _ _ a ha).1,
      bytes_fit _ _, hvalid⟩, hlen⟩

end Libnl.Route
