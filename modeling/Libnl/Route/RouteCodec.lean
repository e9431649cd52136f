/-
Route messages (`rtnl_route_parse`, `rtnl_route_build_msg` in `lib/route/route_obj.c`).

A message has a fixed header, `struct rtmsg`, and attributes behind it. Some of what belongs together is apart: prefix
lengths are in the header and addresses in attributes, the table has eight bits in the header and an attribute of its own,
and several nexthops stand in one attribute, each with a header of its own and attributes behind that.

Reading a message that is not well formed may run for ever or over the end of memory: a nexthop of length zero, or a `via`
of less than two bytes. Such a read does not return (`Stop.never`). The loop over the nexthops may make a number of steps.

This file has the two functions; the results about them are in `RouteWire` and `RouteRoundTrip`.
-/
import Mathlib.Tactic
import Libnl.Message.Fields
import Libnl.Route.RouteObj

namespace Libnl.Route

open Bytes Msg Attr AttrWalk AttrStream Writer Fields Object
  Addr

/-! ## Constants -/

def RTA_DST : ℕ := 1
def RTA_SRC : ℕ := 2
def RTA_IIF : ℕ := 3
def RTA_OIF : ℕ := 4
def RTA_GATEWAY : ℕ := 5
def RTA_PRIORITY : ℕ := 6
def RTA_PREFSRC : ℕ := 7
def RTA_METRICS : ℕ := 8
def RTA_MULTIPATH : ℕ := 9
def RTA_FLOW : ℕ := 11
def RTA_CACHEINFO : ℕ := 12
def RTA_TABLE : ℕ := 15
def RTA_VIA : ℕ := 18
def RTA_NEWDST : ℕ := 19
def RTA_ENCAP_TYPE : ℕ := 21
def RTA_ENCAP : ℕ := 22
def RTA_TTL_PROPAGATE : ℕ := 26
def RTA_MAX : ℕ := 29

def MPLS_IPTUNNEL_DST : ℕ := 1
def MPLS_IPTUNNEL_TTL : ℕ := 2
def MPLS_IPTUNNEL_MAX : ℕ := 2

def LWTUNNEL_ENCAP_NONE : ℕ := 0
def LWTUNNEL_ENCAP_MPLS : ℕ := 1
def LWTUNNEL_ENCAP_MAX : ℕ := 7

/-- how reading fails: with a code, or never to return -/
inductive Stop where
  | code (err : ℤ)
  | never
deriving DecidableEq, Repr

/-! ## Addresses -/

/-- families for which `nl_addr_valid` reads the address as text: IPv4, IPv6, DECnet, LLC, MPLS -/
def textFamilies : List ℕ := [2, 10, 12, 26, 28]

/-- `nl_addr_valid`; what the readers of text say of the bytes is a parameter -/
def nlAddrValid (pton : ℕ → List UInt8 → Bool) (addr : List UInt8) (family : ℕ) : Bool :=
  if family ∈ textFamilies then pton family addr else true

/-- the check of the nexthop setters: they pass the length where the family belongs -/
def addrPasses (pton : ℕ → List UInt8 → Bool) (addr : NlAddr) : Bool := nlAddrValid pton addr.aAddr addr.aAddr.length

/-! ## Setters of nexthops -/

section

variable (nh : RtnlNexthop)

def rtnlRouteNhSetWeight (weight : BitVec 8) : RtnlNexthop :=
  { nh with rtnhWeight := weight, ceMask := nh.ceMask ||| NH_ATTR_WEIGHT }

def rtnlRouteNhSetIfindex (ifindex : BitVec 32) : RtnlNexthop :=
  { nh with rtnhIfindex := ifindex, ceMask := nh.ceMask ||| NH_ATTR_IFINDEX }

def rtnlRouteNhSetGateway (addr : NlAddr) : RtnlNexthop :=
  { nh with rtnhGateway := some addr, ceMask := nh.ceMask ||| NH_ATTR_GATEWAY }

def rtnlRouteNhSetFlags (flags : BitVec 8) : RtnlNexthop :=
  { nh with
    rtnhFlagMask := nh.rtnhFlagMask ||| flags
    rtnhFlags := nh.rtnhFlags ||| flags
    ceMask := nh.ceMask ||| NH_ATTR_FLAGS }

def rtnlRouteNhSetRealms (realms : BitVec 32) : RtnlNexthop :=
  { nh with rtnhRealms := realms, ceMask := nh.ceMask ||| NH_ATTR_REALMS }

def rtnlRouteNhSetNewdst (pton : ℕ → List UInt8 → Bool) (addr : NlAddr) : Except Stop RtnlNexthop :=
  if addrPasses pton addr then .ok { nh with rtnhNewdst := some addr, ceMask := nh.ceMask ||| NH_ATTR_NEWDST }
  else .error (.code (-NLE_INVAL))

def rtnlRouteNhSetVia (pton : ℕ → List UInt8 → Bool) (addr : NlAddr) : Except Stop RtnlNexthop :=
  if addrPasses pton addr then .ok { nh with rtnhVia := some addr, ceMask := nh.ceMask ||| NH_ATTR_VIA }
  else .error (.code (-NLE_INVAL))

/-- `rtnl_route_nh_encap_mpls` and, in it, `nh_set_encap` -/
def rtnlRouteNhEncapMpls (pton : ℕ → List UInt8 → Bool) (addr : NlAddr) (ttl : BitVec 8) : Except Stop RtnlNexthop :=
  if addrPasses pton addr then
    .ok { nh with rtnhEncap := some ⟨some addr, ttl⟩, ceMask := nh.ceMask ||| NH_ATTR_ENCAP }
  else .error (.code (-NLE_INVAL))

end

/-! ## Setters of routes -/

/-- `calloc`, and what `rtnl_route_alloc` fills in -/
def rtnlRouteAlloc : RouteVal :=
  ⟨0, 0, 0, ⟨0, 0, 0, 0, 0, 0, 0, 0, none, none, 0, 0, 0, fun _ => 0, 0, none, [], 0⟩⟩

section

variable (r : RouteVal)

/-- an address must be of the family of the route; a route without one takes it over -/
def matchFamily (addr : NlAddr) : Option RouteVal :=
  if r.ceMask &&& ROUTE_ATTR_FAMILY ≠ 0 then
    if addr.aFamily ≠ r.data.rtFamily.toNat then none else some r
  else some { r with data := { r.data with rtFamily := BitVec.ofInt 8 addr.aFamily } }

/-- `rtnl_route_set_dst` -/
def rtnlRouteSetDst (addr : NlAddr) : RouteVal × ℤ :=
  match matchFamily r addr with
  | none => (r, -NLE_AF_MISMATCH)
  | some r =>
    ({ r with
        ceMask := r.ceMask ||| (ROUTE_ATTR_DST ||| ROUTE_ATTR_FAMILY)
        data := { r.data with rtDst := some addr } }, 0)

/-- `rtnl_route_set_src` -/
def rtnlRouteSetSrc (addr : NlAddr) : RouteVal × ℤ :=
  if addr.aFamily = Family.AF_INET then (r, -NLE_SRCRT_NOSUPPORT)
  else
    match matchFamily r addr with
    | none => (r, -NLE_AF_MISMATCH)
    | some r =>
      ({ r with
          ceMask := r.ceMask ||| (ROUTE_ATTR_SRC ||| ROUTE_ATTR_FAMILY)
          data := { r.data with rtSrc := some addr } }, 0)

/-- `rtnl_route_set_pref_src` -/
def rtnlRouteSetPrefSrc (addr : NlAddr) : RouteVal × ℤ :=
  match matchFamily r addr with
  | none => (r, -NLE_AF_MISMATCH)
  | some r =>
    ({ r with
        ceMask := r.ceMask ||| (ROUTE_ATTR_PREF_SRC ||| ROUTE_ATTR_FAMILY)
        data := { r.data with rtPrefSrc := some addr } }, 0)

def rtnlRouteSetTable (table : BitVec 32) : RouteVal :=
  { r with ceMask := r.ceMask ||| ROUTE_ATTR_TABLE, data := { r.data with rtTable := table } }

def rtnlRouteSetIif (ifindex : BitVec 32) : RouteVal :=
  { r with ceMask := r.ceMask ||| ROUTE_ATTR_IIF, data := { r.data with rtIif := ifindex } }

def rtnlRouteSetPriority (prio : BitVec 32) : RouteVal :=
  { r with ceMask := r.ceMask ||| ROUTE_ATTR_PRIO, data := { r.data with rtPrio := prio } }

def rtnlRouteSetTtlPropagate (ttlProp : BitVec 8) : RouteVal :=
  { r with ceMask := r.ceMask ||| ROUTE_ATTR_TTL_PROPAGATE, data := { r.data with rtTtlPropagate := ttlProp } }

/-- `rtnl_route_set_metric` for the metric of type `i + 1` -/
def rtnlRouteSetMetric (i : Fin RTAX_MAX) (value : BitVec 32) : RouteVal :=
  { r with
    ceMask := r.ceMask ||| ROUTE_ATTR_METRICS
    data := { r.data with
      rtMetrics := Function.update r.data.rtMetrics i value
      rtNmetrics := if r.data.rtMetricsMask.getLsbD i then r.data.rtNmetrics else r.data.rtNmetrics + 1
      rtMetricsMask := r.data.rtMetricsMask ||| BitVec.twoPow 32 i } }

/-- `rtnl_route_get_metric` for the metric of type `i + 1` -/
def rtnlRouteGetMetric (i : Fin RTAX_MAX) : Option (BitVec 32) :=
  if r.data.rtMetricsMask.getLsbD i then some (r.data.rtMetrics i) else none

end

/-! ## Reading -/

def routePolicy (type : ℕ) : NlaPolicy :=
  if type ∈ [RTA_IIF, RTA_OIF, RTA_PRIORITY, RTA_FLOW] then ⟨.u32, 0, 0⟩
  else if type = RTA_CACHEINFO then ⟨.unspec, 32, 0⟩
  else if type ∈ [RTA_METRICS, RTA_MULTIPATH, RTA_ENCAP] then ⟨.nested, 0, 0⟩
  else if type = RTA_TTL_PROPAGATE then ⟨.u8, 0, 0⟩
  else if type = RTA_ENCAP_TYPE then ⟨.u16, 0, 0⟩
  else ⟨.unspec, 0, 0⟩

def mplsEncapPolicy (type : ℕ) : NlaPolicy :=
  if type = MPLS_IPTUNNEL_DST then ⟨.u32, 0, 0⟩
  else if type = MPLS_IPTUNNEL_TTL then ⟨.u8, 0, 0⟩
  else ⟨.unspec, 0, 0⟩

/-- `struct rtmsg` -/
structure RtMsg where
  rtmFamily : BitVec 8
  rtmDstLen : BitVec 8
  rtmSrcLen : BitVec 8
  rtmTos : BitVec 8
  rtmTable : BitVec 8
  rtmProtocol : BitVec 8
  rtmScope : BitVec 8
  rtmType : BitVec 8
  rtmFlags : BitVec 32
deriving DecidableEq

section

variable [HostOrder] (pton : ℕ → List UInt8 → Bool) (buf : Mem)

/-- the header of the message -/
def readRtMsg : RtMsg :=
  ⟨(buf 16).toBitVec, (buf 17).toBitVec, (buf 18).toBitVec, (buf 19).toBitVec, (buf 20).toBitVec, (buf 21).toBitVec,
    (buf 22).toBitVec, (buf 23).toBitVec, BitVec.ofNat 32 (getU32 buf 24)⟩

/-- `rtnl_route_parse_via`; the length is converted to `size_t` -/
def rtnlRouteParseVia (nla : ℕ) : Except Stop NlAddr :=
  let alen := nlaLen buf nla - 2
  if alen < 0 then .error .never
  else .ok (nlAddrBuild (getU16 buf (nlaData nla)) (readBytes buf (nlaData nla + 2) alen.toNat))

/-- `mpls_encap_parse_msg` -/
def mplsEncapParseMsg (nla : ℕ) (nh : RtnlNexthop) : Except Stop RtnlNexthop :=
  let (err, tb) := nlaParseNested buf MPLS_IPTUNNEL_MAX nla (some mplsEncapPolicy)
  if err ≠ 0 then .error (.code err)
  else
    match tb MPLS_IPTUNNEL_DST with
    | none => .error (.code (-NLE_INVAL))
    | some dst =>
      let ttl := match tb MPLS_IPTUNNEL_TTL with
        | none => 0
        | some a => nlaGetU8 buf a
      rtnlRouteNhEncapMpls nh pton (nlAddrAllocAttr buf dst Family.AF_MPLS) ttl

/-- `nh_encap_parse_msg` -/
def nhEncapParseMsg (encap encapType : ℕ) (nh : RtnlNexthop) : Except Stop RtnlNexthop :=
  let eType := getU16 buf (nlaData encapType)
  if eType = LWTUNNEL_ENCAP_NONE then .error (.code (-NLE_INVAL))
  else if LWTUNNEL_ENCAP_MAX < eType then .error (.code (-NLE_INVAL))
  else if eType ≠ LWTUNNEL_ENCAP_MPLS then .error (.code (-NLE_MSGTYPE_NOSUPPORT))
  else mplsEncapParseMsg pton buf encap nh

/-! The attributes of a nexthop, in the order in which both loops look at them -/

section

variable (family : ℤ) (tb : Index) (nh : RtnlNexthop)

def parseGateway : RtnlNexthop :=
  match tb RTA_GATEWAY with
  | none => nh
  | some a => rtnlRouteNhSetGateway nh (nlAddrAllocAttr buf a family)

def parseFlow : RtnlNexthop :=
  match tb RTA_FLOW with
  | none => nh
  | some a => rtnlRouteNhSetRealms nh (nlaGetU32 buf a)

def parseNewdst : Except Stop RtnlNexthop :=
  match tb RTA_NEWDST with
  | none => .ok nh
  | some a => rtnlRouteNhSetNewdst nh pton (nlAddrAllocAttr buf a family)

def parseVia : Except Stop RtnlNexthop :=
  match tb RTA_VIA with
  | none => .ok nh
  | some a => (rtnlRouteParseVia buf a).bind (rtnlRouteNhSetVia nh pton)

def parseEncap : Except Stop RtnlNexthop :=
  match tb RTA_ENCAP, tb RTA_ENCAP_TYPE with
  | some encap, some encapType => nhEncapParseMsg pton buf encap encapType nh
  | _, _ => .ok nh

def parseNhAttrs : Except Stop RtnlNexthop :=
  (parseNewdst pton buf family tb (parseFlow buf tb (parseGateway buf family tb nh))).bind fun nh =>
    (parseVia pton buf tb nh).bind fun nh => parseEncap pton buf tb nh

end

/-- `nla_parse`; the length bounds the iterations -/
def nlaParseAttrs (maxtype : ℤ) (head : ℕ) (len : ℕ) (policy : ℕ → NlaPolicy) : ℤ × Index :=
  (nlaParse (len + 1) buf maxtype head len (some policy)).getD (0, fun _ => none)

/-- one round of the loop in `rtnl_route_parse_multipath` -/
def parseRtnexthop (family : ℤ) (rtnh : ℕ) : Except Stop RtnlNexthop :=
  let rtnhLen := getU16 buf rtnh
  let nh := rtnlRouteNhSetFlags
    (rtnlRouteNhSetIfindex (rtnlRouteNhSetWeight rtnlRouteNhAlloc (buf (rtnh + 3)).toBitVec)
      (BitVec.ofNat 32 (getU32 buf (rtnh + 4))))
    (buf (rtnh + 2)).toBitVec
  if 8 < rtnhLen then
    let (err, ntb) := nlaParseAttrs buf RTA_MAX (rtnh + 8) (rtnhLen - 8) routePolicy
    if err < 0 then .error (.code err) else parseNhAttrs pton buf family ntb nh
  else .ok nh

/-- `rtnl_route_parse_multipath`, in `n` rounds at most; `tlen` is a `size_t` -/
def rtnlRouteParseMultipath : ℕ → ℕ → ℕ → RouteVal → Except Stop RouteVal
  | 0, _, _, _ => .error .never
  | n + 1, rtnh, tlen, r =>
    let rtnhLen := getU16 buf rtnh
    if 8 ≤ tlen ∧ rtnhLen ≤ tlen then
      (parseRtnexthop pton buf r.data.rtFamily.toNat rtnh).bind fun nh =>
        rtnlRouteParseMultipath n (rtnh + align4 rtnhLen) (toU64 (tlen - align4 rtnhLen)) (rtnlRouteAddNexthop r nh)
    else .ok r

/-! The stages of `rtnl_route_parse` -/

/-- what comes from the header -/
def parseHeader (rtm : RtMsg) (msgtype : ℤ) : RouteVal :=
  { rtnlRouteAlloc with
    ceMsgtype := msgtype
    ceMask := ROUTE_ATTR_FAMILY ||| ROUTE_ATTR_TOS ||| ROUTE_ATTR_TABLE ||| ROUTE_ATTR_TYPE ||| ROUTE_ATTR_SCOPE |||
      ROUTE_ATTR_PROTOCOL ||| ROUTE_ATTR_FLAGS ||| (if rtm.rtmFamily ≠ AF_MPLS then ROUTE_ATTR_PRIO else 0)
    data := { rtnlRouteAlloc.data with
      rtFamily := rtm.rtmFamily
      rtTos := rtm.rtmTos
      rtTable := rtm.rtmTable.setWidth 32
      rtType := rtm.rtmType
      rtScope := rtm.rtmScope
      rtProtocol := rtm.rtmProtocol
      rtFlags := rtm.rtmFlags
      rtPrio := 0 } }

section

variable (rtm : RtMsg) (tb : Index) (r : RouteVal)

def parseDst : Except Stop RouteVal :=
  let dst : NlAddr := match tb RTA_DST with
    | none => ⟨rtm.rtmFamily.toNat, 0, []⟩
    | some a => nlAddrAllocAttr buf a rtm.rtmFamily.toNat
  match rtnlRouteSetDst r { dst with aPrefixlen := rtm.rtmDstLen.toNat } with
  | (r, err) => if err < 0 then .error (.code err) else .ok r

/-- nobody looks whether the source is taken -/
def parseSrc : RouteVal :=
  let src : Option NlAddr := match tb RTA_SRC with
    | some a => some (nlAddrAllocAttr buf a rtm.rtmFamily.toNat)
    | none => if rtm.rtmSrcLen ≠ 0 then some ⟨0, 0, []⟩ else none
  match src with
  | none => r
  | some src => (rtnlRouteSetSrc r { src with aPrefixlen := rtm.rtmSrcLen.toNat }).1

/-- an attribute of 32 bits -/
def parseU32 (type : ℕ) (set : RouteVal → BitVec 32 → RouteVal) : RouteVal :=
  match tb type with
  | none => r
  | some a => set r (nlaGetU32 buf a)

def parsePrefSrc : RouteVal :=
  match tb RTA_PREFSRC with
  | none => r
  | some a => (rtnlRouteSetPrefSrc r (nlAddrAllocAttr buf a rtm.rtmFamily.toNat)).1

/-- one round of the loop over the metrics; types are always in range -/
def parseMetric (mtb : Index) (r : RouteVal) (i : Fin RTAX_MAX) : RouteVal :=
  match mtb (i + 1) with
  | none => r
  | some a => if 4 ≤ nlaLen buf a then rtnlRouteSetMetric r i (nlaGetU32 buf a) else r

def parseMetrics : Except Stop RouteVal :=
  match tb RTA_METRICS with
  | none => .ok r
  | some a =>
    let (err, mtb) := nlaParseNested buf RTAX_MAX a none
    if err < 0 then .error (.code err) else .ok ((List.finRange RTAX_MAX).foldl (parseMetric buf mtb) r)

def parseMultipathAttr (n : ℕ) : Except Stop RouteVal :=
  match tb RTA_MULTIPATH with
  | none => .ok r
  | some a => rtnlRouteParseMultipath pton buf n (nlaData a) (toU64 (nlaLen buf a)) r

/-- the information itself is left out -/
def parseCacheinfo : RouteVal :=
  match tb RTA_CACHEINFO with
  | none => r
  | some _ => { r with ceMask := r.ceMask ||| ROUTE_ATTR_CACHEINFO }

/-- `old_nh`, for the attributes of a nexthop that stand in the message itself -/
def parseOldNh : Except Stop (Option RtnlNexthop) :=
  let oif := match tb RTA_OIF with
    | none => rtnlRouteNhAlloc
    | some a => rtnlRouteNhSetIfindex rtnlRouteNhAlloc (nlaGetU32 buf a)
  if (tb RTA_OIF).isSome ∨ (tb RTA_GATEWAY).isSome ∨ (tb RTA_FLOW).isSome ∨ (tb RTA_NEWDST).isSome ∨
      (tb RTA_VIA).isSome ∨ ((tb RTA_ENCAP).isSome ∧ (tb RTA_ENCAP_TYPE).isSome) then
    (parseNhAttrs pton buf rtm.rtmFamily.toNat tb oif).map some
  else .ok none

def parseTtlPropagate : RouteVal :=
  match tb RTA_TTL_PROPAGATE with
  | none => r
  | some a => rtnlRouteSetTtlPropagate r (nlaGetU8 buf a)

/-- a nexthop in the message itself is the only one, or a duplicate of the first -/
def addOldNh (oldNh : Option RtnlNexthop) : Except Stop RouteVal :=
  match oldNh with
  | none => .ok r
  | some nh =>
    let nh := rtnlRouteNhSetFlags nh (rtm.rtmFlags.setWidth 8)
    match r.data.rtNexthops with
    | [] => .ok (rtnlRouteAddNexthop r nh)
    | first :: _ =>
      if rtnlRouteNhCompare nh first nh.ceMask false ≠ 0 then .error (.code (-NLE_INVAL)) else .ok r

end

end

/-- `rtnl_route_parse`; the loop over the nexthops may make `n` rounds -/
def rtnlRouteParse [HostOrder] (pton : ℕ → List UInt8 → Bool) (n : ℕ) (nlh : NlMsg) : Except Stop RouteVal :=
  let (err, tb) := nlmsgParse nlh 12 RTA_MAX (some routePolicy)
  if err < 0 then .error (.code err)
  else
    let rtm := readRtMsg nlh.buf
    (parseDst nlh.buf rtm tb (parseHeader rtm nlh.nlmsgType)).bind fun r =>
      let r := parseSrc nlh.buf rtm tb r
      let r := parseU32 nlh.buf tb r RTA_TABLE rtnlRouteSetTable
      let r := parseU32 nlh.buf tb r RTA_IIF rtnlRouteSetIif
      let r := parseU32 nlh.buf tb r RTA_PRIORITY rtnlRouteSetPriority
      let r := parsePrefSrc nlh.buf rtm tb r
      (parseMetrics nlh.buf tb r).bind fun r =>
        (parseMultipathAttr pton nlh.buf tb r n).bind fun r =>
          let r := parseCacheinfo tb r
          (parseOldNh pton nlh.buf rtm tb).bind fun oldNh =>
            addOldNh rtm (parseTtlPropagate nlh.buf tb r) oldNh

/-! ## Writing -/

def RTN_LOCAL : BitVec 8 := 2
def RTNL_FAMILY_IPMR : BitVec 8 := 128
def RT_SCOPE_UNIVERSE : BitVec 8 := 0
def RT_SCOPE_LINK : BitVec 8 := 253
def RT_SCOPE_HOST : BitVec 8 := 254

/-- `rtnl_route_guess_scope` -/
def rtnlRouteGuessScope (r : RouteVal) : BitVec 8 :=
  if r.data.rtType = RTN_LOCAL then RT_SCOPE_HOST
  else if r.data.rtFamily = AF_MPLS then RT_SCOPE_UNIVERSE
  else if r.data.rtFamily = RTNL_FAMILY_IPMR then RT_SCOPE_UNIVERSE
  else if r.data.rtNexthops.any fun nh => nh.rtnhGateway.isSome then RT_SCOPE_UNIVERSE
  else RT_SCOPE_LINK

/-- the header `rtnl_route_build_msg` writes; prefix lengths come from the addresses -/
def routeRtMsg (r : RouteVal) (dst : NlAddr) : RtMsg where
  rtmFamily := r.data.rtFamily
  rtmDstLen := BitVec.ofInt 8 dst.aPrefixlen
  rtmSrcLen := match r.data.rtSrc with
    | none => 0
    | some src => BitVec.ofInt 8 src.aPrefixlen
  rtmTos := r.data.rtTos
  rtmTable := r.data.rtTable.setWidth 8
  rtmProtocol := r.data.rtProtocol
  rtmScope := if r.ceMask &&& ROUTE_ATTR_SCOPE = 0 then rtnlRouteGuessScope r else r.data.rtScope
  rtmType := r.data.rtType
  rtmFlags :=
    if rtnlRouteGetNnexthops r = 1 then
      match rtnlRouteNexthopN r 0 with
      | none => r.data.rtFlags
      | some nh => r.data.rtFlags ||| nh.rtnhFlags.setWidth 32
    else r.data.rtFlags

section

variable [HostOrder]

def RtMsg.bytes (rtm : RtMsg) : List UInt8 :=
  [UInt8.ofBitVec rtm.rtmFamily, UInt8.ofBitVec rtm.rtmDstLen, UInt8.ofBitVec rtm.rtmSrcLen, UInt8.ofBitVec rtm.rtmTos,
    UInt8.ofBitVec rtm.rtmTable, UInt8.ofBitVec rtm.rtmProtocol, UInt8.ofBitVec rtm.rtmScope,
    UInt8.ofBitVec rtm.rtmType] ++ u32Bytes rtm.rtmFlags.toNat

/-- `NLA_PUT_ADDR`, if there is an address -/
def addrLeaf (type : ℕ) : Option NlAddr → List Leaf
  | none => []
  | some addr => [⟨type, addr.aAddr⟩]

/-- `rtnl_route_put_via`: the family has sixteen bits -/
def viaLeaf : Option NlAddr → List Leaf
  | none => []
  | some addr => [⟨RTA_VIA, u16Bytes (toU16 addr.aFamily) ++ addr.aAddr⟩]

/-- the attributes in front of the metrics -/
def headLeaves (r : RouteVal) (dst : NlAddr) : List Leaf :=
  leafIf (r.data.rtFamily ≠ AF_MPLS) RTA_TABLE (u32Bytes r.data.rtTable.toNat) ++
    leafIf (dst.aAddr ≠ []) RTA_DST dst.aAddr ++
    leafIf (r.ceMask &&& ROUTE_ATTR_PRIO ≠ 0) RTA_PRIORITY (u32Bytes r.data.rtPrio.toNat) ++
    (if r.ceMask &&& ROUTE_ATTR_SRC ≠ 0 then addrLeaf RTA_SRC r.data.rtSrc else []) ++
    (if r.ceMask &&& ROUTE_ATTR_PREF_SRC ≠ 0 then addrLeaf RTA_PREFSRC r.data.rtPrefSrc else []) ++
    leafIf (r.ceMask &&& ROUTE_ATTR_IIF ≠ 0) RTA_IIF (u32Bytes r.data.rtIif.toNat) ++
    leafIf (r.ceMask &&& ROUTE_ATTR_TTL_PROPAGATE ≠ 0) RTA_TTL_PROPAGATE [UInt8.ofBitVec r.data.rtTtlPropagate]

def metricLeaves (r : RouteVal) : List Leaf :=
  (List.finRange RTAX_MAX).flatMap fun i =>
    match rtnlRouteGetMetric r i with
    | none => []
    | some value => [⟨i + 1, u32Bytes value.toNat⟩]

/-- what `mpls_encap_build_msg` puts -/
def encapLeaves (e : RtnlNhEncap) : List Leaf :=
  addrLeaf MPLS_IPTUNNEL_DST e.dst ++ leafIf (e.ttl ≠ 0) MPLS_IPTUNNEL_TTL [UInt8.ofBitVec e.ttl]

/-- `nh_encap_build_msg`, if there is something to build -/
def putEncap (encap : Option RtnlNhEncap) (msg : NlMsg) : NlMsg × ℤ :=
  match encap with
  | none => (msg, 0)
  | some e =>
    thenPut (-NLE_MSGSIZE) (nlaPut msg RTA_ENCAP_TYPE 2 (u16Bytes LWTUNNEL_ENCAP_MPLS))
      (putNest (-NLE_MSGSIZE) RTA_ENCAP (encapLeaves e))

/-- the attributes of a nexthop in `RTA_MULTIPATH`; realms of zero are taken for none -/
def multipathLeaves (nh : RtnlNexthop) : List Leaf :=
  addrLeaf RTA_GATEWAY nh.rtnhGateway ++ addrLeaf RTA_NEWDST nh.rtnhNewdst ++ viaLeaf nh.rtnhVia ++
    leafIf (nh.rtnhRealms ≠ 0) RTA_FLOW (u32Bytes nh.rtnhRealms.toNat)

/-- the attributes of the only nexthop, in the message itself -/
def singleLeaves (nh : RtnlNexthop) : List Leaf :=
  addrLeaf RTA_GATEWAY nh.rtnhGateway ++ leafIf (nh.rtnhIfindex ≠ 0) RTA_OIF (u32Bytes nh.rtnhIfindex.toNat) ++
    leafIf (nh.rtnhRealms ≠ 0) RTA_FLOW (u32Bytes nh.rtnhRealms.toNat) ++ addrLeaf RTA_NEWDST nh.rtnhNewdst ++
    viaLeaf nh.rtnhVia

/-- one round of the loop over the nexthops: the length is filled in at the end -/
def putRtnexthop (nh : RtnlNexthop) (msg : NlMsg) : NlMsg × ℤ :=
  inNest (-NLE_MSGSIZE) (nlmsgReserve msg 8 4) fun msg rtnh =>
    let fields := [UInt8.ofBitVec nh.rtnhFlags, UInt8.ofBitVec nh.rtnhWeight] ++ u32Bytes nh.rtnhIfindex.toNat
    thenPut (-NLE_MSGSIZE) (putAll (-NLE_MSGSIZE) (multipathLeaves nh) (patch msg (rtnh + 2) fields)) fun msg =>
      thenPut (-NLE_MSGSIZE) (putEncap nh.rtnhEncap msg) fun msg =>
        (patch msg rtnh (u16Bytes (toU16 (nlmsgTail msg - rtnh))), 0)

def putRtnexthops : List RtnlNexthop → NlMsg → NlMsg × ℤ
  | [], msg => (msg, 0)
  | nh :: nhs, msg => thenPut (-NLE_MSGSIZE) (putRtnexthop nh msg) (putRtnexthops nhs)

/-- the nexthops: none, the only one, or all in a nest; what closing it returns is not looked at -/
def putNexthops (r : RouteVal) (msg : NlMsg) : NlMsg × ℤ :=
  if rtnlRouteGetNnexthops r = 0 then (msg, 0)
  else if rtnlRouteGetNnexthops r = 1 then
    match rtnlRouteNexthopN r 0 with
    | none => (msg, 0)
    | some nh =>
      thenPut (-NLE_MSGSIZE) (putAll (-NLE_MSGSIZE) (singleLeaves nh) msg) (putEncap nh.rtnhEncap)
  else
    inNest (-NLE_MSGSIZE) (nlaNestStart msg RTA_MULTIPATH) fun msg multipath =>
      thenPut (-NLE_MSGSIZE) (putRtnexthops r.data.rtNexthops msg) fun msg => ((nlaNestEnd msg multipath).1, 0)

/-- `rtnl_route_build_msg` -/
def rtnlRouteBuildMsg (msg : NlMsg) (r : RouteVal) : NlMsg × ℤ :=
  match r.data.rtDst with
  | none => (msg, -NLE_MISSING_ATTR)
  | some dst =>
    thenPut (-NLE_MSGSIZE) (nlmsgAppend msg (routeRtMsg r dst).bytes 4) fun msg =>
      thenPut (-NLE_MSGSIZE) (putAll (-NLE_MSGSIZE) (headLeaves r dst) msg) fun msg =>
        thenPut (-NLE_MSGSIZE)
          (if 0 < r.data.rtNmetrics.toNat then putNest (-NLE_MSGSIZE) RTA_METRICS (metricLeaves r) msg else (msg, 0))
          (putNexthops r)

end

end Libnl.Route
