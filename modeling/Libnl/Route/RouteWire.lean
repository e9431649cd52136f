/-
What `rtnl_route_build_msg` writes for a route with several nexthops.

- `nhImage`: the bytes of a nexthop, a header with the length and the attributes behind it. `putRtnexthop_room`.
- `routeImage`: the bytes of a route. `build_room`: with room, and as long as the nexthops fit into one attribute, they come
  to stand in the message.
-/
import Mathlib.Tactic
import Libnl.Route.RouteCodec

namespace Libnl.Route

open Bytes Msg Attr AttrTree AttrStream Writer Fields Object Addr

variable [HostOrder]

/-! ## Nexthops -/

/-- the attributes of the encapsulation -/
def encapAttrs : Option RtnlNhEncap → List Leaf
  | none => []
  | some e => [⟨RTA_ENCAP_TYPE, u16Bytes LWTUNNEL_ENCAP_MPLS⟩, ⟨32768 + RTA_ENCAP, encLeaves (encapLeaves e)⟩]

/-- all attributes of a nexthop in `RTA_MULTIPATH` -/
def nhLeaves (nh : RtnlNexthop) : List Leaf := multipathLeaves nh ++ encapAttrs nh.rtnhEncap

/-- the fields of `struct rtnexthop` behind the length -/
def nhFields (nh : RtnlNexthop) : List UInt8 :=
  [UInt8.ofBitVec nh.rtnhFlags, UInt8.ofBitVec nh.rtnhWeight] ++ u32Bytes nh.rtnhIfindex.toNat

def nhImage (nh : RtnlNexthop) : List UInt8 :=
  u16Bytes (8 + (encLeaves (nhLeaves nh)).length) ++ nhFields nh ++ encLeaves (nhLeaves nh)

def nhImages (nhs : List RtnlNexthop) : List UInt8 := nhs.flatMap nhImage

@[simp] theorem nhFields_length (nh : RtnlNexthop) : (nhFields nh).length = 6 := by
  simp only [nhFields, List.length_append, u32Bytes_length]
  rfl

@[simp] theorem nhImage_length (nh : RtnlNexthop) : (nhImage nh).length = 8 + (encLeaves (nhLeaves nh)).length := by
  simp only [nhImage, List.length_append, u16Bytes_length, nhFields_length]

@[simp] theorem nhImages_cons (nh : RtnlNexthop) (nhs : List RtnlNexthop) : nhImages (nh :: nhs) = nhImage nh ++ nhImages nhs :=
  rfl

omit [HostOrder] in
theorem addrLeaf_type {type : ℕ} {a : Option NlAddr} {l : Leaf} (h : l ∈ addrLeaf type a) : l.type = type := by
  cases a with
  | none => cases h
  | some addr => rw [List.mem_singleton.1 h]

theorem viaLeaf_type {a : Option NlAddr} {l : Leaf} (h : l ∈ viaLeaf a) : l.type = RTA_VIA := by
  cases a with
  | none => cases h
  | some addr => rw [List.mem_singleton.1 h]

omit [HostOrder] in
theorem leafIf_type {c : Bool} {type : ℕ} {p : List UInt8} {l : Leaf} (h : l ∈ leafIf c type p) : l.type = type := by
  cases c with
  | false => cases h
  | true => rw [List.mem_singleton.1 h]

theorem multipathLeaves_type {nh : RtnlNexthop} {l : Leaf} (h : l ∈ multipathLeaves nh) : l.type < 65536 := by
  simp only [multipathLeaves, List.mem_append] at h
  rcases h with ((h | h) | h) | h
  · rw [addrLeaf_type h]
    decide
  · rw [addrLeaf_type h]
    decide
  · rw [viaLeaf_type h]
    decide
  · rw [leafIf_type h]
    decide

omit [HostOrder] in
theorem encapLeaves_type {e : RtnlNhEncap} {l : Leaf} (h : l ∈ encapLeaves e) : l.type < 65536 := by
  rcases List.mem_append.1 h with h | h
  · rw [addrLeaf_type h]
    decide
  · rw [leafIf_type h]
    decide

/-- attributes that fit together fit one by one -/
theorem leaf_wf {ls : List Leaf} (hlen : (encLeaves ls).length ≤ 65535) (htype : ∀ l ∈ ls, l.type < 65536) :
    ∀ l ∈ ls, l.WF := by
  intro l hl
  refine ⟨htype l hl, ?_⟩
  obtain ⟨before, behind, rfl⟩ := List.append_of_mem hl
  have hge := le_align4 (4 + l.payload.length)
  rw [encLeaves_append, encLeaves_cons, List.length_append, List.length_append, encLeaf_length] at hlen
  omega

/-- **The encapsulation**, with room -/
theorem putEncap_room {m : NlMsg} (hm : Tidy m) (encap : Option RtnlNhEncap) (hdst : ∀ e ∈ encap, e.dst ≠ none)
    (hlen : (encLeaves (encapAttrs encap)).length ≤ 65535) (hroom : Room m (encLeaves (encapAttrs encap)).length) :
    ∃ m', putEncap encap m = (m', 0) ∧ Wrote m m' (encLeaves (encapAttrs encap)) := by
  cases encap with
  | none => exact ⟨m, rfl, Wrote.nil hm⟩
  | some e =>
    have hsplit := encLeaves_append [⟨RTA_ENCAP_TYPE, u16Bytes LWTUNNEL_ENCAP_MPLS⟩]
      [⟨32768 + RTA_ENCAP, encLeaves (encapLeaves e)⟩]
    have hnest : (encLeaves [⟨32768 + RTA_ENCAP, encLeaves (encapLeaves e)⟩]).length = 4 + (encLeaves (encapLeaves e)).length := by
      have hmod := encLeaves_mod (encapLeaves e)
      rw [encLeaves_cons, encLeaves_nil, List.append_nil, encLeaf_length]
      exact align4_of_mod (show (4 + (encLeaves (encapLeaves e)).length) % 4 = 0 by omega)
    rw [List.singleton_append] at hsplit
    rw [encapAttrs, hsplit, List.length_append] at hlen hroom
    rw [hnest] at hlen hroom
    rw [encapAttrs, hsplit]
    have hwf : Leaf.WF ⟨RTA_ENCAP_TYPE, u16Bytes LWTUNNEL_ENCAP_MPLS⟩ :=
      ⟨show RTA_ENCAP_TYPE < 65536 by decide, show 4 + (u16Bytes LWTUNNEL_ENCAP_MPLS).length ≤ 65535 by simp⟩
    have hne : encapLeaves e ≠ [] := by
      cases hd : e.dst with
      | none => exact absurd hd (hdst e rfl)
      | some a =>
        rw [encapLeaves, hd]
        exact List.cons_ne_nil _ _
    obtain ⟨m1, h1, hw1⟩ := put_leaf hm hwf (room_mono hroom (Nat.le_add_right _ _))
    obtain ⟨m2, h2, hw2⟩ := putNest_room (-NLE_MSGSIZE) (t := RTA_ENCAP) (by decide) hne
      (leaf_wf (by omega) fun l hl => encapLeaves_type hl) (by omega) hw1.tidy (room_after hw1 hroom)
    refine ⟨m2, ?_, hw1.append hw2⟩
    simp only [u16Bytes_length, Nat.cast_ofNat] at h1
    rw [putEncap]
    simp only [h1, thenPut_ok, h2]

/-- what a nexthop must be to be written as its image -/
structure NhFits (nh : RtnlNexthop) : Prop where
  dst : ∀ e ∈ nh.rtnhEncap, e.dst ≠ none
  len : (nhImage nh).length ≤ 65535

/-- **One nexthop**, with room -/
theorem putRtnexthop_room {m : NlMsg} (hm : Tidy m) {nh : RtnlNexthop} (hnh : NhFits nh)
    (hroom : Room m (nhImage nh).length) : ∃ m', putRtnexthop nh m = (m', 0) ∧ Wrote m m' (nhImage nh) := by
  have hlen := hnh.len
  rw [nhImage_length] at hlen hroom
  have hboth : (encLeaves (nhLeaves nh)).length =
      (encLeaves (multipathLeaves nh)).length + (encLeaves (encapAttrs nh.rtnhEncap)).length := by
    rw [nhLeaves, encLeaves_append, List.length_append]
  obtain ⟨m1, old, hres, hold, hw1⟩ := nlmsgReserve_aligned hm (n := 8) (by decide) (room_mono hroom (Nat.le_add_right _ _))
  -- the eight bytes: two for the length, which come last, and six for the fields
  obtain ⟨o1, o2, hsplit, h1len, h2len⟩ : ∃ o1 o2, old = o1 ++ o2 ∧ o1.length = 2 ∧ o2.length = 6 :=
    ⟨old.take 2, old.drop 2, (List.take_append_drop 2 old).symm, by simp [hold], by simp [hold]⟩
  have hpatch1 := Wrote.patch o1 o2 [] (nhFields nh) (by rw [List.append_nil, ← hsplit]; exact hw1)
    (by rw [nhFields_length, h2len])
  rw [List.append_nil, h1len] at hpatch1
  have hroom1 := room_after hpatch1 (b := (encLeaves (nhLeaves nh)).length)
    (by rw [List.length_append, h1len, nhFields_length]; exact hroom)
  rw [hboth] at hroom1
  obtain ⟨m2, h2, hw2⟩ := putAll_room (-NLE_MSGSIZE) (leaf_wf (by omega) fun l hl => multipathLeaves_type hl) hpatch1.tidy
    (room_mono hroom1 (Nat.le_add_right _ _))
  obtain ⟨m3, h3, hw3⟩ := putEncap_room hw2.tidy nh.rtnhEncap hnh.dst (by omega) (room_after hw2 hroom1)
  have hall := (hpatch1.append hw2).append hw3
  have himage : o1 ++ nhFields nh ++ encLeaves (multipathLeaves nh) ++ encLeaves (encapAttrs nh.rtnhEncap) =
      [] ++ o1 ++ (nhFields nh ++ encLeaves (nhLeaves nh)) := by
    rw [nhLeaves, encLeaves_append, List.nil_append, List.append_assoc, List.append_assoc]
  rw [himage] at hall
  have hl := hall.len
  simp only [List.length_append, List.length_nil, h1len, nhFields_length] at hl
  have htail : toU16 ((nlmsgTail m3 : ℤ) - m.nlmsgLen) = 8 + (encLeaves (nhLeaves nh)).length := by
    rw [hall.tidy.tail, hl, toU16]
    omega
  have hpatch2 := Wrote.patch [] o1 _ (u16Bytes (8 + (encLeaves (nhLeaves nh)).length)) hall (by rw [u16Bytes_length, h1len])
  rw [List.length_nil, add_zero, List.nil_append] at hpatch2
  rw [nhFields] at h2
  rw [nhImage, List.append_assoc]
  refine ⟨_, ?_, hpatch2⟩
  rw [putRtnexthop, hres, inNest_some]
  dsimp only
  rw [h2, thenPut_ok, h3, thenPut_ok, htail]

/-- **All nexthops**, with room -/
theorem putRtnexthops_room {nhs : List RtnlNexthop} (hnhs : ∀ nh ∈ nhs, NhFits nh) {m : NlMsg} (hm : Tidy m)
    (hroom : Room m (nhImages nhs).length) : ∃ m', putRtnexthops nhs m = (m', 0) ∧ Wrote m m' (nhImages nhs) := by
  induction nhs generalizing m with
  | nil => exact ⟨m, rfl, Wrote.nil hm⟩
  | cons nh nhs ih =>
    rw [nhImages_cons, List.length_append] at hroom
    obtain ⟨m1, h1, hw1⟩ := putRtnexthop_room hm (hnhs nh List.mem_cons_self) (room_mono hroom (Nat.le_add_right _ _))
    obtain ⟨m2, h2, hw2⟩ := ih (fun x hx => hnhs x (List.mem_cons_of_mem nh hx)) hw1.tidy (room_after hw1 hroom)
    refine ⟨m2, ?_, hw1.append hw2⟩
    rw [putRtnexthops, h1, thenPut_ok, h2]

/-! ## The route -/

/-- the attribute with the metrics, if there are any -/
def metricsAttr (r : RouteVal) : List Leaf :=
  if metricLeaves r = [] then [] else [⟨32768 + RTA_METRICS, encLeaves (metricLeaves r)⟩]

/-- the attribute with the nexthops -/
def multipathAttr (r : RouteVal) : Leaf := ⟨32768 + RTA_MULTIPATH, nhImages r.data.rtNexthops⟩

/-- the header and the attributes in front of the nexthops -/
def frontImage (r : RouteVal) (dst : NlAddr) : List UInt8 :=
  (routeRtMsg r dst).bytes ++ encLeaves (headLeaves r dst ++ metricsAttr r)

/-- the bytes of a route with several nexthops -/
def routeImage (r : RouteVal) (dst : NlAddr) : List UInt8 := frontImage r dst ++ encLeaves [multipathAttr r]

@[simp] theorem rtMsg_length (rtm : RtMsg) : rtm.bytes.length = 12 := by
  simp only [RtMsg.bytes, List.length_append, u32Bytes_length]
  rfl

theorem metricLeaves_type {r : RouteVal} {l : Leaf} (h : l ∈ metricLeaves r) : l.type < 65536 := by
  obtain ⟨i, -, hi⟩ := List.mem_flatMap.1 h
  cases hg : rtnlRouteGetMetric r i with
  | none =>
    rw [hg] at hi
    cases hi
  | some value =>
    rw [hg] at hi
    have hlt := i.isLt
    simp only [RTAX_MAX] at hlt
    rw [List.mem_singleton.1 hi]
    show i.val + 1 < 65536
    omega

/-- attributes put for the elements of a list, by a bound on those of one element -/
theorem flatMap_length_le {β : Type} {f : β → List Leaf} {k : ℕ} (hf : ∀ i, (encLeaves (f i)).length ≤ k) (is : List β) :
    (encLeaves (is.flatMap f)).length ≤ k * is.length := by
  induction is with
  | nil => exact Nat.zero_le _
  | cons i is ih =>
    rw [List.flatMap_cons, encLeaves_append, List.length_append, List.length_cons, Nat.mul_succ, Nat.add_comm]
    exact Nat.add_le_add ih (hf i)

theorem metricLeaves_length (r : RouteVal) : (encLeaves (metricLeaves r)).length ≤ 136 := by
  unfold metricLeaves
  have h := List.length_finRange (n := RTAX_MAX)
  refine (flatMap_length_le (k := 8) (fun i => ?_) _).trans (by rw [h]; decide)
  cases rtnlRouteGetMetric r i with
  | none =>
    rw [encLeaves_nil, List.length_nil]
    exact Nat.zero_le _
  | some value =>
    rw [encLeaves_cons, encLeaves_nil, List.append_nil, encLeaf_length, u32Bytes_length]
    decide

/-- what a route must be to be written as its image -/
structure Writable (r : RouteVal) (dst : NlAddr) : Prop where
  addr : r.data.rtDst = some dst
  head : ∀ l ∈ headLeaves r dst, l.WF
  metrics : 0 < r.data.rtNmetrics.toNat ↔ metricLeaves r ≠ []
  nexthops : ∀ nh ∈ r.data.rtNexthops, NhFits nh
  many : 1 < rtnlRouteGetNnexthops r

/-- **The metrics**, with room -/
theorem putMetrics_room {m : NlMsg} (hm : Tidy m) {r : RouteVal}
    (hmetrics : 0 < r.data.rtNmetrics.toNat ↔ metricLeaves r ≠ []) (hroom : Room m (encLeaves (metricsAttr r)).length) :
    ∃ m', (if 0 < r.data.rtNmetrics.toNat then putNest (-NLE_MSGSIZE) RTA_METRICS (metricLeaves r) m else (m, 0)) = (m', 0) ∧
      Wrote m m' (encLeaves (metricsAttr r)) := by
  by_cases hnil : metricLeaves r = []
  · rw [if_neg (fun h => hmetrics.1 h hnil), metricsAttr, if_pos hnil]
    exact ⟨m, rfl, Wrote.nil hm⟩
  · have hlen := metricLeaves_length r
    have hmod := encLeaves_mod (metricLeaves r)
    rw [metricsAttr, if_neg hnil, encLeaves_cons, encLeaves_nil, List.append_nil, encLeaf_length] at hroom
    rw [if_pos (hmetrics.2 hnil), metricsAttr, if_neg hnil]
    have hal : align4 (4 + (encLeaves (metricLeaves r)).length) = 4 + (encLeaves (metricLeaves r)).length :=
      align4_of_mod (by omega)
    exact putNest_room (-NLE_MSGSIZE) (t := RTA_METRICS) (by decide) hnil
      (leaf_wf (by omega) fun l hl => metricLeaves_type hl) (by omega) hm (room_mono hroom hal.ge)

/-- **The writer**, up to the point where the nest around the nexthops is closed -/
theorem build_open {m : NlMsg} (hm : Tidy m) {r : RouteVal} {dst : NlAddr} (hr : Writable r dst)
    (hroom : Room m ((frontImage r dst).length + (4 + (nhImages r.data.rtNexthops).length))) :
    ∃ m1 m2 m3, Wrote m m1 (frontImage r dst) ∧ Wrote m1 m2 (nlaHeader 4 (32768 + RTA_MULTIPATH)) ∧
      Wrote m2 m3 (nhImages r.data.rtNexthops) ∧ rtnlRouteBuildMsg m r = ((nlaNestEnd m3 m1.nlmsgLen).1, 0) := by
  have hsplit : frontImage r dst =
      (routeRtMsg r dst).bytes ++ encLeaves (headLeaves r dst) ++ encLeaves (metricsAttr r) := by
    rw [frontImage, encLeaves_append, List.append_assoc]
  have hfront := room_mono hroom (Nat.le_add_right _ _)
  rw [hsplit, List.length_append, List.length_append] at hfront
  obtain ⟨m1, h1, hw1⟩ := nlmsgAppend_aligned hm (a := (routeRtMsg r dst).bytes) (by rw [rtMsg_length])
    (room_mono hfront (by omega))
  have hroom1 : Room m1 ((encLeaves (headLeaves r dst)).length + (encLeaves (metricsAttr r)).length) :=
    room_after hw1 (by rw [← add_assoc]; exact hfront)
  obtain ⟨m2, h2, hw2⟩ := putAll_room (-NLE_MSGSIZE) hr.head hw1.tidy (room_mono hroom1 (Nat.le_add_right _ _))
  obtain ⟨m3, h3, hw3⟩ := putMetrics_room hw2.tidy hr.metrics (room_after hw2 hroom1)
  have hall : Wrote m m3 (frontImage r dst) := by
    rw [hsplit]
    exact (hw1.append hw2).append hw3
  have hroom3 : Room m3 (4 + (nhImages r.data.rtNexthops).length) := room_after hall hroom
  obtain ⟨m4, h4, hw4⟩ := nlaNestStart_room hall.tidy RTA_MULTIPATH (by decide) (room_mono hroom3 (Nat.le_add_right 4 _))
  obtain ⟨m5, h5, hw5⟩ := putRtnexthops_room hr.nexthops hw4.tidy
    (room_after hw4 (by rw [nlaHeader_length]; exact hroom3))
  refine ⟨m3, m4, m5, hall, hw4, hw5, ?_⟩
  have hmany := hr.many
  have hzero : ¬ rtnlRouteGetNnexthops r = 0 := by omega
  have hone : ¬ rtnlRouteGetNnexthops r = 1 := by omega
  have hput : putNexthops r m3 = ((nlaNestEnd m5 m3.nlmsgLen).1, 0) := by
    rw [putNexthops, if_neg hzero, if_neg hone, h4, inNest_some, h5, thenPut_ok]
  rw [rtnlRouteBuildMsg, hr.addr]
  dsimp only
  rw [h1, thenPut_ok, h2, thenPut_ok, h3, thenPut_ok, hput]

theorem nhImages_length_mod (nhs : List RtnlNexthop) : (nhImages nhs).length % 4 = 0 := by
  induction nhs with
  | nil => rfl
  | cons nh nhs ih =>
    have hmod := encLeaves_mod (nhLeaves nh)
    rw [nhImages_cons, List.length_append, nhImage_length]
    omega

theorem multipathAttr_length (r : RouteVal) :
    (encLeaves [multipathAttr r]).length = 4 + (nhImages r.data.rtNexthops).length := by
  have hmod := nhImages_length_mod r.data.rtNexthops
  rw [encLeaves_cons, encLeaves_nil, List.append_nil, encLeaf_length]
  exact align4_of_mod (show (4 + (nhImages r.data.rtNexthops).length) % 4 = 0 by omega)

/-- **Building a route** whose nexthops fit into one attribute -/
theorem build_room {m : NlMsg} (hm : Tidy m) {r : RouteVal} {dst : NlAddr} (hr : Writable r dst)
    (hfit : 4 + (nhImages r.data.rtNexthops).length ≤ 65535) (hroom : Room m (routeImage r dst).length) :
    ∃ m', rtnlRouteBuildMsg m r = (m', 0) ∧ Wrote m m' (routeImage r dst) := by
  rw [routeImage, List.length_append, multipathAttr_length] at hroom
  obtain ⟨m1, m2, m3, hw1, hw2, hw3, hbuild⟩ := build_open hm hr hroom
  have hne : nhImages r.data.rtNexthops ≠ [] := by
    have hmany := hr.many
    cases hnhs : r.data.rtNexthops with
    | nil =>
      rw [rtnlRouteGetNnexthops, hnhs, List.length_nil, ite_self] at hmany
      omega
    | cons nh nhs =>
      intro h
      have hlen := congrArg List.length h
      rw [nhImages_cons, List.length_append, nhImage_length, List.length_nil] at hlen
      omega
  obtain ⟨m4, hend, hw4⟩ := nest_end hw2 hw3 hne hfit
  refine ⟨m4, ?_, hw1.append hw4⟩
  rw [hbuild, hend]

end Libnl.Route
