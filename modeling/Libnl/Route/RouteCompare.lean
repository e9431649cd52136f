/-
What a comparison of routes says (`route_clone` and `route_compare` of `lib/route/route_obj.c`).

- `clones_equal_iff`: a clone has no difference from its route, and nexthops that compare equal one by one, if and only if
  every nexthop can be cloned: `rtnl_route_nh_clone` copies the mask, but neither the realms nor the encapsulation.
- `multipath_exact_iff`: the bit for the nexthops is right about them as multisets, unless both lists are equally long
  and have the same nexthops, but not each as often: every nexthop is looked up in the other list, and none is counted.
- `metrics_exact_iff`: the bit for the metrics, after any history of `rtnl_route_set_metric` and
  `rtnl_route_unset_metric`. What was set before and is not any more is compared as well, the last metric is not looked
  at, and nothing is when the nexthops differ.

Each has a pair of routes on which the comparison is wrong: `realms_not_cloned`, `repeated_nexthop_unseen`,
`last_metric_unseen`.
-/
import Mathlib.Tactic
import Libnl.Core.Mask
import Libnl.Route.Ecmp
import Libnl.Route.RouteCodec

namespace Libnl.Route

open Msg Object Addr

/-! ## One attribute of a comparison -/

/-- an attribute does not show in the bit of another one -/
theorem attrDiff_and_other {attrs attr bit : BitVec 64} (h : attr &&& bit = 0) (a b : RouteVal) (differ : Bool) :
    attrDiff attrs attr a b differ &&& bit = 0 := by
  rw [attrDiff]
  split_ifs
  · exact h
  · exact BitVec.zero_and

theorem attrDiff_and_self (attrs attr : BitVec 64) (a b : RouteVal) (differ : Bool) :
    attrDiff attrs attr a b differ &&& attr = attrDiff attrs attr a b differ := by
  rw [attrDiff]
  split_ifs
  · exact BitVec.and_self
  · exact BitVec.zero_and

/-- the bit of the nexthops, and that of the metrics -/
theorem routeCompare_bits (a b : RouteVal) :
    (routeCompare a b (BitVec.allOnes 64) 0 &&& ROUTE_ATTR_MULTIPATH =
      if nhMismatch a.data b.data then attrDiff (BitVec.allOnes 64) ROUTE_ATTR_MULTIPATH a b true else 0) ∧
    routeCompare a b (BitVec.allOnes 64) 0 &&& ROUTE_ATTR_METRICS =
      if nhMismatch a.data b.data then 0
      else attrDiff (BitVec.allOnes 64) ROUTE_ATTR_METRICS a b (metricsDiffer a.data b.data) := by
  rw [routeCompare, if_neg (by decide)]
  constructor
  · split_ifs
    · simp (disch := decide) only [BitVec.and_or_distrib_right, attrDiff_and_other, attrDiff_and_self]
      simp
    · simp (disch := decide) only [BitVec.and_or_distrib_right, attrDiff_and_other]
      simp
  · split_ifs
    · simp (disch := decide) only [BitVec.and_or_distrib_right, attrDiff_and_other]
      simp
    · simp (disch := decide) only [BitVec.and_or_distrib_right, attrDiff_and_other, attrDiff_and_self]
      simp

/-! ## Clones -/

theorem nhMismatch_eq_false_iff (a b : RtnlRoute) : nhMismatch a b = false ↔
    a.rtNexthops.length = b.rtNexthops.length ∧ (∀ x ∈ a.rtNexthops, ∃ y ∈ b.rtNexthops, nhSame x y = true) ∧
      ∀ y ∈ b.rtNexthops, ∃ x ∈ a.rtNexthops, nhSame x y = true := by
  simp only [nhMismatch, Bool.or_eq_false_iff, decide_eq_false_iff_not, not_not, Bool.not_eq_false', List.all_eq_true,
    List.any_eq_true, and_assoc]

/-- the nexthops of two routes compare equal one by one -/
def PairwiseSame (a b : RtnlRoute) : Prop :=
  List.Forall₂ (fun x y => rtnlRouteNhCompare x y (BitVec.allOnes 32) false = 0) a.rtNexthops b.rtNexthops

theorem routeClone_pairwise (r : RouteVal) :
    PairwiseSame r.data (routeClone r).data ↔ ∀ nh ∈ r.data.rtNexthops, Clonable nh := by
  have hone : ∀ nh, rtnlRouteNhCompare nh (rtnlRouteNhClone nh) (BitVec.allOnes 32) false = 0 ↔ Clonable nh := by
    intro nh
    rw [← decide_eq_true_iff (p := _ = 0), ← nhSame, nhSame_iff, eq_comm]
    exact clone_same_iff nh
  simp only [PairwiseSame, routeClone, List.forall₂_map_right_iff, List.forall₂_same, hone]

/-- a clone whose nexthops are those of the route has no difference from it -/
theorem routeClone_diff (nlHash : List UInt8 → ℕ) {r : RouteVal} (h : ∀ nh ∈ r.data.rtNexthops, Clonable nh) :
    nlObjectDiff64 (routeOps nlHash) r (cloneVal (routeOps nlHash) r) = 0 := by
  have hmask : ∀ attr, attr &&& ROUTE_ATTR_MULTIPATH = 0 → (r.ceMask ^^^ (routeClone r).ceMask) &&& attr = 0 := by
    intro attr hattr
    refine BitVec.eq_of_getLsbD_eq fun i hi => ?_
    have hsame := congrArg (fun x => x.getLsbD i) (onlyNexthops_clone r).mask
    have hout := congrArg (fun x => x.getLsbD i) hattr
    simp only [BitVec.getLsbD_or, BitVec.getLsbD_and, BitVec.getLsbD_xor] at hsame hout ⊢
    cases hbit : attr.getLsbD i with
    | true => simp_all
    | false => simp
  have hzero : ∀ attr, attr &&& ROUTE_ATTR_MULTIPATH = 0 →
      attrDiff (BitVec.allOnes 64) attr r (routeClone r) false = 0 := by
    intro attr hattr
    by_cases hne : attr = 0
    · rw [hne, attrDiff, if_neg (by simp)]
    · exact (attrDiff_all_eq_zero_iff hne _ _ _).2 ⟨hmask attr hattr, Or.inr rfl⟩
  have hsame : ∀ nh ∈ r.data.rtNexthops, nhSame nh (rtnlRouteNhClone nh) = true := fun nh hnh =>
    (nhSame_iff _ _).2 ((clone_same_iff nh).2 (h nh hnh)).symm
  have hnexthops : nhMismatch r.data (routeClone r).data = false := by
    refine (nhMismatch_eq_false_iff _ _).2 ⟨(List.length_map _).symm, ?_, ?_⟩
    · intro nh hnh
      exact ⟨_, List.mem_map_of_mem hnh, hsame nh hnh⟩
    · intro nh hnh
      obtain ⟨src, hsrc, rfl⟩ := List.mem_map.1 hnh
      exact ⟨src, hsrc, hsame src hsrc⟩
  have hmetrics : metricsDiffer r.data (routeClone r).data = false := by
    rw [metricsDiffer, List.any_eq_false]
    intro i _
    simp [routeClone]
  have haddr : ∀ x : Option NlAddr, nlAddrCmp x x = false := fun x => (nlAddrCmp_eq_false_iff x x).2 rfl
  rw [nlObjectDiff64, if_neg (not_not.2 (cloneVal_ceOps _ _).symm)]
  show routeCompare r (routeClone r) (BitVec.allOnes 64) 0 = 0
  rw [routeCompare, if_neg (by decide), hnexthops, hmetrics]
  simp only [routeClone] at hzero ⊢
  simp (disch := decide) only [ne_eq, not_true_eq_false, decide_false, haddr, hzero, Bool.false_eq_true, if_false]
  decide

/-- **Clones are equal** if and only if the route has no nexthop with realms or an encapsulation that are not those of a
new nexthop. -/
theorem clones_equal_iff (nlHash : List UInt8 → ℕ) (r : RouteVal) :
    (nlObjectDiff64 (routeOps nlHash) r (cloneVal (routeOps nlHash) r) = 0 ∧
      PairwiseSame r.data (cloneVal (routeOps nlHash) r).data) ↔ ∀ nh ∈ r.data.rtNexthops, Clonable nh := by
  have hclone : cloneVal (routeOps nlHash) r = routeClone r := rfl
  constructor
  · rintro ⟨-, hpairs⟩
    rw [hclone] at hpairs
    exact (routeClone_pairwise r).1 hpairs
  · intro h
    refine ⟨routeClone_diff nlHash h, ?_⟩
    rw [hclone]
    exact (routeClone_pairwise r).2 h

/-- **Realms are not cloned.** The route has one nexthop, and this has realms. -/
theorem realms_not_cloned :
    ¬ ∀ r : RouteVal, nlObjectDiff64 (routeOps sumHash) r (cloneVal (routeOps sumHash) r) = 0 ∧
      PairwiseSame r.data (cloneVal (routeOps sumHash) r).data := by
  intro h
  have hdiff : nlObjectDiff64 (routeOps sumHash) (sampleRoute RTM_NEWROUTE realmsNexthop)
      (cloneVal (routeOps sumHash) (sampleRoute RTM_NEWROUTE realmsNexthop)) ≠ 0 := by
    decide
  exact hdiff (h (sampleRoute RTM_NEWROUTE realmsNexthop)).1

/-! ## Nexthops -/

/-- a route object, as its functions make it: one with nexthops has the attribute -/
structure RouteObj where
  val : RouteVal
  listed : val.data.rtNexthops ≠ [] → val.ceMask &&& ROUTE_ATTR_MULTIPATH ≠ 0

/-- the constructor's, and the parser's before the first nexthop -/
def RouteObj.empty (r : RouteVal) (h : r.data.rtNexthops = []) : RouteObj := ⟨r, fun hne => absurd h hne⟩

def RouteObj.addNexthop (r : RouteObj) (nh : RtnlNexthop) : RouteObj :=
  ⟨rtnlRouteAddNexthop r.val nh, fun _ => or_multipath_ne_zero _⟩

/-- `nl_object_clone` -/
def RouteObj.clone (r : RouteObj) : RouteObj where
  val := routeClone r.val
  listed := by
    intro hne
    have hsrc : r.val.data.rtNexthops ≠ [] := fun h => hne (List.map_eq_nil_iff.2 h)
    rw [routeClone, if_neg hsrc]
    exact or_multipath_ne_zero _

/-- `route_update` with a nexthop that is taken out -/
def RouteObj.removeMatching (r : RouteObj) (nh : RtnlNexthop) : RouteObj where
  val := Route.removeMatching r.val nh
  listed := by
    intro hne
    rw [Route.removeMatching] at hne ⊢
    split_ifs at hne ⊢ with hmask
    · exact hmask
    · exact absurd (r.listed hne) hmask

theorem multipath_bit (m : BitVec 64) : m &&& ROUTE_ATTR_MULTIPATH = 0 ↔ m.getLsbD 15 = false := by
  have hbit : ROUTE_ATTR_MULTIPATH = BitVec.twoPow 64 15 := by decide
  rw [hbit, Mask.and_twoPow_eq_zero_iff (by decide)]

theorem neither_of_xor_and {x y : Bool} (hxor : (x ^^ y) = false) (hand : (x && y) = false) :
    ¬ (x = true ∨ y = true) := by
  cases x with
  | true =>
    cases y with
    | true => exact absurd hand (by decide)
    | false => exact absurd hxor (by decide)
  | false =>
    cases y with
    | true => exact absurd hxor (by decide)
    | false => decide

/-- the nexthops of one route are missing from the other one, and one of them has the attribute -/
theorem listed_of_mismatch {a b : RouteObj} (h : nhMismatch a.val.data b.val.data = true) :
    a.val.ceMask.getLsbD 15 = true ∨ b.val.ceMask.getLsbD 15 = true := by
  rw [← Bool.not_eq_false, ← Bool.not_eq_false, ← multipath_bit, ← multipath_bit]
  by_contra hnone
  obtain ⟨ha, hb⟩ := not_or.1 hnone
  have hempty : nhMismatch a.val.data b.val.data = false := by
    rw [nhMismatch_eq_false_iff, not_imp_comm.1 a.listed ha, not_imp_comm.1 b.listed hb]
    exact ⟨rfl, fun _ hx => absurd hx List.not_mem_nil, fun _ hx => absurd hx List.not_mem_nil⟩
  rw [hempty] at h
  exact Bool.false_ne_true h

/-- the comparison leaves the bit clear just when no nexthop is missing -/
theorem multipath_clear_iff (a b : RouteObj) :
    routeCompare a.val b.val (BitVec.allOnes 64) 0 &&& ROUTE_ATTR_MULTIPATH = 0 ↔
      nhMismatch a.val.data b.val.data = false := by
  rw [(routeCompare_bits a.val b.val).1]
  split_ifs with hmis
  · refine iff_of_false ?_ (by rw [hmis]; exact Bool.true_eq_false_eq_False)
    rw [attrDiff_all_eq_zero_iff (by decide)]
    rintro ⟨hxor, hand | hfalse⟩
    · rw [multipath_bit, BitVec.getLsbD_xor] at hxor
      rw [multipath_bit, BitVec.getLsbD_and] at hand
      exact neither_of_xor_and hxor hand (listed_of_mismatch hmis)
    · exact Bool.false_ne_true hfalse.symm
  · exact iff_of_true rfl (Bool.eq_false_iff.2 hmis)

/-- both lists have the same nexthops, and are equally long, but some nexthop is more often in one of them -/
structure Repeated (cur l : List RtnlNexthop) : Prop where
  length : cur.length = l.length
  left : ∀ x ∈ cur, ∃ y ∈ l, nhSame x y = true
  right : ∀ y ∈ l, ∃ x ∈ cur, nhSame x y = true
  counts : ∃ nh, (cur.countP fun x => nhSame x nh) ≠ l.countP fun x => nhSame x nh

theorem SameNexthops.found {cur l : List RtnlNexthop} (h : SameNexthops cur l) : ∀ x ∈ cur, ∃ y ∈ l, nhSame x y = true := by
  intro x hx
  have hkey := (sameNexthops_iff.1 h).mem_iff.1 (List.mem_map_of_mem hx)
  obtain ⟨y, hy, hxy⟩ := List.mem_map.1 hkey
  exact ⟨y, hy, (nhSame_iff x y).2 hxy.symm⟩

theorem SameNexthops.symm {cur l : List RtnlNexthop} (h : SameNexthops cur l) : SameNexthops l cur := fun nh => (h nh).symm

theorem nhSame_symm {x y : RtnlNexthop} (h : nhSame x y = true) : nhSame y x = true :=
  (nhSame_iff y x).2 ((nhSame_iff x y).1 h).symm

/-- lists with the same nexthops are not told apart -/
theorem SameNexthops.not_mismatch {a b : RtnlRoute} (h : SameNexthops a.rtNexthops b.rtNexthops) : nhMismatch a b = false := by
  refine (nhMismatch_eq_false_iff a b).2 ⟨h.length, h.found, ?_⟩
  intro y hy
  obtain ⟨x, hx, hyx⟩ := h.symm.found y hy
  exact ⟨x, hx, nhSame_symm hyx⟩

/-- **The nexthops are compared as multisets** unless the same ones are repeated differently. -/
theorem multipath_exact_iff (a b : RouteObj) :
    (routeCompare a.val b.val (BitVec.allOnes 64) 0 &&& ROUTE_ATTR_MULTIPATH = 0 ↔
        SameNexthops a.val.data.rtNexthops b.val.data.rtNexthops) ↔
      ¬ Repeated a.val.data.rtNexthops b.val.data.rtNexthops := by
  rw [multipath_clear_iff]
  constructor
  · intro hexact hrep
    have hclear := (nhMismatch_eq_false_iff a.val.data b.val.data).2 ⟨hrep.length, hrep.left, hrep.right⟩
    obtain ⟨nh, hnh⟩ := hrep.counts
    exact hnh (hexact.1 hclear nh)
  · intro hrep
    refine ⟨fun hclear => ?_, SameNexthops.not_mismatch⟩
    obtain ⟨hlen, hleft, hright⟩ := (nhMismatch_eq_false_iff _ _).1 hclear
    intro nh
    by_contra hnh
    exact hrep ⟨hlen, hleft, hright, nh, hnh⟩

/-- a route with some nexthops -/
def routeVia (nhs : List RtnlNexthop) : RouteObj :=
  nhs.foldl RouteObj.addNexthop
    (.empty { sampleRoute RTM_NEWROUTE rtnlRouteNhAlloc with
      data := { (sampleRoute RTM_NEWROUTE rtnlRouteNhAlloc).data with rtNexthops := [] } } rfl)

/-- **Repeated nexthops are not told apart.** The one route has the first nexthop twice, the other one has the second
twice. -/
theorem repeated_nexthop_unseen :
    ¬ ∀ a b : RouteObj, routeCompare a.val b.val (BitVec.allOnes 64) 0 &&& ROUTE_ATTR_MULTIPATH = 0 ↔
      SameNexthops a.val.data.rtNexthops b.val.data.rtNexthops := by
  intro h
  have hcount := (h (routeVia [sampleNexthop 1, sampleNexthop 1, sampleNexthop 2])
    (routeVia [sampleNexthop 1, sampleNexthop 2, sampleNexthop 2])).1 (by decide) (sampleNexthop 1)
  exact absurd hcount (by decide)

/-! ## Metrics -/

/-- `rtnl_route_unset_metric` for the metric of type `i + 1` -/
def rtnlRouteUnsetMetric (r : RouteVal) (i : Fin RTAX_MAX) : RouteVal :=
  if r.data.rtMetricsMask.getLsbD i then
    { r with data := { r.data with
        rtNmetrics := r.data.rtNmetrics - 1
        rtMetricsMask := r.data.rtMetricsMask &&& ~~~BitVec.twoPow 32 i } }
  else r

/-- the range check of the three functions, and the place in the array -/
def metricIndex (metric : ℤ) : Option (Fin RTAX_MAX) :=
  if h : metric > RTAX_MAX ∨ metric < 1 then none
  else some ⟨(metric - 1).toNat, by simp only [not_or, not_lt, gt_iff_lt] at h; omega⟩

inductive MetricCall where
  | set (metric : ℤ) (value : BitVec 32)
  | unset (metric : ℤ)

/-- one call, and what it returns -/
def metricCall (r : RouteVal) : MetricCall → RouteVal × ℤ
  | .set metric value =>
    match metricIndex metric with
    | none => (r, -NLE_RANGE)
    | some i => (rtnlRouteSetMetric r i value, 0)
  | .unset metric =>
    match metricIndex metric with
    | none => (r, -NLE_RANGE)
    | some i => (rtnlRouteUnsetMetric r i, 0)

/-- a route as it is allocated, as far as metrics go -/
def withoutMetrics (r : RouteVal) : RouteVal :=
  { r with
    ceMask := r.ceMask &&& ~~~ROUTE_ATTR_METRICS
    data := { r.data with rtMetrics := fun _ => 0, rtMetricsMask := 0, rtNmetrics := 0 } }

/-- a route after calls for its metrics -/
def afterCalls (r : RouteVal) (calls : List MetricCall) : RouteVal :=
  calls.foldl (fun r call => (metricCall r call).1) (withoutMetrics r)

/-- both routes have the same metrics, with the same values -/
def SameMetrics (a b : RouteVal) : Prop := ∀ i, rtnlRouteGetMetric a i = rtnlRouteGetMetric b i

instance (a b : RouteVal) : Decidable (SameMetrics a b) := inferInstanceAs (Decidable (∀ _, _))

/-- what calls have made of the metrics: whether one has ever been set, the value each was last set to, and which are
set and have not been unset since -/
structure MetricHistory where
  ever : Bool
  last : Fin RTAX_MAX → BitVec 32
  present : Fin RTAX_MAX → Bool
  fresh : ever = false → ∀ i, last i = 0 ∧ present i = false

def MetricHistory.start : MetricHistory := ⟨false, fun _ => 0, fun _ => false, fun _ _ => ⟨rfl, rfl⟩⟩

def MetricHistory.step (h : MetricHistory) : MetricCall → MetricHistory
  | .set metric value =>
    match metricIndex metric with
    | none => h
    | some i => ⟨true, Function.update h.last i value, Function.update h.present i true, nofun⟩
  | .unset metric =>
    match metricIndex metric with
    | none => h
    | some i =>
      { h with
        present := Function.update h.present i false
        fresh := by
          intro hever j
          by_cases hj : j = i
          · rw [hj, Function.update_self]
            exact ⟨(h.fresh hever i).1, rfl⟩
          · rw [Function.update_of_ne hj]
            exact h.fresh hever j }

def historyOf (calls : List MetricCall) : MetricHistory := calls.foldl MetricHistory.step .start

/-- the value of a metric that is set -/
def MetricHistory.metric (h : MetricHistory) (i : Fin RTAX_MAX) : Option (BitVec 32) :=
  if h.present i then some (h.last i) else none

/-- a route has the metrics of a history -/
structure Follows (r : RouteVal) (h : MetricHistory) : Prop where
  ever : r.ceMask.getLsbD 14 = h.ever
  last : r.data.rtMetrics = h.last
  present : ∀ i : Fin RTAX_MAX, r.data.rtMetricsMask.getLsbD i = h.present i

theorem getLsbD_or_twoPow (m : BitVec 32) (i j : Fin RTAX_MAX) :
    (m ||| BitVec.twoPow 32 i).getLsbD j = if j = i then true else m.getLsbD j := by
  have hj : j.val < 32 := lt_of_lt_of_le j.isLt (by decide)
  rw [BitVec.getLsbD_or, BitVec.getLsbD_twoPow]
  by_cases hji : j = i
  · rw [if_pos hji, hji]
    simp [hji ▸ hj]
  · rw [if_neg hji]
    have hne : i.val ≠ j.val := fun hv => hji (Fin.ext hv.symm)
    simp [hne]

theorem getLsbD_and_not_twoPow (m : BitVec 32) (i j : Fin RTAX_MAX) :
    (m &&& ~~~BitVec.twoPow 32 i).getLsbD j = if j = i then false else m.getLsbD j := by
  have hj : j.val < 32 := lt_of_lt_of_le j.isLt (by decide)
  rw [BitVec.getLsbD_and, BitVec.getLsbD_not, BitVec.getLsbD_twoPow]
  by_cases hji : j = i
  · rw [if_pos hji, hji]
    simp [hji ▸ hj]
  · rw [if_neg hji]
    have hne : i.val ≠ j.val := fun hv => hji (Fin.ext hv.symm)
    simp [hne, hj]

theorem Follows.set {r : RouteVal} {h : MetricHistory} (hr : Follows r h) (i : Fin RTAX_MAX) (value : BitVec 32)
    (h' : MetricHistory) (hever : h'.ever = true) (hlast : h'.last = Function.update h.last i value)
    (hpresent : h'.present = Function.update h.present i true) : Follows (rtnlRouteSetMetric r i value) h' where
  ever := by
    rw [hever, rtnlRouteSetMetric, BitVec.getLsbD_or]
    exact Bool.or_eq_true_iff.2 (Or.inr (by decide))
  last := by rw [hlast, rtnlRouteSetMetric, hr.last]
  present j := by
    rw [hpresent, rtnlRouteSetMetric, getLsbD_or_twoPow, hr.present j, Function.update_apply]

theorem Follows.unset {r : RouteVal} {h : MetricHistory} (hr : Follows r h) (i : Fin RTAX_MAX)
    (h' : MetricHistory) (hever : h'.ever = h.ever) (hlast : h'.last = h.last)
    (hpresent : h'.present = Function.update h.present i false) : Follows (rtnlRouteUnsetMetric r i) h' where
  ever := by
    rw [hever, rtnlRouteUnsetMetric, ← hr.ever]
    split_ifs
    · rfl
    · rfl
  last := by
    rw [hlast, rtnlRouteUnsetMetric, ← hr.last]
    split_ifs
    · rfl
    · rfl
  present j := by
    rw [hpresent, rtnlRouteUnsetMetric, Function.update_apply, ← hr.present j]
    split_ifs with hmask hji hji
    · rw [getLsbD_and_not_twoPow, if_pos hji]
    · rw [getLsbD_and_not_twoPow, if_neg hji]
    · rw [hji]
      exact Bool.eq_false_iff.2 hmask
    · rfl

/-- **One call.** -/
theorem Follows.call {r : RouteVal} {h : MetricHistory} (hr : Follows r h) (call : MetricCall) :
    Follows (metricCall r call).1 (h.step call) := by
  cases call with
  | set metric value =>
    rw [metricCall, MetricHistory.step]
    cases metricIndex metric with
    | none => exact hr
    | some i => exact hr.set i value _ rfl rfl rfl
  | unset metric =>
    rw [metricCall, MetricHistory.step]
    cases metricIndex metric with
    | none => exact hr
    | some i => exact hr.unset i _ rfl rfl rfl

theorem withoutMetrics_follows (r : RouteVal) : Follows (withoutMetrics r) .start where
  ever := by
    have hbit : (~~~ROUTE_ATTR_METRICS).getLsbD 14 = false := by decide
    rw [withoutMetrics, BitVec.getLsbD_and, hbit, Bool.and_false]
    rfl
  last := rfl
  present i := BitVec.getLsbD_zero

/-- **Calls.** A route has the metrics of what was called. -/
theorem afterCalls_follows (r : RouteVal) (calls : List MetricCall) : Follows (afterCalls r calls) (historyOf calls) := by
  suffices hfold : ∀ (r' : RouteVal) (h : MetricHistory), Follows r' h →
      Follows (calls.foldl (fun r call => (metricCall r call).1) r') (calls.foldl MetricHistory.step h) from
    hfold _ _ (withoutMetrics_follows r)
  induction calls with
  | nil => exact fun _ _ hr => hr
  | cons call calls ih => exact fun r' h hr => ih _ _ (hr.call call)

theorem Follows.metric {r : RouteVal} {h : MetricHistory} (hr : Follows r h) (i : Fin RTAX_MAX) :
    rtnlRouteGetMetric r i = h.metric i := by
  rw [rtnlRouteGetMetric, MetricHistory.metric, hr.present i, hr.last]

theorem afterCalls_nexthops (r : RouteVal) (calls : List MetricCall) :
    (afterCalls r calls).data.rtNexthops = r.data.rtNexthops := by
  have hone : ∀ (r : RouteVal) (call : MetricCall), (metricCall r call).1.data.rtNexthops = r.data.rtNexthops := by
    intro r call
    cases call with
    | set metric value =>
      rw [metricCall]
      cases metricIndex metric with
      | none => rfl
      | some i => rfl
    | unset metric =>
      rw [metricCall]
      cases metricIndex metric with
      | none => rfl
      | some i =>
        dsimp only
        rw [rtnlRouteUnsetMetric]
        split_ifs
        · rfl
        · rfl
  suffices hfold : ∀ r' : RouteVal, (calls.foldl (fun r call => (metricCall r call).1) r').data.rtNexthops =
      r'.data.rtNexthops from hfold _
  induction calls with
  | nil => exact fun _ => rfl
  | cons call calls ih => exact fun r' => (ih _).trans (hone r' call)

namespace MetricHistory

variable (x y : MetricHistory)

/-- the same metrics are set, to the same values -/
def Same : Prop := ∀ i, x.metric i = y.metric i

/-- a metric before the last one is not the same -/
def Below : Prop := ∃ i : Fin RTAX_MAX, i.val < RTAX_MAX - 1 ∧ x.metric i ≠ y.metric i

/-- a metric before the last one is not set in either, and was last set to different values, where none counts as zero -/
def Leftover : Prop :=
  ∃ i : Fin RTAX_MAX, i.val < RTAX_MAX - 1 ∧ x.metric i = none ∧ y.metric i = none ∧ x.last i ≠ y.last i

variable {x y}

/-- one metric is the same, with what is left of it -/
theorem entry_iff (i : Fin RTAX_MAX) : (x.present i = y.present i ∧ x.last i = y.last i) ↔
    x.metric i = y.metric i ∧ (x.metric i = none → y.metric i = none → x.last i = y.last i) := by
  rw [metric, metric]
  cases x.present i with
  | true =>
    cases y.present i with
    | true => simp
    | false => simp
  | false =>
    cases y.present i with
    | true => simp
    | false => simp

/-- the loop over the metrics finds a difference in what is set or in what is left -/
theorem differ_iff : (∀ i : Fin RTAX_MAX, i.val < RTAX_MAX - 1 → x.present i = y.present i ∧ x.last i = y.last i) ↔
    ¬ x.Below y ∧ ¬ x.Leftover y := by
  constructor
  · intro h
    refine ⟨?_, ?_⟩
    · rintro ⟨i, hi, hne⟩
      exact hne ((entry_iff i).1 (h i hi)).1
    · rintro ⟨i, hi, hx, hy, hne⟩
      exact hne (h i hi).2
  · rintro ⟨hbelow, hleft⟩ i hi
    refine (entry_iff i).2 ⟨?_, fun hx hy => ?_⟩
    · by_contra hne
      exact hbelow ⟨i, hi, hne⟩
    · by_contra hne
      exact hleft ⟨i, hi, hx, hy, hne⟩

/-- metrics that were never set are the same -/
theorem not_below_of_never (hx : x.ever = false) (hy : y.ever = false) : ¬ x.Below y ∧ ¬ x.Leftover y :=
  differ_iff.1 fun i _ => ⟨((x.fresh hx i).2).trans (y.fresh hy i).2.symm, ((x.fresh hx i).1).trans (y.fresh hy i).1.symm⟩

theorem Same.not_below (h : x.Same y) : ¬ x.Below y := fun ⟨i, _, hne⟩ => hne (h i)

end MetricHistory

theorem Follows.metricsDiffer {a b : RouteVal} {x y : MetricHistory} (ha : Follows a x) (hb : Follows b y) :
    metricsDiffer a.data b.data = false ↔ ¬ x.Below y ∧ ¬ x.Leftover y := by
  rw [← MetricHistory.differ_iff, Route.metricsDiffer, List.any_eq_false]
  refine ⟨fun h i hi => ?_, fun h i _ => ?_⟩
  · have hone := h i (List.mem_finRange i)
    rw [ha.present, hb.present, ha.last, hb.last] at hone
    simpa [hi] using hone
  · rw [ha.present, hb.present, ha.last, hb.last]
    by_cases hi : i.val < RTAX_MAX - 1
    · simp [(h i hi).1, (h i hi).2]
    · simp [hi]

theorem metrics_bit (m : BitVec 64) : m &&& ROUTE_ATTR_METRICS = 0 ↔ m.getLsbD 14 = false := by
  have hbit : ROUTE_ATTR_METRICS = BitVec.twoPow 64 14 := by decide
  rw [hbit, Mask.and_twoPow_eq_zero_iff (by decide)]

/-- the comparison leaves the bit clear when the nexthops differ, or nothing is found -/
theorem metrics_clear_iff {a b : RouteVal} {x y : MetricHistory} (ha : Follows a x) (hb : Follows b y) :
    routeCompare a b (BitVec.allOnes 64) 0 &&& ROUTE_ATTR_METRICS = 0 ↔
      nhMismatch a.data b.data = true ∨ x.ever = y.ever ∧ ¬ x.Below y ∧ ¬ x.Leftover y := by
  rw [(routeCompare_bits a b).2]
  split_ifs with hmis
  · exact iff_of_true rfl (Or.inl hmis)
  · rw [attrDiff_all_eq_zero_iff (by decide), metrics_bit, metrics_bit, BitVec.getLsbD_xor, BitVec.getLsbD_and,
      ha.ever, hb.ever, ha.metricsDiffer hb, or_iff_right hmis]
    refine ⟨?_, ?_⟩
    · rintro ⟨hxor, hboth | hfound⟩
      · have heq : x.ever = y.ever := by simpa using hxor
        rw [heq, Bool.and_self] at hboth
        exact ⟨heq, MetricHistory.not_below_of_never (heq.trans hboth) hboth⟩
      · exact ⟨by simpa using hxor, hfound⟩
    · rintro ⟨heq, hfound⟩
      exact ⟨by simp [heq], Or.inr hfound⟩

/-- what two histories must be for the comparison to be right about the metrics -/
def MetricsTold (mismatch : Prop) [Decidable mismatch] (x y : MetricHistory) : Prop :=
  if mismatch then x.Same y
  else (x.Same y ∧ x.ever = y.ever ∧ ¬ x.Leftover y) ∨ x.Below y ∨ (¬ x.Same y ∧ (x.ever ≠ y.ever ∨ x.Leftover y))

/-- **The metrics are compared** exactly if and only if the nexthops compare equal, and the routes either have the same
metrics, with nothing left over that differs, or differ in a metric before the last one or in what is left over; or the
nexthops differ and the metrics do not. -/
theorem metrics_exact_iff (a b : RouteVal) (ca cb : List MetricCall) :
    (routeCompare (afterCalls a ca) (afterCalls b cb) (BitVec.allOnes 64) 0 &&& ROUTE_ATTR_METRICS = 0 ↔
        SameMetrics (afterCalls a ca) (afterCalls b cb)) ↔
      MetricsTold (nhMismatch a.data b.data = true) (historyOf ca) (historyOf cb) := by
  have ha := afterCalls_follows a ca
  have hb := afterCalls_follows b cb
  have hmis : nhMismatch (afterCalls a ca).data (afterCalls b cb).data = nhMismatch a.data b.data := by
    rw [nhMismatch, nhMismatch, afterCalls_nexthops, afterCalls_nexthops]
  have hsame : SameMetrics (afterCalls a ca) (afterCalls b cb) ↔ (historyOf ca).Same (historyOf cb) :=
    forall_congr' fun i => by rw [ha.metric, hb.metric]
  have hbelow := @MetricHistory.Same.not_below (historyOf ca) (historyOf cb)
  rw [metrics_clear_iff ha hb, hmis, hsame, MetricsTold]
  split_ifs with hdiff
  · simp only [hdiff, true_or, true_iff]
  · simp only [hdiff, false_or, Bool.false_eq_true]
    tauto

/-- **The last metric is not looked at.** The routes have different values for the metric 17. -/
theorem last_metric_unseen :
    ¬ ∀ (a b : RouteVal) (ca cb : List MetricCall),
      routeCompare (afterCalls a ca) (afterCalls b cb) (BitVec.allOnes 64) 0 &&& ROUTE_ATTR_METRICS = 0 ↔
        SameMetrics (afterCalls a ca) (afterCalls b cb) := by
  intro h
  have hsame := (h (routeVia []).val (routeVia []).val [.set 17 1] [.set 17 2]).1 (by decide)
  exact absurd (hsame ⟨16, by decide⟩) (by decide)

end Libnl.Route
