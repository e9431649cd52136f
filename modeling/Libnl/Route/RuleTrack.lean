/-
Following the routing rules through their notifications.

A rule has no key of its own: two rules are the same when their messages have the same attributes with the same values.
What the cache takes to be the same is `nl_object_identical`, that is agreement in those attributes of `rule_compare` that
both rules carry. So a rule is confused with another that differs in an attribute which only one of them has, or which
`rule_compare` leaves out: the flags, l3mdev, the protocols, and the port ranges.

- `identical_iff`: identity of rules.
- `rules_tracked_iff`: identity is an equivalence that only holds of the same rules exactly where no two rules can be
  confused; and a cache holds exactly the live rules all along exactly when no rule comes that can be confused with a live
  one.
- `rule_replaced`: a rule with l3mdev takes the place of one without.
-/
import Mathlib.Tactic
import Libnl.Cache.Tracking
import Libnl.Route.RuleCodec

namespace Libnl.Rule

open Bytes Msg Object Addr KeyedList Prefix Track Cache

/-! ## Identity -/

/-- the operations of every type there is -/
def ruleOps (_ : ℕ) : ObjectOps RtnlRule := ruleObjOps

/-- `rtnl_rule_ops` -/
def rtnlRuleOps : CacheOps := ⟨0, [⟨RTM_NEWRULE, .new⟩, ⟨RTM_DELRULE, .del⟩, ⟨RTM_GETRULE, .get⟩]⟩

/-- the attributes that `rule_compare` compares -/
def ruleCompared : Compared RtnlRule :=
  [(RULE_ATTR_FAMILY, fun a b => decide (a.rFamily ≠ b.rFamily)),
    (RULE_ATTR_TABLE, fun a b => decide (a.rTable ≠ b.rTable)),
    (RULE_ATTR_ACTION, fun a b => decide (a.rAction ≠ b.rAction)),
    (RULE_ATTR_IIFNAME, fun a b => decide (a.rIifname ≠ b.rIifname)),
    (RULE_ATTR_OIFNAME, fun a b => decide (a.rOifname ≠ b.rOifname)),
    ( RULE_ATTR_PRIO, fun a b => decide (a.rPrio ≠ b.rPrio)),
    (RULE_ATTR_MARK, fun a b => decide (a.rMark ≠ b.rMark)),
    (RULE_ATTR_MASK, fun a b => decide (a.rMask ≠ b.rMask)),
    (RULE_ATTR_GOTO, fun a b => decide (a.rGoto ≠ b.rGoto)),
    (RULE_ATTR_SRC, fun a b => nlAddrCmp a.rSrc b.rSrc),
    (RULE_ATTR_DST, fun a b => nlAddrCmp a.rDst b.rDst),
    (RULE_ATTR_DSFIELD, fun a b => decide (a.rDsfield ≠ b.rDsfield)),
    (RULE_ATTR_FLOW, fun a b => decide (a.rFlow ≠ b.rFlow))]

theorem ruleOps_compare (t : ℕ) : ComparesAll ruleOps t ruleCompared where
  noGet := rfl
  all := Or.inr rfl
  compare := by
    refine ⟨ruleCompare, rfl, fun a b attrs => ?_⟩
    unfold ruleCompare ruleCompared
    simp only [BitVec.ofNat_eq_ofNat, BitVec.or_eq_zero_iff, List.forall_mem_cons, List.not_mem_nil, false_imp_iff,
      implies_true, and_true, and_assoc]
  low := by rfl

/-- **Identity of rules** -/
theorem identical_iff {v w : RuleVal} (hv : v.ceOps = 0) (hw : w.ceOps = 0) :
    nlObjectIdentical ruleOps v w = true ↔ Agree ruleCompared v w := identical_iff_agree (ruleOps_compare 0) hv hw

theorem nlAddrCmp_comm (a b : Option NlAddr) : nlAddrCmp a b = nlAddrCmp b a := by
  have heq : nlAddrCmp a b = false ↔ nlAddrCmp b a = false := by
    rw [nlAddrCmp_eq_false_iff, nlAddrCmp_eq_false_iff]
    exact eq_comm
  cases h : nlAddrCmp b a with
  | true =>
    rw [← Bool.not_eq_false, heq, h]
    exact nofun
  | false => exact heq.2 h

theorem compared_comm : ∀ c ∈ ruleCompared, ∀ x y, c.2 x y = c.2 y x := by
  simp only [ruleCompared, List.forall_mem_cons, List.not_mem_nil, false_imp_iff, implies_true, ne_comm,
    nlAddrCmp_comm, and_self]

theorem compared_refl : ∀ c ∈ ruleCompared, ∀ x, c.2 x x = false := by
  have haddr : ∀ a, nlAddrCmp a a = false := fun a => (nlAddrCmp_eq_false_iff a a).2 rfl
  simp [ruleCompared, haddr]

/-! ## Rules -/

/-- what a rule is: its attributes and their values -/
def ruleBody (v : RuleVal) : BitVec 64 × RtnlRule := (v.ceMask, v.data)

theorem agree_same {v w : RuleVal} (h : ruleBody v = ruleBody w) : Agree ruleCompared v w := by
  intro c hc _
  have hdata : v.data = w.data := congrArg Prod.snd h
  rw [hdata]
  exact compared_refl c hc w.data

/-- the same rule in place of a rule -/
theorem agree_congr {v w u : RuleVal} (h : ruleBody w = ruleBody u) :
    Agree ruleCompared v w ↔ Agree ruleCompared v u := by
  have hmask : w.ceMask = u.ceMask := congrArg Prod.fst h
  have hdata : w.data = u.data := congrArg Prod.snd h
  unfold Agree
  rw [hmask, hdata]

/-- different rules that agree in all that `rule_compare` compares and both carry -/
def Confusable (v w : RuleVal) : Prop := ruleBody v ≠ ruleBody w ∧ Agree ruleCompared v w

section

variable [HostOrder]

/-- the parser delivered the rule from a notification -/
def IsParsed (v : RuleVal) : Prop :=
  ∃ n, ruleMsgParser n = .ok v ∧ ((n.nlmsgType : ℤ) = RTM_NEWRULE ∨ (n.nlmsgType : ℤ) = RTM_DELRULE)

theorem IsParsed.ops {v : RuleVal} (h : IsParsed v) : v.ceOps = 0 := by
  obtain ⟨n, hn, -⟩ := h
  rw [ruleMsgParser_ok hn]
  rfl

theorem IsParsed.msgtype {v : RuleVal} (h : IsParsed v) : v.ceMsgtype = RTM_NEWRULE ∨ v.ceMsgtype = RTM_DELRULE := by
  obtain ⟨n, hn, htype⟩ := h
  rw [ruleMsgParser_ok hn]
  exact htype

theorem IsParsed.known {v : RuleVal} (h : IsParsed v) : Known rtnlRuleOps v := by
  unfold Known actOf
  rcases h.msgtype with htype | htype
  · rw [htype]
    exact Or.inl rfl
  · rw [htype]
    exact Or.inr rfl

theorem announces_iff {v : RuleVal} (h : IsParsed v) : announces rtnlRuleOps v = true ↔ v.ceMsgtype = RTM_NEWRULE := by
  unfold announces actOf
  rcases h.msgtype with htype | htype
  · rw [htype]
    decide
  · rw [htype]
    decide

/-! ## Runs -/

/-- the rule that the last notification about it left there -/
abbrev live (as : List RuleVal) (body : BitVec 64 × RtnlRule) : Option RuleVal :=
  latest ruleBody (announces rtnlRuleOps) as body

/-- rules are announced that were not live, and deleted that were -/
def Orderly (vs : List RuleVal) : Prop :=
  ∀ as v, as ++ [v] <+: vs → (v.ceMsgtype = RTM_NEWRULE ↔ live as (ruleBody v) = none)

/-- the objects of a rule cache after these notifications -/
def cached (cb : ChangeCb) (v0 : RuleVal) (as : List RuleVal) : List RuleVal :=
  (contents (notifyAll ruleOps (emptyStore rtnlRuleOps v0) 0 cb as) 0).map Entry.val

/-- live rules that agree are the same -/
def Separate (as : List RuleVal) : Prop :=
  ∀ v w, live as (ruleBody v) = some v → live as (ruleBody w) = some w → Agree ruleCompared v w → ruleBody v = ruleBody w

/-- no rule comes that can be confused with a live one -/
def Unconfused (vs : List RuleVal) : Prop :=
  ∀ as v, as ++ [v] <+: vs → v.ceMsgtype = RTM_NEWRULE → ∀ w, live as (ruleBody w) = some w → ¬ Confusable w v

omit [HostOrder] in
theorem Separate.step {as : List RuleVal} {v : RuleVal} (h : Separate as)
    (hnew : announces rtnlRuleOps v = true → ∀ w, live as (ruleBody w) = some w → ¬ Confusable w v) :
    Separate (as ++ [v]) := by
  have hlive : ∀ w, live (as ++ [v]) (ruleBody w) = some w →
      (w = v ∧ announces rtnlRuleOps v = true) ∨ live as (ruleBody w) = some w := by
    intro w hw
    rw [live, latest_snoc] at hw
    by_cases hbody : ruleBody v = ruleBody w
    · rw [if_pos hbody] at hw
      cases hkeep : announces rtnlRuleOps v with
      | true =>
        rw [hkeep, if_pos rfl] at hw
        exact Or.inl ⟨(Option.some.inj hw).symm, rfl⟩
      | false =>
        rw [hkeep] at hw
        cases hw
    · rw [if_neg hbody] at hw
      exact Or.inr hw
  intro x w hx hw hagree
  rcases hlive x hx with ⟨rfl, hkeep⟩ | hold
  · rcases hlive w hw with ⟨rfl, -⟩ | hold'
    · rfl
    · by_contra hne
      exact hnew hkeep w hold' ⟨Ne.symm hne, hagree.symm compared_comm⟩
  · rcases hlive w hw with ⟨rfl, hkeep⟩ | hold'
    · by_contra hne
      exact hnew hkeep x hold ⟨hne, hagree⟩
    · exact h x w hold hold' hagree

section

variable {vs : List RuleVal} (hvs : ∀ v ∈ vs, IsParsed v)
include hvs

theorem parsed_upto {as : List RuleVal} {v : RuleVal} (hpre : as ++ [v] <+: vs) : IsParsed v :=
  hvs v (hpre.subset (by simp))

theorem parsed_living {as : List RuleVal} (hpre : as <+: vs) {w : RuleVal}
    (hw : w ∈ living ruleBody (announces rtnlRuleOps) as) : IsParsed w := hvs w (hpre.subset (mem_follow hw).1)

theorem separate_of_unconfused (hun : Unconfused vs) {as : List RuleVal} (hpre : as <+: vs) : Separate as := by
  induction as using List.reverseRecOn with
  | nil => exact fun v w hv _ _ => nomatch hv
  | append_singleton as v ih =>
    have has : as <+: vs := (List.prefix_append as [v]).trans hpre
    exact (ih has).step fun hkeep => hun as v hpre ((announces_iff (parsed_upto hvs hpre)).1 hkeep)

/-- the first rule found is the same one, as long as none is confused -/
theorem find_of_separate {as : List RuleVal} {v : RuleVal} (hpre : as ++ [v] <+: vs) (hsep : Separate as)
    (horder : Orderly vs) (hun : Unconfused vs) :
    (living ruleBody (announces rtnlRuleOps) as).find? (fun x => nlObjectIdentical ruleOps x v) =
      (living ruleBody (announces rtnlRuleOps) as).find? fun x => sameKey ruleBody x v := by
  have has : as <+: vs := (List.prefix_append as [v]).trans hpre
  have hv := parsed_upto hvs hpre
  refine List.find?_congr fun w hw => ?_
  have hwlive := mem_living.1 hw
  have hid := identical_iff (parsed_living hvs has hw).ops hv.ops
  rw [Bool.eq_iff_iff, hid, sameKey, decide_eq_true_eq]
  refine ⟨fun hagree => ?_, fun hbody => (agree_congr hbody).1 (agree_same rfl)⟩
  by_contra hne
  rcases hv.msgtype with hnew | hdel
  · exact hun as v hpre hnew w hwlive ⟨hne, hagree⟩
  · -- a deletion is about a live rule, from which `w` can be told
    have hlive : live as (ruleBody v) ≠ none := fun hnone => by
      have hnew := (horder as v hpre).2 hnone
      rw [hdel] at hnew
      exact absurd hnew (by decide)
    obtain ⟨u, hu⟩ := Option.ne_none_iff_exists'.1 hlive
    have hkey : ruleBody u = ruleBody v := latest_key hu
    refine hne ((hsep w u hwlive (by rw [hkey]; exact hu) ?_).trans hkey)
    exact (agree_congr hkey.symm).1 hagree

end

/-- **Tracking.** For rules that the parser delivered. Identity on a set of rules is an equivalence that only holds of the
same rules exactly when no two of them can be confused. And in a run of notifications, a cache holds exactly the live
rules after every prefix exactly when no rule is announced that can be confused with a live one. -/
theorem rules_tracked_iff (R : RuleVal → Prop) (hR : ∀ v, R v → IsParsed v) (cb : ChangeCb) (v0 : RuleVal)
    (vs : List RuleVal) (hvs : ∀ v ∈ vs, IsParsed v) (horder : Orderly vs) :
    ((EquivOn (nlObjectIdentical ruleOps) R ∧
        ∀ v w, R v → R w → nlObjectIdentical ruleOps v w = true → ruleBody v = ruleBody w) ↔
      ∀ v w, R v → R w → ¬ Confusable v w) ∧
    ((∀ as, as <+: vs → Exact ruleBody (announces rtnlRuleOps) as (cached cb v0 as)) ↔ Unconfused vs) := by
  have hid : ∀ v w, R v → R w → (nlObjectIdentical ruleOps v w = true ↔ Agree ruleCompared v w) :=
    fun v w hv hw => identical_iff (hR v hv).ops (hR w hw).ops
  refine ⟨⟨?_, ?_⟩, ?_⟩
  · rintro ⟨-, hsame⟩ v w hv hw ⟨hne, hagree⟩
    exact hne (hsame v w hv hw ((hid v w hv hw).2 hagree))
  · intro hno
    have hsame : ∀ v w, R v → R w → (nlObjectIdentical ruleOps v w = true ↔ ruleBody v = ruleBody w) := by
      intro v w hv hw
      rw [hid v w hv hw]
      refine ⟨fun hagree => ?_, agree_same⟩
      by_contra hne
      exact hno v w hv hw ⟨hne, hagree⟩
    refine ⟨⟨fun v hv => (hsame v v hv hv).2 rfl, fun v w hv hw h => ?_, fun v w u hv hw hu h h' => ?_⟩,
      fun v w hv hw => (hsame v w hv hw).1⟩
    · exact (hsame w v hw hv).2 ((hsame v w hv hw).1 h).symm
    · exact (hsame v u hv hu).2 (((hsame v w hv hw).1 h).trans ((hsame w u hw hu).1 h'))
  · have hcached : ∀ as, as <+: vs → cached cb v0 as = follow (announces rtnlRuleOps) (nlObjectIdentical ruleOps) as :=
      fun as has => contents_follow (fun _ => rfl) v0
        (fun v hv => ⟨(hvs v (has.subset hv)).ops, (hvs v (has.subset hv)).known⟩) cb
    have hexact := exact_iff ruleBody (announces rtnlRuleOps) (nlObjectIdentical ruleOps) vs
    rw [forall₂_congr fun as has => by rw [hcached as has], hexact]
    constructor
    · intro hall as v hpre hnew w hw
      rintro ⟨-, hagree⟩
      have has : as <+: vs := (List.prefix_append as [v]).trans hpre
      have hfind := hall as v hpre
      have hnone := ((exact_living ruleBody (announces rtnlRuleOps) as).find (ruleBody v)).trans
        ((horder as v hpre).1 hnew)
      have hmem := mem_living.2 hw
      have hnot := List.find?_eq_none.1 (hfind.trans hnone) w hmem
      exact hnot ((identical_iff (parsed_living hvs has hmem).ops (parsed_upto hvs hpre).ops).2 hagree)
    · intro hun as v hpre
      exact find_of_separate hvs hpre
        (separate_of_unconfused hvs hun ((List.prefix_append as [v]).trans hpre)) horder hun

end

/-! ## Two rules -/

/-- a notification in a buffer of its own, with a header for IPv4 and the main table, and these attributes -/
def ruleMsg (attrs : List UInt8) : NlMsg :=
  ⟨4096, 28 + attrs.length, 32, 0, 0, 0, write (fun _ => 0) 16 ([2, 0, 0, 0, 254, 0, 0, 1, 0, 0, 0, 0] ++ attrs), false⟩

/-- a rule of priority 100, and with l3mdev if it is said -/
def prioRule (l3mdev : Option (BitVec 8)) : RuleVal :=
  ruleOf RTM_NEWRULE ⟨2, 0, 0, 0, 254, 1, 0⟩
    ⟨none, none, none, some 100, none, none, none, none, none, none, l3mdev, none, none, none, none⟩

theorem plain_parsed : @IsParsed ⟨false⟩ (prioRule none) := by
  refine ⟨ruleMsg [8, 0, 6, 0, 100, 0, 0, 0], ?_, Or.inl rfl⟩
  rfl

theorem l3mdev_parsed : @IsParsed ⟨false⟩ (prioRule (some 1)) := by
  refine ⟨ruleMsg [8, 0, 6, 0, 100, 0, 0, 0, 5, 0, 19, 0, 1, 0, 0, 0], ?_, Or.inl rfl⟩
  rfl

/-- two rules are announced, and the second is not the first -/
theorem two_orderly : Orderly [prioRule none, prioRule (some 1)] := by
  have h0 : (prioRule none).ceMsgtype = RTM_NEWRULE ↔ live [] (ruleBody (prioRule none)) = none := by decide
  have h1 : (prioRule (some 1)).ceMsgtype = RTM_NEWRULE ↔ live [prioRule none] (ruleBody (prioRule (some 1))) = none := by
    decide
  exact each_cons h0 (each_cons h1 (each_nil _))

/-- one rule is announced, and tracked -/
theorem rules_tracked_sample : EquivOn (nlObjectIdentical ruleOps) (fun v => v = prioRule none) ∧
    ∀ as, as <+: [prioRule none] → Exact ruleBody (announces rtnlRuleOps) as (cached .v2 (prioRule none) as) := by
  let order : HostOrder := ⟨false⟩
  have hlive : live [] (ruleBody (prioRule none)) = none := rfl
  have hone : ∀ v w, v = prioRule none → w = prioRule none → ¬ Confusable v w := by
    rintro v w rfl rfl ⟨hne, -⟩
    exact hne rfl
  have htracked := rules_tracked_iff (fun v => v = prioRule none)
    (by rintro v rfl; exact plain_parsed) .v2 (prioRule none) [prioRule none]
    (by intro v hv; rw [List.mem_singleton.1 hv]; exact plain_parsed)
    (each_cons (iff_of_true rfl hlive) (each_nil _))
  exact ⟨(htracked.1.2 hone).1, htracked.2.2 (each_cons (fun _ w hw => nomatch hw) (each_nil _))⟩

/-- **A rule is replaced.** Two rules that differ in l3mdev only are identical, and a cache that is told of the one and then
of the other has lost the first. -/
theorem rule_replaced : @IsParsed ⟨false⟩ (prioRule none) ∧ @IsParsed ⟨false⟩ (prioRule (some 1)) ∧
    Orderly [prioRule none, prioRule (some 1)] ∧
    nlObjectIdentical ruleOps (prioRule none) (prioRule (some 1)) = true ∧
    ruleBody (prioRule none) ≠ ruleBody (prioRule (some 1)) ∧
    ¬ ∀ as, as <+: [prioRule none, prioRule (some 1)] →
      Exact ruleBody (announces rtnlRuleOps) as (cached .none (prioRule none) as) := by
  let order : HostOrder := ⟨false⟩
  have hne : ruleBody (prioRule none) ≠ ruleBody (prioRule (some 1)) := by decide
  refine ⟨plain_parsed, l3mdev_parsed, two_orderly, by rfl, hne, fun hall => ?_⟩
  have hcached : cached .none (prioRule none) [prioRule none, prioRule (some 1)] = [prioRule (some 1)] := by
    refine (contents_follow (fun _ => rfl) (prioRule none) ?_ .none).trans (by rfl)
    intro v hv
    have hparsed : IsParsed v := by
      rcases List.mem_pair.1 hv with rfl | rfl
      · exact plain_parsed
      · exact l3mdev_parsed
    exact ⟨hparsed.ops, hparsed.known⟩
  have hexact := hall _ (List.prefix_refl _) (ruleBody (prioRule none))
  rw [hcached] at hexact
  have hlatest : live [prioRule none, prioRule (some 1)] (ruleBody (prioRule none)) = some (prioRule none) := by
    rfl
  rw [live] at hlatest
  rw [hlatest, List.filter_cons_of_neg (by simpa using Ne.symm hne)] at hexact
  cases hexact

end Libnl.Rule
