/-
What a comparison of links says (`link_compare` in `lib/route/link.c`).

Twenty-one attributes are compared one by one. Then the data of the address family: where it differs, the function jumps to
its end, over the comparison of the link info, and the difference is reported under the bit of `LINK_ATTR_PROTINFO`, and
only if one of the links has that. So a difference of the family data hides one of the link info, and may itself be hidden.

- `linkCompare_split`: the answer, by what the family data says.
- `link_changes_seen_iff`: where changes of link info and family data are seen, also by `cache_include`.
- `bridge_change_hidden`: two links that differ in both and are the same for the comparison.
-/
import Mathlib.Tactic
import Libnl.Core.Mask
import Libnl.Cache.Contents
import Libnl.Route.Link

namespace Libnl.Link

open Object Cache Addr Mask

variable {β γ : Type}

/-- an attribute that only one carries, or both do and differ in it -/
def Differs (a b : ObjVal (RtnlLink β γ)) (attr : BitVec 64) (differ : Bool) : Prop :=
  (a.ceMask ^^^ b.ceMask) &&& attr ≠ 0 ∨ (a.ceMask &&& b.ceMask &&& attr ≠ 0 ∧ differ = true)

/-- only one of the two carries an attribute -/
def OneCarries (a b : ObjVal (RtnlLink β γ)) (attr : BitVec 64) : Prop := (a.ceMask ^^^ b.ceMask) &&& attr ≠ 0

/-- none of the two carries an attribute -/
def NoneCarries (a b : ObjVal (RtnlLink β γ)) (attr : BitVec 64) : Prop := a.ceMask &&& attr = 0 ∧ b.ceMask &&& attr = 0

/-- the attributes that are compared before the family data, in the order of the source -/
def linkTests (a b : ObjVal (RtnlLink β γ)) (flags : ℕ) : List (BitVec 64 × Bool) :=
  [(LINK_ATTR_IFINDEX, decide (a.data.lIndex ≠ b.data.lIndex)), (LINK_ATTR_MTU, decide (a.data.lMtu ≠ b.data.lMtu)),
    (LINK_ATTR_LINK, decide (a.data.lLink ≠ b.data.lLink)),
    (LINK_ATTR_LINK_NETNSID, decide (a.data.lLinkNetnsid ≠ b.data.lLinkNetnsid)),
    (LINK_ATTR_TXQLEN, decide (a.data.lTxqlen ≠ b.data.lTxqlen)),
    (LINK_ATTR_WEIGHT, decide (a.data.lWeight ≠ b.data.lWeight)),
    (LINK_ATTR_MASTER, decide (a.data.lMaster ≠ b.data.lMaster)),
    (LINK_ATTR_FAMILY, decide (a.data.lFamily ≠ b.data.lFamily)),
    (LINK_ATTR_OPERSTATE, decide (a.data.lOperstate ≠ b.data.lOperstate)),
    (LINK_ATTR_LINKMODE, decide (a.data.lLinkmode ≠ b.data.lLinkmode)),
    (LINK_ATTR_QDISC, decide (a.data.lQdisc ≠ b.data.lQdisc)), (LINK_ATTR_IFNAME, decide (a.data.lName ≠ b.data.lName)),
    (LINK_ATTR_ADDR, nlAddrCmp a.data.lAddr b.data.lAddr), (LINK_ATTR_BRD, nlAddrCmp a.data.lBcast b.data.lBcast),
    (LINK_ATTR_IFALIAS, decide (a.data.lIfalias ≠ b.data.lIfalias)),
    (LINK_ATTR_NUM_VF, decide (a.data.lNumVf ≠ b.data.lNumVf)),
    (LINK_ATTR_PROMISCUITY, decide (a.data.lPromiscuity ≠ b.data.lPromiscuity)),
    (LINK_ATTR_NUM_TX_QUEUES, decide (a.data.lNumTxQueues ≠ b.data.lNumTxQueues)),
    (LINK_ATTR_NUM_RX_QUEUES, decide (a.data.lNumRxQueues ≠ b.data.lNumRxQueues)),
    (LINK_ATTR_GROUP, decide (a.data.lGroup ≠ b.data.lGroup)),
    (LINK_ATTR_FLAGS, if flags &&& LOOSE_COMPARISON ≠ 0 then
      decide ((a.data.lFlags ^^^ b.data.lFlags) &&& b.data.lFlagMask ≠ 0) else decide (a.data.lFlags ≠ b.data.lFlags))]

/-- one of these attributes differs -/
def TestsDiffer (a b : ObjVal (RtnlLink β γ)) (flags : ℕ) : Prop := ∃ t ∈ linkTests a b flags, Differs a b t.1 t.2

/-- the presence of link info, or what is compared of it -/
def InfoDiffer (mods : LinkModules β γ) (a b : ObjVal (RtnlLink β γ)) (flags : ℕ) : Prop :=
  OneCarries a b LINK_ATTR_LINKINFO ∨ rtnlLinkInfoDataCompare mods a b flags ≠ 0

/-- the data of the family of the first -/
def AfDiffer (mods : LinkModules β γ) (a b : ObjVal (RtnlLink β γ)) : Prop :=
  rtnlLinkAfDataCompare mods a b a.data.lFamily ≠ 0

/-- a change of the link info is told as such, one of the family data in some way, and `cache_include` puts the new link in
the place of the old one and says so -/
structure ChangesSeen (mods : LinkModules β γ) (a b : ObjVal (RtnlLink β γ)) (flags : ℕ) : Prop where
  info : linkCompare mods a b (BitVec.allOnes 64) flags &&& LINK_ATTR_LINKINFO ≠ 0 ↔ InfoDiffer mods a b flags
  af : AfDiffer mods a b → linkCompare mods a b (BitVec.allOnes 64) flags ≠ 0
  included : flags = 0 → a.ceOps = b.ceOps → InfoDiffer mods a b flags ∨ AfDiffer mods a b →
    ∀ nlHash es marked cb, entryOf (fun _ => linkObjOps mods nlHash) es b = some ⟨a, marked⟩ →
      includeEntries (fun _ => linkObjOps mods nlHash) .new es b =
        KeyedList.put Entry.val (nlObjectIdentical fun _ => linkObjOps mods nlHash) es ⟨b, false⟩ ∧
      includeEvents (fun _ => linkObjOps mods nlHash) cb .new es b =
        calls cb (.v1 b .change) (.v2 (some a) (some b) (linkCompare mods a b (BitVec.allOnes 64) 0) .change)

/-- where that is so. Link info that neither link has is not compared. -/
structure SeenWhen (mods : LinkModules β γ) (a b : ObjVal (RtnlLink β γ)) (flags : ℕ) : Prop where
  same : ¬ AfDiffer mods a b → NoneCarries a b LINK_ATTR_LINKINFO → rtnlLinkInfoDataCompare mods a b flags = 0
  info : AfDiffer mods a b → ¬ InfoDiffer mods a b flags
  af : AfDiffer mods a b → ¬ NoneCarries a b LINK_ATTR_PROTINFO ∨ TestsDiffer a b flags

/-! ## The answer -/

section
variable {a b : ObjVal (RtnlLink β γ)} {flags : ℕ}

theorem attrDiff_ne_zero_iff {attr : BitVec 64} (hne : attr ≠ 0) {differ : Bool} :
    attrDiff (BitVec.allOnes 64) attr a b differ ≠ 0 ↔ Differs a b attr differ := by
  rw [ne_eq, attrDiff_all_eq_zero_iff hne, not_and_or, not_or, Bool.not_eq_false]
  rfl

/-- what is found in an attribute does not show in the bit of another -/
theorem attrDiff_and {attrs attr bit : BitVec 64} (h : attr &&& bit = 0) (differ : Bool) :
    attrDiff attrs attr a b differ &&& bit = 0 := by
  rw [attrDiff]
  split_ifs
  · exact h
  · exact BitVec.zero_and

/-- what the tests find -/
def testsDiff (a b : ObjVal (RtnlLink β γ)) (attrs : BitVec 64) (flags : ℕ) : BitVec 64 :=
  ((linkTests a b flags).map fun t => attrDiff attrs t.1 a b t.2).foldl (· ||| ·) 0

theorem linkTests_bits : (linkTests a b flags).map Prod.fst =
    [LINK_ATTR_IFINDEX, LINK_ATTR_MTU, LINK_ATTR_LINK, LINK_ATTR_LINK_NETNSID, LINK_ATTR_TXQLEN, LINK_ATTR_WEIGHT,
      LINK_ATTR_MASTER, LINK_ATTR_FAMILY, LINK_ATTR_OPERSTATE, LINK_ATTR_LINKMODE, LINK_ATTR_QDISC, LINK_ATTR_IFNAME,
      LINK_ATTR_ADDR, LINK_ATTR_BRD, LINK_ATTR_IFALIAS, LINK_ATTR_NUM_VF, LINK_ATTR_PROMISCUITY, LINK_ATTR_NUM_TX_QUEUES,
      LINK_ATTR_NUM_RX_QUEUES, LINK_ATTR_GROUP, LINK_ATTR_FLAGS] := rfl

/-- each test has a bit of its own, which is none of the link info -/
theorem linkTests_bit {t : BitVec 64 × Bool} (ht : t ∈ linkTests a b flags) : t.1 ≠ 0 ∧ t.1 &&& LINK_ATTR_LINKINFO = 0 := by
  have hmem : t.1 ∈ (linkTests a b flags).map Prod.fst := List.mem_map_of_mem ht
  have hall : ((linkTests a b flags).map Prod.fst).all (fun bit => decide (bit ≠ 0 ∧ bit &&& LINK_ATTR_LINKINFO = 0)) = true := by
    rw [linkTests_bits]
    decide
  exact of_decide_eq_true (List.all_eq_true.1 hall t.1 hmem)

theorem testsDiff_eq_zero_iff : testsDiff a b (BitVec.allOnes 64) flags = 0 ↔ ¬ TestsDiffer a b flags := by
  rw [testsDiff, foldl_or_eq_zero_iff, and_iff_right rfl, TestsDiffer, List.forall_mem_map]
  push Not
  refine forall₂_congr fun t ht => ?_
  rw [← attrDiff_ne_zero_iff (linkTests_bit ht).1, not_not]

theorem testsDiff_and : testsDiff a b (BitVec.allOnes 64) flags &&& LINK_ATTR_LINKINFO = 0 := by
  refine foldl_or_and _ BitVec.zero_and ?_
  rw [List.forall_mem_map]
  exact fun t ht => attrDiff_and (linkTests_bit ht).2 t.2

/-- **The answer**: the tests, and one of two things. -/
theorem linkCompare_split (mods : LinkModules β γ) (attrs : BitVec 64) (hfam : a.data.lFamily = b.data.lFamily) :
    linkCompare mods a b attrs flags = testsDiff a b attrs flags |||
      if rtnlLinkAfDataCompare mods a b a.data.lFamily ≠ 0 then attrDiff attrs LINK_ATTR_PROTINFO a b true
      else attrDiff attrs LINK_ATTR_LINKINFO a b (decide (rtnlLinkInfoDataCompare mods a b flags ≠ 0)) := by
  have htests : testsDiff a b attrs flags =
      ((linkTests a b flags).map fun t => attrDiff attrs t.1 a b t.2).foldl (· ||| ·) 0 := rfl
  simp only [linkTests, List.map_cons, List.map_nil, List.foldl_cons, List.foldl_nil] at htests
  have hzero : ∀ x : BitVec 64, 0 ||| x = x := fun x => BitVec.zero_or
  rw [htests, linkCompare, hzero]
  have hflags : ∀ p : Prop, ∀ [Decidable p], ∀ x y : Bool, attrDiff attrs LINK_ATTR_FLAGS a b (if p then x else y) =
      if p then attrDiff attrs LINK_ATTR_FLAGS a b x else attrDiff attrs LINK_ATTR_FLAGS a b y := by
    intro p _ x y
    split_ifs <;> rfl
  rw [hflags]
  by_cases haf : rtnlLinkAfDataCompare mods a b a.data.lFamily ≠ 0
  · rw [if_pos ⟨hfam, haf⟩, if_pos haf]
  · rw [if_neg fun h => haf h.2, if_neg haf]

theorem noneCarries_iff {attr : BitVec 64} :
    NoneCarries a b attr ↔ (a.ceMask ^^^ b.ceMask) &&& attr = 0 ∧ a.ceMask &&& b.ceMask &&& attr = 0 := by
  have hbit : ∀ m : BitVec 64, m &&& attr = 0 ↔ ∀ i < 64, (m.getLsbD i && attr.getLsbD i) = false := by
    intro m
    constructor
    · intro h i _
      have hi := congrArg (fun x => x.getLsbD i) h
      simpa only [BitVec.getLsbD_and, BitVec.ofNat_eq_ofNat, BitVec.getLsbD_zero] using hi
    · intro h
      refine BitVec.eq_of_getLsbD_eq fun i hi => ?_
      rw [BitVec.getLsbD_and, BitVec.ofNat_eq_ofNat, BitVec.getLsbD_zero, h i hi]
  rw [NoneCarries, hbit, hbit, hbit, hbit, ← forall₂_and, ← forall₂_and]
  refine forall₂_congr fun i _ => ?_
  rw [BitVec.getLsbD_xor, BitVec.getLsbD_and]
  cases a.ceMask.getLsbD i <;> cases b.ceMask.getLsbD i <;> simp

/-- what is found to differ whenever it is there -/
theorem differs_true_iff {attr : BitVec 64} : Differs a b attr true ↔ ¬ NoneCarries a b attr := by
  rw [noneCarries_iff, not_and_or, Differs]
  simp only [ne_eq, and_true]

/-- what differs is included: the new link replaces the old one, and the callback is made -/
theorem included_of_ne (mods : LinkModules β γ) (nlHash : List UInt8 → ℕ) {es : List (Entry (RtnlLink β γ))} {marked : Bool} (cb : ChangeCb)
    (hops : a.ceOps = b.ceOps) (hold : entryOf (fun _ => linkObjOps mods nlHash) es b = some ⟨a, marked⟩)
    (hne : linkCompare mods a b (BitVec.allOnes 64) 0 ≠ 0) :
    includeEntries (fun _ => linkObjOps mods nlHash) .new es b =
        KeyedList.put Entry.val (nlObjectIdentical fun _ => linkObjOps mods nlHash) es ⟨b, false⟩ ∧
      includeEvents (fun _ => linkObjOps mods nlHash) cb .new es b =
        calls cb (.v1 b .change) (.v2 (some a) (some b) (linkCompare mods a b (BitVec.allOnes 64) 0) .change) := by
  have hdiff : nlObjectDiff64 (fun _ => linkObjOps mods nlHash) a b = linkCompare mods a b (BitVec.allOnes 64) 0 :=
    if_neg (not_not.2 hops)
  have hupdate : nlObjectUpdate (fun _ => linkObjOps mods nlHash) a b = none := rfl
  constructor
  · simp only [includeEntries, hold, hupdate]
    rw [if_neg (by decide)]
  · simp only [includeEvents, hold, hupdate, hdiff]
    rw [if_neg (by decide), if_pos hne]

variable (mods : LinkModules β γ) (hfam : a.data.lFamily = b.data.lFamily)
include hfam

/-- with other family data: the tests, and whether one of the links has the bit that stands for it -/
theorem compare_af (haf : AfDiffer mods a b) :
    linkCompare mods a b (BitVec.allOnes 64) flags &&& LINK_ATTR_LINKINFO = 0 ∧
      (linkCompare mods a b (BitVec.allOnes 64) flags ≠ 0 ↔
        ¬ NoneCarries a b LINK_ATTR_PROTINFO ∨ TestsDiffer a b flags) := by
  have hcompare : rtnlLinkAfDataCompare mods a b a.data.lFamily ≠ 0 := haf
  rw [linkCompare_split mods _ hfam, if_pos hcompare]
  constructor
  · rw [BitVec.and_or_distrib_right, testsDiff_and, attrDiff_and (by decide)]
    exact BitVec.or_self
  · have hprot : attrDiff (BitVec.allOnes 64) LINK_ATTR_PROTINFO a b true = 0 ↔ NoneCarries a b LINK_ATTR_PROTINFO := by
      rw [← not_iff_not, ← differs_true_iff]
      exact attrDiff_ne_zero_iff (by decide)
    rw [ne_eq, BitVec.ofNat_eq_ofNat, BitVec.or_eq_zero_iff]
    exact (not_congr (and_congr testsDiff_eq_zero_iff hprot)).trans (by tauto)

/-- with the same: the comparison of the link info -/
theorem compare_info (haf : ¬ AfDiffer mods a b) :
    linkCompare mods a b (BitVec.allOnes 64) flags &&& LINK_ATTR_LINKINFO ≠ 0 ↔
      Differs a b LINK_ATTR_LINKINFO (decide (rtnlLinkInfoDataCompare mods a b flags ≠ 0)) := by
  have hzero : ∀ x : BitVec 64, 0 ||| x = x := fun x => BitVec.zero_or
  have hcompare : ¬ rtnlLinkAfDataCompare mods a b a.data.lFamily ≠ 0 := haf
  rw [linkCompare_split mods _ hfam, if_neg hcompare, BitVec.and_or_distrib_right, testsDiff_and, hzero,
    ← attrDiff_ne_zero_iff (by decide), attrDiff]
  split_ifs
  · exact iff_of_true (by decide) (by decide)
  · exact iff_of_false (fun h => h BitVec.zero_and) (fun h => h rfl)

/-! ## Changes -/

/-- **Changes are seen**, in links of one family, iff link info that neither has is the same, and where the family data
differs the link info does not, and the difference shows: one of the links has `LINK_ATTR_PROTINFO`, or one of the tests
differs as well. -/
theorem link_changes_seen_iff : ChangesSeen mods a b flags ↔ SeenWhen mods a b flags := by
  constructor
  · intro h
    constructor
    case same =>
      intro haf hnone
      by_contra hinfo
      have hbit := (compare_info mods hfam haf).1 (h.info.2 (Or.inr hinfo))
      obtain ⟨hxor, hand⟩ := noneCarries_iff.1 hnone
      rcases hbit with hone | hboth
      · exact hone hxor
      · exact hboth.1 hand
    case info => exact fun haf hinfo => h.info.2 hinfo (compare_af mods hfam haf).1
    case af => exact fun haf => (compare_af mods hfam haf).2.1 (h.af haf)
  · intro h
    have hinfo : linkCompare mods a b (BitVec.allOnes 64) flags &&& LINK_ATTR_LINKINFO ≠ 0 ↔ InfoDiffer mods a b flags := by
      by_cases haf : AfDiffer mods a b
      · exact iff_of_false (fun hne => hne (compare_af mods hfam haf).1) (h.info haf)
      · rw [compare_info mods hfam haf, Differs, InfoDiffer, OneCarries, decide_eq_true_eq]
        refine or_congr_right' fun hone => and_iff_right_of_imp fun hdiff hand => ?_
        exact hdiff (h.same haf (noneCarries_iff.2 ⟨not_not.1 hone, hand⟩))
    have haf : AfDiffer mods a b → linkCompare mods a b (BitVec.allOnes 64) flags ≠ 0 := fun haf =>
      (compare_af mods hfam haf).2.2 (h.af haf)
    refine ⟨hinfo, haf, ?_⟩
    rintro rfl hops hchanged nlHash es marked cb hold
    refine included_of_ne mods nlHash cb hops hold ?_
    rcases hchanged with hchanged | hchanged
    · intro hzero
      refine hinfo.2 hchanged ?_
      rw [hzero]
      exact BitVec.zero_and
    · exact haf hchanged

end

/-! ## A hidden change -/

/-- a link of this kind, with or without data of its family -/
def afLink (kind : ℕ) (af : Option Unit) : ObjVal (RtnlLink Unit Unit) where
  ceOps := 0
  ceMsgtype := 16
  ceMask := LINK_ATTR_IFINDEX ||| LINK_ATTR_FAMILY ||| LINK_ATTR_LINKINFO
  data := {
    lName := [], lFamily := 7, lIndex := 2, lFlags := 0, lMtu := 0, lLink := 0, lLinkNetnsid := 0, lTxqlen := 0
    lWeight := 0, lMaster := 0, lAddr := none, lBcast := none, lQdisc := [], lFlagMask := 0, lNumVf := 0
    lOperstate := 0, lLinkmode := 0, lInfoOps := some kind, lAfData := fun _ => af, lInfo := none, lIfalias := []
    lPromiscuity := 0, lNumTxQueues := 0, lNumRxQueues := 0, lGroup := 0 }

/-- no module compares anything -/
def noModules : LinkModules Unit Unit := ⟨fun _ => none, fun _ => none⟩

theorem link_changes_seen_iff_same : ChangesSeen noModules (afLink 0 none) (afLink 1 none) 0 := by
  have haf : ¬ AfDiffer noModules (afLink 0 none) (afLink 1 none) := fun h => h rfl
  have hinfo : ¬ NoneCarries (afLink 0 none) (afLink 1 none) LINK_ATTR_LINKINFO := fun h => absurd h.1 (by decide)
  exact (link_changes_seen_iff (a := afLink 0 none) (b := afLink 1 none) noModules rfl).2
    ⟨fun _ hnone => absurd hnone hinfo, fun h => absurd h haf, fun h => absurd h haf⟩

/-- two links of different kinds, one of them with data of its family: the comparison finds no difference -/
theorem bridge_change_hidden : linkCompare noModules (afLink 0 none) (afLink 1 (some ())) (BitVec.allOnes 64) 0 = 0 ∧
    ¬ ChangesSeen noModules (afLink 0 none) (afLink 1 (some ())) 0 := by
  have hzero : linkCompare noModules (afLink 0 none) (afLink 1 (some ())) (BitVec.allOnes 64) 0 = 0 := by decide
  have haf : rtnlLinkAfDataCompare noModules (afLink 0 none) (afLink 1 (some ())) 7 ≠ 0 := by decide
  exact ⟨hzero, fun h => h.af haf hzero⟩

end Libnl.Link
