/-
What `__parse_vlans` writes (`lib/route/link/bridge.c`).

The two bitmaps and the table of instances stand one after the other in `struct rtnl_link_bridge_vlan`. A bit is set by its
number alone: number 4096 of the first bitmap is number 0 of the second, and number 8192 a bit of the table. Here the words
of the structure are one stretch of memory, and every call of `vlan_field_set` is written down.

- `parsed_words`: whatever the message says, nothing is written behind the structure.
- `stays_iff`: the parser stays in the bitmaps exactly when it is asked for VLANs below 4096 only.
- `parseVlans_view`: then it is the parser of bitmaps without an end.
- `flush_sid`: the flush before it clears bytes for bits, and a part of the table with them.
-/
import Mathlib.Tactic
import Libnl.Core.Bitmap
import Libnl.Message.AttrWalk
import Libnl.Route.BridgeVlan

namespace Libnl.BridgeVlanBounds

open Bytes Bitmap Walk Msg Attr AttrWalk
open BridgeVlan (BITMAP_MAX BRIDGE_VLAN_INFO_PVID BRIDGE_VLAN_INFO_UNTAGGED BRIDGE_VLAN_INFO_RANGE_BEGIN
  BRIDGE_VLAN_INFO_RANGE_END IFLA_BRIDGE_VLAN_INFO EINVAL RtnlLinkBridgeVlan)

/-! ## The structure in memory -/

/-- `struct rtnl_link_bridge_vlan` -/
structure VlanInfo where
  pvid : ℕ
  /-- the words behind it -/
  words : Words

/-! Where its arrays begin, and where it ends -/

def VLAN_BITMAP : ℕ := 0
def UNTAGGED_BITMAP : ℕ := 128
def SID : ℕ := 256
def VLAN_INFO_END : ℕ := 4352

/-- `vlan_field_set` of a bitmap -/
def vlanFieldSet (w : Words) (f vid : ℕ) : Words := Function.update w (f + vid / 32) (w (f + vid / 32) ||| wordMask vid)

/-- `vlan_field_flush`: as many bytes as there are bits -/
def vlanFieldFlush (w : Words) (f : ℕ) : Words := fun i => if f ≤ i ∧ i < f + BITMAP_MAX / 4 then 0 else w i

/-- `rtnl_link_bridge_vlan_flush` -/
def rtnlLinkBridgeVlanFlush (bv : VlanInfo) : VlanInfo :=
  ⟨0, vlanFieldFlush (vlanFieldFlush bv.words VLAN_BITMAP) UNTAGGED_BITMAP⟩

/-! ## Parsing -/

/-- the structure and `range_start` -/
structure Parse where
  info : VlanInfo
  rangeStart : ℕ
  /-- the bits that were set so far, each with its bitmap -/
  sets : List (ℕ × ℕ)

def Parse.fieldSet (s : Parse) (f vid : ℕ) : Parse :=
  { s with info := { s.info with words := vlanFieldSet s.info.words f vid }, sets := s.sets ++ [(f, vid)] }

/-- `__parse_vlan` -/
def parseVlan (s : Parse) (vid flags : ℕ) : Parse :=
  let s := s.fieldSet VLAN_BITMAP vid
  if flags &&& BRIDGE_VLAN_INFO_UNTAGGED ≠ 0 then s.fieldSet UNTAGGED_BITMAP vid else s

/-- one `struct bridge_vlan_info` -/
def takeInfo (s : Parse) (flags vid : ℕ) : Parse :=
  let s := if flags &&& BRIDGE_VLAN_INFO_PVID ≠ 0 then { s with info := { s.info with pvid := vid } } else s
  if flags &&& BRIDGE_VLAN_INFO_RANGE_BEGIN ≠ 0 then { s with rangeStart := vid }
  else if flags &&& BRIDGE_VLAN_INFO_RANGE_END ≠ 0 then
    (List.range' s.rangeStart (vid + 1 - s.rangeStart)).foldl (fun s i => parseVlan s i flags) s
  else parseVlan s vid flags

section
variable [HostOrder]

/-- the loop body of `__parse_vlans` -/
def parseVlansBody (buf : Mem) (s : Parse) (attr : ℕ) : Except (ℤ × Parse) Parse :=
  if nlaType buf attr ≠ IFLA_BRIDGE_VLAN_INFO then .ok s
  else if nlaLen buf attr ≠ 4 then .error (-EINVAL, s)
  else .ok (takeInfo s (getU16 buf (nlaData attr)) (getU16 buf (nlaData attr + 2)))

/-- `__parse_vlans`, if the loop ends within `n` iterations: the return code, and the structure as it is then -/
def parseVlans (n : ℕ) (buf : Mem) (afSpec : ℕ) (bv : VlanInfo) : Option (ℤ × Parse) :=
  (nlaForEachAttr buf (parseVlansBody buf) n ⟨bv, 0, []⟩ (nlaData afSpec) (nlaLen buf afSpec)).map fun
    | .error e => e
    | .ok s => (0, s)

/-- flags and number of the attributes that are looked at: those of the right type, up to the first of a wrong length -/
def infos (buf : Mem) : List ℕ → List (ℕ × ℕ)
  | [] => []
  | attr :: attrs =>
    if nlaType buf attr ≠ IFLA_BRIDGE_VLAN_INFO then infos buf attrs
    else if nlaLen buf attr ≠ 4 then []
    else (getU16 buf (nlaData attr), getU16 buf (nlaData attr + 2)) :: infos buf attrs

theorem infos_lt (buf : Mem) (attrs : List ℕ) : ∀ x ∈ infos buf attrs, x.2 < 65536 := by
  induction attrs with
  | nil => intro x hx; cases hx
  | cons attr attrs ih =>
    rw [infos]
    split_ifs
    · exact ih
    · intro x hx; cases hx
    · intro x hx
      rcases List.mem_cons.1 hx with rfl | hx
      · exact getU16_lt buf _
      · exact ih x hx

/-- the loop takes one after the other -/
theorem foldlM_infos (buf : Mem) (attrs : List ℕ) (s : Parse) :
    ∃ err, (match attrs.foldlM (parseVlansBody buf) s with
      | .error e => e
      | .ok s => (0, s)) = ((err, (infos buf attrs).foldl (fun s x => takeInfo s x.1 x.2) s) : ℤ × Parse) := by
  induction attrs generalizing s with
  | nil => exact ⟨0, rfl⟩
  | cons attr attrs ih =>
    rw [List.foldlM_cons, infos]
    simp only [parseVlansBody]
    split_ifs
    · exact ih s
    · exact ⟨-EINVAL, rfl⟩
    · exact ih _

/-- **The parser ends**, and has taken the attributes one after the other. -/
theorem parseVlans_eq (buf : Mem) (afSpec : ℕ) (bv : VlanInfo) : ∃ err, ∀ n, (nlaLen buf afSpec).toNat < n →
    parseVlans n buf afSpec bv =
      some (err, (infos buf (nestedAttrs buf afSpec)).foldl (fun s x => takeInfo s x.1 x.2) ⟨bv, 0, []⟩) := by
  obtain ⟨err, hfold⟩ := foldlM_infos buf (nestedAttrs buf afSpec) ⟨bv, 0, []⟩
  refine ⟨err, fun n hn => ?_⟩
  rw [parseVlans, nlaForEachAttr, forEach_eq_foldlM _ _ (parseVlansBody buf) n _ _ _ _ (nested_visits_of_lt buf afSpec hn),
    Option.map_some, hfold]

end

/-! ## Which bits are set -/

/-- the VLANs that an attribute asks for -/
def vlansOf (start flags vid : ℕ) : List ℕ :=
  if flags &&& BRIDGE_VLAN_INFO_RANGE_BEGIN ≠ 0 then []
  else if flags &&& BRIDGE_VLAN_INFO_RANGE_END ≠ 0 then List.range' start (vid + 1 - start)
  else [vid]

/-- what is asked for by all, each with its flags -/
def vlansOfAll : ℕ → List (ℕ × ℕ) → List (ℕ × ℕ)
  | _, [] => []
  | start, (flags, vid) :: rest =>
    (vlansOf start flags vid).map (fun v => (v, flags)) ++
      vlansOfAll (if flags &&& BRIDGE_VLAN_INFO_RANGE_BEGIN ≠ 0 then vid else start) rest

/-- the last `pvid` that is named -/
def pvidOf (pvid : ℕ) (xs : List (ℕ × ℕ)) : ℕ :=
  xs.foldl (fun pvid x => if x.1 &&& BRIDGE_VLAN_INFO_PVID ≠ 0 then x.2 else pvid) pvid

/-- the parser without the `pvid`: VLANs one after the other -/
def parseAll (s : Parse) (vs : List (ℕ × ℕ)) : Parse := vs.foldl (fun s x => parseVlan s x.1 x.2) s

theorem parseVlan_rest (s : Parse) (vid flags : ℕ) :
    (parseVlan s vid flags).info.pvid = s.info.pvid ∧ (parseVlan s vid flags).rangeStart = s.rangeStart := by
  unfold parseVlan
  split_ifs
  · exact ⟨rfl, rfl⟩
  · exact ⟨rfl, rfl⟩

theorem parseAll_rest (vs : List (ℕ × ℕ)) (s : Parse) :
    (parseAll s vs).info.pvid = s.info.pvid ∧ (parseAll s vs).rangeStart = s.rangeStart := by
  induction vs generalizing s with
  | nil => exact ⟨rfl, rfl⟩
  | cons v vs ih =>
    have hone := parseVlan_rest s v.1 v.2
    have hrest := ih (parseVlan s v.1 v.2)
    exact ⟨hrest.1.trans hone.1, hrest.2.trans hone.2⟩

/-- the `pvid` and the range start of an attribute -/
def noteInfo (s : Parse) (flags vid : ℕ) : Parse :=
  { s with
    info := { s.info with pvid := if flags &&& BRIDGE_VLAN_INFO_PVID ≠ 0 then vid else s.info.pvid }
    rangeStart := if flags &&& BRIDGE_VLAN_INFO_RANGE_BEGIN ≠ 0 then vid else s.rangeStart }

/-- an attribute sets its `pvid`, its range start and its VLANs -/
theorem takeInfo_eq (s : Parse) (flags vid : ℕ) : takeInfo s flags vid =
    parseAll (noteInfo s flags vid) ((vlansOf s.rangeStart flags vid).map fun v => (v, flags)) := by
  have hpvid : (if flags &&& BRIDGE_VLAN_INFO_PVID ≠ 0 then { s with info := { s.info with pvid := vid } } else s) =
      { s with info := { s.info with pvid := if flags &&& BRIDGE_VLAN_INFO_PVID ≠ 0 then vid else s.info.pvid } } := by
    split_ifs
    · rfl
    · rfl
  simp only [takeInfo, noteInfo, vlansOf, parseAll]
  rw [hpvid]
  generalize (if flags &&& BRIDGE_VLAN_INFO_PVID ≠ 0 then vid else s.info.pvid) = p
  by_cases hbegin : flags &&& BRIDGE_VLAN_INFO_RANGE_BEGIN ≠ 0
  · rw [if_pos hbegin, if_pos hbegin, if_pos hbegin]
    rfl
  · rw [if_neg hbegin, if_neg hbegin, if_neg hbegin]
    by_cases hend : flags &&& BRIDGE_VLAN_INFO_RANGE_END ≠ 0
    · rw [if_pos hend, if_pos hend, List.foldl_map]
    · rw [if_neg hend, if_neg hend]
      rfl

/-- what the VLANs do does not depend on the rest of the state -/
theorem parseAll_bits {s t : Parse} (hwords : s.info.words = t.info.words) (hsets : s.sets = t.sets) (vs : List (ℕ × ℕ)) :
    (parseAll s vs).info.words = (parseAll t vs).info.words ∧ (parseAll s vs).sets = (parseAll t vs).sets := by
  induction vs generalizing s t with
  | nil => exact ⟨hwords, hsets⟩
  | cons v vs ih =>
    refine ih ?_ ?_
    · simp only [parseVlan]
      split_ifs
      · simp only [Parse.fieldSet, hwords]
      · simp only [Parse.fieldSet, hwords]
    · simp only [parseVlan]
      split_ifs
      · simp only [Parse.fieldSet, hsets]
      · simp only [Parse.fieldSet, hsets]

theorem parseAll_append (s : Parse) (us vs : List (ℕ × ℕ)) : parseAll s (us ++ vs) = parseAll (parseAll s us) vs :=
  List.foldl_append

/-- **The parser as a list of VLANs**, and the `pvid` beside them. -/
theorem foldl_takeInfo (xs : List (ℕ × ℕ)) (s : Parse) :
    (xs.foldl (fun s x => takeInfo s x.1 x.2) s).info.words = (parseAll s (vlansOfAll s.rangeStart xs)).info.words ∧
      (xs.foldl (fun s x => takeInfo s x.1 x.2) s).sets = (parseAll s (vlansOfAll s.rangeStart xs)).sets ∧
      (xs.foldl (fun s x => takeInfo s x.1 x.2) s).info.pvid = pvidOf s.info.pvid xs := by
  induction xs generalizing s with
  | nil => exact ⟨rfl, rfl, rfl⟩
  | cons x xs ih =>
    obtain ⟨flags, vid⟩ := x
    rw [List.foldl_cons, vlansOfAll, parseAll_append]
    obtain ⟨hwords, hsets, hpvid⟩ := ih (takeInfo s flags vid)
    rw [takeInfo_eq] at hwords hsets hpvid ⊢
    obtain ⟨hpvid', hstart⟩ :=
      parseAll_rest ((vlansOf s.rangeStart flags vid).map fun v => (v, flags)) (noteInfo s flags vid)
    rw [hpvid'] at hpvid
    rw [hstart] at hwords hsets
    obtain ⟨hfirst, hfirst'⟩ := parseAll_bits (s := noteInfo s flags vid) (t := s) rfl rfl
      ((vlansOf s.rangeStart flags vid).map fun v => (v, flags))
    obtain ⟨hall, hall'⟩ := parseAll_bits hfirst hfirst' (vlansOfAll (noteInfo s flags vid).rangeStart xs)
    exact ⟨hwords.trans hall, hsets.trans hall', hpvid⟩

/-! ## Where they are -/

theorem mem_vlansOf_le {start flags vid : ℕ} {v : ℕ} (h : v ∈ vlansOf start flags vid) : v ≤ vid := by
  unfold vlansOf at h
  split_ifs at h
  · cases h
  · rw [List.mem_range'_1] at h
    omega
  · exact (List.mem_singleton.1 h).le

theorem mem_vlansOfAll_le {xs : List (ℕ × ℕ)} {start : ℕ} {v : ℕ × ℕ} (h : v ∈ vlansOfAll start xs) :
    ∃ x ∈ xs, v.1 ≤ x.2 := by
  induction xs generalizing start with
  | nil => cases h
  | cons x xs ih =>
    rcases List.mem_append.1 h with h | h
    · obtain ⟨u, hu, rfl⟩ := List.mem_map.1 h
      exact ⟨x, List.mem_cons_self, mem_vlansOf_le hu⟩
    · obtain ⟨y, hy, hle⟩ := ih h
      exact ⟨y, List.mem_cons_of_mem x hy, hle⟩

/-- an attribute asks for no VLAN, or for none from 4096 on -/
def Fits (start flags vid : ℕ) : Prop :=
  flags &&& BRIDGE_VLAN_INFO_RANGE_BEGIN ≠ 0 ∨ (flags &&& BRIDGE_VLAN_INFO_RANGE_END ≠ 0 ∧ vid < start) ∨ vid < BITMAP_MAX

/-- so do all of them, from a given range start on -/
def AllFit : ℕ → List (ℕ × ℕ) → Prop
  | _, [] => True
  | start, (flags, vid) :: rest =>
    Fits start flags vid ∧ AllFit (if flags &&& BRIDGE_VLAN_INFO_RANGE_BEGIN ≠ 0 then vid else start) rest

theorem fits_iff (start flags vid : ℕ) : Fits start flags vid ↔ ∀ v ∈ vlansOf start flags vid, v < BITMAP_MAX := by
  unfold Fits vlansOf
  by_cases hbegin : flags &&& BRIDGE_VLAN_INFO_RANGE_BEGIN ≠ 0
  · rw [if_pos hbegin]
    exact iff_of_true (Or.inl hbegin) fun v hv => by cases hv
  · rw [if_neg hbegin, or_iff_right hbegin]
    by_cases hend : flags &&& BRIDGE_VLAN_INFO_RANGE_END ≠ 0
    · rw [if_pos hend, and_iff_right hend]
      constructor
      · intro h v hv
        rw [List.mem_range'_1] at hv
        omega
      · intro h
        by_cases hlt : vid < start
        · exact Or.inl hlt
        · exact Or.inr (h vid (List.mem_range'_1.2 (by omega)))
    · rw [if_neg hend]
      simp [hend]

theorem allFit_iff (xs : List (ℕ × ℕ)) (start : ℕ) :
    AllFit start xs ↔ ∀ v ∈ vlansOfAll start xs, v.1 < BITMAP_MAX := by
  induction xs generalizing start with
  | nil => simp [AllFit, vlansOfAll]
  | cons x xs ih =>
    rw [AllFit, vlansOfAll, List.forall_mem_append, List.forall_mem_map, ih, fits_iff]

/-- every VLAN is written down -/
theorem parseAll_sets (vs : List (ℕ × ℕ)) (s : Parse) {P : ℕ → Prop} :
    (∀ c ∈ (parseAll s vs).sets, P c.2) ↔ (∀ c ∈ s.sets, P c.2) ∧ ∀ v ∈ vs, P v.1 := by
  induction vs generalizing s with
  | nil => simp [parseAll]
  | cons v vs ih =>
    have hone : (∀ c ∈ (parseVlan s v.1 v.2).sets, P c.2) ↔ (∀ c ∈ s.sets, P c.2) ∧ P v.1 := by
      simp only [parseVlan]
      split_ifs
      · simp only [Parse.fieldSet, List.forall_mem_append, List.forall_mem_singleton]
        tauto
      · simp only [Parse.fieldSet, List.forall_mem_append, List.forall_mem_singleton]
    rw [List.forall_mem_cons, ← and_assoc, ← hone]
    exact ih _

/-- a bit is set in its word, and in no other -/
theorem vlanFieldSet_of_le (w : Words) {f vid k i : ℕ} (hk : f + vid / 32 < k) (hi : k ≤ i) : vlanFieldSet w f vid i = w i :=
  Function.update_of_ne (by omega) _ _

/-- no word behind those of the VLANs is written -/
theorem parseAll_words (vs : List (ℕ × ℕ)) (s : Parse) {k i : ℕ} (hk : ∀ v ∈ vs, UNTAGGED_BITMAP + v.1 / 32 < k)
    (hi : k ≤ i) : (parseAll s vs).info.words i = s.info.words i := by
  induction vs generalizing s with
  | nil => rfl
  | cons v vs ih =>
    have hv := hk v List.mem_cons_self
    have hfirst : VLAN_BITMAP + v.1 / 32 < k := by
      unfold VLAN_BITMAP
      omega
    have hone : (parseVlan s v.1 v.2).info.words i = s.info.words i := by
      simp only [parseVlan]
      split_ifs
      · simp only [Parse.fieldSet]
        rw [vlanFieldSet_of_le _ hv hi, vlanFieldSet_of_le _ hfirst hi]
      · simp only [Parse.fieldSet]
        rw [vlanFieldSet_of_le _ hfirst hi]
    exact (ih _ fun u hu => hk u (List.mem_cons_of_mem v hu)).trans hone

/-! ## The parser in its bounds -/

section
variable [HostOrder]

/-- the parser ends on a nest, in this state -/
def Parsed (buf : Mem) (afSpec : ℕ) (bv : VlanInfo) (r : Parse) : Prop :=
  ∃ err, ∀ n, (nlaLen buf afSpec).toNat < n → parseVlans n buf afSpec bv = some (err, r)

/-- only bits below 4096 of the bitmaps were set, and nothing behind the bitmaps has changed -/
structure InBitmaps (bv : VlanInfo) (r : Parse) : Prop where
  bits : ∀ c ∈ r.sets, c.2 < BITMAP_MAX
  words : ∀ i, SID ≤ i → r.info.words i = bv.words i

theorem parsed_iff (buf : Mem) (afSpec : ℕ) (bv : VlanInfo) (r : Parse) : Parsed buf afSpec bv r ↔
    r = (infos buf (nestedAttrs buf afSpec)).foldl (fun s x => takeInfo s x.1 x.2) ⟨bv, 0, []⟩ := by
  obtain ⟨err, heq⟩ := parseVlans_eq buf afSpec bv
  constructor
  · rintro ⟨err', h⟩
    have hn := Nat.lt_succ_self (nlaLen buf afSpec).toNat
    have hsame := (h _ hn).symm.trans (heq _ hn)
    exact (Prod.mk.inj (Option.some.inj hsame)).2
  · rintro rfl
    exact ⟨err, heq⟩

/-- **The structure is not left**, whatever the message says. -/
theorem parsed_words {buf : Mem} {afSpec : ℕ} {bv : VlanInfo} {r : Parse} (h : Parsed buf afSpec bv r) {i : ℕ}
    (hi : VLAN_INFO_END ≤ i) : r.info.words i = bv.words i := by
  rw [(parsed_iff buf afSpec bv r).1 h]
  rw [(foldl_takeInfo _ _).1]
  refine parseAll_words _ ⟨bv, 0, []⟩ ?_ hi
  intro v hv
  obtain ⟨x, hx, hle⟩ := mem_vlansOfAll_le hv
  have hlt := infos_lt buf _ x hx
  unfold UNTAGGED_BITMAP VLAN_INFO_END
  omega

/-- where the parser stays in the bitmaps -/
theorem inBitmaps_iff {buf : Mem} {afSpec : ℕ} {bv : VlanInfo} {r : Parse} (h : Parsed buf afSpec bv r) :
    (InBitmaps bv r ↔ AllFit 0 (infos buf (nestedAttrs buf afSpec))) ∧
      r.info.pvid = pvidOf bv.pvid (infos buf (nestedAttrs buf afSpec)) := by
  obtain ⟨hwords, hsets, hpvid⟩ := foldl_takeInfo (infos buf (nestedAttrs buf afSpec)) ⟨bv, 0, []⟩
  rw [(parsed_iff buf afSpec bv r).1 h]
  refine ⟨?_, hpvid⟩
  have hbits : (∀ c ∈ (parseAll ⟨bv, 0, []⟩ (vlansOfAll 0 (infos buf (nestedAttrs buf afSpec)))).sets, c.2 < BITMAP_MAX) ↔
      AllFit 0 (infos buf (nestedAttrs buf afSpec)) := by
    rw [parseAll_sets (P := fun v => v < BITMAP_MAX), allFit_iff]
    exact and_iff_right fun c hc => by cases hc
  constructor
  · intro hin
    have hall := hin.bits
    rw [hsets] at hall
    exact hbits.1 hall
  · intro hfit
    refine ⟨?_, fun i hi => ?_⟩
    · rw [hsets]
      exact hbits.2 hfit
    · rw [hwords]
      refine parseAll_words _ ⟨bv, 0, []⟩ (fun v hv => ?_) hi
      have hlt := (allFit_iff _ _).1 hfit v hv
      unfold BITMAP_MAX at hlt
      unfold UNTAGGED_BITMAP SID
      omega

/-- **The parser stays in its bitmaps** exactly when no attribute asks for a VLAN from 4096 on; and it leaves the rest of
the structure as it is exactly when, besides, the last `pvid` named is the one that was there. -/
theorem stays_iff (buf : Mem) (afSpec : ℕ) (bv : VlanInfo) :
    ((∃ r, Parsed buf afSpec bv r ∧ InBitmaps bv r) ↔ AllFit 0 (infos buf (nestedAttrs buf afSpec))) ∧
      ((∃ r, Parsed buf afSpec bv r ∧ InBitmaps bv r ∧ r.info.pvid = bv.pvid) ↔
        AllFit 0 (infos buf (nestedAttrs buf afSpec)) ∧ pvidOf bv.pvid (infos buf (nestedAttrs buf afSpec)) = bv.pvid) := by
  have hends := (parsed_iff buf afSpec bv _).2 rfl
  obtain ⟨hiff, hpvid⟩ := inBitmaps_iff hends
  constructor
  · constructor
    · rintro ⟨r, hr, hin⟩
      exact (inBitmaps_iff hr).1.1 hin
    · intro hfit
      exact ⟨_, hends, hiff.2 hfit⟩
  · constructor
    · rintro ⟨r, hr, hin, hsame⟩
      exact ⟨(inBitmaps_iff hr).1.1 hin, (inBitmaps_iff hr).2 ▸ hsame⟩
    · rintro ⟨hfit, hsame⟩
      exact ⟨_, hends, hiff.2 hfit, hpvid.trans hsame⟩

end

/-- an `IFLA_AF_SPEC` with VLAN 8192 -/
def farVlan : Mem := fun i => [12, 0, 26, 0, 8, 0, 2, 0, 0, 0, 0, 32].getD i 0

/-- **It sets a bit in the table of instances.** -/
theorem far_vlan_leaves : ¬ ∃ r, @Parsed ⟨false⟩ farVlan 0 ⟨0, fun _ => 0⟩ r ∧ InBitmaps ⟨0, fun _ => 0⟩ r := by
  let _ : HostOrder := ⟨false⟩
  rintro ⟨r, hr, hin⟩
  have hfit := (inBitmaps_iff hr).1.1 hin
  have hinfos : infos farVlan (nestedAttrs farVlan 0) = [(0, 8192)] := by decide
  rw [hinfos] at hfit
  rcases hfit.1 with hbegin | hend | hlt
  · exact absurd hbegin (by decide)
  · exact absurd hend.1 (by decide)
  · exact absurd hlt (by decide)

/-! ## The bitmaps as sets -/

/-- the structure, as bitmaps that have nothing behind them -/
def view (bv : VlanInfo) : RtnlLinkBridgeVlan where
  pvid := bv.pvid
  vlanBitmap i := if i < 128 then bv.words (VLAN_BITMAP + i) else 0
  untaggedBitmap i := if i < 128 then bv.words (UNTAGGED_BITMAP + i) else 0
  sid i := (bv.words (SID + i)).toNat

theorem vlanFieldSet_apply (w : Words) (f vid i : ℕ) :
    vlanFieldSet w f vid i = if i = f + vid / 32 then w i ||| wordMask vid else w i := by
  by_cases hi : i = f + vid / 32
  · rw [if_pos hi, hi]
    exact Function.update_self ..
  · rw [if_neg hi]
    exact Function.update_of_ne hi ..

/-- a bitmap of 128 words, and a bit of it that is set -/
theorem bitmap_set (w : Words) (f : ℕ) {vid : ℕ} (hvid : vid < BITMAP_MAX) :
    (fun i => if i < 128 then vlanFieldSet w f vid (f + i) else 0) = set (fun i => if i < 128 then w (f + i) else 0) vid := by
  have hword : vid / 32 < 128 := Nat.div_lt_of_lt_mul hvid
  funext i
  by_cases hi : i = vid / 32
  · rw [hi, Bitmap.set, Function.update_self, if_pos hword, if_pos hword, vlanFieldSet_apply, if_pos rfl]
  · rw [Bitmap.set, Function.update_of_ne hi]
    exact if_congr Iff.rfl (by rw [vlanFieldSet_apply, if_neg (by omega)]) rfl

/-- a bit of one array is none of another -/
theorem field_other (w : Words) {f g vid i : ℕ} (hvid : vid < BITMAP_MAX) (h : f + 128 ≤ g ∨ g + 128 ≤ f ∧ i < 128) :
    vlanFieldSet w f vid (g + i) = w (g + i) := by
  have hword : vid / 32 < 128 := Nat.div_lt_of_lt_mul hvid
  rw [vlanFieldSet_apply, if_neg (by omega)]

theorem view_fieldSet_vlan (s : Parse) {vid : ℕ} (hvid : vid < BITMAP_MAX) :
    view (s.fieldSet VLAN_BITMAP vid).info =
      { view s.info with vlanBitmap := set (view s.info).vlanBitmap vid } := by
  have huntagged : ∀ i, vlanFieldSet s.info.words VLAN_BITMAP vid (UNTAGGED_BITMAP + i) = s.info.words (UNTAGGED_BITMAP + i) :=
    fun i => field_other _ hvid (Or.inl (by decide))
  have hsid : ∀ i, vlanFieldSet s.info.words VLAN_BITMAP vid (SID + i) = s.info.words (SID + i) :=
    fun i => field_other _ hvid (Or.inl (by decide))
  simp only [view, Parse.fieldSet, bitmap_set _ VLAN_BITMAP hvid, huntagged, hsid]

theorem view_fieldSet_untagged (s : Parse) {vid : ℕ} (hvid : vid < BITMAP_MAX) :
    view (s.fieldSet UNTAGGED_BITMAP vid).info =
      { view s.info with untaggedBitmap := set (view s.info).untaggedBitmap vid } := by
  have hvlan : ∀ i, (if i < 128 then vlanFieldSet s.info.words UNTAGGED_BITMAP vid (VLAN_BITMAP + i) else 0) =
      if i < 128 then s.info.words (VLAN_BITMAP + i) else 0 := by
    intro i
    split_ifs with hi
    · exact field_other _ hvid (Or.inr ⟨by decide, hi⟩)
    · rfl
  have hsid : ∀ i, vlanFieldSet s.info.words UNTAGGED_BITMAP vid (SID + i) = s.info.words (SID + i) :=
    fun i => field_other _ hvid (Or.inl (by decide))
  simp only [view, Parse.fieldSet, bitmap_set _ UNTAGGED_BITMAP hvid, hvlan, hsid]

theorem view_parseVlan (s : Parse) {vid : ℕ} (flags : ℕ) (hvid : vid < BITMAP_MAX) :
    view (parseVlan s vid flags).info = BridgeVlan.parseVlan (view s.info) vid flags := by
  simp only [parseVlan, BridgeVlan.parseVlan]
  split_ifs
  · rw [view_fieldSet_untagged _ hvid, view_fieldSet_vlan s hvid]
  · exact view_fieldSet_vlan s hvid

theorem view_parseAll {vs : List (ℕ × ℕ)} (s : Parse) (hvs : ∀ v ∈ vs, v.1 < BITMAP_MAX) :
    view (parseAll s vs).info = vs.foldl (fun bv x => BridgeVlan.parseVlan bv x.1 x.2) (view s.info) := by
  induction vs generalizing s with
  | nil => rfl
  | cons v vs ih =>
    rw [List.foldl_cons, ← view_parseVlan s v.2 (hvs v List.mem_cons_self)]
    exact ih _ fun u hu => hvs u (List.mem_cons_of_mem v hu)

/-- a state, as the parser of bitmaps without an end has it -/
def viewParse (s : Parse) : RtnlLinkBridgeVlan × ℕ := (view s.info, s.rangeStart)

theorem view_takeInfo (s : Parse) {flags vid : ℕ} (hfit : Fits s.rangeStart flags vid) :
    viewParse (takeInfo s flags vid) = BridgeVlan.takeInfo (viewParse s) flags vid := by
  have hpvid : view (noteInfo s flags vid).info =
      if flags &&& BRIDGE_VLAN_INFO_PVID ≠ 0 then { view s.info with pvid := vid } else view s.info := by
    unfold noteInfo
    by_cases hp : flags &&& BRIDGE_VLAN_INFO_PVID ≠ 0
    · rw [if_pos hp, if_pos hp]
      rfl
    · rw [if_neg hp, if_neg hp]
  have hall : ∀ v ∈ (vlansOf s.rangeStart flags vid).map fun v => (v, flags), v.1 < BITMAP_MAX :=
    List.forall_mem_map.2 ((fits_iff _ _ _).1 hfit)
  rw [takeInfo_eq, viewParse, (parseAll_rest _ _).2, view_parseAll _ hall, hpvid]
  simp only [noteInfo, vlansOf, BridgeVlan.takeInfo, viewParse]
  by_cases hbegin : flags &&& BRIDGE_VLAN_INFO_RANGE_BEGIN ≠ 0
  · rw [if_pos hbegin, if_pos hbegin, if_pos hbegin]
    rfl
  · rw [if_neg hbegin, if_neg hbegin, if_neg hbegin]
    by_cases hend : flags &&& BRIDGE_VLAN_INFO_RANGE_END ≠ 0
    · rw [if_pos hend, if_pos hend, List.foldl_map]
    · rw [if_neg hend, if_neg hend]
      rfl

section
variable [HostOrder]

/-- the two loops side by side -/
theorem view_foldlM (buf : Mem) (attrs : List ℕ) (s : Parse) (hfit : AllFit s.rangeStart (infos buf attrs)) :
    attrs.foldlM (BridgeVlan.parseVlansBody buf) (viewParse s) =
      match attrs.foldlM (parseVlansBody buf) s with
      | .error e => .error (e.1, view e.2.info)
      | .ok s => .ok (viewParse s) := by
  induction attrs generalizing s with
  | nil => rfl
  | cons attr attrs ih =>
    rw [List.foldlM_cons, List.foldlM_cons]
    rw [infos] at hfit
    simp only [parseVlansBody, BridgeVlan.parseVlansBody]
    split_ifs at hfit ⊢
    · exact ih s hfit
    · rfl
    · have hstep := view_takeInfo s hfit.1
      have hrest := ih (takeInfo s (getU16 buf (nlaData attr)) (getU16 buf (nlaData attr + 2))) (by
        rw [takeInfo_eq, (parseAll_rest _ _).2]
        exact hfit.2)
      rw [hstep] at hrest
      exact hrest

/-- **In its bounds**, the parser is the parser of bitmaps without an end. -/
theorem parseVlans_view {buf : Mem} {afSpec n : ℕ} (hn : (nlaLen buf afSpec).toNat < n)
    (hfit : AllFit 0 (infos buf (nestedAttrs buf afSpec))) (bv : VlanInfo) :
    BridgeVlan.parseVlans n buf afSpec (view bv) = (parseVlans n buf afSpec bv).map fun r => (r.1, view r.2.info) := by
  have hvisits := nested_visits_of_lt buf afSpec hn
  have hfold : (nestedAttrs buf afSpec).foldlM (BridgeVlan.parseVlansBody buf) (view bv, 0) = _ :=
    view_foldlM buf (nestedAttrs buf afSpec) ⟨bv, 0, []⟩ hfit
  rw [BridgeVlan.parseVlans, nlaForEachAttr, parseVlans, nlaForEachAttr, forEach_eq_foldlM _ _ _ n _ _ _ _ hvisits,
    forEach_eq_foldlM _ _ _ n _ _ _ _ hvisits, Option.map_some, Option.map_some, Option.map_some]
  rw [hfold]
  cases (nestedAttrs buf afSpec).foldlM (parseVlansBody buf) ⟨bv, 0, []⟩ with
  | error e => rfl
  | ok s => rfl

end

/-! ## The flush before it -/

/-- **The flush** leaves the instances of the VLANs from 896 on alone, and clears the others. -/
theorem flush_sid (bv : VlanInfo) (vid : ℕ) :
    (view (rtnlLinkBridgeVlanFlush bv)).sid vid = if vid < 896 then 0 else (view bv).sid vid := by
  -- the words from 128 to 1151 are cleared the second time
  have hwords : BITMAP_MAX / 4 = 1024 := rfl
  have hsid : SID = 256 := rfl
  have huntagged : UNTAGGED_BITMAP = 128 := rfl
  have hvlan : VLAN_BITMAP = 0 := rfl
  simp only [view, rtnlLinkBridgeVlanFlush, vlanFieldFlush]
  by_cases hvid : vid < 896
  · rw [if_pos hvid, if_pos (by omega)]
    rfl
  · rw [if_neg hvid, if_neg (by omega), if_neg (by omega)]

end Libnl.BridgeVlanBounds
