/-
VLANs of a bridge port, as attributes (`__fill_vlans` and `__parse_vlans` of `lib/route/link/bridge.c`).

A port has a set of VLANs, those of them that leave the port untagged, and perhaps one for what comes in untagged (`pvid`).
The encoder goes through the VLANs in order and joins neighbours that are alike: a run of three or more becomes an attribute
for its first VLAN and one for its last, the `pvid` stands alone. The decoder fills in the range between the two.

`itemsFrom` lists what is written from a given VLAN on. The invariant of the decoder (`UpTo`): after the items of all VLANs
below `k`, it has the VLANs below `k`.

- `fillVlansFrom_room`: with room in the message the encoder writes the items, and succeeds.
- `upTo_items`: the decoder makes the VLANs of the items.
- `vlans_round_trip`: what was written into a nest reads back as the same VLANs.
-/
import Mathlib.Tactic
import Libnl.Core.Bitmap
import Libnl.Message.AttrStream

namespace Libnl.BridgeVlan

open Bytes Bitmap Msg Attr AttrTree AttrStream

/-! ## Data -/

/-- `RTNL_LINK_BRIDGE_VLAN_BITMAP_MAX` -/
def BITMAP_MAX : ℕ := 4096

def BRIDGE_VLAN_INFO_PVID : ℕ := 2
def BRIDGE_VLAN_INFO_UNTAGGED : ℕ := 4
def BRIDGE_VLAN_INFO_RANGE_BEGIN : ℕ := 8
def BRIDGE_VLAN_INFO_RANGE_END : ℕ := 16

def IFLA_BRIDGE_VLAN_INFO : ℕ := 2
def IFLA_BRIDGE_VLAN_STP_INFO : ℕ := 4

def EINVAL : ℤ := 22

structure RtnlLinkBridgeVlan where
  pvid : ℕ
  vlanBitmap : Words
  untaggedBitmap : Words
  sid : ℕ → ℕ

variable [HostOrder]

/-! ## Encoding -/

/-- the flags of an attribute for `vid` -/
def infoFlags (bv : RtnlLinkBridgeVlan) (vid flags : ℕ) : ℕ :=
  let flags := if vid = bv.pvid then flags ||| BRIDGE_VLAN_INFO_PVID else flags
  if has bv.untaggedBitmap vid then flags ||| BRIDGE_VLAN_INFO_UNTAGGED else flags

/-- `__fill_vlan`; whether the instance of the VLAN was written is not looked at -/
def fillVlan (bv : RtnlLinkBridgeVlan) (msg : NlMsg) (vid flags : ℕ) : NlMsg × ℤ :=
  let flags := infoFlags bv vid flags
  let msg := if bv.sid vid ≠ 0 then (nlaPut msg IFLA_BRIDGE_VLAN_STP_INFO 2 (u16Bytes (bv.sid vid))).1 else msg
  nlaPut msg IFLA_BRIDGE_VLAN_INFO 4 (u16Bytes flags ++ u16Bytes vid)

section

variable (bv : RtnlLinkBridgeVlan)

omit [HostOrder] in
/-- the inner loop of `__fill_vlans`; there are `left` numbers from `close` up to the maximum -/
def closeFrom (untagged : Bool) : ℕ → ℕ → ℕ
  | 0, close => close
  | left + 1, close =>
    if close ≠ bv.pvid ∧ has bv.vlanBitmap close = true ∧ has bv.untaggedBitmap close = untagged then
      closeFrom untagged left (close + 1)
    else close

omit [HostOrder] in
/-- where the run that starts at `start` ends; the `pvid` is a run of its own -/
def closeOf (start : ℕ) : ℕ :=
  if start = bv.pvid then start + 1
  else closeFrom bv (has bv.untaggedBitmap start) (BITMAP_MAX - (start + 1)) (start + 1)

/-- the outer loop of `__fill_vlans`, from `start` on, with `left` rounds left -/
def fillVlansFrom : ℕ → ℕ → NlMsg → NlMsg × ℤ
  | 0, _, msg => (msg, 0)
  | left + 1, start, msg =>
    if start < BITMAP_MAX then
      if has bv.vlanBitmap start then
        let close := closeOf bv start
        let r := if close - start > 1 then
            fillVlan bv msg start (if close - start > 2 then BRIDGE_VLAN_INFO_RANGE_BEGIN else 0)
          else (msg, 0)
        if r.2 ≠ 0 then r
        else
          let r := fillVlan bv r.1 (close - 1) (if close - start > 2 then BRIDGE_VLAN_INFO_RANGE_END else 0)
          if r.2 ≠ 0 then r else fillVlansFrom left close r.1
      else fillVlansFrom left (start + 1) msg
    else (msg, 0)

/-- `__fill_vlans` -/
def fillVlans (msg : NlMsg) : NlMsg × ℤ := fillVlansFrom bv BITMAP_MAX 0 msg

end

/-! ## Decoding -/

omit [HostOrder] in
/-- `__parse_vlan` -/
def parseVlan (bv : RtnlLinkBridgeVlan) (vid flags : ℕ) : RtnlLinkBridgeVlan :=
  let bv := { bv with vlanBitmap := set bv.vlanBitmap vid }
  if flags &&& BRIDGE_VLAN_INFO_UNTAGGED ≠ 0 then { bv with untaggedBitmap := set bv.untaggedBitmap vid } else bv

omit [HostOrder] in
/-- what the decoder does with an attribute for `vid`; the second component is `range_start` -/
def takeInfo (s : RtnlLinkBridgeVlan × ℕ) (flags vid : ℕ) : RtnlLinkBridgeVlan × ℕ :=
  let bv := if flags &&& BRIDGE_VLAN_INFO_PVID ≠ 0 then { s.1 with pvid := vid } else s.1
  if flags &&& BRIDGE_VLAN_INFO_RANGE_BEGIN ≠ 0 then (bv, vid)
  else if flags &&& BRIDGE_VLAN_INFO_RANGE_END ≠ 0 then
    ((List.range' s.2 (vid + 1 - s.2)).foldl (fun bv i => parseVlan bv i flags) bv, s.2)
  else (parseVlan bv vid flags, s.2)

/-- the loop body of `__parse_vlans` -/
def parseVlansBody (buf : Mem) (s : RtnlLinkBridgeVlan × ℕ) (attr : ℕ) :
    Except (ℤ × RtnlLinkBridgeVlan) (RtnlLinkBridgeVlan × ℕ) :=
  if nlaType buf attr ≠ IFLA_BRIDGE_VLAN_INFO then .ok s
  else if nlaLen buf attr ≠ 4 then .error (-EINVAL, s.1)
  else .ok (takeInfo s (getU16 buf (nlaData attr)) (getU16 buf (nlaData attr + 2)))

/-- `__parse_vlans`, if the loop ends within `n` iterations -/
def parseVlans (n : ℕ) (buf : Mem) (afSpec : ℕ) (bv : RtnlLinkBridgeVlan) : Option (ℤ × RtnlLinkBridgeVlan) :=
  (nlaForEachAttr buf (parseVlansBody buf) n (bv, 0) (nlaData afSpec) (nlaLen buf afSpec)).map fun
    | .error e => e
    | .ok s => (0, s.1)

/-! ## Items -/

/-- what stands for an attribute: the instance of a VLAN, or a VLAN with flags -/
inductive Item where
  | sid (v : ℕ)
  | info (flags vid : ℕ)
deriving DecidableEq, Repr

def Item.leaf : Item → Leaf
  | .sid v => ⟨IFLA_BRIDGE_VLAN_STP_INFO, u16Bytes v⟩
  | .info flags vid => ⟨IFLA_BRIDGE_VLAN_INFO, u16Bytes flags ++ u16Bytes vid⟩

theorem Item.leaf_wf (x : Item) : x.leaf.WF := by
  cases x with
  | sid v => exact ⟨by simp [Item.leaf, IFLA_BRIDGE_VLAN_STP_INFO], by simp [Item.leaf]⟩
  | info flags vid => exact ⟨by simp [Item.leaf, IFLA_BRIDGE_VLAN_INFO], by simp [Item.leaf]⟩

def image (xs : List Item) : List UInt8 := encLeaves (xs.map Item.leaf)

theorem image_append (as bs : List Item) : image (as ++ bs) = image as ++ image bs := by
  rw [image, List.map_append, encLeaves_append]
  rfl

omit [HostOrder] in
/-- what `__fill_vlan` writes -/
def vlanItems (bv : RtnlLinkBridgeVlan) (vid flags : ℕ) : List Item :=
  (if bv.sid vid ≠ 0 then [.sid (bv.sid vid)] else []) ++ [.info (infoFlags bv vid flags) vid]

omit [HostOrder] in
/-- what is written for a run -/
def runItems (bv : RtnlLinkBridgeVlan) (start close : ℕ) : List Item :=
  (if close - start > 1 then vlanItems bv start (if close - start > 2 then BRIDGE_VLAN_INFO_RANGE_BEGIN else 0) else []) ++
    vlanItems bv (close - 1) (if close - start > 2 then BRIDGE_VLAN_INFO_RANGE_END else 0)

omit [HostOrder] in
/-- what is written from `start` on -/
def itemsFrom (bv : RtnlLinkBridgeVlan) : ℕ → ℕ → List Item
  | 0, _ => []
  | left + 1, start =>
    if start < BITMAP_MAX then
      if has bv.vlanBitmap start then runItems bv start (closeOf bv start) ++ itemsFrom bv left (closeOf bv start)
      else itemsFrom bv left (start + 1)
    else []

/-- one attribute -/
theorem put_item {m : NlMsg} (hm : Tidy m) (x : Item) (hroom : Room m (image [x]).length) :
    ∃ m', nlaPut m x.leaf.type x.leaf.payload.length x.leaf.payload = (m', 0) ∧ Wrote m m' (image [x]) :=
  put_leaf hm x.leaf_wf hroom

theorem fillVlan_room {m : NlMsg} (hm : Tidy m) (bv : RtnlLinkBridgeVlan) (vid flags : ℕ)
    (hroom : Room m (image (vlanItems bv vid flags)).length) :
    ∃ m', fillVlan bv m vid flags = (m', 0) ∧ Wrote m m' (image (vlanItems bv vid flags)) := by
  have hinfo : ∀ {m1 : NlMsg}, Tidy m1 → Room m1 (image [Item.info (infoFlags bv vid flags) vid]).length →
      ∃ m', nlaPut m1 IFLA_BRIDGE_VLAN_INFO 4 (u16Bytes (infoFlags bv vid flags) ++ u16Bytes vid) = (m', 0) ∧
        Wrote m1 m' (image [Item.info (infoFlags bv vid flags) vid]) := by
    intro m1 hm1 hroom1
    have hput := put_item hm1 (.info (infoFlags bv vid flags) vid) hroom1
    simpa [Item.leaf] using hput
  simp only [fillVlan, vlanItems] at hroom ⊢
  by_cases hsid : bv.sid vid ≠ 0
  · rw [if_pos hsid] at hroom ⊢
    rw [image_append, List.length_append] at hroom
    obtain ⟨m1, hput, hw⟩ := put_item hm (.sid (bv.sid vid)) (room_mono hroom (Nat.le_add_right _ _))
    have hput' : nlaPut m IFLA_BRIDGE_VLAN_STP_INFO 2 (u16Bytes (bv.sid vid)) = (m1, 0) := by
      simpa [Item.leaf] using hput
    obtain ⟨m2, hput2, hw2⟩ := hinfo hw.tidy (room_after hw hroom)
    rw [if_pos hsid, hput', image_append]
    exact ⟨m2, hput2, hw.append hw2⟩
  · rw [if_neg hsid] at hroom ⊢
    rw [if_neg hsid]
    exact hinfo hm hroom

/-- **Encoding with room** writes the items. -/
theorem fillVlansFrom_room (bv : RtnlLinkBridgeVlan) (left start : ℕ) {m : NlMsg} (hm : Tidy m)
    (hroom : Room m (image (itemsFrom bv left start)).length) :
    ∃ m', fillVlansFrom bv left start m = (m', 0) ∧ Wrote m m' (image (itemsFrom bv left start)) := by
  induction left generalizing start m with
  | zero => exact ⟨m, rfl, Wrote.nil hm⟩
  | succ left ih =>
    simp only [fillVlansFrom, itemsFrom] at hroom ⊢
    by_cases hmax : start < BITMAP_MAX
    · rw [if_pos hmax] at hroom ⊢
      rw [if_pos hmax]
      by_cases hin : has bv.vlanBitmap start = true
      · rw [if_pos hin] at hroom ⊢
        rw [if_pos hin]
        generalize closeOf bv start = close at hroom ⊢
        rw [runItems, image_append, image_append, List.length_append, List.length_append, Nat.add_assoc] at hroom
        -- the first of the run, if it is not the last
        obtain ⟨m1, hfirst, hw1⟩ : ∃ m1, (if close - start > 1 then
              fillVlan bv m start (if close - start > 2 then BRIDGE_VLAN_INFO_RANGE_BEGIN else 0) else (m, 0)) = (m1, 0) ∧
            Wrote m m1 (image (if close - start > 1 then
              vlanItems bv start (if close - start > 2 then BRIDGE_VLAN_INFO_RANGE_BEGIN else 0) else [])) := by
          by_cases hlong : close - start > 1
          · rw [if_pos hlong, if_pos hlong]
            rw [if_pos hlong] at hroom
            exact fillVlan_room hm bv start _ (room_mono hroom (Nat.le_add_right _ _))
          · rw [if_neg hlong, if_neg hlong]
            exact ⟨m, rfl, Wrote.nil hm⟩
        have hroom1 := room_after hw1 hroom
        obtain ⟨m2, hlast, hw2⟩ := fillVlan_room hw1.tidy bv (close - 1)
          (if close - start > 2 then BRIDGE_VLAN_INFO_RANGE_END else 0) (room_mono hroom1 (Nat.le_add_right _ _))
        obtain ⟨m3, hrest, hw3⟩ := ih close hw2.tidy (room_after hw2 hroom1)
        refine ⟨m3, ?_, ?_⟩
        · simp only [hfirst, hlast, ne_eq, not_true_eq_false, if_false]
          exact hrest
        · rw [runItems, image_append, image_append]
          exact (hw1.append hw2).append hw3
      · rw [if_neg hin] at hroom ⊢
        rw [if_neg hin]
        exact ih (start + 1) hm hroom
    · rw [if_neg hmax, if_neg hmax]
      exact ⟨m, rfl, Wrote.nil hm⟩

/-! ## Runs -/

section

omit [HostOrder]

variable {bv : RtnlLinkBridgeVlan}

variable (bv) in
theorem closeFrom_spec (untagged : Bool) (left close : ℕ) : close ≤ closeFrom bv untagged left close ∧
    ∀ vid, close ≤ vid → vid < closeFrom bv untagged left close →
      vid ≠ bv.pvid ∧ has bv.vlanBitmap vid = true ∧ has bv.untaggedBitmap vid = untagged := by
  induction left generalizing close with
  | zero => exact ⟨le_rfl, fun vid hle hlt => absurd hlt (not_lt.2 hle)⟩
  | succ left ih =>
    rw [closeFrom]
    by_cases hmore : close ≠ bv.pvid ∧ has bv.vlanBitmap close = true ∧ has bv.untaggedBitmap close = untagged
    · obtain ⟨hle, hall⟩ := ih (close + 1)
      rw [if_pos hmore]
      refine ⟨(Nat.le_succ close).trans hle, ?_⟩
      intro vid hvid hlt
      rcases Nat.eq_or_lt_of_le hvid with rfl | hnext
      · exact hmore
      · exact hall vid hnext hlt
    · rw [if_neg hmore]
      exact ⟨le_rfl, fun vid hle hlt => absurd hlt (not_lt.2 hle)⟩

/-- a run: VLANs that are alike, and none of them the `pvid` unless it is alone -/
structure Run (bv : RtnlLinkBridgeVlan) (start close : ℕ) : Prop where
  lt : start < close
  vlan : ∀ vid, start ≤ vid → vid < close → has bv.vlanBitmap vid = true
  untagged : ∀ vid, start ≤ vid → vid < close → has bv.untaggedBitmap vid = has bv.untaggedBitmap start
  pvid : close - start > 1 → ∀ vid, start ≤ vid → vid < close → vid ≠ bv.pvid

theorem run_closeOf {start : ℕ} (hin : has bv.vlanBitmap start = true) : Run bv start (closeOf bv start) := by
  by_cases hpvid : start = bv.pvid
  · have hclose : closeOf bv start = start + 1 := if_pos hpvid
    have hone : ∀ {vid}, start ≤ vid → vid < start + 1 → vid = start := fun hle hlt => by omega
    rw [hclose]
    refine ⟨Nat.lt_succ_self start, ?_, ?_, fun hlong => absurd hlong (by omega)⟩
    · intro vid hle hlt
      rw [hone hle hlt]
      exact hin
    · intro vid hle hlt
      rw [hone hle hlt]
  · have hclose : closeOf bv start = closeFrom bv (has bv.untaggedBitmap start) (BITMAP_MAX - (start + 1)) (start + 1) :=
      if_neg hpvid
    obtain ⟨hle, hall⟩ := closeFrom_spec bv (has bv.untaggedBitmap start) (BITMAP_MAX - (start + 1)) (start + 1)
    rw [← hclose] at hle hall
    refine ⟨hle, ?_, ?_, fun _ => ?_⟩
    · intro vid hvid hlt
      rcases Nat.eq_or_lt_of_le hvid with rfl | hnext
      · exact hin
      · exact (hall vid hnext hlt).2.1
    · intro vid hvid hlt
      rcases Nat.eq_or_lt_of_le hvid with rfl | hnext
      · rfl
      · exact (hall vid hnext hlt).2.2
    · intro vid hvid hlt
      rcases Nat.eq_or_lt_of_le hvid with rfl | hnext
      · exact hpvid
      · exact (hall vid hnext hlt).1

/-! ## Flags -/

/-- what the encoder asks for in an attribute -/
def Kind (flags : ℕ) : Prop := flags = 0 ∨ flags = BRIDGE_VLAN_INFO_RANGE_BEGIN ∨ flags = BRIDGE_VLAN_INFO_RANGE_END

/-- the flags as the decoder finds them -/
theorem infoFlags_spec (bv : RtnlLinkBridgeVlan) (vid : ℕ) {kind : ℕ} (hk : Kind kind) :
    (infoFlags bv vid kind &&& BRIDGE_VLAN_INFO_PVID ≠ 0 ↔ vid = bv.pvid) ∧
    (infoFlags bv vid kind &&& BRIDGE_VLAN_INFO_UNTAGGED ≠ 0 ↔ has bv.untaggedBitmap vid = true) ∧
    (infoFlags bv vid kind &&& BRIDGE_VLAN_INFO_RANGE_BEGIN ≠ 0 ↔ kind = BRIDGE_VLAN_INFO_RANGE_BEGIN) ∧
    (infoFlags bv vid kind &&& BRIDGE_VLAN_INFO_RANGE_END ≠ 0 ↔ kind = BRIDGE_VLAN_INFO_RANGE_END) ∧
    infoFlags bv vid kind < 65536 := by
  simp only [infoFlags]
  by_cases hpvid : vid = bv.pvid
  · cases hunt : has bv.untaggedBitmap vid with
    | true => rcases hk with rfl | rfl | rfl <;> simp [hpvid] <;> decide
    | false => rcases hk with rfl | rfl | rfl <;> simp [hpvid] <;> decide
  · cases hunt : has bv.untaggedBitmap vid with
    | true => rcases hk with rfl | rfl | rfl <;> simp [hpvid] <;> decide
    | false => rcases hk with rfl | rfl | rfl <;> simp [hpvid] <;> decide

/-! ## The decoder -/

/-- the VLANs of `s` are those of `bv` below `k` -/
structure Bits (bv : RtnlLinkBridgeVlan) (k : ℕ) (s : RtnlLinkBridgeVlan) : Prop where
  vlan : ∀ vid, has s.vlanBitmap vid = (has bv.vlanBitmap vid && decide (vid < k))
  untagged : ∀ vid, has s.untaggedBitmap vid = (has bv.untaggedBitmap vid && decide (vid < k))

/-- so is the `pvid` -/
structure UpTo (bv : RtnlLinkBridgeVlan) (k : ℕ) (s : RtnlLinkBridgeVlan) : Prop where
  bits : Bits bv k s
  pvid : s.pvid = if bv.pvid < k then bv.pvid else 0

/-- the VLANs are in range, those that are untagged among them, and the `pvid` if there is one -/
structure Valid (bv : RtnlLinkBridgeVlan) : Prop where
  range : ∀ vid, has bv.vlanBitmap vid = true → 1 ≤ vid ∧ vid ≤ 4094
  untagged : ∀ vid, has bv.untaggedBitmap vid = true → has bv.vlanBitmap vid = true
  pvid : bv.pvid = 0 ∨ has bv.vlanBitmap bv.pvid = true

@[simp] theorem parseVlan_pvid (s : RtnlLinkBridgeVlan) (vid flags : ℕ) : (parseVlan s vid flags).pvid = s.pvid := by
  simp only [parseVlan]
  split_ifs
  · rfl
  · rfl

/-- one more number -/
theorem below_succ (b : Bool) (n k : ℕ) (hk : n = k → b = true) :
    (b && decide (n < k) || decide (n = k)) = (b && decide (n < k + 1)) := by
  by_cases heq : n = k
  · simp [heq, hk heq]
  · have hlt : n < k + 1 ↔ n < k := by omega
    simp [heq, hlt]

theorem below_succ_of_not (b : Bool) (n k : ℕ) (hk : n = k → b = false) :
    (b && decide (n < k)) = (b && decide (n < k + 1)) := by
  by_cases heq : n = k
  · simp [hk heq]
  · have hlt : n < k + 1 ↔ n < k := by omega
    simp [hlt]

/-- one VLAN -/
theorem Bits.parse {vid flags : ℕ} {s : RtnlLinkBridgeVlan} (h : Bits bv vid s) (hin : has bv.vlanBitmap vid = true)
    (hflags : flags &&& BRIDGE_VLAN_INFO_UNTAGGED ≠ 0 ↔ has bv.untaggedBitmap vid = true) :
    Bits bv (vid + 1) (parseVlan s vid flags) := by
  simp only [parseVlan]
  by_cases hunt : flags &&& BRIDGE_VLAN_INFO_UNTAGGED ≠ 0
  · rw [if_pos hunt]
    refine ⟨fun n => ?_, fun n => ?_⟩
    · rw [has_set, h.vlan, below_succ _ n vid fun heq => by rw [heq, hin]]
    · rw [has_set, h.untagged, below_succ _ n vid fun heq => by rw [heq, hflags.1 hunt]]
  · rw [if_neg hunt]
    refine ⟨fun n => ?_, fun n => ?_⟩
    · rw [has_set, h.vlan, below_succ _ n vid fun heq => by rw [heq, hin]]
    · have hnot : has bv.untaggedBitmap vid = false := Bool.eq_false_iff.2 fun hu => hunt (hflags.2 hu)
      rw [h.untagged, below_succ_of_not _ n vid fun heq => by rw [heq, hnot]]

/-- a range of VLANs -/
theorem Bits.parseRange (flags n : ℕ) {start : ℕ} {s : RtnlLinkBridgeVlan} (h : Bits bv start s)
    (hin : ∀ vid, start ≤ vid → vid < start + n → has bv.vlanBitmap vid = true)
    (hflags : ∀ vid, start ≤ vid → vid < start + n →
      (flags &&& BRIDGE_VLAN_INFO_UNTAGGED ≠ 0 ↔ has bv.untaggedBitmap vid = true)) :
    Bits bv (start + n) ((List.range' start n).foldl (fun bv i => parseVlan bv i flags) s) ∧
      ((List.range' start n).foldl (fun bv i => parseVlan bv i flags) s).pvid = s.pvid := by
  induction n generalizing start s with
  | zero => exact ⟨h, rfl⟩
  | succ n ih =>
    have hone := h.parse (hin start le_rfl (by omega)) (hflags start le_rfl (by omega))
    obtain ⟨hbits, hpvid⟩ := ih hone (fun vid hle hlt => hin vid (by omega) (by omega))
      (fun vid hle hlt => hflags vid (by omega) (by omega))
    rw [List.range'_succ, List.foldl_cons]
    refine ⟨?_, hpvid.trans (parseVlan_pvid s start flags)⟩
    rwa [Nat.add_assoc, Nat.add_comm 1 n] at hbits

/-- what the decoder does with an item -/
def Item.take (s : RtnlLinkBridgeVlan × ℕ) : Item → RtnlLinkBridgeVlan × ℕ
  | .sid _ => s
  | .info flags vid => takeInfo s flags vid

theorem take_vlanItems (bv : RtnlLinkBridgeVlan) (vid flags : ℕ) (s : RtnlLinkBridgeVlan × ℕ) :
    (vlanItems bv vid flags).foldl Item.take s = takeInfo s (infoFlags bv vid flags) vid := by
  simp only [vlanItems]
  split_ifs
  · rfl
  · rfl

/-- a VLAN in an attribute of its own -/
theorem UpTo.single {vid : ℕ} {s : RtnlLinkBridgeVlan × ℕ} (h : UpTo bv vid s.1) (hin : has bv.vlanBitmap vid = true) :
    UpTo bv (vid + 1) (takeInfo s (infoFlags bv vid 0) vid).1 := by
  obtain ⟨hpvid, hunt, hbegin, hend, -⟩ := infoFlags_spec bv vid (Or.inl rfl)
  have hnobegin : ¬ infoFlags bv vid 0 &&& BRIDGE_VLAN_INFO_RANGE_BEGIN ≠ 0 := fun hb => absurd (hbegin.1 hb) (by decide)
  have hnoend : ¬ infoFlags bv vid 0 &&& BRIDGE_VLAN_INFO_RANGE_END ≠ 0 := fun he => absurd (hend.1 he) (by decide)
  simp only [takeInfo]
  rw [if_neg hnobegin, if_neg hnoend]
  by_cases heq : vid = bv.pvid
  · have hbits : Bits bv vid { s.1 with pvid := vid } := ⟨h.bits.vlan, h.bits.untagged⟩
    rw [if_pos (hpvid.2 heq)]
    refine ⟨hbits.parse hin hunt, ?_⟩
    rw [parseVlan_pvid, if_pos (by omega), heq]
  · rw [if_neg fun hp => heq (hpvid.1 hp)]
    refine ⟨h.bits.parse hin hunt, ?_⟩
    have hsame : bv.pvid < vid + 1 ↔ bv.pvid < vid := by omega
    rw [parseVlan_pvid, h.pvid]
    simp only [hsame]

/-- **A run** is decoded to its VLANs. -/
theorem UpTo.run {start close : ℕ} {s : RtnlLinkBridgeVlan × ℕ} (h : UpTo bv start s.1) (hrun : Run bv start close) :
    UpTo bv close ((runItems bv start close).foldl Item.take s).1 := by
  have hlt := hrun.lt
  rw [runItems, List.foldl_append]
  by_cases hlong : close - start > 1
  · by_cases hrange : close - start > 2
    · -- first and last of a range
      have hkind : Kind BRIDGE_VLAN_INFO_RANGE_BEGIN := Or.inr (Or.inl rfl)
      obtain ⟨hp1, -, hb1, -, -⟩ := infoFlags_spec bv start hkind
      obtain ⟨hp2, hu2, hb2, he2, -⟩ := infoFlags_spec bv (close - 1) (Or.inr (Or.inr rfl) : Kind BRIDGE_VLAN_INFO_RANGE_END)
      have hfirst : takeInfo s (infoFlags bv start BRIDGE_VLAN_INFO_RANGE_BEGIN) start = (s.1, start) := by
        simp only [takeInfo]
        rw [if_neg fun hp => hrun.pvid hlong start le_rfl hlt (hp1.1 hp), if_pos (hb1.2 rfl)]
      have hnobegin : ¬ infoFlags bv (close - 1) BRIDGE_VLAN_INFO_RANGE_END &&& BRIDGE_VLAN_INFO_RANGE_BEGIN ≠ 0 :=
        fun hb => absurd (hb2.1 hb) (by decide)
      have hlast : takeInfo (s.1, start) (infoFlags bv (close - 1) BRIDGE_VLAN_INFO_RANGE_END) (close - 1) =
          ((List.range' start (close - start)).foldl
            (fun bv' i => parseVlan bv' i (infoFlags bv (close - 1) BRIDGE_VLAN_INFO_RANGE_END)) s.1, start) := by
        have hcount : close - 1 + 1 - start = close - start := by omega
        simp only [takeInfo]
        rw [if_neg fun hp => hrun.pvid hlong (close - 1) (by omega) (by omega) (hp2.1 hp), if_neg hnobegin,
          if_pos (he2.2 rfl), hcount]
      rw [if_pos hlong, if_pos hrange, if_pos hrange, take_vlanItems, take_vlanItems, hfirst, hlast]
      have hadd : start + (close - start) = close := by omega
      obtain ⟨hbits, hpvid⟩ := h.bits.parseRange (infoFlags bv (close - 1) BRIDGE_VLAN_INFO_RANGE_END) (close - start)
        (fun vid hle hvid => hrun.vlan vid hle (by omega)) (fun vid hle hvid => by
          rw [hu2, hrun.untagged vid hle (by omega), hrun.untagged (close - 1) (by omega) (by omega)])
      rw [hadd] at hbits
      refine ⟨hbits, hpvid.trans (h.pvid.trans ?_)⟩
      have hsame : bv.pvid < close ↔ bv.pvid < start := by
        have hnot : ¬ (start ≤ bv.pvid ∧ bv.pvid < close) := fun hp => hrun.pvid hlong bv.pvid hp.1 hp.2 rfl
        omega
      simp only [hsame]
    · -- two in a row
      have htwo : close = start + 1 + 1 := by omega
      subst htwo
      rw [if_pos hlong, if_neg hrange, if_neg hrange, take_vlanItems, take_vlanItems]
      have hone := h.single (hrun.vlan start le_rfl hlt)
      exact hone.single (hrun.vlan (start + 1) (Nat.le_succ start) (Nat.lt_succ_self _))
  · have hone : close = start + 1 := by omega
    subst hone
    have hrange : ¬ start + 1 - start > 2 := by omega
    rw [if_neg hlong, if_neg hrange, take_vlanItems]
    exact h.single (hrun.vlan start le_rfl hlt)

/-- nothing to write at this number -/
theorem UpTo.skip {start : ℕ} {s : RtnlLinkBridgeVlan} (h : UpTo bv start s) (hv : Valid bv)
    (hout : has bv.vlanBitmap start = false) : UpTo bv (start + 1) s := by
  have hunt : has bv.untaggedBitmap start = false := by
    by_contra hu
    rw [Bool.not_eq_false] at hu
    rw [hv.untagged start hu] at hout
    cases hout
  refine ⟨⟨fun n => ?_, fun n => ?_⟩, ?_⟩
  · rw [h.bits.vlan, below_succ_of_not _ n start fun heq => by rw [heq, hout]]
  · rw [h.bits.untagged, below_succ_of_not _ n start fun heq => by rw [heq, hunt]]
  · rw [h.pvid]
    rcases hv.pvid with hzero | hin
    · rw [hzero, ite_self, ite_self]
    · have hne : bv.pvid ≠ start := by
        rintro rfl
        rw [hin] at hout
        cases hout
      have hsame : bv.pvid < start + 1 ↔ bv.pvid < start := by omega
      simp only [hsame]

/-- **The items** are decoded to the VLANs from `start` on. -/
theorem upTo_items (hv : Valid bv) (left : ℕ) {start : ℕ} {s : RtnlLinkBridgeVlan × ℕ} (h : UpTo bv start s.1)
    (hleft : BITMAP_MAX ≤ start + left) :
    ∃ k ≥ BITMAP_MAX, UpTo bv k ((itemsFrom bv left start).foldl Item.take s).1 := by
  induction left generalizing start s with
  | zero => exact ⟨start, hleft, h⟩
  | succ left ih =>
    simp only [itemsFrom]
    by_cases hmax : start < BITMAP_MAX
    · rw [if_pos hmax]
      by_cases hin : has bv.vlanBitmap start = true
      · have hrun := run_closeOf hin
        have hlt := hrun.lt
        rw [if_pos hin, List.foldl_append]
        exact ih (h.run hrun) (by omega)
      · rw [if_neg hin]
        exact ih (h.skip hv (Bool.eq_false_iff.2 hin)) (by omega)
    · rw [if_neg hmax]
      exact ⟨start, not_lt.1 hmax, h⟩

/-- with all VLANs decoded -/
theorem UpTo.all {k : ℕ} {s : RtnlLinkBridgeVlan} (hv : Valid bv) (hk : BITMAP_MAX ≤ k) (h : UpTo bv k s) :
    s.vlanBitmap = bv.vlanBitmap ∧ s.untaggedBitmap = bv.untaggedBitmap ∧ s.pvid = bv.pvid := by
  have hmax : BITMAP_MAX = 4096 := rfl
  have hbelow : ∀ {vid}, has bv.vlanBitmap vid = true → vid < k := by
    intro vid hin
    have hrange := hv.range vid hin
    omega
  refine ⟨words_ext fun n => ?_, words_ext fun n => ?_, ?_⟩
  · rw [h.bits.vlan]
    cases hin : has bv.vlanBitmap n with
    | false => rfl
    | true => rw [Bool.true_and, decide_eq_true (hbelow hin)]
  · rw [h.bits.untagged]
    cases hin : has bv.untaggedBitmap n with
    | false => rfl
    | true => rw [Bool.true_and, decide_eq_true (hbelow (hv.untagged n hin))]
  · rw [h.pvid]
    rcases hv.pvid with hzero | hin
    · rw [hzero, ite_self]
    · rw [if_pos (hbelow hin)]

/-! ## Sizes -/

/-- the fields of an item fit 16 bits -/
def Item.Small : Item → Prop
  | .sid _ => True
  | .info flags vid => flags < 65536 ∧ vid < 65536

theorem vlanItems_small (bv : RtnlLinkBridgeVlan) {vid kind : ℕ} (hvid : vid < 65536) (hk : Kind kind) :
    ∀ x ∈ vlanItems bv vid kind, x.Small := by
  obtain ⟨-, -, -, -, hflags⟩ := infoFlags_spec bv vid hk
  intro x hx
  rcases List.mem_append.1 hx with hsid | hinfo
  · split_ifs at hsid
    · rw [List.mem_singleton.1 hsid]
      trivial
    · exact absurd hsid List.not_mem_nil
  · rw [List.mem_singleton.1 hinfo]
    exact ⟨hflags, hvid⟩

theorem runItems_small (bv : RtnlLinkBridgeVlan) {start close : ℕ} (hlt : start < close) (hclose : close ≤ 65536) :
    ∀ x ∈ runItems bv start close, x.Small := by
  have hfirst : Kind (if close - start > 2 then BRIDGE_VLAN_INFO_RANGE_BEGIN else 0) := by
    split_ifs
    · exact Or.inr (Or.inl rfl)
    · exact Or.inl rfl
  have hlast : Kind (if close - start > 2 then BRIDGE_VLAN_INFO_RANGE_END else 0) := by
    split_ifs
    · exact Or.inr (Or.inr rfl)
    · exact Or.inl rfl
  intro x hx
  rcases List.mem_append.1 hx with hx | hx
  · by_cases hlong : close - start > 1
    · rw [if_pos hlong] at hx
      exact vlanItems_small bv (by omega) hfirst x hx
    · rw [if_neg hlong] at hx
      exact absurd hx List.not_mem_nil
  · exact vlanItems_small bv (by omega) hlast x hx

/-- a run does not go beyond the last VLAN -/
theorem Run.close_le (hv : Valid bv) {start close : ℕ} (hrun : Run bv start close) : close ≤ 4095 := by
  have hlt := hrun.lt
  have hrange := hv.range (close - 1) (hrun.vlan (close - 1) (by omega) (by omega))
  omega

theorem itemsFrom_small (hv : Valid bv) (left start : ℕ) : ∀ x ∈ itemsFrom bv left start, x.Small := by
  induction left generalizing start with
  | zero => exact fun x hx => absurd hx List.not_mem_nil
  | succ left ih =>
    simp only [itemsFrom]
    split_ifs with hmax hin
    · have hrun := run_closeOf hin
      have hclose := hrun.close_le hv
      intro x hx
      rcases List.mem_append.1 hx with hx | hx
      · exact runItems_small bv hrun.lt (by omega) x hx
      · exact ih _ x hx
    · exact ih _
    · exact fun x hx => absurd hx List.not_mem_nil

end

theorem vlanItems_length (bv : RtnlLinkBridgeVlan) (vid flags : ℕ) : (image (vlanItems bv vid flags)).length ≤ 16 := by
  simp only [vlanItems]
  split_ifs
  · simp [image, Item.leaf, align4]
  · simp [image, Item.leaf, align4]

/-- the attributes fit a nest: at most one for each VLAN, with its instance -/
theorem itemsFrom_length {bv : RtnlLinkBridgeVlan} (hv : Valid bv) (left start : ℕ) :
    (image (itemsFrom bv left start)).length ≤ 16 * (4095 - start) := by
  induction left generalizing start with
  | zero => exact Nat.zero_le _
  | succ left ih =>
    simp only [itemsFrom]
    split_ifs with hmax hin
    · have hrun := run_closeOf hin
      have hlt := hrun.lt
      have hclose := hrun.close_le hv
      have hrest := ih (closeOf bv start)
      have hlast := vlanItems_length bv (closeOf bv start - 1)
        (if closeOf bv start - start > 2 then BRIDGE_VLAN_INFO_RANGE_END else 0)
      rw [runItems, image_append, image_append, List.length_append, List.length_append]
      by_cases hlong : closeOf bv start - start > 1
      · have hfirst := vlanItems_length bv start
          (if closeOf bv start - start > 2 then BRIDGE_VLAN_INFO_RANGE_BEGIN else 0)
        rw [if_pos hlong]
        omega
      · rw [if_neg hlong]
        simp only [image, List.map_nil, encLeaves_nil, List.length_nil]
        simp only [image] at hlast hrest
        omega
    · exact (ih (start + 1)).trans (Nat.mul_le_mul_left 16 (by omega))
    · exact Nat.zero_le _

/-! ## Round trip -/

/-- the decoder at an attribute -/
theorem parseVlansBody_item {buf : Mem} (x : Item) (hx : x.Small) (s : RtnlLinkBridgeVlan × ℕ) (pos : ℕ)
    (hat : At buf pos x.leaf) : parseVlansBody buf s pos = .ok (x.take s) := by
  cases x with
  | sid v =>
    have htype : nlaType buf pos ≠ IFLA_BRIDGE_VLAN_INFO := by
      rw [hat.type]
      exact (by decide : IFLA_BRIDGE_VLAN_STP_INFO % 16384 ≠ IFLA_BRIDGE_VLAN_INFO)
    rw [parseVlansBody, if_pos htype]
    rfl
  | info flags vid =>
    have htype : ¬ nlaType buf pos ≠ IFLA_BRIDGE_VLAN_INFO := by
      rw [hat.type]
      exact not_not.2 (by rfl)
    have hlen : ¬ nlaLen buf pos ≠ 4 := by
      rw [hat.len]
      simp [Item.leaf]
    obtain ⟨hflags, hvid⟩ := seg_append.1 hat.data
    rw [u16Bytes_length] at hvid
    rw [parseVlansBody, if_neg htype, if_neg hlen, hflags.getU16, hvid.getU16, Nat.mod_eq_of_lt hx.1,
      Nat.mod_eq_of_lt hx.2]
    rfl

/-- the decoder over the attributes -/
theorem parse_items {bv : RtnlLinkBridgeVlan} (hv : Valid bv) {buf : Mem} {pos t n : ℕ}
    (hat : At buf pos ⟨t, image (itemsFrom bv BITMAP_MAX 0)⟩) (hn : (itemsFrom bv BITMAP_MAX 0).length < n)
    (sid : ℕ → ℕ) :
    ∃ bv', parseVlans n buf pos ⟨0, fun _ => 0, fun _ => 0, sid⟩ = some (0, bv') ∧
      bv'.vlanBitmap = bv.vlanBitmap ∧ bv'.untaggedBitmap = bv.untaggedBitmap ∧ bv'.pvid = bv.pvid := by
  have hlen := itemsFrom_length hv BITMAP_MAX 0
  have hloop := forEach_items (parseVlansBody buf) Item.leaf Item.take
    (fun x hx => parseVlansBody_item x (itemsFrom_small hv BITMAP_MAX 0 x hx)) (fun x _ => x.leaf_wf)
    (⟨0, fun _ => 0, fun _ => 0, sid⟩, 0) hat.data (lt_of_le_of_lt hlen (by decide)) hn
  have hstart : UpTo bv 0 ⟨0, fun _ => 0, fun _ => 0, sid⟩ := by
    refine ⟨⟨fun vid => ?_, fun vid => ?_⟩, rfl⟩
    · rw [has_zero]
      simp
    · rw [has_zero]
      simp
  obtain ⟨k, hk, hall⟩ := upTo_items hv BITMAP_MAX (s := (⟨0, fun _ => 0, fun _ => 0, sid⟩, 0)) hstart (by omega)
  refine ⟨_, ?_, UpTo.all hv hk hall⟩
  rw [parseVlans, hat.len]
  change Option.map _ (nlaForEachAttr buf (parseVlansBody buf) n _ _ (encLeaves _).length) = _
  rw [hloop]
  rfl

/-- **Bridge VLAN round trip.** VLANs are written into a nest, in a message with room for their attributes: every call
succeeds, and `__parse_vlans` on the nest, from a state without VLANs, gives the same VLANs. (Where something was written,
`nla_nest_end` closes the nest like `nla_nest_end_keep_empty`.) -/
theorem vlans_round_trip {bv : RtnlLinkBridgeVlan} (hv : Valid bv) {m : NlMsg} (hm : Tidy m) {t : ℕ} (ht : t < 16384)
    (hroom : Room m (4 + (image (itemsFrom bv BITMAP_MAX 0)).length)) (sid : ℕ → ℕ) :
    ∃ m1 m2 m3, nlaNestStart m t = (m1, some m.nlmsgLen) ∧ fillVlans bv m1 = (m2, 0) ∧
      nlaNestEndKeepEmpty m2 m.nlmsgLen = (m3, 0) ∧
      (m2.nlmsgLen ≠ m1.nlmsgLen → nlaNestEnd m2 m.nlmsgLen = (m3, 0)) ∧
      ∀ n, (itemsFrom bv BITMAP_MAX 0).length < n →
        ∃ bv', parseVlans n m3.buf m.nlmsgLen ⟨0, fun _ => 0, fun _ => 0, sid⟩ = some (0, bv') ∧
          bv'.vlanBitmap = bv.vlanBitmap ∧ bv'.untaggedBitmap = bv.untaggedBitmap ∧ bv'.pvid = bv.pvid := by
  have hlen := itemsFrom_length hv BITMAP_MAX 0
  obtain ⟨m1, hstart, hw1⟩ := nlaNestStart_room hm t (by omega) (room_mono hroom (Nat.le_add_right _ _))
  have hroom1 : Room m1 (image (itemsFrom bv BITMAP_MAX 0)).length :=
    room_after hw1 (by rwa [nlaHeader_length])
  obtain ⟨m2, hfill, hw2⟩ := fillVlansFrom_room bv BITMAP_MAX 0 hw1.tidy hroom1
  obtain ⟨m3, hend, hw3⟩ := nest_leaf hw1 hw2 (by simp only [image] at hlen; omega)
  have hwf : Leaf.WF ⟨32768 + t, image (itemsFrom bv BITMAP_MAX 0)⟩ :=
    ⟨show 32768 + t < 65536 by omega, show 4 + (image (itemsFrom bv BITMAP_MAX 0)).length ≤ 65535 by omega⟩
  have hat : At m3.buf m.nlmsgLen ⟨32768 + t, image (itemsFrom bv BITMAP_MAX 0)⟩ := (at_of_seg hwf hw3.seg).1
  refine ⟨m1, m2, m3, hstart, hfill, hend, fun hne => ?_, fun n hn => parse_items hv hat hn sid⟩
  have hl1 := hw1.len
  have hl2 := hw2.len
  have hlt := hw2.tidy.lt
  rw [nlaHeader_length] at hl1
  rw [nestEnd_eq, hend]
  rw [hw2.tidy.tail, NLA_HDRLEN, toU64]
  omega

omit [HostOrder]

/-- a range of tagged VLANs, an untagged one behind it, and the `pvid` -/
def sampleVlans : RtnlLinkBridgeVlan :=
  ⟨20, set (set (set (set (set (fun _ => 0) 5) 6) 7) 8) 20, set (fun _ => 0) 8, fun _ => 0⟩

theorem sampleVlans_valid : Valid sampleVlans := by
  refine ⟨?_, ?_, Or.inr ?_⟩
  · intro vid hin
    simp only [sampleVlans, has_set, has_zero, Bool.or_eq_true, decide_eq_true_eq, Bool.false_or] at hin
    omega
  · intro vid hin
    simp only [sampleVlans, has_set, has_zero, Bool.or_eq_true, decide_eq_true_eq, Bool.false_or] at hin ⊢
    omega
  · simp only [sampleVlans, has_set, decide_true, Bool.or_true]

/-- the round trip in a message of 70000 bytes -/
theorem vlans_round_trip_sample : ∃ m m3 bv', nlmsgAllocSize 70000 = some m ∧
    @parseVlans ⟨false⟩ 5000 m3 m.nlmsgLen ⟨0, fun _ => 0, fun _ => 0, fun _ => 0⟩ = some (0, bv') ∧
      bv'.vlanBitmap = sampleVlans.vlanBitmap ∧ bv'.untaggedBitmap = sampleVlans.untaggedBitmap ∧
      bv'.pvid = sampleVlans.pvid := by
  let order : HostOrder := ⟨false⟩
  obtain ⟨m, hm⟩ : ∃ m, nlmsgAllocSize 70000 = some m := ⟨_, rfl⟩
  have hfresh := fresh_alloc hm
  have hsize : m.nmSize = 70000 := by
    cases hm
    rfl
  have hlen := itemsFrom_length sampleVlans_valid BITMAP_MAX 0
  have hcount : (itemsFrom sampleVlans BITMAP_MAX 0).length < 5000 := by decide +kernel
  obtain ⟨m1, m2, m3, -, -, -, -, hparse⟩ := vlans_round_trip sampleVlans_valid (tidy_of_fresh hfresh) (t := 1) (by decide)
    ⟨by rw [hfresh.len, hsize]; omega, by rw [hfresh.len]; omega⟩ fun _ => 0
  obtain ⟨bv', heq, hsame⟩ := hparse 5000 hcount
  exact ⟨m, m3.buf, bv', hm, heq, hsame⟩

end Libnl.BridgeVlan
