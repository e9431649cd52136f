/-
VLAN links written into a message, and read again (`lib/route/link/vlan.c`).

The mappings go out in nests of their own inside the nest of the link data. What is longer than an attribute can be is
dropped when its nest is closed, and the writer does not notice: a link with very many egress mappings goes out without them.

- `Built`: what is known of a link that callers made; `callAll_built`: it holds after all calls.
- `vlanPutAttrs_room`: what is in the message afterwards.
- `vlanParse_fields`: what the parser makes of the attributes of a link.
- `vlan_round_trip_iff`: a link comes back iff the nest of its data is not too long.
-/
import Mathlib.Tactic
import Libnl.Message.Fields
import Libnl.Route.ParserReads
import Libnl.Route.Vlan

namespace Libnl.Vlan

open Bytes Walk Msg Attr AttrTree AttrWalk AttrStream Writer Fields
open Arrays
open ParserReads (IFLA_INFO_DATA IFLA_INFO_MAX linkInfoPolicy)

/-! ## Attributes -/

def IFLA_VLAN_ID : ℕ := 1
def IFLA_VLAN_FLAGS : ℕ := 2
def IFLA_VLAN_EGRESS_QOS : ℕ := 3
def IFLA_VLAN_INGRESS_QOS : ℕ := 4
def IFLA_VLAN_PROTOCOL : ℕ := 5
def IFLA_VLAN_MAX : ℕ := 5

/-- `vlan_policy`; `struct ifla_vlan_flags` has eight bytes -/
def vlanPolicy (type : ℕ) : NlaPolicy :=
  if type ∈ [IFLA_VLAN_ID, IFLA_VLAN_PROTOCOL] then ⟨.u16, 0, 0⟩
  else if type = IFLA_VLAN_FLAGS then ⟨.unspec, 8, 0⟩
  else if type ∈ [IFLA_VLAN_INGRESS_QOS, IFLA_VLAN_EGRESS_QOS] then ⟨.nested, 0, 0⟩
  else ⟨.unspec, 0, 0⟩

/-- `sizeof(struct ifla_vlan_qos_mapping)` -/
def IFLA_VLAN_QOS_MAPPING_SIZE : ℕ := 8

section
variable [HostOrder]

/-! ## Parsing -/

/-- `struct ifla_vlan_qos_mapping` in an attribute -/
def qosMapping (buf : Mem) (nla : ℕ) : VlanMap :=
  ⟨BitVec.ofNat 32 (getU32 buf (nlaData nla)), BitVec.ofNat 32 (getU32 buf (nlaData nla + 4))⟩

/-- the attribute is too short for one -/
def shortMapping (buf : Mem) (nla : ℕ) : Prop := toU64 (nlaLen buf nla) < IFLA_VLAN_QOS_MAPPING_SIZE

instance (buf : Mem) (nla : ℕ) : Decidable (shortMapping buf nla) := inferInstanceAs (Decidable (_ < _))

/-- an ingress mapping -/
def ingressBody (buf : Mem) (vi : VlanInfo) (nla : ℕ) : Except (ℤ × VlanInfo) VlanInfo :=
  if shortMapping buf nla then .error (-NLE_INVAL, vi)
  else
    let map := qosMapping buf nla
    if h : VLAN_PRIO_MAX < map.vmFrom.toNat then .error (-NLE_INVAL, vi)
    else .ok (vi.setIngress ⟨map.vmFrom.toNat, Nat.lt_succ_of_le (not_lt.1 h)⟩ map.vmTo)

/-- `IFLA_VLAN_INGRESS_QOS` -/
def parseIngress (buf : Mem) (vi : VlanInfo) (attr : ℕ) : ℤ × VlanInfo :=
  let vi := { vi with viIngressQosMask := 0, viIngressQos := fun _ => 0 }
  match (nlaForEachAttr buf (ingressBody buf) ((nlaLen buf attr).toNat + 1) vi (nlaData attr) (nlaLen buf attr)).getD
    (.ok vi) with
  | .error r => r
  | .ok vi => (0, { vi with viMask := vi.viMask ||| VLAN_HAS_INGRESS_QOS })

/-- the egress mappings are counted first -/
def countBody (buf : Mem) (i nla : ℕ) : Except ℤ ℕ := if shortMapping buf nla then .error (-NLE_INVAL) else .ok (i + 1)

/-- an egress mapping is stored; the loop ends with an error where that is outside the array -/
def egressBody (buf : Mem) (qos : Option ℕ) (s : VlanHeap × ℕ) (nla : ℕ) : Except Unit (VlanHeap × ℕ) :=
  match s.1.write qos s.2 (qosMapping buf nla) with
  | none => .error ()
  | some h => .ok (h, s.2 + 1)

/-- the second loop over `IFLA_VLAN_EGRESS_QOS`, with the array there is by then -/
def fillEgress (buf : Mem) (h : VlanHeap) (vi : VlanInfo) (attr : ℕ) : Option (ℤ × VlanHeap × VlanInfo) :=
  match (nlaForEachAttr buf (egressBody buf vi.viEgressQos) ((nlaLen buf attr).toNat + 1) (h, 0) (nlaData attr)
    (nlaLen buf attr)).getD (.ok (h, 0)) with
  | .error _ => none
  | .ok (h, i) => some (0, h, { vi with viNegress := i, viMask := vi.viMask ||| VLAN_HAS_EGRESS_QOS })

/-- `IFLA_VLAN_EGRESS_QOS`; `none` where it writes outside the array -/
def parseEgress (buf : Mem) (h : VlanHeap) (vi : VlanInfo) (attr : ℕ) : Option (ℤ × VlanHeap × VlanInfo) :=
  match (nlaForEachAttr buf (countBody buf) ((nlaLen buf attr).toNat + 1) 0 (nlaData attr) (nlaLen buf attr)).getD
    (.ok 0) with
  | .error err => some (err, h, vi)
  | .ok i =>
    -- a multiple of 32
    let size := (i + 32) / 32 * 32
    match h.alloc (List.replicate size VlanMap.zero) with
    | (none, h) => some (-NLE_NOMEM, h, { vi with viEgressSize := size, viEgressQos := none })
    | (some p, h) => fillEgress buf h { vi with viEgressSize := size, viEgressQos := some p } attr

/-- an attribute that is not there is passed over -/
def ifThere {α : Type} (tb : Index) (type : ℕ) (vi : α) (f : α → ℕ → α) : α :=
  match tb type with
  | none => vi
  | some attr => f vi attr

/-- `IFLA_VLAN_ID`, `IFLA_VLAN_PROTOCOL`, `IFLA_VLAN_FLAGS`; the mask of the flags is left as it is -/
def parsePlain (buf : Mem) (tb : Index) (vi : VlanInfo) : VlanInfo :=
  let vi := ifThere tb IFLA_VLAN_ID vi fun vi attr =>
    { vi with viVlanId := nlaGetU16 buf attr, viMask := vi.viMask ||| VLAN_HAS_ID }
  let vi := ifThere tb IFLA_VLAN_PROTOCOL vi fun vi attr =>
    { vi with viProtocol := nlaGetU16 buf attr, viMask := vi.viMask ||| VLAN_HAS_PROTOCOL }
  ifThere tb IFLA_VLAN_FLAGS vi fun vi attr =>
    { vi with viFlags := nlaGetU32 buf attr, viMask := vi.viMask ||| VLAN_HAS_FLAGS }

/-- what is done with the table -/
def parseTable (buf : Mem) (tb : Index) (h : VlanHeap) (vi : VlanInfo) : Option (ℤ × VlanHeap × VlanInfo) :=
  let r := ifThere tb IFLA_VLAN_INGRESS_QOS (0, parsePlain buf tb vi) fun r attr => parseIngress buf r.2 attr
  if r.1 < 0 then some (r.1, h, r.2)
  else
    match tb IFLA_VLAN_EGRESS_QOS with
    | none => some (0, h, r.2)
    | some attr => parseEgress buf h r.2 attr

/-- `vlan_parse`; the statistics are not looked at -/
def vlanParse (buf : Mem) (h : VlanHeap) (lInfo : Option VlanInfo) (data : ℕ) :
    Option (ℤ × VlanHeap × Option VlanInfo) :=
  let r := nlaParseNested buf IFLA_VLAN_MAX data (some vlanPolicy)
  if r.1 < 0 then some (r.1, h, lInfo)
  else
    match vlanAlloc h lInfo with
    | .error err => some (err, h.ask.2, lInfo)
    | .ok (h, vi) => (parseTable buf r.2 h vi).map fun s => (s.1, s.2.1, some s.2.2)

/-! ## Writing -/

/-- `struct ifla_vlan_qos_mapping` -/
def mappingBytes (map : VlanMap) : List UInt8 := u32Bytes map.vmFrom.toNat ++ u32Bytes map.vmTo.toNat

/-- the mappings that the mask has, each under its priority -/
def ingressLeaves (vi : VlanInfo) : List Leaf :=
  (List.finRange (VLAN_PRIO_MAX + 1)).filterMap fun i : Fin (VLAN_PRIO_MAX + 1) =>
    if vi.viIngressQosMask.getLsbD i then some ⟨i, mappingBytes ⟨BitVec.ofNat 32 i, vi.viIngressQos i⟩⟩ else none

/-- the mappings under their numbers, of which the header of an attribute has 16 bits -/
def egressLeaves (maps : List VlanMap) : List Leaf := maps.zipIdx.map fun x => ⟨x.2 % 65536, mappingBytes x.1⟩

/-- the entries of the array that are in use -/
def VlanInfo.egress (vi : VlanInfo) (h : VlanHeap) : List VlanMap := (h.entries vi.viEgressQos).take vi.viNegress

def plainFields (vi : VlanInfo) : FieldList :=
  [(IFLA_VLAN_ID, if vi.has VLAN_HAS_ID then some (u16Bytes vi.viVlanId.toNat) else none),
    (IFLA_VLAN_PROTOCOL, if vi.has VLAN_HAS_PROTOCOL then some (u16Bytes vi.viProtocol.toNat) else none),
    (IFLA_VLAN_FLAGS, if vi.has VLAN_HAS_FLAGS then some (u32Bytes vi.viFlags.toNat ++ u32Bytes vi.viFlagsMask.toNat)
      else none)]

/-- a nest of mappings, if there is to be one -/
def putQos (there : Bool) (type : ℕ) (maps : List Leaf) (msg : NlMsg) : NlMsg × ℤ :=
  if there then putNest (-NLE_MSGSIZE) type maps msg else (msg, 0)

/-- what is put between the start and the end of the nest -/
def putData (h : VlanHeap) (vi : VlanInfo) (msg : NlMsg) : NlMsg × ℤ :=
  thenPut (-NLE_MSGSIZE)
    (thenPut (-NLE_MSGSIZE) (putAll (-NLE_MSGSIZE) (leavesOf (plainFields vi)) msg)
      (putQos (vi.has VLAN_HAS_INGRESS_QOS) IFLA_VLAN_INGRESS_QOS (ingressLeaves vi)))
    (putQos (vi.has VLAN_HAS_EGRESS_QOS) IFLA_VLAN_EGRESS_QOS (egressLeaves (vi.egress h)))

/-- `vlan_put_attrs`; the label for failed puts is the end of the function, which returns zero -/
def vlanPutAttrs (msg : NlMsg) (h : VlanHeap) (vi : VlanInfo) : NlMsg × ℤ :=
  inNest (-NLE_MSGSIZE) (nlaNestStart msg IFLA_INFO_DATA) fun msg data =>
    let r := putData h vi msg
    if r.2 < 0 then (r.1, 0) else ((nlaNestEnd r.1 data).1, 0)

/-- the link read from what was put between two states of a message: its type is set, which allocates it, and its data is
parsed if there is any; `none` where it writes outside an array -/
def readVlan (h : VlanHeap) (m m' : NlMsg) : Option (Except ℤ (VlanHeap × VlanInfo)) :=
  match vlanAlloc h none with
  | .error err => some (.error err)
  | .ok (h, vi) =>
    (nlaParse (m'.nlmsgLen - m.nlmsgLen + 1) m'.buf IFLA_INFO_MAX m.nlmsgLen (m'.nlmsgLen - m.nlmsgLen : ℕ)
        (some linkInfoPolicy)).bind fun r =>
      if r.1 < 0 then some (.error r.1)
      else
        match r.2 IFLA_INFO_DATA with
        | none => some (.ok (h, vi))
        | some data =>
          (vlanParse m'.buf h (some vi) data).map fun s =>
            if s.1 < 0 then .error s.1 else .ok (s.2.1, s.2.2.getD vi)

end

/-! ## What a link says -/

/-- the fields of a link whose presence bits are set; of the ingress map, the mappings that are set -/
@[ext]
structure VlanAttrs where
  id : Option (BitVec 16)
  protocol : Option (BitVec 16)
  flags : Option (BitVec 32)
  ingress : Option (Fin (VLAN_PRIO_MAX + 1) → Option (BitVec 32))
  egress : Option (List VlanMap)

/-- the mapping of a priority, if it is set -/
def VlanInfo.mapped (vi : VlanInfo) (i : Fin (VLAN_PRIO_MAX + 1)) : Option (BitVec 32) :=
  if vi.viIngressQosMask.getLsbD i then some (vi.viIngressQos i) else none

def VlanInfo.attrs (vi : VlanInfo) (h : VlanHeap) : VlanAttrs where
  id := if vi.has VLAN_HAS_ID then some vi.viVlanId else none
  protocol := if vi.has VLAN_HAS_PROTOCOL then some vi.viProtocol else none
  flags := if vi.has VLAN_HAS_FLAGS then some vi.viFlags else none
  ingress := if vi.has VLAN_HAS_INGRESS_QOS then some vi.mapped else none
  egress := if vi.has VLAN_HAS_EGRESS_QOS then some (vi.egress h) else none

/-- the bytes of `IFLA_INFO_DATA` -/
def VlanInfo.dataSize (vi : VlanInfo) : ℕ :=
  4 + (if vi.has VLAN_HAS_ID then 8 else 0) + (if vi.has VLAN_HAS_PROTOCOL then 8 else 0) +
    (if vi.has VLAN_HAS_FLAGS then 12 else 0) +
    (if vi.has VLAN_HAS_INGRESS_QOS then
      4 + 12 * (List.finRange (VLAN_PRIO_MAX + 1)).countP (fun i : Fin (VLAN_PRIO_MAX + 1) => vi.viIngressQosMask.getLsbD i)
      else 0) +
    (if vi.has VLAN_HAS_EGRESS_QOS then 4 + 12 * vi.viNegress else 0)

/-- the link is written, and read as it was, unless there is no memory for it -/
def RoundTrips [HostOrder] (h : VlanHeap) (vi : VlanInfo) (m : NlMsg) : Prop :=
  (vlanPutAttrs m h vi).2 = 0 ∧ ∀ h' : VlanHeap, h'.Tidy →
    readVlan h' m (vlanPutAttrs m h vi).1 = some (.error (-NLE_NOMEM)) ∨
      ∃ h'' vi', readVlan h' m (vlanPutAttrs m h vi).1 = some (.ok (h'', vi')) ∧ vi'.attrs h'' = vi.attrs h

/-! ## Links that were built -/

/-- a map that is there has mappings -/
structure Built (h : VlanHeap) (vi : VlanInfo) : Prop extends Source h vi where
  ingress : vi.has VLAN_HAS_INGRESS_QOS = true → vi.viIngressQosMask ≠ 0
  egress : vi.has VLAN_HAS_EGRESS_QOS = true → vi.viNegress ≠ 0

/-- asking for a bit when another was set -/
theorem has_set {m bit bit' : BitVec 32} (hother : bit' &&& bit = 0) :
    decide ((m ||| bit') &&& bit ≠ 0) = decide (m &&& bit ≠ 0) := by
  rw [BitVec.and_or_distrib_right, hother, BitVec.ofNat_eq_ofNat, BitVec.or_zero]

/-- the two maps and their bits are as they were -/
theorem Built.congr {h h' : VlanHeap} {vi vi' : VlanInfo} (hb : Built h vi) (hs : Source h' vi')
    (hin : vi'.has VLAN_HAS_INGRESS_QOS = vi.has VLAN_HAS_INGRESS_QOS)
    (hout : vi'.has VLAN_HAS_EGRESS_QOS = vi.has VLAN_HAS_EGRESS_QOS)
    (hmask : vi'.viIngressQosMask = vi.viIngressQosMask) (hnegress : vi'.viNegress = vi.viNegress) : Built h' vi' where
  toSource := hs
  ingress hhas := by
    rw [hmask]
    exact hb.ingress (hin ▸ hhas)
  egress hhas := by
    rw [hnegress]
    exact hb.egress (hout ▸ hhas)

/-- what adding a mapping does to the link, if anything -/
theorem setEgress_cases {h h' : VlanHeap} {vi vi' : VlanInfo} {from' : BitVec 32} {to' ret : ℤ}
    (hset : rtnlLinkVlanSetEgressMap h vi from' to' = some (h', vi', ret)) :
    vi' = vi ∨ ∃ size qos, vi' = { vi with
      viEgressSize := size
      viEgressQos := qos
      viNegress := vi.viNegress + 1
      viMask := vi.viMask ||| VLAN_HAS_EGRESS_QOS } := by
  have hadd : ∀ {h1 : VlanHeap} {size : ℕ} {qos : Option ℕ} {x : VlanMap},
      addEgress h1 { vi with viEgressSize := size, viEgressQos := qos } x = some (h', vi', ret) →
        ∃ size qos, vi' = { vi with
          viEgressSize := size
          viEgressQos := qos
          viNegress := vi.viNegress + 1
          viMask := vi.viMask ||| VLAN_HAS_EGRESS_QOS } := by
    intro h1 size qos x heq
    obtain ⟨h2, -, heq⟩ := Option.map_eq_some_iff.1 heq
    cases heq
    exact ⟨size, qos, rfl⟩
  rw [rtnlLinkVlanSetEgressMap] at hset
  dsimp only at hset
  split_ifs at hset
  · cases hset
    exact Or.inl rfl
  · cases hset
    exact Or.inl rfl
  · cases hset
    exact Or.inl rfl
  · obtain ⟨r, -, hr⟩ := Option.bind_eq_some_iff.1 hset
    obtain ⟨ptr, h1⟩ := r
    cases ptr with
    | none =>
      cases hr
      exact Or.inl rfl
    | some p => exact Or.inr (hadd hr)
  · exact Or.inr (hadd hset)

theorem Setter.built {h h' : VlanHeap} {vi vi' : VlanInfo} (hb : Built h vi) {c : Setter}
    (hcall : c.call h vi = some (h', vi')) : Built h' vi' := by
  have hs := Setter.source hb.toSource hcall
  cases c with
  | id vlanId =>
    cases hcall
    exact hb.congr hs (has_set rfl) (has_set rfl) rfl rfl
  | protocol proto =>
    cases hcall
    exact hb.congr hs (has_set rfl) (has_set rfl) rfl rfl
  | setFlags flags =>
    cases hcall
    exact hb.congr hs (has_set rfl) (has_set rfl) rfl rfl
  | unsetFlags flags =>
    cases hcall
    exact hb.congr hs (has_set rfl) (has_set rfl) rfl rfl
  | ingress from' to' =>
    cases hcall
    refine ⟨hs, ?_, ?_⟩
    · show (rtnlLinkVlanSetIngressMap vi from' to').1.has VLAN_HAS_INGRESS_QOS = true → _
      rw [rtnlLinkVlanSetIngressMap]
      split_ifs with hprio
      · exact hb.ingress
      · intro _ hzero
        exact Mask.twoPow_ne_zero (Fin.is_lt _) (BitVec.or_eq_zero_iff.1 hzero).2
    · show (rtnlLinkVlanSetIngressMap vi from' to').1.has VLAN_HAS_EGRESS_QOS = true → _
      rw [rtnlLinkVlanSetIngressMap]
      split_ifs with hprio
      · exact hb.egress
      · intro hhas
        exact hb.egress ((has_set rfl).symm.trans hhas)
  | egress from' to' =>
    obtain ⟨r, hset, hr⟩ : ∃ r, rtnlLinkVlanSetEgressMap h vi from' to' = some r ∧ (r.1, r.2.1) = (h', vi') :=
      Option.map_eq_some_iff.1 hcall
    cases hr
    rcases setEgress_cases hset with heq | ⟨size, qos, heq⟩
    · rw [heq] at hs ⊢
      exact hb.congr hs rfl rfl rfl rfl
    · rw [heq] at hs ⊢
      refine ⟨hs, fun hhas => hb.ingress ((has_set rfl).symm.trans hhas), fun _ => Nat.succ_ne_zero _⟩

/-- **Links that callers make** have mappings in the maps that are there. -/
theorem callAll_built {h h' : VlanHeap} {vi vi' : VlanInfo} (hb : Built h vi) {cs : List Setter}
    (hrun : callAll h vi cs = some (h', vi')) : Built h' vi' := by
  induction cs generalizing h vi with
  | nil =>
    obtain ⟨rfl, rfl⟩ := Prod.ext_iff.1 (Option.some.inj hrun)
    exact hb
  | cons c cs ih =>
    obtain ⟨r, hcall, hrest⟩ := Option.bind_eq_some_iff.1 hrun
    exact ih (Setter.built hb hcall) hrest

theorem vlanAlloc_built {h h' : VlanHeap} {vi : VlanInfo} (ht : h.Tidy) (halloc : vlanAlloc h none = .ok (h', vi)) :
    Built h' vi := by
  have hs := vlanAlloc_source ht halloc
  obtain ⟨-, -, hvi, -⟩ := vlanAlloc_spec ht halloc
  have hbits : ∀ bit, vi.has bit = VlanInfo.zero.has bit := fun bit => by
    rw [hvi]
    rfl
  refine ⟨hs, fun hhas => ?_, fun hhas => ?_⟩
  · rw [hbits] at hhas
    exact absurd hhas (by decide)
  · rw [hbits] at hhas
    exact absurd hhas (by decide)

/-- the array has as many entries as are in use -/
theorem Source.egress_length {h : VlanHeap} {vi : VlanInfo} (hs : Source h vi) : (vi.egress h).length = vi.viNegress := by
  rw [VlanInfo.egress]
  cases hqos : vi.viEgressQos with
  | none =>
    rw [hs.null hqos, List.take_zero]
    rfl
  | some p =>
    obtain ⟨xs, hcell, hroom, hsize⟩ := hs.array p hqos
    rw [Heap.entries, show h.block (some p) = some xs from hcell, Option.getD_some, List.length_take,
      min_eq_left (hroom.trans hsize)]

/-! ## What is written -/

section
variable [HostOrder]

/-- the mappings that are set -/
def setPrios (g : Fin (VLAN_PRIO_MAX + 1) → Option (BitVec 32)) : List (Fin (VLAN_PRIO_MAX + 1) × BitVec 32) :=
  (List.finRange (VLAN_PRIO_MAX + 1)).filterMap fun i => (g i).map fun to' => (i, to')

def prioLeaf (x : Fin (VLAN_PRIO_MAX + 1) × BitVec 32) : Leaf := ⟨x.1, mappingBytes ⟨BitVec.ofNat 32 x.1, x.2⟩⟩

/-- the fields in the nest, if the link says this -/
def fieldsOf (a : VlanAttrs) (flagsMask : BitVec 32) : FieldList :=
  [(IFLA_VLAN_ID, a.id.map fun v => u16Bytes v.toNat),
    (IFLA_VLAN_PROTOCOL, a.protocol.map fun v => u16Bytes v.toNat),
    (IFLA_VLAN_FLAGS, a.flags.map fun v => u32Bytes v.toNat ++ u32Bytes flagsMask.toNat),
    (32768 + IFLA_VLAN_INGRESS_QOS, a.ingress.map fun g => encLeaves ((setPrios g).map prioLeaf)),
    (32768 + IFLA_VLAN_EGRESS_QOS, a.egress.map fun maps => encLeaves (egressLeaves maps))]

theorem mappingBytes_length (map : VlanMap) : (mappingBytes map).length = IFLA_VLAN_QOS_MAPPING_SIZE := by
  rw [mappingBytes, List.length_append, u32Bytes_length, u32Bytes_length]
  rfl

omit [HostOrder] in
theorem setPrios_length_le (g : Fin (VLAN_PRIO_MAX + 1) → Option (BitVec 32)) : (setPrios g).length ≤ 8 := by
  refine (List.length_filterMap_le _ _).trans ?_
  rw [List.length_finRange, VLAN_PRIO_MAX]

theorem ingressLeaves_eq (vi : VlanInfo) : ingressLeaves vi = (setPrios vi.mapped).map prioLeaf := by
  rw [ingressLeaves, setPrios, List.map_filterMap]
  refine List.filterMap_congr fun i _ => ?_
  unfold VlanInfo.mapped
  split_ifs
  · rfl
  · rfl

/-- attributes with a mapping each -/
structure Mappings (ls : List Leaf) : Prop where
  type : ∀ l ∈ ls, l.type < 65536
  size : ∀ l ∈ ls, l.payload.length = 8

omit [HostOrder] in
theorem Mappings.wf {ls : List Leaf} (h : Mappings ls) : ∀ l ∈ ls, l.WF := fun l hl =>
  ⟨h.type l hl, by rw [h.size l hl]; decide⟩

theorem Mappings.length {ls : List Leaf} (h : Mappings ls) : (encLeaves ls).length = 12 * ls.length := by
  obtain ⟨-, hsize⟩ := h
  induction ls with
  | nil => rfl
  | cons l ls ih =>
    have hrest := ih fun x hx => hsize x (List.mem_cons_of_mem l hx)
    rw [encLeaves_cons, List.length_append, encLeaf_length, hsize l List.mem_cons_self, hrest, List.length_cons]
    unfold align4
    omega

theorem prios_mappings (xs : List (Fin (VLAN_PRIO_MAX + 1) × BitVec 32)) : Mappings (xs.map prioLeaf) := by
  constructor
  · intro l hl
    obtain ⟨x, -, rfl⟩ := List.mem_map.1 hl
    exact x.1.isLt.trans (by decide)
  · intro l hl
    obtain ⟨x, -, rfl⟩ := List.mem_map.1 hl
    exact mappingBytes_length _

theorem egress_mappings (maps : List VlanMap) : Mappings (egressLeaves maps) := by
  constructor
  · intro l hl
    obtain ⟨x, -, rfl⟩ := List.mem_map.1 hl
    exact Nat.mod_lt _ (by decide)
  · intro l hl
    obtain ⟨x, -, rfl⟩ := List.mem_map.1 hl
    exact mappingBytes_length _

theorem egressLeaves_length (maps : List VlanMap) : (egressLeaves maps).length = maps.length := by
  rw [egressLeaves, List.length_map, List.length_zipIdx]

/-- what one field takes -/
theorem fields_cons_length (t : ℕ) (p : Option (List UInt8)) (fs : FieldList) :
    (encLeaves (leavesOf ((t, p) :: fs))).length =
      (p.elim 0 fun q => align4 (4 + q.length)) + (encLeaves (leavesOf fs)).length := by
  rw [leavesOf_cons, encLeaves_append, List.length_append]
  cases p with
  | none => rfl
  | some q => rw [Option.map_some, Option.toList_some, encLeaves_cons, encLeaves_nil, List.append_nil, encLeaf_length]; rfl

/-- what a nest of mappings takes -/
def qosSize (there : Bool) (ls : List Leaf) : ℕ := if there then 4 + 12 * ls.length else 0

/-- what is left of it when it is closed -/
def qosPayload (there : Bool) (ls : List Leaf) : Option (List UInt8) :=
  if there then if 4 + 12 * ls.length ≤ 65535 then some (encLeaves ls) else none else none

/-- **A nest of mappings**, with room -/
theorem putQos_room {there : Bool} {type : ℕ} (ht : type < 16384) {ls : List Leaf} (hls : Mappings ls)
    (hne : there = true → ls ≠ []) {m : NlMsg} (hm : Tidy m) {rest : ℕ} (hroom : Room m (qosSize there ls + rest)) :
    ∃ m', putQos there type ls m = (m', 0) ∧ Room m' rest ∧
      Wrote m m' (encLeaves (leavesOf [(32768 + type, qosPayload there ls)])) := by
  unfold putQos qosPayload
  unfold qosSize at hroom
  have hlength := hls.length
  cases there with
  | false =>
    rw [if_neg Bool.false_ne_true, Nat.zero_add] at hroom
    exact ⟨m, rfl, hroom, Wrote.nil hm⟩
  | true =>
    rw [if_pos rfl] at hroom
    simp only [if_true]
    have hroom4 : Room m (4 + (encLeaves ls).length) := room_mono hroom (by omega)
    by_cases hlen : 4 + 12 * ls.length ≤ 65535
    · obtain ⟨m', hput, hw⟩ := putNest_room (t := type) (-NLE_MSGSIZE) ht (hne rfl) hls.wf (by omega) hm hroom4
      rw [if_pos hlen]
      refine ⟨m', hput, room_after hw (room_mono hroom ?_), hw⟩
      rw [encLeaves_cons, encLeaves_nil, List.append_nil, encLeaf_length, hlength]
      unfold align4
      omega
    · -- the nest is written, but does not last
      obtain ⟨m1, hstart, hw1⟩ := nlaNestStart_room hm type (by omega) (room_mono hroom4 (Nat.le_add_right 4 _))
      have hroom1 : Room m1 (encLeaves ls).length := room_after hw1 (by rw [nlaHeader_length]; exact hroom4)
      obtain ⟨m2, hput, hw2⟩ := putAll_room (-NLE_MSGSIZE) hls.wf hw1.tidy hroom1
      have hw := nest_dropped hm hw1 hw2 (Or.inr (by omega))
      rw [if_neg hlen]
      refine ⟨(nlaNestEnd m2 m.nlmsgLen).1, ?_, room_after hw (room_mono hroom (by simp)), hw⟩
      rw [putNest, hstart, inNest_some, hput, thenPut_ok]

omit [HostOrder] in
theorem ingress_ne_nil {h : VlanHeap} {vi : VlanInfo} (hb : Built h vi) (hhas : vi.has VLAN_HAS_INGRESS_QOS = true) :
    setPrios vi.mapped ≠ [] := by
  intro hnil
  refine hb.ingress hhas (BitVec.eq_of_getLsbD_eq fun i hi => ?_)
  have hnone := List.filterMap_eq_nil_iff.1 hnil ⟨i, hi⟩ (List.mem_finRange _)
  rw [Option.map_eq_none_iff, VlanInfo.mapped] at hnone
  rw [BitVec.ofNat_eq_ofNat, BitVec.getLsbD_zero]
  by_contra hbit
  rw [if_pos (Bool.eq_true_of_not_eq_false hbit)] at hnone
  cases hnone

theorem fieldsOf_sendable {a : VlanAttrs} (hshort : ∀ maps ∈ a.egress, 4 + 12 * maps.length ≤ 65535) (flagsMask : BitVec 32) :
    Sendable vlanPolicy (fieldsOf a flagsMask) := by
  have hu16 : ∀ o : Option (BitVec 16), Sends ⟨.u16, 0, 0⟩ (o.map fun v => u16Bytes v.toNat) := fun o =>
    sends_min rfl (by decide) fun q hq => by
      obtain ⟨v, -, rfl⟩ := Option.mem_map.1 hq
      rw [u16Bytes_length]
      exact ⟨by decide, le_rfl⟩
  refine Sendable.cons (by decide) (hu16 a.id) (Sendable.cons (by decide) (hu16 a.protocol) (Sendable.cons (by decide)
    (sends_struct rfl (by decide) fun q hq => ?_) (Sendable.cons (by decide) (sends_nested rfl fun q hq => ?_)
    (Sendable.cons (by decide) (sends_nested rfl fun q hq => ?_) (Sendable.nil _)))))
  · obtain ⟨v, -, rfl⟩ := Option.mem_map.1 hq
    rw [List.length_append, u32Bytes_length, u32Bytes_length]
  · obtain ⟨g, -, rfl⟩ := Option.mem_map.1 hq
    have hle := setPrios_length_le g
    rw [(prios_mappings _).length, List.length_map]
    omega
  · obtain ⟨maps, hmaps, rfl⟩ := Option.mem_map.1 hq
    rw [(egress_mappings _).length, egressLeaves_length]
    exact hshort maps hmaps

/-- what comes through: the egress map only if its nest is not too long -/
def VlanInfo.fitting (vi : VlanInfo) (h : VlanHeap) : VlanAttrs :=
  { vi.attrs h with egress := (vi.attrs h).egress.filter fun maps => decide (4 + 12 * maps.length ≤ 65535) }

omit [HostOrder] in
theorem fitting_short {h : VlanHeap} {vi : VlanInfo} : ∀ maps ∈ (vi.fitting h).egress, 4 + 12 * maps.length ≤ 65535 := by
  intro maps hmaps
  obtain ⟨-, hlen⟩ := Option.filter_eq_some_iff.1 hmaps
  exact of_decide_eq_true hlen

/-- the fields are put in three steps -/
theorem fieldsOf_split (vi : VlanInfo) (h : VlanHeap) : fieldsOf (vi.fitting h) vi.viFlagsMask =
    plainFields vi ++ ([(32768 + IFLA_VLAN_INGRESS_QOS, qosPayload (vi.has VLAN_HAS_INGRESS_QOS) (ingressLeaves vi))] ++
      [(32768 + IFLA_VLAN_EGRESS_QOS, qosPayload (vi.has VLAN_HAS_EGRESS_QOS) (egressLeaves (vi.egress h)))]) := by
  have hmap : ∀ {α : Type} (c : Bool) (x : α) (enc : α → List UInt8),
      (if c then some x else none).map enc = if c then some (enc x) else none := fun c x enc => by
    cases c with
    | true => rfl
    | false => rfl
  have hin : qosPayload (vi.has VLAN_HAS_INGRESS_QOS) (ingressLeaves vi) =
      if vi.has VLAN_HAS_INGRESS_QOS then some (encLeaves ((setPrios vi.mapped).map prioLeaf)) else none := by
    have hle := setPrios_length_le vi.mapped
    have hshort : 4 + 12 * ((setPrios vi.mapped).map prioLeaf).length ≤ 65535 := by
      rw [List.length_map]
      omega
    rw [qosPayload, ingressLeaves_eq, if_pos hshort]
  have hout : qosPayload (vi.has VLAN_HAS_EGRESS_QOS) (egressLeaves (vi.egress h)) =
      (vi.fitting h).egress.map fun maps => encLeaves (egressLeaves maps) := by
    simp only [qosPayload, egressLeaves_length, VlanInfo.fitting, VlanInfo.attrs]
    cases vi.has VLAN_HAS_EGRESS_QOS with
    | false => rfl
    | true =>
      by_cases hlen : 4 + 12 * (vi.egress h).length ≤ 65535
      · simp [Option.filter, hlen]
      · simp [Option.filter, hlen]
  rw [hin, hout]
  simp only [fieldsOf, plainFields, VlanInfo.fitting, VlanInfo.attrs, hmap, List.cons_append, List.nil_append]

theorem plainFields_wf (vi : VlanInfo) : ∀ l ∈ leavesOf (plainFields vi), l.WF := by
  have hsend := @fieldsOf_sendable _ (vi.fitting ⟨fun _ => none, 0, fun _ => true, 0⟩) fitting_short vi.viFlagsMask
  rw [fieldsOf_split] at hsend
  exact (hsend.sub fun f hf => List.mem_append_left _ hf).wf

/-- what is put before the maps takes what it takes in the end -/
theorem plainFields_length (vi : VlanInfo) : (encLeaves (leavesOf (plainFields vi))).length =
    (if vi.has VLAN_HAS_ID then 8 else 0) + (if vi.has VLAN_HAS_PROTOCOL then 8 else 0) +
      (if vi.has VLAN_HAS_FLAGS then 12 else 0) := by
  have hif : ∀ (c : Bool) (q : List UInt8), (if c then some q else none).elim 0 (fun q => align4 (4 + q.length)) =
      if c then align4 (4 + q.length) else 0 := fun c q => by
    cases c with
    | true => rfl
    | false => rfl
  have h8 : align4 (4 + 2) = 8 := rfl
  have h12 : align4 (4 + (4 + 4)) = 12 := rfl
  simp only [plainFields, fields_cons_length, hif, List.length_append, u16Bytes_length, u32Bytes_length, h8, h12]
  simp only [leavesOf, List.filterMap_nil, encLeaves_nil, List.length_nil]
  omega

omit [HostOrder] in
/-- the bytes of the nest, in the steps in which they are put -/
theorem dataSize_split {h : VlanHeap} {vi : VlanInfo} (hs : Source h vi) : vi.dataSize =
    4 + ((if vi.has VLAN_HAS_ID then 8 else 0) + (if vi.has VLAN_HAS_PROTOCOL then 8 else 0) +
      (if vi.has VLAN_HAS_FLAGS then 12 else 0) +
      ((if vi.has VLAN_HAS_INGRESS_QOS then 4 + 12 * (setPrios vi.mapped).length else 0) +
        if vi.has VLAN_HAS_EGRESS_QOS then 4 + 12 * (vi.egress h).length else 0)) := by
  have hcount : (setPrios vi.mapped).length =
      (List.finRange (VLAN_PRIO_MAX + 1)).countP fun i : Fin (VLAN_PRIO_MAX + 1) => vi.viIngressQosMask.getLsbD i := by
    rw [setPrios, List.length_filterMap_eq_countP]
    refine List.countP_congr fun i _ => ?_
    rw [Option.isSome_map, VlanInfo.mapped]
    split_ifs with hbit
    · exact iff_of_true rfl hbit
    · exact iff_of_false Bool.false_ne_true hbit
  rw [VlanInfo.dataSize, hcount, hs.egress_length]
  omega

/-- the bytes of the nest are those of its header and of the attributes -/
theorem dataSize_sum {h : VlanHeap} {vi : VlanInfo} (hs : Source h vi) : vi.dataSize =
    4 + ((encLeaves (leavesOf (plainFields vi))).length + (qosSize (vi.has VLAN_HAS_INGRESS_QOS) (ingressLeaves vi) +
      qosSize (vi.has VLAN_HAS_EGRESS_QOS) (egressLeaves (vi.egress h)))) := by
  rw [dataSize_split hs, plainFields_length, qosSize, qosSize, ingressLeaves_eq, List.length_map, egressLeaves_length]

theorem qosPayload_length (type : ℕ) (there : Bool) {ls : List Leaf} (hls : Mappings ls) :
    (encLeaves (leavesOf [(32768 + type, qosPayload there ls)])).length =
      if 4 + 12 * ls.length ≤ 65535 then qosSize there ls else 0 := by
  have hal : align4 (4 + 12 * ls.length) = 4 + 12 * ls.length := align4_of_mod (by omega)
  have hnil : (encLeaves (leavesOf [])).length = 0 := rfl
  rw [fields_cons_length, hnil, Nat.add_zero, qosPayload, qosSize]
  split_ifs
  · rw [Option.elim_some, hls.length, hal]
  · rfl
  · rfl
  · rfl

/-- **What is put in the nest**, with room -/
theorem putData_room {h : VlanHeap} {vi : VlanInfo} (hb : Built h vi) {m : NlMsg} (hm : Tidy m)
    (hroom : Room m (vi.dataSize - 4)) :
    ∃ m', putData h vi m = (m', 0) ∧ Wrote m m' (encLeaves (leavesOf (fieldsOf (vi.fitting h) vi.viFlagsMask))) := by
  rw [dataSize_sum hb.toSource, Nat.add_sub_cancel_left] at hroom
  obtain ⟨m1, hput1, hw1⟩ := putAll_room (-NLE_MSGSIZE) (plainFields_wf vi) hm (room_mono hroom (Nat.le_add_right _ _))
  have hin : vi.has VLAN_HAS_INGRESS_QOS = true → ingressLeaves vi ≠ [] := fun hhas hnil =>
    ingress_ne_nil hb hhas (List.map_eq_nil_iff.1 ((ingressLeaves_eq vi).symm.trans hnil))
  have hout : vi.has VLAN_HAS_EGRESS_QOS = true → egressLeaves (vi.egress h) ≠ [] := fun hhas hnil =>
    hb.egress hhas (by rw [← hb.toSource.egress_length, ← egressLeaves_length, hnil, List.length_nil])
  obtain ⟨m2, hput2, hroom2, hw2⟩ := putQos_room (show IFLA_VLAN_INGRESS_QOS < 16384 by decide)
    (ingressLeaves_eq vi ▸ prios_mappings _) hin hw1.tidy (room_after hw1 hroom)
  obtain ⟨m3, hput3, -, hw3⟩ := putQos_room (show IFLA_VLAN_EGRESS_QOS < 16384 by decide) (egress_mappings (vi.egress h)) hout
    hw2.tidy (room_mono hroom2 (Nat.add_zero _).le)
  refine ⟨m3, ?_, ?_⟩
  · rw [putData, hput1, thenPut_ok, hput2, thenPut_ok, hput3]
  · rw [fieldsOf_split, leavesOf_append, leavesOf_append, encLeaves_append, encLeaves_append]
    exact hw1.append (hw2.append hw3)

omit [HostOrder] in
/-- only a link with an egress map takes so much -/
theorem long_egress {h : VlanHeap} {vi : VlanInfo} (hs : Source h vi) (hlong : 65535 < vi.dataSize) :
    vi.has VLAN_HAS_EGRESS_QOS = true := by
  by_contra hno
  have hsplit := dataSize_split hs
  have hle := setPrios_length_le vi.mapped
  rw [if_neg hno] at hsplit
  split_ifs at hsplit
  all_goals omega

omit [HostOrder] in
theorem fitting_egress (vi : VlanInfo) (h : VlanHeap) : (vi.fitting h).egress =
    if 4 + 12 * (vi.egress h).length ≤ 65535 then (vi.attrs h).egress else none := by
  have hegress : (vi.attrs h).egress = if vi.has VLAN_HAS_EGRESS_QOS then some (vi.egress h) else none := rfl
  show (vi.attrs h).egress.filter _ = _
  rw [hegress]
  cases vi.has VLAN_HAS_EGRESS_QOS with
  | false => exact (ite_self none).symm
  | true =>
    by_cases hshort : 4 + 12 * (vi.egress h).length ≤ 65535
    · simp [Option.filter, hshort]
    · simp [Option.filter, hshort]

omit [HostOrder] in
theorem fitting_of_short {h : VlanHeap} {vi : VlanInfo} (hshort : 4 + 12 * (vi.egress h).length ≤ 65535) :
    vi.fitting h = vi.attrs h :=
  VlanAttrs.ext rfl rfl rfl rfl ((fitting_egress vi h).trans (if_pos hshort))

omit [HostOrder] in
theorem fitting_of_long {h : VlanHeap} {vi : VlanInfo} (hlong : ¬ 4 + 12 * (vi.egress h).length ≤ 65535) :
    (vi.fitting h).egress = none := (fitting_egress vi h).trans (if_neg hlong)

/-- the attributes in the nest, without the egress map if that is too long -/
theorem fitting_length {h : VlanHeap} {vi : VlanInfo} (hs : Source h vi) :
    4 + (encLeaves (leavesOf (fieldsOf (vi.fitting h) vi.viFlagsMask))).length ≤ vi.dataSize ∧
      (4 + 12 * (vi.egress h).length ≤ 65535 →
        4 + (encLeaves (leavesOf (fieldsOf (vi.fitting h) vi.viFlagsMask))).length = vi.dataSize) := by
  have hle := setPrios_length_le vi.mapped
  have hin : Mappings (ingressLeaves vi) := ingressLeaves_eq vi ▸ prios_mappings _
  have hshort : 4 + 12 * (ingressLeaves vi).length ≤ 65535 := by
    rw [ingressLeaves_eq, List.length_map]
    omega
  rw [fieldsOf_split, leavesOf_append, leavesOf_append, encLeaves_append, encLeaves_append, List.length_append,
    List.length_append, qosPayload_length _ _ hin, if_pos hshort, qosPayload_length _ _ (egress_mappings _),
    egressLeaves_length, dataSize_sum hs]
  constructor
  · split_ifs
    · exact le_rfl
    · omega
  · intro hlen
    rw [if_pos hlen]

omit [HostOrder] in
/-- a link whose data is short has a short egress map -/
theorem short_of_dataSize {h : VlanHeap} {vi : VlanInfo} (hb : Built h vi) (hdata : vi.dataSize ≤ 65535) :
    4 + 12 * (vi.egress h).length ≤ 65535 := by
  have hsplit := dataSize_split hb.toSource
  by_cases hhas : vi.has VLAN_HAS_EGRESS_QOS = true
  · rw [if_pos hhas] at hsplit
    omega
  · have hzero : vi.viNegress = 0 := by
      by_contra hne
      exact hhas (hb.bit hne)
    rw [hb.toSource.egress_length, hzero]
    decide

/-- **What stands in the message**, with room: the data of the link, or without the egress map if it is too long. -/
theorem vlanPutAttrs_room {h : VlanHeap} {vi : VlanInfo} (hb : Built h vi) {m : NlMsg} (hm : Tidy m)
    (hroom : Room m vi.dataSize) :
    ∃ m' a, vlanPutAttrs m h vi = (m', 0) ∧
      Wrote m m' (encLeaves (leavesOf [(32768 + IFLA_INFO_DATA, nestPayload (fieldsOf a vi.viFlagsMask))])) ∧
      (∀ maps ∈ a.egress, 4 + 12 * maps.length ≤ 65535) ∧
      4 + (encLeaves (leavesOf (fieldsOf a vi.viFlagsMask))).length ≤ 65535 ∧
      (vi.dataSize ≤ 65535 → a = vi.attrs h) ∧ (65535 < vi.dataSize → a.egress = none) := by
  have hsum := dataSize_sum hb.toSource
  obtain ⟨m1, hstart, hw1⟩ := nlaNestStart_room hm IFLA_INFO_DATA (by decide) (room_mono hroom (by omega))
  have hroom1 : Room m1 (vi.dataSize - 4) :=
    room_after hw1 (by rw [nlaHeader_length]; exact room_mono hroom (by omega))
  obtain ⟨m2, hput, hw2⟩ := putData_room hb hw1.tidy hroom1
  have hresult : vlanPutAttrs m h vi = ((nlaNestEnd m2 m.nlmsgLen).1, 0) := by
    rw [vlanPutAttrs, hstart, inNest_some, hput]
    rfl
  obtain ⟨hle, hexact⟩ := fitting_length hb.toSource
  have hsame : vi.dataSize ≤ 65535 → vi.fitting h = vi.attrs h := fun hdata => fitting_of_short (short_of_dataSize hb hdata)
  by_cases hlen : 4 + (encLeaves (leavesOf (fieldsOf (vi.fitting h) vi.viFlagsMask))).length ≤ 65535
  · have hgone : 65535 < vi.dataSize → (vi.fitting h).egress = none := fun hdata => fitting_of_long fun hshort => by
      have heq := hexact hshort
      omega
    refine ⟨_, vi.fitting h, hresult, ?_, fitting_short, hlen, hsame, hgone⟩
    rw [← nestLeaves_fields]
    by_cases hnil : leavesOf (fieldsOf (vi.fitting h) vi.viFlagsMask) = []
    · rw [nestLeaves, if_pos hnil, encLeaves_nil]
      exact nest_dropped hm hw1 hw2 (Or.inl (by rw [hnil, encLeaves_nil]))
    · obtain ⟨m3, hend, hw3⟩ := nest_end (t := IFLA_INFO_DATA) hw1 hw2 (encLeaves_ne_nil hnil) hlen
      rw [nestLeaves, if_neg hnil, hend]
      exact hw3
  · -- nothing is left
    have hw3 := nest_dropped hm hw1 hw2 (Or.inr (not_le.1 hlen))
    have hempty : 4 + 0 ≤ 65535 := by decide
    refine ⟨_, ⟨none, none, none, none, none⟩, hresult, hw3, fun _ hmaps => (by cases hmaps), hempty,
      fun hdata => absurd (hle.trans hdata) hlen, fun _ => rfl⟩

/-! ## What is read -/

theorem at_mapping {buf : Mem} {pos t : ℕ} {map : VlanMap} (hat : At buf pos ⟨t, mappingBytes map⟩) :
    qosMapping buf pos = map ∧ ¬ shortMapping buf pos := by
  obtain ⟨hfrom, hto⟩ := seg_append.1 hat.data
  rw [u32Bytes_length] at hto
  have hlen : nlaLen buf pos = 8 := by
    rw [hat.len, mappingBytes_length]
    rfl
  constructor
  · rw [qosMapping, hfrom.getU32, hto.getU32, Nat.mod_eq_of_lt map.vmFrom.isLt, Nat.mod_eq_of_lt map.vmTo.isLt]
    simp only [BitVec.ofNat_toNat, BitVec.setWidth_eq]
  · rw [shortMapping, hlen]
    decide

/-! ### The ingress map -/

omit [HostOrder] in
/-- the mapping of a priority after another, or the same, was set -/
theorem mapped_setIngress (vi : VlanInfo) (j i : Fin (VLAN_PRIO_MAX + 1)) (to' : BitVec 32) :
    (vi.setIngress j to').mapped i = if i = j then some to' else vi.mapped i := by
  have hbit : (vi.setIngress j to').viIngressQosMask.getLsbD i = (vi.viIngressQosMask.getLsbD i || decide (i = j)) := by
    have hj : (j : ℕ) < 8 := j.isLt
    rw [VlanInfo.setIngress, BitVec.getLsbD_or, BitVec.getLsbD_twoPow, decide_eq_true hj, Bool.true_and]
    exact congrArg _ (decide_eq_decide.2 (eq_comm.trans Fin.ext_iff.symm))
  have hval : (vi.setIngress j to').viIngressQos i = if i = j then to' else vi.viIngressQos i := Function.update_apply ..
  rw [VlanInfo.mapped, hbit, hval]
  by_cases hij : i = j
  · simp [hij]
  · simp [hij, VlanInfo.mapped]

omit [HostOrder] in
/-- only the ingress map is changed -/
theorem foldl_setIngress (xs : List (Fin (VLAN_PRIO_MAX + 1) × BitVec 32)) (vi : VlanInfo) :
    ∃ mask qos, xs.foldl (fun vi x => vi.setIngress x.1 x.2) vi = { vi with
      viIngressQosMask := mask
      viIngressQos := qos } := by
  induction xs generalizing vi with
  | nil => exact ⟨_, _, rfl⟩
  | cons x xs ih =>
    obtain ⟨mask, qos, heq⟩ := ih (vi.setIngress x.1 x.2)
    exact ⟨mask, qos, heq⟩

omit [HostOrder] in
/-- the mappings of some priorities are set one after the other -/
theorem foldl_mapped (g : Fin (VLAN_PRIO_MAX + 1) → Option (BitVec 32)) (is : List (Fin (VLAN_PRIO_MAX + 1)))
    (vi : VlanInfo) (i : Fin (VLAN_PRIO_MAX + 1)) :
    ((is.filterMap fun i => (g i).map fun to' => (i, to')).foldl (fun vi x => vi.setIngress x.1 x.2) vi).mapped i =
      if i ∈ is then (g i).or (vi.mapped i) else vi.mapped i := by
  induction is generalizing vi with
  | nil => rfl
  | cons j js ih =>
    cases hg : g j with
    | none =>
      rw [List.filterMap_cons_none (by rw [hg]; rfl), ih]
      by_cases hij : i = j
      · simp [hij, hg]
      · simp [hij]
    | some to' =>
      rw [List.filterMap_cons_some (by rw [hg]; rfl), List.foldl_cons, ih, mapped_setIngress]
      by_cases hij : i = j
      · simp [hij, hg]
      · simp [hij]

/-- **The ingress map** that was written -/
theorem parseIngress_mapped {buf : Mem} {pos t : ℕ} {g : Fin (VLAN_PRIO_MAX + 1) → Option (BitVec 32)}
    (hat : At buf pos ⟨t, encLeaves ((setPrios g).map prioLeaf)⟩) (vi : VlanInfo) :
    ∃ mask qos, parseIngress buf vi pos = (0, { vi with
      viIngressQosMask := mask
      viIngressQos := qos
      viMask := vi.viMask ||| VLAN_HAS_INGRESS_QOS }) ∧
      VlanInfo.mapped { vi with
        viIngressQosMask := mask
        viIngressQos := qos } = g := by
  have hlen : nlaLen buf pos = (encLeaves ((setPrios g).map prioLeaf)).length := hat.len
  have hms := prios_mappings (setPrios g)
  have hle := setPrios_length_le g
  have hlength := hms.length
  rw [List.length_map] at hlength
  have hbody : ∀ x ∈ setPrios g, ∀ vi nla, At buf nla (prioLeaf x) →
      ingressBody buf vi nla = .ok (vi.setIngress x.1 x.2) := by
    intro x _ vi nla hx
    obtain ⟨hmap, hlong⟩ := at_mapping hx
    have hprio : (BitVec.ofNat 32 (x.1 : ℕ)).toNat = x.1 := by
      have hlt : (x.1 : ℕ) < 8 := x.1.isLt
      rw [BitVec.toNat_ofNat, Nat.mod_eq_of_lt (by omega)]
    have hbound : ¬ VLAN_PRIO_MAX < (x.1 : ℕ) := not_lt.2 (Nat.lt_succ_iff.1 x.1.isLt)
    simp only [ingressBody, if_neg hlong, hmap, hprio, dif_neg hbound, Fin.eta]
  have hloop := forEach_items (ingressBody buf) prioLeaf (fun vi x => vi.setIngress x.1 x.2) hbody
    (fun x hx => hms.wf _ (List.mem_map_of_mem hx)) { vi with viIngressQosMask := 0, viIngressQos := fun _ => 0 } hat.data
    (by omega) (n := (nlaLen buf pos).toNat + 1) (by omega)
  obtain ⟨mask, qos, hfold⟩ := foldl_setIngress (setPrios g) { vi with viIngressQosMask := 0, viIngressQos := fun _ => 0 }
  refine ⟨mask, qos, ?_, ?_⟩
  · rw [hfold, ← hlen] at hloop
    rw [parseIngress]
    simp only [hloop, Option.getD_some]
  · funext i
    have hmapped := foldl_mapped g (List.finRange _) { vi with viIngressQosMask := 0, viIngressQos := fun _ => 0 } i
    have hnone : VlanInfo.mapped { vi with viIngressQosMask := 0, viIngressQos := fun _ => 0 } i = none := by
      simp [VlanInfo.mapped]
    rw [if_pos (List.mem_finRange i), hnone, Option.or_none] at hmapped
    rw [← hmapped]
    exact (congrFun (congrArg VlanInfo.mapped hfold) i).symm

/-! ### The egress map -/

/-- the mappings are counted -/
theorem count_egress {buf : Mem} {pos t : ℕ} {maps : List VlanMap} (hat : At buf pos ⟨t, encLeaves (egressLeaves maps)⟩)
    (hshort : 4 + 12 * maps.length ≤ 65535) :
    nlaForEachAttr buf (countBody buf) ((nlaLen buf pos).toNat + 1) 0 (nlaData pos) (nlaLen buf pos) =
      some (.ok maps.length) := by
  have hlen : nlaLen buf pos = (encLeaves (egressLeaves maps)).length := hat.len
  have hms := egress_mappings maps
  have hlength := hms.length
  rw [egressLeaves_length] at hlength
  have hcount : ∀ (xs : List (VlanMap × ℕ)) (n : ℕ), xs.foldl (fun i _ => i + 1) n = n + xs.length := by
    intro xs
    induction xs with
    | nil => exact fun n => rfl
    | cons x xs ih =>
      intro n
      rw [List.foldl_cons, ih, List.length_cons]
      omega
  have hloop := forEach_items (countBody buf) (fun x : VlanMap × ℕ => ⟨x.2 % 65536, mappingBytes x.1⟩) (fun i _ => i + 1)
    (fun x _ i nla hx => if_neg (at_mapping hx).2) (fun x (hx : x ∈ maps.zipIdx) => hms.wf _ (List.mem_map_of_mem hx)) 0 hat.data
    (show (encLeaves (egressLeaves maps)).length < 2147483648 by omega) (n := (nlaLen buf pos).toNat + 1)
    (by rw [List.length_zipIdx]; omega)
  rw [hcount, List.length_zipIdx, Nat.zero_add] at hloop
  have hsame : nlaLen buf pos = (encLeaves (maps.zipIdx.map fun x : VlanMap × ℕ => ⟨x.2 % 65536, mappingBytes x.1⟩)).length :=
    hlen
  rw [← hsame] at hloop
  exact hloop

/-- and stored, in an array that is large enough -/
theorem fill_egress {buf : Mem} {pos t : ℕ} {maps : List VlanMap} (hat : At buf pos ⟨t, encLeaves (egressLeaves maps)⟩)
    (hshort : 4 + 12 * maps.length ≤ 65535) {h : VlanHeap} (ht : h.Tidy) {p size : ℕ}
    (hcell : h.cells p = some (List.replicate size VlanMap.zero)) (hsize : maps.length ≤ size) :
    ∃ h', nlaForEachAttr buf (egressBody buf (some p)) ((nlaLen buf pos).toNat + 1) (h, 0) (nlaData pos) (nlaLen buf pos) =
      some (.ok (h', maps.length)) ∧ ∃ xs, h'.cells p = some xs ∧ xs.take maps.length = maps := by
  have hlen : nlaLen buf pos = (encLeaves (egressLeaves maps)).length := hat.len
  have hms := egress_mappings maps
  have hlength := hms.length
  rw [egressLeaves_length] at hlength
  have hloop := forEach_leaves (egressBody buf (some p)) (fun seen s => s.2 = seen.length ∧ s.1.Tidy ∧
      s.1.cells p = some (maps.take s.2 ++ List.replicate (size - s.2) VlanMap.zero)) ?_ hms.wf
    (s := (h, 0)) ⟨rfl, ht, hcell⟩ hat.data (show (encLeaves (egressLeaves maps)).length < 2147483648 by omega)
    (n := (nlaLen buf pos).toNat + 1) (by rw [egressLeaves_length]; omega)
  · obtain ⟨⟨h', i⟩, heq, hi, -, hcell'⟩ := hloop
    rw [egressLeaves_length] at hi
    dsimp only at hi hcell'
    rw [hi] at heq hcell'
    rw [← hlen] at heq
    exact ⟨h', heq, _, hcell', by rw [List.take_length, List.take_left']; rfl⟩
  · rintro seen l rest ⟨h1, i⟩ nla hall ⟨hi, htidy, hcell1⟩ hl
    dsimp only at hi htidy hcell1
    -- the attribute is that of the mapping with this number
    have hlt : i < maps.length := by
      rw [← egressLeaves_length maps, hall, List.length_append, List.length_cons, hi]
      omega
    have hleaf : l = ⟨i % 65536, mappingBytes maps[i]⟩ := by
      have hget : (egressLeaves maps)[i]? = some l := by
        rw [hall, hi, List.getElem?_append_right le_rfl, Nat.sub_self]
        rfl
      rw [egressLeaves, List.getElem?_map, List.getElem?_zipIdx, List.getElem?_eq_getElem hlt] at hget
      simpa using (Option.some.inj hget).symm
    subst hleaf
    have hmap := (at_mapping hl).1
    have hroom : i < (maps.take i ++ List.replicate (size - i) VlanMap.zero).length := by
      rw [List.length_append, List.length_take, List.length_replicate]
      omega
    obtain ⟨h2, hwrite, htidy2, -, hcell2, -⟩ := Heap.write_spec htidy hcell1 hroom maps[i]
    refine ⟨(h2, i + 1), ?_, ?_, htidy2, ?_⟩
    · simp only [egressBody, hmap, hwrite]
    · rw [List.length_append, ← hi]
      rfl
    · dsimp only
      have hsucc : size - i = (size - (i + 1)) + 1 := by omega
      rw [hcell2, List.set_append_right _ _ (List.length_take_le _ _), List.length_take, min_eq_left hlt.le, Nat.sub_self,
        hsucc, List.replicate_succ, List.set_cons_zero, List.take_add_one, List.getElem?_eq_getElem hlt, Option.toList_some,
        List.append_assoc, List.singleton_append]

/-- **The egress map** that was written, if there is memory for it -/
theorem parseEgress_maps {buf : Mem} {pos t : ℕ} {maps : List VlanMap} (hat : At buf pos ⟨t, encLeaves (egressLeaves maps)⟩)
    (hshort : 4 + 12 * maps.length ≤ 65535) {h : VlanHeap} (ht : h.Tidy) (vi : VlanInfo) :
    ((∃ n, h.grants n = false) ∧ ∃ h' vi', parseEgress buf h vi pos = some (-NLE_NOMEM, h', vi')) ∨
      ∃ h' size p, parseEgress buf h vi pos = some (0, h', { vi with
          viEgressSize := size
          viEgressQos := some p
          viNegress := maps.length
          viMask := vi.viMask ||| VLAN_HAS_EGRESS_QOS }) ∧ (h'.entries (some p)).take maps.length = maps := by
  have hcount := count_egress hat hshort
  obtain ⟨htidy, -, hresult⟩ := Heap.alloc_spec ht (List.replicate ((maps.length + 32) / 32 * 32) VlanMap.zero)
  have hrefused := @Heap.alloc_refused _ h (List.replicate ((maps.length + 32) / 32 * 32) VlanMap.zero)
  rw [parseEgress, hcount, Option.getD_some]
  dsimp only
  generalize h.alloc (List.replicate ((maps.length + 32) / 32 * 32) VlanMap.zero) = r at *
  obtain ⟨q, h1⟩ := r
  rcases hresult with hnone | ⟨hsome, hcell, -⟩
  · obtain rfl : q = none := hnone
    exact Or.inl ⟨hrefused rfl, _, _, rfl⟩
  · obtain rfl : q = some h.next := hsome
    obtain ⟨h2, hfill, xs, hcell2, htake⟩ := fill_egress hat hshort htidy hcell (by omega)
    refine Or.inr ⟨h2, (maps.length + 32) / 32 * 32, h.next, ?_, ?_⟩
    · simp only [fillEgress, hfill, Option.getD_some]
    · rw [Heap.entries, show h2.block (some h.next) = some xs from hcell2]
      exact htake

/-! ### All attributes -/

section
variable (vi : VlanInfo) (h h' : VlanHeap)

omit [HostOrder]

theorem if_set {α : Type} {m bit : BitVec 32} (hbit : bit ≠ 0) (x : Option α) :
    (if decide ((m ||| bit) &&& bit ≠ 0) = true then x else none) = x := if_pos (decide_eq_true (or_bit_ne_zero m hbit))

theorem if_other {α : Type} {m bit bit' : BitVec 32} (hother : bit' &&& bit = 0) (x : Option α) :
    (if decide ((m ||| bit') &&& bit ≠ 0) = true then x else none) = if decide (m &&& bit ≠ 0) = true then x else none := by
  rw [has_set hother]

theorem attrs_id (v : BitVec 16) :
    VlanInfo.attrs { vi with viVlanId := v, viMask := vi.viMask ||| VLAN_HAS_ID } h = { vi.attrs h with id := some v } :=
  VlanAttrs.ext (if_set (by decide) _) (if_other rfl _) (if_other rfl _) (if_other rfl _) (if_other rfl _)

theorem attrs_protocol (v : BitVec 16) :
    VlanInfo.attrs { vi with viProtocol := v, viMask := vi.viMask ||| VLAN_HAS_PROTOCOL } h =
      { vi.attrs h with protocol := some v } :=
  VlanAttrs.ext (if_other rfl _) (if_set (by decide) _) (if_other rfl _) (if_other rfl _) (if_other rfl _)

theorem attrs_flags (v : BitVec 32) :
    VlanInfo.attrs { vi with viFlags := v, viMask := vi.viMask ||| VLAN_HAS_FLAGS } h =
      { vi.attrs h with flags := some v } :=
  VlanAttrs.ext (if_other rfl _) (if_other rfl _) (if_set (by decide) _) (if_other rfl _) (if_other rfl _)

theorem attrs_ingress (mask : BitVec 8) (qos : Fin (VLAN_PRIO_MAX + 1) → BitVec 32) :
    VlanInfo.attrs { vi with
      viIngressQosMask := mask
      viIngressQos := qos
      viMask := vi.viMask ||| VLAN_HAS_INGRESS_QOS } h =
      { vi.attrs h with ingress := some (VlanInfo.mapped { vi with viIngressQosMask := mask, viIngressQos := qos }) } :=
  VlanAttrs.ext (if_other rfl _) (if_other rfl _) (if_other rfl _) (if_set (by decide) _) (if_other rfl _)

/-- of the memory, only the egress map is asked for -/
theorem attrs_egress (size : ℕ) (qos : Option ℕ) (n : ℕ) :
    VlanInfo.attrs { vi with
      viEgressSize := size
      viEgressQos := qos
      viNegress := n
      viMask := vi.viMask ||| VLAN_HAS_EGRESS_QOS } h' =
      { vi.attrs h with egress := some ((h'.entries qos).take n) } :=
  VlanAttrs.ext (if_other rfl _) (if_other rfl _) (if_other rfl _) (if_other rfl _) (if_set (by decide) _)

/-- a link without presence bits -/
def VlanAttrs.empty : VlanAttrs := ⟨none, none, none, none, none⟩

theorem attrs_empty {vi : VlanInfo} (hmask : vi.viMask = 0) : vi.attrs h = VlanAttrs.empty := by
  have hno : ∀ bit, vi.has bit = false := fun bit => by
    rw [VlanInfo.has, hmask, BitVec.ofNat_eq_ofNat, BitVec.zero_and]
    exact decide_eq_false (not_not_intro rfl)
  simp only [VlanInfo.attrs, hno, Bool.false_eq_true, if_false, VlanAttrs.empty]

end

/-- an attribute that was put, or not -/
theorem ifThere_attrs {γ : Type} {buf : Mem} {tb : Index} {t : ℕ} {o : Option γ} {enc : γ → List UInt8} {read : ℕ → γ}
    {put : VlanAttrs → γ → VlanAttrs} {f : VlanInfo → ℕ → VlanInfo} {h : VlanHeap} (hshown : Shown buf tb t (o.map enc))
    (hread : ∀ pos type, ∀ x ∈ o, At buf pos ⟨type, enc x⟩ → read pos = x)
    (hput : ∀ vi attr, (f vi attr).attrs h = put (vi.attrs h) (read attr)) (vi : VlanInfo) :
    (ifThere tb t vi f).attrs h = o.elim (vi.attrs h) (put (vi.attrs h)) := by
  have hsame := hshown.same hread
  rw [ifThere]
  cases htb : tb t with
  | none =>
    rw [htb, Option.map_none] at hsame
    rw [← hsame]
    rfl
  | some attr =>
    rw [htb, Option.map_some] at hsame
    rw [← hsame]
    exact hput vi attr

/-- the attributes of the link, each where the index says -/
structure ShownAll (buf : Mem) (tb : Index) (a : VlanAttrs) (flagsMask : BitVec 32) : Prop where
  id : Shown buf tb IFLA_VLAN_ID (a.id.map fun v => u16Bytes v.toNat)
  protocol : Shown buf tb IFLA_VLAN_PROTOCOL (a.protocol.map fun v => u16Bytes v.toNat)
  flags : Shown buf tb IFLA_VLAN_FLAGS (a.flags.map fun v => u32Bytes v.toNat ++ u32Bytes flagsMask.toNat)
  ingress : Shown buf tb IFLA_VLAN_INGRESS_QOS (a.ingress.map fun g => encLeaves ((setPrios g).map prioLeaf))
  egress : Shown buf tb IFLA_VLAN_EGRESS_QOS (a.egress.map fun maps => encLeaves (egressLeaves maps))

theorem shown_all {buf : Mem} {tb : Index} {a : VlanAttrs} {flagsMask : BitVec 32}
    (h : Indexes buf IFLA_VLAN_MAX (leavesOf (fieldsOf a flagsMask)) tb) : ShownAll buf tb a flagsMask := by
  have hd : Distinct (fieldsOf a flagsMask) := by
    simp [Distinct, fieldsOf, IFLA_VLAN_ID, IFLA_VLAN_PROTOCOL, IFLA_VLAN_FLAGS, IFLA_VLAN_INGRESS_QOS, IFLA_VLAN_EGRESS_QOS]
  have hin := shown_of_indexes h hd (t := 32768 + IFLA_VLAN_INGRESS_QOS)
    (p := a.ingress.map fun g => encLeaves ((setPrios g).map prioLeaf)) (by simp [fieldsOf]) (by decide)
  have hout := shown_of_indexes h hd (t := 32768 + IFLA_VLAN_EGRESS_QOS)
    (p := a.egress.map fun maps => encLeaves (egressLeaves maps)) (by simp [fieldsOf]) (by decide)
  exact ⟨shown_plain h hd (by decide) (by simp [fieldsOf]) (by decide),
    shown_plain h hd (by decide) (by simp [fieldsOf]) (by decide),
    shown_plain h hd (by decide) (by simp [fieldsOf]) (by decide), hin, hout⟩

theorem at_flags {buf : Mem} {pos type : ℕ} {v mask : BitVec 32}
    (hat : At buf pos ⟨type, u32Bytes v.toNat ++ u32Bytes mask.toNat⟩) : nlaGetU32 buf pos = v := by
  rw [nlaGetU32, (seg_append.1 hat.data).1.getU32, Nat.mod_eq_of_lt v.isLt, BitVec.ofNat_toNat, BitVec.setWidth_eq]

theorem parsePlain_attrs {buf : Mem} {tb : Index} {a : VlanAttrs} {flagsMask : BitVec 32} (hs : ShownAll buf tb a flagsMask)
    {vi : VlanInfo} (hmask : vi.viMask = 0) (h : VlanHeap) :
    (parsePlain buf tb vi).attrs h = { a with ingress := none, egress := none } := by
  have hid := @ifThere_attrs _ _ _ _ _ _ _ _ (fun s v => { s with id := some v }) _ h hs.id (fun _ _ _ _ hat => at_u16 hat)
    fun vi attr => attrs_id vi h (nlaGetU16 buf attr)
  have hprotocol := @ifThere_attrs _ _ _ _ _ _ _ _ (fun s v => { s with protocol := some v }) _ h hs.protocol
    (fun _ _ _ _ hat => at_u16 hat) fun vi attr => attrs_protocol vi h (nlaGetU16 buf attr)
  have hflags := @ifThere_attrs _ _ _ _ _ _ _ _ (fun s v => { s with flags := some v }) _ h hs.flags
    (fun _ _ _ _ hat => at_flags hat) fun vi attr => attrs_flags vi h (nlaGetU32 buf attr)
  rw [parsePlain, hflags, hprotocol, hid, attrs_empty h hmask]
  obtain ⟨id, protocol, flags, ingress, egress⟩ := a
  cases id with
  | none => cases protocol <;> cases flags <;> rfl
  | some id => cases protocol <;> cases flags <;> rfl

/-- **All attributes** of a link, if there is memory for the egress map -/
theorem parseTable_attrs {buf : Mem} {tb : Index} {a : VlanAttrs} {flagsMask : BitVec 32} (hs : ShownAll buf tb a flagsMask)
    (hshort : ∀ maps ∈ a.egress, 4 + 12 * maps.length ≤ 65535) {h : VlanHeap} (ht : h.Tidy) {vi : VlanInfo}
    (hmask : vi.viMask = 0) :
    ((∃ n, h.grants n = false) ∧ ∃ h' vi', parseTable buf tb h vi = some (-NLE_NOMEM, h', vi')) ∨
      ∃ h' vi', parseTable buf tb h vi = some (0, h', vi') ∧ vi'.attrs h' = a := by
  have hplain := fun h => parsePlain_attrs hs hmask h
  -- the link with the ingress map
  obtain ⟨vi1, hin, hattrs⟩ : ∃ vi1, (ifThere tb IFLA_VLAN_INGRESS_QOS ((0 : ℤ), parsePlain buf tb vi) fun r attr =>
      parseIngress buf r.2 attr) = (0, vi1) ∧ ∀ h, vi1.attrs h = { a with egress := none } := by
    have hshown := hs.ingress
    rw [ifThere]
    cases hg : a.ingress with
    | none =>
      rw [hg] at hshown
      have hnone : tb IFLA_VLAN_INGRESS_QOS = none := hshown
      rw [hnone]
      refine ⟨_, rfl, fun h => ?_⟩
      rw [hplain, ← hg]
    | some g =>
      rw [hg] at hshown
      obtain ⟨pos, type, hpos, hat⟩ := hshown
      obtain ⟨mask, qos, hparse, hmapped⟩ := parseIngress_mapped hat (parsePlain buf tb vi)
      rw [hpos]
      refine ⟨_, hparse, fun h => ?_⟩
      rw [attrs_ingress, hmapped, hplain, ← hg]
  rw [parseTable, hin]
  simp only [lt_irrefl, if_false]
  have hshown := hs.egress
  cases hmaps : a.egress with
  | none =>
    rw [hmaps] at hshown
    have hnone : tb IFLA_VLAN_EGRESS_QOS = none := hshown
    rw [hnone]
    refine Or.inr ⟨h, vi1, rfl, ?_⟩
    rw [hattrs, ← hmaps]
  | some maps =>
    rw [hmaps] at hshown
    obtain ⟨pos, type, hpos, hat⟩ := hshown
    rw [hpos]
    dsimp only
    rcases parseEgress_maps hat (hshort maps hmaps) ht vi1 with hrefused | ⟨h', size, p, hparse, htake⟩
    · exact Or.inl hrefused
    · refine Or.inr ⟨h', _, hparse, ?_⟩
      rw [attrs_egress vi1 h h', hattrs, htake, ← hmaps]

/-- **The data of a link**, parsed into a link that was allocated -/
theorem vlanParse_attrs {buf : Mem} {pos type : ℕ} {a : VlanAttrs} {flagsMask : BitVec 32}
    (hat : At buf pos ⟨type, encLeaves (leavesOf (fieldsOf a flagsMask))⟩)
    (hshort : ∀ maps ∈ a.egress, 4 + 12 * maps.length ≤ 65535)
    (hlen : 4 + (encLeaves (leavesOf (fieldsOf a flagsMask))).length ≤ 65535) {h : VlanHeap} (ht : h.Tidy) (vi : VlanInfo) :
    ((∃ n, h.grants n = false) ∧ ∃ h' vi', vlanParse buf h (some vi) pos = some (-NLE_NOMEM, h', vi')) ∨
      ∃ h' vi', vlanParse buf h (some vi) pos = some (0, h', some vi') ∧ vi'.attrs h' = a := by
  obtain ⟨tb, hparse, hidx⟩ := parseNested_fields IFLA_VLAN_MAX hat (fieldsOf_sendable hshort flagsMask) (by omega)
  rw [vlanParse, hparse]
  simp only [lt_irrefl, if_false, vlanAlloc]
  have hgrants : (h.free vi.viEgressQos).grants = h.grants := by
    cases vi.viEgressQos with
    | none => rfl
    | some p => rfl
  rcases parseTable_attrs (shown_all hidx) hshort (Heap.free_tidy ht vi.viEgressQos) (show VlanInfo.zero.viMask = 0 from rfl) with
    ⟨hrefused, h', vi', heq⟩ | ⟨h', vi', heq, hattrs⟩
  · rw [hgrants] at hrefused
    exact Or.inl ⟨hrefused, h', some vi', by rw [heq]; rfl⟩
  · exact Or.inr ⟨h', vi', by rw [heq]; rfl, hattrs⟩

omit [HostOrder] in
/-- a link is allocated unless there is no memory, with no presence bits -/
theorem vlanAlloc_cases {h : VlanHeap} (ht : h.Tidy) :
    ((∃ n, h.grants n = false) ∧ vlanAlloc h none = .error (-NLE_NOMEM)) ∨
      ∃ h' vi, vlanAlloc h none = .ok (h', vi) ∧ h'.Tidy ∧ h'.grants = h.grants ∧ vi.viMask = 0 := by
  by_cases hask : h.ask.1 = true
  · right
    have halloc : vlanAlloc h none = .ok ((h.ask.2.alloc (List.replicate 32 VlanMap.zero)).2, { VlanInfo.zero with
        viEgressSize := 32
        viEgressQos := (h.ask.2.alloc (List.replicate 32 VlanMap.zero)).1 }) := by
      rw [vlanAlloc]
      exact if_pos hask
    refine ⟨_, _, halloc, (vlanAlloc_spec ht halloc).1, ?_, rfl⟩
    rw [Heap.alloc]
    split_ifs
    · rfl
    · rfl
  · left
    refine ⟨⟨h.asked, Bool.eq_false_iff.2 hask⟩, ?_⟩
    rw [vlanAlloc]
    exact if_neg hask

theorem fieldsOf_empty {a : VlanAttrs} {flagsMask : BitVec 32} (hnil : leavesOf (fieldsOf a flagsMask) = []) :
    a = VlanAttrs.empty := by
  have hnone : ∀ f ∈ fieldsOf a flagsMask, f.2 = none := fun f hf =>
    Option.map_eq_none_iff.1 (List.filterMap_eq_nil_iff.1 hnil f hf)
  simp only [fieldsOf, List.forall_mem_cons, Option.map_eq_none_iff] at hnone
  obtain ⟨hid, hprotocol, hflags, hingress, hegress, -⟩ := hnone
  exact VlanAttrs.ext hid hprotocol hflags hingress hegress

/-- **A link read from what was put** -/
theorem readVlan_fields {m m' : NlMsg} {a : VlanAttrs} {flagsMask : BitVec 32}
    (hw : Wrote m m' (encLeaves (leavesOf [(32768 + IFLA_INFO_DATA, nestPayload (fieldsOf a flagsMask))])))
    (hshort : ∀ maps ∈ a.egress, 4 + 12 * maps.length ≤ 65535)
    (hlen : 4 + (encLeaves (leavesOf (fieldsOf a flagsMask))).length ≤ 65535) {h : VlanHeap} (ht : h.Tidy) :
    ((∃ n, h.grants n = false) ∧ readVlan h m m' = some (.error (-NLE_NOMEM))) ∨
      ∃ h' vi', readVlan h m m' = some (.ok (h', vi')) ∧ vi'.attrs h' = a := by
  have hsend : Sendable linkInfoPolicy [(32768 + IFLA_INFO_DATA, nestPayload (fieldsOf a flagsMask))] :=
    Sendable.cons (by decide) (sends_nested rfl fun q hq => by
      have hle := nestPayload_length le_rfl q hq
      omega) (Sendable.nil _)
  have hsize := hsend.length_le
  rw [List.length_singleton] at hsize
  have hcount := length_le_enc (leavesOf [(32768 + IFLA_INFO_DATA, nestPayload (fieldsOf a flagsMask))])
  have hwritten := hw.len
  obtain ⟨tb, hparse, hidx⟩ := parse_leaves hsend.wf (hsend.valid IFLA_INFO_MAX) hw.seg (by omega)
    (n := m'.nlmsgLen - m.nlmsgLen + 1) (by omega)
  have hshown : Shown m'.buf tb IFLA_INFO_DATA (nestPayload (fieldsOf a flagsMask)) :=
    shown_of_indexes hidx (List.nodup_singleton _) (t := 32768 + IFLA_INFO_DATA) List.mem_cons_self (by decide)
  have hregion : m'.nlmsgLen - m.nlmsgLen =
      (encLeaves (leavesOf [(32768 + IFLA_INFO_DATA, nestPayload (fieldsOf a flagsMask))])).length := by omega
  rw [← hregion] at hparse
  rw [readVlan]
  rcases vlanAlloc_cases ht with ⟨hrefused, halloc⟩ | ⟨h1, vi, halloc, ht1, hgrants, hmask⟩
  · rw [halloc]
    exact Or.inl ⟨hrefused, rfl⟩
  · rw [halloc]
    simp only [hparse, Option.bind_some, lt_irrefl, if_false]
    rcases hshown.nest with ⟨hnil, hnone⟩ | ⟨pos, type, hpos, hat⟩
    · rw [hnone]
      refine Or.inr ⟨h1, vi, rfl, ?_⟩
      rw [attrs_empty h1 hmask, fieldsOf_empty hnil]
    · rw [hpos]
      dsimp only
      rcases vlanParse_attrs hat hshort hlen ht1 vi with ⟨hrefused, h', vi', heq⟩ | ⟨h', vi', heq, hattrs⟩
      · rw [hgrants] at hrefused
        exact Or.inl ⟨hrefused, by rw [heq]; rfl⟩
      · exact Or.inr ⟨h', vi', by rw [heq]; rfl, hattrs⟩

/-! ## The round trip -/

/-- a link whose maps have mappings -/
theorem roundTrips_iff {h : VlanHeap} {vi : VlanInfo} (hb : Built h vi) {m : NlMsg} (hm : Tidy m) (hroom : Room m vi.dataSize) :
    RoundTrips h vi m ↔ vi.dataSize ≤ 65535 := by
  obtain ⟨m', a, hput, hw, hshort, hlen, hsame, hgone⟩ := vlanPutAttrs_room hb hm hroom
  rw [RoundTrips, hput]
  constructor
  · rintro ⟨-, hread⟩
    by_contra hlong
    have hroomy : roomy.Tidy := fun _ _ => rfl
    have hnomem : readVlan roomy m m' ≠ some (.error (-NLE_NOMEM)) := by
      rcases readVlan_fields hw hshort hlen hroomy with ⟨⟨n, hn⟩, -⟩ | ⟨h', vi', heq, -⟩
      · cases hn
      · rw [heq]
        exact fun hno => by cases hno
    obtain ⟨h', vi', heq, hattrs⟩ := (hread roomy hroomy).resolve_left hnomem
    rcases readVlan_fields hw hshort hlen hroomy with ⟨⟨n, hn⟩, -⟩ | ⟨h'', vi'', heq', hattrs'⟩
    · cases hn
    · rw [heq] at heq'
      cases heq'
      have hegress : (vi.attrs h).egress = none := by
        rw [← hattrs, hattrs']
        exact hgone (not_le.1 hlong)
      rw [VlanInfo.attrs] at hegress
      dsimp only at hegress
      rw [if_pos (long_egress hb.toSource (not_le.1 hlong))] at hegress
      cases hegress
  · intro hdata
    refine ⟨rfl, fun h' ht' => ?_⟩
    rcases readVlan_fields hw hshort hlen ht' with ⟨-, heq⟩ | ⟨h'', vi', heq, hattrs⟩
    · exact Or.inl heq
    · exact Or.inr ⟨h'', vi', heq, hattrs.trans (hsame hdata)⟩

/-- **When a link comes back**: the nest of its data is not longer than an attribute can be. -/
theorem vlan_round_trip_iff {h0 h1 h : VlanHeap} {vi0 vi : VlanInfo} (ht : h0.Tidy) (halloc : vlanAlloc h0 none = .ok (h1, vi0))
    {cs : List Setter} (hrun : callAll h1 vi0 cs = some (h, vi)) {m : NlMsg} (hm : Tidy m) (hroom : Room m vi.dataSize) :
    RoundTrips h vi m ↔ vi.dataSize ≤ 65535 :=
  roundTrips_iff (callAll_built (vlanAlloc_built ht halloc) hrun) hm hroom

end

/-- a message with a header, and much room behind it -/
def largeMsg : NlMsg := ⟨131072, 16, 0, 0, 0, 0, fun _ => 0, false⟩

theorem largeMsg_tidy : Tidy largeMsg := ⟨by decide, by decide, by decide⟩

/-- **A link with both maps** -/
theorem vlan_round_trip_iff_maps : ∃ h1 vi0 h vi, vlanAlloc roomy none = .ok (h1, vi0) ∧
    callAll h1 vi0 [.id 5, .setFlags 1, .ingress 3 4, .egress 2 6, .egress 9 7] = some (h, vi) ∧
    @RoundTrips ⟨false⟩ h vi largeMsg :=
  ⟨_, _, _, _, rfl, rfl, (@vlan_round_trip_iff ⟨false⟩ roomy _ _ _ _ (fun _ _ => rfl) rfl
    [.id 5, .setFlags 1, .ingress 3 4, .egress 2 6, .egress 9 7] rfl largeMsg largeMsg_tidy ⟨by decide, by decide⟩).2 (by decide)⟩

/-! ## A link that does not come back -/

/-- while there is memory, mappings are added, and the array is not much larger than it has to be -/
theorem setEgress_granted {h h' : VlanHeap} {vi vi' : VlanInfo} {ms : List VlanMap} (hm : Maps h vi ms)
    (hgrants : ∀ n, h.grants n = true) (hsize : vi.viEgressSize < 2 ^ 31) {from' : BitVec 32} {to' ret : ℤ}
    (hprio : 0 ≤ to' ∧ to' ≤ VLAN_PRIO_MAX) (hset : rtnlLinkVlanSetEgressMap h vi from' to' = some (h', vi', ret)) :
    ret = 0 ∧ (∀ n, h'.grants n = true) ∧ vi'.viEgressSize ≤ max vi.viEgressSize (2 * vi.viNegress + 1) := by
  have hadd : ∀ {h1 : VlanHeap} {vi1 : VlanInfo} {x : VlanMap}, (∀ n, h1.grants n = true) →
      addEgress h1 vi1 x = some (h', vi', ret) →
        ret = 0 ∧ (∀ n, h'.grants n = true) ∧ vi'.viEgressSize = vi1.viEgressSize := by
    intro h1 vi1 x hgrants1 heq
    obtain ⟨h2, hwrite, heq⟩ := Option.map_eq_some_iff.1 heq
    cases heq
    obtain ⟨p, -, hwrite⟩ := Option.bind_eq_some_iff.1 hwrite
    obtain ⟨xs, -, hwrite⟩ := Option.bind_eq_some_iff.1 hwrite
    split_ifs at hwrite
    cases hwrite
    exact ⟨rfl, hgrants1, rfl⟩
  obtain ⟨xs, hblock, -⟩ := hm.array
  have hnew : (vi.viEgressSize + 1 + vi.viEgressSize / 2) % 2 ^ 32 = vi.viEgressSize + 1 + vi.viEgressSize / 2 := by omega
  rw [rtnlLinkVlanSetEgressMap, if_neg (by omega)] at hset
  dsimp only at hset
  by_cases hfull : vi.viEgressSize ≤ vi.viNegress
  · rw [if_pos hfull, hnew, if_neg (by omega), if_neg (by omega), Heap.resize, hblock, Option.map_some, Option.bind_some] at hset
    simp only [Heap.alloc, hgrants, if_true] at hset
    obtain ⟨hret, hgrants', hsize'⟩ := hadd (fun n => by cases vi.viEgressQos <;> exact hgrants n) hset
    refine ⟨hret, hgrants', ?_⟩
    rw [hsize']
    dsimp only
    omega
  · rw [if_neg hfull] at hset
    obtain ⟨hret, hgrants', hsize'⟩ := hadd hgrants hset
    exact ⟨hret, hgrants', hsize'.le.trans (le_max_left _ _)⟩

/-- so any number of mappings can be added -/
theorem callAll_egress (from' : BitVec 32) (n : ℕ) {h : VlanHeap} {vi : VlanInfo} {ms : List VlanMap} (ht : h.Tidy)
    (hm : Maps h vi ms) (hgrants : ∀ k, h.grants k = true) (hsize : vi.viEgressSize ≤ 2 * vi.viNegress + 32)
    (hn : vi.viNegress + n < 2 ^ 29) :
    ∃ h' vi', callAll h vi (List.replicate n (.egress from' 0)) = some (h', vi') ∧ vi'.viNegress = vi.viNegress + n := by
  induction n generalizing h vi ms with
  | zero => exact ⟨h, vi, rfl, rfl⟩
  | succ n ih =>
    obtain ⟨h1, vi1, ret, hset, ht1, -, hresult⟩ := setEgress_spec ht hm from' 0
    obtain ⟨hret, hgrants1, hsize1⟩ := setEgress_granted hm hgrants (by omega) ⟨le_rfl, by decide⟩ hset
    rcases hresult with ⟨-, hm1, -⟩ | ⟨hno, -⟩
    · have hcount := hm.count
      have hcount1 := hm1.count
      rw [List.length_append, List.length_singleton] at hcount1
      obtain ⟨h', vi', hrun, hnegress⟩ := ih ht1 hm1 hgrants1 (by omega) (by omega)
      refine ⟨h', vi', ?_, by omega⟩
      rw [List.replicate_succ, callAll, Setter.call, hset, Option.map_some, Option.bind_some]
      exact hrun
    · exact absurd hret hno

/-- **A link with very many egress mappings** is written without them. -/
theorem long_egress_dropped : ∃ h1 vi0 h vi, vlanAlloc roomy none = .ok (h1, vi0) ∧
    callAll h1 vi0 (List.replicate 5461 (.egress 0 0)) = some (h, vi) ∧ Room largeMsg vi.dataSize ∧
    ¬ @RoundTrips ⟨false⟩ h vi largeMsg := by
  have ht : roomy.Tidy := fun _ _ => rfl
  have halloc : vlanAlloc roomy none = .ok ((roomy.ask.2.alloc (List.replicate 32 VlanMap.zero)).2, freshVlan) := rfl
  have hb := vlanAlloc_built ht halloc
  have hm := hb.maps fun hno => by cases hno
  obtain ⟨h, vi, hrun, hnegress⟩ := callAll_egress 0 5461 hb.tidy hm (fun _ => rfl) (by decide) (by decide)
  have hnegress : vi.viNegress = 5461 := hnegress
  have hbuilt := callAll_built hb hrun
  have hsplit := dataSize_split hbuilt.toSource
  have hle := setPrios_length_le vi.mapped
  have hroom : Room largeMsg vi.dataSize ∧ ¬ vi.dataSize ≤ 65535 := by
    rw [if_pos (hbuilt.bit (by omega)), hbuilt.egress_length, hnegress] at hsplit
    have hupper : vi.dataSize ≤ 70000 := by
      split_ifs at hsplit
      all_goals omega
    refine ⟨⟨?_, ?_⟩, by omega⟩
    · show 16 + vi.dataSize ≤ 131072
      omega
    · show 16 + vi.dataSize ≤ _
      omega
  exact ⟨_, _, h, vi, halloc, hrun, hroom.1, fun hno =>
    hroom.2 ((@roundTrips_iff ⟨false⟩ h vi hbuilt largeMsg largeMsg_tidy hroom.1).1 hno)⟩

end Libnl.Vlan
