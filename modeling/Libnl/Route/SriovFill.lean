/-
Virtual functions written into a message, and read again (`lib/route/link/sriov.c`).

A VLAN goes out as `IFLA_VF_VLAN` if it is the only one and has the usual protocol, else as a list. The one attribute is read
only if the VLAN is not zero, and the protocol in the list is written in the order of the host but read in that of the network.

- `parsed_of_accepted`: what is known of a VF that was parsed.
- `fillVfs_room`: the entries the VFs leave in the message.
- `carried_refilled`: what the parser finds in them.
- `sriov_round_trip_iff`: the VFs come back iff each keeps its VLAN and its rate, and the list fits a nest.
-/
import Mathlib.Tactic
import Libnl.Message.Fields
import Libnl.Route.Sriov

namespace Libnl.Sriov

open Bytes Msg Attr AttrTree AttrWalk AttrStream Writer Fields Validate
open Addr
open LinkInfo (IFLA_VFINFO_LIST IFLA_MAX rtlnLinkPolicy)

/-! ## Writing -/

def IFLA_VF_VLAN_INFO : ℕ := 1

/-- the bytes of `mac` in `struct ifla_vf_mac` -/
def MAX_ADDR_LEN : ℕ := 32

section
variable [HostOrder]

/-- a VF and a VLAN: `struct ifla_vf_vlan`, and the front of `struct ifla_vf_vlan_info` -/
def vlanBytes (index : BitVec 32) (vinfo : NlVfVlanInfo) : List UInt8 :=
  u32Bytes index.toNat ++ u32Bytes vinfo.vfVlan.toNat ++ u32Bytes vinfo.vfVlanQos.toNat

/-- `sriov_fill_vf_vlan`, which returns nothing: whether there was room is not said -/
def sriovFillVfVlan (msg : NlMsg) (vinfo : NlVfVlanInfo) (index : BitVec 32) : NlMsg × ℤ :=
  ((putAll (-NLE_MSGSIZE) [⟨IFLA_VF_VLAN, vlanBytes index vinfo⟩] msg).1, 0)

/-- `struct ifla_vf_vlan_info`, which ends with two bytes of `junk` -/
def vlanInfoLeaf (junk : ℕ → UInt8) (index : BitVec 32) (vinfo : NlVfVlanInfo) : Leaf :=
  ⟨IFLA_VF_VLAN_INFO, vlanBytes index vinfo ++ u16Bytes vinfo.vfVlanProto.toNat ++ [junk 0, junk 1]⟩

/-- `sriov_fill_vf_vlan_list`; the first put that fails leaves the loop for the end of the nest, as the last one does -/
def sriovFillVfVlanList (junk : ℕ → UInt8) (msg : NlMsg) (vlans : NlVfVlans) (index : BitVec 32) : NlMsg × ℤ :=
  inNest (-NLE_MSGSIZE) (nlaNestStart msg IFLA_VF_VLAN_LIST) fun msg list =>
    ((nlaNestEnd (putAll (-NLE_MSGSIZE) (vlans.infos.map (vlanInfoLeaf junk index)) msg).1 list).1, 0)

/-- the payload of an attribute that the mask has -/
def vfAttr (vf : Vf) (bit : BitVec 32) (payload : List UInt8) : Option (List UInt8) :=
  if vf.has bit then some payload else none

/-- `mac`: the address, with zeros behind it -/
def macBytes (addr : NlAddr) : List UInt8 := (addr.aAddr ++ List.replicate MAX_ADDR_LEN 0).take MAX_ADDR_LEN

/-- a VF and one number -/
def settingBytes (vf : Vf) (v : BitVec 32) : List UInt8 := u32Bytes vf.vfIndex.toNat ++ u32Bytes v.toNat

/-- a rate that is not there is zero -/
def rateOf (vf : Vf) (bit v : BitVec 32) : BitVec 32 := if vf.has bit then v else 0

/-- `struct ifla_vf_guid`, with four bytes of `junk` in it -/
def guidBytes (junk : ℕ → UInt8) (vf : Vf) (guid : BitVec 64) : List UInt8 :=
  u32Bytes vf.vfIndex.toNat ++ [junk 0, junk 1, junk 2, junk 3] ++ u64Bytes guid.toNat

/-- what is put behind the VLANs -/
def settingFields (junk : ℕ → UInt8) (vf : Vf) : FieldList :=
  [(IFLA_VF_TX_RATE, vfAttr vf SRIOV_ATTR_TX_RATE (settingBytes vf vf.vfRate)),
    (IFLA_VF_RATE, if vf.has SRIOV_ATTR_RATE_MIN || vf.has SRIOV_ATTR_RATE_MAX then
      some (u32Bytes vf.vfIndex.toNat ++ u32Bytes (rateOf vf SRIOV_ATTR_RATE_MIN vf.vfMinTxRate).toNat ++
        u32Bytes (rateOf vf SRIOV_ATTR_RATE_MAX vf.vfMaxTxRate).toNat) else none),
    (IFLA_VF_SPOOFCHK, vfAttr vf SRIOV_ATTR_SPOOFCHK (settingBytes vf vf.vfSpoofchk)),
    (IFLA_VF_LINK_STATE, vfAttr vf SRIOV_ATTR_LINK_STATE (settingBytes vf vf.vfLinkstate)),
    (IFLA_VF_RSS_QUERY_EN, vfAttr vf SRIOV_ATTR_RSS_QUERY_EN (settingBytes vf vf.vfRssQueryEn)),
    (IFLA_VF_TRUST, vfAttr vf SRIOV_ATTR_TRUST (settingBytes vf vf.vfTrust)),
    (IFLA_VF_IB_NODE_GUID, vfAttr vf SRIOV_ATTR_IB_NODE_GUID (guidBytes junk vf vf.vfGuidNode)),
    (IFLA_VF_IB_PORT_GUID, vfAttr vf SRIOV_ATTR_IB_PORT_GUID (guidBytes junk vf vf.vfGuidPort))]

/-- `IFLA_VF_MAC`; there is none to be had if the pointer to the address is `NULL` -/
def macFields (vf : Vf) : Option FieldList :=
  if vf.has SRIOV_ATTR_ADDR then
    vf.vfLladdr.map fun addr => [(IFLA_VF_MAC, some (u32Bytes vf.vfIndex.toNat ++ macBytes addr))]
  else some []

/-- whether a list goes out as one VLAN -/
def oneVlan (vlans : NlVfVlans) : Bool :=
  let proto := vlans.vlans[0].vfVlanProto
  decide (vlans.size = 1 ∧ (if proto = 0 then ETH_P_8021Q else proto) = ETH_P_8021Q)

/-- `IFLA_VF_VLAN` or `IFLA_VF_VLAN_LIST`; `none` if the pointer to the list is `NULL` -/
def fillVlans (junk : ℕ → UInt8) (vf : Vf) (msg : NlMsg) : Option (NlMsg × ℤ) :=
  if vf.has SRIOV_ATTR_VLAN then
    vf.vfVlans.map fun vlans =>
      if oneVlan vlans then sriovFillVfVlan msg vlans.vlans[0] vf.vfIndex
      else sriovFillVfVlanList junk msg vlans vf.vfIndex
  else some (msg, 0)

/-- goes on in a nest that was begun, or returns the code -/
def inNestOr (code : ℤ) (r : NlMsg × Option ℕ) (f : NlMsg → ℕ → Option (NlMsg × ℤ)) : Option (NlMsg × ℤ) :=
  match r.2 with
  | none => some (r.1, code)
  | some attr => f r.1 attr

/-- the attributes of an entry; a put that fails goes for its end, with the code of the VLAN list -/
def fillAttrs (junk : ℕ → UInt8) (vfData : Vf) (mac : FieldList) (msg : NlMsg) : Option (NlMsg × ℤ) :=
  let r := putAll (-NLE_MSGSIZE) (leavesOf mac) msg
  if r.2 < 0 then some (r.1, 0)
  else
    (fillVlans junk vfData r.1).map fun r =>
      ((putAll (-NLE_MSGSIZE) (leavesOf (settingFields junk vfData)) r.1).1, r.2)

/-- `sriov_fill_vfinfo`; `none` if it follows a `NULL` pointer -/
def sriovFillVfinfo (junk : ℕ → UInt8) (msg : NlMsg) (vfData : Vf) : Option (NlMsg × ℤ) :=
  if vfData.has SRIOV_ATTR_INDEX then
    inNestOr (-NLE_MSGSIZE) (nlaNestStart msg IFLA_VF_INFO) fun msg list =>
      (macFields vfData).bind fun mac =>
        (fillAttrs junk vfData mac msg).map fun r => ((nlaNestEnd r.1 list).1, r.2)
  else some (msg, -NLE_MISSING_ATTR)

/-- the loop of `rtnl_link_sriov_fill_vflist`, with `err` as it is -/
def fillVfs (junk : ℕ → UInt8) : List Vf → ℤ → NlMsg → Option (NlMsg × ℤ)
  | [], err, msg => some (msg, err)
  | vf :: vfs, err, msg =>
    if vf.has SRIOV_ATTR_INDEX then
      (sriovFillVfinfo junk msg vf).bind fun r => if r.2 < 0 then some r else fillVfs junk vfs r.2 r.1
    else fillVfs junk vfs err msg

/-- `rtnl_link_sriov_fill_vflist`; the list is `none` if the link has none. The code is 1 if no VF is written. -/
def rtnlLinkSriovFillVflist (junk : ℕ → UInt8) (msg : NlMsg) (vfList : Option (List Vf)) : Option (NlMsg × ℤ) :=
  match vfList with
  | none => some (msg, 0)
  | some vfs =>
    inNestOr (-NLE_MSGSIZE) (nlaNestStart msg IFLA_VFINFO_LIST) fun msg data =>
      (fillVfs junk vfs 1 msg).map fun r => ((nlaNestEnd r.1 data).1, r.2)

end

/-! ## VFs that were parsed -/

/-- what the parser makes sure of -/
structure Parsed (vf : Vf) : Prop where
  index : vf.has SRIOV_ATTR_INDEX = vf.has SRIOV_ATTR_ADDR
  addr : vf.has SRIOV_ATTR_ADDR = true → ∃ bs : List UInt8, bs.length = 6 ∧ vf.vfLladdr = some (nlAddrBuild Family.AF_LLC bs)
  vlans : ∀ v ∈ vf.vfVlans, Stored v
  spoofchk : vf.has SRIOV_ATTR_SPOOFCHK = true → flag vf.vfSpoofchk = some vf.vfSpoofchk
  rateMax : vf.has SRIOV_ATTR_RATE_MAX = true → nonzero vf.vfMaxTxRate = some vf.vfMaxTxRate
  rateMin : vf.has SRIOV_ATTR_RATE_MIN = true → nonzero vf.vfMinTxRate = some vf.vfMinTxRate
  rssQueryEn : vf.has SRIOV_ATTR_RSS_QUERY_EN = true → flag vf.vfRssQueryEn = some vf.vfRssQueryEn
  trust : vf.has SRIOV_ATTR_TRUST = true → flag vf.vfTrust = some vf.vfTrust
  stats : vf.has SRIOV_ATTR_STATS = false
  nodeGuid : vf.has SRIOV_ATTR_IB_NODE_GUID = false
  portGuid : vf.has SRIOV_ATTR_IB_PORT_GUID = false

/-- what was stored once is stored again -/
theorem flag_again {v w : BitVec 32} (h : flag v = some w) : flag w = some w := by
  unfold flag at h
  split_ifs at h
  · cases h; rfl
  · cases h; rfl

theorem nonzero_again {v w : BitVec 32} (h : nonzero v = some w) : nonzero w = some w := by
  unfold nonzero at h
  split_ifs at h with hv
  cases h
  exact if_pos hv

section
variable [HostOrder] (buf : Mem) (t : Index) {stale : Option NlVfVlans}

theorem carried_again {type off : ℕ} {value : BitVec 32 → Option (BitVec 32)}
    (hvalue : ∀ v w, value v = some w → value w = some w) (h : (carriedSetting buf t type value off).isSome = true) :
    value ((carriedSetting buf t type value off).getD 0) = some ((carriedSetting buf t type value off).getD 0) := by
  obtain ⟨w, hw⟩ := Option.isSome_iff_exists.1 h
  rw [hw]
  obtain ⟨nla, -, hv⟩ := Option.bind_eq_some_iff.1 hw
  exact hvalue _ w hv

theorem vfOf_parsed (hstale : ∀ v ∈ stale, Stored v) : Parsed (vfOf buf t stale) where
  index := by
    rw [vfOf_has buf t stale 0 rfl, vfOf_has buf t stale 1 rfl]
    unfold carried
    rw [Option.isSome_map, Option.isSome_map]
  addr := by
    rw [vfOf_has buf t stale 1 rfl]
    intro h
    obtain ⟨nla, hnla⟩ := Option.isSome_iff_exists.1 h
    obtain ⟨pos, -, haddr⟩ := Option.map_eq_some_iff.1 hnla
    exact ⟨_, readBytes_length buf (nlaData pos + 4) 6, hnla.trans (congrArg some haddr.symm)⟩
  vlans := by
    intro v hv
    have hfield : (vfOf buf t stale).vfVlans = if setsVlans buf t then (ownVlans buf t).or stale else none := rfl
    rw [hfield] at hv
    split_ifs at hv
    · exact or_stored buf hstale v hv
    · cases hv
  spoofchk := by
    rw [vfOf_has buf t stale 4 rfl]
    exact carried_again buf t fun _ _ => flag_again
  rateMax := by
    rw [vfOf_has buf t stale 6 rfl]
    exact carried_again buf t fun _ _ => nonzero_again
  rateMin := by
    rw [vfOf_has buf t stale 7 rfl]
    exact carried_again buf t fun _ _ => nonzero_again
  rssQueryEn := by
    rw [vfOf_has buf t stale 8 rfl]
    exact carried_again buf t fun _ _ => flag_again
  trust := by
    rw [vfOf_has buf t stale 9 rfl]
    exact carried_again buf t fun _ _ => flag_again
  stats := vfOf_has_stats buf t stale
  nodeGuid := vfOf_has_other buf t stale (by decide)
  portGuid := vfOf_has_other buf t stale (by decide)

/-- **All VFs of a list that is accepted** -/
theorem vfsOf_parsed (entries : List ℕ) {stale : Option NlVfVlans} (hstale : ∀ v ∈ stale, Stored v) :
    ∀ vf ∈ vfsOf buf stale entries, Parsed vf := by
  induction entries generalizing stale with
  | nil => exact fun vf h => absurd h List.not_mem_nil
  | cons nla rest ih =>
    intro vf hvf
    rcases List.mem_cons.1 hvf with rfl | hvf
    · exact vfOf_parsed buf _ hstale
    · exact ih (or_stored buf hstale) vf hvf

theorem parsed_of_accepted {attr : ℕ} (hok : (rtnlLinkSriovParseVflist buf attr).1 = 0) :
    ∀ vf ∈ (rtnlLinkSriovParseVflist buf attr).2.vfList, Parsed vf := by
  rw [parse_vfs buf hok]
  exact vfsOf_parsed buf _ fun _ h => by cases h

end

/-! ## What is written -/

section
variable [HostOrder] (junk : ℕ → UInt8) (vf : Vf)

/-- the VLAN list that is looked at -/
def usedVlans : Option NlVfVlans := if vf.has SRIOV_ATTR_VLAN then vf.vfVlans else none

def vlanFields : FieldList :=
  [(IFLA_VF_VLAN, (usedVlans vf).bind fun v => if oneVlan v then some (vlanBytes vf.vfIndex v.vlans[0]) else none),
    (32768 + IFLA_VF_VLAN_LIST, (usedVlans vf).bind fun v =>
      if oneVlan v then none else some (encLeaves (v.infos.map (vlanInfoLeaf junk vf.vfIndex))))]

/-- the attributes of an entry -/
def vfFields : FieldList :=
  (IFLA_VF_MAC, vf.vfLladdr.map fun addr => u32Bytes vf.vfIndex.toNat ++ macBytes addr) ::
    (vlanFields junk vf ++ settingFields junk vf)

/-- the entry -/
def vfLeaf : Leaf := ⟨32768 + IFLA_VF_INFO, encLeaves (leavesOf (vfFields junk vf))⟩

omit [HostOrder] in
theorem macBytes_length (addr : NlAddr) : (macBytes addr).length = 32 := by
  rw [macBytes, List.length_take, List.length_append, List.length_replicate]
  unfold MAX_ADDR_LEN
  omega

theorem vlanBytes_length (index : BitVec 32) (vinfo : NlVfVlanInfo) : (vlanBytes index vinfo).length = 12 := by
  simp [vlanBytes]

theorem vlanInfoLeaf_length (index : BitVec 32) (vinfo : NlVfVlanInfo) : (vlanInfoLeaf junk index vinfo).payload.length = 16 := by
  simp [vlanInfoLeaf, vlanBytes_length]

theorem settingBytes_length (v : BitVec 32) : (settingBytes vf v).length = 8 := by simp [settingBytes]

theorem guidBytes_length (guid : BitVec 64) : (guidBytes junk vf guid).length = 16 := by simp [guidBytes]

/-- a list of one VLAN, as it stands in its nest -/
theorem oneInfo_length (index : BitVec 32) (info : NlVfVlanInfo) :
    (encLeaves ((single info).infos.map (vlanInfoLeaf junk index))).length = 20 := by
  rw [single_infos, List.map_singleton, encLeaves_cons, encLeaves_nil, List.append_nil, encLeaf_length, vlanInfoLeaf_length]
  rfl

omit [HostOrder] in
theorem mem_vfAttr {bit : BitVec 32} {payload q : List UInt8} (h : q ∈ vfAttr vf bit payload) : q = payload := by
  unfold vfAttr at h
  split_ifs at h
  · exact (Option.some.inj h).symm
  · cases h

theorem settingFields_sendable : Sendable sriovInfoPolicy (settingFields junk vf) := by
  have hset : ∀ bit v, ∀ q ∈ vfAttr vf bit (settingBytes vf v), q.length = IFLA_VF_SETTING_SIZE := fun bit v q hq => by
    rw [mem_vfAttr vf hq, settingBytes_length]
    rfl
  have hguid : ∀ bit v, ∀ q ∈ vfAttr vf bit (guidBytes junk vf v), q.length = IFLA_VF_GUID_SIZE := fun bit v q hq => by
    rw [mem_vfAttr vf hq, guidBytes_length]
    rfl
  refine Sendable.cons (by decide) (sends_struct rfl (by decide) (hset _ _)) (Sendable.cons (by decide)
    (sends_struct rfl (by decide) fun q hq => ?_) (Sendable.cons (by decide) (sends_struct rfl (by decide) (hset _ _))
    (Sendable.cons (by decide) (sends_struct rfl (by decide) (hset _ _)) (Sendable.cons (by decide)
    (sends_struct rfl (by decide) (hset _ _)) (Sendable.cons (by decide) (sends_struct rfl (by decide) (hset _ _))
    (Sendable.cons (by decide) (sends_struct rfl (by decide) (hguid _ _)) (Sendable.cons (by decide)
    (sends_struct rfl (by decide) (hguid _ _)) (Sendable.nil _))))))))
  split_ifs at hq
  · cases hq
    simp [IFLA_VF_RATE_SIZE]
  · cases hq

variable {vf} (hvf : Parsed vf)
include hvf

omit [HostOrder] in
theorem usedVlans_stored : ∀ v ∈ usedVlans vf, Stored v := by
  intro v hv
  unfold usedVlans at hv
  split_ifs at hv
  · exact hvf.vlans v hv
  · cases hv

/-- no attribute of an entry is long -/
theorem vfFields_payload : ∀ f ∈ vfFields junk vf, ∀ p ∈ f.2, p.length ≤ 36 := by
  have hset : ∀ bit v, ∀ q ∈ vfAttr vf bit (settingBytes vf v), q.length ≤ 36 := fun bit v q hq => by
    rw [mem_vfAttr vf hq, settingBytes_length]
    omega
  have hguid : ∀ bit v, ∀ q ∈ vfAttr vf bit (guidBytes junk vf v), q.length ≤ 36 := fun bit v q hq => by
    rw [mem_vfAttr vf hq, guidBytes_length]
    omega
  simp only [vfFields, vlanFields, settingFields, List.cons_append, List.nil_append, List.forall_mem_cons]
  refine ⟨fun q hq => ?_, fun q hq => ?_, fun q hq => ?_, hset _ _, fun q hq => ?_, hset _ _, hset _ _, hset _ _, hset _ _,
    hguid _ _, hguid _ _, fun _ h => absurd h List.not_mem_nil⟩
  · obtain ⟨addr, -, rfl⟩ := Option.map_eq_some_iff.1 hq
    rw [List.length_append, u32Bytes_length, macBytes_length]
  · obtain ⟨v, -, hq⟩ := Option.bind_eq_some_iff.1 hq
    split_ifs at hq
    cases hq
    rw [vlanBytes_length]
    omega
  · obtain ⟨v, hv, hq⟩ := Option.bind_eq_some_iff.1 hq
    obtain ⟨info, rfl, -⟩ := usedVlans_stored hvf v hv
    split_ifs at hq
    cases hq
    rw [oneInfo_length]
    omega
  · split_ifs at hq
    · cases hq
      simp
    · cases hq

theorem vfFields_length : 4 + (encLeaves (leavesOf (vfFields junk vf))).length ≤ 65535 := by
  have hle := fields_length_le (vfFields_payload junk hvf)
  have hnum : (vfFields junk vf).length = 11 := rfl
  rw [hnum] at hle
  unfold align4 at hle
  omega

theorem vfFields_sendable : Sendable sriovInfoPolicy (vfFields junk vf) := by
  refine Sendable.cons (by decide) (sends_struct (n := IFLA_VF_MAC_SIZE) rfl (by decide) fun q hq => ?_)
    (Sendable.cons (by decide) (sends_struct (n := IFLA_VF_VLAN_SIZE) rfl (by decide) fun q hq => ?_)
      (Sendable.cons (by decide) (sends_nested rfl fun q hq => ?_) (settingFields_sendable junk vf)))
  · obtain ⟨addr, -, rfl⟩ := Option.map_eq_some_iff.1 hq
    rw [List.length_append, u32Bytes_length, macBytes_length]
    rfl
  · obtain ⟨v, -, hq⟩ := Option.bind_eq_some_iff.1 hq
    split_ifs at hq
    cases hq
    rw [vlanBytes_length]
    rfl
  · obtain ⟨v, hv, hq⟩ := Option.bind_eq_some_iff.1 hq
    obtain ⟨info, rfl, -⟩ := usedVlans_stored hvf v hv
    split_ifs at hq
    cases hq
    rw [oneInfo_length]
    decide

omit hvf in
theorem fillVlan_room {m : NlMsg} (hm : Tidy m) (index : BitVec 32) (info : NlVfVlanInfo)
    (hroom : Room m (encLeaves [⟨IFLA_VF_VLAN, vlanBytes index info⟩]).length) :
    ∃ m', sriovFillVfVlan m info index = (m', 0) ∧ Wrote m m' (encLeaves [⟨IFLA_VF_VLAN, vlanBytes index info⟩]) := by
  have hle : 4 + (vlanBytes index info).length ≤ 65535 := by
    rw [vlanBytes_length]
    omega
  have hwf : ∀ l ∈ [Leaf.mk IFLA_VF_VLAN (vlanBytes index info)], l.WF := by
    intro l hl
    rw [List.mem_singleton.1 hl]
    exact ⟨(by decide : IFLA_VF_VLAN < 65536), hle⟩
  obtain ⟨m', hput, hw⟩ := putAll_room (-NLE_MSGSIZE) hwf hm hroom
  exact ⟨m', by rw [sriovFillVfVlan, hput], hw⟩

omit hvf in
/-- while nothing fails, it is a nest with the VLANs in it -/
theorem vlanList_of_put {m m' : NlMsg} {vlans : NlVfVlans} {index : BitVec 32}
    (h : putNest (-NLE_MSGSIZE) IFLA_VF_VLAN_LIST (vlans.infos.map (vlanInfoLeaf junk index)) m = (m', 0)) :
    sriovFillVfVlanList junk m vlans index = (m', 0) := by
  have hne : (-NLE_MSGSIZE : ℤ) ≠ 0 := by decide
  unfold putNest at h
  unfold sriovFillVfVlanList
  generalize nlaNestStart m IFLA_VF_VLAN_LIST = start at h ⊢
  obtain ⟨m1, list⟩ := start
  cases list with
  | none => exact absurd (congrArg Prod.snd h) hne
  | some list =>
    rw [inNest_some, thenPut] at h
    split_ifs at h
    · exact absurd (congrArg Prod.snd h) hne
    · exact h

omit hvf in
theorem fillVlanList_room {m : NlMsg} (hm : Tidy m) (index : BitVec 32) (info : NlVfVlanInfo)
    (hroom : Room m (encLeaves [⟨32768 + IFLA_VF_VLAN_LIST,
      encLeaves ((single info).infos.map (vlanInfoLeaf junk index))⟩]).length) :
    ∃ m', sriovFillVfVlanList junk m (single info) index = (m', 0) ∧ Wrote m m' (encLeaves [⟨32768 + IFLA_VF_VLAN_LIST,
      encLeaves ((single info).infos.map (vlanInfoLeaf junk index))⟩]) := by
  have hlen := oneInfo_length junk index info
  rw [encLeaves_cons, encLeaves_nil, List.append_nil, encLeaf_length] at hroom
  generalize hls : (single info).infos.map (vlanInfoLeaf junk index) = ls at hlen hroom ⊢
  rw [hlen] at hroom
  have hroom24 : Room m (4 + (encLeaves ls).length) := room_mono hroom (by
    rw [hlen]
    unfold align4
    omega)
  have hwf : ∀ l ∈ ls, l.WF := by
    intro l hl
    rw [← hls, single_infos, List.map_singleton, List.mem_singleton] at hl
    subst hl
    have hle : 4 + (vlanInfoLeaf junk index info).payload.length ≤ 65535 := by
      rw [vlanInfoLeaf_length]
      omega
    exact ⟨(by decide : IFLA_VF_VLAN_INFO < 65536), hle⟩
  have hne : ls ≠ [] := by
    intro hnil
    rw [hnil, encLeaves_nil] at hlen
    exact absurd hlen (by decide)
  obtain ⟨m', hput, hw⟩ := putNest_room (-NLE_MSGSIZE) (t := IFLA_VF_VLAN_LIST) (by decide) hne hwf (by omega) hm hroom24
  rw [← hls] at hput
  exact ⟨m', vlanList_of_put junk hput, hw⟩

/-- the VLANs, with room -/
theorem fillVlans_room (hnull : vf.has SRIOV_ATTR_VLAN = true → vf.vfVlans ≠ none) {m : NlMsg} (hm : Tidy m)
    (hroom : Room m (encLeaves (leavesOf (vlanFields junk vf))).length) :
    ∃ m', fillVlans junk vf m = some (m', 0) ∧ Wrote m m' (encLeaves (leavesOf (vlanFields junk vf))) := by
  by_cases hhas : vf.has SRIOV_ATTR_VLAN = true
  · obtain ⟨v, hv⟩ := Option.ne_none_iff_exists'.1 (hnull hhas)
    obtain ⟨info, rfl, -⟩ := hvf.vlans v hv
    have hused : usedVlans vf = some (single info) := by rw [usedVlans, if_pos hhas, hv]
    rw [fillVlans, if_pos hhas, hv, Option.map_some]
    by_cases hone : oneVlan (single info) = true
    · have hleaves : leavesOf (vlanFields junk vf) = [⟨IFLA_VF_VLAN, vlanBytes vf.vfIndex info⟩] := by
        rw [vlanFields, hused, Option.bind_some, Option.bind_some, if_pos hone, if_pos hone]
        rfl
      rw [hleaves] at hroom ⊢
      obtain ⟨m', hfill, hw⟩ := fillVlan_room hm vf.vfIndex info hroom
      refine ⟨m', ?_, hw⟩
      rw [if_pos hone]
      exact congrArg some hfill
    · have hleaves : leavesOf (vlanFields junk vf) = [⟨32768 + IFLA_VF_VLAN_LIST,
          encLeaves ((single info).infos.map (vlanInfoLeaf junk vf.vfIndex))⟩] := by
        rw [vlanFields, hused, Option.bind_some, Option.bind_some, if_neg hone, if_neg hone]
        rfl
      rw [hleaves] at hroom ⊢
      obtain ⟨m', hfill, hw⟩ := fillVlanList_room junk hm vf.vfIndex info hroom
      rw [if_neg hone, hfill]
      exact ⟨m', rfl, hw⟩
  · have hused : usedVlans vf = none := by rw [usedVlans, if_neg hhas]
    have hleaves : leavesOf (vlanFields junk vf) = [] := by
      rw [vlanFields, hused]
      rfl
    rw [hleaves, fillVlans, if_neg hhas]
    exact ⟨m, rfl, Wrote.nil hm⟩

/-- the address in front, with room -/
theorem mac_room (haddr : vf.has SRIOV_ATTR_ADDR = true) {m : NlMsg} (hm : Tidy m)
    (hroom : Room m (encLeaves (leavesOf (vfFields junk vf))).length) :
    ∃ mac m', macFields vf = some mac ∧ vfFields junk vf = mac ++ (vlanFields junk vf ++ settingFields junk vf) ∧
      putAll (-NLE_MSGSIZE) (leavesOf mac) m = (m', 0) ∧ Wrote m m' (encLeaves (leavesOf mac)) := by
  obtain ⟨bs, -, hlladdr⟩ := hvf.addr haddr
  refine ⟨[(IFLA_VF_MAC, vf.vfLladdr.map fun addr => u32Bytes vf.vfIndex.toNat ++ macBytes addr)], ?_⟩
  generalize hmacs : [(IFLA_VF_MAC, vf.vfLladdr.map fun addr => u32Bytes vf.vfIndex.toNat ++ macBytes addr)] = mac
  have hfields : vfFields junk vf = mac ++ (vlanFields junk vf ++ settingFields junk vf) := by rw [← hmacs]; rfl
  have hwf : ∀ l ∈ leavesOf mac, l.WF :=
    ((vfFields_sendable junk hvf).sub fun f hf => by rw [hfields]; exact List.mem_append_left _ hf).wf
  rw [hfields, leavesOf_append, encLeaves_append, List.length_append] at hroom
  obtain ⟨m', hput, hw⟩ := putAll_room (-NLE_MSGSIZE) hwf hm (room_mono hroom (Nat.le_add_right _ _))
  refine ⟨m', ?_, hfields, hput, hw⟩
  rw [← hmacs, macFields, if_pos haddr, hlladdr]
  rfl

/-- the attributes of an entry, with room -/
theorem fillAttrs_room (haddr : vf.has SRIOV_ATTR_ADDR = true) (hnull : vf.has SRIOV_ATTR_VLAN = true → vf.vfVlans ≠ none)
    {m : NlMsg} (hm : Tidy m) (hroom : Room m (encLeaves (leavesOf (vfFields junk vf))).length) :
    ∃ mac m', macFields vf = some mac ∧ fillAttrs junk vf mac m = some (m', 0) ∧
      Wrote m m' (encLeaves (leavesOf (vfFields junk vf))) := by
  obtain ⟨mac, m1, hmac, hfields, hput1, hw1⟩ := mac_room junk hvf haddr hm hroom
  rw [hfields] at hroom ⊢
  rw [leavesOf_append, leavesOf_append, encLeaves_append, encLeaves_append, List.length_append, List.length_append] at hroom
  rw [leavesOf_append, leavesOf_append, encLeaves_append, encLeaves_append]
  have hroom1 := room_after hw1 hroom
  obtain ⟨m2, hfill, hw2⟩ := fillVlans_room junk hvf hnull hw1.tidy (room_mono hroom1 (Nat.le_add_right _ _))
  obtain ⟨m3, hput3, hw3⟩ := putAll_room (-NLE_MSGSIZE) (settingFields_sendable junk vf).wf hw2.tidy (room_after hw2 hroom1)
  refine ⟨mac, m3, hmac, ?_, hw1.append (hw2.append hw3)⟩
  rw [fillAttrs, hput1]
  simp only [lt_irrefl, ↓reduceIte, hfill, Option.map_some, hput3]

omit hvf in
/-- the nest of an entry is begun -/
theorem start_room {m : NlMsg} (hm : Tidy m) (hroom : Room m (encLeaves [vfLeaf junk vf]).length) :
    ∃ m1, nlaNestStart m IFLA_VF_INFO = (m1, some m.nlmsgLen) ∧ Wrote m m1 (nlaHeader 4 (32768 + IFLA_VF_INFO)) ∧
      Room m1 (encLeaves (leavesOf (vfFields junk vf))).length := by
  have hle := le_align4 (4 + (encLeaves (leavesOf (vfFields junk vf))).length)
  have hroom' : Room m (4 + (encLeaves (leavesOf (vfFields junk vf))).length) := room_mono hroom (by
    rw [encLeaves_cons, encLeaves_nil, List.append_nil, encLeaf_length]
    exact hle)
  obtain ⟨m1, hstart, hw1⟩ := nlaNestStart_room hm IFLA_VF_INFO (by decide) (room_mono hroom' (Nat.le_add_right 4 _))
  exact ⟨m1, hstart, hw1, room_after hw1 (by rw [nlaHeader_length]; exact hroom')⟩

/-- **One VF**, with room -/
theorem fillVfinfo_room (hindex : vf.has SRIOV_ATTR_INDEX = true) (hnull : vf.has SRIOV_ATTR_VLAN = true → vf.vfVlans ≠ none)
    {m : NlMsg} (hm : Tidy m) (hroom : Room m (encLeaves [vfLeaf junk vf]).length) :
    ∃ m', sriovFillVfinfo junk m vf = some (m', 0) ∧ Wrote m m' (encLeaves [vfLeaf junk vf]) := by
  have haddr : vf.has SRIOV_ATTR_ADDR = true := hvf.index ▸ hindex
  obtain ⟨m1, hstart, hw1, hroom1⟩ := start_room junk hm hroom
  obtain ⟨mac, m2, hmac, hfill, hw2⟩ := fillAttrs_room junk hvf haddr hnull hw1.tidy hroom1
  have hne : encLeaves (leavesOf (vfFields junk vf)) ≠ [] := by
    obtain ⟨bs, -, hlladdr⟩ := hvf.addr haddr
    refine encLeaves_ne_nil ?_
    rw [vfFields, hlladdr, leavesOf_cons]
    exact List.cons_ne_nil _ _
  obtain ⟨m3, hend, hw3⟩ := nest_end (t := IFLA_VF_INFO) hw1 hw2 hne (vfFields_length junk hvf)
  refine ⟨m3, ?_, hw3⟩
  rw [sriovFillVfinfo, if_pos hindex, hstart]
  simp only [inNestOr, hmac, Option.bind_some, hfill, Option.map_some, hend]

/-- a VF whose list is `NULL` -/
theorem fillVfinfo_null (hindex : vf.has SRIOV_ATTR_INDEX = true) (hhas : vf.has SRIOV_ATTR_VLAN = true)
    (hnull : vf.vfVlans = none) {m : NlMsg} (hm : Tidy m) (hroom : Room m (encLeaves [vfLeaf junk vf]).length) :
    sriovFillVfinfo junk m vf = none := by
  have haddr : vf.has SRIOV_ATTR_ADDR = true := hvf.index ▸ hindex
  obtain ⟨m1, hstart, hw1, hroom1⟩ := start_room junk hm hroom
  obtain ⟨mac, m2, hmac, -, hput, -⟩ := mac_room junk hvf haddr hw1.tidy hroom1
  have hfill : fillAttrs junk vf mac m1 = none := by
    rw [fillAttrs, hput]
    simp only [lt_irrefl, ↓reduceIte, fillVlans, hhas, hnull, Option.map_none]
  rw [sriovFillVfinfo, if_pos hindex, hstart]
  simp only [inNestOr, hmac, Option.bind_some, hfill, Option.map_none]

end

/-- a VF that can be written -/
structure Writable (vf : Vf) : Prop where
  parsed : Parsed vf
  index : vf.has SRIOV_ATTR_INDEX = true
  vlans : vf.has SRIOV_ATTR_VLAN = true → vf.vfVlans ≠ none

section
variable [HostOrder] (junk : ℕ → UInt8)

/-- **All VFs**, with room -/
theorem fillVfs_room {vfs : List Vf} (hvfs : ∀ vf ∈ vfs, Writable vf) (err : ℤ) {m : NlMsg} (hm : Tidy m)
    (hroom : Room m (encLeaves (vfs.map (vfLeaf junk))).length) :
    ∃ m', fillVfs junk vfs err m = some (m', if vfs = [] then err else 0) ∧
      Wrote m m' (encLeaves (vfs.map (vfLeaf junk))) := by
  induction vfs generalizing m err with
  | nil => exact ⟨m, rfl, Wrote.nil hm⟩
  | cons vf vfs ih =>
    obtain ⟨hvf, hrest⟩ := List.forall_mem_cons.1 hvfs
    have hcons : (vf :: vfs).map (vfLeaf junk) = [vfLeaf junk vf] ++ vfs.map (vfLeaf junk) := rfl
    rw [hcons, encLeaves_append, List.length_append] at hroom
    rw [hcons, encLeaves_append]
    obtain ⟨m1, hfill, hw1⟩ := fillVfinfo_room junk hvf.parsed hvf.index hvf.vlans hm (room_mono hroom (Nat.le_add_right _ _))
    obtain ⟨m2, hfills, hw2⟩ := ih hrest 0 hw1.tidy (room_after hw1 hroom)
    rw [ite_self] at hfills
    refine ⟨m2, ?_, hw1.append hw2⟩
    rw [fillVfs, if_pos hvf.index, hfill, Option.bind_some, if_neg (lt_irrefl 0), hfills, if_neg (List.cons_ne_nil vf vfs)]

/-- a `NULL` list is followed wherever it stands -/
theorem fillVfs_null {vfs : List Vf} (hvfs : ∀ vf ∈ vfs, Parsed vf ∧ vf.has SRIOV_ATTR_INDEX = true)
    (hnull : ¬ ∀ vf ∈ vfs, Writable vf) (err : ℤ) {m : NlMsg} (hm : Tidy m)
    (hroom : Room m (encLeaves (vfs.map (vfLeaf junk))).length) : fillVfs junk vfs err m = none := by
  induction vfs generalizing m err with
  | nil => exact absurd (fun _ h => absurd h List.not_mem_nil) hnull
  | cons vf vfs ih =>
    obtain ⟨⟨hvf, hindex⟩, hrest⟩ := List.forall_mem_cons.1 hvfs
    have hcons : (vf :: vfs).map (vfLeaf junk) = [vfLeaf junk vf] ++ vfs.map (vfLeaf junk) := rfl
    rw [hcons, encLeaves_append, List.length_append] at hroom
    have hroom1 := room_mono hroom (Nat.le_add_right _ _)
    rw [fillVfs, if_pos hindex]
    by_cases hvlans : vf.has SRIOV_ATTR_VLAN = true → vf.vfVlans ≠ none
    · obtain ⟨m1, hfill, hw1⟩ := fillVfinfo_room junk hvf hindex hvlans hm hroom1
      have hnull' : ¬ ∀ vf ∈ vfs, Writable vf := fun h => hnull (List.forall_mem_cons.2 ⟨⟨hvf, hindex, hvlans⟩, h⟩)
      rw [hfill, Option.bind_some, if_neg (lt_irrefl 0)]
      exact ih hrest hnull' 0 hw1.tidy (room_after hw1 hroom)
    · push Not at hvlans
      rw [fillVfinfo_null junk hvf hindex hvlans.1 hvlans.2 hm hroom1]
      rfl

end

/-! ## Reading it again -/

section
variable [HostOrder]

/-- what `ntohs` makes of a number in the order of the host -/
def ntohs (v : BitVec 16) : BitVec 16 :=
  if HostOrder.big then v else v.extractLsb' 0 8 ++ v.extractLsb' 8 8

omit [HostOrder] in
theorem low_byte (v : BitVec 16) : (UInt8.ofNat v.toNat).toBitVec = v.extractLsb' 0 8 := by
  apply BitVec.eq_of_toNat_eq
  simp [BitVec.extractLsb'_toNat]

omit [HostOrder] in
theorem high_byte (v : BitVec 16) : (UInt8.ofNat (v.toNat / 256)).toBitVec = v.extractLsb' 8 8 := by
  apply BitVec.eq_of_toNat_eq
  simp [BitVec.extractLsb'_toNat, Nat.shiftRight_eq_div_pow]

theorem getBe16_host {buf : Mem} {p : ℕ} {v : BitVec 16} (h : Seg buf p (u16Bytes v.toNat)) : getBe16 buf p = ntohs v := by
  have h0 := h 0 (by simp)
  have h1 := h 1 (by simp)
  unfold u16Bytes at h0 h1
  unfold getBe16 ntohs
  cases ho : (HostOrder.big : Bool) with
  | true =>
    simp only [ho, ite_true, List.getElem_cons_zero, add_zero, List.getElem_cons_succ] at h0 h1 ⊢
    rw [h0, h1, low_byte, high_byte]
    exact BitVec.extractLsb'_append_extractLsb'
  | false =>
    simp only [ho, Bool.false_eq_true, ite_false, List.getElem_cons_zero, add_zero, List.getElem_cons_succ] at h0 h1 ⊢
    rw [h0, h1, low_byte, high_byte]

theorem ntohs_ne_zero {v : BitVec 16} (h : v ≠ 0) : ntohs v ≠ 0 := by
  unfold ntohs
  split_ifs
  · exact h
  · intro hzero
    have hbit : ∀ j, (v.extractLsb' 0 8 ++ v.extractLsb' 8 8 : BitVec 16).getLsbD j = false := fun j => by
      rw [hzero]
      exact BitVec.getLsbD_zero
    refine h (BitVec.eq_of_getLsbD_eq fun i hi => ?_)
    rw [BitVec.ofNat_eq_ofNat, BitVec.getLsbD_zero]
    by_cases hlow : i < 8
    · have hi8 := hbit (i + 8)
      rw [BitVec.getLsbD_append] at hi8
      simpa [hlow] using hi8
    · have hi8 := hbit (i - 8)
      rw [BitVec.getLsbD_append, if_pos (by omega)] at hi8
      have hadd : 8 + (i - 8) = i := by omega
      have hsub : i - 8 < 8 := by omega
      simpa [hadd, hsub] using hi8

/-- a number in an attribute, behind others -/
theorem at_u32At {buf : Mem} {pos type : ℕ} {v : BitVec 32} (as bs : List UInt8)
    (h : At buf pos ⟨type, as ++ (u32Bytes v.toNat ++ bs)⟩) : u32At buf pos as.length = v := by
  have hseg := (seg_append.1 (seg_append.1 h.data).2).1
  rw [u32At, hseg.getU32, Nat.mod_eq_of_lt v.isLt, BitVec.ofNat_toNat, BitVec.setWidth_eq]

/-- the attribute of a setting -/
theorem shown_setting {buf : Mem} {tb : Index} {t : ℕ} {vf : Vf} {bit v : BitVec 32}
    (h : Shown buf tb t (vfAttr vf bit (settingBytes vf v))) (value : BitVec 32 → Option (BitVec 32)) :
    carriedSetting buf tb t value 4 = if vf.has bit then value v else none := by
  unfold vfAttr at h
  unfold carriedSetting
  split_ifs at h ⊢
  · obtain ⟨pos, type, hpos, hat⟩ := h
    have hv : u32At buf pos 4 = v := by
      have hbytes : settingBytes vf v = u32Bytes vf.vfIndex.toNat ++ (u32Bytes v.toNat ++ []) := by
        rw [settingBytes, List.append_nil]
      rw [hbytes] at hat
      have := at_u32At _ _ hat
      rwa [u32Bytes_length] at this
    rw [hpos, Option.bind_some, hv]
  · have hnone : tb t = none := h
    rw [hnone, Option.bind_none]

/-- what the parser finds of a VF that was written -/
def refilled (vf : Vf) : VfAttrs where
  index := some vf.vfIndex
  addr := vf.vfLladdr
  vlans := (usedVlans vf).bind fun v =>
    let info := v.vlans[0]
    if oneVlan v then if info.vfVlan ≠ 0 then some [⟨info.vfVlan, info.vfVlanQos, ETH_P_8021Q⟩] else none
    else some [⟨info.vfVlan, info.vfVlanQos, ntohs info.vfVlanProto⟩]
  txRate := if vf.has SRIOV_ATTR_TX_RATE then nonzero vf.vfRate else none
  spoofchk := if vf.has SRIOV_ATTR_SPOOFCHK then flag vf.vfSpoofchk else none
  linkState := if vf.has SRIOV_ATTR_LINK_STATE then some vf.vfLinkstate else none
  rateMax := nonzero (rateOf vf SRIOV_ATTR_RATE_MAX vf.vfMaxTxRate)
  rateMin := nonzero (rateOf vf SRIOV_ATTR_RATE_MIN vf.vfMinTxRate)
  rssQueryEn := if vf.has SRIOV_ATTR_RSS_QUERY_EN then flag vf.vfRssQueryEn else none
  stats := none
  trust := if vf.has SRIOV_ATTR_TRUST then flag vf.vfTrust else none

variable (junk : ℕ → UInt8) {vf : Vf} {buf : Mem} {pos : ℕ}

theorem vfFields_distinct : Distinct (vfFields junk vf) := by
  have htypes : ([IFLA_VF_MAC, IFLA_VF_VLAN, 32768 + IFLA_VF_VLAN_LIST, IFLA_VF_TX_RATE, IFLA_VF_RATE, IFLA_VF_SPOOFCHK,
    IFLA_VF_LINK_STATE, IFLA_VF_RSS_QUERY_EN, IFLA_VF_TRUST, IFLA_VF_IB_NODE_GUID, IFLA_VF_IB_PORT_GUID].map (· % 16384)).Nodup :=
    by decide
  exact htypes

/-- the table of an entry that was written -/
theorem tableOf_filled (hvf : Parsed vf) (hat : At buf pos (vfLeaf junk vf)) :
    accepted buf pos = true ∧ Indexes buf IFLA_VF_MAX (leavesOf (vfFields junk vf)) (tableOf buf pos) := by
  have hlen := vfFields_length junk hvf
  obtain ⟨tb, hparse, hidx⟩ := parseNested_fields IFLA_VF_MAX hat (vfFields_sendable junk hvf) (by omega)
  unfold accepted tableOf
  rw [hparse]
  exact ⟨rfl, hidx⟩

/-- the address -/
theorem carried_mac (hvf : Parsed vf) (hindex : vf.has SRIOV_ATTR_INDEX = true) {tb : Index}
    (hidx : Indexes buf IFLA_VF_MAX (leavesOf (vfFields junk vf)) tb) :
    (carried buf tb).index = some vf.vfIndex ∧ (carried buf tb).addr = vf.vfLladdr := by
  obtain ⟨bs, hbs, hlladdr⟩ := hvf.addr (hvf.index ▸ hindex)
  have hshown : Shown buf tb IFLA_VF_MAC (vf.vfLladdr.map fun addr => u32Bytes vf.vfIndex.toNat ++ macBytes addr) :=
    shown_plain hidx (vfFields_distinct junk) (by decide) List.mem_cons_self (by decide)
  rw [hlladdr] at hshown
  obtain ⟨nla, type, hnla, hat⟩ := hshown
  have hmac : macBytes (nlAddrBuild Family.AF_LLC bs) = bs ++ List.replicate 26 0 := by
    have hbytes : (nlAddrBuild Family.AF_LLC bs).aAddr = bs := rfl
    have hle : bs.length ≤ MAX_ADDR_LEN := hbs.trans_le (by decide)
    rw [macBytes, hbytes, List.take_append, List.take_of_length_le hle, hbs, List.take_replicate]
    rfl
  dsimp only at hat
  rw [hmac] at hat
  have hsegs := seg_append.1 hat.data
  have hbytes := (seg_append.1 hsegs.2).1
  have hindexat : u32At buf nla 0 = vf.vfIndex := at_u32At [] (bs ++ List.replicate 26 0) hat
  rw [u32Bytes_length] at hbytes
  have haddr := hbytes.readBytes
  rw [hbs] at haddr
  constructor
  · rw [carried, hnla, Option.map_some, hindexat]
  · simp only [carried, hnla, Option.map_some, haddr, hlladdr]

/-- the rates -/
theorem carried_rate {tb : Index} (hidx : Indexes buf IFLA_VF_MAX (leavesOf (vfFields junk vf)) tb) :
    (carried buf tb).rateMax = nonzero (rateOf vf SRIOV_ATTR_RATE_MAX vf.vfMaxTxRate) ∧
      (carried buf tb).rateMin = nonzero (rateOf vf SRIOV_ATTR_RATE_MIN vf.vfMinTxRate) := by
  have hmem : (IFLA_VF_RATE, if vf.has SRIOV_ATTR_RATE_MIN || vf.has SRIOV_ATTR_RATE_MAX then
      some (u32Bytes vf.vfIndex.toNat ++ u32Bytes (rateOf vf SRIOV_ATTR_RATE_MIN vf.vfMinTxRate).toNat ++
        u32Bytes (rateOf vf SRIOV_ATTR_RATE_MAX vf.vfMaxTxRate).toNat) else none) ∈ vfFields junk vf :=
    List.mem_cons_of_mem _ (List.mem_append_right _ (List.mem_cons_of_mem _ List.mem_cons_self))
  have hshown := shown_plain hidx (vfFields_distinct junk) (by decide) hmem (by decide)
  unfold carried carriedSetting
  split_ifs at hshown with hany
  · obtain ⟨nla, type, hnla, hat⟩ := hshown
    have hmax := at_u32At (u32Bytes vf.vfIndex.toNat ++ u32Bytes (rateOf vf SRIOV_ATTR_RATE_MIN vf.vfMinTxRate).toNat) []
      (by rw [List.append_nil]; exact hat)
    have hmin := at_u32At (u32Bytes vf.vfIndex.toNat) (u32Bytes (rateOf vf SRIOV_ATTR_RATE_MAX vf.vfMaxTxRate).toNat)
      (by rw [← List.append_assoc]; exact hat)
    rw [List.length_append, u32Bytes_length, u32Bytes_length] at hmax
    rw [u32Bytes_length] at hmin
    simp only [hnla, Option.bind_some, hmax, hmin, and_self]
  · have hnone : tb IFLA_VF_RATE = none := hshown
    simp only [Bool.or_eq_true, not_or, Bool.not_eq_true] at hany
    simp only [hnone, Option.bind_none, rateOf, hany, Bool.false_eq_true, ↓reduceIte]
    exact ⟨rfl, rfl⟩

/-- the settings -/
theorem carried_setting {tb : Index} (hidx : Indexes buf IFLA_VF_MAX (leavesOf (vfFields junk vf)) tb) {t : ℕ} {bit v : BitVec 32}
    (hmem : (t, vfAttr vf bit (settingBytes vf v)) ∈ settingFields junk vf) (ht : t ≤ IFLA_VF_MAX)
    (value : BitVec 32 → Option (BitVec 32)) : carriedSetting buf tb t value 4 = if vf.has bit then value v else none :=
  shown_setting (shown_plain hidx (vfFields_distinct junk) (by decide)
    (List.mem_cons_of_mem _ (List.mem_append_right _ hmem)) ht) value

/-- a `struct ifla_vf_vlan` -/
theorem at_vlanBytes {nla type : ℕ} {index : BitVec 32} {info : NlVfVlanInfo} (bs : List UInt8)
    (hat : At buf nla ⟨type, vlanBytes index info ++ bs⟩) :
    u32At buf nla 4 = info.vfVlan ∧ u32At buf nla 8 = info.vfVlanQos := by
  have hvlan := at_u32At (u32Bytes index.toNat) (u32Bytes info.vfVlanQos.toNat ++ bs)
    (v := info.vfVlan) (by simpa only [vlanBytes, List.append_assoc] using hat)
  have hqos := at_u32At (u32Bytes index.toNat ++ u32Bytes info.vfVlan.toNat) bs
    (v := info.vfVlanQos) (by simpa only [vlanBytes, List.append_assoc] using hat)
  rw [u32Bytes_length] at hvlan
  rw [List.length_append, u32Bytes_length, u32Bytes_length] at hqos
  exact ⟨hvlan, hqos⟩

/-- a `struct ifla_vf_vlan_info` -/
theorem at_vlanInfoLeaf {nla : ℕ} {index : BitVec 32} {info : NlVfVlanInfo} (hproto : info.vfVlanProto ≠ 0)
    (hat : At buf nla (vlanInfoLeaf junk index info)) :
    nlaLen buf nla = 16 ∧ vlanInfoOf buf nla = ⟨info.vfVlan, info.vfVlanQos, ntohs info.vfVlanProto⟩ := by
  have hlen := hat.len
  rw [vlanInfoLeaf_length] at hlen
  have hbytes := at_vlanBytes (u16Bytes info.vfVlanProto.toNat ++ [junk 0, junk 1])
    (by simpa only [vlanInfoLeaf, List.append_assoc] using hat)
  have hseg := (seg_append.1 (seg_append.1 hat.data).1).2
  rw [vlanBytes_length] at hseg
  refine ⟨hlen, ?_⟩
  rw [vlanInfoOf, getBe16_host hseg, if_pos (ntohs_ne_zero hproto), hbytes.1, hbytes.2]

/-- the VLANs; a list that was written has one VLAN in it, as long as its structure -/
theorem carried_vlans (hvf : Parsed vf) {tb : Index} (hidx : Indexes buf IFLA_VF_MAX (leavesOf (vfFields junk vf)) tb) :
    carriedVlans buf tb = (refilled vf).vlans ∧ ∀ list, tb IFLA_VF_VLAN_LIST = some list →
      nestedAttrs buf list ≠ [] ∧ ∀ vlan ∈ takenVlans buf list, IFLA_VF_VLAN_INFO_SIZE ≤ nlaLen buf vlan := by
  have hone := shown_plain hidx (vfFields_distinct junk) (by decide) (List.mem_cons_of_mem _ List.mem_cons_self) (by decide)
  have hlist := shown_of_indexes hidx (vfFields_distinct junk)
    (List.mem_cons_of_mem _ (List.mem_cons_of_mem _ List.mem_cons_self)) (by decide)
  have hstored := usedVlans_stored hvf
  unfold carriedVlans refilled
  dsimp only
  cases hused : usedVlans vf with
  | none =>
    rw [hused] at hone hlist
    have hnone : tb IFLA_VF_VLAN = none := hone
    have hnolist : tb IFLA_VF_VLAN_LIST = none := hlist
    rw [hnone, hnolist]
    exact ⟨rfl, fun _ h => by cases h⟩
  | some v =>
    obtain ⟨info, rfl, hproto⟩ := hstored v hused
    rw [hused, Option.bind_some] at hone hlist
    have hinfo : (single info).vlans[0] = info := rfl
    rw [Option.bind_some, hinfo]
    by_cases hsingle : oneVlan (single info) = true
    · rw [if_pos hsingle] at hone hlist ⊢
      obtain ⟨nla, type, hnla, hat⟩ := hone
      obtain ⟨hvlan, hqos⟩ := at_vlanBytes [] (by rw [List.append_nil]; exact hat)
      have hnolist : tb IFLA_VF_VLAN_LIST = none := hlist
      rw [hnolist, hnla]
      refine ⟨?_, fun _ h => by cases h⟩
      simp only [Option.bind_some, hvlan, hqos, hinfo]
    · rw [if_neg hsingle] at hlist ⊢
      obtain ⟨list, type, hpos, hat⟩ := hlist
      have hwf : ∀ l ∈ (single info).infos.map (vlanInfoLeaf junk vf.vfIndex), l.WF := by
        intro l hl
        rw [single_infos, List.map_singleton, List.mem_singleton] at hl
        subst hl
        have hle : 4 + (vlanInfoLeaf junk vf.vfIndex info).payload.length ≤ 65535 := by
          rw [vlanInfoLeaf_length]
          omega
        exact ⟨(by decide : IFLA_VF_VLAN_INFO < 65536), hle⟩
      have hnested := nested_leaves hat hwf (by rw [oneInfo_length]; decide)
      rw [single_infos, List.map_singleton] at hnested
      obtain ⟨vlan, rest, hvlan, hrest, hcons⟩ := List.forall₂_cons_right_iff.1 hnested
      have hnil : rest = [] := List.forall₂_nil_right_iff.1 hrest
      subst hnil
      obtain ⟨hlen, hinfoOf⟩ := at_vlanInfoLeaf junk hproto hvlan
      have htb : tb IFLA_VF_VLAN_LIST = some list := hpos
      rw [htb]
      refine ⟨?_, fun l hl => ?_⟩
      · have hcarried : carriedInfo buf vlan = some ⟨info.vfVlan, info.vfVlanQos, ntohs info.vfVlanProto⟩ := by
          rw [carriedInfo, hlen, hinfoOf]
          rfl
        dsimp only
        rw [hcons]
        show [vlan].mapM (carriedInfo buf) = _
        simp [hcarried]
      · cases hl
        rw [takenVlans, hcons]
        refine ⟨List.cons_ne_nil _ _, fun v hv => ?_⟩
        rw [List.mem_singleton.1 hv, hlen]
        exact le_rfl

/-- **What the parser finds** in an entry that was written -/
theorem carried_refilled (hvf : Parsed vf) (hindex : vf.has SRIOV_ATTR_INDEX = true) (hat : At buf pos (vfLeaf junk vf)) :
    accepted buf pos = true ∧ carried buf (tableOf buf pos) = refilled vf ∧ tableOf buf pos IFLA_VF_STATS = none ∧
      WholeVlans buf pos ∧ ¬ EmptyList buf pos := by
  obtain ⟨hacc, hidx⟩ := tableOf_filled junk hvf hat
  obtain ⟨hmac, haddr⟩ := carried_mac junk hvf hindex hidx
  obtain ⟨hmax, hmin⟩ := carried_rate junk hidx
  obtain ⟨hvlans, hlist⟩ := carried_vlans junk hvf hidx
  have hset : ∀ {t : ℕ} {bit v : BitVec 32}, (t, vfAttr vf bit (settingBytes vf v)) ∈ settingFields junk vf → t ≤ IFLA_VF_MAX →
      ∀ value, carriedSetting buf (tableOf buf pos) t value 4 = if vf.has bit then value v else none := fun hmem ht value =>
    carried_setting junk hidx hmem ht value
  have hstats : tableOf buf pos IFLA_VF_STATS = none := by
    refine none_of_indexes hidx (by decide) fun f hf => ?_
    have htypes : ([IFLA_VF_MAC, IFLA_VF_VLAN, 32768 + IFLA_VF_VLAN_LIST, IFLA_VF_TX_RATE, IFLA_VF_RATE, IFLA_VF_SPOOFCHK,
      IFLA_VF_LINK_STATE, IFLA_VF_RSS_QUERY_EN, IFLA_VF_TRUST, IFLA_VF_IB_NODE_GUID, IFLA_VF_IB_PORT_GUID].all
        fun t => decide (t % 16384 ≠ IFLA_VF_STATS)) = true := by decide
    have hmem : f.1 ∈ (vfFields junk vf).map Prod.fst := List.mem_map_of_mem hf
    exact of_decide_eq_true (List.all_eq_true.1 htypes f.1 hmem)
  refine ⟨hacc, ?_, hstats, fun list hl => (hlist list hl).2, fun ⟨list, hl, hnil⟩ => (hlist list hl).1 hnil⟩
  refine VfAttrs.ext hmac haddr hvlans (hset (.head _) (by decide) nonzero)
    (hset (.tail _ (.tail _ (.head _))) (by decide) flag) (hset (.tail _ (.tail _ (.tail _ (.head _)))) (by decide) some)
    hmax hmin (hset (.tail _ (.tail _ (.tail _ (.tail _ (.head _))))) (by decide) flag) ?_
    (hset (.tail _ (.tail _ (.tail _ (.tail _ (.tail _ (.head _)))))) (by decide) flag)
  exact Option.map_eq_none_iff.2 hstats

/-- the loop takes entries that are fit to read -/
theorem fold_accepted {entries : List ℕ} (h : ∀ nla ∈ entries, accepted buf nla = true ∧ tableOf buf nla IFLA_VF_STATS = none)
    (s : Parse) : ∃ s', entries.foldlM (parseVflistBody buf) s = .ok s' := by
  induction entries generalizing s with
  | nil => exact ⟨s, rfl⟩
  | cons nla rest ih =>
    obtain ⟨⟨hacc, hstats⟩, hrest⟩ := List.forall_mem_cons.1 h
    rw [List.foldlM_cons]
    cases hbody : parseVflistBody buf s nla with
    | ok s1 => exact ih hrest s1
    | error e =>
      unfold parseVflistBody at hbody
      dsimp only at hbody
      rw [if_neg (not_lt.2 (of_decide_eq_true hacc))] at hbody
      have hsome := (takeVf_error buf _ _ hbody).2.1
      rw [← tableOf, hstats] at hsome
      cases hsome

/-- the entries of a list that was written -/
theorem entries_filled {entries : List ℕ} {vfs : List Vf} (h : List.Forall₂ (fun nla vf => At buf nla (vfLeaf junk vf)) entries vfs)
    (hvfs : ∀ vf ∈ vfs, Parsed vf ∧ vf.has SRIOV_ATTR_INDEX = true) :
    (∀ nla ∈ entries, accepted buf nla = true ∧ tableOf buf nla IFLA_VF_STATS = none ∧ WholeVlans buf nla ∧ ¬ EmptyList buf nla) ∧
      entries.map (fun nla => carried buf (tableOf buf nla)) = vfs.map refilled := by
  induction h with
  | nil => exact ⟨fun _ h => absurd h List.not_mem_nil, rfl⟩
  | cons hat _ ih =>
    obtain ⟨⟨hvf, hindex⟩, hrest⟩ := List.forall_mem_cons.1 hvfs
    obtain ⟨hacc, hcarried, hstats, hwhole, hempty⟩ := carried_refilled junk hvf hindex hat
    obtain ⟨hentries, hmap⟩ := ih hrest
    exact ⟨List.forall_mem_cons.2 ⟨⟨hacc, hstats, hwhole, hempty⟩, hentries⟩, by rw [List.map_cons, List.map_cons, hcarried, hmap]⟩

/-- **The VFs of a list that was written** -/
theorem parse_filled {vfs : List Vf} (hvfs : ∀ vf ∈ vfs, Parsed vf ∧ vf.has SRIOV_ATTR_INDEX = true) {type : ℕ}
    (hat : At buf pos ⟨type, encLeaves (vfs.map (vfLeaf junk))⟩)
    (hlen : (encLeaves (vfs.map (vfLeaf junk))).length < 2147483648) :
    (rtnlLinkSriovParseVflist buf pos).1 = 0 ∧
      (rtnlLinkSriovParseVflist buf pos).2.vfList.map RtnlLinkVf.attrs = vfs.map refilled := by
  have hwf : ∀ l ∈ vfs.map (vfLeaf junk), l.WF := by
    intro l hl
    obtain ⟨vf, hvf, rfl⟩ := List.mem_map.1 hl
    exact ⟨(by decide : 32768 + IFLA_VF_INFO < 65536), vfFields_length junk (hvfs vf hvf).1⟩
  have hnested := nested_leaves hat hwf hlen
  rw [List.forall₂_map_right_iff] at hnested
  obtain ⟨hentries, hmap⟩ := entries_filled junk hnested hvfs
  have hok : (rtnlLinkSriovParseVflist buf pos).1 = 0 := by
    obtain ⟨s, hs⟩ := fold_accepted (fun nla hnla => ⟨(hentries nla hnla).1, (hentries nla hnla).2.1⟩)
      ⟨none, rtnlLinkVfAlloc, [], []⟩
    rw [parse_eq, hs]
  have hplain : PlainList buf (nestedAttrs buf pos) := by
    refine ⟨fun nla hnla => (hentries nla hnla).2.1, fun nla hnla => (hentries nla hnla).2.2.1, ?_⟩
    exact List.pairwise_of_forall_mem_list fun a _ b hb _ => (hentries b hb).2.2.2
  have hexact : List.Forall₂ (ExactVf buf) (nestedAttrs buf pos) (vfsOf buf none (nestedAttrs buf pos)) :=
    (vfsOf_exact_iff buf _ fun _ h => by cases h).2 ⟨hplain, fun h => absurd h Bool.false_ne_true⟩
  exact ⟨hok, by rw [parse_vfs buf hok, exact_attrs buf hexact, hmap]⟩

/-! ## The round trip -/

/-- what the VF keeps -/
structure Kept (vf : Vf) : Prop where
  /-- there is a list, with a VLAN that is not zero or a protocol that reads the same from both ends -/
  vlans : vf.has SRIOV_ATTR_VLAN = true → ∃ v ∈ vf.vfVlans,
    if v.vlans[0].vfVlanProto = ETH_P_8021Q then v.vlans[0].vfVlan ≠ 0
    else ntohs v.vlans[0].vfVlanProto = v.vlans[0].vfVlanProto
  txRate : vf.has SRIOV_ATTR_TX_RATE = true → vf.vfRate ≠ 0

instance (vf : Vf) : Decidable (Kept vf) :=
  decidable_of_iff ((vf.has SRIOV_ATTR_VLAN = true → ∃ v ∈ vf.vfVlans,
      if v.vlans[0].vfVlanProto = ETH_P_8021Q then v.vlans[0].vfVlan ≠ 0
      else ntohs v.vlans[0].vfVlanProto = v.vlans[0].vfVlanProto) ∧ (vf.has SRIOV_ATTR_TX_RATE = true → vf.vfRate ≠ 0))
    ⟨fun h => ⟨h.1, h.2⟩, fun h => ⟨h.vlans, h.txRate⟩⟩

omit [HostOrder] in
theorem oneVlan_single {info : NlVfVlanInfo} (h : info.vfVlanProto ≠ 0) :
    oneVlan (single info) = true ↔ info.vfVlanProto = ETH_P_8021Q := by
  have hinfo : (single info).vlans[0] = info := rfl
  have hsize : (single info).size = 1 := rfl
  rw [oneVlan, hinfo, decide_eq_true_iff, if_neg h, hsize, and_iff_right rfl]

/-- the VLANs of one list -/
theorem refilled_info_iff {info : NlVfVlanInfo} (hproto : info.vfVlanProto ≠ 0) :
    (if oneVlan (single info) then
        if info.vfVlan ≠ 0 then some [⟨info.vfVlan, info.vfVlanQos, ETH_P_8021Q⟩] else none
      else some [⟨info.vfVlan, info.vfVlanQos, ntohs info.vfVlanProto⟩]) = some [info] ↔
      if info.vfVlanProto = ETH_P_8021Q then info.vfVlan ≠ 0 else ntohs info.vfVlanProto = info.vfVlanProto := by
  obtain ⟨vlan, qos, proto⟩ := info
  rw [if_congr (oneVlan_single hproto) rfl rfl]
  dsimp only
  split_ifs with h hvlan
  · rw [h]
    exact iff_of_true rfl hvlan
  · exact iff_of_false id hvlan
  · simp

theorem refilled_vlans_iff (hvf : Parsed vf) (hnull : vf.has SRIOV_ATTR_VLAN = true → vf.vfVlans ≠ none) :
    (refilled vf).vlans = vf.attrs.vlans ↔ (vf.has SRIOV_ATTR_VLAN = true → ∃ v ∈ vf.vfVlans,
      if v.vlans[0].vfVlanProto = ETH_P_8021Q then v.vlans[0].vfVlan ≠ 0
      else ntohs v.vlans[0].vfVlanProto = v.vlans[0].vfVlanProto) := by
  unfold refilled usedVlans RtnlLinkVf.attrs
  by_cases hhas : vf.has SRIOV_ATTR_VLAN = true
  · obtain ⟨v, hv⟩ := Option.ne_none_iff_exists'.1 (hnull hhas)
    obtain ⟨info, rfl, hproto⟩ := hvf.vlans v hv
    simp only [hhas, hv, ↓reduceIte, Option.bind_some, Option.map_some, Option.getD_some, single_infos, true_imp_iff]
    refine (refilled_info_iff hproto).trans ⟨fun h => ⟨single info, rfl, h⟩, ?_⟩
    rintro ⟨v, hv, h⟩
    cases hv
    exact h
  · simp [hhas]

theorem refilled_iff (hvf : Parsed vf) (hindex : vf.has SRIOV_ATTR_INDEX = true)
    (hnull : vf.has SRIOV_ATTR_VLAN = true → vf.vfVlans ≠ none) : refilled vf = vf.attrs ↔ Kept vf := by
  have hvlans := refilled_vlans_iff hvf hnull
  constructor
  · intro h
    have hrate : (if vf.has SRIOV_ATTR_TX_RATE then nonzero vf.vfRate else none) =
        if vf.has SRIOV_ATTR_TX_RATE then some vf.vfRate else none := congrArg VfAttrs.txRate h
    refine ⟨hvlans.1 (congrArg VfAttrs.vlans h), fun hhas hzero => ?_⟩
    rw [if_pos hhas, if_pos hhas, nonzero, if_neg (not_not_intro hzero)] at hrate
    cases hrate
  · intro h
    have hset : ∀ {bit v : BitVec 32} {value : BitVec 32 → Option (BitVec 32)}, (vf.has bit = true → value v = some v) →
        (if vf.has bit then value v else none) = if vf.has bit then some v else none := fun {bit v value} hval => by
      by_cases hhas : vf.has bit = true
      · rw [if_pos hhas, if_pos hhas, hval hhas]
      · rw [if_neg hhas, if_neg hhas]
    have hrate : ∀ {bit v : BitVec 32}, (vf.has bit = true → nonzero v = some v) →
        nonzero (rateOf vf bit v) = if vf.has bit then some v else none := fun {bit v} hval => by
      unfold rateOf
      by_cases hhas : vf.has bit = true
      · rw [if_pos hhas, if_pos hhas, hval hhas]
      · rw [if_neg hhas, if_neg hhas]
        rfl
    have haddr : vf.has SRIOV_ATTR_ADDR = true := hvf.index ▸ hindex
    refine VfAttrs.ext (if_pos hindex).symm (if_pos haddr).symm (hvlans.2 h.vlans) (hset fun hhas => if_pos (h.txRate hhas))
      (hset hvf.spoofchk) rfl (hrate hvf.rateMax) (hrate hvf.rateMin) (hset hvf.rssQueryEn) ?_ (hset hvf.trust)
    have hstats : vf.has SRIOV_ATTR_STATS ≠ true := Bool.eq_false_iff.1 hvf.stats
    exact (if_neg hstats).symm

/-- the VFs found in what was put between two states of a message, by the parser of a link message; `none` if it is refused -/
def readVflist (m m' : NlMsg) : Option (List Vf) :=
  (nlaParse (m'.nlmsgLen - m.nlmsgLen + 1) m'.buf IFLA_MAX m.nlmsgLen (m'.nlmsgLen - m.nlmsgLen : ℕ)
      (some rtlnLinkPolicy)).bind fun r =>
    if r.1 < 0 then none
    else
      match r.2 IFLA_VFINFO_LIST with
      | none => some []
      | some nla =>
        let parsed := rtnlLinkSriovParseVflist m'.buf nla
        if parsed.1 < 0 then none else some parsed.2.vfList

/-- the list is written, and read as it was -/
def RoundTrips (junk : ℕ → UInt8) (m : NlMsg) (vfs : List Vf) : Prop :=
  ∃ m' err vfs', rtnlLinkSriovFillVflist junk m (some vfs) = some (m', err) ∧ 0 ≤ err ∧ readVflist m m' = some vfs' ∧
    vfs'.map RtnlLinkVf.attrs = vfs.map RtnlLinkVf.attrs

/-- the attribute of the list -/
def vflistLeaf (vfs : List Vf) : Leaf := ⟨32768 + IFLA_VFINFO_LIST, encLeaves (vfs.map (vfLeaf junk))⟩

theorem readVflist_nil {m m' : NlMsg} (hw : Wrote m m' []) : readVflist m m' = some [] := by
  have hlen := hw.len
  rw [List.length_nil, Nat.add_zero] at hlen
  rw [readVflist, hlen, Nat.sub_self]
  rfl

theorem readVflist_filled {vfs : List Vf} (hvfs : ∀ vf ∈ vfs, Parsed vf ∧ vf.has SRIOV_ATTR_INDEX = true)
    (hlen : 4 + (vflistLeaf junk vfs).payload.length ≤ 65535) {m m' : NlMsg} (hw : Wrote m m' (encLeaves [vflistLeaf junk vfs])) :
    ∃ vfs', readVflist m m' = some vfs' ∧ vfs'.map RtnlLinkVf.attrs = vfs.map refilled := by
  have hfields : leavesOf [(32768 + IFLA_VFINFO_LIST, some (vflistLeaf junk vfs).payload)] = [vflistLeaf junk vfs] := rfl
  have hsend : Sendable rtlnLinkPolicy [(32768 + IFLA_VFINFO_LIST, some (vflistLeaf junk vfs).payload)] :=
    Sendable.cons (by decide) (sends_nested rfl fun q hq => by cases hq; exact hlen) (Sendable.nil _)
  have hsize : (encLeaves [vflistLeaf junk vfs]).length < 2147483648 := by
    rw [encLeaves_cons, encLeaves_nil, List.append_nil, encLeaf_length]
    unfold align4
    omega
  have hcount : [vflistLeaf junk vfs].length < (encLeaves [vflistLeaf junk vfs]).length + 1 := by
    have hle := length_le_enc [vflistLeaf junk vfs]
    omega
  rw [← hfields] at hsize hcount hw
  obtain ⟨tb, hparse, hidx⟩ := parse_leaves hsend.wf (hsend.valid IFLA_MAX) hw.seg hsize hcount
  obtain ⟨pos, type, htb, hat⟩ := shown_of_indexes hidx (List.nodup_singleton _) List.mem_cons_self (by decide)
  have hpay : (encLeaves (vfs.map (vfLeaf junk))).length = (vflistLeaf junk vfs).payload.length := rfl
  obtain ⟨hok, hmap⟩ := parse_filled junk hvfs hat (by omega)
  refine ⟨_, ?_, hmap⟩
  have hlist : tb IFLA_VFINFO_LIST = some pos := htb
  have hwritten := hw.len
  rw [readVflist, hwritten, Nat.add_sub_cancel_left]
  simp only [hparse, Option.bind_some, lt_irrefl, ↓reduceIte, hlist, hok]

theorem fillVflist_some (vfs : List Vf) (m : NlMsg) : rtnlLinkSriovFillVflist junk m (some vfs) =
    inNestOr (-NLE_MSGSIZE) (nlaNestStart m IFLA_VFINFO_LIST) fun msg data =>
      (fillVfs junk vfs 1 msg).map fun r => ((nlaNestEnd r.1 data).1, r.2) := rfl

/-- the nest of the list is begun -/
theorem vflist_start_room (vfs : List Vf) {m : NlMsg} (hm : Tidy m) (hroom : Room m (4 + (vflistLeaf junk vfs).payload.length)) :
    ∃ m1, nlaNestStart m IFLA_VFINFO_LIST = (m1, some m.nlmsgLen) ∧ Wrote m m1 (nlaHeader 4 (32768 + IFLA_VFINFO_LIST)) ∧
      Room m1 (vflistLeaf junk vfs).payload.length := by
  obtain ⟨m1, hstart, hw1⟩ := nlaNestStart_room hm IFLA_VFINFO_LIST (by decide) (room_mono hroom (Nat.le_add_right 4 _))
  exact ⟨m1, hstart, hw1, room_after hw1 (by rw [nlaHeader_length]; exact hroom)⟩

/-- the list, with room -/
theorem fillVflist_room {vfs : List Vf} (hvfs : ∀ vf ∈ vfs, Writable vf) {m : NlMsg} (hm : Tidy m)
    (hroom : Room m (4 + (vflistLeaf junk vfs).payload.length)) :
    ∃ m1 m2, Wrote m m1 (nlaHeader 4 (32768 + IFLA_VFINFO_LIST)) ∧ Wrote m1 m2 (vflistLeaf junk vfs).payload ∧
      rtnlLinkSriovFillVflist junk m (some vfs) = some ((nlaNestEnd m2 m.nlmsgLen).1, if vfs = [] then 1 else 0) := by
  obtain ⟨m1, hstart, hw1, hroom1⟩ := vflist_start_room junk vfs hm hroom
  obtain ⟨m2, hfill, hw2⟩ := fillVfs_room junk hvfs 1 hw1.tidy hroom1
  refine ⟨m1, m2, hw1, hw2, ?_⟩
  rw [fillVflist_some, hstart]
  simp only [inNestOr, hfill, Option.map_some]

theorem fillVflist_null {vfs : List Vf} (hvfs : ∀ vf ∈ vfs, Parsed vf ∧ vf.has SRIOV_ATTR_INDEX = true)
    (hnull : ¬ ∀ vf ∈ vfs, Writable vf) {m : NlMsg} (hm : Tidy m) (hroom : Room m (4 + (vflistLeaf junk vfs).payload.length)) :
    rtnlLinkSriovFillVflist junk m (some vfs) = none := by
  obtain ⟨m1, hstart, hw1, hroom1⟩ := vflist_start_room junk vfs hm hroom
  rw [fillVflist_some, hstart]
  simp only [inNestOr, fillVfs_null junk hvfs hnull 1 hw1.tidy hroom1, Option.map_none]

theorem kept_iff {vfs : List Vf} (hvfs : ∀ vf ∈ vfs, Writable vf) :
    vfs.map refilled = vfs.map RtnlLinkVf.attrs ↔ ∀ vf ∈ vfs, Kept vf := by
  rw [List.map_inj_left]
  exact forall₂_congr fun vf hvf => refilled_iff (hvfs vf hvf).parsed (hvfs vf hvf).index (hvfs vf hvf).vlans

/-- VFs that can be written -/
theorem roundTrips_iff {vfs : List Vf} (hvfs : ∀ vf ∈ vfs, Writable vf) {m : NlMsg} (hm : Tidy m)
    (hroom : Room m (4 + (vflistLeaf junk vfs).payload.length)) :
    RoundTrips junk m vfs ↔ (∀ vf ∈ vfs, Kept vf) ∧ 4 + (vflistLeaf junk vfs).payload.length ≤ 65535 := by
  obtain ⟨m1, m2, hw1, hw2, hfill⟩ := fillVflist_room junk hvfs hm hroom
  have hcode : (0 : ℤ) ≤ if vfs = [] then 1 else 0 := by
    split_ifs
    · exact zero_le_one
    · exact le_rfl
  have htrips : RoundTrips junk m vfs ↔ ∃ vfs', readVflist m (nlaNestEnd m2 m.nlmsgLen).1 = some vfs' ∧
      vfs'.map RtnlLinkVf.attrs = vfs.map RtnlLinkVf.attrs := by
    constructor
    · rintro ⟨m', err, vfs', hsome, -, hread, hmap⟩
      rw [hfill] at hsome
      cases hsome
      exact ⟨vfs', hread, hmap⟩
    · rintro ⟨vfs', hread, hmap⟩
      exact ⟨_, _, vfs', hfill, hcode, hread, hmap⟩
  rw [htrips]
  by_cases hnil : vfs = []
  · subst hnil
    have hread := readVflist_nil (nest_dropped hm hw1 hw2 (Or.inl rfl))
    have hshort : 4 + ([] : List UInt8).length ≤ 65535 := by decide
    exact iff_of_true ⟨[], hread, rfl⟩ ⟨fun _ h => absurd h List.not_mem_nil, hshort⟩
  · have hne : (vflistLeaf junk vfs).payload ≠ [] := encLeaves_ne_nil (List.map_eq_nil_iff.not.2 hnil)
    by_cases hlen : 4 + (vflistLeaf junk vfs).payload.length ≤ 65535
    · obtain ⟨m3, hend, hw3⟩ := nest_end (t := IFLA_VFINFO_LIST) hw1 hw2 hne hlen
      obtain ⟨vfs', hread, hmap⟩ := readVflist_filled junk (fun vf hvf => ⟨(hvfs vf hvf).parsed, (hvfs vf hvf).index⟩) hlen hw3
      rw [hend, and_iff_left hlen, ← kept_iff hvfs, ← hmap]
      constructor
      · rintro ⟨vfs'', hread', hmap'⟩
        rw [hread] at hread'
        cases hread'
        exact hmap'
      · intro h
        exact ⟨vfs', hread, h⟩
    · have hread := readVflist_nil (nest_dropped hm hw1 hw2 (Or.inr (not_le.1 hlen)))
      refine iff_of_false ?_ fun h => hlen h.2
      rintro ⟨vfs', hread', hmap⟩
      rw [hread] at hread'
      cases hread'
      exact hnil (List.map_eq_nil_iff.1 hmap.symm)

/-- **When the list comes back**: each VF keeps its VLAN and its rate, and the nest of the list is not too long. -/
theorem sriov_round_trip_iff {attr : ℕ} (hok : (rtnlLinkSriovParseVflist buf attr).1 = 0)
    (hindex : ∀ vf ∈ (rtnlLinkSriovParseVflist buf attr).2.vfList, vf.has SRIOV_ATTR_INDEX = true) {m : NlMsg} (hm : Tidy m)
    (hroom : Room m (4 + (vflistLeaf junk (rtnlLinkSriovParseVflist buf attr).2.vfList).payload.length)) :
    RoundTrips junk m (rtnlLinkSriovParseVflist buf attr).2.vfList ↔
      (∀ vf ∈ (rtnlLinkSriovParseVflist buf attr).2.vfList, Kept vf) ∧
        4 + (vflistLeaf junk (rtnlLinkSriovParseVflist buf attr).2.vfList).payload.length ≤ 65535 := by
  have hparsed := parsed_of_accepted buf hok
  generalize (rtnlLinkSriovParseVflist buf attr).2.vfList = vfs at hindex hroom hparsed ⊢
  by_cases hall : ∀ vf ∈ vfs, Writable vf
  · exact roundTrips_iff junk hall hm hroom
  · have hnull := fillVflist_null junk (fun vf hvf => ⟨hparsed vf hvf, hindex vf hvf⟩) hall hm hroom
    refine iff_of_false ?_ ?_
    · rintro ⟨m', err, vfs', hsome, -⟩
      rw [hnull] at hsome
      cases hsome
    · rintro ⟨hkept, -⟩
      refine hall fun vf hvf => ⟨hparsed vf hvf, hindex vf hvf, fun hhas => ?_⟩
      obtain ⟨v, hv, -⟩ := (hkept vf hvf).vlans hhas
      rw [Option.mem_def.1 hv]
      exact Option.some_ne_none v

/-- a message with a header, and much room behind it -/
def sampleMsg : NlMsg := ⟨4096, 16, 0, 0, 0, 0, fun _ => 0, false⟩

/-- a VF with a VLAN of another protocol -/
def protoSample : Mem := vflist [[sampleMac 0, ⟨32768 + IFLA_VF_VLAN_LIST,
  encLeaves [⟨IFLA_VF_VLAN_INFO, u32Bytes 0 ++ u32Bytes 5 ++ u32Bytes 0 ++ [0x88, 0xa8, 0, 0]⟩]⟩]]

end

/-- **Two plain entries** -/
theorem sriov_round_trip_iff_plain : @RoundTrips ⟨false⟩ (fun _ => 0) sampleMsg
    (@rtnlLinkSriovParseVflist ⟨false⟩ (@plainSample ⟨false⟩) 0).2.vfList := by
  have hok : (@rtnlLinkSriovParseVflist ⟨false⟩ (@plainSample ⟨false⟩) 0).1 = 0 := by decide +kernel
  have hindex : ((@rtnlLinkSriovParseVflist ⟨false⟩ (@plainSample ⟨false⟩) 0).2.vfList.all
      fun vf => vf.has SRIOV_ATTR_INDEX) = true := by decide +kernel
  have hkept : ((@rtnlLinkSriovParseVflist ⟨false⟩ (@plainSample ⟨false⟩) 0).2.vfList.all
      fun vf => decide (@Kept ⟨false⟩ vf)) = true := by decide +kernel
  have hlen : (@vflistLeaf ⟨false⟩ (fun _ => 0)
      (@rtnlLinkSriovParseVflist ⟨false⟩ (@plainSample ⟨false⟩) 0).2.vfList).payload.length = 116 := by decide +kernel
  have htidy : Tidy sampleMsg := ⟨by decide, by decide, by decide⟩
  refine (@sriov_round_trip_iff ⟨false⟩ (fun _ => 0) _ 0 hok (List.all_eq_true.1 hindex) sampleMsg htidy ?_).2
    ⟨fun vf hvf => of_decide_eq_true (List.all_eq_true.1 hkept vf hvf), ?_⟩
  · rw [hlen]
    exact ⟨by decide, by decide⟩
  · rw [hlen]
    decide

/-- **A protocol comes back with its bytes swapped.** -/
theorem vlan_proto_swapped : (@rtnlLinkSriovParseVflist ⟨false⟩ (@protoSample ⟨false⟩) 0).1 = 0 ∧
    ((@rtnlLinkSriovParseVflist ⟨false⟩ (@protoSample ⟨false⟩) 0).2.vfList.all fun vf => vf.has SRIOV_ATTR_INDEX) = true ∧
    (@rtnlLinkSriovParseVflist ⟨false⟩ (@protoSample ⟨false⟩) 0).2.vfList.map (fun vf => vf.attrs.vlans) =
      [some [⟨5, 0, 0x88a8⟩]] ∧
    ((@rtnlLinkSriovFillVflist ⟨false⟩ (fun _ => 0) sampleMsg
        (some (@rtnlLinkSriovParseVflist ⟨false⟩ (@protoSample ⟨false⟩) 0).2.vfList)).bind fun r =>
      (@readVflist ⟨false⟩ sampleMsg r.1).map (List.map fun vf => vf.attrs.vlans)) = some [some [⟨5, 0, 0xa888⟩]] ∧
    ¬ @RoundTrips ⟨false⟩ (fun _ => 0) sampleMsg (@rtnlLinkSriovParseVflist ⟨false⟩ (@protoSample ⟨false⟩) 0).2.vfList := by
  have hbefore : (@rtnlLinkSriovParseVflist ⟨false⟩ (@protoSample ⟨false⟩) 0).2.vfList.map (fun vf => vf.attrs.vlans) =
      [some [⟨5, 0, 0x88a8⟩]] := by decide +kernel
  have hafter : ((@rtnlLinkSriovFillVflist ⟨false⟩ (fun _ => 0) sampleMsg
        (some (@rtnlLinkSriovParseVflist ⟨false⟩ (@protoSample ⟨false⟩) 0).2.vfList)).bind fun r =>
      (@readVflist ⟨false⟩ sampleMsg r.1).map (List.map fun vf => vf.attrs.vlans)) = some [some [⟨5, 0, 0xa888⟩]] := by
    decide +kernel
  refine ⟨by decide +kernel, by decide +kernel, hbefore, hafter, ?_⟩
  rintro ⟨m', err, vfs', hfill, -, hread, hmap⟩
  rw [hfill, Option.bind_some, hread, Option.map_some] at hafter
  have hvlans := congrArg (List.map VfAttrs.vlans) hmap
  rw [List.map_map, List.map_map] at hvlans
  exact absurd ((Option.some.inj hafter).symm.trans (hvlans.trans hbefore)) (by decide)

end Libnl.Sriov
