/-
The list of virtual functions in a link message, and the parser for it (`lib/route/link/sriov.c`).

Each entry of `IFLA_VFINFO_LIST` is parsed into a table of its own, but the local variable for the VLAN list lives on from one
entry to the next, the statistics set the bit with the number of their attribute, and the table for them is shorter than the
largest type it is filled up to. Everything the parser looks at is written down as it goes.

- `takeVf_eq`: what one entry makes of the locals.
- `sriov_parse_exact_iff`: each VF has exactly what its entry carries iff there are no statistics, no VLAN list is empty behind
  one that is not, and the VLANs are as long as the structure.
- `sriov_reads_in_bounds_iff`: all tables are large enough and all structures inside their attributes under the same condition
  on statistics and VLANs, of the entries that are reached.
-/
import Mathlib.Tactic
import Libnl.Core.Mask
import Libnl.Message.AttrStream
import Libnl.Message.Validate
import Libnl.Route.LinkInfo

namespace Libnl.Sriov

open Bytes Mask Walk Msg Attr AttrWalk AttrStream Validate Addr
open LinkInfo (IFLA_VFINFO_LIST)

/-! ## Data -/

def SRIOV_ATTR_INDEX : BitVec 32 := 1 <<< 0
def SRIOV_ATTR_ADDR : BitVec 32 := 1 <<< 1
def SRIOV_ATTR_VLAN : BitVec 32 := 1 <<< 2
def SRIOV_ATTR_TX_RATE : BitVec 32 := 1 <<< 3
def SRIOV_ATTR_SPOOFCHK : BitVec 32 := 1 <<< 4
def SRIOV_ATTR_RATE_MAX : BitVec 32 := 1 <<< 5
def SRIOV_ATTR_RATE_MIN : BitVec 32 := 1 <<< 6
def SRIOV_ATTR_LINK_STATE : BitVec 32 := 1 <<< 7
def SRIOV_ATTR_RSS_QUERY_EN : BitVec 32 := 1 <<< 8
def SRIOV_ATTR_STATS : BitVec 32 := 1 <<< 9
def SRIOV_ATTR_TRUST : BitVec 32 := 1 <<< 10
def SRIOV_ATTR_IB_NODE_GUID : BitVec 32 := 1 <<< 11
def SRIOV_ATTR_IB_PORT_GUID : BitVec 32 := 1 <<< 12

/-! Entries and their attributes -/

def IFLA_VF_INFO : ℕ := 1

def IFLA_VF_MAC : ℕ := 1
def IFLA_VF_VLAN : ℕ := 2
def IFLA_VF_TX_RATE : ℕ := 3
def IFLA_VF_SPOOFCHK : ℕ := 4
def IFLA_VF_LINK_STATE : ℕ := 5
def IFLA_VF_RATE : ℕ := 6
def IFLA_VF_RSS_QUERY_EN : ℕ := 7
def IFLA_VF_STATS : ℕ := 8
def IFLA_VF_TRUST : ℕ := 9
def IFLA_VF_IB_NODE_GUID : ℕ := 10
def IFLA_VF_IB_PORT_GUID : ℕ := 11
def IFLA_VF_VLAN_LIST : ℕ := 12
def IFLA_VF_MAX : ℕ := 12

/-- the largest type of the statistics of the kernel; the last of the library's own is `RTNL_LINK_VF_STATS_MAX` -/
def IFLA_VF_STATS_MAX : ℕ := 8

def RTNL_LINK_VF_STATS_MAX : ℕ := 5

def MAX_VLAN_LIST_LEN : ℕ := 1
def ETH_P_8021Q : BitVec 16 := 0x8100

/-! The sizes of the structures in the attributes -/

def IFLA_VF_MAC_SIZE : ℕ := 36
def IFLA_VF_VLAN_SIZE : ℕ := 12
def IFLA_VF_VLAN_INFO_SIZE : ℕ := 16
def IFLA_VF_RATE_SIZE : ℕ := 12
def IFLA_VF_GUID_SIZE : ℕ := 16

/-- that of a VF and one number: `ifla_vf_tx_rate`, `_spoofchk`, `_link_state`, `_rss_query_en`, `_trust` -/
def IFLA_VF_SETTING_SIZE : ℕ := 8

/-- `nl_vf_vlan_info_t` -/
structure NlVfVlanInfo where
  vfVlan : BitVec 32
  vfVlanQos : BitVec 32
  vfVlanProto : BitVec 16
deriving DecidableEq

/-- `nl_vf_vlans_t`; the array has one entry more than the list is long -/
structure NlVfVlans where
  size : ℕ
  vlans : Vector NlVfVlanInfo (size + 1)
deriving DecidableEq

/-- `struct rtnl_link_vf`, by what stands for an address and for a VLAN list -/
structure RtnlLinkVf (A V : Type) where
  ceRefcnt : ℤ
  ceMask : BitVec 32
  vfIndex : BitVec 32
  vfGuidNode : BitVec 64
  vfGuidPort : BitVec 64
  vfLinkstate : BitVec 32
  vfLladdr : Option A
  vfMaxTxRate : BitVec 32
  vfMinTxRate : BitVec 32
  vfRate : BitVec 32
  vfRssQueryEn : BitVec 32
  vfSpoofchk : BitVec 32
  vfStats : Fin (RTNL_LINK_VF_STATS_MAX + 1) → BitVec 64
  vfTrust : BitVec 32
  vfVlans : Option V

/-- `rtnl_link_vf_alloc` -/
def rtnlLinkVfAlloc {A V : Type} : RtnlLinkVf A V := ⟨1, 0, 0, 0, 0, 0, none, 0, 0, 0, 0, 0, fun _ => 0, 0, none⟩

/-- whether an attribute is there -/
def RtnlLinkVf.has {A V : Type} (vf : RtnlLinkVf A V) (bit : BitVec 32) : Bool := decide (vf.ceMask &&& bit ≠ 0)

/-- `rtnl_link_vf_get_stat` -/
def rtnlLinkVfGetStat {A V : Type} (vfData : RtnlLinkVf A V) (stat : Fin (RTNL_LINK_VF_STATS_MAX + 1)) :
    Except ℤ (BitVec 64) :=
  if vfData.has SRIOV_ATTR_STATS then .ok (vfData.vfStats stat) else .error (-NLE_NOATTR)

/-- `rtnl_link_vf_vlan_alloc`, if there is memory -/
def rtnlLinkVfVlanAlloc (vlanCount : ℕ) : Except ℤ NlVfVlans :=
  if MAX_VLAN_LIST_LEN < vlanCount then .error (-NLE_INVAL) else .ok ⟨vlanCount, Vector.replicate _ ⟨0, 0, 0⟩⟩

/-- a VF with its address and VLAN list -/
abbrev Vf := RtnlLinkVf NlAddr NlVfVlans

/-- `sriov_info_policy` -/
def sriovInfoPolicy (type : ℕ) : NlaPolicy :=
  if type = IFLA_VF_MAC then ⟨.unspec, IFLA_VF_MAC_SIZE, 0⟩
  else if type = IFLA_VF_VLAN then ⟨.unspec, IFLA_VF_VLAN_SIZE, 0⟩
  else if type = IFLA_VF_VLAN_LIST then ⟨.nested, 0, 0⟩
  else if type = IFLA_VF_TX_RATE then ⟨.unspec, IFLA_VF_SETTING_SIZE, 0⟩
  else if type = IFLA_VF_SPOOFCHK then ⟨.unspec, IFLA_VF_SETTING_SIZE, 0⟩
  else if type = IFLA_VF_RATE then ⟨.unspec, IFLA_VF_RATE_SIZE, 0⟩
  else if type = IFLA_VF_LINK_STATE then ⟨.unspec, IFLA_VF_SETTING_SIZE, 0⟩
  else if type = IFLA_VF_RSS_QUERY_EN then ⟨.unspec, IFLA_VF_SETTING_SIZE, 0⟩
  else if type = IFLA_VF_STATS then ⟨.nested, 0, 0⟩
  else if type = IFLA_VF_TRUST then ⟨.unspec, IFLA_VF_SETTING_SIZE, 0⟩
  else if type = IFLA_VF_IB_NODE_GUID then ⟨.unspec, IFLA_VF_GUID_SIZE, 0⟩
  else if type = IFLA_VF_IB_PORT_GUID then ⟨.unspec, IFLA_VF_GUID_SIZE, 0⟩
  else ⟨.unspec, 0, 0⟩

/-- `sriov_stats_policy`; both enumerations begin with the same six -/
def sriovStatsPolicy (type : ℕ) : NlaPolicy := if type ≤ RTNL_LINK_VF_STATS_MAX then ⟨.u64, 0, 0⟩ else ⟨.unspec, 0, 0⟩

/-! ## Parsing -/

/-- what the parser looks at -/
inductive SriovAccess where
  /-- `nla_parse` gets a table of so many entries, to be filled up to the type -/
  | table (entries maxtype : ℕ)
  /-- a structure of so many bytes is read in the attribute -/
  | struct (size nla : ℕ)
deriving DecidableEq

/-- the locals of the parser, the list so far, and what was looked at -/
structure Parse where
  vfVlans : Option NlVfVlans
  vfData : Vf
  vfList : List Vf
  accesses : List SriovAccess

def Parse.access (s : Parse) (a : SriovAccess) : Parse := { s with accesses := s.accesses ++ [a] }

section
variable [HostOrder]

/-- a `__u32` of a structure -/
def u32At (buf : Mem) (nla off : ℕ) : BitVec 32 := BitVec.ofNat 32 (getU32 buf (nlaData nla + off))

/-- `IFLA_VF_MAC` -/
def takeMac (buf : Mem) (t : Index) (s : Parse) : Parse :=
  match t IFLA_VF_MAC with
  | none => s
  | some nla =>
    { s.access (.struct IFLA_VF_MAC_SIZE nla) with
      vfData := { s.vfData with
        vfIndex := u32At buf nla 0
        vfLladdr := some (nlAddrBuild Family.AF_LLC (readBytes buf (nlaData nla + 4) 6))
        ceMask := s.vfData.ceMask ||| SRIOV_ATTR_INDEX ||| SRIOV_ATTR_ADDR } }

/-- the VLAN of a `struct ifla_vf_vlan_info`, as it is stored -/
def vlanInfoOf (buf : Mem) (nla : ℕ) : NlVfVlanInfo :=
  let proto := getBe16 buf (nlaData nla + 12)
  ⟨u32At buf nla 4, u32At buf nla 8, if proto ≠ 0 then proto else ETH_P_8021Q⟩

/-- `rtnl_link_vf_vlan_info`; without any `nvi` stays what it was -/
def rtnlLinkVfVlanInfo (buf : Mem) (vi : List ℕ) (nvi : Option NlVfVlans) : Except ℤ (Option NlVfVlans) :=
  if vi.length ≤ 0 then .ok nvi
  else
    match rtnlLinkVfVlanAlloc vi.length with
    | .error err => .error err
    | .ok vlans =>
      .ok (some { vlans with
        vlans := vi.zipIdx.foldl (fun v x => v.setIfInBounds x.2 (vlanInfoOf buf x.1)) vlans.vlans })

/-- the loop over `IFLA_VF_VLAN_LIST` -/
def vlanListBody (vi : List ℕ) (nla : ℕ) : Except (List ℕ) (List ℕ) :=
  if MAX_VLAN_LIST_LEN ≤ vi.length then .error vi else .ok (vi ++ [nla])

/-- the attributes that it takes; each takes a byte at least, so the length bounds the iterations -/
def vlanList (buf : Mem) (list : ℕ) : List ℕ :=
  match nlaForEachAttr buf vlanListBody ((nlaLen buf list).toNat + 1) [] (nlaData list) (nlaLen buf list) with
  | none => []
  | some (.error vi) => vi
  | some (.ok vi) => vi

/-- `IFLA_VF_VLAN_LIST` and `IFLA_VF_VLAN` -/
def takeVlans (buf : Mem) (t : Index) (s : Parse) : Except (ℤ × Parse) Parse :=
  match t IFLA_VF_VLAN_LIST with
  | some list =>
    let vi := vlanList buf list
    let s := { s with accesses := s.accesses ++ vi.map (.struct IFLA_VF_VLAN_INFO_SIZE) }
    match rtnlLinkVfVlanInfo buf vi s.vfVlans with
    | .error err => .error (err, s)
    | .ok vfVlans =>
      .ok { s with
        vfVlans := vfVlans
        vfData := { s.vfData with vfVlans := vfVlans, ceMask := s.vfData.ceMask ||| SRIOV_ATTR_VLAN } }
  | none =>
    match t IFLA_VF_VLAN with
    | none => .ok s
    | some nla =>
      let s := s.access (.struct IFLA_VF_VLAN_SIZE nla)
      if u32At buf nla 4 ≠ 0 then
        match rtnlLinkVfVlanAlloc 1 with
        | .error err => .error (err, s)
        | .ok vlans =>
          let vfVlans := some { vlans with
            vlans := vlans.vlans.setIfInBounds 0 ⟨u32At buf nla 4, u32At buf nla 8, ETH_P_8021Q⟩ }
          .ok { s with
            vfVlans := vfVlans
            vfData := { s.vfData with vfVlans := vfVlans, ceMask := s.vfData.ceMask ||| SRIOV_ATTR_VLAN } }
      else .ok s

/-! A number is stored with a bit if it counts as set: as it is, if it is not zero, or as a flag if it is not -1. -/

def nonzero (v : BitVec 32) : Option (BitVec 32) := if v ≠ 0 then some v else none

def flag (v : BitVec 32) : Option (BitVec 32) := if v ≠ -1 then some (if v ≠ 0 then 1 else 0) else none

/-- stores the number in its field -/
def putField (value : Option (BitVec 32)) (bit : BitVec 32) (set : Vf → BitVec 32 → Vf) (vf : Vf) : Vf :=
  match value with
  | none => vf
  | some v => { set vf v with ceMask := vf.ceMask ||| bit }

/-- takes an attribute with one number -/
def takeSetting (type : ℕ) (value : BitVec 32 → Option (BitVec 32)) (bit : BitVec 32) (set : Vf → BitVec 32 → Vf) (buf : Mem)
    (t : Index) (s : Parse) : Parse :=
  match t type with
  | none => s
  | some nla =>
    { s.access (.struct IFLA_VF_SETTING_SIZE nla) with vfData := putField (value (u32At buf nla 4)) bit set s.vfData }

/-- `IFLA_VF_TX_RATE` -/
def takeTxRate : Mem → Index → Parse → Parse :=
  takeSetting IFLA_VF_TX_RATE nonzero SRIOV_ATTR_TX_RATE fun vf v => { vf with vfRate := v }

/-- `IFLA_VF_SPOOFCHK` -/
def takeSpoofchk : Mem → Index → Parse → Parse :=
  takeSetting IFLA_VF_SPOOFCHK flag SRIOV_ATTR_SPOOFCHK fun vf v => { vf with vfSpoofchk := v }

/-- `IFLA_VF_LINK_STATE` -/
def takeLinkState : Mem → Index → Parse → Parse :=
  takeSetting IFLA_VF_LINK_STATE some SRIOV_ATTR_LINK_STATE fun vf v => { vf with vfLinkstate := v }

/-- `IFLA_VF_RSS_QUERY_EN` -/
def takeRssQueryEn : Mem → Index → Parse → Parse :=
  takeSetting IFLA_VF_RSS_QUERY_EN flag SRIOV_ATTR_RSS_QUERY_EN fun vf v => { vf with vfRssQueryEn := v }

/-- `IFLA_VF_TRUST` -/
def takeTrust : Mem → Index → Parse → Parse :=
  takeSetting IFLA_VF_TRUST flag SRIOV_ATTR_TRUST fun vf v => { vf with vfTrust := v }

/-- `IFLA_VF_RATE` -/
def takeRate (buf : Mem) (t : Index) (s : Parse) : Parse :=
  match t IFLA_VF_RATE with
  | none => s
  | some nla =>
    let vf := putField (nonzero (u32At buf nla 8)) SRIOV_ATTR_RATE_MAX (fun vf v => { vf with vfMaxTxRate := v }) s.vfData
    { s.access (.struct IFLA_VF_RATE_SIZE nla) with
      vfData := putField (nonzero (u32At buf nla 4)) SRIOV_ATTR_RATE_MIN (fun vf v => { vf with vfMinTxRate := v }) vf }

/-- the statistics of a table -/
def statsOf (buf : Mem) (stb : Index) (stat : Fin (RTNL_LINK_VF_STATS_MAX + 1)) : BitVec 64 :=
  match stb stat with
  | none => 0
  | some nla => nlaGetU64 buf nla

/-- `IFLA_VF_STATS`; the table of types beyond its end is kept here as well. The bit is the number of the attribute. -/
def takeStats (buf : Mem) (t : Index) (s : Parse) : Except (ℤ × Parse) Parse :=
  match t IFLA_VF_STATS with
  | none => .ok s
  | some nla =>
    let s := s.access (.table (RTNL_LINK_VF_STATS_MAX + 1) IFLA_VF_STATS_MAX)
    let r := nlaParseNested buf IFLA_VF_STATS_MAX nla (some sriovStatsPolicy)
    if r.1 < 0 then .error (r.1, s)
    else
      .ok { s with
        vfData := { s.vfData with
          vfStats := statsOf buf r.2, ceMask := s.vfData.ceMask ||| BitVec.ofNat 32 IFLA_VF_STATS } }

/-- the loop body, with the table filled: a new VF, and what the entry carries -/
def takeVf (buf : Mem) (t : Index) (s : Parse) : Except (ℤ × Parse) Parse :=
  match takeVlans buf t (takeMac buf t { s with vfData := rtnlLinkVfAlloc }) with
  | .error e => .error e
  | .ok s =>
    match takeStats buf t
      (takeRssQueryEn buf t (takeRate buf t (takeLinkState buf t (takeSpoofchk buf t (takeTxRate buf t s))))) with
    | .error e => .error e
    | .ok s =>
      let s := takeTrust buf t s
      .ok { s with vfList := s.vfList ++ [s.vfData] }

/-- the loop body -/
def parseVflistBody (buf : Mem) (s : Parse) (nla : ℕ) : Except (ℤ × Parse) Parse :=
  let s := s.access (.table (IFLA_VF_MAX + 1) IFLA_VF_MAX)
  let r := nlaParseNested buf IFLA_VF_MAX nla (some sriovInfoPolicy)
  if r.1 < 0 then .error (r.1, s) else takeVf buf r.2 s

/-- `rtnl_link_sriov_parse_vflist`: the code it returns, and the state it leaves. The new VF goes behind the one that was
added last, so that the list is in the order of the entries. -/
def rtnlLinkSriovParseVflist (buf : Mem) (vfinfoList : ℕ) : ℤ × Parse :=
  match nlaForEachAttr buf (parseVflistBody buf) ((nlaLen buf vfinfoList).toNat + 1) ⟨none, rtnlLinkVfAlloc, [], []⟩
    (nlaData vfinfoList) (nlaLen buf vfinfoList) with
  | some (.error e) => e
  | some (.ok s) => (0, s)
  | none => (0, ⟨none, rtnlLinkVfAlloc, [], []⟩)

/-! ## What an entry carries -/

/-- the table of an entry -/
def tableOf (buf : Mem) (nla : ℕ) : Index := (nlaParseNested buf IFLA_VF_MAX nla (some sriovInfoPolicy)).2

end

/-- the attributes of a VF, as callers see them -/
@[ext]
structure VfAttrs where
  index : Option (BitVec 32)
  addr : Option NlAddr
  vlans : Option (List NlVfVlanInfo)
  txRate : Option (BitVec 32)
  spoofchk : Option (BitVec 32)
  linkState : Option (BitVec 32)
  rateMax : Option (BitVec 32)
  rateMin : Option (BitVec 32)
  rssQueryEn : Option (BitVec 32)
  stats : Option (Fin (RTNL_LINK_VF_STATS_MAX + 1) → BitVec 64)
  trust : Option (BitVec 32)

/-- the VLANs of a list -/
def NlVfVlans.infos (v : NlVfVlans) : List NlVfVlanInfo := v.vlans.toList.take v.size

/-- the bits and the fields together; a `NULL` list has no VLANs -/
def RtnlLinkVf.attrs (vf : Vf) : VfAttrs where
  index := if vf.has SRIOV_ATTR_INDEX then some vf.vfIndex else none
  addr := if vf.has SRIOV_ATTR_ADDR then vf.vfLladdr else none
  vlans := if vf.has SRIOV_ATTR_VLAN then some ((vf.vfVlans.map NlVfVlans.infos).getD []) else none
  txRate := if vf.has SRIOV_ATTR_TX_RATE then some vf.vfRate else none
  spoofchk := if vf.has SRIOV_ATTR_SPOOFCHK then some vf.vfSpoofchk else none
  linkState := if vf.has SRIOV_ATTR_LINK_STATE then some vf.vfLinkstate else none
  rateMax := if vf.has SRIOV_ATTR_RATE_MAX then some vf.vfMaxTxRate else none
  rateMin := if vf.has SRIOV_ATTR_RATE_MIN then some vf.vfMinTxRate else none
  rssQueryEn := if vf.has SRIOV_ATTR_RSS_QUERY_EN then some vf.vfRssQueryEn else none
  stats := if vf.has SRIOV_ATTR_STATS then some vf.vfStats else none
  trust := if vf.has SRIOV_ATTR_TRUST then some vf.vfTrust else none

section
variable [HostOrder]

/-- the number of an attribute, if it is there and counts as set -/
def carriedSetting (buf : Mem) (t : Index) (type : ℕ) (value : BitVec 32 → Option (BitVec 32)) (off : ℕ) :
    Option (BitVec 32) :=
  (t type).bind fun nla => value (u32At buf nla off)

/-- a VLAN in a list, if the attribute is as long as the structure -/
def carriedInfo (buf : Mem) (nla : ℕ) : Option NlVfVlanInfo :=
  if (IFLA_VF_VLAN_INFO_SIZE : ℤ) ≤ nlaLen buf nla then some (vlanInfoOf buf nla) else none

/-- the VLANs of an entry: the first of its list, or the one -/
def carriedVlans (buf : Mem) (t : Index) : Option (List NlVfVlanInfo) :=
  match t IFLA_VF_VLAN_LIST with
  | some list => ((nestedAttrs buf list).take MAX_VLAN_LIST_LEN).mapM (carriedInfo buf)
  | none => (t IFLA_VF_VLAN).bind fun nla =>
    if u32At buf nla 4 ≠ 0 then some [⟨u32At buf nla 4, u32At buf nla 8, ETH_P_8021Q⟩] else none

/-- the statistics of an entry -/
def carriedStats (buf : Mem) (t : Index) : Option (Fin (RTNL_LINK_VF_STATS_MAX + 1) → BitVec 64) :=
  (t IFLA_VF_STATS).map fun nla => statsOf buf (nlaParseNested buf IFLA_VF_STATS_MAX nla (some sriovStatsPolicy)).2

/-- what an entry says about its VF -/
def carried (buf : Mem) (t : Index) : VfAttrs where
  index := (t IFLA_VF_MAC).map fun nla => u32At buf nla 0
  addr := (t IFLA_VF_MAC).map fun nla => nlAddrBuild Family.AF_LLC (readBytes buf (nlaData nla + 4) 6)
  vlans := carriedVlans buf t
  txRate := carriedSetting buf t IFLA_VF_TX_RATE nonzero 4
  spoofchk := carriedSetting buf t IFLA_VF_SPOOFCHK flag 4
  linkState := carriedSetting buf t IFLA_VF_LINK_STATE some 4
  rateMax := carriedSetting buf t IFLA_VF_RATE nonzero 8
  rateMin := carriedSetting buf t IFLA_VF_RATE nonzero 4
  rssQueryEn := carriedSetting buf t IFLA_VF_RSS_QUERY_EN flag 4
  stats := carriedStats buf t
  trust := carriedSetting buf t IFLA_VF_TRUST flag 4

end

/-! ## One entry -/

/-- the bit of an attribute, if it is set -/
def bitIf {α : Type} (o : Option α) (bit : BitVec 32) : BitVec 32 := if o.isSome then bit else 0

/-- the structure read in an attribute -/
def structAt (t : Index) (type size : ℕ) : List SriovAccess := (t type).toList.map (.struct size)

/-- with the field that `set` stores in and `get` reads -/
theorem putField_eq {set : Vf → BitVec 32 → Vf} (get : Vf → BitVec 32) (hget : ∀ vf, set vf (get vf) = vf)
    (value : Option (BitVec 32)) (bit : BitVec 32) (vf : Vf) : putField value bit set vf =
      { set vf (value.getD (get vf)) with ceMask := vf.ceMask ||| bitIf value bit } := by
  cases value with
  | none =>
    rw [Option.getD_none, hget]
    simp only [putField, bitIf, Option.isSome_none, Bool.false_eq_true, ↓reduceIte, BitVec.ofNat_eq_ofNat, BitVec.or_zero]
  | some v => rfl

/-- a list of one -/
def single (info : NlVfVlanInfo) : NlVfVlans := ⟨1, #v[info, ⟨0, 0, 0⟩]⟩

theorem single_infos (info : NlVfVlanInfo) : (single info).infos = [info] := rfl

section
variable [HostOrder] (buf : Mem) (t : Index) (s : Parse)

theorem takeMac_eq : takeMac buf t s = { s with
    accesses := s.accesses ++ structAt t IFLA_VF_MAC IFLA_VF_MAC_SIZE
    vfData := { s.vfData with
      vfIndex := (carried buf t).index.getD s.vfData.vfIndex
      vfLladdr := (carried buf t).addr.or s.vfData.vfLladdr
      ceMask := s.vfData.ceMask ||| bitIf (carried buf t).index SRIOV_ATTR_INDEX
        ||| bitIf (carried buf t).addr SRIOV_ATTR_ADDR } } := by
  unfold takeMac structAt carried bitIf Parse.access
  cases t IFLA_VF_MAC with
  | none => simp
  | some nla => simp

theorem takeSetting_eq {set : Vf → BitVec 32 → Vf} (get : Vf → BitVec 32) (hget : ∀ vf, set vf (get vf) = vf) (type : ℕ)
    (value : BitVec 32 → Option (BitVec 32)) (bit : BitVec 32) : takeSetting type value bit set buf t s = { s with
      accesses := s.accesses ++ structAt t type IFLA_VF_SETTING_SIZE
      vfData := { set s.vfData ((carriedSetting buf t type value 4).getD (get s.vfData)) with
        ceMask := s.vfData.ceMask ||| bitIf (carriedSetting buf t type value 4) bit } } := by
  rw [← putField_eq get hget]
  unfold takeSetting structAt carriedSetting Parse.access
  cases t type with
  | none => simp [putField]
  | some nla => rfl

theorem takeTxRate_eq : takeTxRate buf t s = { s with
    accesses := s.accesses ++ structAt t IFLA_VF_TX_RATE IFLA_VF_SETTING_SIZE
    vfData := { s.vfData with
      vfRate := (carried buf t).txRate.getD s.vfData.vfRate
      ceMask := s.vfData.ceMask ||| bitIf (carried buf t).txRate SRIOV_ATTR_TX_RATE } } :=
  takeSetting_eq buf t s RtnlLinkVf.vfRate (fun _ => rfl) _ _ _

theorem takeSpoofchk_eq : takeSpoofchk buf t s = { s with
    accesses := s.accesses ++ structAt t IFLA_VF_SPOOFCHK IFLA_VF_SETTING_SIZE
    vfData := { s.vfData with
      vfSpoofchk := (carried buf t).spoofchk.getD s.vfData.vfSpoofchk
      ceMask := s.vfData.ceMask ||| bitIf (carried buf t).spoofchk SRIOV_ATTR_SPOOFCHK } } :=
  takeSetting_eq buf t s RtnlLinkVf.vfSpoofchk (fun _ => rfl) _ _ _

theorem takeLinkState_eq : takeLinkState buf t s = { s with
    accesses := s.accesses ++ structAt t IFLA_VF_LINK_STATE IFLA_VF_SETTING_SIZE
    vfData := { s.vfData with
      vfLinkstate := (carried buf t).linkState.getD s.vfData.vfLinkstate
      ceMask := s.vfData.ceMask ||| bitIf (carried buf t).linkState SRIOV_ATTR_LINK_STATE } } :=
  takeSetting_eq buf t s RtnlLinkVf.vfLinkstate (fun _ => rfl) _ _ _

theorem takeRssQueryEn_eq : takeRssQueryEn buf t s = { s with
    accesses := s.accesses ++ structAt t IFLA_VF_RSS_QUERY_EN IFLA_VF_SETTING_SIZE
    vfData := { s.vfData with
      vfRssQueryEn := (carried buf t).rssQueryEn.getD s.vfData.vfRssQueryEn
      ceMask := s.vfData.ceMask ||| bitIf (carried buf t).rssQueryEn SRIOV_ATTR_RSS_QUERY_EN } } :=
  takeSetting_eq buf t s RtnlLinkVf.vfRssQueryEn (fun _ => rfl) _ _ _

theorem takeTrust_eq : takeTrust buf t s = { s with
    accesses := s.accesses ++ structAt t IFLA_VF_TRUST IFLA_VF_SETTING_SIZE
    vfData := { s.vfData with
      vfTrust := (carried buf t).trust.getD s.vfData.vfTrust
      ceMask := s.vfData.ceMask ||| bitIf (carried buf t).trust SRIOV_ATTR_TRUST } } :=
  takeSetting_eq buf t s RtnlLinkVf.vfTrust (fun _ => rfl) _ _ _

theorem takeRate_eq : takeRate buf t s = { s with
    accesses := s.accesses ++ structAt t IFLA_VF_RATE IFLA_VF_RATE_SIZE
    vfData := { s.vfData with
      vfMaxTxRate := (carried buf t).rateMax.getD s.vfData.vfMaxTxRate
      vfMinTxRate := (carried buf t).rateMin.getD s.vfData.vfMinTxRate
      ceMask := s.vfData.ceMask ||| bitIf (carried buf t).rateMax SRIOV_ATTR_RATE_MAX
        ||| bitIf (carried buf t).rateMin SRIOV_ATTR_RATE_MIN } } := by
  have hmax := @putField_eq (fun vf v => { vf with vfMaxTxRate := v }) RtnlLinkVf.vfMaxTxRate fun _ => rfl
  have hmin := @putField_eq (fun vf v => { vf with vfMinTxRate := v }) RtnlLinkVf.vfMinTxRate fun _ => rfl
  simp only [takeRate, hmax, hmin]
  unfold structAt carried carriedSetting Parse.access
  cases t IFLA_VF_RATE with
  | none => simp [bitIf]
  | some nla => rfl

/-- the statistics that are stored, and the bit that is set for them -/
theorem takeStats_eq {s' : Parse} (h : takeStats buf t s = .ok s') : s' = { s with
    accesses := s.accesses ++ (t IFLA_VF_STATS).toList.map fun _ => .table (RTNL_LINK_VF_STATS_MAX + 1) IFLA_VF_STATS_MAX
    vfData := { s.vfData with
      vfStats := (carried buf t).stats.getD s.vfData.vfStats
      ceMask := s.vfData.ceMask ||| bitIf (carried buf t).stats (BitVec.ofNat 32 IFLA_VF_STATS) } } := by
  unfold takeStats at h
  unfold carried carriedStats bitIf
  cases hstats : t IFLA_VF_STATS with
  | none =>
    rw [hstats] at h
    cases h
    simp
  | some nla =>
    rw [hstats] at h
    dsimp only at h
    split_ifs at h
    cases h
    rfl

/-! The VLANs -/

/-- the attributes of its VLAN list that an entry has taken -/
def takenVlans (list : ℕ) : List ℕ := (nestedAttrs buf list).take MAX_VLAN_LIST_LEN

/-- the VLAN list that an entry makes -/
def ownVlans : Option NlVfVlans :=
  match t IFLA_VF_VLAN_LIST with
  | some list => (nestedAttrs buf list).head?.map fun nla => single (vlanInfoOf buf nla)
  | none => (t IFLA_VF_VLAN).bind fun nla =>
    if u32At buf nla 4 ≠ 0 then some (single ⟨u32At buf nla 4, u32At buf nla 8, ETH_P_8021Q⟩) else none

/-- whether an entry sets the bit for VLANs -/
def setsVlans : Bool := (t IFLA_VF_VLAN_LIST).isSome || (ownVlans buf t).isSome

/-- the structures it reads for them -/
def vlanStructs : List SriovAccess :=
  match t IFLA_VF_VLAN_LIST with
  | some list => (takenVlans buf list).map (.struct IFLA_VF_VLAN_INFO_SIZE)
  | none => structAt t IFLA_VF_VLAN IFLA_VF_VLAN_SIZE

theorem vlanList_eq (list : ℕ) : vlanList buf list = takenVlans buf list := by
  rw [vlanList, nlaForEachAttr, forEach_eq_foldlM _ _ _ _ _ _ _ _ (nested_visits buf list), takenVlans]
  cases nestedAttrs buf list with
  | nil => rfl
  | cons nla rest =>
    cases rest with
    | nil => rfl
    | cons nla' rest => rfl

theorem vlanInfo_eq (list : ℕ) (nvi : Option NlVfVlans) : rtnlLinkVfVlanInfo buf (takenVlans buf list) nvi =
    .ok (((nestedAttrs buf list).head?.map fun nla => single (vlanInfoOf buf nla)).or nvi) := by
  unfold takenVlans
  cases nestedAttrs buf list with
  | nil => rfl
  | cons nla rest => rfl

theorem takeVlans_eq : takeVlans buf t s = .ok { s with
    accesses := s.accesses ++ vlanStructs buf t
    vfVlans := (ownVlans buf t).or s.vfVlans
    vfData := { s.vfData with
      vfVlans := if setsVlans buf t then (ownVlans buf t).or s.vfVlans else s.vfData.vfVlans
      ceMask := s.vfData.ceMask ||| if setsVlans buf t then SRIOV_ATTR_VLAN else 0 } } := by
  unfold takeVlans setsVlans ownVlans vlanStructs structAt
  cases t IFLA_VF_VLAN_LIST with
  | some list =>
    simp only [vlanList_eq, vlanInfo_eq]
    rfl
  | none =>
    cases t IFLA_VF_VLAN with
    | none => simp
    | some nla =>
      by_cases hvlan : u32At buf nla 4 = 0
      · simp [Parse.access, hvlan]
      · have halloc : rtnlLinkVfVlanAlloc 1 = .ok ⟨1, Vector.replicate _ ⟨0, 0, 0⟩⟩ := rfl
        simp only [ne_eq, hvlan, not_false_eq_true, ↓reduceIte, halloc, Option.bind_some]
        rfl

/-- the structures an entry is read with, up to its statistics -/
def frontReads : List SriovAccess :=
  structAt t IFLA_VF_MAC IFLA_VF_MAC_SIZE ++ vlanStructs buf t ++ structAt t IFLA_VF_TX_RATE IFLA_VF_SETTING_SIZE ++
    structAt t IFLA_VF_SPOOFCHK IFLA_VF_SETTING_SIZE ++ structAt t IFLA_VF_LINK_STATE IFLA_VF_SETTING_SIZE ++
    structAt t IFLA_VF_RATE IFLA_VF_RATE_SIZE ++ structAt t IFLA_VF_RSS_QUERY_EN IFLA_VF_SETTING_SIZE

/-- the table of its statistics, and what is read behind them -/
def statsTable : List SriovAccess :=
  (t IFLA_VF_STATS).toList.map fun _ => .table (RTNL_LINK_VF_STATS_MAX + 1) IFLA_VF_STATS_MAX

/-- the bits an entry sets, in the order of the code -/
def maskBits : List (BitVec 32) :=
  [bitIf (carried buf t).index SRIOV_ATTR_INDEX, bitIf (carried buf t).addr SRIOV_ATTR_ADDR,
    if setsVlans buf t then SRIOV_ATTR_VLAN else 0, bitIf (carried buf t).txRate SRIOV_ATTR_TX_RATE,
    bitIf (carried buf t).spoofchk SRIOV_ATTR_SPOOFCHK, bitIf (carried buf t).linkState SRIOV_ATTR_LINK_STATE,
    bitIf (carried buf t).rateMax SRIOV_ATTR_RATE_MAX, bitIf (carried buf t).rateMin SRIOV_ATTR_RATE_MIN,
    bitIf (carried buf t).rssQueryEn SRIOV_ATTR_RSS_QUERY_EN, bitIf (carried buf t).stats (BitVec.ofNat 32 IFLA_VF_STATS),
    bitIf (carried buf t).trust SRIOV_ATTR_TRUST]

/-- the VF an entry makes, behind entries that left a VLAN list in the local variable -/
def vfOf (stale : Option NlVfVlans) : Vf where
  ceRefcnt := 1
  ceMask := (maskBits buf t).foldl (· ||| ·) 0
  vfIndex := (carried buf t).index.getD 0
  vfGuidNode := 0
  vfGuidPort := 0
  vfLinkstate := (carried buf t).linkState.getD 0
  vfLladdr := (carried buf t).addr
  vfMaxTxRate := (carried buf t).rateMax.getD 0
  vfMinTxRate := (carried buf t).rateMin.getD 0
  vfRate := (carried buf t).txRate.getD 0
  vfRssQueryEn := (carried buf t).rssQueryEn.getD 0
  vfSpoofchk := (carried buf t).spoofchk.getD 0
  vfStats := (carried buf t).stats.getD fun _ => 0
  vfTrust := (carried buf t).trust.getD 0
  vfVlans := if setsVlans buf t then (ownVlans buf t).or stale else none

/-- what is taken of it before the statistics -/
def front : Parse where
  vfVlans := (ownVlans buf t).or s.vfVlans
  vfData := { vfOf buf t s.vfVlans with
    ceMask := ((maskBits buf t).take 9).foldl (· ||| ·) 0, vfStats := fun _ => 0, vfTrust := 0 }
  vfList := s.vfList
  accesses := s.accesses ++ frontReads buf t

/-- all else that is taken leaves these alone -/
theorem takeVf_front : takeVf buf t s = match takeStats buf t (front buf t s) with
    | .error e => .error e
    | .ok s' =>
      .ok { takeTrust buf t s' with vfList := (takeTrust buf t s').vfList ++ [(takeTrust buf t s').vfData] } := by
  rw [takeVf, takeVlans_eq]
  simp only [takeMac_eq, takeTxRate_eq, takeSpoofchk_eq, takeLinkState_eq, takeRate_eq, takeRssQueryEn_eq]
  simp only [front, frontReads, ← List.append_assoc]
  have haddr : (carried buf t).addr.or (rtnlLinkVfAlloc : Vf).vfLladdr = (carried buf t).addr := Option.or_none
  simp only [haddr]
  rfl

/-- **One entry**, if its statistics are fit to read: a VF with what it carries, but for the VLANs. -/
theorem takeVf_ok {s' : Parse} (h : takeVf buf t s = .ok s') : s'.vfVlans = (ownVlans buf t).or s.vfVlans ∧
    s'.vfList = s.vfList ++ [vfOf buf t s.vfVlans] ∧
    s'.accesses = s.accesses ++ frontReads buf t ++ statsTable t ++ structAt t IFLA_VF_TRUST IFLA_VF_SETTING_SIZE := by
  rw [takeVf_front] at h
  cases hstats : takeStats buf t (front buf t s) with
  | error e => rw [hstats] at h; cases h
  | ok s1 =>
    rw [hstats] at h
    cases h
    rw [takeTrust_eq, takeStats_eq buf t _ hstats]
    exact ⟨rfl, rfl, rfl⟩

/-- if not, all has been read but for what comes behind them -/
theorem takeVf_error {e : ℤ × Parse} (h : takeVf buf t s = .error e) : e.1 < 0 ∧ (t IFLA_VF_STATS).isSome = true ∧
    e.2.accesses = s.accesses ++ frontReads buf t ++ statsTable t := by
  rw [takeVf_front] at h
  cases hstats : takeStats buf t (front buf t s) with
  | ok s1 => rw [hstats] at h; cases h
  | error e' =>
    rw [hstats] at h
    cases h
    unfold takeStats at hstats
    unfold statsTable
    cases hs : t IFLA_VF_STATS with
    | none => rw [hs] at hstats; cases hstats
    | some nla =>
      rw [hs] at hstats
      dsimp only at hstats
      split_ifs at hstats with hneg
      cases hstats
      exact ⟨hneg, rfl, rfl⟩

/-! ## What callers see of a VF -/

end

theorem bitIf_or {α β : Type} (a : Option α) (b : Option β) (bit : BitVec 32) :
    bitIf a bit ||| bitIf b bit = if a.isSome || b.isSome then bit else 0 := by
  cases a with
  | none => exact BitVec.zero_or
  | some x =>
    cases b with
    | none => exact BitVec.or_zero
    | some y => exact BitVec.or_self

theorem some_getD {α : Type} (o : Option α) (x : α) : (if o.isSome then some (o.getD x) else none) = o := by
  cases o with
  | none => rfl
  | some y => rfl

theorem some_self {α : Type} (o : Option α) : (if o.isSome then o else none) = o := by
  cases o with
  | none => rfl
  | some y => rfl

/-- the bits the parser sets -/
def parsedBits : List (BitVec 32) :=
  [SRIOV_ATTR_INDEX, SRIOV_ATTR_ADDR, SRIOV_ATTR_VLAN, SRIOV_ATTR_TX_RATE, SRIOV_ATTR_SPOOFCHK, SRIOV_ATTR_LINK_STATE,
    SRIOV_ATTR_RATE_MAX, SRIOV_ATTR_RATE_MIN, SRIOV_ATTR_RSS_QUERY_EN, SRIOV_ATTR_TRUST]

section
variable [HostOrder] (buf : Mem) (t : Index) (stale : Option NlVfVlans)

/-- whether it does; that of the rate is set for statistics as well -/
def vfBits : List (BitVec 32 × Bool) :=
  [(SRIOV_ATTR_INDEX, (carried buf t).index.isSome), (SRIOV_ATTR_ADDR, (carried buf t).addr.isSome),
    (SRIOV_ATTR_VLAN, setsVlans buf t),
    (SRIOV_ATTR_TX_RATE, (carried buf t).txRate.isSome || (carried buf t).stats.isSome),
    (SRIOV_ATTR_SPOOFCHK, (carried buf t).spoofchk.isSome), (SRIOV_ATTR_LINK_STATE, (carried buf t).linkState.isSome),
    (SRIOV_ATTR_RATE_MAX, (carried buf t).rateMax.isSome), (SRIOV_ATTR_RATE_MIN, (carried buf t).rateMin.isSome),
    (SRIOV_ATTR_RSS_QUERY_EN, (carried buf t).rssQueryEn.isSome), (SRIOV_ATTR_TRUST, (carried buf t).trust.isSome)]

theorem vfBits_bits : (vfBits buf t).map Prod.fst = parsedBits := rfl

/-- the number of `IFLA_VF_STATS` is the bit of the rate -/
theorem vfOf_mask : (vfOf buf t stale).ceMask = maskOf (vfBits buf t) := by
  have hbit : BitVec.ofNat 32 IFLA_VF_STATS = SRIOV_ATTR_TX_RATE := by decide
  simp only [vfOf, maskBits, vfBits, maskOf, List.foldl_cons, List.foldl_nil, hbit]
  rw [← bitIf_or]
  simp only [bitIf, BitVec.ofNat_eq_ofNat, BitVec.zero_or, BitVec.or_zero]
  ac_rfl

theorem vfOf_has (i : ℕ) {bit : BitVec 32} {there : Bool} (h : (vfBits buf t)[i]? = some (bit, there)) :
    (vfOf buf t stale).has bit = there := by
  have hsep : separate ((vfBits buf t).map Prod.fst) = true := by
    rw [vfBits_bits]
    decide
  rw [RtnlLinkVf.has, vfOf_mask, Bool.eq_iff_iff, decide_eq_true_iff]
  exact maskOf_has hsep (List.mem_of_getElem? h)

/-- the parser sets no other bits -/
theorem vfOf_has_other {bit : BitVec 32} (h : (parsedBits.all fun b => decide (b &&& bit = 0)) = true) :
    (vfOf buf t stale).has bit = false := by
  have hzero : maskOf (vfBits buf t) &&& bit = 0 := by
    apply maskOf_and_zero
    intro a ha
    have hmem : a.1 ∈ parsedBits := vfBits_bits buf t ▸ List.mem_map_of_mem ha
    exact of_decide_eq_true (List.all_eq_true.1 h a.1 hmem)
  rw [RtnlLinkVf.has, vfOf_mask, decide_eq_false_iff_not, not_not]
  exact hzero

theorem vfOf_has_stats : (vfOf buf t stale).has SRIOV_ATTR_STATS = false := vfOf_has_other buf t stale (by decide)

/-- **What a VF shows** of its entry -/
theorem vfOf_attrs : (vfOf buf t stale).attrs = { carried buf t with
    vlans := if setsVlans buf t then some ((((ownVlans buf t).or stale).map NlVfVlans.infos).getD []) else none
    txRate := if (carried buf t).txRate.isSome || (carried buf t).stats.isSome then some ((carried buf t).txRate.getD 0)
      else none
    stats := none } := by
  simp only [RtnlLinkVf.attrs, vfOf_has buf t stale 0 rfl, vfOf_has buf t stale 1 rfl, vfOf_has buf t stale 2 rfl,
    vfOf_has buf t stale 3 rfl, vfOf_has buf t stale 4 rfl, vfOf_has buf t stale 5 rfl, vfOf_has buf t stale 6 rfl,
    vfOf_has buf t stale 7 rfl, vfOf_has buf t stale 8 rfl, vfOf_has buf t stale 9 rfl, vfOf_has_stats]
  simp only [vfOf, some_getD, some_self, Bool.false_eq_true, ↓reduceIte]
  cases setsVlans buf t with
  | true => rfl
  | false => rfl

/-! ## All entries -/

/-- the VFs that entries make, one after the other -/
def vfsOf : Option NlVfVlans → List ℕ → List Vf
  | _, [] => []
  | stale, nla :: rest => vfOf buf (tableOf buf nla) stale :: vfsOf ((ownVlans buf (tableOf buf nla)).or stale) rest

theorem fold_vfs {entries : List ℕ} {s s' : Parse} (h : entries.foldlM (parseVflistBody buf) s = .ok s') :
    s'.vfList = s.vfList ++ vfsOf buf s.vfVlans entries := by
  induction entries generalizing s with
  | nil =>
    cases h
    exact (List.append_nil _).symm
  | cons nla rest ih =>
    rw [List.foldlM_cons] at h
    cases hbody : parseVflistBody buf s nla with
    | error e => rw [hbody] at h; cases h
    | ok s1 =>
      rw [hbody] at h
      unfold parseVflistBody at hbody
      dsimp only at hbody
      split_ifs at hbody
      obtain ⟨hvlans, hlist, -⟩ := takeVf_ok buf _ _ hbody
      rw [ih h, hvlans, hlist, List.append_assoc]
      rfl

theorem parse_eq (attr : ℕ) : rtnlLinkSriovParseVflist buf attr =
    match (nestedAttrs buf attr).foldlM (parseVflistBody buf) ⟨none, rtnlLinkVfAlloc, [], []⟩ with
    | .error e => e
    | .ok s => (0, s) := by
  rw [rtnlLinkSriovParseVflist, nlaForEachAttr, forEach_eq_foldlM _ _ _ _ _ _ _ _ (nested_visits buf attr)]
  cases (nestedAttrs buf attr).foldlM (parseVflistBody buf) ⟨none, rtnlLinkVfAlloc, [], []⟩ with
  | error e => rfl
  | ok s => rfl

theorem body_error {s : Parse} {nla : ℕ} {e : ℤ × Parse} (h : parseVflistBody buf s nla = .error e) : e.1 < 0 := by
  unfold parseVflistBody at h
  dsimp only at h
  split_ifs at h with hneg
  · cases h
    exact hneg
  · exact (takeVf_error buf _ _ h).1

theorem fold_error {entries : List ℕ} {s : Parse} {e : ℤ × Parse} (h : entries.foldlM (parseVflistBody buf) s = .error e) :
    e.1 < 0 := by
  induction entries generalizing s with
  | nil => cases h
  | cons nla rest ih =>
    rw [List.foldlM_cons] at h
    cases hbody : parseVflistBody buf s nla with
    | error e' =>
      rw [hbody] at h
      cases h
      exact body_error buf hbody
    | ok s1 =>
      rw [hbody] at h
      exact ih h

/-- **A list that is accepted**: one VF for each entry -/
theorem parse_vfs {attr : ℕ} (hok : (rtnlLinkSriovParseVflist buf attr).1 = 0) :
    (rtnlLinkSriovParseVflist buf attr).2.vfList = vfsOf buf none (nestedAttrs buf attr) := by
  rw [parse_eq] at hok ⊢
  cases hfold : (nestedAttrs buf attr).foldlM (parseVflistBody buf) ⟨none, rtnlLinkVfAlloc, [], []⟩ with
  | error e =>
    rw [hfold] at hok
    exact absurd hok (fold_error buf hfold).ne
  | ok s => exact fold_vfs buf hfold

/-! ## When it is exact -/

/-- the entry has an `IFLA_VF_VLAN_LIST` without any VLAN -/
def EmptyList (nla : ℕ) : Prop := ∃ list, tableOf buf nla IFLA_VF_VLAN_LIST = some list ∧ nestedAttrs buf list = []

/-- the VLANs that are taken of its list are as long as the structure -/
def WholeVlans (nla : ℕ) : Prop :=
  ∀ list, tableOf buf nla IFLA_VF_VLAN_LIST = some list → ∀ vlan ∈ takenVlans buf list, IFLA_VF_VLAN_INFO_SIZE ≤ nlaLen buf vlan

/-- the VF is what the entry says -/
structure ExactVf (nla : ℕ) (vf : Vf) : Prop where
  attrs : vf.attrs = carried buf (tableOf buf nla)
  stat : ∀ stat, (∃ v, rtnlLinkVfGetStat vf stat = .ok v) ↔ (tableOf buf nla IFLA_VF_STATS).isSome = true

/-- the list says so -/
structure PlainList (entries : List ℕ) : Prop where
  stats : ∀ nla ∈ entries, tableOf buf nla IFLA_VF_STATS = none
  whole : ∀ nla ∈ entries, WholeVlans buf nla
  /-- no list is empty behind an entry with VLANs -/
  fresh : entries.Pairwise fun a b => (ownVlans buf (tableOf buf a)).isSome = true → ¬ EmptyList buf b

/-- a list as the parser stores it: of one VLAN, with a protocol -/
def Stored (v : NlVfVlans) : Prop := ∃ info, v = single info ∧ info.vfVlanProto ≠ 0

theorem vlanInfoOf_proto (nla : ℕ) : (vlanInfoOf buf nla).vfVlanProto ≠ 0 := by
  unfold vlanInfoOf
  dsimp only
  split_ifs with h
  · exact h
  · decide

theorem own_stored {t : Index} {v : NlVfVlans} (h : ownVlans buf t = some v) : Stored v := by
  unfold ownVlans at h
  cases hlist : t IFLA_VF_VLAN_LIST with
  | some list =>
    rw [hlist] at h
    obtain ⟨nla, -, hv⟩ := Option.map_eq_some_iff.1 h
    exact ⟨_, hv.symm, vlanInfoOf_proto buf nla⟩
  | none =>
    rw [hlist] at h
    obtain ⟨nla, -, hv⟩ := Option.bind_eq_some_iff.1 h
    split_ifs at hv
    have hproto : ETH_P_8021Q ≠ 0 := by decide
    exact ⟨_, (Option.some.inj hv).symm, hproto⟩

theorem or_stored {t : Index} {stale : Option NlVfVlans} (hstale : ∀ v ∈ stale, Stored v) :
    ∀ v ∈ (ownVlans buf t).or stale, Stored v := by
  intro v hv
  rcases Option.or_eq_some_iff.1 hv with h | ⟨-, h⟩
  · exact own_stored buf h
  · exact hstale v h

/-- the VLANs of one VF, behind a list that was left over -/
theorem vlans_exact_iff {t : Index} {stale : Option NlVfVlans} (hstale : ∀ v ∈ stale, Stored v) :
    (if setsVlans buf t then some ((((ownVlans buf t).or stale).map NlVfVlans.infos).getD []) else none) = carriedVlans buf t ↔
      (∀ list, t IFLA_VF_VLAN_LIST = some list → ∀ vlan ∈ takenVlans buf list, IFLA_VF_VLAN_INFO_SIZE ≤ nlaLen buf vlan) ∧
      (stale.isSome = true → ¬ ∃ list, t IFLA_VF_VLAN_LIST = some list ∧ nestedAttrs buf list = []) := by
  unfold setsVlans ownVlans carriedVlans takenVlans
  cases hlist : t IFLA_VF_VLAN_LIST with
  | none =>
    have hown : ∀ o : Option NlVfVlanInfo, (if (o.map single).isSome then
        some ((((o.map single).or stale).map NlVfVlans.infos).getD []) else none) = o.map fun info => [info] := fun o => by
      cases o with
      | none => rfl
      | some info => rfl
    refine iff_of_true ?_ ⟨fun _ h => (Option.some_ne_none _ h.symm).elim, fun _ h => ?_⟩
    · cases t IFLA_VF_VLAN with
      | none => exact hown none
      | some nla =>
        rw [Option.bind_some, Option.bind_some]
        by_cases hvlan : u32At buf nla 4 = 0
        · rw [if_neg (not_not_intro hvlan), if_neg (not_not_intro hvlan)]
          exact hown none
        · rw [if_pos hvlan, if_pos hvlan]
          exact hown (some _)
    · obtain ⟨list, h, -⟩ := h
      cases h
  | some list =>
    have hone : ∀ P : ℕ → Prop, (∀ l, some list = some l → P l) ↔ P list := fun P =>
      ⟨fun h => h list rfl, fun h l hl => Option.some.inj hl ▸ h⟩
    have hempty : (∃ l, some list = some l ∧ nestedAttrs buf l = []) ↔ nestedAttrs buf list = [] :=
      ⟨fun ⟨l, hl, h⟩ => Option.some.inj hl ▸ h, fun h => ⟨list, rfl, h⟩⟩
    rw [hone fun l => ∀ vlan ∈ (nestedAttrs buf l).take MAX_VLAN_LIST_LEN, _, hempty]
    simp only [Option.isSome_some, Bool.true_or, ↓reduceIte]
    cases nestedAttrs buf list with
    | nil =>
      cases stale with
      | none => exact iff_of_true rfl ⟨fun _ h => absurd h List.not_mem_nil, fun h => absurd h Bool.false_ne_true⟩
      | some v =>
        obtain ⟨info, rfl, -⟩ := hstale v rfl
        exact iff_of_false (fun h => List.cons_ne_nil info [] (Option.some.inj h)) fun h => h.2 rfl rfl
    | cons vlan rest =>
      have htaken : ((vlan :: rest).take MAX_VLAN_LIST_LEN).mapM (carriedInfo buf) = (carriedInfo buf vlan).map fun i => [i] := by
        show [vlan].mapM (carriedInfo buf) = _
        cases h : carriedInfo buf vlan <;> simp [h]
      have hmem : (∀ v ∈ (vlan :: rest).take MAX_VLAN_LIST_LEN, (IFLA_VF_VLAN_INFO_SIZE : ℤ) ≤ nlaLen buf v) ↔
          (IFLA_VF_VLAN_INFO_SIZE : ℤ) ≤ nlaLen buf vlan := List.forall_mem_singleton
      rw [htaken, hmem, carriedInfo, and_iff_left fun _ => List.cons_ne_nil vlan rest]
      split_ifs with h
      · exact iff_of_true rfl h
      · exact iff_of_false (Option.some_ne_none _) h

omit [HostOrder] in
theorem getStat_iff (vf : Vf) (stat : Fin (RTNL_LINK_VF_STATS_MAX + 1)) :
    (∃ v, rtnlLinkVfGetStat vf stat = .ok v) ↔ vf.has SRIOV_ATTR_STATS = true := by
  unfold rtnlLinkVfGetStat
  split_ifs with h
  · exact iff_of_true ⟨_, rfl⟩ h
  · exact iff_of_false (fun ⟨v, hv⟩ => by cases hv) h

theorem exactVf_iff {nla : ℕ} {stale : Option NlVfVlans} (hstale : ∀ v ∈ stale, Stored v) :
    ExactVf buf nla (vfOf buf (tableOf buf nla) stale) ↔
      tableOf buf nla IFLA_VF_STATS = none ∧ WholeVlans buf nla ∧ (stale.isSome = true → ¬ EmptyList buf nla) := by
  have hvlans := vlans_exact_iff buf (t := tableOf buf nla) hstale
  constructor
  · intro h
    have hattrs := h.attrs
    rw [vfOf_attrs] at hattrs
    have hstats : none = (carried buf (tableOf buf nla)).stats := congrArg VfAttrs.stats hattrs
    exact ⟨Option.map_eq_none_iff.1 hstats.symm, hvlans.1 (congrArg VfAttrs.vlans hattrs)⟩
  · rintro ⟨hnone, hrest⟩
    have hstats : (carried buf (tableOf buf nla)).stats = none := Option.map_eq_none_iff.2 hnone
    constructor
    · rw [vfOf_attrs, hvlans.2 hrest, hstats, Option.isSome_none, Bool.or_false, some_getD, ← hstats]
      rfl
    · intro stat
      rw [getStat_iff, vfOf_has_stats, hnone]
      exact Iff.rfl

theorem plainList_cons {nla : ℕ} {rest : List ℕ} : PlainList buf (nla :: rest) ↔
    (tableOf buf nla IFLA_VF_STATS = none ∧ WholeVlans buf nla ∧
      ((ownVlans buf (tableOf buf nla)).isSome = true → ∀ b ∈ rest, ¬ EmptyList buf b)) ∧ PlainList buf rest := by
  constructor
  · intro h
    obtain ⟨hhead, hrest⟩ := List.pairwise_cons.1 h.fresh
    refine ⟨⟨h.stats nla List.mem_cons_self, h.whole nla List.mem_cons_self, fun hown b hb => hhead b hb hown⟩, ?_, ?_, hrest⟩
    · exact fun a ha => h.stats a (List.mem_cons_of_mem nla ha)
    · exact fun a ha => h.whole a (List.mem_cons_of_mem nla ha)
  · rintro ⟨⟨hstats, hwhole, hfresh⟩, h⟩
    refine ⟨?_, ?_, List.pairwise_cons.2 ⟨fun b hb hown => hfresh hown b hb, h.fresh⟩⟩
    · exact List.forall_mem_cons.2 ⟨hstats, h.stats⟩
    · exact List.forall_mem_cons.2 ⟨hwhole, h.whole⟩

/-- the VFs behind a list that was left over -/
theorem vfsOf_exact_iff (entries : List ℕ) {stale : Option NlVfVlans} (hstale : ∀ v ∈ stale, Stored v) :
    List.Forall₂ (ExactVf buf) entries (vfsOf buf stale entries) ↔
      PlainList buf entries ∧ (stale.isSome = true → ∀ nla ∈ entries, ¬ EmptyList buf nla) := by
  induction entries generalizing stale with
  | nil => exact iff_of_true .nil ⟨⟨nofun, nofun, .nil⟩, fun _ => nofun⟩
  | cons nla rest ih =>
    rw [vfsOf, List.forall₂_cons, exactVf_iff buf hstale, ih (or_stored buf hstale), plainList_cons, Option.isSome_or, Bool.or_eq_true,
      List.forall_mem_cons]
    constructor
    · rintro ⟨⟨h1, h2, h3⟩, h4, h5⟩
      exact ⟨⟨⟨h1, h2, fun hown => h5 (Or.inl hown)⟩, h4⟩, fun hs => ⟨h3 hs, h5 (Or.inr hs)⟩⟩
    · rintro ⟨⟨⟨h1, h2, h3⟩, h4⟩, h5⟩
      exact ⟨⟨h1, h2, fun hs => (h5 hs).1⟩, h4, fun h => h.elim h3 fun hs => (h5 hs).2⟩

/-- **When parsing is exact**: no entry has statistics, VLANs are as long as their structure, and no VLAN list is empty behind an
entry that has VLANs. -/
theorem sriov_parse_exact_iff {attr : ℕ} (hok : (rtnlLinkSriovParseVflist buf attr).1 = 0) :
    List.Forall₂ (ExactVf buf) (nestedAttrs buf attr) (rtnlLinkSriovParseVflist buf attr).2.vfList ↔
      PlainList buf (nestedAttrs buf attr) := by
  rw [parse_vfs buf hok, vfsOf_exact_iff buf _ (fun _ h => by cases h)]
  exact and_iff_left fun h => absurd h Bool.false_ne_true

/-! Messages with a few VFs -/

/-- an `IFLA_VFINFO_LIST` with these entries -/
def vflist (entries : List (List Leaf)) : Mem :=
  memOf (encLeaves [⟨IFLA_VFINFO_LIST, encLeaves (entries.map fun ls => ⟨IFLA_VF_INFO, encLeaves ls⟩)⟩])

def sampleMac (vf : ℕ) : Leaf := ⟨IFLA_VF_MAC, u32Bytes vf ++ List.replicate 32 0⟩

def sampleVlan (vf vlan : ℕ) : Leaf := ⟨IFLA_VF_VLAN, u32Bytes vf ++ u32Bytes vlan ++ u32Bytes 0⟩

/-- a VF with VLAN 5, and one with a link state -/
def plainSample : Mem :=
  vflist [[sampleMac 0, sampleVlan 0 5], [sampleMac 1, ⟨IFLA_VF_LINK_STATE, u32Bytes 1 ++ u32Bytes 2⟩]]

/-- a VF with VLAN 5, and one with an empty list -/
def staleSample : Mem := vflist [[sampleMac 0, sampleVlan 0 5], [sampleMac 1, ⟨IFLA_VF_VLAN_LIST, []⟩]]

end

section
variable [HostOrder] (buf : Mem)

theorem plainList_of_tables {entries : List ℕ} (h : (entries.all fun nla =>
    (tableOf buf nla IFLA_VF_STATS).isNone && (tableOf buf nla IFLA_VF_VLAN_LIST).isNone) = true) : PlainList buf entries := by
  have hall : ∀ nla ∈ entries, tableOf buf nla IFLA_VF_STATS = none ∧ tableOf buf nla IFLA_VF_VLAN_LIST = none := by
    simpa only [List.all_eq_true, Bool.and_eq_true, Option.isNone_iff_eq_none] using h
  have hlist : ∀ nla ∈ entries, ∀ list, tableOf buf nla IFLA_VF_VLAN_LIST ≠ some list := fun nla hnla list hl =>
    Option.some_ne_none list (hl.symm.trans (hall nla hnla).2)
  refine ⟨fun nla hnla => (hall nla hnla).1, fun nla hnla list hl => absurd hl (hlist nla hnla list), ?_⟩
  exact List.pairwise_of_forall_mem_list fun a _ b hb _ ⟨list, hl, _⟩ => hlist b hb list hl

theorem exact_attrs {entries : List ℕ} {vfs : List Vf} (h : List.Forall₂ (ExactVf buf) entries vfs) :
    vfs.map RtnlLinkVf.attrs = entries.map fun nla => carried buf (tableOf buf nla) := by
  induction h with
  | nil => rfl
  | cons hvf _ ih => rw [List.map_cons, List.map_cons, ih, hvf.attrs]

end

/-- **Two plain entries** -/
theorem sriov_parse_exact_iff_plain :
    List.Forall₂ (@ExactVf ⟨false⟩ (@plainSample ⟨false⟩)) (@nestedAttrs ⟨false⟩ (@plainSample ⟨false⟩) 0)
      (@rtnlLinkSriovParseVflist ⟨false⟩ (@plainSample ⟨false⟩) 0).2.vfList := by
  have hok : (@rtnlLinkSriovParseVflist ⟨false⟩ (@plainSample ⟨false⟩) 0).1 = 0 := by decide +kernel
  have hplain : @PlainList ⟨false⟩ (@plainSample ⟨false⟩) (@nestedAttrs ⟨false⟩ (@plainSample ⟨false⟩) 0) :=
    @plainList_of_tables ⟨false⟩ _ _ (by decide +kernel)
  exact (@sriov_parse_exact_iff ⟨false⟩ (@plainSample ⟨false⟩) 0 hok).2 hplain

/-- **A VF with an empty VLAN list gets the VLAN of the one before it.** -/
theorem vlans_left_over : (@rtnlLinkSriovParseVflist ⟨false⟩ (@staleSample ⟨false⟩) 0).1 = 0 ∧
    (@rtnlLinkSriovParseVflist ⟨false⟩ (@staleSample ⟨false⟩) 0).2.vfList.map (fun vf => vf.attrs.vlans) =
      [some [⟨5, 0, ETH_P_8021Q⟩], some [⟨5, 0, ETH_P_8021Q⟩]] ∧
    ¬ List.Forall₂ (@ExactVf ⟨false⟩ (@staleSample ⟨false⟩)) (@nestedAttrs ⟨false⟩ (@staleSample ⟨false⟩) 0)
      (@rtnlLinkSriovParseVflist ⟨false⟩ (@staleSample ⟨false⟩) 0).2.vfList := by
  have hvlans : (@rtnlLinkSriovParseVflist ⟨false⟩ (@staleSample ⟨false⟩) 0).2.vfList.map (fun vf => vf.attrs.vlans) =
      [some [⟨5, 0, ETH_P_8021Q⟩], some [⟨5, 0, ETH_P_8021Q⟩]] := by decide +kernel
  have hcarried : (@nestedAttrs ⟨false⟩ (@staleSample ⟨false⟩) 0).map (fun nla =>
      @carriedVlans ⟨false⟩ (@staleSample ⟨false⟩) (@tableOf ⟨false⟩ (@staleSample ⟨false⟩) nla)) =
      [some [⟨5, 0, ETH_P_8021Q⟩], some []] := by decide +kernel
  refine ⟨by decide +kernel, hvlans, fun h => ?_⟩
  have hattrs := congrArg (List.map VfAttrs.vlans) (@exact_attrs ⟨false⟩ _ _ _ h)
  rw [List.map_map, List.map_map] at hattrs
  exact absurd (hvlans.symm.trans (hattrs.trans hcarried)) (by decide)

/-! ## What is looked at -/

section
variable [HostOrder] (buf : Mem)

/-- the table has an entry for every type, the structure lies in the payload -/
def InBounds : SriovAccess → Prop
  | .table entries maxtype => maxtype + 1 ≤ entries
  | .struct size nla => (size : ℤ) ≤ nlaLen buf nla

/-- all that was looked at is in bounds -/
def AllInBounds (as : List SriovAccess) : Prop := ∀ a ∈ as, InBounds buf a

theorem allInBounds_append (as bs : List SriovAccess) :
    AllInBounds buf (as ++ bs) ↔ AllInBounds buf as ∧ AllInBounds buf bs := List.forall_mem_append

/-- the entry is accepted -/
def accepted (nla : ℕ) : Bool := decide (0 ≤ (nlaParseNested buf IFLA_VF_MAX nla (some sriovInfoPolicy)).1)

/-- the entries before the first one that is not -/
def reached (entries : List ℕ) : List ℕ := entries.takeWhile (accepted buf)

/-- the policy wants the structure of a type -/
theorem structAt_inBounds {nla type size : ℕ} (hacc : accepted buf nla = true)
    (hsize : policyMinlen (sriovInfoPolicy type) = size) : AllInBounds buf (structAt (tableOf buf nla) type size) := by
  intro a ha
  obtain ⟨pos, hpos, rfl⟩ := List.mem_map.1 ha
  have hconf := nlaParseNested_conforms (of_decide_eq_true hacc) (Option.mem_toList.1 hpos)
  rw [← hsize]
  exact hconf.min

theorem vlanStructs_inBounds_iff {nla : ℕ} (hacc : accepted buf nla = true) :
    AllInBounds buf (vlanStructs buf (tableOf buf nla)) ↔ WholeVlans buf nla := by
  unfold vlanStructs WholeVlans
  cases tableOf buf nla IFLA_VF_VLAN_LIST with
  | none => exact iff_of_true (structAt_inBounds buf hacc rfl) fun _ h => (Option.some_ne_none _ h.symm).elim
  | some list =>
    constructor
    · intro h l hl vlan hvlan
      cases hl
      exact h _ (List.mem_map_of_mem hvlan)
    · intro h a ha
      obtain ⟨vlan, hvlan, rfl⟩ := List.mem_map.1 ha
      exact h list rfl vlan hvlan

/-- up to the statistics only the VLANs of a list may be too short -/
theorem frontReads_inBounds_iff {nla : ℕ} (hacc : accepted buf nla = true) :
    AllInBounds buf (frontReads buf (tableOf buf nla)) ↔ WholeVlans buf nla := by
  have hat : ∀ type size, policyMinlen (sriovInfoPolicy type) = size → AllInBounds buf (structAt (tableOf buf nla) type size) :=
    fun type size => structAt_inBounds buf hacc
  simp only [frontReads, allInBounds_append, vlanStructs_inBounds_iff buf hacc]
  constructor
  · rintro ⟨⟨⟨⟨⟨⟨-, h⟩, -⟩, -⟩, -⟩, -⟩, -⟩
    exact h
  · intro h
    exact ⟨⟨⟨⟨⟨⟨hat _ _ rfl, h⟩, hat _ _ rfl⟩, hat _ _ rfl⟩, hat _ _ rfl⟩, hat _ _ rfl⟩, hat _ _ rfl⟩

theorem statsTable_inBounds_iff (t : Index) : AllInBounds buf (statsTable t) ↔ t IFLA_VF_STATS = none := by
  unfold statsTable
  cases t IFLA_VF_STATS with
  | none => exact iff_of_true (fun _ h => absurd h List.not_mem_nil) rfl
  | some nla =>
    refine iff_of_false (fun h => ?_) (Option.some_ne_none _)
    have hle : IFLA_VF_STATS_MAX + 1 ≤ RTNL_LINK_VF_STATS_MAX + 1 := h _ (List.mem_singleton_self _)
    exact absurd hle (by decide)

/-- no statistics, and VLANs as long as their structure -/
def Tame (nla : ℕ) : Prop := tableOf buf nla IFLA_VF_STATS = none ∧ WholeVlans buf nla

/-- one entry -/
theorem body_accesses {s : Parse} {nla : ℕ} {s' : Parse} (h : parseVflistBody buf s nla = .ok s') :
    accepted buf nla = true ∧ (AllInBounds buf s'.accesses ↔ AllInBounds buf s.accesses ∧ Tame buf nla) := by
  unfold parseVflistBody at h
  dsimp only at h
  split_ifs at h with hneg
  have hacc : accepted buf nla = true := decide_eq_true (not_lt.1 hneg)
  obtain ⟨-, -, hreads⟩ := takeVf_ok buf _ _ h
  have htable : AllInBounds buf [.table (IFLA_VF_MAX + 1) IFLA_VF_MAX] := fun a ha => by
    rw [List.mem_singleton.1 ha]
    exact le_refl _
  have htrust : AllInBounds buf (structAt (tableOf buf nla) IFLA_VF_TRUST IFLA_VF_SETTING_SIZE) :=
    structAt_inBounds buf hacc rfl
  refine ⟨hacc, ?_⟩
  rw [hreads]
  simp only [Parse.access, allInBounds_append, and_iff_left htable]
  rw [← tableOf, and_iff_left htrust, frontReads_inBounds_iff buf hacc, statsTable_inBounds_iff, and_assoc, Tame,
    and_comm (a := WholeVlans buf nla)]

/-- an entry that stops the parser: it is refused, or its statistics are -/
theorem body_accesses_error {s : Parse} {nla : ℕ} {e : ℤ × Parse} (h : parseVflistBody buf s nla = .error e) :
    accepted buf nla = false ∧ (AllInBounds buf e.2.accesses ↔ AllInBounds buf s.accesses) ∨
      accepted buf nla = true ∧ ¬ AllInBounds buf e.2.accesses ∧ ¬ Tame buf nla := by
  unfold parseVflistBody at h
  dsimp only at h
  split_ifs at h with hneg
  · cases h
    have htable : AllInBounds buf [.table (IFLA_VF_MAX + 1) IFLA_VF_MAX] := fun a ha => by
      rw [List.mem_singleton.1 ha]
      exact le_refl _
    refine Or.inl ⟨decide_eq_false (not_le.2 hneg), ?_⟩
    rw [Parse.access, allInBounds_append, and_iff_left htable]
  · obtain ⟨-, hstats, hreads⟩ := takeVf_error buf _ _ h
    rw [← tableOf] at hstats hreads
    have hsome : tableOf buf nla IFLA_VF_STATS ≠ none := Option.isSome_iff_ne_none.1 hstats
    refine Or.inr ⟨decide_eq_true (not_lt.1 hneg), fun hall => ?_, fun htame => hsome htame.1⟩
    rw [hreads, allInBounds_append] at hall
    exact hsome ((statsTable_inBounds_iff buf _).1 hall.2)

/-- the state in which the loop ends -/
def finalState : Except (ℤ × Parse) Parse → Parse
  | .error e => e.2
  | .ok s => s

theorem fold_accesses (entries : List ℕ) (s : Parse) :
    AllInBounds buf (finalState (entries.foldlM (parseVflistBody buf) s)).accesses ↔
      AllInBounds buf s.accesses ∧ ∀ nla ∈ reached buf entries, Tame buf nla := by
  induction entries generalizing s with
  | nil => exact (and_iff_left fun _ h => absurd h List.not_mem_nil).symm
  | cons nla rest ih =>
    rw [List.foldlM_cons]
    cases hbody : parseVflistBody buf s nla with
    | ok s1 =>
      obtain ⟨hacc, hiff⟩ := body_accesses buf hbody
      rw [reached, List.takeWhile_cons_of_pos hacc, List.forall_mem_cons, ← and_assoc, ← hiff]
      exact ih s1
    | error e =>
      rcases body_accesses_error buf hbody with ⟨hacc, hiff⟩ | ⟨hacc, hout, htame⟩
      · rw [reached, List.takeWhile_cons_of_neg (Bool.not_eq_true _ ▸ hacc)]
        exact hiff.trans (and_iff_left fun _ h => absurd h List.not_mem_nil).symm
      · rw [reached, List.takeWhile_cons_of_pos hacc, List.forall_mem_cons]
        exact iff_of_false hout fun h => htame h.2.1

/-- **When parsing is in bounds**: no entry that is reached has statistics, and the VLANs that are taken are as long as their
structure. -/
theorem sriov_reads_in_bounds_iff (attr : ℕ) : AllInBounds buf (rtnlLinkSriovParseVflist buf attr).2.accesses ↔
    ∀ nla ∈ reached buf (nestedAttrs buf attr), tableOf buf nla IFLA_VF_STATS = none ∧ WholeVlans buf nla := by
  have hnil : AllInBounds buf [] := fun _ h => absurd h List.not_mem_nil
  have hfold := fold_accesses buf (nestedAttrs buf attr) ⟨none, rtnlLinkVfAlloc, [], []⟩
  rw [and_iff_right hnil] at hfold
  have hfinal : (rtnlLinkSriovParseVflist buf attr).2 = finalState
      ((nestedAttrs buf attr).foldlM (parseVflistBody buf) ⟨none, rtnlLinkVfAlloc, [], []⟩) := by
    rw [parse_eq]
    cases (nestedAttrs buf attr).foldlM (parseVflistBody buf) ⟨none, rtnlLinkVfAlloc, [], []⟩ with
    | error e => rfl
    | ok s => rfl
  rw [hfinal]
  exact hfold

/-- a VF with empty statistics -/
def statsSample : Mem := vflist [[sampleMac 0, ⟨IFLA_VF_STATS, []⟩]]

end

/-- **The table for statistics has six entries and is filled up to type 8.** -/
theorem stats_table_overrun : (@rtnlLinkSriovParseVflist ⟨false⟩ (@statsSample ⟨false⟩) 0).2.accesses =
      [.table 13 12, .struct 36 8, .table 6 8] ∧
    ¬ @AllInBounds ⟨false⟩ (@statsSample ⟨false⟩)
      (@rtnlLinkSriovParseVflist ⟨false⟩ (@statsSample ⟨false⟩) 0).2.accesses := by
  have haccesses : (@rtnlLinkSriovParseVflist ⟨false⟩ (@statsSample ⟨false⟩) 0).2.accesses =
      [.table 13 12, .struct 36 8, .table 6 8] := by rfl
  refine ⟨haccesses, fun h => ?_⟩
  rw [haccesses] at h
  have hle : 8 + 1 ≤ 6 := h (.table 6 8) (by decide)
  exact absurd hle (by decide)

end Libnl.Sriov
