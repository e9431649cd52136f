/-
The messages in which a content of a route is said, written and read.

- `nhFieldList`, `nhBytes`, `routeFields`: the attributes that say a content, of a nexthop and of a route.
- `NhContent.again`, `RouteContent.again`: the content that is said when a route is written. Realms of zero are left out,
  routes of MPLS say their table in the header alone, and there is no cache information.
- `nhLeaves_content`, `routeImage_fields`: a route with a content is written as the attributes of what comes back of it.
- `parseRtnexthop_bytes`, `multipath_bytes`: the nexthops, read.
- `parse_fields`: a message that says a content is read, and the route shows it.
-/
import Mathlib.Tactic
import Libnl.Route.RouteRead

namespace Libnl.Route

open Bytes Walk Msg Attr AttrWalk AttrTree AttrStream Writer Fields
open Object Addr

variable [HostOrder]

/-! ## A nexthop -/

omit [HostOrder] in
/-- what comes back of a nexthop: realms of zero are none -/
def NhContent.again (x : NhContent) : NhContent := { x with realms := x.realms.filter fun v => decide (v ≠ 0) }

/-- the attributes in the nest of the encapsulation -/
def encapFields (e : List UInt8 × BitVec 8) : FieldList :=
  [(MPLS_IPTUNNEL_DST, some e.1), (MPLS_IPTUNNEL_TTL, if e.2 ≠ 0 then some [UInt8.ofBitVec e.2] else none)]

/-- the attributes of a nexthop -/
def nhFieldList (x : NhContent) : FieldList :=
  [(RTA_GATEWAY, x.gateway), (RTA_NEWDST, x.newdst), (RTA_VIA, x.via.map fun v => u16Bytes v.1.toNat ++ v.2),
    (RTA_FLOW, x.realms.map fun v => u32Bytes v.toNat), (RTA_ENCAP_TYPE, x.encap.map fun _ => u16Bytes LWTUNNEL_ENCAP_MPLS),
    (32768 + RTA_ENCAP, x.encap.map fun e => encLeaves (leavesOf (encapFields e)))]

theorem nhFieldList_distinct (x : NhContent) : Distinct (nhFieldList x) := by
  show List.Nodup _
  simp only [nhFieldList, List.map_cons, List.map_nil]
  decide

omit [HostOrder] in
theorem encapFields_distinct (e : List UInt8 × BitVec 8) : Distinct (encapFields e) := by
  show List.Nodup _
  simp only [encapFields, List.map_cons, List.map_nil]
  decide

omit [HostOrder] in
theorem encapLeaves_fields (e : List UInt8 × BitVec 8) :
    encapLeaves ⟨some (nlAddrBuild Family.AF_MPLS e.1), e.2⟩ = leavesOf (encapFields e) := by
  unfold encapLeaves encapFields
  by_cases httl : e.2 ≠ 0
  · rw [if_pos httl, leafIf, if_pos (decide_eq_true httl)]
    rfl
  · rw [if_neg httl, leafIf, if_neg (by simpa using httl)]
    rfl

omit [HostOrder] in
theorem addrLeaf_fields (t : ℕ) (family : ℤ) (a : Option (List UInt8)) :
    addrLeaf t (a.map (nlAddrBuild family)) = leavesOf [(t, a)] := by
  cases a with
  | none => rfl
  | some a => rfl

theorem viaLeaf_fields (v : Option (BitVec 16 × List UInt8)) :
    viaLeaf (v.map fun v => nlAddrBuild v.1.toNat v.2) = leavesOf [(RTA_VIA, v.map fun v => u16Bytes v.1.toNat ++ v.2)] := by
  cases v with
  | none => rfl
  | some v =>
    have hfamily : toU16 (v.1.toNat : ℤ) = v.1.toNat := toU16_natCast v.1.isLt
    simp only [Option.map_some, viaLeaf, nlAddrBuild, hfamily]
    rfl

theorem flowLeaf_fields (realms : Option (BitVec 32)) : leafIf (realms.getD 0 ≠ 0) RTA_FLOW (u32Bytes (realms.getD 0).toNat) =
    leavesOf [(RTA_FLOW, (realms.filter fun v => decide (v ≠ 0)).map fun v => u32Bytes v.toNat)] := by
  cases realms with
  | none => rfl
  | some v =>
    by_cases hv : v = 0
    · simp [leafIf, leavesOf, hv]
    · have hne : ¬ v = 0#32 := hv
      simp [leafIf, leavesOf, Option.filter, hne]

theorem encapAttrs_fields (e : Option (List UInt8 × BitVec 8)) :
    encapAttrs (e.map fun e => ⟨some (nlAddrBuild Family.AF_MPLS e.1), e.2⟩) =
      leavesOf [(RTA_ENCAP_TYPE, e.map fun _ => u16Bytes LWTUNNEL_ENCAP_MPLS),
        (32768 + RTA_ENCAP, e.map fun e => encLeaves (leavesOf (encapFields e)))] := by
  cases e with
  | none => rfl
  | some e =>
    rw [Option.map_some, encapAttrs, encapLeaves_fields]
    rfl

/-- the attributes that are written for a nexthop with this content -/
theorem nhLeaves_content (family : BitVec 8) (x : NhContent) : nhLeaves (x.nexthop family) = leavesOf (nhFieldList x.again) := by
  have hsplit : nhFieldList x.again = [(RTA_GATEWAY, x.gateway)] ++ ([(RTA_NEWDST, x.newdst)] ++
      ([(RTA_VIA, x.via.map fun v => u16Bytes v.1.toNat ++ v.2)] ++
        ([(RTA_FLOW, (x.realms.filter fun v => decide (v ≠ 0)).map fun v => u32Bytes v.toNat)] ++
          [(RTA_ENCAP_TYPE, x.encap.map fun _ => u16Bytes LWTUNNEL_ENCAP_MPLS),
            (32768 + RTA_ENCAP, x.encap.map fun e => encLeaves (leavesOf (encapFields e)))]))) := rfl
  rw [hsplit, leavesOf_append, leavesOf_append, leavesOf_append, leavesOf_append, ← addrLeaf_fields RTA_GATEWAY family.toNat,
    ← addrLeaf_fields RTA_NEWDST family.toNat, ← viaLeaf_fields, ← flowLeaf_fields, ← encapAttrs_fields]
  simp only [nhLeaves, multipathLeaves, NhContent.nexthop, List.append_assoc]
  rfl

/-- the bytes of a nexthop with this content -/
def nhBytes (x : NhContent) : List UInt8 :=
  u16Bytes (8 + (encLeaves (leavesOf (nhFieldList x))).length) ++ ([UInt8.ofBitVec x.flags, UInt8.ofBitVec x.hops] ++
    u32Bytes x.ifindex.toNat) ++ encLeaves (leavesOf (nhFieldList x))

def nhsBytes (xs : List NhContent) : List UInt8 := xs.flatMap nhBytes

@[simp] theorem nhBytes_length (x : NhContent) : (nhBytes x).length = 8 + (encLeaves (leavesOf (nhFieldList x))).length := by
  simp only [nhBytes, List.length_append, u16Bytes_length, u32Bytes_length]
  rfl

theorem nhsBytes_cons (x : NhContent) (xs : List NhContent) : nhsBytes (x :: xs) = nhBytes x ++ nhsBytes xs := rfl

theorem nhImages_content (family : BitVec 8) (xs : List NhContent) :
    nhImages (xs.map (NhContent.nexthop family)) = nhsBytes (xs.map NhContent.again) := by
  rw [nhImages, nhsBytes, List.flatMap_map, List.flatMap_map]
  refine List.flatMap_congr fun x _ => ?_
  rw [nhImage, nhLeaves_content]
  rfl

/-- attributes that fit together pass -/
theorem nhFieldList_sendable {x : NhContent} (hlen : (encLeaves (leavesOf (nhFieldList x))).length ≤ 65535) :
    Sendable routePolicy (nhFieldList x) := by
  have htypes : ∀ t ∈ (nhFieldList x).map Prod.fst, t < 65536 := by
    simp only [nhFieldList, List.map_cons, List.map_nil]
    decide
  have htype : ∀ f ∈ nhFieldList x, f.1 < 65536 := fun f hf => htypes f.1 (List.mem_map_of_mem hf)
  have hleaf : ∀ l ∈ leavesOf (nhFieldList x), l.type < 65536 := by
    intro l hl
    obtain ⟨f, hf, heq, -⟩ := mem_leavesOf.1 hl
    rw [heq]
    exact htype f hf
  have hfits : ∀ (i : ℕ) (t : ℕ) (p : Option (List UInt8)), (nhFieldList x)[i]? = some (t, p) →
      ∀ q ∈ p, 4 + q.length ≤ 65535 :=
    fun i t p hi q hq => (leaf_wf hlen hleaf ⟨t, q⟩ (mem_leavesOf.2 ⟨(t, p), List.mem_of_getElem? hi, rfl, hq.symm⟩)).len
  refine Sendable.cons (by decide) (sends_any rfl (hfits 0 _ _ rfl)) ?_
  refine Sendable.cons (by decide) (sends_any rfl (hfits 1 _ _ rfl)) ?_
  refine Sendable.cons (by decide) (sends_any rfl (hfits 2 _ _ rfl)) ?_
  refine Sendable.cons (by decide) (sends_u32 rfl _) ?_
  refine Sendable.cons (by decide) ?_ (Sendable.cons (by decide) (sends_nested rfl (hfits 5 _ _ rfl)) (Sendable.nil _))
  refine sends_min rfl (by decide) fun q hq => ?_
  obtain ⟨e, -, rfl⟩ := Option.mem_map.1 hq
  rw [u16Bytes_length]
  decide

/-! ## Reading a nexthop -/

section

variable {pton : ℕ → List UInt8 → Bool} {buf : Mem} {tb : Index} {family : BitVec 8} {x : NhContent}

theorem parseNewdst_shown (h : Shown buf tb RTA_NEWDST x.newdst) (hx : x.Valid pton) (c : NhContent) :
    parseNewdst pton buf family.toNat tb (c.nexthop family) =
      .ok (NhContent.nexthop family { c with newdst := x.newdst.or c.newdst }) := by
  rw [parseNewdst]
  cases hd : x.newdst with
  | none =>
    rw [hd] at h
    have hnone : tb RTA_NEWDST = none := h
    rw [hnone]
    rfl
  | some a =>
    rw [hd] at h
    obtain ⟨pos, type, hpos, hat⟩ := h
    rw [hpos]
    dsimp only
    rw [nlAddrAllocAttr, at_bytes hat, nhSetNewdst_content, if_pos (hx.newdst a hd)]
    rfl

theorem parseVia_shown (h : Shown buf tb RTA_VIA (x.via.map fun v => u16Bytes v.1.toNat ++ v.2)) (hx : x.Valid pton)
    (c : NhContent) :
    parseVia pton buf tb (c.nexthop family) = .ok (NhContent.nexthop family { c with via := x.via.or c.via }) := by
  rw [parseVia]
  cases hv : x.via with
  | none =>
    rw [hv] at h
    have hnone : tb RTA_VIA = none := h
    rw [hnone]
    rfl
  | some v =>
    rw [hv] at h
    obtain ⟨pos, type, hpos, hat⟩ := h
    obtain ⟨hfamily, haddr⟩ := seg_append.1 hat.data
    have hlen := hat.len
    simp only [List.length_append, u16Bytes_length] at hlen haddr
    have hread : rtnlRouteParseVia buf pos = .ok (nlAddrBuild v.1.toNat v.2) := by
      have halen : nlaLen buf pos - 2 = (v.2.length : ℤ) := by
        rw [hlen]
        push_cast
        omega
      rw [rtnlRouteParseVia]
      simp only [halen]
      rw [if_neg (by omega), Int.toNat_natCast, haddr.readBytes, hfamily.getU16, Nat.mod_eq_of_lt v.1.isLt]
    rw [hpos]
    dsimp only
    rw [hread]
    exact (nhSetVia_content c family pton v).trans (if_pos (hx.via v hv))

omit [HostOrder] in
theorem encapFields_sendable {e : List UInt8 × BitVec 8} (hmin : 4 ≤ e.1.length) (hfit : 4 + e.1.length ≤ 65535) :
    Sendable mplsEncapPolicy (encapFields e) := by
  refine Sendable.cons (by decide) (sends_min rfl (by decide) fun q hq => ?_) (Sendable.cons (by decide) ?_ (Sendable.nil _))
  · cases hq
    exact ⟨hfit, hmin⟩
  · refine sends_min rfl (by decide) fun q hq => ?_
    split_ifs at hq
    · cases hq
      refine ⟨show 4 + 1 ≤ 65535 by decide, ?_⟩
      show _ ≤ 1
      decide
    · cases hq

theorem parseEncap_shown (htype : Shown buf tb RTA_ENCAP_TYPE (x.encap.map fun _ => u16Bytes LWTUNNEL_ENCAP_MPLS))
    (hnest : Shown buf tb RTA_ENCAP (x.encap.map fun e => encLeaves (leavesOf (encapFields e))))
    (hfit : ∀ e ∈ x.encap, 4 + (encLeaves (leavesOf (encapFields e))).length ≤ 65535) (hx : x.Valid pton) (c : NhContent) :
    parseEncap pton buf tb (c.nexthop family) = .ok (NhContent.nexthop family { c with encap := x.encap.or c.encap }) := by
  cases he : x.encap with
  | none =>
    rw [he] at htype
    have hnone : tb RTA_ENCAP_TYPE = none := htype
    rw [parseEncap, hnone]
    cases tb RTA_ENCAP <;> rfl
  | some e =>
    rw [he] at htype hnest
    obtain ⟨tpos, ttype, htpos, htat⟩ := htype
    obtain ⟨pos, type, hpos, hat⟩ := hnest
    have hkind : getU16 buf (nlaData tpos) = LWTUNNEL_ENCAP_MPLS := htat.data.getU16
    have hfits := hfit e he
    have hdst : 4 + e.1.length ≤ 65535 := by
      have hle := le_align4 (4 + e.1.length)
      have hlen : (encLeaves (leavesOf (encapFields e))).length = align4 (4 + e.1.length) +
          (encLeaves (leavesOf [(MPLS_IPTUNNEL_TTL, if e.2 ≠ 0 then some [UInt8.ofBitVec e.2] else none)])).length := by
        rw [encapFields, leavesOf_cons, encLeaves_append, List.length_append]
        simp
      omega
    obtain ⟨ntb, hparse, hidx⟩ := parseNested_fields MPLS_IPTUNNEL_MAX hat (encapFields_sendable (hx.labels e he) hdst)
      (by omega)
    have hlabels := shown_plain hidx (encapFields_distinct e) (by decide) (List.mem_of_getElem? (i := 0) rfl) (by decide)
    have httl := shown_plain hidx (encapFields_distinct e) (by decide) (List.mem_of_getElem? (i := 1) rfl) (by decide)
    obtain ⟨dpos, dtype, hdpos, hdat⟩ := hlabels
    have hread : ∀ ttl : BitVec 8, ttl = e.2 →
        rtnlRouteNhEncapMpls (c.nexthop family) pton (nlAddrAllocAttr buf dpos Family.AF_MPLS) ttl =
          .ok (NhContent.nexthop family { c with encap := some e }) := by
      rintro ttl rfl
      rw [nlAddrAllocAttr, at_bytes hdat]
      exact (nhSetEncap_content c family pton e).trans (if_pos (hx.encap e he))
    rw [parseEncap, hpos, htpos]
    dsimp only
    rw [nhEncapParseMsg]
    simp only [hkind]
    rw [if_neg (by decide), if_neg (by decide), if_neg (by decide), mplsEncapParseMsg]
    simp only [hparse, hdpos]
    rw [if_neg (by decide)]
    by_cases hz : e.2 = 0
    · rw [if_neg (not_not.2 hz)] at httl
      have hnone : ntb MPLS_IPTUNNEL_TTL = none := httl
      rw [hnone]
      exact hread 0 hz.symm
    · rw [if_pos hz] at httl
      obtain ⟨upos, utype, hupos, huat⟩ := httl
      rw [hupos]
      exact hread _ (at_u8 huat)

/-- **The attributes of a nexthop**, read -/
theorem parseNhAttrs_fields (h : Indexes buf RTA_MAX (leavesOf (nhFieldList x)) tb) (hx : x.Valid pton)
    (hlen : (encLeaves (leavesOf (nhFieldList x))).length ≤ 65535) :
    parseNhAttrs pton buf family.toNat tb ((bareNexthop x.flags x.hops x.ifindex).nexthop family) = .ok (x.nexthop family) := by
  have hget : ∀ i t p, (nhFieldList x)[i]? = some (t, p) → t ≤ RTA_MAX → Shown buf tb t p := fun i t p hi ht =>
    shown_plain h (nhFieldList_distinct x) (by decide) (List.mem_of_getElem? hi) ht
  have hgateway : (tb RTA_GATEWAY).map (nlaBytes buf) = x.gateway := (hget 0 RTA_GATEWAY _ rfl (by decide)).bytes
  have hnewdst := hget 1 RTA_NEWDST _ rfl (by decide)
  have hvia := hget 2 RTA_VIA _ rfl (by decide)
  have hflow : (tb RTA_FLOW).map (nlaGetU32 buf) = x.realms := (hget 3 RTA_FLOW _ rfl (by decide)).u32
  have htype := hget 4 RTA_ENCAP_TYPE _ rfl (by decide)
  have hnest : Shown buf tb RTA_ENCAP (x.encap.map fun e => encLeaves (leavesOf (encapFields e))) :=
    shown_of_indexes h (nhFieldList_distinct x) (t := 32768 + RTA_ENCAP) (List.mem_of_getElem? (i := 5) rfl) (by decide)
  have hfit : ∀ e ∈ x.encap, 4 + (encLeaves (leavesOf (encapFields e))).length ≤ 65535 := fun e he =>
    (nhFieldList_sendable hlen).fits (32768 + RTA_ENCAP, _) (List.mem_of_getElem? (i := 5) rfl) _ (Option.mem_map_of_mem _ he)
  rw [parseNhAttrs, parseGateway_content, parseFlow_content, hgateway, hflow, parseNewdst_shown hnewdst hx]
  simp only [Except.bind]
  rw [parseVia_shown hvia hx]
  simp only
  rw [parseEncap_shown htype hnest hfit hx]
  simp only [bareNexthop, Option.or_none]

/-- the length in front of a nexthop -/
theorem nhBytes_field {pos : ℕ} (hseg : Seg buf pos (nhBytes x)) (hlen : (nhBytes x).length ≤ 65535) :
    getU16 buf pos = (nhBytes x).length := by
  rw [nhBytes_length] at hlen ⊢
  rw [nhBytes, List.append_assoc] at hseg
  rw [(seg_append.1 hseg).1.getU16, Nat.mod_eq_of_lt (by omega)]

/-- **A nexthop**, read -/
theorem parseRtnexthop_bytes {pos : ℕ} (hseg : Seg buf pos (nhBytes x)) (hlen : (nhBytes x).length ≤ 65535)
    (hx : x.Valid pton) : parseRtnexthop pton buf family.toNat pos = .ok (x.nexthop family) := by
  have hfield := nhBytes_field hseg hlen
  rw [nhBytes_length] at hlen hfield
  rw [nhBytes, List.append_assoc] at hseg
  obtain ⟨hu16, hrest⟩ := seg_append.1 hseg
  obtain ⟨hfields, hattrs⟩ := seg_append.1 hrest
  obtain ⟨htwo, hifindex⟩ := seg_append.1 hfields
  rw [u16Bytes_length] at htwo hattrs hifindex
  rw [List.length_append, u32Bytes_length] at hattrs
  have hbody : Seg buf (pos + 8) (encLeaves (leavesOf (nhFieldList x))) := hattrs
  have hflags : (buf (pos + 2)).toBitVec = x.flags := by
    have hbyte := htwo 0 (by simp)
    rw [Nat.add_zero] at hbyte
    rw [hbyte]
    rfl
  have hhops : (buf (pos + 3)).toBitVec = x.hops := by
    have hbyte := htwo 1 (by simp)
    rw [Nat.add_assoc] at hbyte
    rw [hbyte]
    rfl
  have hindex : BitVec.ofNat 32 (getU32 buf (pos + 4)) = x.ifindex := by
    have hword : Seg buf (pos + 4) (u32Bytes x.ifindex.toNat) := hifindex
    rw [hword.getU32, Nat.mod_eq_of_lt x.ifindex.isLt, BitVec.ofNat_toNat, BitVec.setWidth_eq]
  rw [parseRtnexthop]
  simp only [hfield, hflags, hhops, hindex, nhHeader_content family]
  by_cases hnil : leavesOf (nhFieldList x) = []
  · rw [hnil, encLeaves_nil, List.length_nil, if_neg (by decide)]
    have hempty : Indexes buf RTA_MAX (leavesOf (nhFieldList x)) fun _ => none := by
      rw [hnil]
      exact fun _ _ => rfl
    have hagain : parseNhAttrs pton buf family.toNat (fun _ => none) ((bareNexthop x.flags x.hops x.ifindex).nexthop family) =
        .ok (x.nexthop family) := parseNhAttrs_fields hempty hx (by omega)
    exact hagain
  · have hpos := List.length_pos_iff.2 (encLeaves_ne_nil hnil)
    have hsend := nhFieldList_sendable (x := x) (by omega)
    have hle := length_le_enc (leavesOf (nhFieldList x))
    obtain ⟨tb, hparse, hidx⟩ := parse_leaves hsend.wf (hsend.valid RTA_MAX) hbody (by omega)
      (n := (encLeaves (leavesOf (nhFieldList x))).length + 1) (by omega)
    have hsub : 8 + (encLeaves (leavesOf (nhFieldList x))).length - 8 = (encLeaves (leavesOf (nhFieldList x))).length := by omega
    rw [if_pos (by omega), hsub, nlaParseAttrs, hparse, Option.getD_some]
    exact parseNhAttrs_fields hidx hx (by omega)

theorem nhBytes_mod (x : NhContent) : (nhBytes x).length % 4 = 0 := by
  have hattrs := encLeaves_mod (leavesOf (nhFieldList x))
  rw [nhBytes_length]
  omega

/-- **The nexthops**, read -/
theorem multipath_bytes {xs : List NhContent} (hxs : ∀ x ∈ xs, x.Valid pton) {pos n : ℕ} {r : RouteVal}
    (hfamily : r.data.rtFamily = family) (hseg : Seg buf pos (nhsBytes xs)) (hlen : (nhsBytes xs).length ≤ 65535)
    (hn : xs.length < n) : rtnlRouteParseMultipath pton buf n pos (nhsBytes xs).length r =
      .ok (xs.foldl (fun r x => rtnlRouteAddNexthop r (x.nexthop family)) r) := by
  induction xs generalizing pos n r with
  | nil =>
    obtain ⟨k, rfl⟩ := Nat.exists_eq_succ_of_ne_zero (Nat.pos_iff_ne_zero.1 hn)
    rw [nhsBytes, List.flatMap_nil, List.length_nil, rtnlRouteParseMultipath]
    rfl
  | cons x xs ih =>
    obtain ⟨k, rfl⟩ := Nat.exists_eq_succ_of_ne_zero (Nat.ne_of_gt (Nat.lt_of_le_of_lt (Nat.zero_le _) hn))
    rw [nhsBytes_cons] at hseg hlen ⊢
    rw [List.length_append] at hlen ⊢
    obtain ⟨hone, hrest⟩ := seg_append.1 hseg
    have hfield := nhBytes_field hone (by omega)
    have hread : parseRtnexthop pton buf family.toNat pos = .ok (x.nexthop family) :=
      parseRtnexthop_bytes hone (by omega) (hxs x List.mem_cons_self)
    have hmod := nhBytes_mod x
    have hlong : 8 ≤ (nhBytes x).length := by
      rw [nhBytes_length]
      omega
    have hleft : toU64 (((nhBytes x).length + (nhsBytes xs).length : ℕ) - (align4 (nhBytes x).length : ℤ)) =
        (nhsBytes xs).length := by
      rw [align4_of_mod hmod, toU64]
      omega
    simp only [rtnlRouteParseMultipath, hfield, hfamily, hread]
    rw [if_pos ⟨by omega, by omega⟩, hleft, align4_of_mod hmod]
    exact ih (fun y hy => hxs y (List.mem_cons_of_mem x hy)) (r := rtnlRouteAddNexthop r (x.nexthop family)) hfamily hrest
      (by omega) (Nat.lt_of_succ_lt_succ hn)

end

/-! ## The attributes of a route -/

omit [HostOrder] in
/-- the table of the route -/
def RouteContent.tableOf (c : RouteContent) : BitVec 32 := c.table.getD (c.rtm.rtmTable.setWidth 32)

omit [HostOrder] in
/-- what comes back of a route -/
def RouteContent.again (c : RouteContent) : RouteContent :=
  { c with
    rtm := { c.rtm with
      rtmSrcLen := if c.src.isSome then c.rtm.rtmSrcLen else 0
      rtmTable := c.tableOf.setWidth 8 }
    table := if c.rtm.rtmFamily = AF_MPLS then none else some c.tableOf
    prio := if c.hasPrio then some (c.prio.getD 0) else none
    dst := c.dst.filter fun a => decide (a ≠ [])
    nexthops := c.nexthops.map NhContent.again
    cacheinfo := false }

def metricFields (c : RouteContent) : FieldList :=
  (List.finRange RTAX_MAX).map fun i => (i.val + 1, (c.metrics i).map fun v => u32Bytes v.toNat)

/-- the attributes of a message with this content -/
def routeFields (c : RouteContent) : FieldList :=
  [(RTA_TABLE, c.table.map fun v => u32Bytes v.toNat), (RTA_DST, c.dst), (RTA_PRIORITY, c.prio.map fun v => u32Bytes v.toNat),
    (RTA_SRC, c.src), (RTA_PREFSRC, c.prefSrc), (RTA_IIF, c.iif.map fun v => u32Bytes v.toNat),
    (RTA_TTL_PROPAGATE, c.ttlPropagate.map fun v => [UInt8.ofBitVec v]),
    (32768 + RTA_METRICS, nestPayload (metricFields c)), (32768 + RTA_MULTIPATH, some (nhsBytes c.nexthops))]

theorem routeFields_distinct (c : RouteContent) : Distinct (routeFields c) := by
  show List.Nodup _
  simp only [routeFields, List.map_cons, List.map_nil]
  decide

theorem metricFields_distinct (c : RouteContent) : Distinct (metricFields c) := by
  have htypes : (metricFields c).map (fun f => f.1 % 16384) = (List.finRange RTAX_MAX).map fun i => (i.val + 1) % 16384 := by
    rw [metricFields, List.map_map]
    rfl
  show List.Nodup _
  rw [htypes]
  decide

omit [HostOrder] in
theorem routeMask_bits :
    (∀ p s f i m n c t, decide (routeMask p s f i m n c t &&& ROUTE_ATTR_PRIO ≠ 0) = p) ∧
      (∀ p s f i m n c t, decide (routeMask p s f i m n c t &&& ROUTE_ATTR_SRC ≠ 0) = s) ∧
      (∀ p s f i m n c t, decide (routeMask p s f i m n c t &&& ROUTE_ATTR_PREF_SRC ≠ 0) = f) ∧
      (∀ p s f i m n c t, decide (routeMask p s f i m n c t &&& ROUTE_ATTR_IIF ≠ 0) = i) ∧
      (∀ p s f i m n c t, decide (routeMask p s f i m n c t &&& ROUTE_ATTR_MULTIPATH ≠ 0) = n) ∧
      (∀ p s f i m n c t, decide (routeMask p s f i m n c t &&& ROUTE_ATTR_TTL_PROPAGATE ≠ 0) = t) ∧
      ∀ p s f i m n c t, ¬ routeMask p s f i m n c t &&& ROUTE_ATTR_SCOPE = 0 := by
  decide

theorem metricLeaves_fields {c : RouteContent} {r : RouteVal} (h : Shows c r) : metricLeaves r = leavesOf (metricFields c) := by
  have hget : ∀ i, rtnlRouteGetMetric r i = c.metrics i := by
    intro i
    rw [rtnlRouteGetMetric, h.metricsMask i, h.metrics i]
    cases c.metrics i with
    | none => rfl
    | some v => rfl
  rw [metricLeaves, metricFields, leavesOf, List.filterMap_map, List.filterMap_eq_flatMap_toList]
  refine List.flatMap_congr fun i _ => ?_
  rw [hget i]
  cases hm : c.metrics i with
  | none => simp [hm]
  | some v => simp [hm]

theorem metrics_nest {c : RouteContent} {r : RouteVal} (h : Shows c r) :
    metricsAttr r = leavesOf [(32768 + RTA_METRICS, nestPayload (metricFields c))] := by
  rw [← nestLeaves_fields, ← metricLeaves_fields h]
  rfl

/-- there are metrics to write just if some are given -/
theorem metrics_there {c : RouteContent} {r : RouteVal} (h : Shows c r) :
    0 < r.data.rtNmetrics.toNat ↔ metricLeaves r ≠ [] := by
  rw [h.nmetrics, metricLeaves_fields h, RouteContent.hasMetrics, List.any_eq_true]
  constructor
  · rintro ⟨i, hi, hsome⟩ hnil
    obtain ⟨v, hv⟩ := Option.isSome_iff_exists.1 hsome
    have hmem : (⟨i.val + 1, u32Bytes v.toNat⟩ : Leaf) ∈ leavesOf (metricFields c) :=
      mem_leavesOf.2 ⟨_, List.mem_map.2 ⟨i, hi, rfl⟩, rfl, by rw [hv]; rfl⟩
    rw [hnil] at hmem
    cases hmem
  · intro hne
    obtain ⟨l, hl⟩ := List.exists_mem_of_ne_nil _ hne
    obtain ⟨f, hf, -, hpay⟩ := mem_leavesOf.1 hl
    obtain ⟨i, hi, rfl⟩ := List.mem_map.1 hf
    refine ⟨i, hi, ?_⟩
    cases hm : c.metrics i with
    | none =>
      rw [hm] at hpay
      cases hpay
    | some v => rfl

/-- the address of the destination -/
def dstAddr (c : RouteContent) : NlAddr := ⟨c.rtm.rtmFamily.toNat, c.rtm.rtmDstLen.toNat, c.dst.getD []⟩

omit [HostOrder] in
theorem leafIf_fields (t : ℕ) (b : Bool) (p : List UInt8) : leafIf b t p = leavesOf [(t, if b then some p else none)] := by
  cases b with
  | false => rfl
  | true => rfl

omit [HostOrder] in
/-- a field is there just if the attribute is, and then with its value -/
theorem leafIf_some {β : Type} (t : ℕ) (o : Option β) (d : β) (enc : β → List UInt8) :
    leafIf o.isSome t (enc (o.getD d)) = leavesOf [(t, o.map enc)] := by
  cases o with
  | none => rfl
  | some v => rfl

/-- the attributes in front of the metrics -/
theorem headLeaves_fields {c : RouteContent} {r : RouteVal} (h : Shows c r) : headLeaves r (dstAddr c) =
    leavesOf [(RTA_TABLE, c.again.table.map fun v => u32Bytes v.toNat), (RTA_DST, c.again.dst),
      (RTA_PRIORITY, c.again.prio.map fun v => u32Bytes v.toNat), (RTA_SRC, c.src), (RTA_PREFSRC, c.prefSrc),
      (RTA_IIF, c.iif.map fun v => u32Bytes v.toNat),
      (RTA_TTL_PROPAGATE, c.ttlPropagate.map fun v => [UInt8.ofBitVec v])] := by
  have htable : leafIf (r.data.rtFamily ≠ AF_MPLS) RTA_TABLE (u32Bytes r.data.rtTable.toNat) =
      leavesOf [(RTA_TABLE, c.again.table.map fun v => u32Bytes v.toNat)] := by
    rw [h.family, h.table, leafIf_fields, RouteContent.again, RouteContent.tableOf]
    by_cases hmpls : c.rtm.rtmFamily = AF_MPLS
    · simp [hmpls]
    · simp [hmpls]
  have hdst : leafIf ((dstAddr c).aAddr ≠ []) RTA_DST (dstAddr c).aAddr = leavesOf [(RTA_DST, c.again.dst)] := by
    rw [leafIf_fields, dstAddr, RouteContent.again]
    cases c.dst with
    | none => rfl
    | some a => simp [Option.filter]
  have hprio : leafIf (r.ceMask &&& ROUTE_ATTR_PRIO ≠ 0) RTA_PRIORITY (u32Bytes r.data.rtPrio.toNat) =
      leavesOf [(RTA_PRIORITY, c.again.prio.map fun v => u32Bytes v.toNat)] := by
    rw [h.mask, routeMask_bits.1, h.prio, leafIf_fields, RouteContent.again]
    cases c.hasPrio with
    | false => rfl
    | true => rfl
  have haddr : ∀ (mask attr : BitVec 64) (t : ℕ) (o : Option (List UInt8)) (build : List UInt8 → NlAddr),
      decide (mask &&& attr ≠ 0) = o.isSome → (∀ a, (build a).aAddr = a) →
      (if mask &&& attr ≠ 0 then addrLeaf t (o.map build) else []) = leavesOf [(t, o)] := by
    intro mask attr t o build hmask hbuild
    cases o with
    | none => rw [if_neg (of_decide_eq_false hmask)]; rfl
    | some a =>
      rw [if_pos (of_decide_eq_true hmask), Option.map_some, addrLeaf, hbuild]
      rfl
  have hsrc := haddr r.ceMask ROUTE_ATTR_SRC RTA_SRC c.src
    (fun a => ⟨c.rtm.rtmFamily.toNat, c.rtm.rtmSrcLen.toNat, a⟩) (by rw [h.mask]; exact routeMask_bits.2.1 _ _ _ _ _ _ _ _)
    fun _ => rfl
  have hprefsrc := haddr r.ceMask ROUTE_ATTR_PREF_SRC RTA_PREFSRC c.prefSrc (nlAddrBuild c.rtm.rtmFamily.toNat)
    (by rw [h.mask]; exact routeMask_bits.2.2.1 _ _ _ _ _ _ _ _) fun _ => rfl
  have hiif : leafIf (r.ceMask &&& ROUTE_ATTR_IIF ≠ 0) RTA_IIF (u32Bytes r.data.rtIif.toNat) =
      leavesOf [(RTA_IIF, c.iif.map fun v => u32Bytes v.toNat)] := by
    rw [h.mask, routeMask_bits.2.2.2.1, h.iif]
    exact leafIf_some RTA_IIF c.iif 0 fun v => u32Bytes v.toNat
  have httl : leafIf (r.ceMask &&& ROUTE_ATTR_TTL_PROPAGATE ≠ 0) RTA_TTL_PROPAGATE [UInt8.ofBitVec r.data.rtTtlPropagate] =
      leavesOf [(RTA_TTL_PROPAGATE, c.ttlPropagate.map fun v => [UInt8.ofBitVec v])] := by
    rw [h.mask, routeMask_bits.2.2.2.2.2.1, h.ttl]
    exact leafIf_some RTA_TTL_PROPAGATE c.ttlPropagate 0 fun v => [UInt8.ofBitVec v]
  rw [headLeaves, htable, hdst, hprio, h.src, hsrc, h.prefSrc, hprefsrc, hiif, httl]
  simp only [← leavesOf_append, List.cons_append, List.nil_append]

/-- all attributes that are written -/
theorem routeLeaves_fields {c : RouteContent} {r : RouteVal} (h : Shows c r) :
    headLeaves r (dstAddr c) ++ metricsAttr r ++ [multipathAttr r] = leavesOf (routeFields c.again) := by
  have hmultipath : [multipathAttr r] = leavesOf [(32768 + RTA_MULTIPATH, some (nhsBytes c.again.nexthops))] := by
    rw [multipathAttr, h.nexthops, nhImages_content]
    rfl
  rw [headLeaves_fields h, metrics_nest h, hmultipath, ← leavesOf_append, ← leavesOf_append]
  rfl

omit [HostOrder] in
/-- the header that is written -/
theorem routeRtMsg_again {c : RouteContent} {r : RouteVal} (h : Shows c r) (hmany : 1 < r.data.rtNexthops.length) :
    routeRtMsg r (dstAddr c) = c.again.rtm := by
  have hnexthops : rtnlRouteGetNnexthops r ≠ 1 := by
    rw [rtnlRouteGetNnexthops]
    split_ifs
    · omega
    · decide
  have hscope : ¬ r.ceMask &&& ROUTE_ATTR_SCOPE = 0 := by
    rw [h.mask]
    exact routeMask_bits.2.2.2.2.2.2 _ _ _ _ _ _ _ _
  have hbyte : ∀ v : BitVec 8, BitVec.ofInt 8 (v.toNat : ℤ) = v := fun v => by simp
  rw [routeRtMsg, if_neg hscope, if_neg hnexthops, h.family, h.tos, h.table, h.protocol, h.scope, h.type, h.flags, h.src, dstAddr,
    RouteContent.again]
  dsimp only
  rw [hbyte]
  cases c.src with
  | none => rfl
  | some a =>
    dsimp only [Option.map_some]
    rw [hbyte]
    rfl

/-! ## Writing a route -/

section

variable {pton : ℕ → List UInt8 → Bool} {c : RouteContent}

theorem routeFields_sendable (hc : c.Valid pton) (hfit : 4 + (nhsBytes c.nexthops).length ≤ 65535) :
    Sendable routePolicy (routeFields c) := by
  have hmetrics : ∀ p ∈ nestPayload (metricFields c), 4 + p.length ≤ 65535 := by
    have hlen : (encLeaves (leavesOf (metricFields c))).length ≤ 136 := by
      have hcount : (metricFields c).length * align4 (4 + 4) ≤ 136 := by
        rw [metricFields, List.length_map, List.length_finRange]
        decide
      refine (fields_length_le (n := 4) fun f hf p hp => ?_).trans hcount
      obtain ⟨i, -, rfl⟩ := List.mem_map.1 hf
      obtain ⟨v, -, rfl⟩ := Option.mem_map.1 hp
      exact (u32Bytes_length _).le
    intro p hp
    have hle := nestPayload_length hlen p hp
    omega
  refine Sendable.cons (by decide) (sends_any rfl fun q hq => ?_) ?_
  · obtain ⟨v, -, rfl⟩ := Option.mem_map.1 hq
    rw [u32Bytes_length]
    decide
  refine Sendable.cons (by decide) (sends_any rfl hc.dst) ?_
  refine Sendable.cons (by decide) (sends_u32 rfl _) ?_
  refine Sendable.cons (by decide) (sends_any rfl hc.src) ?_
  refine Sendable.cons (by decide) (sends_any rfl hc.prefSrc) ?_
  refine Sendable.cons (by decide) (sends_u32 rfl _) ?_
  refine Sendable.cons (by decide) (sends_u8 rfl _) ?_
  refine Sendable.cons (by decide) (sends_nested rfl hmetrics) ?_
  refine Sendable.cons (by decide) (sends_nested rfl fun q hq => ?_) (Sendable.nil _)
  cases hq
  exact hfit

variable {r : RouteVal}

theorem routeImage_fields (h : Shows c r) (hmany : 1 < r.data.rtNexthops.length) :
    routeImage r (dstAddr c) = c.again.rtm.bytes ++ encLeaves (leavesOf (routeFields c.again)) := by
  rw [routeImage, frontImage, routeRtMsg_again h hmany, List.append_assoc, ← encLeaves_append, routeLeaves_fields h]

omit [HostOrder] in
theorem RouteContent.Valid.again (hc : c.Valid pton) : c.again.Valid pton where
  dst a ha := hc.dst a (Option.mem_filter_iff.1 ha).1
  src := hc.src
  family := hc.family
  prefSrc := hc.prefSrc
  nexthops y hy := by
    obtain ⟨x, hx, rfl⟩ := List.mem_map.1 hy
    have hvalid := hc.nexthops x hx
    exact ⟨hvalid.newdst, hvalid.via, hvalid.encap, hvalid.labels⟩

/-- what is written fits -/
theorem again_fits (h : Shows c r) (hfit : 4 + (nhImages r.data.rtNexthops).length ≤ 65535) :
    4 + (nhsBytes c.again.nexthops).length ≤ 65535 := by
  rwa [h.nexthops, nhImages_content] at hfit

theorem writable (h : Shows c r) (hmany : 1 < r.data.rtNexthops.length) (hc : c.Valid pton)
    (hfit : 4 + (nhImages r.data.rtNexthops).length ≤ 65535) : Writable r (dstAddr c) where
  addr := h.dst
  head l hl := by
    refine (routeFields_sendable hc.again (again_fits h hfit)).wf l ?_
    rw [← routeLeaves_fields h]
    exact List.mem_append_left _ (List.mem_append_left _ hl)
  metrics := metrics_there h
  nexthops nh hnh := by
    refine ⟨?_, ?_⟩
    · rw [h.nexthops] at hnh
      obtain ⟨x, -, rfl⟩ := List.mem_map.1 hnh
      intro e he
      obtain ⟨y, -, rfl⟩ := Option.mem_map.1 he
      exact Option.some_ne_none _
    · obtain ⟨before, behind, hsplit⟩ := List.append_of_mem hnh
      rw [hsplit, nhImages, List.flatMap_append, List.flatMap_cons, List.length_append, List.length_append] at hfit
      omega
  many := by
    have hbit : r.ceMask &&& ROUTE_ATTR_MULTIPATH ≠ 0 := by
      refine of_decide_eq_true ?_
      rw [h.mask, routeMask_bits.2.2.2.2.1]
      rw [h.nexthops, List.length_map] at hmany
      cases hnhs : c.nexthops with
      | nil =>
        rw [hnhs] at hmany
        exact absurd hmany (by decide)
      | cons x xs => rfl
    rw [rtnlRouteGetNnexthops, if_pos hbit]
    exact hmany

/-! ## Reading a route -/

theorem readRtMsg_bytes {buf : Mem} {rtm : RtMsg} (h : Seg buf 16 rtm.bytes) : readRtMsg buf = rtm := by
  obtain ⟨hbytes, hflags⟩ := seg_append.1 h
  have hbyte : ∀ (i : ℕ) (v : BitVec 8), [UInt8.ofBitVec rtm.rtmFamily, UInt8.ofBitVec rtm.rtmDstLen,
      UInt8.ofBitVec rtm.rtmSrcLen, UInt8.ofBitVec rtm.rtmTos, UInt8.ofBitVec rtm.rtmTable, UInt8.ofBitVec rtm.rtmProtocol,
      UInt8.ofBitVec rtm.rtmScope, UInt8.ofBitVec rtm.rtmType][i]? = some (UInt8.ofBitVec v) →
      (buf (16 + i)).toBitVec = v := by
    intro i v hi
    obtain ⟨hlt, hget⟩ := List.getElem?_eq_some_iff.1 hi
    rw [hbytes i hlt, hget]
  have hword : Seg buf 24 (u32Bytes rtm.rtmFlags.toNat) := hflags
  have hnum : BitVec.ofNat 32 (getU32 buf 24) = rtm.rtmFlags := by
    rw [hword.getU32, Nat.mod_eq_of_lt rtm.rtmFlags.isLt, BitVec.ofNat_toNat, BitVec.setWidth_eq]
  have h0 := hbyte 0 rtm.rtmFamily rfl
  have h1 := hbyte 1 rtm.rtmDstLen rfl
  have h2 := hbyte 2 rtm.rtmSrcLen rfl
  have h3 := hbyte 3 rtm.rtmTos rfl
  have h4 := hbyte 4 rtm.rtmTable rfl
  have h5 := hbyte 5 rtm.rtmProtocol rfl
  have h6 := hbyte 6 rtm.rtmScope rfl
  have h7 := hbyte 7 rtm.rtmType rfl
  rw [readRtMsg, hnum, h0, h1, h2, h3, h4, h5, h6, h7]

omit [HostOrder] in
/-- the header has nothing to say of a source that is not there, and there is no cache information -/
structure RouteContent.Carried (c : RouteContent) : Prop where
  src : c.src = none → c.rtm.rtmSrcLen = 0
  cacheinfo : c.cacheinfo = false

section

variable {buf : Mem} {tb : Index} (h : Indexes buf RTA_MAX (leavesOf (routeFields c)) tb)
include h

/-- what is shown under a type without flags -/
theorem route_shown (i : ℕ) (t : ℕ) {p : Option (List UInt8)} (hi : (routeFields c)[i]? = some (t, p)) (ht : t ≤ RTA_MAX) :
    Shown buf tb t p :=
  shown_plain h (routeFields_distinct c) (by decide) (List.mem_of_getElem? hi) ht

/-- there is nothing else -/
theorem route_none {t : ℕ} (ht : t ≤ RTA_MAX)
    (hother : t ∉ [RTA_TABLE, RTA_DST, RTA_PRIORITY, RTA_SRC, RTA_PREFSRC, RTA_IIF, RTA_TTL_PROPAGATE, RTA_METRICS,
      RTA_MULTIPATH]) :
    tb t = none := by
  refine none_of_indexes h ht fun f hf heq => hother ?_
  have hmem : f.1 % 16384 ∈ (routeFields c).map fun f => f.1 % 16384 := List.mem_map.2 ⟨f, hf, rfl⟩
  have htypes : ((routeFields c).map fun f => f.1 % 16384) = [RTA_TABLE, RTA_DST, RTA_PRIORITY, RTA_SRC, RTA_PREFSRC, RTA_IIF,
      RTA_TTL_PROPAGATE, RTA_METRICS, RTA_MULTIPATH] := by
    simp only [routeFields, List.map_cons, List.map_nil]
    decide
  rwa [heq, htypes] at hmem

/-- the header and the attributes in front of the metrics -/
theorem headContent_fields (hc : c.Valid pton) (hcarried : c.Carried) : headContent buf c.rtm tb =
    { c with ttlPropagate := none, metrics := fun _ => none, nexthops := [] } := by
  have htable : (tb RTA_TABLE).map (nlaGetU32 buf) = c.table := (route_shown h 0 RTA_TABLE rfl (by decide)).u32
  have hdst : (tb RTA_DST).map (nlaBytes buf) = c.dst := (route_shown h 1 RTA_DST rfl (by decide)).bytes
  have hprio : (tb RTA_PRIORITY).map (nlaGetU32 buf) = c.prio := (route_shown h 2 RTA_PRIORITY rfl (by decide)).u32
  have hsrc : srcOf buf c.rtm tb = c.src := by
    have hshown := route_shown h 3 RTA_SRC rfl (by decide)
    rw [srcOf]
    cases hs : c.src with
    | none =>
      rw [hs] at hshown
      have hnone : tb RTA_SRC = none := hshown
      rw [hnone]
      exact if_neg fun hboth => hboth.1 (hcarried.src hs)
    | some a =>
      rw [hs] at hshown
      obtain ⟨pos, type, hpos, hat⟩ := hshown
      rw [hpos]
      dsimp only
      rw [if_neg (hc.family a hs), at_bytes hat]
  have hprefsrc : (tb RTA_PREFSRC).map (nlaBytes buf) = c.prefSrc := (route_shown h 4 RTA_PREFSRC rfl (by decide)).bytes
  have hiif : (tb RTA_IIF).map (nlaGetU32 buf) = c.iif := (route_shown h 5 RTA_IIF rfl (by decide)).u32
  rw [headContent, htable, hdst, hprio, hsrc, hprefsrc, hiif, ← hcarried.cacheinfo]

/-- the metrics -/
theorem parseMetrics_fields (r : RouteVal) : (∃ r', parseMetrics buf tb r = .ok r') ∧
    ∀ i, ((tb RTA_METRICS).bind fun a => metricOf buf (nlaParseNested buf RTAX_MAX a none).2 i) = c.metrics i := by
  have hshown : Shown buf tb RTA_METRICS (nestPayload (metricFields c)) :=
    shown_of_indexes h (routeFields_distinct c) (t := 32768 + RTA_METRICS) (List.mem_of_getElem? (i := 7) rfl) (by decide)
  rw [parseMetrics]
  rcases hshown.nest with ⟨hnil, hnone⟩ | ⟨pos, type, hpos, hat⟩
  · rw [hnone]
    refine ⟨⟨r, rfl⟩, fun i => ?_⟩
    cases hm : c.metrics i with
    | none => rfl
    | some v =>
      have hmem : (⟨i.val + 1, u32Bytes v.toNat⟩ : Leaf) ∈ leavesOf (metricFields c) :=
        mem_leavesOf.2 ⟨_, List.mem_map.2 ⟨i, List.mem_finRange i, rfl⟩, rfl, by rw [hm]; rfl⟩
      rw [hnil] at hmem
      cases hmem
  · have hsend : Sendable (fun _ => ⟨.unspec, 0, 0⟩) (metricFields c) := by
      have hfour : ∀ f ∈ metricFields c, f.1 < 65536 ∧ ∀ p ∈ f.2, p.length = 4 := by
        intro f hf
        obtain ⟨i, -, rfl⟩ := List.mem_map.1 hf
        have hlt := i.isLt
        simp only [RTAX_MAX] at hlt
        refine ⟨show i.val + 1 < 65536 by omega, fun p hp => ?_⟩
        obtain ⟨v, -, rfl⟩ := Option.mem_map.1 hp
        exact u32Bytes_length _
      exact ⟨fun f hf => (hfour f hf).1, fun f hf p hp => by rw [(hfour f hf).2 p hp]; decide,
        fun f hf p hp => ⟨Nat.zero_le _, Or.inl rfl, fun hstr => absurd hstr (by decide)⟩⟩
    have hle : (encLeaves (leavesOf (metricFields c))).length < 2147483648 := by
      have hall := hsend.length_le
      rw [metricFields, List.length_map, List.length_finRange, ← metricFields, RTAX_MAX] at hall
      omega
    obtain ⟨mtb, hparse, hidx⟩ := parseNested_fields RTAX_MAX hat hsend hle
    rw [← parseNested_any] at hparse
    rw [hpos]
    simp only [hparse, lt_irrefl, if_false, Option.bind_some]
    refine ⟨⟨_, rfl⟩, fun i => ?_⟩
    have hlt := i.isLt
    have hmetric : Shown buf mtb (i.val + 1) ((c.metrics i).map fun v => u32Bytes v.toNat) :=
      shown_plain hidx (metricFields_distinct c) (by decide) (List.mem_map.2 ⟨i, List.mem_finRange i, rfl⟩) (by omega)
    rw [metricOf]
    cases hm : c.metrics i with
    | none =>
      rw [hm] at hmetric
      have hnone : mtb (i.val + 1) = none := hmetric
      rw [hnone]
      rfl
    | some v =>
      rw [hm] at hmetric
      obtain ⟨mpos, mtype, hmpos, hmat⟩ := hmetric
      have hlen : 4 ≤ nlaLen buf mpos := by
        have hlength := hmat.len
        rw [u32Bytes_length] at hlength
        exact hlength.ge
      rw [hmpos, Option.filter, if_pos (decide_eq_true hlen), Option.map_some, at_u32 hmat]

/-- there is no nexthop in the message itself -/
theorem parseOldNh_fields (rtm : RtMsg) : parseOldNh pton buf rtm tb = .ok none := by
  have hoif := route_none h (t := RTA_OIF) (by decide) (by decide)
  have hgateway := route_none h (t := RTA_GATEWAY) (by decide) (by decide)
  have hflow := route_none h (t := RTA_FLOW) (by decide) (by decide)
  have hnewdst := route_none h (t := RTA_NEWDST) (by decide) (by decide)
  have hvia := route_none h (t := RTA_VIA) (by decide) (by decide)
  have hencap := route_none h (t := RTA_ENCAP) (by decide) (by decide)
  simp only [parseOldNh, hoif, hgateway, hflow, hnewdst, hvia, hencap, Option.isSome_none, Bool.false_eq_true, false_and, or_self,
    if_false]

end

/-- **A message with this content** is read, and the route shows it. -/
theorem parse_fields {n : ℕ} {m : NlMsg} {tb : Index} (hc : c.Valid pton) (hcarried : c.Carried) (hn : c.nexthops.length < n)
    (hfit : 4 + (nhsBytes c.nexthops).length ≤ 65535) (hparse : nlmsgParse m 12 RTA_MAX (some routePolicy) = (0, tb))
    (h : Indexes m.buf RTA_MAX (leavesOf (routeFields c)) tb) (hhdr : Seg m.buf 16 c.rtm.bytes) :
    ∃ r, rtnlRouteParse pton n m = .ok r ∧ Shows c r := by
  obtain ⟨r1, hr1, hhead⟩ := parse_head m.buf c.rtm tb m.nlmsgType
  rw [headContent_fields h hc hcarried] at hhead
  obtain ⟨⟨r2, hr2⟩, hmetrics⟩ := parseMetrics_fields h _
  have hshows := hhead.parseMetrics m.buf tb rfl hr2
  simp only [hmetrics] at hshows
  have hattr : Shown m.buf tb RTA_MULTIPATH (some (nhsBytes c.nexthops)) :=
    shown_of_indexes h (routeFields_distinct c) (t := 32768 + RTA_MULTIPATH) (List.mem_of_getElem? (i := 8) rfl) (by decide)
  obtain ⟨pos, type, hpos, hat⟩ := hattr
  have hlength : nlaLen m.buf pos = (nhsBytes c.nexthops).length := hat.len
  have hlen : toU64 (nlaLen m.buf pos) = (nhsBytes c.nexthops).length := by
    rw [hlength, toU64]
    omega
  have hfamily : r2.data.rtFamily = c.rtm.rtmFamily := hshows.family
  have hread := multipath_bytes hc.nexthops hfamily hat.data (by omega) hn
  have hcache := route_none h (t := RTA_CACHEINFO) (by decide) (by decide)
  have hall := ((hshows.addNexthops c.nexthops).parseCacheinfo tb).parseTtlPropagate m.buf tb
  have httl : (tb RTA_TTL_PROPAGATE).map (nlaGetU8 m.buf) = c.ttlPropagate :=
    (route_shown h 6 RTA_TTL_PROPAGATE rfl (by decide)).u8
  rw [hcache, httl] at hall
  simp only [List.nil_append, Option.or_none, Option.isSome_none, Bool.false_or] at hall
  refine ⟨_, ?_, hall⟩
  unfold rtnlRouteParse
  rw [hparse, readRtMsg_bytes hhdr]
  simp only [lt_irrefl, if_false, hr1, Except.bind, hr2, parseMultipathAttr, hpos, hlen, hread, parseOldNh_fields h, addOldNh]

end

end Libnl.Route
