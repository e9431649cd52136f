/-
Identity and hash keys of links, neighbours, sockets and routes.

A cache with a hash table finds an object where its key says. So identical objects must have the same key, although the
attributes that identify an object depend on what it says, and the key is made of fields whether they are present or not.

- `identity_same_bucket`: identical links, neighbours and sockets have the same key, in a table of any size.
- `route_same_bucket_iff`: identical routes have, unless they are MPLS routes with different priorities.
- `mpls_priority_splits`: such a pair, with the hash of the library.
-/
import Mathlib.Tactic
import Libnl.Core.Mask
import Libnl.Route.Neigh
import Libnl.Route.Link
import Libnl.Route.RouteObj
import Libnl.Idiag.Msg
import Libnl.Cache.Cache

namespace Libnl.Keys

open Object Addr Hash

/-! ## What identical objects agree in -/

section

variable {α : Type} {ops : ℕ → ObjectOps α} {a b : ObjVal α}

/-- identical objects carry what is required and do not differ in it -/
theorem identical_compare (h : nlObjectIdentical ops a b = true) : sameIdAttrs ops a b = true ∧
    carries a (reqAttrs ops a b) = true ∧ carries b (reqAttrs ops a b) = true ∧
    ∃ cmp, (ops a.ceOps).ooCompare = some cmp ∧ cmp a b ((reqAttrs ops a b).setWidth 64) ID_COMPARISON = 0 := by
  simp only [nlObjectIdentical, Bool.and_eq_true] at h
  obtain ⟨⟨⟨⟨-, hsame⟩, ha⟩, hb⟩, hcmp⟩ := h
  refine ⟨hsame, ha, hb, ?_⟩
  cases hops : (ops a.ceOps).ooCompare with
  | none =>
    rw [hops] at hcmp
    cases hcmp
  | some cmp =>
    rw [hops] at hcmp
    exact ⟨cmp, rfl, of_decide_eq_true hcmp⟩

/-- an attribute that is required and in which no difference is reported -/
theorem agree_of_attrDiff {req : BitVec 32} (ha : carries a req = true) (hb : carries b req = true) {attr : BitVec 64}
    (hask : req.setWidth 64 &&& attr = attr) (hne : attr ≠ 0) {differ : Bool}
    (h : attrDiff (req.setWidth 64) attr a b differ = 0) : differ = false :=
  (attrDiff_eq_zero_iff hask hne (carries_attr ha hask) (carries_attr hb hask) differ).1 h

theorem aAddr_of_cmp {x y : Option NlAddr} (h : nlAddrCmp x y = false) : x.map NlAddr.aAddr = y.map NlAddr.aAddr :=
  Route.addrKey_addr ((nlAddrCmp_eq_false_iff x y).1 h)

end

/-! ## Links -/

section

open Link

variable {β γ : Type} {mods : LinkModules β γ} {nlHash : List UInt8 → ℕ} {a b : ObjVal (RtnlLink β γ)}

theorem link_identical (h : nlObjectIdentical (fun _ => linkObjOps mods nlHash) a b = true) :
    a.data.lIndex = b.data.lIndex ∧ a.data.lFamily = b.data.lFamily := by
  obtain ⟨-, ha, hb, cmp, hops, hcmp⟩ := identical_compare h
  cases hops
  have hreq : reqAttrs (fun _ => linkObjOps mods nlHash) a b = 0x1800#32 := rfl
  rw [hreq] at ha hb hcmp
  have hdiff : attrDiff ((0x1800#32).setWidth 64) LINK_ATTR_IFINDEX a b (decide (a.data.lIndex ≠ b.data.lIndex)) = 0 ∧
      attrDiff ((0x1800#32).setWidth 64) LINK_ATTR_FAMILY a b (decide (a.data.lFamily ≠ b.data.lFamily)) = 0 := by
    unfold linkCompare at hcmp
    split_ifs at hcmp
    all_goals
      simp only [BitVec.ofNat_eq_ofNat, BitVec.or_eq_zero_iff] at hcmp ⊢
      tauto
  have hindex := agree_of_attrDiff ha hb (by decide) (by decide) hdiff.1
  have hfamily := agree_of_attrDiff ha hb (by decide) (by decide) hdiff.2
  exact ⟨not_not.1 (of_decide_eq_false hindex), not_not.1 (of_decide_eq_false hfamily)⟩

theorem link_same_key (h : nlObjectIdentical (fun _ => linkObjOps mods nlHash) a b = true) (size : ℕ) :
    nlObjectKeygen (fun _ => linkObjOps mods nlHash) a size = nlObjectKeygen (fun _ => linkObjOps mods nlHash) b size := by
  obtain ⟨hindex, hfamily⟩ := link_identical h
  show linkKeygen nlHash a size = linkKeygen nlHash b size
  rw [linkKeygen, linkKeygen, hindex, hfamily]

end

/-! ## Sockets -/

section

open Idiag

variable {nlHash : List UInt8 → ℕ} {a b : ObjVal IdiagnlMsg}

theorem addrHash_congr (nlHash : List UInt8 → ℕ) {x y : Option NlAddr} (h : x.map NlAddr.aAddr = y.map NlAddr.aAddr) :
    addrHash nlHash x = addrHash nlHash y := by
  have hmap : ∀ z : Option NlAddr, addrHash nlHash z =
      ((z.map NlAddr.aAddr).map fun bytes => BitVec.ofNat 32 (nlHash bytes)).getD 0 := by
    intro z
    cases z with
    | none => rfl
    | some z => rfl
  rw [hmap, hmap, h]

theorem idiag_same_key (h : nlObjectIdentical (fun _ => idiagnlMsgObjOps nlHash) a b = true) (size : ℕ) :
    nlObjectKeygen (fun _ => idiagnlMsgObjOps nlHash) a size =
      nlObjectKeygen (fun _ => idiagnlMsgObjOps nlHash) b size := by
  obtain ⟨-, ha, hb, cmp, hops, hcmp⟩ := identical_compare h
  cases hops
  have hreq : reqAttrs (fun _ => idiagnlMsgObjOps nlHash) a b = 0x1E2#32 := rfl
  rw [hreq] at ha hb hcmp
  unfold idiagnlCompare at hcmp
  simp only [BitVec.ofNat_eq_ofNat, BitVec.or_eq_zero_iff, and_assoc] at hcmp
  obtain ⟨hfamily, -, -, -, hsport, hdport, hsrc, hdst, -⟩ := hcmp
  have hfamily := agree_of_attrDiff ha hb (by decide) (by decide) hfamily
  have hsport := agree_of_attrDiff ha hb (by decide) (by decide) hsport
  have hdport := agree_of_attrDiff ha hb (by decide) (by decide) hdport
  have hsrc := aAddr_of_cmp (agree_of_attrDiff ha hb (by decide) (by decide) hsrc)
  have hdst := aAddr_of_cmp (agree_of_attrDiff ha hb (by decide) (by decide) hdst)
  rw [decide_eq_false_iff_not, not_not] at hfamily hsport hdport
  show idiagnlKeygen nlHash a size = idiagnlKeygen nlHash b size
  rw [idiagnlKeygen, idiagnlKeygen, hfamily, hsport, hdport, addrHash_congr nlHash hsrc, addrHash_congr nlHash hdst]

end

/-! ## Neighbours -/

section

open Neigh

variable {nlHash : List UInt8 → ℕ} {a b : ObjVal RtnlNeigh}

/-- the id attributes of a neighbour; a bridge entry of the device itself is identified by a VLAN or a destination just if
it has one -/
theorem neigh_id_cases (a : ObjVal RtnlNeigh) :
    (a.data.nFamily ≠ AF_BRIDGE ∧ neighIdAttrsGet a = 0x68#32) ∨
    (a.data.nFamily = AF_BRIDGE ∧ a.data.nFlags &&& NTF_SELF ≠ 0 ∧
      neighIdAttrsGet a = 0x64#32 ||| (a.ceMask.setWidth 32 &&& 0x408#32)) ∨
    (a.data.nFamily = AF_BRIDGE ∧ ¬ a.data.nFlags &&& NTF_SELF ≠ 0 ∧ neighIdAttrsGet a = 0x644#32) := by
  have hbit : ∀ i < 64, (if a.ceMask &&& BitVec.twoPow 64 i ≠ 0 then BitVec.twoPow 64 i else 0) =
      a.ceMask &&& BitVec.twoPow 64 i := by
    intro i hi
    rw [BitVec.and_twoPow]
    cases a.ceMask.getLsbD i with
    | true => rw [if_pos rfl, if_pos (Mask.twoPow_ne_zero hi)]
    | false => simp
  have hdst : NEIGH_ATTR_DST = BitVec.twoPow 64 3 := by decide
  have hvlan : NEIGH_ATTR_VLAN = BitVec.twoPow 64 10 := by decide
  unfold neighIdAttrsGet
  by_cases hbridge : a.data.nFamily = AF_BRIDGE
  · by_cases hself : a.data.nFlags &&& NTF_SELF ≠ 0
    · refine Or.inr (Or.inl ⟨hbridge, hself, ?_⟩)
      simp only [if_pos hbridge, if_pos hself, hdst, hvlan, hbit 3 (by decide), hbit 10 (by decide)]
      rw [BitVec.or_assoc, ← BitVec.and_or_distrib_left, BitVec.setWidth_or, BitVec.setWidth_and]
      rfl
    · refine Or.inr (Or.inr ⟨hbridge, hself, ?_⟩)
      simp only [if_pos hbridge, if_neg hself]
      rfl
  · refine Or.inl ⟨hbridge, ?_⟩
    simp only [if_neg hbridge]
    rfl

/-- where there is no VLAN the field is zero -/
def VlanZero (a : ObjVal RtnlNeigh) : Prop := a.ceMask &&& NEIGH_ATTR_VLAN = 0 → a.data.nVlan = 0

/-- what the key of a neighbour is made of -/
theorem neighKeygen_congr (hfamily : a.data.nFamily = b.data.nFamily)
    (hinet : a.data.nFamily ≠ AF_BRIDGE →
      a.data.nIfindex = b.data.nIfindex ∧ a.data.nDst.map NlAddr.aAddr = b.data.nDst.map NlAddr.aAddr)
    (hbridge : a.data.nFamily = AF_BRIDGE → a.data.nVlan = b.data.nVlan ∧
      a.data.nLladdr.map NlAddr.aAddr = b.data.nLladdr.map NlAddr.aAddr ∧
      (if a.data.nFlags &&& NTF_SELF ≠ 0 then a.data.nIfindex else a.data.nMaster) =
        if b.data.nFlags &&& NTF_SELF ≠ 0 then b.data.nIfindex else b.data.nMaster) (size : ℕ) :
    neighKeygen nlHash a size = neighKeygen nlHash b size := by
  unfold neighKeygen
  dsimp only
  by_cases hf : a.data.nFamily = AF_BRIDGE
  · obtain ⟨hvlan, hlladdr, hindex⟩ := hbridge hf
    have hf' : b.data.nFamily = AF_BRIDGE := hfamily ▸ hf
    simp only [hf, hf', if_true, hvlan, hlladdr, hindex]
  · obtain ⟨hindex, hdst⟩ := hinet hf
    have hf' : ¬ b.data.nFamily = AF_BRIDGE := hfamily ▸ hf
    simp only [if_neg hf', hfamily, hindex, hdst]

/-- the comparison of neighbours, attribute by attribute -/
theorem neigh_agree {req : BitVec 32} (ha : carries a req = true) (hb : carries b req = true)
    (hcmp : neighCompare a b (req.setWidth 64) ID_COMPARISON = 0) :
    (req.setWidth 64 &&& NEIGH_ATTR_IFINDEX = NEIGH_ATTR_IFINDEX → a.data.nIfindex = b.data.nIfindex) ∧
    (req.setWidth 64 &&& NEIGH_ATTR_FAMILY = NEIGH_ATTR_FAMILY → a.data.nFamily = b.data.nFamily) ∧
    (req.setWidth 64 &&& NEIGH_ATTR_LLADDR = NEIGH_ATTR_LLADDR →
      a.data.nLladdr.map NlAddr.aAddr = b.data.nLladdr.map NlAddr.aAddr) ∧
    (req.setWidth 64 &&& NEIGH_ATTR_DST = NEIGH_ATTR_DST →
      a.data.nDst.map NlAddr.aAddr = b.data.nDst.map NlAddr.aAddr) ∧
    (req.setWidth 64 &&& NEIGH_ATTR_MASTER = NEIGH_ATTR_MASTER → a.data.nMaster = b.data.nMaster) ∧
    (req.setWidth 64 &&& NEIGH_ATTR_VLAN = NEIGH_ATTR_VLAN → a.data.nVlan = b.data.nVlan) := by
  unfold neighCompare at hcmp
  rw [if_neg (by decide)] at hcmp
  simp only [BitVec.ofNat_eq_ofNat, BitVec.or_eq_zero_iff, and_assoc] at hcmp
  obtain ⟨hindex, hfamily, -, hlladdr, hdst, hmaster, hvlan, -⟩ := hcmp
  have hagree : ∀ {attr differ}, attr ≠ 0 → attrDiff (req.setWidth 64) attr a b differ = 0 →
      req.setWidth 64 &&& attr = attr → differ = false := fun hne hdiff hask => agree_of_attrDiff ha hb hask hne hdiff
  refine ⟨fun hask => ?_, fun hask => ?_, fun hask => ?_, fun hask => ?_, fun hask => ?_, fun hask => ?_⟩
  · exact not_not.1 (of_decide_eq_false (hagree (by decide) hindex hask))
  · exact not_not.1 (of_decide_eq_false (hagree (by decide) hfamily hask))
  · exact aAddr_of_cmp (hagree (by decide) hlladdr hask)
  · exact aAddr_of_cmp (hagree (by decide) hdst hask)
  · exact not_not.1 (of_decide_eq_false (hagree (by decide) hmaster hask))
  · exact not_not.1 (of_decide_eq_false (hagree (by decide) hvlan hask))

/-- an attribute that is among the required ones anyway -/
theorem asks_or {fixed more : BitVec 32} {attr : BitVec 64} (h : fixed.setWidth 64 &&& attr = attr) :
    (fixed ||| more).setWidth 64 &&& attr = attr := by
  refine BitVec.eq_of_getLsbD_eq fun i hi => ?_
  have hbit := congrArg (fun x => x.getLsbD i) h
  simp only [BitVec.getLsbD_and, BitVec.getLsbD_setWidth, BitVec.getLsbD_or] at hbit ⊢
  cases hattr : attr.getLsbD i with
  | true => simp_all
  | false => simp

/-- an entry of the device itself asks for nothing else -/
theorem not_asked {i : ℕ} (hfixed : (0x64#32).getLsbD i = false) (hmore : (0x408#32).getLsbD i = false) (x : BitVec 32) :
    (0x64#32 ||| (x &&& 0x408#32)).getLsbD i = false := by
  rw [BitVec.getLsbD_or, BitVec.getLsbD_and, hfixed, hmore, Bool.and_false, Bool.or_false]

/-- an entry of the device itself asks for the VLAN if it has one -/
theorem self_vlan {a : ObjVal RtnlNeigh} (hid : neighIdAttrsGet a = 0x64#32 ||| (a.ceMask.setWidth 32 &&& 0x408#32)) :
    (neighIdAttrsGet a).getLsbD 10 = a.ceMask.getLsbD 10 := by
  have hfixed : (0x64#32).getLsbD 10 = false ∧ (0x408#32).getLsbD 10 = true := by decide
  rw [hid, BitVec.getLsbD_or, BitVec.getLsbD_and, BitVec.getLsbD_setWidth, hfixed.1, hfixed.2]
  simp

theorem vlan_zero_of {a : ObjVal RtnlNeigh} (hz : VlanZero a) (h : a.ceMask.getLsbD 10 = false) : a.data.nVlan = 0 := by
  have hvlan : NEIGH_ATTR_VLAN = BitVec.twoPow 64 10 := by decide
  refine hz ?_
  rw [hvlan, BitVec.and_twoPow, h]
  rfl

theorem neigh_reqAttrs : reqAttrs (fun _ => neighObjOps nlHash) a b = neighIdAttrsGet a := by
  have hne : neighIdAttrsGet a ≠ BitVec.allOnes 32 := by
    intro hall
    have hbit := congrArg (fun x => x.getLsbD 31) hall
    rcases neigh_id_cases a with ⟨-, hid⟩ | ⟨-, -, hid⟩ | ⟨-, -, hid⟩
    · rw [hid] at hbit
      exact absurd hbit (by decide)
    · simp only [hid, not_asked (i := 31) (by decide) (by decide)] at hbit
      exact absurd hbit (by decide)
    · rw [hid] at hbit
      exact absurd hbit (by decide)
  exact if_neg hne

theorem neigh_same_key (hza : VlanZero a) (hzb : VlanZero b)
    (h : nlObjectIdentical (fun _ => neighObjOps nlHash) a b = true) (size : ℕ) :
    nlObjectKeygen (fun _ => neighObjOps nlHash) a size = nlObjectKeygen (fun _ => neighObjOps nlHash) b size := by
  obtain ⟨hsame, ha, hb, cmp, hops, hcmp⟩ := identical_compare h
  cases hops
  have hget : neighIdAttrsGet a = neighIdAttrsGet b := of_decide_eq_true hsame
  rw [neigh_reqAttrs] at ha hb hcmp
  obtain ⟨hindex, hfamily, hlladdr, hdst, hmaster, hvlan⟩ := neigh_agree ha hb hcmp
  show neighKeygen nlHash a size = neighKeygen nlHash b size
  rcases neigh_id_cases a with ⟨hinet, hid⟩ | ⟨hbridge, hself, hid⟩ | ⟨hbridge, hself, hid⟩
  · rw [hid] at hindex hfamily hdst
    refine neighKeygen_congr (hfamily (by decide)) (fun _ => ⟨hindex (by decide), hdst (by decide)⟩) ?_ size
    intro hf
    exact absurd hf hinet
  · -- an entry of the device itself, so the other one is too
    rw [hid] at hindex hfamily hlladdr
    have hsame := hfamily (asks_or (by decide))
    refine neighKeygen_congr hsame (fun hf => absurd hbridge hf) (fun _ => ?_) size
    rcases neigh_id_cases b with ⟨hinet', -⟩ | ⟨-, hself', hid'⟩ | ⟨-, -, hid'⟩
    · exact absurd (hsame ▸ hbridge) hinet'
    · refine ⟨?_, hlladdr (asks_or (by decide)), ?_⟩
      · have hbits : a.ceMask.getLsbD 10 = b.ceMask.getLsbD 10 := by rw [← self_vlan hid, ← self_vlan hid', hget]
        cases hv : a.ceMask.getLsbD 10 with
        | true =>
          refine hvlan ?_
          have hbit : NEIGH_ATTR_VLAN = BitVec.twoPow 64 10 := by decide
          rw [hbit, BitVec.and_twoPow, BitVec.getLsbD_setWidth, self_vlan hid, hv]
          rfl
        | false => rw [vlan_zero_of hza hv, vlan_zero_of hzb (hbits ▸ hv)]
      · rw [if_pos hself, if_pos hself', hindex (asks_or (by decide))]
    · -- the required attributes differ
      have hbit := congrArg (fun x => x.getLsbD 9) (hid.symm.trans (hget.trans hid'))
      simp only [not_asked (i := 9) (by decide) (by decide)] at hbit
      exact absurd hbit (by decide)
  · rw [hid] at hfamily hlladdr hmaster hvlan
    have hsame := hfamily (by decide)
    refine neighKeygen_congr hsame (fun hf => absurd hbridge hf) (fun _ => ?_) size
    rcases neigh_id_cases b with ⟨hinet', -⟩ | ⟨-, -, hid'⟩ | ⟨-, hself', -⟩
    · exact absurd (hsame ▸ hbridge) hinet'
    · have hbit := congrArg (fun x => x.getLsbD 9) (hid.symm.trans (hget.trans hid'))
      simp only [not_asked (i := 9) (by decide) (by decide)] at hbit
      exact absurd hbit (by decide)
    · refine ⟨hvlan (by decide), hlladdr (by decide), ?_⟩
      rw [if_neg hself, if_neg hself', hmaster (by decide)]

end

/-- **Links, neighbours and sockets.** For any hash of byte strings: identical objects have the same key, in a table of any
size. Neighbours without a VLAN have zero in its field. -/
theorem identity_same_bucket (nlHash : List UInt8 → ℕ) :
    (∀ (β γ : Type) (mods : Link.LinkModules β γ) (a b : ObjVal (Link.RtnlLink β γ)),
      nlObjectIdentical (fun _ => Link.linkObjOps mods nlHash) a b = true → ∀ size,
        nlObjectKeygen (fun _ => Link.linkObjOps mods nlHash) a size =
          nlObjectKeygen (fun _ => Link.linkObjOps mods nlHash) b size) ∧
    (∀ a b, VlanZero a → VlanZero b → nlObjectIdentical (fun _ => Neigh.neighObjOps nlHash) a b = true → ∀ size,
      nlObjectKeygen (fun _ => Neigh.neighObjOps nlHash) a size =
        nlObjectKeygen (fun _ => Neigh.neighObjOps nlHash) b size) ∧
    (∀ a b, nlObjectIdentical (fun _ => Idiag.idiagnlMsgObjOps nlHash) a b = true → ∀ size,
      nlObjectKeygen (fun _ => Idiag.idiagnlMsgObjOps nlHash) a size =
        nlObjectKeygen (fun _ => Idiag.idiagnlMsgObjOps nlHash) b size) :=
  ⟨fun _ _ _ _ _ h size => link_same_key h size, fun _ _ hza hzb h size => neigh_same_key hza hzb h size,
    fun _ _ h size => idiag_same_key h size⟩

/-- an entry of a bridge device itself, without a VLAN -/
def sampleNeigh (state : BitVec 16) : ObjVal Neigh.RtnlNeigh :=
  ⟨0, 28, 0x67, 7, 3, state, 2, 0, some ⟨0, 48, [2, 0, 0, 0, 0, 1]⟩, none, 0, 0, 9, 0⟩

/-- the entry in two states -/
theorem identity_same_bucket_sample :
    nlObjectIdentical (fun _ => Neigh.neighObjOps nlHash) (sampleNeigh 2) (sampleNeigh 4) = true ∧
    nlObjectKeygen (fun _ => Neigh.neighObjOps nlHash) (sampleNeigh 2) 1024 =
      nlObjectKeygen (fun _ => Neigh.neighObjOps nlHash) (sampleNeigh 4) 1024 := by
  have hid : nlObjectIdentical (fun _ => Neigh.neighObjOps nlHash) (sampleNeigh 2) (sampleNeigh 4) = true := by decide
  exact ⟨hid, (identity_same_bucket nlHash).2.1 _ _ (fun _ => rfl) (fun _ => rfl) hid 1024⟩

/-! ## Routes -/

section

open Route Cache

/-- a route is found by an identical one: they have the same key, in a table of any size, and the chain of the first one is
searched for the second -/
structure Found (nlHash : List UInt8 → ℕ) (a b : RouteVal) : Prop where
  bucket : ∀ size, nlObjectKeygen (routeOps nlHash) a size = nlObjectKeygen (routeOps nlHash) b size
  lookup : ∀ (w : Store RtnlRoute) (ht : HashTable) (o : ObjId), w.val o = a →
    o ∈ ht.nodes (nlObjectKeygen (routeOps nlHash) a ht.size) → (nlHashTableLookup (routeOps nlHash) w ht b).isSome = true

/-- MPLS routes have the same priority, which does not identify them -/
def PrioAgrees (a b : RouteVal) : Prop := a.data.rtFamily = AF_MPLS → a.data.rtPrio = b.data.rtPrio

theorem keyBytes_inj {n m : BitVec 32} (h : keyBytes n = keyBytes m) : n = m := by
  simp only [keyBytes, List.cons.injEq, and_true] at h
  obtain ⟨h0, h1, h2, h3⟩ := h
  have hbyte : ∀ {x y : ℕ}, UInt8.ofNat x = UInt8.ofNat y → x % 256 = y % 256 := by
    intro x y hxy
    simpa using congrArg UInt8.toNat hxy
  have hn := n.isLt
  have hm := m.isLt
  have e0 := hbyte h0
  have e1 := hbyte h1
  have e2 := hbyte h2
  have e3 := hbyte h3
  exact BitVec.eq_of_toNat_eq (by omega)

/-- the bytes that are hashed -/
def routeKeyBytes (r : RouteVal) : List UInt8 :=
  [UInt8.ofNat r.data.rtFamily.toNat, UInt8.ofNat r.data.rtTos.toNat] ++ keyBytes r.data.rtTable ++
    keyBytes r.data.rtPrio ++ (r.data.rtDst.map NlAddr.aAddr).getD []

theorem routeKeygen_eq (nlHash : List UInt8 → ℕ) (r : RouteVal) (size : ℕ) :
    nlObjectKeygen (routeOps nlHash) r size = nlHash (routeKeyBytes r) % size := rfl

variable {nlHash : List UInt8 → ℕ} {a b : RouteVal}

/-- identical routes are hashed as the same bytes just if their priorities agree -/
theorem routeKeyBytes_iff (h : nlObjectIdentical (routeOps nlHash) a b = true) :
    routeKeyBytes a = routeKeyBytes b ↔ PrioAgrees a b := by
  have hkey := ((route_identical_iff nlHash a b).1 h).2.2
  simp only [routeKey, Prod.mk.injEq] at hkey
  obtain ⟨-, hf, ht, htab, hdst, hprio⟩ := hkey
  unfold routeKeyBytes
  rw [hf, ht, htab, addrKey_addr hdst]
  constructor
  · intro hbytes _
    exact keyBytes_inj (List.append_cancel_left (List.append_cancel_right hbytes))
  · intro hagrees
    have heq : a.data.rtPrio = b.data.rtPrio := by
      by_cases hmpls : a.data.rtFamily = AF_MPLS
      · exact hagrees hmpls
      · rwa [if_neg hmpls, if_neg (hf ▸ hmpls)] at hprio
    rw [heq]

/-- **Routes.** Two identical routes are found by each other, whatever hash is used, if and only if they are not MPLS routes
with different priorities. -/
theorem route_same_bucket_iff (h : nlObjectIdentical (routeOps nlHash) a b = true) :
    (∀ hash, Found hash a b) ↔ PrioAgrees a b := by
  rw [← routeKeyBytes_iff h]
  constructor
  · intro hall
    by_contra hne
    have hbucket := (hall fun k => if k = routeKeyBytes a then 1 else 0).bucket 2
    rw [routeKeygen_eq, routeKeygen_eq, if_pos rfl, if_neg (fun heq => hne heq.symm)] at hbucket
    exact absurd hbucket (by decide)
  · intro hbytes hash
    have hbucket : ∀ size, nlObjectKeygen (routeOps hash) a size = nlObjectKeygen (routeOps hash) b size := by
      intro size
      rw [routeKeygen_eq, routeKeygen_eq, hbytes]
    refine ⟨hbucket, fun w ht o hval hmem => ?_⟩
    have hid : nlObjectIdentical (routeOps hash) (w.val o) b = true := by
      rw [hval, route_identical_iff]
      exact (route_identical_iff nlHash a b).1 h
    rw [nlHashTableLookup, ← hbucket, List.find?_isSome]
    exact ⟨o, hmem, hid⟩

end

/-- an MPLS route for a label, with this priority -/
def sampleMpls (prio : BitVec 32) : Route.RouteVal :=
  ⟨0, 24, 0x10bf, 28, 0, 0, 0, 1, 0, 0, 0, some ⟨28, 20, [0, 6, 65, 0]⟩, none, 254, 0, prio, fun _ => 0, 0, none, [], 0⟩

/-- routes with the same priority -/
theorem route_same_bucket_sample : Found nlHash (sampleMpls 5) (sampleMpls 5) := by
  have hid : nlObjectIdentical (Route.routeOps nlHash) (sampleMpls 5) (sampleMpls 5) = true := by decide
  exact (route_same_bucket_iff hid).2 (fun _ => rfl) nlHash

/-- **An MPLS route that is not found**: two routes for one label, of priorities 0 and 5, are identical and are kept in
different chains -/
theorem mpls_priority_splits :
    nlObjectIdentical (Route.routeOps nlHash) (sampleMpls 0) (sampleMpls 5) = true ∧
    nlObjectKeygen (Route.routeOps nlHash) (sampleMpls 0) 1024 ≠
      nlObjectKeygen (Route.routeOps nlHash) (sampleMpls 5) 1024 := by
  decide

end Libnl.Keys
