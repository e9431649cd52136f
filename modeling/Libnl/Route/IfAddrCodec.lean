/-
Address messages, there and back.

As for rules, an address object is described by the header and the attributes of the message it came from (`addrOf`). The
message that is built has other attributes in general (`again`): both `IFA_LOCAL` and `IFA_ADDRESS` are put whenever there
is a local address, and `IFA_FLAGS` only if the header cannot hold the flags. They make the same object.

- `localAndPeer_again`: the two addresses are found again, whichever attributes they came from.
- `addr_round_trip`: so it is for every object the parser delivers, if the message has room.
- `addr_too_large`: an object with a broadcast address of a page has no room in a message of a page.
-/
import Mathlib.Tactic
import Libnl.Route.IfAddr

namespace Libnl.IfAddr

open Bytes Msg Attr AttrWalk AttrTree AttrStream Writer Fields Mask
open Object Addr Addr.Family

/-! ## The two addresses -/

/-- addresses of one family that were built are equal if their bytes are -/
theorem nlAddrCmp_build (family : ℤ) (x y : List UInt8) :
    nlAddrCmp (some (nlAddrBuild family x)) (some (nlAddrBuild family y)) = decide (x ≠ y) := by
  by_cases h : x = y
  · rw [h]
    simp [nlAddrCmp]
  · simp [nlAddrCmp, nlAddrBuild, h]

section

variable (family prefixlen : BitVec 8)

/-- an address of the family, with the prefix length -/
def prefixAddr (x : List UInt8) : NlAddr := nlAddrSetPrefixlen (nlAddrBuild family.toNat x) prefixlen

theorem localAndPeer_inet (h : (family.toNat : ℤ) = AF_INET) (l a : Option (List UInt8)) :
    localAndPeer family prefixlen l a = (some (prefixAddr family prefixlen (l.getD [0, 0, 0, 0])),
      if l.getD [0, 0, 0, 0] = a.getD [0, 0, 0, 0] then none
      else some (nlAddrBuild family.toNat (a.getD [0, 0, 0, 0]))) := by
  unfold localAndPeer
  rw [if_pos h]
  simp only [nlAddrCmp_build, decide_eq_true_eq, ite_not]
  rfl

theorem localAndPeer_both (h : ¬ (family.toNat : ℤ) = AF_INET) (l a : List UInt8) :
    localAndPeer family prefixlen (some l) (some a) =
      if a = l then (some (prefixAddr family prefixlen a), none)
      else (some (nlAddrBuild family.toNat l), some (prefixAddr family prefixlen a)) := by
  unfold localAndPeer
  rw [if_neg h]
  simp only [nlAddrCmp_build, decide_eq_true_eq, ite_not]
  rfl

theorem localAndPeer_local (h : ¬ (family.toNat : ℤ) = AF_INET) (l : List UInt8) :
    localAndPeer family prefixlen (some l) none = (some (prefixAddr family prefixlen l), none) := if_neg h

theorem localAndPeer_address (h : ¬ (family.toNat : ℤ) = AF_INET) (a : List UInt8) :
    localAndPeer family prefixlen none (some a) = (some (prefixAddr family prefixlen a), none) := if_neg h

theorem localAndPeer_none (h : ¬ (family.toNat : ℤ) = AF_INET) : localAndPeer family prefixlen none none = (none, none) :=
  if_neg h

end

/-- the attributes that are put for the two addresses -/
def localBytes (addrs : Option NlAddr × Option NlAddr) : Option (List UInt8) := addrs.1.map NlAddr.aAddr

def peerBytes (addrs : Option NlAddr × Option NlAddr) : Option (List UInt8) :=
  (addrs.2.map NlAddr.aAddr).or (localBytes addrs)

section

variable (family prefixlen : BitVec 8)

/-- **The two addresses**, put and read -/
theorem localAndPeer_again (l a : Option (List UInt8)) :
    localAndPeer family prefixlen (localBytes (localAndPeer family prefixlen l a))
      (peerBytes (localAndPeer family prefixlen l a)) = localAndPeer family prefixlen l a := by
  -- one address is put twice, and then read as the local one
  have hone : ¬ (family.toNat : ℤ) = AF_INET → ∀ x,
      localAndPeer family prefixlen (localBytes (some (prefixAddr family prefixlen x), none))
        (peerBytes (some (prefixAddr family prefixlen x), none)) = (some (prefixAddr family prefixlen x), none) := by
    intro hother x
    have hboth := localAndPeer_both family prefixlen hother x x
    rwa [if_pos rfl] at hboth
  by_cases hinet : (family.toNat : ℤ) = AF_INET
  · rw [localAndPeer_inet _ _ hinet, localAndPeer_inet _ _ hinet]
    by_cases heq : l.getD [0, 0, 0, 0] = a.getD [0, 0, 0, 0]
    · rw [if_pos heq]
      exact congrArg (Prod.mk _) (if_pos rfl)
    · rw [if_neg heq]
      exact congrArg (Prod.mk _) (if_neg heq)
  · cases l with
    | none =>
      cases a with
      | none => rw [localAndPeer_none _ _ hinet]; exact localAndPeer_none _ _ hinet
      | some a => rw [localAndPeer_address _ _ hinet]; exact hone hinet a
    | some l =>
      cases a with
      | none => rw [localAndPeer_local _ _ hinet]; exact hone hinet l
      | some a =>
        rw [localAndPeer_both _ _ hinet]
        by_cases heq : a = l
        · rw [if_pos heq]
          exact hone hinet a
        · rw [if_neg heq]
          have hboth := localAndPeer_both family prefixlen hinet l a
          rwa [if_neg heq] at hboth

/-- the addresses come from the attributes, or are 0.0.0.0 -/
theorem localAndPeer_length {l a : Option (List UInt8)} (hl : ∀ s ∈ l, 4 + s.length ≤ 65535)
    (ha : ∀ s ∈ a, 4 + s.length ≤ 65535) :
    (∀ s ∈ localBytes (localAndPeer family prefixlen l a), 4 + s.length ≤ 65535) ∧
      ∀ s ∈ peerBytes (localAndPeer family prefixlen l a), 4 + s.length ≤ 65535 := by
  have hzero : ∀ {o : Option (List UInt8)}, (∀ s ∈ o, 4 + s.length ≤ 65535) → 4 + (o.getD [0, 0, 0, 0]).length ≤ 65535 := by
    intro o ho
    cases o with
    | none => decide
    | some s => exact ho s rfl
  -- all that the addresses can be
  have hone : ∀ x, 4 + x.length ≤ 65535 → (∀ s ∈ localBytes (some (prefixAddr family prefixlen x), none), 4 + s.length ≤ 65535) ∧
      ∀ s ∈ peerBytes (some (prefixAddr family prefixlen x), none), 4 + s.length ≤ 65535 := by
    intro x hx
    exact ⟨fun s hs => Option.some.inj hs ▸ hx, fun s hs => Option.some.inj hs ▸ hx⟩
  by_cases hinet : (family.toNat : ℤ) = AF_INET
  · rw [localAndPeer_inet _ _ hinet]
    by_cases heq : l.getD [0, 0, 0, 0] = a.getD [0, 0, 0, 0]
    · rw [if_pos heq]
      exact hone _ (hzero hl)
    · rw [if_neg heq]
      exact ⟨fun s hs => Option.some.inj hs ▸ hzero hl, fun s hs => Option.some.inj hs ▸ hzero ha⟩
  · cases l with
    | none =>
      cases a with
      | none =>
        rw [localAndPeer_none _ _ hinet]
        exact ⟨nofun, nofun⟩
      | some a =>
        rw [localAndPeer_address _ _ hinet]
        exact hone a (ha a rfl)
    | some l =>
      cases a with
      | none =>
        rw [localAndPeer_local _ _ hinet]
        exact hone l (hl l rfl)
      | some a =>
        rw [localAndPeer_both _ _ hinet]
        by_cases heq : a = l
        · rw [if_pos heq]
          exact hone a (ha a rfl)
        · rw [if_neg heq]
          exact ⟨fun s hs => Option.some.inj hs ▸ hl l rfl, fun s hs => Option.some.inj hs ▸ ha a rfl⟩

end

/-! ## The header and the attributes -/

/-- attributes as a reader finds them: names end within their arrays, and addresses are no longer than an attribute -/
structure AddrAttrs.Valid (a : AddrAttrs) : Prop where
  localAddr : ∀ s ∈ a.localAddr, 4 + s.length ≤ 65535
  address : ∀ s ∈ a.address, 4 + s.length ≤ 65535
  aliasName : ∀ s ∈ a.aliasName, IsStr s ∧ s.length ≤ IFNAMSIZ - 1
  label : ∀ s ∈ a.label, IsStr s ∧ s.length ≤ IFNAMSIZ - 1
  broadcast : ∀ s ∈ a.broadcast, 4 + s.length ≤ 65535

section

variable [HostOrder]

theorem readAddrAttrs_valid (buf : Mem) (tb : Index) : (readAddrAttrs buf tb).Valid := by
  have hbytes : ∀ t, ∀ s ∈ (tb t).map (nlaBytes buf), 4 + s.length ≤ 65535 := by
    intro t s hs
    obtain ⟨a, -, rfl⟩ := Option.mem_map.1 hs
    exact nlaBytes_length _ _
  have hname : ∀ t, ∀ s ∈ (tb t).map (fun a => nlaStrlcpy buf a IFNAMSIZ), IsStr s ∧ s.length ≤ IFNAMSIZ - 1 := by
    intro t s hs
    obtain ⟨a, -, rfl⟩ := Option.mem_map.1 hs
    exact ⟨nlaStrlcpy_isStr _ _ _, nlaStrlcpy_length _ _ _⟩
  exact ⟨hbytes _, hbytes _, hname _, hname _, hbytes _⟩

theorem ifAddrMsg_length (ifa : IfAddrMsg) : ifa.bytes.length = 8 := by
  simp [IfAddrMsg.bytes]

theorem read_hdr {buf : Mem} {ifa : IfAddrMsg} (hseg : Seg buf 16 ifa.bytes) : readIfAddrMsg buf = ifa := by
  obtain ⟨hhead, hindex⟩ := seg_append.1 hseg
  have h0 := hhead 0 (by simp)
  have h1 := hhead 1 (by simp)
  have h2 := hhead 2 (by simp)
  have h3 := hhead 3 (by simp)
  have hget := hindex.getU32
  simp only [List.length_cons, List.length_nil, Nat.reduceAdd] at h0 h1 h2 h3 hget
  rw [readIfAddrMsg, h0, h1, h2, h3, hget, Nat.mod_eq_of_lt ifa.ifaIndex.isLt, BitVec.ofNat_toNat, BitVec.setWidth_eq]
  rfl

theorem cacheinfo_length (ca : IfaCacheinfo) : ca.bytes.length = 16 := by
  simp [IfaCacheinfo.bytes]

theorem at_cacheinfo {buf : Mem} {pos t : ℕ} {ca : IfaCacheinfo} (h : At buf pos ⟨t, ca.bytes⟩) :
    nlaCacheinfo buf pos = ca := by
  have hdata : Seg buf (nlaData pos) ca.bytes := h.data
  obtain ⟨h3, h4⟩ := seg_append.1 hdata
  obtain ⟨h2, h3⟩ := seg_append.1 h3
  obtain ⟨h1, h2⟩ := seg_append.1 h2
  simp only [List.length_append, u32Bytes_length, Nat.reduceAdd] at h2 h3 h4
  have hget : ∀ {p : ℕ} {v : BitVec 32}, Seg buf p (u32Bytes v.toNat) → BitVec.ofNat 32 (getU32 buf p) = v := by
    intro p v hseg
    rw [hseg.getU32, Nat.mod_eq_of_lt v.isLt, BitVec.ofNat_toNat, BitVec.setWidth_eq]
  rw [nlaCacheinfo, hget h1, hget h2, hget h3, hget h4]

/-- attributes as the builder puts them -/
def attrFields (a : AddrAttrs) : FieldList :=
  [(IFA_LOCAL, a.localAddr), (IFA_ADDRESS, a.address), (IFA_ALIAS, a.aliasName.map fun s => s ++ [0]),
    (IFA_LABEL, a.label.map fun s => s ++ [0]), (IFA_BROADCAST, a.broadcast),
    (IFA_CACHEINFO, a.cacheinfo.map IfaCacheinfo.bytes), (IFA_FLAGS, a.flags.map fun v => u32Bytes v.toNat)]

theorem attrFields_distinct (a : AddrAttrs) : Distinct (attrFields a) := by
  show List.Nodup _
  simp only [attrFields, List.map_cons, List.map_nil]
  decide

theorem attrFields_length (a : AddrAttrs) : (attrFields a).length = 7 := rfl

theorem sends_cacheinfo {pt : NlaPolicy} (hpt : pt = ⟨.unspec, 16, 0⟩) (o : Option IfaCacheinfo) :
    Sends pt (o.map IfaCacheinfo.bytes) := by
  subst hpt
  refine sends_min rfl (by decide) fun q hq => ?_
  obtain ⟨ca, -, rfl⟩ := Option.mem_map.1 hq
  have hlen := cacheinfo_length ca
  exact ⟨by omega, by simp [hlen]⟩

theorem attrFields_sendable {a : AddrAttrs} (ha : a.Valid) : Sendable addrPolicy (attrFields a) := by
  have hname : ∀ {o : Option (List UInt8)}, (∀ s ∈ o, IsStr s ∧ s.length ≤ IFNAMSIZ - 1) →
      ∀ s ∈ o, s.length + 1 ≤ IFNAMSIZ := fun ho s hs => by
    have hlen := (ho s hs).2
    simp only [IFNAMSIZ] at hlen ⊢
    omega
  refine Sendable.cons (by decide) (sends_any (by decide) ha.localAddr) ?_
  refine Sendable.cons (by decide) (sends_any (by decide) ha.address) ?_
  refine Sendable.cons (by decide) (sends_str (n := IFNAMSIZ) (by decide) (by decide) (hname ha.aliasName)) ?_
  refine Sendable.cons (by decide) (sends_str (n := IFNAMSIZ) (by decide) (by decide) (hname ha.label)) ?_
  refine Sendable.cons (by decide) (sends_any (by decide) ha.broadcast) ?_
  refine Sendable.cons (by decide) (sends_cacheinfo (by decide) _) ?_
  refine Sendable.cons (by decide) (sends_any (by decide) fun q hq => ?_) (Sendable.nil _)
  obtain ⟨v, -, rfl⟩ := Option.mem_map.1 hq
  rw [u32Bytes_length]
  decide

/-- **What is read** of attributes that were put -/
theorem read_attrs {buf : Mem} {tb : Index} {a : AddrAttrs} (ha : a.Valid) (hmulti : a.multicast = none)
    (hany : a.anycast = none) (h : Indexes buf IFA_MAX (leavesOf (attrFields a)) tb) : readAddrAttrs buf tb = a := by
  have hget : ∀ i t p, (attrFields a)[i]? = some (t, p) → t ≤ IFA_MAX → Shown buf tb t p :=
    fun i t p hi ht => shown_plain h (attrFields_distinct a) (by decide) (List.mem_of_getElem? hi) ht
  have hnone : ∀ t ≤ IFA_MAX, t ∉ [IFA_LOCAL, IFA_ADDRESS, IFA_ALIAS, IFA_LABEL, IFA_BROADCAST, IFA_CACHEINFO,
      IFA_FLAGS] → tb t = none := by
    intro t ht hnot
    refine none_of_indexes h ht fun f hf heq => hnot ?_
    have hmem : f.1 % 16384 ∈ (attrFields a).map fun f => f.1 % 16384 := List.mem_map.2 ⟨f, hf, rfl⟩
    rw [heq] at hmem
    exact hmem
  have hlocal := (hget 0 IFA_LOCAL _ rfl (by decide)).bytes
  have haddress := (hget 1 IFA_ADDRESS _ rfl (by decide)).bytes
  have halias := (hget 2 IFA_ALIAS _ rfl (by decide)).str ha.aliasName
  have hlabel := (hget 3 IFA_LABEL _ rfl (by decide)).str ha.label
  have hbroadcast := (hget 4 IFA_BROADCAST _ rfl (by decide)).bytes
  have hcacheinfo : (tb IFA_CACHEINFO).map (nlaCacheinfo buf) = a.cacheinfo.map id :=
    (hget 5 IFA_CACHEINFO _ rfl (by decide)).map fun _ _ _ _ hat => at_cacheinfo hat
  have hflags := (hget 6 IFA_FLAGS _ rfl (by decide)).u32
  have htbmulti := hnone IFA_MULTICAST (by decide) (by decide)
  have htbany := hnone IFA_ANYCAST (by decide) (by decide)
  rw [Option.map_id] at hcacheinfo
  cases a
  simp only at hmulti hany
  subst hmulti hany
  simp only [readAddrAttrs, AddrAttrs.mk.injEq, htbmulti, htbany, Option.map_none]
  exact ⟨hlocal, haddress, halias, hlabel, hbroadcast, hcacheinfo, hflags, trivial, trivial⟩

end

/-! ## The object -/

theorem addrBits_separate (ifa : IfAddrMsg) (a : AddrAttrs) : separate ((addrBits ifa a).map Prod.fst) = true := by
  simp only [addrBits, List.map_cons, List.map_nil]
  rfl

theorem has_addrOf (msgtype : ℤ) (ifa : IfAddrMsg) (a : AddrAttrs) (i : ℕ) (bit : BitVec 64) {there : Bool}
    (h : (addrBits ifa a)[i]? = some (bit, there)) : has (addrOf msgtype ifa a) bit = there :=
  has_of_mask rfl (addrBits_separate ifa a) (List.mem_of_getElem? h)

section

variable (msgtype : ℤ) (ifa : IfAddrMsg) (a : AddrAttrs)

/-- the addresses of the object -/
def addrsOf : Option NlAddr × Option NlAddr := localAndPeer ifa.ifaFamily ifa.ifaPrefixlen a.localAddr a.address

/-- the attributes of the message that is built -/
def again : AddrAttrs where
  localAddr := localBytes (addrsOf ifa a)
  address := peerBytes (addrsOf ifa a)
  aliasName := a.aliasName
  label := a.label
  broadcast := a.broadcast
  cacheinfo := a.cacheinfo.map fun ca => { ca with cstamp := 0, tstamp := 0 }
  flags := if flagsOf ifa a &&& ~~~0xFF ≠ 0 then some (flagsOf ifa a) else none
  multicast := none
  anycast := none

/-- the header of the message that is built -/
def hdrAgain : IfAddrMsg := { ifa with ifaFlags := (flagsOf ifa a).setWidth 8 }

theorem again_valid {a : AddrAttrs} (ha : a.Valid) : (again ifa a).Valid :=
  have haddrs := localAndPeer_length ifa.ifaFamily ifa.ifaPrefixlen ha.localAddr ha.address
  ⟨haddrs.1, haddrs.2, ha.aliasName, ha.label, ha.broadcast⟩

theorem addrHdr_addrOf : addrHdr (addrOf msgtype ifa a) = hdrAgain ifa a := by
  have hscope := has_addrOf msgtype ifa a 3 ADDR_ATTR_SCOPE rfl
  rw [addrHdr, addrScope, if_pos hscope]
  rfl

/-- an address that is there is put -/
theorem ifHas_addr {D : Type} {o : ObjVal D} {bit : BitVec 64} {addr : Option NlAddr} (h : has o bit = addr.isSome) :
    ifHas o bit (binaryAddr addr) = addr.map NlAddr.aAddr := by
  rw [ifHas, h]
  cases addr with
  | none => rfl
  | some x => rfl

/-- **What the builder puts** -/
theorem addrFields_addrOf [HostOrder] : addrFields (addrOf msgtype ifa a) = attrFields (again ifa a) := by
  let encStr : List UInt8 → List UInt8 := fun s => s ++ [0]
  let encInfo : IfaCacheinfo → List UInt8 := fun ca => IfaCacheinfo.bytes { ca with cstamp := 0, tstamp := 0 }
  have hget := has_addrOf msgtype ifa a
  have hlocal : ifHas (addrOf msgtype ifa a) ADDR_ATTR_LOCAL (binaryAddr (addrsOf ifa a).1) = localBytes (addrsOf ifa a) :=
    ifHas_addr (hget 8 _ rfl)
  have hpeer : (if has (addrOf msgtype ifa a) ADDR_ATTR_PEER then some (binaryAddr (addrsOf ifa a).2)
      else ifHas (addrOf msgtype ifa a) ADDR_ATTR_LOCAL (binaryAddr (addrsOf ifa a).1)) = peerBytes (addrsOf ifa a) := by
    have hhas : has (addrOf msgtype ifa a) ADDR_ATTR_PEER = (addrsOf ifa a).2.isSome := hget 9 _ rfl
    rw [hlocal, hhas, peerBytes]
    cases (addrsOf ifa a).2 with
    | none => rfl
    | some x => rfl
  have halias := ifHas_getD (hget 5 ADDR_ATTR_ALIAS rfl) [] encStr
  have hlabel := ifHas_getD (hget 6 ADDR_ATTR_LABEL rfl) [] encStr
  have hbcast : ifHas (addrOf msgtype ifa a) ADDR_ATTR_BROADCAST
      (binaryAddr (a.broadcast.map (nlAddrBuild (ifa.ifaFamily.toNat : ℤ)))) = a.broadcast := by
    rw [ifHas_addr ((hget 10 _ rfl).trans Option.isSome_map.symm), Option.map_map]
    exact Option.map_id'
  have hinfo := ifHas_getD (hget 7 ADDR_ATTR_CACHEINFO rfl) ⟨0, 0, 0, 0⟩ encInfo
  simp only [addrFields, attrFields, List.cons.injEq, Prod.mk.injEq, true_and, and_true]
  refine ⟨hlocal, hpeer, halias, hlabel, hbcast, ?_, ?_⟩
  · have hhas : has (addrOf msgtype ifa a) ADDR_ATTR_CACHEINFO = a.cacheinfo.isSome := hget 7 _ rfl
    rw [ifHas, hhas, again, addrOf]
    cases a.cacheinfo with
    | none => rfl
    | some ca => rfl
  · show (if flagsOf ifa a &&& ~~~0xFF ≠ 0 then _ else _) = Option.map _ (if flagsOf ifa a &&& ~~~0xFF ≠ 0 then _ else _)
    by_cases hbig : flagsOf ifa a &&& ~~~0xFF ≠ 0
    · rw [if_pos hbig, if_pos hbig]
      rfl
    · rw [if_neg hbig, if_neg hbig]
      rfl

/-- flags that fit the header -/
theorem flags_fit {f : BitVec 32} (h : f &&& ~~~0xFF = 0) : (f.setWidth 8).setWidth 32 = f := by
  have hmask : f &&& 0xFF = f := by
    have hsplit : f &&& (0xFF ||| ~~~0xFF) = f := by
      rw [BitVec.or_not_self, BitVec.and_allOnes]
    have hzero : f &&& 0xFF ||| 0 = f &&& 0xFF := BitVec.or_zero
    rwa [BitVec.and_or_distrib_left, h, hzero] at hsplit
  have hnat : f.toNat % 256 = f.toNat := by
    have hand := congrArg BitVec.toNat hmask
    rw [BitVec.toNat_and] at hand
    exact (Nat.and_two_pow_sub_one_eq_mod f.toNat 8).symm.trans hand
  refine BitVec.eq_of_toNat_eq ?_
  rw [BitVec.toNat_setWidth, BitVec.toNat_setWidth]
  omega

theorem flagsOf_again : flagsOf (hdrAgain ifa a) (again ifa a) = flagsOf ifa a := by
  show Option.getD (if flagsOf ifa a &&& ~~~0xFF ≠ 0 then some (flagsOf ifa a) else none)
    (((flagsOf ifa a).setWidth 8).setWidth 32) = flagsOf ifa a
  by_cases hbig : flagsOf ifa a &&& ~~~0xFF ≠ 0
  · rw [if_pos hbig]
    rfl
  · rw [if_neg hbig]
    exact flags_fit (not_not.1 hbig)

theorem addrsOf_again : addrsOf (hdrAgain ifa a) (again ifa a) = addrsOf ifa a :=
  localAndPeer_again ifa.ifaFamily ifa.ifaPrefixlen a.localAddr a.address

/-- the object without timestamps -/
def untimed (addr : RtnlAddr) : RtnlAddr :=
  { addr with aCacheinfo := { addr.aCacheinfo with aciCstamp := 0, aciTstamp := 0 } }

/-- the lifetimes, put and read -/
theorem infoOf_again : infoOf (again ifa a).cacheinfo = { infoOf a.cacheinfo with aciCstamp := 0, aciTstamp := 0 } := by
  unfold again
  cases a.cacheinfo with
  | none => rfl
  | some ca => rfl

variable {a} (hmulti : a.multicast = none) (hany : a.anycast = none)

include hmulti hany

/-- **The same attributes** -/
theorem mask_again (msgtype' : ℤ) : (addrOf msgtype' (hdrAgain ifa a) (again ifa a)).ceMask = (addrOf msgtype ifa a).ceMask := by
  have haddrs := addrsOf_again ifa a
  have hinfo : (again ifa a).cacheinfo.isSome = a.cacheinfo.isSome := Option.isSome_map
  have hbits : addrBits (hdrAgain ifa a) (again ifa a) = addrBits ifa a := by
    unfold addrsOf at haddrs
    rw [addrBits, addrBits, haddrs, hinfo, hmulti, hany]
    rfl
  exact congrArg maskOf hbits

/-- **The same values**, but for the timestamps -/
theorem data_again (msgtype' : ℤ) :
    (addrOf msgtype' (hdrAgain ifa a) (again ifa a)).data = untimed (addrOf msgtype ifa a).data := by
  show RtnlAddr.mk ifa.ifaFamily ifa.ifaPrefixlen ifa.ifaScope (flagsOf (hdrAgain ifa a) (again ifa a)) ifa.ifaIndex
    (addrsOf (hdrAgain ifa a) (again ifa a)).2 (addrsOf (hdrAgain ifa a) (again ifa a)).1 _ none none
    (infoOf (again ifa a).cacheinfo) _ _ = _
  rw [addrsOf_again, flagsOf_again, infoOf_again]
  unfold untimed addrOf
  rw [hmulti, hany]
  rfl

end

/-! ## There and back -/

section

variable [HostOrder]

/-- what the parser delivers -/
theorem addrMsgParser_ok {n : NlMsg} {r : AddrVal} (h : addrMsgParser n = .ok r) :
    r = addrOf n.nlmsgType (readIfAddrMsg n.buf) (readAddrAttrs n.buf (nlmsgParse n 8 IFA_MAX (some addrPolicy)).2) := by
  simp only [addrMsgParser] at h
  split_ifs at h
  exact (Except.ok.inj h).symm

/-- the bytes of the message for an address -/
def addrImage (r : AddrVal) : List UInt8 := (addrHdr r).bytes ++ encLeaves (leavesOf (addrFields r))

/-- **A message made of a header and attributes**: it is written, and reads as the object they make. -/
theorem addr_written (msgtype : ℤ) (ifa : IfAddrMsg) {a : AddrAttrs} (ha : a.Valid) {size : ℕ} (cmd flags : ℕ)
    (hsize : size ≤ PTRDIFF_MAX) (hroom : 16 + (addrImage (addrOf msgtype ifa a)).length ≤ size) :
    ∃ m, buildAddrMsg size (addrOf msgtype ifa a) cmd flags = .ok m ∧
      addrMsgParser m = .ok (addrOf m.nlmsgType (hdrAgain ifa a) (again ifa a)) := by
  have hvalid := again_valid ifa ha
  have hhdr := ifAddrMsg_length (hdrAgain ifa a)
  rw [addrImage, addrHdr_addrOf, addrFields_addrOf] at hroom
  obtain ⟨m0, m, tb, halloc, hput, hparse, hidx, hseg⟩ := fields_written (-NLE_MSGSIZE) IFA_MAX cmd flags
    (by rw [hhdr]) (attrFields_sendable hvalid) (by rw [hhdr, attrFields_length]; decide) hsize hroom
  rw [hhdr, Nat.cast_ofNat] at hparse
  refine ⟨m, ?_, ?_⟩
  · rw [buildAddrMsg, halloc, addrHdr_addrOf, addrFields_addrOf]
    simp only [hput, lt_irrefl, if_false]
  · simp only [addrMsgParser, hparse, lt_irrefl, if_false, read_hdr hseg, read_attrs hvalid rfl rfl hidx]

/-- an address whose message has no room -/
theorem addr_unwritten (msgtype : ℤ) (ifa : IfAddrMsg) {a : AddrAttrs} (ha : a.Valid) {size : ℕ} (cmd flags : ℕ)
    (hsize : size ≤ PTRDIFF_MAX) (hle : 24 ≤ size) (hfull : size < 16 + (addrImage (addrOf msgtype ifa a)).length) :
    buildAddrMsg size (addrOf msgtype ifa a) cmd flags = .error (-NLE_MSGSIZE) := by
  have hhdr := ifAddrMsg_length (hdrAgain ifa a)
  rw [addrImage, addrHdr_addrOf, addrFields_addrOf] at hfull
  obtain ⟨m0, halloc, hput⟩ := fields_unwritten (-NLE_MSGSIZE) cmd flags (by rw [hhdr])
    (attrFields_sendable (again_valid ifa ha)) (by rw [hhdr]; decide) hsize (by rw [hhdr]; exact hle) hfull
  have hneg : (-NLE_MSGSIZE : ℤ) < 0 := by decide
  rw [buildAddrMsg, halloc, addrHdr_addrOf, addrFields_addrOf]
  simp only [hput, hneg, if_true]

/-- **Round trip.** For every address the parser delivers that has no multicast and no anycast address: if the message to
build has room, it is built, and the parser delivers from it an address with the same attributes and, but for timestamps,
the same values. -/
theorem addr_round_trip {n : NlMsg} {r : AddrVal} (hparse : addrMsgParser n = .ok r)
    (hmulti : has r ADDR_ATTR_MULTICAST = false) (hany : has r ADDR_ATTR_ANYCAST = false) {size : ℕ} (cmd flags : ℕ)
    (hsize : size ≤ PTRDIFF_MAX) (hroom : 16 + (addrImage r).length ≤ size) :
    ∃ m r', buildAddrMsg size r cmd flags = .ok m ∧ addrMsgParser m = .ok r' ∧ r'.ceMask = r.ceMask ∧
      r'.data = untimed r.data := by
  have hr := addrMsgParser_ok hparse
  subst hr
  have hnone : ∀ {o : Option (List UInt8)}, o.isSome = false → o = none := fun ho =>
    Option.not_isSome_iff_eq_none.1 (by rw [ho]; decide)
  rw [has_addrOf _ _ _ 11 ADDR_ATTR_MULTICAST rfl] at hmulti
  rw [has_addrOf _ _ _ 12 ADDR_ATTR_ANYCAST rfl] at hany
  obtain ⟨m, hbuild, hread⟩ := addr_written n.nlmsgType (readIfAddrMsg n.buf)
    (readAddrAttrs_valid n.buf (nlmsgParse n 8 IFA_MAX (some addrPolicy)).2) cmd flags hsize hroom
  exact ⟨m, _, hbuild, hread, mask_again _ _ (hnone hmulti) (hnone hany) _, data_again _ _ (hnone hmulti) (hnone hany) _⟩

/-! an IPv4 address with a peer, with flags beyond the header, and with a broadcast address of `k` bytes -/

def bcastAttrs (k : ℕ) : AddrAttrs :=
  ⟨some [10, 0, 0, 1], some [10, 0, 0, 2], none, some [108, 111], some (List.replicate k 255), none, some 0x280, none, none⟩

def bcastHdr : IfAddrMsg := ⟨2, 24, 128, 0, 1⟩

omit [HostOrder] in
theorem bcastAttrs_valid {k : ℕ} (hk : 4 + k ≤ 65535) : (bcastAttrs k).Valid where
  localAddr s hs := by
    cases hs
    decide
  address s hs := by
    cases hs
    decide
  aliasName := nofun
  label s hs := by
    cases hs
    exact ⟨by simp [IsStr], by decide⟩
  broadcast s hs := by
    cases hs
    rwa [List.length_replicate]

omit [HostOrder] in
/-- it is built into the message it came from -/
theorem bcast_again (k : ℕ) : again bcastHdr (bcastAttrs k) = bcastAttrs k := by
  have haddrs : addrsOf bcastHdr (bcastAttrs k) =
      (some ⟨2, 24, [10, 0, 0, 1]⟩, some ⟨2, 32, [10, 0, 0, 2]⟩) := by
    show localAndPeer 2 24 (some [10, 0, 0, 1]) (some [10, 0, 0, 2]) = _
    decide
  have hflags : (if flagsOf bcastHdr (bcastAttrs k) &&& ~~~0xFF ≠ 0 then some (flagsOf bcastHdr (bcastAttrs k)) else none) =
      some 0x280 := by
    show (if (0x280 : BitVec 32) &&& ~~~0xFF ≠ 0 then some 0x280 else none) = some (0x280 : BitVec 32)
    decide
  rw [again, haddrs, hflags]
  rfl

omit [HostOrder] in
theorem bcast_hdrAgain (k : ℕ) : hdrAgain bcastHdr (bcastAttrs k) = bcastHdr := by
  show IfAddrMsg.mk 2 24 (BitVec.setWidth 8 0x280#32) 0 1 = bcastHdr
  decide

theorem bcastImage_length (msgtype : ℤ) (k : ℕ) :
    (addrImage (addrOf msgtype bcastHdr (bcastAttrs k))).length = 40 + align4 (4 + k) := by
  have hleaves : leavesOf (attrFields (bcastAttrs k)) =
      [⟨IFA_LOCAL, [10, 0, 0, 1]⟩, ⟨IFA_ADDRESS, [10, 0, 0, 2]⟩, ⟨IFA_LABEL, [108, 111, 0]⟩,
        ⟨IFA_BROADCAST, List.replicate k 255⟩, ⟨IFA_FLAGS, u32Bytes 0x280⟩] := rfl
  have h3 : align4 (4 + 3) = 8 := rfl
  have h4 : align4 (4 + 4) = 8 := rfl
  rw [addrImage, List.length_append, addrHdr_addrOf, ifAddrMsg_length, addrFields_addrOf, bcast_again, hleaves]
  simp only [encLeaves_cons, encLeaves_nil, List.length_append, encLeaf_length, u32Bytes_length, List.length_replicate,
    List.length_cons, List.length_nil, Nat.reduceAdd, h3, h4]
  omega

/-- a message that the parser makes this address of -/
theorem bcast_parsed {k : ℕ} (hk : 4 + k ≤ 65535) {size : ℕ} (hsize : size ≤ PTRDIFF_MAX)
    (hroom : 56 + align4 (4 + k) ≤ size) : ∃ n, addrMsgParser n = .ok (addrOf n.nlmsgType bcastHdr (bcastAttrs k)) := by
  have hlen := bcastImage_length 20 k
  obtain ⟨n, -, hread⟩ := addr_written 20 bcastHdr (bcastAttrs_valid hk) 20 0 hsize (by omega)
  rw [bcast_again, bcast_hdrAgain] at hread
  exact ⟨n, hread⟩

end

/-- the round trip of an address with a peer, in a message of a page -/
theorem addr_round_trip_sample : ∃ n r m r', @addrMsgParser ⟨false⟩ n = .ok r ∧
    @buildAddrMsg ⟨false⟩ 4096 r 20 0 = .ok m ∧ @addrMsgParser ⟨false⟩ m = .ok r' ∧ r'.ceMask = r.ceMask ∧
      r'.data = untimed r.data := by
  let order : HostOrder := ⟨false⟩
  obtain ⟨n, hn⟩ := bcast_parsed (k := 4) (by decide) (by decide : 4096 ≤ PTRDIFF_MAX) (by decide)
  have hlen := bcastImage_length n.nlmsgType 4
  obtain ⟨m, r', hbuild, hread, hmask, hdata⟩ := addr_round_trip hn (has_addrOf _ _ _ 11 _ rfl) (has_addrOf _ _ _ 12 _ rfl)
    20 0 (by decide : 4096 ≤ PTRDIFF_MAX) (by rw [hlen]; decide)
  exact ⟨n, _, m, r', hn, hbuild, hread, hmask, hdata⟩

/-- **An address too large.** The parser delivers an address with a broadcast address of a page, which has no room in a
message of a page, the default. -/
theorem addr_too_large : ∃ n r, @addrMsgParser ⟨false⟩ n = .ok r ∧ has r ADDR_ATTR_MULTICAST = false ∧
    has r ADDR_ATTR_ANYCAST = false ∧ @buildAddrMsg ⟨false⟩ 4096 r 20 0 = .error (-NLE_MSGSIZE) := by
  let order : HostOrder := ⟨false⟩
  obtain ⟨n, hn⟩ := bcast_parsed (k := 4096) (by decide) (by decide : 8192 ≤ PTRDIFF_MAX) (by decide)
  have hlen := bcastImage_length n.nlmsgType 4096
  exact ⟨n, _, hn, has_addrOf _ _ _ 11 _ rfl, has_addrOf _ _ _ 12 _ rfl,
    addr_unwritten n.nlmsgType bcastHdr (bcastAttrs_valid (by decide)) 20 0 (by decide) (by decide)
      (by rw [hlen]; decide)⟩

end Libnl.IfAddr
