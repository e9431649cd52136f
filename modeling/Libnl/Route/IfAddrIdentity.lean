/-
Identity of addresses of interfaces (`addr_compare` in `lib/route/addr.c`).

IPv4 addresses are told apart by interface, local address, prefix length, and by the network part of the peer, if they have
one. The prefix length is in the object and in the local address; the peer is compared by `nl_addr_cmp_prefix()`, which
takes the prefix length from the address it is given. The parser puts the prefix length of the message into the local
address only. So the peer is compared as a whole.

- `parsed_shape`: what a parsed IPv4 address looks like.
- `identical_iff`: what identity of two of them compares. It is an equivalence.
- `address_identity_iff`: for which addresses the network part of the peer decides.
- `one_network`: two peers in one network.
-/
import Mathlib.Tactic
import Libnl.Cache.Object
import Libnl.Route.AddrPrefix
import Libnl.Route.IfAddrCodec

namespace Libnl.IfAddr

open Bytes Msg Attr AttrWalk AttrTree AttrStream Fields Mask Object
open Addr Addr.Family BitString

/-! ## The operations of the type -/

/-- `addr_id_attrs_get` -/
def addrIdAttrsGet (addr : AddrVal) : BitVec 32 :=
  if (addr.data.aFamily.toNat : ℤ) = AF_INET then
    let rv := ADDR_ATTR_FAMILY ||| ADDR_ATTR_IFINDEX ||| ADDR_ATTR_LOCAL ||| ADDR_ATTR_PREFIXLEN
    (if addr.data.aPeer.isSome then rv ||| ADDR_ATTR_PEER else rv).setWidth 32
  else if (addr.data.aFamily.toNat : ℤ) = AF_INET6 then
    (ADDR_ATTR_FAMILY ||| ADDR_ATTR_IFINDEX ||| ADDR_ATTR_LOCAL).setWidth 32
  else (ADDR_ATTR_FAMILY ||| ADDR_ATTR_IFINDEX ||| ADDR_ATTR_LOCAL ||| ADDR_ATTR_PREFIXLEN).setWidth 32

/-- whether the peers differ -/
def peersDiffer (a b : AddrVal) (flags : ℕ) : Bool :=
  -- for identity of IPv4 addresses, the network part of the peer shall be compared
  if flags &&& ID_COMPARISON ≠ 0 ∧ (a.data.aFamily.toNat : ℤ) = AF_INET ∧ (b.data.aFamily.toNat : ℤ) = AF_INET ∧
      a.data.aPeer.isSome ∧ b.data.aPeer.isSome ∧ a.data.aPrefixlen = b.data.aPrefixlen then
    nlAddrCmpPrefix a.data.aPeer b.data.aPeer
  else nlAddrCmp a.data.aPeer b.data.aPeer

/-- `addr_compare`; `flagMask` is the `a_flag_mask` of `b`, which has the flags that were set one by one -/
def addrCompare (flagMask : BitVec 32) (a b : AddrVal) (attrs : BitVec 64) (flags : ℕ) : BitVec 64 :=
  let flagsDiffer := if flags &&& LOOSE_COMPARISON ≠ 0 then
      decide ((a.data.aFlags ^^^ b.data.aFlags) &&& flagMask ≠ 0)
    else decide (a.data.aFlags ≠ b.data.aFlags)
  [attrDiff attrs ADDR_ATTR_IFINDEX a b (decide (a.data.aIfindex ≠ b.data.aIfindex)),
    attrDiff attrs ADDR_ATTR_FAMILY a b (decide (a.data.aFamily ≠ b.data.aFamily)),
    attrDiff attrs ADDR_ATTR_SCOPE a b (decide (a.data.aScope ≠ b.data.aScope)),
    attrDiff attrs ADDR_ATTR_LABEL a b (decide (a.data.aLabel ≠ b.data.aLabel)),
    if attrs &&& ADDR_ATTR_PEER ≠ 0 then attrDiff attrs ADDR_ATTR_PEER a b (peersDiffer a b flags) else 0,
    attrDiff attrs ADDR_ATTR_LOCAL a b (nlAddrCmp a.data.aLocal b.data.aLocal),
    attrDiff attrs ADDR_ATTR_MULTICAST a b (nlAddrCmp a.data.aMulticast b.data.aMulticast),
    attrDiff attrs ADDR_ATTR_BROADCAST a b (nlAddrCmp a.data.aBcast b.data.aBcast),
    attrDiff attrs ADDR_ATTR_ANYCAST a b (nlAddrCmp a.data.aAnycast b.data.aAnycast),
    attrDiff attrs ADDR_ATTR_CACHEINFO a b (decide (a.data.aCacheinfo ≠ b.data.aCacheinfo)),
    attrDiff attrs ADDR_ATTR_FLAGS a b flagsDiffer].foldl (· ||| ·) 0

/-- `addr_obj_ops`, for objects whose flags were not set one by one -/
def addrObjOps : ObjectOps RtnlAddr where
  ooIdAttrs := (ADDR_ATTR_FAMILY ||| ADDR_ATTR_IFINDEX ||| ADDR_ATTR_LOCAL ||| ADDR_ATTR_PREFIXLEN).setWidth 32
  ooIdAttrsGet := some addrIdAttrsGet
  ooCompare := some (addrCompare 0)
  ooUpdate := none
  ooKeygen := none
  ooClone := some id

/-! ## Parsed addresses -/

section
variable [HostOrder]

/-- an IPv4 address as the parser makes it, of a message whose addresses have all four bytes -/
structure ParsedInet (o : AddrVal) : Prop where
  parsed : ∃ n, addrMsgParser n = .ok o
  inet : (o.data.aFamily.toNat : ℤ) = AF_INET
  localLength : ∀ l ∈ o.data.aLocal, l.aAddr.length = 4
  peerLength : ∀ p ∈ o.data.aPeer, p.aAddr.length = 4

end

/-- what such an object looks like: the prefix length is in the local address, and not in the peer -/
structure Shape (o : AddrVal) (l : List UInt8) (p : Option (List UInt8)) : Prop where
  ops : o.ceOps = 0
  inet : (o.data.aFamily.toNat : ℤ) = AF_INET
  localAddr : o.data.aLocal = some ⟨AF_INET, o.data.aPrefixlen.toNat, l⟩
  peer : o.data.aPeer = p.map fun p => ⟨AF_INET, 32, p⟩
  localLength : l.length = 4
  peerLength : ∀ x ∈ p, x.length = 4
  carries : carries o (addrIdAttrsGet o) = true

/-- the object carries what identifies it -/
theorem carries_id {o : AddrVal} (hinet : (o.data.aFamily.toNat : ℤ) = AF_INET)
    (hmask : ∀ attr ∈ [ADDR_ATTR_FAMILY, ADDR_ATTR_IFINDEX, ADDR_ATTR_LOCAL, ADDR_ATTR_PREFIXLEN], o.ceMask &&& attr = attr)
    (hpeer : o.data.aPeer.isSome = true → o.ceMask &&& ADDR_ATTR_PEER = ADDR_ATTR_PEER) :
    carries o (addrIdAttrsGet o) = true := by
  simp only [List.forall_mem_cons, List.not_mem_nil, false_imp_iff, implies_true, and_true] at hmask
  obtain ⟨hfamily, hifindex, hlocal, hprefixlen⟩ := hmask
  refine decide_eq_true ?_
  rw [addrIdAttrsGet, if_pos hinet]
  dsimp only
  split_ifs with hsome
  · have hreq : ((ADDR_ATTR_FAMILY ||| ADDR_ATTR_IFINDEX ||| ADDR_ATTR_LOCAL ||| ADDR_ATTR_PREFIXLEN |||
        ADDR_ATTR_PEER).setWidth 32).setWidth 64 =
        ADDR_ATTR_FAMILY ||| ADDR_ATTR_IFINDEX ||| ADDR_ATTR_LOCAL ||| ADDR_ATTR_PREFIXLEN ||| ADDR_ATTR_PEER := rfl
    rw [hreq]
    simp only [BitVec.and_or_distrib_left, hfamily, hifindex, hlocal, hprefixlen, hpeer hsome]
  · have hreq : ((ADDR_ATTR_FAMILY ||| ADDR_ATTR_IFINDEX ||| ADDR_ATTR_LOCAL ||| ADDR_ATTR_PREFIXLEN).setWidth 32).setWidth 64 =
        ADDR_ATTR_FAMILY ||| ADDR_ATTR_IFINDEX ||| ADDR_ATTR_LOCAL ||| ADDR_ATTR_PREFIXLEN := rfl
    rw [hreq]
    simp only [BitVec.and_or_distrib_left, hfamily, hifindex, hlocal, hprefixlen]

section
variable [HostOrder]

/-- **A parsed address** -/
theorem parsed_shape {o : AddrVal} (h : ParsedInet o) : ∃ l p, Shape o l p := by
  obtain ⟨n, hparse⟩ := h.parsed
  generalize hm : (n.nlmsgType : ℤ) = msgtype
  generalize hifa : readIfAddrMsg n.buf = ifa
  generalize hattrs : readAddrAttrs n.buf (nlmsgParse n 8 IFA_MAX (some addrPolicy)).2 = attrs
  have ho : o = addrOf msgtype ifa attrs := by
    rw [addrMsgParser_ok hparse, hm, hifa, hattrs]
  have hinet : (ifa.ifaFamily.toNat : ℤ) = AF_INET := by
    have hfam := h.inet
    rw [ho] at hfam
    exact hfam
  have haddrs := localAndPeer_inet ifa.ifaFamily ifa.ifaPrefixlen hinet attrs.localAddr attrs.address
  generalize hl : attrs.localAddr.getD [0, 0, 0, 0] = l at haddrs
  generalize hp : (if l = attrs.address.getD [0, 0, 0, 0] then none else some (attrs.address.getD [0, 0, 0, 0])) = p
  have hbuild : ∀ x : List UInt8, x.length = 4 → nlAddrBuild (ifa.ifaFamily.toNat : ℤ) x = ⟨AF_INET, 32, x⟩ := by
    intro x hx
    have hmpls : ¬ AF_INET = AF_MPLS := by decide
    rw [nlAddrBuild, hinet, if_neg hmpls, hx]
    rfl
  have hlocal : o.data.aLocal = some (prefixAddr ifa.ifaFamily ifa.ifaPrefixlen l) := by
    rw [ho]
    exact congrArg Prod.fst haddrs
  have hpeer : o.data.aPeer = p.map (nlAddrBuild (ifa.ifaFamily.toNat : ℤ)) := by
    rw [ho]
    refine (congrArg Prod.snd haddrs).trans ?_
    rw [← hp]
    split_ifs
    · rfl
    · rfl
  have hlen : l.length = 4 := h.localLength _ hlocal
  have hplen : ∀ x ∈ p, x.length = 4 := by
    intro x hx
    refine h.peerLength (nlAddrBuild (ifa.ifaFamily.toNat : ℤ) x) ?_
    rw [hpeer, Option.mem_def.1 hx]
    rfl
  refine ⟨l, p, by rw [ho]; rfl, h.inet, ?_, ?_, hlen, hplen, carries_id h.inet ?_ ?_⟩
  · rw [hlocal, prefixAddr, hbuild l hlen, ho]
    rfl
  · rw [hpeer]
    cases p with
    | none => rfl
    | some x => exact congrArg some (hbuild x (hplen x rfl))
  · intro attr hattr
    have hmem : (attr, true) ∈ addrBits ifa attrs := by
      have hloc : (addrBits ifa attrs)[8]? = some (ADDR_ATTR_LOCAL, true) := by
        show some (ADDR_ATTR_LOCAL, (localAndPeer _ _ _ _).1.isSome) = _
        rw [haddrs]
        rfl
      simp only [List.mem_cons, List.not_mem_nil, or_false] at hattr
      rcases hattr with rfl | rfl | rfl | rfl
      · exact List.mem_of_getElem? (i := 0) rfl
      · exact List.mem_of_getElem? (i := 4) rfl
      · exact List.mem_of_getElem? hloc
      · exact List.mem_of_getElem? (i := 1) rfl
    rw [ho]
    exact maskOf_and (addrBits_separate ifa attrs) hmem
  · intro hsome
    have hmem : (addrBits ifa attrs)[9]? = some (ADDR_ATTR_PEER, true) := by
      rw [ho] at hsome
      exact congrArg (fun x => some (ADDR_ATTR_PEER, x)) hsome
    rw [ho]
    exact maskOf_and (addrBits_separate ifa attrs) (List.mem_of_getElem? hmem)

end

/-! ## Identity -/

theorem idAttrs_inet {o : AddrVal} (hinet : (o.data.aFamily.toNat : ℤ) = AF_INET) :
    addrIdAttrsGet o = if o.data.aPeer.isSome then 0x193 else 0x113 := by
  rw [addrIdAttrsGet, if_pos hinet]
  cases o.data.aPeer.isSome with
  | true => rfl
  | false => rfl

section
variable {a b : AddrVal} {l m : List UInt8} {p q : Option (List UInt8)}

theorem Shape.peer_isSome (ha : Shape a l p) : a.data.aPeer.isSome = p.isSome := by
  rw [ha.peer, Option.isSome_map]

theorem reqAttrs_inet (ha : Shape a l p) : reqAttrs (fun _ => addrObjOps) a b = addrIdAttrsGet a := by
  show (if addrIdAttrsGet a = BitVec.allOnes 32 then _ else _) = _
  refine if_neg ?_
  rw [idAttrs_inet ha.inet]
  split_ifs
  · decide
  · decide

/-- local addresses are compared with the prefix length -/
theorem local_same_iff (ha : Shape a l p) (hb : Shape b m q) :
    nlAddrCmp a.data.aLocal b.data.aLocal = false ↔ l = m ∧ a.data.aPrefixlen = b.data.aPrefixlen := by
  have hne : l ≠ [] := List.ne_nil_of_length_pos (by rw [ha.localLength]; decide)
  rw [ha.localAddr, hb.localAddr]
  simp only [nlAddrCmp, ne_eq, not_true_eq_false, decide_false, Bool.false_or, hne, not_false_eq_true, decide_true,
    Bool.true_and, Bool.or_eq_false_iff, decide_eq_false_iff_not, not_not, Nat.cast_inj, BitVec.toNat_inj]

/-- peers with four bytes fit their prefix, which is the whole of them -/
theorem peer_fits {x : List UInt8} (hx : x.length = 4) : PrefixFits ⟨AF_INET, 32, x⟩ :=
  ⟨Int.natCast_nonneg 32, by rw [hx]; exact le_refl _⟩

/-- **Peers are compared as a whole**, whichever way. -/
theorem peersDiffer_iff (ha : Shape a l p) (hb : Shape b m q) (hsome : p.isSome = q.isSome) :
    peersDiffer a b ID_COMPARISON = false ↔ p = q := by
  unfold peersDiffer
  rw [ha.peer, hb.peer]
  cases p with
  | none =>
    have hq : q = none := Option.isNone_iff_eq_none.1 (by rw [← Option.not_isSome, ← hsome]; rfl)
    rw [hq]
    simp [nlAddrCmp]
  | some x =>
    obtain ⟨y, rfl⟩ := Option.isSome_iff_exists.1 hsome.symm
    have hx := ha.peerLength x rfl
    have hy := hb.peerLength y rfl
    have hne : x ≠ [] := List.ne_nil_of_length_pos (by rw [hx]; decide)
    split_ifs with hprefix
    · rw [Option.map_some, Option.map_some, nlAddrCmpPrefix_eq_false_iff (peer_fits hx) (peer_fits hy),
        and_iff_right rfl, Option.some_inj]
      -- the shorter prefix has all 32 bits
      have htake : ∀ z : List UInt8, z.length = 4 →
          (bits z).take (sharedLen ⟨AF_INET, 32, x⟩ ⟨AF_INET, 32, y⟩) = bits z := by
        intro z hz
        refine List.take_of_length_le ?_
        rw [bits_length, hz]
        exact le_refl 32
      rw [htake x hx, htake y hy]
      exact ⟨bits_inj, congrArg bits⟩
    · simp [nlAddrCmp]

/-- what is compared for identity -/
theorem addrCompare_id_iff (ha : Shape a l p) (hb : Shape b m q) (hget : addrIdAttrsGet a = addrIdAttrsGet b)
    (hsome : p.isSome = q.isSome) :
    addrCompare 0 a b ((addrIdAttrsGet a).setWidth 64) ID_COMPARISON = 0 ↔
      a.data.aIfindex = b.data.aIfindex ∧ l = m ∧ a.data.aPrefixlen = b.data.aPrefixlen ∧ p = q := by
  have hcarry := hb.carries
  rw [← hget] at hcarry
  have hid : ∀ attr, attr ≠ 0 → ((addrIdAttrsGet a).setWidth 64) &&& attr = attr → ∀ differ,
      (attrDiff ((addrIdAttrsGet a).setWidth 64) attr a b differ = 0 ↔ differ = false) := fun attr hne hreq differ =>
    attrDiff_eq_zero_iff hreq hne (carries_attr ha.carries hreq) (carries_attr hcarry hreq) differ
  have hattrs := idAttrs_inet ha.inet
  rw [ha.peer_isSome] at hattrs
  have hout : ∀ attr, (0x193 : BitVec 64) &&& attr = 0 → (0x113 : BitVec 64) &&& attr = 0 → ∀ differ,
      attrDiff ((addrIdAttrsGet a).setWidth 64) attr a b differ = 0 := by
    intro attr hpeer hnone differ
    refine attrDiff_of_not_asked ?_ a b differ
    rw [hattrs]
    split_ifs
    · exact hpeer
    · exact hnone
  have hin : ∀ attr, attr ≠ 0 → (0x193 : BitVec 64) &&& attr = attr → (0x113 : BitVec 64) &&& attr = attr → ∀ differ,
      (attrDiff ((addrIdAttrsGet a).setWidth 64) attr a b differ = 0 ↔ differ = false) := by
    intro attr hne hpeer hnone differ
    refine hid attr hne ?_ differ
    rw [hattrs]
    split_ifs
    · exact hpeer
    · exact hnone
  have hpeers : (if ((addrIdAttrsGet a).setWidth 64) &&& ADDR_ATTR_PEER ≠ 0 then
      attrDiff ((addrIdAttrsGet a).setWidth 64) ADDR_ATTR_PEER a b (peersDiffer a b ID_COMPARISON) else 0) = 0 ↔ p = q := by
    rw [← peersDiffer_iff ha hb hsome]
    cases hp : p with
    | none =>
      rw [hp] at hattrs hsome
      have hq : q = none := Option.isNone_iff_eq_none.1 (by rw [← Option.not_isSome, ← hsome]; rfl)
      have hsame : peersDiffer a b ID_COMPARISON = false := by
        rw [peersDiffer_iff ha hb (by rw [hp, hq]), hp, hq]
      refine iff_of_true (if_neg ?_) hsame
      rw [hattrs]
      decide
    | some x =>
      rw [hp] at hattrs
      have hreq : (addrIdAttrsGet a).setWidth 64 = 0x193 := by
        rw [hattrs]
        rfl
      have hask : (addrIdAttrsGet a).setWidth 64 &&& ADDR_ATTR_PEER = ADDR_ATTR_PEER := by
        rw [hreq]
        rfl
      have hne : ADDR_ATTR_PEER ≠ 0 := by decide
      rw [hask, if_pos hne]
      exact hid ADDR_ATTR_PEER hne hask _
  have hfamily : a.data.aFamily = b.data.aFamily := by
    refine BitVec.toNat_inj.1 ?_
    have hsame := ha.inet.trans hb.inet.symm
    exact Int.ofNat_inj.1 hsame
  have hlocal := local_same_iff ha hb
  unfold addrCompare
  rw [foldl_or_eq_zero_iff]
  simp only [List.forall_mem_cons, List.not_mem_nil, false_imp_iff, implies_true, and_true, true_and]
  rw [hin ADDR_ATTR_IFINDEX (by decide) rfl rfl, hin ADDR_ATTR_FAMILY (by decide) rfl rfl, hpeers,
    hin ADDR_ATTR_LOCAL (by decide) rfl rfl, hlocal, hout ADDR_ATTR_SCOPE rfl rfl, hout ADDR_ATTR_LABEL rfl rfl,
    hout ADDR_ATTR_MULTICAST rfl rfl, hout ADDR_ATTR_BROADCAST rfl rfl, hout ADDR_ATTR_ANYCAST rfl rfl,
    hout ADDR_ATTR_CACHEINFO rfl rfl, hout ADDR_ATTR_FLAGS rfl rfl]
  simp only [hfamily, ne_eq, not_true_eq_false, decide_false, decide_eq_false_iff_not, not_not]
  tauto

/-- **Identity** of two parsed addresses compares everything that is in the messages about them. -/
theorem identical_iff (ha : Shape a l p) (hb : Shape b m q) : nlObjectIdentical (fun _ => addrObjOps) a b = true ↔
    a.data.aIfindex = b.data.aIfindex ∧ l = m ∧ a.data.aPrefixlen = b.data.aPrefixlen ∧ p = q := by
  have hops : a.ceOps = b.ceOps := ha.ops.trans hb.ops.symm
  have hsame : sameIdAttrs (fun _ => addrObjOps) a b = decide (addrIdAttrsGet a = addrIdAttrsGet b) := rfl
  have hget : addrIdAttrsGet a = addrIdAttrsGet b ↔ p.isSome = q.isSome := by
    rw [idAttrs_inet ha.inet, idAttrs_inet hb.inet, ha.peer_isSome, hb.peer_isSome]
    cases p.isSome <;> cases q.isSome <;> decide
  unfold nlObjectIdentical
  rw [hsame, reqAttrs_inet ha]
  simp only [hops, decide_true, Bool.true_and, Bool.and_eq_true, decide_eq_true_eq]
  show ((addrIdAttrsGet a = addrIdAttrsGet b ∧ _) ∧ _) ∧
    decide (addrCompare 0 a b ((addrIdAttrsGet a).setWidth 64) ID_COMPARISON = 0) = true ↔ _
  rw [decide_eq_true_eq]
  constructor
  · rintro ⟨⟨⟨hids, -⟩, -⟩, hcmp⟩
    exact (addrCompare_id_iff ha hb hids (hget.1 hids)).1 hcmp
  · intro hall
    have hsome : p.isSome = q.isSome := congrArg Option.isSome hall.2.2.2
    have hids := hget.2 hsome
    have hcarry := hb.carries
    rw [← hids] at hcarry
    exact ⟨⟨⟨hids, ha.carries⟩, hcarry⟩, (addrCompare_id_iff ha hb hids hsome).2 hall⟩

end

/-! ## The network part of the peer -/

/-- the bytes of an address -/
def addrBytes (addr : Option NlAddr) : Option (List UInt8) := addr.map NlAddr.aAddr

/-- interface, local address and prefix length are the same -/
structure SameLocal (a b : AddrVal) : Prop where
  ifindex : a.data.aIfindex = b.data.aIfindex
  localAddr : addrBytes a.data.aLocal = addrBytes b.data.aLocal
  prefixlen : a.data.aPrefixlen = b.data.aPrefixlen

/-- the first bits of the peers are the same, as many as the prefix length says -/
def SameNetwork (a b : AddrVal) : Prop := ∃ x y, addrBytes a.data.aPeer = some x ∧ addrBytes b.data.aPeer = some y ∧
  (bits x).take a.data.aPrefixlen.toNat = (bits y).take a.data.aPrefixlen.toNat

/-- the same address: with no peer, or with peers in one network -/
structure SameAddress (a b : AddrVal) : Prop extends SameLocal a b where
  peers : (a.data.aPeer = none ∧ b.data.aPeer = none) ∨ SameNetwork a b

/-- two peers in one network -/
structure DifferInHost (a b : AddrVal) : Prop extends SameLocal a b where
  network : SameNetwork a b
  host : addrBytes a.data.aPeer ≠ addrBytes b.data.aPeer

section
variable [HostOrder]

/-- the IPv4 addresses the parser makes -/
def InetAddr : Type := { o : AddrVal // ParsedInet o }

/-- **Identity of IPv4 addresses**: they are identical just if they are the same, unless they are alike but for their peers,
which are two in one network. It is an equivalence. -/
theorem address_identity_iff :
    (∀ a b : InetAddr, (nlObjectIdentical (fun _ => addrObjOps) a.1 b.1 = true ↔ SameAddress a.1 b.1) ↔
      ¬ DifferInHost a.1 b.1) ∧
    Equivalence fun a b : InetAddr => nlObjectIdentical (fun _ => addrObjOps) a.1 b.1 = true := by
  refine ⟨?_, ?_⟩
  · intro a b
    obtain ⟨l, p, ha⟩ := parsed_shape a.2
    obtain ⟨m, q, hb⟩ := parsed_shape b.2
    have hlocal : ∀ {o : AddrVal} {l : List UInt8} {p : Option (List UInt8)}, Shape o l p →
        addrBytes o.data.aLocal = some l := fun h => by
      rw [h.localAddr]
      rfl
    have hpeer : ∀ {o : AddrVal} {l : List UInt8} {p : Option (List UInt8)}, Shape o l p →
        addrBytes o.data.aPeer = p := fun {o l p} h => by
      rw [h.peer]
      cases p with
      | none => rfl
      | some x => rfl
    rw [identical_iff ha hb]
    constructor
    · intro hiff hdiffer
      have hsame : SameAddress a.1 b.1 := ⟨hdiffer.toSameLocal, Or.inr hdiffer.network⟩
      refine hdiffer.host ?_
      rw [hpeer ha, hpeer hb]
      exact (hiff.2 hsame).2.2.2
    · intro hnot
      constructor
      · rintro ⟨hifindex, hl, hlen, hp⟩
        refine ⟨⟨hifindex, by rw [hlocal ha, hlocal hb, hl], hlen⟩, ?_⟩
        cases hx : p with
        | none =>
          refine Or.inl ⟨?_, ?_⟩
          · rw [ha.peer, hx]
            rfl
          · rw [hb.peer, ← hp, hx]
            rfl
        | some x =>
          refine Or.inr ⟨x, x, ?_, ?_, rfl⟩
          · rw [hpeer ha, hx]
          · rw [hpeer hb, ← hp, hx]
      · intro hsame
        have hl : l = m := by
          have hbytes := hsame.localAddr
          rw [hlocal ha, hlocal hb] at hbytes
          exact Option.some.inj hbytes
        refine ⟨hsame.ifindex, hl, hsame.prefixlen, ?_⟩
        rcases hsame.peers with ⟨hnoa, hnob⟩ | hnetwork
        · rw [← hpeer ha, ← hpeer hb, hnoa, hnob]
        · by_contra hne
          refine hnot ⟨hsame.toSameLocal, hnetwork, ?_⟩
          rw [hpeer ha, hpeer hb]
          exact hne
  · refine ⟨fun a => ?_, fun {a b} hab => ?_, fun {a b c} hab hbc => ?_⟩
    · obtain ⟨l, p, ha⟩ := parsed_shape a.2
      exact (identical_iff ha ha).2 ⟨rfl, rfl, rfl, rfl⟩
    · obtain ⟨l, p, ha⟩ := parsed_shape a.2
      obtain ⟨m, q, hb⟩ := parsed_shape b.2
      obtain ⟨hifindex, hl, hlen, hp⟩ := (identical_iff ha hb).1 hab
      exact (identical_iff hb ha).2 ⟨hifindex.symm, hl.symm, hlen.symm, hp.symm⟩
    · obtain ⟨l, p, ha⟩ := parsed_shape a.2
      obtain ⟨m, q, hb⟩ := parsed_shape b.2
      obtain ⟨n, r, hc⟩ := parsed_shape c.2
      obtain ⟨hifindex, hl, hlen, hp⟩ := (identical_iff ha hb).1 hab
      obtain ⟨hifindex', hl', hlen', hp'⟩ := (identical_iff hb hc).1 hbc
      exact (identical_iff ha hc).2 ⟨hifindex.trans hifindex', hl.trans hl', hlen.trans hlen', hp.trans hp'⟩

end

/-! 10.0.0.1/24 with a peer in 10.0.1.0/24 -/

def peerHdr : IfAddrMsg := ⟨2, 24, 128, 0, 2⟩

def peerAttrs (host : UInt8) : AddrAttrs :=
  ⟨some [10, 0, 0, 1], some [10, 0, 1, host], none, none, none, none, none, none, none⟩

section
variable (host : UInt8)

theorem peerAttrs_valid : (peerAttrs host).Valid where
  localAddr s hs := by
    cases hs
    decide
  address s hs := by
    cases hs
    exact (by decide : 4 + 4 ≤ 65535)
  aliasName s hs := by cases hs
  label s hs := by cases hs
  broadcast s hs := by cases hs

theorem peer_addrs : localAndPeer 2 24 (some [10, 0, 0, 1]) (some [10, 0, 1, host]) =
    (some ⟨2, 24, [10, 0, 0, 1]⟩, some ⟨2, 32, [10, 0, 1, host]⟩) := by
  rw [localAndPeer_inet 2 24 rfl]
  have hne : ¬ [10, 0, 0, 1] = [(10 : UInt8), 0, 1, host] := by
    intro h
    injection h with _ h
    injection h with _ h
    injection h with h _
    exact absurd h (by decide)
  exact congrArg (Prod.mk _) (if_neg hne)

theorem peer_again : again peerHdr (peerAttrs host) = peerAttrs host := by
  have haddrs : addrsOf peerHdr (peerAttrs host) = _ := peer_addrs host
  have hflags : (if flagsOf peerHdr (peerAttrs host) &&& ~~~0xFF ≠ 0 then some (flagsOf peerHdr (peerAttrs host)) else none) =
      none := by
    show (if (0x80 : BitVec 32) &&& ~~~0xFF ≠ 0 then some 0x80 else none) = (none : Option (BitVec 32))
    decide
  rw [again, haddrs, hflags]
  rfl

theorem peer_hdrAgain : hdrAgain peerHdr (peerAttrs host) = peerHdr := by
  show IfAddrMsg.mk 2 24 (BitVec.setWidth 8 0x80#32) 0 2 = peerHdr
  decide

variable [HostOrder]

/-- a message that the parser makes this address of -/
theorem peer_parsed : ∃ n, addrMsgParser n = .ok (addrOf n.nlmsgType peerHdr (peerAttrs host)) := by
  have hleaves : leavesOf (attrFields (peerAttrs host)) = [⟨IFA_LOCAL, [10, 0, 0, 1]⟩, ⟨IFA_ADDRESS, [10, 0, 1, host]⟩] := rfl
  have h4 : align4 (4 + 4) = 8 := rfl
  have hlen : (addrImage (addrOf 20 peerHdr (peerAttrs host))).length = 24 := by
    rw [addrImage, List.length_append, addrHdr_addrOf, ifAddrMsg_length, addrFields_addrOf, peer_again, hleaves]
    simp only [encLeaves_cons, encLeaves_nil, List.length_append, encLeaf_length, List.length_cons, List.length_nil,
      Nat.reduceAdd, h4]
  obtain ⟨n, -, hread⟩ := addr_written 20 peerHdr (peerAttrs_valid host) 20 0 (by decide : 4096 ≤ PTRDIFF_MAX)
    (by rw [hlen]; decide)
  rw [peer_again, peer_hdrAgain] at hread
  exact ⟨n, hread⟩

end

/-- **Two peers in one network.** 10.0.0.1/24 with the peer 10.0.1.1 and with the peer 10.0.1.2 -/
theorem one_network : ¬ ∀ a b : @InetAddr ⟨false⟩,
    nlObjectIdentical (fun _ => addrObjOps) a.1 b.1 = true ↔ SameAddress a.1 b.1 := by
  let order : HostOrder := ⟨false⟩
  have hpeer : ∀ msgtype host, (addrOf msgtype peerHdr (peerAttrs host)).data.aPeer = some ⟨2, 32, [10, 0, 1, host]⟩ :=
    fun msgtype host => congrArg Prod.snd (peer_addrs host)
  have hlocal : ∀ msgtype host, (addrOf msgtype peerHdr (peerAttrs host)).data.aLocal = some ⟨2, 24, [10, 0, 0, 1]⟩ :=
    fun msgtype host => congrArg Prod.fst (peer_addrs host)
  have hinet : ∀ host n, addrMsgParser n = .ok (addrOf n.nlmsgType peerHdr (peerAttrs host)) →
      ParsedInet (addrOf n.nlmsgType peerHdr (peerAttrs host)) := by
    intro host n hn
    refine ⟨⟨n, hn⟩, rfl, ?_, ?_⟩
    · intro l hl
      rw [hlocal] at hl
      cases hl
      rfl
    · intro p hp
      rw [hpeer] at hp
      cases hp
      rfl
  obtain ⟨n, hn⟩ := peer_parsed 1
  obtain ⟨m, hm⟩ := peer_parsed 2
  intro hall
  have hbits : (bits [10, 0, 1, 1]).take 24 = (bits [10, 0, 1, 2]).take 24 := by decide
  have hsame : SameAddress (addrOf n.nlmsgType peerHdr (peerAttrs 1)) (addrOf m.nlmsgType peerHdr (peerAttrs 2)) := by
    refine ⟨⟨rfl, ?_, rfl⟩, Or.inr ⟨[10, 0, 1, 1], [10, 0, 1, 2], ?_, ?_, hbits⟩⟩
    · rw [hlocal, hlocal]
    · rw [hpeer]
      rfl
    · rw [hpeer]
      rfl
  have hid := (hall ⟨_, hinet 1 n hn⟩ ⟨_, hinet 2 m hm⟩).2 hsame
  obtain ⟨l, p, ha⟩ := parsed_shape (hinet 1 n hn)
  obtain ⟨l', q, hb⟩ := parsed_shape (hinet 2 m hm)
  have hpeers := ha.peer.trans ((congrArg _ ((identical_iff ha hb).1 hid).2.2.2).trans hb.peer.symm)
  rw [hpeer, hpeer] at hpeers
  exact absurd hpeers (by decide)

end Libnl.IfAddr
