/-
The attributes that every link has, there and back.

What `rtnl_link_info_parse` found decides what `rtnl_link_fill_info` puts (`linkFields_withAttrs`), and what was put is
within the policy and reads as it was found (`read_base`). The only thing needed of the first table is that its alias
passed the policy, as in all tables that are read: a longer one would be put and refused.

- `table_alias`: the aliases of tables that were filled under the policy.
- `link_info_round_trip`: the same attributes, with the same values.
-/
import Mathlib.Tactic
import Libnl.Route.LinkInfo

namespace Libnl.LinkInfo

open Bytes Msg Attr AttrWalk AttrTree AttrStream Writer Fields Mask
open Object Addr Link Validate

/-! ## The attributes -/

/-- attributes as a reader finds them: strings end within their arrays, and addresses are no longer than an attribute -/
structure BaseAttrs.Valid (a : BaseAttrs) : Prop where
  ifname : IsStr a.ifname ∧ a.ifname.length ≤ IFNAMSIZ - 1
  address : ∀ s ∈ a.address, 4 + s.length ≤ 65535
  broadcast : ∀ s ∈ a.broadcast, 4 + s.length ≤ 65535
  ifalias : ∀ s ∈ a.ifalias, IsStr s ∧ s.length ≤ IFALIASZ - 1

section

variable [HostOrder]

/-- the alias of a table passed the policy -/
def AliasPassed (buf : Mem) (tb : Index) : Prop :=
  ∀ nla, tb IFLA_IFALIAS = some nla → Conforms buf nla (rtlnLinkPolicy IFLA_IFALIAS)

/-- as in every table that was filled under the policy -/
theorem table_alias {n : NlMsg} {hdrlen maxtype : ℤ}
    (hok : 0 ≤ (nlmsgParse n hdrlen maxtype (some rtlnLinkPolicy)).1) :
    AliasPassed n.buf (nlmsgParse n hdrlen maxtype (some rtlnLinkPolicy)).2 :=
  fun _ hnla => nlmsgParse_conforms hok hnla

omit [HostOrder] in
/-- a string that ends within the payload is shorter than the payload -/
theorem cstr_length_lt {bs : List UInt8} (h : 0 ∈ bs) : (cstr bs).length < bs.length := by
  refine lt_of_le_of_ne (cstr_length_le bs) fun heq => ?_
  have hall : cstr bs = bs := (List.takeWhile_prefix _).eq_of_length heq
  rw [← hall] at h
  exact cstr_isStr bs 0 h rfl

/-- an alias that passed the policy ends within its array -/
theorem nlaStrdup_length {buf : Mem} {nla : ℕ} (h : Conforms buf nla (rtlnLinkPolicy IFLA_IFALIAS)) :
    (nlaStrdup buf nla).length ≤ IFALIASZ - 1 := by
  have hmax : nlaLen buf nla ≤ (IFALIASZ : ℕ) := h.max (by decide)
  obtain ⟨hpos, hnul⟩ := h.nul (by decide)
  have hlen : (nlaBytes buf nla).length = (nlaLen buf nla).toNat := readBytes_length _ _ _
  have hmem : 0 ∈ nlaBytes buf nla := by
    refine List.mem_map.2 ⟨(nlaLen buf nla).toNat - 1, List.mem_range.2 (by omega), ?_⟩
    rw [← Nat.add_sub_assoc (by omega), hnul]
  have hlt := cstr_length_lt hmem
  unfold IFALIASZ at hmax ⊢
  unfold nlaStrdup
  omega

theorem readBaseAttrs_valid {buf : Mem} {tb : Index} (halias : AliasPassed buf tb) (ifname : ℕ) :
    (readBaseAttrs buf ifname tb).Valid where
  ifname := ⟨nlaStrlcpy_isStr _ _ _, nlaStrlcpy_length _ _ _⟩
  address s hs := by
    obtain ⟨a, -, rfl⟩ := Option.mem_map.1 hs
    exact nlaBytes_length _ _
  broadcast s hs := by
    obtain ⟨a, -, rfl⟩ := Option.mem_map.1 hs
    exact nlaBytes_length _ _
  ifalias s hs := by
    obtain ⟨nla, hnla, rfl⟩ := Option.mem_map.1 hs
    exact ⟨cstr_isStr _, nlaStrdup_length (halias nla hnla)⟩

/-- attributes as they are put; the numbers of queues come from elsewhere -/
def baseFields (a : BaseAttrs) : FieldList :=
  [(IFLA_ADDRESS, a.address), (IFLA_BROADCAST, a.broadcast), (IFLA_MTU, a.mtu.map fun v => u32Bytes v.toNat),
    (IFLA_TXQLEN, a.txqlen.map fun v => u32Bytes v.toNat), (IFLA_WEIGHT, a.weight.map fun v => u32Bytes v.toNat),
    (IFLA_IFNAME, some (a.ifname ++ [0])), (IFLA_OPERSTATE, a.operstate.map fun v => [UInt8.ofBitVec v]),
    (IFLA_CARRIER, a.carrier.map fun v => [UInt8.ofBitVec v]),
    (IFLA_LINKMODE, a.linkmode.map fun v => [UInt8.ofBitVec v]), (IFLA_IFALIAS, a.ifalias.map fun s => s ++ [0]),
    (IFLA_LINK, a.link.map fun v => u32Bytes v.toNat), (IFLA_LINK_NETNSID, a.linkNetnsid.map fun v => u32Bytes v.toNat),
    (IFLA_MASTER, a.master.map fun v => u32Bytes v.toNat), (IFLA_NUM_TX_QUEUES, none), (IFLA_NUM_RX_QUEUES, none),
    (IFLA_NET_NS_FD, a.netNsFd.map fun v => u32Bytes v.toNat),
    (IFLA_NET_NS_PID, a.netNsPid.map fun v => u32Bytes v.toNat)]

theorem baseFields_distinct (a : BaseAttrs) : Distinct (baseFields a) := by
  show List.Nodup _
  simp only [baseFields, List.map_cons, List.map_nil]
  decide

/-- **The policy** lets through what is put -/
theorem baseFields_sendable {a : BaseAttrs} (ha : a.Valid) : Sendable rtlnLinkPolicy (baseFields a) := by
  have hname : ∀ s ∈ some a.ifname, s.length + 1 ≤ IFNAMSIZ := by
    intro s hs
    have hlen := ha.ifname.2
    rw [Option.mem_some_iff.1 hs] at hlen
    simp only [IFNAMSIZ] at hlen ⊢
    omega
  have halias : ∀ s ∈ a.ifalias, s.length + 1 ≤ IFALIASZ := by
    intro s hs
    have hlen := (ha.ifalias s hs).2
    simp only [IFALIASZ] at hlen ⊢
    omega
  refine Sendable.cons (by decide) (sends_any (by decide) ha.address) ?_
  refine Sendable.cons (by decide) (sends_any (by decide) ha.broadcast) ?_
  refine Sendable.cons (by decide) (sends_u32 (by decide) _) ?_
  refine Sendable.cons (by decide) (sends_u32 (by decide) _) ?_
  refine Sendable.cons (by decide) (sends_u32 (by decide) _) ?_
  refine Sendable.cons (by decide) (sends_str (n := IFNAMSIZ) (o := some a.ifname) (by decide) (by decide) hname) ?_
  refine Sendable.cons (by decide) (sends_u8 (by decide) _) ?_
  refine Sendable.cons (by decide) (sends_u8 (by decide) _) ?_
  refine Sendable.cons (by decide) (sends_u8 (by decide) _) ?_
  refine Sendable.cons (by decide) (sends_str (n := IFALIASZ) (by decide) (by decide) halias) ?_
  refine Sendable.cons (by decide) (sends_u32 (by decide) _) ?_
  -- the policy has no entry for the namespace
  refine Sendable.cons (by decide) (sends_any (by decide) fun p hp => ?_) ?_
  · obtain ⟨v, -, rfl⟩ := Option.mem_map.1 hp
    simp
  refine Sendable.cons (by decide) (sends_u32 (by decide) _) ?_
  refine Sendable.cons (by decide) (sends_u32 (by decide) none) ?_
  refine Sendable.cons (by decide) (sends_u32 (by decide) none) ?_
  refine Sendable.cons (by decide) (sends_u32 (by decide) _) ?_
  exact Sendable.cons (by decide) (sends_u32 (by decide) _) (Sendable.nil _)

/-- a string that was put with its end, copied -/
theorem at_strdup {buf : Mem} {pos t : ℕ} {s : List UInt8} (h : At buf pos ⟨t, s ++ [0]⟩) (hs : IsStr s) :
    nlaStrdup buf pos = s := by
  rw [nlaStrdup, at_bytes h]
  exact cstr_append_zero hs []

/-- **What is read** of attributes that were put -/
theorem read_base {buf : Mem} {tb : Index} {a : BaseAttrs} (ha : a.Valid)
    (h : Indexes buf IFLA_MAX (leavesOf (baseFields a)) tb) :
    ∃ ifname, tb IFLA_IFNAME = some ifname ∧ readBaseAttrs buf ifname tb = a := by
  have hget : ∀ i t p, (baseFields a)[i]? = some (t, p) → t % 16384 ≤ IFLA_MAX → Shown buf tb (t % 16384) p :=
    fun i t p hi ht => shown_of_indexes h (baseFields_distinct a) (List.mem_of_getElem? hi) ht
  have haddress := (hget 0 IFLA_ADDRESS _ rfl (by decide)).bytes
  have hbroadcast := (hget 1 IFLA_BROADCAST _ rfl (by decide)).bytes
  have hmtu := (hget 2 IFLA_MTU _ rfl (by decide)).u32
  have htxqlen := (hget 3 IFLA_TXQLEN _ rfl (by decide)).u32
  have hweight := (hget 4 IFLA_WEIGHT _ rfl (by decide)).u32
  have hoperstate := (hget 6 IFLA_OPERSTATE _ rfl (by decide)).u8
  have hcarrier := (hget 7 IFLA_CARRIER _ rfl (by decide)).u8
  have hlinkmode := (hget 8 IFLA_LINKMODE _ rfl (by decide)).u8
  have hifalias : (tb IFLA_IFALIAS).map (nlaStrdup buf) = a.ifalias :=
    (hget 9 IFLA_IFALIAS _ rfl (by decide)).same fun _ _ s hs hat => at_strdup hat (ha.ifalias s hs).1
  have hlink := (hget 10 IFLA_LINK _ rfl (by decide)).u32
  have hnetnsid := (hget 11 IFLA_LINK_NETNSID _ rfl (by decide)).u32
  have hmaster := (hget 12 IFLA_MASTER _ rfl (by decide)).u32
  have hfd := (hget 15 IFLA_NET_NS_FD _ rfl (by decide)).u32
  have hpid := (hget 16 IFLA_NET_NS_PID _ rfl (by decide)).u32
  obtain ⟨ifname, type, hifname, hat⟩ := hget 5 IFLA_IFNAME _ rfl (by decide)
  have hname : nlaStrlcpy buf ifname IFNAMSIZ = a.ifname := at_str hat ha.ifname.1 ha.ifname.2
  refine ⟨ifname, hifname, ?_⟩
  cases a
  simp only [readBaseAttrs, BaseAttrs.mk.injEq]
  exact ⟨hname, htxqlen, hmtu, haddress, hbroadcast, hlink, hnetnsid, hweight, hmaster, hcarrier, hoperstate, hlinkmode,
    hifalias, hfd, hpid⟩

end

/-! ## The link -/

/-- the attributes that `rtnl_link_fill_info` puts -/
def filledBits : List (BitVec 64) :=
  [LINK_ATTR_ADDR, LINK_ATTR_BRD, LINK_ATTR_MTU, LINK_ATTR_TXQLEN, LINK_ATTR_WEIGHT, LINK_ATTR_IFNAME,
    LINK_ATTR_OPERSTATE, LINK_ATTR_CARRIER, LINK_ATTR_LINKMODE, LINK_ATTR_IFALIAS, LINK_ATTR_LINK,
    LINK_ATTR_LINK_NETNSID, LINK_ATTR_MASTER, LINK_ATTR_NUM_TX_QUEUES, LINK_ATTR_NUM_RX_QUEUES, LINK_ATTR_NS_FD,
    LINK_ATTR_NS_PID]

/-- a link that has none of them yet, as callers hand it in -/
def Bare (link : LinkVal) : Prop := ∀ bit ∈ filledBits, link.ceMask &&& bit = 0

theorem linkBits_separate (a : BaseAttrs) (x : ExtraAttrs) : separate ((linkBits a x).map Prod.fst) = true := by
  simp only [linkBits, List.map_cons, List.map_nil]
  rfl

section

variable {link : LinkVal} (hlink : Bare link) (a : BaseAttrs) (x : ExtraAttrs)

include hlink

/-- of these attributes, the link has what the table has -/
theorem mask_withAttrs {bit : BitVec 64} (hbit : bit ∈ filledBits) :
    (withAttrs link a x).ceMask &&& bit = maskOf (linkBits a x) &&& bit := by
  rw [withAttrs, BitVec.and_or_distrib_right, hlink bit hbit]
  exact BitVec.zero_or

/-- an attribute is there if the table has it -/
theorem hasAttr_withAttrs (i : ℕ) {bit : BitVec 64} {there : Bool} (hbit : bit ∈ filledBits)
    (h : (linkBits a x)[i]? = some (bit, there)) : hasAttr (withAttrs link a x) bit = there := by
  have hhas := maskOf_has (linkBits_separate a x) (List.mem_of_getElem? h)
  rw [Bool.eq_iff_iff, hasAttr, decide_eq_true_eq, mask_withAttrs hlink a x hbit]
  exact hhas

/-- an attribute that no table has -/
theorem hasAttr_other {bit : BitVec 64} (hbit : bit ∈ filledBits)
    (h : separate (bit :: (linkBits a x).map Prod.fst) = true) : hasAttr (withAttrs link a x) bit = false := by
  have hzero : ∀ b ∈ linkBits a x, b.1 &&& bit = 0 := fun b hb => by
    rw [BitVec.and_comm]
    exact (separate_cons h).2.1 b.1 (List.mem_map_of_mem hb)
  rw [hasAttr, mask_withAttrs hlink a x hbit, maskOf_and_zero hzero]
  rfl

/-- an attribute the table has is one that is put -/
theorem ifAttr_withAttrs {γ : Type} (i : ℕ) {bit : BitVec 64} (hbit : bit ∈ filledBits) (o : Option γ)
    (h : (linkBits a x)[i]? = some (bit, o.isSome)) (d : γ) (enc : γ → List UInt8) :
    ifAttr (withAttrs link a x) bit (enc (o.getD d)) = o.map enc := by
  rw [ifAttr, hasAttr_withAttrs hlink a x i hbit h]
  cases o with
  | none => rfl
  | some v => rfl

/-- an address is put as it was read -/
theorem ifAttr_addr (i : ℕ) {bit : BitVec 64} (hbit : bit ∈ filledBits) (o : Option (List UInt8))
    (h : (linkBits a x)[i]? = some (bit, o.isSome)) (d : Option NlAddr) :
    ifAttr (withAttrs link a x) bit (binaryAddr ((o.map linkAddr).or d)) = o := by
  rw [ifAttr, hasAttr_withAttrs hlink a x i hbit h]
  cases o with
  | none => rfl
  | some v => rfl

/-- so is the alias -/
theorem ifAttr_alias (d : Option (List UInt8)) :
    ifAttr (withAttrs link a x) LINK_ATTR_IFALIAS ((a.ifalias.or d).getD [] ++ [0]) = a.ifalias.map fun s => s ++ [0] := by
  rw [ifAttr, hasAttr_withAttrs hlink a x 16 (by decide) rfl]
  cases a.ifalias with
  | none => rfl
  | some v => rfl

/-- the numbers of queues are not put -/
theorem ifAttr_queues {bit : BitVec 64} (hbit : bit = LINK_ATTR_NUM_TX_QUEUES ∨ bit = LINK_ATTR_NUM_RX_QUEUES)
    (payload : List UInt8) : ifAttr (withAttrs link a x) bit payload = none := by
  have hother : hasAttr (withAttrs link a x) bit = false := by
    rcases hbit with rfl | rfl
    · refine hasAttr_other hlink a x (by decide) ?_
      simp only [linkBits, List.map_cons, List.map_nil]
      rfl
    · refine hasAttr_other hlink a x (by decide) ?_
      simp only [linkBits, List.map_cons, List.map_nil]
      rfl
  rw [ifAttr, hother]
  rfl

/-- **What is put** -/
theorem linkFields_withAttrs [HostOrder] : linkFields (withAttrs link a x) = baseFields a := by
  let enc32 : BitVec 32 → List UInt8 := fun v => u32Bytes v.toNat
  let enc8 : BitVec 8 → List UInt8 := fun v => [UInt8.ofBitVec v]
  let d := link.data
  have haddress := ifAttr_addr hlink a x 4 (by decide) a.address rfl d.lAddr
  have hbroadcast := ifAttr_addr hlink a x 5 (by decide) a.broadcast rfl d.lBcast
  have hmtu := ifAttr_withAttrs hlink a x 3 (by decide) a.mtu rfl d.lMtu enc32
  have htxqlen := ifAttr_withAttrs hlink a x 2 (by decide) a.txqlen rfl d.lTxqlen enc32
  have hweight := ifAttr_withAttrs hlink a x 8 (by decide) a.weight rfl d.lWeight enc32
  have hifname := ifAttr_withAttrs hlink a x 0 (by decide) (some a.ifname) rfl [] fun s => s ++ [0]
  have hoperstate := ifAttr_withAttrs hlink a x 14 (by decide) a.operstate rfl d.lOperstate enc8
  have hcarrier := ifAttr_withAttrs hlink a x 12 (by decide) a.carrier rfl d.lCarrier enc8
  have hlinkmode := ifAttr_withAttrs hlink a x 15 (by decide) a.linkmode rfl d.lLinkmode enc8
  have hifalias := ifAttr_alias hlink a x d.lIfalias
  have hllink := ifAttr_withAttrs hlink a x 6 (by decide) a.link rfl d.lLink enc32
  have hnetnsid := ifAttr_withAttrs hlink a x 7 (by decide) a.linkNetnsid rfl d.lLinkNetnsid enc32
  have hmaster := ifAttr_withAttrs hlink a x 11 (by decide) a.master rfl d.lMaster enc32
  have htx := ifAttr_queues hlink a x (Or.inl rfl) (enc32 d.lNumTxQueues)
  have hrx := ifAttr_queues hlink a x (Or.inr rfl) (enc32 d.lNumRxQueues)
  have hfd := ifAttr_withAttrs hlink a x 17 (by decide) a.netNsFd rfl d.lNsFd enc32
  have hpid := ifAttr_withAttrs hlink a x 18 (by decide) a.netNsPid rfl d.lNsPid enc32
  simp only [linkFields, baseFields, List.cons.injEq, Prod.mk.injEq, true_and, and_true]
  exact ⟨haddress, hbroadcast, hmtu, htxqlen, hweight, hifname, hoperstate, hcarrier, hlinkmode, hifalias, hllink,
    hnetnsid, hmaster, htx, hrx, hfd, hpid⟩

end

/-- the attributes of the round trip -/
def baseBits : List (BitVec 64) :=
  [LINK_ATTR_ADDR, LINK_ATTR_BRD, LINK_ATTR_MTU, LINK_ATTR_TXQLEN, LINK_ATTR_WEIGHT, LINK_ATTR_IFNAME,
    LINK_ATTR_OPERSTATE, LINK_ATTR_CARRIER, LINK_ATTR_LINKMODE, LINK_ATTR_IFALIAS, LINK_ATTR_LINK,
    LINK_ATTR_LINK_NETNSID, LINK_ATTR_MASTER, LINK_ATTR_NS_FD, LINK_ATTR_NS_PID]

/-- both links have the same of these attributes, with the same values -/
structure SameBase (p q : LinkVal) : Prop where
  bits : ∀ bit ∈ baseBits, hasAttr p bit = hasAttr q bit
  name : hasAttr p LINK_ATTR_IFNAME = true → p.data.lName = q.data.lName
  addr : hasAttr p LINK_ATTR_ADDR = true → p.data.lAddr = q.data.lAddr
  bcast : hasAttr p LINK_ATTR_BRD = true → p.data.lBcast = q.data.lBcast
  mtu : hasAttr p LINK_ATTR_MTU = true → p.data.lMtu = q.data.lMtu
  txqlen : hasAttr p LINK_ATTR_TXQLEN = true → p.data.lTxqlen = q.data.lTxqlen
  weight : hasAttr p LINK_ATTR_WEIGHT = true → p.data.lWeight = q.data.lWeight
  operstate : hasAttr p LINK_ATTR_OPERSTATE = true → p.data.lOperstate = q.data.lOperstate
  carrier : hasAttr p LINK_ATTR_CARRIER = true → p.data.lCarrier = q.data.lCarrier
  linkmode : hasAttr p LINK_ATTR_LINKMODE = true → p.data.lLinkmode = q.data.lLinkmode
  ifalias : hasAttr p LINK_ATTR_IFALIAS = true → p.data.lIfalias = q.data.lIfalias
  link : hasAttr p LINK_ATTR_LINK = true → p.data.lLink = q.data.lLink
  linkNetnsid : hasAttr p LINK_ATTR_LINK_NETNSID = true → p.data.lLinkNetnsid = q.data.lLinkNetnsid
  master : hasAttr p LINK_ATTR_MASTER = true → p.data.lMaster = q.data.lMaster
  nsFd : hasAttr p LINK_ATTR_NS_FD = true → p.data.lNsFd = q.data.lNsFd
  nsPid : hasAttr p LINK_ATTR_NS_PID = true → p.data.lNsPid = q.data.lNsPid

section

variable {link link' : LinkVal} (hlink : Bare link) (hlink' : Bare link') (a : BaseAttrs) (x x' : ExtraAttrs)

include hlink

/-- an attribute that is there has its value from the table -/
theorem value_withAttrs {γ : Type} (i : ℕ) {bit : BitVec 64} (hbit : bit ∈ filledBits) {o : Option γ}
    (h : (linkBits a x)[i]? = some (bit, o.isSome)) (hhas : hasAttr (withAttrs link a x) bit = true) :
    ∃ v, o = some v := by
  rw [hasAttr_withAttrs hlink a x i hbit h] at hhas
  exact Option.isSome_iff_exists.1 hhas

/-- so two links agree about it -/
theorem getD_withAttrs {γ : Type} (i : ℕ) {bit : BitVec 64} (hbit : bit ∈ filledBits) {o : Option γ}
    (h : (linkBits a x)[i]? = some (bit, o.isSome)) (d d' : γ) (hhas : hasAttr (withAttrs link a x) bit = true) :
    o.getD d = o.getD d' := by
  obtain ⟨v, rfl⟩ := value_withAttrs hlink a x i hbit h hhas
  rfl

theorem or_withAttrs {γ δ : Type} (i : ℕ) {bit : BitVec 64} (hbit : bit ∈ filledBits) {o : Option γ}
    (h : (linkBits a x)[i]? = some (bit, o.isSome)) (f : γ → δ) (d d' : Option δ)
    (hhas : hasAttr (withAttrs link a x) bit = true) : (o.map f).or d = (o.map f).or d' := by
  obtain ⟨v, rfl⟩ := value_withAttrs hlink a x i hbit h hhas
  rfl

include hlink'

/-- **The same attributes make the same of any link** -/
theorem sameBase_withAttrs : SameBase (withAttrs link a x) (withAttrs link' a x') where
  bits := by
    have hsame : ∀ (i : ℕ) (bit : BitVec 64) (there : Bool), bit ∈ filledBits → (linkBits a x)[i]? = some (bit, there) →
        (linkBits a x')[i]? = some (bit, there) →
        hasAttr (withAttrs link a x) bit = hasAttr (withAttrs link' a x') bit := by
      intro i bit there hbit h h'
      rw [hasAttr_withAttrs hlink a x i hbit h, hasAttr_withAttrs hlink' a x' i hbit h']
    simp only [baseBits, List.forall_mem_cons]
    refine ⟨hsame 4 _ _ (by decide) rfl rfl, hsame 5 _ _ (by decide) rfl rfl, hsame 3 _ _ (by decide) rfl rfl,
      hsame 2 _ _ (by decide) rfl rfl, hsame 8 _ _ (by decide) rfl rfl, hsame 0 _ _ (by decide) rfl rfl,
      hsame 14 _ _ (by decide) rfl rfl, hsame 12 _ _ (by decide) rfl rfl, hsame 15 _ _ (by decide) rfl rfl,
      hsame 16 _ _ (by decide) rfl rfl, hsame 6 _ _ (by decide) rfl rfl, hsame 7 _ _ (by decide) rfl rfl,
      hsame 11 _ _ (by decide) rfl rfl, hsame 17 _ _ (by decide) rfl rfl, hsame 18 _ _ (by decide) rfl rfl, ?_⟩
    simp
  name _ := rfl
  addr := or_withAttrs hlink a x 4 (by decide) rfl linkAddr _ _
  bcast := or_withAttrs hlink a x 5 (by decide) rfl linkAddr _ _
  mtu := getD_withAttrs hlink a x 3 (by decide) rfl _ _
  txqlen := getD_withAttrs hlink a x 2 (by decide) rfl _ _
  weight := getD_withAttrs hlink a x 8 (by decide) rfl _ _
  operstate := getD_withAttrs hlink a x 14 (by decide) rfl _ _
  carrier := getD_withAttrs hlink a x 12 (by decide) rfl _ _
  linkmode := getD_withAttrs hlink a x 15 (by decide) rfl _ _
  ifalias hhas := by
    obtain ⟨v, hv⟩ := value_withAttrs hlink a x 16 (by decide) rfl hhas
    simp only [withAttrs, hv, Option.some_or]
  link := getD_withAttrs hlink a x 6 (by decide) rfl _ _
  linkNetnsid := getD_withAttrs hlink a x 7 (by decide) rfl _ _
  master := getD_withAttrs hlink a x 11 (by decide) rfl _ _
  nsFd := getD_withAttrs hlink a x 17 (by decide) rfl _ _
  nsPid := getD_withAttrs hlink a x 18 (by decide) rfl _ _

end

/-! ## There and back -/

section

variable [HostOrder]

theorem linkInfoParse_ok {link parsed : LinkVal} {buf : Mem} {tb : Index}
    (h : rtnlLinkInfoParse link buf tb = .ok parsed) :
    ∃ ifname, tb IFLA_IFNAME = some ifname ∧
      parsed = withAttrs link (readBaseAttrs buf ifname tb) (readExtraAttrs buf tb) := by
  unfold rtnlLinkInfoParse at h
  cases hname : tb IFLA_IFNAME with
  | none =>
    rw [hname] at h
    cases h
  | some ifname =>
    rw [hname] at h
    exact ⟨ifname, rfl, (Except.ok.inj h).symm⟩

/-- **Round trip.** For every link that was read from a table whose alias passed the policy, and every message with
nothing in it yet and enough room for the header and the attributes of the link: they are put, the message is parsed under
the policy, and what is read of it into any other bare link are the same attributes with the same values. -/
theorem link_info_round_trip {link parsed : LinkVal} (hlink : Bare link) {buf : Mem} {tb : Index}
    (halias : AliasPassed buf tb) (hparse : rtnlLinkInfoParse link buf tb = .ok parsed) {m0 : NlMsg} (hm0 : Tidy m0)
    (hempty : m0.nlmsgLen = 16) {hdr : List UInt8} (hhdr : hdr.length = 16)
    (hroom : Room m0 (hdr ++ encLeaves (leavesOf (linkFields parsed))).length) {link' : LinkVal} (hlink' : Bare link') :
    ∃ m1 m2 tb' parsed', nlmsgAppend m0 hdr 4 = (m1, 0) ∧ rtnlLinkFillInfo parsed m1 = (m2, 0) ∧
      nlmsgParse m2 16 IFLA_MAX (some rtlnLinkPolicy) = (0, tb') ∧ rtnlLinkInfoParse link' m2.buf tb' = .ok parsed' ∧
      SameBase parsed parsed' := by
  obtain ⟨ifname, -, rfl⟩ := linkInfoParse_ok hparse
  have hvalid := readBaseAttrs_valid halias ifname
  generalize readBaseAttrs buf ifname tb = a at hvalid hroom ⊢
  generalize readExtraAttrs buf tb = x at hroom ⊢
  have hsend := baseFields_sendable hvalid
  have hfields := linkFields_withAttrs hlink a x
  rw [hfields] at hroom
  have hmod : hdr.length % 4 = 0 := by rw [hhdr]
  rw [List.length_append] at hroom
  obtain ⟨m1, happend, hw1⟩ := nlmsgAppend_aligned hm0 hmod (room_mono hroom (Nat.le_add_right _ _))
  obtain ⟨m2, hput, hw2⟩ := putAll_room (-NLE_MSGSIZE) hsend.wf hw1.tidy (room_after hw1 hroom)
  obtain ⟨tb', hread, hidx, -⟩ := parse_message IFLA_MAX hempty hmod hsend.wf (hsend.valid IFLA_MAX) (hw1.append hw2)
  rw [hhdr, Nat.cast_ofNat] at hread
  obtain ⟨ifname', hifname', hbase⟩ := read_base hvalid hidx
  refine ⟨m1, m2, tb', withAttrs link' a (readExtraAttrs m2.buf tb'), happend, ?_, hread, ?_,
    sameBase_withAttrs hlink hlink' a x _⟩
  · rw [rtnlLinkFillInfo, hfields, hput]
  · rw [rtnlLinkInfoParse, hifname']
    simp only [hbase]

end

/-- a link as `rtnl_link_alloc` makes it -/
def emptyLink : LinkVal :=
  ⟨0, 0, 0, ⟨[], 0, 0, 0, 0, 0, 0, none, none, [], List.replicate IFMAPSIZ 0, List.replicate 24 0, 0, 0, 0, 0, none, 0, 0,
    0, 0⟩⟩

/-- the attributes of a link `lo` with the alias `l` and an address of six bytes -/
def sampleBytes : List UInt8 := [7, 0, 3, 0, 108, 111, 0, 0, 6, 0, 20, 0, 108, 0, 0, 0, 10, 0, 1, 0, 2, 4, 6, 8, 10, 12]

def sampleTable : Index := fun t =>
  if t = IFLA_IFNAME then some 0 else if t = IFLA_IFALIAS then some 8 else if t = IFLA_ADDRESS then some 16 else none

theorem emptyLink_bare : Bare emptyLink := fun _ _ => BitVec.zero_and

/-- the round trip of a link with an alias and an address -/
theorem link_info_round_trip_sample : ∃ parsed m0 m1 m2 tb' parsed',
    @rtnlLinkInfoParse ⟨false⟩ emptyLink (fun i => sampleBytes.getD i 0) sampleTable = .ok parsed ∧
      hasAttr parsed LINK_ATTR_IFALIAS = true ∧ parsed.data.lAddr = some ⟨Family.AF_LLC, 48, [2, 4, 6, 8, 10, 12]⟩ ∧
      nlmsgAllocSimple 4096 16 0 = some m0 ∧ nlmsgAppend m0 (List.replicate 16 0) 4 = (m1, 0) ∧
      @rtnlLinkFillInfo ⟨false⟩ parsed m1 = (m2, 0) ∧
      @nlmsgParse ⟨false⟩ m2 16 IFLA_MAX (some rtlnLinkPolicy) = (0, tb') ∧
      @rtnlLinkInfoParse ⟨false⟩ emptyLink m2.buf tb' = .ok parsed' ∧ SameBase parsed parsed' := by
  let order : HostOrder := ⟨false⟩
  let buf : Mem := fun i => sampleBytes.getD i 0
  let parsed := withAttrs emptyLink (readBaseAttrs buf 0 sampleTable) (readExtraAttrs buf sampleTable)
  have halias : AliasPassed buf sampleTable := by
    intro nla hnla
    obtain rfl : 8 = nla := Option.some.inj hnla
    exact ⟨by decide, fun _ => by decide, fun _ => by decide⟩
  have hlen : (List.replicate 16 (0 : UInt8) ++ encLeaves (leavesOf (linkFields parsed))).length = 44 := by
    rw [linkFields_withAttrs emptyLink_bare]
    decide
  obtain ⟨m0, halloc, hfresh, hsize, -⟩ := allocSimple_some (t := 16) (f := 0) (by decide : 4096 ≤ PTRDIFF_MAX)
  have hlen0 := hfresh.len
  have hroom : Room m0 (List.replicate 16 (0 : UInt8) ++ encLeaves (leavesOf (linkFields parsed))).length := by
    rw [hlen]
    exact ⟨by omega, by omega⟩
  have hfirst : rtnlLinkInfoParse emptyLink buf sampleTable = .ok parsed := rfl
  have hhdr : (List.replicate 16 (0 : UInt8)).length = 16 := rfl
  obtain ⟨m1, m2, tb', parsed', happend, hfill, hparse, hread, hsame⟩ := link_info_round_trip emptyLink_bare halias
    hfirst (tidy_of_fresh hfresh) hlen0 hhdr hroom emptyLink_bare
  exact ⟨parsed, m0, m1, m2, tb', parsed', hfirst, by decide, by decide, halloc, happend, hfill, hparse,
    hread, hsame⟩

end Libnl.LinkInfo
