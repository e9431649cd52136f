/-
The loop over the nexthops of a route message (`rtnl_route_parse_multipath` in `lib/route/route_obj.c`).

The payload of `RTA_MULTIPATH` is a stream of records, each a header of eight bytes with the record's length and attributes
behind it. The loop goes on while a header fits into what is left and the length in it does, and moves on by the aligned
length; what is left is a `size_t`.

- `parseRtnexthop_same`: one record is read from its own bytes.
- `multipath_total_iff`: the loop ends for the attribute, with what the attribute says and with one nexthop for every
  complete record, if and only if all records are complete, aligned and accepted (`Reads`), or one is refused with an
  error (`Refused`) before anything else is wrong.
- `zero_length_never_ends`: with a record of length zero the loop does not end.
-/
import Mathlib.Tactic
import Libnl.Message.Local
import Libnl.Route.RouteCodec

namespace Libnl.Route

open Bytes Walk Msg Attr AttrWalk Fields Validate Addr

section

variable [HostOrder] (pton : ℕ → List UInt8 → Bool) {buf buf' : Mem}

/-! ## One record -/

section

variable {p q : ℕ} {tb : Index}

/-- an attribute that was parsed, in two memories -/
structure BothHave (buf buf' : Mem) (t nla : ℕ) : Prop where
  same : SameAttr buf buf' nla
  hdr : 4 ≤ nlaLenField buf nla
  conforms : Conforms buf nla (routePolicy t)

theorem BothHave.addr {t nla : ℕ} (h : BothHave buf buf' t nla) (family : ℤ) :
    nlAddrAllocAttr buf' nla family = nlAddrAllocAttr buf nla family := by
  rw [nlAddrAllocAttr, nlAddrAllocAttr, h.same.bytes h.hdr]

/-- an integer, at least when the policy asks for it -/
theorem BothHave.u32 {t nla : ℕ} (h : BothHave buf buf' t nla) (hmin : policyMinlen (routePolicy t) = 4) :
    nlaGetU32 buf' nla = nlaGetU32 buf nla := by
  have hlen := h.conforms.min
  rw [hmin] at hlen
  rw [nlaGetU32, nlaGetU32, (h.same.payload h.hdr).u32 le_rfl (by omega)]

theorem BothHave.u16 {t nla : ℕ} (h : BothHave buf buf' t nla) (hmin : policyMinlen (routePolicy t) = 2) :
    getU16 buf' (nlaData nla) = getU16 buf (nlaData nla) := by
  have hlen := h.conforms.min
  rw [hmin] at hlen
  exact (h.same.payload h.hdr).u16 le_rfl (by omega)

variable (h : ∀ t nla, tb t = some nla → BothHave buf buf' t nla) (family : ℤ) (nh : RtnlNexthop)

include h

theorem parseGateway_same : parseGateway buf' family tb nh = parseGateway buf family tb nh := by
  rw [parseGateway, parseGateway]
  cases hget : tb RTA_GATEWAY with
  | none => rfl
  | some a =>
    dsimp only
    rw [(h _ a hget).addr]

theorem parseFlow_same : parseFlow buf' tb nh = parseFlow buf tb nh := by
  rw [parseFlow, parseFlow]
  cases hget : tb RTA_FLOW with
  | none => rfl
  | some a =>
    dsimp only
    rw [(h _ a hget).u32 (by decide)]

theorem parseNewdst_same : parseNewdst pton buf' family tb nh = parseNewdst pton buf family tb nh := by
  rw [parseNewdst, parseNewdst]
  cases hget : tb RTA_NEWDST with
  | none => rfl
  | some a =>
    dsimp only
    rw [(h _ a hget).addr]

theorem parseVia_same : parseVia pton buf' tb nh = parseVia pton buf tb nh := by
  rw [parseVia, parseVia]
  cases hget : tb RTA_VIA with
  | none => rfl
  | some a =>
    have hvia : rtnlRouteParseVia buf' a = rtnlRouteParseVia buf a := by
      have ha := h _ a hget
      have hpayload := ha.same.payload ha.hdr
      rw [rtnlRouteParseVia, rtnlRouteParseVia, ha.same.len ha.hdr]
      by_cases hshort : nlaLen buf a - 2 < 0
      · simp only [if_pos hshort]
      · simp only [if_neg hshort]
        rw [hpayload.u16 le_rfl (by omega), hpayload.bytes (Nat.le_add_right _ _) (by omega)]
    dsimp only
    rw [hvia]

omit h in
/-- the attributes in the nest of an encapsulation -/
theorem mplsEncapParseMsg_same {a : ℕ} (hsame : SameAttr buf buf' a) (hhdr : 4 ≤ nlaLenField buf a) :
    mplsEncapParseMsg pton buf' a nh = mplsEncapParseMsg pton buf a nh := by
  have hlt : nlaLen buf a < 2147483648 := by
    have hfield : nlaLenField buf a < 65536 := getU16_lt buf a
    rw [nlaLen]
    omega
  rw [mplsEncapParseMsg, mplsEncapParseMsg, hsame.nested hhdr]
  cases hnest : nlaParse ((nlaLen buf a).toNat + 1) buf MPLS_IPTUNNEL_MAX (nlaData a) (nlaLen buf a)
      (some mplsEncapPolicy) with
  | none =>
    rw [nlaParseNested, hnest]
    rfl
  | some found =>
    obtain ⟨err, ntb⟩ := found
    rw [nlaParseNested, hnest, Option.getD_some]
    by_cases herr : err ≠ 0
    · simp only [if_pos herr]
    · rw [not_not] at herr
      have hin : ∀ t nla, ntb t = some nla → SameAttr buf buf' nla ∧ 4 ≤ nlaLenField buf nla ∧
          Conforms buf nla (mplsEncapPolicy t) := by
        intro t nla hget
        have hinside := nlaParse_inside hlt (Nat.lt_succ_self _) hnest herr.ge hget
        exact ⟨hinside.same (hsame.payload hhdr), hinside.hdr, hinside.conforms⟩
      simp only [if_neg (not_not.2 herr)]
      cases hdst : ntb MPLS_IPTUNNEL_DST with
      | none => rfl
      | some dst =>
        obtain ⟨hd, hdhdr, -⟩ := hin _ dst hdst
        have haddr : nlAddrAllocAttr buf' dst Family.AF_MPLS = nlAddrAllocAttr buf dst Family.AF_MPLS := by
          rw [nlAddrAllocAttr, nlAddrAllocAttr, hd.bytes hdhdr]
        dsimp only
        rw [haddr]
        cases httl : ntb MPLS_IPTUNNEL_TTL with
        | none => rfl
        | some ttl =>
          obtain ⟨ht, hthdr, htlen⟩ := hin _ ttl httl
          have hlen : (1 : ℤ) ≤ nlaLen buf ttl := htlen.min
          have hbyte : nlaGetU8 buf' ttl = nlaGetU8 buf ttl := by
            rw [nlaGetU8, nlaGetU8, ht.payload hthdr (nlaData ttl) le_rfl (by omega)]
          dsimp only
          rw [hbyte]

theorem parseEncap_same : parseEncap pton buf' tb nh = parseEncap pton buf tb nh := by
  rw [parseEncap, parseEncap]
  cases hencap : tb RTA_ENCAP with
  | none => rfl
  | some encap =>
    cases htype : tb RTA_ENCAP_TYPE with
    | none => rfl
    | some encapType =>
      have he := h _ encap hencap
      dsimp only
      rw [nhEncapParseMsg, nhEncapParseMsg, (h _ encapType htype).u16 (by decide),
        mplsEncapParseMsg_same pton nh he.same he.hdr]

theorem parseNhAttrs_same : parseNhAttrs pton buf' family tb nh = parseNhAttrs pton buf family tb nh := by
  have hvia : parseVia pton buf' tb = parseVia pton buf tb := funext fun nh => parseVia_same pton h nh
  have hencap : parseEncap pton buf' tb = parseEncap pton buf tb := funext fun nh => parseEncap_same pton h nh
  rw [parseNhAttrs, parseNhAttrs, parseGateway_same h, parseFlow_same h, parseNewdst_same pton h, hvia, hencap]

end

/-- **One record** is read from its own bytes. -/
theorem parseRtnexthop_same {p q : ℕ} (h : SameBytes buf buf' p q) (hhdr : p + 8 ≤ q) (hlen : p + getU16 buf p ≤ q)
    (family : ℤ) : parseRtnexthop pton buf' family p = parseRtnexthop pton buf family p := by
  have hfield : getU16 buf' p = getU16 buf p := h.u16 le_rfl (by omega)
  have hbytes : buf' (p + 2) = buf (p + 2) ∧ buf' (p + 3) = buf (p + 3) :=
    ⟨h _ (by omega) (by omega), h _ (by omega) (by omega)⟩
  have hindex : getU32 buf' (p + 4) = getU32 buf (p + 4) := h.u32 (by omega) (by omega)
  rw [parseRtnexthop, parseRtnexthop, hfield, hbytes.1, hbytes.2, hindex]
  by_cases hattrs : 8 < getU16 buf p
  · have hlt : ((getU16 buf p - 8 : ℕ) : ℤ) < 2147483648 := by
      have hsmall := getU16_lt buf p
      omega
    have hrest : SameBytes buf buf' (p + 8) (p + 8 + ((getU16 buf p - 8 : ℕ) : ℤ).toNat) :=
      h.mono (by omega) (by omega)
    have hparse : nlaParseAttrs buf' RTA_MAX (p + 8) (getU16 buf p - 8) routePolicy =
        nlaParseAttrs buf RTA_MAX (p + 8) (getU16 buf p - 8) routePolicy := by
      rw [nlaParseAttrs, nlaParseAttrs, nlaParse_same hlt hrest (by omega)]
    simp only [if_pos hattrs, hparse]
    cases hfound : nlaParse (getU16 buf p - 8 + 1) buf RTA_MAX (p + 8) ((getU16 buf p - 8 : ℕ) : ℤ) (some routePolicy) with
    | none =>
      rw [nlaParseAttrs, hfound]
      simp only [Option.getD_none, lt_irrefl, if_false]
      refine parseNhAttrs_same pton (fun t nla hnone => ?_) family _
      cases hnone
    | some found =>
      obtain ⟨err, tb⟩ := found
      rw [nlaParseAttrs, hfound, Option.getD_some]
      by_cases herr : err < 0
      · simp only [if_pos herr]
      · simp only [if_neg herr]
        refine parseNhAttrs_same pton (fun t nla hget => ?_) family _
        have hinside := nlaParse_inside hlt (by omega) hfound (not_lt.1 herr) hget
        exact ⟨hinside.same hrest, hinside.hdr, hinside.conforms⟩
  · simp only [if_neg hattrs]

/-! ## Records -/

/-- `RTNH_OK` -/
def rtnhOk (buf : Mem) (pos : ℕ) (rem : ℤ) : Bool :=
  decide (8 ≤ rem) && decide (8 ≤ getU16 buf pos) && decide ((getU16 buf pos : ℤ) ≤ rem)

/-- `RTNH_NEXT` -/
def rtnhNext (buf : Mem) (pos : ℕ) (rem : ℤ) : ℕ × ℤ := (pos + align4 (getU16 buf pos), rem - (align4 (getU16 buf pos) : ℕ))

theorem rtnhStream (buf : Mem) : RecordStream (rtnhOk buf) (rtnhNext buf) 8 (getU16 buf) where
  hdr_pos := by decide
  ok_iff pos rem _ := by
    simp only [rtnhOk, Bool.and_eq_true, decide_eq_true_eq, and_assoc]
    exact Iff.rfl
  next_eq pos rem _ _ := Or.inl rfl

/-- the number of complete records in the `rem` bytes from `pos` on -/
def completeRecords (buf : Mem) (pos : ℕ) (rem : ℤ) : ℕ :=
  ((visits (rtnhOk buf) (rtnhNext buf) (rem.toNat + 1) pos rem).getD []).length

/-- no record, or one and those behind it -/
theorem completeRecords_eq (buf : Mem) (pos : ℕ) {rem : ℤ} (hrem : rem < 2147483648) : completeRecords buf pos rem =
    if rtnhOk buf pos rem then
      completeRecords buf (pos + align4 (getU16 buf pos)) (rem - (align4 (getU16 buf pos) : ℕ)) + 1
    else 0 := by
  split_ifs with hok
  · obtain ⟨h8, hlen, hle⟩ := ((rtnhStream buf).ok_iff pos rem hrem).1 hok
    have hge := le_align4 (getU16 buf pos)
    obtain ⟨offs, hvisits, -⟩ := (rtnhStream buf).walk (pos + align4 (getU16 buf pos))
      (rem - (align4 (getU16 buf pos) : ℕ)) (by omega)
    rw [completeRecords, visits, if_pos hok, rtnhNext, hvisits _ (by omega), completeRecords, hvisits _ (by omega)]
    rfl
  · rw [completeRecords, visits, if_neg hok]
    rfl

variable (family : ℤ)

/-- The `rest` bytes at `pos` are read to their end: records of `least` bytes at least, which lie inside with their
alignment and are accepted, and then too few bytes for another one. -/
inductive Reads (buf : Mem) (least : ℕ) : ℕ → ℕ → List RtnlNexthop → Prop where
  | done {pos rest : ℕ} (hdone : rest < 8 ∨ rest < getU16 buf pos) : Reads buf least pos rest []
  | record {pos rest : ℕ} {nh : RtnlNexthop} {nhs : List RtnlNexthop} (hdr : 8 ≤ rest) (len : least ≤ getU16 buf pos)
      (aligned : align4 (getU16 buf pos) ≤ rest) (accepted : parseRtnexthop pton buf family pos = .ok nh)
      (later : Reads buf least (pos + align4 (getU16 buf pos)) (rest - align4 (getU16 buf pos)) nhs) :
      Reads buf least pos rest (nh :: nhs)

/-- A record is refused with an error, and those before it have a length, lie inside with their alignment and are
accepted. -/
inductive Refused (buf : Mem) (err : ℤ) : ℕ → ℕ → Prop where
  | here {pos rest : ℕ} (hdr : 8 ≤ rest) (len : getU16 buf pos ≤ rest)
      (refused : parseRtnexthop pton buf family pos = .error (.code err)) : Refused buf err pos rest
  | later {pos rest : ℕ} {nh : RtnlNexthop} (hdr : 8 ≤ rest) (len : 0 < getU16 buf pos)
      (aligned : align4 (getU16 buf pos) ≤ rest) (accepted : parseRtnexthop pton buf family pos = .ok nh)
      (later : Refused buf err (pos + align4 (getU16 buf pos)) (rest - align4 (getU16 buf pos))) : Refused buf err pos rest

variable {pton family}

/-- complete records are counted -/
theorem Reads.count {pos rest : ℕ} {nhs : List RtnlNexthop} (h : Reads pton family buf 8 pos rest nhs)
    (hrest : rest < 2147483648) : completeRecords buf pos rest = nhs.length := by
  induction h with
  | done hdone =>
    rw [completeRecords_eq buf _ (by omega), if_neg, List.length_nil]
    rw [(rtnhStream buf).ok_iff _ _ (by omega)]
    omega
  | @record pos rest nh nhs hdr len aligned accepted later ih =>
    have hge := le_align4 (getU16 buf pos)
    have hok : rtnhOk buf pos rest = true := by
      rw [(rtnhStream buf).ok_iff _ _ (by omega)]
      omega
    have hcast : (rest : ℤ) - (align4 (getU16 buf pos) : ℕ) = ((rest - align4 (getU16 buf pos) : ℕ) : ℤ) := by omega
    rw [completeRecords_eq buf _ (by omega), if_pos hok, hcast, ih (by omega), List.length_cons]

/-- records that are as many as the complete ones are complete -/
theorem Reads.complete {pos rest : ℕ} {nhs : List RtnlNexthop} (h : Reads pton family buf 1 pos rest nhs)
    (hrest : rest < 2147483648) (hcount : completeRecords buf pos rest = nhs.length) :
    Reads pton family buf 8 pos rest nhs := by
  induction h with
  | done hdone => exact .done hdone
  | @record pos rest nh nhs hdr len aligned accepted later ih =>
    rw [completeRecords_eq buf _ (by omega), List.length_cons] at hcount
    split_ifs at hcount with hok
    · obtain ⟨-, hlen, -⟩ := ((rtnhStream buf).ok_iff _ _ (by omega)).1 hok
      have hcast : (rest : ℤ) - (align4 (getU16 buf pos) : ℕ) = ((rest - align4 (getU16 buf pos) : ℕ) : ℤ) := by omega
      rw [hcast] at hcount
      exact .record hdr hlen aligned accepted (ih (by omega) (by omega))

/-! ## Runs of the loop -/

variable (pton)

theorem parseMultipath_stop {pos tlen : ℕ} (h : tlen < 8 ∨ tlen < getU16 buf pos) (k : ℕ) (r : RouteVal) :
    rtnlRouteParseMultipath pton buf (k + 1) pos tlen r = .ok r := by
  rw [rtnlRouteParseMultipath]
  exact if_neg (by omega)

theorem parseMultipath_step {pos tlen : ℕ} (hdr : 8 ≤ tlen) (len : getU16 buf pos ≤ tlen) (k : ℕ) (r : RouteVal) :
    rtnlRouteParseMultipath pton buf (k + 1) pos tlen r =
      (parseRtnexthop pton buf r.data.rtFamily.toNat pos).bind fun nh =>
        rtnlRouteParseMultipath pton buf k (pos + align4 (getU16 buf pos)) (toU64 (tlen - align4 (getU16 buf pos)))
          (rtnlRouteAddNexthop r nh) := by
  rw [rtnlRouteParseMultipath]
  exact if_pos ⟨hdr, len⟩

omit [HostOrder] in
/-- what is left, when the aligned length fits -/
theorem toU64_sub {tlen n : ℕ} (hle : n ≤ tlen) (hlt : tlen < 2147483648) : toU64 ((tlen : ℤ) - (n : ℕ)) = tlen - n := by
  have hnat := toU64_of_nonneg (x := (tlen : ℤ) - (n : ℕ)) (by omega) (by omega)
  omega

variable {pton}

/-- **Records that are read** are read in every memory that has them, in one round more than they are. -/
theorem Reads.run {least pos rest : ℕ} {nhs : List RtnlNexthop} {r : RouteVal}
    (h : Reads pton r.data.rtFamily.toNat buf least pos rest nhs) (hrest : rest < 2147483648)
    (hsame : SameBytes buf buf' pos (pos + rest)) {k : ℕ} (hk : nhs.length < k) :
    rtnlRouteParseMultipath pton buf' k pos rest r = .ok (nhs.foldl rtnlRouteAddNexthop r) := by
  generalize hfamily : (r.data.rtFamily.toNat : ℤ) = family at h
  obtain ⟨k, rfl⟩ : ∃ k', k = k' + 1 := ⟨k - 1, by omega⟩
  induction h generalizing k r with
  | @done pos rest hdone =>
    refine parseMultipath_stop pton ?_ k r
    by_cases h8 : rest < 8
    · exact Or.inl h8
    · rw [hsame.u16 le_rfl (by omega)]
      exact hdone
  | @record pos rest nh nhs hdr len aligned accepted later ih =>
    have hge := le_align4 (getU16 buf pos)
    have hfield : getU16 buf' pos = getU16 buf pos := hsame.u16 le_rfl (by omega)
    rw [List.length_cons] at hk
    obtain ⟨k, rfl⟩ : ∃ k', k = k' + 1 := ⟨k - 1, by omega⟩
    rw [parseMultipath_step pton hdr (by omega), parseRtnexthop_same pton hsame (by omega) (by omega), hfamily, accepted,
      hfield, toU64_sub aligned hrest, List.foldl_cons]
    exact ih (r := rtnlRouteAddNexthop r nh) (by omega) (hsame.mono (Nat.le_add_right _ _) (by omega)) hfamily k (by omega)

/-- **A record that is refused** is refused in every memory that has it. -/
theorem Refused.run {err : ℤ} {pos rest : ℕ} {r : RouteVal} (h : Refused pton r.data.rtFamily.toNat buf err pos rest)
    (hrest : rest < 2147483648) : ∃ n, ∀ buf', SameBytes buf buf' pos (pos + rest) → ∀ k, n < k →
      rtnlRouteParseMultipath pton buf' k pos rest r = .error (.code err) := by
  generalize hfamily : (r.data.rtFamily.toNat : ℤ) = family at h
  induction h generalizing r with
  | @here pos rest hdr len refused =>
    refine ⟨0, fun buf' hsame k hk => ?_⟩
    obtain ⟨k, rfl⟩ : ∃ k', k = k' + 1 := ⟨k - 1, by omega⟩
    have hfield : getU16 buf' pos = getU16 buf pos := hsame.u16 le_rfl (by omega)
    rw [parseMultipath_step pton hdr (by omega), parseRtnexthop_same pton hsame (by omega) (by omega), hfamily, refused]
    rfl
  | @later pos rest nh hdr len aligned accepted later ih =>
    obtain ⟨n, hn⟩ := ih (r := rtnlRouteAddNexthop r nh) (by omega) hfamily
    refine ⟨n + 1, fun buf' hsame k hk => ?_⟩
    obtain ⟨k, rfl⟩ : ∃ k', k = k' + 1 := ⟨k - 1, by omega⟩
    have hge := le_align4 (getU16 buf pos)
    have hfield : getU16 buf' pos = getU16 buf pos := hsame.u16 le_rfl (by omega)
    rw [parseMultipath_step pton hdr (by omega), parseRtnexthop_same pton hsame (by omega) (by omega), hfamily, accepted,
      hfield, toU64_sub aligned hrest]
    exact hn buf' (hsame.mono (Nat.le_add_right _ _) (by omega)) k (by omega)

/-- **A record of length zero** is read again and again. -/
theorem parseMultipath_zero {pos tlen : ℕ} (hzero : getU16 buf pos = 0) (hdr : 8 ≤ tlen) (hlt : tlen < 18446744073709551616)
    (k : ℕ) (r : RouteVal) : rtnlRouteParseMultipath pton buf k pos tlen r = .error .never := by
  have hok : ∃ nh, parseRtnexthop pton buf r.data.rtFamily.toNat pos = .ok nh := by
    rw [parseRtnexthop, hzero]
    exact ⟨_, if_neg (by decide)⟩
  have hleft : toU64 ((tlen : ℤ) - (align4 0 : ℕ)) = tlen := by
    have hnat := toU64_of_nonneg (x := (tlen : ℤ) - (align4 0 : ℕ)) (by simp [align4]) (by simp [align4]; omega)
    simp only [align4] at hnat ⊢
    omega
  induction k generalizing r with
  | zero => rfl
  | succ k ih =>
    obtain ⟨nh, hnh⟩ := hok
    rw [parseMultipath_step pton hdr (by omega), hnh, hzero, hleft]
    exact ih _ ⟨_, hnh⟩

/-- the memory with zeros behind an address -/
def zeroBehind (buf : Mem) (q : ℕ) : Mem := fun i => if i < q then buf i else 0

omit [HostOrder] in
theorem zeroBehind_same (buf : Mem) (p q : ℕ) : SameBytes buf (zeroBehind buf q) p q := by
  intro i _ hi
  rw [zeroBehind, if_pos hi]

theorem zeroBehind_u16 (buf : Mem) {p q : ℕ} (h : q ≤ p) : getU16 (zeroBehind buf q) p = 0 := by
  have h0 : zeroBehind buf q p = 0 := if_neg (by omega)
  have h1 : zeroBehind buf q (p + 1) = 0 := if_neg (by omega)
  have hzero : (0 : UInt8).toNat = 0 := rfl
  simp only [getU16, h0, h1, hzero, Nat.zero_mul, Nat.add_zero, ite_self]

variable (pton) in
/-- **What can happen:** all is read, a record is refused, or the loop does not end if there are zeros behind. -/
theorem reads_or_refused_or_never (pos rest : ℕ) (hrest : rest < 2147483648) (r : RouteVal) :
    (∃ nhs, Reads pton r.data.rtFamily.toNat buf 1 pos rest nhs) ∨
      (∃ err, Refused pton r.data.rtFamily.toNat buf err pos rest) ∨
        ∀ k, rtnlRouteParseMultipath pton (zeroBehind buf (pos + rest)) k pos rest r = .error .never := by
  induction hn : rest using Nat.strong_induction_on generalizing pos rest r with
  | _ n ih =>
    subst hn
    by_cases hdone : rest < 8 ∨ rest < getU16 buf pos
    · exact Or.inl ⟨[], .done hdone⟩
    · obtain ⟨hdr, len⟩ := not_or.1 hdone
      rw [not_lt] at hdr len
      have hsame := zeroBehind_same buf pos (pos + rest)
      have hge := le_align4 (getU16 buf pos)
      have hfield : getU16 (zeroBehind buf (pos + rest)) pos = getU16 buf pos := hsame.u16 le_rfl (by omega)
      have hstep : ∀ k, rtnlRouteParseMultipath pton (zeroBehind buf (pos + rest)) (k + 1) pos rest r =
          (parseRtnexthop pton buf r.data.rtFamily.toNat pos).bind fun nh =>
            rtnlRouteParseMultipath pton (zeroBehind buf (pos + rest)) k (pos + align4 (getU16 buf pos))
              (toU64 (rest - align4 (getU16 buf pos))) (rtnlRouteAddNexthop r nh) := by
        intro k
        rw [parseMultipath_step pton hdr (by omega), parseRtnexthop_same pton hsame (by omega) (by omega), hfield]
      cases hparse : parseRtnexthop pton buf r.data.rtFamily.toNat pos with
      | error stop =>
        cases stop with
        | code err => exact Or.inr (Or.inl ⟨err, .here hdr len hparse⟩)
        | never =>
          refine Or.inr (Or.inr fun k => ?_)
          cases k with
          | zero => rfl
          | succ k =>
            rw [hstep, hparse]
            rfl
      | ok nh =>
        by_cases hzero : getU16 buf pos = 0
        · exact Or.inr (Or.inr fun k => parseMultipath_zero (hfield.trans hzero) hdr (by omega) k r)
        · by_cases haligned : align4 (getU16 buf pos) ≤ rest
          · have hend : pos + align4 (getU16 buf pos) + (rest - align4 (getU16 buf pos)) = pos + rest := by omega
            have hlater := ih (rest - align4 (getU16 buf pos)) (by omega) (pos + align4 (getU16 buf pos))
              (rest - align4 (getU16 buf pos)) (by omega) (rtnlRouteAddNexthop r nh) rfl
            rw [hend] at hlater
            rcases hlater with ⟨nhs, hreads⟩ | ⟨err, hrefused⟩ | hnever
            · exact Or.inl ⟨nh :: nhs, .record hdr (by omega) haligned hparse hreads⟩
            · exact Or.inr (Or.inl ⟨err, .later hdr (by omega) haligned hparse hrefused⟩)
            · refine Or.inr (Or.inr fun k => ?_)
              cases k with
              | zero => rfl
              | succ k =>
                rw [hstep, hparse, toU64_sub haligned hrest]
                exact hnever k
          · -- the length that is left wraps, and the next record is behind the end
            refine Or.inr (Or.inr fun k => ?_)
            cases k with
            | zero => rfl
            | succ k =>
              have hwrap := toU64_of_neg (x := (rest : ℤ) - (align4 (getU16 buf pos) : ℕ)) (by
                have hsmall := align4_lt (getU16 buf pos)
                omega) (by omega)
              have hsize : toU64 ((rest : ℤ) - (align4 (getU16 buf pos) : ℕ)) < 18446744073709551616 := by
                rw [toU64]
                omega
              rw [hstep, hparse]
              exact parseMultipath_zero (zeroBehind_u16 buf (by omega)) (by omega) hsize k _

/-! ## The attribute -/

variable (pton)

/-- The loop over an attribute is total: after some number of rounds it has come to a result, the same in every memory that
has the attribute, and a successful one has one nexthop for every complete record. -/
def MultipathTotal (buf : Mem) (attr : ℕ) (r : RouteVal) : Prop :=
  ∃ res n, res ≠ .error .never ∧
    (∀ buf', SameAttr buf buf' attr → ∀ k, n ≤ k →
      rtnlRouteParseMultipath pton buf' k (nlaData attr) (toU64 (nlaLen buf' attr)) r = res) ∧
    ∀ r', res = .ok r' → r'.data.rtNexthops.length =
      r.data.rtNexthops.length + completeRecords buf (nlaData attr) (nlaLen buf attr)

omit [HostOrder] in
theorem foldl_addNexthop_length (nhs : List RtnlNexthop) (r : RouteVal) :
    (nhs.foldl rtnlRouteAddNexthop r).data.rtNexthops.length = r.data.rtNexthops.length + nhs.length := by
  induction nhs generalizing r with
  | nil => rfl
  | cons nh nhs ih =>
    rw [List.foldl_cons, ih, List.length_cons]
    simp only [rtnlRouteAddNexthop, List.length_append, List.length_singleton]
    omega

/-- **The loop over the nexthops is total** for an attribute if and only if all its records are complete, aligned and
accepted, or one is refused and nothing is wrong before it. -/
theorem multipath_total_iff (buf : Mem) (attr : ℕ) (hattr : 4 ≤ nlaLenField buf attr) (r : RouteVal) :
    MultipathTotal pton buf attr r ↔
      (∃ nhs, Reads pton r.data.rtFamily.toNat buf 8 (nlaData attr) (nlaLen buf attr).toNat nhs) ∨
        ∃ err, Refused pton r.data.rtFamily.toNat buf err (nlaData attr) (nlaLen buf attr).toNat := by
  have hfield : nlaLenField buf attr < 65536 := getU16_lt buf attr
  have hcast : nlaLen buf attr = ((nlaLen buf attr).toNat : ℤ) := by
    rw [nlaLen, NLA_HDRLEN]
    omega
  have hlt : (nlaLen buf attr).toNat < 2147483648 := by
    rw [nlaLen, NLA_HDRLEN]
    omega
  have htlen : ∀ buf', SameAttr buf buf' attr → toU64 (nlaLen buf' attr) = (nlaLen buf attr).toNat := by
    intro buf' hsame
    rw [hsame.len hattr]
    have hnat := toU64_of_nonneg (x := nlaLen buf attr) (by omega) (by omega)
    omega
  have hcount : completeRecords buf (nlaData attr) (nlaLen buf attr) =
      completeRecords buf (nlaData attr) ((nlaLen buf attr).toNat : ℕ) := by rw [← hcast]
  constructor
  · rintro ⟨res, n, hres, hrun, hlen⟩
    rcases reads_or_refused_or_never pton (nlaData attr) (nlaLen buf attr).toNat hlt r with
      ⟨nhs, hreads⟩ | hrefused | hnever
    · have hall := hrun buf (fun _ _ _ => rfl) (n + nhs.length + 1) (by omega)
      rw [htlen buf fun _ _ _ => rfl, hreads.run hlt (fun _ _ _ => rfl) (by omega)] at hall
      have hadded := hlen _ hall.symm
      rw [foldl_addNexthop_length, hcount] at hadded
      exact Or.inl ⟨nhs, hreads.complete hlt (by omega)⟩
    · exact Or.inr hrefused
    · have hbehind : SameAttr buf (zeroBehind buf (nlaData attr + (nlaLen buf attr).toNat)) attr := by
        refine (zeroBehind_same buf attr _).attr le_rfl ?_
        rw [nlaData, nlaLen, NLA_HDRLEN]
        omega
      have hstuck := hrun _ hbehind n le_rfl
      rw [htlen _ hbehind, hnever n] at hstuck
      exact absurd hstuck.symm hres
  · rintro (⟨nhs, hreads⟩ | ⟨err, hrefused⟩)
    · refine ⟨.ok (nhs.foldl rtnlRouteAddNexthop r), nhs.length + 1, ?_, fun buf' hsame k hk => ?_, fun r' heq => ?_⟩
      · intro heq
        cases heq
      · rw [htlen buf' hsame]
        exact hreads.run hlt (hsame.payload hattr) (by omega)
      · cases heq
        rw [foldl_addNexthop_length, hcount, hreads.count hlt]
    · obtain ⟨n, hn⟩ := hrefused.run hlt
      refine ⟨.error (.code err), n + 1, ?_, fun buf' hsame k hk => ?_, fun r' heq => ?_⟩
      · intro heq
        cases heq
      · rw [htlen buf' hsame]
        exact hn buf' (hsame.payload hattr) k (by omega)
      · cases heq

/-- an attribute of type `RTA_MULTIPATH` with eight zeros, as a host writes it whose low byte comes first -/
def zeroRecord : Mem := memOf [12, 0, 9, 0, 0, 0, 0, 0, 0, 0, 0, 0]

/-- an attribute with one record, which has neither attributes nor flags -/
def plainRecord : Mem := memOf [12, 0, 9, 0, 8, 0, 0, 0, 2, 0, 0, 0]

end

/-- nothing is said about the bytes of addresses -/
def anyAddr (_ : ℕ) (_ : List UInt8) : Bool := true

theorem multipath_total_iff_plain : @MultipathTotal ⟨false⟩ anyAddr plainRecord 0 rtnlRouteAlloc ↔
    (∃ nhs, @Reads ⟨false⟩ anyAddr rtnlRouteAlloc.data.rtFamily.toNat plainRecord 8 (nlaData 0)
        (@nlaLen ⟨false⟩ plainRecord 0).toNat nhs) ∨
      ∃ err, @Refused ⟨false⟩ anyAddr rtnlRouteAlloc.data.rtFamily.toNat plainRecord err (nlaData 0)
        (@nlaLen ⟨false⟩ plainRecord 0).toNat :=
  @multipath_total_iff ⟨false⟩ anyAddr plainRecord 0 (by decide) rtnlRouteAlloc

/-- **A loop without end.** The attribute has one record, of length zero. -/
theorem zero_length_never_ends : ¬ ∀ (buf : Mem) (attr : ℕ), 4 ≤ @nlaLenField ⟨false⟩ buf attr → ∀ r : RouteVal,
    @MultipathTotal ⟨false⟩ anyAddr buf attr r := by
  intro h
  obtain ⟨res, n, hres, hrun, -⟩ := h zeroRecord 0 (by decide) rtnlRouteAlloc
  have hzero := hrun zeroRecord (fun _ _ _ => rfl) n le_rfl
  rw [@parseMultipath_zero ⟨false⟩ anyAddr zeroRecord _ _ (by decide) (by decide) (by decide)] at hzero
  exact hres hzero.symm

end Libnl.Route
