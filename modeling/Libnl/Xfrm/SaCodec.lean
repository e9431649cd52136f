/-
Messages for security associations: the round trip.

Structures that are copied as they are come back as they were, as long as what they say about their length is so. Names are
strings: what stands behind their end is lost when an algorithm without truncation is put. Of a care-of address only those
come back that happen to look like the head of the structure they are in.

- `algoAt_seg`, `authAt_seg`, `encapAt_holds`, `replayEsnAt_seg`, `saInfoAt_holds`: structures, put and read.
- `coaddrAt_head`: what is read where the builder put a care-of address. `coaddr_again_iff`: when that is the address.
- `read_saAttrs`: what the parser finds.
- `sa_round_trip_iff`: exactly when the association that is parsed of the message that was built is the one it was built of.
-/
import Mathlib.Tactic
import Libnl.Message.Validate
import Libnl.Xfrm.Sa

namespace Libnl.Xfrm

open Bytes Layout Msg Attr AttrWalk AttrTree AttrStream Writer Fields
open Reserve Validate Mask Object Addr Addr.Family

/-! ## Names -/

/-- a string that ends is shorter than the array it is in -/
theorem cstr_length_lt {src : List UInt8} (h : (0 : UInt8) ∈ src) : (cstr src).length < src.length := by
  refine lt_of_le_of_ne (cstr_length_le src) fun heq => ?_
  have hself : cstr src = src := (List.takeWhile_sublist _).eq_of_length heq
  have hall := cstr_isStr src
  rw [hself] at hall
  exact hall 0 h rfl

theorem cstr_strcpy (n : ℕ) (src : List UInt8) : cstr (strcpy n src) = cstr src := by
  unfold strcpy
  cases n - (cstr src).length with
  | zero => rw [List.replicate_zero, List.append_nil, cstr_of_isStr (cstr_isStr src)]
  | succ k => rw [List.replicate_succ, cstr_append_zero (cstr_isStr src)]

theorem strcpy_length {n : ℕ} {src : List UInt8} (h : (cstr src).length ≤ n) : (strcpy n src).length = n := by
  rw [strcpy, List.length_append, List.length_replicate]
  omega

theorem strcpy_ends {n : ℕ} {src : List UInt8} (h : (cstr src).length < n) : (0 : UInt8) ∈ strcpy n src := by
  refine List.mem_append_right _ (List.mem_replicate.2 ⟨?_, rfl⟩)
  omega

/-- a name that ends keeps its end -/
theorem strncpy_eq {n : ℕ} {src : List UInt8} (hlen : src.length = n) (h : (0 : UInt8) ∈ src) :
    strncpy n src = strcpy n src := by
  have hlt := cstr_length_lt h
  have hlast : (strcpy n src)[n - 1]? = some 0 := by
    rw [strcpy, List.getElem?_append_right (by omega), List.getElem?_replicate, if_pos (by omega)]
  obtain ⟨hin, hget⟩ := List.getElem?_eq_some_iff.1 hlast
  rw [strncpy, List.take_of_length_le hlen.le]
  exact (congrArg _ hget.symm).trans (List.set_getElem_self hin)

section

variable [HostOrder]

/-! ## Algorithms -/

omit [HostOrder] in
/-- an algorithm as it is read: a name of the length of its array, and a key of the length given -/
structure XfrmnlAlgo.Valid (a : XfrmnlAlgo) : Prop where
  name : a.algName.length = 64
  key : a.algKey.length = keyBytes a.algKeyLen

theorem algo_length {a : XfrmnlAlgo} (h : a.Valid) : a.bytes.length = 68 + a.algKey.length := by
  have hname := h.name
  simp only [XfrmnlAlgo.bytes, List.length_append, u32Bytes_length]
  omega

theorem longAlgo_length {a : XfrmnlAlgo} (h : a.Valid) (len : BitVec 32) :
    (a.longBytes len).length = 72 + a.algKey.length := by
  have hname := h.name
  simp only [XfrmnlAlgo.longBytes, List.length_append, u32Bytes_length]
  omega

theorem algoAt_valid (m : Mem) (p : ℕ) : (algoAt m p).Valid := ⟨readBytes_length _ _ _, readBytes_length _ _ _⟩

theorem longAlgoAt_valid (m : Mem) (p : ℕ) : (longAlgoAt m p).Valid := ⟨readBytes_length _ _ _, readBytes_length _ _ _⟩

/-- **An algorithm, put and read** -/
theorem algoAt_seg {a : XfrmnlAlgo} (h : a.Valid) {m : Mem} {p : ℕ} (hm : Seg m p a.bytes) : algoAt m p = a := by
  simp only [XfrmnlAlgo.bytes, seg_append, h.name, u32Bytes_length, add_assoc, Nat.reduceAdd] at hm
  obtain ⟨hname, hlen, hkey⟩ := hm
  have hreadname := hname.readBytes
  have hreadkey := hkey.readBytes
  rw [h.name] at hreadname
  rw [h.key] at hreadkey
  rw [algoAt, seg_u32At hlen, hreadname, hreadkey]

theorem longAlgoAt_seg {a : XfrmnlAlgo} (h : a.Valid) {len : BitVec 32} {m : Mem} {p : ℕ}
    (hm : Seg m p (a.longBytes len)) : longAlgoAt m p = a ∧ u32At m (p + 68) = len := by
  simp only [XfrmnlAlgo.longBytes, seg_append, h.name, u32Bytes_length, add_assoc, Nat.reduceAdd] at hm
  obtain ⟨hname, hkeylen, hlen, hkey⟩ := hm
  have hreadname := hname.readBytes
  have hreadkey := hkey.readBytes
  rw [h.name] at hreadname
  rw [h.key] at hreadkey
  exact ⟨by rw [longAlgoAt, seg_u32At hkeylen, hreadname, hreadkey], seg_u32At hlen⟩

theorem aeadAt_seg {a : XfrmnlAlgoAead} (h : a.toXfrmnlAlgo.Valid) {m : Mem} {p : ℕ} (hm : Seg m p a.bytes) :
    aeadAt m p = a := by
  obtain ⟨halgo, hlen⟩ := longAlgoAt_seg h hm
  rw [aeadAt, halgo, hlen]

theorem authTruncAt_seg {a : XfrmnlAlgoAuth} (h : a.toXfrmnlAlgo.Valid) {m : Mem} {p : ℕ} (hm : Seg m p a.bytes) :
    authTruncAt m p = a := by
  obtain ⟨halgo, hlen⟩ := longAlgoAt_seg h hm
  rw [authTruncAt, halgo, hlen]

omit [HostOrder] in
/-- authentication with no more than a string for a name -/
def XfrmnlAlgoAuth.named (a : XfrmnlAlgoAuth) : XfrmnlAlgoAuth := { a with algName := strcpy 64 a.algName }

omit [HostOrder] in
theorem plain_valid {a : XfrmnlAlgoAuth} (h : a.toXfrmnlAlgo.Valid) (hend : (0 : UInt8) ∈ a.algName) :
    a.plain.Valid := by
  have hlt := cstr_length_lt hend
  have hname := h.name
  refine ⟨?_, h.key⟩
  rw [XfrmnlAlgoAuth.plain, strncpy_eq h.name hend]
  exact strcpy_length (by omega)

/-- **Authentication without truncation**, put and read -/
theorem authAt_seg {a : XfrmnlAlgoAuth} (h : a.toXfrmnlAlgo.Valid) (hend : (0 : UInt8) ∈ a.algName)
    (htrunc : a.algTruncLen = 0) {m : Mem} {p : ℕ} (hm : Seg m p a.plain.bytes) : authAt m p = a.named := by
  have hname : strcpy 64 (strcpy 64 a.algName) = strcpy 64 a.algName := by
    unfold strcpy
    have hagain := cstr_strcpy 64 a.algName
    unfold strcpy at hagain
    rw [hagain]
  rw [authAt, algoAt_seg (plain_valid h hend) hm, XfrmnlAlgoAuth.named, XfrmnlAlgoAuth.plain, strncpy_eq h.name hend]
  simp only [hname, htrunc]

/-! ## Encapsulation -/

omit [HostOrder] in
/-- an encapsulation for an association of the family -/
def XfrmnlEncapTmpl.Valid (family : BitVec 16) (e : XfrmnlEncapTmpl) : Prop := OfFamily family e.encapOa

theorem encapPieces_laidOut {family : BitVec 16} {e : XfrmnlEncapTmpl} (h : e.Valid family) :
    laidOut 0 24 (encapPieces e) := by
  have hle := OfFamily.le h
  simp only [encapPieces, laidOut, u16Bytes_length, be16Bytes_length]
  omega

theorem encapAt_holds {family : BitVec 16} {e : XfrmnlEncapTmpl} (h : e.Valid family) {m : Mem} {p : ℕ}
    (hm : Holds m p (encapPieces e)) : encapAt family m p = e := by
  obtain ⟨htype, hsport, hdport, hoa, -⟩ := hm
  rw [add_zero] at htype
  rw [encapAt, seg_u16At htype, hsport.getBe16, hdport.getBe16, addrAt_seg h hoa]

/-! ## Replay states -/

theorem replay_length (r : XfrmnlReplayState) : r.bytes.length = 12 := by
  simp only [XfrmnlReplayState.bytes, List.length_append, u32Bytes_length]

theorem replayAt_seg {r : XfrmnlReplayState} {m : Mem} {p : ℕ} (hm : Seg m p r.bytes) : replayAt m p = r := by
  simp only [XfrmnlReplayState.bytes, seg_append, u32Bytes_length, add_assoc, Nat.reduceAdd] at hm
  obtain ⟨hoseq, hseq, hbitmap⟩ := hm
  rw [replayAt, seg_u32At hoseq, seg_u32At hseq, seg_u32At hbitmap]

theorem replayEsn_length (r : XfrmnlReplayStateEsn) : r.bytes.length = 24 + r.bmp.length := by
  simp only [XfrmnlReplayStateEsn.bytes, List.length_append, u32Bytes_length]
  omega

theorem replayEsnAt_length (m : Mem) (p : ℕ) : (replayEsnAt m p).bmp.length = 4 * (replayEsnAt m p).bmpLen.toNat :=
  readBytes_length _ _ _

theorem replayEsnAt_seg {r : XfrmnlReplayStateEsn} (h : r.bmp.length = 4 * r.bmpLen.toNat) {m : Mem} {p : ℕ}
    (hm : Seg m p r.bytes) : replayEsnAt m p = r := by
  simp only [XfrmnlReplayStateEsn.bytes, seg_append, u32Bytes_length, add_assoc, Nat.reduceAdd] at hm
  obtain ⟨hlen, hoseq, hseq, hoseqhi, hseqhi, hwindow, hbmp⟩ := hm
  have hread := hbmp.readBytes
  rw [h] at hread
  rw [replayEsnAt, seg_u32At hlen, seg_u32At hoseq, seg_u32At hseq, seg_u32At hoseqhi, seg_u32At hseqhi, seg_u32At hwindow,
    hread]

/-! ## Care-of addresses -/

theorem nlAddrHead_length (a : NlAddr) : (nlAddrHead a).length = 16 := by
  simp only [nlAddrHead, List.length_append, u32Bytes_length]

/-- what comes back of a care-of address -/
def coaddrAgain (family : BitVec 16) (a : NlAddr) : NlAddr :=
  nlAddrBuild family.toNat ((nlAddrHead a).take (addrSize family))

theorem coaddrAt_head {family : BitVec 16} {a : NlAddr} {m : Mem} {p : ℕ} (hm : Seg m p (nlAddrHead a)) :
    addrAt family m p = coaddrAgain family a := by
  have hlen := nlAddrHead_length a
  have hle := addrSize_le family
  rw [← List.take_append_drop (addrSize family) (nlAddrHead a)] at hm
  have hread := (seg_append.1 hm).1.readBytes
  rw [List.length_take, hlen, min_eq_left hle] at hread
  rw [addrAt, coaddrAgain, hread]

/-- an address that reads like the members in front of it: its family; and, if it has sixteen bytes, also its size, its
length and the length of its prefix -/
def LooksLikeHead (a : NlAddr) : Prop :=
  a.aAddr = if a.aFamily = AF_INET then u32Bytes 2
    else u32Bytes (toU32 a.aFamily) ++ (u32Bytes 16 ++ (u32Bytes 16 ++ u32Bytes (if a.aFamily = AF_MPLS then 20 else 128)))

/-- **When a care-of address comes back** -/
theorem coaddr_again_iff {family : BitVec 16} {a : NlAddr} (h : OfFamily family a) :
    coaddrAgain family a = a ↔ LooksLikeHead a := by
  have hfam : a.aFamily = family.toNat := by rw [h.built, nlAddrBuild]
  have hagain : coaddrAgain family a = a ↔ (nlAddrHead a).take (addrSize family) = a.aAddr := by
    constructor
    · intro heq
      exact congrArg NlAddr.aAddr heq
    · intro heq
      rw [coaddrAgain, heq]
      exact h.built.symm
  rw [hagain, LooksLikeHead, eq_comm, hfam]
  by_cases hinet : (family.toNat : ℤ) = AF_INET
  · have hsize : addrSize family = 4 := if_pos hinet
    have htwo : toU32 (AF_INET : ℤ) = 2 := rfl
    rw [if_pos hinet, hsize, nlAddrHead, hfam, hinet, htwo, List.take_left' (u32Bytes_length 2)]
  · have hsize : addrSize family = 16 := if_neg hinet
    have hlen : a.aAddr.length = 16 := h.length.trans hsize
    have hbits : a.aPrefixlen = if (family.toNat : ℤ) = AF_MPLS then 20 else 128 := by
      rw [h.built, nlAddrBuild, hlen]
      rfl
    have hu32 : toU32 a.aPrefixlen = if (family.toNat : ℤ) = AF_MPLS then 20 else 128 := by
      rw [hbits]
      split_ifs <;> rfl
    rw [if_neg hinet, hsize, List.take_of_length_le (nlAddrHead_length a).le, nlAddrHead, hfam, hlen, hu32]

/-! ## The header -/

omit [HostOrder] in
/-- a header with a valid selector, and addresses of its family -/
structure SaInfo.Valid (info : SaInfo) : Prop where
  sel : info.sel.Valid
  daddr : OfFamily info.family info.id.daddr
  saddr : OfFamily info.family info.saddr

/-- the members of the header that the builder stores -/
def saInfoPieces (info : SaInfo) : Pieces :=
  selPieces info.sel ++
    ([(56, info.id.daddr.aAddr), (72, be32Bytes info.id.spi), (76, [UInt8.ofBitVec info.id.proto]),
      (80, info.saddr.aAddr)] ++ (shift 96 (ltimeCfgPieces info.lft) ++
    [(208, u32Bytes info.reqid.toNat), (212, u16Bytes info.family.toNat), (214, [UInt8.ofBitVec info.mode]),
      (215, [UInt8.ofBitVec info.replayWindow]), (216, [UInt8.ofBitVec info.flags])]))

theorem saInfoPieces_laidOut {info : SaInfo} (h : info.Valid) : laidOut 0 224 (saInfoPieces info) := by
  have hd := h.daddr.le
  have hs := h.saddr.le
  have haddrs : laidOut 56 96 [(56, info.id.daddr.aAddr), (72, be32Bytes info.id.spi),
      (76, [UInt8.ofBitVec info.id.proto]), (80, info.saddr.aAddr)] := by
    simp only [laidOut, be32Bytes_length, List.length_cons, List.length_nil]
    omega
  have hrest : laidOut 160 224 [(208, u32Bytes info.reqid.toNat), (212, u16Bytes info.family.toNat),
      (214, [UInt8.ofBitVec info.mode]), (215, [UInt8.ofBitVec info.replayWindow]),
      (216, [UInt8.ofBitVec info.flags])] := by
    simp only [laidOut, u16Bytes_length, u32Bytes_length, List.length_cons, List.length_nil]
    omega
  exact laidOut_append (selPieces_laidOut h.sel) (laidOut_append haddrs
    (laidOut_append (laidOut_shift (ltimeCfgPieces_laidOut info.lft)) hrest))

/-- **A header, put and read**; what the builder leaves out is that of the memory -/
theorem saInfoAt_holds {info : SaInfo} (h : info.Valid) {m : Mem} {p : ℕ} (hm : Holds m p (saInfoPieces info)) :
    saInfoAt m p = { info with
      curlft := (saInfoAt m p).curlft
      stats := (saInfoAt m p).stats
      seq := (saInfoAt m p).seq } := by
  obtain ⟨hsel, haddrs⟩ := holds_append.1 hm
  obtain ⟨⟨hdaddr, hspi, hproto, hsaddr, -⟩, hmore⟩ := holds_append.1 haddrs
  obtain ⟨hlft, hreqid, hfamily, hmode, hwindow, hflags, -⟩ := holds_append.1 hmore
  rw [holds_shift] at hlft
  have hfam : u16At m (p + 212) = info.family := seg_u16At hfamily
  simp only [saInfoAt, hfam, selAt_holds h.sel hsel, addrAt_seg h.daddr hdaddr, hspi.getBe32, seg_u8At hproto,
    addrAt_seg h.saddr hsaddr, ltimeCfgAt_holds hlft, seg_u32At hreqid, seg_u8At hmode, seg_u8At hwindow, seg_u8At hflags]

theorem saInfoAt_valid (m : Mem) (p : ℕ) : (saInfoAt m p).Valid :=
  ⟨selAt_valid m p, addrAt_ofFamily _ _ _, addrAt_ofFamily _ _ _⟩

/-! ## The attributes -/

omit [HostOrder] in
/-- attributes as they are read of a well-formed message, for an association of the family -/
structure SaAttrs.Valid (family : BitVec 16) (a : SaAttrs) : Prop where
  aead : ∀ x ∈ a.aead, x.toXfrmnlAlgo.Valid ∧ 76 + x.algKey.length ≤ 65535
  auth : ∀ x ∈ a.auth, x.toXfrmnlAlgo.Valid ∧ (0 : UInt8) ∈ x.algName
  authFits : ∀ x ∈ a.auth, (if x.algTruncLen = 0 then 72 else 76) + x.algKey.length ≤ 65535
  crypt : ∀ x ∈ a.crypt, x.Valid ∧ 72 + x.algKey.length ≤ 65535
  comp : ∀ x ∈ a.comp, x.Valid ∧ 72 + x.algKey.length ≤ 65535
  encap : ∀ e ∈ a.encap, e.Valid family
  coaddr : ∀ x ∈ a.coaddr, OfFamily family x
  secCtx : ∀ s ∈ a.secCtx, s.ctx.length = s.ctxLen.toNat ∧ 12 + s.ctx.length ≤ 65535
  esn : ∀ r ∈ a.replayStateEsn, r.bmp.length = 4 * r.bmpLen.toNat ∧ 28 + r.bmp.length ≤ 65535
  one : a.replayStateEsn.isSome = true → a.replayState = none

/-- attributes as the builder puts them, the encapsulation as some bytes -/
def saAttrFields (a : SaAttrs) (encap : Option (List UInt8)) : FieldList :=
  [(XFRMA_ALG_AEAD, a.aead.map XfrmnlAlgoAead.bytes),
    (XFRMA_ALG_AUTH_TRUNC, (a.auth.filter fun x => x.algTruncLen ≠ 0).map XfrmnlAlgoAuth.bytes),
    (XFRMA_ALG_AUTH, (a.auth.filter fun x => x.algTruncLen = 0).map fun x => x.plain.bytes),
    (XFRMA_ALG_CRYPT, a.crypt.map XfrmnlAlgo.bytes), (XFRMA_ALG_COMP, a.comp.map XfrmnlAlgo.bytes), (XFRMA_ENCAP, encap),
    (XFRMA_TFCPAD, a.tfcpad.map fun v => u32Bytes v.toNat), (XFRMA_COADDR, a.coaddr.map nlAddrHead),
    (XFRMA_MARK, a.mark.map XfrmnlMark.bytes), (XFRMA_SEC_CTX, a.secCtx.map XfrmnlUserSecCtx.bytes),
    (XFRMA_ETIMER_THRESH, a.replayMaxage.map fun v => u32Bytes v.toNat),
    (XFRMA_REPLAY_THRESH, a.replayMaxdiff.map fun v => u32Bytes v.toNat),
    (XFRMA_REPLAY_ESN_VAL, a.replayStateEsn.map XfrmnlReplayStateEsn.bytes),
    (XFRMA_REPLAY_VAL, a.replayState.map XfrmnlReplayState.bytes)]

theorem saAttrFields_distinct (a : SaAttrs) (encap : Option (List UInt8)) : Distinct (saAttrFields a encap) := by
  show List.Nodup _
  simp only [saAttrFields, List.map_cons, List.map_nil]
  decide

/-- bytes that hold this encapsulation -/
def HoldEncap (e : XfrmnlEncapTmpl) (payload : List UInt8) : Prop :=
  payload.length = 24 ∧ ∀ buf p, Seg buf p payload → Holds buf p (encapPieces e)

omit [HostOrder] in
/-- a structure of this length at least, where there is one -/
theorem sends_struct {γ : Type} {n : ℕ} (hn : n ≠ 0) {o : Option γ} {enc : γ → List UInt8}
    (ho : ∀ x ∈ o, n ≤ (enc x).length ∧ 4 + (enc x).length ≤ 65535) : Sends ⟨.unspec, n, 0⟩ (o.map enc) := by
  refine sends_min rfl (by simp) fun q hq => ?_
  obtain ⟨x, hx, rfl⟩ := Option.mem_map.1 hq
  obtain ⟨hmin, hfit⟩ := ho x hx
  refine ⟨hfit, ?_⟩
  rw [if_pos hn]
  exact hmin

theorem saAttrFields_sendable {family : BitVec 16} {a : SaAttrs} (ha : a.Valid family) {encap : Option (List UInt8)}
    (h : Option.Rel HoldEncap a.encap encap) : Sendable xfrmSaPolicy (saAttrFields a encap) := by
  have haead : Sends ⟨.unspec, 72, 0⟩ (a.aead.map XfrmnlAlgoAead.bytes) := sends_struct (by decide) fun x hx => by
    have hlen : x.bytes.length = _ := longAlgo_length (ha.aead x hx).1 x.algIcvLen
    have hfit := (ha.aead x hx).2
    omega
  have htrunc : Sends ⟨.unspec, 72, 0⟩ ((a.auth.filter fun x => x.algTruncLen ≠ 0).map XfrmnlAlgoAuth.bytes) :=
    sends_struct (by decide) fun x hx => by
      obtain ⟨hmem, hne⟩ := Option.mem_filter_iff.1 hx
      have hlen : x.bytes.length = _ := longAlgo_length (ha.auth x hmem).1 x.algTruncLen
      have hfit := ha.authFits x hmem
      rw [if_neg (of_decide_eq_true hne)] at hfit
      omega
  have hauth : Sends ⟨.unspec, 68, 0⟩ ((a.auth.filter fun x => x.algTruncLen = 0).map fun x => x.plain.bytes) :=
    sends_struct (by decide) fun x hx => by
      obtain ⟨hmem, hz⟩ := Option.mem_filter_iff.1 hx
      obtain ⟨hvalid, hend⟩ := ha.auth x hmem
      have hlen := algo_length (plain_valid hvalid hend)
      have hkey : x.plain.algKey = x.algKey := rfl
      have hfit := ha.authFits x hmem
      rw [if_pos (of_decide_eq_true hz)] at hfit
      rw [hkey] at hlen
      omega
  have halgo : ∀ o : Option XfrmnlAlgo, (∀ x ∈ o, x.Valid ∧ 72 + x.algKey.length ≤ 65535) →
      Sends ⟨.unspec, 68, 0⟩ (o.map XfrmnlAlgo.bytes) := fun o ho => sends_struct (by decide) fun x hx => by
    have hlen := algo_length (ho x hx).1
    have hfit := (ho x hx).2
    omega
  have hencap : Sends ⟨.unspec, 24, 0⟩ encap := sends_min rfl (by decide) fun q hq => by
    rw [Option.mem_def.1 hq] at h
    have hlen : q.length = 24 := by
      generalize a.encap = e at h
      cases h with
      | some hold => exact hold.1
    exact ⟨by omega, show 24 ≤ q.length by omega⟩
  have hcoaddr : Sends ⟨.unspec, 16, 0⟩ (a.coaddr.map nlAddrHead) := sends_struct (by decide) fun x _ => by
    have hlen := nlAddrHead_length x
    omega
  have hmark : Sends ⟨.unspec, 8, 0⟩ (a.mark.map XfrmnlMark.bytes) := sends_struct (by decide) fun x _ => by
    have hlen := mark_length x
    omega
  have hsec : Sends ⟨.unspec, 8, 0⟩ (a.secCtx.map XfrmnlUserSecCtx.bytes) := sends_struct (by decide) fun s hs => by
    have hlen := secCtx_length s
    have hfit := (ha.secCtx s hs).2
    omega
  have hesn : Sends ⟨.unspec, 24, 0⟩ (a.replayStateEsn.map XfrmnlReplayStateEsn.bytes) := sends_struct (by decide) fun r hr => by
    have hlen := replayEsn_length r
    have hfit := (ha.esn r hr).2
    omega
  have hreplay : Sends ⟨.unspec, 12, 0⟩ (a.replayState.map XfrmnlReplayState.bytes) := sends_struct (by decide) fun r _ => by
    have hlen := replay_length r
    omega
  exact Sendable.cons (by decide) haead (Sendable.cons (by decide) htrunc (Sendable.cons (by decide) hauth
    (Sendable.cons (by decide) (halgo a.crypt ha.crypt) (Sendable.cons (by decide) (halgo a.comp ha.comp)
    (Sendable.cons (by decide) hencap (Sendable.cons (by decide) (sends_u32 rfl a.tfcpad)
    (Sendable.cons (by decide) hcoaddr (Sendable.cons (by decide) hmark (Sendable.cons (by decide) hsec
    (Sendable.cons (by decide) (sends_u32 rfl a.replayMaxage) (Sendable.cons (by decide) (sends_u32 rfl a.replayMaxdiff)
    (Sendable.cons (by decide) hesn (Sendable.cons (by decide) hreplay (Sendable.nil _))))))))))))))

/-- what comes back of authentication: a name with nothing behind it if there is no truncation -/
def XfrmnlAlgoAuth.again (x : XfrmnlAlgoAuth) : XfrmnlAlgoAuth := if x.algTruncLen = 0 then x.named else x

/-- what comes back of the attributes -/
def SaAttrs.again (family : BitVec 16) (a : SaAttrs) : SaAttrs :=
  { a with auth := a.auth.map XfrmnlAlgoAuth.again, coaddr := a.coaddr.map (coaddrAgain family) }

/-- **What is read** of attributes that were put -/
theorem read_saAttrs {buf : Mem} {tb : Index} {family : BitVec 16} {a : SaAttrs} (ha : a.Valid family)
    {encap : Option (List UInt8)} (hput : Option.Rel HoldEncap a.encap encap)
    (h : Indexes buf XFRMA_MAX (leavesOf (saAttrFields a encap)) tb) :
    readSaAttrs family buf tb = a.again family := by
  have hget : ∀ i t p, (saAttrFields a encap)[i]? = some (t, p) → t ≤ XFRMA_MAX → Shown buf tb t p := fun i t p hi ht =>
    shown_plain h (saAttrFields_distinct a encap) (by decide) (List.mem_of_getElem? hi) ht
  have haead := (hget 0 XFRMA_ALG_AEAD _ rfl (by decide)).same fun _ _ x hx hat =>
    aeadAt_seg (ha.aead x hx).1 hat.data
  have htrunc := (hget 1 XFRMA_ALG_AUTH_TRUNC _ rfl (by decide)).same fun _ _ x hx hat =>
    authTruncAt_seg (ha.auth x (Option.mem_filter_iff.1 hx).1).1 hat.data
  have hauth := (hget 2 XFRMA_ALG_AUTH _ rfl (by decide)).map fun _ _ x hx hat => by
    obtain ⟨hmem, hz⟩ := Option.mem_filter_iff.1 hx
    exact authAt_seg (ha.auth x hmem).1 (ha.auth x hmem).2 (of_decide_eq_true hz) hat.data
  have hcrypt := (hget 3 XFRMA_ALG_CRYPT _ rfl (by decide)).same fun _ _ x hx hat =>
    algoAt_seg (ha.crypt x hx).1 hat.data
  have hcomp := (hget 4 XFRMA_ALG_COMP _ rfl (by decide)).same fun _ _ x hx hat =>
    algoAt_seg (ha.comp x hx).1 hat.data
  have htfcpad := (hget 6 XFRMA_TFCPAD _ rfl (by decide)).u32
  have hcoaddr : (tb XFRMA_COADDR).map (fun p => addrAt family buf (nlaData p)) = a.coaddr.map (coaddrAgain family) :=
    (hget 7 XFRMA_COADDR _ rfl (by decide)).map fun _ _ _ _ hat => coaddrAt_head hat.data
  have hmark := (hget 8 XFRMA_MARK _ rfl (by decide)).same fun _ _ _ _ hat => markAt_seg hat.data
  have hsec := (hget 9 XFRMA_SEC_CTX _ rfl (by decide)).same fun _ _ s hs hat =>
    secCtxAt_seg (ha.secCtx s hs).1 hat.data
  have hmaxage := (hget 10 XFRMA_ETIMER_THRESH _ rfl (by decide)).u32
  have hmaxdiff := (hget 11 XFRMA_REPLAY_THRESH _ rfl (by decide)).u32
  have hshownesn := hget 12 XFRMA_REPLAY_ESN_VAL _ rfl (by decide)
  have hesn := hshownesn.same fun _ _ r hr hat => replayEsnAt_seg (ha.esn r hr).1 hat.data
  have hreplay := (hget 13 XFRMA_REPLAY_VAL _ rfl (by decide)).same fun _ _ _ _ hat => replayAt_seg hat.data
  have hencap : (tb XFRMA_ENCAP).map (fun p => encapAt family buf (nlaData p)) = a.encap := by
    have hshown := hget 5 XFRMA_ENCAP _ rfl (by decide)
    have hvalid := ha.encap
    generalize a.encap = e at hput hvalid
    cases hput with
    | none =>
      have hnone : tb XFRMA_ENCAP = none := hshown
      rw [hnone]
      rfl
    | some hold =>
      obtain ⟨pos, type, hpos, hat⟩ := hshown
      have hread := encapAt_holds (hvalid _ rfl) (hold.2 buf (nlaData pos) hat.data)
      have htb : tb XFRMA_ENCAP = some pos := hpos
      rw [htb, Option.map_some, hread]
  have hauthall : ((tb XFRMA_ALG_AUTH_TRUNC).map fun p => authTruncAt buf (nlaData p)).or
      ((tb XFRMA_ALG_AUTH).map fun p => authAt buf (nlaData p)) = a.auth.map XfrmnlAlgoAuth.again := by
    rw [htrunc, hauth]
    cases a.auth with
    | none => rfl
    | some x =>
      by_cases hz : x.algTruncLen = 0#32
      · simp [XfrmnlAlgoAuth.again, hz]
      · simp [XfrmnlAlgoAuth.again, hz]
  have hreplayall : (if (tb XFRMA_REPLAY_ESN_VAL).isSome then none
      else (tb XFRMA_REPLAY_VAL).map fun p => replayAt buf (nlaData p)) = a.replayState := by
    rw [hshownesn.isSome, hreplay, Option.isSome_map]
    split_ifs with hsome
    · exact (ha.one hsome).symm
    · rfl
  rw [readSaAttrs, haead, hauthall, hcrypt, hcomp, hencap, htfcpad, hcoaddr, hmark, hsec, hmaxage, hmaxdiff, hesn, hreplayall,
    SaAttrs.again]

end

/-! ## The object -/

theorem saBits_separate (expire : Bool) (a : SaAttrs) : separate ((saBits expire a).map Prod.fst) = true := by
  simp only [saBits, List.map_cons, List.map_nil]
  rfl

section

variable (msgtype : ℤ) (info : SaInfo) (a : SaAttrs)

theorem has_saOf (i : ℕ) (bit : BitVec 64) {there : Bool} (h : (saBits false a)[i]? = some (bit, there)) :
    has (saOf msgtype none info a) bit = there :=
  has_of_mask rfl (saBits_separate false a) (List.mem_of_getElem? h)

variable [HostOrder]

/-- the header of the message that is built -/
theorem saPieces_saOf : saPieces (saOf msgtype none info a) = saInfoPieces info := by
  have hsel := has_saOf msgtype info a 1 XFRM_SA_ATTR_SEL rfl
  have hsaddr := has_saOf msgtype info a 5 XFRM_SA_ATTR_SADDR rfl
  have hlft := has_saOf msgtype info a 6 XFRM_SA_ATTR_LTIME_CFG rfl
  have hreqid := has_saOf msgtype info a 10 XFRM_SA_ATTR_REQID rfl
  have hfamily := has_saOf msgtype info a 11 XFRM_SA_ATTR_FAMILY rfl
  have hmode := has_saOf msgtype info a 12 XFRM_SA_ATTR_MODE rfl
  have hwindow := has_saOf msgtype info a 13 XFRM_SA_ATTR_REPLAY_WIN rfl
  have hflags := has_saOf msgtype info a 14 XFRM_SA_ATTR_FLAGS rfl
  simp only [saPieces, hsel, hsaddr, hlft, hreqid, hfamily, hmode, hwindow, hflags, if_true]
  rfl

omit [HostOrder] in
/-- what is put of a structure that is there or not -/
theorem ifHas_some {γ : Type} {o : SaVal} {bit : BitVec 64} {x : Option γ} (h : has o bit = x.isSome)
    (enc : γ → List UInt8) : ifHas o bit ((x.map enc).getD []) = x.map enc := by
  rw [ifHas, h]
  cases x with
  | none => rfl
  | some v => rfl

/-- the attributes in front of the encapsulation, and behind it -/
def saHeadFields (a : SaAttrs) : FieldList := (saAttrFields a none).take 5

def saTailFields (a : SaAttrs) : FieldList := (saAttrFields a none).drop 6

theorem saFields_saOf : saFields (saOf msgtype none info a) = saHeadFields a := by
  have haead := ifHas_some (has_saOf msgtype info a 15 XFRM_SA_ATTR_ALG_AEAD rfl) XfrmnlAlgoAead.bytes
  have hauth := has_saOf msgtype info a 16 XFRM_SA_ATTR_ALG_AUTH rfl
  have hcrypt := ifHas_some (has_saOf msgtype info a 17 XFRM_SA_ATTR_ALG_CRYPT rfl) XfrmnlAlgo.bytes
  have hcomp := ifHas_some (has_saOf msgtype info a 18 XFRM_SA_ATTR_ALG_COMP rfl) XfrmnlAlgo.bytes
  have hgiven : (if has (saOf msgtype none info a) XFRM_SA_ATTR_ALG_AUTH then a.auth else none) = a.auth := by
    rw [hauth]
    cases a.auth with
    | none => rfl
    | some x => rfl
  have hdata : (saOf msgtype none info a).data.aead = a.aead ∧ (saOf msgtype none info a).data.auth = a.auth ∧
      (saOf msgtype none info a).data.crypt = a.crypt ∧ (saOf msgtype none info a).data.comp = a.comp :=
    ⟨rfl, rfl, rfl, rfl⟩
  simp only [saFields, hdata, haead, hgiven, hcrypt, hcomp]
  rfl

theorem saLastFields_saOf (hone : a.replayStateEsn.isSome = true → a.replayState = none) :
    saLastFields (saOf msgtype none info a) = saTailFields a := by
  have htfcpad := ifHas_getD (has_saOf msgtype info a 20 XFRM_SA_ATTR_TFCPAD rfl) 0 fun v => u32Bytes v.toNat
  have hcoaddr := ifHas_some (has_saOf msgtype info a 21 XFRM_SA_ATTR_COADDR rfl) nlAddrHead
  have hmark := ifHas_getD (has_saOf msgtype info a 22 XFRM_SA_ATTR_MARK rfl) (⟨0, 0⟩ : XfrmnlMark) XfrmnlMark.bytes
  have hsec := ifHas_some (has_saOf msgtype info a 23 XFRM_SA_ATTR_SECCTX rfl) XfrmnlUserSecCtx.bytes
  have hmaxage := ifHas_getD (has_saOf msgtype info a 24 XFRM_SA_ATTR_REPLAY_MAXAGE rfl) 0 fun v => u32Bytes v.toNat
  have hmaxdiff := ifHas_getD (has_saOf msgtype info a 25 XFRM_SA_ATTR_REPLAY_MAXDIFF rfl) 0 fun v => u32Bytes v.toNat
  have hreplay := has_saOf msgtype info a 26 XFRM_SA_ATTR_REPLAY_STATE rfl
  have hesn : (if has (saOf msgtype none info a) XFRM_SA_ATTR_REPLAY_STATE then
      a.replayStateEsn.map XfrmnlReplayStateEsn.bytes else none) = a.replayStateEsn.map XfrmnlReplayStateEsn.bytes := by
    rw [hreplay]
    cases a.replayStateEsn with
    | none => simp
    | some r => rfl
  have hplain : (if has (saOf msgtype none info a) XFRM_SA_ATTR_REPLAY_STATE && a.replayStateEsn.isNone then
      some (a.replayState.getD ⟨0, 0, 0⟩).bytes else none) = a.replayState.map XfrmnlReplayState.bytes := by
    rw [hreplay]
    cases hes : a.replayStateEsn with
    | none =>
      cases a.replayState with
      | none => rfl
      | some r => rfl
    | some r =>
      rw [hone (by rw [hes]; rfl)]
      rfl
  have hdata : (saOf msgtype none info a).data.tfcpad = a.tfcpad.getD 0 ∧ (saOf msgtype none info a).data.coaddr = a.coaddr ∧
      (saOf msgtype none info a).data.mark = a.mark.getD ⟨0, 0⟩ ∧ (saOf msgtype none info a).data.secCtx = a.secCtx ∧
      (saOf msgtype none info a).data.replayMaxage = a.replayMaxage.getD 0 ∧
      (saOf msgtype none info a).data.replayMaxdiff = a.replayMaxdiff.getD 0 ∧
      (saOf msgtype none info a).data.replayStateEsn = a.replayStateEsn ∧
      (saOf msgtype none info a).data.replayState = a.replayState.getD ⟨0, 0, 0⟩ := ⟨rfl, rfl, rfl, rfl, rfl, rfl, rfl, rfl⟩
  simp only [saLastFields, hdata, htfcpad, hcoaddr, hmark, hsec, hmaxage, hmaxdiff, hesn, hplain]
  rfl

/-! ## Writing -/

/-- bytes that are put for the encapsulation -/
def encapSize (tmpl : SaVal) : ℕ := if has tmpl XFRM_SA_ATTR_ENCAP then 28 else 0

/-- **The encapsulation**, with room -/
theorem putSaEncap_some {family : BitVec 16} {a : SaAttrs} (ha : a.Valid family) :
    PutsSome (putSaEncap (saOf msgtype none info a)) (encapSize (saOf msgtype none info a)) fun ls =>
      ∃ encap, Option.Rel HoldEncap a.encap encap ∧ ls = leavesOf [(XFRMA_ENCAP, encap)] := by
  have hhas := has_saOf msgtype info a 19 XFRM_SA_ATTR_ENCAP rfl
  intro m hm hroom
  unfold encapSize at hroom ⊢
  unfold putSaEncap
  have hdata : (saOf msgtype none info a).data.encap = a.encap := rfl
  rw [hhas] at hroom ⊢
  rw [hdata]
  cases he : a.encap with
  | none =>
    exact ⟨m, [], rfl, ⟨none, .none, rfl⟩, rfl, Wrote.nil hm⟩
  | some e =>
    rw [he] at hroom
    have hlay := encapPieces_laidOut (ha.encap e he)
    obtain ⟨m1, payload, hres, hlen, hw1⟩ := nlaReserve_wrote hm (t := XFRMA_ENCAP) (n := 24) (by decide) (by decide) rfl
      hroom
    rw [← hlen] at hlay
    obtain ⟨b, hblen, hw2, hheld⟩ := Wrote.stores _ payload hw1 hlay
    have hb : b.length = 24 := hblen.trans hlen
    have hbody : inNest (-NLE_MSGSIZE) (nlaReserve m (XFRMA_ENCAP : ℕ) (24 : ℕ)) (fun msg nla =>
        (storeAll msg (nlaData nla) ((Option.map encapPieces (some e)).getD []), 0)) =
        (storeAll m1 (m.nlmsgLen + (nlaHeader (4 + 24) XFRMA_ENCAP).length) (encapPieces e), 0) := by
      rw [hres, inNest_some, nlaHeader_length]
      rfl
    refine ⟨_, [⟨XFRMA_ENCAP, b⟩], hbody, ⟨some b, .some ⟨hb, hheld⟩, rfl⟩, ?_, ?_⟩
    · rw [encLeaves_cons, encLeaves_nil, List.append_nil, encLeaf_length, hb]
      rfl
    · rw [encLeaves_cons, encLeaves_nil, List.append_nil, encLeaf, hb]
      exact (List.append_nil (nlaHeader (4 + 24) XFRMA_ENCAP ++ b)).symm ▸ hw2

theorem keepsType_putSaEncap (tmpl : SaVal) : KeepsType (putSaEncap tmpl) := by
  intro m
  unfold putSaEncap
  by_cases hhas : has tmpl XFRM_SA_ATTR_ENCAP = true
  · rw [if_pos hhas]
    have hres := nlaReserve_type m XFRMA_ENCAP 24
    cases hreserve : nlaReserve m XFRMA_ENCAP 24 with
    | mk m1 pos =>
      rw [hreserve] at hres
      cases pos with
      | none => exact hres
      | some p => exact hres
  · rw [if_neg hhas]

theorem keepsType_putSaAttrs (tmpl : SaVal) : KeepsType (putSaAttrs tmpl) :=
  KeepsType.seq _ (keepsType_putAll _ _) (KeepsType.seq _ (keepsType_putSaEncap tmpl) (keepsType_putAll _ _))

theorem saHeadFields_sendable {family : BitVec 16} {a : SaAttrs} (ha : a.Valid family) :
    Sendable xfrmSaPolicy (saHeadFields a) ∧ Sendable xfrmSaPolicy (saTailFields a) := by
  have hnone : ({ a with encap := none } : SaAttrs).Valid family :=
    { ha with encap := nofun }
  have hsend := saAttrFields_sendable hnone .none
  exact ⟨hsend.sub fun f hf => List.mem_of_mem_take hf, hsend.sub fun f hf => List.mem_of_mem_drop hf⟩

/-- bytes of the attributes of the message for an association -/
def saAttrsSize (tmpl : SaVal) : ℕ :=
  (encLeaves (leavesOf (saFields tmpl))).length + (encapSize tmpl + (encLeaves (leavesOf (saLastFields tmpl))).length)

/-- **All attributes**, with room -/
theorem putSaAttrs_some {family : BitVec 16} {a : SaAttrs} (ha : a.Valid family) :
    PutsSome (putSaAttrs (saOf msgtype none info a)) (saAttrsSize (saOf msgtype none info a)) fun ls =>
      ∃ encap, Option.Rel HoldEncap a.encap encap ∧ ls = leavesOf (saAttrFields a encap) := by
  obtain ⟨hhead, htail⟩ := saHeadFields_sendable ha
  rw [← saFields_saOf msgtype info a] at hhead
  rw [← saLastFields_saOf msgtype info a ha.one] at htail
  have hputs := (putsSome_putAll (-NLE_MSGSIZE) hhead.wf).seq (-NLE_MSGSIZE)
    ((putSaEncap_some msgtype info ha).seq (-NLE_MSGSIZE) (putsSome_putAll (-NLE_MSGSIZE) htail.wf))
  intro m hm hroom
  obtain ⟨m', ls, hput, ⟨xs, ys, rfl, ⟨us, zs, ⟨encap, hencap, rfl⟩, rfl, rfl⟩, rfl⟩, hlen, hw⟩ := hputs m hm hroom
  refine ⟨m', _, hput, ⟨encap, hencap, ?_⟩, hlen, hw⟩
  rw [saFields_saOf, saLastFields_saOf _ _ _ ha.one, ← leavesOf_append, ← leavesOf_append]
  rfl

theorem saAttrsSize_le {family : BitVec 16} {a : SaAttrs} (ha : a.Valid family) :
    saAttrsSize (saOf msgtype none info a) ≤ 917504 := by
  obtain ⟨hhead, htail⟩ := saHeadFields_sendable ha
  have h1 := hhead.length_le
  have h2 := htail.length_le
  have h3 : encapSize (saOf msgtype none info a) ≤ 28 := by
    unfold encapSize
    split_ifs
    · exact le_rfl
    · exact Nat.zero_le _
  rw [show (saHeadFields a).length = 5 from rfl] at h1
  rw [show (saTailFields a).length = 8 from rfl] at h2
  rw [saAttrsSize, saFields_saOf, saLastFields_saOf _ _ _ ha.one]
  omega

end

/-! ## There and back -/

section

variable [HostOrder]

/-- what the attributes of a message say about their lengths is so, and names end -/
structure WellFormedSaAt (buf : Mem) (tb : Index) : Prop where
  aead : ∀ nla, tb XFRMA_ALG_AEAD = some nla → 72 + (keyBytes (u32At buf (nlaData nla + 64)) : ℤ) ≤ nlaLen buf nla
  authTrunc : ∀ nla, tb XFRMA_ALG_AUTH_TRUNC = some nla →
    72 + (keyBytes (u32At buf (nlaData nla + 64)) : ℤ) ≤ nlaLen buf nla ∧ (0 : UInt8) ∈ readBytes buf (nlaData nla) 64
  auth : ∀ nla, tb XFRMA_ALG_AUTH = some nla →
    68 + (keyBytes (u32At buf (nlaData nla + 64)) : ℤ) ≤ nlaLen buf nla ∧ (0 : UInt8) ∈ readBytes buf (nlaData nla) 64
  crypt : ∀ nla, tb XFRMA_ALG_CRYPT = some nla → 68 + (keyBytes (u32At buf (nlaData nla + 64)) : ℤ) ≤ nlaLen buf nla
  comp : ∀ nla, tb XFRMA_ALG_COMP = some nla → 68 + (keyBytes (u32At buf (nlaData nla + 64)) : ℤ) ≤ nlaLen buf nla
  secCtx : ∀ nla, tb XFRMA_SEC_CTX = some nla → 8 + ((u16At buf (nlaData nla + 6)).toNat : ℤ) ≤ nlaLen buf nla
  esn : ∀ nla, tb XFRMA_REPLAY_ESN_VAL = some nla → 24 + 4 * ((u32At buf (nlaData nla)).toNat : ℤ) ≤ nlaLen buf nla

def WellFormedSa (n : NlMsg) : Prop := WellFormedSaAt n.buf (nlmsgParse n 224 XFRMA_MAX (some xfrmSaPolicy)).2

theorem nlaLen_fits (buf : Mem) (nla : ℕ) : nlaLen buf nla ≤ 65531 := by
  have hlt : nlaLenField buf nla < 65536 := getU16_lt _ _
  unfold nlaLen NLA_HDRLEN
  omega

theorem algoAt_fits {buf : Mem} {nla : ℕ} (h : 68 + (keyBytes (u32At buf (nlaData nla + 64)) : ℤ) ≤ nlaLen buf nla) :
    72 + (algoAt buf (nlaData nla)).algKey.length ≤ 65535 := by
  have hfit := nlaLen_fits buf nla
  rw [(algoAt_valid buf (nlaData nla)).key]
  show 72 + keyBytes (u32At buf (nlaData nla + 64)) ≤ 65535
  omega

theorem longAlgoAt_fits {buf : Mem} {nla : ℕ} (h : 72 + (keyBytes (u32At buf (nlaData nla + 64)) : ℤ) ≤ nlaLen buf nla) :
    76 + (longAlgoAt buf (nlaData nla)).algKey.length ≤ 65535 := by
  have hfit := nlaLen_fits buf nla
  rw [(longAlgoAt_valid buf (nlaData nla)).key]
  show 76 + keyBytes (u32At buf (nlaData nla + 64)) ≤ 65535
  omega

/-- authentication comes from one of two attributes -/
theorem auth_cases {family : BitVec 16} {buf : Mem} {tb : Index} {x : XfrmnlAlgoAuth}
    (h : x ∈ (readSaAttrs family buf tb).auth) :
    (∃ nla, tb XFRMA_ALG_AUTH_TRUNC = some nla ∧ x = authTruncAt buf (nlaData nla)) ∨
      ∃ nla, tb XFRMA_ALG_AUTH = some nla ∧ x = authAt buf (nlaData nla) := by
  rcases Option.or_eq_some_iff.1 h with htrunc | ⟨-, hauth⟩
  · obtain ⟨nla, hnla, hx⟩ := Option.map_eq_some_iff.1 htrunc
    exact Or.inl ⟨nla, hnla, hx.symm⟩
  · obtain ⟨nla, hnla, hx⟩ := Option.map_eq_some_iff.1 hauth
    exact Or.inr ⟨nla, hnla, hx.symm⟩

theorem readSaAttrs_valid {family : BitVec 16} {buf : Mem} {tb : Index} (h : WellFormedSaAt buf tb) :
    (readSaAttrs family buf tb).Valid family where
  aead x hx := by
    obtain ⟨nla, hnla, rfl⟩ := Option.mem_map.1 hx
    exact ⟨longAlgoAt_valid _ _, longAlgoAt_fits (h.aead nla hnla)⟩
  auth x hx := by
    rcases auth_cases hx with ⟨nla, hnla, rfl⟩ | ⟨nla, hnla, rfl⟩
    · exact ⟨longAlgoAt_valid _ _, (h.authTrunc nla hnla).2⟩
    · have hlt := cstr_length_lt (h.auth nla hnla).2
      rw [readBytes_length] at hlt
      exact ⟨⟨strcpy_length hlt.le, (algoAt_valid buf (nlaData nla)).key⟩, strcpy_ends hlt⟩
  authFits x hx := by
    rcases auth_cases hx with ⟨nla, hnla, rfl⟩ | ⟨nla, hnla, rfl⟩
    · have hfit : 76 + (authTruncAt buf (nlaData nla)).algKey.length ≤ 65535 := longAlgoAt_fits (h.authTrunc nla hnla).1
      split_ifs <;> omega
    · have hz : (authAt buf (nlaData nla)).algTruncLen = 0 := rfl
      rw [if_pos hz]
      exact algoAt_fits (h.auth nla hnla).1
  crypt x hx := by
    obtain ⟨nla, hnla, rfl⟩ := Option.mem_map.1 hx
    exact ⟨algoAt_valid _ _, algoAt_fits (h.crypt nla hnla)⟩
  comp x hx := by
    obtain ⟨nla, hnla, rfl⟩ := Option.mem_map.1 hx
    exact ⟨algoAt_valid _ _, algoAt_fits (h.comp nla hnla)⟩
  encap e he := by
    obtain ⟨nla, -, rfl⟩ := Option.mem_map.1 he
    exact addrAt_ofFamily _ _ _
  coaddr x hx := by
    obtain ⟨nla, -, rfl⟩ := Option.mem_map.1 hx
    exact addrAt_ofFamily _ _ _
  secCtx s hs := by
    obtain ⟨nla, hnla, rfl⟩ := Option.mem_map.1 hs
    have hin := h.secCtx nla hnla
    have hfit := nlaLen_fits buf nla
    have hctx := secCtxAt_length buf (nlaData nla)
    refine ⟨hctx, ?_⟩
    rw [hctx]
    show 12 + (u16At buf (nlaData nla + 6)).toNat ≤ 65535
    omega
  esn r hr := by
    obtain ⟨nla, hnla, rfl⟩ := Option.mem_map.1 hr
    have hin := h.esn nla hnla
    have hfit := nlaLen_fits buf nla
    have hbmp := replayEsnAt_length buf (nlaData nla)
    refine ⟨hbmp, ?_⟩
    rw [hbmp]
    show 28 + 4 * (u32At buf (nlaData nla)).toNat ≤ 65535
    omega
  one hsome := by
    have hthere : (tb XFRMA_REPLAY_ESN_VAL).isSome = true := by
      rw [← hsome]
      exact (Option.isSome_map ..).symm
    exact if_pos hthere

/-- an algorithm that was put says how long it is -/
theorem algo_put {γ : Type} {buf : Mem} {tb : Index} {t nla : ℕ} {o : Option γ} {algo : γ → XfrmnlAlgo}
    (hvalid : ∀ x ∈ o, (algo x).Valid) (h : Shown buf tb t (o.map fun x => (algo x).bytes)) (hnla : tb t = some nla) :
    68 + (keyBytes (u32At buf (nlaData nla + 64)) : ℤ) ≤ nlaLen buf nla ∧
      ∃ x ∈ o, readBytes buf (nlaData nla) 64 = (algo x).algName := by
  obtain ⟨x, type, hx, hat⟩ := h.found hnla
  have hread := algoAt_seg (hvalid x hx) hat.data
  have hkeylen : u32At buf (nlaData nla + 64) = (algo x).algKeyLen := congrArg XfrmnlAlgo.algKeyLen hread
  have hlen := hat.len
  simp only [algo_length (hvalid x hx), (hvalid x hx).key] at hlen
  refine ⟨?_, x, hx, congrArg XfrmnlAlgo.algName hread⟩
  rw [hkeylen, hlen]
  push_cast
  exact le_rfl

theorem longAlgo_put {γ : Type} {buf : Mem} {tb : Index} {t nla : ℕ} {o : Option γ} {algo : γ → XfrmnlAlgo}
    {len : γ → BitVec 32} (hvalid : ∀ x ∈ o, (algo x).Valid) (h : Shown buf tb t (o.map fun x => (algo x).longBytes (len x)))
    (hnla : tb t = some nla) :
    72 + (keyBytes (u32At buf (nlaData nla + 64)) : ℤ) ≤ nlaLen buf nla ∧
      ∃ x ∈ o, readBytes buf (nlaData nla) 64 = (algo x).algName := by
  obtain ⟨x, type, hx, hat⟩ := h.found hnla
  have hread := (longAlgoAt_seg (hvalid x hx) hat.data).1
  have hkeylen : u32At buf (nlaData nla + 64) = (algo x).algKeyLen := congrArg XfrmnlAlgo.algKeyLen hread
  have hlen := hat.len
  simp only [longAlgo_length (hvalid x hx), (hvalid x hx).key] at hlen
  refine ⟨?_, x, hx, congrArg XfrmnlAlgo.algName hread⟩
  rw [hkeylen, hlen]
  push_cast
  exact le_rfl

/-- **What the builder puts** is well-formed. -/
theorem wellFormed_put {buf : Mem} {tb : Index} {family : BitVec 16} {a : SaAttrs} (ha : a.Valid family)
    {encap : Option (List UInt8)} (h : Indexes buf XFRMA_MAX (leavesOf (saAttrFields a encap)) tb) :
    WellFormedSaAt buf tb := by
  have hget : ∀ i t p, (saAttrFields a encap)[i]? = some (t, p) → t ≤ XFRMA_MAX → Shown buf tb t p := fun i t p hi ht =>
    shown_plain h (saAttrFields_distinct a encap) (by decide) (List.mem_of_getElem? hi) ht
  have haead : Shown buf tb XFRMA_ALG_AEAD (a.aead.map fun x => x.toXfrmnlAlgo.longBytes x.algIcvLen) :=
    hget 0 XFRMA_ALG_AEAD _ rfl (by decide)
  have htrunc : Shown buf tb XFRMA_ALG_AUTH_TRUNC
      ((a.auth.filter fun x => x.algTruncLen ≠ 0).map fun x => x.toXfrmnlAlgo.longBytes x.algTruncLen) :=
    hget 1 XFRMA_ALG_AUTH_TRUNC _ rfl (by decide)
  have hauth : Shown buf tb XFRMA_ALG_AUTH ((a.auth.filter fun x => x.algTruncLen = 0).map fun x => x.plain.bytes) :=
    hget 2 XFRMA_ALG_AUTH _ rfl (by decide)
  have hcrypt : Shown buf tb XFRMA_ALG_CRYPT (a.crypt.map fun x => (id x).bytes) := hget 3 XFRMA_ALG_CRYPT _ rfl (by decide)
  have hcomp : Shown buf tb XFRMA_ALG_COMP (a.comp.map fun x => (id x).bytes) := hget 4 XFRMA_ALG_COMP _ rfl (by decide)
  refine ⟨fun nla hnla => ?_, fun nla hnla => ?_, fun nla hnla => ?_, fun nla hnla => ?_, fun nla hnla => ?_,
    fun nla hnla => ?_, fun nla hnla => ?_⟩
  · exact (longAlgo_put (fun x hx => (ha.aead x hx).1) haead hnla).1
  · have hvalid : ∀ x ∈ a.auth.filter fun x => x.algTruncLen ≠ 0, x.toXfrmnlAlgo.Valid := fun x hx =>
      (ha.auth x (Option.mem_filter_iff.1 hx).1).1
    obtain ⟨hlen, x, hx, hname⟩ := longAlgo_put hvalid htrunc hnla
    rw [hname]
    exact ⟨hlen, (ha.auth x (Option.mem_filter_iff.1 hx).1).2⟩
  · have hvalid : ∀ x ∈ a.auth.filter fun x => x.algTruncLen = 0, x.plain.Valid := fun x hx =>
      plain_valid (ha.auth x (Option.mem_filter_iff.1 hx).1).1 (ha.auth x (Option.mem_filter_iff.1 hx).1).2
    obtain ⟨hlen, x, hx, hname⟩ := algo_put hvalid hauth hnla
    obtain ⟨halgo, hend⟩ := ha.auth x (Option.mem_filter_iff.1 hx).1
    have hlt := cstr_length_lt hend
    have hplain : x.plain.algName = strcpy 64 x.algName := strncpy_eq halgo.name hend
    rw [hname, hplain]
    rw [halgo.name] at hlt
    exact ⟨hlen, strcpy_ends hlt⟩
  · exact (algo_put (fun x hx => (ha.crypt x hx).1) hcrypt hnla).1
  · exact (algo_put (fun x hx => (ha.comp x hx).1) hcomp hnla).1
  · obtain ⟨s, type, hs, hat⟩ := (hget 9 XFRMA_SEC_CTX _ rfl (by decide)).found hnla
    have hctx := (ha.secCtx s hs).1
    have hfield : u16At buf (nlaData nla + 6) = s.ctxLen :=
      congrArg XfrmnlUserSecCtx.ctxLen (secCtxAt_seg hctx hat.data)
    have hlen := hat.len
    simp only [secCtx_length, hctx] at hlen
    rw [hfield, hlen]
    push_cast
    exact le_rfl
  · obtain ⟨r, type, hr, hat⟩ := (hget 12 XFRMA_REPLAY_ESN_VAL _ rfl (by decide)).found hnla
    have hbmp := (ha.esn r hr).1
    have hfield : u32At buf (nlaData nla) = r.bmpLen :=
      congrArg XfrmnlReplayStateEsn.bmpLen (replayEsnAt_seg hbmp hat.data)
    have hlen := hat.len
    simp only [replayEsn_length, hbmp] at hlen
    rw [hfield, hlen]
    push_cast
    exact le_rfl

/-- what the parser delivers of a message that is no expiry -/
theorem xfrmnlSaParse_ok {n : NlMsg} {r : SaVal} (hn : n.nlmsgType ≠ XFRM_MSG_EXPIRE) (h : xfrmnlSaParse n = .ok r) :
    ∃ info a, info = saInfoAt n.buf (saInfoPos n) ∧
      a = readSaAttrs info.family n.buf (nlmsgParse n 224 XFRMA_MAX (some xfrmSaPolicy)).2 ∧
      r = saOf n.nlmsgType none info a := by
  have hhard : saHard n = none := if_neg hn
  simp only [xfrmnlSaParse, hhard] at h
  split_ifs at h with herr
  exact ⟨_, _, rfl, rfl, (Except.ok.inj h).symm⟩

/-- the association without what the builder leaves out, names as strings -/
def XfrmnlSa.values (sa : XfrmnlSa) : XfrmnlSa :=
  { sa with
    curlft := noLifetime
    stats := ⟨0, 0, 0⟩
    seq := 0
    auth := sa.auth.map fun x => { x with algName := cstr x.algName } }

/-- bytes of the message for an association -/
def saMsgSize (r : SaVal) : ℕ := 16 + (224 + saAttrsSize r)

/-- **An association made of a header and attributes**: its message is built, and read. -/
theorem sa_written (msgtype : ℤ) {info : SaInfo} (hinfo : info.Valid) {a : SaAttrs} (ha : a.Valid info.family)
    {size cmd : ℕ} (flags : ℕ) (hexpire : cmd ≠ XFRM_MSG_EXPIRE) (hdel : cmd ≠ XFRM_MSG_DELSA) (hsize : size ≤ PTRDIFF_MAX)
    (hroom : saMsgSize (saOf msgtype none info a) ≤ size) :
    ∃ m curlft stats seq, buildXfrmSaMessage size (saOf msgtype none info a) cmd flags = .ok m ∧
      xfrmnlSaParse m = .ok (saOf cmd none { info with curlft := curlft, stats := stats, seq := seq }
        (a.again info.family)) ∧ WellFormedSa m ∧ m.nlmsgType = cmd := by
  have hhdr : (image 224 (saPieces (saOf msgtype none info a))).length = 224 := image_length _ _
  have hle := saAttrsSize_le msgtype info ha
  have hsend : ∀ ls, (∃ encap, Option.Rel HoldEncap a.encap encap ∧ ls = leavesOf (saAttrFields a encap)) →
      ∃ fs, ls = leavesOf fs ∧ Sendable xfrmSaPolicy fs := by
    rintro ls ⟨encap, hencap, rfl⟩
    exact ⟨_, rfl, saAttrFields_sendable ha hencap⟩
  unfold saMsgSize at hroom
  obtain ⟨m0, m, tb, ls, halloc, hput, htype, ⟨encap, hencap, rfl⟩, hparse, hidx, hseg⟩ := some_written (-NLE_MSGSIZE)
    XFRMA_MAX cmd flags (show (image 224 (saPieces (saOf msgtype none info a))).length % 4 = 0 by rw [hhdr])
    (putSaAttrs_some msgtype info ha) (keepsType_putSaAttrs _) hsend (by rw [hhdr]; omega) hsize (by rw [hhdr]; exact hroom)
  have hheld : Holds m.buf 16 (saInfoPieces info) := by
    rw [saPieces_saOf] at hseg
    exact holds_image (saInfoPieces_laidOut hinfo) hseg
  rw [hhdr, Nat.cast_ofNat] at hparse
  refine ⟨m, (saInfoAt m.buf 16).curlft, (saInfoAt m.buf 16).stats, (saInfoAt m.buf 16).seq, ?_, ?_, ?_, htype⟩
  · have hdaddr := has_saOf msgtype info a 2 XFRM_SA_ATTR_DADDR rfl
    have hspi := has_saOf msgtype info a 3 XFRM_SA_ATTR_SPI rfl
    have hproto := has_saOf msgtype info a 4 XFRM_SA_ATTR_PROTO rfl
    rw [buildXfrmSaMessage, hdaddr, hspi, hproto, halloc, if_neg (by simp)]
    simp only [hput, lt_irrefl, if_false]
  · have hpos : saInfoPos m = 16 := if_neg (by rw [htype]; exact hdel)
    have hhard : saHard m = none := if_neg (by rw [htype]; exact hexpire)
    have hinfoback := saInfoAt_holds hinfo hheld
    have hfamily : (saInfoAt m.buf 16).family = info.family := by rw [hinfoback]
    simp only [xfrmnlSaParse, hparse, lt_irrefl, if_false, htype, hpos, hhard, hfamily, read_saAttrs ha hencap hidx]
    exact congrArg (fun i => Except.ok (saOf cmd none i (a.again info.family))) hinfoback
  · rw [WellFormedSa, hparse]
    exact wellFormed_put ha hidx

/-- what comes back has the same attributes -/
theorem saBits_again (family : BitVec 16) (a : SaAttrs) : saBits false (a.again family) = saBits false a := by
  simp only [saBits, SaAttrs.again, Option.isSome_map]

omit [HostOrder] in
/-- authentication comes back, its name as a string -/
theorem auth_again (x : XfrmnlAlgoAuth) :
    ({ x.again with algName := cstr x.again.algName } : XfrmnlAlgoAuth) = { x with algName := cstr x.algName } := by
  unfold XfrmnlAlgoAuth.again
  split_ifs
  · rw [XfrmnlAlgoAuth.named]
    simp only [cstr_strcpy]
  · rfl

/-- **What comes back** is the association, just if the care-of address does. -/
theorem values_again (msgtype cmd : ℤ) (info : SaInfo) (a : SaAttrs) (curlft : XfrmnlLifetimeCur) (stats : XfrmnlStats)
    (seq : BitVec 32) :
    (saOf cmd none { info with curlft := curlft, stats := stats, seq := seq } (a.again info.family)).data.values =
      (saOf msgtype none info a).data.values ↔ a.coaddr.map (coaddrAgain info.family) = a.coaddr := by
  have hauth : (a.auth.map XfrmnlAlgoAuth.again).map (fun x => ({ x with algName := cstr x.algName } : XfrmnlAlgoAuth)) =
      a.auth.map fun x => { x with algName := cstr x.algName } := by
    rw [Option.map_map]
    exact Option.map_congr fun x _ => auth_again x
  simp only [saOf, SaAttrs.again, XfrmnlSa.values, hauth]
  constructor
  · intro heq
    exact congrArg XfrmnlSa.coaddr heq
  · intro heq
    rw [heq]

/-- **Round trip** of an association made of a header and attributes -/
theorem sa_back_iff (msgtype : ℤ) {info : SaInfo} (hinfo : info.Valid) {a : SaAttrs} (ha : a.Valid info.family)
    {size cmd : ℕ} (flags : ℕ) (hexpire : cmd ≠ XFRM_MSG_EXPIRE) (hdel : cmd ≠ XFRM_MSG_DELSA) (hsize : size ≤ PTRDIFF_MAX)
    (hroom : saMsgSize (saOf msgtype none info a) ≤ size) :
    (∃ m r', buildXfrmSaMessage size (saOf msgtype none info a) cmd flags = .ok m ∧ xfrmnlSaParse m = .ok r' ∧
      r'.ceMask = (saOf msgtype none info a).ceMask ∧ r'.data.values = (saOf msgtype none info a).data.values) ↔
      ∀ x ∈ a.coaddr, LooksLikeHead x := by
  obtain ⟨m, curlft, stats, seq, hbuild, hread, -⟩ := sa_written msgtype hinfo ha flags hexpire hdel hsize hroom
  have hback := values_again msgtype cmd info a curlft stats seq
  have hlook : a.coaddr.map (coaddrAgain info.family) = a.coaddr ↔ ∀ x ∈ a.coaddr, LooksLikeHead x := by
    have hof := ha.coaddr
    cases hco : a.coaddr with
    | none => simp
    | some x =>
      have hiff := coaddr_again_iff (hof x hco)
      simpa using hiff
  constructor
  · rintro ⟨m', r', hbuild', hread', -, hvalues⟩
    obtain rfl : m = m' := Except.ok.inj (hbuild.symm.trans hbuild')
    obtain rfl := Except.ok.inj (hread.symm.trans hread')
    exact hlook.1 (hback.1 hvalues)
  · intro hall
    refine ⟨m, _, hbuild, hread, ?_, hback.2 (hlook.2 hall)⟩
    exact congrArg maskOf (saBits_again info.family a)

/-- **Round trip.** For every association that the parser delivers of a well-formed message for a new association, when
there is room: the message for it is built, and the parser delivers of that an association with the same attributes and the
same values but for current lifetimes, counters and the sequence number, exactly if its care-of address, should it have one,
looks like the head of the structure it is in. -/
theorem sa_round_trip_iff {n : NlMsg} {r : SaVal} (hparse : xfrmnlSaParse n = .ok r) (hnew : n.nlmsgType = XFRM_MSG_NEWSA)
    (hwf : WellFormedSa n) {size cmd : ℕ} (flags : ℕ) (hexpire : cmd ≠ XFRM_MSG_EXPIRE) (hdel : cmd ≠ XFRM_MSG_DELSA)
    (hsize : size ≤ PTRDIFF_MAX) (hroom : saMsgSize r ≤ size) :
    (∃ m r', buildXfrmSaMessage size r cmd flags = .ok m ∧ xfrmnlSaParse m = .ok r' ∧ r'.ceMask = r.ceMask ∧
      r'.data.values = r.data.values) ↔ ∀ x ∈ r.data.coaddr, LooksLikeHead x := by
  obtain ⟨info, a, hinfo, ha, rfl⟩ := xfrmnlSaParse_ok (by rw [hnew]; decide) hparse
  have hvalid : a.Valid info.family := by
    rw [ha]
    exact readSaAttrs_valid hwf
  have hvalidinfo : info.Valid := by
    rw [hinfo]
    exact saInfoAt_valid _ _
  exact sa_back_iff n.nlmsgType hvalidinfo hvalid flags hexpire hdel hsize hroom

end

/-! an association in tunnel mode, with keys, encapsulation, a mark, a security context and a long replay state -/

def sampleAlgo (name key : List UInt8) : XfrmnlAlgo := ⟨strcpy 64 name, BitVec.ofNat 32 (8 * key.length), key⟩

def sampleSaAttrs : SaAttrs where
  aead := none
  auth := some ⟨sampleAlgo [109, 100, 53] (List.replicate 16 7), 0⟩
  crypt := some (sampleAlgo [97, 101, 115] (List.replicate 16 9))
  comp := none
  encap := some ⟨2, 4500, 4500, nlAddrBuild 2 [10, 0, 0, 1]⟩
  tfcpad := none
  coaddr := none
  mark := some ⟨7, 255⟩
  secCtx := some ⟨12, 8, 1, 1, 4, [97, 58, 98, 0]⟩
  replayMaxage := some 10
  replayMaxdiff := none
  replayStateEsn := some ⟨2, 1, 1, 0, 0, 64, [1, 0, 0, 0, 0, 0, 0, 0]⟩
  replayState := none

def sampleSaInfo (family : BitVec 16) (bytes : List UInt8) : SaInfo where
  sel :=
    { daddr := ⟨2, 24, [10, 0, 0, 0]⟩, saddr := ⟨2, 32, [10, 0, 1, 1]⟩, dport := 443, dportMask := 0xffff, sport := 0
      sportMask := 0, family := 2, prefixlenD := 24, prefixlenS := 32, proto := 6, ifindex := 3, user := 0 }
  id := ⟨nlAddrBuild family.toNat bytes, 0x100, 50⟩
  saddr := nlAddrBuild family.toNat bytes
  lft := ⟨1, 2, 3, 4, 5, 6, 7, 8⟩
  curlft := noLifetime
  stats := ⟨0, 0, 0⟩
  seq := 0
  reqid := 1
  family := family
  mode := 1
  replayWindow := 32
  flags := 0

theorem sampleSaInfo_valid {family : BitVec 16} {bytes : List UInt8} (h : bytes.length = addrSize family) :
    (sampleSaInfo family bytes).Valid :=
  ⟨⟨⟨nlAddrBuild 2 [10, 0, 0, 0], ⟨rfl, rfl⟩, rfl⟩, ⟨nlAddrBuild 2 [10, 0, 1, 1], ⟨rfl, rfl⟩, rfl⟩⟩, ⟨h, rfl⟩, ⟨h, rfl⟩⟩

theorem sampleSaAttrs_valid : sampleSaAttrs.Valid 2 where
  aead := nofun
  auth x hx := by
    cases hx
    exact ⟨⟨rfl, rfl⟩, by decide⟩
  authFits x hx := by
    cases hx
    decide
  crypt x hx := by
    cases hx
    exact ⟨⟨rfl, rfl⟩, by decide⟩
  comp := nofun
  encap e he := by
    cases he
    exact ⟨rfl, rfl⟩
  coaddr := nofun
  secCtx s hs := by
    cases hs
    decide
  esn r hr := by
    cases hr
    decide
  one _ := rfl

/-- its round trip -/
theorem sa_round_trip_sample : ∃ n r m r', @xfrmnlSaParse ⟨false⟩ n = .ok r ∧ r.data.encap = sampleSaAttrs.encap ∧
    r.data.replayStateEsn = sampleSaAttrs.replayStateEsn ∧
    @buildXfrmSaMessage ⟨false⟩ 1000000 r XFRM_MSG_UPDSA 0 = .ok m ∧ @xfrmnlSaParse ⟨false⟩ m = .ok r' ∧
      r'.ceMask = r.ceMask ∧ r'.data.values = r.data.values := by
  let order : HostOrder := ⟨false⟩
  have hsize : 1000000 ≤ PTRDIFF_MAX := by decide
  have hinfo : (sampleSaInfo 2 [10, 0, 0, 1]).Valid := sampleSaInfo_valid rfl
  have hroom : ∀ msgtype info, saMsgSize (saOf msgtype none info sampleSaAttrs) ≤ 1000000 := fun msgtype info => by
    have hle := saAttrsSize_le msgtype info sampleSaAttrs_valid
    unfold saMsgSize
    omega
  have hagain : sampleSaAttrs.again 2 = sampleSaAttrs := by
    have hname : strcpy 64 (strcpy 64 [109, 100, 53]) = strcpy 64 [109, 100, 53] := by decide
    simp only [SaAttrs.again, sampleSaAttrs, sampleAlgo, Option.map_some, Option.map_none, XfrmnlAlgoAuth.again,
      XfrmnlAlgoAuth.named, hname, if_true]
  obtain ⟨n, curlft, stats, seq, -, hn, hwf, hnew⟩ := sa_written 0 hinfo sampleSaAttrs_valid 0
    (show XFRM_MSG_NEWSA ≠ XFRM_MSG_EXPIRE by decide) (by decide) hsize (hroom _ _)
  rw [show (sampleSaInfo 2 [10, 0, 0, 1]).family = 2 from rfl, hagain] at hn
  obtain ⟨m, r', hbuild, hread, hmask, hvalues⟩ := (sa_round_trip_iff hn hnew hwf 0
    (show XFRM_MSG_UPDSA ≠ XFRM_MSG_EXPIRE by decide) (by decide) hsize (hroom _ _)).2 nofun
  exact ⟨n, _, m, r', hn, rfl, rfl, hbuild, hread, hmask, hvalues⟩

/-! an association with a care-of address: its message comes from somewhere else -/

/-- attributes of which there is only a care-of address -/
def onlyCoaddr (x : NlAddr) : SaAttrs := ⟨none, none, none, none, none, none, some x, none, none, none, none, none, none⟩

theorem onlyCoaddr_valid {family : BitVec 16} {x : NlAddr} (h : OfFamily family x) : (onlyCoaddr x).Valid family where
  aead := nofun
  auth := nofun
  authFits := nofun
  crypt := nofun
  comp := nofun
  encap := nofun
  coaddr y hy := by
    obtain rfl : x = y := Option.some.inj hy
    exact h
  secCtx := nofun
  esn := nofun
  one := nofun

theorem coaddr_message [HostOrder] {info : SaInfo} (hinfo : info.Valid) {bytes : List UInt8} (hlen : bytes.length = 16)
    (hfamily : addrSize info.family = 16) :
    ∃ n info', xfrmnlSaParse n = .ok (saOf XFRM_MSG_NEWSA none info' (onlyCoaddr (nlAddrBuild info.family.toNat bytes))) ∧
      info'.family = info.family ∧ info'.Valid ∧ n.nlmsgType = XFRM_MSG_NEWSA ∧ WellFormedSa n := by
  have hhdr : (image 224 (saInfoPieces info)).length = 224 := image_length _ _
  have hsend : Sendable xfrmSaPolicy [(XFRMA_COADDR, some bytes)] := by
    refine Sendable.cons (by decide) (sends_min (by decide) (by decide) fun q hq => ?_) (Sendable.nil _)
    cases hq
    exact ⟨by omega, show 16 ≤ bytes.length by omega⟩
  have hputs := putsSome_putAll (-NLE_MSGSIZE) hsend.wf
  have hsize : (encLeaves (leavesOf [(XFRMA_COADDR, some bytes)])).length ≤ 65536 := hsend.length_le
  obtain ⟨m0, m, tb, ls, -, -, htype, rfl, hparse, hidx, hseg⟩ := some_written (-NLE_MSGSIZE) XFRMA_MAX XFRM_MSG_NEWSA 0
    (show (image 224 (saInfoPieces info)).length % 4 = 0 by rw [hhdr]) hputs (keepsType_putAll _ _)
    (fun ls hls => ⟨_, hls, hsend⟩) (by rw [hhdr]; omega) (show 100000 ≤ PTRDIFF_MAX by decide) (by rw [hhdr]; omega)
  rw [hhdr, Nat.cast_ofNat] at hparse
  have hheld := holds_image (saInfoPieces_laidOut hinfo) hseg
  have hinfoback := saInfoAt_holds hinfo hheld
  have hfam : (saInfoAt m.buf 16).family = info.family := by rw [hinfoback]
  have hother : ∀ t ≤ XFRMA_MAX, t ≠ XFRMA_COADDR → tb t = none := fun t ht hne =>
    none_of_indexes hidx ht fun f hf => by
      rw [List.mem_singleton.1 hf]
      exact hne.symm
  have hcoaddr : Shown m.buf tb XFRMA_COADDR (some bytes) :=
    shown_plain hidx (List.nodup_singleton _) (by decide) List.mem_cons_self (by decide)
  obtain ⟨pos, type, hpos, hat⟩ := hcoaddr
  have hread : addrAt info.family m.buf (nlaData pos) = nlAddrBuild info.family.toNat bytes := by
    have hbytes := hat.data.readBytes
    rw [hlen] at hbytes
    rw [addrAt, hfamily, hbytes]
  have hno : ∀ {P : ℕ → Prop} t, t ≤ XFRMA_MAX → t ≠ XFRMA_COADDR → ∀ nla, tb t = some nla → P nla := by
    intro P t ht hne nla hnla
    rw [hother t ht hne] at hnla
    cases hnla
  refine ⟨m, saInfoAt m.buf 16, ?_, hfam, saInfoAt_valid _ _, htype, ?_⟩
  · have hpos16 : saInfoPos m = 16 := if_neg (by rw [htype]; decide)
    have hhard : saHard m = none := if_neg (by rw [htype]; decide)
    have hattrs : readSaAttrs info.family m.buf tb = onlyCoaddr (nlAddrBuild info.family.toNat bytes) := by
      simp (disch := decide) only [readSaAttrs, hother, hpos, Option.map_none, Option.map_some, Option.or_none, hread,
        Option.isSome_none, ite_self, onlyCoaddr]
    simp only [xfrmnlSaParse, hparse, lt_irrefl, if_false, htype, hpos16, hhard, hfam, hattrs]
  · rw [WellFormedSa, hparse]
    exact ⟨hno _ (by decide) (by decide), hno _ (by decide) (by decide), hno _ (by decide) (by decide),
      hno _ (by decide) (by decide), hno _ (by decide) (by decide), hno _ (by decide) (by decide),
      hno _ (by decide) (by decide)⟩

/-- **What does not come back.** The care-of address `101:101:…` of an association is read as `a00:0:1000:0:1000:0:8000:0`. -/
theorem coaddr_lost : ∃ n r, @xfrmnlSaParse ⟨false⟩ n = .ok r ∧ n.nlmsgType = XFRM_MSG_NEWSA ∧ @WellFormedSa ⟨false⟩ n ∧
    @saMsgSize ⟨false⟩ r ≤ 1000000 ∧
    ¬ ∃ m r', @buildXfrmSaMessage ⟨false⟩ 1000000 r XFRM_MSG_NEWSA 0 = .ok m ∧ @xfrmnlSaParse ⟨false⟩ m = .ok r' ∧
      r'.ceMask = r.ceMask ∧ r'.data.values = r.data.values := by
  let order : HostOrder := ⟨false⟩
  have hinfo : (sampleSaInfo 10 (List.replicate 16 1)).Valid := sampleSaInfo_valid rfl
  obtain ⟨n, info, hparse, hfamily, hvalid, hnew, hwf⟩ := coaddr_message hinfo
    (show (List.replicate 16 (1 : UInt8)).length = 16 from rfl) rfl
  have hof : OfFamily info.family (nlAddrBuild 10 (List.replicate 16 1)) := by
    rw [hfamily]
    exact ⟨rfl, rfl⟩
  have ha := onlyCoaddr_valid hof
  have hroom : saMsgSize (saOf XFRM_MSG_NEWSA none info (onlyCoaddr (nlAddrBuild 10 (List.replicate 16 1)))) ≤ 1000000 := by
    have hle := saAttrsSize_le XFRM_MSG_NEWSA info ha
    unfold saMsgSize
    omega
  refine ⟨n, _, hparse, hnew, hwf, hroom, fun hback => ?_⟩
  have hlook := (sa_back_iff XFRM_MSG_NEWSA hvalid ha 0 (show XFRM_MSG_NEWSA ≠ XFRM_MSG_EXPIRE by decide) (by decide)
    (show 1000000 ≤ PTRDIFF_MAX by decide) hroom).1 hback _ rfl
  -- the third byte of the family is zero
  have hbyte := congrArg (fun bs : List UInt8 => bs[2]?) hlook
  revert hbyte
  decide


end Libnl.Xfrm
