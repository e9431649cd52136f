/-
What security associations and policies share (`lib/xfrm/`): selectors, lifetimes, marks, security contexts.

The structures of the kernel are read member by member; the members are the same on both sides, but for addresses, which are
objects in the library and unions of sixteen bytes in messages, and for what is in network byte order. The layouts are those
of a machine that aligns 64-bit integers to eight bytes.

- `addrAt`: the address of a family in a union. `addrAt_seg`: an address that was put there is read again.
- `selAt`, `selPieces`: selectors. `selAt_holds`: the one undoes the other.
- `secCtxAt`: security contexts, with a string of variable length behind them.
-/
import Mathlib.Tactic
import Libnl.Core.Layout
import Libnl.Route.Addr

namespace Libnl.Xfrm

open Bytes Layout Addr Addr.Family

/-! ## Attributes -/

def XFRMA_ALG_AUTH : ℕ := 1
def XFRMA_ALG_CRYPT : ℕ := 2
def XFRMA_ALG_COMP : ℕ := 3
def XFRMA_ENCAP : ℕ := 4
def XFRMA_TMPL : ℕ := 5
def XFRMA_SA : ℕ := 6
def XFRMA_POLICY : ℕ := 7
def XFRMA_SEC_CTX : ℕ := 8
def XFRMA_LTIME_VAL : ℕ := 9
def XFRMA_REPLAY_VAL : ℕ := 10
def XFRMA_REPLAY_THRESH : ℕ := 11
def XFRMA_ETIMER_THRESH : ℕ := 12
def XFRMA_SRCADDR : ℕ := 13
def XFRMA_COADDR : ℕ := 14
def XFRMA_POLICY_TYPE : ℕ := 16
def XFRMA_ALG_AEAD : ℕ := 18
def XFRMA_ALG_AUTH_TRUNC : ℕ := 20
def XFRMA_MARK : ℕ := 21
def XFRMA_TFCPAD : ℕ := 22
def XFRMA_REPLAY_ESN_VAL : ℕ := 23
def XFRMA_MAX : ℕ := 31

def XFRM_MSG_NEWSA : ℕ := 0x10
def XFRM_MSG_DELSA : ℕ := 0x11
def XFRM_MSG_GETSA : ℕ := 0x12
def XFRM_MSG_NEWPOLICY : ℕ := 0x13
def XFRM_MSG_DELPOLICY : ℕ := 0x14
def XFRM_MSG_EXPIRE : ℕ := 0x18
def XFRM_MSG_UPDPOLICY : ℕ := 0x19
def XFRM_MSG_UPDSA : ℕ := 0x1a

/-! ## Structures -/

/-- `struct xfrmnl_sel` -/
structure XfrmnlSel where
  daddr : NlAddr
  saddr : NlAddr
  dport : BitVec 16
  dportMask : BitVec 16
  sport : BitVec 16
  sportMask : BitVec 16
  family : BitVec 16
  prefixlenD : BitVec 8
  prefixlenS : BitVec 8
  proto : BitVec 8
  ifindex : BitVec 32
  user : BitVec 32
deriving DecidableEq

/-- `struct xfrmnl_ltime_cfg` -/
structure XfrmnlLtimeCfg where
  softByteLimit : BitVec 64
  hardByteLimit : BitVec 64
  softPacketLimit : BitVec 64
  hardPacketLimit : BitVec 64
  softAddExpiresSeconds : BitVec 64
  hardAddExpiresSeconds : BitVec 64
  softUseExpiresSeconds : BitVec 64
  hardUseExpiresSeconds : BitVec 64
deriving DecidableEq

/-- `struct xfrmnl_lifetime_cur` -/
structure XfrmnlLifetimeCur where
  bytes : BitVec 64
  packets : BitVec 64
  addTime : BitVec 64
  useTime : BitVec 64
deriving DecidableEq

/-- `struct xfrmnl_mark` -/
structure XfrmnlMark where
  v : BitVec 32
  m : BitVec 32
deriving DecidableEq

/-- `struct xfrmnl_user_sec_ctx`, with the string behind it -/
structure XfrmnlUserSecCtx where
  len : BitVec 16
  exttype : BitVec 16
  ctxAlg : BitVec 8
  ctxDoi : BitVec 8
  ctxLen : BitVec 16
  ctx : List UInt8
deriving DecidableEq

/-! ## Addresses -/

/-- bytes of an address in a union, by the family -/
def addrSize (family : BitVec 16) : ℕ := if (family.toNat : ℤ) = AF_INET then 4 else 16

/-- the address of the family in the union at `p` -/
def addrAt (family : BitVec 16) (m : Mem) (p : ℕ) : NlAddr :=
  nlAddrBuild family.toNat (readBytes m p (addrSize family))

/-- an address of the family, as it is built from a union -/
structure OfFamily (family : BitVec 16) (a : NlAddr) : Prop where
  length : a.aAddr.length = addrSize family
  built : a = nlAddrBuild family.toNat a.aAddr

theorem addrSize_le (family : BitVec 16) : addrSize family ≤ 16 := by
  unfold addrSize
  split_ifs <;> decide

theorem addrAt_ofFamily (family : BitVec 16) (m : Mem) (p : ℕ) : OfFamily family (addrAt family m p) :=
  ⟨readBytes_length _ _ _, rfl⟩

theorem OfFamily.le {family : BitVec 16} {a : NlAddr} (h : OfFamily family a) : a.aAddr.length ≤ 16 := by
  rw [h.length]
  exact addrSize_le family

/-- **An address, put and read** -/
theorem addrAt_seg {family : BitVec 16} {a : NlAddr} (h : OfFamily family a) {m : Mem} {p : ℕ} (hseg : Seg m p a.aAddr) :
    addrAt family m p = a := by
  rw [addrAt, ← h.length, hseg.readBytes]
  exact h.built.symm

section

variable [HostOrder]

/-! ## Selectors -/

/-- the selector in the `struct xfrm_selector` at `p` -/
def selAt (m : Mem) (p : ℕ) : XfrmnlSel :=
  let family := u16At m (p + 40)
  { daddr := nlAddrSetPrefixlen (addrAt family m p) (u8At m (p + 42))
    saddr := nlAddrSetPrefixlen (addrAt family m (p + 16)) (u8At m (p + 43))
    dport := getBe16 m (p + 32)
    dportMask := getBe16 m (p + 34)
    sport := getBe16 m (p + 36)
    sportMask := getBe16 m (p + 38)
    family := family
    prefixlenD := u8At m (p + 42)
    prefixlenS := u8At m (p + 43)
    proto := u8At m (p + 44)
    ifindex := u32At m (p + 48)
    user := u32At m (p + 52) }

/-- the members of the `struct xfrm_selector` for a selector -/
def selPieces (sel : XfrmnlSel) : Pieces :=
  [(0, sel.daddr.aAddr), (16, sel.saddr.aAddr), (32, be16Bytes sel.dport), (34, be16Bytes sel.dportMask),
    (36, be16Bytes sel.sport), (38, be16Bytes sel.sportMask), (40, u16Bytes sel.family.toNat),
    (42, [UInt8.ofBitVec sel.prefixlenD]), (43, [UInt8.ofBitVec sel.prefixlenS]), (44, [UInt8.ofBitVec sel.proto]),
    (48, u32Bytes sel.ifindex.toNat), (52, u32Bytes sel.user.toNat)]

omit [HostOrder] in
/-- a selector whose addresses are of its family, with its prefix lengths -/
structure XfrmnlSel.Valid (sel : XfrmnlSel) : Prop where
  daddr : ∃ a, OfFamily sel.family a ∧ sel.daddr = nlAddrSetPrefixlen a sel.prefixlenD
  saddr : ∃ a, OfFamily sel.family a ∧ sel.saddr = nlAddrSetPrefixlen a sel.prefixlenS

theorem selAt_valid (m : Mem) (p : ℕ) : (selAt m p).Valid :=
  ⟨⟨_, addrAt_ofFamily _ _ _, rfl⟩, ⟨_, addrAt_ofFamily _ _ _, rfl⟩⟩

theorem selPieces_laidOut {sel : XfrmnlSel} (h : sel.Valid) : laidOut 0 56 (selPieces sel) := by
  obtain ⟨a, ha, hda⟩ := h.daddr
  obtain ⟨b, hb, hsa⟩ := h.saddr
  have hd : sel.daddr.aAddr.length ≤ 16 := by
    rw [hda]
    exact ha.le
  have hs : sel.saddr.aAddr.length ≤ 16 := by
    rw [hsa]
    exact hb.le
  simp only [selPieces, laidOut, be16Bytes_length, u16Bytes_length, u32Bytes_length, List.length_cons, List.length_nil]
  omega

/-- **A selector, put and read** -/
theorem selAt_holds {sel : XfrmnlSel} (h : sel.Valid) {m : Mem} {p : ℕ} (hm : Holds m p (selPieces sel)) :
    selAt m p = sel := by
  obtain ⟨hd, hs, hdport, hdmask, hsport, hsmask, hfam, hpd, hps, hproto, hif, huser, -⟩ := hm
  obtain ⟨a, ha, hda⟩ := h.daddr
  obtain ⟨b, hb, hsb⟩ := h.saddr
  rw [hda] at hd
  rw [hsb] at hs
  have hdaddr := addrAt_seg ha (m := m) (p := p) hd
  have hsaddr := addrAt_seg hb (m := m) (p := p + 16) hs
  simp only [selAt, seg_u16At hfam, seg_u8At hpd, seg_u8At hps, seg_u8At hproto, hdport.getBe16, hdmask.getBe16,
    hsport.getBe16, hsmask.getBe16, seg_u32At hif, seg_u32At huser, hdaddr, hsaddr, ← hda, ← hsb]

/-! ## Lifetimes -/

/-- the limits in the `struct xfrm_lifetime_cfg` at `p` -/
def ltimeCfgAt (m : Mem) (p : ℕ) : XfrmnlLtimeCfg :=
  ⟨u64At m p, u64At m (p + 8), u64At m (p + 16), u64At m (p + 24), u64At m (p + 32), u64At m (p + 40), u64At m (p + 48),
    u64At m (p + 56)⟩

def ltimeCfgPieces (lft : XfrmnlLtimeCfg) : Pieces :=
  [(0, u64Bytes lft.softByteLimit.toNat), (8, u64Bytes lft.hardByteLimit.toNat), (16, u64Bytes lft.softPacketLimit.toNat),
    (24, u64Bytes lft.hardPacketLimit.toNat), (32, u64Bytes lft.softAddExpiresSeconds.toNat),
    (40, u64Bytes lft.hardAddExpiresSeconds.toNat), (48, u64Bytes lft.softUseExpiresSeconds.toNat),
    (56, u64Bytes lft.hardUseExpiresSeconds.toNat)]

theorem ltimeCfgPieces_laidOut (lft : XfrmnlLtimeCfg) : laidOut 0 64 (ltimeCfgPieces lft) := by
  simp only [ltimeCfgPieces, laidOut, u64Bytes_length]
  omega

theorem ltimeCfgAt_holds {lft : XfrmnlLtimeCfg} {m : Mem} {p : ℕ} (hm : Holds m p (ltimeCfgPieces lft)) :
    ltimeCfgAt m p = lft := by
  obtain ⟨h1, h2, h3, h4, h5, h6, h7, h8, -⟩ := hm
  rw [add_zero] at h1
  rw [ltimeCfgAt, seg_u64At h1, seg_u64At h2, seg_u64At h3, seg_u64At h4, seg_u64At h5, seg_u64At h6, seg_u64At h7,
    seg_u64At h8]

/-- the counters in the `struct xfrm_lifetime_cur` at `p` -/
def lifetimeCurAt (m : Mem) (p : ℕ) : XfrmnlLifetimeCur :=
  ⟨u64At m p, u64At m (p + 8), u64At m (p + 16), u64At m (p + 24)⟩

/-- counters that start -/
def noLifetime : XfrmnlLifetimeCur := ⟨0, 0, 0, 0⟩

/-! ## Marks and security contexts -/

/-- the mark in the `struct xfrm_mark` at `p` -/
def markAt (m : Mem) (p : ℕ) : XfrmnlMark := ⟨u32At m p, u32At m (p + 4)⟩

def XfrmnlMark.bytes (mark : XfrmnlMark) : List UInt8 := u32Bytes mark.v.toNat ++ u32Bytes mark.m.toNat

theorem mark_length (mark : XfrmnlMark) : mark.bytes.length = 8 := by
  simp only [XfrmnlMark.bytes, List.length_append, u32Bytes_length]

theorem markAt_seg {mark : XfrmnlMark} {m : Mem} {p : ℕ} (h : Seg m p mark.bytes) : markAt m p = mark := by
  obtain ⟨hv, hm⟩ := seg_append.1 h
  rw [u32Bytes_length] at hm
  rw [markAt, seg_u32At hv, seg_u32At hm]

/-- the security context at `p`: the structure, and as many bytes as it says -/
def secCtxAt (m : Mem) (p : ℕ) : XfrmnlUserSecCtx :=
  ⟨u16At m p, u16At m (p + 2), u8At m (p + 4), u8At m (p + 5), u16At m (p + 6), readBytes m (p + 8) (u16At m (p + 6)).toNat⟩

def XfrmnlUserSecCtx.bytes (s : XfrmnlUserSecCtx) : List UInt8 :=
  u16Bytes s.len.toNat ++ (u16Bytes s.exttype.toNat ++ ([UInt8.ofBitVec s.ctxAlg] ++ ([UInt8.ofBitVec s.ctxDoi] ++
    (u16Bytes s.ctxLen.toNat ++ s.ctx))))

theorem secCtx_length (s : XfrmnlUserSecCtx) : s.bytes.length = 8 + s.ctx.length := by
  simp only [XfrmnlUserSecCtx.bytes, List.length_append, u16Bytes_length, List.length_cons, List.length_nil]
  omega

theorem secCtxAt_length (m : Mem) (p : ℕ) : (secCtxAt m p).ctx.length = (secCtxAt m p).ctxLen.toNat :=
  readBytes_length _ _ _

theorem secCtxAt_seg {s : XfrmnlUserSecCtx} (hs : s.ctx.length = s.ctxLen.toNat) {m : Mem} {p : ℕ} (h : Seg m p s.bytes) :
    secCtxAt m p = s := by
  simp only [XfrmnlUserSecCtx.bytes, seg_append, u16Bytes_length, List.length_cons, List.length_nil, add_assoc,
    Nat.reduceAdd] at h
  obtain ⟨hlen, hext, halg, hdoi, hctxlen, hctx⟩ := h
  have hread := hctx.readBytes
  rw [hs] at hread
  rw [secCtxAt, seg_u16At hlen, seg_u16At hext, seg_u8At halg, seg_u8At hdoi, seg_u16At hctxlen, hread]

end

end Libnl.Xfrm
