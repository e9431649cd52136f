/-
Security associations (`lib/xfrm/sa.c`): the object, and the messages for it.

A message has a fixed header, `struct xfrm_usersa_info`, and attributes that are mostly copied as they are: a name of
sixty-four bytes, lengths, and a key whose length is given in bits. Authentication has two attributes, one with a length
to truncate to and one without; the parser prefers the first, the builder takes the second if there is nothing to truncate.
There are two kinds of replay state, too, and the longer one is preferred.

A key lies within its attribute, names end, and memory is there when the parser asks for it. The builder copies sixteen
bytes from where `struct xfrmnl_sa` has a care-of address. What it has there is a pointer to a `struct nl_addr`, and what is
copied are the members in front of the address.
-/
import Mathlib.Tactic
import Libnl.Message.Reserve
import Libnl.Cache.Attributes
import Libnl.Xfrm.Types

namespace Libnl.Xfrm

open Bytes Layout Msg Attr AttrWalk AttrStream Writer Fields Reserve
open Mask Object Addr

/-! ## Data -/

def XFRM_SA_ATTR_SEL : BitVec 64 := 0x01
def XFRM_SA_ATTR_DADDR : BitVec 64 := 0x02
def XFRM_SA_ATTR_SPI : BitVec 64 := 0x04
def XFRM_SA_ATTR_PROTO : BitVec 64 := 0x08
def XFRM_SA_ATTR_SADDR : BitVec 64 := 0x10
def XFRM_SA_ATTR_LTIME_CFG : BitVec 64 := 0x20
def XFRM_SA_ATTR_LTIME_CUR : BitVec 64 := 0x40
def XFRM_SA_ATTR_STATS : BitVec 64 := 0x80
def XFRM_SA_ATTR_SEQ : BitVec 64 := 0x100
def XFRM_SA_ATTR_REQID : BitVec 64 := 0x200
def XFRM_SA_ATTR_FAMILY : BitVec 64 := 0x400
def XFRM_SA_ATTR_MODE : BitVec 64 := 0x800
def XFRM_SA_ATTR_REPLAY_WIN : BitVec 64 := 0x1000
def XFRM_SA_ATTR_FLAGS : BitVec 64 := 0x2000
def XFRM_SA_ATTR_ALG_AEAD : BitVec 64 := 0x4000
def XFRM_SA_ATTR_ALG_AUTH : BitVec 64 := 0x8000
def XFRM_SA_ATTR_ALG_CRYPT : BitVec 64 := 0x10000
def XFRM_SA_ATTR_ALG_COMP : BitVec 64 := 0x20000
def XFRM_SA_ATTR_ENCAP : BitVec 64 := 0x40000
def XFRM_SA_ATTR_TFCPAD : BitVec 64 := 0x80000
def XFRM_SA_ATTR_COADDR : BitVec 64 := 0x100000
def XFRM_SA_ATTR_MARK : BitVec 64 := 0x200000
def XFRM_SA_ATTR_SECCTX : BitVec 64 := 0x400000
def XFRM_SA_ATTR_REPLAY_MAXAGE : BitVec 64 := 0x800000
def XFRM_SA_ATTR_REPLAY_MAXDIFF : BitVec 64 := 0x1000000
def XFRM_SA_ATTR_REPLAY_STATE : BitVec 64 := 0x2000000
def XFRM_SA_ATTR_EXPIRE : BitVec 64 := 0x4000000

/-- `struct xfrmnl_id` -/
structure XfrmnlId where
  daddr : NlAddr
  spi : BitVec 32
  proto : BitVec 8
deriving DecidableEq

/-- `struct xfrmnl_stats` -/
structure XfrmnlStats where
  replayWindow : BitVec 32
  replay : BitVec 32
  integrityFailed : BitVec 32
deriving DecidableEq

/-- `struct xfrmnl_algo`, with the key behind it -/
structure XfrmnlAlgo where
  algName : List UInt8
  /-- in bits -/
  algKeyLen : BitVec 32
  algKey : List UInt8
deriving DecidableEq

/-- `struct xfrmnl_algo_aead` -/
structure XfrmnlAlgoAead extends XfrmnlAlgo where
  algIcvLen : BitVec 32
deriving DecidableEq

/-- `struct xfrmnl_algo_auth` -/
structure XfrmnlAlgoAuth extends XfrmnlAlgo where
  algTruncLen : BitVec 32
deriving DecidableEq

/-- `struct xfrmnl_encap_tmpl` -/
structure XfrmnlEncapTmpl where
  encapType : BitVec 16
  encapSport : BitVec 16
  encapDport : BitVec 16
  encapOa : NlAddr
deriving DecidableEq

/-- `struct xfrmnl_replay_state` -/
structure XfrmnlReplayState where
  oseq : BitVec 32
  seq : BitVec 32
  bitmap : BitVec 32
deriving DecidableEq

/-- `struct xfrmnl_replay_state_esn`, with the bitmap behind it -/
structure XfrmnlReplayStateEsn where
  bmpLen : BitVec 32
  oseq : BitVec 32
  seq : BitVec 32
  oseqHi : BitVec 32
  seqHi : BitVec 32
  replayWindow : BitVec 32
  bmp : List UInt8
deriving DecidableEq

/-- `struct xfrmnl_sa` -/
structure XfrmnlSa where
  sel : XfrmnlSel
  id : XfrmnlId
  saddr : NlAddr
  lft : XfrmnlLtimeCfg
  curlft : XfrmnlLifetimeCur
  stats : XfrmnlStats
  seq : BitVec 32
  reqid : BitVec 32
  family : BitVec 16
  mode : BitVec 8
  replayWindow : BitVec 8
  flags : BitVec 8
  aead : Option XfrmnlAlgoAead
  auth : Option XfrmnlAlgoAuth
  crypt : Option XfrmnlAlgo
  comp : Option XfrmnlAlgo
  encap : Option XfrmnlEncapTmpl
  tfcpad : BitVec 32
  coaddr : Option NlAddr
  mark : XfrmnlMark
  secCtx : Option XfrmnlUserSecCtx
  replayMaxage : BitVec 32
  replayMaxdiff : BitVec 32
  replayState : XfrmnlReplayState
  replayStateEsn : Option XfrmnlReplayStateEsn
  hard : BitVec 8
deriving DecidableEq

abbrev SaVal := ObjVal XfrmnlSa

/-! ## Strings and keys -/

/-- bytes of a key of so many bits, in 32 bits -/
def keyBytes (keyLen : BitVec 32) : ℕ := ((keyLen + 7) / 8).toNat

/-- `strcpy` into an array of `n` bytes that was cleared -/
def strcpy (n : ℕ) (src : List UInt8) : List UInt8 := cstr src ++ List.replicate (n - (cstr src).length) 0

/-- `strncpy` into an array of `n` bytes, of which the last one is cleared then -/
def strncpy (n : ℕ) (src : List UInt8) : List UInt8 := (strcpy n (src.take n)).set (n - 1) 0

/-! ## Messages -/

/-- what the header says -/
structure SaInfo where
  sel : XfrmnlSel
  id : XfrmnlId
  saddr : NlAddr
  lft : XfrmnlLtimeCfg
  curlft : XfrmnlLifetimeCur
  stats : XfrmnlStats
  seq : BitVec 32
  reqid : BitVec 32
  family : BitVec 16
  mode : BitVec 8
  replayWindow : BitVec 8
  flags : BitVec 8

/-- what the attributes say -/
structure SaAttrs where
  aead : Option XfrmnlAlgoAead
  auth : Option XfrmnlAlgoAuth
  crypt : Option XfrmnlAlgo
  comp : Option XfrmnlAlgo
  encap : Option XfrmnlEncapTmpl
  tfcpad : Option (BitVec 32)
  coaddr : Option NlAddr
  mark : Option XfrmnlMark
  secCtx : Option XfrmnlUserSecCtx
  replayMaxage : Option (BitVec 32)
  replayMaxdiff : Option (BitVec 32)
  replayStateEsn : Option XfrmnlReplayStateEsn
  replayState : Option XfrmnlReplayState

/-- `xfrm_sa_policy` -/
def xfrmSaPolicy (type : ℕ) : NlaPolicy :=
  if type = XFRMA_SA then ⟨.unspec, 224, 0⟩
  else if type = XFRMA_ALG_AUTH_TRUNC then ⟨.unspec, 72, 0⟩
  else if type = XFRMA_ALG_AEAD then ⟨.unspec, 72, 0⟩
  else if type = XFRMA_ALG_AUTH then ⟨.unspec, 68, 0⟩
  else if type = XFRMA_ALG_CRYPT then ⟨.unspec, 68, 0⟩
  else if type = XFRMA_ALG_COMP then ⟨.unspec, 68, 0⟩
  else if type = XFRMA_ENCAP then ⟨.unspec, 24, 0⟩
  else if type = XFRMA_TMPL then ⟨.unspec, 64, 0⟩
  else if type = XFRMA_SEC_CTX then ⟨.unspec, 8, 0⟩
  else if type = XFRMA_LTIME_VAL then ⟨.unspec, 32, 0⟩
  else if type = XFRMA_REPLAY_VAL then ⟨.unspec, 12, 0⟩
  else if type = XFRMA_REPLAY_THRESH then ⟨.u32, 0, 0⟩
  else if type = XFRMA_ETIMER_THRESH then ⟨.u32, 0, 0⟩
  else if type = XFRMA_SRCADDR then ⟨.unspec, 16, 0⟩
  else if type = XFRMA_COADDR then ⟨.unspec, 16, 0⟩
  else if type = XFRMA_MARK then ⟨.unspec, 8, 0⟩
  else if type = XFRMA_TFCPAD then ⟨.u32, 0, 0⟩
  else if type = XFRMA_REPLAY_ESN_VAL then ⟨.unspec, 24, 0⟩
  else ⟨.unspec, 0, 0⟩

section

variable [HostOrder]

/-- the `struct xfrm_usersa_info` at `p` -/
def saInfoAt (m : Mem) (p : ℕ) : SaInfo :=
  let family := u16At m (p + 212)
  { sel := selAt m p
    id := ⟨addrAt family m (p + 56), getBe32 m (p + 72), u8At m (p + 76)⟩
    saddr := addrAt family m (p + 80)
    lft := ltimeCfgAt m (p + 96)
    curlft := lifetimeCurAt m (p + 160)
    stats := ⟨u32At m (p + 192), u32At m (p + 196), u32At m (p + 200)⟩
    seq := u32At m (p + 204)
    reqid := u32At m (p + 208)
    family := family
    mode := u8At m (p + 214)
    replayWindow := u8At m (p + 215)
    flags := u8At m (p + 216) }

/-- the `struct xfrm_algo` at `p`, and its key -/
def algoAt (m : Mem) (p : ℕ) : XfrmnlAlgo :=
  ⟨readBytes m p 64, u32At m (p + 64), readBytes m (p + 68) (keyBytes (u32At m (p + 64)))⟩

/-- the same with another length between the length of the key and the key -/
def longAlgoAt (m : Mem) (p : ℕ) : XfrmnlAlgo :=
  ⟨readBytes m p 64, u32At m (p + 64), readBytes m (p + 72) (keyBytes (u32At m (p + 64)))⟩

/-- the `struct xfrm_algo_aead` at `p` -/
def aeadAt (m : Mem) (p : ℕ) : XfrmnlAlgoAead := ⟨longAlgoAt m p, u32At m (p + 68)⟩

/-- the `struct xfrm_algo_auth` at `p` -/
def authTruncAt (m : Mem) (p : ℕ) : XfrmnlAlgoAuth := ⟨longAlgoAt m p, u32At m (p + 68)⟩

/-- what is made of the `struct xfrm_algo` at `p`: the name is copied as a string -/
def authAt (m : Mem) (p : ℕ) : XfrmnlAlgoAuth :=
  ⟨{ algoAt m p with algName := strcpy 64 (algoAt m p).algName }, 0⟩

/-- what is made of the `struct xfrm_encap_tmpl` at `p`, for an association of the family -/
def encapAt (family : BitVec 16) (m : Mem) (p : ℕ) : XfrmnlEncapTmpl :=
  ⟨u16At m p, getBe16 m (p + 2), getBe16 m (p + 4), addrAt family m (p + 8)⟩

/-- the `struct xfrm_replay_state` at `p` -/
def replayAt (m : Mem) (p : ℕ) : XfrmnlReplayState := ⟨u32At m p, u32At m (p + 4), u32At m (p + 8)⟩

/-- the `struct xfrm_replay_state_esn` at `p`, and its bitmap -/
def replayEsnAt (m : Mem) (p : ℕ) : XfrmnlReplayStateEsn :=
  ⟨u32At m p, u32At m (p + 4), u32At m (p + 8), u32At m (p + 12), u32At m (p + 16), u32At m (p + 20),
    readBytes m (p + 24) (4 * (u32At m p).toNat)⟩

def readSaAttrs (family : BitVec 16) (buf : Mem) (tb : Index) : SaAttrs where
  aead := (tb XFRMA_ALG_AEAD).map fun a => aeadAt buf (nlaData a)
  auth := ((tb XFRMA_ALG_AUTH_TRUNC).map fun a => authTruncAt buf (nlaData a)).or
    ((tb XFRMA_ALG_AUTH).map fun a => authAt buf (nlaData a))
  crypt := (tb XFRMA_ALG_CRYPT).map fun a => algoAt buf (nlaData a)
  comp := (tb XFRMA_ALG_COMP).map fun a => algoAt buf (nlaData a)
  encap := (tb XFRMA_ENCAP).map fun a => encapAt family buf (nlaData a)
  tfcpad := (tb XFRMA_TFCPAD).map (nlaGetU32 buf)
  coaddr := (tb XFRMA_COADDR).map fun a => addrAt family buf (nlaData a)
  mark := (tb XFRMA_MARK).map fun a => markAt buf (nlaData a)
  secCtx := (tb XFRMA_SEC_CTX).map fun a => secCtxAt buf (nlaData a)
  replayMaxage := (tb XFRMA_ETIMER_THRESH).map (nlaGetU32 buf)
  replayMaxdiff := (tb XFRMA_REPLAY_THRESH).map (nlaGetU32 buf)
  replayStateEsn := (tb XFRMA_REPLAY_ESN_VAL).map fun a => replayEsnAt buf (nlaData a)
  replayState := if (tb XFRMA_REPLAY_ESN_VAL).isSome then none
    else (tb XFRMA_REPLAY_VAL).map fun a => replayAt buf (nlaData a)

end

/-- the attributes of the object, each with whether the message has it -/
def saBits (expire : Bool) (a : SaAttrs) : List (BitVec 64 × Bool) :=
  [(XFRM_SA_ATTR_EXPIRE, expire), (XFRM_SA_ATTR_SEL, true), (XFRM_SA_ATTR_DADDR, true), (XFRM_SA_ATTR_SPI, true),
    (XFRM_SA_ATTR_PROTO, true), (XFRM_SA_ATTR_SADDR, true), (XFRM_SA_ATTR_LTIME_CFG, true),
    (XFRM_SA_ATTR_LTIME_CUR, true), (XFRM_SA_ATTR_STATS, true), (XFRM_SA_ATTR_SEQ, true), (XFRM_SA_ATTR_REQID, true),
    (XFRM_SA_ATTR_FAMILY, true), (XFRM_SA_ATTR_MODE, true), (XFRM_SA_ATTR_REPLAY_WIN, true), (XFRM_SA_ATTR_FLAGS, true),
    (XFRM_SA_ATTR_ALG_AEAD, a.aead.isSome), (XFRM_SA_ATTR_ALG_AUTH, a.auth.isSome),
    (XFRM_SA_ATTR_ALG_CRYPT, a.crypt.isSome), (XFRM_SA_ATTR_ALG_COMP, a.comp.isSome),
    (XFRM_SA_ATTR_ENCAP, a.encap.isSome), (XFRM_SA_ATTR_TFCPAD, a.tfcpad.isSome), (XFRM_SA_ATTR_COADDR, a.coaddr.isSome),
    (XFRM_SA_ATTR_MARK, a.mark.isSome), (XFRM_SA_ATTR_SECCTX, a.secCtx.isSome),
    (XFRM_SA_ATTR_REPLAY_MAXAGE, a.replayMaxage.isSome), (XFRM_SA_ATTR_REPLAY_MAXDIFF, a.replayMaxdiff.isSome),
    (XFRM_SA_ATTR_REPLAY_STATE, a.replayStateEsn.isSome || a.replayState.isSome)]

/-- the object a header and attributes make, and `hard` of an expiry; what is not there stays as `calloc` left it -/
def saOf (msgtype : ℤ) (hard : Option (BitVec 8)) (info : SaInfo) (a : SaAttrs) : SaVal where
  ceOps := 0
  ceMsgtype := msgtype
  ceMask := maskOf (saBits hard.isSome a)
  data :=
    { sel := info.sel
      id := info.id
      saddr := info.saddr
      lft := info.lft
      curlft := info.curlft
      stats := info.stats
      seq := info.seq
      reqid := info.reqid
      family := info.family
      mode := info.mode
      replayWindow := info.replayWindow
      flags := info.flags
      aead := a.aead
      auth := a.auth
      crypt := a.crypt
      comp := a.comp
      encap := a.encap
      tfcpad := a.tfcpad.getD 0
      coaddr := a.coaddr
      mark := a.mark.getD ⟨0, 0⟩
      secCtx := a.secCtx
      replayMaxage := a.replayMaxage.getD 0
      replayMaxdiff := a.replayMaxdiff.getD 0
      replayState := a.replayState.getD ⟨0, 0, 0⟩
      replayStateEsn := a.replayStateEsn
      hard := hard.getD 0 }

section

variable [HostOrder]

/-- where the parser takes the header from; a deletion has it in an attribute behind a `struct xfrm_usersa_id`, an expiry has
it in front -/
def saInfoPos (n : NlMsg) : ℕ := if n.nlmsgType = XFRM_MSG_DELSA then nlmsgData + 24 + 4 else nlmsgData

/-- `hard` of a `struct xfrm_user_expire` -/
def saHard (n : NlMsg) : Option (BitVec 8) :=
  if n.nlmsgType = XFRM_MSG_EXPIRE then some (u8At n.buf (nlmsgData + 224)) else none

/-- `xfrmnl_sa_parse` -/
def xfrmnlSaParse (n : NlMsg) : Except ℤ SaVal :=
  let info := saInfoAt n.buf (saInfoPos n)
  let (err, tb) := nlmsgParse n 224 XFRMA_MAX (some xfrmSaPolicy)
  if err < 0 then .error err
  else .ok (saOf n.nlmsgType (saHard n) info (readSaAttrs info.family n.buf tb))

/-- the members that `build_xfrm_sa_message` stores in the header; current lifetimes, counters and the sequence number are
left out -/
def saPieces (tmpl : SaVal) : Pieces :=
  let sa := tmpl.data
  (if has tmpl XFRM_SA_ATTR_SEL then selPieces sa.sel else []) ++
    ([(56, sa.id.daddr.aAddr), (72, be32Bytes sa.id.spi), (76, [UInt8.ofBitVec sa.id.proto])] ++
    ((if has tmpl XFRM_SA_ATTR_SADDR then [(80, sa.saddr.aAddr)] else []) ++
    ((if has tmpl XFRM_SA_ATTR_LTIME_CFG then shift 96 (ltimeCfgPieces sa.lft) else []) ++
    ((if has tmpl XFRM_SA_ATTR_REQID then [(208, u32Bytes sa.reqid.toNat)] else []) ++
    ((if has tmpl XFRM_SA_ATTR_FAMILY then [(212, u16Bytes sa.family.toNat)] else []) ++
    ((if has tmpl XFRM_SA_ATTR_MODE then [(214, [UInt8.ofBitVec sa.mode])] else []) ++
    ((if has tmpl XFRM_SA_ATTR_REPLAY_WIN then [(215, [UInt8.ofBitVec sa.replayWindow])] else []) ++
    (if has tmpl XFRM_SA_ATTR_FLAGS then [(216, [UInt8.ofBitVec sa.flags])] else []))))))))

def XfrmnlAlgo.bytes (a : XfrmnlAlgo) : List UInt8 := a.algName ++ (u32Bytes a.algKeyLen.toNat ++ a.algKey)

/-- an algorithm with another length in front of the key -/
def XfrmnlAlgo.longBytes (a : XfrmnlAlgo) (len : BitVec 32) : List UInt8 :=
  a.algName ++ (u32Bytes a.algKeyLen.toNat ++ (u32Bytes len.toNat ++ a.algKey))

def XfrmnlAlgoAead.bytes (a : XfrmnlAlgoAead) : List UInt8 := a.toXfrmnlAlgo.longBytes a.algIcvLen

def XfrmnlAlgoAuth.bytes (a : XfrmnlAlgoAuth) : List UInt8 := a.toXfrmnlAlgo.longBytes a.algTruncLen

/-- the `struct xfrm_algo` that is made of an algorithm without truncation -/
def XfrmnlAlgoAuth.plain (a : XfrmnlAlgoAuth) : XfrmnlAlgo :=
  { a.toXfrmnlAlgo with algName := strncpy 64 a.algName }

def XfrmnlReplayState.bytes (r : XfrmnlReplayState) : List UInt8 :=
  u32Bytes r.oseq.toNat ++ (u32Bytes r.seq.toNat ++ u32Bytes r.bitmap.toNat)

def XfrmnlReplayStateEsn.bytes (r : XfrmnlReplayStateEsn) : List UInt8 :=
  u32Bytes r.bmpLen.toNat ++ (u32Bytes r.oseq.toNat ++ (u32Bytes r.seq.toNat ++ (u32Bytes r.oseqHi.toNat ++
    (u32Bytes r.seqHi.toNat ++ (u32Bytes r.replayWindow.toNat ++ r.bmp)))))

/-- the first sixteen bytes of a `struct nl_addr` that was built: the family, the size and the length of the address, and
the length of the prefix -/
def nlAddrHead (a : NlAddr) : List UInt8 :=
  u32Bytes (toU32 a.aFamily) ++ (u32Bytes a.aAddr.length ++ (u32Bytes a.aAddr.length ++ u32Bytes (toU32 a.aPrefixlen)))

/-- the members of the `struct xfrm_encap_tmpl` for an encapsulation -/
def encapPieces (e : XfrmnlEncapTmpl) : Pieces :=
  [(0, u16Bytes e.encapType.toNat), (2, be16Bytes e.encapSport), (4, be16Bytes e.encapDport), (8, e.encapOa.aAddr)]

/-- the attributes in front of the encapsulation -/
def saFields (tmpl : SaVal) : FieldList :=
  let sa := tmpl.data
  let auth := if has tmpl XFRM_SA_ATTR_ALG_AUTH then sa.auth else none
  [(XFRMA_ALG_AEAD, ifHas tmpl XFRM_SA_ATTR_ALG_AEAD ((sa.aead.map XfrmnlAlgoAead.bytes).getD [])),
    (XFRMA_ALG_AUTH_TRUNC, (auth.filter fun x => x.algTruncLen ≠ 0).map XfrmnlAlgoAuth.bytes),
    (XFRMA_ALG_AUTH, (auth.filter fun x => x.algTruncLen = 0).map fun x => x.plain.bytes),
    (XFRMA_ALG_CRYPT, ifHas tmpl XFRM_SA_ATTR_ALG_CRYPT ((sa.crypt.map XfrmnlAlgo.bytes).getD [])),
    (XFRMA_ALG_COMP, ifHas tmpl XFRM_SA_ATTR_ALG_COMP ((sa.comp.map XfrmnlAlgo.bytes).getD []))]

/-- the attributes behind the encapsulation -/
def saLastFields (tmpl : SaVal) : FieldList :=
  let sa := tmpl.data
  let replay := has tmpl XFRM_SA_ATTR_REPLAY_STATE
  [(XFRMA_TFCPAD, ifHas tmpl XFRM_SA_ATTR_TFCPAD (u32Bytes sa.tfcpad.toNat)),
    (XFRMA_COADDR, ifHas tmpl XFRM_SA_ATTR_COADDR ((sa.coaddr.map nlAddrHead).getD [])),
    (XFRMA_MARK, ifHas tmpl XFRM_SA_ATTR_MARK sa.mark.bytes),
    (XFRMA_SEC_CTX, ifHas tmpl XFRM_SA_ATTR_SECCTX ((sa.secCtx.map XfrmnlUserSecCtx.bytes).getD [])),
    (XFRMA_ETIMER_THRESH, ifHas tmpl XFRM_SA_ATTR_REPLAY_MAXAGE (u32Bytes sa.replayMaxage.toNat)),
    (XFRMA_REPLAY_THRESH, ifHas tmpl XFRM_SA_ATTR_REPLAY_MAXDIFF (u32Bytes sa.replayMaxdiff.toNat)),
    (XFRMA_REPLAY_ESN_VAL, if replay then sa.replayStateEsn.map XfrmnlReplayStateEsn.bytes else none),
    (XFRMA_REPLAY_VAL, if replay && sa.replayStateEsn.isNone then some sa.replayState.bytes else none)]

/-- the encapsulation, in an attribute that is reserved -/
def putSaEncap (tmpl : SaVal) (msg : NlMsg) : NlMsg × ℤ :=
  if has tmpl XFRM_SA_ATTR_ENCAP then
    inNest (-NLE_MSGSIZE) (nlaReserve msg XFRMA_ENCAP 24) fun msg nla =>
      (storeAll msg (nlaData nla) ((tmpl.data.encap.map encapPieces).getD []), 0)
  else (msg, 0)

/-- all attributes -/
def putSaAttrs (tmpl : SaVal) (msg : NlMsg) : NlMsg × ℤ :=
  thenPut (-NLE_MSGSIZE) (putAll (-NLE_MSGSIZE) (leavesOf (saFields tmpl)) msg) fun msg =>
    thenPut (-NLE_MSGSIZE) (putSaEncap tmpl msg) (putAll (-NLE_MSGSIZE) (leavesOf (saLastFields tmpl)))

/-- `build_xfrm_sa_message`; the default size of messages is a variable of the library -/
def buildXfrmSaMessage (defaultMsgSize : ℕ) (tmpl : SaVal) (cmd flags : ℕ) : Except ℤ NlMsg :=
  if has tmpl XFRM_SA_ATTR_DADDR = false ∨ has tmpl XFRM_SA_ATTR_SPI = false ∨
      has tmpl XFRM_SA_ATTR_PROTO = false then .error (-NLE_MISSING_ATTR)
  else
    match nlmsgAllocSimple defaultMsgSize cmd flags with
    | none => .error (-NLE_NOMEM)
    | some msg =>
      let (msg, err) := thenPut (-NLE_MSGSIZE) (nlmsgAppend msg (image 224 (saPieces tmpl)) 4) (putSaAttrs tmpl)
      if err < 0 then .error (-NLE_MSGSIZE) else .ok msg

end

end Libnl.Xfrm
