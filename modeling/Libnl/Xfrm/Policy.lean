/-
Security policies (`lib/xfrm/sp.c`, `lib/xfrm/template.c`): the object, and policy messages.

A message has a fixed header, `struct xfrm_userpolicy_info`, and up to four attributes. One of them, `XFRMA_TMPL`, holds
the templates one behind the other: an array of structures in a nest. The parser divides its length by the size of one.

Structures are filled in member by member, in a header that was cleared and, for templates, in room that was reserved in
the message; addresses take four or sixteen bytes, by the family. The lengths of attributes are taken to be those of a
message that is well-formed: a security context lies within its attribute. Memory is there when the parser asks for it.
-/
import Mathlib.Tactic
import Libnl.Message.Reserve
import Libnl.Cache.Attributes
import Libnl.Xfrm.Types

namespace Libnl.Xfrm

open Bytes Layout Msg Attr AttrWalk AttrStream Writer Fields Reserve
open Mask Object Addr

/-! ## Data -/

def XFRM_SP_ATTR_SEL : BitVec 64 := 0x01
def XFRM_SP_ATTR_LTIME_CFG : BitVec 64 := 0x02
def XFRM_SP_ATTR_LTIME_CUR : BitVec 64 := 0x04
def XFRM_SP_ATTR_PRIO : BitVec 64 := 0x08
def XFRM_SP_ATTR_INDEX : BitVec 64 := 0x10
def XFRM_SP_ATTR_DIR : BitVec 64 := 0x20
def XFRM_SP_ATTR_ACTION : BitVec 64 := 0x40
def XFRM_SP_ATTR_FLAGS : BitVec 64 := 0x80
def XFRM_SP_ATTR_SHARE : BitVec 64 := 0x100
def XFRM_SP_ATTR_POLTYPE : BitVec 64 := 0x200
def XFRM_SP_ATTR_SECCTX : BitVec 64 := 0x400
def XFRM_SP_ATTR_TMPL : BitVec 64 := 0x800
def XFRM_SP_ATTR_MARK : BitVec 64 := 0x1000

/-- `struct xfrmnl_user_tmpl` -/
structure XfrmnlUserTmpl where
  daddr : NlAddr
  spi : BitVec 32
  proto : BitVec 8
  family : BitVec 16
  saddr : NlAddr
  reqid : BitVec 32
  mode : BitVec 8
  share : BitVec 8
  optional : BitVec 8
  aalgos : BitVec 32
  ealgos : BitVec 32
  calgos : BitVec 32
deriving DecidableEq

/-- `struct xfrmnl_sp` -/
structure XfrmnlSp where
  sel : XfrmnlSel
  lft : XfrmnlLtimeCfg
  curlft : XfrmnlLifetimeCur
  priority : BitVec 32
  index : BitVec 32
  dir : BitVec 8
  action : BitVec 8
  flags : BitVec 8
  share : BitVec 8
  secCtx : Option XfrmnlUserSecCtx
  /-- the bytes of `struct xfrm_userpolicy_type` -/
  uptype : List UInt8
  nrUserTmpl : BitVec 32
  usertmplList : List XfrmnlUserTmpl
  mark : XfrmnlMark
deriving DecidableEq

abbrev SpVal := ObjVal XfrmnlSp

/-- `xfrmnl_sp_add_usertemplate` -/
def xfrmnlSpAddUsertemplate (sp : SpVal) (utmpl : XfrmnlUserTmpl) : SpVal where
  ceOps := sp.ceOps
  ceMsgtype := sp.ceMsgtype
  ceMask := sp.ceMask ||| XFRM_SP_ATTR_TMPL
  data := { sp.data with
    usertmplList := sp.data.usertmplList ++ [utmpl]
    nrUserTmpl := sp.data.nrUserTmpl + 1 }

/-! ## Messages -/

/-- what the header says -/
structure SpInfo where
  sel : XfrmnlSel
  lft : XfrmnlLtimeCfg
  curlft : XfrmnlLifetimeCur
  priority : BitVec 32
  index : BitVec 32
  dir : BitVec 8
  action : BitVec 8
  flags : BitVec 8
  share : BitVec 8

/-- what the attributes say -/
structure SpAttrs where
  secCtx : Option XfrmnlUserSecCtx
  uptype : Option (List UInt8)
  tmpls : Option (List XfrmnlUserTmpl)
  mark : Option XfrmnlMark

def spPolicy (type : ℕ) : NlaPolicy :=
  if type = XFRMA_POLICY then ⟨.unspec, 168, 0⟩
  else if type = XFRMA_SEC_CTX then ⟨.unspec, 8, 0⟩
  else if type = XFRMA_TMPL then ⟨.unspec, 64, 0⟩
  else if type = XFRMA_POLICY_TYPE then ⟨.unspec, 6, 0⟩
  else if type = XFRMA_MARK then ⟨.unspec, 8, 0⟩
  else ⟨.unspec, 0, 0⟩

section

variable [HostOrder]

/-- the `struct xfrm_userpolicy_info` at `p` -/
def spInfoAt (m : Mem) (p : ℕ) : SpInfo where
  sel := selAt m p
  lft := ltimeCfgAt m (p + 56)
  curlft := lifetimeCurAt m (p + 120)
  priority := u32At m (p + 152)
  index := u32At m (p + 156)
  dir := u8At m (p + 160)
  action := u8At m (p + 161)
  flags := u8At m (p + 162)
  share := u8At m (p + 163)

/-- the `struct xfrm_user_tmpl` at `p` -/
def userTmplAt (m : Mem) (p : ℕ) : XfrmnlUserTmpl :=
  let family := u16At m (p + 24)
  { daddr := addrAt family m p
    spi := getBe32 m (p + 16)
    proto := u8At m (p + 20)
    family := family
    saddr := addrAt family m (p + 28)
    reqid := u32At m (p + 44)
    mode := u8At m (p + 48)
    share := u8At m (p + 49)
    optional := u8At m (p + 50)
    aalgos := u32At m (p + 52)
    ealgos := u32At m (p + 56)
    calgos := u32At m (p + 60) }

/-- `num_tmpls` -/
def numTmpls (buf : Mem) (nla : ℕ) : ℕ := toU32 ((toU64 (nlaLen buf nla) / 64 : ℕ) : ℤ)

/-- the templates in an attribute -/
def userTmplsAt (buf : Mem) (nla : ℕ) : List XfrmnlUserTmpl :=
  (List.range (numTmpls buf nla)).map fun i => userTmplAt buf (nlaData nla + 64 * i)

def readSpAttrs (buf : Mem) (tb : Index) : SpAttrs where
  secCtx := (tb XFRMA_SEC_CTX).map fun a => secCtxAt buf (nlaData a)
  uptype := (tb XFRMA_POLICY_TYPE).map fun a => readBytes buf (nlaData a) 6
  tmpls := (tb XFRMA_TMPL).map (userTmplsAt buf)
  mark := (tb XFRMA_MARK).map fun a => markAt buf (nlaData a)

end

/-- the attributes of the object but for templates, each with whether the message has it -/
def spBits (a : SpAttrs) : List (BitVec 64 × Bool) :=
  [(XFRM_SP_ATTR_SEL, true), (XFRM_SP_ATTR_LTIME_CFG, true), (XFRM_SP_ATTR_LTIME_CUR, true), ( XFRM_SP_ATTR_PRIO, true),
    (XFRM_SP_ATTR_INDEX, true), (XFRM_SP_ATTR_DIR, true), (XFRM_SP_ATTR_ACTION, true), (XFRM_SP_ATTR_FLAGS, true),
    (XFRM_SP_ATTR_SHARE, true), (XFRM_SP_ATTR_SECCTX, a.secCtx.isSome), (XFRM_SP_ATTR_POLTYPE, a.uptype.isSome),
    (XFRM_SP_ATTR_MARK, a.mark.isSome)]

/-- the object a header and attributes make; what is not there stays as `calloc` left it -/
def spOf (msgtype : ℤ) (info : SpInfo) (a : SpAttrs) : SpVal :=
  (a.tmpls.getD []).foldl xfrmnlSpAddUsertemplate
    { ceOps := 0
      ceMsgtype := msgtype
      ceMask := maskOf (spBits a)
      data :=
        { sel := info.sel
          lft := info.lft
          curlft := info.curlft
          priority := info.priority
          index := info.index
          dir := info.dir
          action := info.action
          flags := info.flags
          share := info.share
          secCtx := a.secCtx
          uptype := a.uptype.getD (List.replicate 6 0)
          nrUserTmpl := 0
          usertmplList := []
          mark := a.mark.getD ⟨0, 0⟩ } }

section

variable [HostOrder]

/-- where the parser takes the header from; a deletion has it in an attribute behind a `struct xfrm_userpolicy_id` -/
def spInfoPos (n : NlMsg) : ℕ := if n.nlmsgType = XFRM_MSG_DELPOLICY then nlmsgData + 64 + 4 else nlmsgData

/-- `xfrmnl_sp_parse` -/
def xfrmnlSpParse (n : NlMsg) : Except ℤ SpVal :=
  let (err, tb) := nlmsgParse n 168 XFRMA_MAX (some spPolicy)
  if err < 0 then .error err
  else .ok (spOf n.nlmsgType (spInfoAt n.buf (spInfoPos n)) (readSpAttrs n.buf tb))

/-- the members that `build_xfrm_sp_message` stores in the header; current lifetimes are left out -/
def spPieces (tmpl : SpVal) : Pieces :=
  let sp := tmpl.data
  (if has tmpl XFRM_SP_ATTR_SEL then selPieces sp.sel else []) ++
    ((if has tmpl XFRM_SP_ATTR_LTIME_CFG then shift 56 (ltimeCfgPieces sp.lft) else []) ++
    ((if has tmpl XFRM_SP_ATTR_PRIO then [(152, u32Bytes sp.priority.toNat)] else []) ++
    ((if has tmpl XFRM_SP_ATTR_INDEX then [(156, u32Bytes sp.index.toNat)] else []) ++
    ((if has tmpl XFRM_SP_ATTR_DIR then [(160, [UInt8.ofBitVec sp.dir])] else []) ++
    ((if has tmpl XFRM_SP_ATTR_ACTION then [(161, [UInt8.ofBitVec sp.action])] else []) ++
    ((if has tmpl XFRM_SP_ATTR_FLAGS then [(162, [UInt8.ofBitVec sp.flags])] else []) ++
    (if has tmpl XFRM_SP_ATTR_SHARE then [(163, [UInt8.ofBitVec sp.share])] else [])))))))

/-- the members of the `struct xfrm_user_tmpl` for a template -/
def userTmplPieces (t : XfrmnlUserTmpl) : Pieces :=
  [(0, t.daddr.aAddr), (16, be32Bytes t.spi), (20, [UInt8.ofBitVec t.proto]), (24, u16Bytes t.family.toNat),
    (28, t.saddr.aAddr), (44, u32Bytes t.reqid.toNat), (48, [UInt8.ofBitVec t.mode]), (49, [UInt8.ofBitVec t.share]),
    (50, [UInt8.ofBitVec t.optional]), (52, u32Bytes t.aalgos.toNat), (56, u32Bytes t.ealgos.toNat),
    (60, u32Bytes t.calgos.toNat)]

/-- the loop over the templates -/
def putUserTmpls : List XfrmnlUserTmpl → NlMsg → NlMsg × ℤ
  | [], msg => (msg, 0)
  | t :: ts, msg =>
    inNest (-NLE_MSGSIZE) (nlmsgReserve msg 64 4) fun msg p => putUserTmpls ts (storeAll msg p (userTmplPieces t))

/-- the attributes in front of the templates -/
def spFields (tmpl : SpVal) : FieldList :=
  [(XFRMA_SEC_CTX, ifHas tmpl XFRM_SP_ATTR_SECCTX ((tmpl.data.secCtx.map XfrmnlUserSecCtx.bytes).getD [])),
    (XFRMA_POLICY_TYPE, ifHas tmpl XFRM_SP_ATTR_POLTYPE tmpl.data.uptype)]

/-- the attributes behind the templates -/
def spLastFields (tmpl : SpVal) : FieldList := [(XFRMA_MARK, ifHas tmpl XFRM_SP_ATTR_MARK tmpl.data.mark.bytes)]

/-- the nest with the templates; what `nla_nest_end` returns is not looked at -/
def putSpTmpls (tmpl : SpVal) (msg : NlMsg) : NlMsg × ℤ :=
  if has tmpl XFRM_SP_ATTR_TMPL then putNestOf (-NLE_MSGSIZE) XFRMA_TMPL (putUserTmpls tmpl.data.usertmplList) msg
  else (msg, 0)

/-- all attributes -/
def putSpAttrs (tmpl : SpVal) (msg : NlMsg) : NlMsg × ℤ :=
  thenPut (-NLE_MSGSIZE) (putAll (-NLE_MSGSIZE) (leavesOf (spFields tmpl)) msg) fun msg =>
    thenPut (-NLE_MSGSIZE) (putSpTmpls tmpl msg) (putAll (-NLE_MSGSIZE) (leavesOf (spLastFields tmpl)))

/-- `build_xfrm_sp_message`; the default size of messages is a variable of the library -/
def buildXfrmSpMessage (defaultMsgSize : ℕ) (tmpl : SpVal) (cmd flags : ℕ) : Except ℤ NlMsg :=
  if has tmpl XFRM_SP_ATTR_DIR = false ∨
      (has tmpl XFRM_SP_ATTR_INDEX = false ∧ has tmpl XFRM_SP_ATTR_SEL = false) then .error (-NLE_MISSING_ATTR)
  else
    match nlmsgAllocSimple defaultMsgSize cmd flags with
    | none => .error (-NLE_NOMEM)
    | some msg =>
      let (msg, err) := thenPut (-NLE_MSGSIZE) (nlmsgAppend msg (image 168 (spPieces tmpl)) 4) (putSpAttrs tmpl)
      if err < 0 then .error (-NLE_MSGSIZE) else .ok msg

end

end Libnl.Xfrm
