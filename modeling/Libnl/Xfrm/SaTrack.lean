/-
Following the security associations through their notifications.

An association is known by its destination address, its SPI and its protocol. Notifications are included into the cache by
a function of the type's own, since there is no notification for an association that goes because its time is up: a hard
expiry takes it out, a soft one puts it there as it is now.

Which association a notification is about is decided by `xfrm_sa_compare`. It compares replay states whether it is asked
to or not, so an association whose replay state has changed is taken for another one. And a hard expiry is told to the
application even if the association was not there.

- `identical_iff_key`: identity is to have the same key, and replay states that agree.
- `Inv.saNotified`: what a notification does to a cache.
- `sas_tracked_iff`: exactly when a cache tracks the associations, and callbacks say what happened.
- `replay_doubles`: an association that is there twice.
-/
import Mathlib.Tactic
import Libnl.Cache.Tracking
import Libnl.Cache.Notify
import Libnl.Xfrm.SaCodec
import Libnl.Xfrm.Selector

namespace Libnl.Xfrm

open Bytes Layout Msg Fields Object Addr Mask KeyedList Prefix
open Track Cache

/-! ## Comparing -/

/-- names, lengths of keys, and keys -/
def algoCmp (a b : XfrmnlAlgo) : Bool :=
  decide (cstr a.algName ≠ cstr b.algName) || decide (a.algKeyLen ≠ b.algKeyLen) || decide (a.algKey ≠ b.algKey)

def secCtxCmp (a b : XfrmnlUserSecCtx) : Bool :=
  decide (a.ctxDoi ≠ b.ctxDoi) || decide (a.ctxAlg ≠ b.ctxAlg) || decide (a.ctxLen ≠ b.ctxLen) ||
    decide (cstr a.ctx ≠ cstr b.ctx)

def encapCmp (a b : XfrmnlEncapTmpl) : Bool :=
  decide (a.encapType ≠ b.encapType) || decide (a.encapSport ≠ b.encapSport) || decide (a.encapDport ≠ b.encapDport) ||
    nlAddrCmp (some a.encapOa) (some b.encapOa)

/-- structures that both objects have; it is only looked at when they do -/
def bothDiffer {γ : Type} (differ : γ → γ → Bool) (a b : Option γ) : Bool := a.elim false fun x => b.elim false (differ x)

/-- `memcmp`, as a 64-bit number; only its sign is known -/
def memcmp (a b : List UInt8) : BitVec 64 := if a = b then 0 else if a < b then -1 else 1

section

variable [HostOrder]

/-- the part of `xfrm_sa_compare` that is about replay states -/
def replayDiff (a b : SaVal) : BitVec 64 :=
  if (a.ceMask ^^^ b.ceMask) &&& XFRM_SA_ATTR_REPLAY_STATE ≠ 0 then 0
  else if a.data.replayStateEsn.isSome ≠ b.data.replayStateEsn.isSome then 0
  else a.data.replayStateEsn.elim (if a.data.replayState ≠ b.data.replayState then 1 else 0) fun r =>
    b.data.replayStateEsn.elim 0 fun s => if r.bmpLen ≠ s.bmpLen then 1 else memcmp r.bytes s.bytes

/-- `xfrm_sa_compare` -/
def xfrmSaCompare (a b : SaVal) (attrs : BitVec 64) (_ : ℕ) : BitVec 64 :=
  let x := a.data
  let y := b.data
  attrDiff attrs XFRM_SA_ATTR_SEL a b (xfrmnlSelCmp x.sel y.sel) |||
    attrDiff attrs XFRM_SA_ATTR_DADDR a b (nlAddrCmp (some x.id.daddr) (some y.id.daddr)) |||
    attrDiff attrs XFRM_SA_ATTR_SPI a b (decide (x.id.spi ≠ y.id.spi)) |||
    attrDiff attrs XFRM_SA_ATTR_PROTO a b (decide (x.id.proto ≠ y.id.proto)) |||
    attrDiff attrs XFRM_SA_ATTR_SADDR a b (nlAddrCmp (some x.saddr) (some y.saddr)) |||
    attrDiff attrs XFRM_SA_ATTR_LTIME_CFG a b (decide (x.lft ≠ y.lft)) |||
    attrDiff attrs XFRM_SA_ATTR_REQID a b (decide (x.reqid ≠ y.reqid)) |||
    attrDiff attrs XFRM_SA_ATTR_FAMILY a b (decide (x.family ≠ y.family)) |||
    attrDiff attrs XFRM_SA_ATTR_MODE a b (decide (x.mode ≠ y.mode)) |||
    attrDiff attrs XFRM_SA_ATTR_REPLAY_WIN a b (decide (x.replayWindow ≠ y.replayWindow)) |||
    attrDiff attrs XFRM_SA_ATTR_FLAGS a b (decide (x.flags ≠ y.flags)) |||
    attrDiff attrs XFRM_SA_ATTR_ALG_AEAD a b (bothDiffer
      (fun p q => algoCmp p.toXfrmnlAlgo q.toXfrmnlAlgo || decide (p.algIcvLen ≠ q.algIcvLen)) x.aead y.aead) |||
    attrDiff attrs XFRM_SA_ATTR_ALG_AUTH a b (bothDiffer
      (fun p q => algoCmp p.toXfrmnlAlgo q.toXfrmnlAlgo || decide (p.algTruncLen ≠ q.algTruncLen)) x.auth y.auth) |||
    attrDiff attrs XFRM_SA_ATTR_ALG_CRYPT a b (bothDiffer algoCmp x.crypt y.crypt) |||
    attrDiff attrs XFRM_SA_ATTR_ALG_COMP a b (bothDiffer algoCmp x.comp y.comp) |||
    attrDiff attrs XFRM_SA_ATTR_ENCAP a b (bothDiffer encapCmp x.encap y.encap) |||
    attrDiff attrs XFRM_SA_ATTR_TFCPAD a b (decide (x.tfcpad ≠ y.tfcpad)) |||
    attrDiff attrs XFRM_SA_ATTR_COADDR a b (nlAddrCmp x.coaddr y.coaddr) |||
    attrDiff attrs XFRM_SA_ATTR_MARK a b (decide (x.mark ≠ y.mark)) |||
    attrDiff attrs XFRM_SA_ATTR_SECCTX a b (bothDiffer secCtxCmp x.secCtx y.secCtx) |||
    attrDiff attrs XFRM_SA_ATTR_REPLAY_MAXAGE a b (decide (x.replayMaxage ≠ y.replayMaxage)) |||
    attrDiff attrs XFRM_SA_ATTR_REPLAY_MAXDIFF a b (decide (x.replayMaxdiff ≠ y.replayMaxdiff)) |||
    attrDiff attrs XFRM_SA_ATTR_EXPIRE a b (decide (x.hard ≠ y.hard)) |||
    replayDiff a b

/-- `xfrm_sa_obj_ops`, the operations of every type there is -/
def xfrmSaObjOps (_ : ℕ) : ObjectOps XfrmnlSa where
  ooIdAttrs := (XFRM_SA_ATTR_DADDR ||| XFRM_SA_ATTR_SPI ||| XFRM_SA_ATTR_PROTO).setWidth 32
  ooIdAttrsGet := none
  ooCompare := some xfrmSaCompare
  ooUpdate := none
  ooKeygen := none
  ooClone := some id

end

/-- `xfrmnl_sa_ops` -/
def xfrmnlSaOps : CacheOps :=
  ⟨0, [⟨XFRM_MSG_NEWSA, .new⟩, ⟨XFRM_MSG_DELSA, .del⟩, ⟨XFRM_MSG_GETSA, .get⟩, ⟨XFRM_MSG_EXPIRE, .unspec⟩,
    ⟨XFRM_MSG_UPDSA, .new⟩]⟩

/-! ## Including -/

section

variable [HostOrder]

/-- the object that was found, if one was, is taken out -/
def removeFound (w : Store XfrmnlSa) : Option ObjId → Store XfrmnlSa
  | none => w
  | some oldSa => nlCacheRemove xfrmSaObjOps w oldSa

/-- a soft expiry: the new object is saved, and told of as new or changed -/
def softExpired (w : Store XfrmnlSa) (c : CacheId) (o : ObjId) (oldSa : Option ObjId) (cb : ChangeCb) (mem : Alloc) :
    Store XfrmnlSa × ℤ :=
  let w := (nlCacheMove xfrmSaObjOps w c o mem).1
  match oldSa with
  | none => (callback w cb (.v1 (w.val o) .new) (.v2 none (some (w.val o)) 0 .new), 0)
  | some oldSa =>
    let diff := if cb = .none then 0 else nlObjectDiff64 xfrmSaObjOps (w.val oldSa) (w.val o)
    let w := if diff ≠ 0 then
        callback w cb (.v1 (w.val o) .change) (.v2 (some (w.val oldSa)) (some (w.val o)) diff .change)
      else w
    (nlObjectPut w oldSa, 0)

/-- a hard expiry: the new object is told of as deleted -/
def hardExpired (w : Store XfrmnlSa) (o : ObjId) (oldSa : Option ObjId) (cb : ChangeCb) : Store XfrmnlSa × ℤ :=
  let w := callback w cb (.v1 (w.val o) .del) (.v2 (some (w.val o)) none 0 .del)
  (nlObjectPutOpt w oldSa, 0)

/-- `xfrm_sa_update_cache` -/
def xfrmSaUpdateCache (w : Store XfrmnlSa) (c : CacheId) (o : ObjId) (cb : ChangeCb) (mem : Alloc) :
    Store XfrmnlSa × ℤ :=
  if (w.val o).ceMsgtype = XFRM_MSG_EXPIRE then
    let r := nlCacheSearch xfrmSaObjOps w c (w.val o)
    if (w.val o).data.hard = 0 then softExpired (removeFound r.1 r.2) c o r.2 cb mem
    else hardExpired (removeFound r.1 r.2) o r.2 cb
  else nlCacheInclude xfrmSaObjOps w c o cb mem

/-- a message is parsed and included, with all the memory that takes -/
def saNotify (w : Store XfrmnlSa) (c : CacheId) (cb : ChangeCb) (v : SaVal) : Store XfrmnlSa × ℤ :=
  msgParser w v fun w o => xfrmSaUpdateCache w c o cb ⟨true, true⟩

/-- messages are parsed and included one after the other -/
def saNotifyAll (w : Store XfrmnlSa) (c : CacheId) (cb : ChangeCb) (vs : List SaVal) : Store XfrmnlSa :=
  vs.foldl (fun w v => (saNotify w c cb v).1) w

end

/-! ## Identity -/

/-- what an association is known by -/
def saKey (v : SaVal) : Option (ℤ × List UInt8 × ℤ) × BitVec 32 × BitVec 8 :=
  (addrKey (some v.data.id.daddr), v.data.id.spi, v.data.id.proto)

/-- replay states agree: if both objects have one, or neither, and they are of the same kind, they are the same -/
def ReplayAgree (a b : SaVal) : Prop :=
  has a XFRM_SA_ATTR_REPLAY_STATE = has b XFRM_SA_ATTR_REPLAY_STATE →
    a.data.replayStateEsn.isSome = b.data.replayStateEsn.isSome →
      a.data.replayStateEsn = b.data.replayStateEsn ∧
        (a.data.replayStateEsn = none → a.data.replayState = b.data.replayState)

instance (a b : SaVal) : Decidable (ReplayAgree a b) := inferInstanceAs (Decidable (_ → _ → _ ∧ (_ → _)))

theorem memcmp_eq_zero_iff {a b : List UInt8} : memcmp a b = 0 ↔ a = b := by
  unfold memcmp
  split_ifs with h
  · simp [h]
  · simp [h]
  · simp [h]

theorem has_eq_iff (a b : SaVal) : has a XFRM_SA_ATTR_REPLAY_STATE = has b XFRM_SA_ATTR_REPLAY_STATE ↔
    (a.ceMask ^^^ b.ceMask) &&& XFRM_SA_ATTR_REPLAY_STATE = 0 := by
  have hbit : XFRM_SA_ATTR_REPLAY_STATE = BitVec.twoPow 64 25 := by decide
  unfold has
  rw [hbit]
  simp only [BitVec.and_twoPow, BitVec.getLsbD_xor]
  have hne : BitVec.twoPow 64 25 ≠ 0#64 := by decide
  cases a.ceMask.getLsbD 25 <;> cases b.ceMask.getLsbD 25 <;> simp [hne]

section

variable [HostOrder]

theorem u32Bytes_inj {a b : BitVec 32} (h : u32Bytes a.toNat = u32Bytes b.toNat) : a = b := by
  have ha := seg_u32At (seg_memOf (u32Bytes a.toNat))
  rw [h] at ha
  exact ha.symm.trans (seg_u32At (seg_memOf _))

theorem esn_bytes_inj {r s : XfrmnlReplayStateEsn} (h : r.bytes = s.bytes) : r = s := by
  have hlen : ∀ a b : BitVec 32, (u32Bytes a.toNat).length = (u32Bytes b.toNat).length := fun a b => by
    rw [u32Bytes_length, u32Bytes_length]
  obtain ⟨h1, hrest⟩ := List.append_inj h (hlen _ _)
  obtain ⟨h2, hrest⟩ := List.append_inj hrest (hlen _ _)
  obtain ⟨h3, hrest⟩ := List.append_inj hrest (hlen _ _)
  obtain ⟨h4, hrest⟩ := List.append_inj hrest (hlen _ _)
  obtain ⟨h5, hrest⟩ := List.append_inj hrest (hlen _ _)
  obtain ⟨h6, h7⟩ := List.append_inj hrest (hlen _ _)
  cases r
  cases s
  simp only [XfrmnlReplayStateEsn.mk.injEq]
  exact ⟨u32Bytes_inj h1, u32Bytes_inj h2, u32Bytes_inj h3, u32Bytes_inj h4, u32Bytes_inj h5, u32Bytes_inj h6, h7⟩

theorem replayDiff_eq_zero_iff (a b : SaVal) : replayDiff a b = 0 ↔ ReplayAgree a b := by
  unfold replayDiff ReplayAgree
  rw [has_eq_iff]
  by_cases hmask : (a.ceMask ^^^ b.ceMask) &&& XFRM_SA_ATTR_REPLAY_STATE = 0
  · rw [if_neg (not_not.2 hmask)]
    cases hr : a.data.replayStateEsn with
    | none =>
      cases hs : b.data.replayStateEsn with
      | none =>
        by_cases hplain : a.data.replayState = b.data.replayState
        · simp [hplain]
        · simp [hplain, hmask]
      | some s => simp
    | some r =>
      cases hs : b.data.replayStateEsn with
      | none => simp
      | some s =>
        by_cases hlen : r.bmpLen = s.bmpLen
        · have hiff : memcmp r.bytes s.bytes = 0#64 ↔ r = s :=
            memcmp_eq_zero_iff.trans ⟨esn_bytes_inj, fun heq => by rw [heq]⟩
          simp [hlen, hmask, hiff]
        · have hne : r ≠ s := fun heq => hlen (by rw [heq])
          simp [hlen, hmask, hne]
  · rw [if_pos hmask]
    exact iff_of_true rfl fun h => absurd h hmask

omit [HostOrder] in
/-- an object of the type, with all that identifies it, of a message about an association -/
structure IsSa (v : SaVal) : Prop where
  ops : v.ceOps = 0
  id : v.ceMask &&& (XFRM_SA_ATTR_DADDR ||| XFRM_SA_ATTR_SPI ||| XFRM_SA_ATTR_PROTO) =
    XFRM_SA_ATTR_DADDR ||| XFRM_SA_ATTR_SPI ||| XFRM_SA_ATTR_PROTO
  msgtype : v.ceMsgtype = XFRM_MSG_NEWSA ∨ v.ceMsgtype = XFRM_MSG_UPDSA ∨ v.ceMsgtype = XFRM_MSG_DELSA ∨
    v.ceMsgtype = XFRM_MSG_EXPIRE

/-- **Identity** of associations -/
theorem identical_iff_key {v w : SaVal} (hv : IsSa v) (hw : IsSa w) :
    nlObjectIdentical xfrmSaObjOps v w = true ↔ saKey v = saKey w ∧ ReplayAgree v w := by
  have hreq : reqAttrs xfrmSaObjOps v w = 0xE := rfl
  have hsame : sameIdAttrs xfrmSaObjOps v w = true := rfl
  have hcv : carries v 0xE = true := decide_eq_true hv.id
  have hcw : carries w 0xE = true := decide_eq_true hw.id
  have hasked : ∀ {attr : BitVec 64} (differ : Bool), 0xE#64 &&& attr = attr → attr ≠ 0#64 →
      (attrDiff 0xE#64 attr v w differ = 0#64 ↔ differ = false) := fun differ h hne =>
    attrDiff_eq_zero_iff h hne (carries_attr hcv h) (carries_attr hcw h) differ
  have hother : ∀ {attr : BitVec 64} (differ : Bool), 0xE#64 &&& attr = 0#64 → attrDiff 0xE#64 attr v w differ = 0#64 :=
    fun differ h => attrDiff_of_not_asked h v w differ
  have hcmp : xfrmSaCompare v w 0xE#64 ID_COMPARISON = 0#64 ↔
      ((nlAddrCmp (some v.data.id.daddr) (some w.data.id.daddr) = false ∧ v.data.id.spi = w.data.id.spi) ∧
        v.data.id.proto = w.data.id.proto) ∧ replayDiff v w = 0#64 := by
    unfold xfrmSaCompare
    simp (disch := decide) only [BitVec.or_eq_zero_iff, hasked, hother, and_true, true_and, decide_eq_false_iff_not, not_not]
  have hask : BitVec.setWidth 64 (14 : BitVec 32) = 0xE#64 := rfl
  unfold nlObjectIdentical
  rw [hreq, hsame, hcv, hcw, hv.ops, hw.ops]
  simp only [decide_true, Bool.and_self, Bool.true_and, xfrmSaObjOps, decide_eq_true_eq, hask]
  refine hcmp.trans (and_congr ?_ (replayDiff_eq_zero_iff v w))
  rw [nlAddrCmp_eq_false_iff]
  simp only [saKey, Prod.mk.injEq, and_assoc]

end

/-! ## What a notification does -/

/-- the message says that the time of the association is up -/
def HardExpiry (v : SaVal) : Prop := v.ceMsgtype = XFRM_MSG_EXPIRE ∧ v.data.hard ≠ 0

instance (v : SaVal) : Decidable (HardExpiry v) := inferInstanceAs (Decidable (_ ∧ _))

/-- the message says that the association is there -/
def saKeeps (v : SaVal) : Bool :=
  if v.ceMsgtype = XFRM_MSG_EXPIRE then decide (v.data.hard = 0) else announces xfrmnlSaOps v

/-- what the message does to a cache -/
def saAct (v : SaVal) : Act := if saKeeps v then .new else .del

section

variable [HostOrder]

/-- the callbacks that are made -/
def saEvents (cb : ChangeCb) (es : List (Entry XfrmnlSa)) (v : SaVal) : List (Event XfrmnlSa) :=
  if HardExpiry v then calls cb (.v1 v .del) (.v2 (some v) none 0 .del)
  else includeEvents xfrmSaObjOps cb (saAct v) es v

omit [HostOrder] in
theorem not_expire_known {v : SaVal} (hv : IsSa v) (hne : v.ceMsgtype ≠ XFRM_MSG_EXPIRE) :
    Known xfrmnlSaOps v ∧ actOf xfrmnlSaOps v = saAct v := by
  have hact : saAct v = if announces xfrmnlSaOps v then .new else .del := by rw [saAct, saKeeps, if_neg hne]
  rw [hact, announces, Known, actOf]
  rcases hv.msgtype with htype | htype | htype | htype
  · rw [htype]
    decide
  · rw [htype]
    decide
  · rw [htype]
    decide
  · exact absurd htype hne

variable {good : SaVal → Prop} {w : Store XfrmnlSa} {held : ObjId → ℕ} {c : CacheId} {o : ObjId}

/-- a soft expiry is included like an object that is new -/
theorem soft_included (h : Inv xfrmSaObjOps good w held) (hexp : (w.val o).ceMsgtype = XFRM_MSG_EXPIRE)
    (hsoft : (w.val o).data.hard = 0) (cb : ChangeCb) (mem : Alloc) :
    xfrmSaUpdateCache w c o cb mem = cacheInclude xfrmSaObjOps w c o .new cb mem := by
  unfold xfrmSaUpdateCache cacheInclude nlCacheSearch
  rw [if_pos hexp, if_pos (Or.inl rfl)]
  cases hs : searchResult xfrmSaObjOps w c (w.val o) with
  | none =>
    rw [if_pos hsoft]
    rfl
  | some old =>
    obtain ⟨hmem, -⟩ := h.search_some hs
    have h1 := h.get (h.mem_lt_next hmem)
    have hnone : ∀ a b : SaVal, nlObjectUpdate xfrmSaObjOps a b = none := fun a b => nlObjectUpdate_none rfl rfl b
    have hclone : cloneOld xfrmSaObjOps (nlObjectGet w old) old cb mem.clone = (nlObjectGet w old, none) := by
      unfold cloneOld wantsClone
      simp [xfrmSaObjOps]
    rw [if_pos hsoft]
    simp only [withRef, removeFound, softExpired, includePresent, hclone, hnone, nlObjectPutOpt, includeReplaced, reduceCtorEq,
      if_false]
    cases cb with
    | none => simp [callback]
    | v1 => simp
    | v2 => simp

/-- a hard expiry takes out what is found for it, and is told in any case -/
theorem hard_becomes (h : Inv xfrmSaObjOps good w held) (hr : Regular xfrmSaObjOps good (w.caches c) (w.val o))
    (hhard : HardExpiry (w.val o)) (cb : ChangeCb) (mem : Alloc) :
    Becomes c w (xfrmSaUpdateCache w c o cb mem).1 (includeEntries xfrmSaObjOps .del (contents w c) (w.val o))
        (calls cb (.v1 (w.val o) .del) (.v2 (some (w.val o)) none 0 .del)) ∧
      Inv xfrmSaObjOps good (xfrmSaUpdateCache w c o cb mem).1 held := by
  have hscan := h.search_scan hr
  unfold xfrmSaUpdateCache nlCacheSearch
  rw [if_pos hhard.1, if_neg hhard.2]
  cases hs : searchResult xfrmSaObjOps w c (w.val o) with
  | none =>
    have hlook : entryOf xfrmSaObjOps (contents w c) (w.val o) = none := by
      rw [look_contents, ← hscan, hs]
      rfl
    simp only [includeEntries, hlook, reduceCtorEq, if_false]
    exact ⟨(Becomes.nothing c w).call cb _ _, h.called cb _ _⟩
  | some old =>
    rw [hs] at hscan
    obtain ⟨hmem, -⟩ := h.search_some hs
    have hold := h.mem_lt_next hmem
    have hq := quiet_get w old
    have h1 := h.get hold
    have hscan1 : scanIdentical xfrmSaObjOps (nlObjectGet w old) c (w.val o) = some old := by
      rw [h.quiet_scan hq]
      exact hscan.symm
    have hb1 := h1.becomes_removed hscan1
    have hval : ∀ a, (nlCacheRemove xfrmSaObjOps (nlObjectGet w old) old).val a = w.val a := fun a => by
      rw [h1.remove_val, get_val]
    have hlook : entryOf xfrmSaObjOps (contents w c) (w.val o) = some (w.entry old) := by
      rw [look_contents, ← hscan]
      rfl
    have hnone : ∀ a b : SaVal, nlObjectUpdate xfrmSaObjOps a b = none := fun a b => nlObjectUpdate_none rfl rfl b
    rw [h.quiet_contents hq] at hb1
    simp only [withRef, removeFound, hardExpired, hval, nlObjectPutOpt, includeEntries, hlook, hnone, if_true]
    exact ⟨((hb1.call cb _ _).quiet ((h1.remove old).called cb _ _) (quiet_put _ old)).after hq,
      ((h1.remove old).called cb _ _).put_added⟩

/-- **A notification is included.** -/
theorem Inv.saNotified (h : Inv xfrmSaObjOps good w held) (hcops : (w.caches c).cOps = xfrmnlSaOps)
    (hht : (w.caches c).hashtable = none) {v : SaVal} (hv : IsSa v) (cb : ChangeCb) :
    Becomes c w (saNotify w c cb v).1 (includeEntries xfrmSaObjOps (saAct v) (contents w c) v)
        (saEvents cb (contents w c) v) ∧ Inv xfrmSaObjOps good (saNotify w c cb v).1 held := by
  have hreg : Regular xfrmSaObjOps good (w.caches c) v := by
    have hno : ¬ (w.caches c).hashtable.isSome = true := by simp [hht]
    exact ⟨hv.ops.trans (congrArg CacheOps.coObjOps hcops).symm, fun hsome => absurd hsome hno,
      fun hsome => absurd hsome hno⟩
  by_cases hexp : v.ceMsgtype = XFRM_MSG_EXPIRE
  · have hq := quiet_alloc w v
    have hval := alloc_val_self w v
    have h1 := h.alloc v
    have hr1 : Regular xfrmSaObjOps good ((nlObjectAlloc w v).1.caches c) ((nlObjectAlloc w v).1.val w.next) := by
      rw [hq.caches, hval]
      exact hreg
    have hends : ∀ {es evs}, Becomes c (nlObjectAlloc w v).1
        (xfrmSaUpdateCache (nlObjectAlloc w v).1 c w.next cb ⟨true, true⟩).1 es evs →
        Inv xfrmSaObjOps good (xfrmSaUpdateCache (nlObjectAlloc w v).1 c w.next cb ⟨true, true⟩).1 (addRef held w.next) →
        Becomes c w (saNotify w c cb v).1 es evs ∧ Inv xfrmSaObjOps good (saNotify w c cb v).1 held := fun hb hi =>
      ⟨(hb.after hq).quiet hi (quiet_put _ w.next), hi.put_added⟩
    by_cases hsoft : v.data.hard = 0
    · have hf : Fresh (nlObjectAlloc w v).1 w.next :=
        ⟨Nat.lt_succ_self _, by simp [nlObjectAlloc], by simp [nlObjectAlloc]⟩
      obtain ⟨hb, hi⟩ := h1.becomes_included (c := c) hf hr1 (Or.inl rfl) cb
      have hact : saAct v = .new := by
        rw [saAct, saKeeps, if_pos hexp, hsoft]
        rfl
      have hnot : ¬ HardExpiry v := fun hhard => hhard.2 hsoft
      rw [← soft_included h1 (by rw [hval]; exact hexp) (by rw [hval]; exact hsoft)] at hb hi
      rw [h.quiet_contents hq, hval] at hb
      rw [saEvents, if_neg hnot, hact]
      exact hends hb hi
    · have hhard : HardExpiry v := ⟨hexp, hsoft⟩
      obtain ⟨hb, hi⟩ := hard_becomes h1 hr1 (by rw [hval]; exact hhard) cb ⟨true, true⟩
      have hact : saAct v = .del := by
        rw [saAct, saKeeps, if_pos hexp, decide_eq_false hsoft]
        rfl
      rw [h.quiet_contents hq, hval] at hb
      rw [saEvents, if_pos hhard, hact]
      exact hends hb hi
  · obtain ⟨hknown, hact⟩ := not_expire_known hv hexp
    have hnot : ¬ HardExpiry v := fun hhard => hexp hhard.1
    rw [← hcops] at hknown hact
    obtain ⟨hb, hi, -⟩ := h.notified hreg hknown cb
    have heq : saNotify w c cb v = notify xfrmSaObjOps w c cb v := by
      have hval := alloc_val_self w v
      unfold saNotify notify msgParser xfrmSaUpdateCache
      have hval' : (nlObjectAlloc w v).1.val (nlObjectAlloc w v).2 = v := hval
      simp only [hval', if_neg hexp]
    rw [heq, saEvents, if_neg hnot, ← hact]
    exact ⟨hb, hi⟩

end

/-! ## Associations that are parsed -/

/-- what an association is known by is always there -/
theorem saOf_carries (msgtype : ℤ) (hard : Option (BitVec 8)) (info : SaInfo) (a : SaAttrs) :
    (saOf msgtype hard info a).ceMask &&& (XFRM_SA_ATTR_DADDR ||| XFRM_SA_ATTR_SPI ||| XFRM_SA_ATTR_PROTO) =
      XFRM_SA_ATTR_DADDR ||| XFRM_SA_ATTR_SPI ||| XFRM_SA_ATTR_PROTO := by
  have hbit : ∀ (i : ℕ) (bit : BitVec 64), (saBits hard.isSome a)[i]? = some (bit, true) →
      maskOf (saBits hard.isSome a) &&& bit = bit := fun i bit hi =>
    maskOf_and (saBits_separate hard.isSome a) (List.mem_of_getElem? hi)
  show maskOf (saBits hard.isSome a) &&& _ = _
  rw [BitVec.and_or_distrib_left, BitVec.and_or_distrib_left, hbit 2 XFRM_SA_ATTR_DADDR rfl, hbit 3 XFRM_SA_ATTR_SPI rfl,
    hbit 4 XFRM_SA_ATTR_PROTO rfl]

/-- **Parsed objects** of such messages are objects that a cache can follow. -/
theorem xfrmnlSaParse_isSa [HostOrder] {n : NlMsg} {v : SaVal} (h : xfrmnlSaParse n = .ok v)
    (htype : n.nlmsgType = XFRM_MSG_NEWSA ∨ n.nlmsgType = XFRM_MSG_UPDSA ∨ n.nlmsgType = XFRM_MSG_DELSA ∨
      n.nlmsgType = XFRM_MSG_EXPIRE) : IsSa v := by
  simp only [xfrmnlSaParse] at h
  split_ifs at h with herr
  obtain rfl := Except.ok.inj h
  have hcast : ∀ k : ℕ, n.nlmsgType = k → (n.nlmsgType : ℤ) = k := fun k hk => by rw [hk]
  exact ⟨rfl, saOf_carries _ _ _ _, htype.imp (hcast _) (Or.imp (hcast _) (Or.imp (hcast _) (hcast _)))⟩

/-- attributes of which there is only a replay state -/
def onlyReplay (r : XfrmnlReplayState) : SaAttrs :=
  ⟨none, none, none, none, none, none, none, none, none, none, none, none, some r⟩

theorem onlyReplay_valid (family : BitVec 16) (r : XfrmnlReplayState) : (onlyReplay r).Valid family where
  aead := nofun
  auth := nofun
  authFits := nofun
  crypt := nofun
  comp := nofun
  encap := nofun
  coaddr := nofun
  secCtx := nofun
  esn := nofun
  one := nofun

/-- the message for an association with this replay state, and what is parsed of it -/
theorem replay_message [HostOrder] {info : SaInfo} (hinfo : info.Valid) (r : XfrmnlReplayState) :
    ∃ n info', xfrmnlSaParse n = .ok (saOf XFRM_MSG_NEWSA none info' (onlyReplay r)) ∧ n.nlmsgType = XFRM_MSG_NEWSA ∧
      info'.id = info.id := by
  have ha := onlyReplay_valid info.family r
  have hroom : saMsgSize (saOf 0 none info (onlyReplay r)) ≤ 1000000 := by
    have hle := saAttrsSize_le 0 info ha
    unfold saMsgSize
    omega
  obtain ⟨n, curlft, stats, seq, -, hparse, -, hnew⟩ := sa_written 0 hinfo ha 0
    (show XFRM_MSG_NEWSA ≠ XFRM_MSG_EXPIRE by decide) (by decide) (show 1000000 ≤ PTRDIFF_MAX by decide) hroom
  exact ⟨n, _, hparse, hnew, rfl⟩

/-! ## Runs -/

/-- the association that the last message about it left there -/
abbrev liveSa (as : List SaVal) (v : SaVal) : Option SaVal := latest saKey saKeeps as (saKey v)

section

variable [HostOrder]

/-- the objects of a cache of associations after these messages -/
def cachedSas (cb : ChangeCb) (v0 : SaVal) (as : List SaVal) : List SaVal :=
  (contents (saNotifyAll (emptyStore xfrmnlSaOps v0) 0 cb as) 0).map Entry.val

/-- the actions that the callback is told of when one more message is included -/
def saActs (cb : ChangeCb) (v0 : SaVal) (as : List SaVal) (v : SaVal) : List Act :=
  ((saNotifyAll (emptyStore xfrmnlSaOps v0) 0 cb (as ++ [v])).log.drop
    (saNotifyAll (emptyStore xfrmnlSaOps v0) 0 cb as).log.length).map Event.act

theorem saNotifyAll_snoc (w : Store XfrmnlSa) (c : CacheId) (cb : ChangeCb) (as : List SaVal) (v : SaVal) :
    saNotifyAll w c cb (as ++ [v]) = (saNotify (saNotifyAll w c cb as) c cb v).1 := by
  unfold saNotifyAll
  rw [List.foldl_append]
  rfl

/-- a cache that has followed these messages -/
structure Followed (w : Store XfrmnlSa) (as : List SaVal) : Prop where
  inv : Cache.Inv xfrmSaObjOps (fun _ => True) w fun _ => 0
  cOps : (w.caches 0).cOps = xfrmnlSaOps
  hashtable : (w.caches 0).hashtable = none
  contents : (contents w 0).map Entry.val = Track.follow saKeeps (nlObjectIdentical xfrmSaObjOps) as

theorem Followed.step {w : Store XfrmnlSa} {as : List SaVal} (h : Followed w as) {v : SaVal} (hv : IsSa v) (cb : ChangeCb) :
    Followed (saNotify w 0 cb v).1 (as ++ [v]) ∧
      (saNotify w 0 cb v).1.log = w.log ++ saEvents cb (Cache.contents w 0) v := by
  obtain ⟨hb, hi⟩ := Inv.saNotified h.inv h.cOps h.hashtable hv cb
  refine ⟨⟨hi, hb.cOps.trans h.cOps, ?_, ?_⟩, hb.log⟩
  · have hno : ((saNotify w 0 cb v).1.caches 0).hashtable.isSome = false := by rw [hb.hashed, h.hashtable]; rfl
    exact Option.not_isSome_iff_eq_none.1 (by rw [hno]; exact Bool.false_ne_true)
  · rw [hb.contents, follow_snoc, ← h.contents]
    exact include_advance (fun _ => rfl) rfl _

theorem followed {as : List SaVal} (has : ∀ v ∈ as, IsSa v) (cb : ChangeCb) (v0 : SaVal) :
    Followed (saNotifyAll (emptyStore xfrmnlSaOps v0) 0 cb as) as := by
  induction as using List.reverseRecOn with
  | nil => exact ⟨emptyStore_inv _ _ _, rfl, rfl, rfl⟩
  | append_singleton as v ih =>
    rw [saNotifyAll_snoc]
    exact ((ih fun x hx => has x (List.mem_append_left _ hx)).step (has v (by simp)) cb).1

/-- the actions, by what is found for the message -/
def foundActs (l : List SaVal) (v : SaVal) : List Act :=
  if HardExpiry v then [.del]
  else (l.find? fun x => nlObjectIdentical xfrmSaObjOps x v).elim (if saKeeps v then [.new] else []) fun oldSa =>
    if saKeeps v then (if nlObjectDiff64 xfrmSaObjOps oldSa v ≠ 0 then [.change] else []) else [.del]

theorem saEvents_act {cb : ChangeCb} (hcb : cb ≠ .none) (es : List (Entry XfrmnlSa)) (v : SaVal) :
    (saEvents cb es v).map Event.act = foundActs (es.map Entry.val) v := by
  have hcalls : ∀ e1 e2 : Event XfrmnlSa, e1.act = e2.act → (calls cb e1 e2).map Event.act = [e1.act] := by
    intro e1 e2 hact
    cases cb with
    | none => exact absurd rfl hcb
    | v1 => rfl
    | v2 => rw [hact]; rfl
  have hfind : (es.map Entry.val).find? (fun x => nlObjectIdentical xfrmSaObjOps x v) =
      (entryOf xfrmSaObjOps es v).map Entry.val := List.find?_map ..
  have hnone : ∀ a b : SaVal, nlObjectUpdate xfrmSaObjOps a b = none := fun a b => nlObjectUpdate_none rfl rfl b
  unfold saEvents foundActs
  by_cases hhard : HardExpiry v
  · rw [if_pos hhard, if_pos hhard]
    exact hcalls _ _ rfl
  · rw [if_neg hhard, if_neg hhard, hfind, includeEvents, saAct]
    cases entryOf xfrmSaObjOps es v with
    | none =>
      cases saKeeps v with
      | true => exact hcalls _ _ rfl
      | false => rfl
    | some oldSa =>
      simp only [hnone, Option.map_some, Option.elim_some]
      cases saKeeps v with
      | true =>
        by_cases hdiff : nlObjectDiff64 xfrmSaObjOps oldSa.val v ≠ 0
        · simp only [if_true, reduceCtorEq, if_false, if_pos hdiff]
          exact hcalls _ _ rfl
        · simp only [if_true, reduceCtorEq, if_false, if_neg hdiff, List.map_nil]
      | false => exact hcalls _ _ rfl

theorem saActs_eq {as : List SaVal} {v : SaVal} (has : ∀ x ∈ as, IsSa x) (hv : IsSa v) {cb : ChangeCb} (hcb : cb ≠ .none)
    (v0 : SaVal) :
    saActs cb v0 as v = foundActs (Track.follow saKeeps (nlObjectIdentical xfrmSaObjOps) as) v := by
  have hf := followed has cb v0
  rw [saActs, saNotifyAll_snoc, (hf.step hv cb).2, List.drop_left, saEvents_act hcb, hf.contents]

omit [HostOrder] in
/-- callbacks say what happens to the association: it is new if it was not there, and changed or deleted only if it was -/
structure Told (as : List SaVal) (v : SaVal) (acts : List Act) : Prop where
  new : Act.new ∈ acts → liveSa as v = none
  change : Act.change ∈ acts → liveSa as v ≠ none
  del : Act.del ∈ acts → liveSa as v ≠ none
  announced : saKeeps v = true → liveSa as v = none → acts = [.new]

omit [HostOrder] in
/-- the replay state agrees with that of the association, if it is there; and time is up only for an association that is -/
structure Fits (as : List SaVal) (v : SaVal) : Prop where
  replay : ∀ u, liveSa as v = some u → ReplayAgree u v
  hard : HardExpiry v → liveSa as v ≠ none

section

variable {vs : List SaVal} (hvs : ∀ v ∈ vs, IsSa v)
include hvs

/-- **What is found** for a message that fits is the association. -/
theorem find_of_fits {as l : List SaVal} {v : SaVal} (hpre : as ++ [v] <+: vs) (hfits : Fits as v)
    (hl : Exact saKey saKeeps as l) : (l.find? fun x => nlObjectIdentical xfrmSaObjOps x v) = liveSa as v := by
  have has : as <+: vs := (List.prefix_append as [v]).trans hpre
  have hv : IsSa v := hvs v (hpre.subset (by simp))
  rw [liveSa, ← hl.find]
  refine List.find?_congr fun x hx => ?_
  have hlatest := hl.mem hx
  have hxsa : IsSa x := hvs x (has.subset (mem_follow (mem_living.2 hlatest)).1)
  rw [Bool.eq_iff_iff, identical_iff_key hxsa hv, decide_eq_true_eq]
  refine ⟨And.left, fun hkey => ⟨hkey, hfits.replay x ?_⟩⟩
  rw [liveSa, ← hkey]
  exact hlatest

/-- if the association is found, its replay state agrees -/
theorem replay_of_find {as : List SaVal} {v : SaVal} (hpre : as ++ [v] <+: vs)
    (hfind : (living saKey saKeeps as).find? (fun x => nlObjectIdentical xfrmSaObjOps x v) =
      (living saKey saKeeps as).find? fun x => sameKey saKey x v) {u : SaVal} (hu : liveSa as v = some u) :
    ReplayAgree u v := by
  have has : as <+: vs := (List.prefix_append as [v]).trans hpre
  have hlive : (living saKey saKeeps as).find? (fun x => sameKey saKey x v) = some u :=
    ((exact_living saKey saKeeps as).find (saKey v)).trans hu
  have hmem := List.mem_of_find?_eq_some hlive
  have hid := List.find?_some (hfind.trans hlive)
  have husa : IsSa u := hvs u (has.subset (mem_follow hmem).1)
  exact ((identical_iff_key husa (hvs v (hpre.subset (by simp)))).1 hid).2

end

omit [HostOrder] in
/-- an association whose time is up is not there -/
theorem HardExpiry.not_kept {v : SaVal} (h : HardExpiry v) : saKeeps v = false := by
  rw [saKeeps, if_pos h.1]
  exact decide_eq_false h.2

/-- **What is told** of a message for which the association is found -/
theorem told_of_found {as l : List SaVal} {v : SaVal} (hfits : Fits as v)
    (hfind : (l.find? fun x => nlObjectIdentical xfrmSaObjOps x v) = liveSa as v) : Told as v (foundActs l v) := by
  unfold foundActs
  by_cases hhard : HardExpiry v
  · have hkept := hhard.not_kept
    rw [if_pos hhard]
    exact ⟨by simp, by simp, fun _ => hfits.hard hhard, by simp [hkept]⟩
  · rw [if_neg hhard, hfind]
    cases hlive : liveSa as v with
    | none =>
      simp only [Option.elim_none]
      cases hkeep : saKeeps v with
      | true => exact ⟨fun _ => hlive, by simp, by simp, fun _ _ => rfl⟩
      | false => exact ⟨by simp, by simp, by simp, fun hkeep' => by simp [hkeep] at hkeep'⟩
    | some u =>
      have hthere : liveSa as v ≠ none := by simp [hlive]
      simp only [Option.elim_some]
      cases hkeep : saKeeps v with
      | true =>
        by_cases hdiff : nlObjectDiff64 xfrmSaObjOps u v ≠ 0
        · simp only [if_true, if_pos hdiff]
          exact ⟨by simp, fun _ => hthere, by simp, fun _ hnone => absurd hnone hthere⟩
        · simp only [if_true, if_neg hdiff]
          exact ⟨by simp, by simp, by simp, fun _ hnone => absurd hnone hthere⟩
      | false => exact ⟨by simp, by simp, fun _ => hthere, fun hkeep' => by simp [hkeep] at hkeep'⟩

/-- **Tracking.** In a run of messages about associations, a cache holds exactly the live associations after every prefix, and
callbacks say what happens and are the same in both versions, exactly when every message fits: the replay state it has
agrees with that of the association, and no time is up for an association that is not there. -/
theorem sas_tracked_iff (v0 : SaVal) {vs : List SaVal} (hvs : ∀ v ∈ vs, IsSa v) :
    ((∀ cb as, as <+: vs → Exact saKey saKeeps as (cachedSas cb v0 as)) ∧
      (∀ cb, cb ≠ .none → ∀ as v, as ++ [v] <+: vs → Told as v (saActs cb v0 as v)) ∧
      ∀ as v, as ++ [v] <+: vs → saActs .v1 v0 as v = saActs .v2 v0 as v) ↔
    ∀ as v, as ++ [v] <+: vs → Fits as v := by
  have hcached : ∀ cb as, as <+: vs → cachedSas cb v0 as =
      Track.follow saKeeps (nlObjectIdentical xfrmSaObjOps) as := fun cb as has =>
    (followed (fun v hv => hvs v (has.subset hv)) cb v0).contents
  have hacts : ∀ cb, cb ≠ .none → ∀ as v, as ++ [v] <+: vs → saActs cb v0 as v =
      foundActs (Track.follow saKeeps (nlObjectIdentical xfrmSaObjOps) as) v := fun cb hcb as v hpre =>
    saActs_eq (fun x hx => hvs x (hpre.subset (List.mem_append_left _ hx))) (hvs v (hpre.subset (by simp))) hcb v0
  have hexact := exact_iff saKey saKeeps (nlObjectIdentical xfrmSaObjOps) vs
  constructor
  · rintro ⟨hall, htold, -⟩ as v hpre
    have hfind := hexact.1 (fun bs hbs => by rw [← hcached .v1 bs hbs]; exact hall .v1 bs hbs) as v hpre
    refine ⟨fun u hu => replay_of_find hvs hpre hfind hu, fun hhard => ?_⟩
    refine (htold .v1 (by decide) as v hpre).del ?_
    rw [hacts .v1 (by decide) as v hpre, foundActs, if_pos hhard]
    exact List.mem_singleton_self _
  · intro hfits
    have hall := hexact.2 fun as v hpre => (find_of_fits hvs hpre (hfits as v hpre) (exact_living saKey saKeeps as)).trans
      ((exact_living saKey saKeeps as).find (saKey v)).symm
    refine ⟨fun cb as has => ?_, fun cb hcb as v hpre => ?_, fun as v hpre => ?_⟩
    · rw [hcached cb as has]
      exact hall as has
    · rw [hacts cb hcb as v hpre]
      exact told_of_found (hfits as v hpre)
        (find_of_fits hvs hpre (hfits as v hpre) (hall as ((List.prefix_append as [v]).trans hpre)))
    · rw [hacts .v1 (by decide) as v hpre, hacts .v2 (by decide) as v hpre]

/-- two messages that say that the association is there, with replay states that do not agree -/
theorem doubled {v1 v2 : SaVal} (h1 : IsSa v1) (h2 : IsSa v2) (hkeeps1 : saKeeps v1 = true) (hkeeps2 : saKeeps v2 = true)
    (hreplay : ¬ ReplayAgree v1 v2) (cb : ChangeCb) (v0 : SaVal) : cachedSas cb v0 [v1, v2] = [v1, v2] := by
  have hother : nlObjectIdentical xfrmSaObjOps v1 v2 = false := by
    rw [Bool.eq_false_iff]
    exact fun hid => hreplay ((identical_iff_key h1 h2).1 hid).2
  have hall : ∀ v ∈ [v1, v2], IsSa v := by
    intro v hv
    rcases List.mem_pair.1 hv with rfl | rfl
    · exact h1
    · exact h2
  rw [cachedSas, (followed hall cb v0).contents]
  simp only [Track.follow, List.foldl_cons, List.foldl_nil, advance, List.eraseP_nil, hkeeps1, hkeeps2, if_true,
    List.nil_append, List.eraseP_cons, hother, cond_false, List.cons_append]

end

theorem not_exact_pair {v1 v2 : SaVal} (hkey : saKey v1 = saKey v2) (as : List SaVal) :
    ¬ Exact saKey saKeeps as [v1, v2] := by
  intro hexact
  have hboth := congrArg List.length (hexact (saKey v2))
  rw [List.filter_cons_of_pos (by simpa using hkey), List.filter_cons_of_pos (by simp)] at hboth
  cases hlatest : latest saKey saKeeps as (saKey v2) with
  | none => simp [hlatest] at hboth
  | some u => simp [hlatest] at hboth

/-- one that comes twice, with a replay state -/
theorem sas_tracked_sample : ∃ n v, @xfrmnlSaParse ⟨false⟩ n = .ok v ∧ v.ceMsgtype = XFRM_MSG_NEWSA ∧
    v.data.replayState = ⟨0, 7, 1⟩ ∧
    ((∀ cb as, as <+: [v, v] → Exact saKey saKeeps as (@cachedSas ⟨false⟩ cb v as)) ∧
      (∀ cb, cb ≠ .none → ∀ as u, as ++ [u] <+: [v, v] → Told as u (@saActs ⟨false⟩ cb v as u)) ∧
      ∀ as u, as ++ [u] <+: [v, v] → @saActs ⟨false⟩ .v1 v as u = @saActs ⟨false⟩ .v2 v as u) := by
  let order : HostOrder := ⟨false⟩
  have hinfo : (sampleSaInfo 2 [10, 0, 0, 1]).Valid := sampleSaInfo_valid rfl
  obtain ⟨n, info, hparse, hnew, -⟩ := replay_message hinfo ⟨0, 7, 1⟩
  generalize hv : saOf XFRM_MSG_NEWSA none info (onlyReplay ⟨0, 7, 1⟩) = v at hparse
  have htype : v.ceMsgtype = XFRM_MSG_NEWSA := by rw [← hv]; rfl
  have hstate : v.data.replayState = ⟨0, 7, 1⟩ := by rw [← hv]; rfl
  have hsa := xfrmnlSaParse_isSa hparse (Or.inl hnew)
  refine ⟨n, v, hparse, htype, hstate, (sas_tracked_iff v fun u hu => ?_).2 fun as u hpre => ?_⟩
  · obtain rfl : u = v := by simpa using hu
    exact hsa
  · have hsame : ∀ x ∈ as ++ [u], x = v := fun x hx => by simpa using hpre.subset hx
    obtain rfl := hsame u (by simp)
    refine ⟨fun x hx => ?_, fun hhard => ?_⟩
    · have hkey : saKey x = saKey u := latest_key hx
      rw [liveSa, ← hkey] at hx
      have hmem := (mem_follow (mem_living.2 hx)).1
      rw [hsame x (List.mem_append_left _ hmem)]
      exact fun _ _ => ⟨rfl, fun _ => rfl⟩
    · have hno : (XFRM_MSG_NEWSA : ℤ) ≠ XFRM_MSG_EXPIRE := by decide
      exact absurd (htype.symm.trans hhard.1) hno

/-- **An association that is there twice**: its second message has another replay state. -/
theorem replay_doubles : ∃ n1 n2 v1 v2, @xfrmnlSaParse ⟨false⟩ n1 = .ok v1 ∧ @xfrmnlSaParse ⟨false⟩ n2 = .ok v2 ∧
    v1.ceMsgtype = XFRM_MSG_NEWSA ∧ v2.ceMsgtype = XFRM_MSG_NEWSA ∧ saKey v1 = saKey v2 ∧
    @cachedSas ⟨false⟩ .v1 v1 [v1, v2] = [v1, v2] ∧
    ¬ Exact saKey saKeeps [v1, v2] (@cachedSas ⟨false⟩ .v1 v1 [v1, v2]) := by
  let order : HostOrder := ⟨false⟩
  have hinfo : (sampleSaInfo 2 [10, 0, 0, 1]).Valid := sampleSaInfo_valid rfl
  obtain ⟨n1, info1, hparse1, hnew1, hid1⟩ := replay_message hinfo ⟨0, 7, 1⟩
  obtain ⟨n2, info2, hparse2, hnew2, hid2⟩ := replay_message hinfo ⟨0, 8, 3⟩
  have hsa1 := xfrmnlSaParse_isSa hparse1 (Or.inl hnew1)
  have hsa2 := xfrmnlSaParse_isSa hparse2 (Or.inl hnew2)
  have hkey : saKey (saOf XFRM_MSG_NEWSA none info1 (onlyReplay ⟨0, 7, 1⟩)) =
      saKey (saOf XFRM_MSG_NEWSA none info2 (onlyReplay ⟨0, 8, 3⟩)) := by
    have hid : info1.id = info2.id := hid1.trans hid2.symm
    show (addrKey (some info1.id.daddr), info1.id.spi, info1.id.proto) = _
    rw [hid]
    rfl
  have hreplay : ¬ ReplayAgree (saOf XFRM_MSG_NEWSA none info1 (onlyReplay ⟨0, 7, 1⟩))
      (saOf XFRM_MSG_NEWSA none info2 (onlyReplay ⟨0, 8, 3⟩)) := by
    intro hagree
    have hseq : (7 : BitVec 32) = 8 := congrArg XfrmnlReplayState.seq ((hagree rfl rfl).2 rfl)
    revert hseq
    decide
  have hcached := doubled hsa1 hsa2 rfl rfl hreplay .v1 (saOf XFRM_MSG_NEWSA none info1 (onlyReplay ⟨0, 7, 1⟩))
  refine ⟨n1, n2, _, _, hparse1, hparse2, rfl, rfl, hkey, hcached, ?_⟩
  rw [hcached]
  exact not_exact_pair hkey _

end Libnl.Xfrm
