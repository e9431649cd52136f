/-
Policy messages: the round trip.

The parser makes an object of a header and attributes (`spOf`). The builder puts the same header, without current
lifetimes, and the same attributes, each template in sixty-four bytes of its own; what stands between the members of a
template is not known, and not read.

- `userTmplAt_holds`, `spInfoAt_holds`: structures that were stored are read again.
- `putUserTmpls_room`: the bytes the loop over the templates leaves behind.
- `read_attrs`: what the parser finds.
- `sp_round_trip`: the policy that is parsed of the message that was built.
-/
import Mathlib.Tactic
import Libnl.Message.Validate
import Libnl.Xfrm.Policy

namespace Libnl.Xfrm

open Bytes Layout Msg Attr AttrWalk AttrTree AttrStream Writer Fields
open Reserve Validate Mask Object Addr

/-! ## Templates -/

section

variable [HostOrder]

omit [HostOrder] in
/-- a template whose addresses are of its family -/
structure XfrmnlUserTmpl.Valid (t : XfrmnlUserTmpl) : Prop where
  daddr : OfFamily t.family t.daddr
  saddr : OfFamily t.family t.saddr

theorem userTmplAt_valid (m : Mem) (p : ℕ) : (userTmplAt m p).Valid := ⟨addrAt_ofFamily _ _ _, addrAt_ofFamily _ _ _⟩

theorem userTmplPieces_laidOut {t : XfrmnlUserTmpl} (h : t.Valid) : laidOut 0 64 (userTmplPieces t) := by
  have hd := h.daddr.le
  have hs := h.saddr.le
  simp only [userTmplPieces, laidOut, be32Bytes_length, u16Bytes_length, u32Bytes_length, List.length_cons,
    List.length_nil]
  omega

/-- **A template, put and read** -/
theorem userTmplAt_holds {t : XfrmnlUserTmpl} (h : t.Valid) {m : Mem} {p : ℕ} (hm : Holds m p (userTmplPieces t)) :
    userTmplAt m p = t := by
  obtain ⟨hd, hspi, hproto, hfam, hs, hreqid, hmode, hshare, hopt, ha, he, hc, -⟩ := hm
  have hdaddr := addrAt_seg h.daddr hd
  have hsaddr := addrAt_seg h.saddr hs
  rw [add_zero] at hdaddr
  simp only [userTmplAt, seg_u16At hfam, hdaddr, hsaddr, hspi.getBe32, seg_u8At hproto, seg_u32At hreqid, seg_u8At hmode,
    seg_u8At hshare, seg_u8At hopt, seg_u32At ha, seg_u32At he, seg_u32At hc]

/-- the templates stand one behind the other from `p` on -/
def TmplsHold (buf : Mem) (p : ℕ) : List XfrmnlUserTmpl → Prop
  | [] => True
  | t :: ts => Holds buf p (userTmplPieces t) ∧ TmplsHold buf (p + 64) ts

/-- **The loop over the templates**, with room -/
theorem putUserTmpls_room {ts : List XfrmnlUserTmpl} (hts : ∀ t ∈ ts, t.Valid) {m : NlMsg} (hm : Tidy m)
    (hroom : Room m (64 * ts.length)) :
    ∃ m' a, putUserTmpls ts m = (m', 0) ∧ a.length = 64 * ts.length ∧ Wrote m m' a ∧
      ∀ buf p, Seg buf p a → TmplsHold buf p ts := by
  induction ts generalizing m with
  | nil => exact ⟨m, [], rfl, rfl, Wrote.nil hm, fun _ _ _ => trivial⟩
  | cons t ts ih =>
    rw [List.length_cons, Nat.mul_succ, Nat.add_comm] at hroom
    have hlay := userTmplPieces_laidOut (hts t List.mem_cons_self)
    obtain ⟨m1, a, hres, halen, hw1⟩ := nlmsgReserve_aligned hm (n := 64) rfl (room_mono hroom (Nat.le_add_right _ _))
    rw [← halen] at hlay
    obtain ⟨b, hblen, hw2, hheld⟩ := Wrote.stores [] a hw1 hlay
    rw [List.length_nil, add_zero, List.nil_append] at hw2
    have hb : b.length = 64 := hblen.trans halen
    obtain ⟨m3, c, hput, hclen, hw3, hrest⟩ := ih (fun x hx => hts x (List.mem_cons_of_mem t hx)) hw2.tidy
      (room_after hw2 (by rw [hb]; exact hroom))
    refine ⟨m3, b ++ c, ?_, ?_, hw2.append hw3, fun buf p hseg => ?_⟩
    · rw [putUserTmpls, hres, inNest_some, hput]
    · rw [List.length_append, hb, hclen, List.length_cons]
      omega
    · obtain ⟨hone, hmore⟩ := seg_append.1 hseg
      rw [hb] at hmore
      exact ⟨hheld buf p hone, hrest buf (p + 64) hmore⟩

/-- the templates that are read -/
theorem userTmpls_read {ts : List XfrmnlUserTmpl} (hts : ∀ t ∈ ts, t.Valid) {buf : Mem} {p : ℕ} (h : TmplsHold buf p ts) :
    (List.range ts.length).map (fun i => userTmplAt buf (p + 64 * i)) = ts := by
  induction ts generalizing p with
  | nil => rfl
  | cons t ts ih =>
    have hrest := ih (fun x hx => hts x (List.mem_cons_of_mem t hx)) h.2
    have hone := userTmplAt_holds (hts t List.mem_cons_self) h.1
    rw [List.length_cons, List.range_succ_eq_map, List.map_cons, List.map_map, Nat.mul_zero, add_zero, hone]
    refine congrArg (List.cons t) (Eq.trans (List.map_congr_left fun i _ => ?_) hrest)
    simp only [Function.comp_apply]
    congr 1
    omega

/-- **The attribute with the templates**, read -/
theorem userTmplsAt_holds {ts : List XfrmnlUserTmpl} (hts : ∀ t ∈ ts, t.Valid) {buf : Mem} {pos type : ℕ}
    {payload : List UInt8} (hat : At buf pos ⟨type, payload⟩) (hlen : payload.length = 64 * ts.length)
    (hfit : payload.length < 65536) (h : TmplsHold buf (nlaData pos) ts) : userTmplsAt buf pos = ts := by
  have hnum : numTmpls buf pos = ts.length := by
    have hnla := hat.len
    simp only at hnla
    unfold numTmpls toU32 toU64
    omega
  rw [userTmplsAt, hnum]
  exact userTmpls_read hts h

/-! ## The header -/

omit [HostOrder] in
/-- a header with a valid selector -/
def SpInfo.Valid (info : SpInfo) : Prop := info.sel.Valid

/-- the members of the header, all of them but the current lifetimes -/
def spInfoPieces (info : SpInfo) : Pieces :=
  selPieces info.sel ++ (shift 56 (ltimeCfgPieces info.lft) ++
    [(152, u32Bytes info.priority.toNat), (156, u32Bytes info.index.toNat), (160, [UInt8.ofBitVec info.dir]),
      (161, [UInt8.ofBitVec info.action]), (162, [UInt8.ofBitVec info.flags]), (163, [UInt8.ofBitVec info.share])])

theorem spInfoPieces_laidOut {info : SpInfo} (h : info.Valid) : laidOut 0 168 (spInfoPieces info) := by
  refine laidOut_append (selPieces_laidOut h) (laidOut_append (laidOut_shift (ltimeCfgPieces_laidOut info.lft)) ?_)
  simp only [laidOut, u32Bytes_length, List.length_cons, List.length_nil]
  omega

/-- **A header, put and read**; the current lifetimes are those of the memory -/
theorem spInfoAt_holds {info : SpInfo} (h : info.Valid) {m : Mem} {p : ℕ} (hm : Holds m p (spInfoPieces info)) :
    spInfoAt m p = { info with curlft := lifetimeCurAt m (p + 120) } := by
  obtain ⟨hsel, hrest⟩ := holds_append.1 hm
  obtain ⟨hlft, hprio, hindex, hdir, haction, hflags, hshare, -⟩ := holds_append.1 hrest
  rw [holds_shift] at hlft
  rw [spInfoAt, selAt_holds h hsel, ltimeCfgAt_holds hlft, seg_u32At hprio, seg_u32At hindex, seg_u8At hdir,
    seg_u8At haction, seg_u8At hflags, seg_u8At hshare]

theorem spInfoAt_valid (m : Mem) (p : ℕ) : (spInfoAt m p).Valid := selAt_valid m p

/-! ## The attributes -/

omit [HostOrder] in
/-- attributes as they are read of a well-formed message -/
structure SpAttrs.Valid (a : SpAttrs) : Prop where
  secCtx : ∀ s ∈ a.secCtx, s.ctx.length = s.ctxLen.toNat ∧ 12 + s.ctx.length ≤ 65535
  uptype : ∀ u ∈ a.uptype, u.length = 6
  tmpls : ∀ ts ∈ a.tmpls, (∀ t ∈ ts, t.Valid) ∧ ts ≠ [] ∧ 4 + 64 * ts.length ≤ 65535

/-- attributes as the builder puts them, the templates as some bytes -/
def attrFields (a : SpAttrs) (tmpls : Option (List UInt8)) : FieldList :=
  [(XFRMA_SEC_CTX, a.secCtx.map XfrmnlUserSecCtx.bytes), (XFRMA_POLICY_TYPE, a.uptype), (32768 + XFRMA_TMPL, tmpls),
    (XFRMA_MARK, a.mark.map XfrmnlMark.bytes)]

theorem attrFields_distinct (a : SpAttrs) (tmpls : Option (List UInt8)) : Distinct (attrFields a tmpls) := by
  show List.Nodup _
  simp only [attrFields, List.map_cons, List.map_nil]
  decide

/-- bytes that hold these templates -/
def HoldTmpls (ts : List XfrmnlUserTmpl) (payload : List UInt8) : Prop :=
  payload.length = 64 * ts.length ∧ ∀ buf p, Seg buf p payload → TmplsHold buf p ts

theorem attrFields_sendable {a : SpAttrs} (ha : a.Valid) {tmpls : Option (List UInt8)}
    (h : Option.Rel HoldTmpls a.tmpls tmpls) : Sendable spPolicy (attrFields a tmpls) := by
  refine Sendable.cons (by decide) (sends_min (by decide) (by decide) fun q hq => ?_)
    (Sendable.cons (by decide) (sends_min (by decide) (by decide) fun q hq => ?_)
    (Sendable.cons (by decide) (sends_min (by decide) (by decide) fun q hq => ?_)
    (Sendable.cons (by decide) (sends_min (by decide) (by decide) fun q hq => ?_) (Sendable.nil _))))
  · obtain ⟨s, hs, rfl⟩ := Option.mem_map.1 hq
    have hlen := secCtx_length s
    have hfit := (ha.secCtx s hs).2
    exact ⟨by omega, show 8 ≤ s.bytes.length by omega⟩
  · have hlen := ha.uptype q hq
    exact ⟨by omega, show 6 ≤ q.length by omega⟩
  · cases hts : a.tmpls with
    | none =>
      rw [hts, Option.mem_def.1 hq] at h
      cases h
    | some ts =>
      rw [hts, Option.mem_def.1 hq] at h
      cases h with
      | some hold =>
        obtain ⟨-, hne, hfit⟩ := ha.tmpls ts hts
        have hlen := hold.1
        have hpos := List.length_pos_iff.2 hne
        exact ⟨by omega, show 64 ≤ q.length by omega⟩
  · obtain ⟨mk, -, rfl⟩ := Option.mem_map.1 hq
    have hlen := mark_length mk
    exact ⟨by omega, show 8 ≤ mk.bytes.length by omega⟩

/-- **What is read** of attributes that were put -/
theorem read_attrs {buf : Mem} {tb : Index} {a : SpAttrs} (ha : a.Valid) {tmpls : Option (List UInt8)}
    (hput : Option.Rel HoldTmpls a.tmpls tmpls) (h : Indexes buf XFRMA_MAX (leavesOf (attrFields a tmpls)) tb) :
    readSpAttrs buf tb = a := by
  have hget : ∀ i t p, (attrFields a tmpls)[i]? = some (t, p) → t % 16384 ≤ XFRMA_MAX → Shown buf tb (t % 16384) p :=
    fun i t p hi ht => shown_of_indexes h (attrFields_distinct a tmpls) (List.mem_of_getElem? hi) ht
  have hsec : (tb XFRMA_SEC_CTX).map (fun p => secCtxAt buf (nlaData p)) = a.secCtx :=
    (hget 0 XFRMA_SEC_CTX _ rfl (by decide)).same fun _ _ s hs hat => secCtxAt_seg (ha.secCtx s hs).1 hat.data
  have htype : (tb XFRMA_POLICY_TYPE).map (fun p => readBytes buf (nlaData p) 6) = a.uptype := by
    have hshown : Shown buf tb XFRMA_POLICY_TYPE (a.uptype.map id) := by
      rw [Option.map_id, id_eq]
      exact hget 1 XFRMA_POLICY_TYPE _ rfl (by decide)
    refine hshown.same fun pos type u hu hat => ?_
    rw [← ha.uptype u hu]
    exact hat.bytes
  have hmark : (tb XFRMA_MARK).map (fun p => markAt buf (nlaData p)) = a.mark :=
    (hget 3 XFRMA_MARK _ rfl (by decide)).same fun _ _ _ _ hat => markAt_seg hat.data
  have htmpls : (tb XFRMA_TMPL).map (userTmplsAt buf) = a.tmpls := by
    have hshown := hget 2 (32768 + XFRMA_TMPL) _ rfl (by decide)
    cases hts : a.tmpls with
    | none =>
      rw [hts] at hput
      cases hput with
      | none =>
        have hnone : tb XFRMA_TMPL = none := hshown
        rw [hnone]
        rfl
    | some ts =>
      rw [hts] at hput
      cases hput with
      | some hold =>
        obtain ⟨pos, type, hpos, hat⟩ := hshown
        have htb : tb XFRMA_TMPL = some pos := hpos
        obtain ⟨hvalid, -, hfit⟩ := ha.tmpls ts hts
        have hlen := hold.1
        rw [htb, Option.map_some, userTmplsAt_holds hvalid hat hlen (by omega) (hold.2 buf (nlaData pos) hat.data)]
  rw [readSpAttrs, hsec, htype, hmark, htmpls]

end

/-! ## The object -/

/-- **Templates that are added** one after the other -/
theorem foldl_addUsertemplate (ts : List XfrmnlUserTmpl) (sp : SpVal) : ts.foldl xfrmnlSpAddUsertemplate sp =
    { sp with
      ceMask := (if ts.isEmpty then 0 else XFRM_SP_ATTR_TMPL) ||| sp.ceMask
      data := { sp.data with
        usertmplList := sp.data.usertmplList ++ ts
        nrUserTmpl := sp.data.nrUserTmpl + BitVec.ofNat 32 ts.length } } := by
  induction ts generalizing sp with
  | nil => simp
  | cons t ts ih =>
    have hmask : (if ts.isEmpty then 0 else XFRM_SP_ATTR_TMPL) ||| (sp.ceMask ||| XFRM_SP_ATTR_TMPL) =
        XFRM_SP_ATTR_TMPL ||| sp.ceMask := by
      rw [BitVec.or_comm sp.ceMask, ← BitVec.or_assoc]
      cases ts with
      | nil => simp
      | cons _ _ => simp
    have hcount : sp.data.nrUserTmpl + 1 + BitVec.ofNat 32 ts.length =
        sp.data.nrUserTmpl + BitVec.ofNat 32 (ts.length + 1) := by
      rw [BitVec.add_assoc, BitVec.ofNat_add, BitVec.add_comm 1]
      rfl
    rw [List.foldl_cons, ih]
    simp only [xfrmnlSpAddUsertemplate, hmask, hcount, List.append_assoc, List.singleton_append, List.isEmpty_cons,
      Bool.false_eq_true, if_false, List.length_cons]

/-- all attributes of the object, each with whether the message has it -/
def spAllBits (a : SpAttrs) : List (BitVec 64 × Bool) := (XFRM_SP_ATTR_TMPL, !(a.tmpls.getD []).isEmpty) :: spBits a

theorem spAllBits_separate (a : SpAttrs) : separate ((spAllBits a).map Prod.fst) = true := by
  simp only [spAllBits, spBits, List.map_cons, List.map_nil]
  rfl

section

variable (msgtype : ℤ) (info : SpInfo) (a : SpAttrs)

theorem spOf_mask : (spOf msgtype info a).ceMask = maskOf (spAllBits a) := by
  rw [spOf, foldl_addUsertemplate, spAllBits, maskOf]
  cases (a.tmpls.getD []).isEmpty with
  | true => rfl
  | false => rfl

theorem has_spOf (i : ℕ) (bit : BitVec 64) {there : Bool} (h : (spAllBits a)[i]? = some (bit, there)) :
    has (spOf msgtype info a) bit = there :=
  has_of_mask (spOf_mask msgtype info a) (spAllBits_separate a) (List.mem_of_getElem? h)

theorem spOf_data : (spOf msgtype info a).data =
    { sel := info.sel
      lft := info.lft
      curlft := info.curlft
      priority := info.priority
      index := info.index
      dir := info.dir
      action := info.action
      flags := info.flags
      share := info.share
      secCtx := a.secCtx
      uptype := a.uptype.getD (List.replicate 6 0)
      nrUserTmpl := 0 + BitVec.ofNat 32 (a.tmpls.getD []).length
      usertmplList := [] ++ a.tmpls.getD []
      mark := a.mark.getD ⟨0, 0⟩ } := by
  rw [spOf, foldl_addUsertemplate]

variable [HostOrder]

/-- the header of the message that is built -/
theorem spPieces_spOf : spPieces (spOf msgtype info a) = spInfoPieces info := by
  have hsel := has_spOf msgtype info a 1 XFRM_SP_ATTR_SEL rfl
  have hlft := has_spOf msgtype info a 2 XFRM_SP_ATTR_LTIME_CFG rfl
  have hprio := has_spOf msgtype info a 4 XFRM_SP_ATTR_PRIO rfl
  have hindex := has_spOf msgtype info a 5 XFRM_SP_ATTR_INDEX rfl
  have hdir := has_spOf msgtype info a 6 XFRM_SP_ATTR_DIR rfl
  have haction := has_spOf msgtype info a 7 XFRM_SP_ATTR_ACTION rfl
  have hflags := has_spOf msgtype info a 8 XFRM_SP_ATTR_FLAGS rfl
  have hshare := has_spOf msgtype info a 9 XFRM_SP_ATTR_SHARE rfl
  simp only [spPieces, hsel, hlft, hprio, hindex, hdir, haction, hflags, hshare, if_true, spOf_data]
  rfl

/-- the attributes in front of the templates, and behind them -/
def headFields (a : SpAttrs) : FieldList :=
  [(XFRMA_SEC_CTX, a.secCtx.map XfrmnlUserSecCtx.bytes), (XFRMA_POLICY_TYPE, a.uptype)]

def lastFields (a : SpAttrs) : FieldList := [(XFRMA_MARK, a.mark.map XfrmnlMark.bytes)]

theorem spFields_spOf : spFields (spOf msgtype info a) = headFields a := by
  have hsec := has_spOf msgtype info a 10 XFRM_SP_ATTR_SECCTX rfl
  have htype := has_spOf msgtype info a 11 XFRM_SP_ATTR_POLTYPE rfl
  have hputtype := ifHas_getD htype (List.replicate 6 0) id
  have hputsec : ifHas (spOf msgtype info a) XFRM_SP_ATTR_SECCTX ((a.secCtx.map XfrmnlUserSecCtx.bytes).getD []) =
      a.secCtx.map XfrmnlUserSecCtx.bytes := by
    rw [ifHas, hsec]
    cases a.secCtx with
    | none => rfl
    | some s => rfl
  rw [Option.map_id, id_eq, id_eq] at hputtype
  simp only [spFields, spOf_data, hputsec, hputtype, headFields]

theorem spLastFields_spOf : spLastFields (spOf msgtype info a) = lastFields a := by
  have hmark := ifHas_getD (has_spOf msgtype info a 12 XFRM_SP_ATTR_MARK rfl) (⟨0, 0⟩ : XfrmnlMark) XfrmnlMark.bytes
  simp only [spLastFields, spOf_data, hmark, lastFields]

/-! ## Writing -/

/-- bytes that are put for the templates -/
def tmplsSize (tmpl : SpVal) : ℕ := if has tmpl XFRM_SP_ATTR_TMPL then 4 + 64 * tmpl.data.usertmplList.length else 0

/-- **The nest with the templates**, with room -/
theorem putSpTmpls_some {a : SpAttrs} (ha : a.Valid) : PutsSome (putSpTmpls (spOf msgtype info a))
    (tmplsSize (spOf msgtype info a)) fun ls => ∃ tmpls, Option.Rel HoldTmpls a.tmpls tmpls ∧
      ls = leavesOf [(32768 + XFRMA_TMPL, tmpls)] := by
  have hhas := has_spOf msgtype info a 0 XFRM_SP_ATTR_TMPL rfl
  intro m hm hroom
  unfold tmplsSize at hroom ⊢
  unfold putSpTmpls
  rw [hhas, spOf_data] at hroom ⊢
  cases hts : a.tmpls with
  | none =>
    refine ⟨m, [], by simp, ⟨none, .none, rfl⟩, by simp, ?_⟩
    exact Wrote.nil hm
  | some ts =>
    obtain ⟨hvalid, hne, hfit⟩ := ha.tmpls ts hts
    have hthere : (!(Option.getD (some ts) []).isEmpty) = true := by simpa using hne
    rw [hts, if_pos hthere] at hroom
    rw [if_pos hthere, if_pos hthere]
    simp only [Option.getD_some, List.nil_append] at hroom ⊢
    obtain ⟨m1, hstart, hw1⟩ := nlaNestStart_room hm XFRMA_TMPL (by decide) (room_mono hroom (Nat.le_add_right _ _))
    obtain ⟨m2, payload, hput, hlen, hw2, hheld⟩ := putUserTmpls_room hvalid hw1.tidy
      (room_after hw1 (by rw [nlaHeader_length]; exact hroom))
    have hpos := List.length_pos_iff.2 hne
    have hfull : payload ≠ [] := List.length_pos_iff.1 (by omega)
    obtain ⟨m3, hend, hw3⟩ := nest_end hw1 hw2 hfull (by omega)
    refine ⟨m3, [⟨32768 + XFRMA_TMPL, payload⟩], ?_, ⟨some payload, .some ⟨hlen, hheld⟩, rfl⟩, ?_, hw3⟩
    · rw [putNestOf, hstart, inNest_some, hput, thenPut_ok, hend]
    · rw [encLeaves_cons, encLeaves_nil, List.append_nil, encLeaf_length, hlen, align4_of_mod (by omega)]

theorem keepsType_putUserTmpls (ts : List XfrmnlUserTmpl) : KeepsType (putUserTmpls ts) := by
  induction ts with
  | nil => exact fun m => rfl
  | cons t ts ih =>
    intro m
    have hres := nlmsgReserve_type m 64 4
    cases hreserve : nlmsgReserve m 64 4 with
    | mk m1 pos =>
      rw [hreserve] at hres
      cases pos with
      | none =>
        rw [putUserTmpls, hreserve]
        exact hres
      | some p =>
        rw [putUserTmpls, hreserve, inNest_some, ih]
        exact hres

theorem keepsType_putSpTmpls (tmpl : SpVal) : KeepsType (putSpTmpls tmpl) := by
  intro m
  unfold putSpTmpls
  by_cases hhas : has tmpl XFRM_SP_ATTR_TMPL = true
  · rw [if_pos hhas]
    exact keepsType_putNestOf _ _ (keepsType_putUserTmpls _) m
  · rw [if_neg hhas]

theorem keepsType_putSpAttrs (tmpl : SpVal) : KeepsType (putSpAttrs tmpl) :=
  KeepsType.seq _ (keepsType_putAll _ _) (KeepsType.seq _ (keepsType_putSpTmpls tmpl) (keepsType_putAll _ _))

theorem headFields_sendable {a : SpAttrs} (ha : a.Valid) :
    Sendable spPolicy (headFields a) ∧ Sendable spPolicy (lastFields a) := by
  have hnone : ({ a with tmpls := none } : SpAttrs).Valid := ⟨ha.secCtx, ha.uptype, nofun⟩
  have hsend := attrFields_sendable hnone .none
  refine ⟨hsend.sub fun f hf => ?_, hsend.sub fun f hf => ?_⟩
  · exact List.mem_append_left [(32768 + XFRMA_TMPL, none), (XFRMA_MARK, a.mark.map XfrmnlMark.bytes)] hf
  · exact List.mem_append_right [(XFRMA_SEC_CTX, a.secCtx.map XfrmnlUserSecCtx.bytes), (XFRMA_POLICY_TYPE, a.uptype),
      (32768 + XFRMA_TMPL, none)] hf

/-- bytes of the attributes of the message for a policy -/
def spAttrsSize (tmpl : SpVal) : ℕ :=
  (encLeaves (leavesOf (spFields tmpl))).length + (tmplsSize tmpl + (encLeaves (leavesOf (spLastFields tmpl))).length)

/-- **All attributes**, with room -/
theorem putSpAttrs_some {a : SpAttrs} (ha : a.Valid) : PutsSome (putSpAttrs (spOf msgtype info a))
    (spAttrsSize (spOf msgtype info a)) fun ls => ∃ tmpls, Option.Rel HoldTmpls a.tmpls tmpls ∧
      ls = leavesOf (attrFields a tmpls) := by
  obtain ⟨hhead, hlast⟩ := headFields_sendable ha
  rw [← spFields_spOf msgtype info a] at hhead
  rw [← spLastFields_spOf msgtype info a] at hlast
  have hputs := (putsSome_putAll (-NLE_MSGSIZE) hhead.wf).seq (-NLE_MSGSIZE)
    ((putSpTmpls_some msgtype info ha).seq (-NLE_MSGSIZE) (putsSome_putAll (-NLE_MSGSIZE) hlast.wf))
  intro m hm hroom
  obtain ⟨m', ls, hput, ⟨xs, ys, rfl, ⟨ts, zs, ⟨tmpls, htmpls, rfl⟩, rfl, rfl⟩, rfl⟩, hlen, hw⟩ := hputs m hm hroom
  refine ⟨m', _, hput, ⟨tmpls, htmpls, ?_⟩, hlen, hw⟩
  rw [spFields_spOf, spLastFields_spOf, ← leavesOf_append, ← leavesOf_append]
  rfl

theorem spAttrsSize_le {a : SpAttrs} (ha : a.Valid) : spAttrsSize (spOf msgtype info a) ≤ 262144 := by
  obtain ⟨hhead, hlast⟩ := headFields_sendable ha
  have h1 := hhead.length_le
  have h2 := hlast.length_le
  have hhas := has_spOf msgtype info a 0 XFRM_SP_ATTR_TMPL rfl
  have h3 : tmplsSize (spOf msgtype info a) ≤ 65535 := by
    unfold tmplsSize
    rw [hhas, spOf_data]
    cases hts : a.tmpls with
    | none => simp
    | some ts =>
      obtain ⟨-, -, hfit⟩ := ha.tmpls ts hts
      split_ifs
      · exact hfit
      · exact Nat.zero_le _
  rw [show (headFields a).length = 2 from rfl] at h1
  rw [show (lastFields a).length = 1 from rfl] at h2
  rw [spAttrsSize, spFields_spOf, spLastFields_spOf]
  omega

end

/-! ## There and back -/

section

variable [HostOrder]

/-- the security context of the message, if there is one, lies within its attribute -/
def WellFormedSp (n : NlMsg) : Prop := ∀ nla, (nlmsgParse n 168 XFRMA_MAX (some spPolicy)).2 XFRMA_SEC_CTX = some nla →
  8 + ((u16At n.buf (nlaData nla + 6)).toNat : ℤ) ≤ nlaLen n.buf nla

omit [HostOrder] in
/-- a policy without its current lifetimes -/
def XfrmnlSp.uncounted (sp : XfrmnlSp) : XfrmnlSp := { sp with curlft := noLifetime }

/-- bytes of the message for a policy -/
def spMsgSize (r : SpVal) : ℕ := 16 + (168 + spAttrsSize r)

theorem readSpAttrs_valid {n : NlMsg} (hwf : WellFormedSp n) (hok : ¬ (nlmsgParse n 168 XFRMA_MAX (some spPolicy)).1 < 0) :
    (readSpAttrs n.buf (nlmsgParse n 168 XFRMA_MAX (some spPolicy)).2).Valid := by
  refine ⟨fun s hs => ?_, fun u hu => ?_, fun ts hts => ?_⟩
  · obtain ⟨nla, hnla, rfl⟩ := Option.mem_map.1 hs
    have hin := hwf nla hnla
    have hlt : nlaLenField n.buf nla < 65536 := getU16_lt _ _
    have hctx := secCtxAt_length n.buf (nlaData nla)
    refine ⟨hctx, ?_⟩
    rw [hctx]
    unfold nlaLen NLA_HDRLEN at hin
    show 12 + (u16At n.buf (nlaData nla + 6)).toNat ≤ 65535
    omega
  · obtain ⟨nla, -, rfl⟩ := Option.mem_map.1 hu
    exact readBytes_length _ _ _
  · obtain ⟨nla, hnla, rfl⟩ := Option.mem_map.1 hts
    have hmin : (64 : ℤ) ≤ nlaLen n.buf nla := (nlmsgParse_conforms (not_lt.1 hok) hnla).min
    have hlt : nlaLenField n.buf nla < 65536 := getU16_lt _ _
    have hlen : (userTmplsAt n.buf nla).length = numTmpls n.buf nla := by
      rw [userTmplsAt, List.length_map, List.length_range]
    have hnum : 1 ≤ numTmpls n.buf nla ∧ 4 + 64 * numTmpls n.buf nla ≤ 65535 := by
      unfold nlaLen NLA_HDRLEN at hmin
      unfold numTmpls nlaLen NLA_HDRLEN toU32 toU64
      omega
    refine ⟨fun t ht => ?_, fun hnil => ?_, by rw [hlen]; exact hnum.2⟩
    · obtain ⟨i, -, rfl⟩ := List.mem_map.1 ht
      exact userTmplAt_valid _ _
    · rw [hnil, List.length_nil] at hlen
      omega

/-- what the parser delivers -/
theorem xfrmnlSpParse_ok {n : NlMsg} {r : SpVal} (h : xfrmnlSpParse n = .ok r) :
    ¬ (nlmsgParse n 168 XFRMA_MAX (some spPolicy)).1 < 0 ∧ r = spOf n.nlmsgType (spInfoAt n.buf (spInfoPos n))
      (readSpAttrs n.buf (nlmsgParse n 168 XFRMA_MAX (some spPolicy)).2) := by
  simp only [xfrmnlSpParse] at h
  split_ifs at h with herr
  exact ⟨herr, (Except.ok.inj h).symm⟩

/-- a security context that was put lies within its attribute -/
theorem secCtx_inside {buf : Mem} {tb : Index} {a : SpAttrs} (ha : a.Valid) {tmpls : Option (List UInt8)}
    (h : Indexes buf XFRMA_MAX (leavesOf (attrFields a tmpls)) tb) {nla : ℕ} (hnla : tb XFRMA_SEC_CTX = some nla) :
    8 + ((u16At buf (nlaData nla + 6)).toNat : ℤ) ≤ nlaLen buf nla := by
  have hshown : Shown buf tb XFRMA_SEC_CTX (a.secCtx.map XfrmnlUserSecCtx.bytes) :=
    shown_of_indexes h (attrFields_distinct a tmpls) (List.mem_of_getElem? (i := 0) rfl) (by decide)
  cases hs : a.secCtx with
  | none =>
    rw [hs] at hshown
    exact absurd (hshown.symm.trans hnla) nofun
  | some s =>
    rw [hs] at hshown
    obtain ⟨pos, type, hpos, hat⟩ := hshown
    obtain rfl : pos = nla := Option.some.inj (hpos.symm.trans hnla)
    have hctx := (ha.secCtx s hs).1
    have hread := congrArg XfrmnlUserSecCtx.ctxLen (secCtxAt_seg hctx hat.data)
    have hlen := hat.len
    have hbytes := secCtx_length s
    have hfield : u16At buf (nlaData pos + 6) = s.ctxLen := hread
    simp only at hlen
    rw [hfield, hlen]
    omega

/-- **A policy made of a header and attributes**: its message is built, and read. -/
theorem sp_written (msgtype : ℤ) {info : SpInfo} (hinfo : info.Valid) {a : SpAttrs} (ha : a.Valid) {size cmd : ℕ} (flags : ℕ)
    (hcmd : cmd ≠ XFRM_MSG_DELPOLICY) (hsize : size ≤ PTRDIFF_MAX) (hroom : spMsgSize (spOf msgtype info a) ≤ size) :
    ∃ m curlft, buildXfrmSpMessage size (spOf msgtype info a) cmd flags = .ok m ∧
      xfrmnlSpParse m = .ok (spOf cmd { info with curlft := curlft } a) ∧ WellFormedSp m := by
  have hhdr : (image 168 (spPieces (spOf msgtype info a))).length = 168 := image_length _ _
  have hle := spAttrsSize_le msgtype info ha
  have hputs := putSpAttrs_some msgtype info ha
  have hsend : ∀ ls, (∃ tmpls, Option.Rel HoldTmpls a.tmpls tmpls ∧ ls = leavesOf (attrFields a tmpls)) →
      ∃ fs, ls = leavesOf fs ∧ Sendable spPolicy fs := by
    rintro ls ⟨tmpls, htmpls, rfl⟩
    exact ⟨_, rfl, attrFields_sendable ha htmpls⟩
  obtain ⟨m0, m, tb, ls, halloc, hput, htype, ⟨tmpls, htmpls, rfl⟩, hparse, hidx, hseg⟩ := some_written (-NLE_MSGSIZE)
    XFRMA_MAX cmd flags (show (image 168 (spPieces (spOf msgtype info a))).length % 4 = 0 by rw [hhdr]) hputs
    (keepsType_putSpAttrs _) hsend (by rw [hhdr]; omega) hsize (by rw [hhdr]; exact hroom)
  have hheld : Holds m.buf 16 (spInfoPieces info) := by
    rw [spPieces_spOf] at hseg
    exact holds_image (spInfoPieces_laidOut hinfo) hseg
  rw [hhdr, Nat.cast_ofNat] at hparse
  refine ⟨m, lifetimeCurAt m.buf (16 + 120), ?_, ?_, ?_⟩
  · have hdir := has_spOf msgtype info a 6 XFRM_SP_ATTR_DIR rfl
    have hindex := has_spOf msgtype info a 5 XFRM_SP_ATTR_INDEX rfl
    rw [buildXfrmSpMessage, hdir, hindex, halloc, if_neg (by simp)]
    simp only [hput, lt_irrefl, if_false]
  · have hpos : spInfoPos m = 16 := if_neg (by rw [htype]; exact hcmd)
    simp only [xfrmnlSpParse, hparse, lt_irrefl, if_false, htype, hpos, spInfoAt_holds hinfo hheld,
      read_attrs ha htmpls hidx]
  · intro nla hnla
    rw [hparse] at hnla
    exact secCtx_inside ha hidx hnla

/-- **Round trip.** For every policy that the parser delivers of a well-formed message: if there is room, the message for it
is built, and the parser delivers of that a policy with the same attributes, the same values but for the current lifetimes,
and the same templates. -/
theorem sp_round_trip {n : NlMsg} {r : SpVal} (hparse : xfrmnlSpParse n = .ok r) (hwf : WellFormedSp n) {size cmd : ℕ}
    (flags : ℕ) (hcmd : cmd ≠ XFRM_MSG_DELPOLICY) (hsize : size ≤ PTRDIFF_MAX) (hroom : spMsgSize r ≤ size) :
    ∃ m r', buildXfrmSpMessage size r cmd flags = .ok m ∧ xfrmnlSpParse m = .ok r' ∧ r'.ceMask = r.ceMask ∧
      r'.data.uncounted = r.data.uncounted := by
  obtain ⟨hok, rfl⟩ := xfrmnlSpParse_ok hparse
  obtain ⟨m, curlft, hbuild, hread, -⟩ := sp_written n.nlmsgType (spInfoAt_valid n.buf (spInfoPos n))
    (readSpAttrs_valid hwf hok) flags hcmd hsize hroom
  refine ⟨m, _, hbuild, hread, ?_, ?_⟩
  · rw [spOf_mask, spOf_mask]
  · rw [spOf_data, spOf_data]
    rfl

end

/-! a policy with a security context, a type, a mark, and a template of either family -/

def sampleTmpl (family : BitVec 16) (bytes : List UInt8) : XfrmnlUserTmpl where
  daddr := nlAddrBuild family.toNat bytes
  spi := 0
  proto := 50
  family := family
  saddr := nlAddrBuild family.toNat bytes
  reqid := 1
  mode := 1
  share := 0
  optional := 0
  aalgos := 0xffffffff
  ealgos := 0xffffffff
  calgos := 0xffffffff

def sampleTmpls : List XfrmnlUserTmpl := [sampleTmpl 2 [10, 0, 0, 1], sampleTmpl 10 (List.replicate 16 1)]

def sampleAttrs : SpAttrs := ⟨some ⟨12, 8, 1, 1, 4, [97, 58, 98, 0]⟩, some [1, 0, 0, 0, 0, 0], some sampleTmpls, some ⟨7, 255⟩⟩

def sampleInfo : SpInfo where
  sel :=
    { daddr := ⟨2, 24, [10, 0, 0, 0]⟩, saddr := ⟨2, 32, [10, 0, 1, 1]⟩, dport := 443, dportMask := 0xffff, sport := 0
      sportMask := 0, family := 2, prefixlenD := 24, prefixlenS := 32, proto := 6, ifindex := 3, user := 0 }
  lft := ⟨1, 2, 3, 4, 5, 6, 7, 8⟩
  curlft := noLifetime
  priority := 100
  index := 9
  dir := 1
  action := 0
  flags := 0
  share := 0

theorem sampleAttrs_valid : sampleAttrs.Valid where
  secCtx s hs := by
    cases hs
    decide
  uptype u hu := by
    cases hu
    rfl
  tmpls ts hts := by
    cases hts
    refine ⟨fun t ht => ?_, nofun, by decide⟩
    rcases List.mem_pair.1 ht with rfl | rfl
    · exact ⟨⟨rfl, rfl⟩, ⟨rfl, rfl⟩⟩
    · exact ⟨⟨rfl, rfl⟩, ⟨rfl, rfl⟩⟩

theorem sampleInfo_valid : sampleInfo.Valid :=
  ⟨⟨nlAddrBuild 2 [10, 0, 0, 0], ⟨rfl, rfl⟩, rfl⟩, ⟨nlAddrBuild 2 [10, 0, 1, 1], ⟨rfl, rfl⟩, rfl⟩⟩

/-- its round trip -/
theorem sp_round_trip_sample : ∃ n r m r', @xfrmnlSpParse ⟨false⟩ n = .ok r ∧ r.data.usertmplList = sampleTmpls ∧
    @buildXfrmSpMessage ⟨false⟩ 300000 r XFRM_MSG_NEWPOLICY 0 = .ok m ∧ @xfrmnlSpParse ⟨false⟩ m = .ok r' ∧
      r'.ceMask = r.ceMask ∧ r'.data.uncounted = r.data.uncounted := by
  let order : HostOrder := ⟨false⟩
  have hsize : 300000 ≤ PTRDIFF_MAX := by decide
  have hcmd : XFRM_MSG_NEWPOLICY ≠ XFRM_MSG_DELPOLICY := by decide
  have hroom : ∀ msgtype info, spMsgSize (spOf msgtype info sampleAttrs) ≤ 300000 := fun msgtype info => by
    have hle := spAttrsSize_le msgtype info sampleAttrs_valid
    unfold spMsgSize
    omega
  obtain ⟨n, curlft, -, hn, hwf⟩ := sp_written 0 sampleInfo_valid sampleAttrs_valid 0 hcmd hsize (hroom _ _)
  obtain ⟨m, r', hbuild, hread, hmask, hdata⟩ := sp_round_trip hn hwf 0 hcmd hsize (hroom _ _)
  exact ⟨n, _, m, r', hn, rfl, hbuild, hread, hmask, hdata⟩

end Libnl.Xfrm
