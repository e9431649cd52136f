/-
Messages for asynchronous events: what is put, and what is read of it.

What is in front of the message comes back, addresses with what happens to stand behind them in the union. Marks, lifetimes
and replay states come back, too. Thresholds do not: the parser looks for them elsewhere.

- `AeCarries`: an event with everything that it cannot do without, and some of the rest.
- `aeIdAt_holds`: what is read of the front of the message.
- `head_read`, `read_plain`: what is read of the attributes.
-/
import Mathlib.Tactic
import Libnl.Xfrm.Ae
import Libnl.Xfrm.SaCodec

namespace Libnl.Xfrm

open Bytes Layout Msg Attr AttrWalk AttrStream Writer Fields Mask
open Object Addr

/-! ## Events that carry what they need -/

/-- an event with addresses, an index, a protocol, a family, a request and flags, and those of the rest that are there; a
bitmap is as long as it says -/
structure AeCarries (r : AeVal) (p : AePresent) : Prop where
  mask : r.ceMask = maskOf (aeBits p)
  daddr : r.data.saId.daddr.isSome = true
  saddr : r.data.saddr.isSome = true
  esn : ∀ e ∈ r.data.replayStateEsn, e.bmp.length = 4 * e.bmpLen.toNat

/-- addresses that the unions of the message can hold -/
def ShortAddrs (r : AeVal) : Prop :=
  (∀ a ∈ r.data.saId.daddr, a.aAddr.length ≤ 16) ∧ ∀ a ∈ r.data.saddr, a.aAddr.length ≤ 16

/-- an address that begins like another -/
def BeginsLike (a b : Option NlAddr) : Prop := ∀ x ∈ a, ∃ y ∈ b, y.aAddr.take x.aAddr.length = x.aAddr

/-- the values of the attributes that are there; of addresses as many bytes as the first event has -/
structure AeSame (r r' : AeVal) : Prop where
  daddr : BeginsLike r.data.saId.daddr r'.data.saId.daddr
  saddr : BeginsLike r.data.saddr r'.data.saddr
  spi : r'.data.saId.spi = r.data.saId.spi
  family : r'.data.saId.family = r.data.saId.family
  proto : r'.data.saId.proto = r.data.saId.proto
  flags : r'.data.flags = r.data.flags
  reqid : r'.data.reqid = r.data.reqid
  mark : has r XFRM_AE_ATTR_MARK = true → r'.data.mark = r.data.mark
  lifetime : has r XFRM_AE_ATTR_LIFETIME = true → r'.data.lifetimeCur = r.data.lifetimeCur
  maxage : has r XFRM_AE_ATTR_REPLAY_MAXAGE = true → r'.data.replayMaxage = r.data.replayMaxage
  maxdiff : has r XFRM_AE_ATTR_REPLAY_MAXDIFF = true → r'.data.replayMaxdiff = r.data.replayMaxdiff
  esn : has r XFRM_AE_ATTR_REPLAY_STATE = true → r'.data.replayStateEsn = r.data.replayStateEsn
  replay : has r XFRM_AE_ATTR_REPLAY_STATE = true → r.data.replayStateEsn = none → r'.data.replayState = r.data.replayState

theorem aeBits_separate (p : AePresent) : separate ((aeBits p).map Prod.fst) = true := by
  simp only [aeBits, List.map_cons, List.map_nil]
  rfl

theorem has_ae {r : AeVal} {p : AePresent} (h : r.ceMask = maskOf (aeBits p)) (i : ℕ) (bit : BitVec 64) {there : Bool}
    (hi : (aeBits p)[i]? = some (bit, there)) : has r bit = there :=
  has_of_mask h (aeBits_separate p) (List.mem_of_getElem? hi)

/-- a mask tells what is there -/
theorem aeBits_inj {r : AeVal} {p q : AePresent} (hp : r.ceMask = maskOf (aeBits p)) (hq : r.ceMask = maskOf (aeBits q)) :
    p = q := by
  have hmark := (has_ae hp 7 XFRM_AE_ATTR_MARK rfl).symm.trans (has_ae hq 7 XFRM_AE_ATTR_MARK rfl)
  have hlifetime := (has_ae hp 8 XFRM_AE_ATTR_LIFETIME rfl).symm.trans (has_ae hq 8 XFRM_AE_ATTR_LIFETIME rfl)
  have hmaxage := (has_ae hp 9 XFRM_AE_ATTR_REPLAY_MAXAGE rfl).symm.trans (has_ae hq 9 XFRM_AE_ATTR_REPLAY_MAXAGE rfl)
  have hmaxdiff := (has_ae hp 10 XFRM_AE_ATTR_REPLAY_MAXDIFF rfl).symm.trans (has_ae hq 10 XFRM_AE_ATTR_REPLAY_MAXDIFF rfl)
  have hreplay := (has_ae hp 11 XFRM_AE_ATTR_REPLAY_STATE rfl).symm.trans (has_ae hq 11 XFRM_AE_ATTR_REPLAY_STATE rfl)
  cases p
  cases q
  simp only at hmark hlifetime hmaxage hmaxdiff hreplay
  rw [hmark, hlifetime, hmaxage, hmaxdiff, hreplay]

section

variable [HostOrder]

/-! ## The front of the message -/

theorem aePieces_laidOut {r : AeVal} (h : ShortAddrs r) : laidOut 0 48 (aePieces r) := by
  have hlen : ∀ {o : Option NlAddr}, (∀ a ∈ o, a.aAddr.length ≤ 16) → ((o.map NlAddr.aAddr).getD []).length ≤ 16 := by
    intro o ho
    cases o with
    | none => exact Nat.zero_le 16
    | some a => exact ho a rfl
  have hd := hlen h.1
  have hs := hlen h.2
  have hid : laidOut 0 24 [(0, (r.data.saId.daddr.map NlAddr.aAddr).getD []), (16, be32Bytes r.data.saId.spi),
      (20, u16Bytes r.data.saId.family.toNat), (22, [UInt8.ofBitVec r.data.saId.proto])] := by
    simp only [laidOut, be32Bytes_length, u16Bytes_length, List.length_cons, List.length_nil]
    omega
  have hif : ∀ (lo hi : ℕ) (c : Bool) (off : ℕ) (bs : List UInt8), lo ≤ off → off + bs.length ≤ hi →
      laidOut lo hi (if c then [(off, bs)] else []) := by
    intro lo hi c off bs hlo hhi
    cases c with
    | true => exact ⟨hlo, hhi⟩
    | false =>
      show lo ≤ hi
      omega
  have hsaddr := hif 24 40 (has r XFRM_AE_ATTR_SADDR) 24 ((r.data.saddr.map NlAddr.aAddr).getD []) le_rfl (by omega)
  have hflags := hif 40 44 (has r XFRM_AE_ATTR_FLAGS) 40 (u32Bytes r.data.flags.toNat) le_rfl (by rw [u32Bytes_length])
  have hreqid := hif 44 48 (has r XFRM_AE_ATTR_REQID) 44 (u32Bytes r.data.reqid.toNat) le_rfl (by rw [u32Bytes_length])
  exact laidOut_append hid (laidOut_append hsaddr (laidOut_append hflags hreqid))

omit [HostOrder] in
/-- the bytes of an address, and what stands behind them -/
theorem begins_like {o : Option NlAddr} (hlen : ∀ a ∈ o, a.aAddr.length ≤ 16) {m : Mem} {p : ℕ}
    (h : Seg m p ((o.map NlAddr.aAddr).getD [])) (family : ℤ) :
    BeginsLike o (some (nlAddrBuild family (readBytes m p 16))) := by
  intro x hx
  refine ⟨_, rfl, ?_⟩
  rw [Option.mem_def.1 hx] at h
  have hread := h.readBytes
  show (readBytes m p 16).take x.aAddr.length = x.aAddr
  have hle := hlen x hx
  have hfirst : (readBytes m p 16).take x.aAddr.length = readBytes m p x.aAddr.length := by
    rw [readBytes, ← List.map_take, List.take_range, min_eq_left hle, readBytes]
  exact hfirst.trans hread

/-- **The front of the message**, put and read -/
theorem aeIdAt_holds {r : AeVal} {p : AePresent} (hr : AeCarries r p) (h : ShortAddrs r) {m : Mem} {pos : ℕ}
    (hm : Holds m pos (aePieces r)) :
    BeginsLike r.data.saId.daddr (aeIdAt m pos).saId.daddr ∧ BeginsLike r.data.saddr (some (aeIdAt m pos).saddr) ∧
      (aeIdAt m pos).saId.spi = r.data.saId.spi ∧ (aeIdAt m pos).saId.family = r.data.saId.family ∧
      (aeIdAt m pos).saId.proto = r.data.saId.proto ∧ (aeIdAt m pos).flags = r.data.flags ∧
      (aeIdAt m pos).reqid = r.data.reqid := by
  have hsaddrbit := has_ae hr.mask 4 XFRM_AE_ATTR_SADDR rfl
  have hreqidbit := has_ae hr.mask 5 XFRM_AE_ATTR_REQID rfl
  have hflagsbit := has_ae hr.mask 6 XFRM_AE_ATTR_FLAGS rfl
  simp only [aePieces, hsaddrbit, hreqidbit, hflagsbit, if_true] at hm
  obtain ⟨hdaddr, hspi, hfamily, hproto, hsaddr, hflags, hreqid, -⟩ := hm
  exact ⟨begins_like h.1 hdaddr _, begins_like h.2 hsaddr _, hspi.getBe32, seg_u16At hfamily,
    seg_u8At hproto, seg_u32At hflags, seg_u32At hreqid⟩

omit [HostOrder] in
/-- an address that begins with more than the union holds is lost -/
theorem short_of_begins {o : Option NlAddr} {m : Mem} {p : ℕ} {family : ℤ}
    (h : BeginsLike o (some (nlAddrBuild family (readBytes m p 16)))) : ∀ a ∈ o, a.aAddr.length ≤ 16 := by
  intro x hx
  obtain ⟨y, hy, htake⟩ := h x hx
  obtain rfl := Option.some.inj hy
  have hlen : (nlAddrBuild family (readBytes m p 16)).aAddr.length = 16 := readBytes_length _ _ _
  rw [← htake, List.length_take, hlen]
  exact min_le_right _ _

/-! ## The attributes -/

theorem lifetimeCur_length (l : XfrmnlLifetimeCur) : (lifetimeCurBytes l).length = 32 := by
  simp only [lifetimeCurBytes, List.length_append, u64Bytes_length]

theorem lifetimeCurAt_seg {l : XfrmnlLifetimeCur} {m : Mem} {p : ℕ} (hm : Seg m p (lifetimeCurBytes l)) :
    lifetimeCurAt m p = l := by
  obtain ⟨hbytes, hrest⟩ := seg_append.1 hm
  obtain ⟨hpackets, hrest⟩ := seg_append.1 hrest
  obtain ⟨hadd, huse⟩ := seg_append.1 hrest
  simp only [u64Bytes_length] at hpackets hadd huse
  rw [lifetimeCurAt, seg_u64At hbytes, seg_u64At hpackets, seg_u64At hadd, seg_u64At huse]

/-- the attributes of an event -/
def carried (r : AeVal) (p : AePresent) : AeAttrs where
  mark := if p.mark then some r.data.mark else none
  lifetimeCur := if p.lifetime then some r.data.lifetimeCur else none
  replayMaxage := if p.maxage then some r.data.replayMaxage else none
  replayMaxdiff := if p.maxdiff then some r.data.replayMaxdiff else none
  replayStateEsn := if p.replay then r.data.replayStateEsn else none
  replayState := if p.replay && r.data.replayStateEsn.isNone then some r.data.replayState else none

/-- attributes as the builder puts them, but for replay states -/
def aeHeadFields (a : AeAttrs) : FieldList :=
  [(XFRMA_MARK, a.mark.map XfrmnlMark.bytes), (XFRMA_LTIME_VAL, a.lifetimeCur.map lifetimeCurBytes),
    (XFRMA_ETIMER_THRESH, a.replayMaxage.map fun v => u32Bytes v.toNat),
    (XFRMA_REPLAY_THRESH, a.replayMaxdiff.map fun v => u32Bytes v.toNat)]

/-- the same with a replay state of fixed form -/
def aePlainFields (a : AeAttrs) : FieldList :=
  aeHeadFields a ++ [(XFRMA_REPLAY_VAL, a.replayState.map XfrmnlReplayState.bytes)]

/-- all of them -/
def aeAttrFields (a : AeAttrs) : FieldList :=
  aeHeadFields a ++ [(XFRMA_REPLAY_ESN_VAL, a.replayStateEsn.map XfrmnlReplayStateEsn.taken),
    (XFRMA_REPLAY_VAL, a.replayState.map XfrmnlReplayState.bytes)]

theorem aeFields_carried {r : AeVal} {p : AePresent} (hr : AeCarries r p) : aeFields r = aeAttrFields (carried r p) := by
  have hput : ∀ {γ : Type} (i : ℕ) (bit : BitVec 64) (there : Bool) (x : γ) (enc : γ → List UInt8),
      (aeBits p)[i]? = some (bit, there) → ifHas r bit (enc x) = (if there then some x else none).map enc := by
    intro γ i bit there x enc hi
    rw [ifHas, has_ae hr.mask i bit hi]
    cases there with
    | true => rfl
    | false => rfl
  have hreplay := has_ae hr.mask 11 XFRM_AE_ATTR_REPLAY_STATE rfl
  have hmark := hput 7 XFRM_AE_ATTR_MARK _ r.data.mark XfrmnlMark.bytes rfl
  have hlifetime := hput 8 XFRM_AE_ATTR_LIFETIME _ r.data.lifetimeCur lifetimeCurBytes rfl
  have hmaxage := hput 9 XFRM_AE_ATTR_REPLAY_MAXAGE _ r.data.replayMaxage (fun v => u32Bytes v.toNat) rfl
  have hmaxdiff := hput 10 XFRM_AE_ATTR_REPLAY_MAXDIFF _ r.data.replayMaxdiff (fun v => u32Bytes v.toNat) rfl
  simp only [aeFields, hreplay, hmark, hlifetime, hmaxage, hmaxdiff]
  rfl

theorem aePlainFields_sendable (a : AeAttrs) : Sendable xfrmAePolicy (aePlainFields a) := by
  have hmark : Sends ⟨.unspec, 8, 0⟩ (a.mark.map XfrmnlMark.bytes) := sends_struct (by decide) fun x _ => by
    have hlen := mark_length x
    omega
  have hlifetime : Sends ⟨.unspec, 32, 0⟩ (a.lifetimeCur.map lifetimeCurBytes) := sends_struct (by decide) fun x _ => by
    have hlen := lifetimeCur_length x
    omega
  have hreplay : Sends ⟨.unspec, 12, 0⟩ (a.replayState.map XfrmnlReplayState.bytes) :=
    sends_struct (by decide) fun x _ => by
      have hlen := replay_length x
      omega
  exact Sendable.cons (by decide) hmark (Sendable.cons (by decide) hlifetime (Sendable.cons (by decide) (sends_u32 rfl _)
    (Sendable.cons (by decide) (sends_u32 rfl _) (Sendable.cons (by decide) hreplay (Sendable.nil _)))))

theorem aeHeadFields_sendable (a : AeAttrs) : Sendable xfrmAePolicy (aeHeadFields a) :=
  (aePlainFields_sendable a).sub fun _ hf => List.mem_append_left _ hf

theorem aePlainFields_distinct (a : AeAttrs) : Distinct (aePlainFields a) := by
  show List.Nodup _
  simp only [aePlainFields, aeHeadFields, List.cons_append, List.nil_append, List.map_cons, List.map_nil]
  decide

/-- **The head of the attributes**, read: of the thresholds there is nothing where the parser looks for them -/
structure HeadRead (buf : Mem) (tb : Index) (a : AeAttrs) : Prop where
  mark : (tb XFRMA_MARK).map (fun p => markAt buf (nlaData p)) = a.mark
  lifetime : (tb XFRMA_LTIME_VAL).map (fun p => lifetimeCurAt buf (nlaData p)) = a.lifetimeCur
  maxage : tb XFRM_AE_ETHR = none
  maxdiff : tb XFRM_AE_RTHR = none
  esn : tb XFRMA_REPLAY_ESN_VAL = none

theorem head_read {buf : Mem} {tb : Index} {a : AeAttrs} {fs : FieldList} (hd : Distinct fs) (hsub : ∀ f ∈ aeHeadFields a, f ∈ fs)
    (htypes : ∀ f ∈ fs, f.1 ∈ [XFRMA_MARK, XFRMA_LTIME_VAL, XFRMA_ETIMER_THRESH, XFRMA_REPLAY_THRESH, XFRMA_REPLAY_VAL])
    (h : Indexes buf XFRMA_MAX (leavesOf fs) tb) : HeadRead buf tb a := by
  have hget : ∀ i t q, (aeHeadFields a)[i]? = some (t, q) → t ≤ XFRMA_MAX → Shown buf tb t q :=
    fun i t q hi ht => shown_plain h hd (by decide) (hsub _ (List.mem_of_getElem? hi)) ht
  have hother : ∀ t, t ≤ XFRMA_MAX → (∀ t' ∈ [XFRMA_MARK, XFRMA_LTIME_VAL, XFRMA_ETIMER_THRESH, XFRMA_REPLAY_THRESH,
      XFRMA_REPLAY_VAL], t' % 16384 ≠ t) → tb t = none :=
    fun t ht hne => none_of_indexes h ht fun f hf => hne f.1 (htypes f hf)
  exact ⟨(hget 0 XFRMA_MARK _ rfl (by decide)).same fun _ _ _ _ hat => markAt_seg hat.data,
    (hget 1 XFRMA_LTIME_VAL _ rfl (by decide)).same fun _ _ _ _ hat => lifetimeCurAt_seg hat.data,
    hother _ (by decide) (by decide), hother _ (by decide) (by decide), hother _ (by decide) (by decide)⟩

/-- attributes without a bitmap: what is read -/
theorem read_plain {buf : Mem} {tb : Index} {a : AeAttrs} (hesn : a.replayStateEsn = none)
    (h : Indexes buf XFRMA_MAX (leavesOf (aePlainFields a)) tb) :
    HeadRead buf tb a ∧ readAeAttrs buf tb = { a with replayMaxage := none, replayMaxdiff := none } ∧
      (tb XFRMA_REPLAY_VAL).isSome = a.replayState.isSome := by
  have htypes : ∀ f ∈ aePlainFields a, f.1 ∈ [XFRMA_MARK, XFRMA_LTIME_VAL, XFRMA_ETIMER_THRESH, XFRMA_REPLAY_THRESH,
      XFRMA_REPLAY_VAL] := fun f hf => List.mem_map_of_mem (f := Prod.fst) hf
  have hhead := head_read (a := a) (aePlainFields_distinct a) (fun f hf => List.mem_append_left _ hf) htypes h
  have hval : Shown buf tb XFRMA_REPLAY_VAL (a.replayState.map XfrmnlReplayState.bytes) :=
    shown_plain h (aePlainFields_distinct a) (by decide) (List.mem_append_right _ List.mem_cons_self) (by decide)
  have hreplay := hval.same fun _ _ _ _ hat => replayAt_seg hat.data
  refine ⟨hhead, ?_, ?_⟩
  · rw [readAeAttrs, hhead.mark, hhead.lifetime, hhead.maxage, hhead.maxdiff, hhead.esn, hreplay, hesn]
    rfl
  · rw [hval.isSome, Option.isSome_map]

end

end Libnl.Xfrm
