/-
What a single call of a builder changes, for every message and every argument.

`nla_reserve` compares sizes as `int` and `size_t` but stores the length of the attribute in sixteen bits, and clears the
padding behind the length as it was stored. So an attribute with more than 65531 bytes of payload is written where there is
room for it, under a length that is too short, and its padding is not cleared. Closing a nest checks for this.

- `nlaReserve_refused`, `nlaReserve_done`: the two ways `nla_reserve` goes.
- `recorded_length_iff`: the length that is recorded is the true one for payloads up to 65531 bytes, and for nests always.
- `builder_atomic_iff`: a call that fails changes nothing; one that succeeds changes nothing before the end of the message,
  and the padding is zero unless it is the padding of a payload that is too long.
- `long_payload_recorded`, `long_padding_kept`: a payload that is too long.
-/
import Mathlib.Tactic
import Libnl.Message.Builder

namespace Libnl.Frame

open Bytes Msg Attr Builder

/-! ## Cleared bytes -/

theorem zero_in {m : Mem} {p n i : ℕ} (hle : p ≤ i) (hlt : i < p + n) : zero m p n i = 0 := by
  have hi : i - p < (List.replicate n (0 : UInt8)).length := by
    rw [List.length_replicate]
    omega
  rw [zero, write, if_pos hle, List.getElem?_eq_getElem hi, Option.getD_some, List.getElem_replicate]

theorem zero_out {m : Mem} {p n i : ℕ} (h : i < p ∨ p + n ≤ i) : zero m p n i = m i :=
  write_out (by rwa [List.length_replicate])

/-! ## Room at the end -/

/-- there is no room for so much, as `nlmsg_reserve` compares -/
def NoRoom (m : NlMsg) (len : ℕ) (pad : ℤ) : Prop :=
  m.nmSize < len ∨ m.nmSize < (reserveLen len pad + m.nlmsgLen) % 18446744073709551616

/-- the message with the room reserved -/
def extended (m : NlMsg) (len : ℕ) (pad : ℤ) : NlMsg :=
  { m with
    nlmsgLen := (m.nlmsgLen + reserveLen len pad) % 4294967296
    buf := if len < reserveLen len pad then zero m.buf (m.nlmsgLen + len) (reserveLen len pad - len) else m.buf }

theorem nlmsgReserve_refused {m : NlMsg} {len : ℕ} {pad : ℤ} (h : NoRoom m len pad) :
    nlmsgReserve m len pad = (m, none) := by
  unfold nlmsgReserve
  by_cases hfirst : m.nmSize < len
  · rw [if_pos hfirst]
  · rw [if_neg hfirst]
    exact if_pos (h.resolve_left hfirst)

theorem nlmsgReserve_done {m : NlMsg} {len : ℕ} {pad : ℤ} (h : ¬ NoRoom m len pad) :
    nlmsgReserve m len pad = (extended m len pad, some m.nlmsgLen) := by
  rw [NoRoom, not_or] at h
  unfold nlmsgReserve
  rw [if_neg h.1]
  exact if_neg h.2

/-- nothing changes but the padding, which is cleared -/
theorem extended_buf (m : NlMsg) (len : ℕ) (pad : ℤ) (i : ℕ) : (extended m len pad).buf i =
    if m.nlmsgLen + len ≤ i ∧ i < m.nlmsgLen + reserveLen len pad then 0 else m.buf i := by
  simp only [extended]
  by_cases hpad : len < reserveLen len pad
  · rw [if_pos hpad]
    by_cases hin : m.nlmsgLen + len ≤ i ∧ i < m.nlmsgLen + reserveLen len pad
    · rw [if_pos hin, zero_in hin.1 (by omega)]
    · rw [if_neg hin, zero_out (by omega)]
  · rw [if_neg hpad, if_neg (by omega)]

/-- room without padding -/
theorem extended_plain {m : NlMsg} {len : ℕ} (hlen : m.nlmsgLen + len < 4294967296) :
    extended m len 0 = { m with nlmsgLen := m.nlmsgLen + len } := by
  have hres : reserveLen len 0 = len := if_pos rfl
  rw [extended, hres, if_neg (lt_irrefl _), Nat.mod_eq_of_lt hlen]

variable [HostOrder]

/-! ## Attributes -/

/-- there is no room for an attribute with so much payload, as `nla_reserve` compares -/
def Refused (m : NlMsg) (attrlen : ℤ) : Prop :=
  attrlen < 0 ∨ m.nmSize < toU64 (toInt32 (nlmsgAlign m.nlmsgLen + nlaTotalSize attrlen))

/-- the message with the attribute reserved -/
def reserved (m : NlMsg) (attrtype attrlen : ℤ) : NlMsg :=
  let nla := nlmsgTail m
  let buf := write m.buf nla (nlaHeader (toU16 (nlaAttrSize attrlen)) (toU16 attrtype))
  { m with
    buf := if attrlen ≠ 0 then zero buf (nla + toU16 (nlaAttrSize attrlen)) (nlaPadlen attrlen).toNat else buf
    nlmsgLen := toU32 (toInt32 (nlmsgAlign m.nlmsgLen + nlaTotalSize attrlen)) }

theorem nlaReserve_refused {m : NlMsg} {n : ℤ} (h : Refused m n) (t : ℤ) : nlaReserve m t n = (m, none) := by
  unfold nlaReserve
  by_cases hneg : n < 0
  · rw [if_pos hneg]
  · rw [if_neg hneg]
    exact if_pos (h.resolve_left hneg)

theorem nlaReserve_done {m : NlMsg} {n : ℤ} (h : ¬ Refused m n) (t : ℤ) :
    nlaReserve m t n = (reserved m t n, some (nlmsgTail m)) := by
  rw [Refused, not_or] at h
  unfold nlaReserve
  rw [if_neg h.1]
  exact if_neg h.2

omit [HostOrder] in
/-- the size is stored modulo sixteen bits -/
theorem storedLen (n : ℤ) : (toU16 (nlaAttrSize n) : ℤ) = (4 + n) % 65536 := by
  have hsize : nlaAttrSize n % 4294967296 = (4 + n) % 4294967296 := toInt32_emod _
  unfold toU16
  omega

omit [HostOrder] in
/-- the padding is right for every length -/
theorem padlen_eq {n : ℤ} (hn : 0 ≤ n) : (nlaPadlen n).toNat = align4 (4 + n.toNat) - (4 + n.toNat) := by
  have hsize : nlaAttrSize n % 4294967296 = (4 + n) % 4294967296 := toInt32_emod _
  have hcongr : nlaPadlen n = toInt32 ((nlaAttrSize n + 3) / 4 * 4 - nlaAttrSize n) := by
    refine toInt32_congr ?_
    have htotal : nlaTotalSize n % 4294967296 = ((nlaAttrSize n + 3) / 4 * 4) % 4294967296 := toInt32_emod _
    omega
  have hsmall := toInt32_of_mem (x := (nlaAttrSize n + 3) / 4 * 4 - nlaAttrSize n) (by omega) (by omega)
  rw [hcongr, hsmall]
  unfold align4
  omega

section

variable {m : NlMsg} {n : ℤ}

/-- the header and the padding, in any order of the lengths -/
theorem reserved_buf (m : NlMsg) (t : ℤ) (hn : 0 ≤ n) (i : ℕ) : (reserved m t n).buf i =
    if nlmsgTail m + toU16 (nlaAttrSize n) ≤ i ∧
        i < nlmsgTail m + toU16 (nlaAttrSize n) + (align4 (4 + n.toNat) - (4 + n.toNat)) then 0
    else write m.buf (nlmsgTail m) (nlaHeader (toU16 (nlaAttrSize n)) (toU16 t)) i := by
  simp only [reserved, padlen_eq hn]
  by_cases hzero : n = 0
  · -- without payload there is no padding
    have hnone : align4 (4 + n.toNat) - (4 + n.toNat) = 0 := by
      rw [hzero]
      decide
    rw [if_neg (not_not.2 hzero), if_neg]
    omega
  · rw [if_pos hzero]
    by_cases hin : nlmsgTail m + toU16 (nlaAttrSize n) ≤ i ∧
        i < nlmsgTail m + toU16 (nlaAttrSize n) + (align4 (4 + n.toNat) - (4 + n.toNat))
    · rw [if_pos hin, zero_in hin.1 hin.2]
    · rw [if_neg hin, zero_out (by omega)]

/-- nothing changes before the end -/
theorem reserved_below (t : ℤ) (hn : 0 ≤ n) {i : ℕ} (hi : i < nlmsgTail m) : (reserved m t n).buf i = m.buf i := by
  rw [reserved_buf m t hn, if_neg (by omega), write_out (Or.inl hi)]

/-- the length field, unless the padding is cleared in the header -/
theorem reserved_field (m : NlMsg) (t : ℤ) (hn : 0 ≤ n) (hpad : 4 ≤ toU16 (nlaAttrSize n) ∨ n % 4 = 0) :
    nlaLenField (reserved m t n).buf (nlmsgTail m) = toU16 (nlaAttrSize n) := by
  have hstored := storedLen n
  have hbuf : ∀ i, nlmsgTail m ≤ i → i < nlmsgTail m + 4 →
      (reserved m t n).buf i = write m.buf (nlmsgTail m) (nlaHeader (toU16 (nlaAttrSize n)) (toU16 t)) i := by
    intro i hge hlt
    have hnopad : n % 4 = 0 → align4 (4 + n.toNat) - (4 + n.toNat) = 0 := by
      intro hmod
      unfold align4
      omega
    rw [reserved_buf m t hn, if_neg (by omega)]
  have hseg : Seg (reserved m t n).buf (nlmsgTail m) (u16Bytes (toU16 (nlaAttrSize n))) := by
    have hheader := (seg_append.1 (seg_write m.buf (nlmsgTail m) (nlaHeader (toU16 (nlaAttrSize n)) (toU16 t)))).1
    exact hheader.frame fun i hge hlt => hbuf i hge (by rw [u16Bytes_length] at hlt; omega)
  have hfield : nlaLenField (reserved m t n).buf (nlmsgTail m) = toU16 (nlaAttrSize n) % 65536 := hseg.getU16
  rw [hfield]
  omega

/-- the length that is stored, for a payload that is not too long -/
theorem reserved_len (m : NlMsg) (t : ℤ) (hn : 0 ≤ n) (hle : n ≤ 65531) :
    nlaLen (reserved m t n).buf (nlmsgTail m) = n := by
  have hstored := storedLen n
  rw [nlaLen, reserved_field m t hn (Or.inl (by omega)), NLA_HDRLEN]
  omega

/-- behind a payload that is not too long, the padding is cleared -/
theorem reserved_padding (t : ℤ) (hn : 0 ≤ n) (hle : n ≤ 65531) {i : ℕ} (hge : nlmsgTail m + (4 + n.toNat) ≤ i)
    (hlt : i < nlmsgTail m + align4 (4 + n.toNat)) : (reserved m t n).buf i = 0 := by
  have hstored := storedLen n
  rw [reserved_buf m t hn, if_pos]
  omega

/-- behind a payload that is too long, the padding stays as it was -/
theorem reserved_kept (t : ℤ) (hgt : 65531 < n) {i : ℕ} (hge : nlmsgTail m + (4 + n.toNat) ≤ i) :
    (reserved m t n).buf i = m.buf i := by
  have hstored := storedLen n
  have hmod := align4_lt (4 + n.toNat)
  have hheader : (nlaHeader (toU16 (nlaAttrSize n)) (toU16 t)).length = 4 := by
    simp only [nlaHeader, List.length_append, u16Bytes_length]
  rw [reserved_buf m t (by omega), if_neg (by omega), write_out (Or.inr (by rw [hheader]; omega))]

end

/-! ## Putting an attribute -/

/-- the attribute with its payload -/
def filled (m : NlMsg) (t n : ℤ) (data : List UInt8) : NlMsg :=
  if 0 < n then
    { reserved m t n with buf := write (reserved m t n).buf (nlaData (nlmsgTail m)) (data.take n.toNat) }
  else reserved m t n

theorem nlaPut_refused {m : NlMsg} {n : ℤ} (h : Refused m n) (t : ℤ) (data : List UInt8) :
    nlaPut m t n data = (m, if n < 0 then -NLE_INVAL else -NLE_NOMEM) :=
  nlaPut_none data (nlaReserve_refused h t)

theorem nlaPut_done {m : NlMsg} {n : ℤ} (h : ¬ Refused m n) (t : ℤ) (data : List UInt8) :
    nlaPut m t n data = (filled m t n data, 0) := by
  rw [nlaPut_some data (nlaReserve_done h t), filled]
  by_cases hpos : 0 < n
  · rw [if_pos hpos, if_pos hpos]
  · rw [if_neg hpos, if_neg hpos]

/-- the payload changes nothing else -/
theorem filled_buf {m : NlMsg} (t n : ℤ) (data : List UInt8) {i : ℕ}
    (hi : i < nlmsgTail m + 4 ∨ nlmsgTail m + (4 + n.toNat) ≤ i) :
    (filled m t n data).buf i = (reserved m t n).buf i := by
  unfold filled
  split_ifs
  · refine write_out ?_
    rw [nlaData, NLA_HDRLEN]
    have hlen := List.length_take_le n.toNat data
    omega
  · rfl

theorem nlaLen_congr {buf buf' : Mem} {nla : ℕ} (h : ∀ i, nla ≤ i → i < nla + 2 → buf' i = buf i) :
    nlaLen buf' nla = nlaLen buf nla := by
  unfold nlaLen nlaLenField getU16
  rw [h nla le_rfl (by omega), h (nla + 1) (by omega) (by omega)]

/-! ## Lengths that are recorded -/

/-- an attribute that `nla_reserve` hands out has the length that was asked for -/
def ReserveRecords (m : NlMsg) (t n : ℤ) : Prop := ∀ m' nla, nlaReserve m t n = (m', some nla) → nlaLen m'.buf nla = n

/-- so has one that `nla_put` puts, at the end of the message -/
def PutRecords (m : NlMsg) (t n : ℤ) (data : List UInt8) : Prop :=
  ∀ m', nlaPut m t n data = (m', 0) → nlaLen m'.buf (nlmsgTail m) = n

/-- a nest that starts at `start`, within a message whose length has 32 bits -/
structure NestAt (m : NlMsg) (start : ℕ) : Prop where
  u32 : m.nlmsgLen < 4294967296
  behind : NLMSG_HDRLEN ≤ start
  within : nlaData start ≤ m.nlmsgLen

/-- a nest that is still in the message after it was closed has what lies between its header and the end as its length -/
def NestRecords (m : NlMsg) (start : ℕ) (keepEmpty : Bool) : Prop :=
  NestAt m start → ∀ m' err, nestEnd m start keepEmpty = (m', err) → m'.bug = false → nlaData start ≤ m'.nlmsgLen →
    nlaLen m'.buf start = (m'.nlmsgLen : ℤ) - nlaData start

theorem reserve_records_iff (m : NlMsg) (t n : ℤ) : ReserveRecords m t n ↔ Refused m n ∨ n ≤ 65531 := by
  by_cases href : Refused m n
  · refine iff_of_true (fun m' nla hres => ?_) (Or.inl href)
    rw [nlaReserve_refused href] at hres
    cases hres
  · have hn : 0 ≤ n := not_lt.1 fun hneg => href (Or.inl hneg)
    rw [or_iff_right href]
    constructor
    · intro hrec
      have hlen := hrec _ _ (nlaReserve_done href t)
      have hlt : nlaLenField (reserved m t n).buf (nlmsgTail m) < 65536 := getU16_lt _ _
      rw [nlaLen, NLA_HDRLEN] at hlen
      omega
    · intro hle m' nla hres
      rw [nlaReserve_done href] at hres
      cases hres
      exact reserved_len m t hn hle

theorem put_records_iff (m : NlMsg) (t n : ℤ) (data : List UInt8) : PutRecords m t n data ↔ Refused m n ∨ n ≤ 65531 := by
  by_cases href : Refused m n
  · refine iff_of_true (fun m' hput => ?_) (Or.inl href)
    have herr : (if n < 0 then -NLE_INVAL else -NLE_NOMEM) ≠ 0 := by
      split_ifs
      · decide
      · decide
    rw [nlaPut_refused href] at hput
    exact absurd (congrArg Prod.snd hput) herr
  · -- the payload is written behind the header
    have hsame : nlaLen (filled m t n data).buf (nlmsgTail m) = nlaLen (reserved m t n).buf (nlmsgTail m) :=
      nlaLen_congr fun i _ hi => filled_buf t n data (Or.inl (by omega))
    have hreserve := reserve_records_iff m t n
    rw [← hreserve]
    constructor
    · intro hrec m' nla hres
      rw [nlaReserve_done href] at hres
      cases hres
      rw [← hsame]
      exact hrec _ (nlaPut_done href t data)
    · intro hrec m' hput
      rw [nlaPut_done href] at hput
      cases hput
      rw [hsame]
      exact hrec _ _ (nlaReserve_done href t)

/-- `_nest_end` drops the nest: it is too long for its header, or empty -/
def NestDropped (m : NlMsg) (start : ℕ) (keepEmpty : Bool) : Prop :=
  USHRT_MAX < toU64 ((nlmsgTail m : ℤ) - start) ∨ (keepEmpty = false ∧ toU64 ((nlmsgTail m : ℤ) - start) = NLA_HDRLEN)

/-- the message with the length of the nest stored -/
def closed (m : NlMsg) (start : ℕ) : NlMsg :=
  { m with buf := write m.buf start (u16Bytes (toU64 ((nlmsgTail m : ℤ) - start))) }

/-- **The ways `_nest_end` goes**: the nest is dropped, or it ends aligned, or there is room for padding, or there is none. -/
theorem nestEnd_cases {m : NlMsg} {start : ℕ} (hat : NestAt m start) (keepEmpty : Bool) :
    (NestDropped m start keepEmpty ∧ (nestEnd m start keepEmpty).1 = nlaNestCancel m start) ∨
    (¬ NestDropped m start keepEmpty ∧ toU64 ((nlmsgTail m : ℤ) - start) = align4 m.nlmsgLen - start ∧
      ((align4 m.nlmsgLen = m.nlmsgLen ∧ (nestEnd m start keepEmpty).1 = closed m start) ∨
      (m.nlmsgLen < align4 m.nlmsgLen ∧ align4 m.nlmsgLen ≤ m.nmSize ∧
        (nestEnd m start keepEmpty).1 = { closed m start with nlmsgLen := align4 m.nlmsgLen }) ∨
      (m.nlmsgLen < align4 m.nlmsgLen ∧ m.nmSize < align4 m.nlmsgLen ∧
        (nestEnd m start keepEmpty).1 = { closed m start with bug := true }))) := by
  by_cases hdrop : NestDropped m start keepEmpty
  · refine Or.inl ⟨hdrop, ?_⟩
    unfold nestEnd
    unfold NestDropped at hdrop
    rw [if_pos hdrop]
  · refine Or.inr ⟨hdrop, ?_⟩
    have hge := le_align4 m.nlmsgLen
    have hlt := align4_lt m.nlmsgLen
    have hmod := align4_mod m.nlmsgLen
    have hnot : ¬ USHRT_MAX < toU64 ((nlmsgTail m : ℤ) - start) := fun hbig => hdrop (Or.inl hbig)
    obtain ⟨h32, hstart, hin⟩ := hat
    unfold NLMSG_HDRLEN at hstart
    unfold nlaData NLA_HDRLEN at hin
    -- the aligned length did not wrap, or the nest would be too long
    have hsmall : m.nlmsgLen + 3 < 4294967296 := by
      by_contra hbig
      have hzero : nlmsgTail m = 0 := by
        unfold nlmsgTail nlmsgAlign
        omega
      rw [hzero] at hnot
      unfold toU64 USHRT_MAX at hnot
      omega
    have halign : nlmsgAlign m.nlmsgLen = align4 m.nlmsgLen := nlmsgAlign_eq hsmall
    have htail : nlmsgTail m = align4 m.nlmsgLen := halign
    have hlen : toU64 ((nlmsgTail m : ℤ) - start) = align4 m.nlmsgLen - start := by
      rw [htail]
      unfold toU64
      omega
    have hpad : toU32 ((nlmsgAlign m.nlmsgLen : ℤ) - m.nlmsgLen) = align4 m.nlmsgLen - m.nlmsgLen := by
      rw [halign]
      unfold toU32
      omega
    refine ⟨hlen, ?_⟩
    unfold NestDropped at hdrop
    unfold nestEnd
    rw [if_neg hdrop]
    simp only [hpad]
    by_cases heven : align4 m.nlmsgLen = m.nlmsgLen
    · left
      rw [if_neg (by omega)]
      exact ⟨heven, rfl⟩
    · have hsize : (closed m start).nmSize = m.nmSize := rfl
      have hsame : (closed m start).nlmsgLen = m.nlmsgLen := rfl
      have hnoroom : NoRoom (closed m start) (align4 m.nlmsgLen - m.nlmsgLen) 0 ↔ m.nmSize < align4 m.nlmsgLen := by
        have hres : reserveLen (align4 m.nlmsgLen - m.nlmsgLen) 0 = align4 m.nlmsgLen - m.nlmsgLen := if_pos rfl
        rw [NoRoom, hres, hsize, hsame]
        omega
      rw [if_pos (by omega)]
      by_cases hroom : m.nmSize < align4 m.nlmsgLen
      · refine Or.inr (Or.inr ⟨by omega, hroom, ?_⟩)
        have hrefused := nlmsgReserve_refused (hnoroom.2 hroom)
        unfold closed at hrefused ⊢
        rw [hrefused]
      · refine Or.inr (Or.inl ⟨by omega, not_lt.1 hroom, ?_⟩)
        have hto : m.nlmsgLen + (align4 m.nlmsgLen - m.nlmsgLen) = align4 m.nlmsgLen := by omega
        have hdone := nlmsgReserve_done (hnoroom.not.2 hroom)
        rw [extended_plain (by rw [hsame, hto]; omega), hsame, hto] at hdone
        unfold closed at hdone ⊢
        rw [hdone]

omit [HostOrder] in
/-- a nest that is dropped is gone -/
theorem nestCancel_gone {m : NlMsg} {start : ℕ} (hat : NestAt m start) (hbug : (nlaNestCancel m start).bug = false) :
    (nlaNestCancel m start).nlmsgLen < nlaData start := by
  obtain ⟨h32, hstart, hin⟩ := hat
  unfold NLMSG_HDRLEN at hstart
  unfold nlaData NLA_HDRLEN at *
  have hlt := align4_lt m.nlmsgLen
  by_cases hsmall : m.nlmsgLen + 3 < 4294967296
  · have hlen := (nlaNestCancel_len hstart hin (by omega)).1
    have hge := le_align4 m.nlmsgLen
    omega
  · -- the aligned length wrapped, and lies before the nest
    have hzero : nlmsgTail m = 0 := by
      unfold nlmsgTail nlmsgAlign
      omega
    have hneg : (nlmsgTail m : ℤ) - start < 0 := by
      rw [hzero]
      omega
    rw [nlaNestCancel, if_pos hneg] at hbug
    cases hbug

/-- **A nest** -/
theorem nest_records (m : NlMsg) (start : ℕ) (keepEmpty : Bool) : NestRecords m start keepEmpty := by
  intro hat m' err hend hbug hin
  have hfst : (nestEnd m start keepEmpty).1 = m' := congrArg Prod.fst hend
  have hge := le_align4 m.nlmsgLen
  have hwithin := hat.within
  have hstored : toU64 ((nlmsgTail m : ℤ) - start) = align4 m.nlmsgLen - start → toU64 ((nlmsgTail m : ℤ) - start) ≤ USHRT_MAX →
      nlaLen (closed m start).buf start = (align4 m.nlmsgLen : ℤ) - nlaData start := by
    intro hlen hle
    have hfield : nlaLenField (closed m start).buf start = toU64 ((nlmsgTail m : ℤ) - start) % 65536 :=
      (seg_write m.buf start (u16Bytes (toU64 ((nlmsgTail m : ℤ) - start)))).getU16
    rw [nlaLen, hfield, hlen]
    rw [hlen] at hle
    unfold USHRT_MAX at hle
    unfold nlaData NLA_HDRLEN at *
    omega
  rcases nestEnd_cases hat keepEmpty with ⟨-, hcancel⟩ | ⟨hkept, hlen, heven | hpadded | hfull⟩
  · rw [← hfst, hcancel] at hin hbug
    exact absurd hin (not_le.2 (nestCancel_gone hat hbug))
  · obtain ⟨haligned, hclosed⟩ := heven
    have hread := hstored hlen (not_lt.1 fun hbig => hkept (Or.inl hbig))
    rw [← hfst, hclosed, hread, haligned]
    rfl
  · obtain ⟨-, -, hclosed⟩ := hpadded
    have hread := hstored hlen (not_lt.1 fun hbig => hkept (Or.inl hbig))
    rw [← hfst, hclosed]
    exact hread
  · obtain ⟨-, -, hclosed⟩ := hfull
    rw [← hfst, hclosed] at hbug
    cases hbug

/-- **Recorded lengths.** The length of an attribute that was put is the one that was asked for just if there was no room or
the payload has at most 65531 bytes; the length of a nest that was closed is always right. -/
theorem recorded_length_iff (m : NlMsg) :
    (∀ t n, ReserveRecords m t n ↔ Refused m n ∨ n ≤ 65531) ∧
    (∀ t n data, PutRecords m t n data ↔ Refused m n ∨ n ≤ 65531) ∧
    ∀ start keepEmpty, NestRecords m start keepEmpty :=
  ⟨reserve_records_iff m, put_records_iff m, nest_records m⟩

omit [HostOrder] in
/-- **A payload that is too long.** In a message of 128 KiB there is room for a payload of 65532 bytes; the length that is
recorded is less than nothing. -/
theorem long_payload_recorded : ∃ m m', nlmsgAllocSize 131072 = some m ∧
    @nlaPut ⟨false⟩ m 1 65532 (List.replicate 65532 7) = (m', 0) ∧ @nlaLen ⟨false⟩ m'.buf (nlmsgTail m) = -4 := by
  let order : HostOrder := ⟨false⟩
  obtain ⟨m, hm⟩ : ∃ m, nlmsgAllocSize 131072 = some m := ⟨_, rfl⟩
  have hroom : ¬ Refused m 65532 := by
    cases hm
    unfold Refused
    decide
  have hsame : nlaLen (filled m 1 65532 (List.replicate 65532 7)).buf (nlmsgTail m) =
      nlaLen (reserved m 1 65532).buf (nlmsgTail m) :=
    nlaLen_congr fun i _ hi => filled_buf 1 65532 _ (Or.inl (by omega))
  have hfield : toU16 (nlaAttrSize 65532) = 0 := by decide
  refine ⟨m, _, hm, nlaPut_done hroom 1 _, ?_⟩
  rw [hsame, nlaLen, reserved_field m 1 (by decide) (Or.inr (by decide)), hfield]
  rfl

/-! ## Calls that fail, and calls that succeed -/

/-- a call that made the message longer: before the old end nothing changed, and from the end of the payload to the new end
there are zeros -/
structure Extends (m m' : NlMsg) (tail payloadEnd newTail : ℕ) : Prop where
  below : ∀ i < tail, m'.buf i = m.buf i
  padding : ∀ i, payloadEnd ≤ i → i < newTail → m'.buf i = 0
  rest : m' = { m with buf := m'.buf, nlmsgLen := m'.nlmsgLen }

/-- the end of an attribute with so much payload at the end of the message -/
def attrEnd (m : NlMsg) (attrlen : ℤ) : ℕ := nlmsgTail m + align4 (4 + attrlen.toNat)

/-- the end of its payload -/
def payloadEnd (m : NlMsg) (attrlen : ℤ) : ℕ := nlmsgTail m + (4 + attrlen.toNat)

def ReserveAtomic (m : NlMsg) (t n : ℤ) : Prop :=
  match nlaReserve m t n with
  | (m', none) => m' = m
  | (m', some nla) => nla = nlmsgTail m ∧ Extends m m' (nlmsgTail m) (payloadEnd m n) (attrEnd m n)

def PutAtomic (m : NlMsg) (t n : ℤ) (data : List UInt8) : Prop :=
  if (nlaPut m t n data).2 < 0 then (nlaPut m t n data).1 = m
  else Extends m (nlaPut m t n data).1 (nlmsgTail m) (payloadEnd m n) (attrEnd m n)

/-- `nlmsg_reserve` pads as it is told, from an end that need not be aligned -/
def MsgReserveAtomic (m : NlMsg) (len : ℕ) (pad : ℤ) : Prop :=
  match nlmsgReserve m len pad with
  | (m', none) => m' = m
  | (m', some p) => p = m.nlmsgLen ∧ Extends m m' m.nlmsgLen (m.nlmsgLen + len) (m.nlmsgLen + reserveLen len pad)

def MsgAppendAtomic (m : NlMsg) (data : List UInt8) (pad : ℤ) : Prop :=
  if (nlmsgAppend m data pad).2 < 0 then (nlmsgAppend m data pad).1 = m
  else Extends m (nlmsgAppend m data pad).1 m.nlmsgLen (m.nlmsgLen + data.length)
    (m.nlmsgLen + reserveLen data.length pad)

/-- there is no room, or the payload is not too long, or where the padding will be there are zeros already -/
def PaddingSafe (m : NlMsg) (attrlen : ℤ) : Prop :=
  Refused m attrlen ∨ attrlen ≤ 65531 ∨ ∀ i, payloadEnd m attrlen ≤ i → i < attrEnd m attrlen → m.buf i = 0

/-- the padding of an attribute is there just if it is safe -/
theorem padding_iff {m : NlMsg} {n : ℤ} (href : ¬ Refused m n) (t : ℤ) :
    (∀ i, payloadEnd m n ≤ i → i < attrEnd m n → (reserved m t n).buf i = 0) ↔ PaddingSafe m n := by
  have hn : 0 ≤ n := not_lt.1 fun hneg => href (Or.inl hneg)
  rw [PaddingSafe, or_iff_right href]
  by_cases hle : n ≤ 65531
  · exact iff_of_true (fun i hge hlt => reserved_padding t hn hle hge hlt) (Or.inl hle)
  · rw [or_iff_right hle]
    refine forall_congr' fun i => forall_congr' fun hge => forall_congr' fun _ => ?_
    rw [reserved_kept t (not_le.1 hle) hge]

theorem reserve_atomic_iff (m : NlMsg) (t n : ℤ) : ReserveAtomic m t n ↔ PaddingSafe m n := by
  by_cases href : Refused m n
  · refine iff_of_true ?_ (Or.inl href)
    rw [ReserveAtomic, nlaReserve_refused href]
  · have hn : 0 ≤ n := not_lt.1 fun hneg => href (Or.inl hneg)
    rw [ReserveAtomic, nlaReserve_done href, ← padding_iff href t]
    constructor
    · rintro ⟨-, hext⟩
      exact hext.padding
    · intro hpadding
      exact ⟨rfl, fun i hi => reserved_below t hn hi, hpadding, rfl⟩

theorem put_atomic_iff (m : NlMsg) (t n : ℤ) (data : List UInt8) : PutAtomic m t n data ↔ PaddingSafe m n := by
  by_cases href : Refused m n
  · refine iff_of_true ?_ (Or.inl href)
    have herr : (if n < 0 then -NLE_INVAL else -NLE_NOMEM) < 0 := by
      split_ifs
      · decide
      · decide
    rw [PutAtomic, nlaPut_refused href, if_pos herr]
  · have hn : 0 ≤ n := not_lt.1 fun hneg => href (Or.inl hneg)
    rw [PutAtomic, nlaPut_done href, if_neg (lt_irrefl (0 : ℤ)), ← padding_iff href t]
    constructor
    · intro hext i hge hlt
      rw [← hext.padding i hge hlt, filled_buf t n data (Or.inr hge)]
    · intro hpadding
      refine ⟨fun i hi => ?_, fun i hge hlt => ?_, ?_⟩
      · rw [filled_buf t n data (Or.inl (by omega)), reserved_below t hn hi]
      · rw [filled_buf t n data (Or.inr hge), hpadding i hge hlt]
      · unfold filled
        split_ifs <;> rfl

omit [HostOrder] in
theorem msg_reserve_atomic (m : NlMsg) (len : ℕ) (pad : ℤ) : MsgReserveAtomic m len pad := by
  by_cases hno : NoRoom m len pad
  · rw [MsgReserveAtomic, nlmsgReserve_refused hno]
  · rw [MsgReserveAtomic, nlmsgReserve_done hno]
    refine ⟨rfl, fun i hi => ?_, fun i hge hlt => ?_, rfl⟩
    · rw [extended_buf, if_neg (by omega)]
    · rw [extended_buf, if_pos ⟨hge, hlt⟩]

omit [HostOrder] in
theorem msg_append_atomic (m : NlMsg) (data : List UInt8) (pad : ℤ) : MsgAppendAtomic m data pad := by
  by_cases hno : NoRoom m data.length pad
  · have happend : nlmsgAppend m data pad = (m, -NLE_NOMEM) := by
      rw [nlmsgAppend, nlmsgReserve_refused hno]
    have herr : (-NLE_NOMEM : ℤ) < 0 := by decide
    rw [MsgAppendAtomic, happend, if_pos herr]
  · have happend : nlmsgAppend m data pad =
        ({ extended m data.length pad with buf := write (extended m data.length pad).buf m.nlmsgLen data }, 0) := by
      rw [nlmsgAppend, nlmsgReserve_done hno]
    rw [MsgAppendAtomic, happend, if_neg (lt_irrefl (0 : ℤ))]
    refine ⟨fun i hi => ?_, fun i hge hlt => ?_, rfl⟩
    · show write (extended m data.length pad).buf m.nlmsgLen data i = m.buf i
      rw [write_out (Or.inl hi), extended_buf, if_neg (by omega)]
    · show write (extended m data.length pad).buf m.nlmsgLen data i = 0
      rw [write_out (Or.inr hge), extended_buf, if_pos ⟨hge, hlt⟩]

/-- **Builders are atomic.** For every message and every argument a call that fails leaves the message as it was; one that
succeeds changes nothing before its end, and pads with zeros, but for payloads of attributes that are too long, whose
padding stays as it was. -/
theorem builder_atomic_iff (m : NlMsg) :
    (∀ t n, ReserveAtomic m t n ↔ PaddingSafe m n) ∧ (∀ t n data, PutAtomic m t n data ↔ PaddingSafe m n) ∧
    (∀ len pad, MsgReserveAtomic m len pad) ∧ ∀ data pad, MsgAppendAtomic m data pad :=
  ⟨reserve_atomic_iff m, put_atomic_iff m, msg_reserve_atomic m, msg_append_atomic m⟩

omit [HostOrder] in
/-- **Padding that is not cleared**: a message of 16 bytes that was expanded to 128 KiB, where the new memory holds ones,
and a payload of 65533 bytes -/
theorem long_padding_kept : ∃ m m', m.nlmsgLen = 16 ∧ m.nmSize = 131072 ∧
    @nlaReserve ⟨false⟩ m 1 65533 = (m', some 16) ∧ m'.buf (payloadEnd m 65533) = 1 ∧
    payloadEnd m 65533 < attrEnd m 65533 := by
  let order : HostOrder := ⟨false⟩
  obtain ⟨m, hm⟩ : ∃ m : NlMsg, m = ⟨131072, 16, 0, 0, 0, 0, fun i => if i < 16 then 0 else 1, false⟩ := ⟨_, rfl⟩
  have hroom : ¬ Refused m 65533 := by
    rw [hm]
    unfold Refused
    decide
  have htail : nlmsgTail m = 16 := by
    rw [hm]
    decide
  have hend : payloadEnd m 65533 = 65553 := by
    rw [payloadEnd, htail]
    rfl
  have hkept := reserved_kept (m := m) (n := 65533) 1 (by decide) (i := payloadEnd m 65533) le_rfl
  refine ⟨m, reserved m 1 65533, by rw [hm], by rw [hm], ?_, ?_, ?_⟩
  · rw [nlaReserve_done hroom, htail]
  · rw [hkept, hend, hm]
    decide
  · rw [hend, attrEnd, htail]
    decide

end Libnl.Frame
