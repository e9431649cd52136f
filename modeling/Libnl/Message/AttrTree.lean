/-
Writing a forest of attributes into a message and reading it back.

A forest is written with `nla_put` for leaves and `nla_nest_start` / `nla_nest_end_keep_empty` for nests (`putForest`), and
read with `nla_ok` / `nla_next` at the top level and, through the payload of each nested attribute, below (`readForest`).

The link between the two is the byte image `enc` of a forest. Writing leaves the image in the buffer (`putForest_spec`): the
header of a nest first says 4 and is patched when the nest is closed, by then its children stand behind it. Reading any
memory that holds the image yields the forest (`readForest_enc`). Both are inductions over the forest.

- `forest_round_trip`: what was written is read back, exactly; and the writing succeeds whenever the message has room.
-/
import Mathlib.Tactic
import Libnl.Message.Attr

namespace Libnl.AttrTree

open Bytes Msg Attr

/-! ## Forests -/

/-- an ordered forest of attributes: the first tree, a leaf or a nest, and the rest -/
inductive Forest where
  | nil
  | leaf (type : ℕ) (payload : List UInt8) (rest : Forest)
  | nest (type : ℕ) (children rest : Forest)
deriving DecidableEq, Repr

namespace Forest

/-- bytes the forest takes in a message, padding included -/
def size : Forest → ℕ
  | nil => 0
  | leaf _ p rest => align4 (4 + p.length) + rest.size
  | nest _ cs rest => 4 + cs.size + rest.size

/-- number of attributes -/
def count : Forest → ℕ
  | nil => 0
  | leaf _ _ rest => rest.count + 1
  | nest _ cs rest => cs.count + rest.count + 1

/-- types in 1..2^14-1, no encoded attribute longer than 65535 bytes -/
def WF : Forest → Prop
  | nil => True
  | leaf t p rest => (1 ≤ t ∧ t < 16384) ∧ 4 + p.length ≤ 65535 ∧ rest.WF
  | nest t cs rest => (1 ≤ t ∧ t < 16384) ∧ 4 + cs.size ≤ 65535 ∧ cs.WF ∧ rest.WF

theorem size_mod (f : Forest) : f.size % 4 = 0 := by
  induction f with
  | nil => rfl
  | leaf t p rest ih => have := align4_mod (4 + p.length); simp only [size]; omega
  | nest t cs rest ihc ihr => simp only [size]; omega

end Forest

open Forest

variable [HostOrder]

/-- write a forest; `none` when a call fails -/
def putForest : NlMsg → Forest → Option NlMsg
  | m, .nil => some m
  | m, .leaf t p rest =>
    let r := nlaPut m t p.length p
    if r.2 < 0 then none else putForest r.1 rest
  | m, .nest t cs rest =>
    let r := nlaNestStart m t
    r.2.bind fun start =>
      (putForest r.1 cs).bind fun m =>
        let e := nlaNestEndKeepEmpty m start
        if e.2 < 0 then none else putForest e.1 rest

/-- read a forest from the `rem` bytes at `pos`: `nla_for_each_attr`, and `nla_for_each_nested` for nested attributes -/
def readForest : ℕ → Mem → ℕ → ℤ → Option Forest
  | 0, _, _, _ => none
  | n + 1, buf, pos, rem =>
    if nlaOk buf pos rem then
      if nlaIsNested buf pos then
        (readForest n buf (nlaData pos) (nlaLen buf pos)).bind fun cs =>
          (readForest n buf (nlaNext buf pos rem).1 (nlaNext buf pos rem).2).map (.nest (nlaType buf pos) cs)
      else
        (readForest n buf (nlaNext buf pos rem).1 (nlaNext buf pos rem).2).map
          (.leaf (nlaType buf pos) (readBytes buf (nlaData pos) (nlaLen buf pos).toNat))
    else some .nil

/-! ## The byte image -/

/-- image of one leaf: header, payload, zero padding -/
def encLeaf (type : ℕ) (payload : List UInt8) : List UInt8 :=
  nlaHeader (4 + payload.length) type ++ payload ++
    List.replicate (align4 (4 + payload.length) - (4 + payload.length)) 0

def enc : Forest → List UInt8
  | .nil => []
  | .leaf t p rest => encLeaf t p ++ enc rest
  | .nest t cs rest => nlaHeader (4 + cs.size) (32768 + t) ++ enc cs ++ enc rest

@[simp] theorem nlaHeader_length (len type : ℕ) : (nlaHeader len type).length = 4 := by simp [nlaHeader]

@[simp] theorem encLeaf_length (t : ℕ) (p : List UInt8) : (encLeaf t p).length = align4 (4 + p.length) := by
  have := le_align4 (4 + p.length)
  simp only [encLeaf, List.length_append, nlaHeader_length, List.length_replicate]
  omega

@[simp] theorem enc_length (f : Forest) : (enc f).length = f.size := by
  induction f with
  | nil => rfl
  | leaf t p rest ih => simp [enc, size, ih]
  | nest t cs rest ihc ihr => simp [enc, size, ihc, ihr]; omega

/-! ## Writing one attribute -/

omit [HostOrder] in
theorem nlaAttrSize_nat {n : ℕ} (h : 4 + n ≤ 65535) : nlaAttrSize n = (4 + n : ℕ) := by
  unfold nlaAttrSize NLA_HDRLEN
  rw [toInt32_of_mem (by push_cast; omega) (by push_cast; omega)]
  norm_cast

omit [HostOrder] in
theorem nlaTotalSize_nat {n : ℕ} (h : 4 + n ≤ 65535) : nlaTotalSize n = (align4 (4 + n) : ℕ) := by
  unfold nlaTotalSize alignInt
  rw [nlaAttrSize_nat h, toInt32_of_mem (by push_cast; omega) (by push_cast; omega)]
  simp only [align4]
  push_cast
  rfl

omit [HostOrder] in
theorem nlaPadlen_nat {n : ℕ} (h : 4 + n ≤ 65535) : (nlaPadlen n).toNat = align4 (4 + n) - (4 + n) := by
  have h1 := le_align4 (4 + n)
  have h2 := align4_lt (4 + n)
  unfold nlaPadlen
  rw [nlaAttrSize_nat h, nlaTotalSize_nat h, toInt32_of_mem (by omega) (by omega)]
  omega

/-- a message under construction whose length is aligned and fits an `int` -/
structure Tidy (m : NlMsg) : Prop where
  mod : m.nlmsgLen % 4 = 0
  lt : m.nlmsgLen < 2147483648
  size : m.nmSize ≤ PTRDIFF_MAX

omit [HostOrder] in
theorem Tidy.tail {m : NlMsg} (h : Tidy m) : nlmsgTail m = m.nlmsgLen := by
  have := h.lt
  rw [nlmsgTail, nlmsgAlign_eq (by omega), align4_of_mod h.mod]

/-- `n` more bytes fit: into the buffer, and into the `int` that holds the total -/
structure Room (m : NlMsg) (n : ℕ) : Prop where
  size : m.nlmsgLen + n ≤ m.nmSize
  int : m.nlmsgLen + n ≤ 2147483647

/-- `a` bytes standing at the end of `m` came to stand there, and nothing else changed -/
structure Wrote (m m' : NlMsg) (a : List UInt8) : Prop where
  tidy : Tidy m'
  len : m'.nlmsgLen = m.nlmsgLen + a.length
  size : m'.nmSize = m.nmSize
  seg : Seg m'.buf m.nlmsgLen a
  below : ∀ i < m.nlmsgLen, m'.buf i = m.buf i

omit [HostOrder] in
theorem Wrote.nil {m : NlMsg} (h : Tidy m) : Wrote m m [] := ⟨h, rfl, rfl, seg_nil _ _, fun _ _ => rfl⟩

omit [HostOrder] in
/-- one write behind another -/
theorem Wrote.append {m m1 m2 : NlMsg} {a b : List UInt8} (h1 : Wrote m m1 a) (h2 : Wrote m1 m2 b) :
    Wrote m m2 (a ++ b) := by
  have hl := h1.len
  refine ⟨h2.tidy, ?_, h2.size.trans h1.size, seg_append.2 ⟨?_, ?_⟩, fun i hi => ?_⟩
  · rw [h2.len, hl, List.length_append, add_assoc]
  · exact h1.seg.frame fun i _ hi => h2.below i (by omega)
  · rw [← hl]; exact h2.seg
  · rw [h2.below i (by omega), h1.below i hi]

omit [HostOrder] in
/-- the total length `nla_reserve` computes, when it fits an `int` -/
theorem reserve_total {L n : ℕ} (hn : 4 + n ≤ 65535) (hint : L + align4 (4 + n) ≤ 2147483647) :
    toInt32 (L + nlaTotalSize n) = (L + align4 (4 + n) : ℕ) := by
  rw [nlaTotalSize_nat hn, toInt32_of_mem (by omega) (by omega)]
  norm_cast

theorem nlaReserve_room {m : NlMsg} (hm : Tidy m) (t n : ℕ) (ht : t < 65536) (hn : 4 + n ≤ 65535)
    (hroom : Room m (align4 (4 + n))) :
    nlaReserve m t n =
      ({ m with
          buf := if n ≠ 0 then
              zero (write m.buf m.nlmsgLen (nlaHeader (4 + n) t)) (m.nlmsgLen + (4 + n)) (align4 (4 + n) - (4 + n))
            else write m.buf m.nlmsgLen (nlaHeader (4 + n) t)
          nlmsgLen := m.nlmsgLen + align4 (4 + n) }, some m.nlmsgLen) := by
  obtain ⟨hsz, hint⟩ := hroom
  have hu64 : toU64 (m.nlmsgLen + align4 (4 + n) : ℕ) = m.nlmsgLen + align4 (4 + n) := by unfold toU64; omega
  have hu32 : toU32 (m.nlmsgLen + align4 (4 + n) : ℕ) = m.nlmsgLen + align4 (4 + n) := by unfold toU32; omega
  have htype : toU16 t = t := toU16_natCast ht
  have hfield : toU16 (4 + n : ℕ) = 4 + n := toU16_natCast (by omega)
  have halign : nlmsgAlign m.nlmsgLen = m.nlmsgLen := hm.tail
  have hneg : ¬ ((n : ℤ) < 0) := not_lt.2 (Int.natCast_nonneg n)
  simp only [nlaReserve, hneg, if_false, halign, reserve_total hn hint, hu64, hu32, hm.tail, htype, nlaAttrSize_nat hn,
    hfield, nlaPadlen_nat hn, Nat.not_lt.2 hsz, ne_eq, Nat.cast_eq_zero]

/-- **`nla_put` with room** appends the image of the attribute. -/
theorem nlaPut_room {m : NlMsg} (hm : Tidy m) (t : ℕ) (ht : t < 65536) (p : List UInt8) (hp : 4 + p.length ≤ 65535)
    (hroom : Room m (align4 (4 + p.length))) :
    ∃ m', nlaPut m t p.length p = (m', 0) ∧ Wrote m m' (encLeaf t p) := by
  have hhdr : Seg (write m.buf m.nlmsgLen (nlaHeader (4 + p.length) t)) m.nlmsgLen (nlaHeader (4 + p.length) t) :=
    seg_write _ _ _
  have hmod := align4_mod (4 + p.length)
  have hmod' := hm.mod
  have htidy : (m.nlmsgLen + align4 (4 + p.length)) % 4 = 0 ∧ m.nlmsgLen + align4 (4 + p.length) < 2147483648 :=
    ⟨by omega, Nat.lt_succ_of_le hroom.int⟩
  rw [nlaPut_some p (nlaReserve_room hm t p.length ht hp hroom)]
  cases p with
  | nil => -- no payload: the header alone, which is aligned
    refine ⟨_, rfl, ⟨htidy.1, htidy.2, hm.size⟩, by simp, rfl, ?_, fun i hi => write_out (Or.inl hi)⟩
    simpa [encLeaf, align4] using hhdr
  | cons b bs => -- a payload: the header, then the payload over cleared padding
    have hpos : 0 < ((b :: bs).length : ℤ) := by simp only [List.length_cons]; omega
    have hne : (b :: bs).length ≠ 0 := by simp
    simp only [hpos, hne, ne_eq, not_false_eq_true, if_true]
    refine ⟨_, rfl, ⟨htidy.1, htidy.2, hm.size⟩, by simp, rfl, ?_, fun i hi => ?_⟩
    · simp only [nlaData, NLA_HDRLEN, Int.toNat_natCast, List.take_length, zero]
      refine seg_append.2 ⟨seg_append.2 ⟨?_, ?_⟩, ?_⟩
      · refine hhdr.frame fun i _ hi => ?_
        rw [nlaHeader_length] at hi
        rw [write_out (Or.inl hi), write_out (Or.inl (by omega))]
      · rw [nlaHeader_length]; exact seg_write _ _ _
      · rw [List.length_append, nlaHeader_length]
        exact (seg_write _ _ _).frame fun i hi _ => write_out (Or.inr (by omega))
    · have hi : i < m.nlmsgLen := hi
      simp only [nlaData, NLA_HDRLEN, zero]
      rw [write_out (Or.inl (by omega)), write_out (Or.inl (by omega)), write_out (Or.inl hi)]

/-- **`nla_put` without room** fails. -/
theorem nlaPut_full {m : NlMsg} (hm : Tidy m) (t : ℤ) (p : List UInt8) (hp : 4 + p.length ≤ 65535)
    (hroom : ¬ Room m (align4 (4 + p.length))) : (nlaPut m t p.length p).2 < 0 := by
  have hbig : m.nmSize < toU64 (toInt32 (m.nlmsgLen + nlaTotalSize p.length)) := by
    have hPD := hm.size
    simp only [PTRDIFF_MAX] at hPD
    by_cases h31 : m.nlmsgLen + align4 (4 + p.length) ≤ 2147483647
    · have hsz : m.nmSize < m.nlmsgLen + align4 (4 + p.length) := by
        by_contra hc
        exact hroom ⟨Nat.not_lt.1 hc, h31⟩
      rw [reserve_total hp h31]
      unfold toU64
      omega
    · -- the total does not fit an `int`: it becomes negative, and huge as a `size_t`
      have hlt := align4_lt (4 + p.length)
      have hlen := hm.lt
      rw [nlaTotalSize_nat hp]
      have h1 : toInt32 ((m.nlmsgLen : ℤ) + (align4 (4 + p.length) : ℕ)) < 0 ∧
          -2147483648 ≤ toInt32 ((m.nlmsgLen : ℤ) + (align4 (4 + p.length) : ℕ)) := by
        simp only [toInt32]; split_ifs <;> omega
      have := toU64_of_neg h1.2 h1.1
      omega
  have halign : nlmsgAlign m.nlmsgLen = m.nlmsgLen := hm.tail
  have hneg : ¬ ((p.length : ℤ) < 0) := not_lt.2 (Int.natCast_nonneg _)
  have hres : nlaReserve m t p.length = (m, none) := by
    unfold nlaReserve
    rw [if_neg hneg, halign]
    exact if_pos hbig
  rw [nlaPut_none p hres, if_neg hneg]
  exact (by decide : -NLE_NOMEM < 0)

/-! ## Nests -/

omit [HostOrder] in
theorem nested_or {t : ℕ} (h : t < 32768) : NLA_F_NESTED ||| toU16 t = 32768 + t := by
  have h2 := Nat.two_pow_add_eq_or_of_lt (show t < 2 ^ 15 by omega) 1
  rw [toU16_natCast (by omega), NLA_F_NESTED]
  simpa using h2.symm

/-- **`nla_nest_start` with room** appends a bare header. -/
theorem nlaNestStart_room {m : NlMsg} (hm : Tidy m) (t : ℕ) (ht : t < 32768) (hroom : Room m 4) :
    ∃ m', nlaNestStart m t = (m', some m.nlmsgLen) ∧ Wrote m m' (nlaHeader 4 (32768 + t)) := by
  have h4 : align4 (4 + ([] : List UInt8).length) = 4 := by decide
  obtain ⟨m', h1, h2⟩ := nlaPut_room hm (32768 + t) (by omega) [] (by simp) (h4 ▸ hroom)
  refine ⟨m', ?_, by simpa [encLeaf, align4] using h2⟩
  rw [nlaNestStart_of_put (nested_or ht ▸ h1), hm.tail]
  rfl

omit [HostOrder] in
/-- the flag and some type below it -/
theorem nested_or_any (t : ℤ) : ∃ t' < 32768, NLA_F_NESTED ||| toU16 t = 32768 + t' := by
  have hlt : toU16 t < 65536 := by
    unfold toU16
    omega
  have hor : ∀ r < 32768, 32768 ||| r = 32768 + r := by
    intro r hr
    have h := Nat.two_pow_add_eq_or_of_lt (show r < 2 ^ 15 from hr) 1
    simpa using h.symm
  by_cases hsmall : toU16 t < 32768
  · exact ⟨toU16 t, hsmall, hor _ hsmall⟩
  · refine ⟨toU16 t - 32768, by omega, ?_⟩
    have hr : toU16 t - 32768 < 32768 := by omega
    have hsplit : toU16 t = 32768 ||| (toU16 t - 32768) := by
      rw [hor _ hr]
      omega
    calc NLA_F_NESTED ||| toU16 t = 32768 ||| (32768 ||| (toU16 t - 32768)) := by rw [← hsplit, NLA_F_NESTED]
      _ = 32768 ||| (toU16 t - 32768) := by rw [← Nat.or_assoc, Nat.or_self]
      _ = 32768 + (toU16 t - 32768) := hor _ hr

/-- **`nla_nest_start` with room**, whatever the type -/
theorem nlaNestStart_any {m : NlMsg} (hm : Tidy m) (t : ℤ) (hroom : Room m 4) :
    ∃ t' < 32768, ∃ m', nlaNestStart m t = (m', some m.nlmsgLen) ∧ Wrote m m' (nlaHeader 4 (32768 + t')) := by
  have h4 : align4 (4 + ([] : List UInt8).length) = 4 := by decide
  obtain ⟨t', ht, hor⟩ := nested_or_any t
  obtain ⟨m', h1, h2⟩ := nlaPut_room hm (32768 + t') (by omega) [] (by simp) (h4 ▸ hroom)
  refine ⟨t', ht, m', ?_, by simpa [encLeaf, align4] using h2⟩
  rw [nlaNestStart_of_put (hor ▸ h1), hm.tail]
  rfl

theorem nlaNestStart_full {m : NlMsg} (hm : Tidy m) (t : ℕ) (hroom : ¬ Room m 4) : (nlaNestStart m t).2 = none := by
  have h4 : align4 (4 + ([] : List UInt8).length) = 4 := by decide
  have h := nlaPut_full hm ((NLA_F_NESTED ||| toU16 t : ℕ) : ℤ) [] (by simp) (h4 ▸ hroom)
  rw [List.length_nil, Nat.cast_zero] at h
  unfold nlaNestStart
  simp only [h, if_true]

/-- **Closing a nest** patches the length in its header. -/
theorem nlaNestEndKeepEmpty_wrote {m m1 m2 : NlMsg} {t : ℕ} {a : List UInt8} (h1 : Wrote m m1 (nlaHeader 4 (32768 + t)))
    (h2 : Wrote m1 m2 a) (ha : 4 + a.length ≤ 65535) :
    ∃ m3, nlaNestEndKeepEmpty m2 m.nlmsgLen = (m3, 0) ∧ Wrote m m3 (nlaHeader (4 + a.length) (32768 + t) ++ a) := by
  have hl1 := h1.len
  have hl2 := h2.len
  rw [nlaHeader_length] at hl1
  have htail := h2.tidy.tail
  have hlen : toU64 ((nlmsgTail m2 : ℤ) - m.nlmsgLen) = 4 + a.length := by
    rw [htail]
    have := toU64_of_nonneg (x := (m2.nlmsgLen : ℤ) - m.nlmsgLen) (by omega) (by omega)
    omega
  have hpad : toU32 ((nlmsgAlign m2.nlmsgLen : ℤ) - m2.nlmsgLen) = 0 := by
    rw [show nlmsgAlign m2.nlmsgLen = m2.nlmsgLen from htail, sub_self]; rfl
  refine ⟨{ m2 with buf := write m2.buf m.nlmsgLen (u16Bytes (4 + a.length)) }, ?_, ?_⟩
  · have hcond : ¬ (USHRT_MAX < 4 + a.length ∨ (true = false ∧ 4 + a.length = NLA_HDRLEN)) := by
      simp [USHRT_MAX]; omega
    simp only [nlaNestEndKeepEmpty, nestEnd, hlen, hcond, if_false, hpad, lt_self_iff_false]
  · refine ⟨⟨h2.tidy.mod, h2.tidy.lt, h2.tidy.size⟩, ?_, h2.size.trans h1.size, ?_, fun i hi => ?_⟩
    · simp only [List.length_append, nlaHeader_length]; omega
    · -- the length half of the header is new, the type half and the children are as they were
      have hold : Seg m2.buf m.nlmsgLen (nlaHeader 4 (32768 + t)) :=
        h1.seg.frame fun i _ hi => h2.below i (by rw [nlaHeader_length] at hi; omega)
      have htype := (seg_append.1 hold).2
      rw [u16Bytes_length] at htype
      rw [nlaHeader, List.append_assoc]
      refine seg_append.2 ⟨seg_write _ _ _, seg_append.2 ⟨?_, ?_⟩⟩
      · rw [u16Bytes_length]
        exact htype.frame fun i hi _ => write_out (Or.inr (by rw [u16Bytes_length]; exact hi))
      · have hch : Seg (write m2.buf m.nlmsgLen (u16Bytes (4 + a.length))) m1.nlmsgLen a :=
          h2.seg.frame fun i hi _ => write_out (Or.inr (by rw [u16Bytes_length]; omega))
        rw [hl1] at hch
        simpa [add_assoc] using hch
    · simp only
      rw [write_out (Or.inl hi), h2.below i (by omega), h1.below i hi]

/-! ## Writing a forest -/

/-- **What is written.** A forest that was written without an error stands in the buffer as its image. -/
theorem putForest_spec (f : Forest) (hf : f.WF) (m m' : NlMsg) (hm : Tidy m) (h : putForest m f = some m') :
    Wrote m m' (enc f) := by
  induction f generalizing m m' with
  | nil => cases h; exact Wrote.nil hm
  | leaf t p rest ih =>
    obtain ⟨⟨_, ht⟩, hp, hrest⟩ := hf
    by_cases hroom : Room m (align4 (4 + p.length))
    · obtain ⟨m1, h1, w1⟩ := nlaPut_room hm t (by omega) p hp hroom
      rw [putForest, h1] at h
      exact w1.append (ih hrest m1 m' w1.tidy h)
    · have hfull := nlaPut_full hm t p hp hroom
      rw [putForest, if_pos hfull] at h
      cases h
  | nest t cs rest ihc ihr =>
    obtain ⟨⟨_, ht⟩, hsz, hcs, hrest⟩ := hf
    by_cases hroom : Room m 4
    · obtain ⟨m1, h1, w1⟩ := nlaNestStart_room hm t (by omega) hroom
      rw [putForest, h1] at h
      rw [Option.bind_some] at h
      obtain ⟨m2, h2, h⟩ := Option.bind_eq_some_iff.1 h
      have w2 := ihc hcs m1 m2 w1.tidy h2
      obtain ⟨m3, h3, w3⟩ := nlaNestEndKeepEmpty_wrote w1 w2 (by simpa using hsz)
      rw [h3] at h
      simp only [enc]
      rw [← enc_length cs]
      exact w3.append (ihr hrest m3 m' w3.tidy h)
    · have hfull := nlaNestStart_full hm t hroom
      rw [putForest, hfull] at h
      cases h

/-- **Writing succeeds** when there is room for the whole forest. -/
theorem putForest_room (f : Forest) (hf : f.WF) (m : NlMsg) (hm : Tidy m) (hroom : Room m f.size) :
    ∃ m', putForest m f = some m' := by
  induction f generalizing m with
  | nil => exact ⟨m, rfl⟩
  | leaf t p rest ih =>
    obtain ⟨⟨_, ht⟩, hp, hrest⟩ := hf
    obtain ⟨hr1, hr2⟩ := hroom
    simp only [size] at hr1 hr2
    obtain ⟨m1, h1, w1⟩ := nlaPut_room hm t (by omega) p hp ⟨by omega, by omega⟩
    have hl := w1.len
    have hs := w1.size
    rw [encLeaf_length] at hl
    rw [putForest, h1]
    exact ih hrest m1 w1.tidy ⟨by omega, by omega⟩
  | nest t cs rest ihc ihr =>
    obtain ⟨⟨_, ht⟩, hsz, hcs, hrest⟩ := hf
    obtain ⟨hr1, hr2⟩ := hroom
    simp only [size] at hr1 hr2
    obtain ⟨m1, h1, w1⟩ := nlaNestStart_room hm t (by omega) ⟨by omega, by omega⟩
    have hl1 := w1.len
    have hs1 := w1.size
    rw [nlaHeader_length] at hl1
    obtain ⟨m2, h2⟩ := ihc hcs m1 w1.tidy ⟨by omega, by omega⟩
    have w2 := putForest_spec cs hcs m1 m2 w1.tidy h2
    obtain ⟨m3, h3, w3⟩ := nlaNestEndKeepEmpty_wrote w1 w2 (by simpa using hsz)
    have hl3 := w3.len
    have hs3 := w3.size
    simp only [List.length_append, nlaHeader_length, enc_length] at hl3
    rw [putForest, h1, Option.bind_some, h2, Option.bind_some, h3]
    exact ihr hrest m3 w3.tidy ⟨by omega, by omega⟩

/-! ## Reading a forest -/

/-- the fields of a header that stands in memory -/
theorem header_fields {buf : Mem} {p len type : ℕ} (h : Seg buf p (nlaHeader len type)) (hl : len < 65536)
    (ht : type < 65536) : nlaLenField buf p = len ∧ nlaTypeField buf p = type := by
  obtain ⟨h1, h2⟩ := seg_append.1 h
  rw [u16Bytes_length] at h2
  exact ⟨h1.getU16.trans (Nat.mod_eq_of_lt hl), h2.getU16.trans (Nat.mod_eq_of_lt ht)⟩

/-- **What is read.** Memory that holds the image of a forest reads as that forest. -/
theorem readForest_enc (f : Forest) (hf : f.WF) (buf : Mem) (p n : ℕ) (hsize : f.size < 2147483648)
    (hseg : Seg buf p (enc f)) (hn : f.count < n) : readForest n buf p f.size = some f := by
  induction f generalizing p n with
  | nil =>
    obtain ⟨n, rfl⟩ : ∃ k, n = k + 1 := ⟨n - 1, by omega⟩
    simp [readForest, nlaOk, size]
  | leaf t pl rest ih =>
    obtain ⟨⟨_, ht⟩, hp, hrest⟩ := hf
    obtain ⟨n, rfl⟩ : ∃ k, n = k + 1 := ⟨n - 1, by omega⟩
    simp only [size, count] at hsize hn
    obtain ⟨hleaf, htl⟩ := seg_append.1 hseg
    obtain ⟨hbody, _⟩ := seg_append.1 hleaf
    obtain ⟨hh, hpl⟩ := seg_append.1 hbody
    obtain ⟨hlenf, htyf⟩ := header_fields hh (by omega) (by omega)
    rw [nlaHeader_length] at hpl
    rw [encLeaf_length] at htl
    have hge := le_align4 (4 + pl.length)
    have hok : nlaOk buf p ((size (leaf t pl rest) : ℕ) : ℤ) = true := by
      unfold nlaOk
      rw [hlenf, Bool.and_eq_true, Bool.and_eq_true, decide_eq_true_eq, decide_eq_true_eq, decide_eq_true_eq]
      simp only [size]
      omega
    have hnext : nlaNext buf p ((size (leaf t pl rest) : ℕ) : ℤ) = (p + align4 (4 + pl.length), (rest.size : ℤ)) := by
      simp only [nlaNext, hlenf, size]
      rw [toInt32_of_mem (by push_cast; omega) (by push_cast; omega)]
      push_cast; simp
    have hnest : nlaIsNested buf p = false := by
      unfold nlaIsNested NLA_F_NESTED
      rw [htyf]
      exact decide_eq_false (by omega)
    have hty : nlaType buf p = t := by
      unfold nlaType
      rw [htyf]
      omega
    have hln : (nlaLen buf p).toNat = pl.length := by simp only [nlaLen, hlenf, NLA_HDRLEN]; omega
    simp only [readForest, hok, if_true, hnest, Bool.false_eq_true, if_false, hnext, hty, hln,
      ih hrest (p + align4 (4 + pl.length)) n (by omega) htl (by omega), Option.map_some, nlaData, NLA_HDRLEN,
      hpl.readBytes]
  | nest t cs rest ihc ihr =>
    obtain ⟨⟨_, ht⟩, hsz, hcs, hrest⟩ := hf
    obtain ⟨n, rfl⟩ : ∃ k, n = k + 1 := ⟨n - 1, by omega⟩
    simp only [size, count] at hsize hn
    obtain ⟨hbody, htl⟩ := seg_append.1 hseg
    obtain ⟨hh, hch⟩ := seg_append.1 hbody
    obtain ⟨hlenf, htyf⟩ := header_fields hh (by omega) (by omega)
    rw [nlaHeader_length] at hch
    rw [List.length_append, nlaHeader_length, enc_length] at htl
    -- the length of a nest is aligned: nothing is skipped behind it
    have halign : align4 (4 + cs.size) = 4 + cs.size := align4_of_mod (by have := cs.size_mod; omega)
    have hok : nlaOk buf p ((size (nest t cs rest) : ℕ) : ℤ) = true := by
      unfold nlaOk
      rw [hlenf, Bool.and_eq_true, Bool.and_eq_true, decide_eq_true_eq, decide_eq_true_eq, decide_eq_true_eq]
      simp only [size]
      omega
    have hnext : nlaNext buf p ((size (nest t cs rest) : ℕ) : ℤ) = (p + (4 + cs.size), (rest.size : ℤ)) := by
      simp only [nlaNext, hlenf, size, halign]
      rw [toInt32_of_mem (by push_cast; omega) (by push_cast; omega)]
      push_cast; simp
    have hnest : nlaIsNested buf p = true := by
      unfold nlaIsNested NLA_F_NESTED
      rw [htyf]
      exact decide_eq_true (by omega)
    have hty : nlaType buf p = t := by
      unfold nlaType
      rw [htyf]
      omega
    have hln : nlaLen buf p = cs.size := by simp only [nlaLen, hlenf, NLA_HDRLEN]; push_cast; ring
    simp only [readForest, hok, if_true, hnest, hnext, hty, hln, nlaData, NLA_HDRLEN,
      ihc hcs (p + 4) n (by omega) hch (by omega), ihr hrest (p + (4 + cs.size)) n (by omega) htl (by omega),
      Option.bind_some, Option.map_some]

/-! ## Round trip -/

omit [HostOrder] in
theorem tidy_of_fresh {n : NlMsg} (h : Fresh n) : Tidy n := ⟨by rw [h.len], by rw [h.len]; decide, h.le⟩

/-- **Attribute-tree round trip.** A well-formed forest that was written into a fresh message is read back exactly as it
was, by the attribute iterators over the message's attributes. The writing succeeds whenever the message has room for the
forest (the library keeps message lengths in an `int`, so no message is longer than `INT_MAX`). -/
theorem forest_round_trip (f : Forest) (hf : f.WF) (n : NlMsg) (hn : Fresh n) :
    (∀ m, putForest n f = some m → ∀ k, f.count < k →
      readForest k m.buf (nlmsgAttrdata 0) (nlmsgAttrlen m.nlmsgLen 0) = some f) ∧
    (16 + f.size ≤ n.nmSize → 16 + f.size ≤ 2147483647 → ∃ m, putForest n f = some m) := by
  have hlen := hn.len
  constructor
  · intro m hput k hk
    have w := putForest_spec f hf n m (tidy_of_fresh hn) hput
    have hl := w.len
    have hlt := w.tidy.lt
    rw [enc_length, hlen] at hl
    have hdata : nlmsgAttrdata 0 = n.nlmsgLen := by rw [hlen]; decide
    have halen : nlmsgAttrlen m.nlmsgLen 0 = f.size := by
      have h0 : alignInt 0 = 0 := by decide
      have h1 : nlmsgDatalen m.nlmsgLen = f.size := by
        unfold nlmsgDatalen NLMSG_HDRLEN
        rw [toInt32_of_mem (by omega) (by omega)]; omega
      rw [nlmsgAttrlen, h0, h1, sub_zero, toInt32_of_mem (by omega) (by omega)]
      exact max_eq_left (by omega)
    rw [hdata, halen]
    exact readForest_enc f hf m.buf n.nlmsgLen k (by omega) w.seg hk
  · intro h1 h2
    exact putForest_room f hf n (tidy_of_fresh hn) ⟨by omega, by omega⟩

/-- a leaf with an odd payload before a nest that holds an empty leaf and an empty nest -/
def sampleForest : Forest := .leaf 1 [10, 20, 30] (.nest 2 (.leaf 3 [] (.nest 4 .nil .nil)) .nil)

omit [HostOrder] in
/-- the round trip on a message of 64 bytes -/
theorem forest_round_trip_sample : ∃ n m, nlmsgAllocSize 64 = some n ∧ @putForest ⟨false⟩ n sampleForest = some m ∧
    @readForest ⟨false⟩ 5 m.buf (nlmsgAttrdata 0) (nlmsgAttrlen m.nlmsgLen 0) = some sampleForest := by
  obtain ⟨n, hn⟩ : ∃ n, nlmsgAllocSize 64 = some n := ⟨_, rfl⟩
  have hsz : n.nmSize = 64 := by cases hn; rfl
  have h := @forest_round_trip ⟨false⟩ sampleForest (by simp [sampleForest, WF, size, align4]) n (fresh_alloc hn)
  obtain ⟨m, hm⟩ := h.2 (by rw [hsz]; decide) (by decide)
  exact ⟨n, m, hn, hm, h.1 m hm 5 (by decide)⟩

end Libnl.AttrTree
