/-
Writers of messages: sequences of calls that append, each of which may fail.

A writer of the library puts attributes one after the other, most of them under a condition, opens nests and closes them,
and gives up with a fixed code at the first call that fails. With room for all of it nothing fails, and what stands in the
message afterwards is known.

- `thenPut`, `inNest`: one call after another.
- `putAll`: attributes in a row. `putAll_room`: with room they come to stand there. `putAll_full`: without, it fails.
- `Appended`: bytes at the end of a message whose length is not aligned, and `nest_bytes`, a nest around such bytes.
- `Wrote.patch`: bytes that were reserved are filled in.
- `nest_end`, `nest_dropped`: what `nla_nest_end` leaves of a nest.
- `Puts`: what a writer leaves behind. `Puts.seq`, `Puts.nest`: writers in a row, and in a nest. `Puts.pass`, `Puts.passNest`:
  the same for those that pass on the errors of others.
- `Refuses`: a writer that always fails.
-/
import Mathlib.Tactic
import Libnl.Message.AttrStream

namespace Libnl.Writer

open Bytes Msg Attr AttrTree AttrStream

/-! ## Sequences -/

/-- the next call, unless the one before failed: then the writer fails with its code -/
def thenPut (code : ℤ) (r : NlMsg × ℤ) (f : NlMsg → NlMsg × ℤ) : NlMsg × ℤ := if r.2 < 0 then (r.1, code) else f r.1

/-- the same behind a call that hands out a place in the message -/
def inNest (code : ℤ) (r : NlMsg × Option ℕ) (f : NlMsg → ℕ → NlMsg × ℤ) : NlMsg × ℤ :=
  match r.2 with
  | none => (r.1, code)
  | some attr => f r.1 attr

theorem thenPut_ok (code : ℤ) (msg : NlMsg) (f : NlMsg → NlMsg × ℤ) : thenPut code (msg, 0) f = f msg :=
  if_neg (lt_irrefl (0 : ℤ))

theorem inNest_some (code : ℤ) (msg : NlMsg) (attr : ℕ) (f : NlMsg → ℕ → NlMsg × ℤ) :
    inNest code (msg, some attr) f = f msg attr := rfl

theorem thenPut_assoc {code : ℤ} (hcode : code < 0) (r : NlMsg × ℤ) (f g : NlMsg → NlMsg × ℤ) :
    thenPut code (thenPut code r f) g = thenPut code r fun msg => thenPut code (f msg) g := by
  by_cases h : r.2 < 0
  · simp only [thenPut, if_pos h]
    exact if_pos hcode
  · simp only [thenPut, if_neg h]

variable [HostOrder]

/-- attributes in a row -/
def putAll (code : ℤ) : List Leaf → NlMsg → NlMsg × ℤ
  | [], msg => (msg, 0)
  | l :: ls, msg => thenPut code (nlaPut msg l.type l.payload.length l.payload) (putAll code ls)

/-- an attribute that is put under a condition -/
def leafIf (c : Bool) (type : ℕ) (payload : List UInt8) : List Leaf := if c then [⟨type, payload⟩] else []

/-- a nest with attributes in it; what closing it returns is not looked at -/
def putNest (code type : ℤ) (ls : List Leaf) (msg : NlMsg) : NlMsg × ℤ :=
  inNest code (nlaNestStart msg type) fun msg attr =>
    thenPut code (putAll code ls msg) fun msg => ((nlaNestEnd msg attr).1, 0)

/-- **Attributes in a row**, with room -/
theorem putAll_room (code : ℤ) {ls : List Leaf} (hwf : ∀ l ∈ ls, l.WF) {m : NlMsg} (hm : Tidy m)
    (hroom : Room m (encLeaves ls).length) : ∃ m', putAll code ls m = (m', 0) ∧ Wrote m m' (encLeaves ls) := by
  induction ls generalizing m with
  | nil => exact ⟨m, rfl, Wrote.nil hm⟩
  | cons l ls ih =>
    have hsplit := encLeaves_append [l] ls
    rw [List.singleton_append] at hsplit
    rw [hsplit, List.length_append] at hroom
    rw [hsplit]
    obtain ⟨m1, h1, hw1⟩ := put_leaf hm (hwf l List.mem_cons_self) (room_mono hroom (Nat.le_add_right _ _))
    obtain ⟨m2, h2, hw2⟩ := ih (fun x hx => hwf x (List.mem_cons_of_mem l hx)) hw1.tidy (room_after hw1 hroom)
    refine ⟨m2, ?_, hw1.append hw2⟩
    rw [putAll, h1, thenPut_ok, h2]

/-- **Attributes in a row** without room: the writer gives up with its code. -/
theorem putAll_full {code : ℤ} {ls : List Leaf} (hwf : ∀ l ∈ ls, l.WF) {m : NlMsg} (hm : Tidy m) (h0 : Room m 0)
    (hfull : ¬ Room m (encLeaves ls).length) : (putAll code ls m).2 = code := by
  induction ls generalizing m with
  | nil => exact absurd h0 hfull
  | cons l ls ih =>
    have hsplit := encLeaves_append [l] ls
    rw [List.singleton_append] at hsplit
    have hl := hwf l List.mem_cons_self
    by_cases hroom : Room m (encLeaves [l]).length
    · obtain ⟨m1, h1, hw1⟩ := put_leaf hm hl hroom
      rw [putAll, h1, thenPut_ok]
      refine ih (fun x hx => hwf x (List.mem_cons_of_mem l hx)) hw1.tidy (room_after hw1 hroom) fun hrest => ?_
      have hlen := hw1.len
      have hsize := hw1.size
      have hr1 := hrest.size
      have hr2 := hrest.int
      refine hfull ⟨?_, ?_⟩
      · rw [hsplit, List.length_append]
        omega
      · rw [hsplit, List.length_append]
        omega
    · have hone : encLeaves [l] = encLeaf l.type l.payload := List.append_nil _
      rw [hone, encLeaf_length] at hroom
      have hneg := nlaPut_full hm l.type l.payload hl.len hroom
      rw [putAll, thenPut, if_pos hneg]

omit [HostOrder] in
theorem lastOf_append (as bs : List Leaf) (t : ℕ) : lastOf (as ++ bs) t = (lastOf bs t).or (lastOf as t) := by
  rw [lastOf, List.reverse_append, List.find?_append]
  rfl

/-! ## Bytes without alignment -/

/-- bytes came to stand at the end of `m`; the length need not be aligned -/
structure Appended (m m' : NlMsg) (a : List UInt8) : Prop where
  len : m'.nlmsgLen = m.nlmsgLen + a.length
  size : m'.nmSize = m.nmSize
  seg : Seg m'.buf m.nlmsgLen a
  below : ∀ i < m.nlmsgLen, m'.buf i = m.buf i

omit [HostOrder] in
theorem Appended.append {m m1 m2 : NlMsg} {a b : List UInt8} (h1 : Appended m m1 a) (h2 : Appended m1 m2 b) :
    Appended m m2 (a ++ b) := by
  have hl := h1.len
  refine ⟨?_, h2.size.trans h1.size, seg_append.2 ⟨?_, ?_⟩, fun i hi => ?_⟩
  · rw [h2.len, hl, List.length_append, add_assoc]
  · exact h1.seg.frame fun i _ hi => h2.below i (by omega)
  · rw [← hl]
    exact h2.seg
  · rw [h2.below i (by omega), h1.below i hi]

omit [HostOrder] in
/-- **`nlmsg_append` with room**, without padding -/
theorem nlmsgAppend_room {m : NlMsg} (hsize : m.nmSize ≤ PTRDIFF_MAX) {a : List UInt8} (hroom : Room m a.length) :
    ∃ m', nlmsgAppend m a 0 = (m', 0) ∧ Appended m m' a := by
  have h1 := hroom.size
  have h2 := hroom.int
  simp only [PTRDIFF_MAX] at hsize
  have hfits : ¬ m.nmSize < (a.length + m.nlmsgLen) % 18446744073709551616 := by omega
  have hlen : (m.nlmsgLen + a.length) % 4294967296 = m.nlmsgLen + a.length := by omega
  refine ⟨{ m with nlmsgLen := m.nlmsgLen + a.length, buf := write m.buf m.nlmsgLen a }, ?_, ?_⟩
  · have hfirst : ¬ m.nmSize < a.length := by omega
    simp only [nlmsgAppend, nlmsgReserve, reserveLen, if_neg hfirst, if_true, if_neg hfits, lt_irrefl, if_false, hlen]
  · refine ⟨rfl, rfl, seg_write _ _ _, ?_⟩
    intro i hi
    exact write_out (Or.inl hi)

/-- closing a nest around bytes: the length half of its header is written, and the padding reserved -/
theorem nestEnd_appended {m m1 m2 : NlMsg} {t : ℕ} {a : List UInt8} (h1 : Wrote m m1 (nlaHeader 4 (32768 + t)))
    (h2 : Appended m1 m2 a) (hne : a ≠ []) (hlen : 4 + align4 a.length ≤ 65535) (hroom : Room m1 (align4 a.length)) :
    nlaNestEnd m2 m.nlmsgLen = ({ m2 with
      buf := write m2.buf m.nlmsgLen (u16Bytes (4 + align4 a.length))
      nlmsgLen := m1.nlmsgLen + align4 a.length }, 0) := by
  have hl1 := h1.len
  have hl2 := h2.len
  have hmod := h1.tidy.mod
  have hge := le_align4 a.length
  have hmoda := align4_mod a.length
  have hlta := align4_lt a.length
  have hr1 := hroom.size
  have hr2 := hroom.int
  have hpos : 0 < a.length := List.length_pos_iff.2 hne
  rw [nlaHeader_length] at hl1
  have htail : nlmsgAlign m2.nlmsgLen = m1.nlmsgLen + align4 a.length := by
    rw [nlmsgAlign_eq (by omega), hl2]
    unfold align4
    omega
  have hlen64 : toU64 ((nlmsgTail m2 : ℤ) - m.nlmsgLen) = 4 + align4 a.length := by
    rw [nlmsgTail, htail]
    have hcast := toU64_of_nonneg (x := ((m1.nlmsgLen + align4 a.length : ℕ) : ℤ) - m.nlmsgLen) (by omega) (by omega)
    omega
  have hpad : toU32 ((nlmsgAlign m2.nlmsgLen : ℤ) - m2.nlmsgLen) = align4 a.length - a.length := by
    have hcast := toU32_of_mem (x := (nlmsgAlign m2.nlmsgLen : ℤ) - m2.nlmsgLen) (by rw [htail]; omega)
      (by rw [htail]; omega)
    omega
  have hcond : ¬ (USHRT_MAX < 4 + align4 a.length ∨ (True ∧ 4 + align4 a.length = NLA_HDRLEN)) := by
    simp only [USHRT_MAX, NLA_HDRLEN, true_and]
    omega
  simp only [nlaNestEnd, nestEnd, hlen64]
  rw [if_neg hcond]
  simp only [hpad]
  by_cases hzero : 0 < align4 a.length - a.length
  · have hsize := h2.size
    have hA : ¬ m2.nmSize < align4 a.length - a.length := by omega
    have hB : ¬ m2.nmSize < (align4 a.length - a.length + m2.nlmsgLen) % 18446744073709551616 := by omega
    have hC : (m2.nlmsgLen + (align4 a.length - a.length)) % 4294967296 = m1.nlmsgLen + align4 a.length := by omega
    rw [if_pos hzero]
    simp only [nlmsgReserve, reserveLen, if_neg hA, if_true, if_neg hB, lt_irrefl, if_false, hC]
  · have hD : m1.nlmsgLen + align4 a.length = m2.nlmsgLen := by omega
    rw [if_neg hzero, hD]

/-- the header of a nest with bytes and padding in full length -/
theorem encLeaves_padded {t : ℕ} {a pad : List UInt8} (hpad : (a ++ pad).length = align4 a.length) :
    encLeaves [⟨t, a ++ pad⟩] = nlaHeader (4 + align4 a.length) t ++ (a ++ pad) := by
  have hmoda := align4_mod a.length
  have hnopad : align4 (4 + align4 a.length) - (4 + align4 a.length) = 0 := by
    rw [align4_of_mod (by omega), Nat.sub_self]
  rw [encLeaves_cons, encLeaves_nil, List.append_nil, encLeaf, hpad, hnopad, List.replicate_zero, List.append_nil]

/-- **A nest around bytes**: its length takes in the padding, which is whatever stands there. -/
theorem nest_bytes {m m1 m2 : NlMsg} {t : ℕ} {a : List UInt8} (h1 : Wrote m m1 (nlaHeader 4 (32768 + t)))
    (h2 : Appended m1 m2 a) (hne : a ≠ []) (hlen : 4 + align4 a.length ≤ 65535) (hroom : Room m1 (align4 a.length)) :
    ∃ pad m3, pad.length = align4 a.length - a.length ∧ nlaNestEnd m2 m.nlmsgLen = (m3, 0) ∧
      Wrote m m3 (encLeaves [⟨32768 + t, a ++ pad⟩]) := by
  have hend := nestEnd_appended h1 h2 hne hlen hroom
  generalize hbuf : write m2.buf m.nlmsgLen (u16Bytes (4 + align4 a.length)) = buf at hend
  refine ⟨readBytes buf m2.nlmsgLen (align4 a.length - a.length), _, readBytes_length _ _ _, hend, ?_⟩
  have hl1 := h1.len
  have hl2 := h2.len
  have hmod := h1.tidy.mod
  have hge := le_align4 a.length
  have hmoda := align4_mod a.length
  have hr1 := hroom.size
  have hr2 := hroom.int
  rw [nlaHeader_length] at hl1
  have hpl : (a ++ readBytes buf m2.nlmsgLen (align4 a.length - a.length)).length = align4 a.length := by
    rw [List.length_append, readBytes_length]
    omega
  have hframe : ∀ i, m.nlmsgLen + 2 ≤ i → buf i = m2.buf i := by
    intro i hi
    rw [← hbuf]
    exact write_out (Or.inr (by rw [u16Bytes_length]; exact hi))
  -- the image: the length half of the header is new, the rest is as it was
  rw [encLeaves_padded hpl]
  refine ⟨⟨?_, ?_, ?_⟩, ?_, h2.size.trans h1.size, ?_, ?_⟩
  · simp only
    omega
  · simp only
    omega
  · simp only [h2.size]
    exact h1.tidy.size
  · simp only [List.length_append, nlaHeader_length, readBytes_length]
    omega
  · have hold : Seg m2.buf m.nlmsgLen (nlaHeader 4 (32768 + t)) :=
      h1.seg.frame fun i _ hi => h2.below i (by rw [nlaHeader_length] at hi; omega)
    have htype := (seg_append.1 hold).2
    rw [u16Bytes_length] at htype
    refine seg_append.2 ⟨?_, ?_⟩
    · rw [nlaHeader]
      refine seg_append.2 ⟨?_, ?_⟩
      · rw [← hbuf]
        exact seg_write _ _ _
      · rw [u16Bytes_length]
        exact htype.frame fun i hi _ => hframe i hi
    · rw [nlaHeader_length, ← hl1]
      refine seg_append.2 ⟨h2.seg.frame fun i hi _ => hframe i (by omega), ?_⟩
      rw [← hl2]
      intro i hi
      simp [readBytes]
  · intro i hi
    simp only [← hbuf]
    rw [write_out (Or.inl hi), h2.below i (by omega), h1.below i hi]

/-! ## Reserved bytes -/

/-- bytes that are stored in a message, with no change of its length -/
def patch (msg : NlMsg) (p : ℕ) (bs : List UInt8) : NlMsg := { msg with buf := write msg.buf p bs }

omit [HostOrder] in
/-- bytes in the middle of what was written are filled in -/
theorem Wrote.patch {m m1 : NlMsg} (pre a b a' : List UInt8) (h : Wrote m m1 (pre ++ a ++ b)) (hl : a'.length = a.length) :
    Wrote m (patch m1 (m.nlmsgLen + pre.length) a') (pre ++ a' ++ b) := by
  obtain ⟨hpa, hb⟩ := seg_append.1 h.seg
  obtain ⟨hp, -⟩ := seg_append.1 hpa
  have hlen := h.len
  refine ⟨⟨h.tidy.mod, h.tidy.lt, h.tidy.size⟩, ?_, h.size, ?_, ?_⟩
  · simp only [List.length_append] at hlen ⊢
    rw [hl]
    exact hlen
  · refine seg_append.2 ⟨seg_append.2 ⟨?_, seg_write _ _ _⟩, ?_⟩
    · exact hp.frame fun i _ hi => write_out (Or.inl hi)
    · rw [List.length_append] at hb ⊢
      rw [hl]
      exact hb.frame fun i hi _ => write_out (Or.inr (by omega))
  · intro i hi
    have hout : (Writer.patch m1 (m.nlmsgLen + pre.length) a').buf i = m1.buf i := write_out (Or.inl (by omega))
    rw [hout, h.below i hi]

omit [HostOrder] in
/-- the mask of the alignment takes away what was added to round up -/
theorem and_align_mask {n : ℕ} (hmod : n % 4 = 0) (hlt : n < 2 ^ 62) : (n + 3) &&& (2 ^ 64 - 2 ^ 2) = n := by
  obtain ⟨k, rfl⟩ : ∃ k, n = k <<< 2 := ⟨n / 4, by rw [Nat.shiftLeft_eq]; omega⟩
  have hmask : 2 ^ 64 - 2 ^ 2 = (2 ^ 62 - 1) <<< 2 := by decide
  have hlow : 3 &&& (2 ^ 62 - 1) <<< 2 = 0 := by decide
  have hk : k < 2 ^ 62 := by
    rw [Nat.shiftLeft_eq] at hlt
    omega
  have hor : k <<< 2 + 3 = k <<< 2 ||| 3 := Nat.shiftLeft_add_eq_or_of_lt (by decide) k
  rw [hor, Nat.and_or_distrib_right, hmask, hlow, Nat.or_zero, ← Nat.shiftLeft_and_distrib,
    Nat.and_two_pow_sub_one_of_lt_two_pow hk]

omit [HostOrder] in
/-- **`nlmsg_reserve` with room**, for a multiple of the alignment -/
theorem nlmsgReserve_aligned {m : NlMsg} (hm : Tidy m) {n : ℕ} (hmod : n % 4 = 0) (hroom : Room m n) :
    ∃ m' a, nlmsgReserve m n 4 = (m', some m.nlmsgLen) ∧ a.length = n ∧ Wrote m m' a := by
  have h1 := hroom.size
  have h2 := hroom.int
  have hsize := hm.size
  have hm4 := hm.mod
  simp only [PTRDIFF_MAX] at hsize
  have hfirst : ¬ m.nmSize < n := by omega
  have htlen : reserveLen n 4 = n := by
    have h3 : toInt32 (4 - 1) = 3 := by decide
    have hmask : toU64 (-(3 : ℤ) - 1) = 2 ^ 64 - 2 ^ 2 := by decide
    have hsum : toU64 ((n : ℤ) + 3) = n + 3 := by
      have := toU64_of_nonneg (x := (n : ℤ) + 3) (by omega) (by omega)
      omega
    rw [reserveLen, if_neg (by decide), h3, hmask, hsum]
    exact and_align_mask hmod (by omega)
  have hfits : ¬ m.nmSize < (n + m.nlmsgLen) % 18446744073709551616 := by omega
  have hlen : (m.nlmsgLen + n) % 4294967296 = m.nlmsgLen + n := by omega
  refine ⟨{ m with nlmsgLen := m.nlmsgLen + n }, readBytes m.buf m.nlmsgLen n, ?_, readBytes_length _ _ _, ?_⟩
  · simp only [nlmsgReserve, htlen, if_neg hfirst, if_neg hfits, lt_irrefl, if_false, hlen]
  · refine ⟨⟨?_, ?_, hm.size⟩, ?_, rfl, ?_, fun i _ => rfl⟩
    · simp only
      omega
    · simp only
      omega
    · rw [readBytes_length]
    · intro i hi
      simp [readBytes]

omit [HostOrder] in
/-- **`nlmsg_append` with room**, for a multiple of the alignment -/
theorem nlmsgAppend_aligned {m : NlMsg} (hm : Tidy m) {a : List UInt8} (hmod : a.length % 4 = 0)
    (hroom : Room m a.length) : ∃ m', nlmsgAppend m a 4 = (m', 0) ∧ Wrote m m' a := by
  obtain ⟨m1, old, hres, hlen, hw⟩ := nlmsgReserve_aligned hm hmod hroom
  have hpatch := Wrote.patch [] old [] a (by rw [List.append_nil, List.nil_append]; exact hw) hlen.symm
  rw [List.length_nil, add_zero, List.nil_append, List.append_nil] at hpatch
  refine ⟨_, ?_, hpatch⟩
  rw [nlmsgAppend, hres]
  rfl

/-! ## Closing a nest -/

/-- a nest that is not empty, closed by `nla_nest_end` -/
theorem nest_end {m m1 m2 : NlMsg} {t : ℕ} {a : List UInt8} (h1 : Wrote m m1 (nlaHeader 4 (32768 + t)))
    (h2 : Wrote m1 m2 a) (hne : a ≠ []) (hlen : 4 + a.length ≤ 65535) :
    ∃ m3, nlaNestEnd m2 m.nlmsgLen = (m3, 0) ∧ Wrote m m3 (encLeaves [⟨32768 + t, a⟩]) := by
  obtain ⟨m3, hend, hw⟩ := nest_payload h1 h2 hlen
  refine ⟨m3, ?_, hw⟩
  have hl1 := h1.len
  have hl2 := h2.len
  have hlt := h2.tidy.lt
  have hpos := List.length_pos_iff.2 hne
  rw [nlaHeader_length] at hl1
  rw [nestEnd_eq, hend]
  rw [h2.tidy.tail, NLA_HDRLEN, toU64]
  omega

/-- **A nest with attributes in it**, with room -/
theorem putNest_room (code : ℤ) {t : ℕ} (ht : t < 16384) {ls : List Leaf} (hne : ls ≠ []) (hwf : ∀ l ∈ ls, l.WF)
    (hlen : 4 + (encLeaves ls).length ≤ 65535) {m : NlMsg} (hm : Tidy m) (hroom : Room m (4 + (encLeaves ls).length)) :
    ∃ m', putNest code t ls m = (m', 0) ∧ Wrote m m' (encLeaves [⟨32768 + t, encLeaves ls⟩]) := by
  obtain ⟨m1, hstart, hw1⟩ := nlaNestStart_room hm t (by omega) (room_mono hroom (Nat.le_add_right 4 _))
  have hroom1 : Room m1 (encLeaves ls).length := room_after hw1 (by rw [nlaHeader_length]; exact hroom)
  obtain ⟨m2, hput, hw2⟩ := putAll_room code hwf hw1.tidy hroom1
  obtain ⟨m3, hend, hw3⟩ := nest_end hw1 hw2 (encLeaves_ne_nil hne) hlen
  refine ⟨m3, ?_, hw3⟩
  rw [putNest, hstart, inNest_some, hput, thenPut_ok, hend]

/-! ## Writers -/

/-- a nest with what the body writes in it; what closing it returns is not looked at -/
def putNestOf (code type : ℤ) (body : NlMsg → NlMsg × ℤ) (msg : NlMsg) : NlMsg × ℤ :=
  inNest code (nlaNestStart msg type) fun msg attr => thenPut code (body msg) fun msg => ((nlaNestEnd msg attr).1, 0)

/-- the writer leaves these attributes behind, if there is room for them and for `slack` bytes more -/
def Puts (body : NlMsg → NlMsg × ℤ) (ls : List Leaf) (slack : ℕ) : Prop :=
  ∀ m, Tidy m → Room m ((encLeaves ls).length + slack) → ∃ m', body m = (m', 0) ∧ Wrote m m' (encLeaves ls)

/-- the attributes a nest leaves behind: none if it is empty, as it is dropped then -/
def nestLeaves (t : ℕ) (ls : List Leaf) : List Leaf := if ls = [] then [] else [⟨32768 + t, encLeaves ls⟩]

theorem puts_putAll (code : ℤ) {ls : List Leaf} (hwf : ∀ l ∈ ls, l.WF) (slack : ℕ) : Puts (putAll code ls) ls slack :=
  fun _ hm hroom => putAll_room code hwf hm (room_mono hroom (Nat.le_add_right _ _))

/-- a writer that writes nothing -/
theorem puts_nothing (slack : ℕ) : Puts (fun msg => (msg, 0)) [] slack := fun m hm _ => ⟨m, rfl, Wrote.nil hm⟩

/-- one writer after the other -/
theorem Puts.seq (code : ℤ) {f g : NlMsg → NlMsg × ℤ} {as bs : List Leaf} {slack : ℕ} (hf : Puts f as slack)
    (hg : Puts g bs slack) : Puts (fun msg => thenPut code (f msg) g) (as ++ bs) slack := by
  intro m hm hroom
  rw [encLeaves_append, List.length_append, Nat.add_assoc] at hroom
  obtain ⟨m1, h1, hw1⟩ := hf m hm (room_mono hroom (by omega))
  obtain ⟨m2, h2, hw2⟩ := hg m1 hw1.tidy (room_after hw1 hroom)
  refine ⟨m2, ?_, ?_⟩
  · simp only [h1, thenPut_ok, h2]
  · rw [encLeaves_append]
    exact hw1.append hw2

/-- **A nest that is dropped**: what is in it is gone, and the message is as long as before. -/
theorem nest_dropped {m m1 m2 : NlMsg} {t : ℕ} {a : List UInt8} (hm : Tidy m)
    (h1 : Wrote m m1 (nlaHeader 4 (32768 + t))) (h2 : Wrote m1 m2 a) (hdrop : a = [] ∨ 65535 < 4 + a.length) :
    Wrote m (nlaNestEnd m2 m.nlmsgLen).1 [] := by
  have hl1 := h1.len
  have hl2 := h2.len
  have hlt := h2.tidy.lt
  have hmod := h2.tidy.mod
  have htail := h2.tidy.tail
  rw [nlaHeader_length] at hl1
  have h64 : toU64 ((nlmsgTail m2 : ℤ) - m.nlmsgLen) = 4 + a.length := by
    rw [htail]
    have := toU64_of_nonneg (x := (m2.nlmsgLen : ℤ) - m.nlmsgLen) (by omega) (by omega)
    omega
  have hcond : USHRT_MAX < 4 + a.length ∨ (True ∧ 4 + a.length = NLA_HDRLEN) := by
    rcases hdrop with rfl | hbig
    · exact Or.inr ⟨trivial, rfl⟩
    · exact Or.inl hbig
  have h32 : toU32 ((m2.nlmsgLen : ℤ) - ((m2.nlmsgLen : ℤ) - m.nlmsgLen)) = m.nlmsgLen := by
    have := toU32_of_mem (x := (m2.nlmsgLen : ℤ) - ((m2.nlmsgLen : ℤ) - m.nlmsgLen)) (by omega) (by omega)
    omega
  have hcancel : (nlaNestEnd m2 m.nlmsgLen).1 = nlaNestCancel m2 m.nlmsgLen := by
    simp only [nlaNestEnd, nestEnd, h64]
    rw [if_pos hcond]
  have hclear : nlaNestCancel m2 m.nlmsgLen = { m2 with
      nlmsgLen := m.nlmsgLen
      buf := zero m2.buf m.nlmsgLen (m2.nlmsgLen - m.nlmsgLen : ℤ).toNat } := by
    have htail' : nlmsgTail { m2 with nlmsgLen := m.nlmsgLen } = m.nlmsgLen := hm.tail
    simp only [nlaNestCancel, htail]
    rw [if_neg (by omega), if_pos (by omega), h32, htail']
  rw [hcancel, hclear]
  refine ⟨⟨hm.mod, hm.lt, h2.tidy.size⟩, rfl, h2.size.trans h1.size, seg_nil _ _, ?_⟩
  intro i hi
  simp only [zero]
  rw [write_out (Or.inl hi), h2.below i (by omega), h1.below i hi]

/-- the type that a nest has in its header -/
def nestType (t : ℤ) : ℕ := NLA_F_NESTED ||| toU16 t

omit [HostOrder] in
theorem nestType_of_lt {t : ℕ} (ht : t < 32768) : nestType t = 32768 + t := nested_or ht

/-- the attributes a nest of this type leaves behind -/
def typedNest (type : ℕ) (ls : List Leaf) : List Leaf := if ls = [] then [] else [⟨type, encLeaves ls⟩]

/-- **A nest around what a writer puts**, of whatever type; it is dropped if nothing was written in it. -/
theorem Puts.around (t : ℤ) {body : NlMsg → NlMsg × ℤ} {ls : List Leaf} {slack : ℕ} (hbody : Puts body ls slack)
    (hlen : 4 + (encLeaves ls).length ≤ 65535) {m : NlMsg} (hm : Tidy m)
    (hroom : Room m ((encLeaves (typedNest (nestType t) ls)).length + (slack + 4))) :
    ∃ m1 m2, nlaNestStart m t = (m1, some m.nlmsgLen) ∧ body m1 = (m2, 0) ∧
      Wrote m (nlaNestEnd m2 m.nlmsgLen).1 (encLeaves (typedNest (nestType t) ls)) := by
  obtain ⟨t', ht, htype⟩ := nested_or_any t
  have hle : 4 + ((encLeaves ls).length + slack) ≤ (encLeaves (typedNest (nestType t) ls)).length + (slack + 4) := by
    by_cases hnil : ls = []
    · rw [hnil, encLeaves_nil, List.length_nil]
      omega
    · have hge := le_align4 (4 + (encLeaves ls).length)
      simp only [typedNest, if_neg hnil, encLeaves_cons, encLeaves_nil, List.append_nil, encLeaf_length]
      omega
  obtain ⟨m1, hstart, hw1⟩ := nlaNestStart_room hm t' ht (room_mono hroom (by omega))
  have hsame : nlaNestStart m t = nlaNestStart m t' := by
    simp only [nlaNestStart]
    rw [htype, nested_or ht]
  obtain ⟨m2, hput, hw2⟩ := hbody m1 hw1.tidy (room_after hw1 (room_mono hroom (by rw [nlaHeader_length]; exact hle)))
  refine ⟨m1, m2, hsame.trans hstart, hput, ?_⟩
  have hnest : nestType t = 32768 + t' := htype
  rw [hnest]
  by_cases hnil : ls = []
  · have hempty : encLeaves ls = [] := by rw [hnil, encLeaves_nil]
    rw [typedNest, if_pos hnil, encLeaves_nil]
    exact nest_dropped hm hw1 hw2 (Or.inl hempty)
  · obtain ⟨m3, hend, hw3⟩ := nest_end hw1 hw2 (encLeaves_ne_nil hnil) hlen
    rw [typedNest, if_neg hnil, hend]
    exact hw3

/-- **A nest**, which is dropped if nothing was written in it -/
theorem Puts.nest (code : ℤ) {t : ℕ} (ht : t < 16384) {body : NlMsg → NlMsg × ℤ} {ls : List Leaf} {slack : ℕ}
    (hbody : Puts body ls slack) (hlen : 4 + (encLeaves ls).length ≤ 65535) :
    Puts (putNestOf code t body) (nestLeaves t ls) (slack + 4) := by
  have htype : nestLeaves t ls = typedNest (nestType t) ls := by rw [nestType_of_lt (by omega)]; rfl
  intro m hm hroom
  rw [htype] at hroom ⊢
  obtain ⟨m1, m2, hstart, hput, hw⟩ := hbody.around t hlen hm hroom
  refine ⟨_, ?_, hw⟩
  rw [putNestOf, hstart, inNest_some, hput, thenPut_ok]

/-! ## Writers that pass errors on -/

/-- the next call, unless the one before failed: then that is what the writer returns -/
def thenPass (r : NlMsg × ℤ) (f : NlMsg → NlMsg × ℤ) : NlMsg × ℤ := if r.2 < 0 then r else f r.1

/-- a nest with what the body writes in it, unless that fails -/
def passNest (code type : ℤ) (body : NlMsg → NlMsg × ℤ) (msg : NlMsg) : NlMsg × ℤ :=
  inNest code (nlaNestStart msg type) fun msg attr => thenPass (body msg) fun msg => ((nlaNestEnd msg attr).1, 0)

/-- the writer fails, whatever the message -/
def Refuses (body : NlMsg → NlMsg × ℤ) : Prop := ∀ m, (body m).2 < 0

omit [HostOrder] in
theorem thenPass_ok (msg : NlMsg) (f : NlMsg → NlMsg × ℤ) : thenPass (msg, 0) f = f msg := if_neg (lt_irrefl (0 : ℤ))

omit [HostOrder] in
theorem thenPass_neg {r : NlMsg × ℤ} (h : r.2 < 0) (f : NlMsg → NlMsg × ℤ) : thenPass r f = r := if_pos h

theorem Puts.pass {f g : NlMsg → NlMsg × ℤ} {as bs : List Leaf} {slack : ℕ} (hf : Puts f as slack) (hg : Puts g bs slack) :
    Puts (fun msg => thenPass (f msg) g) (as ++ bs) slack := by
  intro m hm hroom
  rw [encLeaves_append, List.length_append, Nat.add_assoc] at hroom
  obtain ⟨m1, h1, hw1⟩ := hf m hm (room_mono hroom (by omega))
  obtain ⟨m2, h2, hw2⟩ := hg m1 hw1.tidy (room_after hw1 hroom)
  refine ⟨m2, ?_, ?_⟩
  · simp only [h1, thenPass_ok, h2]
  · rw [encLeaves_append]
    exact hw1.append hw2

theorem Puts.passNest (code t : ℤ) {body : NlMsg → NlMsg × ℤ} {ls : List Leaf} {slack : ℕ} (hbody : Puts body ls slack)
    (hlen : 4 + (encLeaves ls).length ≤ 65535) :
    Puts (Writer.passNest code t body) (typedNest (nestType t) ls) (slack + 4) := by
  intro m hm hroom
  obtain ⟨m1, m2, hstart, hput, hw⟩ := hbody.around t hlen hm hroom
  refine ⟨_, ?_, hw⟩
  rw [Writer.passNest, hstart, inNest_some, hput, thenPass_ok]

/-- a nest that is too long is dropped, and nobody looks -/
theorem Puts.passNest_long (code t : ℤ) {body : NlMsg → NlMsg × ℤ} {ls : List Leaf} {slack : ℕ} (hbody : Puts body ls slack)
    (hlong : 65535 < 4 + (encLeaves ls).length) {m : NlMsg} (hm : Tidy m)
    (hroom : Room m (4 + ((encLeaves ls).length + slack))) :
    ∃ m', Writer.passNest code t body m = (m', 0) ∧ Wrote m m' [] := by
  obtain ⟨t', ht, m1, hstart, hw1⟩ := nlaNestStart_any hm t (room_mono hroom (by omega))
  obtain ⟨m2, hput, hw2⟩ := hbody m1 hw1.tidy (room_after hw1 (by rw [nlaHeader_length]; exact hroom))
  refine ⟨_, ?_, nest_dropped hm hw1 hw2 (Or.inr hlong)⟩
  rw [Writer.passNest, hstart, inNest_some, hput, thenPass_ok]

omit [HostOrder] in
/-- what is refused behind something else is refused, -/
theorem Refuses.after {g : NlMsg → NlMsg × ℤ} (hg : Refuses g) (f : NlMsg → NlMsg × ℤ) :
    Refuses fun msg => thenPass (f msg) g := by
  intro m
  by_cases hneg : (f m).2 < 0
  · simp only [thenPass_neg hneg]
    exact hneg
  · simp only [thenPass, if_neg hneg]
    exact hg _

omit [HostOrder] in
/-- in front of something else, -/
theorem Refuses.before {f : NlMsg → NlMsg × ℤ} (hf : Refuses f) (g : NlMsg → NlMsg × ℤ) :
    Refuses fun msg => thenPass (f msg) g := by
  intro m
  simp only [thenPass_neg (hf m)]
  exact hf m

omit [HostOrder] in
theorem inNest_neg {code : ℤ} (hcode : code < 0) (r : NlMsg × Option ℕ) {f : NlMsg → ℕ → NlMsg × ℤ}
    (hf : ∀ m attr, (f m attr).2 < 0) : (inNest code r f).2 < 0 := by
  obtain ⟨m, start⟩ := r
  cases start with
  | none => exact hcode
  | some attr => exact hf m attr

/-- and in a nest -/
theorem Refuses.passNest {code : ℤ} (hcode : code < 0) (t : ℤ) {body : NlMsg → NlMsg × ℤ} (hbody : Refuses body) :
    Refuses (Writer.passNest code t body) :=
  fun _ => inNest_neg hcode _ fun m attr => hbody.before (fun msg => ((nlaNestEnd msg attr).1, 0)) m

end Libnl.Writer
