/-
Writers that reserve room and fill it in.

Some structures are not copied into a message but stored there, member by member, in room that was reserved. What stands
between the members is then whatever was in the memory, so one cannot say which bytes such a writer leaves behind, but only
what holds of them (`PutsSome`).

- `Wrote.stores`: members stored in bytes that were reserved. `nlaReserve_wrote`: an attribute that was reserved.
- `PutsSome`: attributes of a known size with a property. `PutsSome.seq`: one writer after the other.
- `KeepsType`: writers leave the type of the message alone.
- `some_written`: a message that is written so, and read.
-/
import Mathlib.Tactic
import Libnl.Core.Layout
import Libnl.Message.Fields

namespace Libnl.Reserve

open Bytes Layout Msg Attr AttrWalk AttrTree AttrStream Writer Fields

/-! ## Filling in -/

/-- the members of a structure are stored in the message -/
def storeAll (msg : NlMsg) (p : ℕ) (ps : Pieces) : NlMsg := { msg with buf := stores msg.buf p ps }

/-- **Members stored in room that was reserved**, behind `pre` -/
theorem Wrote.stores {m m1 : NlMsg} (pre a : List UInt8) {ps : Pieces} (h : Wrote m m1 (pre ++ a))
    (hlay : laidOut 0 a.length ps) :
    ∃ b, b.length = a.length ∧ Wrote m (storeAll m1 (m.nlmsgLen + pre.length) ps) (pre ++ b) ∧
      ∀ buf p, Seg buf p b → Holds buf p ps := by
  obtain ⟨hpre, -⟩ := seg_append.1 h.seg
  have hlen := h.len
  have hout : ∀ i < m.nlmsgLen + pre.length, (storeAll m1 (m.nlmsgLen + pre.length) ps).buf i = m1.buf i := fun i hi =>
    stores_out hlay (Or.inl (by omega))
  refine ⟨readBytes (storeAll m1 (m.nlmsgLen + pre.length) ps).buf (m.nlmsgLen + pre.length) a.length,
    readBytes_length _ _ _, ⟨⟨h.tidy.mod, h.tidy.lt, h.tidy.size⟩, ?_, h.size, ?_, ?_⟩, ?_⟩
  · rw [List.length_append] at hlen ⊢
    rw [readBytes_length]
    exact hlen
  · refine seg_append.2 ⟨hpre.frame fun i _ hi => hout i hi, ?_⟩
    intro i hi
    simp only [readBytes, List.getElem_map, List.getElem_range]
  · intro i hi
    rw [hout i (by omega), h.below i hi]
  · intro buf p hseg
    exact (stores_holds m1.buf _ hlay).moved hseg hlay

section

variable [HostOrder]

/-- **`nla_reserve` with room**, for a multiple of the alignment -/
theorem nlaReserve_wrote {m : NlMsg} (hm : Tidy m) {t n : ℕ} (ht : t < 65536) (hn : 4 + n ≤ 65535) (hmod : n % 4 = 0)
    (hroom : Room m (4 + n)) :
    ∃ m' a, nlaReserve m t n = (m', some m.nlmsgLen) ∧ a.length = n ∧ Wrote m m' (nlaHeader (4 + n) t ++ a) := by
  have hal : align4 (4 + n) = 4 + n := align4_of_mod (by omega)
  have hsize := hroom.size
  have hint := hroom.int
  have hm4 := hm.mod
  -- there is no padding to clear
  have hnone : ∀ (buf : Mem) (q : ℕ), zero buf q 0 = buf := by
    intro buf q
    funext i
    exact write_out (by simp only [List.replicate_zero, List.length_nil]; omega)
  have hres := nlaReserve_room hm t n ht hn (by rw [hal]; exact hroom)
  rw [hal, Nat.sub_self, hnone, ite_self] at hres
  refine ⟨_, readBytes m.buf (m.nlmsgLen + 4) n, hres, readBytes_length _ _ _, ⟨?_, ?_, hm.size⟩, ?_, rfl, ?_, ?_⟩
  · simp only
    omega
  · simp only
    omega
  · simp only [List.length_append, nlaHeader_length, readBytes_length]
  · refine seg_append.2 ⟨seg_write _ _ _, ?_⟩
    rw [nlaHeader_length]
    intro i hi
    simp only [readBytes, List.getElem_map, List.getElem_range]
    exact write_out (Or.inr (by rw [nlaHeader_length]; omega))
  · intro i hi
    exact write_out (Or.inl hi)

/-! ## What is left behind -/

/-- the writer leaves attributes of this size with the property behind, if there is room for them -/
def PutsSome (body : NlMsg → NlMsg × ℤ) (n : ℕ) (P : List Leaf → Prop) : Prop :=
  ∀ m, Tidy m → Room m n → ∃ m' ls, body m = (m', 0) ∧ P ls ∧ (encLeaves ls).length = n ∧ Wrote m m' (encLeaves ls)

/-- attributes that are copied -/
theorem putsSome_putAll (code : ℤ) {ls : List Leaf} (hwf : ∀ l ∈ ls, l.WF) :
    PutsSome (putAll code ls) (encLeaves ls).length (· = ls) := by
  intro m hm hroom
  obtain ⟨m', hput, hw⟩ := putAll_room code hwf hm hroom
  exact ⟨m', ls, hput, rfl, rfl, hw⟩

/-- **One writer after the other** -/
theorem PutsSome.seq (code : ℤ) {f g : NlMsg → NlMsg × ℤ} {a b : ℕ} {P Q : List Leaf → Prop} (hf : PutsSome f a P)
    (hg : PutsSome g b Q) :
    PutsSome (fun msg => thenPut code (f msg) g) (a + b) fun ls => ∃ xs ys, P xs ∧ Q ys ∧ ls = xs ++ ys := by
  intro m hm hroom
  obtain ⟨m1, xs, h1, hP, hlen1, hw1⟩ := hf m hm (room_mono hroom (Nat.le_add_right _ _))
  rw [← hlen1] at hroom
  obtain ⟨m2, ys, h2, hQ, hlen2, hw2⟩ := hg m1 hw1.tidy (room_after hw1 hroom)
  refine ⟨m2, xs ++ ys, ?_, ⟨xs, ys, hP, hQ, rfl⟩, ?_, ?_⟩
  · simp only [h1, thenPut_ok, h2]
  · rw [encLeaves_append, List.length_append, hlen1, hlen2]
  · rw [encLeaves_append]
    exact hw1.append hw2

/-! ## The type of a message -/

/-- the writer leaves the type of the message alone -/
def KeepsType (body : NlMsg → NlMsg × ℤ) : Prop := ∀ m, (body m).1.nlmsgType = m.nlmsgType

omit [HostOrder] in
theorem nlmsgReserve_type (m : NlMsg) (n : ℕ) (pad : ℤ) : (nlmsgReserve m n pad).1.nlmsgType = m.nlmsgType := by
  unfold nlmsgReserve
  simp only
  split_ifs <;> rfl

omit [HostOrder] in
theorem nlmsgAppend_type (m : NlMsg) (a : List UInt8) (pad : ℤ) : (nlmsgAppend m a pad).1.nlmsgType = m.nlmsgType := by
  have hres := nlmsgReserve_type m a.length pad
  unfold nlmsgAppend
  split
  · rename_i n' heq
    rwa [heq] at hres
  · rename_i n' tmp heq
    rwa [heq] at hres

theorem nlaReserve_type (m : NlMsg) (t n : ℤ) : (nlaReserve m t n).1.nlmsgType = m.nlmsgType := by
  unfold nlaReserve
  simp only
  split_ifs <;> rfl

theorem nlaPut_type (m : NlMsg) (t n : ℤ) (data : List UInt8) : (nlaPut m t n data).1.nlmsgType = m.nlmsgType := by
  have hres := nlaReserve_type m t n
  unfold nlaPut
  split
  · rename_i n' heq
    rwa [heq] at hres
  · rename_i n' nla heq
    rw [heq] at hres
    split_ifs <;> exact hres

theorem nlaNestStart_type (m : NlMsg) (t : ℤ) : (nlaNestStart m t).1.nlmsgType = m.nlmsgType := by
  have htype := nlaPut_type m ((NLA_F_NESTED ||| toU16 t : ℕ) : ℤ) 0 []
  cases hput : nlaPut m ((NLA_F_NESTED ||| toU16 t : ℕ) : ℤ) 0 [] with
  | mk m' err =>
    rw [hput] at htype
    rw [nlaNestStart_of_put hput]
    exact htype

omit [HostOrder] in
theorem nlaNestCancel_type (m : NlMsg) (attr : ℕ) : (nlaNestCancel m attr).nlmsgType = m.nlmsgType := by
  unfold nlaNestCancel
  simp only
  split_ifs <;> rfl

theorem nlaNestEnd_type (m : NlMsg) (attr : ℕ) : (nlaNestEnd m attr).1.nlmsgType = m.nlmsgType := by
  rw [nlaNestEnd, nestEnd]
  simp only
  split
  · rw [nlaNestCancel_type]
  · split
    · split
      · rename_i n' heq
        have hres := nlmsgReserve_type { m with buf := write m.buf attr (u16Bytes (toU64 (nlmsgTail m - attr))) }
          (toU32 (nlmsgAlign m.nlmsgLen - m.nlmsgLen)) 0
        rwa [heq] at hres
      · rename_i n' pos heq
        have hres := nlmsgReserve_type { m with buf := write m.buf attr (u16Bytes (toU64 (nlmsgTail m - attr))) }
          (toU32 (nlmsgAlign m.nlmsgLen - m.nlmsgLen)) 0
        rwa [heq] at hres
    · rfl

omit [HostOrder] in
theorem thenPut_type (code : ℤ) {r : NlMsg × ℤ} {g : NlMsg → NlMsg × ℤ} (hg : KeepsType g) :
    (thenPut code r g).1.nlmsgType = r.1.nlmsgType := by
  by_cases hneg : r.2 < 0
  · rw [thenPut, if_pos hneg]
  · rw [thenPut, if_neg hneg, hg r.1]

theorem keepsType_putAll (code : ℤ) (ls : List Leaf) : KeepsType (putAll code ls) := by
  induction ls with
  | nil => exact fun m => rfl
  | cons l ls ih =>
    intro m
    have hput := nlaPut_type m l.type l.payload.length l.payload
    rw [putAll, thenPut_type code ih, hput]

theorem keepsType_putNestOf (code type : ℤ) {body : NlMsg → NlMsg × ℤ} (h : KeepsType body) :
    KeepsType (putNestOf code type body) := by
  intro m
  have hstart := nlaNestStart_type m type
  cases hnest : nlaNestStart m type with
  | mk m1 attr =>
    rw [hnest] at hstart
    cases attr with
    | none =>
      rw [putNestOf, hnest]
      exact hstart
    | some pos =>
      have hend : KeepsType fun m2 => ((nlaNestEnd m2 pos).1, 0) := fun m2 => nlaNestEnd_type m2 pos
      rw [putNestOf, hnest, inNest_some, thenPut_type code hend, h m1]
      exact hstart

omit [HostOrder] in
/-- one writer after the other -/
theorem KeepsType.seq (code : ℤ) {f g : NlMsg → NlMsg × ℤ} (hf : KeepsType f) (hg : KeepsType g) :
    KeepsType fun msg => thenPut code (f msg) g := fun m => (thenPut_type code hg).trans (hf m)

/-! ## Messages -/

/-- **A message with such attributes**, if there is room: it is written, has the type asked for, and the reader finds the
header and the attributes. -/
theorem some_written (code : ℤ) (maxtype t f : ℕ) {body : NlMsg → NlMsg × ℤ} {P : List Leaf → Prop} {n size : ℕ}
    {hdr : List UInt8} {policy : ℕ → NlaPolicy} (hhdr : hdr.length % 4 = 0) (hputs : PutsSome body n P) (hkeep : KeepsType body)
    (hP : ∀ ls, P ls → ∃ fs, ls = leavesOf fs ∧ Sendable policy fs) (hmany : hdr.length + n ≤ 2147483631)
    (hsize : size ≤ PTRDIFF_MAX) (hroom : 16 + (hdr.length + n) ≤ size) :
    ∃ m0 m tb ls, nlmsgAllocSimple size t f = some m0 ∧ thenPut code (nlmsgAppend m0 hdr 4) body = (m, 0) ∧
      m.nlmsgType = t ∧ P ls ∧ nlmsgParse m hdr.length maxtype (some policy) = (0, tb) ∧ Indexes m.buf maxtype ls tb ∧
      Seg m.buf 16 hdr := by
  obtain ⟨m0, halloc, hfresh, hle, -⟩ := allocSimple_some (t := t) (f := f) hsize
  have hlen0 := hfresh.len
  have htype0 : m0.nlmsgType = t := by
    obtain ⟨m, -, rfl⟩ := Option.map_eq_some_iff.1 halloc
    rfl
  have hroom0 : Room m0 (hdr.length + n) := ⟨by omega, by omega⟩
  obtain ⟨m1, h1, hw1⟩ := nlmsgAppend_aligned (tidy_of_fresh hfresh) hhdr (room_mono hroom0 (Nat.le_add_right _ _))
  obtain ⟨m, ls, hput, hls, -, hw2⟩ := hputs m1 hw1.tidy (room_after hw1 hroom0)
  obtain ⟨fs, rfl, hsend⟩ := hP ls hls
  obtain ⟨tb, hparse, hidx, hseg⟩ := parse_message maxtype hlen0 hhdr hsend.wf (hsend.valid maxtype) (hw1.append hw2)
  have htype1 := nlmsgAppend_type m0 hdr 4
  have htype2 := hkeep m1
  rw [h1] at htype1
  rw [hput] at htype2
  exact ⟨m0, m, tb, _, halloc, by rw [h1, thenPut_ok, hput], htype2.trans (htype1.trans htype0), hls, hparse, hidx, hseg⟩

end

end Libnl.Reserve
