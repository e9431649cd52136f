/-
Machine integers, alignment and byte memory.

Everything the C code computes with fixed-width integers is written over ℕ and ℤ with the conversion spelled out:
`toU16`/`toU32`/`toU64` are the conversions to the unsigned types, `toInt32` is the conversion to `int` (two's complement).
Memory is a total map from offsets to bytes; the code under study says itself how far it may look, and the results say
that it does not look further. 16- and 32-bit fields are stored in host byte order: the order is a parameter
(`HostOrder`), so nothing depends on it.

- `Seg m p bs`: the bytes `bs` stand in `m` from offset `p` on. `seg_append` splits a segment, `Seg.frame` carries it
  over a change elsewhere, `seg_write` is what a store leaves behind.
- `align4`: round up to a multiple of four.
-/
import Mathlib.Tactic

namespace Libnl.Bytes

/-! ## Fixed-width integers -/

/-- conversion to a 16-bit unsigned integer -/
def toU16 (x : ℤ) : ℕ := (x % 65536).toNat

/-- conversion to a 32-bit unsigned integer -/
def toU32 (x : ℤ) : ℕ := (x % 4294967296).toNat

/-- conversion to a 64-bit unsigned integer -/
def toU64 (x : ℤ) : ℕ := (x % 18446744073709551616).toNat

/-- conversion to a 32-bit signed integer -/
def toInt32 (x : ℤ) : ℤ := if x % 4294967296 < 2147483648 then x % 4294967296 else x % 4294967296 - 4294967296

theorem toInt32_of_mem {x : ℤ} (h0 : -2147483648 ≤ x) (h1 : x < 2147483648) : toInt32 x = x := by
  unfold toInt32; split_ifs <;> omega

theorem toU16_natCast {n : ℕ} (h : n < 65536) : toU16 n = n := by
  unfold toU16; omega

theorem toU32_of_mem {x : ℤ} (h0 : 0 ≤ x) (h1 : x < 4294967296) : (toU32 x : ℤ) = x := by
  unfold toU32; omega

/-- a negative number is a huge one after conversion to `size_t` -/
theorem toU64_of_neg {x : ℤ} (h0 : -2147483648 ≤ x) (h1 : x < 0) : 9223372036854775808 ≤ toU64 x := by
  unfold toU64; omega

theorem toU64_of_nonneg {x : ℤ} (h0 : 0 ≤ x) (h1 : x < 18446744073709551616) : (toU64 x : ℤ) = x := by
  unfold toU64; omega

/-! ## Alignment -/

/-- round up to a multiple of four -/
def align4 (n : ℕ) : ℕ := (n + 3) / 4 * 4

theorem le_align4 (n : ℕ) : n ≤ align4 n := by unfold align4; omega

theorem align4_lt (n : ℕ) : align4 n < n + 4 := by unfold align4; omega

theorem align4_mod (n : ℕ) : align4 n % 4 = 0 := by unfold align4; omega

theorem align4_of_mod {n : ℕ} (h : n % 4 = 0) : align4 n = n := by unfold align4; omega

/-! ## Byte memory -/

/-- byte order of the host -/
class HostOrder where
  big : Bool

abbrev Mem := ℕ → UInt8

/-- store `bs` at offset `p` -/
def write (m : Mem) (p : ℕ) (bs : List UInt8) : Mem :=
  fun i => if p ≤ i then (bs[i - p]?).getD (m i) else m i

/-- `memset(p, 0, n)` -/
def zero (m : Mem) (p n : ℕ) : Mem := write m p (List.replicate n 0)

/-- the `n` bytes at offset `p` -/
def readBytes (m : Mem) (p n : ℕ) : List UInt8 := (List.range n).map fun i => m (p + i)

/-- bytes of a 16-bit field -/
def u16Bytes [o : HostOrder] (v : ℕ) : List UInt8 :=
  let lo := UInt8.ofNat v
  let hi := UInt8.ofNat (v / 256)
  if o.big then [hi, lo] else [lo, hi]

/-- bytes of a 32-bit field -/
def u32Bytes [o : HostOrder] (v : ℕ) : List UInt8 :=
  if o.big then u16Bytes (v / 65536) ++ u16Bytes v else u16Bytes v ++ u16Bytes (v / 65536)

/-- read a 16-bit field -/
def getU16 [o : HostOrder] (m : Mem) (p : ℕ) : ℕ :=
  if o.big then (m p).toNat * 256 + (m (p + 1)).toNat else (m p).toNat + (m (p + 1)).toNat * 256

/-- read a 32-bit field -/
def getU32 [o : HostOrder] (m : Mem) (p : ℕ) : ℕ :=
  if o.big then ((m p).toNat * 256 + (m (p + 1)).toNat) * 65536 + ((m (p + 2)).toNat * 256 + (m (p + 3)).toNat)
  else (m p).toNat + (m (p + 1)).toNat * 256 + ((m (p + 2)).toNat + (m (p + 3)).toNat * 256) * 65536

theorem getU16_lt [HostOrder] (m : Mem) (p : ℕ) : getU16 m p < 65536 := by
  have h0 := (m p).toNat_lt
  have h1 := (m (p + 1)).toNat_lt
  unfold getU16; split_ifs <;> omega

@[simp] theorem u16Bytes_length [HostOrder] (v : ℕ) : (u16Bytes v).length = 2 := by
  unfold u16Bytes; split_ifs <;> rfl

@[simp] theorem u32Bytes_length [HostOrder] (v : ℕ) : (u32Bytes v).length = 4 := by
  unfold u32Bytes; split_ifs <;> simp

@[simp] theorem readBytes_length (m : Mem) (p n : ℕ) : (readBytes m p n).length = n := by simp [readBytes]

/-! ## Segments -/

/-- the bytes `bs` stand in memory from offset `p` on -/
def Seg (m : Mem) (p : ℕ) (bs : List UInt8) : Prop := ∀ i (h : i < bs.length), m (p + i) = bs[i]

theorem seg_nil (m : Mem) (p : ℕ) : Seg m p [] := by intro i h; simp at h

theorem seg_append {m : Mem} {p : ℕ} {as bs : List UInt8} :
    Seg m p (as ++ bs) ↔ Seg m p as ∧ Seg m (p + as.length) bs := by
  constructor
  · intro h
    refine ⟨fun i hi => ?_, fun i hi => ?_⟩
    · rw [h i (by simp; omega), List.getElem_append_left hi]
    · have h2 := h (as.length + i) (by simp; omega)
      rw [← add_assoc] at h2
      rw [h2, List.getElem_append_right (by omega)]
      simp
  · rintro ⟨ha, hb⟩ i hi
    by_cases hl : i < as.length
    · rw [ha i hl, List.getElem_append_left hl]
    · have h2 := hb (i - as.length) (by simp at hi; omega)
      rw [List.getElem_append_right (by omega), ← h2]
      congr 1; omega

/-- a segment survives any change outside it -/
theorem Seg.frame {m m' : Mem} {p : ℕ} {bs : List UInt8} (h : Seg m p bs)
    (hout : ∀ i, p ≤ i → i < p + bs.length → m' i = m i) : Seg m' p bs := by
  intro i hi
  rw [hout (p + i) (by omega) (by omega)]
  exact h i hi

theorem write_out {m : Mem} {p i : ℕ} {bs : List UInt8} (h : i < p ∨ p + bs.length ≤ i) : write m p bs i = m i := by
  unfold write
  split_ifs with hp
  · rw [List.getElem?_eq_none (by omega)]; rfl
  · rfl

theorem seg_write (m : Mem) (p : ℕ) (bs : List UInt8) : Seg (write m p bs) p bs := by
  intro i hi
  simp [write, hi]

theorem Seg.readBytes {m : Mem} {p : ℕ} {bs : List UInt8} (h : Seg m p bs) : readBytes m p bs.length = bs := by
  apply List.ext_getElem
  · simp
  · intro i h1 h2
    simp only [Bytes.readBytes, List.getElem_map, List.getElem_range]
    exact h i h2

theorem Seg.getU16 [o : HostOrder] {m : Mem} {p v : ℕ} (h : Seg m p (u16Bytes v)) : getU16 m p = v % 65536 := by
  have h0 := h 0 (by simp)
  have h1 := h 1 (by simp)
  unfold u16Bytes at h0 h1
  unfold Bytes.getU16
  cases ho : o.big <;> simp only [ho, Bool.false_eq_true, ite_false, ite_true, List.getElem_cons_zero, add_zero,
    List.getElem_cons_succ] at h0 h1 ⊢
  · rw [h0, h1]; simp only [UInt8.toNat_ofNat']; omega
  · rw [h0, h1]; simp only [UInt8.toNat_ofNat']; omega

/-- a 16-bit field that is read and stored again -/
theorem u16Bytes_getU16 [o : HostOrder] (m : Mem) (p : ℕ) : u16Bytes (Bytes.getU16 m p) = [m p, m (p + 1)] := by
  have h0 := (m p).toNat_lt
  have h1 := (m (p + 1)).toNat_lt
  unfold u16Bytes Bytes.getU16
  by_cases ho : o.big = true
  · rw [if_pos ho, if_pos ho]
    rw [List.cons_eq_cons]
    refine ⟨UInt8.toNat_inj.1 ?_, congrArg (· :: []) (UInt8.toNat_inj.1 ?_)⟩
    · rw [UInt8.toNat_ofNat']
      omega
    · rw [UInt8.toNat_ofNat']
      omega
  · rw [if_neg ho, if_neg ho]
    rw [List.cons_eq_cons]
    refine ⟨UInt8.toNat_inj.1 ?_, congrArg (· :: []) (UInt8.toNat_inj.1 ?_)⟩
    · rw [UInt8.toNat_ofNat']
      omega
    · rw [UInt8.toNat_ofNat']
      omega

/-- a 32-bit field is two 16-bit ones -/
theorem getU32_eq [o : HostOrder] (m : Mem) (p : ℕ) : Bytes.getU32 m p =
    if o.big then Bytes.getU16 m p * 65536 + Bytes.getU16 m (p + 2)
    else Bytes.getU16 m p + Bytes.getU16 m (p + 2) * 65536 := by
  unfold Bytes.getU32 Bytes.getU16
  by_cases ho : o.big = true
  · rw [if_pos ho, if_pos ho, if_pos ho, if_pos ho, add_assoc p 2 1]
  · rw [if_neg ho, if_neg ho, if_neg ho, if_neg ho, add_assoc p 2 1]

theorem Seg.getU32 [o : HostOrder] {m : Mem} {p v : ℕ} (h : Seg m p (u32Bytes v)) :
    getU32 m p = v % 4294967296 := by
  unfold u32Bytes at h
  rw [getU32_eq]
  by_cases ho : o.big = true
  · rw [if_pos ho] at h ⊢
    obtain ⟨h1, h2⟩ := seg_append.1 h
    rw [u16Bytes_length] at h2
    rw [h1.getU16, h2.getU16]
    omega
  · rw [if_neg ho] at h ⊢
    obtain ⟨h1, h2⟩ := seg_append.1 h
    rw [u16Bytes_length] at h2
    rw [h1.getU16, h2.getU16]
    omega

/-! ## 64-bit fields -/

/-- bytes of a 64-bit field -/
def u64Bytes [o : HostOrder] (v : ℕ) : List UInt8 :=
  if o.big then u32Bytes (v / 4294967296) ++ u32Bytes v else u32Bytes v ++ u32Bytes (v / 4294967296)

/-- read a 64-bit field -/
def getU64 [o : HostOrder] (m : Mem) (p : ℕ) : ℕ :=
  if o.big then getU32 m p * 4294967296 + getU32 m (p + 4) else getU32 m p + getU32 m (p + 4) * 4294967296

@[simp] theorem u64Bytes_length [HostOrder] (v : ℕ) : (u64Bytes v).length = 8 := by
  unfold u64Bytes
  split <;> simp

theorem Seg.getU64 [o : HostOrder] {m : Mem} {p v : ℕ} (h : Seg m p (u64Bytes v)) :
    getU64 m p = v % 18446744073709551616 := by
  unfold u64Bytes at h
  unfold Bytes.getU64
  by_cases ho : o.big = true
  · rw [if_pos ho] at h ⊢
    obtain ⟨h1, h2⟩ := seg_append.1 h
    rw [u32Bytes_length] at h2
    rw [h1.getU32, h2.getU32]
    omega
  · rw [if_neg ho] at h ⊢
    obtain ⟨h1, h2⟩ := seg_append.1 h
    rw [u32Bytes_length] at h2
    rw [h1.getU32, h2.getU32]
    omega

/-! ## Fields in network byte order -/

def be16Bytes (v : BitVec 16) : List UInt8 := [UInt8.ofBitVec (v.extractLsb' 8 8), UInt8.ofBitVec (v.extractLsb' 0 8)]

def be32Bytes (v : BitVec 32) : List UInt8 := be16Bytes (v.extractLsb' 16 16) ++ be16Bytes (v.extractLsb' 0 16)

def be64Bytes (v : BitVec 64) : List UInt8 := be32Bytes (v.extractLsb' 32 32) ++ be32Bytes (v.extractLsb' 0 32)

def getBe16 (m : Mem) (p : ℕ) : BitVec 16 := (m p).toBitVec ++ (m (p + 1)).toBitVec

def getBe32 (m : Mem) (p : ℕ) : BitVec 32 := getBe16 m p ++ getBe16 m (p + 2)

def getBe64 (m : Mem) (p : ℕ) : BitVec 64 := getBe32 m p ++ getBe32 m (p + 4)

@[simp] theorem be16Bytes_length (v : BitVec 16) : (be16Bytes v).length = 2 := rfl

@[simp] theorem be32Bytes_length (v : BitVec 32) : (be32Bytes v).length = 4 := rfl

@[simp] theorem be64Bytes_length (v : BitVec 64) : (be64Bytes v).length = 8 := rfl

theorem Seg.getBe16 {m : Mem} {p : ℕ} {v : BitVec 16} (h : Seg m p (be16Bytes v)) : getBe16 m p = v := by
  have h0 := h 0 (by simp)
  have h1 := h 1 (by simp)
  simp only [be16Bytes, add_zero, List.getElem_cons_zero, List.getElem_cons_succ] at h0 h1
  rw [Bytes.getBe16, h0, h1]
  exact BitVec.extractLsb'_append_extractLsb'

theorem Seg.getBe32 {m : Mem} {p : ℕ} {v : BitVec 32} (h : Seg m p (be32Bytes v)) : getBe32 m p = v := by
  obtain ⟨h1, h2⟩ := seg_append.1 h
  rw [be16Bytes_length] at h2
  rw [Bytes.getBe32, h1.getBe16, h2.getBe16]
  exact BitVec.extractLsb'_append_extractLsb'

theorem Seg.getBe64 {m : Mem} {p : ℕ} {v : BitVec 64} (h : Seg m p (be64Bytes v)) : getBe64 m p = v := by
  obtain ⟨h1, h2⟩ := seg_append.1 h
  rw [be32Bytes_length] at h2
  rw [Bytes.getBe64, h1.getBe32, h2.getBe32]
  exact BitVec.extractLsb'_append_extractLsb'

/-- bytes on their own -/
def memOf (bs : List UInt8) : Mem := fun i => bs.getD i 0

theorem seg_memOf (bs : List UInt8) : Seg (memOf bs) 0 bs := by
  intro i hi
  simp [memOf, hi]

end Libnl.Bytes
