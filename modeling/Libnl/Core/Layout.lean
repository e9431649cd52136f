/-
Structures in memory.

A structure of C is a number of members, each at an offset of its own. Members are stored one by one; what stands between
them stays as it was. The pieces of a structure are its members with their offsets, in ascending order.

- `stores`: the members are stored. `stores_holds`: each stands where it belongs, if no two overlap (`laidOut`).
- `Holds`: the members stand there. `Holds.moved`: also in a copy of the memory.
- `shift`: the members of a structure within another.
- `u8At`, …, `u64At`: members that are numbers.
-/
import Mathlib.Tactic
import Libnl.Core.Bytes

namespace Libnl.Layout

open Bytes

/-- members of a structure: offsets and bytes -/
abbrev Pieces := List (ℕ × List UInt8)

/-- the members are stored, in a structure at `p` -/
def stores (m : Mem) (p : ℕ) : Pieces → Mem
  | [] => m
  | (off, bs) :: ps => stores (write m (p + off) bs) p ps

/-- the members stand in the structure at `p` -/
def Holds (m : Mem) (p : ℕ) : Pieces → Prop
  | [] => True
  | (off, bs) :: ps => Seg m (p + off) bs ∧ Holds m p ps

/-- the members follow each other between `lo` and `hi` -/
def laidOut (lo hi : ℕ) : Pieces → Prop
  | [] => lo ≤ hi
  | (off, bs) :: ps => lo ≤ off ∧ laidOut (off + bs.length) hi ps

/-- a structure of `n` bytes that was cleared before its members were stored -/
def image (n : ℕ) (ps : Pieces) : List UInt8 := readBytes (stores (fun _ => 0) 0 ps) 0 n

/-- the members of a structure at an offset in another -/
def shift (off : ℕ) (ps : Pieces) : Pieces := ps.map fun q => (off + q.1, q.2)

theorem image_length (n : ℕ) (ps : Pieces) : (image n ps).length = n := readBytes_length _ _ _

theorem laidOut_le {lo hi : ℕ} {ps : Pieces} (h : laidOut lo hi ps) : lo ≤ hi := by
  induction ps generalizing lo with
  | nil => exact h
  | cons q ps ih =>
    have hrest := ih h.2
    have hlo := h.1
    omega

/-- nothing else is touched -/
theorem stores_out {m : Mem} {p lo hi : ℕ} {ps : Pieces} (h : laidOut lo hi ps) {i : ℕ} (hi' : i < p + lo ∨ p + hi ≤ i) :
    stores m p ps i = m i := by
  induction ps generalizing m lo with
  | nil => rfl
  | cons q ps ih =>
    obtain ⟨off, bs⟩ := q
    obtain ⟨hlo, hrest⟩ := h
    have hle := laidOut_le hrest
    have hout : i < p + off ∨ p + off + bs.length ≤ i := by omega
    rw [stores, ih hrest (by omega), write_out hout]

/-- **Members that were stored** -/
theorem stores_holds (m : Mem) (p : ℕ) {lo hi : ℕ} {ps : Pieces} (h : laidOut lo hi ps) : Holds (stores m p ps) p ps := by
  induction ps generalizing m lo with
  | nil => trivial
  | cons q ps ih =>
    obtain ⟨off, bs⟩ := q
    refine ⟨?_, ih _ h.2⟩
    -- the members behind leave this one alone
    exact (seg_write m (p + off) bs).frame fun i _ hlt => stores_out h.2 (Or.inl (by omega))

/-- a segment of a copy -/
theorem seg_moved {m m' : Mem} {p p' n off : ℕ} {bs : List UInt8} (hcopy : Seg m' p' (readBytes m p n))
    (hfit : off + bs.length ≤ n) (h : Seg m (p + off) bs) : Seg m' (p' + off) bs := by
  intro i hi
  have hlen : off + i < (readBytes m p n).length := by
    rw [readBytes_length]
    omega
  have hbyte := hcopy (off + i) hlen
  rw [← add_assoc] at hbyte
  rw [hbyte, ← h i hi]
  simp only [readBytes, List.getElem_map, List.getElem_range, add_assoc]

/-- **Members in a copy** -/
theorem Holds.moved {m m' : Mem} {p p' n lo : ℕ} {ps : Pieces} (hcopy : Seg m' p' (readBytes m p n)) (hlay : laidOut lo n ps)
    (h : Holds m p ps) : Holds m' p' ps := by
  induction ps generalizing lo with
  | nil => trivial
  | cons q ps ih =>
    obtain ⟨off, bs⟩ := q
    exact ⟨seg_moved hcopy (laidOut_le hlay.2) h.1, ih hlay.2 h.2⟩

/-- a structure that was cleared, stored and copied -/
theorem holds_image {m : Mem} {p n : ℕ} {ps : Pieces} (hlay : laidOut 0 n ps) (h : Seg m p (image n ps)) : Holds m p ps :=
  (stores_holds (fun _ => 0) 0 hlay).moved h hlay

theorem holds_append {m : Mem} {p : ℕ} {ps qs : Pieces} : Holds m p (ps ++ qs) ↔ Holds m p ps ∧ Holds m p qs := by
  induction ps with
  | nil => exact (iff_of_eq (true_and _)).symm
  | cons q ps ih => exact (and_congr_right fun _ => ih).trans and_assoc.symm

theorem holds_shift {m : Mem} {p off : ℕ} {ps : Pieces} : Holds m p (shift off ps) ↔ Holds m (p + off) ps := by
  induction ps with
  | nil => exact Iff.rfl
  | cons q ps ih =>
    show (Seg m (p + (off + q.1)) q.2 ∧ _) ↔ (Seg m (p + off + q.1) q.2 ∧ _)
    rw [add_assoc]
    exact and_congr_right fun _ => ih

/-- one structure behind the other -/
theorem laidOut_append {lo mid hi : ℕ} {ps qs : Pieces} (h1 : laidOut lo mid ps) (h2 : laidOut mid hi qs) :
    laidOut lo hi (ps ++ qs) := by
  induction ps generalizing lo with
  | nil =>
    have hle : lo ≤ mid := h1
    cases qs with
    | nil => exact hle.trans h2
    | cons q qs => exact ⟨hle.trans h2.1, h2.2⟩
  | cons q ps ih => exact ⟨h1.1, ih h1.2⟩

theorem laidOut_shift {lo hi off : ℕ} {ps : Pieces} (h : laidOut lo hi ps) : laidOut (off + lo) (off + hi) (shift off ps) := by
  induction ps generalizing lo with
  | nil => exact Nat.add_le_add_left h off
  | cons q ps ih =>
    have hrest := ih h.2
    rw [← add_assoc] at hrest
    exact ⟨Nat.add_le_add_left h.1 off, hrest⟩

/-! ## Numbers -/

section

variable [HostOrder]

def u8At (m : Mem) (p : ℕ) : BitVec 8 := (m p).toBitVec

def u16At (m : Mem) (p : ℕ) : BitVec 16 := BitVec.ofNat 16 (getU16 m p)

def u32At (m : Mem) (p : ℕ) : BitVec 32 := BitVec.ofNat 32 (getU32 m p)

def u64At (m : Mem) (p : ℕ) : BitVec 64 := BitVec.ofNat 64 (getU64 m p)

omit [HostOrder] in
theorem seg_u8At {m : Mem} {p : ℕ} {v : BitVec 8} (h : Seg m p [UInt8.ofBitVec v]) : u8At m p = v := by
  have h0 := h 0 (by simp)
  simp only [add_zero, List.getElem_cons_zero] at h0
  rw [u8At, h0]

theorem seg_u16At {m : Mem} {p : ℕ} {v : BitVec 16} (h : Seg m p (u16Bytes v.toNat)) : u16At m p = v := by
  rw [u16At, h.getU16, Nat.mod_eq_of_lt v.isLt, BitVec.ofNat_toNat, BitVec.setWidth_eq]

theorem seg_u32At {m : Mem} {p : ℕ} {v : BitVec 32} (h : Seg m p (u32Bytes v.toNat)) : u32At m p = v := by
  rw [u32At, h.getU32, Nat.mod_eq_of_lt v.isLt, BitVec.ofNat_toNat, BitVec.setWidth_eq]

theorem seg_u64At {m : Mem} {p : ℕ} {v : BitVec 64} (h : Seg m p (u64Bytes v.toNat)) : u64At m p = v := by
  rw [u64At, h.getU64, Nat.mod_eq_of_lt v.isLt, BitVec.ofNat_toNat, BitVec.setWidth_eq]

end

end Libnl.Layout
