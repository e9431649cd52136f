/-
MPLS label stacks as text (`lib/mpls.c`).

A stack is a sequence of words in network order. A word has a label of 20 bits and a bit that says whether it is the bottom
of the stack; `mpls_ntop` stops there, and `mpls_pton` sets the bit where the text ends. In the text, labels are separated
by slashes.

- `ntop_stack`, `pton_stack`: what the two functions make of a stack, and of its text.
- `mpls_text_round_trip`: a stack is read back from its text.
-/
import Mathlib.Tactic
import Libnl.Core.Bytes
import Libnl.Core.Numeral

namespace Libnl.Mpls

open Bytes Numeral

def AF_MPLS : ℤ := 28
def E2BIG : ℤ := 7
def EINVAL : ℤ := 22

def MPLS_LS_LABEL_MASK : BitVec 32 := 0xFFFFF000
def MPLS_LS_LABEL_SHIFT : ℕ := 12
def MPLS_LS_S_MASK : BitVec 32 := 0x00000100
def MPLS_LS_S_SHIFT : ℕ := 8

/-! ## The two functions -/

/-- `mpls_ntop1`, with the string without its terminator, or `errno`. There is always room for the slash: a number fits only
if its terminator does. -/
def mplsNtop1 (buf : Mem) (addr destlen : ℕ) : Except ℤ (List Char) :=
  let entry := getBe32 buf addr
  let label := (entry &&& MPLS_LS_LABEL_MASK) >>> MPLS_LS_LABEL_SHIFT
  let text := Nat.toDigits 10 label.toNat
  if _h : destlen ≤ text.length then .error E2BIG
  else if entry &&& MPLS_LS_S_MASK ≠ 0 then .ok text
  else (mplsNtop1 buf (addr + 4) (destlen - text.length - 1)).map fun rest => text ++ '/' :: rest
termination_by destlen
decreasing_by omega

def mplsNtop (af : ℤ) (buf : Mem) (addr buflen : ℕ) : Except ℤ (List Char) :=
  if af = AF_MPLS then mplsNtop1 buf addr buflen else .error EINVAL

/-- the loop of `mpls_pton1`, with `left` labels left: what is returned, and the bytes that are written. Nothing is read
where the rest of the string is all of it. -/
def mplsPton1 : ℕ → ℕ → List Char → ℤ × List UInt8
  | 0, _, _ => (0, [])
  | left + 1, count, name =>
    let r := strtoul name
    if 2 ^ 20 ≤ r.1 then (0, [])
    else if r.2 = name then (0, [])
    else
      let entry := BitVec.ofNat 32 r.1 <<< MPLS_LS_LABEL_SHIFT
      match r.2 with
      | [] => ((count + 1) * 4, be32Bytes (entry ||| 1#32 <<< MPLS_LS_S_SHIFT))
      | c :: name =>
        if c ≠ '/' then (0, be32Bytes entry)
        else
          let t := mplsPton1 left (count + 1) name
          (t.1, be32Bytes entry ++ t.2)

/-- `mpls_pton`; the number of labels is an `unsigned int` -/
def mplsPton (af : ℤ) (src : List Char) (alen : ℕ) : ℤ × List UInt8 :=
  if af = AF_MPLS then mplsPton1 (alen / 4 % 2 ^ 32) 0 src else (-1, [])

/-! ## Stacks -/

abbrev Label := BitVec 20

/-- the word of a label, at the bottom of the stack or above it -/
def labelEntry (label : Label) (bottom : Bool) : BitVec 32 :=
  label.setWidth 32 <<< 12 ||| if bottom then 0x100 else 0

/-- a stack of labels in network order -/
def stackBytes : List Label → List UInt8
  | [] => []
  | [l] => be32Bytes (labelEntry l true)
  | l :: ls => be32Bytes (labelEntry l false) ++ stackBytes ls

/-- the labels in decimal, with slashes in between -/
def stackText : List Label → List Char
  | [] => []
  | [l] => Nat.toDigits 10 l.toNat
  | l :: ls => Nat.toDigits 10 l.toNat ++ '/' :: stackText ls

section

variable (l : Label) (b : Bool)

theorem labelEntry_label : (labelEntry l b &&& MPLS_LS_LABEL_MASK) >>> MPLS_LS_LABEL_SHIFT = l.setWidth 32 := by
  have hmask : ∀ i : Fin 32, MPLS_LS_LABEL_MASK.getLsbD (12 + i) = decide (i.val < 20) := by decide
  have hbottom : ∀ (b : Bool) (i : Fin 32), (if b then (0x100 : BitVec 32) else 0).getLsbD (12 + i) = false := by decide
  refine BitVec.eq_of_getLsbD_eq fun i hi => ?_
  rw [MPLS_LS_LABEL_SHIFT, BitVec.getLsbD_ushiftRight, BitVec.getLsbD_and, labelEntry, BitVec.getLsbD_or, hmask ⟨i, hi⟩,
    hbottom b ⟨i, hi⟩, Bool.or_false, BitVec.getLsbD_shiftLeft, BitVec.getLsbD_setWidth, BitVec.getLsbD_setWidth]
  by_cases hlt : i < 20
  · have hin : 12 + i < 32 := by omega
    have hsub : 12 + i - 12 = i := by omega
    simp [hlt, hin, hsub, hi]
  · rw [BitVec.getLsbD_of_ge l i (Nat.le_of_not_lt hlt), decide_eq_false hlt, Bool.and_false, Bool.and_false]

theorem labelEntry_bottom : labelEntry l b &&& MPLS_LS_S_MASK ≠ 0 ↔ b = true := by
  have hlabel : l.setWidth 32 <<< 12 &&& MPLS_LS_S_MASK = 0#32 := by
    have hmask : ∀ i : Fin 32, 12 ≤ i.val → MPLS_LS_S_MASK.getLsbD i = false := by decide
    refine BitVec.eq_of_getLsbD_eq fun i hi => ?_
    rw [BitVec.getLsbD_and, BitVec.getLsbD_shiftLeft]
    by_cases hlt : i < 12
    · simp [hlt]
    · rw [hmask ⟨i, hi⟩ (Nat.le_of_not_lt hlt), Bool.and_false, BitVec.getLsbD_zero]
  rw [labelEntry, BitVec.and_or_distrib_right, hlabel, BitVec.zero_or]
  cases b with
  | false => decide
  | true => decide

theorem label_length : (Nat.toDigits 10 l.toNat).length ≤ 7 := by
  rw [Nat.length_toDigits_le_iff (by decide) (by decide)]
  exact lt_trans l.isLt (by decide)

end

theorem stackText_length (ls : List Label) : (stackText ls).length ≤ 8 * ls.length := by
  induction ls with
  | nil => exact Nat.zero_le _
  | cons l ls ih =>
    have hone := label_length l
    cases ls with
    | nil =>
      show (Nat.toDigits 10 l.toNat).length ≤ 8
      omega
    | cons l' ls =>
      show (Nat.toDigits 10 l.toNat ++ '/' :: stackText (l' :: ls)).length ≤ _
      rw [List.length_append, List.length_cons, List.length_cons (a := l)]
      omega

/-- **`mpls_ntop`** writes the text of a stack. -/
theorem ntop_stack {buf : Mem} {ls : List Label} (hne : ls ≠ []) {addr destlen : ℕ} (hseg : Seg buf addr (stackBytes ls))
    (hroom : (stackText ls).length < destlen) : mplsNtop1 buf addr destlen = .ok (stackText ls) := by
  induction ls generalizing addr destlen with
  | nil => exact absurd rfl hne
  | cons l ls ih =>
    cases ls with
    | nil =>
      have hentry : getBe32 buf addr = labelEntry l true := hseg.getBe32
      have hlabel : (l.setWidth 32).toNat = l.toNat := BitVec.toNat_setWidth_of_le (by decide)
      have hlen : ¬ destlen ≤ (Nat.toDigits 10 l.toNat).length := Nat.not_le.2 hroom
      rw [mplsNtop1]
      simp only [hentry, labelEntry_label, hlabel]
      rw [dif_neg hlen, if_pos ((labelEntry_bottom l true).2 rfl)]
      rfl
    | cons l' ls =>
      have hsplit : stackText (l :: l' :: ls) = Nat.toDigits 10 l.toNat ++ '/' :: stackText (l' :: ls) := rfl
      obtain ⟨hfirst, hrest⟩ := seg_append.1 (show Seg buf addr (be32Bytes (labelEntry l false) ++ stackBytes (l' :: ls)) from hseg)
      rw [be32Bytes_length] at hrest
      have hentry : getBe32 buf addr = labelEntry l false := hfirst.getBe32
      have hlabel : (l.setWidth 32).toNat = l.toNat := BitVec.toNat_setWidth_of_le (by decide)
      rw [hsplit, List.length_append, List.length_cons] at hroom
      have hlen : ¬ destlen ≤ (Nat.toDigits 10 l.toNat).length := by omega
      have hnot : ¬ labelEntry l false &&& MPLS_LS_S_MASK ≠ 0 := fun h => Bool.false_ne_true ((labelEntry_bottom l false).1 h)
      rw [mplsNtop1]
      simp only [hentry, labelEntry_label, hlabel]
      rw [dif_neg hlen, if_neg hnot, ih (List.cons_ne_nil _ _) hrest (by omega)]
      rfl

/-- a label is read from the front of a text -/
theorem strtoul_label (l : Label) {r : List Char} (hr : Stops r) : strtoul (Nat.toDigits 10 l.toNat ++ r) = (l.toNat, r) := by
  have hlt := l.isLt
  refine strtoul_toDigits ?_ hr
  rw [ULONG_MAX]
  omega

theorem pton_entry (l : Label) (b : Bool) : BitVec.ofNat 32 l.toNat <<< MPLS_LS_LABEL_SHIFT |||
    (if b then 1#32 <<< MPLS_LS_S_SHIFT else 0#32) = labelEntry l b := by
  have hlabel : BitVec.ofNat 32 l.toNat = l.setWidth 32 := BitVec.ofNat_toNat ..
  rw [hlabel]
  rfl

/-- **`mpls_pton`** makes a stack of its text. -/
theorem pton_stack {ls : List Label} (hne : ls ≠ []) {left : ℕ} (hleft : ls.length ≤ left) (count : ℕ) :
    mplsPton1 left count (stackText ls) = ((count + ls.length : ℤ) * 4, stackBytes ls) := by
  induction ls generalizing left count with
  | nil => exact absurd rfl hne
  | cons l ls ih =>
    obtain ⟨left, rfl⟩ := Nat.exists_eq_succ_of_ne_zero (Nat.pos_iff_ne_zero.1 (Nat.lt_of_lt_of_le (Nat.succ_pos _) hleft))
    have hlt : ¬ 2 ^ 20 ≤ l.toNat := Nat.not_le.2 l.isLt
    have hdigits : Nat.toDigits 10 l.toNat ≠ [] := Nat.toDigits_ne_nil
    cases ls with
    | nil =>
      have hread : strtoul (stackText [l]) = (l.toNat, []) := by
        have h := strtoul_label l (r := []) nofun
        rwa [List.append_nil] at h
      have hmoved : ¬ [] = stackText [l] := fun h => hdigits h.symm
      rw [mplsPton1]
      simp only [hread]
      rw [if_neg hlt, if_neg hmoved]
      exact Prod.ext rfl (congrArg be32Bytes (pton_entry l true))
    | cons l' ls =>
      have hread : strtoul (stackText (l :: l' :: ls)) = (l.toNat, '/' :: stackText (l' :: ls)) :=
        strtoul_label l fun c hc => by cases hc; decide
      have hmoved : ¬ '/' :: stackText (l' :: ls) = stackText (l :: l' :: ls) := by
        intro h
        have hlen := congrArg List.length h
        have hpos := List.length_pos_iff.2 hdigits
        rw [show stackText (l :: l' :: ls) = Nat.toDigits 10 l.toNat ++ '/' :: stackText (l' :: ls) from rfl, List.length_append] at hlen
        omega
      rw [mplsPton1]
      simp only [hread]
      rw [if_neg hlt, if_neg hmoved, if_neg (not_not.2 rfl), ih (List.cons_ne_nil _ _) (Nat.le_of_succ_le_succ hleft) (count + 1)]
      have hentry := pton_entry l false
      rw [if_neg Bool.false_ne_true, BitVec.or_zero] at hentry
      have hcount : ((count + 1 : ℕ) + ((l' :: ls).length : ℕ) : ℤ) = count + ((l :: l' :: ls).length : ℕ) := by
        rw [List.length_cons (a := l)]
        push_cast
        ring
      rw [hentry, hcount]
      rfl

/-- **Label stacks as text.** For every stack with a label at least, `mpls_ntop` succeeds with a buffer of eight bytes a label,
and `mpls_pton` makes the same bytes of the string, if there is room for so many labels. -/
theorem mpls_text_round_trip {ls : List Label} (hne : 1 ≤ ls.length) {buf : Mem} {addr : ℕ}
    (hseg : Seg buf addr (stackBytes ls)) {buflen : ℕ} (hbuf : 8 * ls.length < buflen) :
    ∃ s, mplsNtop AF_MPLS buf addr buflen = .ok s ∧ ∀ alen, ls.length ≤ alen / 4 % 2 ^ 32 →
      mplsPton AF_MPLS s alen = (4 * (ls.length : ℤ), stackBytes ls) := by
  have hstack : ls ≠ [] := List.length_pos_iff.1 hne
  have hlen := stackText_length ls
  refine ⟨stackText ls, ?_, fun alen halen => ?_⟩
  · rw [mplsNtop, if_pos rfl]
    exact ntop_stack hstack hseg (by omega)
  · rw [mplsPton, if_pos rfl, pton_stack hstack halen 0, Nat.cast_zero, zero_add, mul_comm]

/-- the labels 0, 16 and 1048575 -/
theorem mpls_text_round_trip_sample : ∃ s, mplsNtop AF_MPLS (memOf (stackBytes [0, 16, 1048575])) 0 512 = .ok s ∧
    mplsPton AF_MPLS s 256 = (12, stackBytes [0, 16, 1048575]) := by
  have hroom : 8 * ([0, 16, 1048575] : List Label).length < 512 := by decide
  obtain ⟨s, hntop, hpton⟩ := mpls_text_round_trip (by decide) (seg_memOf (stackBytes [0, 16, 1048575])) hroom
  exact ⟨s, hntop, hpton 256 (by decide)⟩

end Libnl.Mpls
