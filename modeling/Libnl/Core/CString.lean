/-
Strings with a terminator, in a buffer of a given size.

A store outside of the buffer, and a search for the terminator that leaves it, are faults. `snprintf` cuts what has no room
and terminates; `strncat` finds the terminator, appends and terminates again. Together they keep a string in the buffer, if
there was one.

- `IsString`: the buffer holds this text, and its terminator; `IsString.textOf`: the text is read from it again.
- `snprintf_isString`, `strncat_isString`: both make strings, cut to the size.
- `strlen_full`: a buffer full of text is no string.
-/
import Mathlib.Tactic
import Libnl.Core.Bytes

namespace Libnl.CString

open Bytes

/-- the characters as bytes -/
def asBytes (s : List Char) : List UInt8 := s.map fun c => UInt8.ofNat c.toNat

/-- `strcasecmp` says that there is no difference -/
def sameIgnoringCase (s t : List Char) : Bool := decide (s.map Char.toLower = t.map Char.toLower)

section
variable (size : ℕ)

/-- store bytes at `p`, if they are inside -/
def store (b : Mem) (p : ℕ) (bs : List UInt8) : Option Mem := if p + bs.length ≤ size then some (write b p bs) else none

def strlen (b : Mem) : Option ℕ := (List.range size).find? fun i => b i = 0

/-- `snprintf(buf + p, avail, "%s", text)` -/
def snprintf (b : Mem) (p avail : ℕ) (text : List UInt8) : Option Mem :=
  if avail = 0 then some b else store size b p (text.take (avail - 1) ++ [0])

/-- `strncat(buf, text, n)` -/
def strncat (b : Mem) (text : List UInt8) (n : ℕ) : Option Mem :=
  (strlen size b).bind fun l => store size b l (text.take n ++ [0])

/-- the characters before the terminator -/
def textOf (b : Mem) : Option (List Char) := (strlen size b).map fun l => (List.range l).map fun i => Char.ofNat (b i).toNat

/-- the buffer holds the text and its terminator -/
structure IsString (b : Mem) (text : List UInt8) : Prop where
  fits : text.length < size
  seg : Seg b 0 (text ++ [0])
  plain : 0 ∉ text

end

section
variable {size : ℕ}

theorem strlen_eq_some_iff {b : Mem} {l : ℕ} : strlen size b = some l ↔ l < size ∧ b l = 0 ∧ ∀ i < l, b i ≠ 0 := by
  rw [strlen, List.find?_range_eq_some]
  simp only [decide_eq_true_eq, List.mem_range, Bool.not_eq_true', decide_eq_false_iff_not]
  exact ⟨fun h => ⟨h.2.1, h.1, h.2.2⟩, fun h => ⟨h.2.1, h.1, h.2.2⟩⟩

theorem seg_get {b : Mem} {text : List UInt8} (h : Seg b 0 text) {i : ℕ} (hi : i < text.length) : b i = text[i] := by
  have hget := h i hi
  rwa [Nat.zero_add] at hget

theorem IsString.strlen {b : Mem} {text : List UInt8} (h : IsString size b text) : strlen size b = some text.length := by
  refine strlen_eq_some_iff.2 ⟨h.fits, ?_, fun i hi => ?_⟩
  · rw [seg_get h.seg (by simp), List.getElem_append_right le_rfl]
    simp
  · rw [seg_get h.seg (by simp; omega), List.getElem_append_left hi]
    intro hzero
    exact h.plain (hzero ▸ List.getElem_mem hi)

/-- a buffer that is full of text has no terminator -/
theorem strlen_full {b : Mem} {text : List UInt8} (hseg : Seg b 0 text) (hplain : 0 ∉ text) (hfull : text.length = size) :
    strlen size b = none := by
  rw [Option.eq_none_iff_forall_ne_some]
  intro l hl
  obtain ⟨hlt, hzero, -⟩ := strlen_eq_some_iff.1 hl
  rw [seg_get hseg (by omega)] at hzero
  exact hplain (hzero ▸ List.getElem_mem (by omega))

variable (size) in
/-- **A text behind another**, and a terminator -/
theorem store_isString {b : Mem} {front text : List UInt8} (hseg : Seg b 0 front) (hfront : 0 ∉ front) (htext : 0 ∉ text)
    (hsize : front.length + text.length < size) :
    ∃ b', store size b front.length (text ++ [0]) = some b' ∧ IsString size b' (front ++ text) := by
  have hfits : front.length + (text ++ [0]).length ≤ size := by
    rw [List.length_append, List.length_singleton]
    omega
  refine ⟨write b front.length (text ++ [0]), if_pos hfits, ?_, ?_, ?_⟩
  · rw [List.length_append]
    exact hsize
  · rw [List.append_assoc]
    refine seg_append.2 ⟨hseg.frame fun i _ hi => write_out (Or.inl (by omega)), ?_⟩
    rw [Nat.zero_add]
    exact seg_write _ _ _
  · intro hmem
    rcases List.mem_append.1 hmem with h | h
    · exact hfront h
    · exact htext h

theorem snprintf_isString (hsize : 0 < size) (b : Mem) {text : List UInt8} (htext : 0 ∉ text) :
    ∃ b', snprintf size b 0 size text = some b' ∧ IsString size b' (text.take (size - 1)) := by
  have hlen : (text.take (size - 1)).length ≤ size - 1 := List.length_take_le _ _
  obtain ⟨b', hstore, hstr⟩ := store_isString size (seg_nil b 0) List.not_mem_nil
    (fun h => htext (List.mem_of_mem_take h) : 0 ∉ text.take (size - 1)) (by rw [List.length_nil]; omega)
  exact ⟨b', (if_neg (by omega)).trans hstore, hstr⟩

theorem strncat_isString {b : Mem} {front text : List UInt8} (h : IsString size b front) (htext : 0 ∉ text) :
    ∃ b', strncat size b text (size - front.length - 1) = some b' ∧
      IsString size b' (front ++ text.take (size - front.length - 1)) := by
  have hlen : (text.take (size - front.length - 1)).length ≤ size - front.length - 1 := List.length_take_le _ _
  have hfits := h.fits
  obtain ⟨b', hstore, hstr⟩ := store_isString size (seg_append.1 h.seg).1 h.plain
    (fun hmem => htext (List.mem_of_mem_take hmem) : 0 ∉ text.take (size - front.length - 1)) (by omega)
  refine ⟨b', ?_, hstr⟩
  rw [strncat, h.strlen]
  exact hstore

theorem asBytes_length (s : List Char) : (asBytes s).length = s.length := List.length_map ..

/-- characters of one byte come back -/
theorem IsString.textOf {b : Mem} {s : List Char} (h : IsString size b (asBytes s)) (hs : ∀ c ∈ s, c.toNat < 256) :
    textOf size b = some s := by
  have hget : ∀ i (hi : i < s.length), Char.ofNat (b i).toNat = s[i] := by
    intro i hi
    rw [seg_get (seg_append.1 h.seg).1 (by rwa [asBytes_length])]
    have hlt : i < (asBytes s).length := by rwa [asBytes_length]
    have hbyte : (asBytes s)[i] = UInt8.ofNat s[i].toNat := List.getElem_map _
    rw [hbyte, UInt8.toNat_ofNat', Nat.mod_eq_of_lt (hs _ (List.getElem_mem hi)), Char.ofNat_toNat]
  rw [CString.textOf, h.strlen, asBytes_length, Option.map_some]
  refine congrArg some (List.ext_getElem (by simp) fun i hi1 hi2 => ?_)
  rw [List.getElem_map, List.getElem_range]
  exact hget i hi2

end

end Libnl.CString
