/-
Texts that are appended with `snprintf`, where the pointer and the room move by what it returns.

It returns the length of the whole text, also where it cut it. The room is unsigned: after a text that is longer than the
room it wraps, and the next text is written far behind the buffer. After a text that is as long as the room there is no room,
and nothing is written any more.

- `appendAll_isString`, `appendAll_none`: the texts are in the buffer exactly if they fit in this sense.
-/
import Mathlib.Tactic
import Libnl.Core.CString

namespace Libnl.AppendText

open Bytes CString

section
variable (size : ℕ)

/-- one text after the other from `p`, as long as there is room; the count of the room is a `size_t` -/
def appendAll : List (List UInt8) → Mem → ℕ → ℕ → Option Mem
  | [], b, _, _ => some b
  | t :: ts, b, p, avail =>
    if avail = 0 then some b
    else (snprintf size b p avail t).bind fun b => appendAll ts b (p + t.length) ((avail + 2 ^ 64 - t.length) % 2 ^ 64)

/-- every text but the last ends inside of the buffer, or one of them ends exactly where the buffer does -/
def Fits : ℕ → List (List UInt8) → Prop
  | _, [] => True
  | p, t :: ts => ts = [] ∨ p + t.length = size ∨ (p + t.length < size ∧ Fits (p + t.length) ts)

end

section
variable {size : ℕ}

/-- the room after a text that is not longer than it -/
theorem room_sub {p n : ℕ} (hsize : size < 2 ^ 64) (h : p + n ≤ size) : (size - p + 2 ^ 64 - n) % 2 ^ 64 = size - (p + n) := by
  have hback : size - p + 2 ^ 64 - n = size - (p + n) + 2 ^ 64 := by omega
  rw [hback, Nat.add_mod_right]
  exact Nat.mod_eq_of_lt (by omega)

/-- **One text**, cut to the room -/
theorem snprintf_behind {b : Mem} {front t : List UInt8} (hseg : Seg b 0 front) (hfront : 0 ∉ front) (ht : 0 ∉ t)
    (hp : front.length < size) : ∃ b', snprintf size b front.length (size - front.length) t = some b' ∧
      IsString size b' (front ++ t.take (size - front.length - 1)) := by
  have hlen : (t.take (size - front.length - 1)).length ≤ size - front.length - 1 := List.length_take_le _ _
  obtain ⟨b', hstore, hstr⟩ := store_isString size hseg hfront
    (fun h => ht (List.mem_of_mem_take h) : 0 ∉ t.take (size - front.length - 1)) (by omega)
  exact ⟨b', (if_neg (by omega)).trans hstore, hstr⟩

theorem appendAll_isString (hsize : size < 2 ^ 64) {ts : List (List UInt8)} (hts : ts ≠ []) (hplain : ∀ t ∈ ts, 0 ∉ t)
    {b : Mem} {front : List UInt8} (hseg : Seg b 0 front) (hfront : 0 ∉ front) (hp : front.length < size)
    (hfits : Fits size front.length ts) :
    ∃ b', appendAll size ts b front.length (size - front.length) = some b' ∧
      IsString size b' ((front ++ ts.flatten).take (size - 1)) := by
  induction ts generalizing b front with
  | nil => exact absurd rfl hts
  | cons t ts ih =>
    obtain ⟨b', hprint, hstr⟩ := snprintf_behind hseg hfront (hplain t List.mem_cons_self) hp
    have hcut : size - 1 - front.length = size - front.length - 1 := by omega
    rw [appendAll, if_neg (by omega), hprint, Option.bind_some, List.flatten_cons, List.take_append,
      List.take_of_length_le (by omega : front.length ≤ size - 1), hcut]
    by_cases hlast : ts = []
    · rw [hlast, List.flatten_nil, List.append_nil]
      exact ⟨b', rfl, hstr⟩
    · rcases hfits with hnil | hexact | ⟨hlt, hfits⟩
      · exact absurd hnil hlast
      · -- there is no room left
        obtain ⟨t', ts', rfl⟩ := List.exists_cons_of_ne_nil hlast
        rw [room_sub hsize hexact.le, hexact, Nat.sub_self, appendAll, if_pos rfl,
          List.take_append_of_le_length (by omega : size - front.length - 1 ≤ t.length)]
        exact ⟨b', rfl, hstr⟩
      · have hwhole : t.take (size - front.length - 1) = t := List.take_of_length_le (by omega)
        rw [hwhole] at hstr
        obtain ⟨b'', hrest, hstr'⟩ := ih hlast (fun t' ht' => hplain t' (List.mem_cons_of_mem t ht'))
          (seg_append.1 hstr.seg).1 hstr.plain (by rw [List.length_append]; exact hlt)
          (by rw [List.length_append]; exact hfits)
        rw [List.length_append] at hrest
        refine ⟨b'', ?_, ?_⟩
        · rw [room_sub hsize hlt.le]
          exact hrest
        · rwa [List.append_assoc, List.take_append, List.take_of_length_le (by omega : front.length ≤ size - 1), hcut] at hstr'

theorem appendAll_none (hsize : size < 2 ^ 64) {ts : List (List UInt8)} (hplain : ∀ t ∈ ts, 0 ∉ t)
    (hshort : ∀ t ∈ ts, t.length < 2 ^ 64) {b : Mem} {front : List UInt8} (hseg : Seg b 0 front) (hfront : 0 ∉ front)
    (hp : front.length < size) (hfits : ¬ Fits size front.length ts) :
    appendAll size ts b front.length (size - front.length) = none := by
  induction ts generalizing b front with
  | nil => exact absurd trivial hfits
  | cons t ts ih =>
    obtain ⟨b', hprint, hstr⟩ := snprintf_behind hseg hfront (hplain t List.mem_cons_self) hp
    obtain ⟨hlast, hexact, hrest⟩ : ts ≠ [] ∧ front.length + t.length ≠ size ∧
        ¬ (front.length + t.length < size ∧ Fits size (front.length + t.length) ts) :=
      ⟨fun h => hfits (Or.inl h), fun h => hfits (Or.inr (Or.inl h)), fun h => hfits (Or.inr (Or.inr h))⟩
    rw [appendAll, if_neg (by omega), hprint, Option.bind_some]
    by_cases hlt : front.length + t.length < size
    · have hwhole : t.take (size - front.length - 1) = t := List.take_of_length_le (by omega)
      rw [hwhole] at hstr
      have hnone := ih (fun t' ht' => hplain t' (List.mem_cons_of_mem t ht'))
        (fun t' ht' => hshort t' (List.mem_cons_of_mem t ht')) (seg_append.1 hstr.seg).1 hstr.plain
        (by rw [List.length_append]; exact hlt) (by rw [List.length_append]; exact fun h => hrest ⟨hlt, h⟩)
      rw [List.length_append] at hnone
      rwa [room_sub hsize hlt.le]
    · -- the room has wrapped
      obtain ⟨t', ts', rfl⟩ := List.exists_cons_of_ne_nil hlast
      have hlong := hshort t List.mem_cons_self
      have hroom : (size - front.length + 2 ^ 64 - t.length) % 2 ^ 64 ≠ 0 := by omega
      rw [appendAll, if_neg hroom, snprintf, if_neg hroom, store, if_neg, Option.bind_none]
      rw [List.length_append, List.length_singleton]
      omega

end

end Libnl.AppendText
