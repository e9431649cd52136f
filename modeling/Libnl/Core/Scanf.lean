/-
Formats of `scanf` that ask for hexadecimal numbers of a width, and for characters between them.

A conversion may be made without storing what it reads; the return value counts what is stored. It is `EOF` where the input
ends before the first conversion.

- `sscanf_suppressed`: where nothing is stored, nothing is counted.
-/
import Mathlib.Tactic
import Libnl.Core.Numeral

namespace Libnl.Scanf

open Numeral

inductive Directive where
  /-- `%x` with a width, or `%*x` -/
  | hex (store : Bool) (width : ℕ)
  | lit (c : Char)

/-- the values that are stored -/
def stored : List Directive → List Char → List ℕ
  | [], _ => []
  | .hex store width :: fmt, s =>
    match scanfHex width s with
    | none => []
    | some (v, r) => (if store then [v] else []) ++ stored fmt r
  | .lit _ :: _, [] => []
  | .lit c :: fmt, d :: r => if d = c then stored fmt r else []

/-- the input ends before the first conversion -/
def endsEarly : List Directive → List Char → Bool
  | [], _ => false
  | .hex _ _ :: _, s => decide (s.dropWhile isSpace = [])
  | .lit _ :: _, [] => true
  | .lit c :: fmt, d :: r => if d = c then endsEarly fmt r else false

def sscanf (s : List Char) (fmt : List Directive) : ℤ := if endsEarly fmt s then -1 else (stored fmt s).length

/-- a format of numbers with a separator between them -/
def numbers (store : Bool) (width : ℕ) (sep : Char) : ℕ → List Directive
  | 0 => []
  | 1 => [.hex store width]
  | k + 2 => .hex store width :: .lit sep :: numbers store width sep (k + 1)

/-- so many numbers, with the separator between them, stand at the front -/
inductive Numbers (width : ℕ) (sep : Char) : ℕ → List Char → Prop
  | last {s r : List Char} {v : ℕ} (number : scanfHex width s = some (v, r)) : Numbers width sep 1 s
  | next {k : ℕ} {s r : List Char} {v : ℕ} (number : scanfHex width s = some (v, sep :: r))
      (rest : Numbers width sep (k + 1) r) : Numbers width sep (k + 2) s

/-! ## What is left -/

theorem afterX_suffix (s : List Char) : afterX s <:+ s := by
  unfold afterX
  split
  · split_ifs
    · exact (List.suffix_cons _ _).trans (List.suffix_cons _ _)
    · exact List.suffix_refl _
  · exact List.suffix_refl _

theorem scanfHex_suffix {width : ℕ} {s r : List Char} {v : ℕ} (h : scanfHex width s = some (v, r)) : r <:+ s := by
  rw [scanfHex] at h
  dsimp only at h
  by_cases hnone : ((afterX (signOf ((s.dropWhile isSpace).take width)).2).head?.bind (digitIn 16)).isNone = true
  · rw [if_pos hnone] at h
    cases h
  · rw [if_neg hnone] at h
    obtain ⟨-, rfl⟩ := Prod.mk.inj (Option.some.inj h)
    have hdigits := (scanDigits_suffix 16 0 _).trans ((afterX_suffix _).trans (signOf_suffix ((s.dropWhile isSpace).take width)))
    obtain ⟨front, hfront⟩ := hdigits
    refine List.IsSuffix.trans ⟨front, ?_⟩ (List.dropWhile_suffix isSpace)
    rw [← List.append_assoc, hfront, List.take_append_drop]

/-- between two numbers there is a separator -/
theorem Numbers.sep_mem {width : ℕ} {sep : Char} {k : ℕ} {s : List Char} (h : Numbers width sep (k + 2) s) : sep ∈ s := by
  cases h with
  | next number rest => exact (scanfHex_suffix number).mem List.mem_cons_self

/-! ## Counting -/

def Directive.stores : Directive → Bool
  | .hex store _ => store
  | .lit _ => false

theorem stored_suppressed {fmt : List Directive} (h : ∀ d ∈ fmt, d.stores = false) (s : List Char) : stored fmt s = [] := by
  induction fmt generalizing s with
  | nil => rfl
  | cons d fmt ih =>
    have hrest := ih fun d' hd' => h d' (List.mem_cons_of_mem d hd')
    cases d with
    | hex store width =>
      obtain rfl : store = false := h _ List.mem_cons_self
      rw [stored]
      cases scanfHex width s with
      | none => rfl
      | some vr => exact hrest vr.2
    | lit c =>
      cases s with
      | nil => rfl
      | cons d r =>
        rw [stored, hrest r, ite_self]

/-- **Nothing is counted** that is not stored. -/
theorem sscanf_suppressed {fmt : List Directive} (h : ∀ d ∈ fmt, d.stores = false) (s : List Char) : sscanf s fmt ≤ 0 := by
  rw [sscanf, stored_suppressed h]
  split_ifs
  · decide
  · exact le_refl _

section
variable (width : ℕ) (sep : Char)

theorem stores_numbers (k : ℕ) : ∀ d ∈ numbers false width sep k, d.stores = false := by
  induction k using numbers.induct with
  | case1 => simp [numbers]
  | case2 => simp [numbers, Directive.stores]
  | case3 k ih =>
    intro d hd
    rw [numbers] at hd
    rcases List.mem_cons.1 hd with rfl | hd
    · rfl
    · rcases List.mem_cons.1 hd with rfl | hd
      · rfl
      · exact ih d hd

variable {width sep}

theorem length_stored_eq_iff (k : ℕ) (s : List Char) :
    (stored (numbers true width sep (k + 1)) s).length = k + 1 ↔ Numbers width sep (k + 1) s := by
  induction k generalizing s with
  | zero =>
    rw [numbers, stored]
    constructor
    · intro h
      cases hnum : scanfHex width s with
      | none =>
        rw [hnum] at h
        cases h
      | some vr => exact Numbers.last hnum
    · intro h
      cases h with
      | last number =>
        rw [number]
        rfl
  | succ k ih =>
    rw [numbers, stored]
    constructor
    · intro h
      cases hnum : scanfHex width s with
      | none =>
        rw [hnum] at h
        cases h
      | some vr =>
        obtain ⟨v, r⟩ := vr
        rw [hnum] at h
        cases r with
        | nil => simp [stored] at h
        | cons d r =>
          by_cases hsep : d = sep
          · rw [hsep] at hnum
            refine Numbers.next hnum ((ih r).1 ?_)
            simpa [stored, hsep, Nat.add_comm 1] using h
          · simp [stored, hsep] at h
    · intro h
      cases h with
      | next number rest =>
        have hrest := (ih _).2 rest
        rw [number]
        simp only [stored, if_true, List.length_append, List.length_singleton, hrest]
        omega

end

end Libnl.Scanf
