/-
Memory that holds arrays.

An array is known by a number, and `none` is the null pointer. It can be allocated, resized as `realloc` does, which moves
it, freed, and written to within its bounds; what goes wrong is `none`. Every allocation asks whether it is granted.

- `resize_spec`: what becomes of an array that is resized, and that all others stay.
- `write_spec`: the same for an entry that is written.
-/
import Mathlib.Tactic

namespace Libnl.Arrays

structure Heap (α : Type) where
  cells : ℕ → Option (List α)
  /-- this number and those behind it are not in use -/
  next : ℕ
  /-- which allocations succeed, and how many were asked for -/
  grants : ℕ → Bool
  asked : ℕ

namespace Heap

variable {α : Type}

/-- nothing is in use that was not allocated -/
def Tidy (h : Heap α) : Prop := ∀ p, h.next ≤ p → h.cells p = none

/-- the array at a pointer; the null pointer is that of an array without entries -/
def block (h : Heap α) : Option ℕ → Option (List α)
  | none => some []
  | some p => h.cells p

/-- its entries, as far as there are any -/
def entries (h : Heap α) (p : Option ℕ) : List α := (h.block p).getD []

/-- an allocation of something that is no array -/
def ask (h : Heap α) : Bool × Heap α := (h.grants h.asked, { h with asked := h.asked + 1 })

/-- a new array with these entries, or the null pointer -/
def alloc (h : Heap α) (xs : List α) : Option ℕ × Heap α :=
  if h.grants h.asked then
    (some h.next, { h with cells := Function.update h.cells h.next (some xs), next := h.next + 1, asked := h.asked + 1 })
  else (none, { h with asked := h.asked + 1 })

def free (h : Heap α) : Option ℕ → Heap α
  | none => h
  | some p => { h with cells := Function.update h.cells p none }

/-- `realloc`, to `n` entries; those that are new are `fill`. If it is not granted, nothing happens to the array. -/
def resize (h : Heap α) (p : Option ℕ) (n : ℕ) (fill : α) : Option (Option ℕ × Heap α) :=
  (h.block p).map fun xs =>
    let r := h.alloc (xs.take n ++ List.replicate (n - xs.length) fill)
    match r.1 with
    | none => (none, r.2)
    | some q => (some q, r.2.free p)

/-- an entry is written, within the array -/
def write (h : Heap α) (p : Option ℕ) (i : ℕ) (x : α) : Option (Heap α) :=
  p.bind fun q => (h.cells q).bind fun xs =>
    if i < xs.length then some { h with cells := Function.update h.cells q (some (xs.set i x)) } else none

variable {h h' : Heap α} {xs : List α}

/-! ## Frames -/

/-- all arrays but that at `p` are as they were -/
structure Others (h h' : Heap α) (p : Option ℕ) : Prop where
  next : h.next ≤ h'.next
  cells : ∀ q < h.next, p ≠ some q → h'.cells q = h.cells q

theorem Others.refl (h : Heap α) (p : Option ℕ) : Others h h p := ⟨le_rfl, fun _ _ _ => rfl⟩

theorem Others.trans {h1 h2 h3 : Heap α} (h12 : Others h1 h2 none) (h23 : Others h2 h3 none) : Others h1 h3 none where
  next := h12.next.trans h23.next
  cells q hq hne := by rw [h23.cells q (hq.trans_le h12.next) hne, h12.cells q hq hne]

/-- first that at `p`, then a new one -/
theorem Others.trans_new {h1 h2 h3 : Heap α} {p : Option ℕ} {q : ℕ} (h12 : Others h1 h2 p) (h23 : Others h2 h3 (some q))
    (hq : h1.next ≤ q) : Others h1 h3 p where
  next := h12.next.trans h23.next
  cells r hr hp := by
    have hne : some q ≠ some r := fun heq => absurd hr (not_lt.2 (Option.some.inj heq ▸ hq))
    rw [h23.cells r (hr.trans_le h12.next) hne, h12.cells r hr hp]

theorem Others.block {p q : Option ℕ} (hothers : Others h h' p) (hq : ∀ r ∈ q, r < h.next ∧ p ≠ some r) :
    h'.block q = h.block q := by
  cases q with
  | none => rfl
  | some r =>
    obtain ⟨hr, hne⟩ := hq r rfl
    exact hothers.cells r hr hne

theorem Others.weaken (hothers : Others h h' none) (p : Option ℕ) : Others h h' p :=
  ⟨hothers.next, fun q hq _ => hothers.cells q hq (Option.some_ne_none q).symm⟩

/-! ## Operations -/

theorem ask_tidy (ht : h.Tidy) : h.ask.2.Tidy := ht

theorem alloc_spec (ht : h.Tidy) (xs : List α) :
    (h.alloc xs).2.Tidy ∧ Others h (h.alloc xs).2 none ∧
      ((h.alloc xs).1 = none ∨ (h.alloc xs).1 = some h.next ∧ (h.alloc xs).2.cells h.next = some xs ∧
        (h.alloc xs).2.next = h.next + 1) := by
  unfold alloc
  split_ifs
  · refine ⟨fun p hp => ?_, ⟨Nat.le_succ _, fun q hq _ => ?_⟩, Or.inr ⟨rfl, ?_, rfl⟩⟩
    · have hlt : h.next < p := hp
      show Function.update h.cells h.next (some xs) p = none
      rw [Function.update_of_ne hlt.ne']
      exact ht p hlt.le
    · show Function.update h.cells h.next (some xs) q = _
      rw [Function.update_of_ne hq.ne]
    · exact Function.update_self ..
  · exact ⟨ht, ⟨le_rfl, fun _ _ _ => rfl⟩, Or.inl rfl⟩

/-- the null pointer is what an allocation gives that is not granted -/
theorem alloc_refused (hnone : (h.alloc xs).1 = none) : ∃ n, h.grants n = false := by
  refine ⟨h.asked, Bool.eq_false_iff.2 fun hgrant => ?_⟩
  rw [alloc, if_pos hgrant] at hnone
  cases hnone

theorem free_tidy (ht : h.Tidy) (p : Option ℕ) : (h.free p).Tidy := by
  cases p with
  | none => exact ht
  | some q =>
    intro r hr
    by_cases hqr : r = q
    · rw [hqr]
      exact Function.update_self ..
    · exact (Function.update_of_ne hqr _ _).trans (ht r hr)

/-- an array that is in use was allocated -/
theorem lt_next (ht : h.Tidy) {p : ℕ} (hp : h.cells p = some xs) : p < h.next := by
  by_contra hge
  rw [ht p (not_lt.1 hge)] at hp
  cases hp

theorem block_lt (ht : h.Tidy) {p : Option ℕ} (hp : h.block p = some xs) {q : ℕ} (hq : q ∈ p) : q < h.next := by
  obtain rfl : p = some q := hq
  exact lt_next ht hp

/-- **Resizing** moves the entries to a new array, or fails and does nothing. -/
theorem resize_spec (ht : h.Tidy) {p : Option ℕ} (hp : h.block p = some xs) (n : ℕ) (fill : α) :
    (∃ h', h.resize p n fill = some (none, h') ∧ h'.Tidy ∧ Others h h' none) ∨
    ∃ h', h.resize p n fill = some (some h.next, h') ∧ h'.Tidy ∧ Others h h' p ∧
      h'.cells h.next = some (xs.take n ++ List.replicate (n - xs.length) fill) ∧ h'.next = h.next + 1 := by
  obtain ⟨htidy, hothers, hresult⟩ := alloc_spec ht (xs.take n ++ List.replicate (n - xs.length) fill)
  rw [resize, hp, Option.map_some]
  generalize h.alloc (xs.take n ++ List.replicate (n - xs.length) fill) = r at *
  dsimp only
  rcases hresult with hnone | ⟨hsome, hcell, hnext⟩
  · rw [hnone]
    exact Or.inl ⟨_, rfl, htidy, hothers⟩
  · rw [hsome]
    cases p with
    | none => exact Or.inr ⟨_, rfl, htidy, hothers, hcell, hnext⟩
    | some q =>
      have hfree : ∀ k, k ≠ q → (r.2.free (some q)).cells k = r.2.cells k := fun k hk => Function.update_of_ne hk _ _
      refine Or.inr ⟨_, rfl, fun k hk => ?_, ⟨hothers.next, fun k hk hne => ?_⟩, ?_, hnext⟩
      · by_cases hkq : k = q
        · rw [hkq]
          exact Function.update_self ..
        · rw [hfree k hkq]
          exact htidy k hk
      · rw [hfree k fun heq => hne (congrArg some heq.symm)]
        exact hothers.cells k hk (Option.some_ne_none k).symm
      · rw [hfree _ (lt_next ht hp).ne', hcell]

/-- **Writing** changes one entry of one array. -/
theorem write_spec (ht : h.Tidy) {p : ℕ} (hp : h.cells p = some xs) {i : ℕ} (hi : i < xs.length) (x : α) :
    ∃ h', h.write (some p) i x = some h' ∧ h'.Tidy ∧ Others h h' (some p) ∧ h'.cells p = some (xs.set i x) ∧
      h'.next = h.next := by
  refine ⟨{ h with cells := Function.update h.cells p (some (xs.set i x)) }, ?_, ?_, ⟨le_rfl, fun q _ hne => ?_⟩, ?_, rfl⟩
  · rw [write, Option.bind_some, hp, Option.bind_some, if_pos hi]
  · intro q hq
    have hlt := lt_next ht hp
    show Function.update h.cells p _ q = none
    rw [Function.update_of_ne (hlt.trans_le hq).ne']
    exact ht q hq
  · show Function.update h.cells p _ q = _
    rw [Function.update_of_ne fun heq => hne (congrArg some heq.symm)]
  · exact Function.update_self ..

end Heap

end Libnl.Arrays
