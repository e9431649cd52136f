/-
Memory for structures of one type.

A structure is known by a number. Numbers are not used again, so that whatever touches a structure that was given back is
noticed: the result is `none`. What is given back is written down.

- `store_spec`, `free_spec`: what becomes of a structure that is written or given back, and that all others stay.
- `Grows`: structures are only added.
-/
import Mathlib.Tactic

namespace Libnl.Pools

structure Pool (α : Type) where
  cells : ℕ → Option α
  /-- this number and those behind it are not in use -/
  next : ℕ
  /-- the numbers that were given back -/
  freed : List ℕ

namespace Pool

variable {α : Type} {P Q R : Pool α} {p q : ℕ} {x y : α}

/-- nothing is in use that was not allocated -/
def Tidy (P : Pool α) : Prop := ∀ p, P.next ≤ p → P.cells p = none

/-- a new structure, at `next` -/
def alloc (P : Pool α) (x : α) : Pool α := { P with cells := Function.update P.cells P.next (some x), next := P.next + 1 }

def store (P : Pool α) (p : ℕ) (x : α) : Option (Pool α) :=
  (P.cells p).map fun _ => { P with cells := Function.update P.cells p (some x) }

def free (P : Pool α) (p : ℕ) : Option (Pool α) :=
  (P.cells p).map fun _ => { P with cells := Function.update P.cells p none, freed := P.freed ++ [p] }

theorem lt_next (ht : P.Tidy) (hp : P.cells p = some x) : p < P.next := by
  by_contra hge
  rw [ht p (not_lt.1 hge)] at hp
  cases hp

/-! ## Operations -/

/-- all structures but the one at `p` are as they were -/
def Others (P Q : Pool α) (p : ℕ) : Prop := ∀ q, q ≠ p → Q.cells q = P.cells q

theorem store_spec (hp : P.cells p = some x) (y : α) : ∃ Q, P.store p y = some Q ∧ Q.cells p = some y ∧ Others P Q p ∧
    Q.next = P.next ∧ Q.freed = P.freed := by
  refine ⟨{ P with cells := Function.update P.cells p (some y) }, ?_, Function.update_self .., fun q hq => ?_, rfl, rfl⟩
  · rw [store, hp, Option.map_some]
  · exact Function.update_of_ne hq _ _

theorem free_spec (hp : P.cells p = some x) : ∃ Q, P.free p = some Q ∧ Others P Q p ∧ Q.freed = P.freed ++ [p] := by
  refine ⟨{ P with cells := Function.update P.cells p none, freed := P.freed ++ [p] }, ?_, fun q hq => ?_, rfl⟩
  · rw [free, hp, Option.map_some]
  · exact Function.update_of_ne hq _ _

theorem store_some (h : P.store p y = some Q) : ∃ x, P.cells p = some x := by
  obtain ⟨x, hx, -⟩ := Option.map_eq_some_iff.1 h
  exact ⟨x, hx⟩

/-! ## Growing -/

/-- structures were added, and none touched -/
structure Grows (P Q : Pool α) : Prop where
  next : P.next ≤ Q.next
  tidy : Q.Tidy
  cells : ∀ p < P.next, Q.cells p = P.cells p
  freed : Q.freed = P.freed

theorem Grows.refl (ht : P.Tidy) : P.Grows P := ⟨le_rfl, ht, fun _ _ => rfl, rfl⟩

theorem Grows.trans (h1 : P.Grows Q) (h2 : Q.Grows R) : P.Grows R where
  next := h1.next.trans h2.next
  tidy := h2.tidy
  cells p hp := by rw [h2.cells p (hp.trans_le h1.next), h1.cells p hp]
  freed := by rw [h2.freed, h1.freed]

theorem Grows.kept (h : P.Grows Q) (ht : P.Tidy) (hp : P.cells p = some x) : Q.cells p = some x := by
  rw [h.cells p (lt_next ht hp), hp]

theorem alloc_grows (ht : P.Tidy) (x : α) : P.Grows (P.alloc x) where
  next := Nat.le_succ _
  tidy p hp := by
    have hlt : P.next < p := hp
    show Function.update P.cells P.next _ p = none
    rw [Function.update_of_ne hlt.ne']
    exact ht p hlt.le
  cells p hp := Function.update_of_ne hp.ne _ _
  freed := rfl

theorem alloc_cells (P : Pool α) (x : α) : (P.alloc x).cells P.next = some x := Function.update_self ..

/-- a structure that was added may be written -/
theorem Grows.store (h : P.Grows Q) (hp : P.next ≤ p) (hstore : Q.store p y = some R) :
    P.Grows R ∧ R.cells p = some y ∧ R.next = Q.next ∧ Others Q R p := by
  obtain ⟨x, hx⟩ := store_some hstore
  obtain ⟨R', hR', hself, hothers, hnext, hfreed⟩ := store_spec hx y
  rw [hR'] at hstore
  cases hstore
  have hlt := lt_next h.tidy hx
  refine ⟨⟨h.next.trans hnext.ge, fun q hq => ?_, fun q hq => ?_, hfreed.trans h.freed⟩, hself, hnext, hothers⟩
  · rw [hothers q (hlt.trans_le (hnext ▸ hq)).ne']
    exact h.tidy q (hnext ▸ hq)
  · rw [hothers q (hq.trans_le hp).ne]
    exact h.cells q hq

end Pool

end Libnl.Pools
