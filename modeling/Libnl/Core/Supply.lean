/-
Supplies of names: the next name along a stream that is not taken, and runs of a state that takes the names it gives.

A search goes on until it finds a name, or stops where the stream ends; without either it does not return.

- `search_found`, `search_returns_iff`: what a search finds, and when it returns.
- `results_fresh`: if every name that is given was not taken before and is taken after, the names of a run are all
  different, and none of them was taken at its start.
-/
import Mathlib.Tactic

namespace Libnl.Supply

/-! ## Searching -/

section
variable {α : Type} (next : α → α) (stop taken : α → Bool)

/-- what comes after `a` and is not taken, or nothing if the search stops before. It runs out if it takes too long. -/
def search : ℕ → α → Option (Option α)
  | 0, _ => none
  | k + 1, a =>
    if stop (next a) then some none
    else if taken (next a) then search k (next a)
    else some (some (next a))

variable {next stop taken}

/-- without stops, a search that ends has found something -/
theorem search_unstopped (hstop : ∀ a, stop a = false) (k : ℕ) (a : α) : search next stop taken k a ≠ some none := by
  induction k generalizing a with
  | zero =>
    intro h
    cases h
  | succ k ih =>
    rw [search, hstop, if_neg Bool.false_ne_true]
    split_ifs
    · exact ih _
    · intro h
      cases h

/-- **What is found** is not taken, and was reached without a stop. -/
theorem search_found {k : ℕ} {a b : α} (h : search next stop taken k a = some (some b)) :
    taken b = false ∧ ∃ n, b = next^[n + 1] a ∧ ∀ m ≤ n, stop (next^[m + 1] a) = false := by
  induction k generalizing a with
  | zero => cases h
  | succ k ih =>
    rw [search] at h
    split_ifs at h with hstop htaken
    · cases h
    · obtain ⟨hfree, n, hb, hbefore⟩ := ih h
      refine ⟨hfree, n + 1, hb, fun m hm => ?_⟩
      cases m with
      | zero => exact Bool.eq_false_iff.2 hstop
      | succ m => exact hbefore m (Nat.le_of_succ_le_succ hm)
    · obtain rfl := Option.some.inj (Option.some.inj h)
      refine ⟨Bool.eq_false_iff.2 htaken, 0, rfl, fun m hm => ?_⟩
      rw [Nat.le_zero.1 hm]
      exact Bool.eq_false_iff.2 hstop

/-- **A search returns** if the stream soon stops, or has a name that is not taken. -/
theorem search_returns_iff {k : ℕ} {a : α} : (search next stop taken k a).isSome ↔
    ∃ n < k, stop (next^[n + 1] a) = true ∨ taken (next^[n + 1] a) = false := by
  induction k generalizing a with
  | zero => simp [search]
  | succ k ih =>
    have hsplit : (∃ n < k + 1, stop (next^[n + 1] a) = true ∨ taken (next^[n + 1] a) = false) ↔
        (stop (next a) = true ∨ taken (next a) = false) ∨
          ∃ n < k, stop (next^[n + 1] (next a)) = true ∨ taken (next^[n + 1] (next a)) = false := by
      constructor
      · rintro ⟨n, hn, h⟩
        cases n with
        | zero => exact Or.inl h
        | succ n => exact Or.inr ⟨n, Nat.lt_of_succ_lt_succ hn, h⟩
      · rintro (h | ⟨n, hn, h⟩)
        · exact ⟨0, Nat.succ_pos k, h⟩
        · exact ⟨n + 1, Nat.succ_lt_succ hn, h⟩
    rw [hsplit, search]
    split_ifs with hstop htaken
    · exact iff_of_true rfl (Or.inl (Or.inl hstop))
    · rw [ih]
      constructor
      · exact Or.inr
      · rintro ((h | h) | h)
        · exact absurd h hstop
        · rw [htaken] at h
          cases h
        · exact h
    · exact iff_of_true rfl (Or.inl (Or.inr (Bool.eq_false_iff.2 htaken)))

end

/-! ## Runs -/

section
variable {σ ι α : Type}

/-- the names that a run gives, each with the call that was answered with it; a step without an outcome ends the run -/
def results (step : σ → ι → Option (σ × Option α)) : σ → List ι → List (ι × α)
  | _, [] => []
  | s, i :: is =>
    match step s i with
    | none => []
    | some (s', none) => results step s' is
    | some (s', some a) => (i, a) :: results step s' is

/-- every step keeps the invariant and what is taken; a name that it gives was not taken, is taken then, and suits the call -/
structure Supplies (step : σ → ι → Option (σ × Option α)) (inv : σ → Prop) (taken : σ → α → Prop) (call : ι → Prop)
    (suits : ι → α → Prop) : Prop where
  keepsInv : ∀ {s i s' r}, inv s → call i → step s i = some (s', r) → inv s'
  keeps : ∀ {s i s' r}, inv s → call i → step s i = some (s', r) → ∀ a, taken s a → taken s' a
  free : ∀ {s i s' a}, inv s → call i → step s i = some (s', some a) → ¬ taken s a
  takes : ∀ {s i s' a}, inv s → call i → step s i = some (s', some a) → taken s' a
  suits : ∀ {s i s' a}, inv s → call i → step s i = some (s', some a) → suits i a

variable {step : σ → ι → Option (σ × Option α)} {inv : σ → Prop} {taken : σ → α → Prop} {call : ι → Prop}
  {suits : ι → α → Prop}

/-- **The names of a run** were not taken at its start, suit their calls, and are all different. -/
theorem results_fresh (h : Supplies step inv taken call suits) {s : σ} (hs : inv s) {is : List ι} (his : ∀ i ∈ is, call i) :
    (∀ x ∈ results step s is, ¬ taken s x.2 ∧ suits x.1 x.2) ∧ ((results step s is).map Prod.snd).Nodup := by
  induction is generalizing s with
  | nil => exact ⟨fun x hx => absurd hx List.not_mem_nil, List.nodup_nil⟩
  | cons i is ih =>
    have hi := his i List.mem_cons_self
    have hrest : ∀ j ∈ is, call j := fun j hj => his j (List.mem_cons_of_mem i hj)
    rw [results]
    cases hstep : step s i with
    | none => exact ⟨fun x hx => absurd hx List.not_mem_nil, List.nodup_nil⟩
    | some r =>
      obtain ⟨s', r⟩ := r
      obtain ⟨hfresh, hnodup⟩ := ih (h.keepsInv hs hi hstep) hrest
      have hback : ∀ x ∈ results step s' is, ¬ taken s x.2 ∧ suits x.1 x.2 := fun x hx =>
        ⟨fun htaken => (hfresh x hx).1 (h.keeps hs hi hstep _ htaken), (hfresh x hx).2⟩
      cases r with
      | none => exact ⟨hback, hnodup⟩
      | some a =>
        dsimp only
        refine ⟨fun x hx => ?_, ?_⟩
        · rcases List.mem_cons.1 hx with rfl | hx
          · exact ⟨h.free hs hi hstep, h.suits hs hi hstep⟩
          · exact hback x hx
        · rw [List.map_cons, List.nodup_cons]
          refine ⟨fun hmem => ?_, hnodup⟩
          obtain ⟨x, hx, heq⟩ := List.mem_map.1 hmem
          exact (hfresh x hx).1 (heq ▸ h.takes hs hi hstep)

end

end Libnl.Supply
