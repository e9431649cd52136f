/-
The maximal runs of a set of numbers, as a list of pairs of the first and the last number of each.

- `MaximalRuns`: the list goes up, and has exactly the runs that no number of the set could be added to.
- `Splits`: the same, as what a scan keeps: a number that is not in the set stands between two runs, and the runs are the
  set. `Splits.maximalRuns` connects the two.
- `Splits.push`, `Splits.extend`: what one more number behind all others does to the list.
- `MaximalRuns.once`: every number of the set is in one run of the list, and in no other.
-/
import Mathlib.Tactic

namespace Libnl.Runs

/-- the number is in the run -/
def Covers (r : ℕ × ℕ) (n : ℕ) : Prop := r.1 ≤ n ∧ n ≤ r.2

/-- numbers of the set without a gap, and no number of the set next to them -/
structure Maximal (S : ℕ → Prop) (r : ℕ × ℕ) : Prop where
  proper : r.1 ≤ r.2
  inside : ∀ n, Covers r n → S n
  before : ∀ n, n + 1 = r.1 → ¬ S n
  behind : ¬ S (r.2 + 1)

structure MaximalRuns (S : ℕ → Prop) (rs : List (ℕ × ℕ)) : Prop where
  ascending : rs.Pairwise fun a b => a.2 < b.1
  exactly : ∀ r, r ∈ rs ↔ Maximal S r

structure Splits (S : ℕ → Prop) (rs : List (ℕ × ℕ)) : Prop where
  proper : ∀ r ∈ rs, r.1 ≤ r.2
  apart : rs.Pairwise fun a b => a.2 + 1 < b.1
  covers : ∀ n, S n ↔ ∃ r ∈ rs, Covers r n

variable {S T : ℕ → Prop} {rs : List (ℕ × ℕ)}

/-! ## What a list of runs says -/

/-- two runs that have a number in common, or stand next to each other, are one -/
theorem Splits.same (h : Splits S rs) {a b : ℕ × ℕ} (ha : a ∈ rs) (hb : b ∈ rs) (hab : b.1 ≤ a.2 + 1)
    (hba : a.1 ≤ b.2 + 1) : a = b := by
  by_contra hne
  have hsymm : Std.Symm fun a b : ℕ × ℕ => a.2 + 1 < b.1 ∨ b.2 + 1 < a.1 := ⟨fun _ _ hor => hor.symm⟩
  have hpair : rs.Pairwise fun a b => a.2 + 1 < b.1 ∨ b.2 + 1 < a.1 := h.apart.imp Or.inl
  have hor := hpair.forall ha hb hne
  omega

/-- a run of the list ends before the first number behind it that is not in the set -/
theorem Splits.ends (h : Splits S rs) {r : ℕ × ℕ} (hr : r ∈ rs) : ¬ S (r.2 + 1) := by
  intro hbehind
  have hproper := h.proper r hr
  obtain ⟨r', hr', hge, hle⟩ := (h.covers _).1 hbehind
  have heq := h.same hr hr' hge (by omega)
  rw [heq] at hle
  omega

theorem Splits.starts (h : Splits S rs) {r : ℕ × ℕ} (hr : r ∈ rs) {n : ℕ} (hn : n + 1 = r.1) : ¬ S n := by
  intro hbefore
  have hproper := h.proper r hr
  obtain ⟨r', hr', hge, hle⟩ := (h.covers _).1 hbefore
  have heq := h.same hr hr' (by omega) (by omega)
  rw [← heq] at hge
  omega

/-- a run of the list goes on as long as there are numbers of the set -/
theorem Splits.holds (h : Splits S rs) {a b : ℕ} (hall : ∀ n, a ≤ n → n ≤ b → S n) {r : ℕ × ℕ} (hr : r ∈ rs)
    (har : a ≤ r.2) : b ≤ r.2 := by
  by_contra hlt
  exact h.ends hr (hall _ (by omega) (by omega))

theorem Splits.maximalRuns (h : Splits S rs) : MaximalRuns S rs := by
  refine ⟨h.apart.imp fun hlt => by omega, fun r => ⟨fun hr => ?_, fun hmax => ?_⟩⟩
  · exact ⟨h.proper r hr, fun n hn => (h.covers n).2 ⟨r, hr, hn⟩, fun n hn => h.starts hr hn, h.ends hr⟩
  · obtain ⟨r', hr', hge, hle⟩ := (h.covers r.1).1 (hmax.inside r.1 ⟨le_rfl, hmax.proper⟩)
    have hproper := hmax.proper
    have hin : ∀ n, Covers r' n → S n := fun n hn => (h.covers n).2 ⟨r', hr', hn⟩
    have hright : r.2 ≤ r'.2 := h.holds (fun n ha hb => hmax.inside n ⟨ha, hb⟩) hr' hle
    have hfirst : r'.1 = r.1 := by
      by_contra hne
      exact hmax.before (r.1 - 1) (by omega) (hin _ ⟨by omega, by omega⟩)
    have hlast : r'.2 = r.2 := by
      by_contra hne
      exact hmax.behind (hin _ ⟨by omega, by omega⟩)
    rwa [← Prod.ext hfirst hlast]

/-- **Once.** Every number of the set is in one run, and no other number is. -/
theorem Splits.once (h : Splits S rs) (n : ℕ) : (S n → ∃! r, r ∈ rs ∧ Covers r n) ∧ (¬ S n → ∀ r ∈ rs, ¬ Covers r n) := by
  constructor
  · intro hn
    obtain ⟨r, hr, hcov⟩ := (h.covers n).1 hn
    refine ⟨r, ⟨hr, hcov⟩, ?_⟩
    rintro r' ⟨hr', hge, hle⟩
    exact h.same hr' hr (by have := hcov.1; omega) (by have := hcov.2; omega)
  · intro hn r hr hcov
    exact hn ((h.covers n).2 ⟨r, hr, hcov⟩)

/-! ## Scanning -/

theorem Splits.congr (h : Splits S rs) (hS : ∀ n, T n ↔ S n) : Splits T rs :=
  ⟨h.proper, h.apart, fun n => (hS n).trans (h.covers n)⟩

theorem Splits.nil (h : ∀ n, ¬ S n) : Splits S [] := by
  refine ⟨?_, List.Pairwise.nil, ?_⟩
  · intro r hr
    exact absurd hr List.not_mem_nil
  · intro n
    simp [h n]

theorem Splits.nil_iff (h : Splits S rs) : rs = [] ↔ ∀ n, ¬ S n := by
  constructor
  · rintro rfl n hn
    obtain ⟨r, hr, -⟩ := (h.covers n).1 hn
    exact List.not_mem_nil hr
  · intro hnone
    apply List.eq_nil_iff_forall_not_mem.2
    intro r hr
    exact hnone r.1 ((h.covers r.1).2 ⟨r, hr, le_rfl, h.proper r hr⟩)

/-- the last number of the last run is in the set, -/
theorem Splits.last {a b : ℕ} (h : Splits S (rs ++ [(a, b)])) : S b := by
  have hmem : (a, b) ∈ rs ++ [(a, b)] := List.mem_append_right rs (List.mem_singleton_self _)
  exact (h.covers b).2 ⟨(a, b), hmem, h.proper (a, b) hmem, le_rfl⟩

/-- and no run ends behind it -/
theorem Splits.le_last {a b : ℕ} (h : Splits S (rs ++ [(a, b)])) {r : ℕ × ℕ} (hr : r ∈ rs ++ [(a, b)]) : r.2 ≤ b := by
  have hab : a ≤ b := h.proper (a, b) (List.mem_append_right rs (List.mem_singleton_self _))
  rcases List.mem_append.1 hr with hr | hr
  · have hlt := (List.pairwise_append.1 h.apart).2.2 r hr (a, b) (List.mem_singleton_self _)
    dsimp only at hlt
    omega
  · rw [List.mem_singleton.1 hr]

/-- one more number, away from all others -/
theorem Splits.push (h : Splits S rs) {m : ℕ} (hbelow : ∀ r ∈ rs, r.2 + 1 < m) :
    Splits (fun n => S n ∨ n = m) (rs ++ [(m, m)]) := by
  refine ⟨?_, List.pairwise_append.2 ⟨h.apart, List.pairwise_singleton _ _, ?_⟩, ?_⟩
  · intro r hr
    rcases List.mem_append.1 hr with hr | hr
    · exact h.proper r hr
    · rw [List.mem_singleton.1 hr]
  · intro a ha b hb
    rw [List.mem_singleton.1 hb]
    exact hbelow a ha
  · intro n
    simp only [List.mem_append, List.mem_singleton, h.covers n, Covers]
    constructor
    · rintro (⟨r, hr, hcov⟩ | rfl)
      · exact ⟨r, Or.inl hr, hcov⟩
      · exact ⟨(n, n), Or.inr rfl, le_rfl, le_rfl⟩
    · rintro ⟨r, hr | rfl, hge, hle⟩
      · exact Or.inl ⟨r, hr, hge, hle⟩
      · exact Or.inr (le_antisymm hle hge)

/-- one more number, right behind the last one -/
theorem Splits.extend {a b : ℕ} (h : Splits S (rs ++ [(a, b)])) :
    Splits (fun n => S n ∨ n = b + 1) (rs ++ [(a, b + 1)]) := by
  obtain ⟨hfront, -, hcross⟩ := List.pairwise_append.1 h.apart
  have hab : a ≤ b := h.proper (a, b) (List.mem_append_right rs (List.mem_singleton_self _))
  refine ⟨?_, List.pairwise_append.2 ⟨hfront, List.pairwise_singleton _ _, ?_⟩, ?_⟩
  · intro r hr
    rcases List.mem_append.1 hr with hr | hr
    · exact h.proper r (List.mem_append_left _ hr)
    · rw [List.mem_singleton.1 hr]
      exact Nat.le_succ_of_le hab
  · intro r hr s hs
    rw [List.mem_singleton.1 hs]
    exact hcross r hr (a, b) (List.mem_singleton_self _)
  · intro n
    simp only [h.covers n, List.mem_append, List.mem_singleton, Covers]
    constructor
    · rintro (⟨r, hr | rfl, hge, hle⟩ | rfl)
      · exact ⟨r, Or.inl hr, hge, hle⟩
      · exact ⟨(a, b + 1), Or.inr rfl, hge, Nat.le_succ_of_le hle⟩
      · exact ⟨(a, b + 1), Or.inr rfl, Nat.le_succ_of_le hab, le_rfl⟩
    · rintro ⟨r, hr | rfl, hge, hle⟩
      · exact Or.inl ⟨r, Or.inl hr, hge, hle⟩
      · rcases Nat.lt_or_eq_of_le hle with hlt | heq
        · exact Or.inl ⟨(a, b), Or.inr rfl, hge, Nat.le_of_lt_succ hlt⟩
        · exact Or.inr heq

end Libnl.Runs
