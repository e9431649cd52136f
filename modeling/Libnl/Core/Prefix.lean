/-
Runs, seen prefix by prefix.

A run is the list of what happened. A property of runs that starts out true, and of which one more event decides whether
it goes on, holds all along exactly when every event was of the right kind.

- `all_prefixes_iff`: the rule. `each_iff_mem`: when what came before does not matter.
- `all_prefixes_iff_inv`: the same with an invariant that says more than the property, in runs whose events may be
  restricted.
-/
import Mathlib.Tactic

namespace Libnl.Prefix

variable {α : Type*}

/-- **Prefix rule.** A property that holds of every prefix, told by its steps. -/
theorem all_prefixes_iff {P : List α → Prop} {Q : List α → α → Prop} (h0 : P [])
    (hstep : ∀ as a, P as → (P (as ++ [a]) ↔ Q as a)) (l : List α) :
    (∀ as, as <+: l → P as) ↔ ∀ as a, as ++ [a] <+: l → Q as a := by
  constructor
  · intro h as a hpre
    have has : as <+: l := (List.prefix_append as [a]).trans hpre
    exact (hstep as a (h as has)).1 (h (as ++ [a]) hpre)
  · intro h as
    -- by induction on the prefix, from its end
    induction as using List.reverseRecOn with
    | nil => exact fun _ => h0
    | append_singleton as a ih =>
      intro hpre
      have has : as <+: l := (List.prefix_append as [a]).trans hpre
      exact (hstep as a (ih has)).2 (h as a hpre)

/-- what is said of each event of an empty run -/
theorem each_nil (Q : List α → α → Prop) : ∀ as a, as ++ [a] <+: [] → Q as a := by
  intro as a h
  simp at h

/-- what is said of each event, event by event -/
theorem each_cons {Q : List α → α → Prop} {b : α} {l : List α} (hb : Q [] b)
    (h : ∀ as a, as ++ [a] <+: l → Q (b :: as) a) : ∀ as a, as ++ [a] <+: b :: l → Q as a := by
  intro as a hpre
  cases as with
  | nil =>
    obtain ⟨rfl, -⟩ := List.cons_prefix_cons.1 hpre
    exact hb
  | cons c as =>
    obtain ⟨rfl, hrest⟩ := List.cons_prefix_cons.1 hpre
    exact h as a hrest

/-- what is said of each event whatever came before it -/
theorem each_iff_mem {Q : α → Prop} {l : List α} : (∀ as a, as ++ [a] <+: l → Q a) ↔ ∀ a ∈ l, Q a := by
  constructor
  · intro h a ha
    obtain ⟨as, bs, rfl⟩ := List.append_of_mem ha
    refine h as a ⟨bs, ?_⟩
    rw [List.append_assoc, List.singleton_append]
  · intro h as a hpre
    exact h a (hpre.subset (List.mem_append_right as List.mem_cons_self))

/-- **Prefix rule with an invariant.** Right events keep the invariant, which gives the property; the first wrong one ends
the property. -/
theorem all_prefixes_iff_inv {I P : List α → Prop} {Q : List α → α → Prop} (l : List α) (h0 : I [])
    (hP : ∀ as, as <+: l → I as → P as) (keep : ∀ as a, as ++ [a] <+: l → I as → Q as a → I (as ++ [a]))
    (lose : ∀ as a, as ++ [a] <+: l → I as → ¬ Q as a → ¬ P (as ++ [a])) :
    (∀ as, as <+: l → P as) ↔ ∀ as a, as ++ [a] <+: l → Q as a := by
  constructor
  · intro hall
    have hI : ∀ as, as <+: l → I as := by
      intro as
      induction as using List.reverseRecOn with
      | nil => exact fun _ => h0
      | append_singleton as a ih =>
        intro hpre
        have hI := ih ((List.prefix_append as [a]).trans hpre)
        have hQ : Q as a := by
          by_contra hnot
          exact lose as a hpre hI hnot (hall _ hpre)
        exact keep as a hpre hI hQ
    intro as a hpre
    by_contra hnot
    exact lose as a hpre (hI as ((List.prefix_append as [a]).trans hpre)) hnot (hall _ hpre)
  · intro hall as hpre
    refine hP as hpre ?_
    induction as using List.reverseRecOn with
    | nil => exact h0
    | append_singleton as a ih =>
      exact keep as a hpre (ih ((List.prefix_append as [a]).trans hpre)) (hall as a hpre)

end Libnl.Prefix
