/-
Comparisons that answer with the sign of an integer, as C's do.

- `TotalOn`: on a set, the answer is zero for what agrees and for nothing else, it changes its sign with the order of the
  two, and it is transitive.
- `totalOn_andThen_iff`: one comparison after another, which is asked where the first finds no difference.
- `totalOn_toInt32_iff`: the difference of two numbers, converted to `int`. It goes round like the hand of a clock, so it
  orders numbers that do not go all the way round, and nothing else.
-/
import Mathlib.Tactic
import Libnl.Core.Bytes

namespace Libnl.Compare

open Bytes

/-! ## Total orders up to agreement -/

section
variable {α κ : Type}

/-- on this set, `cmp` is a total order up to `agree` -/
structure TotalOn (cmp : α → α → ℤ) (agree : α → α → Prop) (s : Set α) : Prop where
  zero : ∀ a ∈ s, ∀ b ∈ s, (cmp a b = 0 ↔ agree a b)
  flip : ∀ a ∈ s, ∀ b ∈ s, (cmp a b).sign = -(cmp b a).sign
  trans : ∀ a ∈ s, ∀ b ∈ s, ∀ c ∈ s, cmp a b ≤ 0 → cmp b c ≤ 0 → cmp a c ≤ 0

/-- the first comparison, and the second where it finds no difference -/
def andThen (d cmp : α → α → ℤ) (a b : α) : ℤ := if d a b = 0 then cmp a b else d a b

theorem andThen_eq_zero_iff {d cmp : α → α → ℤ} {a b : α} : andThen d cmp a b = 0 ↔ d a b = 0 ∧ cmp a b = 0 := by
  unfold andThen
  by_cases h : d a b = 0
  · rw [if_pos h]
    exact (and_iff_right h).symm
  · rw [if_neg h]
    exact ⟨fun h0 => absurd h0 h, fun h0 => absurd h0.1 h⟩

theorem TotalOn.congr {cmp cmp' : α → α → ℤ} {agree agree' : α → α → Prop} {s : Set α} (h : TotalOn cmp agree s)
    (hcmp : ∀ a ∈ s, ∀ b ∈ s, cmp' a b = cmp a b) (hagree : ∀ a ∈ s, ∀ b ∈ s, (agree' a b ↔ agree a b)) :
    TotalOn cmp' agree' s where
  zero a ha b hb := by rw [hcmp a ha b hb, hagree a ha b hb]; exact h.zero a ha b hb
  flip a ha b hb := by rw [hcmp a ha b hb, hcmp b hb a ha]; exact h.flip a ha b hb
  trans a ha b hb c hc := by
    rw [hcmp a ha b hb, hcmp b hb c hc, hcmp a ha c hc]
    exact h.trans a ha b hb c hc

theorem totalOn_congr {cmp cmp' : α → α → ℤ} {agree agree' : α → α → Prop} {s : Set α}
    (hcmp : ∀ a ∈ s, ∀ b ∈ s, cmp' a b = cmp a b) (hagree : ∀ a ∈ s, ∀ b ∈ s, (agree' a b ↔ agree a b)) :
    TotalOn cmp' agree' s ↔ TotalOn cmp agree s :=
  ⟨fun h => h.congr (fun a ha b hb => (hcmp a ha b hb).symm) fun a ha b hb => (hagree a ha b hb).symm,
    fun h => h.congr hcmp hagree⟩

/-- what `cmp` finds to be at most, and not the same, comes strictly before -/
theorem TotalOn.neg {cmp : α → α → ℤ} {agree : α → α → Prop} {s : Set α} (h : TotalOn cmp agree s) {a b : α} (ha : a ∈ s)
    (hb : b ∈ s) : cmp a b < 0 ↔ 0 < cmp b a := by
  have hflip := h.flip a ha b hb
  rw [← Int.sign_eq_neg_one_iff_neg, ← Int.sign_eq_one_iff_pos, hflip]
  omega

section
variable {k : α → κ} {d : κ → κ → ℤ} {cmp : α → α → ℤ} {agree : α → α → Prop} {s : Set α}
  (hzero : ∀ a ∈ s, ∀ b ∈ s, (d (k a) (k b) = 0 ↔ k a = k b))
include hzero

/-- the first comparison of a total one is total, and the second is among those it cannot tell apart -/
theorem TotalOn.split (h : TotalOn (andThen (fun a b => d (k a) (k b)) cmp) (fun a b => k a = k b ∧ agree a b) s) :
    TotalOn (fun a b => d (k a) (k b)) (fun a b => k a = k b) s ∧
      ∀ x ∈ s, TotalOn cmp agree {y ∈ s | k x = k y} := by
  have heq : ∀ a ∈ s, ∀ b ∈ s, k a = k b → andThen (fun a b => d (k a) (k b)) cmp a b = cmp a b :=
    fun a ha b hb hk => if_pos ((hzero a ha b hb).2 hk)
  have hne : ∀ a ∈ s, ∀ b ∈ s, k a ≠ k b → andThen (fun a b => d (k a) (k b)) cmp a b = d (k a) (k b) :=
    fun a ha b hb hk => if_neg (mt (hzero a ha b hb).1 hk)
  refine ⟨⟨hzero, ?_, ?_⟩, ?_⟩
  · intro a ha b hb
    by_cases hk : k a = k b
    · rw [(hzero a ha b hb).2 hk, (hzero b hb a ha).2 hk.symm]
      rfl
    · have hflip := h.flip a ha b hb
      rwa [hne a ha b hb hk, hne b hb a ha (Ne.symm hk)] at hflip
  · intro a ha b hb c hc hab hbc
    by_cases hac : k a = k c
    · exact le_of_eq ((hzero a ha c hc).2 hac)
    by_cases hk : k a = k b
    · rwa [hk]
    by_cases hk' : k b = k c
    · rwa [← hk']
    have htrans := h.trans a ha b hb c hc
    rw [hne a ha b hb hk, hne b hb c hc hk', hne a ha c hc hac] at htrans
    exact htrans hab hbc
  · intro x hx
    refine ⟨?_, ?_, ?_⟩
    · rintro a ⟨ha, hxa⟩ b ⟨hb, hxb⟩
      have hz := h.zero a ha b hb
      rw [heq a ha b hb (hxa.symm.trans hxb)] at hz
      exact hz.trans (and_iff_right (hxa.symm.trans hxb))
    · rintro a ⟨ha, hxa⟩ b ⟨hb, hxb⟩
      have hflip := h.flip a ha b hb
      rwa [heq a ha b hb (hxa.symm.trans hxb), heq b hb a ha (hxb.symm.trans hxa)] at hflip
    · rintro a ⟨ha, hxa⟩ b ⟨hb, hxb⟩ c ⟨hc, hxc⟩
      have htrans := h.trans a ha b hb c hc
      rwa [heq a ha b hb (hxa.symm.trans hxb), heq b hb c hc (hxb.symm.trans hxc),
        heq a ha c hc (hxa.symm.trans hxc)] at htrans

/-- two total comparisons, one after the other -/
theorem TotalOn.andThen (h : TotalOn (fun a b => d (k a) (k b)) (fun a b => k a = k b) s)
    (hrest : ∀ x ∈ s, TotalOn cmp agree {y ∈ s | k x = k y}) :
    TotalOn (andThen (fun a b => d (k a) (k b)) cmp) (fun a b => k a = k b ∧ agree a b) s := by
  have heq : ∀ a ∈ s, ∀ b ∈ s, k a = k b → Compare.andThen (fun a b => d (k a) (k b)) cmp a b = cmp a b :=
    fun a ha b hb hk => if_pos ((hzero a ha b hb).2 hk)
  have hne : ∀ a ∈ s, ∀ b ∈ s, k a ≠ k b → Compare.andThen (fun a b => d (k a) (k b)) cmp a b = d (k a) (k b) :=
    fun a ha b hb hk => if_neg (mt (hzero a ha b hb).1 hk)
  refine ⟨?_, ?_, ?_⟩
  · intro a ha b hb
    by_cases hk : k a = k b
    · rw [heq a ha b hb hk, (hrest a ha).zero a ⟨ha, rfl⟩ b ⟨hb, hk⟩]
      exact (and_iff_right hk).symm
    · rw [hne a ha b hb hk, hzero a ha b hb]
      exact ⟨fun h => absurd h hk, fun h => absurd h.1 hk⟩
  · intro a ha b hb
    by_cases hk : k a = k b
    · rw [heq a ha b hb hk, heq b hb a ha hk.symm]
      exact (hrest a ha).flip a ⟨ha, rfl⟩ b ⟨hb, hk⟩
    · rw [hne a ha b hb hk, hne b hb a ha (Ne.symm hk)]
      exact h.flip a ha b hb
  · intro a ha b hb c hc hab hbc
    by_cases hk : k a = k b
    · by_cases hk' : k b = k c
      · rw [heq a ha b hb hk] at hab
        rw [heq b hb c hc hk'] at hbc
        rw [heq a ha c hc (hk.trans hk')]
        exact (hrest a ha).trans a ⟨ha, rfl⟩ b ⟨hb, hk⟩ c ⟨hc, hk.trans hk'⟩ hab hbc
      · rw [hne b hb c hc hk'] at hbc
        rw [hne a ha c hc (by rwa [hk]), hk]
        exact hbc
    · rw [hne a ha b hb hk] at hab
      by_cases hk' : k b = k c
      · rw [hne a ha c hc (by rwa [← hk']), ← hk']
        exact hab
      · rw [hne b hb c hc hk'] at hbc
        have hac := h.trans a ha b hb c hc hab hbc
        -- there and back again would make the two the same
        have hdiff : k a ≠ k c := by
          intro hac
          have hlt : d (k a) (k b) < 0 := lt_of_le_of_ne hab (mt (hzero a ha b hb).1 hk)
          have hgt := (h.neg ha hb).1 hlt
          rw [← hac] at hbc
          omega
        rw [hne a ha c hc hdiff]
        exact hac

/-- **One comparison after another** is total on a set exactly when the first is, and the second is on each class of
those that the first cannot tell apart. -/
theorem totalOn_andThen_iff :
    TotalOn (Compare.andThen (fun a b => d (k a) (k b)) cmp) (fun a b => k a = k b ∧ agree a b) s ↔
      TotalOn (fun a b => d (k a) (k b)) (fun a b => k a = k b) s ∧
        ∀ x ∈ s, TotalOn cmp agree {y ∈ s | k x = k y} :=
  ⟨TotalOn.split hzero, fun h => TotalOn.andThen hzero h.1 h.2⟩

end
end

/-! ## Differences as `int` -/

/-- the clock does not confuse the three: no two are opposite, and two short ways up are a short way up together -/
def Near (x y z : ℤ) : Prop :=
  x - y ≠ 2147483648 ∧ (x < y → y < z → y - x < 2147483648 → z - y < 2147483648 → z - x < 2147483648)

instance (x y z : ℤ) : Decidable (Near x y z) := inferInstanceAs (Decidable (_ ∧ _))

section
variable {α : Type} {k : α → ℤ} {s : Set α}

theorem toInt32_sub_eq_zero {x y : ℤ} (h : x - y < 4294967296) (h' : y - x < 4294967296) : toInt32 (x - y) = 0 ↔ x = y := by
  unfold toInt32
  split_ifs <;> omega

/-- where the hand stands after the difference of two machine words -/
theorem toInt32_nonpos_iff {d : ℤ} (h : -4294967296 < d) (h' : d < 4294967296) :
    toInt32 d ≤ 0 ↔ -2147483648 ≤ d ∧ d ≤ 0 ∨ 2147483648 ≤ d := by
  unfold toInt32
  split_ifs <;> omega

section
variable (hrange : ∀ a ∈ s, ∀ b ∈ s, k a - k b < 4294967296)
include hrange

/-- opposite numbers are each below the other, and on a long way the first and the last are the wrong way round -/
theorem TotalOn.near (h : TotalOn (fun a b => toInt32 (k a - k b)) (fun a b => k a = k b) s) {a b c : α} (ha : a ∈ s)
    (hb : b ∈ s) (hc : c ∈ s) : Near (k a) (k b) (k c) := by
  refine ⟨?_, ?_⟩
  · intro hopp
    have hflip := h.flip a ha b hb
    rw [hopp, show k b - k a = -2147483648 by omega] at hflip
    exact absurd hflip (by decide)
  · intro hab hbc hshort hshort'
    have htrans := h.trans a ha b hb c hc
    have hr := hrange c hc a ha
    have hopp := h.flip a ha c hc
    rw [toInt32_of_mem (by omega) (by omega), toInt32_of_mem (by omega) (by omega)] at htrans
    have hle := htrans (by omega) (by omega)
    by_contra hlong
    unfold toInt32 at hle
    rcases eq_or_ne (k c - k a) 2147483648 with heq | hne
    · rw [heq, show k a - k c = -2147483648 by omega] at hopp
      exact absurd hopp (by decide)
    · split_ifs at hle <;> omega

variable (h : ∀ a ∈ s, ∀ b ∈ s, ∀ c ∈ s, Near (k a) (k b) (k c))
include h

theorem flip_of_near {a b : α} (ha : a ∈ s) (hb : b ∈ s) :
    (toInt32 (k a - k b)).sign = -(toInt32 (k b - k a)).sign := by
  have h1 := hrange a ha b hb
  have h2 := hrange b hb a ha
  have h3 := (h a ha b hb b hb).1
  have h4 := (h b hb a ha a ha).1
  have hle := toInt32_nonpos_iff (d := k a - k b) (by omega) h1
  have hge := toInt32_nonpos_iff (d := k b - k a) (by omega) h2
  have hz := toInt32_sub_eq_zero h1 h2
  have hz' := toInt32_sub_eq_zero h2 h1
  rcases lt_trichotomy (toInt32 (k a - k b)) 0 with hneg | hzero | hpos
  · rw [Int.sign_eq_neg_one_of_neg hneg, Int.sign_eq_one_of_pos (by omega)]
  · rw [hzero, hz'.2 (hz.1 hzero).symm]
    rfl
  · rw [Int.sign_eq_one_of_pos hpos, Int.sign_eq_neg_one_of_neg (by omega)]
    rfl

theorem trans_of_near {a b c : α} (ha : a ∈ s) (hb : b ∈ s) (hc : c ∈ s) (hle : toInt32 (k a - k b) ≤ 0)
    (hle' : toInt32 (k b - k c) ≤ 0) : toInt32 (k a - k c) ≤ 0 := by
  have hab := hrange a ha b hb
  have hba := hrange b hb a ha
  have hbc := hrange b hb c hc
  have hcb := hrange c hc b hb
  have hac := hrange a ha c hc
  have hca := hrange c hc a ha
  rw [toInt32_nonpos_iff (by omega) hab] at hle
  rw [toInt32_nonpos_iff (by omega) hbc] at hle'
  rw [toInt32_nonpos_iff (by omega) hac]
  rcases hle with ⟨hlo, hup⟩ | hopp
  · rcases hle' with ⟨hlo', hup'⟩ | hopp'
    -- up and up again
    · have hnear := h a ha b hb c hc
      have hne := (h b hb a ha c hc).1
      have hne' := (h c hc b hb a ha).1
      unfold Near at hnear
      omega
    -- the third is below both, the long way
    · have hnear := h c hc a ha b hb
      have hne := (h b hb a ha c hc).1
      unfold Near at hnear
      omega
  · rcases hle' with ⟨hlo', hup'⟩ | hopp'
    -- the second is below both, the long way
    · have hnear := h b hb c hc a ha
      have hne := (h c hc b hb a ha).1
      unfold Near at hnear
      omega
    · omega

end

/-- **The difference as `int`** orders numbers in the range of a machine word exactly when any three of them are near. -/
theorem totalOn_toInt32_iff (hrange : ∀ a ∈ s, ∀ b ∈ s, k a - k b < 4294967296) :
    TotalOn (fun a b => toInt32 (k a - k b)) (fun a b => k a = k b) s ↔
      ∀ a ∈ s, ∀ b ∈ s, ∀ c ∈ s, Near (k a) (k b) (k c) := by
  constructor
  · intro h a ha b hb c hc
    exact h.near hrange ha hb hc
  · intro h
    refine ⟨?_, ?_, ?_⟩
    · intro a ha b hb
      exact toInt32_sub_eq_zero (hrange a ha b hb) (hrange b hb a ha)
    · intro a ha b hb
      exact flip_of_near hrange h ha hb
    · intro a ha b hb c hc
      exact trans_of_near hrange h ha hb hc

end

end Libnl.Compare
