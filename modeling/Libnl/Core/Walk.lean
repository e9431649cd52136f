/-
Walking a stream of length-prefixed, four-byte-aligned records.

A walk keeps a position and a signed count of bytes that remain. It goes on while `ok pos rem` holds and moves on with
`next pos rem`. `visits` lists the positions it stops at; `forEach` runs a loop body at each of them, with an early exit.
Both take the number of iterations they may use and give `none` when it is not enough, so that termination is a theorem
and not a property of the definition.

- `forEach_eq_foldlM`: a loop over the stream is a fold over the visited positions.
- `RecordStream`: what `ok` and `next` have to do with the length recorded at a position.
- `RecordStream.walk`: for every position and every count the walk ends, and what it visits satisfies `Laws`: inside the
  buffer, aligned, in increasing order and disjoint.
-/
import Mathlib.Tactic
import Libnl.Core.Bytes

namespace Libnl.Walk

open Bytes

section
variable {σ ρ : Type} (ok : ℕ → ℤ → Bool) (next : ℕ → ℤ → ℕ × ℤ)

/-- the positions a walk visits, if it ends within `n` iterations -/
def visits : ℕ → ℕ → ℤ → Option (List ℕ)
  | 0, _, _ => none
  | n + 1, pos, rem =>
    if ok pos rem then (visits n (next pos rem).1 (next pos rem).2).map (pos :: ·) else some []

/-- run `body` at every visited position; an `error` leaves the loop at once -/
def forEach (body : σ → ℕ → Except ρ σ) : ℕ → σ → ℕ → ℤ → Option (Except ρ σ)
  | 0, _, _, _ => none
  | n + 1, s, pos, rem =>
    if ok pos rem then
      match body s pos with
      | .error r => some (.error r)
      | .ok s' => forEach body n s' (next pos rem).1 (next pos rem).2
    else some (.ok s)

/-- **A loop is a fold over what the walk visits.** -/
theorem forEach_eq_foldlM (body : σ → ℕ → Except ρ σ) (n : ℕ) (s : σ) (pos : ℕ) (rem : ℤ) (offs : List ℕ)
    (h : visits ok next n pos rem = some offs) : forEach ok next body n s pos rem = some (offs.foldlM body s) := by
  induction n generalizing s pos rem offs with
  | zero => simp [visits] at h
  | succ n ih =>
    simp only [visits] at h
    simp only [forEach]
    split_ifs at h ⊢ with hok
    · obtain ⟨tl, htl, rfl⟩ := Option.map_eq_some_iff.1 h
      rw [List.foldlM_cons]
      cases hb : body s pos with
      | error r => rfl
      | ok s' => exact ih s' _ _ tl htl
    · cases h; rfl

end

/-- a record occupies `len pos` bytes, at least `hdr`; `next` moves by the aligned length, or leaves the stream -/
structure RecordStream (ok : ℕ → ℤ → Bool) (next : ℕ → ℤ → ℕ × ℤ) (hdr : ℕ) (len : ℕ → ℕ) : Prop where
  hdr_pos : 0 < hdr
  ok_iff : ∀ pos rem, rem < 2147483648 →
    (ok pos rem = true ↔ (hdr : ℤ) ≤ rem ∧ hdr ≤ len pos ∧ (len pos : ℤ) ≤ rem)
  next_eq : ∀ pos rem, rem < 2147483648 → ok pos rem = true →
    next pos rem = (pos + align4 (len pos), rem - (align4 (len pos) : ℕ)) ∨ (next pos rem).2 < hdr

/-- what is visited in the `rem` bytes from `head` on -/
structure Laws (hdr : ℕ) (len : ℕ → ℕ) (head : ℕ) (rem : ℤ) (offs : List ℕ) : Prop where
  inside : ∀ o ∈ offs, head ≤ o ∧ hdr ≤ len o ∧ ((o + len o : ℕ) : ℤ) ≤ head + rem
  aligned : ∀ o ∈ offs, (o - head) % 4 = 0
  ordered : offs.Pairwise fun a b => a + len a ≤ b

theorem Laws.nil (hdr : ℕ) (len : ℕ → ℕ) (head : ℕ) (rem : ℤ) : Laws hdr len head rem [] :=
  ⟨by simp, by simp, List.Pairwise.nil⟩

/-- the laws of the rest of the stream and of its first record -/
theorem Laws.cons {hdr : ℕ} {len : ℕ → ℕ} {head : ℕ} {rem : ℤ} {offs : List ℕ} (hdrlen : hdr ≤ len head)
    (hrem : (len head : ℤ) ≤ rem) (h : Laws hdr len (head + align4 (len head)) (rem - (align4 (len head) : ℕ)) offs) :
    Laws hdr len head rem (head :: offs) := by
  have hge := le_align4 (len head)
  have hmod := align4_mod (len head)
  refine ⟨fun o ho => ?_, fun o ho => ?_, List.pairwise_cons.2 ⟨fun o ho => ?_, h.ordered⟩⟩
  · rcases List.mem_cons.1 ho with rfl | ho
    · exact ⟨le_rfl, hdrlen, by push_cast; omega⟩
    · obtain ⟨h1, h2, h3⟩ := h.inside o ho
      exact ⟨by omega, h2, by push_cast at h3 ⊢; omega⟩
  · rcases List.mem_cons.1 ho with rfl | ho
    · simp
    · have h1 := (h.inside o ho).1
      have h2 := h.aligned o ho
      omega
  · have h1 := (h.inside o ho).1
    omega

/-- **The walk ends and obeys the laws**, for every position and every count. -/
theorem RecordStream.walk {ok : ℕ → ℤ → Bool} {next : ℕ → ℤ → ℕ × ℤ} {hdr : ℕ} {len : ℕ → ℕ}
    (h : RecordStream ok next hdr len) (pos : ℕ) (rem : ℤ) (hrem : rem < 2147483648) :
    ∃ offs, (∀ n, rem.toNat < n → visits ok next n pos rem = some offs) ∧ Laws hdr len pos rem offs := by
  have hstop : ∀ p r, r < (hdr : ℤ) → r < 2147483648 → ok p r = false := by
    intro p r hr hr'
    rw [Bool.eq_false_iff, ne_eq, h.ok_iff p r hr']
    omega
  -- the count falls by at least the header size while the walk goes on
  induction hk : rem.toNat using Nat.strong_induction_on generalizing pos rem with
  | _ k ih =>
    cases hok : ok pos rem with
    | false =>
      refine ⟨[], fun n hn => ?_, Laws.nil _ _ _ _⟩
      obtain ⟨n, rfl⟩ : ∃ m, n = m + 1 := ⟨n - 1, by omega⟩
      simp [visits, hok]
    | true =>
      obtain ⟨h1, h2, h3⟩ := (h.ok_iff pos rem hrem).1 hok
      have hpos := h.hdr_pos
      have hge := le_align4 (len pos)
      rcases h.next_eq pos rem hrem hok with hn | hn
      · obtain ⟨offs, hv, hl⟩ := ih (rem - (align4 (len pos) : ℕ)).toNat (by omega) (pos + align4 (len pos))
          (rem - (align4 (len pos) : ℕ)) (by omega) rfl
        refine ⟨pos :: offs, fun n hlt => ?_, Laws.cons h2 h3 hl⟩
        obtain ⟨n, rfl⟩ : ∃ m, n = m + 1 := ⟨n - 1, by omega⟩
        simp only [visits, hok, if_true, hn, hv n (by omega), Option.map_some]
      · refine ⟨[pos], fun n hlt => ?_, ⟨?_, ?_, List.pairwise_singleton _ _⟩⟩
        · obtain ⟨n, rfl⟩ : ∃ m, n = m + 2 := ⟨n - 2, by omega⟩
          simp [visits, hok, hstop _ _ hn (by omega)]
        · simp only [List.mem_singleton, forall_eq]
          exact ⟨le_rfl, h2, by push_cast; omega⟩
        · simp
end Libnl.Walk
