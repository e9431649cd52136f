/-
Printing the VLANs of a bridge port (`dump_bitmap` of `lib/route/link/bridge.c`).

The function looks for the next bit of the bitmap, word by word. It remembers the first and the last number of the run it is
in; a number that does not continue the run ends it, and so does the end of the last word.

The invariant (`Scanned`): of the numbers below `n`, all runs but the last are printed, and the last is remembered. It does
not know where words end.

- `find_next_bit_cases`: the next bit of a word, or none is left.
- `hit_scanned`: what one number does. `word_scanned`: what a word does.
- `dump_bitmap_runs`: the text is the maximal runs of the bitmap.
-/
import Mathlib.Tactic
import Libnl.Core.Runs
import Libnl.Core.Numeral
import Libnl.Route.BridgeVlan

namespace Libnl.BridgeDump

open Bitmap BridgeVlan Numeral Runs

/-! ## The code -/

/-- `RTNL_LINK_BRIDGE_VLAN_BITMAP_LEN` -/
def BITMAP_LEN : ℕ := BITMAP_MAX / 32

/-- `__builtin_ffs`: the first bit that is set, counted from one -/
def ffs (x : BitVec 32) : ℤ :=
  match (List.range 32).find? fun b => x.getLsbD b with
  | some b => b + 1
  | none => 0

def findNextBit (i : ℤ) (x : BitVec 32) : ℤ :=
  if 32 ≤ i then -1
  -- find first bit
  else if i < 0 then ffs x
  else
    -- mask off prior finds to get next
    let j := ffs (x >>> i.toNat)
    if j ≠ 0 then j + i else 0

/-- the variables of `dump_bitmap` that outlive a word, and the text printed so far -/
structure DumpState where
  start : ℤ
  prev : ℤ
  found : ℕ
  text : List Char

/-- `%d` -/
def decimal (v : ℤ) : List Char := if v < 0 then '-' :: Nat.toDigits 10 v.natAbs else Nat.toDigits 10 v.toNat

/-- a run, as it is printed -/
def runText (start prev : ℤ) : List Char :=
  ' ' :: decimal start ++ (if start ≠ prev then '-' :: decimal prev else [])

/-- the rest of the loop body when the bit of the number `v` is set -/
def hit (s : DumpState) (v : ℤ) : DumpState :=
  -- first hit of any bit
  if s.start < 0 ∧ s.prev < 0 then { s with start := v, prev := v }
  -- this bit is a continuation of prior bits
  else if v - 1 = s.prev then { s with prev := s.prev + 1 }
  else if 0 ≤ s.start then ⟨v, v, s.found + 1, s.text ++ runText s.start s.prev⟩
  else { s with start := v, prev := v }

/-- the same when no bit of the word is left; the run is printed if the word is the last one -/
def wordDone (k : ℕ) (s : DumpState) : DumpState :=
  if 0 ≤ s.start then
    if k < BITMAP_LEN - 1 then { s with found := s.found + 1 }
    else { s with found := s.found + 1, text := s.text ++ runText s.start s.prev }
  else s

/-- the inner loop, if it ends within `n` rounds -/
def dumpWord (a : BitVec 32) (k : ℕ) : ℕ → ℤ → DumpState → Option DumpState
  | 0, _, _ => none
  | n + 1, i, s =>
    let j := findNextBit i a
    if 0 < j then dumpWord a k n j (hit s (j - 1 + 32 * k)) else some (wordDone k s)

/-- the outer loop -/
def dumpWords (b : Words) : Option DumpState :=
  (List.range BITMAP_LEN).foldlM (fun s k => dumpWord (b k) k 33 (-1) s) ⟨-1, -1, 0, []⟩

/-- `dump_bitmap`: the text it prints -/
def dumpBitmap (b : Words) : Option (List Char) :=
  (dumpWords b).map fun s => if s.found = 0 then s.text ++ " <none>".toList else s.text

/-! ## The next bit -/

theorem ffs_cases (x : BitVec 32) : (∃ b < 32, x.getLsbD b = true ∧ (∀ c < b, x.getLsbD c = false) ∧ ffs x = b + 1) ∨
    ((∀ b < 32, x.getLsbD b = false) ∧ ffs x = 0) := by
  cases hfind : (List.range 32).find? fun b => x.getLsbD b with
  | none =>
    right
    refine ⟨fun b hb => ?_, by rw [ffs, hfind]⟩
    simpa using List.find?_eq_none.1 hfind b (List.mem_range.2 hb)
  | some b =>
    left
    have hmem := List.mem_range.1 (List.mem_of_find?_eq_some hfind)
    have hset := List.find?_some hfind
    refine ⟨b, hmem, hset, fun c hc => ?_, by rw [ffs, hfind]⟩
    rw [List.find?_range_eq_some] at hfind
    simpa using hfind.2.2 c hc

/-- bits from `c` on: the first of them that is set, or none is -/
theorem find_next_bit_cases (x : BitVec 32) {i : ℤ} {c : ℕ} (hc : (i = -1 ∧ c = 0) ∨ (0 < i ∧ i = c ∧ c ≤ 32)) :
    (∃ b, c ≤ b ∧ b < 32 ∧ x.getLsbD b = true ∧ (∀ d, c ≤ d → d < b → x.getLsbD d = false) ∧ findNextBit i x = b + 1) ∨
    ((∀ d, c ≤ d → d < 32 → x.getLsbD d = false) ∧ findNextBit i x ≤ 0) := by
  rcases hc with ⟨rfl, rfl⟩ | ⟨hpos, rfl, hle⟩
  · have hfind : findNextBit (-1) x = ffs x := by simp [findNextBit]
    rw [hfind]
    rcases ffs_cases x with ⟨b, hb, hset, hclear, hffs⟩ | ⟨hclear, hffs⟩
    · exact Or.inl ⟨b, Nat.zero_le b, hb, hset, fun d _ hd => hclear d hd, hffs⟩
    · exact Or.inr ⟨fun d _ hd => hclear d hd, hffs.le⟩
  · rcases Nat.lt_or_eq_of_le hle with hlt | rfl
    · have hfind : findNextBit c x = if ffs (x >>> c) ≠ 0 then ffs (x >>> c) + c else 0 := by
        rw [findNextBit, if_neg (by omega), if_neg (by omega)]
        simp only [Int.toNat_natCast]
      rw [hfind]
      rcases ffs_cases (x >>> c) with ⟨b, hb, hset, hclear, hffs⟩ | ⟨hclear, hffs⟩
      · left
        rw [BitVec.getLsbD_ushiftRight] at hset
        refine ⟨c + b, Nat.le_add_right c b, BitVec.lt_of_getLsbD hset, hset, ?_, ?_⟩
        · intro d hcd hd
          have hbit := hclear (d - c) (by omega)
          rwa [BitVec.getLsbD_ushiftRight, Nat.add_sub_cancel' hcd] at hbit
        · rw [hffs, if_pos (by omega)]
          push_cast
          ring
      · right
        refine ⟨fun d hcd hd => ?_, by rw [hffs]; simp⟩
        have hbit := hclear (d - c) (by omega)
        rwa [BitVec.getLsbD_ushiftRight, Nat.add_sub_cancel' hcd] at hbit
    · exact Or.inr ⟨fun d hd hlt => absurd hlt (not_lt.2 hd), by simp [findNextBit]⟩

/-! ## What the scan keeps -/

/-- a list of runs, as it is printed -/
def runsText (rs : List (ℕ × ℕ)) : List Char := rs.flatMap fun r => runText r.1 r.2

/-- the numbers of the bitmap below `n` -/
def Below (w : Words) (n m : ℕ) : Prop := m < n ∧ has w m = true

/-- the numbers below `n` are seen -/
inductive Scanned (w : Words) (n : ℕ) (s : DumpState) : Prop where
  | nothing (start : s.start = -1) (prev : s.prev = -1) (found : s.found = 0) (text : s.text = [])
      (clear : ∀ m, ¬ Below w n m)
  | run (rs : List (ℕ × ℕ)) (a b : ℕ) (start : s.start = a) (prev : s.prev = b) (found : rs ≠ [] → s.found ≠ 0)
      (text : s.text = runsText rs) (splits : Splits (Below w n) (rs ++ [(a, b)]))

variable {w : Words} {n m : ℕ} {s : DumpState}

/-- numbers that are not in the bitmap -/
theorem below_skip (hle : n ≤ m) (hclear : ∀ d, n ≤ d → d < m → has w d = false) (d : ℕ) : Below w m d ↔ Below w n d := by
  constructor
  · rintro ⟨hd, hset⟩
    refine ⟨?_, hset⟩
    by_contra hge
    rw [hclear d (not_lt.1 hge) hd] at hset
    exact absurd hset Bool.false_ne_true
  · rintro ⟨hd, hset⟩
    exact ⟨hd.trans_le hle, hset⟩

theorem Scanned.skip (h : Scanned w n s) (hle : n ≤ m) (hclear : ∀ d, n ≤ d → d < m → has w d = false) :
    Scanned w m s := by
  cases h with
  | nothing start prev found text clear =>
    exact Scanned.nothing start prev found text fun d hd => clear d ((below_skip hle hclear d).1 hd)
  | run rs a b start prev found text splits =>
    exact Scanned.run rs a b start prev found text (splits.congr (below_skip hle hclear))

theorem below_succ (hset : has w n = true) (d : ℕ) : Below w (n + 1) d ↔ Below w n d ∨ d = n := by
  constructor
  · rintro ⟨hd, hd'⟩
    rcases Nat.lt_or_eq_of_le (Nat.le_of_lt_succ hd) with hlt | heq
    · exact Or.inl ⟨hlt, hd'⟩
    · exact Or.inr heq
  · rintro (⟨hd, hd'⟩ | rfl)
    · exact ⟨Nat.lt_succ_of_lt hd, hd'⟩
    · exact ⟨Nat.lt_succ_self d, hset⟩

theorem runsText_append (rs qs : List (ℕ × ℕ)) : runsText (rs ++ qs) = runsText rs ++ runsText qs := List.flatMap_append

theorem runsText_singleton (a b : ℕ) : runsText [(a, b)] = runText a b := List.append_nil _

/-- the first hit opens a run; later ones continue it, or end it and open the next -/
theorem hit_scanned (h : Scanned w n s) (hset : has w n = true) : Scanned w (n + 1) (hit s n) := by
  cases h with
  | nothing start prev found text clear =>
    have hhit : hit s n = { s with start := n, prev := n } := by rw [hit, if_pos ⟨by omega, by omega⟩]
    rw [hhit]
    have hsplit := (Splits.nil clear).push (m := n) (fun r hr => absurd hr List.not_mem_nil)
    exact Scanned.run [] n n rfl rfl (fun hne => absurd rfl hne) text (hsplit.congr (below_succ hset))
  | run rs a b start prev found text splits =>
    have hbn : b < n := splits.last.1
    by_cases hnext : (n : ℤ) - 1 = s.prev
    · have hhit : hit s n = { s with prev := s.prev + 1 } := by rw [hit, if_neg (by omega), if_pos hnext]
      have hbn : n = b + 1 := by omega
      rw [hhit]
      refine Scanned.run rs a (b + 1) start ?_ found text ?_
      · simp only [prev, Nat.cast_add, Nat.cast_one]
      · refine splits.extend.congr fun d => ?_
        rw [← hbn]
        exact below_succ hset d
    · have hhit : hit s n = ⟨n, n, s.found + 1, s.text ++ runText s.start s.prev⟩ := by
        rw [hit, if_neg (by omega), if_neg hnext, if_pos (by omega)]
      rw [hhit]
      refine Scanned.run (rs ++ [(a, b)]) n n rfl rfl (fun _ => Nat.succ_ne_zero _) ?_ ?_
      · rw [runsText_append, runsText_singleton, ← text, start, prev]
      · refine (splits.push fun r hr => ?_).congr (below_succ hset)
        have hlast := splits.le_last hr
        omega

/-- the run that is open at the end of a word is printed if it is the last word -/
inductive Stands (w : Words) (k : ℕ) (s : DumpState) : Prop where
  | between (more : k < BITMAP_LEN) (scanned : Scanned w (32 * k) s)
  | finished (last : k = BITMAP_LEN) (rs : List (ℕ × ℕ)) (text : s.text = runsText rs) (found : s.found = 0 ↔ rs = [])
      (splits : Splits (Below w BITMAP_MAX) rs)

theorem wordDone_stands {k : ℕ} (hk : k < BITMAP_LEN) (h : Scanned w (32 * (k + 1)) s) : Stands w (k + 1) (wordDone k s) := by
  have hmax : BITMAP_LEN = 128 := rfl
  cases h with
  | nothing start prev found text clear =>
    have hdone : wordDone k s = s := by rw [wordDone, if_neg (by omega)]
    rw [hdone]
    by_cases hlast : k + 1 = BITMAP_LEN
    · refine Stands.finished hlast [] text ⟨fun _ => rfl, fun _ => found⟩ (Splits.nil ?_)
      rw [hlast] at clear
      exact clear
    · exact Stands.between (by omega) (Scanned.nothing start prev found text clear)
  | run rs a b start prev found text splits =>
    by_cases hlast : k + 1 = BITMAP_LEN
    · have hdone : wordDone k s = { s with found := s.found + 1, text := s.text ++ runText s.start s.prev } := by
        rw [wordDone, if_pos (by omega), if_neg (by omega)]
      rw [hdone]
      rw [hlast] at splits
      refine Stands.finished hlast (rs ++ [(a, b)]) ?_ ?_ splits
      · rw [runsText_append, runsText_singleton, ← text, start, prev]
      · simp
    · have hdone : wordDone k s = { s with found := s.found + 1 } := by
        rw [wordDone, if_pos (by omega), if_pos (by omega)]
      rw [hdone]
      exact Stands.between (by omega) (Scanned.run rs a b start prev (fun _ => Nat.succ_ne_zero _) text splits)

/-- the bit of a number, in its word -/
theorem has_word (w : Words) (k : ℕ) {b : ℕ} (hb : b < 32) : has w (32 * k + b) = (w k).getLsbD b := by
  have hdiv : (32 * k + b) / 32 = k := by omega
  have hmod : (32 * k + b) % 32 = b := by omega
  rw [has, hdiv, hmod]

/-- numbers whose bits are not set -/
theorem clear_word {k c d : ℕ} (hd : d ≤ 32) (hclear : ∀ e, c ≤ e → e < d → (w k).getLsbD e = false) (v : ℕ)
    (hge : 32 * k + c ≤ v) (hlt : v < 32 * k + d) : has w v = false := by
  have hv : v = 32 * k + (v - 32 * k) := by omega
  rw [hv, has_word w k (by omega)]
  exact hclear _ (by omega) (by omega)

/-- the inner loop ends: every round but the last finds a bit behind those seen -/
theorem word_stands {k : ℕ} (hk : k < BITMAP_LEN) (fuel : ℕ) {i : ℤ} {c : ℕ}
    (hc : (i = -1 ∧ c = 0) ∨ (0 < i ∧ i = c ∧ c ≤ 32)) (hfuel : 32 < fuel + c) (h : Scanned w (32 * k + c) s) :
    ∃ s', dumpWord (w k) k fuel i s = some s' ∧ Stands w (k + 1) s' := by
  induction fuel generalizing i c s with
  | zero => omega
  | succ fuel ih =>
    rcases find_next_bit_cases (w k) hc with ⟨b, hcb, hb, hset, hclear, hnext⟩ | ⟨hclear, hnext⟩
    · have hpos : 0 < findNextBit i (w k) := by omega
      have hbit : findNextBit i (w k) - 1 + 32 * k = (32 * k + b : ℕ) := by
        rw [hnext]
        push_cast
        ring
      have hseen : Scanned w (32 * k + b) s := h.skip (by omega) (clear_word hb.le hclear)
      have hhit := hit_scanned hseen (by rw [has_word w k hb, hset])
      obtain ⟨s', hloop, hs'⟩ := ih (i := findNextBit i (w k)) (c := b + 1) (Or.inr ⟨hpos, by rw [hnext]; push_cast; ring, hb⟩)
        (by omega) hhit
      refine ⟨s', ?_, hs'⟩
      rw [dumpWord]
      simp only [if_pos hpos, hbit]
      exact hloop
    · refine ⟨wordDone k s, ?_, wordDone_stands hk (h.skip ?_ (clear_word le_rfl hclear))⟩
      · rw [dumpWord]
        exact if_neg (by omega)
      · rcases hc with ⟨-, rfl⟩ | ⟨-, -, hle⟩
        · omega
        · omega

/-- **Runs.** The scan comes to the end of the bitmap. -/
theorem words_stand {s : DumpState} (n k : ℕ) (hk : k + n = BITMAP_LEN) (h : Stands w k s) :
    ∃ s', (List.range' k n).foldlM (fun s k => dumpWord (w k) k 33 (-1) s) s = some s' ∧ Stands w BITMAP_LEN s' := by
  induction n generalizing k s with
  | zero =>
    rw [Nat.add_zero] at hk
    exact ⟨s, rfl, hk ▸ h⟩
  | succ n ih =>
    cases h with
    | between more scanned =>
      obtain ⟨s1, hword, h1⟩ := word_stands more 33 (i := -1) (c := 0) (Or.inl ⟨rfl, rfl⟩) (by decide) scanned
      obtain ⟨s', hrest, hs'⟩ := ih (k + 1) (by omega) h1
      refine ⟨s', ?_, hs'⟩
      rw [List.range'_succ, List.foldlM_cons, hword]
      exact hrest
    | finished last => omega

/-! ## The text -/

/-- the text of a list of runs -/
def bitmapText (rs : List (ℕ × ℕ)) : List Char := if rs = [] then " <none>".toList else runsText rs

/-- the text of a run starts with a blank and a digit -/
theorem runText_head (a b : ℕ) : ∃ c ds, runText a b = ' ' :: c :: ds ∧ c.isDigit = true := by
  obtain ⟨c, ds, hdigits, hdigit, -⟩ := toDigits_head a
  refine ⟨c, ds ++ (if (a : ℤ) ≠ b then '-' :: decimal b else []), ?_, hdigit⟩
  rw [runText, decimal, if_neg (by omega), Int.toNat_natCast, hdigits]
  rfl

theorem bitmapText_none_iff (rs : List (ℕ × ℕ)) : bitmapText rs = " <none>".toList ↔ rs = [] := by
  constructor
  · intro htext
    by_contra hne
    obtain ⟨⟨a, b⟩, qs, rfl⟩ := List.exists_cons_of_ne_nil hne
    obtain ⟨c, ds, hrun, hdigit⟩ := runText_head a b
    rw [bitmapText, if_neg hne, runsText, List.flatMap_cons, hrun] at htext
    have hc : c = '<' := by
      have hsecond := congrArg (fun t => t[1]?) htext
      simpa using hsecond
    rw [hc] at hdigit
    exact absurd hdigit (by decide)
  · rintro rfl
    rfl

/-- **Bitmap printing.** Whatever the bitmap, `dump_bitmap` ends, and prints its maximal runs from below, each number of the
bitmap in exactly one of them and no other number in any; it prints that there is none if the bitmap is empty, and only
then. -/
theorem dump_bitmap_runs (w : Words) : ∃ rs, MaximalRuns (fun n => n < BITMAP_MAX ∧ has w n = true) rs ∧
    dumpBitmap w = some (bitmapText rs) ∧
    (∀ n < BITMAP_MAX, (has w n = true → ∃! r, r ∈ rs ∧ Covers r n) ∧ (has w n = false → ∀ r ∈ rs, ¬ Covers r n)) ∧
    (dumpBitmap w = some " <none>".toList ↔ ∀ n < BITMAP_MAX, has w n = false) := by
  have hstart : Stands w 0 ⟨-1, -1, 0, []⟩ := by
    refine Stands.between (by decide) (Scanned.nothing rfl rfl rfl rfl fun m hm => ?_)
    exact absurd hm.1 (Nat.not_lt_zero m)
  obtain ⟨s, hloop, hs⟩ := words_stand BITMAP_LEN 0 (Nat.zero_add _) hstart
  rw [← List.range_eq_range'] at hloop
  cases hs with
  | between more => exact absurd more (lt_irrefl _)
  | finished _ rs text found splits =>
    have hprint : dumpBitmap w = some (bitmapText rs) := by
      rw [dumpBitmap, dumpWords, hloop, Option.map_some, bitmapText, text]
      by_cases hnil : rs = []
      · rw [if_pos (found.2 hnil), if_pos hnil, hnil]
        rfl
      · rw [if_neg fun h0 => hnil (found.1 h0), if_neg hnil]
    refine ⟨rs, splits.maximalRuns, hprint, fun n hn => ⟨fun hset => ?_, fun hclear => ?_⟩, ?_⟩
    · exact (splits.once n).1 ⟨hn, hset⟩
    · exact (splits.once n).2 fun hset => Bool.eq_false_iff.1 hclear hset.2
    · rw [hprint, Option.some_inj, bitmapText_none_iff, splits.nil_iff]
      constructor
      · intro hnone n hn
        exact Bool.eq_false_of_not_eq_true fun hset => hnone n ⟨hn, hset⟩
      · rintro hclear n ⟨hn, hset⟩
        rw [hclear n hn] at hset
        exact absurd hset Bool.false_ne_true

end Libnl.BridgeDump
