/-
Hash tables of lists that are searched with a match of their own.

The bucket is chosen by a hash of the key, and in it the first element whose key matches is taken. Where keys match that
have different hashes, the element is there but not found.

- `lookup_fill_isSome_iff`: what is found in a table that was filled.
- `finds_iff`: the search finds what matches exactly when something that matches is in the right bucket.
- `unique_iff`: a table to which only what is not found is added has no two elements that match exactly when all keys that
  match have the same hash.
-/
import Mathlib.Tactic

namespace Libnl.Buckets

section
variable {α κ ι : Type} [DecidableEq ι] (hash : κ → ι) (same : κ → κ → Bool) (key : α → κ)

def lookup (t : ι → List α) (k : κ) : Option α := (t (hash k)).find? fun a => same (key a) k

/-- at the tail of its bucket -/
def append (t : ι → List α) (a : α) : ι → List α := Function.update t (hash (key a)) (t (hash (key a)) ++ [a])

def fill (l : List α) : ι → List α := l.foldl (append hash key) fun _ => []

/-- only what is not found is added -/
def addNew (t : ι → List α) (a : α) : ι → List α :=
  if (lookup hash same key t (key a)).isSome then t else append hash key t a

/-- the search for the key of `b` takes `a` -/
def takes (a : α) (k : κ) : Bool := decide (hash (key a) = hash k) && same (key a) k

/-- what stays of a list -/
def kept (l : List α) : List α := l.foldl (fun m a => if m.any (fun b => takes hash same key b (key a)) then m else m ++ [a]) []

/-- no two elements match, in the same bucket or in different ones -/
structure Unique (t : ι → List α) : Prop where
  inside : ∀ n, (t n).Pairwise fun a b => same (key a) (key b) = false
  across : ∀ n m, n ≠ m → ∀ a ∈ t n, ∀ b ∈ t m, same (key a) (key b) = false

end

section
variable {α κ ι : Type} [DecidableEq ι] {hash : κ → ι} {same : κ → κ → Bool} {key : α → κ}

/-! ## Filling -/

theorem fill_snoc (l : List α) (a : α) : fill hash key (l ++ [a]) = append hash key (fill hash key l) a := by
  rw [fill, List.foldl_append]
  rfl

theorem fill_eq_filter (l : List α) (n : ι) : fill hash key l n = l.filter fun a => decide (hash (key a) = n) := by
  induction l using List.reverseRecOn with
  | nil => rfl
  | append_singleton l a ih =>
    rw [fill_snoc, List.filter_append, ← ih, append]
    by_cases hn : hash (key a) = n
    · rw [hn, Function.update_self, List.filter_cons_of_pos (by simpa using hn), List.filter_nil]
    · rw [Function.update_of_ne (Ne.symm hn), List.filter_cons_of_neg (by simpa using hn), List.filter_nil, List.append_nil]

theorem lookup_fill (l : List α) (k : κ) :
    lookup hash same key (fill hash key l) k = l.find? fun a => takes hash same key a k := by
  have htakes : ∀ a, (decide (decide (hash (key a) = hash k) = true ∧ same (key a) k = true)) = takes hash same key a k := by
    intro a
    rw [takes, Bool.decide_and, Bool.decide_coe, Bool.decide_coe]
  rw [lookup, fill_eq_filter, List.find?_filter]
  exact congrArg (List.find? · l) (funext htakes)

theorem takes_iff {a : α} {k : κ} : takes hash same key a k = true ↔ hash (key a) = hash k ∧ same (key a) k = true := by
  rw [takes, Bool.and_eq_true, decide_eq_true_eq]

theorem lookup_fill_isSome_iff (l : List α) (k : κ) :
    (lookup hash same key (fill hash key l) k).isSome ↔ ∃ a ∈ l, hash (key a) = hash k ∧ same (key a) k = true := by
  rw [lookup_fill, List.find?_isSome]
  exact exists_congr fun a => and_congr_right fun _ => takes_iff

theorem lookup_fill_some {l : List α} {k : κ} {a : α} (h : lookup hash same key (fill hash key l) k = some a) :
    a ∈ l ∧ same (key a) k = true := by
  rw [lookup_fill] at h
  have htakes := List.find?_some h
  rw [takes_iff] at htakes
  exact ⟨List.mem_of_find?_eq_some h, htakes.2⟩

variable (hash same key) in
/-- **Finding what matches** -/
theorem finds_iff (l : List α) (k : κ) :
    ((lookup hash same key (fill hash key l) k).isSome ↔ ∃ a ∈ l, same (key a) k = true) ↔
      ((∃ a ∈ l, same (key a) k = true) → ∃ a ∈ l, same (key a) k = true ∧ hash (key a) = hash k) := by
  rw [lookup_fill_isSome_iff]
  constructor
  · intro h hex
    obtain ⟨a, ha, hhash, hsame⟩ := h.2 hex
    exact ⟨a, ha, hsame, hhash⟩
  · intro h
    constructor
    · rintro ⟨a, ha, -, hsame⟩
      exact ⟨a, ha, hsame⟩
    · intro hex
      obtain ⟨a, ha, hsame, hhash⟩ := h hex
      exact ⟨a, ha, hhash, hsame⟩

/-! ## Adding what is new -/

theorem kept_snoc (l : List α) (a : α) : kept hash same key (l ++ [a]) =
    if (kept hash same key l).any fun b => takes hash same key b (key a) then kept hash same key l
    else kept hash same key l ++ [a] := by
  rw [kept, List.foldl_append]
  rfl

/-- the table has what stays of the list -/
theorem foldl_addNew (l : List α) : l.foldl (addNew hash same key) (fun _ => []) = fill hash key (kept hash same key l) := by
  induction l using List.reverseRecOn with
  | nil => rfl
  | append_singleton l a ih =>
    rw [List.foldl_append, ih, kept_snoc, List.foldl_cons, List.foldl_nil, addNew]
    have hany : (lookup hash same key (fill hash key (kept hash same key l)) (key a)).isSome =
        (kept hash same key l).any fun b => takes hash same key b (key a) := by
      rw [lookup_fill, Bool.eq_iff_iff, List.find?_isSome, List.any_eq_true]
    rw [hany]
    split_ifs
    · rfl
    · rw [fill_snoc]

theorem kept_subset {l : List α} {a : α} (h : a ∈ kept hash same key l) : a ∈ l := by
  induction l using List.reverseRecOn with
  | nil => exact h
  | append_singleton l b ih =>
    rw [kept_snoc] at h
    split_ifs at h
    · exact List.mem_append_left _ (ih h)
    · rcases List.mem_append.1 h with h | h
      · exact List.mem_append_left _ (ih h)
      · exact List.mem_append_right _ h

variable (hash key) in
/-- whatever was added, something with its hash that matches is there -/
theorem exists_kept (hrefl : ∀ k, same k k = true) {l : List α} {a : α} (h : a ∈ l) :
    ∃ b ∈ kept hash same key l, takes hash same key b (key a) = true := by
  induction l using List.reverseRecOn with
  | nil => cases h
  | append_singleton l c ih =>
    rw [kept_snoc]
    by_cases hany : (kept hash same key l).any (fun b => takes hash same key b (key c)) = true
    · rw [if_pos hany]
      rcases List.mem_append.1 h with h | h
      · exact ih h
      · rw [List.mem_singleton.1 h]
        exact List.any_eq_true.1 hany
    · rw [if_neg hany]
      rcases List.mem_append.1 h with h | h
      · obtain ⟨b, hb, htakes⟩ := ih h
        exact ⟨b, List.mem_append_left _ hb, htakes⟩
      · refine ⟨c, List.mem_append_right _ List.mem_cons_self, ?_⟩
        rw [List.mem_singleton.1 h]
        exact takes_iff.2 ⟨rfl, hrefl _⟩

variable (hash same key) in
theorem kept_pairwise (l : List α) :
    (kept hash same key l).Pairwise fun a b => takes hash same key a (key b) = false := by
  induction l using List.reverseRecOn with
  | nil => exact List.Pairwise.nil
  | append_singleton l c ih =>
    rw [kept_snoc]
    by_cases hany : (kept hash same key l).any (fun b => takes hash same key b (key c)) = true
    · rw [if_pos hany]
      exact ih
    · rw [if_neg hany]
      refine List.pairwise_append.2 ⟨ih, List.pairwise_singleton _ _, fun a ha b hb => ?_⟩
      rw [List.mem_singleton.1 hb, ← Bool.not_eq_true]
      intro htakes
      exact hany (List.any_eq_true.2 ⟨a, ha, htakes⟩)

variable (hash key) in
/-- **No two that match** -/
theorem unique_iff (hrefl : ∀ k, same k k = true) (hsymm : ∀ j k, same j k = same k j)
    (htrans : ∀ i j k, same i j = true → same j k = true → same i k = true) (l : List α) :
    Unique same key (l.foldl (addNew hash same key) fun _ => []) ↔
      ∀ a ∈ l, ∀ b ∈ l, same (key a) (key b) = true → hash (key a) = hash (key b) := by
  rw [foldl_addNew]
  have hbucket : ∀ {a n}, a ∈ fill hash key (kept hash same key l) n ↔ a ∈ kept hash same key l ∧ hash (key a) = n := by
    intro a n
    rw [fill_eq_filter, List.mem_filter, decide_eq_true_eq]
  constructor
  · intro h a ha b hb hab
    by_contra hne
    obtain ⟨a', ha', htakes⟩ := exists_kept hash key hrefl ha
    obtain ⟨b', hb', htakes'⟩ := exists_kept hash key hrefl hb
    obtain ⟨hhash, hsame⟩ := takes_iff.1 htakes
    obtain ⟨hhash', hsame'⟩ := takes_iff.1 htakes'
    have hdiff := h.across _ _ hne a' (hbucket.2 ⟨ha', hhash⟩) b' (hbucket.2 ⟨hb', hhash'⟩)
    rw [hsymm] at hsame'
    rw [htrans _ _ _ hsame (htrans _ _ _ hab hsame')] at hdiff
    cases hdiff
  · intro h
    constructor
    · intro n
      rw [fill_eq_filter]
      have hpairwise := (kept_pairwise hash same key l).filter fun a => decide (hash (key a) = n)
      refine hpairwise.imp_of_mem fun {a b} ha hb hab => ?_
      have hna := of_decide_eq_true (List.mem_filter.1 ha).2
      have hnb := of_decide_eq_true (List.mem_filter.1 hb).2
      rwa [takes, hna, hnb, decide_eq_true (Eq.refl n), Bool.true_and] at hab
    · intro n m hnm a ha b hb
      obtain ⟨ha, hna⟩ := hbucket.1 ha
      obtain ⟨hb, hmb⟩ := hbucket.1 hb
      rw [← Bool.not_eq_true]
      intro hsame
      have heq := h a (kept_subset ha) b (kept_subset hb) hsame
      rw [hna, hmb] at heq
      exact hnm heq

end

end Libnl.Buckets
