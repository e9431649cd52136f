/-
Following things through what is said of them.

Every event is about one thing, its key, and either says how the thing is now or that it is gone. A follower keeps the
latest events in a list: a new one goes to the end, and one that is taken to be about the same thing goes. The follower
need not know the key: it takes the first that it finds by a relation of its own.

- `exact_living`: with the key itself, the follower has exactly the latest events that left something.
- `exact_iff`: with another relation it does all along exactly when the first it finds is always the one with the key.
-/
import Mathlib.Tactic
import Libnl.Core.Prefix

namespace Libnl.Track

open Prefix

variable {ε κ : Type} [DecidableEq κ] (key : ε → κ) (keeps : ε → Bool) (found : ε → ε → Bool)

/-- one event: what is found for it goes, and it comes if it says that the thing is there -/
def advance (l : List ε) (e : ε) : List ε := l.eraseP (fun x => found x e) ++ if keeps e then [e] else []

def follow (es : List ε) : List ε := es.foldl (advance keeps found) []

def sameKey (a b : ε) : Bool := decide (key a = key b)

/-- the things that are there, in the order of their latest events -/
def living (es : List ε) : List ε := follow keeps (sameKey key) es

/-- the latest event about a thing, if it left it there -/
def latest (es : List ε) (k : κ) : Option ε := ((es.filter fun e => decide (key e = k)).getLast?).filter keeps

/-- of each thing there is the latest event, once, or nothing if it is gone -/
def Exact (es l : List ε) : Prop := ∀ k, (l.filter fun e => decide (key e = k)) = (latest key keeps es k).toList

/-! ## Lists with one of a kind removed -/

theorem filter_eraseP_self (p : ε → Bool) (l : List ε) : (l.eraseP p).filter p = (l.filter p).tail := by
  induction l with
  | nil => rfl
  | cons a l ih =>
    rw [List.eraseP_cons]
    cases hp : p a with
    | true => simp [hp]
    | false => simp [hp, ih]

theorem filter_eraseP_other {p q : ε → Bool} (h : ∀ a, p a = true → q a = false) (l : List ε) :
    (l.eraseP p).filter q = l.filter q := by
  induction l with
  | nil => rfl
  | cons a l ih =>
    rw [List.eraseP_cons]
    cases hp : p a with
    | true => simp [h a hp]
    | false => simp [List.filter_cons, ih]

/-- the first found decides what is removed -/
theorem eraseP_congr {p q : ε → Bool} {l : List ε} (h : l.find? p = l.find? q) : l.eraseP p = l.eraseP q := by
  induction l with
  | nil => rfl
  | cons a l ih =>
    rw [List.find?_cons, List.find?_cons] at h
    rw [List.eraseP_cons, List.eraseP_cons]
    cases hp : p a with
    | true =>
      cases hq : q a with
      | true => rfl
      | false =>
        simp only [hp, hq] at h
        have hqa := List.find?_some h.symm
        rw [hq] at hqa
        cases hqa
    | false =>
      cases hq : q a with
      | true =>
        simp only [hp, hq] at h
        have hpa := List.find?_some h
        rw [hp] at hpa
        cases hpa
      | false =>
        simp only [hp, hq] at h
        simp [ih h]

/-! ## One event -/

section

variable {key keeps found}

theorem latest_snoc (es : List ε) (e : ε) (k : κ) :
    latest key keeps (es ++ [e]) k =
      if key e = k then (if keeps e then some e else none) else latest key keeps es k := by
  unfold latest
  rw [List.filter_append]
  by_cases hk : key e = k
  · rw [if_pos hk, List.filter_cons_of_pos (by simpa using hk), List.filter_nil, List.getLast?_concat]
    cases hkeep : keeps e with
    | true => simp [Option.filter, hkeep]
    | false => simp [Option.filter, hkeep]
  · rw [if_neg hk, List.filter_cons_of_neg (by simpa using hk), List.filter_nil, List.append_nil]

theorem latest_key {es : List ε} {k : κ} {x : ε} (h : latest key keeps es k = some x) : key x = k := by
  have hlast : (es.filter fun e => decide (key e = k)).getLast? = some x := (Option.filter_eq_some_iff.1 h).1
  have hmem := List.mem_of_getLast? hlast
  exact of_decide_eq_true (List.mem_filter.1 hmem).2

theorem filter_kept (e : ε) (k : κ) : ((if keeps e then [e] else []).filter fun x => decide (key x = k)) =
    if key e = k then (if keeps e then [e] else []) else [] := by
  by_cases hk : key e = k
  · rw [if_pos hk]
    cases keeps e with
    | true => simp [hk]
    | false => rfl
  · rw [if_neg hk]
    cases keeps e with
    | true => simp [hk]
    | false => rfl

theorem Exact.find {es l : List ε} (h : Exact key keeps es l) (k : κ) :
    l.find? (fun x => decide (key x = k)) = latest key keeps es k := by
  rw [← List.head?_filter, h k]
  cases latest key keeps es k with
  | none => rfl
  | some x => rfl

/-- what is in the list is the latest about its thing -/
theorem Exact.mem {es l : List ε} (h : Exact key keeps es l) {x : ε} (hx : x ∈ l) :
    latest key keeps es (key x) = some x := by
  have hmem : x ∈ l.filter fun y => decide (key y = key x) := List.mem_filter.2 ⟨hx, decide_eq_true rfl⟩
  rw [h (key x)] at hmem
  exact Option.mem_toList.1 hmem

/-- with the key itself -/
theorem Exact.advance {es l : List ε} (h : Exact key keeps es l) (e : ε) :
    Exact key keeps (es ++ [e]) (advance keeps (sameKey key) l e) := by
  intro k
  rw [Track.advance, List.filter_append, filter_kept, latest_snoc]
  by_cases hk : key e = k
  · subst hk
    have hgone : (l.eraseP fun x => sameKey key x e).filter (fun x => decide (key x = key e)) = [] := by
      rw [show (fun x => sameKey key x e) = fun x => decide (key x = key e) from rfl, filter_eraseP_self, h (key e)]
      cases latest key keeps es (key e) with
      | none => rfl
      | some x => rfl
    rw [hgone, if_pos rfl, if_pos rfl, List.nil_append]
    cases keeps e with
    | true => rfl
    | false => rfl
  · rw [if_neg hk, if_neg hk, List.append_nil, ← h k]
    refine filter_eraseP_other (fun a ha => ?_) l
    have hae : key a = key e := of_decide_eq_true ha
    exact decide_eq_false fun hak => hk (hae.symm.trans hak)

/-- the wrong one found, or none where there was one -/
theorem Exact.not_advance {es l : List ε} (h : Exact key keeps es l) (e : ε)
    (hne : l.find? (fun x => found x e) ≠ l.find? fun x => sameKey key x e) :
    ¬ Exact key keeps (es ++ [e]) (Track.advance keeps found l e) := by
  intro hx
  have hkey : l.find? (fun x => sameKey key x e) = latest key keeps es (key e) := h.find (key e)
  cases hfound : l.find? fun x => found x e with
  | none =>
    rw [hfound, hkey] at hne
    obtain ⟨y, hy⟩ := Option.ne_none_iff_exists'.1 hne.symm
    have hall : l.eraseP (fun x => found x e) = l := List.eraseP_of_forall_not fun a ha => by
      simpa using List.find?_eq_none.1 hfound a ha
    have hk := hx (key e)
    rw [Track.advance, List.filter_append, filter_kept, latest_snoc, hall, h (key e), hy, if_pos rfl, if_pos rfl] at hk
    have hlen := congrArg List.length hk
    cases hkeep : keeps e with
    | true => simp [hkeep] at hlen
    | false => simp [hkeep] at hlen
  | some x =>
    have hfx := List.find?_some hfound
    have hmem := List.mem_of_find?_eq_some hfound
    have hlatest := h.mem hmem
    by_cases hxe : key x = key e
    · rw [hfound, hkey, ← hxe, hlatest] at hne
      exact hne rfl
    · have hk := hx (key x)
      rw [Track.advance, List.filter_append, filter_kept, latest_snoc, if_neg (Ne.symm hxe), if_neg (Ne.symm hxe),
        List.append_nil, hlatest] at hk
      -- the first found is `x` itself, and there was no other of its key
      obtain ⟨l1, l2, hl, herase⟩ : ∃ l1 l2, l = l1 ++ x :: l2 ∧ l.eraseP (fun y => found y e) = l1 ++ l2 := by
        obtain ⟨a, l1, l2, hno, ha, hl, herase⟩ := List.exists_of_eraseP (p := fun y => found y e) hmem hfx
        have hax : a = x := by
          have hfirst := hfound
          rw [hl, List.find?_append, List.find?_eq_none.2 (by simpa using hno), Option.none_or, List.find?_cons, ha]
            at hfirst
          exact Option.some.inj hfirst
        exact ⟨l1, l2, hax ▸ hl, herase⟩
      have hone := h (key x)
      rw [hlatest, hl, List.filter_append, List.filter_cons_of_pos (by simp)] at hone
      have hlen1 := congrArg List.length hone
      have hlen2 := congrArg List.length hk
      rw [herase, List.filter_append] at hlen2
      simp only [List.length_append, List.length_cons, Option.toList_some, List.length_nil] at hlen1 hlen2
      omega

/-! ## Runs -/

theorem follow_snoc (es : List ε) (e : ε) :
    follow keeps found (es ++ [e]) = advance keeps found (follow keeps found es) e := by
  unfold follow
  rw [List.foldl_append]
  rfl

theorem living_snoc (es : List ε) (e : ε) :
    living key keeps (es ++ [e]) = advance keeps (sameKey key) (living key keeps es) e := follow_snoc es e

/-- what a follower has came, and said that something is there -/
theorem mem_follow {es : List ε} {x : ε} (h : x ∈ follow keeps found es) : x ∈ es ∧ keeps x = true := by
  induction es using List.reverseRecOn with
  | nil => cases h
  | append_singleton es e ih =>
    rw [follow_snoc, advance] at h
    rcases List.mem_append.1 h with hold | hnew
    · obtain ⟨hmem, hkeep⟩ := ih (List.mem_of_mem_eraseP hold)
      exact ⟨List.mem_append_left _ hmem, hkeep⟩
    · cases hkeep : keeps e with
      | true =>
        rw [hkeep, if_pos rfl] at hnew
        obtain rfl := List.mem_singleton.1 hnew
        exact ⟨List.mem_append_right _ (List.mem_singleton.2 rfl), hkeep⟩
      | false =>
        rw [hkeep] at hnew
        cases hnew

variable (key keeps) in
/-- **By the key**, the follower has what is there. -/
theorem exact_living (es : List ε) : Exact key keeps es (living key keeps es) := by
  induction es using List.reverseRecOn with
  | nil => exact fun k => rfl
  | append_singleton es e ih =>
    rw [living_snoc]
    exact ih.advance e

/-- a thing is there, and this is the latest about it -/
theorem mem_living {es : List ε} {x : ε} : x ∈ living key keeps es ↔ latest key keeps es (key x) = some x := by
  constructor
  · exact (exact_living key keeps es).mem
  · intro h
    rw [← (exact_living key keeps es).find] at h
    exact List.mem_of_find?_eq_some h

variable (key keeps found) in
/-- **By another relation**, the follower has what is there all along exactly when the first it finds is always the one
with the key. -/
theorem exact_iff (es : List ε) : (∀ as, as <+: es → Exact key keeps as (follow keeps found as)) ↔
    ∀ as e, as ++ [e] <+: es → (living key keeps as).find? (fun x => found x e) =
      (living key keeps as).find? fun x => sameKey key x e := by
  refine all_prefixes_iff_inv (I := fun as => follow keeps found as = living key keeps as) es rfl ?_ ?_ ?_
  · intro as _ hI
    rw [hI]
    exact exact_living key keeps as
  · intro as e _ hI hQ
    rw [follow_snoc, living_snoc, hI]
    exact congrArg (· ++ _) (eraseP_congr hQ)
  · intro as e _ hI hQ
    rw [follow_snoc, hI]
    exact (exact_living key keeps as).not_advance e hQ

end

end Libnl.Track
