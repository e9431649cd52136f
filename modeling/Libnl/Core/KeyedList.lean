/-
Lists used as maps, with keys that are compared by an equivalence.

A list of entries, each with a key, and a test whether two keys are the same. The first entry with a key is the one the
key is mapped to. The test need be an equivalence only on the keys that occur (`EquivOn`), and a list without two entries
of the same key (`Distinct`) behaves as a map: `look_drop`, `look_put` and `look_amend` say what becomes of every key
when one is removed, set, or changed in place.
-/
import Mathlib.Tactic

namespace Libnl.KeyedList

variable {β κ : Type} (key : β → κ) (same : κ → κ → Bool)

/-- the test is an equivalence on a class of keys -/
structure EquivOn (P : κ → Prop) : Prop where
  refl : ∀ a, P a → same a a = true
  symm : ∀ a b, P a → P b → same a b = true → same b a = true
  trans : ∀ a b c, P a → P b → P c → same a b = true → same b c = true → same a c = true

/-- no two entries have the same key -/
def Distinct (l : List β) : Prop := l.Pairwise fun a b => same (key a) (key b) = false

/-- the entry a key is mapped to -/
def look (l : List β) (k : κ) : Option β := l.find? fun e => same (key e) k

/-- the list without the entry a key is mapped to -/
def drop (l : List β) (k : κ) : List β := l.eraseP fun e => same (key e) k

/-- the key of `x` is mapped to `x`, which becomes the last entry -/
def put (l : List β) (x : β) : List β := drop key same l (key x) ++ [x]

/-- the entry a key is mapped to is changed where it is -/
def amend (l : List β) (k : κ) (f : β → β) : List β :=
  l.replaceF fun e => if same (key e) k then some (f e) else none

variable {key same} {P : κ → Prop} {l : List β} {k k' : κ}

theorem EquivOn.comm (he : EquivOn same P) {a b : κ} (ha : P a) (hb : P b) : same a b = same b a := by
  rw [Bool.eq_iff_iff]
  exact ⟨he.symm a b ha hb, he.symm b a hb ha⟩

/-- the same key in place of a key -/
theorem EquivOn.congr (he : EquivOn same P) {a b c : κ} (ha : P a) (hb : P b) (hc : P c) (hab : same a b = true) :
    same c a = same c b := by
  rw [Bool.eq_iff_iff]
  constructor
  · intro h
    exact he.trans c a b hc ha hb h hab
  · intro h
    exact he.trans c b a hc hb ha h (he.symm a b ha hb hab)

theorem look_some {x : β} (h : look key same l k = some x) : x ∈ l ∧ same (key x) k = true := by
  have hx := List.find?_some h
  exact ⟨List.mem_of_find?_eq_some h, hx⟩

theorem look_none : look key same l k = none ↔ ∀ e ∈ l, same (key e) k = false := by
  unfold look
  simp [List.find?_eq_none]

theorem look_append (l m : List β) (k : κ) :
    look key same (l ++ m) k = (look key same l k).or (look key same m k) := List.find?_append

theorem look_cons (e : β) (l : List β) (k : κ) :
    look key same (e :: l) k = if same (key e) k then some e else look key same l k := by
  unfold look
  rw [List.find?_cons]
  cases same (key e) k with
  | false => rfl
  | true => rfl

theorem look_congr (he : EquivOn same P) (hP : ∀ e ∈ l, P (key e)) (hk : P k) (hk' : P k') (h : same k k' = true) :
    look key same l k = look key same l k' := by
  induction l with
  | nil => rfl
  | cons e l ih =>
    rw [look_cons, look_cons, ih fun x hx => hP x (List.mem_cons_of_mem e hx),
      he.congr hk hk' (hP e List.mem_cons_self) h]

/-- in a list without repeated keys, an entry is found by its key -/
theorem Distinct.look_eq (hd : Distinct key same l) (he : EquivOn same P) (hP : ∀ e ∈ l, P (key e)) (hk : P k) {x : β}
    (hx : x ∈ l) (h : same (key x) k = true) : look key same l k = some x := by
  induction l with
  | nil => cases hx
  | cons e l ih =>
    obtain ⟨hel, hdl⟩ := List.pairwise_cons.1 hd
    rw [look_cons]
    rcases List.mem_cons.1 hx with rfl | hxl
    · rw [if_pos h]
    · have hne : same (key e) k = false := by
        rw [← he.congr (hP x hx) hk (hP e List.mem_cons_self) h]
        exact hel x hxl
      rw [hne]
      exact ih hdl (fun y hy => hP y (List.mem_cons_of_mem e hy)) hxl

/-! ## What becomes of a key -/

theorem drop_cons (e : β) (l : List β) (k : κ) :
    drop key same (e :: l) k = if same (key e) k then l else e :: drop key same l k := by
  unfold drop
  rw [List.eraseP_cons]
  cases same (key e) k with
  | false => rfl
  | true => rfl

theorem mem_of_mem_drop {x : β} (h : x ∈ drop key same l k) : x ∈ l := List.mem_of_mem_eraseP h

theorem mem_put {x y : β} (h : y ∈ put key same l x) : y ∈ l ∨ y = x := by
  rcases List.mem_append.1 h with h | h
  · exact Or.inl (mem_of_mem_drop h)
  · exact Or.inr (List.mem_singleton.1 h)

theorem drop_of_look_none (h : look key same l k = none) : drop key same l k = l :=
  List.eraseP_of_forall_not fun e he => by simp [look_none.1 h e he]

/-- nothing behind an entry has its key -/
theorem Distinct.unique {e : β} (hd : Distinct key same (e :: l)) (he : EquivOn same P) (hP : ∀ x ∈ e :: l, P (key x))
    (hk : P k) (hek : same (key e) k = true) (x : β) (hx : x ∈ l) : same (key x) k = false := by
  have hPe := hP e List.mem_cons_self
  have hPx := hP x (List.mem_cons_of_mem e hx)
  rw [← he.congr hPe hk hPx hek, he.comm hPx hPe]
  exact (List.pairwise_cons.1 hd).1 x hx

theorem look_drop (he : EquivOn same P) (hP : ∀ e ∈ l, P (key e)) (hd : Distinct key same l) (hk : P k) (hk' : P k') :
    look key same (drop key same l k) k' = if same k k' then none else look key same l k' := by
  induction l with
  | nil => simp [look, drop]
  | cons e l ih =>
    have hPe := hP e List.mem_cons_self
    have hPl : ∀ x ∈ l, P (key x) := fun x hx => hP x (List.mem_cons_of_mem e hx)
    have hdl := (List.pairwise_cons.1 hd).2
    rw [drop_cons, look_cons]
    by_cases hek : same (key e) k = true
    · -- the entry that goes; nothing behind it has its key
      rw [if_pos hek]
      by_cases hkk : same k k' = true
      · rw [if_pos hkk, look_none]
        exact hd.unique he hP hk' (he.trans _ _ _ hPe hk hk' hek hkk)
      · have hek' : same (key e) k' = false := by
          rw [← he.comm hk' hPe, he.congr hPe hk hk' hek, he.comm hk' hk]
          simpa using hkk
        rw [if_neg hkk, hek']
        rfl
    · rw [if_neg hek, look_cons, ih hPl hdl]
      by_cases hkk : same k k' = true
      · have hek' : same (key e) k' = false := by
          rw [← he.congr hk hk' hPe hkk]
          simpa using hek
        simp [hkk, hek']
      · simp [hkk]

/-- without repeated keys, a key that is removed is gone altogether -/
theorem drop_eq_filter (he : EquivOn same P) (hP : ∀ e ∈ l, P (key e)) (hd : Distinct key same l) (hk : P k) :
    drop key same l k = l.filter fun e => !same (key e) k := by
  induction l with
  | nil => rfl
  | cons e l ih =>
    have hPl : ∀ x ∈ l, P (key x) := fun x hx => hP x (List.mem_cons_of_mem e hx)
    have hdl := (List.pairwise_cons.1 hd).2
    rw [drop_cons, List.filter_cons]
    cases hek : same (key e) k with
    | true =>
      have hself : (l.filter fun x => !same (key x) k) = l := List.filter_eq_self.2 fun x hx => by
        rw [hd.unique he hP hk hek x hx]
        rfl
      rw [hself]
      rfl
    | false =>
      rw [ih hPl hdl]
      rfl

theorem look_filter (he : EquivOn same P) (hP : ∀ e ∈ l, P (key e)) (hd : Distinct key same l) (hk : P k)
    (p : β → Bool) : look key same (l.filter p) k = (look key same l k).filter p := by
  induction l with
  | nil => rfl
  | cons e l ih =>
    have ih := ih (fun x hx => hP x (List.mem_cons_of_mem e hx)) (List.pairwise_cons.1 hd).2
    rw [List.filter_cons, look_cons]
    by_cases hek : same (key e) k = true
    · rw [if_pos hek]
      cases hpe : p e with
      | true => simp [look_cons, hek, Option.filter, hpe]
      | false =>
        -- the entry is not kept, and there is no second one with its key
        have hnone : look key same l k = none := look_none.2 (hd.unique he hP hk hek)
        simp [ih, hnone, Option.filter, hpe]
    · rw [if_neg hek, ← ih]
      cases hpe : p e with
      | true => simp [look_cons, hek]
      | false => rfl

theorem look_put (he : EquivOn same P) (hP : ∀ e ∈ l, P (key e)) (hd : Distinct key same l) {x : β} (hx : P (key x))
    (hk : P k) : look key same (put key same l x) k = if same (key x) k then some x else look key same l k := by
  unfold put
  rw [look_append, look_drop he hP hd hx hk, look_cons]
  by_cases h : same (key x) k = true
  · simp [h]
  · simp [h, look]

theorem amend_cons (e : β) (l : List β) (k : κ) (f : β → β) :
    amend key same (e :: l) k f = if same (key e) k then f e :: l else e :: amend key same l k f := by
  unfold amend
  rw [List.replaceF_cons]
  cases same (key e) k with
  | false => rfl
  | true => rfl

theorem mem_amend {x : β} {f : β → β} (h : x ∈ amend key same l k f) :
    x ∈ l ∨ ∃ e ∈ l, same (key e) k = true ∧ x = f e := by
  induction l with
  | nil => cases h
  | cons e l ih =>
    rw [amend_cons] at h
    split_ifs at h with hek
    · rcases List.mem_cons.1 h with rfl | h
      · exact Or.inr ⟨e, List.mem_cons_self, hek, rfl⟩
      · exact Or.inl (List.mem_cons_of_mem e h)
    · rcases List.mem_cons.1 h with rfl | h
      · exact Or.inl List.mem_cons_self
      · rcases ih h with h | ⟨y, hy, hyk, rfl⟩
        · exact Or.inl (List.mem_cons_of_mem e h)
        · exact Or.inr ⟨y, List.mem_cons_of_mem e hy, hyk, rfl⟩

/-- a change that keeps the key of the entry -/
theorem look_amend (he : EquivOn same P) (hP : ∀ e ∈ l, P (key e)) (hk : P k) (hk' : P k') {f : β → β}
    (hf : ∀ e ∈ l, same (key e) k = true → ∀ x, P x → same (key (f e)) x = same (key e) x) :
    look key same (amend key same l k f) k' =
      if same k k' then (look key same l k').map f else look key same l k' := by
  induction l with
  | nil => simp [look, amend, List.replaceF]
  | cons e l ih =>
    have hPe := hP e List.mem_cons_self
    have hPl : ∀ x ∈ l, P (key x) := fun x hx => hP x (List.mem_cons_of_mem e hx)
    have ih := ih hPl fun x hx => hf x (List.mem_cons_of_mem e hx)
    rw [amend_cons, look_cons]
    by_cases hek : same (key e) k = true
    · rw [if_pos hek, look_cons, hf e List.mem_cons_self hek k' hk', ← he.comm hk' hPe, he.congr hPe hk hk' hek,
        he.comm hk' hk]
      by_cases hkk : same k k' = true
      · simp [hkk]
      · simp [hkk]
    · rw [if_neg hek, look_cons, ih]
      by_cases hkk : same k k' = true
      · have hek' : same (key e) k' = false := by
          rw [← he.congr hk hk' hPe hkk]
          simpa using hek
        simp [hkk, hek']
      · simp [hkk]

/-! ## Entries of named things

The entries may be those of a list of names, as with objects that are known by their addresses. -/

section

variable {ι : Type} {names : List ι} {f : ι → β}

theorem look_map (names : List ι) (f : ι → β) (k : κ) :
    look key same (names.map f) k = (names.find? fun i => same (key (f i)) k).map f := List.find?_map

theorem map_erase [DecidableEq ι] {a : ι} (ha : names.find? (fun i => same (key (f i)) k) = some a) :
    (names.erase a).map f = drop key same (names.map f) k := by
  induction names with
  | nil => cases ha
  | cons i names ih =>
    rw [List.find?_cons] at ha
    rw [List.map_cons, drop_cons]
    cases hi : same (key (f i)) k with
    | true =>
      rw [hi] at ha
      cases ha
      rw [List.erase_cons_head, if_pos rfl]
    | false =>
      rw [hi] at ha
      have hne : i ≠ a := by
        rintro rfl
        have hhit := List.find?_some ha
        simp [hi] at hhit
      rw [List.erase_cons_tail (by simpa using hne), List.map_cons, ih ha]
      rfl

/-- the one thing whose entry changes is the one the key is mapped to -/
theorem map_amend {f' : ι → β} {g : β → β} {a : ι} (hnd : names.Nodup)
    (ha : names.find? (fun i => same (key (f i)) k) = some a) (hne : ∀ i ∈ names, i ≠ a → f' i = f i)
    (hself : f' a = g (f a)) : names.map f' = amend key same (names.map f) k g := by
  induction names with
  | nil => cases ha
  | cons i names ih =>
    rw [List.find?_cons] at ha
    obtain ⟨hout, hnd⟩ := List.nodup_cons.1 hnd
    have hnames : ∀ j ∈ names, j ≠ a → f' j = f j := fun j hj => hne j (List.mem_cons_of_mem i hj)
    rw [List.map_cons, List.map_cons, amend_cons]
    cases hi : same (key (f i)) k with
    | true =>
      rw [hi] at ha
      cases ha
      rw [if_pos rfl, hself]
      refine congrArg _ (List.map_congr_left fun j hj => hnames j hj ?_)
      rintro rfl
      exact hout hj
    | false =>
      rw [hi] at ha
      have hia : i ≠ a := by
        rintro rfl
        have hhit := List.find?_some ha
        simp [hi] at hhit
      rw [hne i List.mem_cons_self hia, ih hnd ha hnames]
      rfl

end

/-! ## Keys stay distinct -/

theorem Distinct.drop (hd : Distinct key same l) (k : κ) : Distinct key same (drop key same l k) :=
  List.Pairwise.sublist List.eraseP_sublist hd

theorem Distinct.filter (hd : Distinct key same l) (p : β → Bool) : Distinct key same (l.filter p) :=
  List.Pairwise.filter p hd

theorem Distinct.put (hd : Distinct key same l) (he : EquivOn same P) (hP : ∀ e ∈ l, P (key e)) {x : β}
    (hx : P (key x)) : Distinct key same (put key same l x) := by
  unfold KeyedList.put
  refine List.pairwise_append.2 ⟨hd.drop _, List.pairwise_singleton _ _, fun a ha b hb => ?_⟩
  rw [List.mem_singleton.1 hb]
  have hnone : look key same (KeyedList.drop key same l (key x)) (key x) = none := by
    rw [look_drop he hP hd hx hx, if_pos (he.refl _ hx)]
  exact look_none.1 hnone a ha

theorem Distinct.amend (hd : Distinct key same l) (he : EquivOn same P) (hP : ∀ e ∈ l, P (key e)) {f : β → β}
    (hf : ∀ e ∈ l, same (key e) k = true → P (key (f e)) ∧ ∀ x, P x → same (key (f e)) x = same (key e) x) :
    Distinct key same (amend key same l k f) := by
  induction l with
  | nil => exact List.Pairwise.nil
  | cons e l ih =>
    have hPe := hP e List.mem_cons_self
    have hPl : ∀ x ∈ l, P (key x) := fun x hx => hP x (List.mem_cons_of_mem e hx)
    obtain ⟨hel, hdl⟩ := List.pairwise_cons.1 hd
    have ih := ih hdl hPl fun x hx => hf x (List.mem_cons_of_mem e hx)
    rw [amend_cons]
    by_cases hek : same (key e) k = true
    · rw [if_pos hek]
      refine List.pairwise_cons.2 ⟨fun x hx => ?_, hdl⟩
      rw [(hf e List.mem_cons_self hek).2 _ (hPl x hx)]
      exact hel x hx
    · rw [if_neg hek]
      refine List.pairwise_cons.2 ⟨fun x hx => ?_, ih⟩
      rcases mem_amend hx with hx | ⟨y, hy, hyk, rfl⟩
      · exact hel x hx
      · obtain ⟨hPf, hsame⟩ := hf y (List.mem_cons_of_mem e hy) hyk
        rw [he.comm hPe hPf, hsame _ hPe, he.comm (hPl y hy) hPe]
        exact hel y hy

end Libnl.KeyedList
