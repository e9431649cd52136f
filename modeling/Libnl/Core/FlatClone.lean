/-
Copying an object by a flat copy and repair.

The copy first has all pointers of the source. Then, part by part, what a part refers to is copied and the pointers are
replaced, until a part cannot be copied; in that case the half-made copy is destroyed as any object would be. What the
destructor lets go of is its own where a pointer was replaced, and the source's where it was not (`Part.aliased`).

Cells are counted, and a cell that is not counted by the program has one reference. Allocations succeed while there is a
budget, so a budget says which of them is the first to fail.

- `cloneParts_stopped`: what the source loses if copying stops at a part.
- `cloneObject_fine_iff`: so when copying an object is safe.
- `copies_safe_iff`, `kept_safe_iff`: for objects of which all pointers are treated alike.
-/
import Mathlib.Tactic

namespace Libnl.FlatClone

/-! ## Memory -/

structure Mem where
  count : ℕ → ℤ
  /-- this cell and those behind it are not in use -/
  brk : ℕ
  /-- the allocations that succeed from here on -/
  budget : ℕ

namespace Mem

def get (m : Mem) (p : ℕ) : Mem := { m with count := Function.update m.count p (m.count p + 1) }

def put (m : Mem) (p : ℕ) : Mem := { m with count := Function.update m.count p (m.count p - 1) }

def letGo (m : Mem) (ps : List ℕ) : Mem := ps.foldl put m

/-- a new cell, for which `n` allocations have to succeed -/
def alloc (m : Mem) (n : ℕ) : Option (ℕ × Mem) :=
  if m.budget < n then none else some (m.brk, ⟨Function.update m.count m.brk 1, m.brk + 1, m.budget - n⟩)

theorem put_count (m : Mem) (p q : ℕ) : (m.put p).count q = m.count q - [p].count q := by
  by_cases h : q = p
  · subst h
    simp [put]
  · have hne : p ≠ q := fun heq => h heq.symm
    simp [put, h, hne]

theorem get_count (m : Mem) (p q : ℕ) : (m.get p).count q = m.count q + [p].count q := by
  by_cases h : q = p
  · subst h
    simp [get]
  · have hne : p ≠ q := fun heq => h heq.symm
    simp [get, h, hne]

theorem letGo_count (m : Mem) (ps : List ℕ) (q : ℕ) : (m.letGo ps).count q = m.count q - ps.count q := by
  induction ps generalizing m with
  | nil => simp [letGo]
  | cons p ps ih =>
    have hrest := ih (m.put p)
    have hsplit : ((p :: ps).count q : ℤ) = [p].count q + ps.count q := by
      rw [← List.singleton_append, List.count_append, Nat.cast_add]
    show ((m.put p).letGo ps).count q = _
    rw [hrest, put_count, hsplit]
    ring

theorem alloc_none {m : Mem} {n : ℕ} (h : m.budget < n) : m.alloc n = none := if_pos h

theorem alloc_some {m : Mem} {n : ℕ} (h : n ≤ m.budget) :
    m.alloc n = some (m.brk, ⟨Function.update m.count m.brk 1, m.brk + 1, m.budget - n⟩) := if_neg (not_lt.2 h)

/-- `m'` has new cells, for which `n` allocations were made -/
structure Extends (m m' : Mem) (n : ℕ) : Prop where
  brk : m.brk ≤ m'.brk
  budget : m'.budget = m.budget - n
  count : ∀ q < m.brk, m'.count q = m.count q

theorem Extends.refl (m : Mem) : m.Extends m 0 := ⟨le_rfl, rfl, fun _ _ => rfl⟩

theorem Extends.trans {m1 m2 m3 : Mem} {n k : ℕ} (h1 : m1.Extends m2 n) (h2 : m2.Extends m3 k) :
    m1.Extends m3 (n + k) where
  brk := h1.brk.trans h2.brk
  budget := by rw [h2.budget, h1.budget, Nat.sub_sub]
  count q hq := by rw [h2.count q (hq.trans_le h1.brk), h1.count q hq]

theorem extends_alloc {m : Mem} {n : ℕ} (h : n ≤ m.budget) : ∃ m', m.alloc n = some (m.brk, m') ∧ m.Extends m' n :=
  ⟨_, alloc_some h, Nat.le_succ _, rfl, fun _ hq => Function.update_of_ne hq.ne _ _⟩

@[simp] theorem letGo_brk (m : Mem) (ps : List ℕ) : (m.letGo ps).brk = m.brk := by
  induction ps generalizing m with
  | nil => rfl
  | cons p ps ih => exact ih (m.put p)

end Mem

/-- new cells are none of the old ones -/
theorem count_fresh {ps : List ℕ} {n q : ℕ} (hps : ∀ p ∈ ps, n ≤ p) (hq : q < n) : ps.count q = 0 :=
  List.count_eq_zero.2 fun hmem => absurd (hps q hmem) (not_le.2 hq)

theorem count_new {n q : ℕ} (h : q < n) : [n].count q = 0 := count_fresh (fun _ hp => (List.mem_singleton.1 hp).ge) h

/-! ## Parts -/

/-- what came of copying a part -/
structure Outcome where
  ok : Bool
  /-- a pointer was followed that is not there, or the destructor will do so -/
  fault : Bool
  /-- an allocation failed, and nobody noticed -/
  missed : Bool
  /-- what the destructor lets go of -/
  held : List ℕ
  /-- what the copy refers to -/
  refers : List ℕ
  mem : Mem

/-- the count of a cell once the copy is destroyed -/
def Outcome.net (o : Outcome) (q : ℕ) : ℤ := o.mem.count q - o.held.count q

/-- a part of an object -/
structure Part where
  /-- what it refers to -/
  refs : List ℕ
  /-- what the destructor lets go of, as long as nothing is replaced -/
  aliased : List ℕ
  /-- what the copy takes a reference of -/
  links : List ℕ
  /-- what the copy shares with the source without a reference -/
  shares : List ℕ
  /-- the allocations that have to succeed -/
  needs : ℕ
  /-- all allocations -/
  takes : ℕ
  /-- once it is copied, what the destructor of the copy lets go of that is the source's -/
  leaks : List ℕ
  /-- the same if it is not copied, with this budget -/
  left : ℕ → List ℕ
  /-- if it is not copied, with this budget: whether a pointer is followed that is not there -/
  faults : ℕ → Bool
  clone : Mem → Outcome

/-- the part is copied -/
structure Part.Copies (P : Part) (m : Mem) : Prop where
  ok : (P.clone m).ok = true
  fault : (P.clone m).fault = false
  missed : (P.clone m).missed = decide (m.budget < P.takes)
  budget : (P.clone m).mem.budget = m.budget - P.takes
  taken : ∀ q < m.brk, (P.clone m).mem.count q = m.count q + P.links.count q
  refers : ∀ q < m.brk, q ∈ (P.clone m).refers ↔ q ∈ P.links ∨ q ∈ P.shares
  net : ∀ q < m.brk, (P.clone m).net q = m.count q - P.leaks.count q

/-- the part is not copied -/
structure Part.Fails (P : Part) (m : Mem) : Prop where
  ok : (P.clone m).ok = false
  fault : (P.clone m).fault = P.faults m.budget
  net : ∀ q < m.brk, (P.clone m).net q = m.count q - (P.left m.budget).count q

/-- the description of the part is what its copying does -/
structure Part.Lawful (P : Part) : Prop where
  brk : ∀ m, m.brk ≤ (P.clone m).mem.brk
  enough : P.needs ≤ P.takes
  copies : ∀ m, P.needs ≤ m.budget → P.Copies m
  fails : ∀ m, m.budget < P.needs → P.Fails m
  leaks : ∀ p ∈ P.leaks, p ∈ P.refs
  left : ∀ b, ∀ p ∈ P.left b, p ∈ P.refs
  aliased : ∀ p ∈ P.aliased, p ∈ P.refs
  shares : ∀ p ∈ P.shares, p ∈ P.refs

def refsOf (Ps : List Part) : List ℕ := Ps.flatMap Part.refs

def linksOf (Ps : List Part) : List ℕ := Ps.flatMap Part.links

def takesOf (Ps : List Part) : ℕ := (Ps.map Part.takes).sum

/-- the parts in turn, up to the first that cannot be copied; those behind it stay as they are -/
def cloneParts : List Part → Mem → Outcome
  | [], m => ⟨true, false, false, [], [], m⟩
  | P :: Ps, m =>
    let o := P.clone m
    if o.ok then
      let r := cloneParts Ps o.mem
      ⟨r.ok, o.fault || r.fault, o.missed || r.missed, o.held ++ r.held, o.refers ++ r.refers, r.mem⟩
    else { o with held := o.held ++ Ps.flatMap Part.aliased }

/-- how copying an object ends -/
inductive Result where
  | crashed
  | null (m : Mem)
  /-- a copy; `missed` if an allocation failed -/
  | object (missed : Bool) (refers : List ℕ) (m : Mem)

def cloneObject (Ps : List Part) (m : Mem) : Result :=
  match m.alloc 1 with
  | none => .null m
  | some (self, m) =>
    let o := cloneParts Ps m
    if o.ok then .object o.missed o.refers o.mem
    else if o.fault then .crashed
    else .null ((o.mem.letGo o.held).put self)

/-- A copy is safe: without one, everything the source refers to is there as before. With one, no allocation failed, and
everything is there as before but what the copy takes a reference of, which is all that is shared. -/
def Fine (Ps : List Part) (m : Mem) : Prop :=
  match cloneObject Ps m with
  | .crashed => False
  | .null m' => ∀ p ∈ refsOf Ps, m'.count p = m.count p
  | .object missed refers m' => missed = false ∧
      ∀ p ∈ refsOf Ps, m'.count p = m.count p + (linksOf Ps).count p ∧ (p ∈ refers → p ∈ linksOf Ps)

/-! ## Where copying stops -/

/-- a part that is not copied, with the parts around it and the budget there -/
structure Stop where
  front : List Part
  part : Part
  budget : ℕ
  back : List Part

/-- what the source loses -/
def Stop.lost (s : Stop) : List ℕ :=
  s.front.flatMap Part.leaks ++ s.part.left s.budget ++ s.back.flatMap Part.aliased

def stopOf : List Part → ℕ → Option Stop
  | [], _ => none
  | P :: Ps, b =>
    if b < P.needs then some ⟨[], P, b, Ps⟩
    else (stopOf Ps (b - P.takes)).map fun s => { s with front := P :: s.front }

/-- With this budget a copy is safe: all allocations succeed and nothing is shared without a reference, or copying stops
and the source loses nothing. -/
def Safe (Ps : List Part) (b : ℕ) : Prop :=
  match stopOf Ps b with
  | none => takesOf Ps ≤ b ∧ ∀ P ∈ Ps, ∀ q ∈ P.shares, q ∈ linksOf Ps
  | some s => s.part.faults s.budget = false ∧ s.lost = []

section

variable {P : Part} {Ps : List Part} {b : ℕ} {s : Stop}

theorem stopOf_head (h : b < P.needs) : stopOf (P :: Ps) b = some ⟨[], P, b, Ps⟩ := if_pos h

theorem stopOf_tail (h : P.needs ≤ b) :
    stopOf (P :: Ps) b = (stopOf Ps (b - P.takes)).map fun s => { s with front := P :: s.front } := if_neg (not_lt.2 h)

theorem stopOf_split (h : stopOf Ps b = some s) : Ps = s.front ++ s.part :: s.back := by
  induction Ps generalizing b s with
  | nil => cases h
  | cons P Ps ih =>
    rcases Nat.lt_or_ge b P.needs with hlt | hge
    · rw [stopOf_head hlt] at h
      cases h
      rfl
    · rw [stopOf_tail hge] at h
      obtain ⟨s', hs', rfl⟩ := Option.map_eq_some_iff.1 h
      have hrest := ih hs'
      show P :: Ps = P :: (s'.front ++ s'.part :: s'.back)
      rw [← hrest]

theorem stopOf_none (hPs : ∀ P ∈ Ps, P.Lawful) (h : takesOf Ps ≤ b) : stopOf Ps b = none := by
  induction Ps generalizing b with
  | nil => rfl
  | cons P Ps ih =>
    have hsum : takesOf (P :: Ps) = P.takes + takesOf Ps := by simp [takesOf]
    have hle := (hPs P List.mem_cons_self).enough
    rw [stopOf_tail (by omega), ih (fun Q hQ => hPs Q (List.mem_cons_of_mem P hQ)) (by omega)]
    rfl

/-- copying that does not stop has memory for all parts, if no part does without -/
theorem takesOf_le (hsame : ∀ P ∈ Ps, P.takes = P.needs) (h : stopOf Ps b = none) : takesOf Ps ≤ b := by
  induction Ps generalizing b with
  | nil => exact Nat.zero_le b
  | cons P Ps ih =>
    have hsum : takesOf (P :: Ps) = P.takes + takesOf Ps := by simp [takesOf]
    have hhead := hsame P List.mem_cons_self
    rcases Nat.lt_or_ge b P.needs with hlt | hge
    · rw [stopOf_head hlt] at h
      cases h
    · rw [stopOf_tail hge, Option.map_eq_none_iff] at h
      have hrest := ih (fun Q hQ => hsame Q (List.mem_cons_of_mem P hQ)) h
      omega

theorem lost_sub (hPs : ∀ P ∈ Ps, P.Lawful) (h : stopOf Ps b = some s) : ∀ p ∈ s.lost, p ∈ refsOf Ps := by
  have hsplit := stopOf_split h
  intro p hp
  rw [Stop.lost, List.append_assoc, List.mem_append, List.mem_append] at hp
  rcases hp with hfront | hleft | hback
  · obtain ⟨Q, hQ, hq⟩ := List.mem_flatMap.1 hfront
    have hmem : Q ∈ Ps := hsplit ▸ List.mem_append_left _ hQ
    exact List.mem_flatMap.2 ⟨Q, hmem, (hPs Q hmem).leaks p hq⟩
  · have hmem : s.part ∈ Ps := hsplit ▸ List.mem_append_right _ List.mem_cons_self
    exact List.mem_flatMap.2 ⟨s.part, hmem, (hPs _ hmem).left _ p hleft⟩
  · obtain ⟨Q, hQ, hq⟩ := List.mem_flatMap.1 hback
    have hmem : Q ∈ Ps := hsplit ▸ List.mem_append_right _ (List.mem_cons_of_mem _ hQ)
    exact List.mem_flatMap.2 ⟨Q, hmem, (hPs Q hmem).aliased p hq⟩

end

/-! ## All parts -/

theorem cloneParts_cons_ok {P : Part} {Ps : List Part} {m : Mem} (h : (P.clone m).ok = true) :
    cloneParts (P :: Ps) m = ⟨(cloneParts Ps (P.clone m).mem).ok,
      (P.clone m).fault || (cloneParts Ps (P.clone m).mem).fault,
      (P.clone m).missed || (cloneParts Ps (P.clone m).mem).missed,
      (P.clone m).held ++ (cloneParts Ps (P.clone m).mem).held,
      (P.clone m).refers ++ (cloneParts Ps (P.clone m).mem).refers, (cloneParts Ps (P.clone m).mem).mem⟩ := by
  rw [cloneParts]
  simp only [h, if_true]

theorem cloneParts_cons_fail {P : Part} {Ps : List Part} {m : Mem} (h : (P.clone m).ok = false) :
    cloneParts (P :: Ps) m = { P.clone m with held := (P.clone m).held ++ Ps.flatMap Part.aliased } := by
  rw [cloneParts]
  simp only [h, Bool.false_eq_true, if_false]

section

variable {Ps : List Part} (hPs : ∀ P ∈ Ps, P.Lawful) {m : Mem}

include hPs

/-- copying that does not stop gives a copy -/
theorem cloneParts_ok (h : stopOf Ps m.budget = none) :
    (cloneParts Ps m).ok = true ∧ (cloneParts Ps m).missed = decide (m.budget < takesOf Ps) := by
  induction Ps generalizing m with
  | nil => exact ⟨rfl, (decide_eq_false (Nat.not_lt_zero _)).symm⟩
  | cons P Ps ih =>
    rcases Nat.lt_or_ge m.budget P.needs with hlt | hge
    · rw [stopOf_head hlt] at h
      cases h
    · have hcopy := (hPs P List.mem_cons_self).copies m hge
      rw [stopOf_tail hge, Option.map_eq_none_iff, ← hcopy.budget] at h
      obtain ⟨hok, hmissed⟩ := ih (fun Q hQ => hPs Q (List.mem_cons_of_mem P hQ)) h
      have hsum : takesOf (P :: Ps) = P.takes + takesOf Ps := by simp [takesOf]
      rw [cloneParts_cons_ok hcopy.ok]
      refine ⟨hok, ?_⟩
      show ((P.clone m).missed || (cloneParts Ps (P.clone m).mem).missed) = decide (m.budget < takesOf (P :: Ps))
      rw [hcopy.missed, hmissed, hcopy.budget, hsum, ← Bool.decide_or]
      exact decide_eq_decide.2 (by omega)

/-- what a copy took -/
theorem cloneParts_taken (h : stopOf Ps m.budget = none) {q : ℕ} (hq : q < m.brk) :
    (cloneParts Ps m).mem.count q = m.count q + (linksOf Ps).count q := by
  induction Ps generalizing m with
  | nil => simp [cloneParts, linksOf]
  | cons P Ps ih =>
    rcases Nat.lt_or_ge m.budget P.needs with hlt | hge
    · rw [stopOf_head hlt] at h
      cases h
    · have hlawful := hPs P List.mem_cons_self
      have hcopy := hlawful.copies m hge
      rw [stopOf_tail hge, Option.map_eq_none_iff, ← hcopy.budget] at h
      have hrest := ih (fun Q hQ => hPs Q (List.mem_cons_of_mem P hQ)) h (hq.trans_le (hlawful.brk m))
      have hlinks : linksOf (P :: Ps) = P.links ++ linksOf Ps := List.flatMap_cons
      rw [cloneParts_cons_ok hcopy.ok, hlinks, List.count_append, Nat.cast_add]
      show (cloneParts Ps (P.clone m).mem).mem.count q = _
      rw [hrest, hcopy.taken q hq, add_assoc]

/-- what a copy refers to -/
theorem cloneParts_refers (h : stopOf Ps m.budget = none) {q : ℕ} (hq : q < m.brk) :
    q ∈ (cloneParts Ps m).refers ↔ q ∈ linksOf Ps ∨ q ∈ Ps.flatMap Part.shares := by
  induction Ps generalizing m with
  | nil => simp [cloneParts, linksOf]
  | cons P Ps ih =>
    rcases Nat.lt_or_ge m.budget P.needs with hlt | hge
    · rw [stopOf_head hlt] at h
      cases h
    · have hlawful := hPs P List.mem_cons_self
      have hcopy := hlawful.copies m hge
      rw [stopOf_tail hge, Option.map_eq_none_iff, ← hcopy.budget] at h
      have hrest := ih (fun Q hQ => hPs Q (List.mem_cons_of_mem P hQ)) h (hq.trans_le (hlawful.brk m))
      have hlinks : linksOf (P :: Ps) = P.links ++ linksOf Ps := List.flatMap_cons
      rw [cloneParts_cons_ok hcopy.ok, hlinks, List.flatMap_cons, List.mem_append, List.mem_append, List.mem_append]
      rw [hrest, hcopy.refers q hq]
      exact or_or_or_comm

/-- **Where copying stops** there is no copy, and destroying what there is takes from the source what is lost. -/
theorem cloneParts_stopped {s : Stop} (h : stopOf Ps m.budget = some s) :
    (cloneParts Ps m).ok = false ∧ (cloneParts Ps m).fault = s.part.faults s.budget ∧
      ∀ q < m.brk, (cloneParts Ps m).net q = m.count q - s.lost.count q := by
  induction Ps generalizing m s with
  | nil => cases h
  | cons P Ps ih =>
    have hlawful := hPs P List.mem_cons_self
    rcases Nat.lt_or_ge m.budget P.needs with hlt | hge
    · have hfail := hlawful.fails m hlt
      rw [stopOf_head hlt] at h
      cases h
      rw [cloneParts_cons_fail hfail.ok]
      refine ⟨hfail.ok, hfail.fault, fun q hq => ?_⟩
      have hnet := hfail.net q hq
      simp only [Outcome.net, Stop.lost, List.flatMap_nil, List.nil_append, List.count_append, Nat.cast_add] at hnet ⊢
      omega
    · have hcopy := hlawful.copies m hge
      rw [stopOf_tail hge, ← hcopy.budget] at h
      obtain ⟨s', hs', rfl⟩ := Option.map_eq_some_iff.1 h
      obtain ⟨hok, hfault, hrest⟩ := ih (fun Q hQ => hPs Q (List.mem_cons_of_mem P hQ)) hs'
      rw [cloneParts_cons_ok hcopy.ok]
      refine ⟨hok, ?_, fun q hq => ?_⟩
      · show ((P.clone m).fault || (cloneParts Ps (P.clone m).mem).fault) = _
        rw [hcopy.fault, hfault, Bool.false_or]
      · have hnet := hcopy.net q hq
        have htail := hrest q (hq.trans_le (hlawful.brk m))
        simp only [Outcome.net, Stop.lost, List.flatMap_cons, List.count_append, Nat.cast_add] at hnet htail ⊢
        omega

/-- **Copying an object** is safe without memory for the object itself, and with it just where it is safe for the parts. -/
theorem cloneObject_fine_iff (hrefs : ∀ p ∈ refsOf Ps, p < m.brk) :
    Fine Ps m ↔ m.budget = 0 ∨ Safe Ps (m.budget - 1) := by
  by_cases hzero : m.budget = 0
  · have hnull : cloneObject Ps m = .null m := by rw [cloneObject, Mem.alloc_none (by omega)]
    rw [Fine, hnull]
    exact iff_of_true (fun p _ => rfl) (Or.inl hzero)
  · rw [or_iff_right hzero]
    have halloc := Mem.alloc_some (m := m) (n := 1) (by omega)
    generalize hm1 : (⟨Function.update m.count m.brk 1, m.brk + 1, m.budget - 1⟩ : Mem) = m1 at halloc
    have hbudget : m1.budget = m.budget - 1 := by rw [← hm1]
    have hcount : ∀ p ∈ refsOf Ps, m1.count p = m.count p := by
      intro p hp
      rw [← hm1]
      exact Function.update_of_ne (hrefs p hp).ne _ _
    have hbelow : ∀ p ∈ refsOf Ps, p < m1.brk := by
      intro p hp
      rw [← hm1]
      exact (hrefs p hp).trans (Nat.lt_succ_self _)
    rw [Fine, cloneObject, halloc, Safe, ← hbudget]
    cases hstop : stopOf Ps m1.budget with
    | none =>
      obtain ⟨hok, hmissed⟩ := cloneParts_ok hPs hstop
      simp only [hok, if_true, hmissed, decide_eq_false_iff_not, not_lt]
      refine and_congr_right fun _ => ⟨fun hfine P hP q hq => ?_, fun hshares p hp => ⟨?_, fun hrefers => ?_⟩⟩
      · have hmem : q ∈ refsOf Ps := List.mem_flatMap.2 ⟨P, hP, (hPs P hP).shares q hq⟩
        have hshare : q ∈ Ps.flatMap Part.shares := List.mem_flatMap.2 ⟨P, hP, hq⟩
        exact (hfine q hmem).2 ((cloneParts_refers hPs hstop (hbelow q hmem)).2 (Or.inr hshare))
      · rw [cloneParts_taken hPs hstop (hbelow p hp), hcount p hp]
      · rcases (cloneParts_refers hPs hstop (hbelow p hp)).1 hrefers with hlink | hshare
        · exact hlink
        · obtain ⟨P, hP, hq⟩ := List.mem_flatMap.1 hshare
          exact hshares P hP p hq
    | some s =>
      obtain ⟨hok, hfault, hnet⟩ := cloneParts_stopped hPs hstop
      have hfinal : ∀ p ∈ refsOf Ps, (((cloneParts Ps m1).mem.letGo (cloneParts Ps m1).held).put m.brk).count p =
          m.count p - s.lost.count p := by
        intro p hp
        rw [Mem.put_count, Mem.letGo_count, count_new (hrefs p hp), Nat.cast_zero, sub_zero, ← hcount p hp]
        exact hnet p (hbelow p hp)
      simp only [hok, Bool.false_eq_true, if_false, hfault]
      cases s.part.faults s.budget with
      | true => simp
      | false =>
        simp only [Bool.false_eq_true, if_false, true_and]
        constructor
        · intro hall
          refine List.eq_nil_iff_forall_not_mem.2 fun p hp => ?_
          have hmem := lost_sub hPs hstop p hp
          have hkept := hall p hmem
          have hpos := List.count_pos_iff.2 hp
          rw [hfinal p hmem] at hkept
          omega
        · intro hnil p hp
          rw [hfinal p hp, hnil, List.count_nil, Nat.cast_zero, sub_zero]

end

/-! ## Pointers -/

/-- what is done about a pointer -/
inductive How where
  /-- it is replaced by the copy, or by `NULL` without memory -/
  | copied
  /-- the same, and what comes next relies on the copy -/
  | vital
  /-- it is replaced by the copy, and kept without memory -/
  | kept
  /-- it is replaced by the copy or by `NULL`, and nobody looks -/
  | optional
  /-- nothing -/
  | shared
  /-- a reference is taken -/
  | taken
deriving DecidableEq

structure Field where
  how : How
  /-- the number of allocations -/
  allocs : ℕ
  ptr : Option ℕ

/-- a pointer is replaced by that to a copy; without memory, `left` is what is left -/
def replace (left : List ℕ) (faulty : Bool) (n : ℕ) (m : Mem) : Outcome :=
  match m.alloc n with
  | none => ⟨false, faulty, false, left, left, m⟩
  | some (q, m) => ⟨true, false, false, [q], [q], m⟩

/-- the same, but copying goes on without memory -/
def replaceAnyway (n : ℕ) (m : Mem) : Outcome :=
  match m.alloc n with
  | none => ⟨true, false, true, [], [], { m with budget := 0 }⟩
  | some (q, m) => ⟨true, false, false, [q], [q], m⟩

def keep (ps : List ℕ) (m : Mem) : Outcome := ⟨true, false, false, ps, ps, m⟩

def Field.clone (f : Field) (m : Mem) : Outcome :=
  match f.how with
  | .copied => replace [] false f.allocs m
  | .vital => replace [] true f.allocs m
  | .kept => replace f.ptr.toList false f.allocs m
  | .optional => replaceAnyway f.allocs m
  | .shared => keep f.ptr.toList m
  | .taken => keep f.ptr.toList (f.ptr.elim m m.get)

def Field.needs (f : Field) : ℕ :=
  match f.how with
  | .copied | .vital | .kept => f.allocs
  | .optional | .shared | .taken => 0

def Field.takes (f : Field) : ℕ :=
  match f.how with
  | .copied | .vital | .kept | .optional => f.allocs
  | .shared | .taken => 0

def Field.part (f : Field) : Part where
  refs := f.ptr.toList
  aliased := f.ptr.toList
  links := if f.how = .taken then f.ptr.toList else []
  shares := if f.how = .shared then f.ptr.toList else []
  needs := f.needs
  takes := f.takes
  leaks := if f.how = .shared then f.ptr.toList else []
  left := fun _ => if f.how = .kept then f.ptr.toList else []
  faults := fun _ => decide (f.how = .vital)
  clone := f.clone

theorem replace_fail {left : List ℕ} {faulty : Bool} {n : ℕ} {m : Mem} (h : m.budget < n) :
    replace left faulty n m = ⟨false, faulty, false, left, left, m⟩ := by
  rw [replace, Mem.alloc_none h]

theorem replace_ok {left : List ℕ} {faulty : Bool} {n : ℕ} {m : Mem} (h : n ≤ m.budget) :
    replace left faulty n m =
      ⟨true, false, false, [m.brk], [m.brk], ⟨Function.update m.count m.brk 1, m.brk + 1, m.budget - n⟩⟩ := by
  rw [replace, Mem.alloc_some h]

theorem replaceAnyway_fail {n : ℕ} {m : Mem} (h : m.budget < n) :
    replaceAnyway n m = ⟨true, false, true, [], [], { m with budget := 0 }⟩ := by
  rw [replaceAnyway, Mem.alloc_none h]

theorem replaceAnyway_ok {n : ℕ} {m : Mem} (h : n ≤ m.budget) : replaceAnyway n m = replace [] false n m := by
  rw [replaceAnyway, replace, Mem.alloc_some h]

section

variable {P : Part} {left : List ℕ} {faulty : Bool}

/-- a pointer that is replaced is not the source's any more -/
theorem replace_copies {n : ℕ} {m : Mem} (h : n ≤ m.budget) (hclone : P.clone m = replace left faulty n m)
    (htakes : P.takes = n) (hlinks : P.links = []) (hshares : P.shares = []) (hleaks : P.leaks = []) : P.Copies m := by
  rw [replace_ok h] at hclone
  constructor
  case ok => rw [hclone]
  case fault => rw [hclone]
  case missed => rw [hclone, htakes, decide_eq_false (not_lt.2 h)]
  case budget => rw [hclone, htakes]
  case taken =>
    intro q hq
    rw [hclone, hlinks]
    simp [hq.ne]
  case refers =>
    intro q hq
    rw [hclone, hlinks, hshares]
    simp [hq.ne]
  case net =>
    intro q hq
    rw [hclone, hleaks, Outcome.net]
    simp [hq.ne, count_new hq]

/-- **A part whose pointer is replaced** -/
theorem replace_lawful (hclone : P.clone = replace left faulty P.needs) (htakes : P.takes = P.needs)
    (hlinks : P.links = []) (hshares : P.shares = []) (hleaks : P.leaks = []) (hleft : ∀ b, P.left b = left)
    (hfaults : ∀ b, P.faults b = faulty) (hrefs : ∀ p ∈ left, p ∈ P.refs) (haliased : ∀ p ∈ P.aliased, p ∈ P.refs) :
    P.Lawful where
  brk m := by
    rw [hclone]
    rcases Nat.lt_or_ge m.budget P.needs with hlt | hge
    · rw [replace_fail hlt]
    · rw [replace_ok hge]
      exact Nat.le_succ _
  enough := htakes.ge
  copies m h := replace_copies h (congrFun hclone m) htakes hlinks hshares hleaks
  fails m h := by
    have heq : P.clone m = ⟨false, faulty, false, left, left, m⟩ := by rw [hclone, replace_fail h]
    exact ⟨by rw [heq], by rw [heq, hfaults], fun q _ => by rw [heq, hleft, Outcome.net]⟩
  leaks := by simp [hleaks]
  left b p hp := hrefs p (hleft b ▸ hp)
  aliased := haliased
  shares := by simp [hshares]

/-- **A part whose pointers stay**, with a reference or without -/
theorem keep_lawful (hsplit : P.refs = P.links ++ P.shares)
    (hclone : ∀ m, ∃ m', P.clone m = keep P.refs m' ∧ m'.brk = m.brk ∧ m'.budget = m.budget ∧
      ∀ q, m'.count q = m.count q + P.links.count q)
    (hneeds : P.needs = 0) (htakes : P.takes = 0) (hleaks : P.leaks = P.shares) (hleft : ∀ b, P.left b = [])
    (haliased : ∀ p ∈ P.aliased, p ∈ P.refs) : P.Lawful := by
  have hshares : ∀ p ∈ P.shares, p ∈ P.refs := by
    intro p hp
    rw [hsplit]
    exact List.mem_append_right _ hp
  constructor
  case brk =>
    intro m
    obtain ⟨m', heq, hbrk, -, -⟩ := hclone m
    rw [heq]
    exact hbrk.ge
  case enough => rw [hneeds, htakes]
  case copies =>
    intro m _
    obtain ⟨m', heq, -, hbudget, hcount⟩ := hclone m
    constructor
    case ok => rw [heq, keep]
    case fault => rw [heq, keep]
    case missed =>
      rw [heq, htakes]
      exact (decide_eq_false (Nat.not_lt_zero _)).symm
    case budget =>
      rw [heq, htakes]
      exact hbudget
    case taken =>
      intro q _
      rw [heq]
      exact hcount q
    case refers =>
      intro q _
      rw [heq, hsplit]
      exact List.mem_append
    case net =>
      intro q _
      rw [heq, hleaks]
      simp only [Outcome.net, keep, hcount, hsplit, List.count_append, Nat.cast_add]
      ring
  case fails =>
    intro m h
    rw [hneeds] at h
    exact absurd h (Nat.not_lt_zero _)
  case leaks =>
    rw [hleaks]
    exact hshares
  case left =>
    intro b p hp
    rw [hleft] at hp
    exact absurd hp List.not_mem_nil
  case aliased => exact haliased
  case shares => exact hshares

/-- **A part whose pointer is replaced, if only by `NULL`** -/
theorem replaceAnyway_lawful (hclone : P.clone = replaceAnyway P.takes) (hneeds : P.needs = 0) (hlinks : P.links = [])
    (hshares : P.shares = []) (hleaks : P.leaks = []) (hleft : ∀ b, P.left b = [])
    (haliased : ∀ p ∈ P.aliased, p ∈ P.refs) : P.Lawful where
  brk m := by
    rw [hclone]
    rcases Nat.lt_or_ge m.budget P.takes with hlt | hge
    · rw [replaceAnyway_fail hlt]
    · rw [replaceAnyway_ok hge, replace_ok hge]
      exact Nat.le_succ _
  enough := by
    rw [hneeds]
    exact Nat.zero_le _
  copies m _ := by
    rcases Nat.lt_or_ge m.budget P.takes with hlt | hge
    · have heq : P.clone m = ⟨true, false, true, [], [], { m with budget := 0 }⟩ := by
        rw [hclone, replaceAnyway_fail hlt]
      constructor
      case ok => rw [heq]
      case fault => rw [heq]
      case missed => rw [heq, decide_eq_true hlt]
      case budget => rw [heq, Nat.sub_eq_zero_of_le hlt.le]
      case taken => simp [heq, hlinks]
      case refers => simp [heq, hlinks, hshares]
      case net => simp [heq, hleaks, Outcome.net]
    · have heq : P.clone m = replace [] false P.takes m := by rw [hclone, replaceAnyway_ok hge]
      exact replace_copies hge heq rfl hlinks hshares hleaks
  fails m h := by
    rw [hneeds] at h
    exact absurd h (Nat.not_lt_zero _)
  leaks := by simp [hleaks]
  left := by simp [hleft]
  aliased := haliased
  shares := by simp [hshares]

end

theorem Field.lawful (f : Field) : f.part.Lawful := by
  obtain ⟨how, allocs, ptr⟩ := f
  cases how with
  | copied =>
    exact replace_lawful (show _ = replace [] false allocs from rfl) rfl rfl rfl rfl (fun _ => rfl) (fun _ => rfl)
      (fun q hq => absurd hq List.not_mem_nil) fun q hq => hq
  | vital =>
    exact replace_lawful (show _ = replace [] true allocs from rfl) rfl rfl rfl rfl (fun _ => rfl) (fun _ => rfl)
      (fun q hq => absurd hq List.not_mem_nil) fun q hq => hq
  | kept =>
    exact replace_lawful (show _ = replace ptr.toList false allocs from rfl) rfl rfl rfl rfl (fun _ => rfl)
      (fun _ => rfl) (fun q hq => hq) fun q hq => hq
  | optional =>
    exact replaceAnyway_lawful (show _ = replaceAnyway allocs from rfl) rfl rfl rfl rfl (fun _ => rfl) fun q hq => hq
  | shared =>
    exact keep_lawful rfl (fun m => ⟨m, rfl, rfl, rfl, fun q => (add_zero _).symm⟩) rfl rfl rfl (fun _ => rfl)
      fun q hq => hq
  | taken =>
    refine keep_lawful (List.append_nil _).symm (fun m => ⟨ptr.elim m m.get, rfl, ?_⟩) rfl rfl rfl (fun _ => rfl)
      fun q hq => hq
    cases ptr with
    | none => exact ⟨rfl, rfl, fun q => (add_zero _).symm⟩
    | some p => exact ⟨rfl, rfl, Mem.get_count m p⟩

/-! ## Objects of pointers -/

def fieldParts (fs : List Field) : List Part := fs.map Field.part

theorem fieldParts_lawful (fs : List Field) : ∀ P ∈ fieldParts fs, P.Lawful := by
  intro P hP
  obtain ⟨f, -, rfl⟩ := List.mem_map.1 hP
  exact f.lawful

/-- links, and pointers that are replaced -/
def copies (links ps : List ℕ) : List Field :=
  (links.map fun p => ⟨.taken, 0, some p⟩) ++ ps.map fun p => ⟨.copied, 1, some p⟩

/-- pointers that are replaced if there is memory -/
def keptCopies (ps : List ℕ) : List Field := ps.map fun p => ⟨.kept, 1, some p⟩

section

variable {ps : List ℕ} {b : ℕ}

theorem stopOf_free {Ls Ps : List Part} (hfree : ∀ P ∈ Ls, P.needs = 0 ∧ P.takes = 0) :
    stopOf (Ls ++ Ps) b = (stopOf Ps b).map fun s => { s with front := Ls ++ s.front } := by
  induction Ls with
  | nil => exact Option.map_id'.symm
  | cons P Ls ih =>
    obtain ⟨hneeds, htakes⟩ := hfree P List.mem_cons_self
    have hrest := ih fun Q hQ => hfree Q (List.mem_cons_of_mem P hQ)
    rw [List.cons_append, stopOf_tail (by omega), htakes, Nat.sub_zero, hrest]
    exact Option.map_map _ _ _

theorem takesOf_copies (links : List ℕ) : takesOf (fieldParts (copies links ps)) = ps.length := by
  have hlinks : (links.map fun _ => 0).sum = 0 := by simp
  have hps : (ps.map fun _ => 1).sum = ps.length := by simp
  simp only [takesOf, fieldParts, copies, List.map_append, List.map_map, List.sum_append]
  show (links.map fun _ => 0).sum + (ps.map fun _ => 1).sum = ps.length
  rw [hlinks, hps, Nat.zero_add]

/-- with a cell for each pointer but for one, the last is missing -/
theorem stopOf_copies {s : Stop} (h : stopOf (fieldParts (copies [] ps)) b = some s) :
    s.front.flatMap Part.leaks = [] ∧ s.part.left s.budget = [] ∧ s.part.faults s.budget = false ∧
      (s.back.flatMap Part.aliased).length + (b + 1) = ps.length := by
  induction ps generalizing b s with
  | nil => cases h
  | cons p ps ih =>
    have hcons : fieldParts (copies [] (p :: ps)) = (⟨.copied, 1, some p⟩ : Field).part :: fieldParts (copies [] ps) := rfl
    rw [hcons] at h
    rcases Nat.lt_or_ge b 1 with hlt | hge
    · rw [stopOf_head hlt] at h
      cases h
      have haliased : (fieldParts (copies [] ps)).flatMap Part.aliased = ps := by
        simp only [fieldParts, copies, List.map_nil, List.nil_append, List.flatMap_map, List.map_map]
        exact List.flatMap_singleton' ps
      refine ⟨rfl, rfl, rfl, ?_⟩
      show ((fieldParts (copies [] ps)).flatMap Part.aliased).length + (b + 1) = (p :: ps).length
      rw [haliased, List.length_cons]
      omega
    · rw [stopOf_tail hge] at h
      obtain ⟨s', hs', rfl⟩ := Option.map_eq_some_iff.1 h
      have hb : b - (⟨.copied, 1, some p⟩ : Field).part.takes = b - 1 := rfl
      rw [hb] at hs'
      obtain ⟨hleaks, hleft, hfaults, hlen⟩ := ih hs'
      refine ⟨hleaks, hleft, hfaults, ?_⟩
      show (s'.back.flatMap Part.aliased).length + (b + 1) = (p :: ps).length
      rw [List.length_cons]
      omega

theorem shares_fields {fs : List Field} (h : ∀ f ∈ fs, f.how ≠ .shared) : ∀ P ∈ fieldParts fs, P.shares = [] := by
  intro P hP
  obtain ⟨f, hf, rfl⟩ := List.mem_map.1 hP
  exact if_neg (h f hf)

/-- **Pointers that are replaced**: without memory for the last one, nothing is lost. -/
theorem copies_safe_iff {links : List ℕ} : Safe (fieldParts (copies links ps)) b ↔ ps.length ≤ b + 1 := by
  have hhow : ∀ f ∈ copies links ps, f.how ≠ .shared ∧ f.takes = f.needs := by
    intro f hf
    rcases List.mem_append.1 hf with hlink | hcopy
    · obtain ⟨p, -, rfl⟩ := List.mem_map.1 hlink
      exact ⟨How.noConfusion, rfl⟩
    · obtain ⟨p, -, rfl⟩ := List.mem_map.1 hcopy
      exact ⟨How.noConfusion, rfl⟩
  have hsame : ∀ P ∈ fieldParts (copies links ps), P.takes = P.needs := by
    intro P hP
    obtain ⟨f, hf, rfl⟩ := List.mem_map.1 hP
    exact (hhow f hf).2
  have hshares := shares_fields fun f hf => (hhow f hf).1
  have hnone := stopOf_none (b := b) (fieldParts_lawful (copies links ps))
  have hfit := takesOf_le (b := b) hsame
  rw [takesOf_copies] at hnone hfit
  rw [Safe, takesOf_copies]
  cases hstop : stopOf (fieldParts (copies links ps)) b with
  | none =>
    have hle := hfit hstop
    refine iff_of_true ⟨hle, fun P hP q hq => ?_⟩ (by omega)
    rw [hshares P hP] at hq
    exact absurd hq List.not_mem_nil
  | some s =>
    have hlt : b < ps.length := by
      by_contra hge
      rw [hnone (by omega)] at hstop
      cases hstop
    have hsplit : fieldParts (copies links ps) =
        fieldParts (links.map fun p => ⟨.taken, 0, some p⟩) ++ fieldParts (copies [] ps) := List.map_append
    have hfree : ∀ P ∈ fieldParts (links.map fun p => (⟨.taken, 0, some p⟩ : Field)), P.needs = 0 ∧ P.takes = 0 ∧
        P.leaks = [] := by
      intro P hP
      obtain ⟨f, hf, rfl⟩ := List.mem_map.1 hP
      obtain ⟨p, -, rfl⟩ := List.mem_map.1 hf
      exact ⟨rfl, rfl, rfl⟩
    rw [hsplit, stopOf_free fun P hP => ⟨(hfree P hP).1, (hfree P hP).2.1⟩] at hstop
    obtain ⟨s', hs', rfl⟩ := Option.map_eq_some_iff.1 hstop
    obtain ⟨hleaks, hleft, hfaults, hlen⟩ := stopOf_copies hs'
    have hfront : (fieldParts (links.map fun p => (⟨.taken, 0, some p⟩ : Field))).flatMap Part.leaks = [] :=
      List.flatMap_eq_nil_iff.2 fun P hP => (hfree P hP).2.2
    show s'.part.faults s'.budget = false ∧ (_ ++ s'.front).flatMap Part.leaks ++ s'.part.left s'.budget ++
      s'.back.flatMap Part.aliased = [] ↔ ps.length ≤ b + 1
    rw [List.flatMap_append, hfront, hleaks, hleft, List.nil_append, List.nil_append, List.nil_append,
      ← List.length_eq_zero_iff, and_iff_right hfaults]
    omega

/-- **Pointers that are kept without memory**: any of them is lost. -/
theorem kept_safe_iff : Safe (fieldParts (keptCopies ps)) b ↔ ps.length ≤ b := by
  have hhow : ∀ f ∈ keptCopies ps, ∃ p, f = ⟨.kept, 1, some p⟩ := by
    intro f hf
    obtain ⟨p, -, rfl⟩ := List.mem_map.1 hf
    exact ⟨p, rfl⟩
  have hshares : ∀ P ∈ fieldParts (keptCopies ps), P.shares = [] := by
    refine shares_fields fun f hf => ?_
    obtain ⟨p, rfl⟩ := hhow f hf
    exact How.noConfusion
  have htakes : takesOf (fieldParts (keptCopies ps)) = ps.length := by
    simp only [takesOf, fieldParts, keptCopies, List.map_map]
    show (ps.map fun _ => 1).sum = ps.length
    simp
  rw [Safe, htakes]
  cases hstop : stopOf (fieldParts (keptCopies ps)) b with
  | none =>
    refine and_iff_left fun P hP q hq => ?_
    rw [hshares P hP] at hq
    exact absurd hq List.not_mem_nil
  | some s =>
    refine iff_of_false ?_ fun hle => ?_
    · rintro ⟨-, hlost⟩
      have hmem : s.part ∈ fieldParts (keptCopies ps) := by
        rw [stopOf_split hstop]
        exact List.mem_append_right _ List.mem_cons_self
      obtain ⟨f, hf, heq⟩ := List.mem_map.1 hmem
      obtain ⟨p, rfl⟩ := hhow f hf
      have hleft : s.part.left s.budget = [p] := by rw [← heq]; rfl
      rw [Stop.lost, hleft] at hlost
      simp at hlost
    · rw [stopOf_none (fieldParts_lawful _) (htakes.le.trans hle)] at hstop
      cases hstop

end

end Libnl.FlatClone
