/-
Descending into a graph without marking what has been seen.

A node has a list of successors. A descent stops at a node and then descends into each of its successors, so it comes to a
node once for every path that leads there. It takes the number of levels it may go down, and gives `none` when these are not
enough.

- `descend_isSome_iff`: enough levels exist exactly when no cycle can be reached; for the nodes with successors there has to
  be a bound.
- `descend_perm`: what is visited is the start, and the successors of everything visited.
- `count_le_one_iff`: nodes are visited at most once exactly when there is one way to enter each of them.
-/
import Mathlib.Tactic

namespace Libnl.Descent

open Relation

section
variable {α : Type} (succ : α → List α)

/-- one result for all nodes of a list -/
def collect (f : α → Option (List α)) : List α → Option (List α)
  | [] => some []
  | b :: bs => (f b).bind fun l => (collect f bs).map (l ++ ·)

/-- the nodes visited, each as often as it is -/
def descend : ℕ → α → Option (List α)
  | 0, _ => none
  | n + 1, a => (collect (descend n) (succ a)).map (a :: ·)

def Edge (b c : α) : Prop := c ∈ succ b

/-- a cycle can be reached -/
def Cyclic (a : α) : Prop := ∃ q, ReflTransGen (Edge succ) a q ∧ TransGen (Edge succ) q q

/-- there is at most one way from what can be reached into a node -/
structure EnteredOnce [DecidableEq α] (a c : α) : Prop where
  unique : ∀ b b', ReflTransGen (Edge succ) a b → ReflTransGen (Edge succ) a b' → c ∈ succ b → c ∈ succ b' → b = b'
  count : ∀ b, ReflTransGen (Edge succ) a b → (succ b).count c ≤ 1

variable {succ}

/-! ## Collecting -/

theorem collect_cons {f : α → Option (List α)} {b : α} {bs l : List α} (h : collect f (b :: bs) = some l) :
    ∃ l1 l2, f b = some l1 ∧ collect f bs = some l2 ∧ l = l1 ++ l2 := by
  obtain ⟨l1, h1, h2⟩ := Option.bind_eq_some_iff.1 h
  obtain ⟨l2, h3, rfl⟩ := Option.map_eq_some_iff.1 h2
  exact ⟨l1, l2, h1, h3, rfl⟩

theorem collect_isSome_iff {f : α → Option (List α)} (bs : List α) :
    (collect f bs).isSome ↔ ∀ b ∈ bs, (f b).isSome := by
  induction bs with
  | nil => simp [collect]
  | cons b bs ih =>
    rw [List.forall_mem_cons, ← ih, collect]
    cases f b with
    | none => simp
    | some l => simp

theorem mem_collect {f : α → Option (List α)} {bs l : List α} (h : collect f bs = some l) {c : α} (hc : c ∈ l) :
    ∃ b ∈ bs, ∃ lb, f b = some lb ∧ c ∈ lb := by
  induction bs generalizing l with
  | nil =>
    rw [← Option.some.inj h] at hc
    cases hc
  | cons b bs ih =>
    obtain ⟨l1, l2, h1, h2, rfl⟩ := collect_cons h
    rcases List.mem_append.1 hc with hc | hc
    · exact ⟨b, List.mem_cons_self, l1, h1, hc⟩
    · obtain ⟨b', hb', hrest⟩ := ih h2 hc
      exact ⟨b', List.mem_cons_of_mem b hb', hrest⟩

theorem descend_succ {n : ℕ} {a : α} {l : List α} (h : descend succ (n + 1) a = some l) :
    ∃ rest, collect (descend succ n) (succ a) = some rest ∧ l = a :: rest := by
  obtain ⟨rest, h1, h2⟩ := Option.map_eq_some_iff.1 h
  exact ⟨rest, h1, h2.symm⟩

theorem descend_succ_isSome_iff (n : ℕ) (a : α) :
    (descend succ (n + 1) a).isSome ↔ ∀ b ∈ succ a, (descend succ n b).isSome := by
  rw [descend, Option.isSome_map, collect_isSome_iff]

/-- more levels do no harm -/
theorem descend_isSome_mono {n m : ℕ} (hnm : n ≤ m) {a : α} (h : (descend succ n a).isSome) :
    (descend succ m a).isSome := by
  induction n generalizing m a with
  | zero => cases h
  | succ n ih =>
    obtain ⟨m, rfl⟩ : ∃ k, m = k + 1 := ⟨m - 1, by omega⟩
    rw [descend_succ_isSome_iff] at h ⊢
    exact fun b hb => ih (by omega) (h b hb)

/-! ## When it ends -/

/-- from a node that leads to a cycle, some successor does so, too -/
theorem Cyclic.step {a : α} (h : Cyclic succ a) : ∃ b ∈ succ a, Cyclic succ b := by
  obtain ⟨q, hreach, hq⟩ := h
  rcases ReflTransGen.cases_head hreach with rfl | ⟨b, hb, hrest⟩
  · obtain ⟨b, hb, hback⟩ := TransGen.head'_iff.1 hq
    exact ⟨b, hb, b, ReflTransGen.refl, TransGen.tail' hback hb⟩
  · exact ⟨b, hb, q, hrest, hq⟩

theorem descend_of_cyclic {a : α} (h : Cyclic succ a) (n : ℕ) : descend succ n a = none := by
  rw [← Option.not_isSome_iff_eq_none]
  induction n generalizing a with
  | zero => exact Bool.false_ne_true
  | succ n ih =>
    intro hsome
    obtain ⟨b, hb, hcyclic⟩ := h.step
    exact ih hcyclic ((descend_succ_isSome_iff n a).1 hsome b hb)

/-- without cycles the nodes below a bound can be put in an order -/
theorem exists_descend_of_bounded (size : α → ℕ) (hinj : Function.Injective size) {bound : ℕ}
    (hbound : ∀ b, succ b ≠ [] → size b < bound) {a : α} (h : ¬ Cyclic succ a) : ∃ n, (descend succ n a).isSome := by
  let below (c b : {b : α // size b < bound}) : Prop :=
    ReflTransGen (Edge succ) a b.1 ∧ TransGen (Edge succ) b.1 c.1
  have hfinite : Finite {b : α // size b < bound} :=
    Finite.of_injective (fun b => (⟨size b.1, b.2⟩ : Fin bound)) fun b c hbc =>
      Subtype.ext (hinj (Fin.mk.inj hbc))
  have htrans : IsTrans _ below := ⟨fun d c b hdc hcb => ⟨hcb.1, hcb.2.trans hdc.2⟩⟩
  have hirrefl : Std.Irrefl below := ⟨fun b hb => h ⟨b.1, hb⟩⟩
  have hwf : WellFounded below := Finite.wellFounded_of_trans_of_irrefl below
  -- one level for nodes without successors, and one more than the successors need for the others
  have hleaf : ∀ b, succ b = [] → (descend succ 1 b).isSome := by
    intro b hb
    rw [descend_succ_isSome_iff, hb]
    exact fun c hc => by cases hc
  have hnode : ∀ b : {b : α // size b < bound}, ReflTransGen (Edge succ) a b.1 → ∃ n, (descend succ n b.1).isSome := by
    intro b
    induction b using hwf.induction with
    | _ b ih =>
      intro hreach
      have hsucc : ∀ c ∈ succ b.1, ∃ n, (descend succ n c).isSome := by
        intro c hc
        by_cases hempty : succ c = []
        · exact ⟨1, hleaf c hempty⟩
        · exact ih ⟨c, hbound c hempty⟩ ⟨hreach, TransGen.single hc⟩ (hreach.tail hc)
      choose! levels hlevels using hsucc
      refine ⟨((succ b.1).map levels).sum + 1, ?_⟩
      rw [descend_succ_isSome_iff]
      intro c hc
      exact descend_isSome_mono (List.single_le_sum (fun _ _ => Nat.zero_le _) _ (List.mem_map_of_mem hc)) (hlevels c hc)
  by_cases hempty : succ a = []
  · exact ⟨1, hleaf a hempty⟩
  · exact hnode ⟨a, hbound a hempty⟩ ReflTransGen.refl

/-- **A descent ends** exactly when it cannot reach a cycle. -/
theorem descend_isSome_iff (size : α → ℕ) (hinj : Function.Injective size) {bound : ℕ}
    (hbound : ∀ b, succ b ≠ [] → size b < bound) (a : α) : (∃ n, (descend succ n a).isSome) ↔ ¬ Cyclic succ a := by
  constructor
  · rintro ⟨n, hn⟩ hcyclic
    rw [descend_of_cyclic hcyclic] at hn
    cases hn
  · exact exists_descend_of_bounded size hinj hbound

/-! ## What it visits -/

theorem collect_perm {f : α → Option (List α)} {bs l : List α} (h : collect f bs = some l)
    (hf : ∀ b ∈ bs, ∀ lb, f b = some lb → lb.Perm (b :: lb.flatMap succ)) : l.Perm (bs ++ l.flatMap succ) := by
  induction bs generalizing l with
  | nil =>
    rw [← Option.some.inj h]
    exact List.Perm.refl _
  | cons b bs ih =>
    obtain ⟨l1, l2, h1, h2, rfl⟩ := collect_cons h
    rw [List.forall_mem_cons] at hf
    have hfirst : l1.Perm (b :: l1.flatMap succ) := hf.1 l1 h1
    have hrest : l2.Perm (bs ++ l2.flatMap succ) := ih h2 hf.2
    rw [List.flatMap_append]
    calc List.Perm (l1 ++ l2) ((b :: l1.flatMap succ) ++ (bs ++ l2.flatMap succ)) := hfirst.append hrest
      List.Perm _ (b :: bs ++ (l1.flatMap succ ++ l2.flatMap succ)) := by
        simp only [List.cons_append, ← List.append_assoc]
        exact (List.Perm.append_right _ List.perm_append_comm).cons b

/-- **Every visit** but the first is a visit to a successor of something visited. -/
theorem descend_perm {n : ℕ} {a : α} {l : List α} (h : descend succ n a = some l) :
    l.Perm (a :: l.flatMap succ) := by
  induction n generalizing a l with
  | zero => cases h
  | succ n ih =>
    obtain ⟨rest, hrest, rfl⟩ := descend_succ h
    rw [List.flatMap_cons]
    exact (collect_perm hrest fun b _ lb hlb => ih hlb).cons a

theorem mem_descend_iff {n : ℕ} {a : α} {l : List α} (h : descend succ n a = some l) (c : α) :
    c ∈ l ↔ ReflTransGen (Edge succ) a c := by
  have hperm := descend_perm h
  constructor
  · intro hc
    clear hperm
    induction n generalizing a l with
    | zero => cases h
    | succ n ih =>
      obtain ⟨rest, hrest, rfl⟩ := descend_succ h
      rcases List.mem_cons.1 hc with rfl | hc
      · exact ReflTransGen.refl
      · obtain ⟨b, hb, lb, hlb, hcb⟩ := mem_collect hrest hc
        exact ReflTransGen.head hb (ih hlb hcb)
  · intro hreach
    induction hreach with
    | refl => exact hperm.mem_iff.2 List.mem_cons_self
    | tail _ hedge ih => exact hperm.mem_iff.2 (List.mem_cons_of_mem a (List.mem_flatMap.2 ⟨_, ih, hedge⟩))

theorem not_cyclic_of_descend {n : ℕ} {a : α} {l : List α} (h : descend succ n a = some l) : ¬ Cyclic succ a := by
  intro hcyclic
  rw [descend_of_cyclic hcyclic] at h
  cases h

variable [DecidableEq α]

theorem count_descend {n : ℕ} {a : α} {l : List α} (h : descend succ n a = some l) (c : α) :
    l.count c = (if c = a then 1 else 0) + (l.map fun b => (succ b).count c).sum := by
  conv_lhs => rw [(descend_perm h).count_eq, List.count_cons, List.count_flatMap]
  rw [add_comm]
  simp only [beq_iff_eq, eq_comm (a := c)]
  rfl

/-- two members of a list, and what they have -/
theorem add_le_sum {l : List α} {b b' : α} (hb : b ∈ l) (hb' : b' ∈ l) (hne : b ≠ b') (f : α → ℕ) :
    f b + f b' ≤ (l.map f).sum := by
  have hrest : b' ∈ l.erase b := (List.mem_erase_of_ne (Ne.symm hne)).2 hb'
  rw [((List.perm_cons_erase hb).map f).sum_eq, List.map_cons, List.sum_cons]
  exact Nat.add_le_add_left (List.single_le_sum (fun _ _ => Nat.zero_le _) _ (List.mem_map_of_mem hrest)) _

/-- what only one node can be entered from is visited as often as that node -/
theorem sum_eq_count {l : List α} {b : α} {f : α → ℕ} (hone : f b = 1) (hother : ∀ b' ∈ l, b' ≠ b → f b' = 0) :
    (l.map f).sum = l.count b := by
  induction l with
  | nil => rfl
  | cons x l ih =>
    rw [List.forall_mem_cons] at hother
    rw [List.map_cons, List.sum_cons, List.count_cons, ih hother.2, add_comm]
    by_cases hx : x = b
    · rw [hx, hone, if_pos (beq_self_eq_true b)]
    · rw [hother.1 hx, if_neg fun h => hx (beq_iff_eq.1 h)]

/-- **Nothing is visited twice**, of the nodes that matter, exactly when there is one way to enter each of them. All nodes
with successors matter. -/
theorem count_le_one_iff {n : ℕ} {a : α} {l : List α} (h : descend succ n a = some l) {p : α → Prop}
    (hp : ∀ b, succ b ≠ [] → p b) : (∀ c, p c → l.count c ≤ 1) ↔ ∀ c, p c → EnteredOnce succ a c := by
  have hcount := count_descend h
  constructor
  · intro hle c hc
    have hsum := hle c hc
    rw [hcount] at hsum
    constructor
    · intro b b' hb hb' hin hin'
      by_contra hne
      have htwo := add_le_sum ((mem_descend_iff h b).2 hb) ((mem_descend_iff h b').2 hb') hne fun x => (succ x).count c
      have h1 := List.count_pos_iff.2 hin
      have h2 := List.count_pos_iff.2 hin'
      omega
    · intro b hb
      have hone := List.single_le_sum (fun _ _ => Nat.zero_le _) _
        (List.mem_map_of_mem (f := fun x => (succ x).count c) ((mem_descend_iff h b).2 hb))
      omega
  · intro honce c hc
    have hacyclic := not_cyclic_of_descend h
    by_cases hmem : c ∈ l
    · -- along a path from the start, each node is visited as often as the one before
      have hreach := (mem_descend_iff h c).1 hmem
      clear hmem
      induction hreach with
      | refl =>
        have hzero : (l.map fun b => (succ b).count a).sum = 0 := by
          rw [List.sum_eq_zero_iff]
          simp only [List.mem_map, forall_exists_index, and_imp, forall_apply_eq_imp_iff₂]
          intro b hb
          rw [List.count_eq_zero]
          intro hback
          have hab := (mem_descend_iff h b).1 hb
          exact hacyclic ⟨a, ReflTransGen.refl, TransGen.tail' hab hback⟩
        rw [hcount, if_pos rfl, hzero]
      | @tail b c hab hbc ih =>
        have hne : c ≠ a := by
          rintro rfl
          exact hacyclic ⟨c, ReflTransGen.refl, TransGen.tail' hab hbc⟩
        have hpos := List.count_pos_iff.2 hbc
        have hle := (honce c hc).count b hab
        have hsum : (l.map fun x => (succ x).count c).sum = l.count b := by
          refine sum_eq_count (by omega) fun b' hb' hne' => ?_
          rw [List.count_eq_zero]
          intro hin
          exact hne' ((honce c hc).unique b' b ((mem_descend_iff h b').1 hb') hab hin hbc)
        rw [hcount, if_neg hne, hsum, Nat.zero_add]
        exact ih (hp b (List.ne_nil_of_mem hbc))
    · rw [List.count_eq_zero.2 hmem]
      exact Nat.zero_le 1

end

end Libnl.Descent
