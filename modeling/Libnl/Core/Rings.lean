/-
Rings of nodes with pointers both ways (`struct nl_list_head`).

A list is a ring that goes through its head. A node is added in front of the head by way of the pointer that the head has to
the last node; a loop over the list ends where it comes to the head. Nothing of this asks whether a pointer leads into the
list that it should lead into.

- `Ring.addTail`: adding a node to a ring. `Apart.addTail`: adding one to the first of two rings.
- `forEach_never_done`: a loop that adds a node at each node it comes to, in front of a head that it does not look for,
  never comes to an end.
-/
import Mathlib.Tactic

namespace Libnl.Rings

/-- the pointers of all nodes; a node is known by a number -/
structure Links where
  next : ℕ → ℕ
  prev : ℕ → ℕ

namespace Links

def setNext (l : Links) (a b : ℕ) : Links := { l with next := Function.update l.next a b }

def setPrev (l : Links) (a b : ℕ) : Links := { l with prev := Function.update l.prev a b }

/-- `nl_init_list_head` -/
def init (l : Links) (head : ℕ) : Links := (l.setNext head head).setPrev head head

/-- `__nl_list_add` -/
def add (l : Links) (obj prev next : ℕ) : Links :=
  (((l.setNext prev obj).setPrev obj prev).setPrev next obj).setNext obj next

/-- `nl_list_add_tail` -/
def addTail (l : Links) (obj head : ℕ) : Links := l.add obj (l.prev head) head

/-- `nl_list_del` -/
def del (l : Links) (obj : ℕ) : Links :=
  let l := l.setPrev (l.next obj) (l.prev obj)
  l.setNext (l.prev obj) (l.next obj)

theorem addTail_next (l : Links) (obj head a : ℕ) :
    (l.addTail obj head).next a = if a = obj then head else if a = l.prev head then obj else l.next a := by
  simp [addTail, add, setNext, setPrev, Function.update_apply]

theorem addTail_prev (l : Links) (obj head a : ℕ) :
    (l.addTail obj head).prev a = if a = head then obj else if a = obj then l.prev head else l.prev a := by
  simp [addTail, add, setNext, setPrev, Function.update_apply]

end Links

/-- in a chain without repetition the last element is in front of no other -/
theorem isChain_imp_init {α : Type*} {R S : α → α → Prop} {xs : List α} (hne : xs ≠ []) (hnodup : xs.Nodup)
    (h : List.IsChain R xs) (himp : ∀ a ∈ xs, ∀ b ∈ xs.tail, a ≠ xs.getLast hne → R a b → S a b) : List.IsChain S xs := by
  rw [List.isChain_iff_getElem] at h ⊢
  intro i hi
  have htail : xs[i + 1] ∈ xs.tail := by
    rw [List.mem_iff_getElem]
    exact ⟨i, by rw [List.length_tail]; omega, List.getElem_tail _⟩
  refine himp _ (List.getElem_mem _) _ htail (fun heq => ?_) (h i hi)
  rw [List.getLast_eq_getElem, hnodup.getElem_inj_iff] at heq
  omega

/-- one node comes after the other -/
def After (l : Links) (a b : ℕ) : Prop := l.next a = b ∧ l.prev b = a

/-- these nodes, and the head, are a ring -/
structure Ring (l : Links) (head : ℕ) (nodes : List ℕ) : Prop where
  chain : List.IsChain (After l) (head :: nodes ++ [head])
  nodup : (head :: nodes).Nodup

theorem init_ring (l : Links) (head : ℕ) : Ring (l.init head) head [] := by
  refine ⟨?_, List.nodup_singleton head⟩
  show List.IsChain _ [head, head]
  rw [List.isChain_pair]
  simp [After, Links.init, Links.setNext, Links.setPrev]

/-- pointers of other nodes do not matter -/
theorem Ring.frame {l l' : Links} {head : ℕ} {nodes : List ℕ} (h : Ring l head nodes)
    (hsame : ∀ a ∈ head :: nodes, l'.next a = l.next a ∧ l'.prev a = l.prev a) : Ring l' head nodes := by
  refine ⟨h.chain.imp_of_mem_imp fun a b ha hb hab => ?_, h.nodup⟩
  have hmem : ∀ x ∈ head :: nodes ++ [head], x ∈ head :: nodes := by
    intro x hx
    rcases List.mem_append.1 hx with hx | hx
    · exact hx
    · rw [List.mem_singleton.1 hx]
      exact List.mem_cons_self
  exact ⟨(hsame a (hmem a ha)).1.trans hab.1, (hsame b (hmem b hb)).2.trans hab.2⟩

/-- the node in front of the head -/
theorem Ring.last {l : Links} {head : ℕ} {nodes : List ℕ} (h : Ring l head nodes) :
    l.prev head = (head :: nodes).getLast (List.cons_ne_nil head nodes) := by
  have hchain := h.chain
  rw [← List.dropLast_append_getLast (List.cons_ne_nil head nodes), List.append_assoc, List.singleton_append,
    List.isChain_append_cons_cons] at hchain
  exact hchain.2.1.2

/-- the node behind it -/
theorem Ring.first {l : Links} {head x : ℕ} {nodes : List ℕ} (h : Ring l head (x :: nodes)) : l.next head = x :=
  (List.isChain_cons_cons.1 h.chain).1.1

theorem Ring.empty {l : Links} {head : ℕ} (h : Ring l head []) : l.next head = head ∧ l.prev head = head := by
  have hchain : List.IsChain (After l) [head, head] := h.chain
  rw [List.isChain_pair] at hchain
  exact hchain

/-- **A node more** -/
theorem Ring.addTail {l : Links} {head x : ℕ} {nodes : List ℕ} (h : Ring l head nodes) (hx : x ∉ head :: nodes) :
    Ring (l.addTail x head) head (nodes ++ [x]) := by
  have hlast := h.last
  obtain ⟨hhead, -⟩ := List.nodup_cons.1 h.nodup
  have hsplit : (head :: nodes).dropLast ++ [l.prev head] = head :: nodes := by
    rw [hlast, List.dropLast_append_getLast]
  have hxhead : x ≠ head := fun heq => hx (heq ▸ List.mem_cons_self)
  have hxlast : l.prev head ≠ x := by
    rintro rfl
    refine hx ?_
    rw [hlast]
    exact List.getLast_mem _
  refine ⟨?_, ?_⟩
  · have hform : head :: (nodes ++ [x]) ++ [head] = (head :: nodes).dropLast ++ l.prev head :: x :: [head] := by
      rw [← List.cons_append, ← hsplit]
      simp
    have hold : List.IsChain (After l) (head :: nodes) := (List.isChain_append.1 h.chain).1
    rw [hform, List.isChain_append_cons_cons, List.isChain_pair, hsplit]
    refine ⟨isChain_imp_init (List.cons_ne_nil head nodes) h.nodup hold fun a ha b hb hlast' hab => ?_, ?_, ?_⟩
    · rw [← hlast] at hlast'
      have hax : a ≠ x := fun heq => hx (heq ▸ ha)
      have hbx : b ≠ x := fun heq => hx (heq ▸ List.mem_of_mem_tail hb)
      have hbhead : b ≠ head := fun heq => hhead (heq ▸ hb)
      refine ⟨?_, ?_⟩
      · rw [Links.addTail_next, if_neg hax, if_neg hlast']
        exact hab.1
      · rw [Links.addTail_prev, if_neg hbhead, if_neg hbx]
        exact hab.2
    · refine ⟨?_, ?_⟩
      · rw [Links.addTail_next, if_neg hxlast, if_pos rfl]
      · rw [Links.addTail_prev, if_neg hxhead, if_pos rfl]
    · refine ⟨?_, ?_⟩
      · rw [Links.addTail_next, if_pos rfl]
      · rw [Links.addTail_prev, if_pos rfl]
  · rw [← List.cons_append]
    refine List.nodup_append.2 ⟨h.nodup, List.nodup_singleton x, fun a ha b hb heq => ?_⟩
    rw [List.mem_singleton] at hb
    exact hx (hb ▸ heq ▸ ha)

/-- a node that is added to another ring -/
theorem Ring.other {l : Links} {head head' x : ℕ} {nodes nodes' : List ℕ} (h : Ring l head nodes) (h' : Ring l head' nodes')
    (hx : x ∉ head :: nodes) (hapart : ∀ a ∈ head' :: nodes', a ∉ head :: nodes) : Ring (l.addTail x head') head nodes := by
  have hlast := h'.last
  have hprev : l.prev head' ∉ head :: nodes := hapart _ (hlast ▸ List.getLast_mem _)
  have hhead : head' ∉ head :: nodes := hapart head' List.mem_cons_self
  refine h.frame fun a ha => ?_
  have hax : a ≠ x := fun heq => hx (heq ▸ ha)
  have haprev : a ≠ l.prev head' := fun heq => hprev (heq ▸ ha)
  have hahead : a ≠ head' := fun heq => hhead (heq ▸ ha)
  exact ⟨by rw [Links.addTail_next, if_neg hax, if_neg haprev], by rw [Links.addTail_prev, if_neg hahead, if_neg hax]⟩

/-- two rings of nodes in use, that have none in common -/
structure Apart (l : Links) (brk a : ℕ) (as : List ℕ) (b : ℕ) (bs : List ℕ) : Prop where
  first : Ring l a as
  second : Ring l b bs
  apart : ∀ x ∈ a :: as, x ∉ b :: bs
  used : ∀ x, x ∈ a :: as ∨ x ∈ b :: bs → x < brk

section

variable {l : Links} {brk a b : ℕ} {as bs : List ℕ}

theorem Apart.swap (h : Apart l brk a as b bs) : Apart l brk b bs a as :=
  ⟨h.second, h.first, fun x hx hmem => h.apart x hmem hx, fun x hx => h.used x hx.symm⟩

/-- **A new node** in the first ring -/
theorem Apart.addTail (h : Apart l brk a as b bs) : Apart (l.addTail brk a) (brk + 1) a (as ++ [brk]) b bs := by
  have hfirst : brk ∉ a :: as := fun hmem => lt_irrefl _ (h.used _ (Or.inl hmem))
  have hsecond : brk ∉ b :: bs := fun hmem => lt_irrefl _ (h.used _ (Or.inr hmem))
  have hmem : ∀ x, x ∈ a :: (as ++ [brk]) ↔ x ∈ a :: as ∨ x = brk := by
    intro x
    rw [← List.cons_append, List.mem_append, List.mem_singleton]
  refine ⟨h.first.addTail hfirst, h.second.other h.first hsecond h.apart, fun x hx => ?_, fun x hx => ?_⟩
  · rcases (hmem x).1 hx with hx | rfl
    · exact h.apart x hx
    · exact hsecond
  · rw [hmem] at hx
    rcases hx with (hx | rfl) | hx
    · exact (h.used x (Or.inl hx)).trans (Nat.lt_succ_self _)
    · exact Nat.lt_succ_self _
    · exact (h.used x (Or.inr hx)).trans (Nat.lt_succ_self _)

end

/-! ## Loops -/

/-- `nl_list_for_each_entry`, with a body that may change the pointers, until it returns an error; `none` if the loop has not
come to its end after so many nodes -/
def forEach {σ : Type*} (links : σ → Links) (body : σ → ℕ → Option (σ × ℤ)) (head : ℕ) : ℕ → σ → ℕ → Option (σ × ℤ)
  | 0, _, _ => none
  | fuel + 1, s, pos =>
    if pos = head then some (s, 0)
    else (body s pos).bind fun r =>
      if r.2 < 0 then some r else forEach links body head fuel r.1 ((links r.1).next pos)

/-- `nl_list_for_each_entry_safe`, which knows the next node before the body is done with this one -/
def forEachSafe {σ : Type*} (links : σ → Links) (body : σ → ℕ → Option σ) (head : ℕ) : ℕ → σ → ℕ → ℕ → Option σ
  | 0, _, _, _ => none
  | fuel + 1, s, pos, n =>
    if pos = head then some s
    else (body s pos).bind fun s => forEachSafe links body head fuel s n ((links s).next n)

/-- a loop over an empty list -/
theorem forEach_empty {σ : Type*} (links : σ → Links) (body : σ → ℕ → Option (σ × ℤ)) (head fuel : ℕ) (s : σ) :
    forEach links body head (fuel + 1) s head = some (s, 0) := if_pos rfl

/-- the loop stands at a node, and the nodes in front of it lead to the one to which another head points -/
structure Chased (l : Links) (dst pos : ℕ) (ahead : List ℕ) : Prop where
  chain : List.IsChain (fun a b => l.next a = b) (pos :: ahead)
  nodup : (pos :: ahead).Nodup
  last : l.prev dst = (pos :: ahead).getLast (List.cons_ne_nil pos ahead)

/-- **One round**: the node that was added is in front of the loop. -/
theorem Chased.step {l : Links} {dst pos x : ℕ} {ahead : List ℕ} (h : Chased l dst pos ahead) (hx : x ∉ pos :: ahead) :
    ∃ pos' ahead', (l.addTail x dst).next pos = pos' ∧ pos' :: ahead' = ahead ++ [x] ∧
      Chased (l.addTail x dst) dst pos' ahead' := by
  have hlast := h.last
  have hsplit : (pos :: ahead).dropLast ++ [l.prev dst] = pos :: ahead := by
    rw [hlast, List.dropLast_append_getLast]
  have hxlast : l.prev dst ≠ x := by
    rintro rfl
    refine hx ?_
    rw [hlast]
    exact List.getLast_mem _
  have hnodup : (pos :: (ahead ++ [x])).Nodup := by
    rw [← List.cons_append]
    refine List.nodup_append.2 ⟨h.nodup, List.nodup_singleton x, fun a ha b hb heq => ?_⟩
    rw [List.mem_singleton] at hb
    exact hx (hb ▸ heq ▸ ha)
  have hchain : List.IsChain (fun a b => (l.addTail x dst).next a = b) (pos :: (ahead ++ [x])) := by
    have hform : pos :: (ahead ++ [x]) = (pos :: ahead).dropLast ++ l.prev dst :: x :: [] := by
      rw [← List.cons_append, ← hsplit]
      simp
    have hnew : (l.addTail x dst).next (l.prev dst) = x := by rw [Links.addTail_next, if_neg hxlast, if_pos rfl]
    rw [hform, List.isChain_append_cons_cons, hsplit]
    refine ⟨isChain_imp_init (List.cons_ne_nil pos ahead) h.nodup h.chain fun a ha b _ hlast' hab => ?_, hnew,
      List.isChain_singleton x⟩
    rw [← hlast] at hlast'
    have hax : a ≠ x := fun heq => hx (heq ▸ ha)
    rw [Links.addTail_next, if_neg hax, if_neg hlast']
    exact hab
  obtain ⟨pos', ahead', hlist⟩ : ∃ pos' ahead', pos' :: ahead' = ahead ++ [x] := by
    cases ahead with
    | nil => exact ⟨x, [], rfl⟩
    | cons a ahead => exact ⟨a, ahead ++ [x], rfl⟩
  rw [← hlist] at hchain hnodup
  obtain ⟨hnext, hrest⟩ := List.isChain_cons_cons.1 hchain
  refine ⟨pos', ahead', hnext, hlist, hrest, (List.nodup_cons.1 hnodup).2, ?_⟩
  have hgetLast : (pos' :: ahead').getLast (List.cons_ne_nil pos' ahead') = x := by
    simp only [hlist, List.getLast_append_singleton]
  rw [hgetLast, Links.addTail_prev, if_pos rfl]

/-- another head points to the nodes of a ring -/
theorem Ring.chased {l l' : Links} {head x dst : ℕ} {nodes : List ℕ} (h : Ring l head (x :: nodes))
    (hprev : l'.prev dst = l.prev head) (hsame : ∀ a ∈ x :: nodes, l'.next a = l.next a) : Chased l' dst x nodes := by
  have hchain : List.IsChain (After l) (x :: nodes) :=
    (List.isChain_append.1 (List.isChain_cons_cons.1 h.chain).2).1
  refine ⟨hchain.imp_of_mem_imp fun a b ha _ hab => (hsame a ha).trans hab.1, (List.nodup_cons.1 h.nodup).2, ?_⟩
  rw [hprev, h.last, List.getLast_cons (List.cons_ne_nil x nodes)]

/-- **A loop that runs after its own tail.** The body gives up, or adds a new node in front of another head; then the loop over
the nodes that lead to that head does not end but by an error. -/
theorem forEach_never_done {σ : Type*} {links : σ → Links} (brk dst : σ → ℕ)
    {body : σ → ℕ → Option (σ × ℤ)} {head : ℕ}
    (hbody : ∀ s pos s' err, body s pos = some (s', err) →
      err < 0 ∨ links s' = (links s).addTail (brk s) (dst s) ∧ brk s' = brk s + 1 ∧ dst s' = dst s)
    {s : σ} {pos : ℕ} {ahead : List ℕ} (h : Chased (links s) (dst s) pos ahead) (hhead : head ∉ pos :: ahead) (hold : head < brk s)
    (hnew : ∀ a ∈ pos :: ahead, a < brk s) {fuel : ℕ} {s' : σ} {err : ℤ}
    (hdone : forEach links body head fuel s pos = some (s', err)) : err < 0 := by
  induction fuel generalizing s pos ahead with
  | zero => cases hdone
  | succ fuel ih =>
    have hpos : pos ≠ head := fun heq => hhead (heq ▸ List.mem_cons_self)
    rw [forEach, if_neg hpos] at hdone
    obtain ⟨⟨s1, err1⟩, hround, hdone⟩ := Option.bind_eq_some_iff.1 hdone
    by_cases hneg : err1 < 0
    · rw [if_pos hneg] at hdone
      cases hdone
      exact hneg
    rw [if_neg hneg] at hdone
    obtain ⟨hlinks, hbrk, hdst⟩ := (hbody s pos s1 err1 hround).resolve_left hneg
    have hfresh : brk s ∉ pos :: ahead := fun hmem => lt_irrefl _ (hnew _ hmem)
    obtain ⟨pos', ahead', hnext, hlist, hchased⟩ := h.step hfresh
    dsimp only at hdone
    rw [hlinks, hnext] at hdone
    rw [← hlinks, ← hdst] at hchased
    have hmem : ∀ a ∈ pos' :: ahead', a ∈ pos :: ahead ∨ a = brk s := by
      intro a ha
      rw [hlist] at ha
      rcases List.mem_append.1 ha with ha | ha
      · exact Or.inl (List.mem_cons_of_mem _ ha)
      · exact Or.inr (List.mem_singleton.1 ha)
    refine ih hchased (fun hin => ?_) (by omega) (fun a ha => ?_) hdone
    · rcases hmem head hin with hin | heq
      · exact hhead hin
      · omega
    · rcases hmem a ha with ha | heq
      · have := hnew a ha
        omega
      · omega

end Libnl.Rings
