/-
Streams of attributes: what a sequence of `nla_put` leaves in a message, and what the iterators make of it.

A stream is a list of attributes, each a type field and a payload. A nest is an attribute whose payload is a stream again.
Writers leave the image of a stream behind (`encLeaves`); a reader that stands at an attribute of the image finds its type,
its length and its payload (`At`). What a loop over the stream does follows from what its body does at one attribute.

- `forEach_leaves`: a rule of invariants for loops over a stream.
- `parse_leaves`: `nla_parse` finds, for every type, the last attribute of that type.
- `nested_leaves`, `parseNested_leaves`: the same for a nest.
- `put_leaf`, `nest_leaf`: one attribute, or a nest, comes to stand behind what is there.
-/
import Mathlib.Tactic
import Libnl.Message.AttrWalk
import Libnl.Message.AttrTree

namespace Libnl.AttrStream

open Bytes Walk Msg Attr AttrWalk AttrTree

/-! ## Streams -/

/-- an attribute: the type field, flags included, and the payload -/
structure Leaf where
  type : ℕ
  payload : List UInt8
deriving DecidableEq, Repr

/-- fits the header -/
structure Leaf.WF (l : Leaf) : Prop where
  type : l.type < 65536
  len : 4 + l.payload.length ≤ 65535

variable [HostOrder]

/-- the image of a stream -/
def encLeaves (ls : List Leaf) : List UInt8 := ls.flatMap fun l => encLeaf l.type l.payload

@[simp] theorem encLeaves_nil : encLeaves [] = [] := rfl

@[simp] theorem encLeaves_cons (l : Leaf) (ls : List Leaf) :
    encLeaves (l :: ls) = encLeaf l.type l.payload ++ encLeaves ls := rfl

theorem encLeaves_append (as bs : List Leaf) : encLeaves (as ++ bs) = encLeaves as ++ encLeaves bs :=
  List.flatMap_append

theorem encLeaves_mod (ls : List Leaf) : (encLeaves ls).length % 4 = 0 := by
  induction ls with
  | nil => rfl
  | cons l ls ih =>
    have hmod := align4_mod (4 + l.payload.length)
    rw [encLeaves_cons, List.length_append, encLeaf_length]
    omega

/-! ## One attribute -/

/-- the attribute stands at `pos` -/
structure At (buf : Mem) (pos : ℕ) (l : Leaf) : Prop where
  lenField : nlaLenField buf pos = 4 + l.payload.length
  typeField : nlaTypeField buf pos = l.type
  data : Seg buf (nlaData pos) l.payload

section

variable {buf : Mem} {pos : ℕ} {l : Leaf}

theorem At.type (h : At buf pos l) : nlaType buf pos = l.type % 16384 := by rw [nlaType, h.typeField]

theorem At.len (h : At buf pos l) : nlaLen buf pos = l.payload.length := by
  rw [nlaLen, h.lenField, NLA_HDRLEN]
  push_cast
  ring

theorem At.bytes (h : At buf pos l) : readBytes buf (nlaData pos) l.payload.length = l.payload := h.data.readBytes

theorem at_of_seg {rest : List UInt8} (hwf : l.WF) (h : Seg buf pos (encLeaf l.type l.payload ++ rest)) :
    At buf pos l ∧ Seg buf (pos + align4 (4 + l.payload.length)) rest := by
  obtain ⟨hleaf, hrest⟩ := seg_append.1 h
  obtain ⟨hbody, -⟩ := seg_append.1 hleaf
  obtain ⟨hhdr, hdata⟩ := seg_append.1 hbody
  obtain ⟨hlen, htype⟩ := header_fields hhdr (Nat.lt_succ_of_le hwf.len) hwf.type
  rw [nlaHeader_length] at hdata
  rw [encLeaf_length] at hrest
  exact ⟨⟨hlen, htype, hdata⟩, hrest⟩

end

/-! ## Loops -/

/-- the iterator goes on to the rest of the stream -/
theorem next_leaf {buf : Mem} {pos : ℕ} {l : Leaf} {rest : ℕ} (h : At buf pos l)
    (hsize : align4 (4 + l.payload.length) + rest < 2147483648) :
    nlaOk buf pos (align4 (4 + l.payload.length) + rest : ℕ) = true ∧
      nlaNext buf pos (align4 (4 + l.payload.length) + rest : ℕ) = (pos + align4 (4 + l.payload.length), (rest : ℤ)) := by
  have hge := le_align4 (4 + l.payload.length)
  constructor
  · simp only [nlaOk, h.lenField, Bool.and_eq_true, decide_eq_true_eq]
    omega
  · simp only [nlaNext, h.lenField]
    rw [toInt32_of_mem (by push_cast; omega) (by push_cast; omega)]
    push_cast
    simp

/-- a loop over the rest of a stream, part of which was seen -/
theorem forEach_rest {σ ρ : Type} {buf : Mem} (body : σ → ℕ → Except ρ σ) (I : List Leaf → σ → Prop) {all : List Leaf}
    (hstep : ∀ seen l rest s pos, all = seen ++ l :: rest → I seen s → At buf pos l →
      ∃ s', body s pos = .ok s' ∧ I (seen ++ [l]) s')
    {seen ls : List Leaf} (hall : all = seen ++ ls) (hwf : ∀ l ∈ ls, l.WF) {p n : ℕ} {s : σ} (h : I seen s)
    (hseg : Seg buf p (encLeaves ls)) (hsize : (encLeaves ls).length < 2147483648) (hn : ls.length < n) :
    ∃ s', nlaForEachAttr buf body n s p (encLeaves ls).length = some (.ok s') ∧ I all s' := by
  induction ls generalizing seen p n s with
  | nil =>
    obtain ⟨n, rfl⟩ : ∃ k, n = k + 1 := ⟨n - 1, by omega⟩
    rw [List.append_nil] at hall
    refine ⟨s, ?_, by rwa [hall]⟩
    simp [nlaForEachAttr, forEach, nlaOk]
  | cons l ls ih =>
    obtain ⟨n, rfl⟩ : ∃ k, n = k + 1 := ⟨n - 1, by omega⟩
    obtain ⟨hat, hrest⟩ := at_of_seg (hwf l List.mem_cons_self) hseg
    rw [encLeaves_cons, List.length_append, encLeaf_length] at hsize ⊢
    obtain ⟨hok, hnext⟩ := next_leaf hat hsize
    obtain ⟨s1, hbody, h1⟩ := hstep seen l ls s p hall h hat
    obtain ⟨s2, hloop, h2⟩ := ih (by rw [hall, List.append_assoc]; rfl)
      (fun x hx => hwf x (List.mem_cons_of_mem l hx)) h1 hrest (by omega) (Nat.lt_of_succ_lt_succ hn)
    refine ⟨s2, ?_, h2⟩
    rw [nlaForEachAttr, forEach, if_pos hok, hbody, hnext]
    exact hloop

/-- **Loops over a stream.** An invariant that the body keeps at every attribute holds at the end, with all of them seen. -/
theorem forEach_leaves {σ ρ : Type} {buf : Mem} (body : σ → ℕ → Except ρ σ) (I : List Leaf → σ → Prop) {ls : List Leaf}
    (hstep : ∀ seen l rest s pos, ls = seen ++ l :: rest → I seen s → At buf pos l →
      ∃ s', body s pos = .ok s' ∧ I (seen ++ [l]) s')
    (hwf : ∀ l ∈ ls, l.WF) {p n : ℕ} {s : σ} (h : I [] s) (hseg : Seg buf p (encLeaves ls))
    (hsize : (encLeaves ls).length < 2147483648) (hn : ls.length < n) :
    ∃ s', nlaForEachAttr buf body n s p (encLeaves ls).length = some (.ok s') ∧ I ls s' :=
  forEach_rest body I hstep rfl hwf h hseg hsize hn

/-- **Loops over attributes that stand for items**: a fold over the items, if that is what the body does at one of them. -/
theorem forEach_items {X σ ρ : Type} {buf : Mem} (body : σ → ℕ → Except ρ σ) (leaf : X → Leaf) (take : σ → X → σ)
    {xs : List X} (hbody : ∀ x ∈ xs, ∀ s pos, At buf pos (leaf x) → body s pos = .ok (take s x))
    (hwf : ∀ x ∈ xs, (leaf x).WF) {p n : ℕ} (s : σ) (hseg : Seg buf p (encLeaves (xs.map leaf)))
    (hsize : (encLeaves (xs.map leaf)).length < 2147483648) (hn : xs.length < n) :
    nlaForEachAttr buf body n s p (encLeaves (xs.map leaf)).length = some (.ok (xs.foldl take s)) := by
  have hloop := forEach_leaves body (fun seen s' => s' = (xs.take seen.length).foldl take s) ?_ ?_
    (s := s) rfl hseg hsize (by rwa [List.length_map])
  · obtain ⟨s', heq, rfl⟩ := hloop
    rw [heq, List.length_map, List.take_length]
  · intro seen l rest s1 pos hall hs hat
    obtain ⟨as, bs, hxs, hseen, hbs⟩ := List.map_eq_append_iff.1 hall
    obtain ⟨x, bs, rfl, hx, -⟩ := List.map_eq_cons_iff.1 hbs
    have hlen : seen.length = as.length := by rw [← hseen, List.length_map]
    subst hx
    refine ⟨take s1 x, hbody x (by rw [hxs]; simp) s1 pos hat, ?_⟩
    rw [hs, hxs, List.length_append, hlen, List.length_singleton, List.take_left', List.take_length_add_append]
    · simp
    · rfl
  · intro l hl
    obtain ⟨x, hx, rfl⟩ := List.mem_map.1 hl
    exact hwf x hx

/-- the walk over a stream stops at its attributes -/
theorem visits_leaves {buf : Mem} {ls : List Leaf} (hwf : ∀ l ∈ ls, l.WF) {p n : ℕ} (hseg : Seg buf p (encLeaves ls))
    (hsize : (encLeaves ls).length < 2147483648) (hn : ls.length < n) :
    ∃ offs, visits (nlaOk buf) (nlaNext buf) n p (encLeaves ls).length = some offs ∧ List.Forall₂ (At buf) offs ls := by
  induction ls generalizing p n with
  | nil =>
    obtain ⟨n, rfl⟩ : ∃ k, n = k + 1 := ⟨n - 1, by omega⟩
    exact ⟨[], by simp [visits, nlaOk], List.Forall₂.nil⟩
  | cons l ls ih =>
    obtain ⟨n, rfl⟩ : ∃ k, n = k + 1 := ⟨n - 1, by omega⟩
    obtain ⟨hat, hrest⟩ := at_of_seg (hwf l List.mem_cons_self) hseg
    rw [encLeaves_cons, List.length_append, encLeaf_length] at hsize ⊢
    obtain ⟨hok, hnext⟩ := next_leaf hat hsize
    obtain ⟨offs, hv, hall⟩ := ih (fun x hx => hwf x (List.mem_cons_of_mem l hx)) hrest (by omega)
      (Nat.lt_of_succ_lt_succ hn)
    refine ⟨p :: offs, ?_, List.Forall₂.cons hat hall⟩
    rw [visits, if_pos hok, hnext, hv]
    rfl

theorem length_le_enc (ls : List Leaf) : ls.length ≤ (encLeaves ls).length := by
  induction ls with
  | nil => exact le_rfl
  | cons l ls ih =>
    have hge := le_align4 (4 + l.payload.length)
    rw [encLeaves_cons, List.length_append, encLeaf_length, List.length_cons]
    omega

/-- an attribute is not longer than a stream with it -/
theorem leaf_le_enc {l : Leaf} {ls : List Leaf} (h : l ∈ ls) : (encLeaf l.type l.payload).length ≤ (encLeaves ls).length := by
  rw [encLeaves, List.length_flatMap]
  exact List.single_le_sum (fun _ _ => Nat.zero_le _) _ (List.mem_map_of_mem h)

theorem encLeaves_ne_nil {ls : List Leaf} (h : ls ≠ []) : encLeaves ls ≠ [] := by
  have hle := length_le_enc ls
  have hpos := List.length_pos_iff.2 h
  exact List.length_pos_iff.1 (by omega)

/-- **The attributes in a nest.** -/
theorem nested_leaves {buf : Mem} {pos t : ℕ} {ls : List Leaf} (hat : At buf pos ⟨t, encLeaves ls⟩)
    (hwf : ∀ l ∈ ls, l.WF) (hsize : (encLeaves ls).length < 2147483648) :
    List.Forall₂ (At buf) (nestedAttrs buf pos) ls := by
  have hlen : nlaLen buf pos = (encLeaves ls).length := hat.len
  have hle := length_le_enc ls
  have hv := nested_visits buf pos
  rw [hlen] at hv
  obtain ⟨offs, hoffs, hall⟩ := visits_leaves hwf hat.data hsize (n := (encLeaves ls).length + 1) (by omega)
  rw [Int.toNat_natCast, hoffs] at hv
  cases hv
  exact hall

/-- the last attribute of a type -/
def lastOf (ls : List Leaf) (t : ℕ) : Option Leaf := ls.reverse.find? fun l => decide (l.type % 16384 = t)

omit [HostOrder] in
theorem lastOf_snoc (ls : List Leaf) (l : Leaf) (t : ℕ) :
    lastOf (ls ++ [l]) t = if l.type % 16384 = t then some l else lastOf ls t := by
  rw [lastOf, List.reverse_append, List.reverse_singleton, List.singleton_append, List.find?_cons]
  by_cases h : l.type % 16384 = t
  · simp [h]
  · simp [h, lastOf]

/-- the index knows where the last attribute of every type stands -/
def Indexes (buf : Mem) (maxtype : ℕ) (ls : List Leaf) (tb : Index) : Prop :=
  ∀ t ≤ maxtype, match lastOf ls t with
    | none => tb t = none
    | some l => ∃ pos, tb t = some pos ∧ At buf pos l

/-- **`nla_parse` over a stream** whose attributes pass the policy -/
theorem parse_leaves {buf : Mem} {maxtype p n : ℕ} {policy : ℕ → NlaPolicy} {ls : List Leaf} (hwf : ∀ l ∈ ls, l.WF)
    (hok : ∀ l ∈ ls, ∀ pos, At buf pos l → 0 ≤ validateNla buf pos maxtype policy) (hseg : Seg buf p (encLeaves ls))
    (hsize : (encLeaves ls).length < 2147483648) (hn : ls.length < n) :
    ∃ tb, nlaParse n buf maxtype p (encLeaves ls).length (some policy) = some (0, tb) ∧ Indexes buf maxtype ls tb := by
  have hloop := forEach_leaves (nlaParseBody buf maxtype (some policy)) (Indexes buf maxtype) ?_ hwf
    (s := fun _ => none) ?_ hseg hsize hn
  · obtain ⟨tb, heq, hidx⟩ := hloop
    refine ⟨tb, ?_, hidx⟩
    rw [nlaParse, heq]
    rfl
  · intro seen l rest tb pos hall hidx hat
    have hl : l ∈ ls := by
      rw [hall]
      simp
    by_cases hmax : (maxtype : ℤ) < nlaType buf pos
    · refine ⟨tb, ?_, ?_⟩
      · rw [nlaParseBody, if_pos hmax]
      · intro t ht
        have hne : ¬ l.type % 16384 = t := by
          rw [hat.type] at hmax
          omega
        rw [lastOf_snoc, if_neg hne]
        exact hidx t ht
    · refine ⟨Function.update tb (nlaType buf pos) (some pos), ?_, ?_⟩
      · rw [nlaParseBody, if_neg hmax]
        exact if_neg (not_lt.2 (hok l hl pos hat))
      · intro t ht
        rw [lastOf_snoc, hat.type]
        by_cases heq : l.type % 16384 = t
        · rw [if_pos heq, heq]
          exact ⟨pos, Function.update_self t (some pos) tb, hat⟩
        · rw [if_neg heq, Function.update_of_ne (Ne.symm heq)]
          exact hidx t ht
  · intro t _
    rfl

/-- no policy is one that asks for nothing -/
theorem nlaParse_free (n : ℕ) (buf : Mem) (maxtype : ℤ) (p : ℕ) (len : ℤ) :
    nlaParse n buf maxtype p len none = nlaParse n buf maxtype p len (some fun _ => ⟨.unspec, 0, 0⟩) := by
  have hvalid : ∀ nla, validateNla buf nla maxtype (fun _ => ⟨.unspec, 0, 0⟩) = 0 := by
    intro nla
    simp [validateNla]
  have hbody : nlaParseBody buf maxtype none = nlaParseBody buf maxtype (some fun _ => ⟨.unspec, 0, 0⟩) := by
    funext tb nla
    simp only [nlaParseBody, hvalid]
  rw [nlaParse, nlaParse, hbody]

/-- **`nla_parse_nested`** -/
theorem parseNested_leaves {buf : Mem} {maxtype pos t : ℕ} {policy : ℕ → NlaPolicy} {ls : List Leaf}
    (hat : At buf pos ⟨t, encLeaves ls⟩) (hwf : ∀ l ∈ ls, l.WF)
    (hok : ∀ l ∈ ls, ∀ pos, At buf pos l → 0 ≤ validateNla buf pos maxtype policy)
    (hsize : (encLeaves ls).length < 2147483648) :
    ∃ tb, nlaParseNested buf maxtype pos (some policy) = (0, tb) ∧ Indexes buf maxtype ls tb := by
  have hlen : nlaLen buf pos = (encLeaves ls).length := hat.len
  have hle := length_le_enc ls
  obtain ⟨tb, hparse, hidx⟩ := parse_leaves hwf hok hat.data hsize (n := (encLeaves ls).length + 1) (by omega)
  refine ⟨tb, ?_, hidx⟩
  rw [nlaParseNested, hlen, Int.toNat_natCast, hparse]
  rfl

/-! ## Writing -/

omit [HostOrder] in
/-- room for what comes behind what was written -/
theorem room_after {m m1 : NlMsg} {a : List UInt8} {b : ℕ} (hw : Wrote m m1 a) (h : Room m (a.length + b)) : Room m1 b := by
  have hlen := hw.len
  have hsize := hw.size
  have h1 := h.size
  have h2 := h.int
  exact ⟨by omega, by omega⟩

omit [HostOrder] in
theorem room_mono {m : NlMsg} {a b : ℕ} (h : Room m b) (hab : a ≤ b) : Room m a :=
  ⟨(Nat.add_le_add_left hab _).trans h.size, (Nat.add_le_add_left hab _).trans h.int⟩

/-- one attribute -/
theorem put_leaf {m : NlMsg} (hm : Tidy m) {l : Leaf} (hwf : l.WF) (hroom : Room m (encLeaves [l]).length) :
    ∃ m', nlaPut m l.type l.payload.length l.payload = (m', 0) ∧ Wrote m m' (encLeaves [l]) := by
  have hone : encLeaves [l] = encLeaf l.type l.payload := List.append_nil _
  rw [hone, encLeaf_length] at hroom
  rw [hone]
  exact nlaPut_room hm l.type hwf.type l.payload hwf.len hroom

/-- a nest, from the header to its end: what was written inside comes to stand as its payload -/
theorem nest_payload {m m1 m2 : NlMsg} {t : ℕ} {a : List UInt8} (h1 : Wrote m m1 (nlaHeader 4 (32768 + t)))
    (h2 : Wrote m1 m2 a) (hlen : 4 + a.length ≤ 65535) :
    ∃ m3, nlaNestEndKeepEmpty m2 m.nlmsgLen = (m3, 0) ∧ Wrote m m3 (encLeaves [⟨32768 + t, a⟩]) := by
  obtain ⟨m3, hend, hw⟩ := nlaNestEndKeepEmpty_wrote h1 h2 hlen
  refine ⟨m3, hend, ?_⟩
  have hl2 := h2.len
  have hmod1 := h1.tidy.mod
  have hmod2 := h2.tidy.mod
  have hpad : align4 (4 + a.length) - (4 + a.length) = 0 := by rw [align4_of_mod (by omega), Nat.sub_self]
  have himage : encLeaves [⟨32768 + t, a⟩] = nlaHeader (4 + a.length) (32768 + t) ++ a := by
    rw [encLeaves_cons, encLeaves_nil, List.append_nil, encLeaf, hpad, List.replicate_zero, List.append_nil]
  rw [himage]
  exact hw

/-- a nest with a stream in it -/
theorem nest_leaf {m m1 m2 : NlMsg} {t : ℕ} {ls : List Leaf} (h1 : Wrote m m1 (nlaHeader 4 (32768 + t)))
    (h2 : Wrote m1 m2 (encLeaves ls)) (hlen : 4 + (encLeaves ls).length ≤ 65535) :
    ∃ m3, nlaNestEndKeepEmpty m2 m.nlmsgLen = (m3, 0) ∧ Wrote m m3 (encLeaves [⟨32768 + t, encLeaves ls⟩]) :=
  nest_payload h1 h2 hlen

/-- a nest that is not empty is closed alike by `nla_nest_end` -/
theorem nestEnd_eq {m2 : NlMsg} {start : ℕ} (h : toU64 (nlmsgTail m2 - start) ≠ NLA_HDRLEN) :
    nlaNestEnd m2 start = nlaNestEndKeepEmpty m2 start := by
  simp [nlaNestEnd, nlaNestEndKeepEmpty, nestEnd, h]

end Libnl.AttrStream
