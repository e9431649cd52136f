/-
What the reader of extended matches links together (`link_tree` in `lib/route/cls/ematch.c`).

The reader has a table, and containers with references into it, which are less than its length but may point anywhere:
forward, backward, at the container itself, or into a sequence that another container points into. `link_tree` follows them
without marking what it has linked. Here every call of `nl_list_add_tail` is recorded: which match, and under which.

The table is a graph: from a match the way leads to the one behind it if there is a relation, and to the one a container
refers to. Linking is a descent into that graph.

- `linkCalls_tree`: the calls go with the tree of the other model.
- `linkCalls_descend`: the matches linked are those a descent visits.
- `parsesWell_iff`: linking ends exactly when no circle can be reached, and gives a tree exactly when there is one way to
  enter each match.
- `own_reference`: a container with a reference to itself.
-/
import Mathlib.Tactic
import Libnl.Core.Descent
import Libnl.Route.EmatchCodec

namespace Libnl.Ematch

open Bytes Msg Attr AttrWalk Descent Relation Ematches

/-! ## Calls -/

/-- `nl_list_add_tail`: a position of the table, and the container whose `e_childs` it comes into; without one it is the
list of the tree -/
structure Link where
  pos : ℕ
  root : Option ℕ
deriving DecidableEq

/-- `link_tree` with the calls it makes; in the shape of `linkTree` -/
def linkCalls (index : List RtnlEmatch) : ℕ → ℕ → Option ℕ → Option (List Link × ℤ)
  | 0, _, _ => none
  | n + 1, pos, root =>
    match index[pos]? with
    | none => some ([], -NLE_INVAL)
    | some e =>
      let below := if e.isContainer then (linkCalls index n (containerRef e) (some pos)).map Prod.fst else some []
      below.bind fun childs =>
        if e.related then (linkCalls index n (pos + 1) root).map fun r => (⟨pos, root⟩ :: childs ++ r.1, r.2)
        else some (⟨pos, root⟩ :: childs, 0)

/-- no match is linked twice -/
def Once (links : List Link) : Prop := (links.map Link.pos).Nodup

/-- no match is below itself -/
def Acyclic (links : List Link) : Prop := ∀ p, ¬ TransGen (fun p q => (⟨q, some p⟩ : Link) ∈ links) p p

/-- where the way leads from a match -/
def goesTo (index : List RtnlEmatch) (pos : ℕ) : List ℕ :=
  match index[pos]? with
  | none => []
  | some e => (if e.isContainer then [containerRef e] else []) ++ if e.related then [pos + 1] else []

/-- all matches of a sequence and below it -/
def Ematches.visited : Ematches → List RtnlEmatch
  | nil => []
  | cons e childs next => e :: childs.visited ++ next.visited

/-- two computations of the same shape: something first, then a rest if there is one -/
theorem map_bind_congr {α β γ δ ε ζ : Type} {t : Option α} {t' : Option β} {r : Option γ} {r' : Option δ}
    {f : α → ε} {g : β → ε} {F : γ → ζ} {G : δ → ζ} {join : α → γ → γ} {one : α → γ} {join' : β → δ → δ} {one' : β → δ}
    {c : Prop} [Decidable c] (hfirst : t.map f = t'.map g) (hrest : r.map F = r'.map G)
    (hjoin : ∀ a b, f a = g b → ∀ x y, F x = G y → F (join a x) = G (join' b y))
    (hone : ∀ a b, f a = g b → F (one a) = G (one' b)) :
    (t.bind fun a => if c then r.map (join a) else some (one a)).map F =
      (t'.bind fun b => if c then r'.map (join' b) else some (one' b)).map G := by
  cases t with
  | none =>
    rw [Option.map_none, eq_comm, Option.map_eq_none_iff] at hfirst
    rw [hfirst]
    rfl
  | some a =>
    obtain ⟨b, rfl, hab⟩ := Option.map_eq_some_iff.1 hfirst.symm
    rw [Option.bind_some, Option.bind_some]
    split_ifs
    · cases r with
      | none =>
        rw [Option.map_none, eq_comm, Option.map_eq_none_iff] at hrest
        rw [hrest]
        rfl
      | some x =>
        obtain ⟨y, rfl, hxy⟩ := Option.map_eq_some_iff.1 hrest.symm
        exact congrArg some (hjoin a b hab.symm x y hxy.symm)
    · exact congrArg some (hone a b hab.symm)

/-- **The tree and the calls.** -/
theorem linkCalls_tree (index : List RtnlEmatch) (n pos : ℕ) (root : Option ℕ) :
    (linkTree index n pos).map (fun r => (r.1.visited.map some, r.2)) =
      (linkCalls index n pos root).map fun r => (r.1.map fun l => index[l.pos]?, r.2) := by
  induction n generalizing pos root with
  | zero => rfl
  | succ n ih =>
    rw [linkTree, linkCalls]
    cases hget : index[pos]? with
    | none => rfl
    | some e =>
      have hbelow : (if e.isContainer then (linkTree index n (containerRef e)).map Prod.fst else some .nil).map
            (fun t => t.visited.map some) =
          (if e.isContainer then (linkCalls index n (containerRef e) (some pos)).map Prod.fst else some []).map
            (fun ls => ls.map fun l => index[l.pos]?) := by
        split_ifs
        · have hchilds := congrArg (Option.map Prod.fst) (ih (containerRef e) (some pos))
          rw [Option.map_map, Option.map_map] at hchilds ⊢
          exact hchilds
        · rfl
      apply map_bind_congr hbelow (ih (pos + 1) root)
      · intro t links hlinks r r' hrest
        obtain ⟨htree, hcode⟩ := Prod.mk.inj hrest
        simp only [visited, List.cons_append, List.map_cons, List.map_append, hlinks, htree, hcode, hget]
      · intro t links hlinks
        simp only [visited, List.append_nil, List.map_cons, hlinks, hget]

/-! ## Linking as a descent -/

theorem goesTo_some {index : List RtnlEmatch} {pos : ℕ} {e : RtnlEmatch} (hget : index[pos]? = some e) :
    goesTo index pos = (if e.isContainer then [containerRef e] else []) ++ if e.related then [pos + 1] else [] := by
  rw [goesTo, hget]

theorem goesTo_none {index : List RtnlEmatch} {pos : ℕ} (hget : index[pos]? = none) : goesTo index pos = [] := by
  rw [goesTo, hget]

theorem lt_of_goesTo {index : List RtnlEmatch} (pos : ℕ) (h : goesTo index pos ≠ []) : pos < index.length := by
  by_contra hge
  exact h (goesTo_none (List.getElem?_eq_none (not_lt.1 hge)))

/-- what the descent visits for a match -/
theorem descend_goesTo {index : List RtnlEmatch} {pos : ℕ} {e : RtnlEmatch} (hget : index[pos]? = some e) (n : ℕ) :
    descend (goesTo index) (n + 1) pos =
      (if e.isContainer then descend (goesTo index) n (containerRef e) else some []).bind fun l =>
        if e.related then (descend (goesTo index) n (pos + 1)).map fun r => pos :: l ++ r else some (pos :: l) := by
  have hone : ∀ q, collect (descend (goesTo index) n) [q] = descend (goesTo index) n q := by
    intro q
    cases h : descend (goesTo index) n q with
    | none => simp [collect, h]
    | some l => simp [collect, h]
  rw [descend, goesTo_some hget]
  cases e.isContainer with
  | false =>
    cases e.related with
    | false => rfl
    | true => simp [hone]
  | true =>
    cases e.related with
    | false =>
      simp only [Bool.false_eq_true, if_false, if_true, List.append_nil, hone]
      cases descend (goesTo index) n (containerRef e) with
      | none => rfl
      | some l => rfl
    | true =>
      simp only [if_true, List.cons_append, List.nil_append]
      rw [collect, hone]
      cases descend (goesTo index) n (containerRef e) with
      | none => rfl
      | some l => exact Option.map_map ..

/-- **`link_tree` is a descent**, and links what is in the table. -/
theorem linkCalls_descend (index : List RtnlEmatch) (n pos : ℕ) (root : Option ℕ) :
    (linkCalls index n pos root).map (fun r => r.1.map Link.pos) =
      (descend (goesTo index) n pos).map (List.filter fun q => decide (q < index.length)) := by
  induction n generalizing pos root with
  | zero => rfl
  | succ n ih =>
    cases hget : index[pos]? with
    | none =>
      have hge := List.getElem?_eq_none_iff.1 hget
      rw [linkCalls, hget, descend, goesTo_none hget, collect, Option.map_some, Option.map_some, Option.map_some,
        List.filter_cons_of_neg (by simpa using hge)]
      rfl
    | some e =>
      have hlt := (List.getElem?_eq_some_iff.1 hget).1
      rw [linkCalls, hget, descend_goesTo hget]
      have hbelow : (if e.isContainer then (linkCalls index n (containerRef e) (some pos)).map Prod.fst else some []).map
            (List.map Link.pos) =
          (if e.isContainer then descend (goesTo index) n (containerRef e) else some []).map
            (List.filter fun q => decide (q < index.length)) := by
        split_ifs
        · rw [← ih (containerRef e) (some pos), Option.map_map]
          rfl
        · rfl
      apply map_bind_congr hbelow (ih (pos + 1) root)
      · intro links visited hvisited r r' hrest
        simp only [List.cons_append, List.map_cons, List.map_append, List.filter_cons, List.filter_append, hvisited, hrest,
          hlt, decide_true, if_true]
      · intro links visited hvisited
        simp only [List.map_cons, List.filter_cons, hvisited, hlt, decide_true, if_true]

/-- **The return code** says whether the sequence comes to a match without a relation. -/
theorem linkCalls_code {index : List RtnlEmatch} {n pos : ℕ} {root : Option ℕ} {links : List Link} {code : ℤ}
    (h : linkCalls index n pos root = some (links, code)) :
    (code = 0 ↔ ∃ e ∈ index.drop pos, e.related = false) ∧ (code = 0 ∨ code = -NLE_INVAL) := by
  induction n generalizing pos links with
  | zero => cases h
  | succ n ih =>
    rw [linkCalls] at h
    cases hget : index[pos]? with
    | none =>
      rw [hget] at h
      cases h
      rw [List.drop_eq_nil_of_le (List.getElem?_eq_none_iff.1 hget)]
      exact ⟨iff_of_false (by decide) (by simp), Or.inr rfl⟩
    | some e =>
      obtain ⟨hlt, hat⟩ := List.getElem?_eq_some_iff.1 hget
      rw [hget] at h
      obtain ⟨childs, -, h⟩ := Option.bind_eq_some_iff.1 h
      rw [List.drop_eq_getElem_cons hlt, hat, List.exists_mem_cons_iff]
      cases hr : e.related with
      | false =>
        simp only [hr, Bool.false_eq_true, if_false] at h
        cases h
        exact ⟨iff_of_true rfl (Or.inl rfl), Or.inl rfl⟩
      | true =>
        simp only [hr, if_true] at h
        obtain ⟨⟨rest, code'⟩, hrest, h⟩ := Option.map_eq_some_iff.1 h
        cases h
        simpa using ih hrest

/-- where a call can come from that is made below a position: its match can be reached, and so can the container it goes into,
unless that is the one of the position -/
def CalledFrom (index : List RtnlEmatch) (pos : ℕ) (root : Option ℕ) (l : Link) : Prop :=
  ReflTransGen (Edge (goesTo index)) pos l.pos ∧ (l.root = root ∨
    ∃ p, l.root = some p ∧ ReflTransGen (Edge (goesTo index)) pos p ∧ TransGen (Edge (goesTo index)) p l.pos)

section
variable {index : List RtnlEmatch} {pos : ℕ} {e : RtnlEmatch} {root : Option ℕ} {l : Link}

theorem calledFrom_self : CalledFrom index pos root ⟨pos, root⟩ := ⟨ReflTransGen.refl, Or.inl rfl⟩

theorem calledFrom_container (hget : index[pos]? = some e) (hc : e.isContainer = true)
    (h : CalledFrom index (containerRef e) (some pos) l) : CalledFrom index pos root l := by
  have hedge : Edge (goesTo index) pos (containerRef e) := by
    rw [Edge, goesTo_some hget, hc]
    exact List.mem_append_left _ List.mem_cons_self
  obtain ⟨hreach, hroot⟩ := h
  refine ⟨ReflTransGen.head hedge hreach, Or.inr ?_⟩
  rcases hroot with hroot | ⟨p, hp, hto, hfrom⟩
  · exact ⟨pos, hroot, ReflTransGen.refl, TransGen.head' hedge hreach⟩
  · exact ⟨p, hp, ReflTransGen.head hedge hto, hfrom⟩

theorem calledFrom_next (hget : index[pos]? = some e) (hr : e.related = true) (h : CalledFrom index (pos + 1) root l) :
    CalledFrom index pos root l := by
  have hedge : Edge (goesTo index) pos (pos + 1) := by
    rw [Edge, goesTo_some hget, hr]
    exact List.mem_append_right _ List.mem_cons_self
  obtain ⟨hreach, hroot⟩ := h
  refine ⟨ReflTransGen.head hedge hreach, hroot.imp_right ?_⟩
  rintro ⟨p, hp, hto, hfrom⟩
  exact ⟨p, hp, ReflTransGen.head hedge hto, hfrom⟩

end

/-- what is linked below a container can be reached from it -/
theorem linkCalls_root {index : List RtnlEmatch} {n pos : ℕ} {root : Option ℕ} {links : List Link} {code : ℤ}
    (h : linkCalls index n pos root = some (links, code)) {l : Link} (hl : l ∈ links) : CalledFrom index pos root l := by
  induction n generalizing pos root links code with
  | zero => cases h
  | succ n ih =>
    rw [linkCalls] at h
    cases hget : index[pos]? with
    | none =>
      rw [hget] at h
      cases h
      cases hl
    | some e =>
      rw [hget] at h
      obtain ⟨childs, hchilds, h⟩ := Option.bind_eq_some_iff.1 h
      have hfirst : l ∈ ⟨pos, root⟩ :: childs → CalledFrom index pos root l := by
        intro hl
        rcases List.mem_cons.1 hl with rfl | hl
        · exact calledFrom_self
        cases hc : e.isContainer with
        | false =>
          simp only [hc, Bool.false_eq_true, if_false] at hchilds
          cases hchilds
          cases hl
        | true =>
          simp only [hc, if_true] at hchilds
          obtain ⟨⟨below, code'⟩, hcalls, rfl⟩ := Option.map_eq_some_iff.1 hchilds
          exact calledFrom_container hget hc (ih hcalls hl)
      cases hr : e.related with
      | false =>
        simp only [hr, Bool.false_eq_true, if_false] at h
        cases h
        exact hfirst hl
      | true =>
        simp only [hr, if_true] at h
        obtain ⟨⟨rest, code'⟩, hrest, h⟩ := Option.map_eq_some_iff.1 h
        cases h
        rcases List.mem_append.1 hl with hl | hl
        · exact hfirst hl
        · exact calledFrom_next hget hr (ih hrest hl)

/-! ## Tables -/

theorem linkCalls_ends_iff (index : List RtnlEmatch) (root : Option ℕ) :
    (∃ n, (linkCalls index n 0 root).isSome) ↔ ¬ Cyclic (goesTo index) 0 := by
  rw [← descend_isSome_iff id Function.injective_id lt_of_goesTo]
  refine exists_congr fun n => ?_
  have h := congrArg Option.isSome (linkCalls_descend index n 0 root)
  rw [Option.isSome_map, Option.isSome_map] at h
  rw [h]

/-- linking that ends makes no circle -/
theorem acyclic_of_linkCalls {index : List RtnlEmatch} {n : ℕ} {links : List Link} {code : ℤ}
    (h : linkCalls index n 0 none = some (links, code)) : Acyclic links := by
  have hends : ¬ Cyclic (goesTo index) 0 := (linkCalls_ends_iff index none).1 ⟨n, by rw [h]; rfl⟩
  have hlink : ∀ p q, (⟨q, some p⟩ : Link) ∈ links →
      ReflTransGen (Edge (goesTo index)) 0 p ∧ TransGen (Edge (goesTo index)) p q := by
    intro p q hl
    obtain ⟨-, hroot | ⟨p', hp, hto, hfrom⟩⟩ := linkCalls_root h hl
    · cases hroot
    · cases hp
      exact ⟨hto, hfrom⟩
  intro p hp
  obtain ⟨q, hq, -⟩ := TransGen.head'_iff.1 hp
  refine hends ⟨p, (hlink p q hq).1, ?_⟩
  have hlift := TransGen.lift' id (p := Edge (goesTo index)) (fun a b hab => (hlink a b hab).2) p p hp
  exact hlift

/-- nothing is linked twice exactly when there is one way to enter each match -/
theorem once_iff {index : List RtnlEmatch} {n : ℕ} {links : List Link} {code : ℤ}
    (h : linkCalls index n 0 none = some (links, code)) :
    Once links ↔ ∀ q < index.length, EnteredOnce (goesTo index) 0 q := by
  have hvisit := linkCalls_descend index n 0 none
  rw [h, Option.map_some] at hvisit
  obtain ⟨visited, hdescend, hfilter⟩ := Option.map_eq_some_iff.1 hvisit.symm
  rw [← count_le_one_iff hdescend lt_of_goesTo, Once, ← hfilter, List.nodup_iff_count_le_one]
  refine forall_congr' fun q => ?_
  by_cases hq : q < index.length
  · have hcount : (visited.filter fun q => decide (q < index.length)).count q = visited.count q :=
      List.count_filter (decide_eq_true hq)
    rw [hcount]
    simp only [hq, true_implies]
  · have hnot : q ∉ visited.filter fun q => decide (q < index.length) := by
      intro hmem
      exact hq (of_decide_eq_true (List.mem_filter.1 hmem).2)
    simp only [List.count_eq_zero.2 hnot, hq, false_implies, Nat.zero_le]

/-! ## Payloads -/

variable [HostOrder] (others : UInt16 → Option RtnlEmatchOps)

/-- `rtnl_ematch_parse_attr` up to the call of `link_tree`: the error, or the program and the table if there is one -/
def parsedTable (buf : Mem) (attr : ℕ) : Except ℤ (Option (UInt16 × List RtnlEmatch)) :=
  let (err, tb) := nlaParseNested buf TCA_EMATCH_TREE_MAX attr (some treePolicy)
  if err < 0 then .error err
  else
    match tb TCA_EMATCH_TREE_HDR with
    | none => .error (-NLE_MISSING_ATTR)
    | some thdr =>
      let nmatches := getU16 buf (nlaData thdr)
      let progid := UInt16.ofNat (getU16 buf (nlaData thdr + 2))
      if nmatches = 0 then .ok none
      else
        match tb TCA_EMATCH_TREE_LIST with
        | none => .error (-NLE_MISSING_ATTR)
        | some list =>
          if nlaLen buf list / nlaTotalSize 8 < nmatches then .error (-NLE_INVAL)
          else
            match (nestedAttrs buf list).foldlM (parseMatch others buf nmatches) [] with
            | .error err => .error err
            | .ok index => if index.length ≠ nmatches then .error (-NLE_INVAL) else .ok (some (progid, index))

theorem rtnlEmatchParseAttr_eq (n : ℕ) (buf : Mem) (attr : ℕ) :
    rtnlEmatchParseAttr others n buf attr =
      match parsedTable others buf attr with
      | .error err => some (.error err)
      | .ok none => some (.ok none)
      | .ok (some (progid, index)) =>
        (linkTree index n 0).map fun r => if r.2 < 0 then .error r.2 else .ok (some ⟨progid, r.1⟩) := by
  unfold rtnlEmatchParseAttr parsedTable
  dsimp only
  split_ifs with herr
  · rfl
  cases (nlaParseNested buf TCA_EMATCH_TREE_MAX attr (some treePolicy)).2 TCA_EMATCH_TREE_HDR with
  | none => rfl
  | some thdr =>
    dsimp only
    split_ifs with hempty
    · rfl
    cases (nlaParseNested buf TCA_EMATCH_TREE_MAX attr (some treePolicy)).2 TCA_EMATCH_TREE_LIST with
    | none => rfl
    | some list =>
      dsimp only
      split_ifs with hfit
      · rfl
      cases (nestedAttrs buf list).foldlM (parseMatch others buf (getU16 buf (nlaData thdr))) [] with
      | error err => rfl
      | ok index =>
        dsimp only
        split_ifs with hlen
        · rfl
        · rfl

/-- the calls of `nl_list_add_tail` in `rtnl_ematch_parse_attr` -/
def rtnlEmatchParseLinks (n : ℕ) (buf : Mem) (attr : ℕ) : Option (List Link) :=
  match parsedTable others buf attr with
  | .ok (some (_, index)) => (linkCalls index n 0 none).map Prod.fst
  | _ => some []

/-- the parser ends, and if it returns success, it has linked every match at most once and made no circle -/
structure ParsesWell (buf : Mem) (attr : ℕ) : Prop where
  terminates : ∃ n, (rtnlEmatchParseAttr others n buf attr).isSome
  linked : ∀ n result links, rtnlEmatchParseAttr others n buf attr = some (.ok result) →
    rtnlEmatchParseLinks others n buf attr = some links → Once links ∧ Acyclic links

/-- the same for whatever it returns: when linking fails, the tree is freed along its lists -/
structure LinksWell (buf : Mem) (attr : ℕ) : Prop where
  terminates : ∃ n, (rtnlEmatchParseAttr others n buf attr).isSome
  linked : ∀ n links, rtnlEmatchParseLinks others n buf attr = some links → Once links ∧ Acyclic links

variable {others}

theorem parsesWell_of_table {buf : Mem} {attr : ℕ} (h : ∀ progid index, parsedTable others buf attr ≠ .ok (some (progid, index))) :
    ParsesWell others buf attr ∧ LinksWell others buf attr := by
  have hends : ∃ n, (rtnlEmatchParseAttr others n buf attr).isSome := by
    refine ⟨0, ?_⟩
    rw [rtnlEmatchParseAttr_eq]
    cases htab : parsedTable others buf attr with
    | error err => rfl
    | ok t =>
      cases t with
      | none => rfl
      | some t => exact absurd htab (h t.1 t.2)
  have hlinks : ∀ n links, rtnlEmatchParseLinks others n buf attr = some links → Once links ∧ Acyclic links := by
    intro n links hl
    have hnone : links = [] := by
      rw [rtnlEmatchParseLinks] at hl
      cases htab : parsedTable others buf attr with
      | error err =>
        rw [htab] at hl
        exact (Option.some.inj hl).symm
      | ok t =>
        cases t with
        | none =>
          rw [htab] at hl
          exact (Option.some.inj hl).symm
        | some t => exact absurd htab (h t.1 t.2)
    rw [hnone]
    refine ⟨List.nodup_nil, fun p hp => ?_⟩
    obtain ⟨q, hq, -⟩ := TransGen.head'_iff.1 hp
    cases hq
  exact ⟨⟨hends, fun n _ links _ hl => hlinks n links hl⟩, ⟨hends, hlinks⟩⟩

/-- the parser ends if linking the table does -/
theorem parse_ends_iff {buf : Mem} {attr : ℕ} {progid : UInt16} {index : List RtnlEmatch}
    (htab : parsedTable others buf attr = .ok (some (progid, index))) :
    (∃ n, (rtnlEmatchParseAttr others n buf attr).isSome) ↔ ¬ Cyclic (goesTo index) 0 := by
  rw [← linkCalls_ends_iff index none]
  refine exists_congr fun n => ?_
  have h := congrArg Option.isSome (linkCalls_tree index n 0 none)
  rw [Option.isSome_map, Option.isSome_map] at h
  rw [rtnlEmatchParseAttr_eq, htab, ← h]
  exact Eq.to_iff (congrArg (· = true) (Option.isSome_map ..))

/-- success, and the calls made for it -/
theorem parse_ok_iff {buf : Mem} {attr : ℕ} {progid : UInt16} {index : List RtnlEmatch}
    (htab : parsedTable others buf attr = .ok (some (progid, index))) {n : ℕ} {links : List Link} {code : ℤ}
    (hcalls : linkCalls index n 0 none = some (links, code)) :
    (∃ result, rtnlEmatchParseAttr others n buf attr = some (.ok result)) ↔ ∃ e ∈ index, e.related = false := by
  obtain ⟨hcode, hvalue⟩ := linkCalls_code hcalls
  rw [List.drop_zero] at hcode
  have htree := linkCalls_tree index n 0 none
  rw [hcalls, Option.map_some] at htree
  obtain ⟨⟨t, code'⟩, hlink, hr⟩ := Option.map_eq_some_iff.1 htree
  have hsame : code' = code := congrArg Prod.snd hr
  rw [rtnlEmatchParseAttr_eq, htab, ← hcode]
  dsimp only
  rw [hlink, hsame, Option.map_some]
  rcases hvalue with hzero | hneg
  · rw [hzero, if_neg (lt_irrefl 0)]
    exact iff_of_true ⟨_, rfl⟩ rfl
  · rw [hneg, if_pos (show -NLE_INVAL < 0 by decide)]
    refine iff_of_false ?_ (by decide)
    rintro ⟨result, hresult⟩
    cases hresult

section
variable {buf : Mem} {attr : ℕ} {progid : UInt16} {index : List RtnlEmatch}

theorem parseLinks_eq_some_iff (htab : parsedTable others buf attr = .ok (some (progid, index))) {n : ℕ} {links : List Link} :
    rtnlEmatchParseLinks others n buf attr = some links ↔ ∃ code, linkCalls index n 0 none = some (links, code) := by
  rw [rtnlEmatchParseLinks, htab, Option.map_eq_some_iff]
  constructor
  · rintro ⟨⟨links', code⟩, h, rfl⟩
    exact ⟨code, h⟩
  · rintro ⟨code, h⟩
    exact ⟨(links, code), h, rfl⟩

/-- linking a table, if its parser ends -/
theorem exists_linkCalls (htab : parsedTable others buf attr = .ok (some (progid, index)))
    (h : ∃ n, (rtnlEmatchParseAttr others n buf attr).isSome) :
    ∃ n links code, linkCalls index n 0 none = some (links, code) := by
  obtain ⟨n, hn⟩ := (linkCalls_ends_iff index none).2 ((parse_ends_iff htab).1 h)
  obtain ⟨⟨links, code⟩, hcalls⟩ := Option.isSome_iff_exists.1 hn
  exact ⟨n, links, code, hcalls⟩

theorem parsesWell_of_table_some (htab : parsedTable others buf attr = .ok (some (progid, index))) :
    ParsesWell others buf attr ↔ ¬ Cyclic (goesTo index) 0 ∧
      ((∃ e ∈ index, e.related = false) → ∀ q < index.length, EnteredOnce (goesTo index) 0 q) := by
  constructor
  · intro h
    refine ⟨(parse_ends_iff htab).1 h.terminates, fun hsuccess => ?_⟩
    obtain ⟨n, links, code, hcalls⟩ := exists_linkCalls htab h.terminates
    obtain ⟨result, hok⟩ := (parse_ok_iff htab hcalls).2 hsuccess
    exact (once_iff hcalls).1 (h.linked n result links hok ((parseLinks_eq_some_iff htab).2 ⟨code, hcalls⟩)).1
  · rintro ⟨hacyclic, honce⟩
    refine ⟨(parse_ends_iff htab).2 hacyclic, fun n result links hok hl => ?_⟩
    obtain ⟨code, hcalls⟩ := (parseLinks_eq_some_iff htab).1 hl
    have hsuccess := (parse_ok_iff htab hcalls).1 ⟨result, hok⟩
    exact ⟨(once_iff hcalls).2 (honce hsuccess), acyclic_of_linkCalls hcalls⟩

theorem linksWell_of_table_some (htab : parsedTable others buf attr = .ok (some (progid, index))) :
    LinksWell others buf attr ↔ ¬ Cyclic (goesTo index) 0 ∧ ∀ q < index.length, EnteredOnce (goesTo index) 0 q := by
  constructor
  · intro h
    refine ⟨(parse_ends_iff htab).1 h.terminates, ?_⟩
    obtain ⟨n, links, code, hcalls⟩ := exists_linkCalls htab h.terminates
    exact (once_iff hcalls).1 (h.linked n links ((parseLinks_eq_some_iff htab).2 ⟨code, hcalls⟩)).1
  · rintro ⟨hacyclic, honce⟩
    refine ⟨(parse_ends_iff htab).2 hacyclic, fun n links hl => ?_⟩
    obtain ⟨code, hcalls⟩ := (parseLinks_eq_some_iff htab).1 hl
    exact ⟨(once_iff hcalls).2 honce, acyclic_of_linkCalls hcalls⟩

/-- there is one table -/
theorem forall_table_iff (htab : parsedTable others buf attr = .ok (some (progid, index))) (P : List RtnlEmatch → Prop) :
    (∀ progid index, parsedTable others buf attr = .ok (some (progid, index)) → P index) ↔ P index := by
  constructor
  · intro h
    exact h progid index htab
  · intro h progid' index' htab'
    rw [htab] at htab'
    cases htab'
    exact h

end

-- two containers share a sequence: success, and a match linked twice
example : (linkCalls [⟨0, TCF_EM_CONTAINER, 1, 0, .ref 2⟩, ⟨0, TCF_EM_CONTAINER, 0, 0, .ref 2⟩, ⟨0, TCF_EM_TEXT, 0, 0, .null⟩]
    3 0 none).map (fun r => (r.1.map Link.pos, r.2)) = some ([0, 2, 1, 2], 0) := by decide

/-- one match: a container whose sequence starts with itself -/
def ownReference : Mem := memOf [
  32, 0, 2, 128,
  8, 0, 1, 0, 1, 0, 0, 0,
  20, 0, 2, 128,
  16, 0, 1, 128, 0, 0, 0, 0, 0, 0, 0, 0, 0, 0, 0, 0]

end Libnl.Ematch
