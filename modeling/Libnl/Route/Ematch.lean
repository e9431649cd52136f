/-
Extended matches (`lib/route/cls/ematch.c`, `ematch/container.c`, `ematch/text.c`).

A tree is a sequence of matches; a container is a match that stands for a sequence of its own. On the wire the tree is a
table: the matches of a sequence one after the other, then, container by container, the sequences inside. A container holds
the index at which its sequence starts, and a sequence ends with the match that has no relation to a next one.

`update_container_index` computes the indices, `fill_ematch_sequence` writes the table; these are separate recursions. The
reader knows only the table (`link_tree`). A reference that goes in circles would keep it busy for ever, so it takes the
number of steps it may make.

- `Ematches`: a sequence, linked as in the source: a match, the sequence inside it, and the rest.
- `flat`: the table of a sequence. `Placed`: a table has a sequence at some index, with everything below it.
- `updated_placed`: after `update_container_index` the table of a sequence has it at its start.
- `link_placed`: `link_tree` finds what is placed.
-/
import Mathlib.Tactic
import Libnl.Message.AttrStream

namespace Libnl.Ematch

open Bytes Msg Attr AttrWalk

/-! ## Data -/

def TCF_EM_CONTAINER : UInt16 := 0
def TCF_EM_TEXT : UInt16 := 5

def TCF_EM_SIMPLE : UInt16 := 8
def TCF_EM_REL_MASK : UInt16 := 3

/-- `struct text_data`; the length of the pattern is the field `pattern_len` -/
@[ext]
structure TextData where
  algo : List UInt8
  algo_len : algo.length = 16
  fromOffset : UInt16
  toOffset : UInt16
  /-- `from_layer` and `to_layer`, four bits each -/
  layers : UInt8
  pad : UInt8
  pattern : List UInt8
  pattern_len : pattern.length < 65536
deriving DecidableEq

/-- what `e_data` points to -/
inductive EData where
  | null
  | ref (index : ℕ)
  | text (t : TextData)
  | raw (bytes : List UInt8)
deriving DecidableEq

structure RtnlEmatch where
  eId : UInt16
  eKind : UInt16
  eFlags : UInt16
  eIndex : UInt16
  eData : EData
deriving DecidableEq

/-- a sequence of matches: the first one, its `e_childs`, and those behind it in `e_list` -/
inductive Ematches where
  | nil
  | cons (e : RtnlEmatch) (childs next : Ematches)
deriving DecidableEq

structure RtnlEmatchTree where
  etProgid : UInt16
  etList : Ematches
deriving DecidableEq

def RtnlEmatch.isContainer (e : RtnlEmatch) : Bool := decide (e.eKind = TCF_EM_CONTAINER)

/-- the match has a relation to the next one -/
def RtnlEmatch.related (e : RtnlEmatch) : Bool := decide (e.eFlags &&& TCF_EM_REL_MASK ≠ 0)

/-! ## Numbering -/

namespace Ematches

/-- number of matches in the sequence itself -/
def count : Ematches → ℕ
  | nil => 0
  | cons _ _ next => next.count + 1

/-- the first loop of `update_container_index` -/
def assign : ℕ → Ematches → Ematches
  | _, nil => nil
  | index, cons e childs next => cons { e with eIndex := UInt16.ofNat index } childs (assign (index + 1) next)

end Ematches

open Ematches

/-- the second loop of `update_container_index`. What the first loop does in the sequence of a container comes after what is
done below it, which makes no difference: the one is about `e_index`, the other about the rest. -/
def updateChilds : Ematches → ℕ → Except ℤ (Ematches × ℕ)
  | .nil, index => .ok (.nil, index)
  | .cons e childs next, index =>
    if e.isContainer then
      if childs = .nil then .error (-NLE_OBJ_NOTFOUND)
      else do
        let (childs', index') ← updateChilds childs (index + childs.count)
        let (next', index'') ← updateChilds next index'
        return (.cons { e with eData := .ref index } (assign index childs') next', index'')
    else do
      let (next', index') ← updateChilds next index
      return (.cons e childs next', index')

/-- `update_container_index`: the sequence with its numbers, and the next free one -/
def updateContainerIndex (list : Ematches) (index : ℕ) : Except ℤ (Ematches × ℕ) := do
  let (list', index') ← updateChilds list (index + list.count)
  return (assign index list', index')

/-! ## The table -/

namespace Ematches

/-- the matches of the sequence itself -/
def level : Ematches → List RtnlEmatch
  | nil => []
  | cons e _ next => e :: next.level

/-- the matches below the containers of the sequence -/
def deeper : Ematches → List RtnlEmatch
  | nil => []
  | cons e childs next => (if e.isContainer then childs.level ++ childs.deeper else []) ++ next.deeper

/-- the order in which `fill_ematch_sequence` writes -/
def flat (l : Ematches) : List RtnlEmatch := l.level ++ l.deeper

@[simp] theorem level_length (l : Ematches) : l.level.length = l.count := by
  induction l with
  | nil => rfl
  | cons e childs next _ ih => simp [level, count, ih]

end Ematches

/-! ## Linking -/

/-- the number in the data of a container -/
def EData.asRef : EData → ℕ
  | .ref index => index
  | _ => 0

def containerRef (e : RtnlEmatch) : ℕ := e.eData.asRef

/-- `link_tree`: the sequence that starts at a position of the table, and the return code, if `n` steps are enough. What is
below a container is linked whatever the return code is there. -/
def linkTree (index : List RtnlEmatch) : ℕ → ℕ → Option (Ematches × ℤ)
  | 0, _ => none
  | n + 1, pos =>
    match index[pos]? with
    | none => some (.nil, -NLE_INVAL)
    | some e =>
      let below := if e.isContainer then (linkTree index n (containerRef e)).map Prod.fst else some .nil
      below.bind fun childs =>
        if e.related then (linkTree index n (pos + 1)).map fun r => (.cons e childs r.1, r.2)
        else some (.cons e childs .nil, 0)

/-- containers have something in them, texts have a text, and a match has a relation unless it is the last one -/
def WellBuilt : Ematches → Prop
  | .nil => True
  | .cons e childs next =>
    ((e.eKind = TCF_EM_CONTAINER ∧ childs ≠ .nil ∧ WellBuilt childs) ∨
      (e.eKind = TCF_EM_TEXT ∧ (∃ t, e.eData = .text t) ∧ childs = .nil)) ∧
    (e.related = false ↔ next = .nil) ∧ WellBuilt next

/-- the table has the sequence at `pos`, and under the references of its containers what is below -/
def Placed (index : List RtnlEmatch) : ℕ → Ematches → Prop
  | _, .nil => True
  | pos, .cons e childs next =>
    index[pos]? = some e ∧ (e.isContainer = true → Placed index (containerRef e) childs) ∧ Placed index (pos + 1) next

/-- number of matches in the sequence and below -/
def Ematches.size : Ematches → ℕ
  | .nil => 0
  | .cons _ childs next => childs.size + next.size + 1

/-- **Linking.** A well-built sequence that is placed is found there. -/
theorem link_placed {index : List RtnlEmatch} {l : Ematches} (hw : WellBuilt l) (hne : l ≠ .nil) {pos n : ℕ}
    (hp : Placed index pos l) (hn : l.size < n) : linkTree index n pos = some (l, 0) := by
  induction l generalizing pos n with
  | nil => exact absurd rfl hne
  | cons e childs next ihc ihn =>
    obtain ⟨hkind, hrel, hnext⟩ := hw
    obtain ⟨hget, hchilds, hrest⟩ := hp
    obtain ⟨n, rfl⟩ : ∃ k, n = k + 1 := ⟨n - 1, by omega⟩
    simp only [Ematches.size] at hn
    have hbelow : (if e.isContainer then (linkTree index n (containerRef e)).map Prod.fst else some .nil) = some childs := by
      rcases hkind with ⟨hk, hcne, hcw⟩ | ⟨hk, -, hcnil⟩
      · have hc : e.isContainer = true := decide_eq_true hk
        rw [if_pos hc, ihc hcw hcne (hchilds hc) (by omega)]
        rfl
      · have hc : ¬ e.isContainer = true := by
          simp only [RtnlEmatch.isContainer, hk, decide_eq_true_eq]
          decide
        rw [if_neg hc, hcnil]
    simp only [linkTree, hget, hbelow, Option.bind_some]
    cases hr : e.related with
    | false =>
      rw [hrel.1 hr]
      rfl
    | true =>
      have hnn : next ≠ .nil := by
        intro hnil
        rw [hrel.2 hnil] at hr
        cases hr
      have hlink := ihn hnext hnn hrest (n := n) (by omega)
      simp only [if_true, hlink]
      rfl

/-! ## Content -/

/-- a match without what the writer and the reader compute: its number, and the reference of a container -/
def RtnlEmatch.content (e : RtnlEmatch) : RtnlEmatch :=
  { e with eIndex := 0, eData := if e.isContainer then .null else e.eData }

namespace Ematches

def map (f : RtnlEmatch → RtnlEmatch) : Ematches → Ematches
  | nil => nil
  | cons e childs next => cons (f e) (childs.map f) (next.map f)

/-- shape, identity, kinds, flags and payloads -/
def content (l : Ematches) : Ematches := l.map RtnlEmatch.content

theorem content_cons (e : RtnlEmatch) (childs next : Ematches) :
    (cons e childs next).content = cons e.content childs.content next.content := rfl

theorem content_nil_iff {l : Ematches} : l.content = .nil ↔ l = .nil := by
  cases l with
  | nil => exact iff_of_true rfl rfl
  | cons e childs next => exact iff_of_false (by intro h; cases h) (by intro h; cases h)

theorem size_map (f : RtnlEmatch → RtnlEmatch) (l : Ematches) : (l.map f).size = l.size := by
  induction l with
  | nil => rfl
  | cons e childs next ihc ihn => simp only [map, size, ihc, ihn]

theorem content_map {f : RtnlEmatch → RtnlEmatch} (hf : ∀ e, (f e).content = e.content) (l : Ematches) :
    (l.map f).content = l.content := by
  induction l with
  | nil => rfl
  | cons e childs next ihc ihn =>
    rw [content_cons, ← ihc, ← ihn, ← hf e]
    rfl

theorem content_assign (k : ℕ) (l : Ematches) : (assign k l).content = l.content := by
  induction l generalizing k with
  | nil => rfl
  | cons e childs next _ ihn =>
    rw [assign, content_cons, content_cons, ihn]
    rfl

end Ematches

/-- sequences of the same content are well built alike -/
theorem wellBuilt_congr {a b : Ematches} (h : a.content = b.content) (ha : WellBuilt a) : WellBuilt b := by
  induction a generalizing b with
  | nil =>
    rw [content_nil_iff.1 h.symm]
    trivial
  | cons e childs next ihc ihn =>
    cases b with
    | nil => cases h
    | cons e' childs' next' =>
      rw [content_cons, content_cons] at h
      injection h with he hc hn
      obtain ⟨hkind, hrel, hnext⟩ := ha
      have hk : e'.eKind = e.eKind := (congrArg RtnlEmatch.eKind he).symm
      have hfl : e'.eFlags = e.eFlags := (congrArg RtnlEmatch.eFlags he).symm
      have hdata : (if e.isContainer then EData.null else e.eData) = if e'.isContainer then EData.null else e'.eData :=
        congrArg RtnlEmatch.eData he
      refine ⟨?_, ?_, ihn hn hnext⟩
      · rcases hkind with ⟨hcon, hne, hw⟩ | ⟨htext, ⟨t, ht⟩, hnil⟩
        · refine Or.inl ⟨hk.trans hcon, ?_, ihc hc hw⟩
          intro hnil
          rw [hnil] at hc
          exact hne (content_nil_iff.1 hc)
        · refine Or.inr ⟨hk.trans htext, ⟨t, ?_⟩, ?_⟩
          · have h1 : e.isContainer = false := by
              rw [RtnlEmatch.isContainer, htext]
              decide
            have h2 : e'.isContainer = false := by
              rw [RtnlEmatch.isContainer, hk, htext]
              decide
            rw [h1, h2] at hdata
            exact hdata.symm.trans ht
          · rw [hnil] at hc
            exact content_nil_iff.1 hc.symm
      · have hr : e'.related = e.related := by rw [RtnlEmatch.related, RtnlEmatch.related, hfl]
        rw [hr, hrel, ← content_nil_iff, hn, content_nil_iff]

/-! ## The numbers are right -/

/-- what `update_container_index` leaves -/
structure Numbered (l l' : Ematches) (index index' : ℕ) : Prop where
  content : l'.content = l.content
  count : l'.count = l.count
  last : index' = index + l'.deeper.length
  placed : ∀ (table : List RtnlEmatch) (pos k : ℕ), (assign k l').level <+: table.drop pos →
    l'.deeper <+: table.drop index → Placed table pos (assign k l')

theorem Ematches.deeper_assign (k : ℕ) (l : Ematches) : (assign k l).deeper = l.deeper := by
  induction l generalizing k with
  | nil => rfl
  | cons e childs next _ ihn =>
    rw [assign, deeper, deeper, ihn]
    rfl

theorem Ematches.count_assign (k : ℕ) (l : Ematches) : (assign k l).count = l.count := by
  induction l generalizing k with
  | nil => rfl
  | cons e childs next _ ihn => rw [assign, count, count, ihn]

/-- what stands behind the first part of a segment of a table -/
theorem prefix_drop {α : Type} {a b t : List α} {i : ℕ} (h : a ++ b <+: t.drop i) :
    a <+: t.drop i ∧ b <+: t.drop (i + a.length) := by
  refine ⟨(List.prefix_append a b).trans h, ?_⟩
  obtain ⟨rest, hrest⟩ := h
  refine ⟨rest, ?_⟩
  rw [← List.drop_drop, ← hrest, List.append_assoc, List.drop_left]

theorem getElem?_of_prefix {α : Type} {x : α} {xs t : List α} {i : ℕ} (h : x :: xs <+: t.drop i) :
    t[i]? = some x ∧ xs <+: t.drop (i + 1) := by
  have hsplit : [x] ++ xs <+: t.drop i := h
  refine ⟨?_, (prefix_drop hsplit).2⟩
  obtain ⟨rest, hrest⟩ := h
  have hget : (t.drop i)[0]? = some x := by rw [← hrest]; rfl
  rwa [List.getElem?_drop, add_zero] at hget

/-- **The second loop.** Behind the numbers it is given it takes exactly those of the table below. -/
theorem updateChilds_numbered {l : Ematches} (hw : WellBuilt l) (index : ℕ) :
    ∃ l' index', updateChilds l index = .ok (l', index') ∧ Numbered l l' index index' := by
  induction l generalizing index with
  | nil => exact ⟨.nil, index, rfl, rfl, rfl, rfl, fun _ _ _ _ _ => trivial⟩
  | cons e childs next ihc ihn =>
    obtain ⟨hkind, -, hnext⟩ := hw
    rcases hkind with ⟨hk, hne, hwc⟩ | ⟨hk, -, hnil⟩
    · have hcon : e.isContainer = true := decide_eq_true hk
      obtain ⟨childs', i1, hc, hnc⟩ := ihc hwc (index + childs.count)
      obtain ⟨next', i2, hn, hnn⟩ := ihn hnext i1
      have hcnt := hnc.count
      have hlast := hnc.last
      have hlast' := hnn.last
      have hdeep : (Ematches.cons { e with eData := .ref index } (assign index childs') next').deeper =
          ((assign index childs').level ++ childs'.deeper) ++ next'.deeper := by
        rw [deeper, deeper_assign]
        exact congrArg (· ++ next'.deeper) (if_pos hcon)
      have hlev : (assign index childs').level.length = childs.count := by
        rw [level_length, count_assign, hcnt]
      refine ⟨.cons { e with eData := .ref index } (assign index childs') next', i2, ?_, ?_, ?_, ?_, ?_⟩
      · rw [updateChilds, if_pos hcon, if_neg hne, hc]
        simp only [bind, Except.bind, hn]
        rfl
      · rw [content_cons, content_cons, content_assign, hnc.content, hnn.content]
        simp only [RtnlEmatch.content, RtnlEmatch.isContainer, hk, decide_true, if_true]
      · simp only [count, hnn.count]
      · rw [hdeep, List.length_append, List.length_append, hlev]
        omega
      · intro table pos k hlevel hbelow
        rw [hdeep] at hbelow
        obtain ⟨hinside, hbehind⟩ := prefix_drop hbelow
        obtain ⟨hl, hd⟩ := prefix_drop hinside
        rw [List.length_append, hlev, ← add_assoc, ← hlast] at hbehind
        rw [hlev] at hd
        obtain ⟨hget, hrest⟩ := getElem?_of_prefix hlevel
        exact ⟨hget, fun _ => hnc.placed table index index hl hd, hnn.placed table (pos + 1) (k + 1) hrest hbehind⟩
    · have hcon : e.isContainer = false := by
        rw [RtnlEmatch.isContainer, hk]
        decide
      obtain ⟨next', i1, hn, hnn⟩ := ihn hnext index
      have hdeep : (Ematches.cons e childs next').deeper = next'.deeper := by
        rw [deeper, hcon]
        rfl
      refine ⟨.cons e childs next', i1, ?_, ?_, ?_, ?_, ?_⟩
      · rw [updateChilds, hcon, if_neg Bool.false_ne_true, hn]
        rfl
      · rw [content_cons, content_cons, hnn.content]
      · simp only [count, hnn.count]
      · rw [hdeep, hnn.last]
      · intro table pos k hlevel hbelow
        rw [hdeep] at hbelow
        obtain ⟨hget, hrest⟩ := getElem?_of_prefix hlevel
        refine ⟨hget, ?_, hnn.placed table (pos + 1) (k + 1) hrest hbelow⟩
        intro h
        have hsame : ({ e with eIndex := UInt16.ofNat k } : RtnlEmatch).isContainer = e.isContainer := rfl
        rw [hsame, hcon] at h
        cases h

/-- **`update_container_index`** on a well-built sequence: the content stays, the number of matches comes out, and the table
has the sequence at its start. -/
theorem updated_placed {l : Ematches} (hw : WellBuilt l) :
    ∃ l', updateContainerIndex l 0 = .ok (l', l'.flat.length) ∧ l'.content = l.content ∧ Placed l'.flat 0 l' := by
  obtain ⟨l', i, hu, hn⟩ := updateChilds_numbered hw (0 + l.count)
  have hlast := hn.last
  have hcount := hn.count
  refine ⟨assign 0 l', ?_, ?_, ?_⟩
  · rw [updateContainerIndex, hu, flat, List.length_append, level_length, count_assign, deeper_assign, hcount]
    simp only [bind, Except.bind, hlast, zero_add]
    rfl
  · rw [content_assign, hn.content]
  · refine hn.placed _ 0 0 ?_ ?_
    · rw [List.drop_zero]
      exact List.prefix_append _ _
    · rw [flat, deeper_assign, zero_add, ← hcount, ← count_assign 0 l', ← level_length, List.drop_left]

/-- a table whose matches are changed alike has the changed sequence -/
theorem placed_map {f : RtnlEmatch → RtnlEmatch} (hcon : ∀ e, (f e).isContainer = e.isContainer)
    (href : ∀ e, e.isContainer = true → containerRef (f e) = containerRef e) {table : List RtnlEmatch} {pos : ℕ} {l : Ematches}
    (h : Placed table pos l) : Placed (table.map f) pos (l.map f) := by
  induction l generalizing pos with
  | nil => trivial
  | cons e childs next ihc ihn =>
    obtain ⟨hget, hchilds, hnext⟩ := h
    refine ⟨?_, ?_, ihn hnext⟩
    · rw [List.getElem?_map, hget]
      rfl
    · intro hc
      have hce : e.isContainer = true := (hcon e).symm.trans hc
      rw [href e hce]
      exact ihc (hchilds hce)

end Libnl.Ematch
