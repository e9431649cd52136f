/-
Caches of types without a hash table and without updates.

Objects of such a type come and go whole. What a cache holds is then what a follower holds that finds objects by
`nl_object_identical` (`contents_follow`), whatever that relation is. Types without id attributes of their own have one that
need not be an equivalence: two objects are identical when they agree in those compared attributes that both carry.

- `identical_iff_agree`: identity of such types.
- `contents_follow`: notifications that are included one after the other.
-/
import Mathlib.Tactic
import Libnl.Core.Mask
import Libnl.Core.Track
import Libnl.Cache.Contents

namespace Libnl.Cache

open Object KeyedList Track

variable {α : Type}

/-! ## Identity without id attributes -/

/-- compared attributes, each with when two objects differ in it -/
abbrev Compared (α : Type) := List (BitVec 64 × (α → α → Bool))

/-- the objects agree in the attributes that both carry -/
def Agree (cs : Compared α) (a b : ObjVal α) : Prop :=
  ∀ c ∈ cs, a.ceMask &&& b.ceMask &&& c.1 ≠ 0 → c.2 a.data b.data = false

instance (cs : Compared α) (a b : ObjVal α) : Decidable (Agree cs a b) :=
  inferInstanceAs (Decidable (∀ c ∈ cs, _))

/-- each attribute is one bit of the lower half -/
def lowBits (cs : List (BitVec 64)) : Bool := cs.all fun c => (List.range 32).any fun i => decide (c = BitVec.twoPow 64 i)

theorem lowBits_mem {cs : List (BitVec 64)} (h : lowBits cs = true) {c : BitVec 64} (hc : c ∈ cs) :
    ∃ i < 32, c = BitVec.twoPow 64 i := by
  simpa [lowBits] using List.all_eq_true.1 h c hc

/-- asked for what both objects carry -/
theorem attrDiff_both {i : ℕ} (hi : i < 32) (a b : ObjVal α) (differ : Bool) :
    attrDiff (((a.ceMask &&& b.ceMask).setWidth 32).setWidth 64) (BitVec.twoPow 64 i) a b differ = 0 ↔
      (a.ceMask &&& b.ceMask &&& BitVec.twoPow 64 i ≠ 0 → differ = false) := by
  have hbit : ∀ x : BitVec 64, x &&& BitVec.twoPow 64 i ≠ 0 ↔ x.getLsbD i = true := by
    intro x
    rw [ne_eq, Mask.and_twoPow_eq_zero_iff (by omega), Bool.not_eq_false]
  unfold attrDiff
  simp only [hbit, BitVec.getLsbD_setWidth, BitVec.getLsbD_and, BitVec.getLsbD_xor]
  have hi64 : i < 64 := by omega
  have hne : BitVec.twoPow 64 i ≠ 0#64 := Mask.twoPow_ne_zero hi64
  simp only [hi, hi64, decide_true, Bool.true_and]
  cases a.ceMask.getLsbD i <;> cases b.ceMask.getLsbD i <;> cases differ <;> simp [hne]

section

variable {ops : ℕ → ObjectOps α} {cs : Compared α}

/-- the type has no id attributes, and compares these -/
structure ComparesAll (ops : ℕ → ObjectOps α) (t : ℕ) (cs : Compared α) : Prop where
  noGet : (ops t).ooIdAttrsGet = none
  all : (ops t).ooIdAttrs = 0 ∨ (ops t).ooIdAttrs = BitVec.allOnes 32
  compare : ∃ cmp, (ops t).ooCompare = some cmp ∧ ∀ a b attrs,
    cmp a b attrs ID_COMPARISON = 0 ↔ ∀ c ∈ cs, attrDiff attrs c.1 a b (c.2 a.data b.data) = 0
  low : lowBits (cs.map Prod.fst) = true

/-- **Identity** of objects without id attributes -/
theorem identical_iff_agree {t : ℕ} (h : ComparesAll ops t cs) {a b : ObjVal α} (ha : a.ceOps = t) (hb : b.ceOps = t) :
    nlObjectIdentical ops a b = true ↔ Agree cs a b := by
  obtain ⟨cmp, hcmp, hzero⟩ := h.compare
  have hreq : reqAttrs ops a b = (a.ceMask &&& b.ceMask).setWidth 32 := by
    unfold reqAttrs
    simp only [ha, h.noGet]
    rcases h.all with hall | hall
    · simp [hall]
    · simp [hall]
  have hcarry : ∀ x y : BitVec 64, (x &&& ((x &&& y).setWidth 32).setWidth 64) = ((x &&& y).setWidth 32).setWidth 64 := by
    intro x y
    refine BitVec.eq_of_getLsbD_eq fun i hi => ?_
    simp only [BitVec.getLsbD_and, BitVec.getLsbD_setWidth]
    cases x.getLsbD i <;> simp
  have hcarrya : carries a (reqAttrs ops a b) = true := by
    rw [hreq]
    exact decide_eq_true (hcarry _ _)
  have hcarryb : carries b (reqAttrs ops a b) = true := by
    rw [hreq, BitVec.and_comm]
    exact decide_eq_true (hcarry _ _)
  have hsame : sameIdAttrs ops a b = true := by
    unfold sameIdAttrs
    rw [ha, h.noGet]
  unfold nlObjectIdentical
  rw [hcarrya, hcarryb, hsame, ha, hb, hcmp]
  simp only [decide_true, Bool.and_self, Bool.true_and, decide_eq_true_eq]
  rw [hzero, hreq]
  refine forall₂_congr fun c hc => ?_
  obtain ⟨i, hi, hbit⟩ := lowBits_mem h.low (List.mem_map_of_mem hc)
  rw [hbit]
  exact attrDiff_both hi a b _

theorem Agree.symm (hcs : ∀ c ∈ cs, ∀ x y, c.2 x y = c.2 y x) {a b : ObjVal α} (h : Agree cs a b) : Agree cs b a := by
  intro c hc hboth
  rw [hcs c hc]
  exact h c hc (by rwa [BitVec.and_comm a.ceMask])

end

/-! ## A cache as a follower -/

/-- an empty cache of a type without a hash table -/
def emptyStore (cops : CacheOps) (v : ObjVal α) : Store α where
  heap _ := ⟨0, none, false, false, v⟩
  caches _ := ⟨[], 0, none, cops⟩
  next := 0
  log := []
  bug := false

theorem emptyStore_inv (ops : ℕ → ObjectOps α) (cops : CacheOps) (v : ObjVal α) :
    Inv ops (fun _ => True) (emptyStore cops v) fun _ => 0 := by
  have hinit : Initial (emptyStore cops v) :=
    ⟨fun _ => ⟨rfl, rfl⟩, fun _ => ⟨rfl, rfl⟩, fun _ _ hht _ => (nomatch hht), rfl⟩
  exact hinit.inv fun _ _ hht => nomatch hht

/-- the message says that the object is there -/
def announces (cops : CacheOps) (v : ObjVal α) : Bool := decide (actOf cops v = .new)

section

variable {ops : ℕ → ObjectOps α} (hupd : ∀ t, (ops t).ooUpdate = none)
include hupd

/-- **`cache_include`** without updates, of messages that say whether the object is there -/
theorem include_advance {keeps : ObjVal α → Bool} {act : Act} {v : ObjVal α} (hact : act = if keeps v then .new else .del)
    (es : List (Entry α)) : (includeEntries ops act es v).map Entry.val =
      advance keeps (nlObjectIdentical ops) (es.map Entry.val) v := by
  have herase : ((es.map Entry.val).eraseP fun x => nlObjectIdentical ops x v) =
      (drop Entry.val (nlObjectIdentical ops) es v).map Entry.val := List.eraseP_map ..
  unfold includeEntries advance
  rw [herase, hact]
  cases hlook : entryOf ops es v with
  | none =>
    rw [drop_of_look_none hlook]
    cases keeps v with
    | true => simp
    | false => simp
  | some old =>
    simp only [nlObjectUpdate_none (hupd _) rfl]
    cases keeps v with
    | true => simp [put]
    | false => simp

omit hupd in
theorem Known.act {cops : CacheOps} {v : ObjVal α} (h : Known cops v) :
    actOf cops v = if announces cops v then .new else .del := by
  unfold announces
  rcases h with hnew | hdel
  · rw [hnew]
    rfl
  · rw [hdel]
    rfl

theorem includeAll_follow {cops : CacheOps} {vs : List (ObjVal α)} (hvs : ∀ v ∈ vs, Known cops v) :
    (includeAll ops cops [] vs).map Entry.val = Track.follow (announces cops) (nlObjectIdentical ops) vs := by
  induction vs using List.reverseRecOn with
  | nil => rfl
  | append_singleton vs v ih =>
    have hstep : includeAll ops cops [] (vs ++ [v]) =
        includeEntries ops (actOf cops v) (includeAll ops cops [] vs) v := by
      unfold includeAll
      rw [List.foldl_append]
      rfl
    rw [hstep, follow_snoc, ← ih fun x hx => hvs x (List.mem_append_left _ hx)]
    exact include_advance hupd (hvs v (by simp)).act _

/-- **What the cache holds** after notifications -/
theorem contents_follow {cops : CacheOps} (v0 : ObjVal α) {vs : List (ObjVal α)}
    (hvs : ∀ v ∈ vs, v.ceOps = cops.coObjOps ∧ Known cops v) (cb : ChangeCb) :
    (contents (notifyAll ops (emptyStore cops v0) 0 cb vs) 0).map Entry.val =
      Track.follow (announces cops) (nlObjectIdentical ops) vs := by
  have hreg : ∀ v ∈ vs, Regular ops (fun _ => True) ((emptyStore cops v0).caches 0) v ∧
      Known ((emptyStore cops v0).caches 0).cOps v := fun v hv =>
    ⟨⟨(hvs v hv).1, fun hht => (nomatch hht), fun _ => trivial⟩, (hvs v hv).2⟩
  obtain ⟨hb, -⟩ := (emptyStore_inv ops cops v0).notifiedAll (c := 0) vs hreg cb
  rw [hb.contents]
  exact includeAll_follow hupd fun v hv => (hvs v hv).2

end

end Libnl.Cache
