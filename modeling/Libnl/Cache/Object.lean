/-
Objects and their operations (`lib/object.c`, `netlink-private/object-api.h`).

The generic part of the library knows an object by its type, its message type, the mask of the attributes it carries, and
operations it calls without knowing what they do. `ObjVal α` is what an object says, apart from how it is kept (reference
counter, cache, list): those are in `Cache.Store`. The operations of a type are an `ObjectOps`; a table gives the
operations of every type, and objects name their type by its index there, as they hold a pointer in the source.

`nl_object_identical` is what makes two objects the same entry of a cache. What the generic code needs of it, and of the
operations that touch a cached object, is collected in `Lawful`, `LawfulEquiv` and `KeepsIdentity`.
-/
import Mathlib.Tactic
import Libnl.Message.Msg

namespace Libnl.Object

open Msg

/-! ## Values and operations -/

structure ObjVal (α : Type) where
  ceOps : ℕ
  ceMsgtype : ℤ
  ceMask : BitVec 64
  /-- everything behind the common header -/
  data : α
deriving DecidableEq

def LOOSE_COMPARISON : ℕ := 1
def ID_COMPARISON : ℕ := 2

/-- `struct nl_object_ops`; an operation a type does not have is `none` -/
structure ObjectOps (α : Type) where
  ooIdAttrs : BitVec 32
  ooIdAttrsGet : Option (ObjVal α → BitVec 32)
  /-- the attributes, out of those asked for, in which two objects differ -/
  ooCompare : Option (ObjVal α → ObjVal α → BitVec 64 → ℕ → BitVec 64)
  /-- the first object as it is after the update; `none` when it fails, and the object is not touched -/
  ooUpdate : Option (ObjVal α → ObjVal α → Option (ObjVal α))
  /-- hash key for a table of the given size -/
  ooKeygen : Option (ObjVal α → ℕ → ℕ)
  /-- what the copy of an object says after `oo_clone` -/
  ooClone : Option (ObjVal α → ObjVal α)

/-- `ATTR_DIFF`: the attribute's bit if it is asked for, and only one object carries it or both do and differ in it -/
def attrDiff {α : Type} (attrs attr : BitVec 64) (a b : ObjVal α) (differ : Bool) : BitVec 64 :=
  if attrs &&& attr ≠ 0 ∧ ((a.ceMask ^^^ b.ceMask) &&& attr ≠ 0 ∨ (a.ceMask &&& b.ceMask &&& attr ≠ 0 ∧ differ = true))
  then attr else 0

/-- an attribute that is not asked for -/
theorem attrDiff_of_not_asked {α : Type} {attrs attr : BitVec 64} (h : attrs &&& attr = 0) (a b : ObjVal α)
    (differ : Bool) : attrDiff attrs attr a b differ = 0 := by
  unfold attrDiff
  simp [h]

/-- one attribute, when all are asked for -/
theorem attrDiff_all_eq_zero_iff {α : Type} {attr : BitVec 64} (hne : attr ≠ 0) (a b : ObjVal α) (differ : Bool) :
    attrDiff (BitVec.allOnes 64) attr a b differ = 0 ↔
      (a.ceMask ^^^ b.ceMask) &&& attr = 0 ∧ (a.ceMask &&& b.ceMask &&& attr = 0 ∨ differ = false) := by
  rw [attrDiff]
  split_ifs with h
  · refine iff_of_false hne ?_
    rintro ⟨hxor, hand | hdiffer⟩
    · exact h.2.elim (fun hx => hx hxor) fun hx => hx.1 hand
    · rw [hdiffer] at h
      exact h.2.elim (fun hx => hx hxor) fun hx => Bool.false_ne_true hx.2
  · refine iff_of_true rfl ?_
    rw [BitVec.allOnes_and, not_and_or, not_or, not_and_or, not_not, not_not, not_not, Bool.not_eq_true] at h
    exact h.resolve_left hne

/-- an attribute that is asked for and that both objects carry -/
theorem attrDiff_eq_zero_iff {α : Type} {attrs attr : BitVec 64} {a b : ObjVal α} (hask : attrs &&& attr = attr)
    (hne : attr ≠ 0) (ha : a.ceMask &&& attr = attr) (hb : b.ceMask &&& attr = attr) (differ : Bool) :
    attrDiff attrs attr a b differ = 0 ↔ differ = false := by
  have hxor : (a.ceMask ^^^ b.ceMask) &&& attr = 0 := by
    refine BitVec.eq_of_getLsbD_eq fun i hi => ?_
    have ha' := congrArg (fun x => x.getLsbD i) ha
    have hb' := congrArg (fun x => x.getLsbD i) hb
    simp only [BitVec.getLsbD_and, BitVec.getLsbD_xor] at ha' hb' ⊢
    cases hattr : attr.getLsbD i with
    | true => simp_all
    | false => simp
  have hand : a.ceMask &&& b.ceMask &&& attr = attr := by rw [BitVec.and_assoc, hb, ha]
  unfold attrDiff
  rw [hask, hxor, hand]
  cases differ with
  | true => simpa [hne] using hne
  | false => simp

variable {α : Type} (ops : ℕ → ObjectOps α)

/-- the attributes `nl_object_identical` compares, if it does not give up before -/
def reqAttrs (a b : ObjVal α) : BitVec 32 :=
  let o := ops a.ceOps
  let req := match o.ooIdAttrsGet with
    | some get => get a
    | none => if o.ooIdAttrs ≠ 0 then o.ooIdAttrs else BitVec.allOnes 32
  if req = BitVec.allOnes 32 then (a.ceMask &&& b.ceMask).setWidth 32 else req

/-- the type gives both objects the same id attributes -/
def sameIdAttrs (a b : ObjVal α) : Bool :=
  match (ops a.ceOps).ooIdAttrsGet with
  | some get => decide (get a = get b)
  | none => true

/-- the object carries all the attributes in `req` -/
def carries (a : ObjVal α) (req : BitVec 32) : Bool :=
  decide (a.ceMask &&& req.setWidth 64 = req.setWidth 64)

/-- an object that carries all of `req` carries each attribute in it -/
theorem carries_attr {a : ObjVal α} {req : BitVec 32} (h : carries a req = true) {attr : BitVec 64}
    (hreq : req.setWidth 64 &&& attr = attr) : a.ceMask &&& attr = attr := by
  have hc := of_decide_eq_true h
  rw [← hreq, ← BitVec.and_assoc, hc]

def nlObjectIdentical (a b : ObjVal α) : Bool :=
  decide (a.ceOps = b.ceOps) && sameIdAttrs ops a b &&
    carries a (reqAttrs ops a b) && carries b (reqAttrs ops a b) &&
    match (ops a.ceOps).ooCompare with
    | some cmp => decide (cmp a b ((reqAttrs ops a b).setWidth 64) ID_COMPARISON = 0)
    | none => false

def nlObjectDiff64 (a b : ObjVal α) : BitVec 64 :=
  if a.ceOps ≠ b.ceOps then BitVec.allOnes 64
  else match (ops a.ceOps).ooCompare with
    | some cmp => cmp a b (BitVec.allOnes 64) 0
    | none => BitVec.allOnes 64

/-- `nl_object_diff`: bit 31 stands for a difference in the upper half -/
def nlObjectDiff (a b : ObjVal α) : BitVec 32 :=
  let diff := nlObjectDiff64 ops a b
  if diff &&& ~~~(0xFFFFFFFF#64) ≠ 0 then diff.setWidth 32 ||| 0x80000000#32 else diff.setWidth 32

def nlObjectMatchFilter (obj filter : ObjVal α) : Bool :=
  decide (obj.ceOps = filter.ceOps) &&
    match (ops obj.ceOps).ooCompare with
    | some cmp => decide (cmp obj filter filter.ceMask LOOSE_COMPARISON = 0)
    | none => false

def nlObjectKeygen (a : ObjVal α) (size : ℕ) : ℕ :=
  match (ops a.ceOps).ooKeygen with
  | some key => key a size
  | none => 0

def nlObjectGetIdAttrs (a : ObjVal α) : BitVec 32 :=
  match (ops a.ceOps).ooIdAttrsGet with
  | some get => get a
  | none => (ops a.ceOps).ooIdAttrs

/-- `nl_object_update`; `none` also for a type without the operation -/
def nlObjectUpdate (dst src : ObjVal α) : Option (ObjVal α) :=
  match (ops dst.ceOps).ooUpdate with
  | some update => (update dst src).map fun v => { v with ceOps := dst.ceOps }
  | none => none

theorem nlObjectUpdate_ceOps {dst src v : ObjVal α} (h : nlObjectUpdate ops dst src = some v) :
    v.ceOps = dst.ceOps := by
  unfold nlObjectUpdate at h
  cases hu : (ops dst.ceOps).ooUpdate with
  | none =>
    rw [hu] at h
    cases h
  | some update =>
    rw [hu] at h
    obtain ⟨v', -, rfl⟩ := Option.map_eq_some_iff.1 h
    rfl

/-- what a clone says; it is of the same type -/
def cloneVal (a : ObjVal α) : ObjVal α :=
  match (ops a.ceOps).ooClone with
  | some clone => { clone a with ceOps := a.ceOps }
  | none => a

@[simp] theorem cloneVal_ceOps (a : ObjVal α) : (cloneVal ops a).ceOps = a.ceOps := by
  unfold cloneVal
  cases (ops a.ceOps).ooClone with
  | none => rfl
  | some clone => rfl

/-- the 32-bit difference is zero exactly when the 64-bit one is -/
theorem diff_eq_zero_iff (a b : ObjVal α) : nlObjectDiff ops a b = 0 ↔ nlObjectDiff64 ops a b = 0 := by
  unfold nlObjectDiff
  generalize nlObjectDiff64 ops a b = d
  have hor : d.setWidth 32 ||| 0x80000000#32 ≠ 0#32 := by
    intro h
    have h31 := congrArg (fun x => x.getLsbD 31) h
    simp at h31
  have hmask : ∀ i : Fin 64, 32 ≤ i.val → (~~~(0xFFFFFFFF#64)).getLsbD i = true := by decide
  dsimp only
  split_ifs with h
  · refine ⟨fun h2 => absurd h2 hor, fun h2 => ?_⟩
    rw [h2] at h
    exact absurd rfl h
  · rw [not_not] at h
    refine ⟨fun hlow => BitVec.eq_of_getLsbD_eq fun i hi => ?_, fun h2 => by rw [h2]; rfl⟩
    by_cases hlt : i < 32
    · have h2 := congrArg (fun x => x.getLsbD i) hlow
      simpa [hlt] using h2
    · have h1 := congrArg (fun x => x.getLsbD i) h
      simp only [BitVec.getLsbD_and, hmask ⟨i, hi⟩ (Nat.not_lt.1 hlt), Bool.and_true] at h1
      exact h1

/-! ## What the generic code relies on -/

/-- the object carries all its id attributes -/
def CarriesId (a : ObjVal α) : Prop := carries a (reqAttrs ops a a) = true

section

variable (good : ObjVal α → Prop)

/-- on the objects of type `t` in a class, identity is reflexive and symmetric, and the hash key respects it -/
structure Lawful (t : ℕ) : Prop where
  refl : ∀ a, a.ceOps = t → good a → nlObjectIdentical ops a a = true
  symm : ∀ a b, a.ceOps = t → good a → good b → nlObjectIdentical ops a b = true → nlObjectIdentical ops b a = true
  keygen : ∀ a b size, a.ceOps = t → good a → good b → nlObjectIdentical ops a b = true →
    nlObjectKeygen ops a size = nlObjectKeygen ops b size

/-- on the objects of type `t` in a class, identity is an equivalence, and the hash key respects it -/
structure LawfulEquiv (t : ℕ) : Prop extends Lawful ops good t where
  trans : ∀ a b c, a.ceOps = t → good a → good b → good c → nlObjectIdentical ops a b = true →
    nlObjectIdentical ops b c = true → nlObjectIdentical ops a c = true

/-- nothing can tell the two objects apart by their identity -/
structure SameIdentity (v v' : ObjVal α) : Prop where
  good : good v → good v'
  left : ∀ x, nlObjectIdentical ops v x = nlObjectIdentical ops v' x
  right : ∀ x, nlObjectIdentical ops x v = nlObjectIdentical ops x v'
  keygen : ∀ size, nlObjectKeygen ops v size = nlObjectKeygen ops v' size

/-- an object of type `t` keeps its identity when it is updated -/
def UpdateKeeps (t : ℕ) : Prop :=
  ∀ a b a', a.ceOps = t → good a → good b → nlObjectUpdate ops a b = some a' → SameIdentity ops good a a'

/-- the operations that change or copy an object of type `t` keep its identity -/
structure KeepsIdentity (t : ℕ) : Prop where
  update : UpdateKeeps ops good t
  clone : ∀ a, a.ceOps = t → good a → good (cloneVal ops a)

end

variable {ops} {good : ObjVal α → Prop}

theorem SameIdentity.refl (v : ObjVal α) : SameIdentity ops good v v := ⟨id, fun _ => rfl, fun _ => rfl, fun _ => rfl⟩

theorem nlObjectUpdate_none {t : ℕ} (h : (ops t).ooUpdate = none) {a : ObjVal α} (ha : a.ceOps = t) (b : ObjVal α) :
    nlObjectUpdate ops a b = none := by
  unfold nlObjectUpdate
  rw [ha, h]

/-- a type without updates -/
theorem updateKeeps_of_none {t : ℕ} (h : (ops t).ooUpdate = none) : UpdateKeeps ops good t := by
  intro a b a' ha _ _ hu
  rw [nlObjectUpdate_none h ha] at hu
  cases hu

theorem identical_ops {a b : ObjVal α} (h : nlObjectIdentical ops a b = true) : a.ceOps = b.ceOps := by
  simp only [nlObjectIdentical, Bool.and_eq_true, decide_eq_true_eq] at h
  exact h.1.1.1.1

section

variable {t : ℕ} (hl : LawfulEquiv ops good t) {a b : ObjVal α}

include hl

/-- two objects that are identical to a third are identical -/
theorem LawfulEquiv.euclid {n : ObjVal α} (ht : a.ceOps = t) (hga : good a) (hgb : good b) (hgn : good n)
    (ha : nlObjectIdentical ops a n = true) (hb : nlObjectIdentical ops b n = true) :
    nlObjectIdentical ops a b = true := by
  have htb : b.ceOps = t := by rw [identical_ops hb, ← identical_ops ha, ht]
  exact hl.trans a n b ht hga hgn hgb ha (hl.symm b n htb hgb hgn hb)

theorem LawfulEquiv.congr_right (ht : a.ceOps = t) (hga : good a) (hgb : good b)
    (hab : nlObjectIdentical ops a b = true) (c : ObjVal α) (hgc : good c) :
    nlObjectIdentical ops c a = nlObjectIdentical ops c b := by
  have htb : b.ceOps = t := by rw [← identical_ops hab, ht]
  have hba := hl.symm a b ht hga hgb hab
  rw [Bool.eq_iff_iff]
  constructor
  · intro hc
    exact hl.trans c a b ((identical_ops hc).trans ht) hgc hga hgb hc hab
  · intro hc
    exact hl.trans c b a ((identical_ops hc).trans htb) hgc hgb hga hc hba

end

/-! ## A small object type -/

/-- objects with an id attribute (bit 0) and one more attribute (bit 1), which `differ` compares -/
def twoAttrOps (differ : ℕ → ℕ → Bool) (_ : ℕ) : ObjectOps (ℕ × ℕ) where
  ooIdAttrs := 1
  ooIdAttrsGet := none
  ooCompare := some fun a b attrs _ =>
    (if attrs.getLsbD 0 ∧ a.data.1 ≠ b.data.1 then 1 else 0) |||
      (if attrs.getLsbD 1 ∧ differ a.data.2 b.data.2 then 2 else 0)
  ooUpdate := none
  ooKeygen := some fun a size => a.data.1 % size
  ooClone := none

/-- the type to run the definitions on -/
abbrev sampleOps : ℕ → ObjectOps (ℕ × ℕ) := twoAttrOps fun a b => decide (a ≠ b)

/-- a new-object message of the small type, with both attributes -/
def sampleVal (key value : ℕ) : ObjVal (ℕ × ℕ) := ⟨0, 1, 3, (key, value)⟩

section

variable (differ : ℕ → ℕ → Bool)

theorem twoAttr_identical_iff (a b : ObjVal (ℕ × ℕ)) : nlObjectIdentical (twoAttrOps differ) a b = true ↔
    a.ceOps = b.ceOps ∧ carries a 1 = true ∧ carries b 1 = true ∧ a.data.1 = b.data.1 := by
  have hreq : reqAttrs (twoAttrOps differ) a b = 1 := by
    unfold reqAttrs twoAttrOps
    simp
  have hops : sameIdAttrs (twoAttrOps differ) a b = true := rfl
  simp only [nlObjectIdentical, hreq, hops, Bool.and_eq_true, decide_eq_true_eq, and_true, and_assoc]
  refine and_congr_right fun _ => and_congr_right fun _ => and_congr_right fun _ => ?_
  simp only [twoAttrOps, decide_eq_true_eq]
  by_cases hkey : a.data.1 = b.data.1
  · simp [hkey]
  · simp [hkey]

theorem twoAttr_lawful (t : ℕ) : LawfulEquiv (twoAttrOps differ) (CarriesId (twoAttrOps differ)) t where
  refl a _ hc := by
    have hc1 : carries a 1 = true := by simpa [CarriesId, reqAttrs, twoAttrOps] using hc
    exact (twoAttr_identical_iff differ a a).2 ⟨rfl, hc1, hc1, rfl⟩
  symm a b _ _ _ h := by
    rw [twoAttr_identical_iff] at h ⊢
    exact ⟨h.1.symm, h.2.2.1, h.2.1, h.2.2.2.symm⟩
  keygen a b size _ _ _ h := by
    rw [twoAttr_identical_iff] at h
    simp [nlObjectKeygen, twoAttrOps, h.2.2.2]
  trans a b c _ _ _ _ hab hbc := by
    rw [twoAttr_identical_iff] at hab hbc ⊢
    exact ⟨hab.1.trans hbc.1, hab.2.1, hbc.2.2.1, hab.2.2.2.trans hbc.2.2.2⟩

theorem twoAttr_keeps (t : ℕ) : KeepsIdentity (twoAttrOps differ) (CarriesId (twoAttrOps differ)) t where
  update a b a' _ _ _ h := by cases h
  clone a _ h := h

end

end Libnl.Object
