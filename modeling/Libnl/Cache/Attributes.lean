/-
Attributes of objects: which ones an object has, by its mask.

Parsers set a bit for each attribute that they find; builders put an attribute if its bit is set. The mask of a parsed
object is put together from what was there (`maskOf`), so a builder puts what was there.

- `has_of_mask`: the object has an attribute just if it was there.
- `ifHas_getD`: what a builder puts for a field that the parser set.
-/
import Mathlib.Tactic
import Libnl.Core.Mask
import Libnl.Cache.Object

namespace Libnl.Object

open Mask

section

variable {D : Type}

/-- the object has the attribute -/
def has (o : ObjVal D) (bit : BitVec 64) : Bool := decide (o.ceMask &&& bit ≠ 0)

/-- what is put under the condition that the object has the attribute -/
def ifHas {γ : Type} (o : ObjVal D) (bit : BitVec 64) (x : γ) : Option γ := if has o bit then some x else none

theorem has_of_mask {o : ObjVal D} {attrs : List (BitVec 64 × Bool)} (hmask : o.ceMask = maskOf attrs)
    (hsep : separate (attrs.map Prod.fst) = true) {bit : BitVec 64} {there : Bool} (h : (bit, there) ∈ attrs) :
    has o bit = there := by
  have hhas := maskOf_has hsep h
  rw [Bool.eq_iff_iff, has, hmask, decide_eq_true_eq]
  exact hhas

/-- **A field that was set from `x`**, with `d` where nothing was there -/
theorem ifHas_getD {γ ε : Type} {o : ObjVal D} {bit : BitVec 64} {x : Option γ} (h : has o bit = x.isSome) (d : γ)
    (enc : γ → ε) : ifHas o bit (enc (x.getD d)) = x.map enc := by
  rw [ifHas, h]
  cases x with
  | none => rfl
  | some v => rfl

end

end Libnl.Object
