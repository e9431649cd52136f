/-
Readers of a table of attributes: what they access, and what guards it.

The getters for integers and strings do not look at the length of the attribute, and structures are read in place. So each
access relies on the policy under which the table was filled.

- `guarded_of_conforms`: an entry of the policy guards the accesses it is long enough for.
- `all_reads_guarded`: a reader whose accesses all have such an entry.
-/
import Mathlib.Tactic
import Libnl.Core.EarlyExit
import Libnl.Message.Validate

namespace Libnl.Accesses

open Bytes Attr Validate EarlyExit

/-- an access to a payload: an integer or a structure of so many bytes, or a string -/
inductive Want where
  | int (width : ℕ)
  | str
deriving DecidableEq

structure Access where
  want : Want
  nla : ℕ
deriving DecidableEq

/-- the entry of the policy is enough for the access -/
def guards (pt : NlaPolicy) : Want → Bool
  | .int width => decide (width ≤ policyMinlen pt)
  | .str => decide (pt.type = .string)

/-- a reader that takes these in turn, each `if (tb[type])` -/
def reads (tb : Index) (ws : List (Want × ℕ)) : List (Line Access) :=
  accesses (ws.flatMap fun w => (tb w.2).toList.map (Access.mk w.1))

theorem left_reads (tb : Index) (ws : List (Want × ℕ)) : left (reads tb ws) = false := left_accesses _

theorem all_reads {P : Access → Prop} {tb : Index} {ws : List (Want × ℕ)} :
    All P (reads tb ws) ↔ ∀ w ∈ ws, ∀ nla, tb w.2 = some nla → P ⟨w.1, nla⟩ := by
  unfold All reads
  rw [made_accesses]
  constructor
  · intro h w hw nla hnla
    refine h _ (List.mem_flatMap.2 ⟨w, hw, List.mem_map.2 ⟨nla, ?_, rfl⟩⟩)
    rw [hnla]
    exact List.mem_singleton_self nla
  · intro h a ha
    obtain ⟨w, hw, ha⟩ := List.mem_flatMap.1 ha
    obtain ⟨nla, hnla, rfl⟩ := List.mem_map.1 ha
    exact h w hw nla (Option.mem_toList.1 hnla)

/-- a reader of one attribute -/
theorem all_reads_one {P : Access → Prop} {tb : Index} {w : Want × ℕ} :
    All P (reads tb [w]) ↔ ∀ nla, tb w.2 = some nla → P ⟨w.1, nla⟩ := by
  rw [all_reads, List.forall_mem_singleton]

section

variable [HostOrder] {buf : Mem}

/-- the payload is long enough for the value, or ends the string -/
def Guarded (buf : Mem) (a : Access) : Prop :=
  match a.want with
  | .int width => (width : ℤ) ≤ nlaLen buf a.nla
  | .str => ∃ i : ℕ, (i : ℤ) < nlaLen buf a.nla ∧ buf (nlaData a.nla + i) = 0

theorem guarded_of_conforms {nla : ℕ} {pt : NlaPolicy} (h : Conforms buf nla pt) {w : Want}
    (hw : guards pt w = true) : Guarded buf ⟨w, nla⟩ := by
  cases w with
  | int width =>
    have hle : width ≤ policyMinlen pt := of_decide_eq_true hw
    exact (Nat.cast_le.2 hle).trans h.min
  | str =>
    obtain ⟨hpos, hnul⟩ := h.nul (of_decide_eq_true hw)
    have hlast : (((nlaLen buf nla).toNat - 1 : ℕ) : ℤ) < nlaLen buf nla := by omega
    refine ⟨(nlaLen buf nla).toNat - 1, hlast, ?_⟩
    rw [← hnul, Nat.add_sub_assoc (by omega)]

/-- **A reader that its policy covers** -/
theorem all_reads_guarded {tb : Index} {policy : ℕ → NlaPolicy} {ws : List (Want × ℕ)}
    (hconf : ∀ w ∈ ws, ∀ nla, tb w.2 = some nla → Conforms buf nla (policy w.2))
    (hws : (ws.all fun w => guards (policy w.2) w.1) = true) : All (Guarded buf) (reads tb ws) :=
  all_reads.2 fun w hw nla hnla => guarded_of_conforms (hconf w hw nla hnla) (List.all_eq_true.1 hws w hw)

end

end Libnl.Accesses
