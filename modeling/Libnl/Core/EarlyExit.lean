/-
Straight-line code that may be left early.

Code that has no loops is a list of lines: some access something, others leave if something went wrong. What is accessed
are the lines before the one that leaves (`made`).

- `all_append`: a property of all accesses of two pieces of code: of the first, and of the second unless the first leaves.
- `all_between`: when only the piece in the middle can go wrong.
-/
import Mathlib.Tactic

namespace Libnl.EarlyExit

inductive Line (α : Type) where
  | access (a : α)
  | leave (b : Bool)

variable {α β : Type}

/-- the accesses that are made -/
def made : List (Line α) → List α
  | [] => []
  | .access a :: ls => a :: made ls
  | .leave b :: ls => if b then [] else made ls

/-- the code is left before its end -/
def left : List (Line α) → Bool
  | [] => false
  | .access _ :: ls => left ls
  | .leave b :: ls => b || left ls

/-- all accesses that are made have the property -/
def All (P : α → Prop) (ls : List (Line α)) : Prop := ∀ a ∈ made ls, P a

theorem left_append (ls ms : List (Line α)) : left (ls ++ ms) = (left ls || left ms) := by
  induction ls with
  | nil => rfl
  | cons l ls ih =>
    cases l with
    | access a => exact ih
    | leave b =>
      show (b || left (ls ++ ms)) = (b || left ls || left ms)
      rw [ih, Bool.or_assoc]

theorem made_append (ls ms : List (Line α)) : made (ls ++ ms) = made ls ++ if left ls then [] else made ms := by
  induction ls with
  | nil => rfl
  | cons l ls ih =>
    cases l with
    | access a =>
      show a :: made (ls ++ ms) = a :: (made ls ++ _)
      rw [ih]
      rfl
    | leave b =>
      cases b with
      | true => rfl
      | false => exact ih

theorem all_nil (P : α → Prop) : All P [] := fun _ ha => absurd ha List.not_mem_nil

/-- an access, and what comes behind -/
theorem all_access_cons {P : α → Prop} (a : α) (ls : List (Line α)) : All P (.access a :: ls) ↔ P a ∧ All P ls :=
  List.forall_mem_cons

/-- what comes behind a place where the code may be left -/
theorem all_leave_cons {P : α → Prop} (b : Bool) (ls : List (Line α)) : All P (.leave b :: ls) ↔ (b = false → All P ls) := by
  cases b with
  | true => exact iff_of_true (fun a ha => absurd ha List.not_mem_nil) fun h => absurd h.symm Bool.false_ne_true
  | false => exact ⟨fun h _ => h, fun h => h rfl⟩

theorem all_leave (P : α → Prop) (b : Bool) : All P [.leave b] := (all_leave_cons b []).2 fun _ => all_nil P

/-- **One piece of code after another** -/
theorem all_append {P : α → Prop} (ls ms : List (Line α)) :
    All P (ls ++ ms) ↔ All P ls ∧ (left ls = false → All P ms) := by
  unfold All
  rw [made_append]
  constructor
  · intro h
    refine ⟨fun a ha => h a (List.mem_append_left _ ha), fun hleft a ha => h a (List.mem_append_right _ ?_)⟩
    rw [hleft]
    exact ha
  · rintro ⟨hfirst, hsecond⟩ a ha
    rcases List.mem_append.1 ha with ha | ha
    · exact hfirst a ha
    · cases hleft : left ls with
      | true =>
        rw [hleft] at ha
        exact absurd ha List.not_mem_nil
      | false =>
        rw [hleft] at ha
        exact hsecond hleft a ha

theorem All.append {P : α → Prop} {ls ms : List (Line α)} (hls : All P ls) (hms : All P ms) : All P (ls ++ ms) :=
  (all_append ls ms).2 ⟨hls, fun _ => hms⟩

/-- the piece in the middle decides, if the others are fine -/
theorem all_between {P : α → Prop} {ls ms ns : List (Line α)} (hls : All P ls) (hns : All P ns) :
    All P (ls ++ (ms ++ ns)) ↔ (left ls = false → All P ms) := by
  rw [all_append, all_append]
  constructor
  · rintro ⟨-, h⟩ hleft
    exact (h hleft).1
  · intro h
    exact ⟨hls, fun hleft => ⟨h hleft, fun _ => hns⟩⟩

/-! ## Code under a condition -/

/-- lines for a value that may be missing -/
def ifSome (o : Option β) (f : β → List (Line α)) : List (Line α) := (o.map f).getD []

theorem all_ifSome {P : α → Prop} (o : Option β) (f : β → List (Line α)) : All P (ifSome o f) ↔ ∀ b ∈ o, All P (f b) := by
  cases o with
  | none => exact iff_of_true (all_nil P) fun b hb => absurd hb (Option.not_mem_none b)
  | some b =>
    constructor
    · intro h c hc
      rw [← Option.mem_some_iff.1 hc]
      exact h
    · intro h
      exact h b rfl

/-- lines that access and do not leave -/
def accesses (as : List α) : List (Line α) := as.map .access

theorem made_accesses (as : List α) : made (accesses as) = as := by
  induction as with
  | nil => rfl
  | cons a as ih => exact congrArg (a :: ·) ih

theorem left_accesses (as : List α) : left (accesses as) = false := by
  induction as with
  | nil => rfl
  | cons a as ih => exact ih

end Libnl.EarlyExit
