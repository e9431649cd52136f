/-
Internet addresses as text, as `inet_ntop` prints them and `inet_pton` reads them.

An address of four bytes is printed in decimal with dots. One of sixteen bytes is printed as eight groups in hexadecimal
with colons; the longest run of two or more groups of zeros, the first of them if there are several, is left out, and an
address with an old one at its end is printed with that one in decimal.

The reader takes up to four digits for a group, and one `::` for all the groups that are missing.

- `inetNtop4_plain`, `inetNtop6_plain`: no character of either text is a terminator.
- `pton4Loop_none`: what is neither a digit nor a dot is in no address of four bytes.
- `pton6Loop_pair`, `pton6Loop_last`: a group of two digits.
-/
import Mathlib.Tactic
import Libnl.Core.CString
import Libnl.Core.Numeral

namespace Libnl.Inet

open Bytes CString Numeral

/-! ## Printing -/

/-- four bytes, from `p` on -/
def inetNtop4 (b : Mem) (p : ℕ) : List Char :=
  Nat.toDigits 10 (b p).toNat ++ '.' :: (Nat.toDigits 10 (b (p + 1)).toNat ++ '.' ::
    (Nat.toDigits 10 (b (p + 2)).toNat ++ '.' :: Nat.toDigits 10 (b (p + 3)).toNat))

/-- a run of groups of zeros -/
structure Run where
  base : ℕ
  len : ℕ
deriving DecidableEq

/-- the longer of two runs, and the first if they are as long -/
def longer (best : Option Run) (cur : Run) : Option Run :=
  match best with
  | none => some cur
  | some r => if r.len < cur.len then some cur else some r

/-- loop body of the search for the longest run -/
def runStep (words : ℕ → ℕ) (s : Option Run × Option Run) (i : ℕ) : Option Run × Option Run :=
  if words i = 0 then (some (match s.1 with | none => ⟨i, 1⟩ | some r => ⟨r.base, r.len + 1⟩), s.2)
  else (none, match s.1 with | none => s.2 | some r => longer s.2 r)

/-- the run that is left out -/
def bestRun (words : ℕ → ℕ) : Option Run :=
  let s := (List.range 8).foldl (runStep words) (none, none)
  (match s.1 with | none => s.2 | some r => longer s.2 r).filter fun r => decide (2 ≤ r.len)

/-- the groups from `i` on -/
def groups (b : Mem) (words : ℕ → ℕ) (best : Option Run) : List ℕ → List Char
  | [] => []
  | i :: is =>
    if best.any fun r => decide (r.base ≤ i ∧ i < r.base + r.len) then
      if best.any fun r => decide (i = r.base) then ':' :: groups b words best is else groups b words best is
    else
      (if i ≠ 0 then [':'] else []) ++
        if i = 6 ∧ best.any (fun r => decide (r.base = 0 ∧ (r.len = 6 ∨ r.len = 5 ∧ words 5 = 0xffff))) then inetNtop4 b 12
        else Nat.toDigits 16 (words i) ++ groups b words best is

/-- sixteen bytes -/
def inetNtop6 (b : Mem) : List Char :=
  let words i := (b (2 * i)).toNat * 256 + (b (2 * i + 1)).toNat
  let best := bestRun words
  groups b words best (List.range 8) ++ if best.any fun r => decide (r.base + r.len = 8) then [':'] else []

/-! ## Text without a terminator -/

/-- no character is a terminator -/
def Plain (s : List Char) : Prop := ∀ c ∈ s, c.toNat % 256 ≠ 0

theorem plain_append {s t : List Char} (hs : Plain s) (ht : Plain t) : Plain (s ++ t) := by
  intro c hc
  rcases List.mem_append.1 hc with h | h
  · exact hs c h
  · exact ht c h

theorem plain_cons {c : Char} {s : List Char} (hc : c.toNat % 256 ≠ 0) (hs : Plain s) : Plain (c :: s) := by
  intro d hd
  rcases List.mem_cons.1 hd with rfl | h
  · exact hc
  · exact hs d h

theorem plain_nil : Plain [] := by
  intro c hc
  cases hc

theorem plain_decimal (n : ℕ) : Plain (Nat.toDigits 10 n) := by
  intro c hc
  have hdigit := Nat.isDigit_of_mem_toDigits (by decide) (by decide) hc
  simp only [Char.isDigit, Bool.and_eq_true, decide_eq_true_eq] at hdigit
  have hge : 48 ≤ c.toNat := hdigit.1
  have hle : c.toNat ≤ 57 := hdigit.2
  omega

theorem plain_digitChar {d : ℕ} (hd : d < 16) : d.digitChar.toNat % 256 ≠ 0 := by
  have hall : ∀ d : Fin 16, (Nat.digitChar d).toNat % 256 ≠ 0 := by decide
  exact hall ⟨d, hd⟩

theorem plain_hex (n : ℕ) : Plain (Nat.toDigits 16 n) := by
  intro c hc
  obtain ⟨d, hd, rfl⟩ := mem_toDigits_hex hc
  exact plain_digitChar hd

theorem zero_notMem_asBytes {s : List Char} (h : Plain s) : 0 ∉ asBytes s := by
  intro hmem
  obtain ⟨c, hc, hzero⟩ := List.mem_map.1 hmem
  have hval := congrArg UInt8.toNat hzero
  rw [UInt8.toNat_ofNat'] at hval
  exact h c hc hval

theorem inetNtop4_plain (b : Mem) (p : ℕ) : Plain (inetNtop4 b p) := by
  have hdot : '.'.toNat % 256 ≠ 0 := by decide
  exact plain_append (plain_decimal _) (plain_cons hdot (plain_append (plain_decimal _) (plain_cons hdot
    (plain_append (plain_decimal _) (plain_cons hdot (plain_decimal _))))))

theorem groups_plain (b : Mem) (words : ℕ → ℕ) (best : Option Run) (is : List ℕ) : Plain (groups b words best is) := by
  have hcolon : ':'.toNat % 256 ≠ 0 := by decide
  induction is with
  | nil => exact plain_nil
  | cons i is ih =>
    have hfirst : Plain (if i ≠ 0 then [':'] else []) := by
      split_ifs
      · exact plain_cons hcolon plain_nil
      · exact plain_nil
    have hrest : Plain (if i = 6 ∧ best.any (fun r => decide (r.base = 0 ∧ (r.len = 6 ∨ r.len = 5 ∧ words 5 = 0xffff))) then
        inetNtop4 b 12 else Nat.toDigits 16 (words i) ++ groups b words best is) := by
      split_ifs
      · exact inetNtop4_plain b 12
      · exact plain_append (plain_hex _) ih
    have hinside : Plain (if best.any fun r => decide (i = r.base) then ':' :: groups b words best is
        else groups b words best is) := by
      split_ifs
      · exact plain_cons hcolon ih
      · exact ih
    rw [groups]
    by_cases hin : best.any (fun r => decide (r.base ≤ i ∧ i < r.base + r.len)) = true
    · rw [if_pos hin]
      exact hinside
    · rw [if_neg hin]
      exact plain_append hfirst hrest

theorem inetNtop6_plain (b : Mem) : Plain (inetNtop6 b) := by
  refine plain_append (groups_plain _ _ _ _) ?_
  split_ifs
  · exact plain_cons (by decide) plain_nil
  · exact plain_nil

/-! ## Reading -/

/-- the loop for four bytes: those that are complete, the current one, whether it has a digit, and how many were begun -/
def pton4Loop (front : List UInt8) (cur : ℕ) (sawDigit : Bool) (octets : ℕ) : List Char → Option (List UInt8)
  | [] => if octets < 4 then none else some (front ++ [UInt8.ofNat cur])
  | ch :: src =>
    match digitIn 10 ch with
    | some d =>
      if sawDigit = true ∧ cur = 0 then none
      else if 255 < cur * 10 + d then none
      else if sawDigit = true then pton4Loop front (cur * 10 + d) true octets src
      else if 4 < octets + 1 then none
      else pton4Loop front (cur * 10 + d) true (octets + 1) src
    | none =>
      if ch = '.' ∧ sawDigit = true then
        if octets = 4 then none else pton4Loop (front ++ [UInt8.ofNat cur]) 0 false octets src
      else none

def inetPton4 (src : List Char) : Option (List UInt8) := pton4Loop [] 0 false 0 src

/-- behind the last character: the last group, and the groups that were left out -/
def pton6End (tp : List UInt8) (colonp : Option ℕ) (xdigitsSeen val : ℕ) : Option (List UInt8) :=
  if 0 < xdigitsSeen ∧ 16 < tp.length + 2 then none
  else
    let tp := if 0 < xdigitsSeen then tp ++ [UInt8.ofNat (val / 256), UInt8.ofNat (val % 256)] else tp
    match colonp with
    | some p => if tp.length = 16 then none else some (tp.take p ++ List.replicate (16 - tp.length) 0 ++ tp.drop p)
    | none => if tp.length = 16 then some tp else none

/-- the loop for sixteen bytes: those that are complete, where groups are left out, the digits and the value of the current
group, and where it began -/
def pton6Loop (tp : List UInt8) (colonp : Option ℕ) (xdigitsSeen val : ℕ) (curtok : List Char) :
    List Char → Option (List UInt8)
  | [] => pton6End tp colonp xdigitsSeen val
  | ch :: src =>
    match digitIn 16 ch with
    | some d => if xdigitsSeen = 4 then none else pton6Loop tp colonp (xdigitsSeen + 1) (val * 16 + d) curtok src
    | none =>
      if ch = ':' then
        if xdigitsSeen = 0 then
          if colonp.isSome then none else pton6Loop tp (some tp.length) 0 val src src
        else if src = [] then none
        else if 16 < tp.length + 2 then none
        else pton6Loop (tp ++ [UInt8.ofNat (val / 256), UInt8.ofNat (val % 256)]) colonp 0 0 src src
      else if ch = '.' ∧ tp.length + 4 ≤ 16 then
        (inetPton4 curtok).bind fun bytes => pton6End (tp ++ bytes) colonp 0 val
      else none

/-- a colon at the front has to be followed by another -/
def inetPton6 : List Char → Option (List UInt8)
  | [] => none
  | ':' :: src => if src.head? = some ':' then pton6Loop [] none 0 0 src src else none
  | src => pton6Loop [] none 0 0 src src

theorem pton4Loop_none {s : List Char} {c : Char} (hmem : c ∈ s) (hdigit : digitIn 10 c = none) (hdot : c ≠ '.')
    (front : List UInt8) (cur : ℕ) (sawDigit : Bool) (octets : ℕ) : pton4Loop front cur sawDigit octets s = none := by
  induction s generalizing front cur sawDigit octets with
  | nil => cases hmem
  | cons ch src ih =>
    rw [pton4Loop]
    rcases List.mem_cons.1 hmem with rfl | hlater
    · rw [hdigit]
      exact if_neg fun h => hdot h.1
    · cases digitIn 10 ch with
      | some d =>
        dsimp only
        split_ifs
        · rfl
        · rfl
        · exact ih hlater ..
        · rfl
        · exact ih hlater ..
      | none =>
        dsimp only
        split_ifs
        · rfl
        · exact ih hlater ..
        · rfl

section
variable {m n : ℕ} (hm : m < 16) (hn : n < 16) (tp : List UInt8) (curtok : List Char)
include hm hn

theorem pton6Loop_digits (r : List Char) : pton6Loop tp none 0 0 curtok (m.digitChar :: n.digitChar :: r) =
    pton6Loop tp none 2 (16 * m + n) curtok r := by
  have hvalue : (0 * 16 + m) * 16 + n = 16 * m + n := by omega
  rw [pton6Loop, (digitChar_hex hm).1]
  dsimp only
  rw [if_neg (by decide), pton6Loop, (digitChar_hex hn).1]
  dsimp only
  rw [if_neg (by decide), hvalue]

/-- two digits and a colon, with more behind it -/
theorem pton6Loop_pair {r : List Char} (hr : r ≠ []) :
    pton6Loop tp none 0 0 curtok (m.digitChar :: n.digitChar :: ':' :: r) =
      if 16 < tp.length + 2 then none else pton6Loop (tp ++ [0, UInt8.ofNat (16 * m + n)]) none 0 0 r r := by
  have hcolon : digitIn 16 ':' = none := by decide
  have hhigh : (16 * m + n) / 256 = 0 := by omega
  have hlow : (16 * m + n) % 256 = 16 * m + n := by omega
  rw [pton6Loop_digits hm hn, pton6Loop, hcolon]
  dsimp only
  rw [if_pos rfl, if_neg (by decide), if_neg hr, hhigh, hlow]
  rfl

/-- two digits at the end -/
theorem pton6Loop_last : pton6Loop tp none 0 0 curtok [m.digitChar, n.digitChar] =
    if tp.length + 2 = 16 then some (tp ++ [0, UInt8.ofNat (16 * m + n)]) else none := by
  have hhigh : (16 * m + n) / 256 = 0 := by omega
  have hlow : (16 * m + n) % 256 = 16 * m + n := by omega
  rw [pton6Loop_digits hm hn, pton6Loop, pton6End, hhigh, hlow]
  by_cases hroom : 16 < tp.length + 2
  · rw [if_pos ⟨by decide, hroom⟩, if_neg (by omega)]
  · rw [if_neg fun h => hroom h.2]
    dsimp only
    rw [if_pos (show 0 < 2 by decide), List.length_append]
    rfl

end

end Libnl.Inet
