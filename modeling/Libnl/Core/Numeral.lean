/-
Numbers as text, as `strtoul` and `strtol` read them with base 0 or 16, and `%u` and `%x` print them.

`strtoul` skips blanks, takes a sign, and finds out the base: numerals with `0x` are hexadecimal, others with a leading zero
octal. It returns the value and where it stopped; where it read nothing, that is where it began. A value that does not fit
is the largest there is; with a minus sign the value is taken from zero, modulo the size of the word. For `strtol` it is
negative, and the smallest there is if it does not fit.

`scanf` reads a numeral of a limited width. It does not go back over a `0x` without digits: that is no numeral.

- `strtoul_toDigits`, `strtoulHex_toDigits`: what is printed is read again, if no digit follows.
- `strtolHex_pair`, `scanfHex_pair`: so are two digits.
- `strtoulHex_two`: which two characters are read whole.
-/
import Mathlib.Tactic

namespace Libnl.Numeral

/-- the value of a digit, in whatever base -/
def digitOf (c : Char) : Option ℕ :=
  if '0' ≤ c ∧ c ≤ '9' then some (c.toNat - 48)
  else if 'a' ≤ c ∧ c ≤ 'z' then some (c.toNat - 87)
  else if 'A' ≤ c ∧ c ≤ 'Z' then some (c.toNat - 55)
  else none

/-- the value of a digit of this base -/
def digitIn (base : ℕ) (c : Char) : Option ℕ := (digitOf c).filter fun d => decide (d < base)

/-- the digits at the front, read into `acc`, and the rest -/
def scanDigits (base : ℕ) : ℕ → List Char → ℕ × List Char
  | acc, [] => (acc, [])
  | acc, c :: cs =>
    match digitIn base c with
    | some d => scanDigits base (base * acc + d) cs
    | none => (acc, c :: cs)

/-- `isspace` -/
def isSpace (c : Char) : Bool := c = ' ' || ('\t' ≤ c && c ≤ '\r')

/-- the base of a numeral, and its digits -/
def baseOf : List Char → ℕ × List Char
  | '0' :: x :: d :: cs =>
    if (x = 'x' ∨ x = 'X') ∧ (digitIn 16 d).isSome then (16, d :: cs) else (8, '0' :: x :: d :: cs)
  | '0' :: cs => (8, '0' :: cs)
  | cs => (10, cs)

/-- the sign, and what follows -/
def signOf : List Char → Bool × List Char
  | '-' :: cs => (true, cs)
  | '+' :: cs => (false, cs)
  | cs => (false, cs)

def ULONG_MAX : ℕ := 18446744073709551615

def strtoul (s : List Char) : ℕ × List Char :=
  let sign := signOf (s.dropWhile isSpace)
  let numeral := baseOf sign.2
  if (numeral.2.head?.bind (digitIn numeral.1)).isNone then (0, s)
  else
    let r := scanDigits numeral.1 0 numeral.2
    (if ULONG_MAX < r.1 then ULONG_MAX else if sign.1 then (ULONG_MAX + 1 - r.1) % (ULONG_MAX + 1) else r.1, r.2)

/-- the digits of a hexadecimal numeral, which may begin with `0x` -/
def hexDigits : List Char → List Char
  | '0' :: x :: d :: cs => if (x = 'x' ∨ x = 'X') ∧ (digitIn 16 d).isSome then d :: cs else '0' :: x :: d :: cs
  | cs => cs

/-- `strtoul` with base 16 -/
def strtoulHex (s : List Char) : ℕ × List Char :=
  let sign := signOf (s.dropWhile isSpace)
  let digits := hexDigits sign.2
  if (digits.head?.bind (digitIn 16)).isNone then (0, s)
  else
    let r := scanDigits 16 0 digits
    (if ULONG_MAX < r.1 then ULONG_MAX else if sign.1 then (ULONG_MAX + 1 - r.1) % (ULONG_MAX + 1) else r.1, r.2)

def LONG_MAX : ℤ := 9223372036854775807
def LONG_MIN : ℤ := -9223372036854775808

/-- a value with a sign, or the nearest `long` -/
def toLong (negative : Bool) (v : ℕ) : ℤ := if negative then max LONG_MIN (-v) else min v LONG_MAX

def strtol (s : List Char) : ℤ × List Char :=
  let sign := signOf (s.dropWhile isSpace)
  let numeral := baseOf sign.2
  if (numeral.2.head?.bind (digitIn numeral.1)).isNone then (0, s)
  else
    let r := scanDigits numeral.1 0 numeral.2
    (toLong sign.1 r.1, r.2)

/-- `strtol` with base 16 -/
def strtolHex (s : List Char) : ℤ × List Char :=
  let sign := signOf (s.dropWhile isSpace)
  let digits := hexDigits sign.2
  if (digits.head?.bind (digitIn 16)).isNone then (0, s)
  else
    let r := scanDigits 16 0 digits
    (toLong sign.1 r.1, r.2)

/-- what follows `0x` -/
def afterX : List Char → List Char
  | '0' :: x :: cs => if x = 'x' ∨ x = 'X' then cs else '0' :: x :: cs
  | cs => cs

/-- `%x` of `scanf` with a width, into an `unsigned int` -/
def scanfHex (width : ℕ) (s : List Char) : Option (ℕ × List Char) :=
  let field := s.dropWhile isSpace
  let sign := signOf (field.take width)
  let digits := afterX sign.2
  if (digits.head?.bind (digitIn 16)).isNone then none
  else
    let r := scanDigits 16 0 digits
    let v := if ULONG_MAX < r.1 then ULONG_MAX else if sign.1 then (ULONG_MAX + 1 - r.1) % (ULONG_MAX + 1) else r.1
    some (v % 2 ^ 32, r.2 ++ field.drop width)

/-- no digit stands at the front -/
def Stops (r : List Char) : Prop := ∀ c ∈ r.head?, digitOf c = none

theorem digitIn_ten {c : Char} (h : c.isDigit = true) : digitIn 10 c = some (c.toNat - 48) := by
  have hrange : '0' ≤ c ∧ c ≤ '9' := by
    simp only [Char.isDigit, Bool.and_eq_true, decide_eq_true_eq] at h
    exact h
  have hle : c.toNat ≤ 57 := hrange.2
  rw [digitIn, digitOf, if_pos hrange, Option.filter, if_pos (decide_eq_true (by omega))]

/-- digits are read one after the other -/
theorem scanDigits_append {ds : List Char} (hds : ∀ c ∈ ds, c.isDigit = true) (acc : ℕ) (r : List Char) :
    scanDigits 10 acc (ds ++ r) = scanDigits 10 (Nat.ofDigitChars 10 ds acc) r := by
  induction ds generalizing acc with
  | nil => rfl
  | cons c ds ih =>
    rw [List.cons_append, scanDigits, digitIn_ten (hds c List.mem_cons_self)]
    exact ih (fun d hd => hds d (List.mem_cons_of_mem c hd)) _

theorem scanDigits_stops {r : List Char} (hr : Stops r) (base acc : ℕ) : scanDigits base acc r = (acc, r) := by
  cases r with
  | nil => rfl
  | cons c cs =>
    have hnone : digitOf c = none := hr c rfl
    rw [scanDigits, digitIn, hnone]
    rfl

/-- the first digit of a printed number; it is zero for zero alone -/
theorem toDigits_head (n : ℕ) : ∃ c ds, Nat.toDigits 10 n = c :: ds ∧ c.isDigit = true ∧ (c = '0' → n = 0 ∧ ds = []) := by
  induction n using Nat.base_induction 10 (by decide) with
  | single m hm =>
    refine ⟨m.digitChar, [], Nat.toDigits_of_lt_base hm, ?_, ?_⟩
    · interval_cases m <;> rfl
    · intro hzero
      refine ⟨?_, rfl⟩
      interval_cases m <;> first | rfl | cases hzero
  | digit m k hk hm ih =>
    obtain ⟨c, ds, hprint, hdigit, hzero⟩ := ih
    have happ := Nat.toDigits_append_toDigits (b := 10) (by decide) hm hk
    rw [hprint] at happ
    refine ⟨c, ds ++ Nat.toDigits 10 k, happ.symm, hdigit, fun hc => ?_⟩
    have hm0 := (hzero hc).1
    omega

/-- a digit is neither a blank nor a sign -/
theorem isDigit_plain {c : Char} (h : c.isDigit = true) : isSpace c = false ∧ c ≠ '-' ∧ c ≠ '+' := by
  have hrange : '0' ≤ c ∧ c ≤ '9' := by
    simp only [Char.isDigit, Bool.and_eq_true, decide_eq_true_eq] at h
    exact h
  have hge : 48 ≤ c.toNat := hrange.1
  refine ⟨?_, ?_, ?_⟩
  · rw [isSpace, Bool.or_eq_false_iff]
    refine ⟨decide_eq_false ?_, ?_⟩
    · rintro rfl
      exact absurd hge (by decide)
    · rw [Bool.and_eq_false_iff]
      refine Or.inr (decide_eq_false fun hle => ?_)
      have hle' : c.toNat ≤ 13 := hle
      omega
  · rintro rfl
    exact absurd hge (by decide)
  · rintro rfl
    exact absurd hge (by decide)

/-- zero alone is octal -/
theorem baseOf_zero {r : List Char} (hr : Stops r) : baseOf ('0' :: r) = (8, '0' :: r) := by
  cases r with
  | nil => rfl
  | cons x cs =>
    cases cs with
    | nil => rfl
    | cons d cs =>
      have hnone : digitOf x = none := hr x rfl
      rw [baseOf, if_neg]
      rintro ⟨rfl | rfl, -⟩
      · exact absurd hnone (by decide)
      · exact absurd hnone (by decide)

theorem baseOf_other {c : Char} (hc : c ≠ '0') (cs : List Char) : baseOf (c :: cs) = (10, c :: cs) := by
  unfold baseOf
  split
  · rename_i heq
    exact absurd (List.cons.inj heq).1 hc
  · rename_i heq
    exact absurd (List.cons.inj heq).1 hc
  · rfl

/-- **What is printed is read again.** -/
theorem strtoul_toDigits {n : ℕ} (hn : n ≤ ULONG_MAX) {r : List Char} (hr : Stops r) :
    strtoul (Nat.toDigits 10 n ++ r) = (n, r) := by
  obtain ⟨c, ds, hprint, hdigit, hzero⟩ := toDigits_head n
  obtain ⟨hspace, hminus, hplus⟩ := isDigit_plain hdigit
  have hskip : (Nat.toDigits 10 n ++ r).dropWhile isSpace = Nat.toDigits 10 n ++ r := by
    rw [hprint, List.cons_append, List.dropWhile_cons, if_neg (by rw [hspace]; exact Bool.false_ne_true)]
  have hsign : signOf (Nat.toDigits 10 n ++ r) = (false, Nat.toDigits 10 n ++ r) := by
    rw [hprint, List.cons_append]
    simp [signOf, hminus, hplus]
  rw [strtoul, hskip, hsign, hprint, List.cons_append]
  dsimp only
  by_cases hc : c = '0'
  · obtain ⟨rfl, rfl⟩ := hzero hc
    have hread : scanDigits 8 0 ('0' :: ([] ++ r)) = (0, r) := scanDigits_stops hr 8 0
    rw [List.nil_append] at hread ⊢
    rw [hc, baseOf_zero hr]
    dsimp only
    rw [List.head?_cons, Option.bind_some, if_neg (show ¬ (digitIn 8 '0').isNone = true by decide), hread]
    rfl
  · have hread : scanDigits 10 0 (c :: (ds ++ r)) = (n, r) := by
      have hall : ∀ d ∈ Nat.toDigits 10 n, d.isDigit = true := fun d hd =>
        Nat.isDigit_of_mem_toDigits (by decide) (by decide) hd
      rw [← List.cons_append, ← hprint, scanDigits_append hall, Nat.ofDigitChars_ten_toDigits, scanDigits_stops hr]
    have hsome : ((c :: (ds ++ r)).head?.bind (digitIn 10)).isNone = false := by
      rw [List.head?_cons, Option.bind_some, digitIn_ten hdigit]
      rfl
    rw [baseOf_other hc]
    dsimp only
    rw [hsome, if_neg Bool.false_ne_true, hread, if_neg (by omega), if_neg Bool.false_ne_true]

/-- no digit of this base stands at the front -/
def StopsIn (base : ℕ) (r : List Char) : Prop := ∀ c ∈ r.head?, digitIn base c = none

theorem scanDigits_stopsIn {base : ℕ} {r : List Char} (hr : StopsIn base r) (acc : ℕ) : scanDigits base acc r = (acc, r) := by
  cases r with
  | nil => rfl
  | cons c cs =>
    have hnone : digitIn base c = none := hr c rfl
    rw [scanDigits, hnone]

/-- **Behind blanks**, and before letters: a number that is not zero is decimal. -/
theorem strtoul_blanks {n : ℕ} (hpos : n ≠ 0) (hn : n ≤ ULONG_MAX) {blanks r : List Char}
    (hblanks : ∀ c ∈ blanks, isSpace c = true) (hr : StopsIn 10 r) :
    strtoul (blanks ++ (Nat.toDigits 10 n ++ r)) = (n, r) := by
  obtain ⟨c, ds, hprint, hdigit, hzero⟩ := toDigits_head n
  obtain ⟨hspace, hminus, hplus⟩ := isDigit_plain hdigit
  have hskip : (blanks ++ (Nat.toDigits 10 n ++ r)).dropWhile isSpace = Nat.toDigits 10 n ++ r := by
    rw [List.dropWhile_append_of_pos hblanks, hprint, List.cons_append, List.dropWhile_cons,
      if_neg (by rw [hspace]; exact Bool.false_ne_true)]
  have hsign : signOf (Nat.toDigits 10 n ++ r) = (false, Nat.toDigits 10 n ++ r) := by
    rw [hprint, List.cons_append]
    simp [signOf, hminus, hplus]
  have hread : scanDigits 10 0 (c :: (ds ++ r)) = (n, r) := by
    have hall : ∀ d ∈ Nat.toDigits 10 n, d.isDigit = true := fun d hd =>
      Nat.isDigit_of_mem_toDigits (by decide) (by decide) hd
    rw [← List.cons_append, ← hprint, scanDigits_append hall, Nat.ofDigitChars_ten_toDigits, scanDigits_stopsIn hr]
  have hsome : ((c :: (ds ++ r)).head?.bind (digitIn 10)).isNone = false := by
    rw [List.head?_cons, Option.bind_some, digitIn_ten hdigit]
    rfl
  rw [strtoul, hskip, hsign, hprint, List.cons_append]
  dsimp only
  rw [baseOf_other fun hc => hpos (hzero hc).1]
  dsimp only
  rw [hsome, if_neg Bool.false_ne_true, hread, if_neg (by omega), if_neg Bool.false_ne_true]

/-! ## Hexadecimal numbers -/

/-- a digit is read as such, and is neither a blank nor a sign nor an `x` -/
theorem digitChar_hex {d : ℕ} (hd : d < 16) :
    digitIn 16 d.digitChar = some d ∧ isSpace d.digitChar = false ∧ d.digitChar ≠ '-' ∧ d.digitChar ≠ '+' ∧
      d.digitChar ≠ 'x' ∧ d.digitChar ≠ 'X' := by
  have hall : ∀ d : Fin 16, digitIn 16 (Nat.digitChar d) = some d.val ∧ isSpace (Nat.digitChar d) = false ∧
      Nat.digitChar d ≠ '-' ∧ Nat.digitChar d ≠ '+' ∧ Nat.digitChar d ≠ 'x' ∧ Nat.digitChar d ≠ 'X' := by decide
  exact hall ⟨d, hd⟩

theorem mem_toDigits_hex {n : ℕ} {c : Char} (h : c ∈ Nat.toDigits 16 n) : ∃ d < 16, c = d.digitChar := by
  induction n using Nat.base_induction 16 (by decide) with
  | single m hm =>
    rw [Nat.toDigits_of_lt_base hm, List.mem_singleton] at h
    exact ⟨m, hm, h⟩
  | digit m k hk hm ih =>
    rw [← Nat.toDigits_append_toDigits (by decide) hm hk, Nat.toDigits_of_lt_base hk, List.mem_append,
      List.mem_singleton] at h
    rcases h with h | h
    · exact ih h
    · exact ⟨k, hk, h⟩

theorem scanDigits_hex (n : ℕ) (r : List Char) : scanDigits 16 0 (Nat.toDigits 16 n ++ r) = scanDigits 16 n r := by
  induction n using Nat.base_induction 16 (by decide) generalizing r with
  | single m hm =>
    rw [Nat.toDigits_of_lt_base hm, List.singleton_append, scanDigits, (digitChar_hex hm).1]
    simp only [Nat.mul_zero, Nat.zero_add]
  | digit m k hk hm ih =>
    rw [← Nat.toDigits_append_toDigits (by decide) hm hk, Nat.toDigits_of_lt_base hk, List.append_assoc, ih,
      List.singleton_append, scanDigits, (digitChar_hex hk).1]

/-- a numeral that does not begin with `0x` -/
theorem hexDigits_of_second {cs : List Char} (h : ∀ x ∈ cs.tail.head?, x ≠ 'x' ∧ x ≠ 'X') : hexDigits cs = cs := by
  unfold hexDigits
  split
  · rename_i x d cs
    obtain ⟨hx, hX⟩ := h x rfl
    rw [if_neg]
    rintro ⟨rfl | rfl, -⟩
    · exact hx rfl
    · exact hX rfl
  · rfl

theorem scanDigits_suffix (base acc : ℕ) (s : List Char) : (scanDigits base acc s).2 <:+ s := by
  induction s generalizing acc with
  | nil => exact List.suffix_refl _
  | cons c cs ih =>
    rw [scanDigits]
    cases digitIn base c with
    | none => exact List.suffix_refl _
    | some d => exact (ih _).trans (List.suffix_cons c cs)

theorem signOf_suffix (s : List Char) : (signOf s).2 <:+ s := by
  unfold signOf
  split
  · exact List.suffix_cons _ _
  · exact List.suffix_cons _ _
  · exact List.suffix_refl _

theorem hexDigits_suffix (s : List Char) : hexDigits s <:+ s := by
  unfold hexDigits
  split
  · split_ifs
    · exact (List.suffix_cons _ _).trans (List.suffix_cons _ _)
    · exact List.suffix_refl _
  · exact List.suffix_refl _

theorem baseOf_suffix (s : List Char) : (baseOf s).2 <:+ s := by
  unfold baseOf
  split
  · split_ifs
    · exact (List.suffix_cons _ _).trans (List.suffix_cons _ _)
    · exact List.suffix_refl _
  · exact List.suffix_refl _
  · exact List.suffix_refl _

theorem strtoul_suffix (s : List Char) : (strtoul s).2 <:+ s := by
  rw [strtoul]
  dsimp only
  by_cases hnone : ((baseOf (signOf (s.dropWhile isSpace)).2).2.head?.bind
      (digitIn (baseOf (signOf (s.dropWhile isSpace)).2).1)).isNone = true
  · rw [if_pos hnone]
  · rw [if_neg hnone]
    exact (scanDigits_suffix ..).trans ((baseOf_suffix _).trans ((signOf_suffix _).trans (List.dropWhile_suffix _)))

/-- what is left is an end of the string -/
theorem strtoulHex_suffix (s : List Char) : (strtoulHex s).2 <:+ s := by
  rw [strtoulHex]
  dsimp only
  by_cases hnone : ((hexDigits (signOf (s.dropWhile isSpace)).2).head?.bind (digitIn 16)).isNone = true
  · rw [if_pos hnone]
  · rw [if_neg hnone]
    exact (scanDigits_suffix ..).trans ((hexDigits_suffix _).trans ((signOf_suffix _).trans (List.dropWhile_suffix _)))

/-- **What is printed is read again**, in hexadecimal. -/
theorem strtoulHex_toDigits {n : ℕ} (hn : n ≤ ULONG_MAX) {r : List Char} (hr : Stops r) :
    strtoulHex (Nat.toDigits 16 n ++ r) = (n, r) := by
  obtain ⟨c, ds, hprint⟩ := List.exists_cons_of_ne_nil (Nat.toDigits_ne_nil (b := 16) (n := n))
  obtain ⟨d, hd, rfl⟩ := mem_toDigits_hex (hprint ▸ List.mem_cons_self : c ∈ Nat.toDigits 16 n)
  obtain ⟨hread, hspace, hminus, hplus, -⟩ := digitChar_hex hd
  have hskip : (Nat.toDigits 16 n ++ r).dropWhile isSpace = Nat.toDigits 16 n ++ r := by
    rw [hprint, List.cons_append, List.dropWhile_cons, if_neg (by rw [hspace]; exact Bool.false_ne_true)]
  have hsign : signOf (Nat.toDigits 16 n ++ r) = (false, Nat.toDigits 16 n ++ r) := by
    rw [hprint, List.cons_append]
    simp [signOf, hminus, hplus]
  have hdigits : hexDigits (Nat.toDigits 16 n ++ r) = Nat.toDigits 16 n ++ r := by
    refine hexDigits_of_second fun x hx => ?_
    rw [hprint, List.cons_append, List.tail_cons] at hx
    cases ds with
    | nil =>
      have hnone : digitOf x = none := hr x hx
      constructor
      · rintro rfl
        exact absurd hnone (by decide)
      · rintro rfl
        exact absurd hnone (by decide)
    | cons y ds =>
      obtain rfl : y = x := Option.some.inj hx
      obtain ⟨e, he, rfl⟩ := mem_toDigits_hex (hprint ▸ List.mem_cons_of_mem _ List.mem_cons_self : y ∈ Nat.toDigits 16 n)
      obtain ⟨-, -, -, -, hx, hX⟩ := digitChar_hex he
      exact ⟨hx, hX⟩
  have hsome : ((Nat.toDigits 16 n ++ r).head?.bind (digitIn 16)).isNone = false := by
    rw [hprint, List.cons_append, List.head?_cons, Option.bind_some, hread]
    rfl
  rw [strtoulHex, hskip, hsign]
  dsimp only
  rw [hdigits, hsome, if_neg Bool.false_ne_true, scanDigits_hex, scanDigits_stops hr, if_neg (by omega),
    if_neg Bool.false_ne_true]

/-! ## Two digits -/

section
variable {m n : ℕ} (hm : m < 16) (hn : n < 16)
include hm

theorem pair_head (r : List Char) : ((m.digitChar :: n.digitChar :: r).head?.bind (digitIn 16)).isNone = false := by
  rw [List.head?_cons, Option.bind_some, (digitChar_hex hm).1]
  rfl

include hn

/-- they are neither blanks, nor a sign, nor `0x` -/
theorem pair_plain (r : List Char) : (m.digitChar :: n.digitChar :: r).dropWhile isSpace = m.digitChar :: n.digitChar :: r ∧
    signOf (m.digitChar :: n.digitChar :: r) = (false, m.digitChar :: n.digitChar :: r) ∧
    hexDigits (m.digitChar :: n.digitChar :: r) = m.digitChar :: n.digitChar :: r ∧
    afterX (m.digitChar :: n.digitChar :: r) = m.digitChar :: n.digitChar :: r := by
  obtain ⟨-, hspace, hminus, hplus, -⟩ := digitChar_hex hm
  obtain ⟨-, -, -, -, hx, hX⟩ := digitChar_hex hn
  refine ⟨?_, ?_, ?_, ?_⟩
  · rw [List.dropWhile_cons, hspace, if_neg Bool.false_ne_true]
  · simp [signOf, hminus, hplus]
  · refine hexDigits_of_second fun x hmem => ?_
    obtain rfl : n.digitChar = x := Option.some.inj hmem
    exact ⟨hx, hX⟩
  · unfold afterX
    split
    · rename_i x cs heq
      obtain ⟨-, htail⟩ := List.cons.inj heq
      obtain ⟨rfl, rfl⟩ := List.cons.inj htail
      rw [if_neg (not_or.2 ⟨hx, hX⟩)]
      exact heq.symm
    · rfl

theorem scanDigits_pair (r : List Char) :
    scanDigits 16 0 (m.digitChar :: n.digitChar :: r) = scanDigits 16 (16 * m + n) r := by
  rw [scanDigits, (digitChar_hex hm).1]
  dsimp only
  rw [scanDigits, (digitChar_hex hn).1]
  simp only [Nat.mul_zero, Nat.zero_add]

theorem strtolHex_pair {r : List Char} (hr : Stops r) :
    strtolHex (m.digitChar :: n.digitChar :: r) = (((16 * m + n : ℕ) : ℤ), r) := by
  obtain ⟨hskip, hsign, hdigits, -⟩ := pair_plain hm hn r
  have hlong : ((16 * m + n : ℕ) : ℤ) ≤ LONG_MAX := by
    rw [LONG_MAX]
    omega
  rw [strtolHex, hskip, hsign]
  dsimp only
  rw [hdigits, pair_head hm, if_neg Bool.false_ne_true, scanDigits_pair hm hn, scanDigits_stops hr, toLong,
    if_neg Bool.false_ne_true, min_eq_left hlong]

/-- whatever follows, as the width is two -/
theorem scanfHex_pair (r : List Char) : scanfHex 2 (m.digitChar :: n.digitChar :: r) = some (16 * m + n, r) := by
  obtain ⟨hskip, -⟩ := pair_plain hm hn r
  obtain ⟨-, hsign, -, hdigits⟩ := pair_plain hm hn []
  have hlt : 16 * m + n < 2 ^ 32 := by omega
  have hmax : ¬ ULONG_MAX < 16 * m + n := by
    rw [ULONG_MAX]
    omega
  simp only [scanfHex, hskip, List.take_succ_cons, List.take_zero, List.drop_succ_cons, List.drop_zero, hsign, hdigits]
  rw [pair_head hm, if_neg Bool.false_ne_true, scanDigits_pair hm hn, scanDigits, if_neg hmax, if_neg Bool.false_ne_true,
    Nat.mod_eq_of_lt hlt, List.nil_append]

end

/-! ## Two characters before an end -/

/-- neither a digit, nor a blank, nor a sign stands at the front -/
def Ends (r : List Char) : Prop := ∀ c ∈ r.head?, digitOf c = none ∧ isSpace c = false ∧ c ≠ '-' ∧ c ≠ '+'

/-- two digits -/
def digitPair (a b : Char) : Option ℕ := (digitIn 16 a).bind fun m => (digitIn 16 b).map fun n => 16 * m + n

/-- one digit behind a blank or a plus, or a zero behind a minus -/
def paddedDigit (a b : Char) : Option ℕ :=
  if isSpace a || decide (a = '+') then digitIn 16 b
  else if a = '-' ∧ b = '0' then some 0
  else none

theorem digitIn_lt {base : ℕ} {c : Char} {d : ℕ} (h : digitIn base c = some d) : d < base := by
  rw [digitIn, Option.filter_eq_some_iff] at h
  exact of_decide_eq_true h.2

theorem digitIn_none {base : ℕ} {c : Char} (h : digitOf c = none) : digitIn base c = none := by
  rw [digitIn, h]
  rfl

/-- a digit is neither a blank nor a sign -/
theorem digit_plain {base : ℕ} {c : Char} {d : ℕ} (h : digitIn base c = some d) : isSpace c = false ∧ c ≠ '-' ∧ c ≠ '+' := by
  have hdigit : digitOf c ≠ none := fun hnone => by
    rw [digitIn_none hnone] at h
    cases h
  refine ⟨?_, ?_, ?_⟩
  · by_contra hspace
    rw [Bool.not_eq_false, isSpace, Bool.or_eq_true, Bool.and_eq_true, decide_eq_true_eq, decide_eq_true_eq,
      decide_eq_true_eq] at hspace
    have hsmall : c.toNat < 48 := by
      rcases hspace with rfl | ⟨-, hle⟩
      · decide
      · exact Nat.lt_of_le_of_lt (UInt32.le_iff_toNat_le.1 hle) (by decide)
    have hbelow : ∀ low : Char, 48 ≤ low.toNat → ¬ low ≤ c := fun low hlow hle => by
      have hle : low.toNat ≤ c.toNat := UInt32.le_iff_toNat_le.1 hle
      omega
    apply hdigit
    rw [digitOf, if_neg fun hc => hbelow _ (by decide) hc.1, if_neg fun hc => hbelow _ (by decide) hc.1,
      if_neg fun hc => hbelow _ (by decide) hc.1]
  · rintro rfl
    exact hdigit (by decide)
  · rintro rfl
    exact hdigit (by decide)

theorem digitIn_zero {c : Char} (h : digitIn 16 c = some 0) : c = '0' := by
  have hvalue : digitOf c = some 0 := (Option.filter_eq_some_iff.1 h).1
  rw [digitOf] at hvalue
  have hcode : c.toNat = 48 := by
    by_cases h9 : '0' ≤ c ∧ c ≤ '9'
    · have hge : 48 ≤ c.toNat := h9.1
      rw [if_pos h9] at hvalue
      have hsub := Option.some.inj hvalue
      omega
    · rw [if_neg h9] at hvalue
      by_cases hz : 'a' ≤ c ∧ c ≤ 'z'
      · have hge : 97 ≤ c.toNat := hz.1
        rw [if_pos hz] at hvalue
        have hsub := Option.some.inj hvalue
        omega
      · rw [if_neg hz] at hvalue
        by_cases hZ : 'A' ≤ c ∧ c ≤ 'Z'
        · have hge : 65 ≤ c.toNat := hZ.1
          rw [if_pos hZ] at hvalue
          have hsub := Option.some.inj hvalue
          omega
        · rw [if_neg hZ] at hvalue
          cases hvalue
  exact Char.toNat_inj.1 hcode

section
variable {r : List Char} (hr : Ends r)
include hr

theorem Ends.stopsIn (base : ℕ) : StopsIn base r := fun c hc => digitIn_none (hr c hc).1

/-- no number begins at an end -/
theorem Ends.no_number : (hexDigits (signOf (r.dropWhile isSpace)).2).head?.bind (digitIn 16) = none ∧
    (hexDigits r).head?.bind (digitIn 16) = none := by
  cases r with
  | nil => exact ⟨rfl, rfl⟩
  | cons c cs =>
    obtain ⟨hdigit, hspace, hminus, hplus⟩ := hr c rfl
    have hzero : c ≠ '0' := by
      rintro rfl
      exact absurd hdigit (by decide)
    have hdigits : hexDigits (c :: cs) = c :: cs := by simp [hexDigits, hzero]
    have hsign : signOf (c :: cs) = (false, c :: cs) := by simp [signOf, hminus, hplus]
    have hnone : ((c :: cs).head?.bind (digitIn 16)) = none := digitIn_none hdigit
    rw [List.dropWhile_cons, hspace, if_neg Bool.false_ne_true, hsign, hdigits]
    exact ⟨hnone, hnone⟩

theorem Ends.no_x (c : Char) : hexDigits (c :: r) = c :: r ∧ ∀ b, hexDigits (c :: b :: r) = c :: b :: r := by
  have hx : ∀ x ∈ r.head?, x ≠ 'x' ∧ x ≠ 'X' := fun x hx => by
    have hnone := (hr x hx).1
    constructor
    · rintro rfl
      exact absurd hnone (by decide)
    · rintro rfl
      exact absurd hnone (by decide)
  have hhead : ∀ d ∈ r.head?, digitIn 16 d = none := hr.stopsIn 16
  refine ⟨hexDigits_of_second hx, fun b => ?_⟩
  cases r with
  | nil => unfold hexDigits; split <;> simp_all
  | cons d ds =>
    have hnone : digitIn 16 d = none := hhead d rfl
    by_cases hc : c = '0'
    · subst hc
      simp [hexDigits, hnone]
    · simp [hexDigits, hc]

end

/-- where no number is read -/
theorem strtoulHex_none {s ds : List Char} {neg : Bool} (hsign : signOf (s.dropWhile isSpace) = (neg, ds))
    (hnone : (hexDigits ds).head?.bind (digitIn 16) = none) : strtoulHex s = (0, s) := by
  rw [strtoulHex, hsign]
  dsimp only
  rw [hnone, Option.isNone_none, if_pos rfl]

/-- where one is -/
theorem strtoulHex_some {s ds left : List Char} {neg : Bool} {d v : ℕ}
    (hsign : signOf (s.dropWhile isSpace) = (neg, ds)) (hplain : hexDigits ds = ds)
    (hhead : ds.head?.bind (digitIn 16) = some d) (hscan : scanDigits 16 0 ds = (v, left)) (hv : v ≤ ULONG_MAX) :
    strtoulHex s = (if neg then (ULONG_MAX + 1 - v) % (ULONG_MAX + 1) else v, left) := by
  rw [strtoulHex, hsign]
  dsimp only
  rw [hplain, hhead, Option.isNone_some, if_neg Bool.false_ne_true, hscan, if_neg (not_lt.2 hv)]

/-- what is padded is no pair of digits -/
theorem digitPair_of_padded {a b : Char} {v : ℕ} (h : paddedDigit a b = some v) : digitPair a b = none := by
  have hnone : digitIn 16 a = none := by
    cases hcase : digitIn 16 a with
    | none => rfl
    | some d =>
      obtain ⟨hspace, hminus, hplus⟩ := digit_plain hcase
      simp [paddedDigit, hspace, hminus, hplus] at h
  rw [digitPair, hnone]
  rfl

section
variable {r : List Char} (hr : Ends r)
include hr

/-- one character is left behind the blanks and the sign -/
theorem strtoulHex_one {s : List Char} {neg : Bool} {b : Char} (hsign : signOf (s.dropWhile isSpace) = (neg, b :: r)) :
    (digitIn 16 b = none ∧ strtoulHex s = (0, s)) ∨
      ∃ n, digitIn 16 b = some n ∧
        strtoulHex s = (if neg then (ULONG_MAX + 1 - n) % (ULONG_MAX + 1) else n, r) := by
  have hplain : hexDigits (b :: r) = b :: r := (hr.no_x b).1
  cases hb : digitIn 16 b with
  | none => exact .inl ⟨rfl, strtoulHex_none hsign (by rw [hplain]; exact hb)⟩
  | some n =>
    have hn : n < 16 := digitIn_lt hb
    have hscan : scanDigits 16 0 (b :: r) = (n, r) := by
      rw [scanDigits, hb]
      dsimp only
      rw [scanDigits_stopsIn (hr.stopsIn 16), Nat.mul_zero, Nat.zero_add]
    have hmax : n ≤ ULONG_MAX := by
      rw [ULONG_MAX]
      omega
    exact .inr ⟨n, rfl, strtoulHex_some hsign hplain hb hscan hmax⟩

/-- two characters are left -/
theorem strtoulHex_both {s : List Char} {a b : Char} (hsign : signOf (s.dropWhile isSpace) = (false, a :: b :: r))
    (hs : r.length + 2 = s.length) (v : ℕ) : strtoulHex s = (v, r) ↔ digitPair a b = some v := by
  have hplain : hexDigits (a :: b :: r) = a :: b :: r := (hr.no_x a).2 b
  have hlonger : ∀ (x : ℕ) (l : List Char), l.length ≠ r.length → (x, l) ≠ (v, r) := by
    intro x l hl heq
    exact hl (congrArg List.length (Prod.ext_iff.1 heq).2)
  rw [digitPair]
  cases ha : digitIn 16 a with
  | none =>
    rw [strtoulHex_none hsign (by rw [hplain]; exact ha)]
    exact iff_of_false (hlonger _ _ (by omega)) (by simp)
  | some m =>
    have hm : m < 16 := digitIn_lt ha
    cases hb : digitIn 16 b with
    | none =>
      have hscan : scanDigits 16 0 (a :: b :: r) = (m, b :: r) := by
        rw [scanDigits, ha]
        dsimp only
        rw [Nat.mul_zero, Nat.zero_add, scanDigits, hb]
      have hmax : m ≤ ULONG_MAX := by
        rw [ULONG_MAX]
        omega
      rw [strtoulHex_some hsign hplain ha hscan hmax]
      exact iff_of_false (hlonger _ _ (by simp)) (by simp)
    | some n =>
      have hn : n < 16 := digitIn_lt hb
      have hscan : scanDigits 16 0 (a :: b :: r) = (16 * m + n, r) := by
        rw [scanDigits, ha]
        dsimp only
        rw [Nat.mul_zero, Nat.zero_add, scanDigits, hb]
        dsimp only
        rw [scanDigits_stopsIn (hr.stopsIn 16)]
      have hmax : 16 * m + n ≤ ULONG_MAX := by
        rw [ULONG_MAX]
        omega
      rw [strtoulHex_some hsign hplain ha hscan hmax, if_neg Bool.false_ne_true]
      simp

/-- **Two characters before an end** are read whole as a small number iff they are two digits, a digit behind a blank or a
plus, or zero behind a minus. -/
theorem strtoulHex_two (a b : Char) {v : ℕ} (hv : v ≤ 255) :
    strtoulHex (a :: b :: r) = (v, r) ↔ digitPair a b = some v ∨ paddedDigit a b = some v := by
  have hshort : ∀ x : ℕ, (x, a :: b :: r) ≠ (v, r) := by
    intro x heq
    have hlen := congrArg List.length (Prod.ext_iff.1 heq).2
    simp only [List.length_cons] at hlen
    omega
  have hnot : digitIn 16 a = none → digitPair a b ≠ some v := by
    intro hnone
    rw [digitPair, hnone]
    simp
  -- a digit in the second place, behind what is skipped or a plus
  have hone : signOf ((a :: b :: r).dropWhile isSpace) = (false, b :: r) →
      (strtoulHex (a :: b :: r) = (v, r) ↔ digitIn 16 b = some v) := by
    intro hsign
    rcases strtoulHex_one hr hsign with ⟨hnone, hread⟩ | ⟨n, hsome, hread⟩
    · rw [hread, hnone]
      exact iff_of_false (hshort 0) (by simp)
    · rw [hread, hsome, if_neg Bool.false_ne_true]
      simp
  have hdigit : ∀ {c : Char}, (isSpace c = true ∨ c = '-' ∨ c = '+') → digitIn 16 c = none := by
    intro c hc
    cases hcase : digitIn 16 c with
    | none => rfl
    | some d =>
      obtain ⟨hspace, hminus, hplus⟩ := digit_plain hcase
      rcases hc with hc | hc | hc
      · rw [hspace] at hc
        cases hc
      · exact absurd hc hminus
      · exact absurd hc hplus
  by_cases ha : isSpace a = true
  · have hpadded : paddedDigit a b = digitIn 16 b := by rw [paddedDigit, ha, Bool.true_or, if_pos rfl]
    rw [or_iff_right (hnot (hdigit (.inl ha))), hpadded]
    have hskip : (a :: b :: r).dropWhile isSpace = (b :: r).dropWhile isSpace := by
      rw [List.dropWhile_cons, if_pos ha]
    by_cases hb : isSpace b = true ∨ b = '-' ∨ b = '+'
    · -- neither is a digit, and the end begins no number
      have hnone : (hexDigits (signOf ((a :: b :: r).dropWhile isSpace)).2).head?.bind (digitIn 16) = none := by
        rw [hskip, List.dropWhile_cons]
        rcases hb with hb | hb | hb
        · rw [if_pos hb]
          exact hr.no_number.1
        · subst hb
          exact hr.no_number.2
        · subst hb
          exact hr.no_number.2
      rw [strtoulHex_none rfl hnone, hdigit hb]
      exact iff_of_false (hshort 0) (by simp)
    · rw [not_or, not_or, Bool.not_eq_true] at hb
      refine hone ?_
      rw [hskip, List.dropWhile_cons, hb.1, if_neg Bool.false_ne_true]
      simp [signOf, hb.2.1, hb.2.2]
  · rw [Bool.not_eq_true] at ha
    have hskip : (a :: b :: r).dropWhile isSpace = a :: b :: r := by
      rw [List.dropWhile_cons, ha, if_neg Bool.false_ne_true]
    by_cases hplus : a = '+'
    · subst hplus
      rw [or_iff_right (hnot (hdigit (.inr (.inr rfl))))]
      exact hone (by rw [hskip]; rfl)
    · have hpadded : paddedDigit a b = if a = '-' ∧ b = '0' then some 0 else none := by simp [paddedDigit, ha, hplus]
      by_cases hminus : a = '-'
      · subst hminus
        rw [or_iff_right (hnot (hdigit (.inr (.inl rfl)))), hpadded]
        have hsign : signOf (('-' :: b :: r).dropWhile isSpace) = (true, b :: r) := by
          rw [hskip]
          rfl
        rcases strtoulHex_one hr hsign with ⟨hnone, hread⟩ | ⟨n, hsome, hread⟩
        · have hb : b ≠ '0' := by
            rintro rfl
            exact absurd hnone (by decide)
          rw [hread, if_neg fun h => hb h.2]
          exact iff_of_false (hshort 0) (by simp)
        · have hn : n < 16 := digitIn_lt hsome
          rw [hread, if_pos rfl]
          by_cases hb : b = '0'
          · subst hb
            obtain rfl : 0 = n := Option.some.inj hsome
            simp [ULONG_MAX]
          · have hpos : n ≠ 0 := fun h => hb (digitIn_zero (h ▸ hsome))
            rw [if_neg fun h => hb h.2]
            refine iff_of_false (fun h => ?_) (by simp)
            have hval : (ULONG_MAX + 1 - n) % (ULONG_MAX + 1) = v := (Prod.ext_iff.1 h).1
            rw [Nat.mod_eq_of_lt (by omega), ULONG_MAX] at hval
            omega
      · have hsign : signOf ((a :: b :: r).dropWhile isSpace) = (false, a :: b :: r) := by
          rw [hskip]
          simp [signOf, hminus, hplus]
        rw [strtoulHex_both hr hsign rfl, hpadded, if_neg fun h => hminus h.1]
        simp

end
end Libnl.Numeral
