/-
Tables that translate between numbers and names (`__type2str`, `__str2type`, `__flags2str` and `__str2flags` of
`lib/utils.c`).

A number that the table does not have is printed in hexadecimal, and read back as `strtoul` reads it. Flags are printed as
the names of their bits, with commas; what is left over has no name, but leaves a comma at the end.

- `str2type_name`, `str2type_number`: a name is found in the table, and what `%x` printed is not taken for one.
- `printed_flags`: the text of flags. `read_names`: reading it, piece by piece.
- `tables_translate`: both directions together.
-/
import Mathlib.Tactic
import Libnl.Core.Numeral
import Libnl.Core.CString
import Libnl.Message.Msg
import Libnl.Utils.Duration

namespace Libnl.Translate

open Bytes CString Numeral Msg Duration

/-! ## The code -/

/-- `struct trans_tbl`; the name is a C string -/
structure TransTbl where
  i : BitVec 64
  a : List Char
  oneByte : OneByte a

/-- `__type2str`; an `int` is compared with the value of 64 bits -/
def type2str (size : ℕ) (type : BitVec 32) (tbl : List TransTbl) (b : Mem) : Option Mem :=
  match tbl.find? fun e => e.i = type.signExtend 64 with
  | some e => snprintf size b 0 size (asBytes e.a)
  | none => snprintf size b 0 size (asBytes ('0' :: 'x' :: Nat.toDigits 16 type.toNat))

/-- `__str2type` -/
def str2type (buf : List Char) (tbl : List TransTbl) : BitVec 32 :=
  if buf = [] then BitVec.ofInt 32 (-NLE_INVAL)
  else
    match tbl.find? fun e => sameIgnoringCase e.a buf with
    | some e => e.i.truncate 32
    | none =>
      let (l, stop) := strtoul buf
      if l = ULONG_MAX ∨ stop ≠ [] then BitVec.ofInt 32 (-NLE_OBJ_NOTFOUND) else BitVec.ofNat 32 l

/-- `strncat(buf, text, len - strlen(buf) - 1)` -/
def append (size : ℕ) (text : List Char) (b : Mem) : Option Mem :=
  (strlen size b).bind fun l => strncat size b (asBytes text) (size - l - 1)

/-- `tmp &= ~v`, for an `int` and a value of 64 bits -/
def without (tmp : BitVec 32) (v : BitVec 64) : BitVec 32 := (tmp.signExtend 64 &&& ~~~v).truncate 32

/-- the loop of `__flags2str` -/
def flags2strFrom (size : ℕ) (flags : BitVec 32) : List TransTbl → BitVec 32 → Mem → Option Mem
  | [], _, b => some b
  | e :: tbl, tmp, b =>
    if e.i &&& tmp.signExtend 64 ≠ 0 then
      (append size e.a b).bind fun b =>
        if without tmp e.i &&& flags ≠ 0 then (append size [','] b).bind (flags2strFrom size flags tbl (without tmp e.i))
        else flags2strFrom size flags tbl (without tmp e.i) b
    else flags2strFrom size flags tbl tmp b

/-- `__flags2str` -/
def flags2str (size : ℕ) (flags : BitVec 32) (tbl : List TransTbl) (b : Mem) : Option Mem :=
  flags2strFrom size flags tbl flags (zero b 0 size)

/-- `flags |= v`, for an `int` and a value of 64 bits -/
def withBits (flags : BitVec 32) (v : BitVec 64) : BitVec 32 := (flags.signExtend 64 ||| v).truncate 32

/-- the inner loop of `__str2flags`: the text of this length at `p` -/
def addFlags (tbl : List TransTbl) (p : List Char) (len : ℕ) (flags : BitVec 32) : BitVec 32 :=
  tbl.foldl (fun flags e =>
    if len = e.a.length ∧ sameIgnoringCase (e.a.take len) (p.take len) = true then withBits flags e.i else flags) flags

/-- the outer loop, if it ends within `n` rounds -/
def str2flagsFrom (tbl : List TransTbl) : ℕ → List Char → BitVec 32 → Option (BitVec 32)
  | 0, _, _ => none
  | n + 1, p, flags =>
    let p := if p.head? = some ' ' then p.tail else p
    let flags := addFlags tbl p (p.takeWhile fun c => c ≠ ',').length flags
    match p.dropWhile fun c => c ≠ ',' with
    | [] => some flags
    | _ :: t => str2flagsFrom tbl n t flags

/-- `__str2flags` -/
def str2flags (buf : List Char) (tbl : List TransTbl) : Option (BitVec 32) := str2flagsFrom tbl (buf.length + 1) buf 0

/-! ## Tables -/

/-- `strtoul` reads all of it -/
def Readable (s : List Char) : Prop := (strtoul s).2 = []

/-- what a table has to be for its names to mean something -/
structure Lawful (tbl : List TransTbl) : Prop where
  values : tbl.Pairwise fun a b => a.i ≠ b.i
  names : tbl.Pairwise fun a b => sameIgnoringCase a.a b.a = false
  nonempty : ∀ e ∈ tbl, e.a ≠ []
  comma : ∀ e ∈ tbl, ',' ∉ e.a
  blank : ∀ e ∈ tbl, e.a.head? ≠ some ' '
  number : ∀ e ∈ tbl, ¬ Readable e.a

theorem sameIgnoringCase_iff {s t : List Char} : sameIgnoringCase s t = true ↔ s.map Char.toLower = t.map Char.toLower :=
  decide_eq_true_iff

/-- a name stands for one entry -/
theorem Lawful.same {tbl : List TransTbl} (h : Lawful tbl) {e e' : TransTbl} (he : e ∈ tbl) (he' : e' ∈ tbl)
    (hsame : sameIgnoringCase e.a e'.a = true) : e = e' := by
  by_contra hne
  have hsymm : Std.Symm fun a b : TransTbl => sameIgnoringCase a.a b.a = false :=
    ⟨fun a b hab => by rw [← hab, Bool.eq_iff_iff, sameIgnoringCase_iff, sameIgnoringCase_iff, eq_comm]⟩
  rw [h.names.forall he he' hne] at hsame
  exact absurd hsame Bool.false_ne_true

/-! ## Types -/

/-- letters are the same in either case, as digits and as the mark of a hexadecimal numeral -/
theorem toLower_cases (c : Char) : digitIn 16 c.toLower = digitIn 16 c ∧ (c.toLower = '0' → c = '0') ∧
    (c.toLower = 'x' → c = 'x' ∨ c = 'X') := by
  by_cases hlt : c.toNat < 128
  · have hall : ∀ n : Fin 128, digitIn 16 (Char.ofNat n).toLower = digitIn 16 (Char.ofNat n) ∧
        ((Char.ofNat n).toLower = '0' → Char.ofNat n = '0') ∧
        ((Char.ofNat n).toLower = 'x' → Char.ofNat n = 'x' ∨ Char.ofNat n = 'X') := by decide
    have hc := hall ⟨c.toNat, hlt⟩
    rwa [Char.ofNat_toNat] at hc
  · have hnot : ¬ (c.val ≥ 'A'.val ∧ c.val ≤ 'Z'.val) := by
      rintro ⟨-, hle⟩
      have hZ : c.toNat ≤ 90 := hle
      omega
    have hsame : c.toLower = c := dif_neg hnot
    rw [hsame]
    exact ⟨rfl, id, Or.inl⟩

/-- `strtoul` of a numeral with `0x`, in any case -/
theorem strtoul_hex {x d : Char} {ds : List Char} (hx : x = 'x' ∨ x = 'X') (hd : (digitIn 16 d).isSome = true) :
    strtoul ('0' :: x :: d :: ds) =
      (if ULONG_MAX < (scanDigits 16 0 (d :: ds)).1 then ULONG_MAX else (scanDigits 16 0 (d :: ds)).1,
        (scanDigits 16 0 (d :: ds)).2) := by
  have hsome : ((d :: ds).head?.bind (digitIn 16)).isNone = false := by
    rw [List.head?_cons, Option.bind_some, Option.isNone_eq_false_iff]
    exact hd
  have hskip : ('0' :: x :: d :: ds).dropWhile isSpace = '0' :: x :: d :: ds := rfl
  have hsign : signOf ('0' :: x :: d :: ds) = (false, '0' :: x :: d :: ds) := rfl
  have hbase : baseOf ('0' :: x :: d :: ds) = (16, d :: ds) := if_pos ⟨hx, hd⟩
  rw [strtoul]
  simp only [hskip, hsign, hbase, hsome, Bool.false_eq_true, if_false]

/-- nothing is left of digits -/
theorem scanDigits_all {ds : List Char} (hds : ∀ c ∈ ds, (digitIn 16 c).isSome = true) (acc : ℕ) :
    (scanDigits 16 acc ds).2 = [] := by
  induction ds generalizing acc with
  | nil => rfl
  | cons c cs ih =>
    obtain ⟨v, hv⟩ := Option.isSome_iff_exists.1 (hds c List.mem_cons_self)
    rw [scanDigits, hv]
    exact ih (fun c hc => hds c (List.mem_cons_of_mem _ hc)) _

/-- what `%x` prints behind `0x` -/
theorem hex_text (n : ℕ) : ∃ d ds, Nat.toDigits 16 n = d :: ds ∧ ∀ c ∈ d :: ds, (digitIn 16 c).isSome = true := by
  obtain ⟨d, ds, hprint⟩ := List.exists_cons_of_ne_nil (Nat.toDigits_ne_nil (b := 16) (n := n))
  refine ⟨d, ds, hprint, fun c hc => ?_⟩
  obtain ⟨v, hv, rfl⟩ := mem_toDigits_hex (hprint ▸ hc : c ∈ Nat.toDigits 16 n)
  rw [(digitChar_hex hv).1]
  rfl

/-- **Numbers are no names**: what is printed for a number could be read as one, however it is written. -/
theorem readable_of_same {s : List Char} {n : ℕ} (h : sameIgnoringCase s ('0' :: 'x' :: Nat.toDigits 16 n) = true) :
    Readable s := by
  obtain ⟨d, ds, hprint, hdigits⟩ := hex_text n
  rw [sameIgnoringCase_iff, hprint] at h
  have hlower : ∀ c ∈ d :: ds, (digitIn 16 c.toLower).isSome = true := by
    intro c hc
    rw [(toLower_cases c).1]
    exact hdigits c hc
  obtain ⟨z, s1, rfl, hz, h1⟩ := List.map_eq_cons_iff.1 h
  obtain ⟨x, s2, rfl, hx, h2⟩ := List.map_eq_cons_iff.1 h1
  obtain ⟨d', ds', rfl, hd', h3⟩ := List.map_eq_cons_iff.1 h2
  have hall : ∀ c ∈ d' :: ds', (digitIn 16 c).isSome = true := by
    intro c hc
    have hmem : c.toLower ∈ (d :: ds).map Char.toLower := by
      rw [List.map_cons, ← hd', ← h3, ← List.map_cons]
      exact List.mem_map_of_mem hc
    obtain ⟨c', hc', heq⟩ := List.mem_map.1 hmem
    rw [← (toLower_cases c).1, ← heq]
    exact hlower c' hc'
  rw [Readable, (toLower_cases z).2.1 hz, strtoul_hex ((toLower_cases x).2.2 hx) (hall d' List.mem_cons_self)]
  exact scanDigits_all hall 0

theorem strtoul_printed (n : ℕ) (hn : n ≤ ULONG_MAX) : strtoul ('0' :: 'x' :: Nat.toDigits 16 n) = (n, []) := by
  obtain ⟨d, ds, hprint, hdigits⟩ := hex_text n
  have hscan : scanDigits 16 0 (d :: ds) = (n, []) := by
    have hread := scanDigits_hex n []
    rwa [List.append_nil, hprint] at hread
  rw [hprint, strtoul_hex (Or.inl rfl) (hdigits d List.mem_cons_self), hscan]
  dsimp only
  rw [if_neg (not_lt.2 hn)]

/-- a number that was printed as such is read back -/
theorem str2type_number {tbl : List TransTbl} (h : Lawful tbl) (x : BitVec 32) :
    str2type ('0' :: 'x' :: Nat.toDigits 16 x.toNat) tbl = x := by
  have hfind : (tbl.find? fun e => sameIgnoringCase e.a ('0' :: 'x' :: Nat.toDigits 16 x.toNat)) = none := by
    apply List.find?_eq_none.2
    intro e he hsame
    exact h.number e he (readable_of_same hsame)
  have hlt := x.isLt
  have hmax : x.toNat < ULONG_MAX := lt_trans hlt (by decide)
  have hval : strtoul ('0' :: 'x' :: Nat.toDigits 16 x.toNat) = (x.toNat, []) := strtoul_printed _ hmax.le
  rw [str2type, if_neg (List.cons_ne_nil _ _), hfind]
  simp only [hval, ne_eq, not_true_eq_false, or_false]
  rw [if_neg hmax.ne, BitVec.ofNat_toNat, BitVec.setWidth_eq]

/-- a name is found in the table -/
theorem str2type_name {tbl : List TransTbl} (h : Lawful tbl) {e : TransTbl} (he : e ∈ tbl) :
    str2type e.a tbl = e.i.truncate 32 := by
  have hfind : (tbl.find? fun e' => sameIgnoringCase e'.a e.a) = some e := by
    cases hcase : tbl.find? fun e' => sameIgnoringCase e'.a e.a with
    | none => exact absurd (sameIgnoringCase_iff.2 rfl) (List.find?_eq_none.1 hcase e he)
    | some e' =>
      have hsame := List.find?_some hcase
      rw [h.same (List.mem_of_find?_eq_some hcase) he hsame]
  rw [str2type, if_neg (h.nonempty e he), hfind]

/-! ## Texts in a buffer -/

/-- a text that fits is printed whole -/
theorem snprintf_whole {size : ℕ} {s : List Char} (hs : OneByte s) (hroom : s.length < size) (b : Mem) :
    ∃ b', snprintf size b 0 size (asBytes s) = some b' ∧ textOf size b' = some s := by
  obtain ⟨b', hprint, hstr⟩ := snprintf_isString (Nat.zero_lt_of_lt hroom) b (zero_notMem_oneByte hs)
  rw [List.take_of_length_le (by rw [asBytes_length]; omega)] at hstr
  exact ⟨b', hprint, hstr.textOf fun c hc => (hs c hc).2⟩

theorem hex_oneByte (n : ℕ) : OneByte ('0' :: 'x' :: Nat.toDigits 16 n) := by
  have hall : ∀ v : Fin 16, 0 < (Nat.digitChar v).toNat ∧ (Nat.digitChar v).toNat < 256 := by decide
  intro c hc
  rcases List.mem_cons.1 hc with rfl | hc
  · decide
  · rcases List.mem_cons.1 hc with rfl | hc
    · decide
    · obtain ⟨v, hv, rfl⟩ := mem_toDigits_hex hc
      exact hall ⟨v, hv⟩

/-- a text that fits is appended whole -/
theorem append_whole {size : ℕ} {front text : List Char} {b : Mem} (h : IsString size b (asBytes front)) (ht : OneByte text)
    (hroom : front.length + text.length < size) :
    ∃ b', append size text b = some b' ∧ IsString size b' (asBytes (front ++ text)) := by
  obtain ⟨b', hcat, hstr⟩ := strncat_isString h (zero_notMem_oneByte ht)
  rw [asBytes_length] at hcat hstr
  rw [List.take_of_length_le (by rw [asBytes_length]; omega)] at hstr
  refine ⟨b', ?_, ?_⟩
  · rw [append, h.strlen, Option.bind_some, asBytes_length]
    exact hcat
  · rw [asBytes, List.map_append]
    exact hstr

/-! ## Integers of 32 bits and of 64 -/

theorem truncate_signExtend (x : BitVec 32) : (x.signExtend 64).truncate 32 = x := by
  apply BitVec.eq_of_getLsbD_eq
  intro i hi
  simp [BitVec.getElem_signExtend, hi, hi.trans (by decide : 32 < 64)]

theorem without_eq (tmp : BitVec 32) (v : BitVec 64) : without tmp v = tmp &&& ~~~v.truncate 32 := by
  apply BitVec.eq_of_getLsbD_eq
  intro i hi
  simp [without, BitVec.getElem_signExtend, hi, hi.trans (by decide : 32 < 64)]

theorem withBits_eq (flags : BitVec 32) (v : BitVec 64) : withBits flags v = flags ||| v.truncate 32 := by
  apply BitVec.eq_of_getLsbD_eq
  intro i hi
  simp [withBits, BitVec.getElem_signExtend, hi, hi.trans (by decide : 32 < 64)]

/-! ## Both directions -/

/-- **Types.** -/
theorem type_translates {tbl : List TransTbl} (h : Lawful tbl) (x : BitVec 32) {size : ℕ} (hnumber : 10 < size)
    (hnames : ∀ e ∈ tbl, e.a.length < size) (b : Mem) :
    ∃ b' s, type2str size x tbl b = some b' ∧ textOf size b' = some s ∧ str2type s tbl = x := by
  cases hfind : tbl.find? fun e => decide (e.i = x.signExtend 64) with
  | some e =>
    have he := List.mem_of_find?_eq_some hfind
    have hsome := List.find?_some hfind
    have hi : e.i = x.signExtend 64 := of_decide_eq_true hsome
    obtain ⟨b', hprint, htext⟩ := snprintf_whole e.oneByte (hnames e he) b
    refine ⟨b', e.a, ?_, htext, ?_⟩
    · rw [type2str, hfind]
      exact hprint
    · rw [str2type_name h he, hi, truncate_signExtend]
  | none =>
    have hlen : (Nat.toDigits 16 x.toNat).length ≤ 8 := Nat.toDigits_length 16 x.toNat 8 (by decide) x.isLt
    have hroom : ('0' :: 'x' :: Nat.toDigits 16 x.toNat).length < size := by
      simp only [List.length_cons]
      omega
    obtain ⟨b', hprint, htext⟩ := snprintf_whole (hex_oneByte x.toNat) hroom b
    refine ⟨b', _, ?_, htext, str2type_number h x⟩
    rw [type2str, hfind]
    exact hprint

/-! ## Flags -/

/-- one bit of the 64 -/
def SingleBit (e : TransTbl) : Prop := ∃ k < 64, e.i = BitVec.twoPow 64 k

/-- the bits of a table, as far as an `int` has them -/
def tableBits (tbl : List TransTbl) : BitVec 32 := tbl.foldr (fun e bits => e.i.truncate 32 ||| bits) 0

/-- the text that `__flags2str` makes from the rest of a table -/
def flagsText (flags : BitVec 32) : List TransTbl → BitVec 32 → List Char
  | [], _ => []
  | e :: tbl, tmp =>
    if e.i &&& tmp.signExtend 64 ≠ 0 then
      e.a ++ ((if without tmp e.i &&& flags ≠ 0 then [','] else []) ++ flagsText flags tbl (without tmp e.i))
    else flagsText flags tbl tmp

/-- room for all names of a table with their commas -/
def textRoom (tbl : List TransTbl) : ℕ := (tbl.map fun e => e.a.length + 1).sum

theorem flagsText_oneByte (flags : BitVec 32) (tbl : List TransTbl) (tmp : BitVec 32) : OneByte (flagsText flags tbl tmp) := by
  induction tbl generalizing tmp with
  | nil => exact fun c hc => absurd hc List.not_mem_nil
  | cons e tbl ih =>
    have hcomma : OneByte [','] := by simp [OneByte]
    rw [flagsText]
    split_ifs with hbit hleft
    · exact oneByte_append e.oneByte (oneByte_append hcomma (ih _))
    · exact oneByte_append e.oneByte (ih _)
    · exact ih _

/-- **The text of flags**, in a buffer with room -/
theorem printed_flags {size : ℕ} (flags : BitVec 32) {tbl : List TransTbl} (tmp : BitVec 32) {b : Mem} {front : List Char}
    (h : IsString size b (asBytes front)) (hroom : front.length + textRoom tbl < size) :
    ∃ b', flags2strFrom size flags tbl tmp b = some b' ∧
      IsString size b' (asBytes (front ++ flagsText flags tbl tmp)) := by
  induction tbl generalizing tmp b front with
  | nil => exact ⟨b, rfl, by rwa [flagsText, List.append_nil]⟩
  | cons e tbl ih =>
    rw [textRoom, List.map_cons, List.sum_cons, ← textRoom] at hroom
    rw [flags2strFrom, flagsText]
    by_cases hbit : e.i &&& tmp.signExtend 64 ≠ 0
    · obtain ⟨b1, happend, h1⟩ := append_whole h e.oneByte (by omega)
      have hlen : (front ++ e.a).length = front.length + e.a.length := List.length_append
      rw [if_pos hbit, if_pos hbit, happend, Option.bind_some]
      by_cases hleft : without tmp e.i &&& flags ≠ 0
      · have hone : OneByte [','] := by simp [OneByte]
        obtain ⟨b2, hcomma, h2⟩ := append_whole h1 hone
          (by rw [hlen, List.length_singleton]; omega)
        have hlen2 : (front ++ e.a ++ [',']).length = front.length + e.a.length + 1 := by
          rw [List.length_append, hlen, List.length_singleton]
        obtain ⟨b', hrest, h'⟩ := ih (without tmp e.i) h2 (by omega)
        refine ⟨b', ?_, ?_⟩
        · rw [if_pos hleft, hcomma, Option.bind_some]
          exact hrest
        · rw [if_pos hleft, ← List.append_assoc, ← List.append_assoc]
          exact h'
      · obtain ⟨b', hrest, h'⟩ := ih (without tmp e.i) h1 (by omega)
        refine ⟨b', ?_, ?_⟩
        · rw [if_neg hleft]
          exact hrest
        · rw [if_neg hleft, List.nil_append, ← List.append_assoc]
          exact h'
    · rw [if_neg hbit, if_neg hbit]
      exact ih _ h (by omega)

/-! ## Reading names -/

/-- entries of a table that all say the same -/
theorem fold_withBits {tbl : List TransTbl} (P : TransTbl → Bool) {v : BitVec 32}
    (hv : ∀ e ∈ tbl, P e = true → e.i.truncate 32 = v) (flags : BitVec 32) :
    tbl.foldl (fun flags e => if P e = true then withBits flags e.i else flags) flags =
      if tbl.any P then flags ||| v else flags := by
  induction tbl generalizing flags with
  | nil => rfl
  | cons e tbl ih =>
    rw [List.foldl_cons, ih fun e' he' => hv e' (List.mem_cons_of_mem _ he'), List.any_cons]
    cases hP : P e with
    | false => simp
    | true =>
      have hbits : withBits flags e.i = flags ||| v := by rw [withBits_eq, hv e List.mem_cons_self hP]
      cases hany : tbl.any P with
      | false => simp [hbits]
      | true => simp [hbits, BitVec.or_assoc]

/-- the entry is the one that a piece of this length names -/
def names (p : List Char) (len : ℕ) (e : TransTbl) : Bool :=
  decide (len = e.a.length) && sameIgnoringCase (e.a.take len) (p.take len)

theorem addFlags_eq (tbl : List TransTbl) (p : List Char) (len : ℕ) (flags : BitVec 32) : addFlags tbl p len flags =
    tbl.foldl (fun flags e => if names p len e = true then withBits flags e.i else flags) flags := by
  simp only [addFlags, names, Bool.and_eq_true, decide_eq_true_eq]

/-- a name adds the bits of its entry -/
theorem addFlags_name {tbl : List TransTbl} (h : Lawful tbl) {e : TransTbl} (he : e ∈ tbl) (rest : List Char)
    (flags : BitVec 32) : addFlags tbl (e.a ++ rest) e.a.length flags = flags ||| e.i.truncate 32 := by
  have hnames : ∀ e' : TransTbl, names (e.a ++ rest) e.a.length e' = true ↔
      e.a.length = e'.a.length ∧ sameIgnoringCase (e'.a.take e.a.length) e.a = true := by
    intro e'
    rw [names, Bool.and_eq_true, decide_eq_true_eq, List.take_left]
  have hone : ∀ e' ∈ tbl, names (e.a ++ rest) e.a.length e' = true → e'.i.truncate 32 = e.i.truncate 32 := by
    intro e' he' hname
    obtain ⟨hlen, hsame⟩ := (hnames e').1 hname
    rw [hlen, List.take_length] at hsame
    rw [h.same he' he hsame]
  have hany : tbl.any (names (e.a ++ rest) e.a.length) = true := by
    refine List.any_eq_true.2 ⟨e, he, (hnames e).2 ⟨rfl, ?_⟩⟩
    rw [List.take_length]
    exact sameIgnoringCase_iff.2 rfl
  rw [addFlags_eq, fold_withBits _ hone, if_pos hany]

/-- an empty piece adds none -/
theorem addFlags_nothing {tbl : List TransTbl} (h : Lawful tbl) (p : List Char) (flags : BitVec 32) :
    addFlags tbl p 0 flags = flags := by
  have hnone : ∀ e ∈ tbl, names p 0 e = true → e.i.truncate 32 = 0 := by
    intro e he hname
    rw [names, Bool.and_eq_true, decide_eq_true_eq] at hname
    exact absurd (List.length_eq_zero_iff.1 hname.1.symm) (h.nonempty e he)
  rw [addFlags_eq, fold_withBits _ hnone]
  simp

section

variable {tbl : List TransTbl} (h : Lawful tbl)

include h

/-- a name with a comma behind it, -/
theorem read_name_comma {e : TransTbl} (he : e ∈ tbl) (n : ℕ) (rest : List Char) (flags : BitVec 32) :
    str2flagsFrom tbl (n + 1) (e.a ++ ',' :: rest) flags = str2flagsFrom tbl n rest (flags ||| e.i.truncate 32) := by
  have hplain : ∀ c ∈ e.a, decide (c ≠ ',') = true := fun c hc => decide_eq_true fun heq => h.comma e he (heq ▸ hc)
  have hblank : (e.a ++ ',' :: rest).head? ≠ some ' ' := by
    obtain ⟨c, cs, hc⟩ := List.exists_cons_of_ne_nil (h.nonempty e he)
    have hhead := h.blank e he
    rw [hc] at hhead ⊢
    exact hhead
  have htake : (e.a ++ ',' :: rest).takeWhile (fun c => decide (c ≠ ',')) = e.a := by
    rw [List.takeWhile_append_of_pos hplain]
    simp
  have hdrop : (e.a ++ ',' :: rest).dropWhile (fun c => decide (c ≠ ',')) = ',' :: rest := by
    rw [List.dropWhile_append_of_pos hplain]
    simp
  rw [str2flagsFrom]
  simp only [if_neg hblank, htake, hdrop, addFlags_name h he]

/-- one at the end -/
theorem read_name_end {e : TransTbl} (he : e ∈ tbl) (n : ℕ) (flags : BitVec 32) :
    str2flagsFrom tbl (n + 1) e.a flags = some (flags ||| e.i.truncate 32) := by
  have hplain : ∀ c ∈ e.a, decide (c ≠ ',') = true := fun c hc => decide_eq_true fun heq => h.comma e he (heq ▸ hc)
  have hname := addFlags_name h he [] flags
  rw [List.append_nil] at hname
  rw [str2flagsFrom]
  simp only [if_neg (h.blank e he), List.takeWhile_eq_self_iff.2 hplain, List.dropWhile_eq_nil_iff.2 hplain, hname]

/-- and nothing -/
theorem read_nothing (n : ℕ) (flags : BitVec 32) : str2flagsFrom tbl (n + 1) [] flags = some flags := by
  have hnone := addFlags_nothing h [] flags
  rw [str2flagsFrom]
  simpa using hnone

end

/-! ## Flags through their text -/

/-- what is left of the flags when the rest of a table is still to come -/
structure Left (flags : BitVec 32) (tbl : List TransTbl) (tmp : BitVec 32) : Prop where
  part : tmp &&& flags = tmp
  whole : ∀ e ∈ tbl, e.i.truncate 32 &&& tmp = e.i.truncate 32 &&& flags

theorem Left.tail {flags tmp : BitVec 32} {e : TransTbl} {tbl : List TransTbl} (h : Left flags (e :: tbl) tmp) :
    Left flags tbl tmp := ⟨h.part, fun e' he' => h.whole e' (List.mem_cons_of_mem _ he')⟩

/-- two single bits -/
theorem twoPow_disjoint {k l : ℕ} (hkl : k ≠ l) :
    (BitVec.twoPow 64 k).truncate 32 &&& ~~~(BitVec.twoPow 64 l).truncate 32 = (BitVec.twoPow 64 k).truncate 32 := by
  apply BitVec.eq_of_getLsbD_eq
  intro i hi
  simp only [BitVec.truncate_eq_setWidth, BitVec.getLsbD_and, BitVec.getLsbD_not, BitVec.getLsbD_setWidth,
    BitVec.getLsbD_twoPow, hi, decide_true, Bool.true_and]
  by_cases hik : k = i
  · have hil : ¬ l = i := fun hil => hkl (hik.trans hil.symm)
    simp [hil]
  · simp [hik]

theorem Left.without {flags tmp : BitVec 32} {e : TransTbl} {tbl : List TransTbl} (h : Left flags (e :: tbl) tmp)
    (hbits : ∀ e' ∈ e :: tbl, SingleBit e') (hne : ∀ e' ∈ tbl, e.i ≠ e'.i) : Left flags tbl (without tmp e.i) := by
  obtain ⟨l, -, hl⟩ := hbits e List.mem_cons_self
  rw [without_eq]
  refine ⟨?_, fun e' he' => ?_⟩
  · rw [BitVec.and_assoc, BitVec.and_comm _ flags, ← BitVec.and_assoc, h.part]
  · obtain ⟨k, -, hk⟩ := hbits e' (List.mem_cons_of_mem _ he')
    have hkl : k ≠ l := by
      rintro rfl
      exact hne e' he' (hl.trans hk.symm)
    rw [← h.whole e' (List.mem_cons_of_mem _ he'), BitVec.and_comm tmp, ← BitVec.and_assoc, hl, hk, twoPow_disjoint hkl]

/-- an entry is printed if its bit is among the flags; where it has no bit in an `int`, that does not matter -/
theorem Left.bits {flags tmp : BitVec 32} {e : TransTbl} {tbl : List TransTbl} (h : Left flags (e :: tbl) tmp)
    (hbit : SingleBit e) : flags &&& e.i.truncate 32 = if e.i &&& tmp.signExtend 64 ≠ 0 then e.i.truncate 32 else 0#32 := by
  obtain ⟨k, hk, hi⟩ := hbit
  rw [BitVec.and_comm, ← h.whole e List.mem_cons_self, hi]
  by_cases hlow : k < 32
  · have htrunc : (BitVec.twoPow 64 k).truncate 32 = BitVec.twoPow 32 k := by
      apply BitVec.eq_of_getLsbD_eq
      intro i hi
      simp [BitVec.getElem_twoPow, hi, hi.trans (by decide : 32 < 64)]
    have hsame : (tmp.signExtend 64).getLsbD k = tmp.getLsbD k := by
      simp [BitVec.getElem_signExtend, hk, hlow]
    have hne : BitVec.twoPow 64 k ≠ 0#64 := by
      intro hzero
      have hget := congrArg (fun v => v.getLsbD k) hzero
      simp [hk] at hget
    rw [htrunc, BitVec.twoPow_and, BitVec.twoPow_and, hsame]
    cases tmp.getLsbD k with
    | false => simp
    | true => simp [hne]
  · have hzero : (BitVec.twoPow 64 k).truncate 32 = 0 := by
      apply BitVec.eq_of_getLsbD_eq
      intro i hi
      have hne : ¬ k = i := by omega
      simp [BitVec.getLsbD_twoPow, hne]
    rw [hzero]
    simp

theorem flagsText_zero (flags : BitVec 32) (tbl : List TransTbl) : flagsText flags tbl 0 = [] := by
  induction tbl with
  | nil => rfl
  | cons e tbl ih =>
    have hbit : ¬ (e.i &&& (0 : BitVec 32).signExtend 64 ≠ 0) := by simp
    rw [flagsText, if_neg hbit, ih]

/-- **Reading the text of flags**, part of which was read before. -/
theorem read_names {all : List TransTbl} (h : Lawful all) (flags : BitVec 32) {tbl : List TransTbl} (hsub : ∀ e ∈ tbl, e ∈ all)
    (hne : tbl.Pairwise fun a b => a.i ≠ b.i) (hbits : ∀ e ∈ tbl, SingleBit e) {tmp : BitVec 32} (hleft : Left flags tbl tmp)
    {n : ℕ} (hn : (flagsText flags tbl tmp).length < n) (acc : BitVec 32) :
    str2flagsFrom all n (flagsText flags tbl tmp) acc = some (acc ||| (flags &&& tableBits tbl)) := by
  induction tbl generalizing tmp n acc with
  | nil =>
    obtain ⟨n, rfl⟩ : ∃ k, n = k + 1 := ⟨n - 1, by omega⟩
    rw [flagsText, read_nothing h, tableBits]
    simp
  | cons e tbl ih =>
    obtain ⟨n, rfl⟩ : ∃ k, n = k + 1 := ⟨n - 1, by omega⟩
    obtain ⟨hhead, htail⟩ := List.pairwise_cons.1 hne
    have hmem : e ∈ all := hsub e List.mem_cons_self
    have ih' := fun {tmp : BitVec 32} (hleft : Left flags tbl tmp) {n : ℕ} (hn : (flagsText flags tbl tmp).length < n) acc =>
      ih (fun e' he' => hsub e' (List.mem_cons_of_mem _ he')) htail (fun e' he' => hbits e' (List.mem_cons_of_mem _ he'))
        hleft hn acc
    have hsplit : flags &&& tableBits (e :: tbl) = flags &&& e.i.truncate 32 ||| flags &&& tableBits tbl := by
      rw [tableBits, List.foldr_cons, ← tableBits, BitVec.and_or_distrib_left]
    rw [hsplit, hleft.bits (hbits e List.mem_cons_self)]
    by_cases hbit : e.i &&& tmp.signExtend 64 ≠ 0
    · have hrest := hleft.without hbits hhead
      rw [flagsText, if_pos hbit] at hn ⊢
      rw [if_pos hbit, ← BitVec.or_assoc]
      by_cases hmore : without tmp e.i &&& flags ≠ 0
      · rw [if_pos hmore, List.singleton_append] at hn ⊢
        rw [read_name_comma h hmem]
        apply ih' hrest
        simp only [List.length_append, List.length_cons] at hn
        omega
      · -- nothing is left, so that no entry behind this one was printed
        have hzero : without tmp e.i = 0 := hrest.part.symm.trans (not_not.1 hmore)
        rw [hzero] at hrest
        have hnone := ih' hrest (n := 1) (by rw [flagsText_zero]; decide) (acc ||| e.i.truncate 32)
        rw [flagsText_zero, read_nothing h] at hnone
        rw [if_neg hmore, hzero, flagsText_zero, List.append_nil, List.append_nil, read_name_end h hmem, hnone]
    · rw [flagsText, if_neg hbit] at hn ⊢
      rw [if_neg hbit, BitVec.zero_or]
      exact ih' hleft.tail hn acc

/-- **Flags.** -/
theorem flags_translate {tbl : List TransTbl} (h : Lawful tbl) (hbits : ∀ e ∈ tbl, SingleBit e) (f : BitVec 32) {size : ℕ}
    (hroom : textRoom tbl < size) (b : Mem) :
    ∃ b' s, flags2str size f tbl b = some b' ∧ textOf size b' = some s ∧ str2flags s tbl = some (f &&& tableBits tbl) := by
  have hempty : IsString size (zero b 0 size) (asBytes []) := by
    refine ⟨Nat.zero_lt_of_lt hroom, ?_, List.not_mem_nil⟩
    intro i hi
    have hi0 : i = 0 := Nat.lt_one_iff.1 hi
    subst hi0
    have hget := seg_write b 0 (List.replicate size 0) 0 (by rw [List.length_replicate]; exact Nat.zero_lt_of_lt hroom)
    rw [List.getElem_replicate] at hget
    exact hget
  obtain ⟨b', hprint, hstr⟩ := printed_flags f f hempty (by rw [List.length_nil, Nat.zero_add]; exact hroom)
  rw [List.nil_append] at hstr
  have hleft : Left f tbl f := ⟨BitVec.and_self, fun _ _ => rfl⟩
  have hread := read_names h f (fun _ he => he) h.values hbits hleft (Nat.lt_succ_self _) 0
  have hzero : (0 : BitVec 32) ||| (f &&& tableBits tbl) = f &&& tableBits tbl := BitVec.zero_or
  rw [hzero] at hread
  exact ⟨b', _, hprint, hstr.textOf fun c hc => (flagsText_oneByte f tbl f c hc).2, hread⟩

/-- **Translation tables.** A number of 32 bits that was made a text with a table is that number again, whether the table has
it or not; and if the values of the table are single bits, flags come back as far as the table has their bits. -/
theorem tables_translate {tbl : List TransTbl} (h : Lawful tbl) :
    (∀ size, 10 < size → (∀ e ∈ tbl, e.a.length < size) → ∀ (x : BitVec 32) (b : Mem),
      ∃ b' s, type2str size x tbl b = some b' ∧ textOf size b' = some s ∧ str2type s tbl = x) ∧
    ((∀ e ∈ tbl, SingleBit e) → ∀ size, textRoom tbl < size → ∀ (f : BitVec 32) (b : Mem),
      ∃ b' s, flags2str size f tbl b = some b' ∧ textOf size b' = some s ∧ str2flags s tbl = some (f &&& tableBits tbl)) :=
  ⟨fun _ hnumber hnames x b => type_translates h x hnumber hnames b,
    fun hbits _ hroom f b => flags_translate h hbits f hroom b⟩

/-- two flags of which one name begins with the other -/
def sampleTable : List TransTbl :=
  [⟨1, "up".toList, by simp [OneByte]⟩, ⟨2, "upper".toList, by simp [OneByte]⟩]

theorem sampleTable_lawful : Lawful sampleTable := by
  refine ⟨?_, ?_, ?_, ?_, ?_, ?_⟩
  all_goals simp only [sampleTable, List.pairwise_cons, List.mem_cons, List.not_mem_nil, or_false, forall_eq_or_imp,
    forall_eq, false_imp_iff, implies_true, List.Pairwise.nil, and_true, Readable]
  all_goals decide

theorem sampleTable_single : ∀ e ∈ sampleTable, SingleBit e := by
  simp only [sampleTable, List.mem_cons, List.not_mem_nil, or_false, forall_eq_or_imp, forall_eq]
  exact ⟨⟨0, by decide, rfl⟩, ⟨1, by decide, rfl⟩⟩

/-- with a bit that has no name -/
theorem tables_translate_sample :
    (∃ b' s, type2str 16 5 sampleTable (fun _ => 0) = some b' ∧ textOf 16 b' = some s ∧ str2type s sampleTable = 5) ∧
    (∃ b' s, flags2str 16 7 sampleTable (fun _ => 0) = some b' ∧ textOf 16 b' = some s ∧ str2flags s sampleTable = some 3) := by
  obtain ⟨htypes, hflags⟩ := tables_translate sampleTable_lawful
  refine ⟨htypes 16 (by decide) ?_ 5 _, hflags sampleTable_single 16 (by decide) 7 _⟩
  simp [sampleTable]

end Libnl.Translate
