/-
Durations as text (`nl_str2msec` and `nl_msec2str` in `lib/utils.c`).

A duration is printed as days, hours, minutes, seconds and milliseconds, those that are not zero, each with its unit. The
parser adds numbers; a unit is an abbreviation of one of four words, and a number without a unit is one of milliseconds. The
unit `msec` that is printed is no such abbreviation.

The texts are appended to the buffer by what `snprintf` returns.

- `nlMsec2str_isString`, `nlMsec2str_none`: what is in the buffer, and when something is written outside of it.
- `msec2str_inside_iff`: nothing is, exactly if the texts fit.
- `str2msec_text`: what the parser makes of the text.
- `msec_round_trip_iff`: the durations that come back are those of whole seconds that are not zero.
- `one_byte_overrun`, `one_msec_refused`: two that go wrong.
-/
import Mathlib.Tactic
import Mathlib.Data.List.TakeWhile
import Libnl.Core.AppendText
import Libnl.Core.Inet
import Libnl.Core.Numeral
import Libnl.Message.Msg

namespace Libnl.Duration

open Bytes CString AppendText Numeral Msg
open Inet (zero_notMem_asBytes)

/-! ## Printing -/

def units : List (List Char) := ["d".toList, "h".toList, "m".toList, "s".toList, "msec".toList]

/-- `_SPLIT`: what goes to the unit, and what stays -/
def splitOff (unit msec : ℕ) : ℕ × ℕ := (msec / unit, if msec / unit ≠ 0 then msec % unit else msec)

def split (msec : ℕ) : List ℕ :=
  let days := splitOff 86400000 msec
  let hours := splitOff 3600000 days.2
  let minutes := splitOff 60000 hours.2
  let seconds := splitOff 1000 minutes.2
  [days.1, hours.1, minutes.1, seconds.1, seconds.2]

/-- a number and its unit, behind a blank if it is not the first -/
def termText (first : Bool) (v : ℕ) (unit : List Char) : List Char :=
  (if first then [] else [' ']) ++ (Nat.toDigits 10 v ++ unit)

/-- the loop, with the position in the buffer and the room behind it -/
def printLoop (size : ℕ) : List (ℕ × List Char) → Mem → ℕ → ℕ → Option Mem
  | [], b, _, _ => some b
  | (v, unit) :: terms, b, p, len =>
    if len = 0 then some b
    else if v = 0 then printLoop size terms b p len
    else
      let text := asBytes (termText (decide (p = 0)) v unit)
      (snprintf size b p len text).bind fun b =>
        printLoop size terms b (p + text.length) ((len + 2 ^ 64 - text.length) % 2 ^ 64)

/-- `nl_msec2str` into a buffer of `size` bytes -/
def nlMsec2str (size : ℕ) (msec : BitVec 64) (b : Mem) : Option Mem :=
  if msec = 0 then snprintf size b 0 size (asBytes "0msec".toList)
  else printLoop size ((split msec.toNat).zip units) b 0 size

/-! ## Parsing -/

/-- `strcspn(p, " \t")` -/
def unitLength (p : List Char) : ℕ := (p.takeWhile fun c => decide (c ≠ ' ' ∧ c ≠ '\t')).length

/-- `strncasecmp` says that there is no difference in the first `plen` characters -/
def abbreviates (p : List Char) (plen : ℕ) (word : List Char) : Bool := sameIgnoringCase (p.take plen) (word.take plen)

/-- the milliseconds of a unit -/
def unitScale (p : List Char) (plen : ℕ) : Option (BitVec 64) :=
  if plen = 0 then some 1
  else if abbreviates p plen "sec".toList then some 1000
  else if abbreviates p plen "min".toList then some (1000 * 60)
  else if abbreviates p plen "hour".toList then some (1000 * 60 * 60)
  else if abbreviates p plen "day".toList then some (1000 * 60 * 60 * 24)
  else none

/-- the loop of `nl_str2msec` -/
def parseLoop (total : BitVec 64) (str : List Char) : Except ℤ (BitVec 64) :=
  let l := BitVec.ofNat 64 (strtoul str).1
  let p := (strtoul str).2
  if _h : p = str then .error (-NLE_INVAL)
  else if p = [] then .ok (total + l)
  else
    match unitScale p (unitLength p) with
    | none => .error (-NLE_INVAL)
    | some scale =>
      if p.drop (unitLength p) = [] then .ok (total + l * scale)
      else parseLoop (total + l * scale) (p.drop (unitLength p))
termination_by str.length
decreasing_by
  have hsuffix := strtoul_suffix str
  have hle := hsuffix.length_le
  have hne : (strtoul str).2.length ≠ str.length := fun heq => _h (hsuffix.eq_of_length heq)
  rw [List.length_drop]
  omega

def nlStr2msec (str : List Char) : Except ℤ (BitVec 64) := parseLoop 0 str

/-! ## What is printed -/

theorem splitOff_eq (unit msec : ℕ) : splitOff unit msec = (msec / unit, msec % unit) := by
  rw [splitOff]
  by_cases hzero : msec / unit = 0
  · have hmod := Nat.div_add_mod msec unit
    rw [hzero, Nat.mul_zero, Nat.zero_add] at hmod
    rw [if_neg (not_not.2 hzero), hmod]
  · rw [if_pos hzero]

/-- the texts of the terms that are not zero -/
def termTexts : Bool → List (ℕ × List Char) → List (List Char)
  | _, [] => []
  | first, (v, unit) :: terms =>
    if v = 0 then termTexts first terms else termText first v unit :: termTexts false terms

def terms (msec : BitVec 64) : List (ℕ × List Char) := (split msec.toNat).zip units

/-- the texts that are printed one after the other -/
def durationTexts (msec : BitVec 64) : List (List Char) :=
  if msec = 0 then ["0msec".toList] else termTexts true (terms msec)

theorem termText_ne (first : Bool) (v : ℕ) (unit : List Char) : termText first v unit ≠ [] := by
  intro hnil
  have hdigits := (List.append_eq_nil_iff.1 (List.append_eq_nil_iff.1 hnil).2).1
  exact Nat.toDigits_ne_nil hdigits

/-- **The loop** appends the texts. -/
theorem printLoop_eq (size : ℕ) (ts : List (ℕ × List Char)) (b : Mem) (p len : ℕ) :
    printLoop size ts b p len = appendAll size ((termTexts (decide (p = 0)) ts).map asBytes) b p len := by
  induction ts generalizing b p len with
  | nil => rfl
  | cons t ts ih =>
    obtain ⟨v, unit⟩ := t
    rw [printLoop, termTexts]
    by_cases hlen : len = 0
    · rw [if_pos hlen, hlen]
      cases (if v = 0 then termTexts (decide (p = 0)) ts
          else termText (decide (p = 0)) v unit :: termTexts false ts).map asBytes with
      | nil => rfl
      | cons t ts => rfl
    · rw [if_neg hlen]
      by_cases hv : v = 0
      · rw [if_pos hv, if_pos hv]
        exact ih b p len
      · have hpos := List.length_pos_iff.2 (termText_ne (decide (p = 0)) v unit)
        have hlater : decide (p + (asBytes (termText (decide (p = 0)) v unit)).length = 0) = false := by
          rw [asBytes_length]
          exact decide_eq_false (by omega)
        rw [if_neg hv, if_neg hv, List.map_cons, appendAll, if_neg hlen]
        dsimp only
        refine congrArg _ (funext fun b => ?_)
        rw [ih, hlater]

/-- every unit is one of these -/
def KnownUnits (ts : List (ℕ × List Char)) : Prop := ∀ t ∈ ts, t.1 < 2 ^ 64 ∧ t.2 ∈ units

theorem terms_eq (msec : BitVec 64) : terms msec =
    [(msec.toNat / 86400000, "d".toList), (msec.toNat % 86400000 / 3600000, "h".toList),
      (msec.toNat % 86400000 % 3600000 / 60000, "m".toList),
      (msec.toNat % 86400000 % 3600000 % 60000 / 1000, "s".toList),
      (msec.toNat % 86400000 % 3600000 % 60000 % 1000, "msec".toList)] := by
  rw [terms, split]
  simp only [splitOff_eq]
  rfl

theorem terms_known (msec : BitVec 64) : KnownUnits (terms msec) := by
  have hlt := msec.isLt
  intro t ht
  rw [terms_eq] at ht
  simp only [List.mem_cons, List.not_mem_nil, or_false] at ht
  rcases ht with rfl | rfl | rfl | rfl | rfl
  · exact ⟨by dsimp only; omega, (by decide : "d".toList ∈ units)⟩
  · exact ⟨by dsimp only; omega, (by decide : "h".toList ∈ units)⟩
  · exact ⟨by dsimp only; omega, (by decide : "m".toList ∈ units)⟩
  · exact ⟨by dsimp only; omega, (by decide : "s".toList ∈ units)⟩
  · exact ⟨by dsimp only; omega, (by decide : "msec".toList ∈ units)⟩

/-- characters of one byte that are not its zero -/
def OneByte (s : List Char) : Prop := ∀ c ∈ s, 0 < c.toNat ∧ c.toNat < 256

theorem oneByte_append {s t : List Char} (hs : OneByte s) (ht : OneByte t) : OneByte (s ++ t) := by
  intro c hc
  rcases List.mem_append.1 hc with hc | hc
  · exact hs c hc
  · exact ht c hc

theorem oneByte_digits (n : ℕ) : OneByte (Nat.toDigits 10 n) := by
  intro c hc
  have hdigit := Nat.isDigit_of_mem_toDigits (by decide) (by decide) hc
  simp only [Char.isDigit, Bool.and_eq_true, decide_eq_true_eq] at hdigit
  have hge : 48 ≤ c.toNat := hdigit.1
  have hle : c.toNat ≤ 57 := hdigit.2
  omega

theorem zero_notMem_oneByte {s : List Char} (hs : OneByte s) : 0 ∉ asBytes s := by
  refine zero_notMem_asBytes fun c hc => ?_
  have hbyte := hs c hc
  omega

theorem oneByte_unit {unit : List Char} (h : unit ∈ units) : OneByte unit := by
  simp only [units, List.mem_cons, List.not_mem_nil, or_false] at h
  rcases h with rfl | rfl | rfl | rfl | rfl
  all_goals simp [OneByte]

theorem termText_oneByte (first : Bool) (v : ℕ) {unit : List Char} (h : unit ∈ units) : OneByte (termText first v unit) := by
  refine oneByte_append ?_ (oneByte_append (oneByte_digits v) (oneByte_unit h))
  cases first with
  | false => simp [OneByte]
  | true => simp [OneByte]

/-- **Every text** of a duration is short, and has characters of one byte. -/
theorem termTexts_short {ts : List (ℕ × List Char)} (h : KnownUnits ts) (first : Bool) :
    ∀ t ∈ termTexts first ts, OneByte t ∧ t.length ≤ 25 := by
  induction ts generalizing first with
  | nil => simp [termTexts]
  | cons t ts ih =>
    obtain ⟨v, unit⟩ := t
    obtain ⟨hv, hunit⟩ := h (v, unit) List.mem_cons_self
    have hrest : KnownUnits ts := fun t ht => h t (List.mem_cons_of_mem _ ht)
    intro t ht
    rw [termTexts] at ht
    split_ifs at ht with hzero
    · exact ih hrest first t ht
    · rcases List.mem_cons.1 ht with rfl | ht
      · refine ⟨termText_oneByte first v hunit, ?_⟩
        have hdigits : (Nat.toDigits 10 v).length ≤ 20 := Nat.toDigits_length 10 v 20 (by decide) (by dsimp only at hv; omega)
        have hunits : unit.length ≤ 4 := by
          have hall : ∀ u ∈ units, u.length ≤ 4 := by decide
          exact hall unit hunit
        have hblank : (if first then [] else [' '] : List Char).length ≤ 1 := by
          cases first with
          | false => exact le_refl 1
          | true => exact Nat.zero_le 1
        rw [termText, List.length_append, List.length_append]
        omega
      · exact ih hrest false t ht

theorem durationTexts_short (msec : BitVec 64) : ∀ t ∈ durationTexts msec, OneByte t ∧ t.length ≤ 25 := by
  rw [durationTexts]
  split_ifs
  · simp [OneByte]
  · exact termTexts_short (terms_known msec) true

/-- something is printed -/
theorem durationTexts_ne (msec : BitVec 64) : durationTexts msec ≠ [] := by
  rw [durationTexts]
  split_ifs with hzero
  · simp
  · have hnat : msec.toNat ≠ 0 := fun h => hzero (BitVec.eq_of_toNat_eq h)
    rw [terms_eq]
    simp only [termTexts]
    split_ifs
    all_goals first | exact List.cons_ne_nil _ _ | omega

/-- **Printing** appends the texts of the duration to an empty buffer. -/
theorem nlMsec2str_eq (size : ℕ) (msec : BitVec 64) (b : Mem) :
    nlMsec2str size msec b = appendAll size ((durationTexts msec).map asBytes) b 0 size := by
  rw [nlMsec2str, durationTexts]
  split_ifs with hzero
  · rw [List.map_singleton, appendAll]
    by_cases hsize : size = 0
    · rw [if_pos hsize, hsize, snprintf, if_pos rfl]
    · rw [if_neg hsize]
      cases snprintf size b 0 size (asBytes "0msec".toList) with
      | none => rfl
      | some b' => rfl
  · exact printLoop_eq size (terms msec) b 0 size

/-! ## Inside of the buffer -/

section
variable {size : ℕ} (msec : BitVec 64) (b : Mem)

/-- the texts of the duration stay in a buffer of this size -/
abbrev TextsFit (size : ℕ) (msec : BitVec 64) : Prop := Fits size 0 ((durationTexts msec).map asBytes)

theorem plain_texts : ∀ t ∈ (durationTexts msec).map asBytes, 0 ∉ t := by
  intro t ht
  obtain ⟨s, hs, rfl⟩ := List.mem_map.1 ht
  exact zero_notMem_oneByte (durationTexts_short msec s hs).1

variable {msec}

/-- **Where the texts fit**, the buffer holds them, cut to its size. -/
theorem nlMsec2str_isString (hpos : 0 < size) (hsize : size < 2 ^ 64) (hfits : TextsFit size msec) :
    ∃ b', nlMsec2str size msec b = some b' ∧ IsString size b' ((asBytes (durationTexts msec).flatten).take (size - 1)) := by
  have hne : (durationTexts msec).map asBytes ≠ [] := fun h => durationTexts_ne msec (List.map_eq_nil_iff.1 h)
  obtain ⟨b', happend, hstr⟩ := appendAll_isString hsize hne (plain_texts msec) (seg_nil b 0) List.not_mem_nil hpos hfits
  have hflat : ((durationTexts msec).map asBytes).flatten = asBytes (durationTexts msec).flatten := List.map_flatten.symm
  rw [List.nil_append, hflat] at hstr
  rw [nlMsec2str_eq]
  exact ⟨b', happend, hstr⟩

/-- **Where they do not**, a text is written outside. -/
theorem nlMsec2str_none (hpos : 0 < size) (hsize : size < 2 ^ 64) (hfits : ¬ TextsFit size msec) :
    nlMsec2str size msec b = none := by
  rw [nlMsec2str_eq]
  refine appendAll_none hsize (plain_texts msec) (fun t ht => ?_) (seg_nil b 0) List.not_mem_nil hpos hfits
  obtain ⟨s, hs, rfl⟩ := List.mem_map.1 ht
  have hshort := (durationTexts_short msec s hs).2
  rw [asBytes_length]
  omega

end

/-- **Inside of the buffer**: everything is written there, and it is terminated, exactly if every text but the last ends in
the buffer, or one of them ends where the buffer does. -/
theorem msec2str_inside_iff (msec : BitVec 64) (len : BitVec 64) (b : Mem) (hlen : 1 ≤ len.toNat) :
    (∃ b' text, nlMsec2str len.toNat msec b = some b' ∧ IsString len.toNat b' text) ↔ TextsFit len.toNat msec := by
  constructor
  · rintro ⟨b', text, hprint, -⟩
    by_contra hfits
    rw [nlMsec2str_none b hlen len.isLt hfits] at hprint
    cases hprint
  · intro hfits
    obtain ⟨b', hprint, hstr⟩ := nlMsec2str_isString b hlen len.isLt hfits
    exact ⟨b', _, hprint, hstr⟩

theorem msec2str_inside_iff_day :
    (∃ b' text, nlMsec2str (64#64).toNat 86400000#64 (fun _ => 0) = some b' ∧ IsString (64#64).toNat b' text) ↔
      TextsFit (64#64).toNat 86400000#64 :=
  msec2str_inside_iff 86400000#64 64#64 (fun _ => 0) (by decide)

/-- **One byte** for a day and an hour: the day is cut, and the hour is written behind the buffer. -/
theorem one_byte_overrun : nlMsec2str 1 90000000#64 (fun _ => 0) = none := by
  refine nlMsec2str_none (fun _ => 0) (by decide) (by decide) ?_
  have htexts : (durationTexts 90000000#64).map asBytes = [asBytes "1d".toList, asBytes " 1h".toList] := by rfl
  rw [TextsFit, htexts, Fits]
  rintro (hnil | hexact | ⟨hlt, -⟩)
  · cases hnil
  · revert hexact
    decide
  · revert hlt
    decide

/-! ## Parsing what was printed -/

theorem parseLoop_eq (total : BitVec 64) (str : List Char) : parseLoop total str =
    if (strtoul str).2 = str then .error (-NLE_INVAL)
    else if (strtoul str).2 = [] then .ok (total + BitVec.ofNat 64 (strtoul str).1)
    else
      match unitScale (strtoul str).2 (unitLength (strtoul str).2) with
      | none => .error (-NLE_INVAL)
      | some scale =>
        if (strtoul str).2.drop (unitLength (strtoul str).2) = [] then
          .ok (total + BitVec.ofNat 64 (strtoul str).1 * scale)
        else
          parseLoop (total + BitVec.ofNat 64 (strtoul str).1 * scale)
            ((strtoul str).2.drop (unitLength (strtoul str).2)) := by
  rw [parseLoop]
  rfl

/-- the milliseconds of a printed unit -/
def scaleOf (unit : List Char) : Option (BitVec 64) := unitScale unit unit.length

/-- what follows a unit is nothing, or a blank -/
def BlankOrEnd (r : List Char) : Prop := ∀ c ∈ r.head?, c = ' '

theorem termTexts_blank (ts : List (ℕ × List Char)) : BlankOrEnd (termTexts false ts).flatten := by
  induction ts with
  | nil => simp [termTexts, BlankOrEnd]
  | cons t ts ih =>
    obtain ⟨v, unit⟩ := t
    rw [termTexts]
    split_ifs
    · exact ih
    · simp [termText, BlankOrEnd]

theorem unit_chars {unit : List Char} (h : unit ∈ units) :
    unit ≠ [] ∧ StopsIn 10 unit ∧ unitLength unit = unit.length := by
  have hall : ∀ u ∈ units, u ≠ [] ∧ (u.head?.bind (digitIn 10)).isNone = true ∧ unitLength u = u.length := by decide
  obtain ⟨hne, hstop, hlen⟩ := hall unit h
  refine ⟨hne, fun c hc => ?_, hlen⟩
  rw [Option.mem_def.1 hc] at hstop
  exact Option.isNone_iff_eq_none.1 hstop

/-- the unit ends at the blank -/
theorem unitLength_append {unit r : List Char} (hunit : unit ∈ units) (hr : BlankOrEnd r) :
    unitLength (unit ++ r) = unit.length := by
  have hall : ∀ c ∈ unit, decide (c ≠ ' ' ∧ c ≠ '\t') = true := by
    have hlen := (unit_chars hunit).2.2
    exact List.takeWhile_eq_self_iff.1 ((List.takeWhile_prefix _).eq_of_length hlen)
  rw [unitLength, List.takeWhile_append_of_pos hall]
  cases r with
  | nil => rw [List.takeWhile_nil, List.append_nil]
  | cons c r =>
    obtain rfl : c = ' ' := hr c rfl
    rw [List.takeWhile_cons, if_neg (by decide), List.append_nil]

/-- the number of a term -/
theorem strtoul_term (first : Bool) {v : ℕ} (hpos : v ≠ 0) (hv : v < 2 ^ 64) {unit : List Char} (hunit : unit ∈ units)
    (r : List Char) : strtoul (termText first v unit ++ r) = (v, unit ++ r) := by
  have hblanks : ∀ c ∈ (if first then [] else [' '] : List Char), isSpace c = true := by
    cases first with
    | false => simp [isSpace]
    | true => simp
  obtain ⟨hne, hstop, -⟩ := unit_chars hunit
  have hstop' : StopsIn 10 (unit ++ r) := by
    intro c hc
    obtain ⟨x, xs, rfl⟩ := List.exists_cons_of_ne_nil hne
    exact hstop c hc
  rw [termText, List.append_assoc, List.append_assoc]
  exact strtoul_blanks hpos (by rw [ULONG_MAX]; omega) hblanks hstop'

/-- what the parser makes of the terms -/
def sumTerms : BitVec 64 → List (ℕ × List Char) → Except ℤ (BitVec 64)
  | total, [] => .ok total
  | total, (v, unit) :: ts =>
    if v = 0 then sumTerms total ts
    else
      match scaleOf unit with
      | none => .error (-NLE_INVAL)
      | some scale => sumTerms (total + BitVec.ofNat 64 v * scale) ts

/-- **A term** is read, with what follows it. -/
theorem parseLoop_term (total : BitVec 64) (first : Bool) {v : ℕ} (hpos : v ≠ 0) (hv : v < 2 ^ 64) {unit : List Char}
    (hunit : unit ∈ units) {r : List Char} (hr : BlankOrEnd r) : parseLoop total (termText first v unit ++ r) =
      match scaleOf unit with
      | none => .error (-NLE_INVAL)
      | some scale =>
        if r = [] then .ok (total + BitVec.ofNat 64 v * scale) else parseLoop (total + BitVec.ofNat 64 v * scale) r := by
  have hread := strtoul_term first hpos hv hunit r
  have hne := (unit_chars hunit).1
  have hmoved : unit ++ r ≠ termText first v unit ++ r := by
    intro heq
    have hlen := congrArg List.length heq
    have hdigits := List.length_pos_iff.2 (Nat.toDigits_ne_nil (b := 10) (n := v))
    rw [termText] at hlen
    simp only [List.length_append] at hlen
    omega
  have hscale : unitScale (unit ++ r) unit.length = scaleOf unit := by
    rw [scaleOf, unitScale, unitScale]
    simp only [abbreviates, List.take_left, List.take_length]
  rw [parseLoop_eq, hread]
  dsimp only
  rw [if_neg hmoved, if_neg fun hnil => hne (List.append_eq_nil_iff.1 hnil).1, unitLength_append hunit hr, hscale,
    List.drop_left]

theorem termTexts_ne_nil {ts : List (ℕ × List Char)} {first : Bool} : ∀ t ∈ termTexts first ts, t ≠ [] := by
  induction ts generalizing first with
  | nil => simp [termTexts]
  | cons t ts ih =>
    obtain ⟨v, unit⟩ := t
    intro t ht
    rw [termTexts] at ht
    split_ifs at ht
    · exact ih t ht
    · rcases List.mem_cons.1 ht with rfl | ht
      · exact termText_ne first v unit
      · exact ih t ht

theorem flatten_termTexts {ts : List (ℕ × List Char)} {first : Bool} :
    (termTexts first ts).flatten = [] ↔ termTexts first ts = [] := by
  constructor
  · intro h
    rw [List.flatten_eq_nil_iff] at h
    exact List.eq_nil_iff_forall_not_mem.2 fun t ht => termTexts_ne_nil t ht (h t ht)
  · intro h
    rw [h]
    rfl

/-- terms of zero add nothing -/
theorem sumTerms_zero {ts : List (ℕ × List Char)} {first : Bool} (h : termTexts first ts = []) (total : BitVec 64) :
    sumTerms total ts = .ok total := by
  induction ts with
  | nil => rfl
  | cons t ts ih =>
    obtain ⟨v, unit⟩ := t
    rw [termTexts] at h
    by_cases hzero : v = 0
    · rw [if_pos hzero] at h
      rw [sumTerms, if_pos hzero]
      exact ih h
    · rw [if_neg hzero] at h
      cases h

/-- **The terms** are added up, as far as their units are known. -/
theorem parseLoop_terms {ts : List (ℕ × List Char)} (h : KnownUnits ts) (first : Bool) (total : BitVec 64)
    (hne : termTexts first ts ≠ []) : parseLoop total (termTexts first ts).flatten = sumTerms total ts := by
  induction ts generalizing first total with
  | nil => exact absurd rfl hne
  | cons t ts ih =>
    obtain ⟨v, unit⟩ := t
    obtain ⟨hv, hunit⟩ := h (v, unit) List.mem_cons_self
    have hrest : KnownUnits ts := fun t ht => h t (List.mem_cons_of_mem _ ht)
    rw [termTexts, sumTerms]
    rw [termTexts] at hne
    by_cases hzero : v = 0
    · rw [if_pos hzero] at hne
      rw [if_pos hzero, if_pos hzero]
      exact ih hrest first total hne
    · rw [if_neg hzero, if_neg hzero, List.flatten_cons, parseLoop_term total first hzero hv hunit (termTexts_blank ts)]
      cases scaleOf unit with
      | none => rfl
      | some scale =>
        dsimp only
        by_cases hlast : termTexts false ts = []
        · rw [if_pos (flatten_termTexts.2 hlast), sumTerms_zero hlast]
        · rw [if_neg fun hflat => hlast (flatten_termTexts.1 hflat)]
          exact ih hrest false _ hlast

theorem sumTerms_cons {unit : List Char} {scale : BitVec 64} (h : scaleOf unit = some scale) (v : ℕ)
    (ts : List (ℕ × List Char)) (total : BitVec 64) :
    sumTerms total ((v, unit) :: ts) = sumTerms (total + BitVec.ofNat 64 v * scale) ts := by
  rw [sumTerms]
  by_cases hzero : v = 0
  · have hnone : BitVec.ofNat 64 0 * scale = 0#64 := BitVec.zero_mul
    rw [if_pos hzero, hzero, hnone, BitVec.add_zero]
  · rw [if_neg hzero, h]

/-- **The units** that are printed: the parser knows all but the last. -/
theorem sumTerms_duration (msec : BitVec 64) : sumTerms 0 (terms msec) =
    if msec.toNat % 1000 = 0 then .ok msec else .error (-NLE_INVAL) := by
  have hday : scaleOf "d".toList = some 86400000 := by rfl
  have hhour : scaleOf "h".toList = some 3600000 := by rfl
  have hmin : scaleOf "m".toList = some 60000 := by rfl
  have hsec : scaleOf "s".toList = some 1000 := by rfl
  have hmsec : scaleOf "msec".toList = none := by rfl
  have hrest : msec.toNat % 86400000 % 3600000 % 60000 % 1000 = msec.toNat % 1000 := by omega
  rw [terms_eq, sumTerms_cons hday, sumTerms_cons hhour, sumTerms_cons hmin, sumTerms_cons hsec, sumTerms, hrest]
  by_cases hwhole : msec.toNat % 1000 = 0
  · rw [if_pos hwhole, if_pos hwhole, sumTerms]
    have hsum : msec.toNat / 86400000 * 86400000 + msec.toNat % 86400000 / 3600000 * 3600000 +
        msec.toNat % 86400000 % 3600000 / 60000 * 60000 + msec.toNat % 86400000 % 3600000 % 60000 / 1000 * 1000 =
          msec.toNat := by omega
    have hback := congrArg (BitVec.ofNat 64) hsum
    rw [BitVec.ofNat_add, BitVec.ofNat_add, BitVec.ofNat_add, BitVec.ofNat_mul, BitVec.ofNat_mul, BitVec.ofNat_mul,
      BitVec.ofNat_mul, BitVec.ofNat_toNat, BitVec.setWidth_eq] at hback
    rw [show (0 : BitVec 64) = 0#64 from rfl, BitVec.zero_add]
    exact congrArg _ hback
  · rw [if_neg hwhole, if_neg hwhole, hmsec]

/-- **Reading the text** of a duration -/
theorem str2msec_text (msec : BitVec 64) : nlStr2msec (durationTexts msec).flatten =
    if msec ≠ 0 ∧ msec.toNat % 1000 = 0 then .ok msec else .error (-NLE_INVAL) := by
  have hne := durationTexts_ne msec
  rw [durationTexts] at hne ⊢
  by_cases hzero : msec = 0
  · have hread : strtoul "0msec".toList = (0, "msec".toList) := by rfl
    have hscale : unitScale "msec".toList (unitLength "msec".toList) = none := by rfl
    rw [if_pos hzero, if_neg fun h => h.1 hzero, List.flatten_singleton, nlStr2msec, parseLoop_eq, hread, if_neg (by decide),
      if_neg (by decide), hscale]
  · rw [if_neg hzero] at hne ⊢
    rw [nlStr2msec, parseLoop_terms (terms_known msec) true 0 hne, sumTerms_duration]
    by_cases hwhole : msec.toNat % 1000 = 0
    · rw [if_pos hwhole, if_pos ⟨hzero, hwhole⟩]
    · rw [if_neg hwhole, if_neg fun h => hwhole h.2]

/-! ## There and back -/

/-- the text that is in the buffer is read as the number that was printed -/
def RoundTrip (size : ℕ) (msec : BitVec 64) (b : Mem) : Prop :=
  ∃ b' s, nlMsec2str size msec b = some b' ∧ textOf size b' = some s ∧ nlStr2msec s = .ok msec

theorem fits_of_room {size : ℕ} {ts : List (List UInt8)} {p : ℕ} (h : p + ts.flatten.length < size) : Fits size p ts := by
  induction ts generalizing p with
  | nil => trivial
  | cons t ts ih =>
    rw [List.flatten_cons, List.length_append] at h
    exact Or.inr (Or.inr ⟨by omega, ih (by omega)⟩)

theorem oneByte_flatten (msec : BitVec 64) : OneByte (durationTexts msec).flatten := by
  intro c hc
  obtain ⟨t, ht, hct⟩ := List.mem_flatten.1 hc
  exact (durationTexts_short msec t ht).1 c hct

/-- where there is room, the text is in the buffer -/
theorem textOf_nlMsec2str {size : ℕ} (hsize : size < 2 ^ 64) {msec : BitVec 64}
    (hroom : (durationTexts msec).flatten.length < size) (b : Mem) :
    ∃ b', nlMsec2str size msec b = some b' ∧ textOf size b' = some (durationTexts msec).flatten := by
  have hflat : ((durationTexts msec).map asBytes).flatten = asBytes (durationTexts msec).flatten := List.map_flatten.symm
  have hfits : TextsFit size msec := by
    refine fits_of_room ?_
    rw [hflat, asBytes_length]
    omega
  obtain ⟨b', hprint, hstr⟩ := nlMsec2str_isString b (by omega) hsize hfits
  rw [List.take_of_length_le (by rw [asBytes_length]; omega)] at hstr
  exact ⟨b', hprint, hstr.textOf fun c hc => (oneByte_flatten msec c hc).2⟩

theorem roundTrip_reads {size : ℕ} (hsize : size < 2 ^ 64) {msec : BitVec 64}
    (hroom : (durationTexts msec).flatten.length < size) (b : Mem) :
    RoundTrip size msec b ↔ nlStr2msec (durationTexts msec).flatten = .ok msec := by
  obtain ⟨b', hprint, htext⟩ := textOf_nlMsec2str hsize hroom b
  constructor
  · rintro ⟨b'', s, hprint', htext', hread⟩
    obtain rfl : b' = b'' := Option.some.inj (hprint.symm.trans hprint')
    obtain rfl := Option.some.inj (htext.symm.trans htext')
    exact hread
  · intro hread
    exact ⟨b', _, hprint, htext, hread⟩

/-- **There and back**: in a buffer with room for its text, a duration comes back exactly if it is one of whole seconds, and
not zero. -/
theorem msec_round_trip_iff (msec : BitVec 64) (len : BitVec 64) (b : Mem)
    (hroom : (durationTexts msec).flatten.length < len.toNat) :
    RoundTrip len.toNat msec b ↔ msec ≠ 0 ∧ msec.toNat % 1000 = 0 := by
  rw [roundTrip_reads len.isLt hroom, str2msec_text]
  constructor
  · intro h
    by_contra hno
    rw [if_neg hno] at h
    cases h
  · intro h
    exact if_pos h

theorem msec_round_trip_iff_minute : RoundTrip (64#64).toNat 60000#64 (fun _ => 0) ↔
    (60000#64 ≠ 0 ∧ (60000#64).toNat % 1000 = 0) :=
  msec_round_trip_iff 60000#64 64#64 (fun _ => 0) (by decide)

/-- **A millisecond** is printed with a unit that the parser does not know. -/
theorem one_msec_refused : ¬ ∃ b, RoundTrip 64 1#64 b := by
  rintro ⟨b, hround⟩
  have hread := (roundTrip_reads (by decide) (by decide) b).1 hround
  rw [str2msec_text, if_neg (by decide)] at hread
  cases hread

end Libnl.Duration
