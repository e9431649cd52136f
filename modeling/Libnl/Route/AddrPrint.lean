/-
Printing addresses into a buffer (`nl_addr2str` in `lib/addr.c`, `mpls_ntop` in `lib/mpls.c`).

Every family has a printer of its own: the library's two for internet addresses, one for stacks of labels, one for the
addresses of DECnet, and pairs of digits for everything else. Behind what they print comes the prefix, appended with
`strncat`, which looks for the end of the text first. Reading beyond the address and leaving the buffer are faults.

The printer of internet addresses leaves the buffer alone when there is no room, the one for DECnet fills it without a
terminator, and the one for labels does so when the buffer ends behind a slash. None of them is told how long the address
is.

- `Leaves`: a printer leaves a string if its condition holds, and none else.
- `mplsNtop1_text`: with the model of MPLS text, what a string of labels is.
- `mplsNtop1_leaves`, `dnetNtop_leaves`, `inetNtop_leaves`: the conditions.
- `addr2str_in_bounds_iff`: printing stays in bounds exactly under `PrintsWell`.
- `dnet_fills`: an address of DECnet and a buffer of its length.
-/
import Mathlib.Tactic
import Libnl.Core.Inet
import Libnl.Route.Addr
import Libnl.Route.Mpls

namespace Libnl.AddrPrint

open Bytes CString Inet Addr Mpls

def AF_DECnet : ℤ := 12

/-! ## Printers -/

section
variable (size : ℕ)

/-- `inet_ntop` for an address of `n` bytes: without room it leaves the buffer alone -/
def inetNtop (addr : List UInt8) (n : ℕ) (text : List Char) (b : Mem) : Option Mem :=
  if addr.length < n then none
  else if size ≤ text.length then some b
  else store size b 0 (asBytes text ++ [0])

/-- the word at a place of a stack -/
def entryAt (addr : List UInt8) (count : ℕ) : BitVec 32 := getBe32 (memOf addr) (4 * count)

def labelText (addr : List UInt8) (count : ℕ) : List Char :=
  Nat.toDigits 10 ((entryAt addr count &&& MPLS_LS_LABEL_MASK) >>> MPLS_LS_LABEL_SHIFT).toNat

/-- `mpls_ntop1`. There is always room for the slash: a number fits only if its terminator does. -/
def mplsNtop1 (addr : List UInt8) (count dest destlen : ℕ) (b : Mem) : Option Mem :=
  if addr.length < 4 * count + 4 then none
  else
    match snprintf size b dest destlen (asBytes (labelText addr count)) with
    | none => none
    | some b =>
      if _h : destlen ≤ (labelText addr count).length then some b
      else if entryAt addr count &&& MPLS_LS_S_MASK ≠ 0 then some b
      else
        match store size b (dest + (labelText addr count).length) (asBytes ['/']) with
        | none => none
        | some b => mplsNtop1 addr (count + 1) (dest + (labelText addr count).length + 1)
            (destlen - (labelText addr count).length - 1) b
termination_by destlen
decreasing_by omega

/-- what `do_digit` works on: the buffer, the rest of the number, where it writes, and whether it has begun -/
structure Digits where
  buf : Mem
  addr : ℕ
  pos : ℕ
  started : Bool

/-- `do_digit`; the flag says that the buffer is full -/
def doDigit (s : Digits) (scale : ℕ) : Option (Digits × Bool) :=
  let tmp := s.addr / scale
  if s.pos = size then some (s, true)
  else if 0 < tmp ∨ s.started = true ∨ scale = 1 then
    (store size s.buf s.pos [UInt8.ofNat (tmp + 48)]).map fun buf => (⟨buf, s.addr - tmp * scale, s.pos + 1, true⟩, false)
  else some (s, false)

/-- the digits of a number, for these scales, until the buffer is full -/
def doDigits : List ℕ → Digits → Option (Digits × Bool)
  | [], s => some (s, false)
  | scale :: scales, s =>
    match doDigit size s scale with
    | none => none
    | some (s, true) => some (s, true)
    | some (s, false) => doDigits scales s

/-- `dn_ntohs` of the first two bytes -/
def dnNtohs (addr : List UInt8) : ℕ := (addr.getD 0 0).toNat + (addr.getD 1 0).toNat * 256

def dnetNtop (addr : List UInt8) (str : Mem) : Option Mem :=
  if addr.length < 2 then none
  else if addr.length ≠ 2 then some str
  else if size = 0 then some str
  else
    match doDigits size [10, 1] ⟨str, dnNtohs addr / 1024, 0, false⟩ with
    | none => none
    | some (s, true) => some s.buf
    | some (s, false) =>
      if s.pos = size then some s.buf
      else
        match store size s.buf s.pos (asBytes ['.']) with
        | none => none
        | some buf =>
          match doDigits size [1000, 100, 10, 1] ⟨buf, dnNtohs addr % 1024, s.pos + 1, false⟩ with
          | none => none
          | some (s, true) => some s.buf
          | some (s, false) => if s.pos = size then some s.buf else store size s.buf s.pos [0]

/-- `strncat(buf, tmp, size - strlen(buf) - 1)`, with `tmp` of sixteen bytes -/
def appendTmp (text : List Char) (b : Mem) : Option Mem :=
  (strlen size b).bind fun l => strncat size b (asBytes (text.take 15)) (size - l - 1)

/-- `"%02x"` -/
def hexByte (x : UInt8) : List Char := [Nat.digitChar (x.toNat / 16), Nat.digitChar (x.toNat % 16)]

/-- the printer for everything else -/
def llcNtop : List UInt8 → Mem → Option Mem
  | [], _ => none
  | x :: xs, b =>
    xs.foldl (fun b x => b.bind (appendTmp size (':' :: hexByte x))) (snprintf size b 0 size (asBytes (hexByte x)))

/-- at `prefix` -/
def putPrefix (a : NlAddr) (b : Mem) : Option Mem :=
  appendTmp size ('/' :: Nat.toDigits 10 (a.aPrefixlen % 2 ^ 32).toNat) b

/-- `nl_addr2str`: the buffer it leaves, unless it reads or writes where it must not -/
def nlAddr2str (addr : Option NlAddr) (b : Mem) : Option Mem :=
  match addr with
  | none => snprintf size b 0 size (asBytes "none".toList)
  | some a =>
    if a.aAddr = [] then (snprintf size b 0 size (asBytes "none".toList)).bind (putPrefix size a)
    else if a.aFamily = Family.AF_INET then
      (inetNtop size a.aAddr 4 (inetNtop4 (memOf a.aAddr) 0) b).bind (putPrefix size a)
    else if a.aFamily = Family.AF_INET6 then
      (inetNtop size a.aAddr 16 (inetNtop6 (memOf a.aAddr)) b).bind (putPrefix size a)
    else if a.aFamily = Family.AF_MPLS then (mplsNtop1 size a.aAddr 0 0 size b).bind (putPrefix size a)
    else if a.aFamily = AF_DECnet then (dnetNtop size a.aAddr b).bind (putPrefix size a)
    else llcNtop size a.aAddr b

/-- whatever the buffer holds before, printing makes no fault and leaves a terminator -/
def InBounds (addr : Option NlAddr) : Prop := ∀ b, ∃ b', nlAddr2str size addr b = some b' ∧ (strlen size b').isSome

/-! ## Conditions -/

/-- the labels before a place, each with its slash -/
def labelsBefore (addr : List UInt8) : ℕ → List Char
  | 0 => []
  | k + 1 => labelsBefore addr k ++ (labelText addr k ++ ['/'])

/-- the stack has its bottom where the text still fits, or the text stops to fit, but not with a slash: up to there the
address has all words, and no other bottom -/
def LabelsFit (addr : List UInt8) : Prop :=
  ∃ k, 4 * k + 4 ≤ addr.length ∧ (∀ j < k, entryAt addr j &&& MPLS_LS_S_MASK = 0) ∧
    (entryAt addr k &&& MPLS_LS_S_MASK ≠ 0 ∧ (labelsBefore addr k ++ labelText addr k).length < size ∨
      (labelsBefore addr k).length < size ∧ size ≤ (labelsBefore addr k ++ labelText addr k).length)

/-- the digits of a number for these scales, without leading zeros -/
def digitsText : List ℕ → ℕ → Bool → List UInt8
  | [], _, _ => []
  | scale :: scales, addr, started =>
    let tmp := addr / scale
    if 0 < tmp ∨ started = true ∨ scale = 1 then
      UInt8.ofNat (tmp + 48) :: digitsText scales (addr - tmp * scale) true
    else digitsText scales addr started

/-- area and node -/
def dnetText (addr : List UInt8) : List UInt8 :=
  digitsText [10, 1] (dnNtohs addr / 1024) false ++
    (asBytes ['.'] ++ digitsText [1000, 100, 10, 1] (dnNtohs addr % 1024) false)

/-- when printing stays in bounds -/
def PrintsWell (a : NlAddr) : Prop :=
  a.aAddr = [] ∨
    if a.aFamily = Family.AF_INET then 4 ≤ a.aAddr.length ∧ (inetNtop4 (memOf a.aAddr) 0).length < size
    else if a.aFamily = Family.AF_INET6 then 16 ≤ a.aAddr.length ∧ (inetNtop6 (memOf a.aAddr)).length < size
    else if a.aFamily = Family.AF_MPLS then LabelsFit size a.aAddr
    else if a.aFamily = AF_DECnet then a.aAddr.length = 2 ∧ (dnetText a.aAddr).length < size
    else True

/-- a printer leaves a string under this condition, and else none, at least where there was none before -/
structure Leaves (cond : Prop) (run : Mem → Option Mem) : Prop where
  string : cond → ∀ b, ∃ b' text, run b = some b' ∧ IsString size b' text
  noString : ¬ cond → ∀ b, strlen size b = none → ∀ b', run b = some b' → strlen size b' = none

end

section
variable {size : ℕ}

/-! ## Internet addresses -/

theorem asBytes_append (s t : List Char) : asBytes (s ++ t) = asBytes s ++ asBytes t := List.map_append

theorem inetNtop_leaves (addr : List UInt8) (n : ℕ) {text : List Char} (htext : Plain text) :
    Leaves size (n ≤ addr.length ∧ text.length < size) (inetNtop size addr n text) := by
  constructor
  · rintro ⟨hn, hlen⟩ b
    obtain ⟨b', hstore, hstr⟩ := store_isString size (seg_nil b 0) List.not_mem_nil (zero_notMem_asBytes htext)
      (by rw [List.length_nil, asBytes_length, Nat.zero_add]; exact hlen)
    refine ⟨b', _, ?_, hstr⟩
    rw [inetNtop, if_neg (not_lt.2 hn), if_neg (not_le.2 hlen)]
    exact hstore
  · intro hcond b hb b' hrun
    rw [inetNtop] at hrun
    by_cases hn : addr.length < n
    · rw [if_pos hn] at hrun
      cases hrun
    · have hfull : size ≤ text.length := by
        by_contra hlt
        exact hcond ⟨not_lt.1 hn, not_le.1 hlt⟩
      rw [if_neg hn, if_pos hfull] at hrun
      rw [← Option.some.inj hrun]
      exact hb

/-! ## Labels -/

theorem labelText_plain (addr : List UInt8) (k : ℕ) : Plain (labelText addr k) := plain_decimal _

theorem labelsBefore_plain (addr : List UInt8) (k : ℕ) : Plain (labelsBefore addr k) := by
  induction k with
  | zero => exact plain_nil
  | succ k ih => exact plain_append ih (plain_append (labelText_plain addr k) (plain_cons (by decide) plain_nil))

theorem labelsBefore_succ_length (addr : List UInt8) (k : ℕ) :
    (labelsBefore addr (k + 1)).length = (labelsBefore addr k).length + (labelText addr k).length + 1 := by
  rw [labelsBefore, List.length_append, List.length_append, List.length_singleton, ← Nat.add_assoc]

theorem labelsBefore_mono (addr : List UInt8) {k m : ℕ} (h : k ≤ m) :
    (labelsBefore addr k).length ≤ (labelsBefore addr m).length := by
  induction h with
  | refl => exact le_rfl
  | step _ ih =>
    rw [labelsBefore_succ_length]
    omega

/-- where the text ends, or stops to fit, is not before a place that was passed -/
theorem LabelsFit.from {addr : List UInt8} {count : ℕ} (h : LabelsFit size addr)
    (hpassed : ∀ j < count, entryAt addr j &&& MPLS_LS_S_MASK = 0) (hin : (labelsBefore addr count).length ≤ size) :
    ∃ k, count ≤ k ∧ 4 * k + 4 ≤ addr.length ∧ (labelsBefore addr k).length < size ∧
      (count < k → entryAt addr count &&& MPLS_LS_S_MASK = 0) ∧
      (entryAt addr k &&& MPLS_LS_S_MASK ≠ 0 ∨ size ≤ (labelsBefore addr k).length + (labelText addr k).length) := by
  obtain ⟨k, hk, hbefore, hfit⟩ := h
  rw [List.length_append] at hfit
  have hge : count ≤ k := by
    by_contra hlt
    have hmono := labelsBefore_mono addr (Nat.succ_le_of_lt (not_le.1 hlt))
    rw [labelsBefore_succ_length] at hmono
    rcases hfit with ⟨hbottom, -⟩ | ⟨-, hfull⟩
    · exact hbottom (hpassed k (not_le.1 hlt))
    · omega
  refine ⟨k, hge, hk, ?_, hbefore count, ?_⟩
  · rcases hfit with ⟨-, hlen⟩ | ⟨hlen, -⟩
    · omega
    · exact hlen
  · rcases hfit with ⟨hbottom, -⟩ | ⟨-, hfull⟩
    · exact Or.inl hbottom
    · exact Or.inr hfull

/-- what the loop finds when it comes to a place -/
structure AtLabel (size : ℕ) (addr : List UInt8) (count dest destlen : ℕ) (b : Mem) : Prop where
  front : dest = (labelsBefore addr count).length
  rest : dest + destlen = size
  text : Seg b 0 (asBytes (labelsBefore addr count))
  passed : ∀ j < count, entryAt addr j &&& MPLS_LS_S_MASK = 0

/-- behind a label that fits, and its slash -/
theorem AtLabel.next {addr : List UInt8} {count dest destlen : ℕ} {b b1 : Mem} (h : AtLabel size addr count dest destlen b)
    (hlen : (labelText addr count).length < destlen) (hbottom : entryAt addr count &&& MPLS_LS_S_MASK = 0)
    (hb1 : Seg b1 0 (asBytes (labelsBefore addr count) ++ asBytes (labelText addr count))) :
    ∃ b2, store size b1 (dest + (labelText addr count).length) (asBytes ['/']) = some b2 ∧
      AtLabel size addr (count + 1) (dest + (labelText addr count).length + 1)
        (destlen - (labelText addr count).length - 1) b2 := by
  have hsum := h.rest
  have hfits : dest + (labelText addr count).length + (asBytes ['/']).length ≤ size := by
    rw [asBytes_length, List.length_singleton]
    omega
  refine ⟨_, if_pos hfits, ?_, by omega, ?_, ?_⟩
  · rw [labelsBefore_succ_length, h.front]
  · have hlen' : (asBytes (labelsBefore addr count) ++ asBytes (labelText addr count)).length =
        dest + (labelText addr count).length := by
      rw [List.length_append, asBytes_length, asBytes_length, h.front]
    rw [labelsBefore, asBytes_append, asBytes_append, ← List.append_assoc]
    refine seg_append.2 ⟨hb1.frame fun i _ hi => write_out (Or.inl (by omega)), ?_⟩
    rw [hlen', Nat.zero_add]
    exact seg_write _ _ _
  · intro j hj
    rcases Nat.lt_succ_iff_lt_or_eq.1 hj with hlt | rfl
    · exact h.passed j hlt
    · exact hbottom

/-- the number, cut to what is left -/
theorem AtLabel.print {addr : List UInt8} {count dest destlen : ℕ} {b : Mem} (h : AtLabel size addr count dest destlen b)
    (hpos : 0 < destlen) : ∃ b', snprintf size b dest destlen (asBytes (labelText addr count)) = some b' ∧
      IsString size b' (asBytes (labelsBefore addr count) ++ (asBytes (labelText addr count)).take (destlen - 1)) := by
  have hsum := h.rest
  have hlen := List.length_take_le (destlen - 1) (asBytes (labelText addr count))
  have hflen : (asBytes (labelsBefore addr count)).length = dest := by rw [asBytes_length, h.front]
  obtain ⟨b', hstore, hstr⟩ := store_isString size h.text (zero_notMem_asBytes (labelsBefore_plain addr count))
    (fun hmem => zero_notMem_asBytes (labelText_plain addr count) (List.mem_of_mem_take hmem) :
      0 ∉ (asBytes (labelText addr count)).take (destlen - 1)) (by omega)
  rw [hflen] at hstore
  exact ⟨b', (if_neg (by omega)).trans hstore, hstr⟩

/-- **Labels.** From every place of the loop on: a string where the stack fits, and else none. -/
theorem mplsNtop1_run {addr : List UInt8} {count dest destlen : ℕ} {b : Mem} (h : AtLabel size addr count dest destlen b) :
    (LabelsFit size addr → ∃ b' text, mplsNtop1 size addr count dest destlen b = some b' ∧ IsString size b' text) ∧
      (¬ LabelsFit size addr → ∀ b', mplsNtop1 size addr count dest destlen b = some b' → strlen size b' = none) := by
  induction destlen using Nat.strong_induction_on generalizing count dest b with
  | _ destlen ih =>
    have hdest := h.front
    have hsum := h.rest
    have hfront := zero_notMem_asBytes (labelsBefore_plain addr count)
    have hflen : (asBytes (labelsBefore addr count)).length = dest := by rw [asBytes_length, hdest]
    have htlen : (asBytes (labelText addr count)).length = (labelText addr count).length := asBytes_length _
    have hfrom : LabelsFit size addr → _ := fun hfit => hfit.from h.passed (by omega)
    rw [mplsNtop1]
    by_cases hword : addr.length < 4 * count + 4
    · -- beyond the address
      rw [if_pos hword]
      refine ⟨fun hfit => ?_, fun _ b' hrun => by cases hrun⟩
      obtain ⟨k, hge, hk, -⟩ := hfrom hfit
      omega
    rw [if_neg hword]
    by_cases hzero : destlen = 0
    · -- the buffer ends behind a slash
      have hsame : snprintf size b dest destlen (asBytes (labelText addr count)) = some b := if_pos hzero
      rw [hsame]
      dsimp only
      rw [dif_pos (by omega)]
      constructor
      · intro hfit
        obtain ⟨k, hge, -, hlt, -⟩ := hfrom hfit
        have hmono := labelsBefore_mono addr hge
        omega
      · intro _ b' hrun
        rw [← Option.some.inj hrun]
        exact strlen_full h.text hfront (by omega)
    obtain ⟨b1, hprint, hstr⟩ := h.print (Nat.pos_of_ne_zero hzero)
    rw [hprint]
    dsimp only
    by_cases hcut : destlen ≤ (labelText addr count).length
    · rw [dif_pos hcut]
      refine ⟨fun _ => ⟨b1, _, rfl, hstr⟩, fun hno => ?_⟩
      refine absurd ⟨count, by omega, h.passed, Or.inr ⟨by omega, ?_⟩⟩ hno
      rw [List.length_append]
      omega
    · rw [dif_neg hcut]
      have hwhole : (asBytes (labelText addr count)).take (destlen - 1) = asBytes (labelText addr count) :=
        List.take_of_length_le (by omega)
      rw [hwhole] at hstr
      by_cases hbottom : entryAt addr count &&& MPLS_LS_S_MASK ≠ 0
      · rw [if_pos hbottom]
        refine ⟨fun _ => ⟨b1, _, rfl, hstr⟩, fun hno => ?_⟩
        refine absurd ⟨count, by omega, h.passed, Or.inl ⟨hbottom, ?_⟩⟩ hno
        rw [List.length_append]
        omega
      · obtain ⟨b2, hslash, hnext⟩ := h.next (not_le.1 hcut) (not_not.1 hbottom) (seg_append.1 hstr.seg).1
        rw [if_neg hbottom, hslash]
        exact ih _ (by omega) hnext

/-- what the buffer holds is what the model of the text gives -/
theorem mplsNtop1_text {addr : List UInt8} {count dest destlen : ℕ} {b b' : Mem} {text : List Char}
    (h : AtLabel size addr count dest destlen b) (htext : Mpls.mplsNtop1 (memOf addr) (4 * count) destlen = .ok text)
    (hrun : mplsNtop1 size addr count dest destlen b = some b') :
    IsString size b' (asBytes (labelsBefore addr count ++ text)) := by
  induction destlen using Nat.strong_induction_on generalizing count dest b text with
  | _ destlen ih =>
    have hlabel : Mpls.mplsNtop1 (memOf addr) (4 * count) destlen =
        if _h : destlen ≤ (labelText addr count).length then .error E2BIG
        else if entryAt addr count &&& MPLS_LS_S_MASK ≠ 0 then .ok (labelText addr count)
        else (Mpls.mplsNtop1 (memOf addr) (4 * (count + 1)) (destlen - (labelText addr count).length - 1)).map
          fun rest => labelText addr count ++ '/' :: rest := by
      rw [Mpls.mplsNtop1]
      rfl
    rw [hlabel] at htext
    by_cases hcut : destlen ≤ (labelText addr count).length
    · rw [dif_pos hcut] at htext
      cases htext
    obtain ⟨b1, hprint, hstr⟩ := h.print (by omega)
    have hwhole : (asBytes (labelText addr count)).take (destlen - 1) = asBytes (labelText addr count) :=
      List.take_of_length_le (by rw [asBytes_length]; omega)
    rw [hwhole] at hstr
    rw [dif_neg hcut] at htext
    rw [mplsNtop1] at hrun
    by_cases hword : addr.length < 4 * count + 4
    · rw [if_pos hword] at hrun
      cases hrun
    rw [if_neg hword, hprint] at hrun
    dsimp only at hrun
    rw [dif_neg hcut] at hrun
    by_cases hbottom : entryAt addr count &&& MPLS_LS_S_MASK ≠ 0
    · rw [if_pos hbottom] at htext hrun
      cases htext
      cases hrun
      rw [asBytes_append]
      exact hstr
    · obtain ⟨b2, hslash, hnext⟩ := h.next (not_le.1 hcut) (not_not.1 hbottom) (seg_append.1 hstr.seg).1
      rw [if_neg hbottom] at htext hrun
      rw [hslash] at hrun
      cases hrest : Mpls.mplsNtop1 (memOf addr) (4 * (count + 1)) (destlen - (labelText addr count).length - 1) with
      | error err =>
        rw [hrest] at htext
        cases htext
      | ok rest =>
        rw [hrest] at htext
        cases htext
        have hstring := ih _ (by omega) hnext hrest hrun
        rw [labelsBefore, List.append_assoc, List.append_assoc] at hstring
        exact hstring

theorem mplsNtop1_leaves (addr : List UInt8) : Leaves size (LabelsFit size addr) (mplsNtop1 size addr 0 0 size) := by
  have hstart : ∀ b, AtLabel size addr 0 0 size b := fun b =>
    ⟨rfl, Nat.zero_add size, seg_nil b 0, fun j hj => absurd hj (Nat.not_lt_zero j)⟩
  exact ⟨fun hfit b => (mplsNtop1_run (hstart b)).1 hfit, fun hno b _ => (mplsNtop1_run (hstart b)).2 hno⟩

/-! ## DECnet -/

variable (size) in
/-- one byte behind a text -/
theorem store_byte {b : Mem} {front : List UInt8} (hseg : Seg b 0 front) (hroom : front.length < size) (c : UInt8) :
    ∃ b', store size b front.length [c] = some b' ∧ Seg b' 0 (front ++ [c]) := by
  refine ⟨_, if_pos (Nat.succ_le_of_lt hroom), seg_append.2 ⟨hseg.frame fun i _ hi => write_out (Or.inl (by omega)), ?_⟩⟩
  rw [Nat.zero_add]
  exact seg_write _ _ _

/-- the buffer is full of the beginning of a text -/
structure Filled (size : ℕ) (b : Mem) (text : List UInt8) : Prop where
  full : ∃ t, t <+: text ∧ Seg b 0 t ∧ t.length = size

variable (size) in
/-- **Digits.** They stand behind what was there, or the buffer is full. -/
theorem doDigits_run (scales : List ℕ) {s : Digits} {front : List UInt8} (hseg : Seg s.buf 0 front)
    (hpos : s.pos = front.length) (hin : s.pos ≤ size) : ∃ s' stop, doDigits size scales s = some (s', stop) ∧
      (stop = true → Filled size s'.buf (front ++ digitsText scales s.addr s.started)) ∧
      (stop = false → Seg s'.buf 0 (front ++ digitsText scales s.addr s.started) ∧
        s'.pos = (front ++ digitsText scales s.addr s.started).length ∧ s'.pos ≤ size) := by
  induction scales generalizing s front with
  | nil =>
    refine ⟨s, false, rfl, fun h => absurd h Bool.false_ne_true, fun _ => ?_⟩
    rw [digitsText, List.append_nil]
    exact ⟨hseg, hpos, hin⟩
  | cons scale scales ih =>
    rw [doDigits, doDigit, digitsText]
    by_cases hfull : s.pos = size
    · rw [if_pos hfull]
      exact ⟨s, true, rfl, fun _ => ⟨front, List.prefix_append _ _, hseg, hpos.symm.trans hfull⟩,
        fun h => absurd h.symm Bool.false_ne_true⟩
    · rw [if_neg hfull]
      by_cases hshow : 0 < s.addr / scale ∨ s.started = true ∨ scale = 1
      · obtain ⟨b', hstore, hseg'⟩ := store_byte size hseg (by omega) (UInt8.ofNat (s.addr / scale + 48))
        obtain ⟨s', stop, hrest, hyes, hno⟩ := ih (s := ⟨b', s.addr - s.addr / scale * scale, s.pos + 1, true⟩) hseg'
          (by rw [List.length_append, List.length_singleton, ← hpos]) (show s.pos + 1 ≤ size by omega)
        rw [List.append_assoc, List.singleton_append] at hyes hno
        rw [← hpos] at hstore
        rw [if_pos hshow, if_pos hshow, hstore]
        exact ⟨s', stop, hrest, hyes, hno⟩
      · rw [if_neg hshow, if_neg hshow]
        exact ih hseg hpos hin

/-- a digit is no terminator, and what is left of the number is below its scale -/
theorem zero_notMem_digitsText {scale addr : ℕ} {scales : List ℕ} (hlt : addr < 10 * scale)
    (hrest : ∀ n < scale, ∀ started, 0 ∉ digitsText scales n started) (started : Bool) :
    0 ∉ digitsText (scale :: scales) addr started := by
  have hpos : 0 < scale := by omega
  have hdigit : addr / scale < 10 := (Nat.div_lt_iff_lt_mul hpos).2 hlt
  have hleft : addr - addr / scale * scale < scale := by
    rw [Nat.mul_comm, ← Nat.mod_eq_sub_mul_div]
    exact Nat.mod_lt addr hpos
  rw [digitsText]
  by_cases hshow : 0 < addr / scale ∨ started = true ∨ scale = 1
  · rw [if_pos hshow]
    intro hmem
    rcases List.mem_cons.1 hmem with hzero | hlater
    · have hval := congrArg UInt8.toNat hzero
      rw [UInt8.toNat_ofNat', Nat.mod_eq_of_lt (by omega)] at hval
      exact absurd hval.symm (Nat.succ_ne_zero _)
    · exact hrest _ hleft true hlater
  · have hzero : addr / scale = 0 := Nat.eq_zero_of_not_pos fun h => hshow (Or.inl h)
    rw [hzero, Nat.zero_mul, Nat.sub_zero] at hleft
    rw [if_neg hshow]
    exact hrest addr hleft started

theorem dnetText_plain (addr : List UInt8) : 0 ∉ dnetText addr := by
  have hunits : ∀ n < 10, ∀ started, 0 ∉ digitsText [1] n started := fun n hn =>
    zero_notMem_digitsText hn fun _ _ _ => List.not_mem_nil
  have htens : ∀ n < 100, ∀ started, 0 ∉ digitsText [10, 1] n started := fun n hn => zero_notMem_digitsText hn hunits
  have hhundreds : ∀ n < 1000, ∀ started, 0 ∉ digitsText [100, 10, 1] n started := fun n hn =>
    zero_notMem_digitsText hn htens
  have hlt : dnNtohs addr < 65536 := by
    have h0 := (addr.getD 0 0).toNat_lt
    have h1 := (addr.getD 1 0).toNat_lt
    unfold dnNtohs
    omega
  intro hmem
  rcases List.mem_append.1 hmem with harea | hrest
  · exact htens _ (by omega) false harea
  · rcases List.mem_append.1 hrest with hdot | hnode
    · exact absurd hdot (by decide)
    · exact zero_notMem_digitsText (by omega) hhundreds false hnode

theorem Filled.append {b : Mem} {text rest : List UInt8} (h : Filled size b text) : Filled size b (text ++ rest) := by
  obtain ⟨t, hfront, hseg, hlen⟩ := h.full
  exact ⟨t, hfront.trans (List.prefix_append _ _), hseg, hlen⟩

variable (size) in
/-- **An address of two bytes** is printed whole, or fills the buffer. -/
theorem dnetNtop_run {addr : List UInt8} (hlen : addr.length = 2) (str : Mem) :
    ∃ b, dnetNtop size addr str = some b ∧ (Filled size b (dnetText addr) ∨ IsString size b (dnetText addr)) := by
  rw [dnetNtop, if_neg (by omega), if_neg (not_not.2 hlen)]
  by_cases hzero : size = 0
  · rw [if_pos hzero]
    exact ⟨str, rfl, Or.inl ⟨[], List.nil_prefix, seg_nil _ _, hzero.symm⟩⟩
  rw [if_neg hzero]
  obtain ⟨s, stop, harea, hstop, hgo⟩ := doDigits_run size [10, 1] (s := ⟨str, dnNtohs addr / 1024, 0, false⟩)
    (seg_nil _ 0) rfl (Nat.zero_le _)
  rw [List.nil_append] at hstop hgo
  rw [harea]
  cases stop with
  | true => exact ⟨s.buf, rfl, Or.inl (hstop rfl).append⟩
  | false =>
    obtain ⟨hseg, hpos, hin⟩ := hgo rfl
    dsimp only at hseg hpos ⊢
    by_cases hfull : s.pos = size
    · rw [if_pos hfull]
      exact ⟨s.buf, rfl, Or.inl ⟨_, List.prefix_append _ _, hseg, by omega⟩⟩
    rw [if_neg hfull]
    obtain ⟨b1, hdot, hseg1⟩ := store_byte size hseg (by omega) (UInt8.ofNat '.'.toNat)
    rw [← hpos] at hdot
    have hdot' : store size s.buf s.pos (asBytes ['.']) = some b1 := hdot
    rw [hdot']
    dsimp only
    obtain ⟨s', stop', hnode, hstop', hgo'⟩ := doDigits_run size [1000, 100, 10, 1]
      (s := ⟨b1, dnNtohs addr % 1024, s.pos + 1, false⟩) hseg1 (by rw [List.length_append, List.length_singleton, ← hpos])
      (show s.pos + 1 ≤ size by omega)
    have htext : digitsText [10, 1] (dnNtohs addr / 1024) false ++ [UInt8.ofNat '.'.toNat] ++
        digitsText [1000, 100, 10, 1] (dnNtohs addr % 1024) false = dnetText addr := List.append_assoc ..
    rw [htext] at hstop' hgo'
    rw [hnode]
    cases stop' with
    | true => exact ⟨s'.buf, rfl, Or.inl (hstop' rfl)⟩
    | false =>
      obtain ⟨hseg', hpos', hin'⟩ := hgo' rfl
      dsimp only
      by_cases hfull' : s'.pos = size
      · rw [if_pos hfull']
        exact ⟨s'.buf, rfl, Or.inl ⟨_, List.prefix_refl _, hseg', by omega⟩⟩
      · rw [if_neg hfull']
        obtain ⟨b2, hend, hseg2⟩ := store_byte size hseg' (by omega) 0
        rw [← hpos'] at hend
        exact ⟨b2, hend, Or.inr ⟨by omega, hseg2, dnetText_plain addr⟩⟩

theorem dnetNtop_leaves (addr : List UInt8) :
    Leaves size (addr.length = 2 ∧ (dnetText addr).length < size) (dnetNtop size addr) := by
  constructor
  · rintro ⟨hlen, hfits⟩ str
    obtain ⟨b, hrun, hfilled | hstr⟩ := dnetNtop_run size hlen str
    · obtain ⟨t, hfront, -, hsize⟩ := hfilled.full
      have hle := hfront.length_le
      omega
    · exact ⟨b, _, hrun, hstr⟩
  · intro hno str hstr b' hrun
    by_cases hlen : addr.length = 2
    · obtain ⟨b, hb, hfilled | hstring⟩ := dnetNtop_run size hlen str
      · obtain ⟨t, hfront, hseg, hsize⟩ := hfilled.full
        rw [hrun] at hb
        rw [Option.some.inj hb]
        exact strlen_full hseg (fun hmem => dnetText_plain addr (hfront.subset hmem)) hsize
      · exact absurd ⟨hlen, hstring.fits⟩ hno
    · rw [dnetNtop] at hrun
      by_cases hshort : addr.length < 2
      · rw [if_pos hshort] at hrun
        cases hrun
      · rw [if_neg hshort, if_pos hlen] at hrun
        rw [← Option.some.inj hrun]
        exact hstr

/-! ## Everything else -/

/-- as much as there is room for is appended -/
theorem appendTmp_isString {b : Mem} {front : List UInt8} {text : List Char} (h : IsString size b front) (htext : Plain text) :
    ∃ b', appendTmp size text b = some b' ∧
      IsString size b' (front ++ (asBytes (text.take 15)).take (size - front.length - 1)) := by
  have hplain : Plain (text.take 15) := fun c hc => htext c (List.mem_of_mem_take hc)
  obtain ⟨b', hcat, hstr⟩ := strncat_isString h (zero_notMem_asBytes hplain)
  refine ⟨b', ?_, hstr⟩
  rw [appendTmp, h.strlen]
  exact hcat

theorem appendTmp_none {b : Mem} (h : strlen size b = none) (text : List Char) : appendTmp size text b = none := by
  rw [appendTmp, h]
  rfl

theorem hexByte_plain (x : UInt8) : Plain (hexByte x) := by
  have hlt := x.toNat_lt
  exact plain_cons (plain_digitChar (by omega)) (plain_cons (plain_digitChar (by omega)) plain_nil)

theorem colonByte_plain (x : UInt8) : Plain (':' :: hexByte x) := plain_cons (by decide) (hexByte_plain x)

/-- pairs of digits behind a string -/
theorem llcBytes_string (xs : List UInt8) {b : Mem} {front : List UInt8} (h : IsString size b front) :
    ∃ b' text, xs.foldl (fun b x => b.bind (appendTmp size (':' :: hexByte x))) (some b) = some b' ∧ IsString size b' text := by
  induction xs generalizing b front with
  | nil => exact ⟨b, front, rfl, h⟩
  | cons x xs ih =>
    obtain ⟨b1, happend, hstr⟩ := appendTmp_isString h (colonByte_plain x)
    rw [List.foldl_cons, Option.bind_some, happend]
    exact ih hstr

theorem llcNtop_string (hsize : 0 < size) {addr : List UInt8} (hne : addr ≠ []) (b : Mem) :
    ∃ b' text, llcNtop size addr b = some b' ∧ IsString size b' text := by
  obtain ⟨x, xs, rfl⟩ := List.exists_cons_of_ne_nil hne
  obtain ⟨b1, hfirst, hstr⟩ := snprintf_isString hsize b (zero_notMem_asBytes (hexByte_plain x))
  rw [llcNtop, hfirst]
  exact llcBytes_string xs hstr

/-! ## All families -/

theorem none_plain : Plain "none".toList := by
  intro c hc
  have hall : ∀ c ∈ "none".toList, c.toNat % 256 ≠ 0 := by simp
  exact hall c hc

theorem prefix_plain (a : NlAddr) : Plain ('/' :: Nat.toDigits 10 (a.aPrefixlen % 2 ^ 32).toNat) :=
  plain_cons (by decide) (plain_decimal _)

/-- a printer, and the prefix behind it -/
theorem Leaves.prefix_iff {cond : Prop} {run : Mem → Option Mem} (h : Leaves size cond run) (a : NlAddr) :
    (∀ b, ∃ b', (run b).bind (putPrefix size a) = some b' ∧ (strlen size b').isSome) ↔ cond := by
  constructor
  · intro hall
    by_contra hcond
    -- a buffer without a terminator
    have hones : strlen size (fun _ => 1) = none := by
      rw [Option.eq_none_iff_forall_ne_some]
      intro l hl
      exact absurd (strlen_eq_some_iff.1 hl).2.1 (by decide)
    obtain ⟨b', hrun, -⟩ := hall fun _ => 1
    obtain ⟨b1, hb1, hprefix⟩ := Option.bind_eq_some_iff.1 hrun
    have hlost := h.noString hcond _ hones b1 hb1
    rw [putPrefix, appendTmp_none hlost] at hprefix
    cases hprefix
  · intro hcond b
    obtain ⟨b1, text, hrun, hstr⟩ := h.string hcond b
    obtain ⟨b2, happend, hstr2⟩ := appendTmp_isString hstr (prefix_plain a)
    refine ⟨b2, ?_, by rw [hstr2.strlen]; rfl⟩
    rw [hrun]
    exact happend

theorem inBounds_iff (hsize : 0 < size) (a : NlAddr) : InBounds size (some a) ↔ PrintsWell size a := by
  have hempty : Leaves size True fun b => snprintf size b 0 size (asBytes "none".toList) := by
    refine ⟨fun _ b => ?_, fun h => absurd trivial h⟩
    obtain ⟨b', hprint, hstr⟩ := snprintf_isString hsize b (zero_notMem_asBytes none_plain)
    exact ⟨b', _, hprint, hstr⟩
  rw [InBounds, PrintsWell]
  by_cases hne : a.aAddr = []
  · simp only [nlAddr2str, hne, if_true, true_or, iff_true]
    exact (hempty.prefix_iff a).2 trivial
  simp only [nlAddr2str, hne, if_false, false_or]
  by_cases hinet : a.aFamily = Family.AF_INET
  · simp only [if_pos hinet]
    exact (inetNtop_leaves a.aAddr 4 (inetNtop4_plain _ _)).prefix_iff a
  simp only [if_neg hinet]
  by_cases hinet6 : a.aFamily = Family.AF_INET6
  · simp only [if_pos hinet6]
    exact (inetNtop_leaves a.aAddr 16 (inetNtop6_plain _)).prefix_iff a
  simp only [if_neg hinet6]
  by_cases hmpls : a.aFamily = Family.AF_MPLS
  · simp only [if_pos hmpls]
    exact (mplsNtop1_leaves a.aAddr).prefix_iff a
  simp only [if_neg hmpls]
  by_cases hdnet : a.aFamily = AF_DECnet
  · simp only [if_pos hdnet]
    exact (dnetNtop_leaves a.aAddr).prefix_iff a
  simp only [if_neg hdnet, iff_true]
  intro b
  obtain ⟨b', text, hrun, hstr⟩ := llcNtop_string hsize hne b
  exact ⟨b', hrun, by rw [hstr.strlen]; rfl⟩

/-- **Printing stays in bounds**, for every buffer of at least one byte, exactly when the printer of the family finds the
bytes and the room it takes for granted. -/
theorem addr2str_in_bounds_iff (hsize : 0 < size) (addr : Option NlAddr) :
    InBounds size addr ↔ ∀ a ∈ addr, PrintsWell size a := by
  cases addr with
  | none =>
    refine iff_of_true (fun b => ?_) fun a ha => by cases ha
    obtain ⟨b', hprint, hstr⟩ := snprintf_isString hsize b (zero_notMem_asBytes none_plain)
    exact ⟨b', hprint, by rw [hstr.strlen]; rfl⟩
  | some a =>
    rw [inBounds_iff hsize a]
    exact ⟨fun h b hb => Option.some.inj hb ▸ h, fun h => h a rfl⟩

/-- a stack without a bottom, cut at the end of the buffer before more of it is read -/
theorem addr2str_in_bounds_label : InBounds 4 (some ⟨Family.AF_MPLS, 20, [0x10, 0, 0, 0]⟩) := by
  refine (addr2str_in_bounds_iff (by decide) _).2 ?_
  rintro a ha
  obtain rfl := Option.some.inj ha
  exact Or.inr ⟨0, by decide, fun j hj => absurd hj (Nat.not_lt_zero j), Or.inr ⟨by decide, by decide⟩⟩

/-- **An address of DECnet** in a buffer as long as its text: `1.1`, and no terminator -/
theorem dnet_fills : ¬ InBounds 3 (some ⟨AF_DECnet, 16, [1, 4]⟩) := by
  rw [inBounds_iff (by decide)]
  rintro (hempty | hfits)
  · cases hempty
  · exact absurd hfits.2 (by decide)

end

end Libnl.AddrPrint
