/-
Parsing addresses (`nl_addr_parse` in `lib/addr.c`), and what it makes of the addresses that `nl_addr2str` prints as pairs
of digits.

The parser is given a family, or none, and guesses from the text what it is. It tries internet addresses, then six pairs of
digits with colons, then addresses of DECnet, labels, and bytes with colons, however many. Nothing has to follow the six
pairs, but something may. A link-layer address is one of six pairs; with that family, the others are no addresses.

- `nlAddr2str_llc`: a link-layer address is printed whole where there is room.
- `inetPton6_llc`: eight groups are an internet address, and no other number of groups is.
- `guessAddr_llc`: what every number of bytes is read as, with the family and without one.
- `llc_round_trip`: up to six bytes come back, but fewer than six only without the family.
- `llc_pair_refused`: two bytes with the family.
-/
import Mathlib.Tactic
import Libnl.Message.Msg
import Libnl.Route.AddrPrint

namespace Libnl.AddrParse

open Bytes CString Inet Numeral Msg Addr AddrPrint

def AF_UNSPEC : ℤ := 0

/-! ## Parsing -/

/-- what is known at `prefix`: the family, the binary address, and a prefix length if it is not that of the address -/
structure Parsed where
  family : ℤ
  bytes : List UInt8
  plen : ℤ

/-- the conversions of `sscanf(str, "%02x:%02x:...")` that were made, of `k` -/
def scanBytes : ℕ → List Char → List ℕ
  | 0, _ => []
  | k + 1, s =>
    match scanfHex 2 s with
    | none => []
    | some (v, r) =>
      v :: match r with
        | ':' :: r => scanBytes k r
        | _ => []

/-- `dnet_num`: how many digits there are, and their value -/
def dnetNum (src : List Char) : ℕ × ℕ :=
  let digits := src.takeWhile Char.isDigit
  (digits.length, digits.foldl (fun dst c => (dst * 10 % 2 ^ 16 + (c.toNat - 48)) % 2 ^ 16) 0)

def dnetPton (src : List Char) : Option (List UInt8) :=
  let area := dnetNum src
  let rest := src.drop area.1
  if area.1 = 0 ∨ 63 < area.2 ∨ (rest.head? ≠ some '.' ∧ rest.head? ≠ some ',') then none
  else
    let node := dnetNum rest.tail
    if node.1 = 0 ∨ 1023 < node.2 then none
    else some [UInt8.ofNat ((area.2 * 1024 + node.2) % 256), UInt8.ofNat ((area.2 * 1024 + node.2) / 256)]

/-- the loop for bytes with colons, with `room` bytes of `buf` left. Any character separates them. -/
def parseBytes : ℕ → List Char → Option (List UInt8)
  | 0, _ => none
  | room + 1, s =>
    let r := strtolHex s
    if r.2 = s ∨ 0xff < r.1 then none
    else
      match r.2 with
      | [] => some [UInt8.ofInt r.1]
      | _ :: s => (parseBytes room s).map (UInt8.ofInt r.1 :: ·)

/-- one family after the other: where the text has the right shape, it is an address of that family, or it is none and that
is an error if the family was asked for -/
def tryFamily (family hint : ℤ) (shape : Bool) (bytes : Option (List UInt8)) : Option (Except ℤ Parsed) :=
  if (hint = family ∨ hint = AF_UNSPEC) ∧ shape = true then
    match bytes with
    | some bytes => some (.ok ⟨family, bytes, 0⟩)
    | none => if hint = family then some (.error (-NLE_NOADDR)) else none
  else none

def tryInet (str : List Char) (hint : ℤ) : Option (Except ℤ Parsed) := tryFamily Family.AF_INET hint true (inetPton4 str)

def tryInet6 (str : List Char) (hint : ℤ) : Option (Except ℤ Parsed) := tryFamily Family.AF_INET6 hint true (inetPton6 str)

def tryLlc (str : List Char) (hint : ℤ) : Option (Except ℤ Parsed) :=
  let bytes := scanBytes 6 str
  tryFamily Family.AF_LLC hint (decide (':' ∈ str)) (if bytes.length = 6 then some (bytes.map UInt8.ofNat) else none)

def tryDnet (str : List Char) (hint : ℤ) : Option (Except ℤ Parsed) :=
  tryFamily AF_DECnet hint (decide ('.' ∈ str ∨ ',' ∈ str)) (dnetPton str)

/-- `buf` has 256 bytes -/
def tryMpls (str : List Char) (hint : ℤ) : Option (Except ℤ Parsed) :=
  if hint = Family.AF_MPLS then
    let r := Mpls.mplsPton Family.AF_MPLS str 256
    if r.1 ≤ 0 then some (.error (-NLE_INVAL)) else some (.ok ⟨Family.AF_MPLS, r.2, 20⟩)
  else none

def tryBytes (str : List Char) (hint : ℤ) : Option (Except ℤ Parsed) :=
  if hint = AF_UNSPEC ∧ ':' ∈ str then
    match parseBytes 256 str with
    | some bytes => some (.ok ⟨AF_UNSPEC, bytes, 0⟩)
    | none => some (.error (-NLE_INVAL))
  else none

/-- an address without bits, of this family or of the one that is taken if there is none -/
def parseDefault (hint : ℤ) : Except ℤ Parsed :=
  if hint = Family.AF_INET ∨ hint = AF_UNSPEC then .ok ⟨Family.AF_INET, [], 0⟩
  else if hint = Family.AF_INET6 then .ok ⟨Family.AF_INET6, [], 0⟩
  else if hint = Family.AF_LLC then .ok ⟨Family.AF_LLC, [], 0⟩
  else .error (-NLE_AF_NOSUPPORT)

/-- everything before `prefix` -/
def guessAddr (str : List Char) (hint : ℤ) : Except ℤ Parsed :=
  if sameIgnoringCase str "none".toList then .ok ⟨hint, [], 0⟩
  else if sameIgnoringCase str "default".toList || sameIgnoringCase str "all".toList || sameIgnoringCase str "any".toList then
    parseDefault hint
  else
    (tryInet str hint <|> tryInet6 str hint <|> tryLlc str hint <|> tryDnet str hint <|> tryMpls str hint <|>
      tryBytes str hint).getD (.error (-NLE_NOADDR))

/-- the address, and what is behind the slash -/
def splitPrefix (str : List Char) : List Char × Option (List Char) :=
  match str.dropWhile (· ≠ '/') with
  | [] => (str, none)
  | _ :: p => (str.takeWhile (· ≠ '/'), some p)

/-- at `prefix`; the number is a `long`, the prefix length an `int` -/
def finishParse (p : Parsed) : Option (List Char) → Except ℤ NlAddr
  | some pl =>
    let r := strtol pl
    if r.2 = pl then .error (-NLE_INVAL) else .ok ⟨p.family, (BitVec.ofInt 32 r.1).toInt, p.bytes⟩
  | none => .ok ⟨p.family, if p.plen = 0 then p.bytes.length * 8 else p.plen, p.bytes⟩

/-- `nl_addr_parse`; in the text of labels a slash is none before a prefix length -/
def nlAddrParse (addrstr : List Char) (hint : ℤ) : Except ℤ NlAddr :=
  let split := if hint = Family.AF_MPLS then (addrstr, none) else splitPrefix addrstr
  match guessAddr split.1 hint with
  | .error err => .error err
  | .ok p => finishParse p split.2

/-- the address is printed into a buffer, and the string that is there is parsed -/
def printParse (size : ℕ) (a : NlAddr) (hint : ℤ) (b : Mem) : Option (Except ℤ NlAddr) :=
  ((nlAddr2str size (some a) b).bind (textOf size)).map fun str => nlAddrParse str hint

/-! ## What is printed -/

/-- pairs of digits with colons -/
def llcText : List UInt8 → List Char
  | [] => []
  | x :: xs => hexByte x ++ xs.flatMap fun y => ':' :: hexByte y

theorem llcText_cons (x y : UInt8) (ys : List UInt8) : llcText (x :: y :: ys) = hexByte x ++ ':' :: llcText (y :: ys) := by
  rw [llcText, llcText, List.flatMap_cons]
  rfl

theorem mem_hexByte {x : UInt8} {c : Char} (h : c ∈ hexByte x) : ∃ d < 16, c = d.digitChar := by
  have hlt := x.toNat_lt
  rcases List.mem_cons.1 h with rfl | h
  · exact ⟨_, by omega, rfl⟩
  · exact ⟨_, by omega, List.mem_singleton.1 h⟩

theorem mem_llcText {addr : List UInt8} {c : Char} (h : c ∈ llcText addr) : c = ':' ∨ ∃ d < 16, c = d.digitChar := by
  cases addr with
  | nil => cases h
  | cons x xs =>
    rcases List.mem_append.1 h with h | h
    · exact Or.inr (mem_hexByte h)
    · obtain ⟨y, -, hy⟩ := List.mem_flatMap.1 h
      rcases List.mem_cons.1 hy with hcolon | hdigit
      · exact Or.inl hcolon
      · exact Or.inr (mem_hexByte hdigit)

/-- one byte for a character, and nothing that means something else in an address -/
theorem llcText_chars {addr : List UInt8} {c : Char} (h : c ∈ llcText addr) :
    c.toNat < 256 ∧ c ≠ '/' ∧ c ≠ '.' ∧ c ≠ ',' := by
  have hdigits : ∀ d : Fin 16, (Nat.digitChar d).toNat < 256 ∧ Nat.digitChar d ≠ '/' ∧ Nat.digitChar d ≠ '.' ∧
      Nat.digitChar d ≠ ',' := by decide
  rcases mem_llcText h with rfl | ⟨d, hd, rfl⟩
  · decide
  · exact hdigits ⟨d, hd⟩

theorem colon_mem {addr : List UInt8} (h : 2 ≤ addr.length) : ':' ∈ llcText addr := by
  match addr, h with
  | x :: y :: ys, _ =>
    rw [llcText_cons]
    exact List.mem_append_right _ List.mem_cons_self

section
variable {size : ℕ}

/-- what has room is appended whole -/
theorem appendTmp_whole {b : Mem} {front : List UInt8} {text : List Char} (h : IsString size b front) (htext : Plain text)
    (htmp : text.length ≤ 15) (hroom : front.length + text.length < size) :
    ∃ b', appendTmp size text b = some b' ∧ IsString size b' (front ++ asBytes text) := by
  obtain ⟨b', happend, hstr⟩ := appendTmp_isString h htext
  rw [List.take_of_length_le htmp, List.take_of_length_le (by rw [asBytes_length]; omega)] at hstr
  exact ⟨b', happend, hstr⟩

theorem llcBytes_whole (xs : List UInt8) {b : Mem} {front : List UInt8} (h : IsString size b front)
    (hroom : front.length + 3 * xs.length < size) :
    ∃ b', xs.foldl (fun b x => b.bind (appendTmp size (':' :: hexByte x))) (some b) = some b' ∧
      IsString size b' (front ++ asBytes (xs.flatMap fun x => ':' :: hexByte x)) := by
  induction xs generalizing b front with
  | nil =>
    refine ⟨b, rfl, ?_⟩
    rw [List.flatMap_nil, asBytes, List.map_nil, List.append_nil]
    exact h
  | cons x xs ih =>
    have hlen : (':' :: hexByte x).length = 3 := rfl
    rw [List.length_cons] at hroom
    obtain ⟨b1, happend, hstr⟩ := appendTmp_whole h (colonByte_plain x) (by omega) (by omega)
    rw [List.foldl_cons, Option.bind_some, happend, List.flatMap_cons, asBytes_append, ← List.append_assoc]
    refine ih hstr ?_
    rw [List.length_append, asBytes_length]
    omega

/-- **A link-layer address** is printed whole. -/
theorem nlAddr2str_llc {a : NlAddr} (hfam : a.aFamily = Family.AF_LLC) (hne : a.aAddr ≠ []) (hsize : 3 * a.aAddr.length ≤ size)
    (b : Mem) : ∃ b', nlAddr2str size (some a) b = some b' ∧ IsString size b' (asBytes (llcText a.aAddr)) := by
  obtain ⟨x, xs, haddr⟩ := List.exists_cons_of_ne_nil hne
  have hprinter : nlAddr2str size (some a) b = llcNtop size a.aAddr b := by
    simp only [nlAddr2str, hfam, if_neg hne]
    rfl
  have hlen : (hexByte x).length = 2 := rfl
  rw [haddr, List.length_cons] at hsize
  have hpos : 0 < size := by omega
  obtain ⟨b1, hfirst, hstr⟩ := snprintf_isString hpos b (zero_notMem_asBytes (hexByte_plain x))
  rw [List.take_of_length_le (by rw [asBytes_length]; omega)] at hstr
  obtain ⟨b2, hrest, hstr2⟩ := llcBytes_whole xs hstr (by rw [asBytes_length]; omega)
  refine ⟨b2, ?_, ?_⟩
  · rw [hprinter, haddr, llcNtop, hfirst]
    exact hrest
  · rw [haddr, llcText, asBytes_append]
    exact hstr2

end

/-! ## How it is read -/

theorem byte_digits (x : UInt8) : 16 * (x.toNat / 16) + x.toNat % 16 = x.toNat := Nat.div_add_mod _ _

section
variable (x : UInt8)

theorem byte_high : x.toNat / 16 < 16 := by
  have hlt := x.toNat_lt
  omega

theorem byte_low : x.toNat % 16 < 16 := Nat.mod_lt _ (by decide)

theorem scanfHex_hexByte (r : List Char) : scanfHex 2 (hexByte x ++ r) = some (x.toNat, r) := by
  have hpair := scanfHex_pair (byte_high x) (byte_low x) r
  rwa [byte_digits] at hpair

theorem strtolHex_hexByte {r : List Char} (hr : Stops r) : strtolHex (hexByte x ++ r) = ((x.toNat : ℤ), r) := by
  have hpair := strtolHex_pair (byte_high x) (byte_low x) hr
  rwa [byte_digits] at hpair

end

/-- **Six pairs**, or as many as are asked for -/
theorem scanBytes_llc {addr : List UInt8} (hne : addr ≠ []) (k : ℕ) :
    scanBytes k (llcText addr) = (addr.take k).map UInt8.toNat := by
  induction addr generalizing k with
  | nil => exact absurd rfl hne
  | cons x xs ih =>
    cases k with
    | zero => rfl
    | succ k =>
      cases xs with
      | nil =>
        have hread := scanfHex_hexByte x []
        rw [List.append_nil] at hread
        rw [scanBytes, llcText, List.flatMap_nil, List.append_nil, hread, List.take_succ_cons, List.take_nil]
        rfl
      | cons y ys =>
        rw [scanBytes, llcText_cons, scanfHex_hexByte, List.take_succ_cons, List.map_cons, ← ih (List.cons_ne_nil y ys)]
        rfl

theorem parseBytes_llc {addr : List UInt8} (hne : addr ≠ []) {room : ℕ} (hroom : addr.length ≤ room) :
    parseBytes room (llcText addr) = some addr := by
  induction addr generalizing room with
  | nil => exact absurd rfl hne
  | cons x xs ih =>
    have hsmall : ¬ (0xff : ℤ) < x.toNat := by
      have hlt := x.toNat_lt
      omega
    have hbyte : UInt8.ofInt x.toNat = x := by
      rw [UInt8.ofInt, Int.emod_eq_of_lt (Int.natCast_nonneg _) (by exact_mod_cast x.toNat_lt), Int.toNat_natCast]
      exact UInt8.ofNat_toNat
    cases room with
    | zero => cases hroom
    | succ room =>
      cases xs with
      | nil =>
        have hread := strtolHex_hexByte x (r := []) fun c hc => by cases hc
        rw [List.append_nil] at hread
        rw [parseBytes, llcText, List.flatMap_nil, List.append_nil, hread]
        dsimp only
        have hmore : [] ≠ hexByte x := (List.cons_ne_nil _ _).symm
        rw [if_neg (not_or.2 ⟨hmore, hsmall⟩), hbyte]
      | cons y ys =>
        have hstops : Stops (':' :: llcText (y :: ys)) := by
          intro c hc
          obtain rfl := Option.some.inj hc
          decide
        have hmore : ':' :: llcText (y :: ys) ≠ hexByte x ++ ':' :: llcText (y :: ys) := by
          intro heq
          have hlen := congrArg List.length heq
          rw [List.length_append] at hlen
          simp only [hexByte, List.length_cons] at hlen
          omega
        rw [parseBytes, llcText_cons, strtolHex_hexByte x hstops]
        dsimp only
        rw [if_neg (not_or.2 ⟨hmore, hsmall⟩), hbyte, ih (List.cons_ne_nil y ys) (Nat.le_of_succ_le_succ hroom)]
        rfl

theorem pton6Loop_llc {addr : List UInt8} (hne : addr ≠ []) (tp : List UInt8) (curtok : List Char) :
    pton6Loop tp none 0 0 curtok (llcText addr) =
      if tp.length + 2 * addr.length = 16 then some (tp ++ addr.flatMap fun x => [0, x]) else none := by
  induction addr generalizing tp curtok with
  | nil => exact absurd rfl hne
  | cons x xs ih =>
    have hbyte : UInt8.ofNat x.toNat = x := UInt8.ofNat_toNat
    cases xs with
    | nil =>
      have hlast := pton6Loop_last (byte_high x) (byte_low x) tp curtok
      rw [byte_digits, hbyte] at hlast
      exact hlast
    | cons y ys =>
      have hmore : llcText (y :: ys) ≠ [] := List.append_ne_nil_of_left_ne_nil (List.cons_ne_nil _ _) _
      have hpair := pton6Loop_pair (byte_high x) (byte_low x) tp curtok hmore
      rw [byte_digits, hbyte, ih (List.cons_ne_nil y ys)] at hpair
      rw [llcText_cons]
      refine hpair.trans ?_
      rw [List.flatMap_cons, List.append_assoc, List.length_append]
      simp only [List.length_cons, List.length_nil]
      split_ifs
      · omega
      · rfl
      · rfl
      · omega
      · omega
      · rfl

/-- **Eight groups** are an internet address, and no other number is. -/
theorem inetPton6_llc {addr : List UInt8} (hne : addr ≠ []) :
    inetPton6 (llcText addr) = if addr.length = 8 then some (addr.flatMap fun x => [0, x]) else none := by
  obtain ⟨x, xs, rfl⟩ := List.exists_cons_of_ne_nil hne
  have hcolon : ∀ d : Fin 16, Nat.digitChar d ≠ ':' := by decide
  have hstart : inetPton6 (llcText (x :: xs)) = pton6Loop [] none 0 0 (llcText (x :: xs)) (llcText (x :: xs)) := by
    rw [llcText, hexByte, List.cons_append, inetPton6]
    · intro heq
      cases heq
    · intro src heq
      exact hcolon ⟨_, byte_high x⟩ (List.cons.inj heq).1
  rw [hstart, pton6Loop_llc hne, List.length_nil, List.nil_append]
  refine if_congr ?_ rfl rfl
  omega

theorem inetPton4_llc {addr : List UInt8} (h : 2 ≤ addr.length) : inetPton4 (llcText addr) = none :=
  pton4Loop_none (colon_mem h) (by decide) (by decide) ..

/-- no word -/
theorem not_word {str : List Char} (hcolon : ':' ∈ str) {word : List Char} (hword : ':' ∉ word.map Char.toLower) :
    sameIgnoringCase str word = false := by
  refine decide_eq_false fun heq => hword ?_
  rw [← heq]
  exact List.mem_map.2 ⟨':', hcolon, rfl⟩

section
variable {family hint : ℤ}

theorem tryFamily_some (hhint : hint = family ∨ hint = AF_UNSPEC) {shape : Bool} (hshape : shape = true)
    (bytes : List UInt8) : tryFamily family hint shape (some bytes) = some (.ok ⟨family, bytes, 0⟩) :=
  if_pos ⟨hhint, hshape⟩

/-- the family was not asked for, or the text has not its shape -/
theorem tryFamily_none {shape : Bool} {bytes : Option (List UInt8)} (hhint : hint ≠ family)
    (hother : hint ≠ AF_UNSPEC ∨ shape = false ∨ bytes = none) : tryFamily family hint shape bytes = none := by
  rw [tryFamily.eq_def]
  by_cases hcond : (hint = family ∨ hint = AF_UNSPEC) ∧ shape = true
  · rcases hother with h | h | rfl
    · exact absurd hcond.1 (not_or.2 ⟨hhint, h⟩)
    · rw [h] at hcond
      exact absurd hcond.2 Bool.false_ne_true
    · rw [if_pos hcond]
      exact if_neg hhint
  · exact if_neg hcond

theorem tryFamily_error {shape : Bool} (hshape : shape = true) :
    tryFamily family family shape none = some (.error (-NLE_NOADDR)) := by
  rw [tryFamily, if_pos ⟨Or.inl rfl, hshape⟩]
  exact if_pos rfl

end

/-- six pairs are a link-layer address, whatever follows -/
theorem tryLlc_llc {addr : List UInt8} (h : 2 ≤ addr.length) (hint : ℤ) : tryLlc (llcText addr) hint =
    tryFamily Family.AF_LLC hint true (if addr.length < 6 then none else some (addr.take 6)) := by
  have hbytes : ((addr.take 6).map UInt8.toNat).map UInt8.ofNat = addr.take 6 := by
    rw [List.map_map]
    exact List.map_id'' (fun x => UInt8.ofNat_toNat) _
  rw [tryLlc, scanBytes_llc (List.ne_nil_of_length_pos (by omega)), hbytes, List.length_map, List.length_take,
    decide_eq_true (colon_mem h)]
  by_cases hshort : addr.length < 6
  · rw [if_pos hshort, if_neg (by omega)]
  · rw [if_neg hshort, if_pos (by omega)]

/-- the words are passed over -/
theorem guessAddr_colon {str : List Char} (hcolon : ':' ∈ str) (hint : ℤ) : guessAddr str hint =
    (tryInet str hint <|> tryInet6 str hint <|> tryLlc str hint <|> tryDnet str hint <|> tryMpls str hint <|>
      tryBytes str hint).getD (.error (-NLE_NOADDR)) := by
  rw [guessAddr, not_word hcolon (by decide), not_word hcolon (by decide), not_word hcolon (by decide),
    not_word hcolon (by decide)]
  rfl

/-- **With the family**, six pairs are an address -/
theorem guessAddr_llc {addr : List UInt8} (h : 2 ≤ addr.length) : guessAddr (llcText addr) Family.AF_LLC =
    if addr.length < 6 then .error (-NLE_NOADDR) else .ok ⟨Family.AF_LLC, addr.take 6, 0⟩ := by
  have hinet : tryInet (llcText addr) Family.AF_LLC = none := tryFamily_none (by decide) (Or.inl (by decide))
  have hinet6 : tryInet6 (llcText addr) Family.AF_LLC = none := tryFamily_none (by decide) (Or.inl (by decide))
  rw [guessAddr_colon (colon_mem h), hinet, hinet6, tryLlc_llc h]
  by_cases hshort : addr.length < 6
  · rw [if_pos hshort, if_pos hshort, tryFamily_error rfl]
    rfl
  · rw [if_neg hshort, if_neg hshort, tryFamily_some (Or.inl rfl) rfl]
    rfl

/-- **Without a family**, eight groups are an internet address, and fewer than six pairs are bytes. -/
theorem guessAddr_unspec {addr : List UInt8} (h : 2 ≤ addr.length) : guessAddr (llcText addr) AF_UNSPEC =
    if addr.length = 8 then .ok ⟨Family.AF_INET6, addr.flatMap fun x => [0, x], 0⟩
    else if addr.length < 6 then .ok ⟨AF_UNSPEC, addr, 0⟩
    else .ok ⟨Family.AF_LLC, addr.take 6, 0⟩ := by
  have hne : addr ≠ [] := List.ne_nil_of_length_pos (by omega)
  have hinet : tryInet (llcText addr) AF_UNSPEC = none :=
    tryFamily_none (by decide) (Or.inr (Or.inr (inetPton4_llc h)))
  have hplain : ¬ ('.' ∈ llcText addr ∨ ',' ∈ llcText addr) :=
    not_or.2 ⟨fun hdot => (llcText_chars hdot).2.2.1 rfl, fun hcomma => (llcText_chars hcomma).2.2.2 rfl⟩
  have hdnet : tryDnet (llcText addr) AF_UNSPEC = none :=
    tryFamily_none (by decide) (Or.inr (Or.inl (decide_eq_false hplain)))
  rw [guessAddr_colon (colon_mem h), hinet, tryInet6, inetPton6_llc hne, tryLlc_llc h, hdnet]
  by_cases hgroups : addr.length = 8
  · rw [if_pos hgroups, if_pos hgroups, tryFamily_some (Or.inr rfl) rfl]
    rfl
  rw [if_neg hgroups, if_neg hgroups, tryFamily_none (by decide) (Or.inr (Or.inr rfl))]
  by_cases hshort : addr.length < 6
  · have hroom : addr.length ≤ 256 := by omega
    rw [if_pos hshort, if_pos hshort, tryFamily_none (by decide) (Or.inr (Or.inr rfl)), tryBytes, parseBytes_llc hne hroom,
      if_pos ⟨rfl, colon_mem h⟩]
    rfl
  · rw [if_neg hshort, if_neg hshort, tryFamily_some (Or.inr rfl) rfl]
    rfl

/-! ## Round trip -/

section
variable {size : ℕ} {a : NlAddr}

/-- no slash is in the text, so the prefix length is that of the address -/
theorem nlAddrParse_llc {addr : List UInt8} {hint : ℤ} (hhint : hint ≠ Family.AF_MPLS) :
    nlAddrParse (llcText addr) hint = match guessAddr (llcText addr) hint with
      | .error err => .error err
      | .ok p => finishParse p none := by
  have hslash : (llcText addr).dropWhile (· ≠ '/') = [] :=
    List.dropWhile_eq_nil_iff.2 fun c hc => decide_eq_true (llcText_chars hc).2.1
  have hsplit : splitPrefix (llcText addr) = (llcText addr, none) := by
    rw [splitPrefix, hslash]
  rw [nlAddrParse, if_neg hhint, hsplit]

theorem printParse_llc (hfam : a.aFamily = Family.AF_LLC) (hlen : 2 ≤ a.aAddr.length) (hsize : 3 * a.aAddr.length ≤ size)
    (hint : ℤ) (b : Mem) : printParse size a hint b = some (nlAddrParse (llcText a.aAddr) hint) := by
  obtain ⟨b', hprint, hstr⟩ := nlAddr2str_llc hfam (List.ne_nil_of_length_pos (by omega)) hsize b
  rw [printParse, hprint, Option.bind_some, hstr.textOf fun c hc => (llcText_chars hc).1]
  rfl

/-- **Round trip.** An address of six bytes comes back with its family or without one, and one of fewer only without: it is
no link-layer address then, and with the family the text is none. The text of eight bytes is that of an internet address. -/
theorem llc_round_trip (hfam : a.aFamily = Family.AF_LLC) (hlen : 2 ≤ a.aAddr.length) (hsize : 3 * a.aAddr.length ≤ size)
    (b : Mem) :
    (a.aAddr.length = 6 → ∀ hint, hint = Family.AF_LLC ∨ hint = AF_UNSPEC →
      printParse size a hint b = some (.ok ⟨Family.AF_LLC, 48, a.aAddr⟩)) ∧
    (a.aAddr.length < 6 →
      printParse size a AF_UNSPEC b = some (.ok ⟨AF_UNSPEC, a.aAddr.length * 8, a.aAddr⟩) ∧
      printParse size a Family.AF_LLC b = some (.error (-NLE_NOADDR))) ∧
    (a.aAddr.length = 8 →
      printParse size a AF_UNSPEC b = some (.ok ⟨Family.AF_INET6, 128, a.aAddr.flatMap fun x => [0, x]⟩)) := by
  have hprint := fun hint => printParse_llc hfam hlen hsize hint b
  refine ⟨fun hsix hint hhint => ?_, fun hshort => ⟨?_, ?_⟩, fun hgroups => ?_⟩
  · have htake : a.aAddr.take 6 = a.aAddr := List.take_of_length_le hsix.le
    rcases hhint with rfl | rfl
    · rw [hprint, nlAddrParse_llc (by decide), guessAddr_llc hlen, if_neg (by omega), htake]
      simp [finishParse, hsix]
    · rw [hprint, nlAddrParse_llc (by decide), guessAddr_unspec hlen, if_neg (by omega), if_neg (by omega), htake]
      simp [finishParse, hsix]
  · rw [hprint, nlAddrParse_llc (by decide), guessAddr_unspec hlen, if_neg (by omega), if_pos hshort]
    rfl
  · rw [hprint, nlAddrParse_llc (by decide), guessAddr_llc hlen, if_pos hshort]
  · have hbytes : (a.aAddr.flatMap fun x => [0, x]).length = 16 := by
      rw [List.length_flatMap]
      simp [hgroups]
    rw [hprint, nlAddrParse_llc (by decide), guessAddr_unspec hlen, if_pos hgroups]
    simp [finishParse, hbytes]

end

/-- six bytes, in a buffer that their text fills -/
theorem llc_round_trip_six : printParse 18 ⟨Family.AF_LLC, 0, [0x52, 0x54, 0, 0xab, 0xcd, 0xef]⟩ AF_UNSPEC (fun _ => 0) =
    some (.ok ⟨Family.AF_LLC, 48, [0x52, 0x54, 0, 0xab, 0xcd, 0xef]⟩) :=
  (llc_round_trip rfl (by decide) (by decide) _).1 rfl _ (Or.inr rfl)

/-- **Two bytes**, printed and given to the parser with their family -/
theorem llc_pair_refused : ¬ ∃ r, printParse 6 ⟨Family.AF_LLC, 16, [0xab, 0xcd]⟩ Family.AF_LLC (fun _ => 0) = some (.ok r) ∧
    r.aAddr = [0xab, 0xcd] := by
  rintro ⟨r, hparse, -⟩
  rw [printParse_llc rfl (by decide) (by decide), nlAddrParse_llc (by decide), guessAddr_llc (by decide)] at hparse
  cases hparse

end Libnl.AddrParse
