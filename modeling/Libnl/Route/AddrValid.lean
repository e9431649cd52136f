/-
Checking addresses (`nl_addr_valid` in `lib/addr.c`), and the setters of nexthops that use the check.

The check reads a text with the reader of a family, as `nl_addr_parse` does. For link-layer addresses it asks `sscanf` to
store nothing, and to have stored six numbers; so there is no such text. The setters give it the bytes of a binary address
for the text, and their number for the family. What has 2, 10, 12, 26 or 28 bytes is then read as text.

- `valid_iff_parse`: the check and the parser agree on every text and family, but for six numbers with colons.
- `readers_valid`: what the setters' check is with the readers of this library.
- `nexthop_setters_iff`: the addresses, and the stacks of labels, that the setters take.
- `llc_never_valid`, `three_labels_refused`: what is refused.
-/
import Mathlib.Tactic
import Libnl.Core.Scanf
import Libnl.Route.DnetText
import Libnl.Route.RouteCodec

namespace Libnl.AddrValid

open Bytes CString Inet Numeral Msg Addr AddrPrint AddrParse Scanf
open Route (RtnlNexthop textFamilies addrPasses rtnlRouteNhSetNewdst rtnlRouteNhSetVia rtnlRouteNhEncapMpls
  rtnlRouteNhAlloc)

/-! ## The check -/

/-- `"%*02x:%*02x:%*02x:%*02x:%*02x:%*02x"` -/
def llcSuppressed : List Directive := numbers false 2 ':' 6

/-- `nl_addr_valid` -/
def nlAddrValid (addr : List Char) (family : ℤ) : Bool :=
  if family = Family.AF_INET then (inetPton4 addr).isSome
  else if family = Family.AF_INET6 then (inetPton6 addr).isSome
  else if family = Family.AF_MPLS then decide (0 < (Mpls.mplsPton family addr 256).1)
  else if family = AF_DECnet then (dnetPton addr).isSome
  else if family = Family.AF_LLC then decide (sscanf addr llcSuppressed = 6)
  else true

/-- a word that `nl_addr_parse` knows -/
def Keyword (s : List Char) : Prop := ∃ w ∈ ["none", "default", "all", "any"], sameIgnoringCase s w.toList = true

/-- the families that the check knows -/
def checkedFamilies : List ℤ := [Family.AF_INET, Family.AF_INET6, Family.AF_MPLS, Family.AF_LLC, AF_DECnet]

/-- the check says that an address can be parsed exactly when it can -/
def Agree (s : List Char) (family : ℤ) : Prop := nlAddrValid s family = true ↔ ∃ a, nlAddrParse s family = .ok a

/-! ## The parser, family by family -/

theorem scanBytes_eq (k : ℕ) (s : List Char) : scanBytes k s = stored (numbers true 2 ':' k) s := by
  induction k using numbers.induct generalizing s with
  | case1 => rfl
  | case2 =>
    rw [scanBytes, numbers, stored]
    cases scanfHex 2 s with
    | none => rfl
    | some vr =>
      obtain ⟨v, r⟩ := vr
      cases r with
      | nil => rfl
      | cons d r =>
        by_cases hcolon : d = ':'
        · subst hcolon
          rfl
        · simp [hcolon, stored]
  | case3 k ih =>
    rw [scanBytes, numbers, stored]
    cases scanfHex 2 s with
    | none => rfl
    | some vr =>
      obtain ⟨v, r⟩ := vr
      cases r with
      | nil => rfl
      | cons d r =>
        by_cases hcolon : d = ':'
        · subst hcolon
          simp [stored, ih]
        · simp [hcolon, stored]

section
variable {s : List Char}

/-- without a word there is a guess -/
theorem guessAddr_of_not_keyword (hword : ¬ Keyword s) (hint : ℤ) : guessAddr s hint =
    (tryInet s hint <|> tryInet6 s hint <|> tryLlc s hint <|> tryDnet s hint <|> tryMpls s hint <|> tryBytes s hint).getD
      (.error (-NLE_NOADDR)) := by
  have hno : ∀ w ∈ ["none", "default", "all", "any"], sameIgnoringCase s w.toList = false := by
    intro w hw
    rw [← Bool.not_eq_true]
    intro hsame
    exact hword ⟨w, hw, hsame⟩
  rw [guessAddr, hno "none" (by decide), hno "default" (by decide), hno "all" (by decide), hno "any" (by decide)]
  rfl

theorem nlAddrParse_plain (family : ℤ) (hslash : family ≠ Family.AF_MPLS → '/' ∉ s) :
    (∃ a, nlAddrParse s family = .ok a) ↔ ∃ p, guessAddr s family = .ok p := by
  have hsplit : (if family = Family.AF_MPLS then (s, none) else splitPrefix s) = (s, none) := by
    by_cases hmpls : family = Family.AF_MPLS
    · rw [if_pos hmpls]
    · have hall : s.dropWhile (· ≠ '/') = [] := by
        rw [List.dropWhile_eq_nil_iff]
        intro c hc
        refine decide_eq_true fun heq => hslash hmpls ?_
        rw [← heq]
        exact hc
      rw [if_neg hmpls, splitPrefix, hall]
  rw [nlAddrParse, hsplit]
  dsimp only
  cases guessAddr s family with
  | error err => simp
  | ok p => simp [finishParse]

/-- with a family, the others are passed over -/
structure Passed (s : List Char) (family : ℤ) : Prop where
  inet : family ≠ Family.AF_INET → tryInet s family = none
  inet6 : family ≠ Family.AF_INET6 → tryInet6 s family = none
  llc : family ≠ Family.AF_LLC → tryLlc s family = none
  dnet : family ≠ AF_DECnet → tryDnet s family = none
  mpls : family ≠ Family.AF_MPLS → tryMpls s family = none
  bytes : tryBytes s family = none

theorem passed (s : List Char) {family : ℤ} (hset : family ≠ AF_UNSPEC) : Passed s family where
  inet h := tryFamily_none h (Or.inl hset)
  inet6 h := tryFamily_none h (Or.inl hset)
  llc h := tryFamily_none h (Or.inl hset)
  dnet h := tryFamily_none h (Or.inl hset)
  mpls h := if_neg h
  bytes := if_neg fun h => hset h.1

/-- a family that is tried with the texts of some shape only -/
theorem guess_shape (family : ℤ) {shape : Bool} {bytes : Option (List UInt8)} (hshape : bytes.isSome → shape = true) :
    (∃ p, (tryFamily family family shape bytes).getD (.error (-NLE_NOADDR)) = .ok p) ↔ bytes.isSome := by
  cases bytes with
  | none =>
    rw [tryFamily.eq_def]
    cases shape with
    | false => simp
    | true => simp
  | some bytes =>
    rw [tryFamily_some (Or.inl rfl) (hshape rfl)]
    simp

/-- **A family at a time**: what has its shape and is read -/
theorem guess_inet (hword : ¬ Keyword s) : (∃ p, guessAddr s Family.AF_INET = .ok p) ↔ (inetPton4 s).isSome := by
  have hpass := passed s (show Family.AF_INET ≠ AF_UNSPEC by decide)
  have hguess := (guess_shape Family.AF_INET fun _ => rfl : _ ↔ (inetPton4 s).isSome)
  rw [guessAddr_of_not_keyword hword, hpass.inet6 (by decide), hpass.llc (by decide), hpass.dnet (by decide),
    hpass.mpls (by decide), hpass.bytes, ← hguess, tryInet]
  simp

theorem guess_inet6 (hword : ¬ Keyword s) : (∃ p, guessAddr s Family.AF_INET6 = .ok p) ↔ (inetPton6 s).isSome := by
  have hpass := passed s (show Family.AF_INET6 ≠ AF_UNSPEC by decide)
  have hguess := (guess_shape Family.AF_INET6 fun _ => rfl : _ ↔ (inetPton6 s).isSome)
  rw [guessAddr_of_not_keyword hword, hpass.inet (by decide), hpass.llc (by decide), hpass.dnet (by decide),
    hpass.mpls (by decide), hpass.bytes, ← hguess, tryInet6]
  simp

theorem guess_llc (hword : ¬ Keyword s) : (∃ p, guessAddr s Family.AF_LLC = .ok p) ↔ Numbers 2 ':' 6 s := by
  have hpass := passed s (show Family.AF_LLC ≠ AF_UNSPEC by decide)
  have hcount : (scanBytes 6 s).length = 6 ↔ Numbers 2 ':' 6 s := by
    rw [scanBytes_eq]
    exact length_stored_eq_iff 5 s
  have hread : (if (scanBytes 6 s).length = 6 then some ((scanBytes 6 s).map UInt8.ofNat) else none).isSome ↔
      Numbers 2 ':' 6 s := by
    rw [← hcount]
    split_ifs with h
    · exact iff_of_true rfl h
    · exact iff_of_false Bool.false_ne_true h
  have hguess := (guess_shape Family.AF_LLC fun h => decide_eq_true (hread.1 h).sep_mem).trans hread
  rw [guessAddr_of_not_keyword hword, hpass.inet (by decide), hpass.inet6 (by decide), hpass.dnet (by decide),
    hpass.mpls (by decide), hpass.bytes, ← hguess, tryLlc]
  simp

theorem guess_dnet (hword : ¬ Keyword s) : (∃ p, guessAddr s AF_DECnet = .ok p) ↔ (dnetPton s).isSome := by
  have hpass := passed s (show AF_DECnet ≠ AF_UNSPEC by decide)
  have hshape : (dnetPton s).isSome → decide ('.' ∈ s ∨ ',' ∈ s) = true := by
    intro h
    obtain ⟨area, sep, node, rest, hparts⟩ := DnetText.exists_parts h
    have hmem : sep ∈ s := by
      rw [hparts.text]
      simp
    refine decide_eq_true ?_
    rcases hparts.separates with rfl | rfl
    · exact Or.inl hmem
    · exact Or.inr hmem
  have hguess := guess_shape AF_DECnet hshape
  rw [guessAddr_of_not_keyword hword, hpass.inet (by decide), hpass.inet6 (by decide), hpass.llc (by decide),
    hpass.mpls (by decide), hpass.bytes, ← hguess, tryDnet]
  simp

theorem guess_mpls (hword : ¬ Keyword s) :
    (∃ p, guessAddr s Family.AF_MPLS = .ok p) ↔ 0 < (Mpls.mplsPton Family.AF_MPLS s 256).1 := by
  have hpass := passed s (show Family.AF_MPLS ≠ AF_UNSPEC by decide)
  rw [guessAddr_of_not_keyword hword, hpass.inet (by decide), hpass.inet6 (by decide), hpass.llc (by decide),
    hpass.dnet (by decide), tryMpls, if_pos rfl]
  by_cases hpos : (Mpls.mplsPton Family.AF_MPLS s 256).1 ≤ 0
  · simp [hpos]
  · simp only [hpos, if_false]
    exact iff_of_true ⟨_, rfl⟩ (not_le.1 hpos)

/-! ## The check and the parser -/

/-- there is no text that the check takes for a link-layer address -/
theorem nlAddrValid_llc (s : List Char) : nlAddrValid s Family.AF_LLC = false := by
  have hle := sscanf_suppressed (stores_numbers 2 ':' 6) s
  have hne : ¬ sscanf s llcSuppressed = 6 := by
    rw [llcSuppressed]
    omega
  exact decide_eq_false hne

/-- what the check asks of a text in each family -/
theorem nlAddrValid_iff (s : List Char) (family : ℤ) : nlAddrValid s family = true ↔
    (family = Family.AF_INET → (inetPton4 s).isSome) ∧ (family = Family.AF_INET6 → (inetPton6 s).isSome) ∧
      (family = AF_DECnet → (dnetPton s).isSome) ∧ family ≠ Family.AF_LLC ∧
      (family = Family.AF_MPLS → 0 < (Mpls.mplsPton Family.AF_MPLS s 256).1) := by
  by_cases hllc : family = Family.AF_LLC
  · rw [hllc, nlAddrValid_llc]
    simp
  rw [nlAddrValid]
  split_ifs with hinet hinet6 hmpls hdnet
  · simp [hinet, Family.AF_INET, Family.AF_INET6, Family.AF_MPLS, Family.AF_LLC, AF_DECnet]
  · simp [hinet6, Family.AF_INET, Family.AF_INET6, Family.AF_MPLS, Family.AF_LLC, AF_DECnet]
  · simp [hmpls, Family.AF_INET, Family.AF_INET6, Family.AF_MPLS, Family.AF_LLC, AF_DECnet]
  · simp [hdnet, Family.AF_INET, Family.AF_INET6, Family.AF_MPLS, Family.AF_LLC, AF_DECnet]
  · simp [hinet, hinet6, hmpls, hdnet, hllc]

/-- **The check and the parser agree** on every text without a prefix length that is no word, in every family that the check
knows, except where six numbers are a link-layer address. -/
theorem valid_iff_parse {family : ℤ} (hfamily : family ∈ checkedFamilies) (hslash : family ≠ Family.AF_MPLS → '/' ∉ s)
    (hword : ¬ Keyword s) : Agree s family ↔ ¬ (family = Family.AF_LLC ∧ Numbers 2 ':' 6 s) := by
  rw [Agree, nlAddrParse_plain family hslash]
  simp only [checkedFamilies, List.mem_cons, List.not_mem_nil, or_false] at hfamily
  rcases hfamily with rfl | rfl | rfl | rfl | rfl
  · rw [guess_inet hword]
    exact iff_of_true Iff.rfl fun h => absurd h.1 (by decide)
  · rw [guess_inet6 hword]
    exact iff_of_true Iff.rfl fun h => absurd h.1 (by decide)
  · rw [guess_mpls hword]
    exact iff_of_true decide_eq_true_iff fun h => absurd h.1 (by decide)
  · rw [guess_llc hword, nlAddrValid_llc]
    simp
  · rw [guess_dnet hword]
    exact iff_of_true Iff.rfl fun h => absurd h.1 (by decide)

theorem valid_iff_parse_point : Agree "1.5".toList AF_DECnet ↔
    ¬ (AF_DECnet = Family.AF_LLC ∧ Numbers 2 ':' 6 "1.5".toList) :=
  valid_iff_parse (by decide) (fun _ => by decide) (by simp [Keyword, sameIgnoringCase])

/-- **Six numbers** are parsed as a link-layer address, and are none to the check. -/
theorem llc_never_valid : ¬ Agree "52:54:00:ab:cd:ef".toList Family.AF_LLC := by
  have hparse : ∃ a, nlAddrParse "52:54:00:ab:cd:ef".toList Family.AF_LLC = .ok a :=
    ⟨⟨Family.AF_LLC, 48, [0x52, 0x54, 0, 0xab, 0xcd, 0xef]⟩, by rfl⟩
  intro h
  have hvalid := h.2 hparse
  rw [nlAddrValid_llc] at hvalid
  cases hvalid

end

/-! ## Setters of nexthops -/

/-- the text that is read where bytes are taken for a string: up to the first zero, which may be behind them -/
def cString (bytes behind : List UInt8) : List Char :=
  ((bytes ++ behind).takeWhile (· ≠ 0)).map fun b => Char.ofNat b.toNat

/-- what the readers say of the bytes of an address, with this memory behind them -/
def readers (behind : List UInt8) (family : ℕ) (bytes : List UInt8) : Bool := nlAddrValid (cString bytes behind) family

/-- all three setters take the address -/
structure SettersAccept (behind : List UInt8) (addr : NlAddr) : Prop where
  newdst : ∀ nh, ∃ nh', rtnlRouteNhSetNewdst nh (readers behind) addr = .ok nh'
  via : ∀ nh, ∃ nh', rtnlRouteNhSetVia nh (readers behind) addr = .ok nh'
  encap : ∀ nh ttl, ∃ nh', rtnlRouteNhEncapMpls nh (readers behind) addr ttl = .ok nh'

/-- where the number of bytes is that of a family, they are text of this family -/
structure TextIfCounted (behind bytes : List UInt8) : Prop where
  two : bytes.length = 2 → (inetPton4 (cString bytes behind)).isSome
  ten : bytes.length = 10 → (inetPton6 (cString bytes behind)).isSome
  twelve : bytes.length = 12 → (dnetPton (cString bytes behind)).isSome
  twentySix : bytes.length ≠ 26
  twentyEight : bytes.length = 28 → 0 < (Mpls.mplsPton Family.AF_MPLS (cString bytes behind) 256).1

/-- the words of a stack of labels, in network order -/
def wordsBytes (words : List (BitVec 32)) : List UInt8 := words.flatMap be32Bytes

theorem wordsBytes_length (words : List (BitVec 32)) : (wordsBytes words).length = 4 * words.length := by
  rw [wordsBytes, List.length_flatMap]
  have hfour : words.map (fun w => (be32Bytes w).length) = words.map fun _ => 4 := List.map_congr_left fun w _ => rfl
  rw [hfour, List.map_const', List.sum_replicate, smul_eq_mul, mul_comm]

section
variable {behind : List UInt8}

/-- **The check of the setters**, with these readers, is that of a text. -/
theorem readers_valid (bytes : List UInt8) (family : ℕ) :
    Route.nlAddrValid (readers behind) bytes family = nlAddrValid (cString bytes behind) family := by
  rw [Route.nlAddrValid]
  split_ifs with hmem
  · rfl
  · have hno : ∀ n ∈ textFamilies, (family : ℤ) ≠ (n : ℤ) := by
      intro n hn heq
      exact hmem (Nat.cast_inj.1 heq ▸ hn)
    have hinet : (family : ℤ) ≠ Family.AF_INET := hno 2 (by decide)
    have hinet6 : (family : ℤ) ≠ Family.AF_INET6 := hno 10 (by decide)
    have hdnet : (family : ℤ) ≠ AF_DECnet := hno 12 (by decide)
    have hllc : (family : ℤ) ≠ Family.AF_LLC := hno 26 (by decide)
    have hmpls : (family : ℤ) ≠ Family.AF_MPLS := hno 28 (by decide)
    rw [nlAddrValid, if_neg hinet, if_neg hinet6, if_neg hmpls, if_neg hdnet, if_neg hllc]

theorem settersAccept_iff (addr : NlAddr) : SettersAccept behind addr ↔ addrPasses (readers behind) addr = true := by
  constructor
  · intro h
    obtain ⟨nh', hnh⟩ := h.newdst rtnlRouteNhAlloc
    rw [rtnlRouteNhSetNewdst] at hnh
    by_contra hno
    rw [if_neg hno] at hnh
    cases hnh
  · intro h
    exact ⟨fun nh => ⟨_, if_pos h⟩, fun nh => ⟨_, if_pos h⟩, fun nh ttl => ⟨_, if_pos h⟩⟩

theorem addrPasses_iff (addr : NlAddr) : addrPasses (readers behind) addr = true ↔ TextIfCounted behind addr.aAddr := by
  rw [addrPasses, readers_valid, nlAddrValid_iff]
  constructor
  · rintro ⟨hinet, hinet6, hdnet, hllc, hmpls⟩
    exact ⟨fun h => hinet (congrArg _ h), fun h => hinet6 (congrArg _ h), fun h => hdnet (congrArg _ h),
      fun h => hllc (congrArg _ h), fun h => hmpls (congrArg _ h)⟩
  · intro h
    exact ⟨fun heq => h.two (Nat.cast_inj.1 heq), fun heq => h.ten (Nat.cast_inj.1 heq),
      fun heq => h.twelve (Nat.cast_inj.1 heq), fun heq => h.twentySix (Nat.cast_inj.1 heq),
      fun heq => h.twentyEight (Nat.cast_inj.1 heq)⟩

/-- **The setters** take an address exactly if it is text where the number of its bytes is that of a family. A stack of labels
is text only by accident, and it has such a number of bytes if there are three labels, or seven. -/
theorem nexthop_setters_iff (behind : List UInt8) :
    (∀ words : List (BitVec 32), SettersAccept behind (nlAddrBuild Family.AF_MPLS (wordsBytes words)) ↔
      (words.length = 3 → (dnetPton (cString (wordsBytes words) behind)).isSome) ∧
        (words.length = 7 → 0 < (Mpls.mplsPton Family.AF_MPLS (cString (wordsBytes words) behind) 256).1)) ∧
      ∀ addr, SettersAccept behind addr ↔ TextIfCounted behind addr.aAddr := by
  refine ⟨fun words => ?_, fun addr => (settersAccept_iff addr).trans (addrPasses_iff addr)⟩
  rw [settersAccept_iff, addrPasses_iff]
  have hlen := wordsBytes_length words
  constructor
  · intro h
    exact ⟨fun h3 => h.twelve (by rw [nlAddrBuild, hlen]; omega), fun h7 => h.twentyEight (by rw [nlAddrBuild, hlen]; omega)⟩
  · rintro ⟨h3, h7⟩
    refine ⟨fun h => ?_, fun h => ?_, fun h => h3 ?_, fun h => ?_, fun h => h7 ?_⟩
    all_goals rw [nlAddrBuild, hlen] at h; omega

/-- **Three labels** are no address of DECnet. -/
theorem three_labels_refused : ¬ SettersAccept [] (nlAddrBuild Family.AF_MPLS (Mpls.stackBytes [16, 17, 18])) := by
  rw [settersAccept_iff]
  decide

end

end Libnl.AddrValid
