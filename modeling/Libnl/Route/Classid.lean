/-
Names of traffic control handles (`lib/route/classid.c`).

A table has a name for some handles; it is searched by name, through a hash table, and by handle, through a search tree. A
handle is printed as one of three words, as its name, or as its halves with a colon. The parser knows the words, then tries
a hexadecimal number, and only if the text is none takes it for a name. So a name that is a hexadecimal number is printed,
but read as the number.

- `filled_tblName`, `filled_idRoot`: what the two tables hold after a list of names was added.
- `str2handle_name`: how a name is read.
- `handle_round_trip`: every handle comes back, except where its name is a number; then the number does.
- `cafe_is_a_number`: a name of that kind.
-/
import Mathlib.Tactic
import Mathlib.Data.List.TakeWhile
import Libnl.Core.CString
import Libnl.Core.Numeral
import Libnl.Message.Msg

namespace Libnl.Classid

open Numeral Msg
open CString (sameIgnoringCase)

/-! ## Handles -/

abbrev Handle := BitVec 32

def TC_H_MAJ_MASK : Handle := 0xFFFF0000
def TC_H_MIN_MASK : Handle := 0x0000FFFF

def TC_H_MAJ (h : Handle) : Handle := h &&& TC_H_MAJ_MASK
def TC_H_MIN (h : Handle) : Handle := h &&& TC_H_MIN_MASK

def TC_H_UNSPEC : Handle := 0
def TC_H_ROOT : Handle := 0xFFFFFFFF
def TC_H_INGRESS : Handle := 0xFFFFFFF1

/-! ## Tables -/

/-- `struct classid_map` -/
structure ClassidMap where
  classid : Handle
  name : List Char
deriving DecidableEq

def CLASSID_NAME_HT_SIZ : ℕ := 256

/-- `tbl_name`, lists in the order of their entries, and what the search tree at `id_root` holds -/
structure ClassidTables where
  tblName : Fin CLASSID_NAME_HT_SIZ → List ClassidMap
  idRoot : List ClassidMap

def ClassidTables.empty : ClassidTables := ⟨fun _ => [], []⟩

def compareId (ma mb : ClassidMap) : ℤ :=
  if ma.classid < mb.classid then -1
  else if mb.classid < ma.classid then 1
  else 0

/-- `tfind` -/
def tfind (key : ClassidMap) (root : List ClassidMap) : Option ClassidMap :=
  root.find? fun m => decide (compareId key m = 0)

/-- `tsearch`: a key that is there already stays as it is -/
def tsearch (key : ClassidMap) (root : List ClassidMap) : List ClassidMap :=
  if (tfind key root).isSome then root else root ++ [key]

/-- `classid_tbl_hash`; whether characters have signs makes no difference for what is left of the sum -/
def classidTblHash (str : List Char) : Fin CLASSID_NAME_HT_SIZ :=
  Fin.ofNat 256 (str.foldl (fun hash c => (hash <<< 5 + hash + c.toNat) % 2 ^ 64) 5381)

def classidMapAdd (t : ClassidTables) (map : ClassidMap) : ClassidTables where
  tblName := Function.update t.tblName (classidTblHash map.name) (t.tblName (classidTblHash map.name) ++ [map])
  idRoot := tsearch map t.idRoot

def classidLookup (t : ClassidTables) (name : List Char) : Except ℤ Handle :=
  match (t.tblName (classidTblHash name)).find? fun map => sameIgnoringCase map.name name with
  | some map => .ok map.classid
  | none => .error (-NLE_OBJ_NOTFOUND)

def nameLookup (t : ClassidTables) (classid : Handle) : Option (List Char) :=
  (tfind ⟨classid, "search entry".toList⟩ t.idRoot).map ClassidMap.name

/-! ## Printing -/

/-- what `snprintf` leaves in a buffer of `len` bytes -/
def snprintf (len : ℕ) (s : List Char) : List Char := s.take (len - 1)

/-- the text that goes to `snprintf` -/
def handleText (t : ClassidTables) (handle : Handle) : List Char :=
  if handle = TC_H_ROOT then "root".toList
  else if handle = TC_H_UNSPEC then "none".toList
  else if handle = TC_H_INGRESS then "ingress".toList
  else
    match nameLookup t handle with
    | some name => name
    | none =>
      if TC_H_MAJ handle = 0 then ':' :: Nat.toDigits 16 (TC_H_MIN handle).toNat
      else if TC_H_MIN handle = 0 then Nat.toDigits 16 (TC_H_MAJ handle >>> 16).toNat ++ [':']
      else Nat.toDigits 16 (TC_H_MAJ handle >>> 16).toNat ++ ':' :: Nat.toDigits 16 (TC_H_MIN handle).toNat

def rtnlTcHandle2str (t : ClassidTables) (handle : Handle) (len : ℕ) : List Char := snprintf len (handleText t handle)

/-! ## Parsing -/

/-- at `update`: the minor number behind the colon -/
def parseMinor (h : Handle) (rest : List Char) : Except ℤ Handle :=
  let r := strtoulHex rest
  let l : Handle := BitVec.ofNat 32 r.1
  -- check if we overlap with major part
  if TC_H_MAJ l ≠ 0 then .error (-NLE_RANGE)
  else if r.2 ≠ [] then .error (-NLE_INVAL)
  else .ok (h ||| l)

/-- at a colon, with the number before it -/
def parseMajor (h : Handle) (rest : List Char) : Except ℤ Handle :=
  -- check if we would lose bits
  if TC_H_MAJ h ≠ 0 then .error (-NLE_RANGE)
  else if rest = [] then .ok (h <<< 16)
  else parseMinor (h <<< 16) rest

/-- at `not_a_number` -/
def parseName (t : ClassidTables) (str colon : List Char) : Except ℤ Handle :=
  match colon with
  | ':' :: rest => parseMajor 0 rest
  | _ =>
    match str.dropWhile (· ≠ ':') with
    | [] => classidLookup t str
    | _ :: rest =>
      let name := str.takeWhile (· ≠ ':')
      if 64 ≤ name.length then .error (-NLE_INVAL)
      else
        match classidLookup t name with
        | .error err => .error err
        | .ok h =>
          -- a name stands for a qdisc, and something has to follow
          if TC_H_MIN h ≠ 0 then .error (-NLE_INVAL)
          else if rest = [] then .error (-NLE_INVAL)
          else parseMinor h rest

def rtnlTcStr2handle (t : ClassidTables) (str : List Char) : Except ℤ Handle :=
  if sameIgnoringCase str "root".toList then .ok TC_H_ROOT
  else if sameIgnoringCase str "none".toList then .ok TC_H_UNSPEC
  else if sameIgnoringCase str "ingress".toList then .ok TC_H_INGRESS
  else
    let r := strtoulHex str
    let h : Handle := BitVec.ofNat 32 r.1
    if r.2.length = str.length then parseName t str r.2
    else
      match r.2 with
      | ':' :: rest => parseMajor h rest
      | [] => .ok h
      | _ => parseName t str r.2

/-! ## Names that were added -/

/-- the tables after these names were added, one after the other -/
def filled (entries : List ClassidMap) : ClassidTables := entries.foldl classidMapAdd ClassidTables.empty

/-- different handles, and names that differ even ignoring case, have no colon, and are none of the words -/
structure Names (entries : List ClassidMap) : Prop where
  ids : (entries.map ClassidMap.classid).Nodup
  names : entries.Pairwise fun a b => sameIgnoringCase a.name b.name = false
  colon : ∀ e ∈ entries, ':' ∉ e.name
  words : ∀ e ∈ entries, ∀ w ∈ ["root", "none", "ingress"], sameIgnoringCase e.name w.toList = false

instance (entries : List ClassidMap) : Decidable (Names entries) :=
  decidable_of_iff ((entries.map ClassidMap.classid).Nodup ∧
    (entries.Pairwise fun a b => sameIgnoringCase a.name b.name = false) ∧ (∀ e ∈ entries, ':' ∉ e.name) ∧
    ∀ e ∈ entries, ∀ w ∈ ["root", "none", "ingress"], sameIgnoringCase e.name w.toList = false)
    (Iff.intro (fun h => Names.mk h.1 h.2.1 h.2.2.1 h.2.2.2) fun h => And.intro h.ids ⟨h.names, h.colon, h.words⟩)

theorem compareId_eq_zero_iff (a b : ClassidMap) : compareId a b = 0 ↔ b.classid = a.classid := by
  rw [compareId]
  split_ifs with hlt hgt
  · refine iff_of_false (by decide) ?_
    intro heq
    rw [heq] at hlt
    exact BitVec.lt_irrefl _ hlt
  · refine iff_of_false (by decide) ?_
    intro heq
    rw [heq] at hgt
    exact BitVec.lt_irrefl _ hgt
  · refine iff_of_true rfl ?_
    exact BitVec.le_antisymm (BitVec.not_lt.1 hlt) (BitVec.not_lt.1 hgt)

theorem filled_snoc (entries : List ClassidMap) (e : ClassidMap) :
    filled (entries ++ [e]) = classidMapAdd (filled entries) e := by
  rw [filled, List.foldl_append]
  rfl

/-- **The hash table** has every name where it belongs, in the order they were added. -/
theorem filled_tblName (entries : List ClassidMap) (n : Fin CLASSID_NAME_HT_SIZ) :
    (filled entries).tblName n = entries.filter fun e => decide (classidTblHash e.name = n) := by
  induction entries using List.reverseRecOn with
  | nil => rfl
  | append_singleton entries e ih =>
    rw [filled_snoc, List.filter_append, ← ih, classidMapAdd]
    dsimp only
    by_cases hn : classidTblHash e.name = n
    · rw [hn, Function.update_self, List.filter_cons_of_pos (by simpa using hn), List.filter_nil]
    · rw [Function.update_of_ne (Ne.symm hn), List.filter_cons_of_neg (by simpa using hn), List.filter_nil, List.append_nil]

/-- **The search tree** has every handle. -/
theorem filled_idRoot {entries : List ClassidMap} (hids : (entries.map ClassidMap.classid).Nodup) :
    (filled entries).idRoot = entries := by
  induction entries using List.reverseRecOn with
  | nil => rfl
  | append_singleton entries e ih =>
    rw [List.map_append, List.nodup_append] at hids
    obtain ⟨hbefore, -, hnew⟩ := hids
    have hnone : tfind e entries = none := by
      rw [tfind, List.find?_eq_none]
      intro m hm hzero
      rw [decide_eq_true_eq, compareId_eq_zero_iff] at hzero
      exact hnew _ (List.mem_map_of_mem hm) _ (List.mem_singleton.2 rfl) hzero
    rw [filled_snoc, classidMapAdd]
    dsimp only
    rw [ih hbefore, tsearch, hnone]
    rfl

theorem sameIgnoringCase_self (s : List Char) : sameIgnoringCase s s = true := decide_eq_true rfl

theorem sameIgnoringCase_comm (s t : List Char) : sameIgnoringCase s t = sameIgnoringCase t s := by
  rw [sameIgnoringCase, sameIgnoringCase]
  exact decide_eq_decide.2 eq_comm

/-- a name of the table is looked up under the handle it was added for -/
theorem classidLookup_filled {entries : List ClassidMap} (h : Names entries) {e : ClassidMap} (he : e ∈ entries) :
    classidLookup (filled entries) e.name = .ok e.classid := by
  have hsame : ∀ m ∈ entries, sameIgnoringCase m.name e.name = true → m = e := by
    intro m hm hname
    by_contra hne
    have hsymm : Std.Symm fun a b : ClassidMap => sameIgnoringCase a.name b.name = false :=
      ⟨fun a b hab => (sameIgnoringCase_comm b.name a.name).trans hab⟩
    have hdiff := h.names.forall hm he hne
    rw [hname] at hdiff
    cases hdiff
  have hbucket : e ∈ (filled entries).tblName (classidTblHash e.name) := by
    rw [filled_tblName]
    exact List.mem_filter.2 ⟨he, decide_eq_true rfl⟩
  rw [classidLookup]
  cases hfind : ((filled entries).tblName (classidTblHash e.name)).find? fun map => sameIgnoringCase map.name e.name with
  | none =>
    have hno := List.find?_eq_none.1 hfind e hbucket
    exact absurd (sameIgnoringCase_self e.name) hno
  | some m =>
    have hm : m ∈ entries := by
      have hmem := List.mem_of_find?_eq_some hfind
      rw [filled_tblName] at hmem
      exact (List.mem_filter.1 hmem).1
    have hname := List.find?_some hfind
    rw [hsame m hm hname]

theorem nameLookup_filled {entries : List ClassidMap} (h : Names entries) {handle : Handle} {name : List Char}
    (hname : nameLookup (filled entries) handle = some name) : (⟨handle, name⟩ : ClassidMap) ∈ entries := by
  rw [nameLookup, filled_idRoot h.ids] at hname
  obtain ⟨m, hm, rfl⟩ := Option.map_eq_some_iff.1 hname
  have hzero := List.find?_some hm
  rw [decide_eq_true_eq, compareId_eq_zero_iff] at hzero
  have hid : m.classid = handle := hzero
  rw [← hid]
  exact List.mem_of_find?_eq_some hm

/-! ## Halves -/

theorem maj_or_min (h : Handle) : (TC_H_MAJ h >>> 16) <<< 16 ||| TC_H_MIN h = h := by
  have hmaj : ∀ i : Fin 32, TC_H_MAJ_MASK.getLsbD i = decide (16 ≤ i.val) := by decide
  have hmin : ∀ i : Fin 32, TC_H_MIN_MASK.getLsbD i = decide (i.val < 16) := by decide
  refine BitVec.eq_of_getLsbD_eq fun i hi => ?_
  rw [TC_H_MAJ, TC_H_MIN, BitVec.getLsbD_or, BitVec.getLsbD_shiftLeft, BitVec.getLsbD_ushiftRight, BitVec.getLsbD_and,
    BitVec.getLsbD_and, hmin ⟨i, hi⟩]
  by_cases hlt : i < 16
  · simp [hlt]
  · have hback : 16 + (i - 16) = i := by omega
    rw [hback, hmaj ⟨i, hi⟩]
    simp [hlt, hi]
    omega

theorem maj_of_maj (h : Handle) : TC_H_MAJ (TC_H_MAJ h >>> 16) = 0 := by
  have hmaj : ∀ i : Fin 32, TC_H_MAJ_MASK.getLsbD i = decide (16 ≤ i.val) := by decide
  refine BitVec.eq_of_getLsbD_eq fun i hi => ?_
  rw [TC_H_MAJ, BitVec.getLsbD_and, BitVec.getLsbD_ushiftRight, hmaj ⟨i, hi⟩]
  by_cases hlt : i < 16
  · simp [hlt]
  · have hout : (TC_H_MAJ h).getLsbD (16 + i) = false := BitVec.getLsbD_of_ge _ _ (by omega)
    rw [hout, Bool.false_and]
    exact BitVec.getLsbD_zero.symm

theorem maj_of_min (h : Handle) : TC_H_MAJ (TC_H_MIN h) = 0 := by
  rw [TC_H_MAJ, TC_H_MIN, BitVec.and_assoc]
  exact BitVec.and_zero

/-! ## Reading what was printed -/

theorem handle_le (h : Handle) : h.toNat ≤ ULONG_MAX := by
  have hlt := h.isLt
  rw [ULONG_MAX]
  omega

theorem stops_colon (rest : List Char) : Stops (':' :: rest) := by
  intro c hc
  obtain rfl : ':' = c := Option.some.inj hc
  decide

theorem stops_nil : Stops [] := by
  intro c hc
  cases hc

/-- a text with a colon is none of the words -/
theorem word_of_colon {s w : List Char} (hs : ':' ∈ s) (hw : ':' ∉ w.map Char.toLower) : sameIgnoringCase s w = false := by
  refine decide_eq_false fun heq => hw ?_
  rw [← heq]
  exact List.mem_map.2 ⟨':', hs, by decide⟩

theorem str2handle_colon {t : ClassidTables} {str : List Char} (h : ':' ∈ str) :
    rtnlTcStr2handle t str =
      if (strtoulHex str).2.length = str.length then parseName t str (strtoulHex str).2
      else
        match (strtoulHex str).2 with
        | ':' :: rest => parseMajor (BitVec.ofNat 32 (strtoulHex str).1) rest
        | [] => .ok (BitVec.ofNat 32 (strtoulHex str).1)
        | _ => parseName t str (strtoulHex str).2 := by
  rw [rtnlTcStr2handle, word_of_colon h (by decide), word_of_colon h (by decide), word_of_colon h (by decide)]
  rfl

/-- the minor number, as it is printed -/
theorem parseMinor_digits (h l : Handle) : parseMinor h (Nat.toDigits 16 (TC_H_MIN l).toNat) = .ok (h ||| TC_H_MIN l) := by
  have hread := strtoulHex_toDigits (handle_le (TC_H_MIN l)) stops_nil
  rw [List.append_nil] at hread
  rw [parseMinor, hread]
  dsimp only
  rw [BitVec.ofNat_toNat, BitVec.setWidth_eq, if_neg (not_not.2 (maj_of_min l)), if_neg (not_not.2 rfl)]

/-- a text that begins with a colon -/
theorem strtoulHex_colon (rest : List Char) : strtoulHex (':' :: rest) = (0, ':' :: rest) := by
  have hspace : (':' :: rest).dropWhile isSpace = ':' :: rest := by
    rw [List.dropWhile_cons, if_neg (by decide)]
  have hsign : signOf (':' :: rest) = (false, ':' :: rest) := rfl
  have hdigits : hexDigits (':' :: rest) = ':' :: rest := by
    unfold hexDigits
    rfl
  rw [strtoulHex, hspace, hsign]
  dsimp only
  rw [hdigits, List.head?_cons, Option.bind_some, if_pos (by decide)]

/-- `:MIN` -/
theorem str2handle_minor (t : ClassidTables) {h : Handle} (hmaj : TC_H_MAJ h = 0) :
    rtnlTcStr2handle t (':' :: Nat.toDigits 16 (TC_H_MIN h).toNat) = .ok h := by
  have hzero : TC_H_MAJ 0 = 0 := by decide
  have hne : Nat.toDigits 16 (TC_H_MIN h).toNat ≠ [] := Nat.toDigits_ne_nil
  have hwhole := maj_or_min h
  rw [hmaj] at hwhole
  rw [str2handle_colon List.mem_cons_self, strtoulHex_colon, if_pos rfl, parseName, parseMajor, if_neg (not_not.2 hzero),
    if_neg hne, parseMinor_digits]
  exact congrArg _ hwhole

/-- the major number, as it is printed -/
theorem str2handle_major (t : ClassidTables) (h : Handle) (rest : List Char) :
    rtnlTcStr2handle t (Nat.toDigits 16 (TC_H_MAJ h >>> 16).toNat ++ ':' :: rest) =
      if rest = [] then .ok ((TC_H_MAJ h >>> 16) <<< 16) else parseMinor ((TC_H_MAJ h >>> 16) <<< 16) rest := by
  have hread := strtoulHex_toDigits (handle_le (TC_H_MAJ h >>> 16)) (stops_colon rest)
  have hpos := List.length_pos_iff.2 (Nat.toDigits_ne_nil (b := 16) (n := (TC_H_MAJ h >>> 16).toNat))
  have hmoved : ¬ (':' :: rest).length = (Nat.toDigits 16 (TC_H_MAJ h >>> 16).toNat ++ ':' :: rest).length := by
    rw [List.length_append]
    omega
  rw [str2handle_colon (List.mem_append_right _ List.mem_cons_self), hread, if_neg hmoved]
  dsimp only
  rw [BitVec.ofNat_toNat, BitVec.setWidth_eq]
  exact if_neg (not_not.2 (maj_of_maj h))

/-- the handle a name is read as, if it is a number -/
def numeral (name : List Char) : Option Handle :=
  let r := strtoulHex name
  if r.2.length ≠ name.length ∧ r.2 = [] then some (BitVec.ofNat 32 r.1) else none

/-- without a colon there is only the name to look up -/
theorem parseName_plain (t : ClassidTables) {str colon : List Char} (hstr : ':' ∉ str) (hcolon : ':' ∉ colon) :
    parseName t str colon = classidLookup t str := by
  have hall : str.dropWhile (· ≠ ':') = [] := by
    rw [List.dropWhile_eq_nil_iff]
    intro c hc
    refine decide_eq_true ?_
    rintro rfl
    exact hstr hc
  unfold parseName
  split
  · exact absurd List.mem_cons_self hcolon
  · rw [hall]

/-- **A name** is read as a number if it is one, and looked up else. -/
theorem str2handle_name {entries : List ClassidMap} (h : Names entries) {e : ClassidMap} (he : e ∈ entries) :
    rtnlTcStr2handle (filled entries) e.name = .ok ((numeral e.name).getD e.classid) := by
  have hcolon := h.colon e he
  have hword := h.words e he
  have hroot := hword "root" (by decide)
  have hnone := hword "none" (by decide)
  have hingress := hword "ingress" (by decide)
  have hsuffix := strtoulHex_suffix e.name
  have hname : parseName (filled entries) e.name (strtoulHex e.name).2 = .ok e.classid := by
    rw [parseName_plain _ hcolon fun hmem => hcolon (hsuffix.mem hmem)]
    exact classidLookup_filled h he
  rw [rtnlTcStr2handle, hroot, hnone, hingress, numeral]
  simp only [Bool.false_eq_true, if_false]
  by_cases hread : (strtoulHex e.name).2.length = e.name.length
  · rw [if_pos hread, if_neg fun hboth => hboth.1 hread]
    exact hname
  · rw [if_neg hread]
    cases hleft : (strtoulHex e.name).2 with
    | nil =>
      rw [if_pos ⟨by rw [← hleft]; exact hread, rfl⟩]
      rfl
    | cons c rest =>
      rw [hleft] at hname hsuffix
      have hc : c ≠ ':' := by
        rintro rfl
        exact hcolon (hsuffix.mem List.mem_cons_self)
      rw [if_neg fun hboth => List.cons_ne_nil _ _ hboth.2]
      split
      · rename_i heq
        exact absurd (List.cons.inj heq).1 hc
      · rename_i heq
        cases heq
      · exact hname

/-- the handle that a printed handle is read as -/
def readBack (t : ClassidTables) (handle : Handle) : Handle :=
  if handle = TC_H_ROOT ∨ handle = TC_H_UNSPEC ∨ handle = TC_H_INGRESS then handle
  else ((nameLookup t handle).bind numeral).getD handle

theorem str2handle_text {entries : List ClassidMap} (h : Names entries) (handle : Handle) :
    rtnlTcStr2handle (filled entries) (handleText (filled entries) handle) = .ok (readBack (filled entries) handle) := by
  rw [handleText, readBack]
  by_cases hroot : handle = TC_H_ROOT
  · rw [if_pos hroot, if_pos (Or.inl hroot), hroot]
    rfl
  by_cases hnone : handle = TC_H_UNSPEC
  · rw [if_neg hroot, if_pos hnone, if_pos (Or.inr (Or.inl hnone)), hnone]
    rfl
  by_cases hingress : handle = TC_H_INGRESS
  · rw [if_neg hroot, if_neg hnone, if_pos hingress, if_pos (Or.inr (Or.inr hingress)), hingress]
    rfl
  have hword : ¬ (handle = TC_H_ROOT ∨ handle = TC_H_UNSPEC ∨ handle = TC_H_INGRESS) :=
    not_or.2 ⟨hroot, not_or.2 ⟨hnone, hingress⟩⟩
  rw [if_neg hroot, if_neg hnone, if_neg hingress, if_neg hword]
  cases hname : nameLookup (filled entries) handle with
  | some name => exact str2handle_name h (nameLookup_filled h hname)
  | none =>
    dsimp only
    rw [Option.bind_none, Option.getD_none]
    have hwhole := maj_or_min handle
    by_cases hmaj : TC_H_MAJ handle = 0
    · rw [if_pos hmaj]
      exact str2handle_minor _ hmaj
    · by_cases hmin : TC_H_MIN handle = 0
      · rw [hmin] at hwhole
        rw [if_neg hmaj, if_pos hmin, str2handle_major, if_pos rfl]
        exact congrArg _ (BitVec.or_zero.symm.trans hwhole)
      · have hne : Nat.toDigits 16 (TC_H_MIN handle).toNat ≠ [] := Nat.toDigits_ne_nil
        rw [if_neg hmaj, if_neg hmin, str2handle_major, if_neg hne, parseMinor_digits, hwhole]

/-- **There and back.** A handle that is printed into a buffer with room for its text is read as the same handle, unless it
is printed as a name that is a number; then it is read as this number. -/
theorem handle_round_trip {entries : List ClassidMap} (h : Names entries) (handle : Handle) {len : ℕ}
    (hlen : (handleText (filled entries) handle).length < len) :
    rtnlTcStr2handle (filled entries) (rtnlTcHandle2str (filled entries) handle len) =
      .ok (readBack (filled entries) handle) := by
  rw [rtnlTcHandle2str, snprintf, List.take_of_length_le (by omega)]
  exact str2handle_text h handle

/-- two names, of which one begins like a number -/
def webNames : List ClassidMap := [⟨0x10010, "web".toList⟩, ⟨0x10020, "2nd".toList⟩]

theorem handle_round_trip_web :
    rtnlTcStr2handle (filled webNames) (rtnlTcHandle2str (filled webNames) 0x10020 16) = .ok 0x10020 := by
  have hnames : Names webNames := by decide
  have hlen : (handleText (filled webNames) 0x10020).length < 16 := by decide
  have h := handle_round_trip hnames 0x10020 hlen
  rwa [show readBack (filled webNames) 0x10020 = 0x10020 by rfl] at h

/-- a name of hexadecimal digits -/
def cafeName : List ClassidMap := [⟨0x10001, "cafe".toList⟩]

/-- **It is printed as the name**, and read as the number `cafe`. -/
theorem cafe_is_a_number : Names cafeName ∧
    rtnlTcStr2handle (filled cafeName) (rtnlTcHandle2str (filled cafeName) 0x10001 16) ≠ .ok 0x10001 := by
  refine ⟨by decide, ?_⟩
  have hread : rtnlTcStr2handle (filled cafeName) (rtnlTcHandle2str (filled cafeName) 0x10001 16) = .ok 0xcafe := by
    rfl
  rw [hread]
  decide

end Libnl.Classid
