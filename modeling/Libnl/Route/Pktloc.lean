/-
Finding names: packet locations (`lib/route/pktloc.c`) and traffic control handles (`lib/route/classid.c`).

Both tables choose the bucket by a hash of the characters as they are, and compare names without regard to case. A name in
other letters is in another bucket, as a rule, and not found there; so `rtnl_pktloc_add` takes two names that it means to
be the same.

- `rtnlPktlocAdd_eq`: adding a location takes no reference, and adds it if its name is not found.
- `name_lookup_iff`: a query finds what it should exactly when something with its name, if there is any, has its hash; and
  no two locations have the same name exactly when those that were added with the same name have the same hash.
- `capital_web`: the table knows `Web`, and is asked for `web`.
-/
import Mathlib.Tactic
import Libnl.Core.Buckets
import Libnl.Route.Classid

namespace Libnl.Pktloc

open Msg Buckets Classid
open CString (sameIgnoringCase)

/-! ## Packet locations -/

/-- `struct rtnl_pktloc` -/
structure RtnlPktloc where
  name : List Char
  layer : BitVec 8
  shift : BitVec 8
  offset : BitVec 16
  align : BitVec 16
  mask : BitVec 32
  refcnt : BitVec 32
deriving DecidableEq

def PKTLOC_NAME_HT_SIZ : ℕ := 256

/-- `pktloc_name_ht` -/
abbrev PktlocTable := Fin PKTLOC_NAME_HT_SIZ → List RtnlPktloc

/-- where a location is linked: its bucket, and its place there -/
abbrev PktlocRef := Fin PKTLOC_NAME_HT_SIZ × ℕ

def pktlocAt (t : PktlocTable) (p : PktlocRef) : Option RtnlPktloc := (t p.1)[p.2]?

/-- the table with the references to a location counted anew -/
def countRefs (t : PktlocTable) (p : PktlocRef) (f : BitVec 32 → BitVec 32) : PktlocTable :=
  Function.update t p.1 ((t p.1).modify p.2 fun loc => { loc with refcnt := f loc.refcnt })

/-- `pktloc_hash` -/
def pktlocHash (str : List Char) : Fin PKTLOC_NAME_HT_SIZ :=
  ⟨str.foldl (fun hash c => (hash <<< 5 + hash + c.toNat) % 2 ^ 64) 5381 % PKTLOC_NAME_HT_SIZ,
    Nat.mod_lt _ (Nat.succ_pos 255)⟩

/-- `__pktloc_lookup`, which takes a reference to what it finds -/
def pktlocLookup (t : PktlocTable) (name : List Char) : PktlocTable × Except ℤ PktlocRef :=
  match (t (pktlocHash name)).findIdx? fun loc => sameIgnoringCase loc.name name with
  | some i => (countRefs t (pktlocHash name, i) (· + 1), .ok (pktlocHash name, i))
  | none => (t, .error (-NLE_OBJ_NOTFOUND))

/-- `rtnl_pktloc_put` of a location in the table, unless that frees it -/
def rtnlPktlocPut (t : PktlocTable) (p : PktlocRef) : Option PktlocTable :=
  let t := countRefs t p (· - 1)
  if (pktlocAt t p).any fun loc => decide (loc.refcnt = 0) then none else some t

/-- `rtnl_pktloc_add`, unless it frees a location in the table -/
def rtnlPktlocAdd (t : PktlocTable) (loc : RtnlPktloc) : Option (PktlocTable × ℤ) :=
  match pktlocLookup t loc.name with
  | (t, .ok p) => (rtnlPktlocPut t p).map fun t => (t, -NLE_EXIST)
  | (t, .error _) =>
    some (Function.update t (pktlocHash loc.name) (t (pktlocHash loc.name) ++ [loc]), 0)

/-- one location after the other, from an empty table -/
def addPktlocs (locs : List RtnlPktloc) : Option PktlocTable :=
  locs.foldlM (fun t loc => (rtnlPktlocAdd t loc).map Prod.fst) fun _ => []

/-! ## Adding -/

/-- a location that is there is in use -/
def InUse (t : PktlocTable) : Prop := ∀ n, ∀ loc ∈ t n, loc.refcnt ≠ 0

/-- a reference that is taken, then given back -/
theorem modify_back (l : List RtnlPktloc) (i : ℕ) :
    (l.modify i fun loc => { loc with refcnt := loc.refcnt + 1 }).modify i (fun loc => { loc with refcnt := loc.refcnt - 1 }) =
      l := by
  refine List.ext_getElem? fun j => ?_
  rw [List.getElem?_modify, List.getElem?_modify]
  cases l[j]? with
  | none => rfl
  | some loc =>
    have hback : loc.refcnt + 1#32 - 1#32 = loc.refcnt := BitVec.add_sub_cancel _ _
    by_cases hj : i = j
    · simp [hj, hback]
    · simp [hj]

/-- **The reference** that the lookup takes is given back. -/
theorem rtnlPktlocAdd_eq {t : PktlocTable} (hused : InUse t) (loc : RtnlPktloc) :
    (rtnlPktlocAdd t loc).map Prod.fst = some (addNew pktlocHash sameIgnoringCase RtnlPktloc.name t loc) := by
  rw [rtnlPktlocAdd, pktlocLookup, addNew, lookup]
  cases hfind : (t (pktlocHash loc.name)).findIdx? fun l => sameIgnoringCase l.name loc.name with
  | none =>
    have hnone : (t (pktlocHash loc.name)).find? (fun l => sameIgnoringCase l.name loc.name) = none :=
      List.find?_eq_none.2 fun l hl => by simp [List.findIdx?_eq_none_iff.1 hfind l hl]
    rw [hnone]
    rfl
  | some i =>
    have hlt := (List.findIdx?_eq_some_iff_getElem.1 hfind).1
    have hsome : ((t (pktlocHash loc.name)).find? fun l => sameIgnoringCase l.name loc.name).isSome = true := by
      obtain ⟨hi, hsame, -⟩ := List.findIdx?_eq_some_iff_getElem.1 hfind
      exact List.find?_isSome.2 ⟨_, List.getElem_mem hi, hsame⟩
    have hback : countRefs (countRefs t (pktlocHash loc.name, i) (· + 1)) (pktlocHash loc.name, i) (· - 1) = t := by
      rw [countRefs, countRefs, Function.update_self, modify_back, Function.update_idem, Function.update_eq_self]
    have hkept : (pktlocAt t (pktlocHash loc.name, i)).any (fun l => decide (l.refcnt = 0)) = false := by
      rw [pktlocAt, List.getElem?_eq_getElem hlt, Option.any_some]
      exact decide_eq_false (hused _ _ (List.getElem_mem hlt))
    dsimp only
    rw [rtnlPktlocPut, hback, hkept, if_neg Bool.false_ne_true, if_pos hsome]
    rfl

theorem addNew_inUse {t : PktlocTable} (hused : InUse t) {loc : RtnlPktloc} (hloc : loc.refcnt ≠ 0) :
    InUse (addNew pktlocHash sameIgnoringCase RtnlPktloc.name t loc) := by
  intro n l hl
  rw [addNew] at hl
  split_ifs at hl
  · exact hused n l hl
  · rw [append] at hl
    by_cases hn : n = pktlocHash loc.name
    · rw [hn, Function.update_self] at hl
      rcases List.mem_append.1 hl with hl | hl
      · exact hused _ l hl
      · rw [List.mem_singleton.1 hl]
        exact hloc
    · rw [Function.update_of_ne hn] at hl
      exact hused n l hl

/-- **The table** after locations in use were added -/
theorem addPktlocs_eq {locs : List RtnlPktloc} (hlocs : ∀ loc ∈ locs, loc.refcnt ≠ 0) :
    addPktlocs locs = some (locs.foldl (addNew pktlocHash sameIgnoringCase RtnlPktloc.name) fun _ => []) := by
  have hrun : ∀ t, InUse t → locs.foldlM (fun t loc => (rtnlPktlocAdd t loc).map Prod.fst) t =
      some (locs.foldl (addNew pktlocHash sameIgnoringCase RtnlPktloc.name) t) := by
    induction locs with
    | nil => exact fun _ _ => rfl
    | cons loc locs ih =>
      intro t hused
      rw [List.foldlM_cons, rtnlPktlocAdd_eq hused, List.foldl_cons]
      exact ih (fun l hl => hlocs l (List.mem_cons_of_mem loc hl)) _ (addNew_inUse hused (hlocs loc List.mem_cons_self))
  exact hrun _ fun n l hl => by cases hl

/-! ## Finding names -/

/-- if something has the name of the query, something with its hash has it -/
def InBucket {α ι : Type} (hash : List Char → ι) (key : α → List Char) (l : List α) (q : List Char) : Prop :=
  (∃ a ∈ l, sameIgnoringCase (key a) q = true) → ∃ a ∈ l, sameIgnoringCase (key a) q = true ∧ hash (key a) = hash q

instance {α ι : Type} [DecidableEq ι] (hash : List Char → ι) (key : α → List Char) (l : List α)
    (q : List Char) : Decidable (InBucket hash key l q) := inferInstanceAs (Decidable (_ → _))

/-- `classid_lookup` succeeds exactly when an entry has the name, and returns the handle of such an entry -/
structure ClassidFinds (entries : List ClassidMap) (q : List Char) : Prop where
  succeeds : (classidLookup (filled entries) q).toOption.isSome ↔ ∃ e ∈ entries, sameIgnoringCase e.name q = true
  returns : ∀ h, classidLookup (filled entries) q = .ok h → ∃ e ∈ entries, sameIgnoringCase e.name q = true ∧ e.classid = h

/-- `__pktloc_lookup` succeeds exactly when a location has the name, and returns such a location with a reference more -/
structure PktlocFinds (locs : List RtnlPktloc) (t : PktlocTable) (q : List Char) : Prop where
  succeeds : (pktlocLookup t q).2.toOption.isSome ↔ ∃ loc ∈ locs, sameIgnoringCase loc.name q = true
  returns : ∀ p, (pktlocLookup t q).2 = .ok p → ∃ loc ∈ locs, sameIgnoringCase loc.name q = true ∧
    pktlocAt (pktlocLookup t q).1 p = some { loc with refcnt := loc.refcnt + 1 }

/-- no two locations have the same name -/
abbrev PktlocUnique (t : PktlocTable) : Prop := Unique sameIgnoringCase RtnlPktloc.name t

theorem sameIgnoringCase_trans {r s t : List Char} (hrs : sameIgnoringCase r s = true) (hst : sameIgnoringCase s t = true) :
    sameIgnoringCase r t = true :=
  decide_eq_true ((of_decide_eq_true hrs).trans (of_decide_eq_true hst))

theorem filled_fill (entries : List ClassidMap) :
    (filled entries).tblName = fill classidTblHash ClassidMap.name entries := by
  funext n
  rw [filled_tblName, fill_eq_filter]

theorem classidLookup_eq (entries : List ClassidMap) (q : List Char) : classidLookup (filled entries) q =
    ((lookup classidTblHash sameIgnoringCase ClassidMap.name (fill classidTblHash ClassidMap.name entries) q).map
      ClassidMap.classid).elim (.error (-NLE_OBJ_NOTFOUND)) .ok := by
  rw [classidLookup, filled_fill, lookup]
  cases List.find? (fun map : ClassidMap => sameIgnoringCase map.name q)
    (fill classidTblHash ClassidMap.name entries (classidTblHash q)) with
  | none => rfl
  | some e => rfl

theorem classidFinds_iff (entries : List ClassidMap) (q : List Char) :
    ClassidFinds entries q ↔ InBucket classidTblHash ClassidMap.name entries q := by
  have hfinds := finds_iff classidTblHash sameIgnoringCase ClassidMap.name entries q
  have hsome : (classidLookup (filled entries) q).toOption.isSome =
      (lookup classidTblHash sameIgnoringCase ClassidMap.name (fill classidTblHash ClassidMap.name entries) q).isSome := by
    rw [classidLookup_eq]
    cases lookup classidTblHash sameIgnoringCase ClassidMap.name (fill classidTblHash ClassidMap.name entries) q with
    | none => rfl
    | some e => rfl
  rw [← hsome] at hfinds
  constructor
  · intro h
    exact hfinds.1 h.succeeds
  · intro h
    refine ⟨hfinds.2 h, fun handle hok => ?_⟩
    rw [classidLookup_eq] at hok
    cases hfound : lookup classidTblHash sameIgnoringCase ClassidMap.name (fill classidTblHash ClassidMap.name entries) q with
    | none =>
      rw [hfound] at hok
      cases hok
    | some e =>
      obtain ⟨hmem, hsame⟩ := lookup_fill_some hfound
      rw [hfound] at hok
      exact ⟨e, hmem, hsame, Except.ok.inj hok⟩

/-! ### Locations -/

/-- what stays of the locations -/
abbrev keptLocs (locs : List RtnlPktloc) : List RtnlPktloc := kept pktlocHash sameIgnoringCase RtnlPktloc.name locs

theorem addPktlocs_kept {locs : List RtnlPktloc} (hlocs : ∀ loc ∈ locs, loc.refcnt ≠ 0) :
    addPktlocs locs = some (fill pktlocHash RtnlPktloc.name (keptLocs locs)) := by
  rw [addPktlocs_eq hlocs, foldl_addNew]

/-- what is asked for was added, with a hash, exactly when it stayed with this hash -/
theorem exists_keptLocs (locs : List RtnlPktloc) (q : List Char) :
    (∃ loc ∈ keptLocs locs, sameIgnoringCase loc.name q = true ∧ pktlocHash loc.name = pktlocHash q) ↔
      ∃ loc ∈ locs, sameIgnoringCase loc.name q = true ∧ pktlocHash loc.name = pktlocHash q := by
  constructor
  · rintro ⟨loc, hloc, hboth⟩
    exact ⟨loc, kept_subset hloc, hboth⟩
  · rintro ⟨loc, hloc, hsame, hhash⟩
    obtain ⟨loc', hloc', htakes⟩ := exists_kept pktlocHash RtnlPktloc.name sameIgnoringCase_self hloc
    obtain ⟨hhash', hsame'⟩ := takes_iff.1 htakes
    exact ⟨loc', hloc', sameIgnoringCase_trans hsame' hsame, hhash'.trans hhash⟩

/-- what a lookup finds has a reference more -/
theorem pktlocLookup_ok {t : PktlocTable} {q : List Char} {p : PktlocRef} (h : (pktlocLookup t q).2 = .ok p) :
    ∃ loc, lookup pktlocHash sameIgnoringCase RtnlPktloc.name t q = some loc ∧
      pktlocAt (pktlocLookup t q).1 p = some { loc with refcnt := loc.refcnt + 1 } := by
  rw [pktlocLookup] at h ⊢
  cases hfind : (t (pktlocHash q)).findIdx? fun loc => sameIgnoringCase loc.name q with
  | none =>
    rw [hfind] at h
    cases h
  | some i =>
    rw [hfind] at h
    obtain rfl : (pktlocHash q, i) = p := Except.ok.inj h
    obtain ⟨hlt, hsame, hbefore⟩ := List.findIdx?_eq_some_iff_getElem.1 hfind
    refine ⟨(t (pktlocHash q))[i], ?_, ?_⟩
    · rw [lookup]
      exact List.find?_eq_some_iff_getElem.2 ⟨hsame, i, hlt, rfl, fun j hj => by simpa using hbefore j hj⟩
    · change (countRefs t (pktlocHash q, i) (· + 1) (pktlocHash q))[i]? = _
      rw [countRefs, Function.update_self, List.getElem?_modify, List.getElem?_eq_getElem hlt]
      simp

theorem pktlocLookup_isSome (t : PktlocTable) (q : List Char) : (pktlocLookup t q).2.toOption.isSome =
    (lookup pktlocHash sameIgnoringCase RtnlPktloc.name t q).isSome := by
  rw [pktlocLookup, lookup]
  cases hfind : (t (pktlocHash q)).findIdx? fun loc => sameIgnoringCase loc.name q with
  | none =>
    refine Eq.symm (Option.isSome_eq_false_iff.2 (Option.isNone_iff_eq_none.2 (List.find?_eq_none.2 fun loc hloc => ?_)))
    simp [List.findIdx?_eq_none_iff.1 hfind loc hloc]
  | some i =>
    obtain ⟨hlt, hsame, -⟩ := List.findIdx?_eq_some_iff_getElem.1 hfind
    exact (List.find?_isSome.2 ⟨_, List.getElem_mem hlt, hsame⟩).symm

theorem pktlocFinds_iff (locs : List RtnlPktloc) (q : List Char) :
    PktlocFinds locs (fill pktlocHash RtnlPktloc.name (keptLocs locs)) q ↔ InBucket pktlocHash RtnlPktloc.name locs q := by
  have hsucceeds : (pktlocLookup (fill pktlocHash RtnlPktloc.name (keptLocs locs)) q).2.toOption.isSome ↔
      ∃ loc ∈ locs, sameIgnoringCase loc.name q = true ∧ pktlocHash loc.name = pktlocHash q := by
    rw [pktlocLookup_isSome, lookup_fill_isSome_iff, ← exists_keptLocs]
    exact exists_congr fun loc => and_congr_right fun _ => and_comm
  constructor
  · intro h hex
    exact hsucceeds.1 (h.succeeds.2 hex)
  · intro h
    refine ⟨⟨fun hsome => ?_, fun hex => hsucceeds.2 (h hex)⟩, fun p hok => ?_⟩
    · obtain ⟨loc, hloc, hsame, -⟩ := hsucceeds.1 hsome
      exact ⟨loc, hloc, hsame⟩
    · obtain ⟨loc, hfound, hat⟩ := pktlocLookup_ok hok
      obtain ⟨hmem, hsame⟩ := lookup_fill_some hfound
      exact ⟨loc, kept_subset hmem, hsame, hat⟩

theorem pktlocUnique_iff (locs : List RtnlPktloc) : PktlocUnique (fill pktlocHash RtnlPktloc.name (keptLocs locs)) ↔
    ∀ a ∈ locs, ∀ b ∈ locs, sameIgnoringCase a.name b.name = true → pktlocHash a.name = pktlocHash b.name := by
  have hunique := unique_iff pktlocHash RtnlPktloc.name sameIgnoringCase_self sameIgnoringCase_comm
    (fun _ _ _ => sameIgnoringCase_trans) locs
  rwa [foldl_addNew] at hunique

/-- **Names are found** where the hash of what has the name is that of the query. Entries of `classid` and locations are
found exactly under this condition; and no two locations have the same name exactly when those that were added with the same
name have the same hash. -/
theorem name_lookup_iff (entries : List ClassidMap) {locs : List RtnlPktloc} (hlocs : ∀ loc ∈ locs, loc.refcnt ≠ 0)
    (q : List Char) :
    (ClassidFinds entries q ↔ InBucket classidTblHash ClassidMap.name entries q) ∧
      ∃ t, addPktlocs locs = some t ∧
        (PktlocFinds locs t q ↔ InBucket pktlocHash RtnlPktloc.name locs q) ∧
        (PktlocUnique t ↔ ∀ a ∈ locs, ∀ b ∈ locs,
          sameIgnoringCase a.name b.name = true → pktlocHash a.name = pktlocHash b.name) := by
  exact ⟨classidFinds_iff entries q, _, addPktlocs_kept hlocs, pktlocFinds_iff locs q, pktlocUnique_iff locs⟩

/-- a location of this name, as `rtnl_pktloc_alloc` makes it -/
def locNamed (name : List Char) : RtnlPktloc := ⟨name, 0, 0, 0, 0, 0, 1⟩

theorem name_lookup_iff_tcp : (ClassidFinds webNames "web".toList ↔ InBucket classidTblHash ClassidMap.name webNames "web".toList) ∧
    ∃ t, addPktlocs [locNamed "tcp".toList] = some t ∧
      (PktlocFinds [locNamed "tcp".toList] t "web".toList ↔
        InBucket pktlocHash RtnlPktloc.name [locNamed "tcp".toList] "web".toList) ∧
      (PktlocUnique t ↔ ∀ a ∈ [locNamed "tcp".toList], ∀ b ∈ [locNamed "tcp".toList],
        sameIgnoringCase a.name b.name = true → pktlocHash a.name = pktlocHash b.name) :=
  name_lookup_iff webNames (by decide) "web".toList

/-- **The capital.** There is a name that differs from the query in a capital only, and it is not found; and of two
locations with names like this both are added. -/
theorem capital_web : ¬ ClassidFinds [⟨0x10010, "Web".toList⟩] "web".toList ∧
    (∃ t, addPktlocs [locNamed "Web".toList] = some t ∧ ¬ PktlocFinds [locNamed "Web".toList] t "web".toList) ∧
    ∃ t, addPktlocs [locNamed "Web".toList, locNamed "web".toList] = some t ∧ ¬ PktlocUnique t := by
  refine ⟨?_, ⟨_, addPktlocs_kept (by decide), ?_⟩, _, addPktlocs_kept (by decide), ?_⟩
  · rw [classidFinds_iff]
    decide
  · rw [pktlocFinds_iff]
    decide
  · rw [pktlocUnique_iff]
    decide

end Libnl.Pktloc
