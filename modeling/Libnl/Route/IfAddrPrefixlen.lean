/-
The prefix length of an address of an interface, and the functions that set it (`lib/route/addr.c`).

The length is kept in the object and once more in one of the two addresses the object refers to: in that of the peer, if
there is one, and else in the local one. Three functions write it: the setters of the two addresses take it over from the
address, or set it to zero when the address goes, and the setter of the length writes it into the address. The addresses
are shared with whoever passed them, and one address may be passed more than once.

- `step_onePlace`: every call keeps the three places together.
- `step_failed`: a call that fails changes nothing.
- `prefixlen_kept`: any calls, in any order.
-/
import Mathlib.Tactic
import Libnl.Core.Prefix
import Libnl.Route.IfAddr

namespace Libnl.IfAddr

open Msg Addr Addr.Family

/-! ## Setters -/

/-- the part of `struct rtnl_addr` that the setters touch, and the addresses it may refer to; callers keep a reference on
what they pass, so that no address goes away -/
structure AddrRefs where
  addrs : ℕ → NlAddr
  aFamily : BitVec 8
  aPrefixlen : BitVec 8
  ceMask : BitVec 64
  aLocal : Option ℕ
  aPeer : Option ℕ

def AddrRefs.hasBit (s : AddrRefs) (bit : BitVec 64) : Prop := s.ceMask &&& bit ≠ 0

instance (s : AddrRefs) (bit : BitVec 64) : Decidable (s.hasBit bit) := inferInstanceAs (Decidable (_ ≠ _))

/-- `rtnl_addr_alloc`; `addrs` are the addresses there will be -/
def rtnlAddrAlloc (addrs : ℕ → NlAddr) : AddrRefs := ⟨addrs, 0, 0, 0, none, none⟩

/-- the address the prefix length applies to -/
def AddrRefs.holder (s : AddrRefs) : Option ℕ :=
  match s.aPeer with
  | some i => some i
  | none => s.aLocal

/-- `nl_addr_set_prefixlen` -/
def AddrRefs.setLen (s : AddrRefs) (i : ℕ) (prefixlen : ℤ) : AddrRefs :=
  { s with addrs := Function.update s.addrs i { s.addrs i with aPrefixlen := prefixlen } }

/-- `rtnl_addr_set_prefixlen` -/
def rtnlAddrSetPrefixlen (s : AddrRefs) (prefixlen : ℤ) : AddrRefs :=
  let s := { s with
    aPrefixlen := BitVec.ofInt 8 prefixlen
    ceMask := if prefixlen ≠ 0 then s.ceMask ||| ADDR_ATTR_PREFIXLEN else s.ceMask &&& ~~~ADDR_ATTR_PREFIXLEN }
  match s.holder with
  | some i => s.setLen i prefixlen
  | none => s

/-- the two members that `__assign_addr` is called for -/
inductive AddrPos where
  | localAddr
  | peer

def AddrPos.put : AddrPos → AddrRefs → Option ℕ → AddrRefs
  | .localAddr, s, new => { s with aLocal := new }
  | .peer, s, new => { s with aPeer := new }

/-- `__assign_addr` -/
def assignAddr (s : AddrRefs) (pos : AddrPos) (new : Option ℕ) (flag : BitVec 64) : AddrRefs × ℤ :=
  match new with
  | some i =>
    if s.hasBit ADDR_ATTR_FAMILY ∧ (s.addrs i).aFamily ≠ s.aFamily.toNat then (s, -NLE_AF_MISMATCH)
    else
      let family := if s.hasBit ADDR_ATTR_FAMILY then s.aFamily else BitVec.ofInt 8 (s.addrs i).aFamily
      (pos.put { s with aFamily := family, ceMask := s.ceMask ||| (flag ||| ADDR_ATTR_FAMILY) } (some i), 0)
  | none => (pos.put { s with ceMask := s.ceMask &&& ~~~flag } none, 0)

/-- the prefix length of an address, zero without one -/
def AddrRefs.lenOf (s : AddrRefs) (new : Option ℕ) : ℤ :=
  match new with
  | some i => (s.addrs i).aPrefixlen
  | none => 0

/-- `rtnl_addr_set_local` -/
def rtnlAddrSetLocal (s : AddrRefs) (new : Option ℕ) : AddrRefs × ℤ :=
  if s.hasBit ADDR_ATTR_PEER ∧ s.lenOf new ≠ 0 then (s, -NLE_INVAL)
  else
    let (s', err) := assignAddr s .localAddr new ADDR_ATTR_LOCAL
    if err < 0 then (s', err)
    else (if s'.hasBit ADDR_ATTR_PEER then s' else rtnlAddrSetPrefixlen s' (s'.lenOf new), 0)

/-- the family of the address is not that of IPv4 -/
def AddrRefs.otherFamily (s : AddrRefs) (new : Option ℕ) : Prop := ∃ i ∈ new, (s.addrs i).aFamily ≠ AF_INET

instance (s : AddrRefs) (new : Option ℕ) : Decidable (s.otherFamily new) :=
  match new with
  | none => isFalse fun h => by
    obtain ⟨i, hi, -⟩ := h
    cases hi
  | some i => decidable_of_iff ((s.addrs i).aFamily ≠ AF_INET) (by simp [AddrRefs.otherFamily])

/-- `rtnl_addr_set_peer` -/
def rtnlAddrSetPeer (s : AddrRefs) (new : Option ℕ) : AddrRefs × ℤ :=
  if s.otherFamily new then (s, -NLE_AF_NOSUPPORT)
  else
    let (s', err) := assignAddr s .peer new ADDR_ATTR_PEER
    if err < 0 then (s', err)
    else (rtnlAddrSetPrefixlen s' (s'.lenOf new), 0)

inductive AddrCall where
  | setLocal (new : Option ℕ)
  | setPeer (new : Option ℕ)
  | setPrefixlen (prefixlen : ℤ)

/-- one call, with what it returns -/
def addrStep (s : AddrRefs) : AddrCall → AddrRefs × ℤ
  | .setLocal new => rtnlAddrSetLocal s new
  | .setPeer new => rtnlAddrSetPeer s new
  | .setPrefixlen prefixlen => (rtnlAddrSetPrefixlen s prefixlen, 0)

def addrRun (s : AddrRefs) (calls : List AddrCall) : AddrRefs := calls.foldl (fun s call => (addrStep s call).1) s

/-! ## Bits of the mask -/

section
variable {m other bit : BitVec 64}

theorem or_and_other (h : other &&& bit = 0) : (m ||| other) &&& bit = m &&& bit := by
  rw [BitVec.and_or_distrib_right, h]
  exact BitVec.or_zero

theorem or_and_self (h : bit ≠ 0) : (m ||| bit) &&& bit ≠ 0 := by
  rw [BitVec.and_or_distrib_right, BitVec.and_self]
  intro hzero
  exact h (BitVec.or_eq_zero_iff.1 hzero).2

theorem clear_and_other (h : ~~~other &&& bit = bit) : (m &&& ~~~other) &&& bit = m &&& bit := by
  rw [BitVec.and_assoc, h]

theorem clear_and_self : (m &&& ~~~bit) &&& bit = 0 := by
  rw [BitVec.and_assoc, BitVec.and_comm (~~~bit)]
  simp

end

/-! ## One place -/

/-- a prefix length that fits the member of the object -/
def LenFits (prefixlen : ℤ) : Prop := 0 ≤ prefixlen ∧ prefixlen ≤ 255

/-- the prefix length of the object is that of the address it applies to, and the mask says whether there is one -/
structure OnePlace (s : AddrRefs) : Prop where
  stored : ∀ i, s.holder = some i → (s.addrs i).aPrefixlen = s.aPrefixlen.toNat
  bit : s.hasBit ADDR_ATTR_PREFIXLEN ↔ s.aPrefixlen ≠ 0

/-- and what the setters rely on: the mask says whether there is a peer, and all addresses have lengths that fit -/
structure Held (s : AddrRefs) : Prop where
  place : OnePlace s
  peer : s.hasBit ADDR_ATTR_PEER ↔ s.aPeer.isSome
  fits : ∀ i, LenFits (s.addrs i).aPrefixlen

theorem lenOf_fits {s : AddrRefs} (h : ∀ i, LenFits (s.addrs i).aPrefixlen) (new : Option ℕ) : LenFits (s.lenOf new) := by
  cases new with
  | none => exact ⟨le_refl 0, Int.natCast_nonneg 255⟩
  | some i => exact h i

theorem ofInt_toNat {prefixlen : ℤ} (h : LenFits prefixlen) : ((BitVec.ofInt 8 prefixlen).toNat : ℤ) = prefixlen := by
  obtain ⟨h0, h1⟩ := h
  rw [BitVec.toNat_ofInt]
  omega

theorem ofInt_ne_zero_iff {prefixlen : ℤ} (h : LenFits prefixlen) : BitVec.ofInt 8 prefixlen ≠ 0 ↔ prefixlen ≠ 0 := by
  refine not_congr ⟨fun hzero => ?_, fun hzero => ?_⟩
  · have hnat := ofInt_toNat h
    rw [hzero] at hnat
    exact hnat.symm
  · rw [hzero]
    rfl

/-- **Setting the length** puts it into all places, whatever they held. -/
theorem setPrefixlen_held {s : AddrRefs} {prefixlen : ℤ} (hlen : LenFits prefixlen)
    (hpeer : s.hasBit ADDR_ATTR_PEER ↔ s.aPeer.isSome) (hfits : ∀ i, LenFits (s.addrs i).aPrefixlen) :
    Held (rtnlAddrSetPrefixlen s prefixlen) := by
  -- before the addresses are written
  generalize hm : (if prefixlen ≠ 0 then s.ceMask ||| ADDR_ATTR_PREFIXLEN else s.ceMask &&& ~~~ADDR_ATTR_PREFIXLEN) = m
  have hbit : m &&& ADDR_ATTR_PREFIXLEN ≠ 0 ↔ BitVec.ofInt 8 prefixlen ≠ 0 := by
    rw [ofInt_ne_zero_iff hlen, ← hm]
    split_ifs with hne
    · exact iff_of_true (or_and_self (by decide)) hne
    · exact iff_of_false (not_not.2 clear_and_self) hne
  have hkeep : m &&& ADDR_ATTR_PEER = s.ceMask &&& ADDR_ATTR_PEER := by
    rw [← hm]
    split_ifs with hne
    · exact or_and_other (by decide)
    · exact clear_and_other (by decide)
  have hpeer' : m &&& ADDR_ATTR_PEER ≠ 0 ↔ s.aPeer.isSome := by
    rw [hkeep]
    exact hpeer
  have hset : rtnlAddrSetPrefixlen s prefixlen =
      match s.holder with
      | some i => ({ s with aPrefixlen := BitVec.ofInt 8 prefixlen, ceMask := m } : AddrRefs).setLen i prefixlen
      | none => { s with aPrefixlen := BitVec.ofInt 8 prefixlen, ceMask := m } := by
    rw [← hm]
    rfl
  rw [hset]
  cases hholder : s.holder with
  | none =>
    refine ⟨⟨fun i hi => ?_, hbit⟩, hpeer', hfits⟩
    have hnone : s.holder = some i := hi
    rw [hholder] at hnone
    cases hnone
  | some i =>
    refine ⟨⟨fun j hj => ?_, hbit⟩, hpeer', fun j => ?_⟩
    · have hsame : s.holder = some j := hj
      rw [hholder] at hsame
      obtain rfl := Option.some.inj hsame
      show (Function.update s.addrs i _ i).aPrefixlen = _
      rw [Function.update_self]
      exact (ofInt_toNat hlen).symm
    · show LenFits (Function.update s.addrs i _ j).aPrefixlen
      by_cases hji : j = i
      · rw [hji, Function.update_self]
        exact hlen
      · rw [Function.update_of_ne hji]
        exact hfits j

/-! ## Assigning an address -/

/-- what `__assign_addr` does: nothing, or it puts the address and the bit -/
theorem assignAddr_cases (s : AddrRefs) (pos : AddrPos) (new : Option ℕ) (flag : BitVec 64) :
    assignAddr s pos new flag = (s, -NLE_AF_MISMATCH) ∨
      ∃ family, assignAddr s pos new flag =
        (pos.put { s with
          aFamily := family
          ceMask := if new.isSome then s.ceMask ||| (flag ||| ADDR_ATTR_FAMILY) else s.ceMask &&& ~~~flag } new, 0) := by
  cases new with
  | none => exact Or.inr ⟨s.aFamily, rfl⟩
  | some i =>
    by_cases hmismatch : s.hasBit ADDR_ATTR_FAMILY ∧ (s.addrs i).aFamily ≠ s.aFamily.toNat
    · exact Or.inl (if_pos hmismatch)
    · exact Or.inr ⟨if s.hasBit ADDR_ATTR_FAMILY then s.aFamily else BitVec.ofInt 8 (s.addrs i).aFamily, if_neg hmismatch⟩

/-- **The local address**: refused, put beside a peer, or put with its length -/
theorem setLocal_cases (s : AddrRefs) (new : Option ℕ) :
    (∃ err < 0, rtnlAddrSetLocal s new = (s, err)) ∨
      ∃ s', s'.addrs = s.addrs ∧ s'.aPeer = s.aPeer ∧ s'.aPrefixlen = s.aPrefixlen ∧
        s'.ceMask &&& ADDR_ATTR_PEER = s.ceMask &&& ADDR_ATTR_PEER ∧
        s'.ceMask &&& ADDR_ATTR_PREFIXLEN = s.ceMask &&& ADDR_ATTR_PREFIXLEN ∧
        rtnlAddrSetLocal s new =
          (if s'.hasBit ADDR_ATTR_PEER then s' else rtnlAddrSetPrefixlen s' (s.lenOf new), 0) := by
  unfold rtnlAddrSetLocal
  split_ifs with hlen
  · exact Or.inl ⟨-NLE_INVAL, by decide, rfl⟩
  · rcases assignAddr_cases s .localAddr new ADDR_ATTR_LOCAL with hfail | ⟨family, hput⟩
    · rw [hfail]
      exact Or.inl ⟨-NLE_AF_MISMATCH, by decide, rfl⟩
    · rw [hput]
      dsimp only
      rw [if_neg (lt_irrefl 0)]
      refine Or.inr ⟨_, ?_, ?_, ?_, ?_, ?_, rfl⟩
      · rfl
      · rfl
      · rfl
      · show (if _ then _ else _) &&& ADDR_ATTR_PEER = _
        split_ifs
        · exact or_and_other (by decide)
        · exact clear_and_other (by decide)
      · show (if _ then _ else _) &&& ADDR_ATTR_PREFIXLEN = _
        split_ifs
        · exact or_and_other (by decide)
        · exact clear_and_other (by decide)

/-- **The peer**: refused, or put with its length -/
theorem setPeer_cases (s : AddrRefs) (new : Option ℕ) :
    (∃ err < 0, rtnlAddrSetPeer s new = (s, err)) ∨
      ∃ s', s'.addrs = s.addrs ∧ (s'.hasBit ADDR_ATTR_PEER ↔ s'.aPeer.isSome) ∧
        rtnlAddrSetPeer s new = (rtnlAddrSetPrefixlen s' (s.lenOf new), 0) := by
  unfold rtnlAddrSetPeer
  split_ifs with hfamily
  · exact Or.inl ⟨-NLE_AF_NOSUPPORT, by decide, rfl⟩
  · rcases assignAddr_cases s .peer new ADDR_ATTR_PEER with hfail | ⟨family, hput⟩
    · rw [hfail]
      exact Or.inl ⟨-NLE_AF_MISMATCH, by decide, rfl⟩
    · rw [hput]
      dsimp only
      rw [if_neg (lt_irrefl 0)]
      refine Or.inr ⟨_, ?_, ?_, rfl⟩
      · rfl
      show (if new.isSome then _ else _) &&& ADDR_ATTR_PEER ≠ 0 ↔ new.isSome
      split_ifs with hsome
      · refine iff_of_true ?_ hsome
        rw [BitVec.or_comm ADDR_ATTR_PEER, ← BitVec.or_assoc]
        exact or_and_self (by decide)
      · exact iff_of_false (not_not.2 clear_and_self) hsome

/-! ## Calls -/

def AddrCall.Fits : AddrCall → Prop
  | .setPrefixlen prefixlen => LenFits prefixlen
  | _ => True

/-- **One call** -/
theorem step_held {s : AddrRefs} (h : Held s) {call : AddrCall} (hcall : call.Fits) : Held (addrStep s call).1 := by
  cases call with
  | setLocal new =>
    rcases setLocal_cases s new with ⟨err, -, hfail⟩ | ⟨s', haddrs, hpeer, hlen, hpeerbit, hlenbit, hput⟩
    · rw [addrStep, hfail]
      exact h
    · have hpeer' : s'.hasBit ADDR_ATTR_PEER ↔ s'.aPeer.isSome := by
        rw [AddrRefs.hasBit, hpeerbit, hpeer]
        exact h.peer
      have hfits : ∀ i, LenFits (s'.addrs i).aPrefixlen := by
        rw [haddrs]
        exact h.fits
      rw [addrStep, hput]
      dsimp only
      split_ifs with hhas
      · -- the peer keeps the length
        refine ⟨⟨fun i hi => ?_, ?_⟩, hpeer', hfits⟩
        · obtain ⟨j, hj⟩ := Option.isSome_iff_exists.1 (hpeer'.1 hhas)
          have hnew : s'.holder = some j := by
            rw [AddrRefs.holder, hj]
          have hold : s.holder = some j := by
            rw [AddrRefs.holder, ← hpeer, hj]
          rw [hnew] at hi
          obtain rfl := Option.some.inj hi
          rw [haddrs, hlen]
          exact h.place.stored j hold
        · rw [AddrRefs.hasBit, hlenbit, hlen]
          exact h.place.bit
      · exact setPrefixlen_held (lenOf_fits h.fits new) hpeer' hfits
  | setPeer new =>
    rcases setPeer_cases s new with ⟨err, -, hfail⟩ | ⟨s', haddrs, hpeer, hput⟩
    · rw [addrStep, hfail]
      exact h
    · have hfits : ∀ i, LenFits (s'.addrs i).aPrefixlen := by
        rw [haddrs]
        exact h.fits
      rw [addrStep, hput]
      exact setPrefixlen_held (lenOf_fits h.fits new) hpeer hfits
  | setPrefixlen prefixlen => exact setPrefixlen_held hcall h.peer h.fits

/-- **A call that fails** changes nothing. -/
theorem step_failed {s : AddrRefs} {call : AddrCall} (hfail : (addrStep s call).2 < 0) : (addrStep s call).1 = s := by
  cases call with
  | setLocal new =>
    rcases setLocal_cases s new with ⟨err, -, heq⟩ | ⟨s', -, -, -, -, -, hput⟩
    · rw [addrStep, heq]
    · rw [addrStep, hput] at hfail
      exact absurd hfail (lt_irrefl 0)
  | setPeer new =>
    rcases setPeer_cases s new with ⟨err, -, heq⟩ | ⟨s', -, -, hput⟩
    · rw [addrStep, heq]
    · rw [addrStep, hput] at hfail
      exact absurd hfail (lt_irrefl 0)
  | setPrefixlen prefixlen => exact absurd hfail (lt_irrefl 0)

theorem alloc_held {addrs : ℕ → NlAddr} (h : ∀ i, LenFits (addrs i).aPrefixlen) : Held (rtnlAddrAlloc addrs) where
  place :=
    { stored := fun i hi => by cases hi
      bit := iff_of_false (not_not.2 BitVec.zero_and) (not_not.2 rfl) }
  peer := iff_of_false (not_not.2 BitVec.zero_and) Bool.false_ne_true
  fits := h

theorem run_held {s : AddrRefs} (h : Held s) {calls : List AddrCall} (hcalls : ∀ call ∈ calls, call.Fits) :
    Held (addrRun s calls) := by
  induction calls generalizing s with
  | nil => exact h
  | cons call calls ih =>
    obtain ⟨hcall, hrest⟩ := List.forall_mem_cons.1 hcalls
    exact ih (step_held h hcall) hrest

end Libnl.IfAddr
