/-
What the keys of a selector match (`rtnl_u32_add_key_uint8` and its like, `lib/route/cls/u32.c`).

A key is compared with an aligned word of the packet, in network byte order. The helpers put a field of one, two or four bytes,
or the first bits of an address, into such words: they shift a field to where it stands in its word, and shift a mask of ones
by as many bits as an address has behind its prefix.

- `rtnlU32AddKeyUint8`, …, `rtnlU32AddKeyIn6Addr`: the functions of the source; `none` is an operation that is not defined.
- `masked_field`, `prefix_mask`: what masks ask of a word.
- `added_key`: the key that a call appends. `keys_of_prefix`: those of an IPv6 address.
- `helper_means_it_iff`: which helpers append keys that say what they should.
-/
import Mathlib.Tactic
import Libnl.Core.Words
import Libnl.Route.U32

namespace Libnl.U32

open Bytes Layout Msg Window Words Data Actions

section

variable [HostOrder] {modules : List ActOps}

/-! ## The helpers -/

def rtnlU32AddKeyUint8 (u : RtnlU32 modules) (val mask : BitVec 8) (off offmask : BitVec 32) : Option (RtnlU32 modules × ℤ) :=
  let shift := 24 - 8 * (off &&& 3).toNat
  rtnlU32AddKey u (htonl (val.setWidth 32 <<< shift)) (htonl (mask.setWidth 32 <<< shift)) (off &&& ~~~(3 : BitVec 32)) offmask

def rtnlU32AddKeyUint16 (u : RtnlU32 modules) (val mask : BitVec 16) (off offmask : BitVec 32) : Option (RtnlU32 modules × ℤ) :=
  let shift := if off &&& 3 = 0 then 16 else 0
  if off.toInt % 2 ≠ 0 then some (u, -NLE_INVAL)
  else rtnlU32AddKey u (htonl (val.setWidth 32 <<< shift)) (htonl (mask.setWidth 32 <<< shift)) (off &&& ~~~(3 : BitVec 32)) offmask

def rtnlU32AddKeyUint32 (u : RtnlU32 modules) (val mask : BitVec 32) (off offmask : BitVec 32) : Option (RtnlU32 modules × ℤ) :=
  rtnlU32AddKey u (htonl val) (htonl mask) (off &&& ~~~(3 : BitVec 32)) offmask

/-- `0xFFFFFFFF << n`; a shift by the width or more is not defined -/
def onesShl (n : ℤ) : Option (BitVec 32) := if 0 ≤ n ∧ n < 32 then some (BitVec.allOnes 32 <<< n.toNat) else none

/-- `off + n` in an `int`, which must not overflow -/
def plusInt (off : BitVec 32) (n : ℕ) : Option (BitVec 32) :=
  if off.toInt + n < 2147483648 then some (off + BitVec.ofNat 32 n) else none

def rtnlU32AddKeyInAddr (u : RtnlU32 modules) (addr : Mem) (bitmask : ℕ) (off offmask : BitVec 32) :
    Option (RtnlU32 modules × ℤ) :=
  (onesShl (32 - bitmask)).bind fun mask => rtnlU32AddKey u (u32At addr 0) (htonl mask) off offmask

/-- the loop body of `rtnl_u32_add_key_in6_addr` -/
def in6Key (u : RtnlU32 modules) (addr : Mem) (bitmask : ℕ) (off offmask : BitVec 32) (i : ℕ) : Option (RtnlU32 modules × ℤ) :=
  if 32 * (i : ℤ) - bitmask ≤ 0 then
    (plusInt off (4 * (i - 1))).bind fun o => rtnlU32AddKey u (u32At addr (4 * (i - 1))) 0xFFFFFFFF o offmask
  else if 32 * (i : ℤ) - bitmask < 32 then
    (onesShl (32 * i - bitmask)).bind fun mask => (plusInt off (4 * (i - 1))).bind fun o =>
      rtnlU32AddKey u (u32At addr (4 * (i - 1))) (htonl mask) o offmask
  -- otherwise no key is generated
  else some (u, 0)

def in6Keys (addr : Mem) (bitmask : ℕ) (off offmask : BitVec 32) : List ℕ → RtnlU32 modules → Option (RtnlU32 modules × ℤ)
  | [], u => some (u, 0)
  | i :: is, u => (in6Key u addr bitmask off offmask i).bind fun r =>
    if r.2 < 0 then some r else in6Keys addr bitmask off offmask is r.1

def rtnlU32AddKeyIn6Addr (u : RtnlU32 modules) (addr : Mem) (bitmask : ℕ) (off offmask : BitVec 32) :
    Option (RtnlU32 modules × ℤ) := in6Keys addr bitmask off offmask [1, 2, 3, 4] u

end

/-! ## What they should mean -/

/-- a helper with the values it is called with; a prefix length is one of the kind of address -/
inductive Helper where
  | uint8 (val mask : BitVec 8)
  | uint16 (val mask : BitVec 16)
  | uint32 (val mask : BitVec 32)
  | inAddr (addr : Mem) (bitmask : Fin 33)
  | in6Addr (addr : Mem) (bitmask : Fin 129)

/-- the field of the packet is as the helper says -/
def Helper.Field (p : Mem) (off : ℕ) : Helper → Prop
  | .uint8 val mask => (p off).toBitVec &&& mask = val &&& mask
  | .uint16 val mask => getBe16 p off &&& mask = val &&& mask
  | .uint32 val mask => getBe32 p off &&& mask = val &&& mask
  | .inAddr addr bitmask => ∀ j < bitmask.val, bitAt p off j = bitAt addr 0 j
  | .in6Addr addr bitmask => ∀ j < bitmask.val, bitAt p off j = bitAt addr 0 j

section

variable [HostOrder]

/-- the word of the packet at the offset of the key, masked, is its value -/
def Key.Matches (p : Mem) (k : Key) : Prop := getBe32 p k.off.toNat &&& ntohl k.mask = ntohl k.val

/-- the keys of a selector -/
def selKeys (sel : List UInt8) : List Key := (List.range (nkeysOf sel)).filterMap (loadKey sel)

variable {modules : List ActOps}

/-- the keys of a classifier -/
def keysOf (u : RtnlU32 modules) : List Key := (u.cuSelector.map selKeys).getD []

/-- the helper is called -/
def Helper.call (u : RtnlU32 modules) (off offmask : BitVec 32) : Helper → Option (RtnlU32 modules × ℤ)
  | .uint8 val mask => rtnlU32AddKeyUint8 u val mask off offmask
  | .uint16 val mask => rtnlU32AddKeyUint16 u val mask off offmask
  | .uint32 val mask => rtnlU32AddKeyUint32 u val mask off offmask
  | .inAddr addr bitmask => rtnlU32AddKeyInAddr u addr bitmask off offmask
  | .in6Addr addr bitmask => rtnlU32AddKeyIn6Addr u addr bitmask off offmask

variable (modules) in
/-- a successful call appends keys that all match when the field of the packet is as the helper says, and only then -/
def Helper.MeansIt (h : Helper) (off offmask : BitVec 32) : Prop :=
  ∀ u : RtnlU32 modules, Inv u → ∃ v err, h.call u off offmask = some (v, err) ∧
    (err = 0 → ∃ keys, keysOf v = keysOf u ++ keys ∧ ∀ p, (∀ k ∈ keys, k.Matches p) ↔ h.Field p off.toNat)

/-! ## Appending one key -/

/-- a slot that has the same bytes -/
theorem loadKey_congr {sel sel' : List UInt8} {i : ℕ} (hlen : keyOff (i + 1) ≤ sel.length) (hlen' : keyOff (i + 1) ≤ sel'.length)
    (h : ∀ j, keyOff i ≤ j → j < keyOff (i + 1) → memOf sel' j = memOf sel j) : loadKey sel' i = loadKey sel i := by
  rw [keyOff_succ] at hlen hlen' h
  have hsame : Same (memOf sel') (memOf sel) (keyOff i) (keyOff i) 16 := fun j hj => h _ (by omega) (by omega)
  unfold loadKey
  rw [peekU32_some (by omega), peekU32_some (by omega), peekU32_some (by omega), peekU32_some (by omega),
    peekU32_some (by omega), peekU32_some (by omega), peekU32_some (by omega), peekU32_some (by omega),
    (hsame.first 4 (by decide)).u32At, (hsame.sub 4 4 (by decide)).u32At, (hsame.sub 8 4 (by decide)).u32At,
    (hsame.sub 12 4 (by decide)).u32At]

theorem Appended.selKeys {sel sel' : List UInt8} {key : Key} (h : Appended sel sel' key) (hsel : Holds sel) :
    selKeys sel' = selKeys sel ++ [key] := by
  have hlen : keyOff (nkeysOf sel) ≤ sel.length := hsel
  have hlen' := h.length
  have hnew : loadKey sel' (nkeysOf sel) = some key := h.new.load (by
    rw [keyOff_succ, hlen']
    exact Nat.add_le_add_right hlen 16)
  have hold : ∀ i ∈ List.range (nkeysOf sel), loadKey sel' i = loadKey sel i := by
    intro i hi
    have hle : keyOff (i + 1) ≤ keyOff (nkeysOf sel) := keyOff_mono (List.mem_range.1 hi)
    have hge := keyOff_ge i
    refine loadKey_congr (hle.trans hlen) (by omega) fun j hj hlt => h.keys j ?_ (by omega)
    exact le_trans hge hj
  unfold U32.selKeys
  rw [h.nkeys, List.range_succ, List.filterMap_append, List.filterMap_congr hold, List.filterMap_cons, hnew]
  rfl

theorem keysOf_alloc (u : RtnlU32 modules) : keysOf u = selKeys (u32SelectorAlloc u) := by
  unfold keysOf u32SelectorAlloc
  cases u.cuSelector with
  | none =>
    have hzero : nkeysOf (nlDataAlloc none SIZEOF_SEL) = 0 := by decide
    rw [Option.map_none, Option.getD_none, Option.getD_none, selKeys, hzero]
    rfl
  | some sel => rfl

/-- **One key**: it is appended, or there are 255. -/
theorem added_key {u : RtnlU32 modules} (h : Inv u) (val mask off offmask : BitVec 32) :
    ∃ v err, rtnlU32AddKey u val mask off offmask = some (v, err) ∧ Inv v ∧
      (err < 0 ∨ (err = 0 ∧ keysOf v = keysOf u ++ [⟨mask, val &&& mask, off, offmask⟩])) := by
  rcases add_key_done h val mask off offmask with ⟨-, hadd⟩ | ⟨sel, happended, hadd⟩
  · exact ⟨_, _, hadd, h.withSel h.alloc u.cuMask, Or.inl (by decide)⟩
  · refine ⟨_, _, hadd, h.withSel (happended.holds h.alloc) (u.cuMask ||| U32_ATTR_SELECTOR), Or.inr ⟨rfl, ?_⟩⟩
    rw [keysOf_alloc u, ← happended.selKeys h.alloc]
    rfl

/-- a key as the helpers put it -/
theorem matches_iff (p : Mem) (val mask off offmask : BitVec 32) :
    Key.Matches p ⟨htonl mask, htonl val &&& htonl mask, off, offmask⟩ ↔ getBe32 p off.toNat &&& mask = val &&& mask := by
  unfold Key.Matches
  rw [ntohl_and, ntohl_htonl, ntohl_htonl]

/-- with room for it, it is appended -/
theorem added_with_room {u : RtnlU32 modules} (h : Inv u) (hroom : nkeysOf (u32SelectorAlloc u) < 255)
    (val mask off offmask : BitVec 32) : ∃ v, rtnlU32AddKey u val mask off offmask = some (v, 0) ∧ Inv v ∧
      nkeysOf (u32SelectorAlloc v) = nkeysOf (u32SelectorAlloc u) + 1 ∧
      keysOf v = keysOf u ++ [⟨mask, val &&& mask, off, offmask⟩] := by
  rcases add_key_done h val mask off offmask with ⟨hfull, -⟩ | ⟨sel, happended, hadd⟩
  · have hcount : nkeysOf (u32SelectorAlloc u) = 255 := congrArg UInt8.toNat hfull
    omega
  · refine ⟨_, hadd, h.withSel (happended.holds h.alloc) (u.cuMask ||| U32_ATTR_SELECTOR), happended.nkeys, ?_⟩
    rw [keysOf_alloc u, ← happended.selKeys h.alloc]
    rfl

theorem fresh_count : nkeysOf (u32SelectorAlloc (freshU32 modules)) = 0 := by
  have hzero : nkeysOf (nlDataAlloc none SIZEOF_SEL) = 0 := by decide
  exact hzero

/-- **A helper that appends one key** means what that key asks for. -/
theorem one_key {helper : Helper} {off offmask : BitVec 32} {val mask o : BitVec 32}
    (hcall : ∀ u : RtnlU32 modules, helper.call u off offmask = rtnlU32AddKey u (htonl val) (htonl mask) o offmask) :
    helper.MeansIt modules off offmask ↔
      ∀ p, getBe32 p o.toNat &&& mask = val &&& mask ↔ helper.Field p off.toNat := by
  constructor
  · intro hmeans p
    obtain ⟨v, err, hv, hkeys⟩ := hmeans (freshU32 modules) inv_fresh
    have hroom : nkeysOf (u32SelectorAlloc (freshU32 modules)) < 255 := by
      rw [fresh_count]
      decide
    obtain ⟨v', hv', -, -, hadded⟩ := added_with_room inv_fresh hroom (htonl val) (htonl mask) o offmask
    rw [hcall, hv', Option.some.injEq, Prod.mk.injEq] at hv
    obtain ⟨rfl, rfl⟩ := hv
    obtain ⟨keys, happend, hmatch⟩ := hkeys rfl
    rw [hadded] at happend
    obtain rfl := List.append_cancel_left happend
    rw [← hmatch p, List.forall_mem_singleton, matches_iff]
  · intro hasks u hu
    obtain ⟨v, err, hv, -, hadded⟩ := added_key hu (htonl val) (htonl mask) o offmask
    refine ⟨v, err, by rw [hcall, hv], fun herr => ?_⟩
    rcases hadded with hneg | ⟨-, hkeys⟩
    · omega
    · refine ⟨_, hkeys, fun p => ?_⟩
      rw [List.forall_mem_singleton, matches_iff]
      exact hasks p

/-! ## Prefixes -/

omit [HostOrder] in
theorem toInt_of_nonneg {off : BitVec 32} (hoff : off.msb = false) : off.toInt = off.toNat := by
  rw [BitVec.toInt_eq_msb_cond, hoff]
  rfl

omit [HostOrder] in
theorem plusInt_some {off : BitVec 32} (hoff : off.msb = false) {n : ℕ} (h : off.toNat + n < 2147483648) :
    ∃ o, plusInt off n = some o ∧ o.toNat = off.toNat + n := by
  have hint := toInt_of_nonneg hoff
  refine ⟨off + BitVec.ofNat 32 n, if_pos (by omega), ?_⟩
  rw [BitVec.toNat_add, BitVec.toNat_ofNat]
  omega

omit [HostOrder] in
theorem plusInt_none {off : BitVec 32} (hoff : off.msb = false) {n : ℕ} (h : 2147483648 ≤ off.toNat + n) :
    plusInt off n = none := by
  have hint := toInt_of_nonneg hoff
  exact if_neg (by omega)

/-- the bits of word `i` that are in the prefix -/
def bitsIn (bitmask i : ℕ) : ℕ := min 32 (bitmask - 32 * (i - 1))

/-- the mask of a prefix -/
def prefixMask (n : ℕ) : BitVec 32 := BitVec.allOnes 32 <<< (32 - n)

omit [HostOrder] in
theorem onesShl_prefix {n : ℕ} {k : ℤ} (hk : k = 32 - n) (hpos : 0 < n) (hn : n ≤ 32) : onesShl k = some (prefixMask n) := by
  have hnat : k.toNat = 32 - n := by omega
  unfold onesShl prefixMask
  rw [if_pos (by omega), hnat]

theorem htonl_ones : htonl (prefixMask 32) = 0xFFFFFFFF := by
  unfold htonl prefixMask
  split_ifs
  · decide
  · decide

/-- a word behind the prefix has no key -/
theorem in6Key_behind (u : RtnlU32 modules) (addr : Mem) {bitmask i : ℕ} (off offmask : BitVec 32) (hi : 1 ≤ i)
    (h : bitmask ≤ 32 * (i - 1)) : in6Key u addr bitmask off offmask i = some (u, 0) := by
  unfold in6Key
  rw [if_neg (by omega), if_neg (by omega)]

/-- and one with bits of it has -/
theorem in6Key_inside (u : RtnlU32 modules) (addr : Mem) {bitmask i : ℕ} (off offmask : BitVec 32) (hi : 1 ≤ i)
    (h : 32 * (i - 1) < bitmask) : in6Key u addr bitmask off offmask i = (plusInt off (4 * (i - 1))).bind fun o =>
      rtnlU32AddKey u (htonl (getBe32 addr (4 * (i - 1)))) (htonl (prefixMask (bitsIn bitmask i))) o offmask := by
  unfold in6Key
  rw [u32At_net]
  by_cases hfull : 32 * (i : ℤ) - bitmask ≤ 0
  · have hbits : bitsIn bitmask i = 32 := by
      unfold bitsIn
      omega
    rw [if_pos hfull, hbits, htonl_ones]
  · have hbits : bitsIn bitmask i = bitmask - 32 * (i - 1) := by
      unfold bitsIn
      omega
    have hones : onesShl (32 * i - bitmask) = some (prefixMask (bitsIn bitmask i)) :=
      onesShl_prefix (by rw [hbits]; omega) (by omega) (by omega)
    rw [if_neg hfull, if_pos (by omega), hones, Option.bind_some]

/-- the bits of word `i` of the prefix agree -/
def Agree (p addr : Mem) (bitmask off i : ℕ) : Prop :=
  ∀ j < bitsIn bitmask i, bitAt p off (32 * (i - 1) + j) = bitAt addr 0 (32 * (i - 1) + j)

omit [HostOrder] in
theorem prefix_word (p addr : Mem) (bitmask off i : ℕ) :
    getBe32 p (off + 4 * (i - 1)) &&& prefixMask (bitsIn bitmask i) =
      getBe32 addr (4 * (i - 1)) &&& prefixMask (bitsIn bitmask i) ↔ Agree p addr bitmask off i := by
  have hle : bitsIn bitmask i ≤ 32 := Nat.min_le_left _ _
  refine ( masked_prefix hle _ _).trans (forall₂_congr fun j hj => ?_)
  have hshift := bitAt_shift addr 0 (i - 1) j
  rw [Nat.zero_add] at hshift
  rw [be32_bit _ _ (by omega), be32_bit _ _ (by omega), bitAt_shift, hshift]

/-- **The loop over the words of an address** -/
theorem in6Keys_done {u : RtnlU32 modules} (h : Inv u) (addr : Mem) {bitmask : ℕ} {off : BitVec 32} (hoff : off.msb = false)
    (offmask : BitVec 32) {is : List ℕ}
    (his : ∀ i ∈ is, 1 ≤ i ∧ (32 * (i - 1) < bitmask → off.toNat + 4 * (i - 1) < 2147483648)) :
    ∃ v err, in6Keys addr bitmask off offmask is u = some (v, err) ∧ (err = 0 → ∃ keys, keysOf v = keysOf u ++ keys ∧
      ∀ p, (∀ k ∈ keys, k.Matches p) ↔ ∀ i ∈ is, Agree p addr bitmask off.toNat i) := by
  induction is generalizing u with
  | nil => exact ⟨u, 0, rfl, fun _ => ⟨[], (List.append_nil _).symm, fun p => iff_of_true (by simp) (by simp)⟩⟩
  | cons i is ih =>
    obtain ⟨hpos, hfit⟩ := his i List.mem_cons_self
    have hrest := fun {w : RtnlU32 modules} (hw : Inv w) => ih hw fun j hj => his j (List.mem_cons_of_mem i hj)
    by_cases hin : 32 * (i - 1) < bitmask
    · obtain ⟨o, hplus, ho⟩ := plusInt_some hoff (hfit hin)
      obtain ⟨w, err, hadd, hw, hadded⟩ := added_key h (htonl (getBe32 addr (4 * (i - 1))))
        (htonl (prefixMask (bitsIn bitmask i))) o offmask
      have hkey : in6Key u addr bitmask off offmask i = some (w, err) := by
        rw [in6Key_inside u addr off offmask hpos hin, hplus, Option.bind_some, hadd]
      rcases hadded with hneg | ⟨rfl, hnew⟩
      · refine ⟨w, err, ?_, fun hzero => by omega⟩
        rw [in6Keys, hkey, Option.bind_some, if_pos hneg]
      · obtain ⟨v, err, hv, hkeys⟩ := hrest hw
        refine ⟨v, err, ?_, fun herr => ?_⟩
        · rw [in6Keys, hkey, Option.bind_some, if_neg (lt_irrefl _), hv]
        · obtain ⟨keys, happend, hmatch⟩ := hkeys herr
          refine ⟨⟨htonl (prefixMask (bitsIn bitmask i)), htonl (getBe32 addr (4 * (i - 1))) &&&
            htonl (prefixMask (bitsIn bitmask i)), o, offmask⟩ :: keys, ?_, fun p => ?_⟩
          · rw [happend, hnew, List.append_assoc, List.singleton_append]
          · rw [List.forall_mem_cons, List.forall_mem_cons, hmatch p, matches_iff, ho, prefix_word]
    · have hkey := in6Key_behind u addr off offmask hpos (not_lt.1 hin)
      have hagree : ∀ p, Agree p addr bitmask off.toNat i := by
        intro p j hj
        unfold bitsIn at hj
        omega
      obtain ⟨v, err, hv, hkeys⟩ := hrest h
      refine ⟨v, err, ?_, fun herr => ?_⟩
      · rw [in6Keys, hkey, Option.bind_some, if_neg (lt_irrefl _), hv]
      · obtain ⟨keys, happend, hmatch⟩ := hkeys herr
        refine ⟨keys, happend, fun p => ?_⟩
        rw [List.forall_mem_cons, hmatch p]
        exact (and_iff_right (hagree p)).symm

/-- **Offsets beyond an `int`**: with room for all keys the loop reaches the first of them. -/
theorem in6Keys_overflow {u : RtnlU32 modules} (h : Inv u) (addr : Mem) {bitmask : ℕ} {off : BitVec 32} (hoff : off.msb = false)
    (offmask : BitVec 32) {is : List ℕ} (hpos : ∀ i ∈ is, 1 ≤ i) (hroom : nkeysOf (u32SelectorAlloc u) + is.length ≤ 255)
    (hex : ∃ i ∈ is, 32 * (i - 1) < bitmask ∧ 2147483648 ≤ off.toNat + 4 * (i - 1)) :
    in6Keys addr bitmask off offmask is u = none := by
  induction is generalizing u with
  | nil =>
    obtain ⟨i, hi, -⟩ := hex
    exact absurd hi List.not_mem_nil
  | cons i is ih =>
    rw [List.length_cons] at hroom
    have hone := hpos i List.mem_cons_self
    have hrest := fun {w : RtnlU32 modules} (hw : Inv w) => ih hw fun j hj => hpos j (List.mem_cons_of_mem i hj)
    by_cases hin : 32 * (i - 1) < bitmask
    · rw [in6Keys, in6Key_inside u addr off offmask hone hin]
      by_cases hover : 2147483648 ≤ off.toNat + 4 * (i - 1)
      · rw [plusInt_none hoff hover, Option.bind_none, Option.bind_none]
      · obtain ⟨o, hplus, -⟩ := plusInt_some hoff (not_le.1 hover)
        obtain ⟨w, hadd, hw, hcount, -⟩ := added_with_room h (by omega) (htonl (getBe32 addr (4 * (i - 1))))
          (htonl (prefixMask (bitsIn bitmask i))) o offmask
        rw [hplus, Option.bind_some, hadd, Option.bind_some, if_neg (lt_irrefl _)]
        refine hrest hw (by dsimp only; omega) ?_
        obtain ⟨j, hj, hbits, hbig⟩ := hex
        rcases List.mem_cons.1 hj with rfl | hj
        · exact absurd hbig hover
        · exact ⟨j, hj, hbits, hbig⟩
    · rw [in6Keys, in6Key_behind u addr off offmask hone (not_lt.1 hin), Option.bind_some, if_neg (lt_irrefl _)]
      refine hrest h (by dsimp only; omega) ?_
      obtain ⟨j, hj, hbits, hbig⟩ := hex
      rcases List.mem_cons.1 hj with rfl | hj
      · exact absurd hbits hin
      · exact ⟨j, hj, hbits, hbig⟩

/-! ## Which helpers mean it -/

/-- fields of one and of two bytes, aligned words or masks that ask for nothing, prefixes that are not empty, and addresses
whose words have offsets in an `int` -/
def Helper.Sound (off : BitVec 32) : Helper → Prop
  | .uint8 _ _ => True
  | .uint16 _ _ => True
  | .uint32 _ mask => off.toNat % 4 = 0 ∨ mask = 0
  | .inAddr _ bitmask => 0 < bitmask.val
  | .in6Addr _ bitmask => bitmask.val = 0 ∨ off.toNat + 4 * ((bitmask.val - 1) / 32) < 2147483648

theorem uint8_means_it (val mask : BitVec 8) (off offmask : BitVec 32) :
    (Helper.uint8 val mask).MeansIt modules off offmask := by
  refine (one_key fun u => rfl).2 fun p => ?_
  have hlt : off.toNat % 4 < 4 := Nat.mod_lt _ (by decide)
  have hsum : off.toNat / 4 * 4 + off.toNat % 4 = off.toNat := by omega
  rw [toNat_and_three, toNat_and_not_three]
  refine (masked_field (by omega) _ val mask).trans ?_
  rw [be32_byte p _ hlt, hsum]
  rfl

theorem uint16_means_it (val mask : BitVec 16) {off : BitVec 32} (hoff : off.msb = false) (offmask : BitVec 32) :
    (Helper.uint16 val mask).MeansIt modules off offmask := by
  have hint := toInt_of_nonneg hoff
  by_cases hodd : off.toInt % 2 ≠ 0
  · intro u _
    refine ⟨u, -NLE_INVAL, ?_, fun herr => absurd herr (by decide)⟩
    rw [Helper.call, rtnlU32AddKeyUint16, if_pos hodd]
  · have hcall : ∀ u : RtnlU32 modules, (Helper.uint16 val mask).call u off offmask =
        rtnlU32AddKey u (htonl (val.setWidth 32 <<< if off &&& 3 = 0 then 16 else 0))
          (htonl (mask.setWidth 32 <<< if off &&& 3 = 0 then 16 else 0)) (off &&& ~~~(3 : BitVec 32)) offmask :=
      fun u => if_neg hodd
    refine (one_key hcall).2 fun p => ?_
    have hthree : off &&& 3 = 0 ↔ off.toNat % 4 = 0 := by
      rw [← BitVec.toNat_inj, toNat_and_three]
      rfl
    rw [toNat_and_not_three]
    by_cases hfirst : off.toNat % 4 = 0
    · have hword : off.toNat / 4 * 4 = off.toNat := by omega
      rw [if_pos (hthree.2 hfirst), hword]
      refine (masked_field (by decide) _ val mask).trans ?_
      rw [(be32_half p off.toNat).1]
      rfl
    · have hword : off.toNat / 4 * 4 + 2 = off.toNat := by omega
      rw [if_neg fun h => hfirst (hthree.1 h)]
      refine (masked_field (by decide) _ val mask).trans ?_
      rw [(be32_half p (off.toNat / 4 * 4)).2, hword]
      rfl

theorem uint32_means_it_iff (val mask off offmask : BitVec 32) :
    (Helper.uint32 val mask).MeansIt modules off offmask ↔ off.toNat % 4 = 0 ∨ mask = 0 := by
  refine (one_key fun u => rfl).trans ?_
  rw [toNat_and_not_three]
  constructor
  · intro h
    by_cases haligned : off.toNat % 4 = 0
    · exact Or.inl haligned
    · exact Or.inr (mask_zero_of_shifted (by omega) h)
  · rintro (haligned | rfl) p
    · have hword : off.toNat / 4 * 4 = off.toNat := by omega
      rw [hword]
      rfl
    · exact iff_of_true (by simp) (by simp [Helper.Field])

theorem inAddr_means_it_iff (addr : Mem) (bitmask : Fin 33) {off : BitVec 32} (offmask : BitVec 32) :
    (Helper.inAddr addr bitmask).MeansIt modules off offmask ↔ 0 < bitmask.val := by
  have hle : bitmask.val ≤ 32 := Nat.le_of_lt_succ bitmask.isLt
  constructor
  · intro h
    by_contra hzero
    have hnone : onesShl (32 - bitmask.val) = none := if_neg (by omega)
    obtain ⟨v, err, hv, -⟩ := h (freshU32 modules) inv_fresh
    rw [Helper.call, rtnlU32AddKeyInAddr, hnone] at hv
    cases hv
  · intro hpos
    have hcall : ∀ u : RtnlU32 modules, (Helper.inAddr addr bitmask).call u off offmask =
        rtnlU32AddKey u (htonl (getBe32 addr 0)) (htonl (prefixMask bitmask.val)) off offmask := by
      intro u
      rw [Helper.call, rtnlU32AddKeyInAddr, onesShl_prefix rfl hpos hle, Option.bind_some, u32At_net]
    refine (one_key hcall).2 fun p => ?_
    refine ( masked_prefix hle _ _).trans (forall₂_congr fun j hj => ?_)
    rw [be32_bit _ _ (by omega), be32_bit _ _ (by omega)]

theorem in6Addr_means_it_iff (addr : Mem) (bitmask : Fin 129) {off : BitVec 32} (hoff : off.msb = false) (offmask : BitVec 32) :
    (Helper.in6Addr addr bitmask).MeansIt modules off offmask ↔
      bitmask.val = 0 ∨ off.toNat + 4 * ((bitmask.val - 1) / 32) < 2147483648 := by
  have hle : bitmask.val ≤ 128 := Nat.le_of_lt_succ bitmask.isLt
  constructor
  · intro h
    by_contra hnot
    obtain ⟨hzero, hbig⟩ := not_or.1 hnot
    obtain ⟨v, err, hv, -⟩ := h (freshU32 modules) inv_fresh
    have hnone : in6Keys addr bitmask.val off offmask [1, 2, 3, 4] (freshU32 modules) = none := by
      refine in6Keys_overflow inv_fresh addr hoff offmask (by decide) (by rw [fresh_count]; decide) ?_
      refine ⟨(bitmask.val - 1) / 32 + 1, ?_, by omega, by omega⟩
      simp only [List.mem_cons, List.not_mem_nil, or_false]
      omega
    rw [Helper.call, rtnlU32AddKeyIn6Addr, hnone] at hv
    cases hv
  · intro hsmall u hu
    have hwords : ∀ i ∈ [1, 2, 3, 4], 1 ≤ i ∧ (32 * (i - 1) < bitmask.val → off.toNat + 4 * (i - 1) < 2147483648) := by
      intro i hi
      simp only [List.mem_cons, List.not_mem_nil, or_false] at hi
      omega
    obtain ⟨v, err, hv, hkeys⟩ := in6Keys_done hu addr hoff offmask hwords
    refine ⟨v, err, hv, fun herr => ?_⟩
    obtain ⟨keys, happend, hmatch⟩ := hkeys herr
    refine ⟨keys, happend, fun p => (hmatch p).trans ⟨fun h j hj => ?_, fun h i hi j hj => ?_⟩⟩
    · have hword := h (j / 32 + 1) (by simp only [List.mem_cons, List.not_mem_nil, or_false]; omega) (j % 32) (by unfold bitsIn; omega)
      have hindex : 32 * (j / 32 + 1 - 1) + j % 32 = j := by omega
      rwa [hindex] at hword
    · unfold bitsIn at hj
      exact h _ (by omega)

/-- **Key helpers.** Whatever keys a classifier has, the keys that a helper appends match the packets with the field that it
names, and no others, if and only if a word is at an aligned offset (or its mask is empty), the prefix of an IPv4 address is
not, and the offsets of the words of an IPv6 address that have a bit of the prefix are in an `int`. -/
theorem helper_means_it_iff (helper : Helper) {off : BitVec 32} (hoff : off.msb = false) (offmask : BitVec 32) :
    helper.MeansIt modules off offmask ↔ helper.Sound off := by
  cases helper with
  | uint8 val mask => exact iff_of_true (uint8_means_it val mask off offmask) trivial
  | uint16 val mask => exact iff_of_true (uint16_means_it val mask hoff offmask) trivial
  | uint32 val mask => exact uint32_means_it_iff val mask off offmask
  | inAddr addr bitmask => exact inAddr_means_it_iff addr bitmask offmask
  | in6Addr addr bitmask => exact in6Addr_means_it_iff addr bitmask hoff offmask

end

/-- a byte at an offset that is not aligned -/
theorem byte_at_nine : @Helper.MeansIt ⟨false⟩ [] (.uint8 17 255) 9 0 := by
  let order : HostOrder := ⟨false⟩
  exact (helper_means_it_iff (.uint8 17 255) (by decide) 0).2 trivial

/-- **What goes wrong**: a word at an offset that is not aligned is matched at the aligned one, a prefix of no bits is a shift
by 32, and the second word of an address can be beyond an `int`. -/
theorem keys_that_do_not_mean_it : ¬ @Helper.MeansIt ⟨false⟩ [] (.uint32 0x0A000001 0xFFFFFFFF) 2 0 ∧
    ¬ @Helper.MeansIt ⟨false⟩ [] (.inAddr (fun _ => 10) 0) 16 0 ∧
    ¬ @Helper.MeansIt ⟨false⟩ [] (.in6Addr (fun _ => 10) 64) 0x7FFFFFFC 0 := by
  let order : HostOrder := ⟨false⟩
  refine ⟨fun h => ?_, fun h => ?_, fun h => ?_⟩
  · exact absurd ((uint32_means_it_iff _ _ _ _).1 h) (by decide)
  · exact absurd ((inAddr_means_it_iff _ _ _).1 h) (by decide)
  · exact absurd ((in6Addr_means_it_iff _ _ (by decide) _).1 h) (by decide)

end Libnl.U32
