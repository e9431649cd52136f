/-
The u32 classifier (`lib/route/cls/u32.c`).

A classifier keeps its selector, a structure and the keys behind it, as data of a size (`nl_data`). The number of keys is a
field of the structure. Setters allocate the structure when there is none, and write to it; a key makes the data longer by
one slot, and is stored where the number of keys says. Of the attributes that a classifier has there is a mask.

- `rtnlU32AddKey`, `rtnlU32GetKey`, …: the functions of the source; `none` is an access outside of the data.
- `u32MsgParser`, `u32MsgFill`, `u32Clone`: the operations of the module.
- `Does`: what setters of the selector leave alone. `add_key_done`: what a new key does to the data.
-/
import Mathlib.Tactic
import Libnl.Core.Mask
import Libnl.Core.Window
import Libnl.Message.Validate
import Libnl.Utils.Data
import Libnl.Route.ActRoundTrip

namespace Libnl.U32

open Bytes Layout Msg Attr AttrWalk Writer Fields Data Mask Actions

def TCA_U32_CLASSID : ℕ := 1
def TCA_U32_HASH : ℕ := 2
def TCA_U32_LINK : ℕ := 3
def TCA_U32_DIVISOR : ℕ := 4
def TCA_U32_SEL : ℕ := 5
def TCA_U32_POLICE : ℕ := 6
def TCA_U32_ACT : ℕ := 7
def TCA_U32_INDEV : ℕ := 8
def TCA_U32_PCNT : ℕ := 9
def TCA_U32_MARK : ℕ := 10
def TCA_U32_MAX : ℕ := 12

def U32_ATTR_DIVISOR : BitVec 32 := 0x001
def U32_ATTR_HASH : BitVec 32 := 0x002
def U32_ATTR_CLASSID : BitVec 32 := 0x004
def U32_ATTR_LINK : BitVec 32 := 0x008
def U32_ATTR_PCNT : BitVec 32 := 0x010
def U32_ATTR_SELECTOR : BitVec 32 := 0x020
def U32_ATTR_ACTION : BitVec 32 := 0x040
def U32_ATTR_POLICE : BitVec 32 := 0x080
def U32_ATTR_INDEV : BitVec 32 := 0x100
def U32_ATTR_MARK : BitVec 32 := 0x200

def TC_U32_TERMINAL : UInt8 := 1
def TC_U32_VAROFFSET : UInt8 := 4

def IFNAMSIZ : ℕ := 16

/-! `struct tc_u32_sel`: its size, that of a key behind it, and the offsets of its members -/

def SIZEOF_SEL : ℕ := 16
def SIZEOF_KEY : ℕ := 16
def SEL_FLAGS : ℕ := 0
def SEL_OFFSHIFT : ℕ := 1
def SEL_NKEYS : ℕ := 2
def SEL_OFFMASK : ℕ := 4
def SEL_OFF : ℕ := 6
def SEL_OFFOFF : ℕ := 8
def SEL_HOFF : ℕ := 10
def SEL_HMASK : ℕ := 12

/-- `sizeof(struct tc_u32_mark)` -/
def SIZEOF_MARK : ℕ := 12

/-- `sizeof(struct tc_u32_pcnt)` -/
def SIZEOF_PCNT : ℕ := 16

/-- the offset of a key -/
def keyOff (i : ℕ) : ℕ := SIZEOF_SEL + SIZEOF_KEY * i

/-- `struct tc_u32_key` -/
structure Key where
  mask : BitVec 32
  val : BitVec 32
  off : BitVec 32
  offmask : BitVec 32
deriving DecidableEq, Repr

section

variable [HostOrder]

/-- `struct rtnl_u32` -/
structure RtnlU32 (modules : List ActOps) where
  cuDivisor : BitVec 32
  cuHash : BitVec 32
  cuClassid : BitVec 32
  cuLink : BitVec 32
  cuPcnt : Option (List UInt8)
  cuSelector : Option (List UInt8)
  cuMark : Option (List UInt8)
  cuAct : List (Act modules)
  cuPolice : Option (List UInt8)
  cuIndev : List UInt8
  cuMask : BitVec 32

variable (modules : List ActOps) in
/-- a classifier as it is allocated -/
def freshU32 : RtnlU32 modules := ⟨0, 0, 0, 0, none, none, none, [], none, [], 0⟩

variable {modules : List ActOps}

/-! ## Setters -/

def rtnlU32SetClassid (u : RtnlU32 modules) (classid : BitVec 32) : RtnlU32 modules × ℤ :=
  ({ u with cuClassid := classid, cuMask := u.cuMask ||| U32_ATTR_CLASSID }, 0)

def rtnlU32SetDivisor (u : RtnlU32 modules) (divisor : BitVec 32) : RtnlU32 modules × ℤ :=
  ({ u with cuDivisor := divisor, cuMask := u.cuMask ||| U32_ATTR_DIVISOR }, 0)

def rtnlU32SetLink (u : RtnlU32 modules) (link : BitVec 32) : RtnlU32 modules × ℤ :=
  ({ u with cuLink := link, cuMask := u.cuMask ||| U32_ATTR_LINK }, 0)

def rtnlU32SetHashtable (u : RtnlU32 modules) (ht : BitVec 32) : RtnlU32 modules × ℤ :=
  ({ u with cuHash := ht, cuMask := u.cuMask ||| U32_ATTR_HASH }, 0)

/-- `u32_selector_alloc`: the data of the selector -/
def u32SelectorAlloc (u : RtnlU32 modules) : List UInt8 := u.cuSelector.getD (nlDataAlloc none SIZEOF_SEL)

/-- `u32_mark_alloc` -/
def u32MarkAlloc (u : RtnlU32 modules) : List UInt8 := u.cuMark.getD (nlDataAlloc none SIZEOF_MARK)

/-- `sel->flags |= flags` -/
def orFlags (sel : List UInt8) (flags : UInt8) : Option (List UInt8) := do
  let old ← sel[SEL_FLAGS]?
  poke sel SEL_FLAGS [old ||| flags]

/-- the members of the selector that `rtnl_u32_set_hashmask` stores -/
def storeHashmask (hashmask offset : BitVec 32) (sel : List UInt8) : Option (List UInt8) := do
  let sel ← poke sel SEL_HMASK (u32Bytes (htonl hashmask).toNat)
  poke sel SEL_HOFF (u16Bytes (offset.setWidth 16).toNat)

def rtnlU32SetHashmask (u : RtnlU32 modules) (hashmask offset : BitVec 32) : Option (RtnlU32 modules × ℤ) :=
  (storeHashmask hashmask offset (u32SelectorAlloc u)).map fun sel => ({ u with cuSelector := some sel }, 0)

/-- the members that `rtnl_u32_set_selector` stores -/
def storeOffsets (offoff offmask : BitVec 32) (offshift : UInt8) (off : BitVec 16) (flags : UInt8) (sel : List UInt8) :
    Option (List UInt8) := do
  let sel ← poke sel SEL_OFFOFF (u16Bytes (offoff.setWidth 16).toNat)
  let sel ← poke sel SEL_OFFMASK (u16Bytes (ntohs (offmask.setWidth 16)).toNat)
  let sel ← poke sel SEL_OFFSHIFT [offshift]
  let sel ← orFlags sel TC_U32_VAROFFSET
  let sel ← poke sel SEL_OFF (u16Bytes off.toNat)
  orFlags sel flags

def rtnlU32SetSelector (u : RtnlU32 modules) (offoff offmask : BitVec 32) (offshift : UInt8) (off : BitVec 16) (flags : UInt8) :
    Option (RtnlU32 modules × ℤ) :=
  (storeOffsets offoff offmask offshift off flags (u32SelectorAlloc u)).map fun sel => ({ u with cuSelector := some sel }, 0)

def rtnlU32SetClsTerminal (u : RtnlU32 modules) : Option (RtnlU32 modules × ℤ) :=
  (orFlags (u32SelectorAlloc u) TC_U32_TERMINAL).map fun sel => ({ u with cuSelector := some sel }, 0)

/-- `rtnl_u32_add_action` -/
def rtnlU32AddAction (u : RtnlU32 modules) (act : Act modules) : RtnlU32 modules × ℤ :=
  match rtnlActAppend u.cuAct [act] with
  | .error err => ({ u with cuMask := u.cuMask ||| U32_ATTR_ACTION }, err)
  | .ok acts => ({ u with cuMask := u.cuMask ||| U32_ATTR_ACTION, cuAct := acts }, 0)

def rtnlU32SetFlags (u : RtnlU32 modules) (flags : BitVec 32) : Option (RtnlU32 modules × ℤ) :=
  (orFlags (u32SelectorAlloc u) (UInt8.ofBitVec (flags.setWidth 8))).map fun sel =>
    ({ u with cuSelector := some sel, cuMask := u.cuMask ||| U32_ATTR_SELECTOR }, 0)

/-- the members of a key -/
def keyBytes (key : Key) : List UInt8 :=
  u32Bytes key.mask.toNat ++ u32Bytes key.val.toNat ++ u32Bytes key.off.toNat ++ u32Bytes key.offmask.toNat

/-- the key is stored in its slot, and counted -/
def storeKey (sel : List UInt8) (nkeys : UInt8) (key : Key) : Option (List UInt8) := do
  let sel ← poke sel (keyOff nkeys.toNat) (keyBytes key)
  poke sel SEL_NKEYS [nkeys + 1]

def rtnlU32AddKey (u : RtnlU32 modules) (val mask off offmask : BitVec 32) : Option (RtnlU32 modules × ℤ) :=
  (u32SelectorAlloc u)[SEL_NKEYS]?.bind fun nkeys =>
    if nkeys = 255 then some ({ u with cuSelector := some (u32SelectorAlloc u) }, -NLE_NOMEM)
    else
      let sel := nlDataAppend (u32SelectorAlloc u) none SIZEOF_KEY
      (storeKey sel nkeys ⟨mask, val &&& mask, off, offmask⟩).map fun sel =>
        ({ u with cuSelector := some sel, cuMask := u.cuMask ||| U32_ATTR_SELECTOR }, 0)

/-- the members of the mark -/
def storeMark (val mask : BitVec 32) (mark : List UInt8) : Option (List UInt8) := do
  let mark ← poke mark 4 (u32Bytes mask.toNat)
  poke mark 0 (u32Bytes val.toNat)

def rtnlU32AddMark (u : RtnlU32 modules) (val mask : BitVec 32) : Option (RtnlU32 modules × ℤ) :=
  (storeMark val mask (u32MarkAlloc u)).map fun mark => ({ u with cuMark := some mark, cuMask := u.cuMask ||| U32_ATTR_MARK }, 0)

/-- a key of the data -/
def loadKey (sel : List UInt8) (i : ℕ) : Option Key := do
  let mask ← peekU32 sel (keyOff i)
  let val ← peekU32 sel (keyOff i + 4)
  let off ← peekU32 sel (keyOff i + 8)
  let offmask ← peekU32 sel (keyOff i + 12)
  some ⟨mask, val, off, offmask⟩

def rtnlU32GetKey (u : RtnlU32 modules) (index : UInt8) : Option (Except ℤ Key) :=
  if u.cuMask &&& U32_ATTR_SELECTOR = 0 then some (.error (-NLE_INVAL))
  else do
    let sel ← u.cuSelector
    let nkeys ← sel[SEL_NKEYS]?
    if nkeys ≤ index then some (.error (-NLE_RANGE))
    else
      let key ← loadKey sel index.toNat
      some (.ok key)

variable (modules) in
/-- a call of a setter -/
inductive Setter where
  | classid (v : BitVec 32)
  | divisor (v : BitVec 32)
  | link (v : BitVec 32)
  | hashtable (v : BitVec 32)
  | hashmask (hashmask offset : BitVec 32)
  | selector (offoff offmask : BitVec 32) (offshift : UInt8) (off : BitVec 16) (flags : UInt8)
  | terminal
  | flags (v : BitVec 32)
  | key (val mask off offmask : BitVec 32)
  | mark (val mask : BitVec 32)
  | action (act : Act modules)

def Setter.apply (u : RtnlU32 modules) : Setter modules → Option (RtnlU32 modules × ℤ)
  | .classid v => some (rtnlU32SetClassid u v)
  | .divisor v => some (rtnlU32SetDivisor u v)
  | .link v => some (rtnlU32SetLink u v)
  | .hashtable v => some (rtnlU32SetHashtable u v)
  | .hashmask mask offset => rtnlU32SetHashmask u mask offset
  | .selector offoff offmask offshift off bits => rtnlU32SetSelector u offoff offmask offshift off bits
  | .terminal => rtnlU32SetClsTerminal u
  | .flags v => rtnlU32SetFlags u v
  | .key val mask' off offmask => rtnlU32AddKey u val mask' off offmask
  | .mark val mask' => rtnlU32AddMark u val mask'
  | .action act => some (rtnlU32AddAction u act)

/-! ## The module -/

def u32Policy : ℕ → NlaPolicy := fun t =>
  if t = TCA_U32_DIVISOR then ⟨.u32, 0, 0⟩
  else if t = TCA_U32_HASH then ⟨.u32, 0, 0⟩
  else if t = TCA_U32_CLASSID then ⟨.u32, 0, 0⟩
  else if t = TCA_U32_LINK then ⟨.u32, 0, 0⟩
  else if t = TCA_U32_INDEV then ⟨.string, 0, IFNAMSIZ⟩
  else if t = TCA_U32_SEL then ⟨.unspec, SIZEOF_SEL, 0⟩
  else if t = TCA_U32_PCNT then ⟨.unspec, SIZEOF_PCNT, 0⟩
  else if t = TCA_U32_MARK then ⟨.unspec, SIZEOF_MARK, 0⟩
  else ⟨.unspec, 0, 0⟩

/-- `tca_parse` of the options, if there are any -/
def tcaParse (maxattr : ℤ) (opts : Option (List UInt8)) (policy : ℕ → NlaPolicy) : ℤ × Index :=
  match opts with
  | none => (0, fun _ => none)
  | some bs => parseBytes (memOf bs) (toInt32 bs.length) maxattr policy

theorem tcaParse_some (maxattr : ℤ) (bs : List UInt8) (policy : ℕ → NlaPolicy) :
    tcaParse maxattr (some bs) policy = parseBytes (memOf bs) (toInt32 bs.length) maxattr policy := rfl

/-- the bytes of the options -/
def optBuf (opts : Option (List UInt8)) : Mem := memOf (opts.getD [])

/-- the payload of an attribute in the index -/
def blob (buf : Mem) (tb : Index) (t : ℕ) : Option (List UInt8) := (tb t).map (nlaBytes buf)

/-- the check of `TCA_U32_PCNT`, which has a counter for each key -/
def pcntError (buf : Mem) (tb : Index) : ℤ :=
  match blob buf tb TCA_U32_PCNT, blob buf tb TCA_U32_SEL with
  | none, _ => 0
  | some _, none => -NLE_MISSING_ATTR
  | some pcnt, some sel => if pcnt.length < SIZEOF_PCNT + 8 * (sel.getD SEL_NKEYS 0).toNat then -NLE_INVAL else 0

/-- the attributes of the index, with their bits -/
def parsedBits (tb : Index) : List (BitVec 32 × Bool) :=
  [(U32_ATTR_DIVISOR, (tb TCA_U32_DIVISOR).isSome), (U32_ATTR_SELECTOR, (tb TCA_U32_SEL).isSome),
    (U32_ATTR_MARK, (tb TCA_U32_MARK).isSome), (U32_ATTR_HASH, (tb TCA_U32_HASH).isSome),
    (U32_ATTR_CLASSID, (tb TCA_U32_CLASSID).isSome), (U32_ATTR_LINK, (tb TCA_U32_LINK).isSome),
    (U32_ATTR_ACTION, (tb TCA_U32_ACT).isSome), (U32_ATTR_POLICE, (tb TCA_U32_POLICE).isSome),
    (U32_ATTR_PCNT, (tb TCA_U32_PCNT).isSome), (U32_ATTR_INDEV, (tb TCA_U32_INDEV).isSome)]

/-- the actions in the index -/
def parseActs (buf : Mem) (acts : List (Act modules)) : Option ℕ → Except ℤ (List (Act modules))
  | none => .ok acts
  | some a => rtnlActParse buf acts a

/-- what is taken out of the index -/
def takenU32 (buf : Mem) (tb : Index) (u : RtnlU32 modules) (acts : List (Act modules)) : RtnlU32 modules where
  cuDivisor := ((tb TCA_U32_DIVISOR).map (nlaGetU32 buf)).getD u.cuDivisor
  cuHash := ((tb TCA_U32_HASH).map (nlaGetU32 buf)).getD u.cuHash
  cuClassid := ((tb TCA_U32_CLASSID).map (nlaGetU32 buf)).getD u.cuClassid
  cuLink := ((tb TCA_U32_LINK).map (nlaGetU32 buf)).getD u.cuLink
  cuPcnt := (blob buf tb TCA_U32_PCNT).or u.cuPcnt
  cuSelector := (blob buf tb TCA_U32_SEL).or u.cuSelector
  cuMark := (blob buf tb TCA_U32_MARK).or u.cuMark
  cuAct := acts
  cuPolice := (blob buf tb TCA_U32_POLICE).or u.cuPolice
  cuIndev := ((tb TCA_U32_INDEV).map fun a => nlaStrlcpy buf a IFNAMSIZ).getD u.cuIndev
  cuMask := u.cuMask ||| maskOf (parsedBits tb)

theorem taken_selector (buf : Mem) (tb : Index) (acts : List (Act modules)) :
    (takenU32 buf tb (freshU32 modules) acts).cuSelector = blob buf tb TCA_U32_SEL := Option.or_none

theorem taken_mark (buf : Mem) (tb : Index) (acts : List (Act modules)) :
    (takenU32 buf tb (freshU32 modules) acts).cuMark = blob buf tb TCA_U32_MARK := Option.or_none

theorem taken_mask (buf : Mem) (tb : Index) (acts : List (Act modules)) :
    (takenU32 buf tb (freshU32 modules) acts).cuMask = maskOf (parsedBits tb) := BitVec.zero_or

/-- `u32_msg_parser` -/
def u32MsgParser (opts : Option (List UInt8)) (u : RtnlU32 modules) : Except ℤ (RtnlU32 modules) :=
  let (err, tb) := tcaParse TCA_U32_MAX opts u32Policy
  let buf := optBuf opts
  if err < 0 then .error err
  else
    match parseActs buf u.cuAct (tb TCA_U32_ACT) with
    | .error err => .error err
    | .ok acts =>
      if pcntError buf tb ≠ 0 then .error (pcntError buf tb)
      else .ok (takenU32 buf tb u acts)

/-- a value that is put if its bit is set -/
def there {α : Type} (u : RtnlU32 modules) (bit : BitVec 32) (x : α) : Option α := if u.cuMask &&& bit ≠ 0 then some x else none

/-- what `u32_msg_fill` puts in front of the actions -/
def frontFields (u : RtnlU32 modules) : FieldList :=
  [(TCA_U32_DIVISOR, (there u U32_ATTR_DIVISOR u.cuDivisor).map fun v => u32Bytes v.toNat),
    (TCA_U32_HASH, (there u U32_ATTR_HASH u.cuHash).map fun v => u32Bytes v.toNat),
    (TCA_U32_CLASSID, (there u U32_ATTR_CLASSID u.cuClassid).map fun v => u32Bytes v.toNat),
    (TCA_U32_LINK, (there u U32_ATTR_LINK u.cuLink).map fun v => u32Bytes v.toNat),
    (TCA_U32_SEL, there u U32_ATTR_SELECTOR (u.cuSelector.getD [])),
    (TCA_U32_MARK, there u U32_ATTR_MARK (u.cuMark.getD []))]

/-- and behind them -/
def backFields (u : RtnlU32 modules) : FieldList :=
  [(TCA_U32_POLICE, there u U32_ATTR_POLICE (u.cuPolice.getD [])),
    (TCA_U32_INDEV, (there u U32_ATTR_INDEV u.cuIndev).map fun s => s ++ [0])]

/-- the actions -/
def fillActions (u : RtnlU32 modules) (msg : NlMsg) : NlMsg × ℤ :=
  if u.cuMask &&& U32_ATTR_ACTION ≠ 0 then rtnlActFill TCA_U32_ACT u.cuAct msg else (msg, 0)

/-- `u32_msg_fill` -/
def u32MsgFill (u : RtnlU32 modules) (msg : NlMsg) : NlMsg × ℤ :=
  thenPass (putAll (-NLE_NOMEM) (leavesOf (frontFields u)) msg) fun msg =>
    thenPass (fillActions u msg) fun msg => putAll (-NLE_NOMEM) (leavesOf (backFields u)) msg

/-- `u32_clone`, for an object whose data is a copy of that of `src` -/
def u32Clone (src : RtnlU32 modules) : RtnlU32 modules :=
  { src with
    cuSelector := src.cuSelector.map nlDataClone
    cuMark := src.cuMark.map nlDataClone
    -- only the first of the chain
    cuAct := src.cuAct.take 1
    cuPolice := src.cuPolice.map nlDataClone
    cuPcnt := src.cuPcnt.map nlDataClone }

end

/-! ## The selector -/

/-- the number of keys that the selector says it has -/
def nkeysOf (sel : List UInt8) : ℕ := (memOf sel SEL_NKEYS).toNat

/-- the data holds as many keys as it says -/
def Holds (sel : List UInt8) : Prop := keyOff (nkeysOf sel) ≤ sel.length

theorem Holds.header {sel : List UInt8} (h : Holds sel) : SIZEOF_SEL ≤ sel.length := (Nat.le_add_right _ _).trans h

theorem zeros_holds : Holds (nlDataAlloc none SIZEOF_SEL) := by
  have hzero : nkeysOf (nlDataAlloc none SIZEOF_SEL) = 0 := by decide
  unfold Holds
  rw [hzero]
  decide

theorem nkeys_read {sel : List UInt8} (h : SIZEOF_SEL ≤ sel.length) : sel[SEL_NKEYS]? = some (memOf sel SEL_NKEYS) := by
  have hlt : SEL_NKEYS < sel.length := lt_of_lt_of_le (by decide) h
  rw [List.getElem?_eq_getElem hlt, memOf, List.getD_eq_getElem?_getD, List.getElem?_eq_getElem hlt, Option.getD_some]

/-- only the fixed part of the structure changes, and not the number of keys -/
structure SameKeys (sel sel' : List UInt8) : Prop where
  length : sel'.length = sel.length
  nkeys : nkeysOf sel' = nkeysOf sel
  keys : ∀ i, SIZEOF_SEL ≤ i → memOf sel' i = memOf sel i

theorem SameKeys.trans {a b c : List UInt8} (h : SameKeys a b) (h' : SameKeys b c) : SameKeys a c :=
  ⟨h'.length.trans h.length, h'.nkeys.trans h.nkeys, fun i hi => (h'.keys i hi).trans (h.keys i hi)⟩

theorem SameKeys.holds {sel sel' : List UInt8} (h : SameKeys sel sel') (hsel : Holds sel) : Holds sel' := by
  unfold Holds
  rw [h.nkeys, h.length]
  exact hsel

/-- what setters do to a selector that is there -/
def Does (f : List UInt8 → Option (List UInt8)) : Prop :=
  ∀ sel, SIZEOF_SEL ≤ sel.length → ∃ sel', f sel = some sel' ∧ SameKeys sel sel'

theorem does_poke {off : ℕ} {bs : List UInt8} (hfit : off + bs.length ≤ SIZEOF_SEL)
    (hkeys : SEL_NKEYS < off ∨ off + bs.length ≤ SEL_NKEYS) : Does fun sel => poke sel off bs := by
  intro sel hlen
  obtain ⟨sel', hpoke⟩ := poke_some sel off bs (hfit.trans hlen)
  refine ⟨sel', hpoke, poke_length hpoke, ?_, fun i hi => poke_keeps hpoke (Or.inr (hfit.trans hi))⟩
  exact congrArg UInt8.toNat (poke_keeps hpoke hkeys)

theorem does_orFlags (flags : UInt8) : Does fun sel => orFlags sel flags := by
  intro sel hlen
  have hpos : SEL_FLAGS < sel.length := lt_of_lt_of_le (by decide) hlen
  have hpoke : Does fun s => poke s SEL_FLAGS [sel[SEL_FLAGS] ||| flags] :=
    does_poke (by rw [List.length_singleton]; decide) (by rw [List.length_singleton]; decide)
  obtain ⟨sel', hstored, hsame⟩ := hpoke sel hlen
  refine ⟨sel', ?_, hsame⟩
  show (sel[SEL_FLAGS]?.bind fun old => poke sel SEL_FLAGS [old ||| flags]) = some sel'
  rw [List.getElem?_eq_getElem hpos]
  exact hstored

/-- one after the other -/
theorem Does.bind {f g : List UInt8 → Option (List UInt8)} (hf : Does f) (hg : Does g) : Does fun sel => (f sel).bind g := by
  intro sel hlen
  obtain ⟨sel', hsel', hsame⟩ := hf sel hlen
  obtain ⟨sel'', hsel'', hsame'⟩ := hg sel' (by rw [hsame.length]; exact hlen)
  exact ⟨sel'', by simp only [hsel', Option.bind_some, hsel''], hsame.trans hsame'⟩

section

variable [HostOrder]

theorem does_storeHashmask (hashmask offset : BitVec 32) : Does (storeHashmask hashmask offset) := by
  have hmask : Does fun sel => poke sel SEL_HMASK (u32Bytes (htonl hashmask).toNat) :=
    does_poke (by rw [u32Bytes_length]; decide) (by rw [u32Bytes_length]; decide)
  have hoff : Does fun sel => poke sel SEL_HOFF (u16Bytes (offset.setWidth 16).toNat) :=
    does_poke (by rw [u16Bytes_length]; decide) (by rw [u16Bytes_length]; decide)
  exact hmask.bind hoff

theorem does_storeOffsets (offoff offmask : BitVec 32) (offshift : UInt8) (off : BitVec 16) (flags : UInt8) :
    Does (storeOffsets offoff offmask offshift off flags) := by
  have hoffoff : Does fun sel => poke sel SEL_OFFOFF (u16Bytes (offoff.setWidth 16).toNat) :=
    does_poke (by rw [u16Bytes_length]; decide) (by rw [u16Bytes_length]; decide)
  have hoffmask : Does fun sel => poke sel SEL_OFFMASK (u16Bytes (ntohs (offmask.setWidth 16)).toNat) :=
    does_poke (by rw [u16Bytes_length]; decide) (by rw [u16Bytes_length]; decide)
  have hshift : Does fun sel => poke sel SEL_OFFSHIFT [offshift] :=
    does_poke (by rw [List.length_singleton]; decide) (by rw [List.length_singleton]; decide)
  have hoff : Does fun sel => poke sel SEL_OFF (u16Bytes off.toNat) :=
    does_poke (by rw [u16Bytes_length]; decide) (by rw [u16Bytes_length]; decide)
  exact hoffoff.bind (hoffmask.bind (hshift.bind ((does_orFlags _).bind (hoff.bind (does_orFlags _)))))

end

/-! ## Keys -/

/-- a bit of something else -/
theorem or_other (mask bit : BitVec 32) (h : bit &&& U32_ATTR_SELECTOR = 0) :
    (mask ||| bit) &&& U32_ATTR_SELECTOR = mask &&& U32_ATTR_SELECTOR := by
  rw [BitVec.and_or_distrib_right, h]
  exact BitVec.or_zero

theorem keyOff_succ (i : ℕ) : keyOff (i + 1) = keyOff i + 16 := by
  unfold keyOff SIZEOF_KEY
  omega

theorem keyOff_ge (i : ℕ) : 16 ≤ keyOff i := Nat.le_add_right _ _

theorem keyOff_mono {i j : ℕ} (h : i ≤ j) : keyOff i ≤ keyOff j :=
  Nat.add_le_add_left (Nat.mul_le_mul_left _ h) _

section

variable [HostOrder]

/-- a key stands in the data -/
def KeyAt (sel : List UInt8) (i : ℕ) (key : Key) : Prop := Seg (memOf sel) (keyOff i) (keyBytes key)

theorem keyBytes_length (key : Key) : (keyBytes key).length = 16 := by
  unfold keyBytes
  rw [List.length_append, List.length_append, List.length_append, u32Bytes_length, u32Bytes_length, u32Bytes_length,
    u32Bytes_length]

/-- a slot inside the data can be read -/
theorem loadKey_isSome {sel : List UInt8} {i : ℕ} (h : keyOff (i + 1) ≤ sel.length) : (loadKey sel i).isSome = true := by
  rw [keyOff_succ] at h
  unfold loadKey
  rw [peekU32_some (by omega), peekU32_some (by omega), peekU32_some (by omega), peekU32_some (by omega)]
  rfl

theorem KeyAt.load {sel : List UInt8} {i : ℕ} {key : Key} (h : KeyAt sel i key) (hfit : keyOff (i + 1) ≤ sel.length) :
    loadKey sel i = some key := by
  rw [keyOff_succ] at hfit
  obtain ⟨h, hoffmask⟩ := seg_append.1 h
  obtain ⟨h, hoff⟩ := seg_append.1 h
  obtain ⟨hmask, hval⟩ := seg_append.1 h
  simp only [List.length_append, u32Bytes_length] at hval hoff hoffmask
  unfold loadKey
  rw [peekU32_some (by omega), peekU32_some (by omega), peekU32_some (by omega), peekU32_some (by omega)]
  show some (Key.mk _ _ _ _) = some key
  rw [seg_u32At hmask, seg_u32At hval, seg_u32At hoff, seg_u32At hoffmask]

/-- the data with one more key -/
structure Appended (sel sel' : List UInt8) (key : Key) : Prop where
  length : sel'.length = sel.length + SIZEOF_KEY
  nkeys : nkeysOf sel' = nkeysOf sel + 1
  new : KeyAt sel' (nkeysOf sel) key
  keys : ∀ i, SIZEOF_SEL ≤ i → i < keyOff (nkeysOf sel) → memOf sel' i = memOf sel i

theorem Appended.holds {sel sel' : List UInt8} {key : Key} (h : Appended sel sel' key) (hsel : Holds sel) : Holds sel' := by
  unfold Holds at hsel ⊢
  rw [h.nkeys, h.length, keyOff_succ]
  exact Nat.add_le_add_right hsel 16

/-- **A new key** in data that holds its keys -/
theorem storeKey_done {sel : List UInt8} (h : Holds sel) (hfull : memOf sel SEL_NKEYS ≠ 255) (key : Key) :
    ∃ sel', storeKey (nlDataAppend sel none SIZEOF_KEY) (memOf sel SEL_NKEYS) key = some sel' ∧ Appended sel sel' key := by
  have hge := keyOff_ge (nkeysOf sel)
  have hfit : keyOff (nkeysOf sel) ≤ sel.length := h
  have hkey := keyBytes_length key
  have hlen : (nlDataAppend sel none SIZEOF_KEY).length = sel.length + 16 := by
    rw [nlDataAppend_zeros, List.length_append, List.length_replicate]
    rfl
  obtain ⟨stored, hstored⟩ := poke_some (nlDataAppend sel none SIZEOF_KEY) (keyOff (nkeysOf sel)) (keyBytes key) (by omega)
  have hlen' := poke_length hstored
  obtain ⟨sel', hsel'⟩ := poke_some stored SEL_NKEYS [memOf sel SEL_NKEYS + 1]
    (by rw [List.length_singleton]; unfold SEL_NKEYS; omega)
  have hout : ∀ i, SIZEOF_SEL ≤ i → memOf sel' i = memOf stored i := fun i hi =>
    poke_keeps hsel' (Or.inr (le_trans (by rw [List.length_singleton]; decide) hi))
  refine ⟨sel', ?_, ?_, ?_, ?_, ?_⟩
  · show (poke _ (keyOff (nkeysOf sel)) (keyBytes key)).bind _ = some sel'
    rw [hstored]
    exact hsel'
  · rw [poke_length hsel', hlen', hlen]
    rfl
  · have hbyte := poke_holds hsel' 0 Nat.zero_lt_one
    have hlt := (memOf sel SEL_NKEYS).toNat_lt
    have hne : (memOf sel SEL_NKEYS).toNat ≠ 255 := fun heq => hfull (UInt8.toNat_inj.1 heq)
    rw [add_zero, List.getElem_cons_zero] at hbyte
    unfold nkeysOf
    rw [hbyte, UInt8.toNat_add, UInt8.toNat_one]
    omega
  · refine (poke_holds hstored).frame fun i hi _ => hout i ?_
    exact hge.trans hi
  · intro i hi hlt
    rw [hout i hi, poke_keeps hstored (Or.inl hlt)]
    unfold memOf
    rw [nlDataAppend_zeros, List.getD_eq_getElem?_getD, List.getD_eq_getElem?_getD, List.getElem?_append_left (by omega)]

/-! ## Classifiers whose data is as it should be -/

variable {modules : List ActOps}

/-- the data is as long as what is in it, and the selector is there when the mask says so -/
structure Inv (u : RtnlU32 modules) : Prop where
  sel : ∀ sel ∈ u.cuSelector, Holds sel
  bit : u.cuMask &&& U32_ATTR_SELECTOR ≠ 0 → u.cuSelector.isSome = true
  mark : ∀ mark ∈ u.cuMark, SIZEOF_MARK ≤ mark.length

theorem inv_fresh : Inv (freshU32 modules) := ⟨nofun, fun h => absurd BitVec.zero_and h, nofun⟩

theorem Inv.alloc {u : RtnlU32 modules} (h : Inv u) : Holds (u32SelectorAlloc u) := by
  unfold u32SelectorAlloc
  cases hsel : u.cuSelector with
  | none => exact zeros_holds
  | some sel => exact h.sel sel hsel

/-- a setter of the selector stores, and the number of keys stays -/
theorem Inv.stores {u : RtnlU32 modules} (h : Inv u) {f : List UInt8 → Option (List UInt8)} (hf : Does f) :
    ∃ sel, f (u32SelectorAlloc u) = some sel ∧ SameKeys (u32SelectorAlloc u) sel ∧ Holds sel := by
  obtain ⟨sel, hsel, hsame⟩ := hf _ h.alloc.header
  exact ⟨sel, hsel, hsame, hsame.holds h.alloc⟩

/-- the invariant with another selector -/
theorem Inv.withSel {u : RtnlU32 modules} (h : Inv u) {sel : List UInt8} (hsel : Holds sel) (mask : BitVec 32) :
    Inv { u with cuSelector := some sel, cuMask := mask } where
  sel s hs := by
    obtain rfl := Option.some.inj hs
    exact hsel
  bit _ := rfl
  mark := h.mark

/-- the invariant with another bit -/
theorem Inv.withBit {u : RtnlU32 modules} (h : Inv u) {mask : BitVec 32} (hmask : mask &&& U32_ATTR_SELECTOR = u.cuMask &&& U32_ATTR_SELECTOR)
    {v : RtnlU32 modules} (hsel : v.cuSelector = u.cuSelector) (hmark : v.cuMark = u.cuMark) (hv : v.cuMask = mask) : Inv v where
  sel := by
    rw [hsel]
    exact h.sel
  bit := by
    rw [hv, hmask, hsel]
    exact h.bit
  mark := by
    rw [hmark]
    exact h.mark

/-- **Adding a key** where there is room for one -/
theorem add_key_done {u : RtnlU32 modules} (h : Inv u) (val mask off offmask : BitVec 32) :
    (memOf (u32SelectorAlloc u) SEL_NKEYS = 255 ∧
      rtnlU32AddKey u val mask off offmask = some ({ u with cuSelector := some (u32SelectorAlloc u) }, -NLE_NOMEM)) ∨
    ∃ sel, Appended (u32SelectorAlloc u) sel ⟨mask, val &&& mask, off, offmask⟩ ∧
      rtnlU32AddKey u val mask off offmask =
        some ({ u with cuSelector := some sel, cuMask := u.cuMask ||| U32_ATTR_SELECTOR }, 0) := by
  unfold rtnlU32AddKey
  rw [nkeys_read h.alloc.header, Option.bind_some]
  by_cases hfull : memOf (u32SelectorAlloc u) SEL_NKEYS = 255
  · left
    exact ⟨hfull, if_pos hfull⟩
  · right
    obtain ⟨sel, hstore, happended⟩ := storeKey_done h.alloc hfull ⟨mask, val &&& mask, off, offmask⟩
    refine ⟨sel, happended, ?_⟩
    rw [if_neg hfull]
    dsimp only
    rw [hstore, Option.map_some]

/-- **A mark** is stored where there is room for one. -/
theorem storeMark_done (val mask : BitVec 32) {mark : List UInt8} (h : SIZEOF_MARK ≤ mark.length) :
    ∃ mark', storeMark val mask mark = some mark' ∧ mark'.length = mark.length := by
  have hsize : SIZEOF_MARK = 12 := rfl
  obtain ⟨m1, h1⟩ := poke_some mark 4 (u32Bytes mask.toNat) (by rw [u32Bytes_length]; omega)
  have hlen1 := poke_length h1
  obtain ⟨m2, h2⟩ := poke_some m1 0 (u32Bytes val.toNat) (by rw [u32Bytes_length]; omega)
  refine ⟨m2, ?_, (poke_length h2).trans hlen1⟩
  show (poke mark 4 (u32Bytes mask.toNat)).bind _ = some m2
  rw [h1]
  exact h2

/-- **Setters** keep to the data, and keep the invariant. -/
theorem setter_done {u : RtnlU32 modules} (h : Inv u) (s : Setter modules) :
    ∃ v err, s.apply u = some (v, err) ∧ Inv v := by
  cases s with
  | classid v => exact ⟨_, _, rfl, h.withBit (or_other u.cuMask U32_ATTR_CLASSID (by decide)) rfl rfl rfl⟩
  | divisor v => exact ⟨_, _, rfl, h.withBit (or_other u.cuMask U32_ATTR_DIVISOR (by decide)) rfl rfl rfl⟩
  | link v => exact ⟨_, _, rfl, h.withBit (or_other u.cuMask U32_ATTR_LINK (by decide)) rfl rfl rfl⟩
  | hashtable v => exact ⟨_, _, rfl, h.withBit (or_other u.cuMask U32_ATTR_HASH (by decide)) rfl rfl rfl⟩
  | hashmask hashmask offset =>
    obtain ⟨sel, hstore, -, hsel⟩ := h.stores (does_storeHashmask hashmask offset)
    refine ⟨_, 0, ?_, h.withSel hsel u.cuMask⟩
    rw [Setter.apply, rtnlU32SetHashmask, hstore, Option.map_some]
  | selector offoff offmask offshift off flags =>
    obtain ⟨sel, hstore, -, hsel⟩ := h.stores (does_storeOffsets offoff offmask offshift off flags)
    refine ⟨_, 0, ?_, h.withSel hsel u.cuMask⟩
    rw [Setter.apply, rtnlU32SetSelector, hstore, Option.map_some]
  | terminal =>
    obtain ⟨sel, hstore, -, hsel⟩ := h.stores (does_orFlags TC_U32_TERMINAL)
    refine ⟨_, 0, ?_, h.withSel hsel u.cuMask⟩
    rw [Setter.apply, rtnlU32SetClsTerminal, hstore, Option.map_some]
  | flags v =>
    obtain ⟨sel, hstore, -, hsel⟩ := h.stores (does_orFlags (UInt8.ofBitVec (v.setWidth 8)))
    refine ⟨_, 0, ?_, h.withSel hsel (u.cuMask ||| U32_ATTR_SELECTOR)⟩
    rw [Setter.apply, rtnlU32SetFlags, hstore, Option.map_some]
  | key val mask off offmask =>
    rcases add_key_done h val mask off offmask with ⟨-, hadd⟩ | ⟨sel, happended, hadd⟩
    · refine ⟨_, -NLE_NOMEM, ?_, h.withSel h.alloc u.cuMask⟩
      rw [Setter.apply, hadd]
    · refine ⟨_, 0, ?_, h.withSel (happended.holds h.alloc) (u.cuMask ||| U32_ATTR_SELECTOR)⟩
      rw [Setter.apply, hadd]
  | mark val mask =>
    have hlen : SIZEOF_MARK ≤ (u32MarkAlloc u).length := by
      unfold u32MarkAlloc
      cases hmark : u.cuMark with
      | none => exact le_of_eq (List.length_replicate).symm
      | some mark => exact h.mark mark hmark
    obtain ⟨m2, hstore, hlen2⟩ := storeMark_done val mask hlen
    refine ⟨{ u with cuMark := some m2, cuMask := u.cuMask ||| U32_ATTR_MARK }, 0, ?_, h.sel, ?_, ?_⟩
    · rw [Setter.apply, rtnlU32AddMark, hstore, Option.map_some]
    · dsimp only
      rw [or_other u.cuMask U32_ATTR_MARK (by decide)]
      exact h.bit
    · intro mark hmark
      obtain rfl := Option.some.inj hmark
      omega
  | action act =>
    cases happend : rtnlActAppend u.cuAct [act] with
    | error err =>
      refine ⟨_, _, by rw [Setter.apply, rtnlU32AddAction, happend], ?_⟩
      exact h.withBit (or_other u.cuMask U32_ATTR_ACTION (by decide)) rfl rfl rfl
    | ok acts =>
      refine ⟨_, _, by rw [Setter.apply, rtnlU32AddAction, happend], ?_⟩
      exact h.withBit (or_other u.cuMask U32_ATTR_ACTION (by decide)) rfl rfl rfl

end

end Libnl.U32
