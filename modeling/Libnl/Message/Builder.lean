/-
Building a message step by step: the length of the message over every sequence of builder calls.

A builder is a message and the nests that are open in it, innermost first, each with the place of its header and the
length the message had right before `nla_nest_start`. The calls are `nlmsg_append` / `nlmsg_reserve` with any length and
pad, `nla_put`, and properly nested `nla_nest_start` / `nla_nest_end` / `nla_nest_cancel`.

A nest starts at the aligned end of the message. `nla_nest_cancel` takes away as many bytes as lie between the aligned
end and that start, a multiple of four: the length comes back to what it was exactly when it is the same modulo four
(`nlaNestCancel_exact_iff`). Otherwise the message ends up up to three bytes short
of, or past, the old end, and may even lose a part of its header (`nest_cancel_cuts_header`).

- `builder_invariant`: in every run in which the length is congruent where a nest is dropped, and never leaves 32 bits,
  the length stays between the header and the buffer size and each dropped nest restores it.
-/
import Mathlib.Tactic
import Libnl.Message.Attr

namespace Libnl.Builder

open Bytes Msg Attr

section

variable [HostOrder]

/-! ## Calls -/

/-- an open nest -/
structure Nest where
  /-- offset of its header -/
  start : ℕ
  /-- `nlmsg_len` right before it was started -/
  before : ℕ
deriving DecidableEq, Repr

structure State where
  msg : NlMsg
  /-- open nests, innermost first -/
  nests : List Nest

inductive Call where
  | append (data : List UInt8) (pad : ℤ)
  | reserve (len : ℕ) (pad : ℤ)
  | put (attrtype datalen : ℤ) (data : List UInt8)
  | nestStart (attrtype : ℤ)
  | nestEnd (keepEmpty : Bool)
  | nestCancel
deriving DecidableEq, Repr

/-- `nla_nest_start`; a nest is open if the call returned its header -/
def startNest (s : State) (attrtype : ℤ) : State :=
  let r := nlaNestStart s.msg attrtype
  ⟨r.1, (r.2.map fun start => ⟨start, s.msg.nlmsgLen⟩).toList ++ s.nests⟩

theorem startNest_eq {s : State} {m : NlMsg} {t : ℤ} {o : Option ℕ} (h : nlaNestStart s.msg t = (m, o)) :
    startNest s t = ⟨m, (o.map fun start => ⟨start, s.msg.nlmsgLen⟩).toList ++ s.nests⟩ := by
  unfold startNest
  rw [h]

/-- one call; `none` when it would close a nest that is not open -/
def step (s : State) : Call → Option State
  | .append data pad => some { s with msg := (nlmsgAppend s.msg data pad).1 }
  | .reserve len pad => some { s with msg := (nlmsgReserve s.msg len pad).1 }
  | .put t n data => some { s with msg := (nlaPut s.msg t n data).1 }
  | .nestStart t => some (startNest s t)
  | .nestEnd keepEmpty =>
    match s.nests with
    | [] => none
    | nest :: rest => some ⟨(nestEnd s.msg nest.start keepEmpty).1, rest⟩
  | .nestCancel =>
    match s.nests with
    | [] => none
    | nest :: rest => some ⟨nlaNestCancel s.msg nest.start, rest⟩

def run (s : State) : List Call → Option State
  | [] => some s
  | c :: cs => (step s c).bind fun s' => run s' cs

/-! ## What is asked of a call -/

/-- `_nest_end` drops the nest: it is too long for its header, or empty -/
def Dropped (m : NlMsg) (start : ℕ) (keepEmpty : Bool) : Prop :=
  USHRT_MAX < align4 m.nlmsgLen - start ∨ (keepEmpty = false ∧ align4 m.nlmsgLen - start = NLA_HDRLEN)

/-- the call takes the innermost nest away again -/
def Drops (s : State) (c : Call) (nest : Nest) : Prop :=
  s.nests.head? = some nest ∧
    (c = .nestCancel ∨ ∃ keepEmpty, c = .nestEnd keepEmpty ∧ Dropped s.msg nest.start keepEmpty)

/-- the length that the call asks for stays within 32 bits -/
def Fits (m : NlMsg) : Call → Prop
  | .append data pad => m.nlmsgLen + reserveLen data.length pad ≤ m.nmSize →
      m.nlmsgLen + reserveLen data.length pad < 4294967296
  | .reserve len pad => m.nlmsgLen + reserveLen len pad ≤ m.nmSize → m.nlmsgLen + reserveLen len pad < 4294967296
  | .put _ n _ => 0 ≤ n → align4 m.nlmsgLen + align4 (4 + n.toNat) < 4294967296
  | .nestStart _ => align4 m.nlmsgLen + 4 < 4294967296
  | .nestEnd _ => align4 m.nlmsgLen < 4294967296
  | .nestCancel => align4 m.nlmsgLen < 4294967296

/-- a nest is dropped only at a length congruent to the one it was started at, and lengths stay within 32 bits -/
structure Meets (s : State) (c : Call) : Prop where
  fits : Fits s.msg c
  congr : ∀ nest, Drops s c nest → s.msg.nlmsgLen % 4 = nest.before % 4

/-- every call of the run meets the condition -/
def MeetsAll (s : State) : List Call → Prop
  | [] => True
  | c :: cs => Meets s c ∧ ∀ s', step s c = some s' → MeetsAll s' cs

/-! ## Lengths after a call -/

/-- a length between the header and the end of the buffer -/
structure Bounded (m : NlMsg) : Prop where
  ge : 16 ≤ m.nlmsgLen
  le : m.nlmsgLen ≤ m.nmSize
  /-- the field has 32 bits -/
  u32 : m.nlmsgLen < 4294967296
  size : m.nmSize ≤ PTRDIFF_MAX

/-- the message got longer, or stayed as it was, within its buffer -/
structure Grew (m m' : NlMsg) : Prop where
  ge : m.nlmsgLen ≤ m'.nlmsgLen
  le : m'.nlmsgLen ≤ m.nmSize
  u32 : m'.nlmsgLen < 4294967296
  size : m'.nmSize = m.nmSize

omit [HostOrder] in
theorem Grew.refl {m : NlMsg} (h : Bounded m) : Grew m m := ⟨le_rfl, h.le, h.u32, rfl⟩

omit [HostOrder] in
theorem Grew.bounded {m m' : NlMsg} (hm : Bounded m) (h : Grew m m') : Bounded m' :=
  ⟨hm.ge.trans h.ge, h.size ▸ h.le, h.u32, h.size ▸ hm.size⟩

omit [HostOrder] in
/-- with any pad, the sizes add up without leaving `size_t` -/
theorem reserveLen_lt {len : ℕ} (pad : ℤ) (h : len ≤ PTRDIFF_MAX) : reserveLen len pad < 9223372039002259456 := by
  unfold PTRDIFF_MAX at h
  unfold reserveLen
  split_ifs with h0
  · omega
  · have hq : -2147483648 ≤ toInt32 (pad - 1) ∧ toInt32 (pad - 1) < 2147483648 := by
      unfold toInt32; split_ifs <;> omega
    generalize toInt32 (pad - 1) = q at hq
    by_cases hneg : q < 0
    · -- a negative pad: the mask is small
      refine lt_of_le_of_lt Nat.and_le_right ?_
      unfold toU64; omega
    · refine lt_of_le_of_lt Nat.and_le_left ?_
      unfold toU64; omega

omit [HostOrder] in
/-- **`nlmsg_reserve`** keeps the length within the buffer. -/
theorem nlmsgReserve_grew {m : NlMsg} (hm : Bounded m) (len : ℕ) (pad : ℤ)
    (hfit : m.nlmsgLen + reserveLen len pad ≤ m.nmSize → m.nlmsgLen + reserveLen len pad < 4294967296) :
    Grew m (nlmsgReserve m len pad).1 := by
  have hsz := hm.size
  have hu := hm.u32
  unfold PTRDIFF_MAX at hsz
  simp only [nlmsgReserve]
  split
  case isTrue => exact Grew.refl hm
  case isFalse h1 =>
    have hlt := reserveLen_lt pad ((Nat.not_lt.1 h1).trans hm.size)
    have hsum : (reserveLen len pad + m.nlmsgLen) % 18446744073709551616 = m.nlmsgLen + reserveLen len pad := by omega
    rw [hsum]
    split
    case isTrue => exact Grew.refl hm
    case isFalse h2 =>
      have hb := hfit (Nat.not_lt.1 h2)
      rw [Nat.mod_eq_of_lt hb]
      exact ⟨Nat.le_add_right _ _, Nat.not_lt.1 h2, hb, rfl⟩

omit [HostOrder] in
theorem nlmsgAppend_len (m : NlMsg) (data : List UInt8) (pad : ℤ) :
    (nlmsgAppend m data pad).1.nlmsgLen = (nlmsgReserve m data.length pad).1.nlmsgLen ∧
      (nlmsgAppend m data pad).1.nmSize = (nlmsgReserve m data.length pad).1.nmSize := by
  unfold nlmsgAppend
  split <;> rename_i h <;> rw [h] <;> exact ⟨rfl, rfl⟩

omit [HostOrder] in
theorem nlmsgAppend_grew {m : NlMsg} (hm : Bounded m) (data : List UInt8) (pad : ℤ)
    (hfit : m.nlmsgLen + reserveLen data.length pad ≤ m.nmSize →
      m.nlmsgLen + reserveLen data.length pad < 4294967296) : Grew m (nlmsgAppend m data pad).1 := by
  have hg := nlmsgReserve_grew hm data.length pad hfit
  obtain ⟨h1, h2⟩ := nlmsgAppend_len m data pad
  exact ⟨h1 ▸ hg.ge, h1 ▸ hg.le, h1 ▸ hg.u32, h2.trans hg.size⟩

omit [HostOrder] in
theorem toInt32_emod (x : ℤ) : toInt32 x % 4294967296 = x % 4294967296 := by
  unfold toInt32; split_ifs <;> omega

omit [HostOrder] in
theorem toInt32_congr {x y : ℤ} (h : x % 4294967296 = y % 4294967296) : toInt32 x = toInt32 y := by
  unfold toInt32
  rw [h]

omit [HostOrder] in
/-- the size of an attribute is right modulo `2^32`, for every payload length -/
theorem nlaTotalSize_emod (n : ℕ) : nlaTotalSize n % 4294967296 = (align4 (4 + n) : ℕ) % 4294967296 := by
  have h1 : nlaAttrSize n % 4294967296 = (4 + n) % 4294967296 := toInt32_emod _
  unfold nlaTotalSize alignInt align4
  rw [toInt32_emod]
  generalize nlaAttrSize n = x at h1
  push_cast
  omega

omit [HostOrder] in
/-- the total length `nla_reserve` computes is right modulo `2^32` -/
theorem reserve_total_emod (L n : ℕ) :
    toInt32 ((nlmsgAlign L : ℕ) + nlaTotalSize n) = toInt32 ((align4 L + align4 (4 + n) : ℕ) : ℤ) := by
  have h1 := nlaTotalSize_emod n
  have h2 : nlmsgAlign L % 4294967296 = align4 L % 4294967296 := by unfold nlmsgAlign align4; omega
  generalize nlaTotalSize n = x at h1
  generalize nlmsgAlign L = y at h2
  generalize align4 L = z at h2
  generalize align4 (4 + n) = w at h1
  apply toInt32_congr
  push_cast
  omega

/-- **`nla_reserve`** refuses, or reserves the attribute at the aligned end. -/
theorem nlaReserve_len {m : NlMsg} (hm : Bounded m) (t : ℤ) (n : ℕ)
    (hfit : align4 m.nlmsgLen + align4 (4 + n) < 4294967296) :
    nlaReserve m t n = (m, none) ∨
    ∃ m', nlaReserve m t n = (m', some (nlmsgTail m)) ∧ m'.nlmsgLen = align4 m.nlmsgLen + align4 (4 + n) ∧
      align4 m.nlmsgLen + align4 (4 + n) ≤ m.nmSize ∧ m'.nmSize = m.nmSize := by
  have hneg : ¬ ((n : ℤ) < 0) := not_lt.2 (Int.natCast_nonneg n)
  have hsz := hm.size
  unfold PTRDIFF_MAX at hsz
  unfold nlaReserve
  rw [if_neg hneg, reserve_total_emod]
  generalize align4 m.nlmsgLen + align4 (4 + n) = total at *
  by_cases h31 : total < 2147483648
  · rw [toInt32_of_mem (by omega) (by omega)]
    have h64 : toU64 (total : ℤ) = total := by unfold toU64; omega
    have h32 : toU32 (total : ℤ) = total := by unfold toU32; omega
    by_cases hroom : m.nmSize < total
    · exact Or.inl (if_pos (by rw [h64]; exact hroom))
    · exact Or.inr ⟨_, if_neg (by rw [h64]; exact hroom), h32, Nat.not_lt.1 hroom, rfl⟩
  · -- as an `int` the total is negative, and as a `size_t` larger than any buffer
    have hint : toInt32 (total : ℤ) = total - 4294967296 := by unfold toInt32; split_ifs <;> omega
    have hbig := toU64_of_neg (x := toInt32 total) (by omega) (by omega)
    exact Or.inl (if_pos (by omega))

/-- **`nla_put`** fails and changes nothing, or appends the attribute at the aligned end. -/
theorem nlaPut_len {m : NlMsg} (hm : Bounded m) (t n : ℤ) (data : List UInt8)
    (hfit : 0 ≤ n → align4 m.nlmsgLen + align4 (4 + n.toNat) < 4294967296) :
    (∃ err < 0, nlaPut m t n data = (m, err)) ∨
    0 ≤ n ∧ ∃ m', nlaPut m t n data = (m', 0) ∧ m'.nlmsgLen = align4 m.nlmsgLen + align4 (4 + n.toNat) ∧
      align4 m.nlmsgLen + align4 (4 + n.toNat) ≤ m.nmSize ∧ m'.nmSize = m.nmSize := by
  rcases lt_or_ge n 0 with hneg | hpos
  · have hres : nlaReserve m t n = (m, none) := by
      unfold nlaReserve
      rw [if_pos hneg]
    exact Or.inl ⟨_, by rw [if_pos hneg]; decide, nlaPut_none data hres⟩
  · obtain ⟨k, rfl⟩ := Int.eq_ofNat_of_zero_le hpos
    rw [Int.toNat_natCast] at hfit ⊢
    rcases nlaReserve_len hm t k (hfit hpos) with hres | ⟨m', hres, hlen, hle, hsize⟩
    · exact Or.inl ⟨_, by rw [if_neg (not_lt.2 hpos)]; decide, nlaPut_none data hres⟩
    · refine Or.inr ⟨hpos, ?_⟩
      rw [nlaPut_some data hres]
      split
      · exact ⟨_, rfl, hlen, hle, hsize⟩
      · exact ⟨_, rfl, hlen, hle, hsize⟩

theorem nlaPut_grew {m : NlMsg} (hm : Bounded m) (t n : ℤ) (data : List UInt8)
    (hfit : 0 ≤ n → align4 m.nlmsgLen + align4 (4 + n.toNat) < 4294967296) : Grew m (nlaPut m t n data).1 := by
  rcases nlaPut_len hm t n data hfit with ⟨err, -, h⟩ | ⟨hpos, m', h, hlen, hle, hsize⟩
  · rw [h]
    exact Grew.refl hm
  · have hge := le_align4 m.nlmsgLen
    have hlt := hfit hpos
    have hg : Grew m m' := ⟨by omega, by omega, by omega, hsize⟩
    rw [h]
    exact hg

/-! ## Nests -/

/-- **`nla_nest_start`** fails and changes nothing, or puts a bare header at the aligned end. -/
theorem nlaNestStart_len {m : NlMsg} (hm : Bounded m) (t : ℤ) (hfit : align4 m.nlmsgLen + 4 < 4294967296) :
    nlaNestStart m t = (m, none) ∨
    ∃ m', nlaNestStart m t = (m', some (align4 m.nlmsgLen)) ∧ m'.nlmsgLen = align4 m.nlmsgLen + 4 ∧
      align4 m.nlmsgLen + 4 ≤ m.nmSize ∧ m'.nmSize = m.nmSize := by
  have h4 : align4 (4 + (0 : ℤ).toNat) = 4 := by decide
  have htail : nlmsgTail m = align4 m.nlmsgLen := nlmsgAlign_eq (by have := le_align4 m.nlmsgLen; omega)
  rcases nlaPut_len hm _ 0 [] (fun _ => h4 ▸ hfit) with ⟨err, herr, h⟩ | ⟨-, m', h, hlen, hle, hsize⟩
  · left
    rw [nlaNestStart_of_put h, if_pos herr]
  · right
    rw [h4] at hlen hle
    exact ⟨m', by rw [nlaNestStart_of_put h, htail]; rfl, hlen, hle, hsize⟩

omit [HostOrder] in
/-- **`nla_nest_cancel`** takes away what lies between the aligned end and the start of the nest. -/
theorem nlaNestCancel_len {m : NlMsg} {start : ℕ} (hs : 16 ≤ start) (hle : start + 4 ≤ m.nlmsgLen)
    (hfit : align4 m.nlmsgLen < 4294967296) :
    (nlaNestCancel m start).nlmsgLen + align4 m.nlmsgLen = m.nlmsgLen + start ∧
      (nlaNestCancel m start).nmSize = m.nmSize := by
  have hge := le_align4 m.nlmsgLen
  have hlt := align4_lt m.nlmsgLen
  have hmod := align4_mod m.nlmsgLen
  have htail : nlmsgTail m = align4 m.nlmsgLen := nlmsgAlign_eq (by omega)
  have h32 := toU32_of_mem (x := (m.nlmsgLen : ℤ) - ((align4 m.nlmsgLen : ℤ) - start)) (by omega) (by omega)
  unfold nlaNestCancel
  rw [htail, if_neg (by omega), if_pos (by omega)]
  refine ⟨?_, rfl⟩
  change toU32 ((m.nlmsgLen : ℤ) - ((align4 m.nlmsgLen : ℤ) - start)) + align4 m.nlmsgLen = m.nlmsgLen + start
  omega

omit [HostOrder] in
/-- **When cancelling is exact.** The length is back at its old value exactly when it is congruent to it modulo four. -/
theorem nlaNestCancel_exact_iff {m : NlMsg} {before : ℕ} (hs : 16 ≤ before) (hle : align4 before + 4 ≤ m.nlmsgLen)
    (hfit : align4 m.nlmsgLen < 4294967296) :
    (nlaNestCancel m (align4 before)).nlmsgLen = before ↔ m.nlmsgLen % 4 = before % 4 := by
  have hge := le_align4 before
  obtain ⟨hlen, -⟩ := nlaNestCancel_len (hs.trans hge) hle hfit
  unfold align4 at *
  constructor
  · intro h
    omega
  · intro h
    omega

/-- **`_nest_end`** cancels a nest that is dropped, and otherwise pads the message. -/
theorem nestEnd_len {m : NlMsg} (hm : Bounded m) {start : ℕ} (keepEmpty : Bool) (hle : start + 4 ≤ m.nlmsgLen)
    (hfit : align4 m.nlmsgLen < 4294967296) :
    (Dropped m start keepEmpty ∧ (nestEnd m start keepEmpty).1 = nlaNestCancel m start) ∨
    (¬ Dropped m start keepEmpty ∧ Grew m (nestEnd m start keepEmpty).1) := by
  have hge := le_align4 m.nlmsgLen
  have hlt := align4_lt m.nlmsgLen
  have hmod := align4_mod m.nlmsgLen
  have htail : nlmsgTail m = align4 m.nlmsgLen := nlmsgAlign_eq (by omega)
  have halign : nlmsgAlign m.nlmsgLen = align4 m.nlmsgLen := htail
  have hlen : toU64 ((nlmsgTail m : ℤ) - start) = align4 m.nlmsgLen - start := by
    rw [htail]
    have := toU64_of_nonneg (x := (align4 m.nlmsgLen : ℤ) - start) (by omega) (by omega)
    omega
  have hpad : toU32 ((nlmsgAlign m.nlmsgLen : ℤ) - m.nlmsgLen) = align4 m.nlmsgLen - m.nlmsgLen := by
    rw [halign]
    have := toU32_of_mem (x := (align4 m.nlmsgLen : ℤ) - m.nlmsgLen) (by omega) (by omega)
    omega
  unfold nestEnd
  rw [hlen]
  by_cases hd : Dropped m start keepEmpty
  · left
    have hd' := hd
    unfold Dropped at hd'
    refine ⟨hd, ?_⟩
    rw [if_pos hd']
  · right
    have hd' := hd
    unfold Dropped at hd'
    refine ⟨hd, ?_⟩
    rw [if_neg hd']
    dsimp only
    rw [hpad]
    -- patching the header does not touch the length
    set m1 : NlMsg := { m with buf := write m.buf start (u16Bytes (align4 m.nlmsgLen - start)) } with hm1
    have hb1 : Bounded m1 := ⟨hm.ge, hm.le, hm.u32, hm.size⟩
    have hg1 : Grew m1 (nlmsgReserve m1 (align4 m.nlmsgLen - m.nlmsgLen) 0).1 := by
      refine nlmsgReserve_grew hb1 _ 0 fun _ => ?_
      have : reserveLen (align4 m.nlmsgLen - m.nlmsgLen) 0 = align4 m.nlmsgLen - m.nlmsgLen := rfl
      have : m1.nlmsgLen = m.nlmsgLen := rfl
      omega
    split
    · split <;> rename_i h <;> rw [h] at hg1 <;> exact ⟨hg1.ge, hg1.le, hg1.u32, hg1.size⟩
    · exact ⟨le_rfl, hm.le, hm.u32, rfl⟩

/-! ## Runs -/

/-- every open nest starts at the aligned end of the message as it was, and its header is still there -/
def Nested : ℕ → List Nest → Prop
  | _, [] => True
  | len, nest :: rest =>
    (16 ≤ nest.before ∧ nest.start = align4 nest.before ∧ nest.start + 4 ≤ len) ∧ Nested nest.before rest

omit [HostOrder] in
theorem Nested.mono {a b : ℕ} {nests : List Nest} (h : Nested a nests) (hab : a ≤ b) : Nested b nests := by
  cases nests with
  | nil => trivial
  | cons nest rest => exact ⟨⟨h.1.1, h.1.2.1, h.1.2.2.trans hab⟩, h.2⟩

structure Inv (s : State) : Prop where
  bounded : Bounded s.msg
  nested : Nested s.msg.nlmsgLen s.nests

omit [HostOrder] in
theorem Inv.grew {s : State} {m : NlMsg} (h : Inv s) (hg : Grew s.msg m) : Inv { s with msg := m } :=
  ⟨hg.bounded h.bounded, h.nested.mono hg.ge⟩

omit [HostOrder] in
/-- the message as it was before the innermost nest -/
theorem Inv.cancel {s : State} {nest : Nest} {rest : List Nest} (h : Inv s) (hn : s.nests = nest :: rest)
    (hfit : align4 s.msg.nlmsgLen < 4294967296) (hcongr : s.msg.nlmsgLen % 4 = nest.before % 4) :
    Inv ⟨nlaNestCancel s.msg nest.start, rest⟩ ∧ (nlaNestCancel s.msg nest.start).nlmsgLen = nest.before := by
  obtain ⟨hb, hnest⟩ := h
  rw [hn] at hnest
  obtain ⟨⟨h16, hstart, hle⟩, hrest⟩ := hnest
  have hge := le_align4 nest.before
  have hsize := (nlaNestCancel_len (by omega) hle hfit).2
  rw [hstart] at hle hsize ⊢
  have hlen := (nlaNestCancel_exact_iff h16 hle hfit).2 hcongr
  have hmsg := hb.le
  have hu := hb.u32
  refine ⟨⟨⟨?_, ?_, ?_, ?_⟩, ?_⟩, hlen⟩ <;> simp only [hlen, hsize]
  · exact h16
  · omega
  · omega
  · exact hb.size
  · exact hrest

omit [HostOrder] in
/-- only a call that closes a nest drops one -/
theorem Drops.elim {s : State} {c : Call} {nest : Nest} {P : Prop} (h : Drops s c nest) (h1 : c ≠ .nestCancel)
    (h2 : ∀ k, c ≠ .nestEnd k) : P := by
  rcases h with ⟨-, hc | ⟨k, hc, -⟩⟩
  · exact absurd hc h1
  · exact absurd hc (h2 k)

/-- **One call** keeps the invariant, and a call that drops a nest restores the length. -/
theorem step_inv {s s' : State} {c : Call} (h : Inv s) (hc : Meets s c) (hs : step s c = some s') :
    Inv s' ∧ ∀ nest, Drops s c nest → s'.msg.nlmsgLen = nest.before := by
  obtain ⟨hfit, hcongr⟩ := hc
  cases c with
  | append data pad =>
    cases hs
    exact ⟨h.grew (nlmsgAppend_grew h.bounded data pad hfit), fun _ hd => hd.elim nofun nofun⟩
  | reserve len pad =>
    cases hs
    exact ⟨h.grew (nlmsgReserve_grew h.bounded len pad hfit), fun _ hd => hd.elim nofun nofun⟩
  | put t n data =>
    cases hs
    exact ⟨h.grew (nlaPut_grew h.bounded t n data hfit), fun _ hd => hd.elim nofun nofun⟩
  | nestStart t =>
    refine ⟨?_, fun _ hd => hd.elim nofun nofun⟩
    have hge := le_align4 s.msg.nlmsgLen
    obtain rfl : startNest s t = s' := Option.some.inj hs
    rcases nlaNestStart_len h.bounded t hfit with hr | ⟨m', hr, hlen, hle, hsize⟩
    · rw [startNest_eq hr]
      exact h
    · rw [startNest_eq hr]
      have hfit : align4 s.msg.nlmsgLen + 4 < 4294967296 := hfit
      have hg : Grew s.msg m' := ⟨by omega, by omega, by omega, hsize⟩
      exact ⟨hg.bounded h.bounded, ⟨h.bounded.ge, rfl, hlen.ge⟩, h.nested⟩
  | nestEnd keepEmpty =>
    cases hn : s.nests with
    | nil =>
      simp only [step, hn] at hs
      cases hs
    | cons nest rest =>
      simp only [step, hn] at hs
      cases hs
      have hnest := h.nested
      rw [hn] at hnest
      obtain ⟨⟨-, hstart, hle⟩, hrest⟩ := hnest
      have hge := le_align4 nest.before
      rcases nestEnd_len h.bounded keepEmpty hle hfit with ⟨hd, hr⟩ | ⟨hd, hg⟩
      · rw [hr]
        have hdrops : Drops s (.nestEnd keepEmpty) nest := ⟨by rw [hn]; rfl, Or.inr ⟨_, rfl, hd⟩⟩
        obtain ⟨hinv, hlen⟩ := h.cancel hn hfit (hcongr nest hdrops)
        refine ⟨hinv, ?_⟩
        rintro nest' ⟨hhead, -⟩
        rw [hn] at hhead
        cases hhead
        exact hlen
      · refine ⟨⟨hg.bounded h.bounded, ?_⟩, ?_⟩
        · exact hrest.mono ((by omega : nest.before ≤ s.msg.nlmsgLen).trans hg.ge)
        · rintro nest' ⟨hhead, hc | ⟨k, hc, hd'⟩⟩
          · cases hc
          · rw [hn] at hhead
            cases hhead
            cases hc
            exact absurd hd' hd
  | nestCancel =>
    cases hn : s.nests with
    | nil =>
      simp only [step, hn] at hs
      cases hs
    | cons nest rest =>
      simp only [step, hn] at hs
      cases hs
      have hdrops : Drops s .nestCancel nest := ⟨by rw [hn]; rfl, Or.inl rfl⟩
      obtain ⟨hinv, hlen⟩ := h.cancel hn hfit (hcongr nest hdrops)
      refine ⟨hinv, ?_⟩
      rintro nest' ⟨hhead, -⟩
      rw [hn] at hhead
      cases hhead
      exact hlen

/-- **Every run** whose calls meet the condition keeps the invariant. -/
theorem run_inv {s s' : State} (cs : List Call) (h : Inv s) (hc : MeetsAll s cs) (hr : run s cs = some s') :
    Inv s' := by
  induction cs generalizing s with
  | nil => cases hr; exact h
  | cons c cs ih =>
    obtain ⟨s1, h1, h2⟩ := Option.bind_eq_some_iff.1 hr
    exact ih (step_inv h hc.1 h1).1 (hc.2 s1 h1) h2

/-- a message any of the allocators returned -/
def Allocated (n : NlMsg) : Prop :=
  (∃ size, nlmsgAlloc size = some n) ∨ (∃ max, nlmsgAllocSize max = some n) ∨
    ∃ size type flags, nlmsgAllocSimple size type flags = some n

omit [HostOrder] in
theorem Allocated.fresh {n : NlMsg} (h : Allocated n) : Fresh n := by
  rcases h with ⟨_, h⟩ | ⟨_, h⟩ | ⟨_, _, _, h⟩
  · exact fresh_alloc h
  · exact fresh_alloc h
  · exact fresh_alloc_simple h

/-- **Message-builder invariant.** In every run whose calls meet the condition, the length stays between the header and
the buffer size, and each call that drops a nest brings it back to what it was right before the nest was started. -/
theorem builder_invariant {n : NlMsg} (hn : Allocated n) (cs : List Call) {s : State} (hc : MeetsAll ⟨n, []⟩ cs)
    (hr : run ⟨n, []⟩ cs = some s) :
    (16 ≤ s.msg.nlmsgLen ∧ s.msg.nlmsgLen ≤ s.msg.nmSize) ∧
    ∀ c s', Meets s c → step s c = some s' → ∀ nest, Drops s c nest → s'.msg.nlmsgLen = nest.before := by
  have hf := hn.fresh
  have hlen := hf.len
  have h0 : Inv ⟨n, []⟩ := ⟨⟨hlen.ge, hlen.le.trans hf.ge, by simp only [hlen]; decide, hf.le⟩, trivial⟩
  have hinv := run_inv cs h0 hc hr
  refine ⟨⟨hinv.bounded.ge, hinv.bounded.le⟩, ?_⟩
  intro c s' hm hs
  exact (step_inv hinv hm hs).2

end

/-- little endian, for runs on given inputs -/
local instance : HostOrder := ⟨false⟩

/-- a nest started and cancelled in a message of 64 bytes -/
theorem builder_invariant_cancel : ∃ n s s', nlmsgAllocSize 64 = some n ∧ run ⟨n, []⟩ [.nestStart 1] = some s ∧
    step s .nestCancel = some s' ∧ (16 ≤ s.msg.nlmsgLen ∧ s.msg.nlmsgLen ≤ s.msg.nmSize) ∧ s'.msg.nlmsgLen = 16 := by
  obtain ⟨n, hn⟩ : ∃ n, nlmsgAllocSize 64 = some n := ⟨_, rfl⟩
  obtain ⟨s, hs⟩ : ∃ s, run ⟨n, []⟩ [.nestStart 1] = some s := ⟨_, rfl⟩
  have hlen : s.msg.nlmsgLen = 20 ∧ s.nests = [⟨16, 16⟩] := by cases hn; cases hs; decide
  obtain ⟨s', hs'⟩ : ∃ s', step s .nestCancel = some s' := by simp [step, hlen.2]
  have hmeets : MeetsAll ⟨n, []⟩ [.nestStart 1] := by
    refine ⟨⟨?_, fun _ hd => hd.elim nofun nofun⟩, fun _ _ => trivial⟩
    cases hn
    simp [Fits, NLMSG_HDRLEN, align4]
  have hcancel : Meets s .nestCancel := by
    refine ⟨by simp [Fits, hlen.1, align4], ?_⟩
    rintro nest ⟨hhead, -⟩
    rw [hlen.2] at hhead
    cases hhead
    rw [hlen.1]
    rfl
  have h := builder_invariant (Or.inr (Or.inl ⟨64, hn⟩)) [.nestStart 1] hmeets hs
  exact ⟨n, s, s', hn, hs, hs', h.1, h.2 .nestCancel s' hcancel hs' ⟨16, 16⟩ ⟨by rw [hlen.2]; rfl, Or.inl rfl⟩⟩

/-- **A nest that ends unaligned.** One byte is appended inside the nest: cancelling it leaves a length of 13, less than
the header, where the message had 16 bytes before the nest was started. -/
theorem nest_cancel_cuts_header : ∃ n s s', nlmsgAllocSize 64 = some n ∧
    run ⟨n, []⟩ [.nestStart 1, .append [7] 0] = some s ∧ s.nests = [⟨16, 16⟩] ∧
    step s .nestCancel = some s' ∧ s'.msg.nlmsgLen = 13 :=
  ⟨_, _, _, rfl, rfl, rfl, rfl, rfl⟩

end Libnl.Builder
