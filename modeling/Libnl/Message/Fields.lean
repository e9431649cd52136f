/-
Records as messages: a header of fixed form, and attributes of which each may be there or not.

Most objects of the library travel like this. The writer appends the header and then, in an order of its own, those
attributes that the object has; the reader indexes the attributes by type and takes out each that it finds. As long as no
two fields have the same type, what is found under a type is the payload that was put (`Shown`), whatever the order.

- `nlaGetU8`, …, `nlaStrlcpy`: what readers take out of an attribute.
- `leavesOf`: the attributes of the fields that are there. `lastOf_leavesOf`: what stands under a type.
- `validate_accepts`: when an attribute passes a policy.
- `nestPayload`: fields in a nest. `parseNested_fields`: reading them.
- `put_message`, `parse_message`: the two ways, for a message with room. `fields_written`: both.
-/
import Mathlib.Tactic
import Mathlib.Data.List.TakeWhile
import Libnl.Message.Writer

namespace Libnl.Fields

open Bytes Walk Msg Attr AttrWalk AttrTree AttrStream Writer

/-! ## Reading one attribute -/

/-- the string in an array of `char` -/
def cstr (bs : List UInt8) : List UInt8 := bs.takeWhile fun b => decide (b ≠ 0)

/-- a string without its end -/
def IsStr (s : List UInt8) : Prop := ∀ b ∈ s, b ≠ 0

theorem isStr_of_all {s : List UInt8} (h : s.all (fun b => b != 0) = true) : IsStr s := fun b hb =>
  bne_iff_ne.1 (List.all_eq_true.1 h b hb)

theorem cstr_isStr (bs : List UInt8) : IsStr (cstr bs) := by
  intro b hb
  simpa using List.mem_takeWhile_imp hb

theorem cstr_of_isStr {s : List UInt8} (h : IsStr s) : cstr s = s :=
  List.takeWhile_eq_self_iff.2 fun b hb => decide_eq_true (h b hb)

theorem cstr_length_le (bs : List UInt8) : (cstr bs).length ≤ bs.length :=
  List.Sublist.length_le (List.takeWhile_sublist _)

/-- a string up to its end, whatever stands behind -/
theorem cstr_append_zero {s : List UInt8} (h : IsStr s) (rest : List UInt8) : cstr (s ++ 0 :: rest) = s := by
  have hall : ∀ b ∈ s, decide (b ≠ 0) = true := fun b hb => decide_eq_true (h b hb)
  rw [cstr, List.takeWhile_append_of_pos hall]
  simp

section

variable [HostOrder] (buf : Mem) (nla : ℕ)

def nlaGetU8 : BitVec 8 := (buf (nlaData nla)).toBitVec

def nlaGetU16 : BitVec 16 := BitVec.ofNat 16 (getU16 buf (nlaData nla))

def nlaGetU32 : BitVec 32 := BitVec.ofNat 32 (getU32 buf (nlaData nla))

/-! `ntohs`, `ntohl` and `ntohll` of what the getter returns -/

def nlaGetBe16 : BitVec 16 := getBe16 buf (nlaData nla)

def nlaGetBe32 : BitVec 32 := getBe32 buf (nlaData nla)

/-- `nla_get_u64` returns zero for a shorter payload -/
def nlaGetBe64 : BitVec 64 := if 8 ≤ nlaLen buf nla then getBe64 buf (nlaData nla) else 0

/-- the payload -/
def nlaBytes : List UInt8 := readBytes buf (nlaData nla) (nlaLen buf nla).toNat

/-- what was in an attribute fits in one -/
theorem nlaBytes_length : 4 + (nlaBytes buf nla).length ≤ 65535 := by
  have hlt : nlaLenField buf nla < 65536 := getU16_lt buf nla
  rw [nlaBytes, readBytes_length, nlaLen, NLA_HDRLEN]
  omega

/-- `nla_strlcpy`: the string in the destination -/
def nlaStrlcpy (dstsize : ℕ) : List UInt8 :=
  let src := nlaBytes buf nla
  cstr ((if src.getLast? = some 0 then src.dropLast else src).take (dstsize - 1))

theorem nlaStrlcpy_isStr (dstsize : ℕ) : IsStr (nlaStrlcpy buf nla dstsize) := cstr_isStr _

theorem nlaStrlcpy_length (dstsize : ℕ) : (nlaStrlcpy buf nla dstsize).length ≤ dstsize - 1 :=
  (cstr_length_le _).trans (List.length_take_le _ _)

end

section

variable [HostOrder] {buf : Mem} {pos t : ℕ}

theorem at_bytes {p : List UInt8} (h : At buf pos ⟨t, p⟩) : nlaBytes buf pos = p := by
  rw [nlaBytes, h.len, Int.toNat_natCast]
  exact h.bytes

theorem at_u8 {v : BitVec 8} (h : At buf pos ⟨t, [UInt8.ofBitVec v]⟩) : nlaGetU8 buf pos = v := by
  have h0 := h.data 0 (by simp)
  simp only [add_zero, List.getElem_cons_zero] at h0
  rw [nlaGetU8, h0]

theorem at_u16 {v : BitVec 16} (h : At buf pos ⟨t, u16Bytes v.toNat⟩) : nlaGetU16 buf pos = v := by
  rw [nlaGetU16, h.data.getU16, Nat.mod_eq_of_lt v.isLt, BitVec.ofNat_toNat, BitVec.setWidth_eq]

theorem at_u32 {v : BitVec 32} (h : At buf pos ⟨t, u32Bytes v.toNat⟩) : nlaGetU32 buf pos = v := by
  rw [nlaGetU32, h.data.getU32, Nat.mod_eq_of_lt v.isLt, BitVec.ofNat_toNat, BitVec.setWidth_eq]

theorem at_be16 {v : BitVec 16} (h : At buf pos ⟨t, be16Bytes v⟩) : nlaGetBe16 buf pos = v := h.data.getBe16

theorem at_be32 {v : BitVec 32} (h : At buf pos ⟨t, be32Bytes v⟩) : nlaGetBe32 buf pos = v := h.data.getBe32

/-- a string that was put with its end -/
theorem at_str {s : List UInt8} (h : At buf pos ⟨t, s ++ [0]⟩) (hs : IsStr s) {dstsize : ℕ}
    (hlen : s.length ≤ dstsize - 1) : nlaStrlcpy buf pos dstsize = s := by
  simp only [nlaStrlcpy, at_bytes h, List.getLast?_concat, if_true, List.dropLast_concat]
  rw [List.take_of_length_le hlen, cstr_of_isStr hs]

end

/-! ## Fields -/

/-- fields: the type of the attribute, and the payload if it is there -/
abbrev FieldList := List (ℕ × Option (List UInt8))

/-- the attributes of the fields that are there -/
def leavesOf (fs : FieldList) : List Leaf := fs.filterMap fun f => f.2.map (Leaf.mk f.1)

/-- no two fields have the same type, flags apart -/
def Distinct (fs : FieldList) : Prop := (fs.map fun f => f.1 % 16384).Nodup

theorem leavesOf_cons (t : ℕ) (p : Option (List UInt8)) (fs : FieldList) :
    leavesOf ((t, p) :: fs) = (p.map (Leaf.mk t)).toList ++ leavesOf fs := by
  cases p with
  | none => rfl
  | some p => rfl

theorem leavesOf_append (fs gs : FieldList) : leavesOf (fs ++ gs) = leavesOf fs ++ leavesOf gs := List.filterMap_append

theorem mem_leavesOf {fs : FieldList} {l : Leaf} : l ∈ leavesOf fs ↔ ∃ f ∈ fs, l.type = f.1 ∧ some l.payload = f.2 := by
  unfold leavesOf
  rw [List.mem_filterMap]
  refine exists_congr fun f => and_congr_right fun _ => ?_
  obtain ⟨t, p⟩ := f
  cases p with
  | none => simp
  | some p =>
    simp only [Option.map_some, Option.some.injEq]
    constructor
    · rintro rfl
      exact ⟨rfl, rfl⟩
    · rintro ⟨rfl, rfl⟩
      rfl

/-- the last attribute of no type of the fields -/
theorem lastOf_other {fs : FieldList} {t : ℕ} (h : ∀ f ∈ fs, f.1 % 16384 ≠ t) : lastOf (leavesOf fs) t = none := by
  unfold lastOf
  rw [List.find?_eq_none]
  intro l hl
  obtain ⟨f, hf, htype, -⟩ := mem_leavesOf.1 (List.mem_reverse.1 hl)
  rw [htype]
  simpa using h f hf

/-- **Under a type** stands what the field says. -/
theorem lastOf_leavesOf {fs : FieldList} (hd : Distinct fs) {t : ℕ} {p : Option (List UInt8)} (h : (t, p) ∈ fs) :
    lastOf (leavesOf fs) (t % 16384) = p.map (Leaf.mk t) := by
  induction fs with
  | nil => cases h
  | cons f fs ih =>
    obtain ⟨hnot, hrest⟩ := List.nodup_cons.1 hd
    obtain ⟨t', p'⟩ := f
    rw [leavesOf_cons, lastOf_append]
    rcases List.mem_cons.1 h with heq | hmem
    · cases heq
      have hnone : lastOf (leavesOf fs) (t % 16384) = none := lastOf_other fun f hf heq =>
        hnot (List.mem_map.2 ⟨f, hf, heq⟩)
      rw [hnone, Option.none_or]
      cases p with
      | none => rfl
      | some p => simp [lastOf]
    · rw [ih hrest hmem]
      cases p with
      | some p => rfl
      | none =>
        have hne : t' % 16384 ≠ t % 16384 := fun heq => hnot (List.mem_map.2 ⟨(t, none), hmem, heq.symm⟩)
        cases p' with
        | none => rfl
        | some p' => simp [lastOf, hne]

/-! ## The index -/

section

variable [HostOrder] {buf : Mem} {tb : Index} {maxtype : ℕ} {fs : FieldList}

/-- the index leads to the payload under a type -/
def Shown (buf : Mem) (tb : Index) (t : ℕ) : Option (List UInt8) → Prop
  | none => tb t = none
  | some p => ∃ pos type, tb t = some pos ∧ At buf pos ⟨type, p⟩

theorem shown_of_indexes (h : Indexes buf maxtype (leavesOf fs) tb) (hd : Distinct fs) {t : ℕ}
    {p : Option (List UInt8)} (hmem : (t, p) ∈ fs) (ht : t % 16384 ≤ maxtype) : Shown buf tb (t % 16384) p := by
  have hidx := h (t % 16384) ht
  rw [lastOf_leavesOf hd hmem] at hidx
  cases p with
  | none => exact hidx
  | some p =>
    obtain ⟨pos, hpos, hat⟩ := hidx
    exact ⟨pos, t, hpos, hat⟩

/-- the same for a type without flags -/
theorem shown_plain (h : Indexes buf maxtype (leavesOf fs) tb) (hd : Distinct fs) (hmax : maxtype < 16384) {t : ℕ}
    {p : Option (List UInt8)} (hmem : (t, p) ∈ fs) (ht : t ≤ maxtype) : Shown buf tb t p := by
  have hmod : t % 16384 = t := Nat.mod_eq_of_lt (by omega)
  have hshown := shown_of_indexes h hd hmem (by rw [hmod]; exact ht)
  rwa [hmod] at hshown

/-- nothing is found under other types -/
theorem none_of_indexes (h : Indexes buf maxtype (leavesOf fs) tb) {t : ℕ} (ht : t ≤ maxtype)
    (hother : ∀ f ∈ fs, f.1 % 16384 ≠ t) : tb t = none := by
  have hidx := h t ht
  rw [lastOf_other hother] at hidx
  exact hidx

/-- **What a reader takes out** -/
theorem Shown.map {β γ : Type} {t : ℕ} {o : Option γ} {enc : γ → List UInt8} {read : ℕ → β} {val : γ → β}
    (h : Shown buf tb t (o.map enc)) (hread : ∀ pos type, ∀ x ∈ o, At buf pos ⟨type, enc x⟩ → read pos = val x) :
    (tb t).map read = o.map val := by
  cases o with
  | none =>
    have hnone : tb t = none := h
    rw [hnone]
    rfl
  | some x =>
    obtain ⟨pos, type, hpos, hat⟩ := h
    rw [hpos, Option.map_some, Option.map_some, hread pos type x rfl hat]

/-- the same for what reads as it was put -/
theorem Shown.same {γ : Type} {t : ℕ} {o : Option γ} {enc : γ → List UInt8} {read : ℕ → γ}
    (h : Shown buf tb t (o.map enc)) (hread : ∀ pos type, ∀ x ∈ o, At buf pos ⟨type, enc x⟩ → read pos = x) :
    (tb t).map read = o := by
  rw [h.map hread]
  exact Option.map_id'

/-- what was put where something is found -/
theorem Shown.found {γ : Type} {t pos : ℕ} {o : Option γ} {enc : γ → List UInt8} (h : Shown buf tb t (o.map enc))
    (hpos : tb t = some pos) : ∃ x type, x ∈ o ∧ At buf pos ⟨type, enc x⟩ := by
  cases o with
  | none =>
    have hnone : tb t = none := h
    rw [hnone] at hpos
    cases hpos
  | some x =>
    obtain ⟨pos', type, hpos', hat⟩ := h
    obtain rfl : pos' = pos := Option.some.inj (hpos'.symm.trans hpos)
    exact ⟨x, type, rfl, hat⟩

theorem Shown.isSome {t : ℕ} {p : Option (List UInt8)} (h : Shown buf tb t p) : (tb t).isSome = p.isSome := by
  cases p with
  | none =>
    have hnone : tb t = none := h
    rw [hnone]
    rfl
  | some p =>
    obtain ⟨pos, type, hpos, -⟩ := h
    rw [hpos]
    rfl

theorem Shown.u8 {t : ℕ} {o : Option (BitVec 8)} (h : Shown buf tb t (o.map fun v => [UInt8.ofBitVec v])) :
    (tb t).map (nlaGetU8 buf) = o := h.same fun _ _ _ _ hat => at_u8 hat

theorem Shown.u16 {t : ℕ} {o : Option (BitVec 16)} (h : Shown buf tb t (o.map fun v => u16Bytes v.toNat)) :
    (tb t).map (nlaGetU16 buf) = o := h.same fun _ _ _ _ hat => at_u16 hat

theorem Shown.u32 {t : ℕ} {o : Option (BitVec 32)} (h : Shown buf tb t (o.map fun v => u32Bytes v.toNat)) :
    (tb t).map (nlaGetU32 buf) = o := h.same fun _ _ _ _ hat => at_u32 hat

theorem Shown.be16 {t : ℕ} {o : Option (BitVec 16)} (h : Shown buf tb t (o.map be16Bytes)) :
    (tb t).map (nlaGetBe16 buf) = o := h.same fun _ _ _ _ hat => at_be16 hat

theorem Shown.be32 {t : ℕ} {o : Option (BitVec 32)} (h : Shown buf tb t (o.map be32Bytes)) :
    (tb t).map (nlaGetBe32 buf) = o := h.same fun _ _ _ _ hat => at_be32 hat

theorem Shown.bytes {t : ℕ} {o : Option (List UInt8)} (h : Shown buf tb t o) : (tb t).map (nlaBytes buf) = o := by
  have hid : Shown buf tb t (o.map id) := by rwa [Option.map_id]
  exact hid.same fun _ _ _ _ hat => at_bytes hat

theorem Shown.str {t : ℕ} {o : Option (List UInt8)} {dstsize : ℕ} (h : Shown buf tb t (o.map fun s => s ++ [0]))
    (hstr : ∀ s ∈ o, IsStr s ∧ s.length ≤ dstsize - 1) : (tb t).map (fun a => nlaStrlcpy buf a dstsize) = o :=
  h.same fun _ _ s hs hat => at_str hat (hstr s hs).1 (hstr s hs).2

end

/-! ## Policies -/

/-- the payload passes the policy -/
structure Accepts (pt : NlaPolicy) (p : List UInt8) : Prop where
  min : (if pt.minlen ≠ 0 then pt.minlen else if pt.type ≠ .unspec then nlaAttrMinlen pt.type else 0) ≤ p.length
  max : pt.maxlen = 0 ∨ p.length ≤ pt.maxlen
  str : pt.type = .string → p.getLast? = some 0

theorem validate_accepts [HostOrder] {buf : Mem} {pos : ℕ} {l : Leaf} (hat : At buf pos l) (maxtype : ℤ)
    {policy : ℕ → NlaPolicy} (hlen : l.payload.length < 4294967296) (h : Accepts (policy (l.type % 16384)) l.payload) :
    validateNla buf pos maxtype policy = 0 := by
  have h32 : toU32 (l.payload.length : ℤ) = l.payload.length := by
    unfold toU32
    omega
  simp only [validateNla, hat.type, hat.len, h32, Int.toNat_natCast]
  by_cases hmax : maxtype < ((l.type % 16384 : ℕ) : ℤ)
  · rw [if_pos hmax]
  · rw [if_neg hmax, if_neg (not_lt.2 h.min), if_neg, if_neg]
    · rintro ⟨hstring, hlast⟩
      have hget := h.str hstring
      have hne : l.payload ≠ [] := by
        intro hnil
        rw [hnil] at hget
        cases hget
      have hpos := List.length_pos_iff.2 hne
      rw [List.getLast?_eq_getElem?, List.getElem?_eq_getElem (by omega), Option.some.injEq] at hget
      have hbyte := hat.data (l.payload.length - 1) (by omega)
      rw [← Nat.add_sub_assoc hpos, hget] at hbyte
      exact hlast hbyte
    · rintro ⟨hmaxne, hgt⟩
      rcases h.max with hzero | hle
      · exact hmaxne hzero
      · omega

/-- fields that fit an attribute each and pass the policy -/
structure Sendable (policy : ℕ → NlaPolicy) (fs : FieldList) : Prop where
  type : ∀ f ∈ fs, f.1 < 65536
  fits : ∀ f ∈ fs, ∀ p ∈ f.2, 4 + p.length ≤ 65535
  passes : ∀ f ∈ fs, ∀ p ∈ f.2, Accepts (policy (f.1 % 16384)) p

theorem Sendable.wf {policy : ℕ → NlaPolicy} {fs : FieldList} (h : Sendable policy fs) : ∀ l ∈ leavesOf fs, l.WF := by
  intro l hl
  obtain ⟨f, hf, htype, hpay⟩ := mem_leavesOf.1 hl
  exact ⟨by rw [htype]; exact h.type f hf, h.fits f hf l.payload hpay.symm⟩

/-- attributes take no more than they can -/
theorem Sendable.length_le [HostOrder] {policy : ℕ → NlaPolicy} {fs : FieldList} (h : Sendable policy fs) :
    (encLeaves (leavesOf fs)).length ≤ 65536 * fs.length := by
  have hle : (leavesOf fs).length ≤ fs.length := List.length_filterMap_le _ _
  have hall : ∀ ls : List Leaf, (∀ l ∈ ls, l.WF) → (encLeaves ls).length ≤ 65536 * ls.length := by
    intro ls hls
    induction ls with
    | nil => exact le_rfl
    | cons l ls ih =>
      have hlen := (hls l List.mem_cons_self).len
      have hal := align4_lt (4 + l.payload.length)
      have hmod := align4_mod (4 + l.payload.length)
      have hrest := ih fun x hx => hls x (List.mem_cons_of_mem l hx)
      rw [encLeaves_cons, List.length_append, encLeaf_length, List.length_cons]
      omega
  exact (hall _ h.wf).trans (Nat.mul_le_mul_left _ hle)

theorem Sendable.valid [HostOrder] {policy : ℕ → NlaPolicy} {fs : FieldList} (h : Sendable policy fs) (maxtype : ℤ)
    {buf : Mem} : ∀ l ∈ leavesOf fs, ∀ pos, At buf pos l → 0 ≤ validateNla buf pos maxtype policy := by
  intro l hl pos hat
  obtain ⟨f, hf, htype, hpay⟩ := mem_leavesOf.1 hl
  have hfits := h.fits f hf l.payload hpay.symm
  have hpass := h.passes f hf l.payload hpay.symm
  rw [← htype] at hpass
  rw [validate_accepts hat maxtype (by omega) hpass]

theorem Sendable.nil (policy : ℕ → NlaPolicy) : Sendable policy [] := ⟨nofun, nofun, nofun⟩

/-- the payload, if there is one, fits an attribute and passes -/
def Sends (pt : NlaPolicy) (p : Option (List UInt8)) : Prop := ∀ q ∈ p, 4 + q.length ≤ 65535 ∧ Accepts pt q

theorem Sendable.cons {policy : ℕ → NlaPolicy} {fs : FieldList} {t : ℕ} {p : Option (List UInt8)} (ht : t < 65536)
    (hp : Sends (policy (t % 16384)) p) (h : Sendable policy fs) : Sendable policy ((t, p) :: fs) where
  type f hf := by
    rcases List.mem_cons.1 hf with rfl | hf
    · exact ht
    · exact h.type f hf
  fits f hf q hq := by
    rcases List.mem_cons.1 hf with rfl | hf
    · exact (hp q hq).1
    · exact h.fits f hf q hq
  passes f hf q hq := by
    rcases List.mem_cons.1 hf with rfl | hf
    · exact (hp q hq).2
    · exact h.passes f hf q hq

theorem Sendable.sub {policy : ℕ → NlaPolicy} {fs gs : FieldList} (h : Sendable policy gs) (hsub : ∀ f ∈ fs, f ∈ gs) :
    Sendable policy fs :=
  ⟨fun f hf => h.type f (hsub f hf), fun f hf => h.fits f (hsub f hf), fun f hf => h.passes f (hsub f hf)⟩

/-- a policy that asks for a length at least, and for no string -/
theorem sends_min {pt : NlaPolicy} (hmax : pt.maxlen = 0) (hstr : pt.type ≠ .string) {p : Option (List UInt8)}
    (hp : ∀ q ∈ p, 4 + q.length ≤ 65535 ∧
      (if pt.minlen ≠ 0 then pt.minlen else if pt.type ≠ .unspec then nlaAttrMinlen pt.type else 0) ≤ q.length) :
    Sends pt p := fun q hq => ⟨(hp q hq).1, (hp q hq).2, Or.inl hmax, fun h => absurd h hstr⟩

theorem sends_u8 {pt : NlaPolicy} (hpt : pt = ⟨.u8, 0, 0⟩) (o : Option (BitVec 8)) :
    Sends pt (o.map fun v => [UInt8.ofBitVec v]) := by
  subst hpt
  refine sends_min rfl (by decide) fun q hq => ?_
  obtain ⟨v, -, rfl⟩ := Option.mem_map.1 hq
  exact ⟨by simp, by simp [nlaAttrMinlen]⟩

theorem sends_u32 [HostOrder] {pt : NlaPolicy} (hpt : pt = ⟨.u32, 0, 0⟩) (o : Option (BitVec 32)) :
    Sends pt (o.map fun v => u32Bytes v.toNat) := by
  subst hpt
  refine sends_min rfl (by decide) fun q hq => ?_
  obtain ⟨v, -, rfl⟩ := Option.mem_map.1 hq
  exact ⟨by simp, by simp [nlaAttrMinlen]⟩

/-- an attribute without a policy -/
theorem sends_any {pt : NlaPolicy} (hpt : pt = ⟨.unspec, 0, 0⟩) {o : Option (List UInt8)}
    (ho : ∀ q ∈ o, 4 + q.length ≤ 65535) : Sends pt o := by
  subst hpt
  exact sends_min rfl (by decide) fun q hq => ⟨ho q hq, Nat.zero_le _⟩

/-- a structure -/
theorem sends_struct {pt : NlaPolicy} {n : ℕ} (hpt : pt = ⟨.unspec, n, 0⟩) (hn : n ≤ 65531) {o : Option (List UInt8)}
    (ho : ∀ q ∈ o, q.length = n) : Sends pt o := by
  subst hpt
  refine sends_min rfl (fun h => by cases h) fun q hq => ⟨by rw [ho q hq]; omega, ?_⟩
  rw [ho q hq]
  by_cases hmin : n = 0
  · simp [hmin]
  · simp [hmin]

/-- a string with its end, within the maximal length -/
theorem sends_str {pt : NlaPolicy} {n : ℕ} (hpt : pt = ⟨.string, 0, n⟩) {o : Option (List UInt8)} (hn : n ≤ 65531)
    (ho : ∀ s ∈ o, s.length + 1 ≤ n) : Sends pt (o.map fun s => s ++ [0]) := by
  subst hpt
  intro q hq
  obtain ⟨s, hs, rfl⟩ := Option.mem_map.1 hq
  have hlen := ho s hs
  have hq : (s ++ [0]).length = s.length + 1 := by simp
  refine ⟨by omega, ?_, Or.inr (show (s ++ [0]).length ≤ n by omega), fun _ => List.getLast?_concat⟩
  simp [nlaAttrMinlen]

/-- a nest, for which policies ask for nothing but the type -/
theorem sends_nested {pt : NlaPolicy} (hpt : pt = ⟨.nested, 0, 0⟩) {o : Option (List UInt8)}
    (ho : ∀ q ∈ o, 4 + q.length ≤ 65535) : Sends pt o := by
  subst hpt
  exact sends_min rfl (by decide) fun q hq => ⟨ho q hq, Nat.zero_le _⟩

theorem sends_be16 {pt : NlaPolicy} (hpt : pt = ⟨.u16, 0, 0⟩) (o : Option (BitVec 16)) : Sends pt (o.map be16Bytes) := by
  subst hpt
  refine sends_min rfl (by decide) fun q hq => ?_
  obtain ⟨v, -, rfl⟩ := Option.mem_map.1 hq
  exact ⟨by simp, by simp [nlaAttrMinlen]⟩

theorem sends_be32 {pt : NlaPolicy} (hpt : pt = ⟨.u32, 0, 0⟩) (o : Option (BitVec 32)) : Sends pt (o.map be32Bytes) := by
  subst hpt
  refine sends_min rfl (by decide) fun q hq => ?_
  obtain ⟨v, -, rfl⟩ := Option.mem_map.1 hq
  exact ⟨by simp, by simp [nlaAttrMinlen]⟩

/-! ## Fields in a nest -/

section

variable [HostOrder]

/-- the payload of a nest with these fields; there is no nest without any -/
def nestPayload (fs : FieldList) : Option (List UInt8) :=
  if leavesOf fs = [] then none else some (encLeaves (leavesOf fs))

theorem nestLeaves_fields (t : ℕ) (fs : FieldList) :
    nestLeaves t (leavesOf fs) = leavesOf [(32768 + t, nestPayload fs)] := by
  by_cases h : leavesOf fs = []
  · rw [nestLeaves, if_pos h, nestPayload, if_pos h]
    rfl
  · rw [nestLeaves, if_neg h, nestPayload, if_neg h]
    rfl

/-- fields with payloads of a limited length take limited room -/
theorem fields_length_le {fs : FieldList} {n : ℕ} (h : ∀ f ∈ fs, ∀ p ∈ f.2, p.length ≤ n) :
    (encLeaves (leavesOf fs)).length ≤ fs.length * align4 (4 + n) := by
  induction fs with
  | nil => exact Nat.zero_le _
  | cons f fs ih =>
    have hrest := ih fun g hg => h g (List.mem_cons_of_mem f hg)
    obtain ⟨t, p⟩ := f
    rw [leavesOf_cons, encLeaves_append, List.length_append, List.length_cons, Nat.add_mul, Nat.one_mul]
    cases p with
    | none =>
      simp only [Option.map_none, Option.toList_none, encLeaves_nil, List.length_nil]
      omega
    | some q =>
      have hq : q.length ≤ n := h (t, some q) List.mem_cons_self q rfl
      have hal : align4 (4 + q.length) ≤ align4 (4 + n) := by
        unfold align4
        omega
      simp only [Option.map_some, Option.toList_some, encLeaves_cons, encLeaves_nil, List.append_nil, encLeaf_length]
      omega

theorem nestPayload_length {fs : FieldList} {n : ℕ} (h : (encLeaves (leavesOf fs)).length ≤ n) :
    ∀ p ∈ nestPayload fs, p.length ≤ n := by
  intro p hp
  unfold nestPayload at hp
  split_ifs at hp
  · cases hp
  · cases hp
    exact h

/-- **The fields in a nest**, read -/
theorem parseNested_fields (maxtype : ℕ) {buf : Mem} {pos t : ℕ} {policy : ℕ → NlaPolicy} {fs : FieldList}
    (hat : At buf pos ⟨t, encLeaves (leavesOf fs)⟩) (hsend : Sendable policy fs)
    (hsize : (encLeaves (leavesOf fs)).length < 2147483648) :
    ∃ tb, nlaParseNested buf maxtype pos (some policy) = (0, tb) ∧ Indexes buf maxtype (leavesOf fs) tb :=
  parseNested_leaves hat hsend.wf (hsend.valid maxtype) hsize

/-- `nla_parse` of bytes on their own -/
def parseBytes (buf : Mem) (len maxattr : ℤ) (policy : ℕ → NlaPolicy) : ℤ × Index :=
  (nlaParse (len.toNat + 1) buf maxattr 0 len (some policy)).getD (0, fun _ => none)

/-- **Fields as bytes**, read -/
theorem parseBytes_fields (maxtype : ℕ) {policy : ℕ → NlaPolicy} {fs : FieldList} (hsend : Sendable policy fs)
    (hsize : (encLeaves (leavesOf fs)).length < 2147483648) :
    ∃ tb, parseBytes (memOf (encLeaves (leavesOf fs))) (toInt32 (encLeaves (leavesOf fs)).length) maxtype policy = (0, tb) ∧
      Indexes (memOf (encLeaves (leavesOf fs))) maxtype (leavesOf fs) tb := by
  have hle := length_le_enc (leavesOf fs)
  have hint : toInt32 ((encLeaves (leavesOf fs)).length : ℤ) = (encLeaves (leavesOf fs)).length :=
    toInt32_of_mem (by omega) (by omega)
  obtain ⟨tb, hparse, hidx⟩ := parse_leaves hsend.wf (hsend.valid maxtype) (seg_memOf _) hsize
    (n := (encLeaves (leavesOf fs)).length + 1) (by omega)
  refine ⟨tb, ?_, hidx⟩
  rw [hint, parseBytes, Int.toNat_natCast, hparse]
  rfl

/-- a nest read without a policy -/
theorem parseNested_any (buf : Mem) (maxtype : ℤ) (nla : ℕ) :
    nlaParseNested buf maxtype nla none = nlaParseNested buf maxtype nla (some fun _ => ⟨.unspec, 0, 0⟩) := by
  have hbody : nlaParseBody buf maxtype none = nlaParseBody buf maxtype (some fun _ => ⟨.unspec, 0, 0⟩) := by
    funext tb o
    have hpass : validateNla buf o maxtype (fun _ => ⟨.unspec, 0, 0⟩) = 0 := by simp [validateNla]
    simp only [nlaParseBody, hpass]
  simp only [nlaParseNested, nlaParse, hbody]

/-- fields that are not there leave nothing behind -/
theorem Shown.nest {buf : Mem} {tb : Index} {t : ℕ} {fs : FieldList} (h : Shown buf tb t (nestPayload fs)) :
    (leavesOf fs = [] ∧ tb t = none) ∨ ∃ pos type, tb t = some pos ∧ At buf pos ⟨type, encLeaves (leavesOf fs)⟩ := by
  by_cases hnil : leavesOf fs = []
  · rw [nestPayload, if_pos hnil] at h
    exact Or.inl ⟨hnil, h⟩
  · rw [nestPayload, if_neg hnil] at h
    exact Or.inr h

end

/-! ## Messages -/

/-- the allocator hands out a message of the size asked for -/
theorem allocSimple_some {size t f : ℕ} (hsize : size ≤ PTRDIFF_MAX) :
    ∃ m, nlmsgAllocSimple size t f = some m ∧ Fresh m ∧ size ≤ m.nmSize ∧ (16 ≤ size → m.nmSize = size) := by
  obtain ⟨m, hm, hle, hex⟩ : ∃ m, nlmsgAlloc size = some m ∧ size ≤ m.nmSize ∧ (16 ≤ size → m.nmSize = size) := by
    unfold nlmsgAlloc nlmsgAllocRaw
    by_cases hsmall : size < 16
    · rw [if_pos hsmall, if_neg (by decide)]
      exact ⟨_, rfl, hsmall.le, fun h => absurd hsmall (not_lt.2 h)⟩
    · rw [if_neg hsmall, if_neg (not_lt.2 hsize)]
      exact ⟨_, rfl, le_rfl, fun _ => rfl⟩
  have hsimple : nlmsgAllocSimple size t f = some { m with nlmsgType := t, nlmsgFlags := f } := by
    rw [nlmsgAllocSimple, hm]
    rfl
  exact ⟨_, hsimple, fresh_alloc_simple hsimple, hle, hex⟩

section

variable [HostOrder] {m m' : NlMsg} {hdr : List UInt8} {ls : List Leaf}

/-- **The writer**, with room -/
theorem put_message (code : ℤ) (hm : Tidy m) (hhdr : hdr.length % 4 = 0) (hwf : ∀ l ∈ ls, l.WF)
    (hroom : Room m (hdr ++ encLeaves ls).length) :
    ∃ m', thenPut code (nlmsgAppend m hdr 4) (putAll code ls) = (m', 0) ∧ Wrote m m' (hdr ++ encLeaves ls) := by
  rw [List.length_append] at hroom
  obtain ⟨m1, h1, hw1⟩ := nlmsgAppend_aligned hm hhdr (room_mono hroom (Nat.le_add_right _ _))
  obtain ⟨m2, h2, hw2⟩ := putAll_room code hwf hw1.tidy (room_after hw1 hroom)
  exact ⟨m2, by rw [h1, thenPut_ok, h2], hw1.append hw2⟩

/-- **The writer**, with room for the header only -/
theorem put_message_full (code : ℤ) (hm : Tidy m) (hhdr : hdr.length % 4 = 0) (hwf : ∀ l ∈ ls, l.WF)
    (hroom : Room m hdr.length) (hfull : ¬ Room m (hdr ++ encLeaves ls).length) :
    (thenPut code (nlmsgAppend m hdr 4) (putAll code ls)).2 = code := by
  obtain ⟨m1, h1, hw1⟩ := nlmsgAppend_aligned hm hhdr hroom
  rw [h1, thenPut_ok]
  refine putAll_full hwf hw1.tidy (room_after hw1 hroom) fun hrest => hfull ?_
  have hlen := hw1.len
  have hsize := hw1.size
  have hr1 := hrest.size
  have hr2 := hrest.int
  rw [List.length_append]
  exact ⟨by omega, by omega⟩

/-- **The reader**, of a message that starts with the header -/
theorem parse_message (maxtype : ℕ) {policy : ℕ → NlaPolicy} (hm : m.nlmsgLen = 16) (hhdr : hdr.length % 4 = 0)
    (hwf : ∀ l ∈ ls, l.WF) (hok : ∀ l ∈ ls, ∀ pos, At m'.buf pos l → 0 ≤ validateNla m'.buf pos maxtype policy)
    (hw : Wrote m m' (hdr ++ encLeaves ls)) :
    ∃ tb, nlmsgParse m' hdr.length maxtype (some policy) = (0, tb) ∧ Indexes m'.buf maxtype ls tb ∧
      Seg m'.buf 16 hdr := by
  have hlen := hw.len
  have hlt := hw.tidy.lt
  rw [List.length_append, hm, ← add_assoc] at hlen
  obtain ⟨hseghdr, hseg⟩ := seg_append.1 hw.seg
  rw [hm] at hseghdr hseg
  have hle := length_le_enc ls
  obtain ⟨tb, hparse, hidx⟩ := parse_leaves hwf hok hseg (by omega) (n := (encLeaves ls).length + 1) (by omega)
  refine ⟨tb, ?_, hidx, hseghdr⟩
  rw [nlmsgParse_front hlen hhdr (by omega), hparse]
  rfl

end

section

variable [HostOrder] {size : ℕ} {hdr : List UInt8} {fs : FieldList} {policy : ℕ → NlaPolicy}

/-- **A message with its fields**, if there is room: it is written, and the reader finds the header and the fields. -/
theorem fields_written (code : ℤ) (maxtype t f : ℕ) (hhdr : hdr.length % 4 = 0) (hsend : Sendable policy fs)
    (hmany : hdr.length + 65536 * fs.length ≤ 2147483631) (hsize : size ≤ PTRDIFF_MAX)
    (hroom : 16 + (hdr ++ encLeaves (leavesOf fs)).length ≤ size) :
    ∃ m0 m tb, nlmsgAllocSimple size t f = some m0 ∧
      thenPut code (nlmsgAppend m0 hdr 4) (putAll code (leavesOf fs)) = (m, 0) ∧
      nlmsgParse m hdr.length maxtype (some policy) = (0, tb) ∧ Indexes m.buf maxtype (leavesOf fs) tb ∧
      Seg m.buf 16 hdr := by
  obtain ⟨m0, halloc, hfresh, hle, -⟩ := allocSimple_some (t := t) (f := f) hsize
  have hlen0 := hfresh.len
  have hlong := hsend.length_le
  have hroom0 : Room m0 (hdr ++ encLeaves (leavesOf fs)).length := by
    refine ⟨by omega, ?_⟩
    rw [List.length_append]
    omega
  obtain ⟨m, hput, hw⟩ := put_message code (tidy_of_fresh hfresh) hhdr hsend.wf hroom0
  obtain ⟨tb, hparse, hidx, hseg⟩ := parse_message maxtype hlen0 hhdr hsend.wf (hsend.valid maxtype) hw
  exact ⟨m0, m, tb, halloc, hput, hparse, hidx, hseg⟩

/-- without room for the fields, the writer fails -/
theorem fields_unwritten (code : ℤ) (t f : ℕ) (hhdr : hdr.length % 4 = 0) (hsend : Sendable policy fs)
    (hint : hdr.length ≤ 2147483631) (hsize : size ≤ PTRDIFF_MAX) (hle : 16 + hdr.length ≤ size)
    (hfull : size < 16 + (hdr ++ encLeaves (leavesOf fs)).length) :
    ∃ m0, nlmsgAllocSimple size t f = some m0 ∧
      (thenPut code (nlmsgAppend m0 hdr 4) (putAll code (leavesOf fs))).2 = code := by
  obtain ⟨m0, halloc, hfresh, -, hex⟩ := allocSimple_some (t := t) (f := f) hsize
  have hlen0 := hfresh.len
  have hexact := hex (by omega)
  have hroom : Room m0 hdr.length := ⟨by omega, by omega⟩
  refine ⟨m0, halloc, put_message_full code (tidy_of_fresh hfresh) hhdr hsend.wf hroom fun hno => ?_⟩
  have hroomsize := hno.size
  omega

end

end Libnl.Fields
