/-
Attributes that are longer than their header can say.

`nla_put` takes any length; the header keeps what is left of it in 16 bits. A reader takes the attribute for a shorter one,
and goes on to read attributes inside of its payload. What it finds there it would find in those bytes alone.

- `nlaPut_aligned`: what is put, however long.
- `putAll_added`: what becomes of the length, with attributes of any length.
- `alone`: what `nla_parse` makes of bytes that stand for themselves.
- `parse_behind`: what `nlmsg_parse` makes of a message with such bytes behind its attributes.
-/
import Mathlib.Tactic
import Libnl.Message.Builder
import Libnl.Message.Local
import Libnl.Message.Twins

namespace Libnl.Overlong

open Bytes Walk Msg Attr AttrWalk AttrTree AttrStream Validate Window
open Twins Writer

variable [HostOrder]

/-! ## Putting -/

/-- an attribute as it stands in a message, its length cut to 16 bits -/
def cutAttr (t : ℕ) (p : List UInt8) : List UInt8 := nlaHeader ((4 + p.length) % 65536) t ++ p

theorem cutAttr_length (t : ℕ) (p : List UInt8) : (cutAttr t p).length = 4 + p.length := by
  rw [cutAttr, List.length_append, nlaHeader_length]

/-- a payload that fits -/
theorem cutAttr_fits {t : ℕ} {p : List UInt8} (hp : p.length % 4 = 0) (hfit : 4 + p.length ≤ 65535) :
    cutAttr t p = encLeaves [⟨t, p⟩] := by
  have hpad : align4 (4 + p.length) - (4 + p.length) = 0 := by rw [align4_of_mod (by omega), Nat.sub_self]
  rw [cutAttr, Nat.mod_eq_of_lt (by omega), encLeaves_cons, encLeaves_nil, List.append_nil, encLeaf, hpad, List.replicate_zero,
    List.append_nil]

/-- **`nla_put` with room**, of a payload without padding, however long -/
theorem nlaPut_aligned {m : NlMsg} (hm : Tidy m) {t : ℕ} (ht : t < 65536) {p : List UInt8} (hp : p.length % 4 = 0)
    (hroom : Room m (4 + p.length)) : ∃ m', nlaPut m t p.length p = (m', 0) ∧ Wrote m m' (cutAttr t p) := by
  have hint := hroom.int
  have hsz := hroom.size
  have hmod := hm.mod
  have hsize : nlaAttrSize p.length = (4 + p.length : ℕ) := by
    unfold nlaAttrSize NLA_HDRLEN
    rw [toInt32_of_mem (by push_cast; omega) (by push_cast; omega)]
    norm_cast
  have htotal : nlaTotalSize p.length = (4 + p.length : ℕ) := by
    rw [nlaTotalSize, hsize, alignInt, toInt32_of_mem (by push_cast; omega) (by push_cast; omega)]
    push_cast
    omega
  have hpad : (nlaPadlen p.length).toNat = 0 := by
    rw [nlaPadlen, hsize, htotal, sub_self]
    rfl
  have hlen : toInt32 (m.nlmsgLen + nlaTotalSize p.length) = (m.nlmsgLen + (4 + p.length) : ℕ) := by
    rw [htotal, ← Nat.cast_add, toInt32_of_mem (by omega) (by omega)]
  have hfield : toU16 (nlaAttrSize p.length) = (4 + p.length) % 65536 := by
    rw [hsize]
    unfold toU16
    omega
  have hu64 : toU64 (m.nlmsgLen + (4 + p.length) : ℕ) = m.nlmsgLen + (4 + p.length) := by
    unfold toU64
    have hPD := hm.size
    simp only [PTRDIFF_MAX] at hPD
    omega
  have hu32 : toU32 (m.nlmsgLen + (4 + p.length) : ℕ) = m.nlmsgLen + (4 + p.length) := by
    unfold toU32
    omega
  have htail : nlmsgAlign m.nlmsgLen = m.nlmsgLen := hm.tail
  have hclear : ∀ (b : Mem) q, zero b q 0 = b := fun b q => funext fun i => write_out (by
    rcases Nat.lt_or_ge i q with hlt | hge
    · exact Or.inl hlt
    · exact Or.inr hge)
  have hreserve : nlaReserve m t p.length =
      ({ m with
          buf := write m.buf m.nlmsgLen (nlaHeader ((4 + p.length) % 65536) t)
          nlmsgLen := m.nlmsgLen + (4 + p.length) }, some m.nlmsgLen) := by
    have hneg : ¬ ((p.length : ℤ) < 0) := not_lt.2 (Int.natCast_nonneg _)
    simp only [nlaReserve, hneg, if_false, htail, hlen, hu64, hu32, hm.tail, toU16_natCast ht, hfield, hpad, hclear, ite_self,
      Nat.not_lt.2 hsz]
  have hhdr := seg_write m.buf m.nlmsgLen (nlaHeader ((4 + p.length) % 65536) t)
  rw [nlaPut_some p hreserve]
  have hlen' : m.nlmsgLen + (4 + p.length) = m.nlmsgLen + (cutAttr t p).length := by rw [cutAttr_length]
  have htidy : (m.nlmsgLen + (4 + p.length)) % 4 = 0 ∧ m.nlmsgLen + (4 + p.length) < 2147483648 := ⟨by omega, by omega⟩
  by_cases hzero : p.length = 0
  · rw [if_neg (by omega)]
    refine ⟨_, rfl, ⟨htidy.1, htidy.2, hm.size⟩, hlen', rfl, ?_, fun i hi => write_out (Or.inl hi)⟩
    rw [cutAttr, List.length_eq_zero_iff.1 hzero, List.append_nil]
    rwa [List.length_eq_zero_iff.1 hzero] at hhdr
  · rw [if_pos (by omega)]
    refine ⟨_, rfl, ⟨htidy.1, htidy.2, hm.size⟩, hlen', rfl, ?_, fun i hi => ?_⟩
    · simp only [nlaData, NLA_HDRLEN, Int.toNat_natCast, List.take_length]
      refine seg_append.2 ⟨hhdr.frame fun i _ hi => ?_, ?_⟩
      · rw [nlaHeader_length] at hi
        exact write_out (Or.inl hi)
      · rw [nlaHeader_length]
        exact seg_write _ _ _
    · have hi : i < m.nlmsgLen := hi
      simp only [nlaData, NLA_HDRLEN]
      rw [write_out (Or.inl (by omega)), write_out (Or.inl hi)]

/-- some attributes, and then others -/
theorem putAll_append {code : ℤ} (hcode : code < 0) (as bs : List Leaf) (m : NlMsg) :
    putAll code (as ++ bs) m = thenPut code (putAll code as m) (putAll code bs) := by
  induction as generalizing m with
  | nil => exact (thenPut_ok code m _).symm
  | cons l as ih =>
    rw [List.cons_append, putAll, putAll, thenPut_assoc hcode]
    exact congrArg (thenPut code _) (funext ih)

/-- **Attributes, and a long one behind them** -/
theorem putAll_long {code : ℤ} (hcode : code < 0) {ls : List Leaf} (hwf : ∀ l ∈ ls, l.WF) {t : ℕ} (ht : t < 65536)
    {p : List UInt8} (hp : p.length % 4 = 0) {m : NlMsg} (hm : Tidy m)
    (hroom : Room m ((encLeaves ls).length + (4 + p.length))) :
    ∃ m', putAll code (ls ++ [⟨t, p⟩]) m = (m', 0) ∧ Wrote m m' (encLeaves ls ++ cutAttr t p) := by
  obtain ⟨m1, h1, hw1⟩ := putAll_room code hwf hm (room_mono hroom (Nat.le_add_right _ _))
  obtain ⟨m2, h2, hw2⟩ := nlaPut_aligned hw1.tidy ht hp (room_after hw1 hroom)
  refine ⟨m2, ?_, hw1.append hw2⟩
  rw [putAll_append hcode, h1, thenPut_ok, putAll, h2]
  rfl

/-- the message is longer by `n`, within its buffer, and below its old end nothing changed -/
structure Added (m m' : NlMsg) (n : ℕ) : Prop where
  tidy : Tidy m'
  len : m'.nlmsgLen = m.nlmsgLen + n
  size : m'.nmSize = m.nmSize
  below : ∀ i < m.nlmsgLen, m'.buf i = m.buf i

omit [HostOrder] in
theorem Added.trans {m m1 m2 : NlMsg} {a b : ℕ} (h : Added m m1 a) (h' : Added m1 m2 b) : Added m m2 (a + b) := by
  have hlen := h.len
  refine ⟨h'.tidy, by rw [h'.len, hlen, Nat.add_assoc], h'.size.trans h.size, fun i hi => ?_⟩
  rw [h'.below i (by omega), h.below i hi]

theorem nlaReserve_added {m m' : NlMsg} (hm : Tidy m) {t : ℤ} {n nla : ℕ} (hn : n ≤ 1073741824)
    (h : nlaReserve m t n = (m', some nla)) : nla = m.nlmsgLen ∧ Added m m' (align4 (4 + n)) ∧ m'.nlmsgLen ≤ m'.nmSize := by
  have hneg : ¬ ((n : ℤ) < 0) := not_lt.2 (Int.natCast_nonneg n)
  have hlt := hm.lt
  have hmod := hm.mod
  have hsize := hm.size
  have hlt' := align4_lt (4 + n)
  have hmod' := align4_mod (4 + n)
  unfold PTRDIFF_MAX at hsize
  unfold nlaReserve at h
  rw [if_neg hneg, Builder.reserve_total_emod, align4_of_mod hmod, hm.tail] at h
  generalize htotal : m.nlmsgLen + align4 (4 + n) = total at h
  by_cases h31 : total < 2147483648
  · have h64 : toU64 (total : ℤ) = total := by unfold toU64; omega
    have h32 : toU32 (total : ℤ) = total := by unfold toU32; omega
    rw [toInt32_of_mem (by omega) (by omega)] at h
    dsimp only at h
    rw [h64, h32] at h
    by_cases hroom : m.nmSize < total
    · rw [if_pos hroom] at h
      cases h
    · rw [if_neg hroom] at h
      cases h
      refine ⟨rfl, ⟨⟨?_, h31, hsize⟩, htotal.symm, rfl, fun i hi => ?_⟩, not_lt.1 hroom⟩
      · dsimp only
        omega
      · dsimp only
        split_ifs
        · rw [zero, write_out (Or.inl (by omega)), write_out (Or.inl hi)]
        · rw [write_out (Or.inl hi)]
  · -- as an `int` the total is negative, and as a `size_t` larger than any buffer
    have hint : toInt32 (total : ℤ) = total - 4294967296 := by unfold toInt32; split_ifs <;> omega
    have hbig := toU64_of_neg (x := toInt32 total) (by omega) (by omega)
    dsimp only at h
    rw [if_pos (by omega)] at h
    cases h

/-- **`nla_put`** of a payload of any length, if it does not fail -/
theorem nlaPut_added {m : NlMsg} (hm : Tidy m) (t : ℤ) {p : List UInt8} (hp : p.length ≤ 1073741824)
    (h : ¬ (nlaPut m t p.length p).2 < 0) :
    Added m (nlaPut m t p.length p).1 (align4 (4 + p.length)) ∧
      (nlaPut m t p.length p).1.nlmsgLen ≤ (nlaPut m t p.length p).1.nmSize := by
  cases hres : nlaReserve m t p.length with
  | mk m1 o =>
    cases o with
    | none =>
      rw [nlaPut_none p hres, if_neg (not_lt.2 (Int.natCast_nonneg _))] at h
      exact absurd (by decide : -NLE_NOMEM < 0) h
    | some nla =>
      obtain ⟨rfl, hadded, hfits⟩ := nlaReserve_added hm hp hres
      rw [nlaPut_some p hres]
      split_ifs
      · refine ⟨⟨⟨hadded.tidy.mod, hadded.tidy.lt, hadded.tidy.size⟩, hadded.len, hadded.size, fun i hi => ?_⟩, hfits⟩
        rw [← hadded.below i hi]
        exact write_out (Or.inl (hi.trans_le (Nat.le_add_right _ _)))
      · exact ⟨hadded, hfits⟩

/-- **Attributes of any length**, if none of them fails -/
theorem putAll_added {code : ℤ} (hcode : code < 0) {ls : List Leaf} (hls : ∀ l ∈ ls, l.payload.length ≤ 1073741824) {m : NlMsg}
    (hm : Tidy m) (hfits : m.nlmsgLen ≤ m.nmSize) (h : ¬ (putAll code ls m).2 < 0) :
    Added m (putAll code ls m).1 (encLeaves ls).length ∧ (putAll code ls m).1.nlmsgLen ≤ (putAll code ls m).1.nmSize := by
  induction ls generalizing m with
  | nil => exact ⟨⟨hm, rfl, rfl, fun _ _ => rfl⟩, hfits⟩
  | cons l ls ih =>
    by_cases hneg : (nlaPut m l.type l.payload.length l.payload).2 < 0
    · rw [putAll, thenPut, if_pos hneg] at h
      exact absurd hcode h
    · obtain ⟨hput, hfits1⟩ := nlaPut_added hm l.type (hls l List.mem_cons_self) hneg
      rw [putAll, thenPut, if_neg hneg] at h ⊢
      obtain ⟨hrest, hfits2⟩ := ih (fun x hx => hls x (List.mem_cons_of_mem l hx)) hput.tidy hfits1 h
      refine ⟨?_, hfits2⟩
      rw [encLeaves_cons, List.length_append, encLeaf_length]
      exact hput.trans hrest

/-! ## Bytes that stand for themselves -/

/-- what `nla_parse` makes of these bytes -/
def alone (bytes : List UInt8) (maxtype : ℤ) (policy : ℕ → NlaPolicy) : ℤ × Index :=
  (nlaParse (bytes.length + 1) (memOf bytes) maxtype 0 bytes.length (some policy)).getD (0, fun _ => none)

/-- the index of a message over that of the bytes behind its attributes, which start at `p` -/
def Shifted (p : ℕ) (base tb tb' : Index) : Prop :=
  ∀ t, (tb' t = none ∧ tb t = base t) ∨ ∃ nla, tb' t = some nla ∧ tb t = some (p + nla)

section

variable {buf : Mem} {p : ℕ} {bytes : List UInt8}

/-- a header within the bytes -/
theorem lenField_alone (h : Seg buf p bytes) {off : ℕ} (hoff : off + 4 ≤ bytes.length) :
    nlaLenField buf (p + off) = nlaLenField (memOf bytes) off := by
  have hsame := same_of_seg h (seg_memOf bytes)
  have hsub := hsame.sub off 2 (by omega)
  rw [zero_add] at hsub
  exact hsub.getU16

/-- **The walk** over the bytes, alone and behind something -/
theorem visits_behind (h : Seg buf p bytes) {n off : ℕ} {rem : ℤ} (hrem : (off : ℤ) + rem ≤ bytes.length)
    (hsize : bytes.length < 2147483648) {offs : List ℕ}
    (hv : visits (nlaOk (memOf bytes)) (nlaNext (memOf bytes)) n off rem = some offs) :
    visits (nlaOk buf) (nlaNext buf) n (p + off) rem = some (offs.map (p + ·)) := by
  induction n generalizing off rem offs with
  | zero => cases hv
  | succ n ih =>
    have hok : nlaOk buf (p + off) rem = nlaOk (memOf bytes) off rem := by
      by_cases hshort : 4 ≤ rem
      · simp only [nlaOk, lenField_alone h (show off + 4 ≤ bytes.length by omega)]
      · simp only [nlaOk, hshort, decide_false, Bool.false_and]
    rw [visits] at hv
    rw [visits, hok]
    by_cases hgo : nlaOk (memOf bytes) off rem = true
    · rw [if_pos hgo] at hv
      rw [if_pos hgo]
      obtain ⟨rest, hrest, rfl⟩ := Option.map_eq_some_iff.1 hv
      have hlt : rem < 2147483648 := by omega
      obtain ⟨h4, hlen, hle⟩ := ((nlaStream (memOf bytes)).ok_iff off rem hlt).1 hgo
      have hfield := lenField_alone h (show off + 4 ≤ bytes.length by omega)
      have hge := le_align4 (nlaLenField (memOf bytes) off)
      have hnear := align4_lt (nlaLenField (memOf bytes) off)
      have hnext : nlaNext (memOf bytes) off rem = (off + align4 (nlaLenField (memOf bytes) off),
          rem - (align4 (nlaLenField (memOf bytes) off) : ℕ)) := by
        rw [nlaNext, toInt32_of_mem (by omega) (by omega)]
      have hnext' : nlaNext buf (p + off) rem = (p + (off + align4 (nlaLenField (memOf bytes) off)),
          rem - (align4 (nlaLenField (memOf bytes) off) : ℕ)) := by
        rw [nlaNext, hfield, toInt32_of_mem (by omega) (by omega), add_assoc]
      rw [hnext] at hrest
      rw [hnext', ih (by push_cast; omega) hrest]
      rfl
    · rw [if_neg hgo] at hv
      rw [if_neg hgo]
      cases hv
      rfl

/-- an attribute within the bytes, alone and behind something -/
theorem twin_behind (h : Seg buf p bytes) {o : ℕ} (hlen : 4 ≤ nlaLenField (memOf bytes) o)
    (hin : o + nlaLenField (memOf bytes) o ≤ bytes.length) : ∃ l, Twin buf (memOf bytes) l (p + o) o := by
  have hsame := same_of_seg h (seg_memOf bytes)
  refine ⟨⟨nlaTypeField (memOf bytes) o, readBytes (memOf bytes) (nlaData o) (nlaLenField (memOf bytes) o - 4)⟩, ?_, ?_⟩
  · refine ⟨?_, ?_, ?_⟩
    · rw [lenField_alone h (by omega), readBytes_length]
      omega
    · have hsub := hsame.sub (o + 2) 2 (by omega)
      rw [zero_add] at hsub
      exact hsub.getU16
    · have hsub := hsame.sub (nlaData o) (nlaLenField (memOf bytes) o - 4) (by unfold nlaData NLA_HDRLEN; omega)
      rw [zero_add] at hsub
      have hdata : nlaData (p + o) = p + nlaData o := add_assoc _ _ _
      rw [← hsub.readBytes, hdata]
      exact seg_readBytes _ _ _
  · refine ⟨?_, rfl, seg_readBytes _ _ _⟩
    rw [readBytes_length]
    omega

/-- **The loop of `nla_parse`** over the bytes, alone and behind something -/
theorem fold_behind (h : Seg buf p bytes) {maxtype : ℤ} {policy : ℕ → NlaPolicy} {base : Index} {offs : List ℕ}
    (hin : ∀ o ∈ offs, 4 ≤ nlaLenField (memOf bytes) o ∧ o + nlaLenField (memOf bytes) o ≤ bytes.length) {tb tb' : Index}
    (htb : Shifted p base tb tb') :
    (parseEnd ((offs.map (p + ·)).foldlM (nlaParseBody buf maxtype (some policy)) tb)).1 =
        (parseEnd (offs.foldlM (nlaParseBody (memOf bytes) maxtype (some policy)) tb')).1 ∧
      Shifted p base (parseEnd ((offs.map (p + ·)).foldlM (nlaParseBody buf maxtype (some policy)) tb)).2
        (parseEnd (offs.foldlM (nlaParseBody (memOf bytes) maxtype (some policy)) tb')).2 := by
  induction offs generalizing tb tb' with
  | nil =>
    rw [List.map_nil, List.foldlM_nil, List.foldlM_nil]
    exact ⟨rfl, htb⟩
  | cons o offs ih =>
    have hrest := fun o' ho' => hin o' (List.mem_cons_of_mem o ho')
    obtain ⟨hlen, hle⟩ := hin o List.mem_cons_self
    obtain ⟨l, htwin⟩ := twin_behind h hlen hle
    have hvalidate := htwin.validate maxtype policy
    rw [List.map_cons, List.foldlM_cons, List.foldlM_cons]
    by_cases habove : maxtype < nlaType (memOf bytes) o
    · have habove' : maxtype < nlaType buf (p + o) := by rwa [htwin.type]
      have hbody : nlaParseBody (memOf bytes) maxtype (some policy) tb' o = .ok tb' := if_pos habove
      have hbody' : nlaParseBody buf maxtype (some policy) tb (p + o) = .ok tb := if_pos habove'
      rw [hbody, hbody']
      exact ih hrest htb
    · have habove' : ¬ maxtype < nlaType buf (p + o) := by rwa [htwin.type]
      by_cases herr : validateNla (memOf bytes) o maxtype policy < 0
      · have herr' : validateNla buf (p + o) maxtype policy < 0 := by rwa [hvalidate]
        have hbody : nlaParseBody (memOf bytes) maxtype (some policy) tb' o =
            .error (validateNla (memOf bytes) o maxtype policy, tb') := (if_neg habove).trans (if_pos herr)
        have hbody' : nlaParseBody buf maxtype (some policy) tb (p + o) =
            .error (validateNla buf (p + o) maxtype policy, tb) := (if_neg habove').trans (if_pos herr')
        rw [hbody, hbody', hvalidate]
        exact ⟨rfl, htb⟩
      · have herr' : ¬ validateNla buf (p + o) maxtype policy < 0 := by rwa [hvalidate]
        have hbody : nlaParseBody (memOf bytes) maxtype (some policy) tb' o =
            .ok (Function.update tb' (nlaType (memOf bytes) o) (some o)) := (if_neg habove).trans (if_neg herr)
        have hbody' : nlaParseBody buf maxtype (some policy) tb (p + o) =
            .ok (Function.update tb (nlaType (memOf bytes) o) (some (p + o))) := by
          rw [← htwin.type]
          exact (if_neg habove').trans (if_neg herr')
        rw [hbody, hbody']
        refine ih hrest fun t => ?_
        by_cases ht : t = nlaType (memOf bytes) o
        · right
          rw [ht, Function.update_self, Function.update_self]
          exact ⟨o, rfl, rfl⟩
        · rw [Function.update_of_ne ht, Function.update_of_ne ht]
          exact htb t

/-- the attributes in bytes that stand for themselves: where they are -/
theorem alone_visits {bytes : List UInt8} (hsize : bytes.length < 2147483648) (maxtype : ℤ) (policy : ℕ → NlaPolicy) :
    ∃ offs, (∀ n, bytes.length < n → visits (nlaOk (memOf bytes)) (nlaNext (memOf bytes)) n 0 bytes.length = some offs) ∧
      (∀ o ∈ offs, 4 ≤ nlaLenField (memOf bytes) o ∧ o + nlaLenField (memOf bytes) o ≤ bytes.length) ∧
      alone bytes maxtype policy =
        parseEnd (offs.foldlM (nlaParseBody (memOf bytes) maxtype (some policy)) fun _ => none) := by
  obtain ⟨offs, hvisits, hlaws⟩ := (nlaStream (memOf bytes)).walk 0 bytes.length (by omega)
  refine ⟨offs, fun n hn => hvisits n (by omega), fun o ho => ?_, ?_⟩
  · obtain ⟨-, hlen, hle⟩ := hlaws.inside o ho
    exact ⟨hlen, by omega⟩
  · rw [alone, parse_of_visits (hvisits _ (by omega))]
    rfl

/-- **What is found** in bytes that stand for themselves -/
theorem alone_entry {bytes : List UInt8} (hsize : bytes.length < 2147483648) {maxtype : ℤ} {policy : ℕ → NlaPolicy}
    (hok : ¬ (alone bytes maxtype policy).1 < 0) {t o : ℕ} (hget : (alone bytes maxtype policy).2 t = some o) :
    Inside (memOf bytes) policy 0 bytes.length t o := by
  obtain ⟨offs, hvisits, -, -⟩ := alone_visits hsize maxtype policy
  have hsome : nlaParse _ (memOf bytes) maxtype _ _ (some policy) = some _ := parse_of_visits (hvisits _ (Nat.lt_succ_self _))
  rw [alone, hsome, Option.getD_some] at hok hget
  have hin := nlaParse_inside (by omega) (by omega) hsome (not_lt.1 hok) hget
  rwa [zero_add, Int.toNat_natCast] at hin

/-- one attribute that passes -/
theorem alone_leaf {l : Leaf} (hwf : l.WF) {maxtype : ℕ} (htype : l.type % 16384 ≤ maxtype) {policy : ℕ → NlaPolicy}
    (hok : ∀ buf pos, At buf pos l → 0 ≤ validateNla buf pos maxtype policy) :
    alone (encLeaves [l]) maxtype policy = (0, Function.update (fun _ => none) (l.type % 16384) (some 0)) := by
  have hseg := seg_memOf (encLeaves [l])
  have hlen := hwf.len
  have hone : (encLeaves [l]).length = align4 (4 + l.payload.length) := by
    rw [encLeaves_cons, encLeaves_nil, List.append_nil, encLeaf_length]
  have hge := le_align4 (4 + l.payload.length)
  have hnear := align4_lt (4 + l.payload.length)
  have hencl : Seg (memOf (encLeaves [l])) 0 (encLeaf l.type l.payload ++ []) := hseg
  have hat : At (memOf (encLeaves [l])) 0 l := (at_of_seg hwf hencl).1
  obtain ⟨hok0, hnext⟩ := next_leaf hat (show align4 (4 + l.payload.length) + 0 < 2147483648 by omega)
  obtain ⟨k, hk⟩ : ∃ k, (encLeaves [l]).length = k + 1 := ⟨(encLeaves [l]).length - 1, by omega⟩
  have hstop : visits (nlaOk (memOf (encLeaves [l]))) (nlaNext (memOf (encLeaves [l]))) (k + 1)
      (0 + (k + 1)) (0 : ℕ) = some [] := by
    simp [visits, nlaOk]
  have hvisits : visits (nlaOk (memOf (encLeaves [l]))) (nlaNext (memOf (encLeaves [l]))) ((encLeaves [l]).length + 1) 0
      (encLeaves [l]).length = some [0] := by
    rw [add_zero, ← hone] at hok0 hnext
    rw [visits, if_pos hok0, hnext, hk]
    exact congrArg (Option.map _) hstop
  have hbody : nlaParseBody (memOf (encLeaves [l])) maxtype (some policy) (fun _ => none) 0 =
      .ok (Function.update (fun _ => none) (l.type % 16384) (some 0)) := by
    rw [nlaParseBody, hat.type, if_neg (by omega)]
    exact if_neg (not_lt.2 (hok _ 0 hat))
  rw [alone, parse_of_visits hvisits, Option.getD_some, List.foldlM_cons, hbody]
  rfl

end

/-! ## Behind other attributes -/

/-- the walk over a stream with something behind it -/
theorem visits_leaves_then {buf : Mem} {ls : List Leaf} (hwf : ∀ l ∈ ls, l.WF) {p : ℕ} (hseg : Seg buf p (encLeaves ls)) :
    ∃ offs, List.Forall₂ (At buf) offs ls ∧ ∀ n rest : ℕ, (encLeaves ls).length + rest < 2147483648 →
      visits (nlaOk buf) (nlaNext buf) (n + ls.length) p ((encLeaves ls).length + rest : ℕ) =
        (visits (nlaOk buf) (nlaNext buf) n (p + (encLeaves ls).length) rest).map (offs ++ ·) := by
  induction ls generalizing p with
  | nil =>
    refine ⟨[], List.Forall₂.nil, fun n rest _ => ?_⟩
    simp only [encLeaves_nil, List.length_nil, add_zero, zero_add, List.nil_append]
    exact (Option.map_id' ..).symm
  | cons l ls ih =>
    obtain ⟨hat, hrest⟩ := at_of_seg (hwf l List.mem_cons_self) hseg
    obtain ⟨offs, hall, hv⟩ := ih (fun x hx => hwf x (List.mem_cons_of_mem l hx)) hrest
    refine ⟨p :: offs, List.Forall₂.cons hat hall, fun n rest hlt => ?_⟩
    rw [encLeaves_cons, List.length_append, encLeaf_length, add_assoc] at hlt ⊢
    obtain ⟨hok, hnext⟩ := next_leaf hat hlt
    rw [List.length_cons, ← add_assoc, visits, if_pos hok, hnext, hv n rest (by omega), Option.map_map, add_assoc]
    rfl

/-- **A message with bytes behind its attributes**: its index is that of the bytes over that of the attributes. -/
theorem parse_behind {n : NlMsg} {front : ℕ} {ls : List Leaf} {bytes : List UInt8} {maxtype : ℕ} {policy : ℕ → NlaPolicy}
    (hwf : ∀ l ∈ ls, l.WF) (hok : ∀ l ∈ ls, ∀ pos, At n.buf pos l → 0 ≤ validateNla n.buf pos maxtype policy)
    (hmod : front % 4 = 0) (hsize : 16 + front + ((encLeaves ls).length + bytes.length) < 2147483648)
    (hlen : n.nlmsgLen = 16 + front + ((encLeaves ls).length + bytes.length))
    (hseg : Seg n.buf (16 + front) (encLeaves ls ++ bytes)) :
    ∃ tb, Indexes n.buf maxtype ls tb ∧ (nlmsgParse n front maxtype (some policy)).1 = (alone bytes maxtype policy).1 ∧
      Shifted (16 + front + (encLeaves ls).length) tb (nlmsgParse n front maxtype (some policy)).2
        (alone bytes maxtype policy).2 := by
  obtain ⟨hsegls, hsegbytes⟩ := seg_append.1 hseg
  obtain ⟨offs, -, hbefore⟩ := visits_leaves_then hwf hsegls
  obtain ⟨offs', hvisits, hin, halone⟩ := alone_visits (show bytes.length < 2147483648 by omega) maxtype policy
  -- the attributes alone
  have hstop : visits (nlaOk n.buf) (nlaNext n.buf) 1 (16 + front + (encLeaves ls).length) (0 : ℕ) = some [] := by
    simp [visits, nlaOk]
  have hthose := hbefore 1 0 (by omega)
  rw [hstop, add_zero, Option.map_some, List.append_nil] at hthose
  obtain ⟨tb, hparse, hidx⟩ := parse_leaves hwf hok hsegls (by omega) (show ls.length < 1 + ls.length by omega)
  rw [parse_of_visits hthose] at hparse
  have hfold : offs.foldlM (nlaParseBody n.buf maxtype (some policy)) (fun _ => none) = .ok tb := by
    cases hf : offs.foldlM (nlaParseBody n.buf maxtype (some policy)) (fun _ => none) with
    | ok tb' =>
      rw [hf] at hparse
      exact congrArg Except.ok (congrArg Prod.snd (Option.some.inj hparse))
    | error e =>
      have hneg := parse_error_neg n.buf maxtype (some policy) offs _ e hf
      rw [hf] at hparse
      have hzero : e.1 = 0 := congrArg Prod.fst (Option.some.inj hparse)
      omega
  -- all of them
  have hle := length_le_enc ls
  have hall := hbefore ((encLeaves ls).length + bytes.length + 1 - ls.length) bytes.length (by omega)
  have hbehind := visits_behind hsegbytes (by omega) (by omega)
    (hvisits ((encLeaves ls).length + bytes.length + 1 - ls.length) (by omega))
  rw [add_zero] at hbehind
  rw [hbehind, Option.map_some, Nat.sub_add_cancel (by omega)] at hall
  refine ⟨tb, hidx, ?_⟩
  rw [nlmsgParse_front hlen hmod hsize, parse_of_visits hall, Option.getD_some, List.foldlM_append, hfold, halone]
  exact fold_behind hsegbytes hin fun t => Or.inl ⟨rfl, rfl⟩

end Libnl.Overlong
