/-
The data of extended matches, by their kinds (`ematch/nbyte.c`, `ematch/meta.c`, `ematch/text.c`), written by
`fill_ematch_sequence` and read again by the parser of the kind.

A comparison of bytes has no function that writes it. Its structure is written as it stands in memory: the header, four
bytes of padding and the address of the pattern, but not the pattern; or only the header, if the match is marked as simple.
A comparison of metadata is written as a header and up to two attributes; the header takes four bits of the type and eleven
of the number, and the shift of the value on the right is forgotten. A text is written with its pattern.

- `putEmatch_text`, `putEmatch_nbyte`: this writer is that of whole trees.
- `payload_put`: what is written for each kind.
- `kind_round_trip_iff`: the same configuration comes back exactly under `Faithful`.
- `pattern_lost`: a comparison with one byte.
-/
import Mathlib.Tactic
import Libnl.Route.EmatchCodec

namespace Libnl.EmatchKinds

open Bytes Msg Attr AttrWalk AttrTree AttrStream Writer Ematch

/-! ## Data -/

def TCF_EM_NBYTE : UInt16 := 2
def TCF_EM_META : UInt16 := 4

/-- `struct nbyte_data`: the fields of `struct tcf_em_nbyte`, and the block that `pattern` points to -/
structure NbyteData where
  off : UInt16
  len : Fin 4096
  layer : Fin 16
  pattern : List UInt8
deriving DecidableEq

/-- a comparison as it is set up: `rtnl_ematch_nbyte_set_pattern` takes the pattern and its length, and the pattern is
somewhere in memory -/
structure Nbyte where
  off : UInt16
  layer : Fin 16
  pattern : List UInt8
  pattern_len : pattern.length < 4096
  address : UInt64

/-- `struct rtnl_meta_value`; `mv_len` is the length of the data behind it -/
@[ext]
structure RtnlMetaValue where
  mvType : UInt8
  mvShift : UInt8
  mvId : UInt16
  data : List UInt8
deriving DecidableEq

/-- `struct meta_data` -/
structure MetaData where
  left : Option RtnlMetaValue
  right : Option RtnlMetaValue
  opnd : UInt8
deriving DecidableEq

inductive Payload where
  | nbyteData (n : Nbyte)
  | metaData (m : MetaData)
  | textData (t : TextData)

/-- a match with its data -/
structure KindEmatch where
  eId : UInt16
  eFlags : UInt16
  eIndex : UInt16
  payload : Payload

section
variable [o : HostOrder]

/-! ## Writing -/

/-- `len` has the lower bits of its word and `layer` the upper ones, or the other way round -/
def Nbyte.lenLayer (n : Nbyte) : ℕ :=
  if o.big then n.pattern.length * 16 + n.layer else n.pattern.length + n.layer * 4096

/-- `struct tcf_em_nbyte` -/
def Nbyte.cfg (n : Nbyte) : List UInt8 := u16Bytes n.off.toNat ++ u16Bytes n.lenLayer

/-- what stands behind the header: padding, which `calloc` has cleared, and the pointer -/
def Nbyte.tail (n : Nbyte) : List UInt8 := [0, 0, 0, 0] ++ u64Bytes n.address.toNat

/-- size of `struct nbyte_data` -/
def NBYTE_DATALEN : ℕ := 16

/-- `fill_ematch_sequence` for a kind without `eo_fill` -/
def fillRaw (flags : UInt16) (datalen : ℕ) (data : List UInt8) (msg : NlMsg) : NlMsg × ℤ :=
  if flags &&& TCF_EM_SIMPLE ≠ 0 then nlmsgAppend msg (data.take 4) 0
  else if 0 < datalen then nlmsgAppend msg (data.take datalen) 0
  else (msg, 0)

def TCF_META_TYPE_MASK : UInt16 := 0xf000
def TCF_META_ID_MASK : UInt16 := 0x7ff

def TCF_META_TYPE (kind : UInt16) : UInt8 := ((kind &&& TCF_META_TYPE_MASK) >>> 12).toUInt8
def TCF_META_ID (kind : UInt16) : UInt16 := kind &&& TCF_META_ID_MASK

def TCA_EM_META_HDR : ℕ := 1
def TCA_EM_META_LVALUE : ℕ := 2
def TCA_EM_META_RVALUE : ℕ := 3
def TCA_EM_META_MAX : ℕ := 3

/-- `kind` of a `struct tcf_meta_val` -/
def RtnlMetaValue.kind (v : RtnlMetaValue) : UInt16 :=
  (v.mvType.toUInt16 <<< 12 &&& TCF_META_TYPE_MASK) ||| (v.mvId &&& TCF_META_ID_MASK)

/-- `struct tcf_meta_hdr` as `meta_fill` sets it -/
def metaHdr (left right : RtnlMetaValue) (opnd : UInt8) : List UInt8 :=
  u16Bytes left.kind.toNat ++ ([left.mvShift, opnd] ++ (u16Bytes right.kind.toNat ++ [0, 0]))

def metaFill (m : MetaData) (msg : NlMsg) : NlMsg × ℤ :=
  match m.left, m.right with
  | some left, some right =>
    thenPut (-NLE_NOMEM) (nlaPut msg TCA_EM_META_HDR 8 (metaHdr left right m.opnd)) fun msg =>
      thenPut (-NLE_NOMEM) (if left.data.length ≠ 0 then nlaPut msg TCA_EM_META_LVALUE left.data.length left.data else (msg, 0))
        fun msg =>
          thenPut (-NLE_NOMEM)
            (if right.data.length ≠ 0 then nlaPut msg TCA_EM_META_RVALUE right.data.length right.data else (msg, 0))
            fun msg => (msg, 0)
  | _, _ => (msg, -NLE_MISSING_ATTR)

def Payload.kind : Payload → UInt16
  | nbyteData _ => TCF_EM_NBYTE
  | metaData _ => TCF_EM_META
  | textData _ => TCF_EM_TEXT

/-- the data of a match, from its module or as they are -/
def Payload.fill (flags : UInt16) : Payload → NlMsg → NlMsg × ℤ
  | nbyteData n, msg => fillRaw flags NBYTE_DATALEN (n.cfg ++ n.tail) msg
  | metaData m, msg => metaFill m msg
  | textData t, msg => textFill msg (.text t)

def KindEmatch.hdr (e : KindEmatch) : List UInt8 := RtnlEmatch.hdr ⟨e.eId, e.payload.kind, e.eFlags, e.eIndex, .null⟩

def KindEmatch.fill (e : KindEmatch) (msg : NlMsg) : NlMsg × ℤ :=
  putEmatch (e.payload.fill e.eFlags) msg e.eIndex e.hdr

/-- **The writer of whole trees** writes texts this way. -/
theorem putEmatch_text (others : UInt16 → Option RtnlEmatchOps) (msg : NlMsg) (id flags index : UInt16) (t : TextData) :
    fillEmatch others msg ⟨id, TCF_EM_TEXT, flags, index, .text t⟩ = KindEmatch.fill ⟨id, flags, index, .textData t⟩ msg := rfl

/-- and comparisons of bytes, of which it is given the structure in memory -/
theorem putEmatch_nbyte (others : UInt16 → Option RtnlEmatchOps) {ops : RtnlEmatchOps} (hops : others TCF_EM_NBYTE = some ops)
    (hlen : ops.eoDatalen = NBYTE_DATALEN) (hfill : ops.eoFill = none) (msg : NlMsg) (id flags index : UInt16) (n : Nbyte) :
    fillEmatch others msg ⟨id, TCF_EM_NBYTE, flags, index, .raw (n.cfg ++ n.tail)⟩ =
      KindEmatch.fill ⟨id, flags, index, .nbyteData n⟩ msg := by
  have hlookup : rtnlEmatchLookupOps others TCF_EM_NBYTE = some ops := hops
  have hdata : ∀ m, fillData others m ⟨id, TCF_EM_NBYTE, flags, index, .raw (n.cfg ++ n.tail)⟩ =
      Payload.fill flags (.nbyteData n) m := by
    intro m
    simp only [fillData, hlookup, hfill, hlen]
    rfl
  simp only [fillEmatch, hdata]
  rfl

/-! ## Reading -/

/-- `nbyte_parse`; `eo_minlen` has seen to it that the header is there -/
def nbyteParse (buf : Mem) (data len : ℕ) : NbyteData :=
  let lenLayer := getU16 buf (data + 2)
  { off := UInt16.ofNat (getU16 buf data)
    len := if o.big then Fin.ofNat 4096 (lenLayer / 16) else Fin.ofNat 4096 lenLayer
    layer := if o.big then Fin.ofNat 16 lenLayer else Fin.ofNat 16 (lenLayer / 4096)
    pattern := readBytes buf (data + 4) (len - 4) }

def metaPolicy (type : ℕ) : NlaPolicy :=
  if type = TCA_EM_META_HDR then ⟨.unspec, 8, 0⟩
  else if type = TCA_EM_META_LVALUE then ⟨.unspec, 1, 0⟩
  else if type = TCA_EM_META_RVALUE then ⟨.unspec, 1, 0⟩
  else ⟨.unspec, 0, 0⟩

/-- the data of a value, if its attribute is there -/
def metaValueData (buf : Mem) (a : Option ℕ) : List UInt8 :=
  match a with
  | none => []
  | some a => readBytes buf (nlaData a) (nlaLen buf a).toNat

/-- a value of the header at `p`, with its data -/
def metaValue (buf : Mem) (p : ℕ) (a : Option ℕ) : RtnlMetaValue where
  mvType := TCF_META_TYPE (UInt16.ofNat (getU16 buf p))
  mvShift := buf (p + 2)
  mvId := TCF_META_ID (UInt16.ofNat (getU16 buf p))
  data := metaValueData buf a

/-- `meta_parse`; the loop of `nla_parse` takes less than `len + 1` steps -/
def metaParse (buf : Mem) (data len : ℕ) : Except ℤ MetaData :=
  let (err, tb) := (nlaParse (len + 1) buf TCA_EM_META_MAX data len (some metaPolicy)).getD (0, fun _ => none)
  if err < 0 then .error err
  else
    match tb TCA_EM_META_HDR with
    | none => .error (-NLE_MISSING_ATTR)
    | some a =>
      .ok {
        left := some (metaValue buf (nlaData a) (tb TCA_EM_META_LVALUE))
        right := some (metaValue buf (nlaData a + 4) (tb TCA_EM_META_RVALUE))
        opnd := buf (nlaData a + 3) }

/-- the same configuration: the fields, and as many bytes of pattern as there have to be -/
structure SameNbyte (n : Nbyte) (r : NbyteData) : Prop where
  off : r.off = n.off
  layer : r.layer = n.layer
  len : r.len.1 = n.pattern.length
  pattern : r.pattern.take n.pattern.length = n.pattern

/-- the parser of the kind makes the same configuration of `len` bytes -/
def Payload.Recovered (buf : Mem) (data len : ℕ) : Payload → Prop
  | nbyteData n => SameNbyte n (nbyteParse buf data len)
  | metaData m => metaParse buf data len = .ok m
  | textData t => textParse buf data len = .ok (.text t)

/-- the match is written, and the parser makes the same configuration of the data of its attribute: those behind a header
of eight bytes -/
def RoundTrips (msg : NlMsg) (e : KindEmatch) : Prop :=
  ∃ msg', e.fill msg = (msg', 0) ∧
    e.payload.Recovered msg'.buf (nlaData msg.nlmsgLen + 8) (toU64 (nlaLen msg'.buf msg.nlmsgLen) - 8)

/-! ## What is written -/

/-- the attributes of a comparison of metadata -/
def metaLeaves (left right : RtnlMetaValue) (opnd : UInt8) : List Leaf :=
  ⟨TCA_EM_META_HDR, metaHdr left right opnd⟩ ::
    (leafIf (decide (left.data ≠ [])) TCA_EM_META_LVALUE left.data ++
      leafIf (decide (right.data ≠ [])) TCA_EM_META_RVALUE right.data)

/-- the data as they are written -/
def Payload.bytes (flags : UInt16) : Payload → List UInt8
  | nbyteData n => if flags &&& TCF_EM_SIMPLE ≠ 0 then n.cfg else n.cfg ++ n.tail
  | metaData m =>
    match m.left, m.right with
    | some left, some right => encLeaves (metaLeaves left right m.opnd)
    | _, _ => []
  | textData t => t.cfg ++ t.pattern

/-- both values of a comparison are set -/
def Payload.Complete : Payload → Prop
  | metaData m => m.left.isSome ∧ m.right.isSome
  | _ => True

/-- the bytes a match takes -/
def KindEmatch.size (e : KindEmatch) : ℕ := 4 + align4 (e.hdr ++ e.payload.bytes e.eFlags).length

@[simp] theorem nbyteCfg_length (n : Nbyte) : n.cfg.length = 4 := by
  simp only [Nbyte.cfg, List.length_append, u16Bytes_length]

@[simp] theorem nbyteTail_length (n : Nbyte) : n.tail.length = 12 := by
  rw [Nbyte.tail, List.length_append, u64Bytes_length]
  rfl

@[simp] theorem metaHdr_length (left right : RtnlMetaValue) (opnd : UInt8) : (metaHdr left right opnd).length = 8 := by
  simp [metaHdr]

omit o in
theorem leafIf_data (type : ℕ) (data : List UInt8) :
    leafIf (decide (data ≠ [])) type data = if data = [] then [] else [⟨type, data⟩] := by
  by_cases h : data = []
  · simp [leafIf, h]
  · simp [leafIf, h]

/-- an attribute with data that may be missing -/
theorem putAll_data (code : ℤ) (type : ℕ) (data : List UInt8) (rest : List Leaf) (msg : NlMsg) :
    thenPut code (if data.length ≠ 0 then nlaPut msg type data.length data else (msg, 0)) (putAll code rest) =
      putAll code (leafIf (decide (data ≠ [])) type data ++ rest) msg := by
  rw [leafIf_data]
  by_cases h : data = []
  · rw [if_neg (by simp [h]), if_pos h, thenPut_ok]
    rfl
  · rw [if_pos (by simpa using h), if_neg h]
    rfl

/-- a comparison of metadata goes out as attributes in a row -/
theorem metaFill_eq {m : MetaData} {left right : RtnlMetaValue} (hleft : m.left = some left) (hright : m.right = some right)
    (msg : NlMsg) : metaFill m msg = putAll (-NLE_NOMEM) (metaLeaves left right m.opnd) msg := by
  have hlast : ∀ msg, thenPut (-NLE_NOMEM)
      (if right.data.length ≠ 0 then nlaPut msg TCA_EM_META_RVALUE right.data.length right.data else (msg, 0))
        (fun msg => (msg, 0)) = putAll (-NLE_NOMEM) (leafIf (decide (right.data ≠ [])) TCA_EM_META_RVALUE right.data) msg := by
    intro msg
    have h := putAll_data (-NLE_NOMEM) TCA_EM_META_RVALUE right.data [] msg
    rw [List.append_nil] at h
    exact h
  simp only [metaFill, hleft, hright, hlast]
  rw [metaLeaves, putAll]
  have hlen : ((metaHdr left right m.opnd).length : ℤ) = 8 := by
    rw [metaHdr_length]
    rfl
  rw [hlen]
  exact congrArg (thenPut _ _) (funext fun msg => putAll_data _ _ _ _ msg)

theorem mem_metaLeaves {left right : RtnlMetaValue} {opnd : UInt8} {l : Leaf} (h : l ∈ metaLeaves left right opnd) :
    l = ⟨TCA_EM_META_HDR, metaHdr left right opnd⟩ ∨ (left.data ≠ [] ∧ l = ⟨TCA_EM_META_LVALUE, left.data⟩) ∨
      (right.data ≠ [] ∧ l = ⟨TCA_EM_META_RVALUE, right.data⟩) := by
  rw [metaLeaves, leafIf_data, leafIf_data, List.mem_cons, List.mem_append] at h
  refine h.imp_right (Or.imp (fun hl => ?_) fun hr => ?_)
  · split_ifs at hl with hnil
    · cases hl
    · exact ⟨hnil, List.mem_singleton.1 hl⟩
  · split_ifs at hr with hnil
    · cases hr
    · exact ⟨hnil, List.mem_singleton.1 hr⟩

theorem metaLeaves_wf {left right : RtnlMetaValue} {opnd : UInt8}
    (hsize : (encLeaves (metaLeaves left right opnd)).length ≤ 65535) : ∀ l ∈ metaLeaves left right opnd, l.WF := by
  intro l hl
  have hle := leaf_le_enc hl
  rw [encLeaf_length] at hle
  have hge := le_align4 (4 + l.payload.length)
  have htype : l.type < 65536 := by
    rcases mem_metaLeaves hl with rfl | ⟨-, rfl⟩ | ⟨-, rfl⟩
    · exact (by decide : TCA_EM_META_HDR < 65536)
    · exact (by decide : TCA_EM_META_LVALUE < 65536)
    · exact (by decide : TCA_EM_META_RVALUE < 65536)
  exact ⟨htype, by omega⟩

/-- **The data** come to stand behind the header. -/
theorem payload_put {p : Payload} (hp : p.Complete) (flags : UInt16) {m : NlMsg} (hm : Tidy m)
    (hsize : (p.bytes flags).length ≤ 65535) (hroom : Room m (p.bytes flags).length) :
    ∃ m', p.fill flags m = (m', 0) ∧ Appended m m' (p.bytes flags) := by
  cases p with
  | nbyteData n =>
    have hlen := nbyteCfg_length n
    have htail := nbyteTail_length n
    simp only [Payload.bytes, Payload.fill, fillRaw] at hroom ⊢
    by_cases hsimple : flags &&& TCF_EM_SIMPLE ≠ 0
    · rw [if_pos hsimple] at hroom ⊢
      rw [if_pos hsimple, List.take_append_of_le_length hlen.ge, List.take_of_length_le hlen.le]
      exact nlmsgAppend_room hm.size hroom
    · rw [if_neg hsimple] at hroom ⊢
      have hall : (n.cfg ++ n.tail).length ≤ NBYTE_DATALEN := by
        rw [List.length_append, hlen, htail]
        decide
      rw [if_neg hsimple, if_pos (by decide), List.take_of_length_le hall]
      exact nlmsgAppend_room hm.size hroom
  | metaData m' =>
    obtain ⟨hl, hr⟩ := hp
    obtain ⟨left, hleft⟩ := Option.isSome_iff_exists.1 hl
    obtain ⟨right, hright⟩ := Option.isSome_iff_exists.1 hr
    simp only [Payload.bytes, hleft, hright] at hsize hroom ⊢
    obtain ⟨m2, hput, hw⟩ := putAll_room (-NLE_NOMEM) (metaLeaves_wf hsize) hm hroom
    refine ⟨m2, ?_, hw.len, hw.size, hw.seg, hw.below⟩
    rw [Payload.fill, metaFill_eq hleft hright, hput]
  | textData t => exact textFill_room t hm.size hroom

theorem metaFill_incomplete {m : MetaData} (hm : ¬ (m.left.isSome ∧ m.right.isSome)) (msg : NlMsg) :
    metaFill m msg = (msg, -NLE_MISSING_ATTR) := by
  rw [metaFill]
  cases hleft : m.left with
  | none => rfl
  | some left =>
    cases hright : m.right with
    | none => rfl
    | some right =>
      refine absurd ?_ hm
      rw [hleft, hright]
      exact ⟨rfl, rfl⟩

/-- a match without its data is not written -/
theorem putEmatch_fails {fill : NlMsg → NlMsg × ℤ} (hfill : ∀ msg, (fill msg).2 < 0) (msg : NlMsg) (eIndex : UInt16)
    (hdr : List UInt8) : (putEmatch fill msg eIndex hdr).2 = -NLE_NOMEM := by
  unfold putEmatch
  generalize nlaNestStart msg (eIndex.toNat + 1) = start
  obtain ⟨m1, attr⟩ := start
  cases attr with
  | none => rfl
  | some attr =>
    rw [inNest_some]
    generalize nlmsgAppend m1 hdr 0 = r
    rw [thenPut]
    split_ifs with hr
    · rfl
    · rw [thenPut, if_pos (hfill r.1)]

/-- a comparison that lacks a value is not written -/
theorem fill_incomplete {e : KindEmatch} (he : ¬ e.payload.Complete) (msg : NlMsg) : (e.fill msg).2 = -NLE_NOMEM := by
  refine putEmatch_fails (fun m => ?_) msg e.eIndex e.hdr
  cases hp : e.payload with
  | nbyteData n =>
    rw [hp] at he
    exact absurd trivial he
  | metaData d =>
    rw [hp] at he
    rw [Payload.fill, metaFill_incomplete he]
    show -NLE_MISSING_ATTR < 0
    decide
  | textData t =>
    rw [hp] at he
    exact absurd trivial he

/-! ## What comes back -/

/-- what the way there and back keeps: a pattern only if it happens to be what stands behind the header in memory, the lower
bits of a type and a number, and no shift on the right -/
def Payload.Faithful (flags : UInt16) : Payload → Prop
  | nbyteData n => n.pattern = [] ∨ flags &&& TCF_EM_SIMPLE = 0 ∧ n.pattern <+: n.tail
  | metaData m => ∃ left right, m.left = some left ∧ m.right = some right ∧
      (left.mvType < 16 ∧ left.mvId ≤ TCF_META_ID_MASK) ∧ right.mvType < 16 ∧ right.mvId ≤ TCF_META_ID_MASK ∧ right.mvShift = 0
  | textData _ => True

theorem Payload.Faithful.complete {flags : UInt16} {p : Payload} (h : p.Faithful flags) : p.Complete := by
  cases p with
  | nbyteData n => trivial
  | metaData m =>
    obtain ⟨left, right, hleft, hright, -⟩ := h
    exact ⟨by rw [hleft]; rfl, by rw [hright]; rfl⟩
  | textData t => trivial

/-- the word of the two fields -/
theorem Nbyte.lenLayer_lt (n : Nbyte) : n.lenLayer < 65536 := by
  have h1 := n.pattern_len
  have h2 := n.layer.2
  unfold Nbyte.lenLayer
  split_ifs
  · omega
  · omega

/-- **A comparison of bytes** has its fields, and what was written behind them for a pattern. -/
theorem nbyteParse_cfg {buf : Mem} {data : ℕ} (len : ℕ) {n : Nbyte} (h : Seg buf data n.cfg) :
    nbyteParse buf data len = ⟨n.off, ⟨n.pattern.length, n.pattern_len⟩, n.layer, readBytes buf (data + 4) (len - 4)⟩ := by
  obtain ⟨hoff, hword⟩ := seg_append.1 h
  rw [u16Bytes_length] at hword
  have h16 : getU16 buf (data + 2) = n.lenLayer := by rw [hword.getU16, Nat.mod_eq_of_lt n.lenLayer_lt]
  have hlen := n.pattern_len
  have hlayer := n.layer.2
  have hlenEq : (if o.big then Fin.ofNat 4096 (n.lenLayer / 16) else Fin.ofNat 4096 n.lenLayer) =
      ⟨n.pattern.length, n.pattern_len⟩ := by
    unfold Nbyte.lenLayer
    split_ifs
    · refine Fin.ext ?_
      show (n.pattern.length * 16 + n.layer) / 16 % 4096 = n.pattern.length
      omega
    · refine Fin.ext ?_
      show (n.pattern.length + n.layer * 4096) % 4096 = n.pattern.length
      omega
  have hlayerEq : (if o.big then Fin.ofNat 16 n.lenLayer else Fin.ofNat 16 (n.lenLayer / 4096)) = n.layer := by
    unfold Nbyte.lenLayer
    split_ifs
    · refine Fin.ext ?_
      show (n.pattern.length * 16 + n.layer) % 16 = n.layer
      omega
    · refine Fin.ext ?_
      show (n.pattern.length + n.layer * 4096) / 4096 % 16 = n.layer
      omega
  simp only [nbyteParse, h16, hlenEq, hlayerEq, ofNat_getU16 hoff]

theorem nbyte_recovered_iff {buf : Mem} {data len : ℕ} {flags : UInt16} {n : Nbyte}
    (h : Seg buf data ((Payload.nbyteData n).bytes flags)) (hlen : len = align4 ((Payload.nbyteData n).bytes flags).length) :
    (Payload.nbyteData n).Recovered buf data len ↔ (Payload.nbyteData n).Faithful flags := by
  have hcfg := nbyteCfg_length n
  have htail := nbyteTail_length n
  rw [Payload.Recovered, Payload.Faithful]
  simp only [Payload.bytes] at h hlen
  by_cases hsimple : flags &&& TCF_EM_SIMPLE ≠ 0
  · rw [if_pos hsimple] at h hlen
    have hnone : len - 4 = 0 := by
      rw [hlen, hcfg]
      decide
    rw [nbyteParse_cfg len h, hnone]
    constructor
    · intro hsame
      left
      have hpat := hsame.pattern
      rwa [readBytes, List.range_zero, List.map_nil, List.take_nil, eq_comm] at hpat
    · rintro (hpat | ⟨hzero, -⟩)
      · refine ⟨rfl, rfl, rfl, ?_⟩
        show (readBytes buf (data + 4) 0).take n.pattern.length = n.pattern
        rw [hpat]
        rfl
      · exact absurd hzero hsimple
  · rw [if_neg hsimple] at h hlen
    rw [not_not] at hsimple
    obtain ⟨hhead, hrest⟩ := seg_append.1 h
    have hread : readBytes buf (data + 4) (len - 4) = n.tail := by
      have hsub : len - 4 = n.tail.length := by
        rw [hlen, List.length_append, hcfg, htail]
        decide
      rw [hcfg] at hrest
      rw [hsub]
      exact hrest.readBytes
    rw [nbyteParse_cfg len hhead, hread]
    constructor
    · intro hsame
      right
      exact ⟨hsimple, List.prefix_iff_eq_take.2 hsame.pattern.symm⟩
    · rintro (hpat | ⟨-, hpre⟩)
      · refine ⟨rfl, rfl, rfl, ?_⟩
        show n.tail.take n.pattern.length = n.pattern
        rw [hpat]
        rfl
      · exact ⟨rfl, rfl, rfl, (List.prefix_iff_eq_take.1 hpre).symm⟩

/-! ## Comparisons of metadata -/

omit o in
theorem lastOf_metaLeaves (hdr : List UInt8) (left right : List UInt8) :
    let ls := ⟨TCA_EM_META_HDR, hdr⟩ :: (leafIf (decide (left ≠ [])) TCA_EM_META_LVALUE left ++
      leafIf (decide (right ≠ [])) TCA_EM_META_RVALUE right)
    lastOf ls TCA_EM_META_HDR = some ⟨TCA_EM_META_HDR, hdr⟩ ∧
      lastOf ls TCA_EM_META_LVALUE = (if left = [] then none else some ⟨TCA_EM_META_LVALUE, left⟩) ∧
      lastOf ls TCA_EM_META_RVALUE = if right = [] then none else some ⟨TCA_EM_META_RVALUE, right⟩ := by
  dsimp only
  rw [leafIf_data, leafIf_data]
  split_ifs
  · exact ⟨rfl, rfl, rfl⟩
  · exact ⟨rfl, rfl, rfl⟩
  · exact ⟨rfl, rfl, rfl⟩
  · exact ⟨rfl, rfl, rfl⟩

/-- an attribute that is long enough for its policy -/
theorem validate_minlen {buf : Mem} {pos k maxtype : ℕ} {policy : ℕ → NlaPolicy} {l : Leaf} (hat : At buf pos l)
    (hpol : policy (l.type % 16384) = ⟨.unspec, k, 0⟩) (hk : k ≤ l.payload.length) : 0 ≤ validateNla buf pos maxtype policy := by
  have hlen := hat.len
  have hlt := getU16_lt buf pos
  have h32 : toU32 (nlaLen buf pos) = l.payload.length := by
    rw [hlen, toU32]
    rw [nlaLen, nlaLenField] at hlen
    omega
  simp only [validateNla, hat.type, hpol, h32, ne_eq, not_true_eq_false, if_false, false_and, reduceCtorEq]
  have hmin : ¬ l.payload.length < if ¬ k = 0 then k else 0 := by
    split_ifs
    · exact Nat.not_lt_zero _
    · exact not_lt.2 hk
  rw [if_neg hmin]
  split_ifs
  · exact le_rfl
  · exact le_rfl

/-- a value as it comes back -/
def RtnlMetaValue.carried (v : RtnlMetaValue) (shift : UInt8) : RtnlMetaValue :=
  ⟨v.mvType &&& 15, shift, v.mvId &&& TCF_META_ID_MASK, v.data⟩

omit o in
theorem or_and_distrib (a b c : UInt16) : (a ||| b) &&& c = a &&& c ||| b &&& c := by
  rw [← UInt16.toNat_inj]
  simp only [UInt16.toNat_and, UInt16.toNat_or]
  exact Nat.and_or_distrib_right ..

omit o in
theorem kind_id (v : RtnlMetaValue) : TCF_META_ID v.kind = v.mvId &&& TCF_META_ID_MASK := by
  have hmask : TCF_META_TYPE_MASK &&& TCF_META_ID_MASK = 0 := by decide
  rw [TCF_META_ID, RtnlMetaValue.kind, or_and_distrib, UInt16.and_assoc, UInt16.and_assoc, hmask, UInt16.and_self,
    UInt16.and_zero, UInt16.zero_or]

omit o in
theorem kind_type (v : RtnlMetaValue) : TCF_META_TYPE v.kind = v.mvType &&& 15 := by
  have hmask : TCF_META_ID_MASK &&& TCF_META_TYPE_MASK = 0 := by decide
  rw [TCF_META_TYPE, RtnlMetaValue.kind, or_and_distrib, UInt16.and_assoc, UInt16.and_assoc, hmask, UInt16.and_self,
    UInt16.and_zero, UInt16.or_zero]
  have hall : ∀ t : Fin 256, (((UInt8.ofFin t).toUInt16 <<< 12 &&& TCF_META_TYPE_MASK) >>> 12).toUInt8 =
      UInt8.ofFin t &&& 15 := by decide +kernel
  exact hall v.mvType.toFin

omit o in
theorem carried_eq_iff (v : RtnlMetaValue) (shift : UInt8) :
    v.carried shift = v ↔ v.mvType < 16 ∧ v.mvId ≤ TCF_META_ID_MASK ∧ v.mvShift = shift := by
  have htype : v.mvType &&& 15 = v.mvType ↔ v.mvType < 16 := by
    rw [← UInt8.toNat_inj, UInt8.toNat_and, UInt8.lt_iff_toNat_lt, show (15 : UInt8).toNat = 2 ^ 4 - 1 from rfl,
      Nat.and_two_pow_sub_one_eq_mod]
    exact Nat.mod_eq_iff_lt (by decide)
  have hid : v.mvId &&& TCF_META_ID_MASK = v.mvId ↔ v.mvId ≤ TCF_META_ID_MASK := by
    rw [← UInt16.toNat_inj, UInt16.toNat_and, UInt16.le_iff_toNat_le, show TCF_META_ID_MASK.toNat = 2 ^ 11 - 1 from rfl,
      Nat.and_two_pow_sub_one_eq_mod, Nat.mod_eq_iff_lt (by decide)]
    omega
  rw [RtnlMetaValue.ext_iff, ← htype, ← hid]
  simp only [RtnlMetaValue.carried, and_true, eq_comm (a := shift)]
  exact ⟨fun h => ⟨h.1, h.2.2, h.2.1⟩, fun h => ⟨h.1, h.2.2, h.2.1⟩⟩

/-- **A comparison of metadata** is found in its attributes, with what the header had room for. -/
theorem metaParse_leaves {buf : Mem} {data : ℕ} {left right : RtnlMetaValue} {opnd : UInt8}
    (h : Seg buf data (encLeaves (metaLeaves left right opnd)))
    (hsize : (encLeaves (metaLeaves left right opnd)).length ≤ 65535) :
    metaParse buf data (encLeaves (metaLeaves left right opnd)).length =
      .ok ⟨some (left.carried left.mvShift), some (right.carried 0), opnd⟩ := by
  have hok : ∀ l ∈ metaLeaves left right opnd, ∀ pos, At buf pos l → 0 ≤ validateNla buf pos TCA_EM_META_MAX metaPolicy := by
    intro l hl pos hat
    rcases mem_metaLeaves hl with rfl | ⟨hne, rfl⟩ | ⟨hne, rfl⟩
    · exact validate_minlen hat (k := 8) rfl (metaHdr_length left right opnd).ge
    · exact validate_minlen hat (k := 1) rfl (List.length_pos_iff.2 hne)
    · exact validate_minlen hat (k := 1) rfl (List.length_pos_iff.2 hne)
  have hcount := length_le_enc (metaLeaves left right opnd)
  obtain ⟨tb, hparse, hidx⟩ := parse_leaves (metaLeaves_wf hsize) hok h (by omega)
    (n := (encLeaves (metaLeaves left right opnd)).length + 1) (by omega)
  obtain ⟨hhdr, hleft, hright⟩ := lastOf_metaLeaves (metaHdr left right opnd) left.data right.data
  have hidxHdr := hidx TCA_EM_META_HDR (by decide)
  have hidxLeft := hidx TCA_EM_META_LVALUE (by decide)
  have hidxRight := hidx TCA_EM_META_RVALUE (by decide)
  rw [metaLeaves] at hidxHdr hidxLeft hidxRight
  rw [hhdr] at hidxHdr
  rw [hleft] at hidxLeft
  rw [hright] at hidxRight
  obtain ⟨a, ha, hat⟩ := hidxHdr
  obtain ⟨hlk, h1⟩ := seg_append.1 hat.data
  obtain ⟨hlow, h2⟩ := seg_append.1 h1
  obtain ⟨hrk, hhigh⟩ := seg_append.1 h2
  simp only [u16Bytes_length, List.length_cons, List.length_nil, add_assoc, Nat.reduceAdd] at hlow hrk hhigh
  have hshift : buf (nlaData a + 2) = left.mvShift := hlow 0 (by simp)
  have hopnd : buf (nlaData a + 3) = opnd := hlow 1 (by simp)
  have hzero : buf (nlaData a + 6) = 0 := hhigh 0 (by simp)
  have hvalue : ∀ {t : ℕ} {bytes : List UInt8}, (bytes = [] → tb t = none) →
      (bytes ≠ [] → ∃ pos, tb t = some pos ∧ At buf pos ⟨t, bytes⟩) → metaValueData buf (tb t) = bytes := by
    intro t bytes hnone hsome
    by_cases hnil : bytes = []
    · rw [hnone hnil, hnil]
      rfl
    · obtain ⟨pos, htb, hpos⟩ := hsome hnil
      rw [htb, metaValueData, hpos.len, Int.toNat_natCast]
      exact hpos.bytes
  have hleftData : metaValueData buf (tb TCA_EM_META_LVALUE) = left.data := by
    apply hvalue
    · intro hnil
      rw [if_pos hnil] at hidxLeft
      exact hidxLeft
    · intro hne
      rw [if_neg hne] at hidxLeft
      exact hidxLeft
  have hrightData : metaValueData buf (tb TCA_EM_META_RVALUE) = right.data := by
    apply hvalue
    · intro hnil
      rw [if_pos hnil] at hidxRight
      exact hidxRight
    · intro hne
      rw [if_neg hne] at hidxRight
      exact hidxRight
  simp only [metaParse, hparse, Option.getD_some, lt_irrefl, if_false, ha, metaValue, hleftData, hrightData,
    ofNat_getU16 hlk, ofNat_getU16 hrk, kind_id, kind_type, hshift, hopnd, add_assoc, Nat.reduceAdd, hzero]
  rfl

theorem meta_recovered_iff {buf : Mem} {data : ℕ} {flags : UInt16} {m : MetaData} (hp : (Payload.metaData m).Complete)
    (h : Seg buf data ((Payload.metaData m).bytes flags)) (hsize : ((Payload.metaData m).bytes flags).length ≤ 65535) :
    (Payload.metaData m).Recovered buf data ((Payload.metaData m).bytes flags).length ↔ (Payload.metaData m).Faithful flags := by
  obtain ⟨left, hleft⟩ := Option.isSome_iff_exists.1 hp.1
  obtain ⟨right, hright⟩ := Option.isSome_iff_exists.1 hp.2
  obtain ⟨l, r, opnd⟩ := m
  obtain rfl : l = some left := hleft
  obtain rfl : r = some right := hright
  rw [Payload.Recovered, Payload.Faithful]
  simp only [Payload.bytes] at h hsize ⊢
  rw [metaParse_leaves h hsize]
  constructor
  · intro heq
    injection heq with heq
    injection heq with hl hr
    injection hl with hl
    injection hr with hr
    obtain ⟨htype, hid, -⟩ := (carried_eq_iff left _).1 hl
    obtain ⟨htype', hid', hshift⟩ := (carried_eq_iff right 0).1 hr
    exact ⟨left, right, rfl, rfl, ⟨htype, hid⟩, htype', hid', hshift⟩
  · rintro ⟨left', right', hl, hr, ⟨htype, hid⟩, hrest⟩
    obtain rfl := Option.some.inj hl
    obtain rfl := Option.some.inj hr
    rw [(carried_eq_iff left _).2 ⟨htype, hid, rfl⟩, (carried_eq_iff right 0).2 hrest]

/-! ## There and back -/

/-- what the parser is given: the data, and the padding at the end of the attribute -/
theorem recovered_iff {buf : Mem} {data : ℕ} {flags : UInt16} {p : Payload} (hp : p.Complete)
    (h : Seg buf data (p.bytes flags)) (hsize : (p.bytes flags).length ≤ 65535) :
    p.Recovered buf data (align4 (p.bytes flags).length) ↔ p.Faithful flags := by
  cases p with
  | nbyteData n => exact nbyte_recovered_iff h rfl
  | metaData m =>
    have hmod : ((Payload.metaData m).bytes flags).length % 4 = 0 := by
      obtain ⟨left, hleft⟩ := Option.isSome_iff_exists.1 hp.1
      obtain ⟨right, hright⟩ := Option.isSome_iff_exists.1 hp.2
      simp only [Payload.bytes, hleft, hright]
      exact encLeaves_mod _
    rw [align4_of_mod hmod]
    exact meta_recovered_iff hp h hsize
  | textData t =>
    refine iff_of_true (textParse_cfg _ h ?_) trivial
    show TEXT_HDRLEN + t.pattern.length ≤ align4 (t.cfg ++ t.pattern).length
    rw [List.length_append, cfg_length]
    exact le_align4 _

/-- a match with its data is written, and what the parser makes of it depends on what the way keeps -/
theorem written_recovered_iff {msg : NlMsg} (hm : Tidy msg) {e : KindEmatch} (hp : e.payload.Complete) (hsize : e.size ≤ 65535)
    (hroom : Room msg e.size) : ∃ msg', e.fill msg = (msg', 0) ∧
      (e.payload.Recovered msg'.buf (nlaData msg.nlmsgLen + 8) (toU64 (nlaLen msg'.buf msg.nlmsgLen) - 8) ↔
        e.payload.Faithful e.eFlags) := by
  have hhdr : e.hdr.length = 8 := hdr_length _
  have hge := le_align4 (e.hdr ++ e.payload.bytes e.eFlags).length
  have hbody : (e.hdr ++ e.payload.bytes e.eFlags).length = 8 + (e.payload.bytes e.eFlags).length := by
    rw [List.length_append, hhdr]
  have hle := hsize
  rw [KindEmatch.size] at hle
  obtain ⟨t, pad, m', ht, hpad, hput, hw⟩ := put_one hm (e.payload.fill e.eFlags) e.eIndex hhdr hsize hroom
    fun m hm hroom => payload_put hp e.eFlags hm (by omega) hroom
  have hwf : Leaf.WF ⟨32768 + t, (e.hdr ++ e.payload.bytes e.eFlags) ++ pad⟩ := by
    refine ⟨show 32768 + t < 65536 by omega, ?_⟩
    show 4 + ((e.hdr ++ e.payload.bytes e.eFlags) ++ pad).length ≤ 65535
    rw [List.length_append, hpad]
    omega
  have hat : At m'.buf msg.nlmsgLen ⟨32768 + t, (e.hdr ++ e.payload.bytes e.eFlags) ++ pad⟩ := (at_of_seg hwf hw.seg).1
  obtain ⟨hseg, -⟩ := seg_append.1 hat.data
  obtain ⟨-, hdata⟩ := seg_append.1 hseg
  rw [hhdr] at hdata
  have hlen : toU64 (nlaLen m'.buf msg.nlmsgLen) - 8 = align4 (e.payload.bytes e.eFlags).length := by
    rw [hat.len, toU64, List.length_append, hpad]
    unfold align4 at *
    omega
  refine ⟨m', hput, ?_⟩
  rw [hlen]
  exact recovered_iff hp hdata (by omega)

/-- **A match there and back**, in a message with room for it, and no longer than an attribute can be: it comes back with
the same configuration exactly when its data are those that the way keeps. -/
theorem kind_round_trip_iff {msg : NlMsg} (hm : Tidy msg) (e : KindEmatch) (hsize : e.size ≤ 65535) (hroom : Room msg e.size) :
    RoundTrips msg e ↔ e.payload.Faithful e.eFlags := by
  by_cases hp : e.payload.Complete
  · obtain ⟨msg', hfill, hiff⟩ := written_recovered_iff hm hp hsize hroom
    rw [← hiff]
    constructor
    · rintro ⟨msg2, hfill2, hrec⟩
      have hsame : msg2 = msg' := congrArg Prod.fst (hfill2.symm.trans hfill)
      rwa [hsame] at hrec
    · intro hrec
      exact ⟨msg', hfill, hrec⟩
  · refine iff_of_false ?_ fun h => hp h.complete
    rintro ⟨msg', hfill, -⟩
    have hcode : (0 : ℤ) = -NLE_NOMEM := by
      rw [← fill_incomplete hp msg, hfill]
    exact absurd hcode (by decide)

end

/-- two values, of which the one on the left is shifted -/
def sampleMeta : KindEmatch where
  eId := 0
  eFlags := 0
  eIndex := 0
  payload := .metaData ⟨some ⟨1, 4, 4, [255, 0, 0, 0, 0, 0, 0, 0]⟩, some ⟨1, 0, 0, [7, 0, 0, 0, 0, 0, 0, 0]⟩, 0⟩

/-- a comparison with metadata comes back -/
theorem kind_round_trip_sample : ∃ m, nlmsgAllocSize 70000 = some m ∧ @RoundTrips ⟨false⟩ m sampleMeta := by
  let _ : HostOrder := ⟨false⟩
  obtain ⟨m, halloc, hm, hroom⟩ := sample_message
  have hsize : sampleMeta.size = 48 := by decide
  refine ⟨m, halloc, (kind_round_trip_iff hm sampleMeta (by rw [hsize]; decide) ?_).2 ?_⟩
  · rw [hsize]
    exact room_mono hroom (by decide)
  · exact ⟨_, _, rfl, rfl, by decide, by decide, by decide, rfl⟩

/-- a comparison with the byte 1, whose pattern is somewhere -/
def oneByte : KindEmatch where
  eId := 0
  eFlags := 0
  eIndex := 0
  payload := .nbyteData ⟨0, 0, [1], by decide, 4096⟩

/-- **Its pattern is not written**; what comes back compares with a byte of padding. -/
theorem pattern_lost : ∃ m, nlmsgAllocSize 70000 = some m ∧ ¬ @RoundTrips ⟨false⟩ m oneByte := by
  let _ : HostOrder := ⟨false⟩
  obtain ⟨m, halloc, hm, hroom⟩ := sample_message
  have hsize : oneByte.size = 28 := by decide
  obtain ⟨m', hfill, hiff⟩ := written_recovered_iff hm (e := oneByte) trivial (by rw [hsize]; decide)
    (by rw [hsize]; exact room_mono hroom (by decide))
  refine ⟨m, halloc, ?_⟩
  rintro ⟨m2, hfill2, hrec⟩
  have hsame : m2 = m' := congrArg Prod.fst (hfill2.symm.trans hfill)
  rw [hsame] at hrec
  rcases hiff.1 hrec with hnil | ⟨-, hprefix⟩
  · cases hnil
  · obtain ⟨rest, hrest⟩ := hprefix
    have hhead : (1 : UInt8) = 0 := (List.cons.inj hrest).1
    exact absurd hhead (by decide)

end Libnl.EmatchKinds
