/-
Netlink attributes (`lib/attr.c`, the iterators of `netlink/attr.h`).

An attribute is a 4-byte header, the 16-bit length (header included) and the 16-bit type, and its payload. It is known by
the offset of its header. Readers take the memory, the offset and, where the source has one, the count of bytes that
remain; builders take and return the message. A function of the source that returns a pointer returns the offset, `none`
for `NULL`.

Lengths are `int` in the interface and 16 bits wide in the header: the conversions stand where the source makes them.
-/
import Mathlib.Tactic
import Libnl.Core.Bytes
import Libnl.Core.Walk
import Libnl.Message.Msg

namespace Libnl.Attr

open Bytes Walk Msg

variable [HostOrder]

def NLA_HDRLEN : ℕ := 4
def NLA_F_NESTED : ℕ := 32768

/-! ## Size calculation -/

def nlaAttrSize (payload : ℤ) : ℤ := toInt32 (NLA_HDRLEN + payload)

def nlaTotalSize (payload : ℤ) : ℤ := alignInt (nlaAttrSize payload)

def nlaPadlen (payload : ℤ) : ℤ := toInt32 (nlaTotalSize payload - nlaAttrSize payload)

/-! ## Parsing -/

/-- the length field of the header at `pos` -/
def nlaLenField (buf : Mem) (pos : ℕ) : ℕ := getU16 buf pos

/-- the type field of the header at `pos`, flags included -/
def nlaTypeField (buf : Mem) (pos : ℕ) : ℕ := getU16 buf (pos + 2)

/-- `nla_type`: the two flag bits are masked out -/
def nlaType (buf : Mem) (pos : ℕ) : ℕ := nlaTypeField buf pos % 16384

def nlaIsNested (buf : Mem) (pos : ℕ) : Bool := decide (NLA_F_NESTED ≤ nlaTypeField buf pos)

def nlaData (pos : ℕ) : ℕ := pos + NLA_HDRLEN

def nlaLen (buf : Mem) (pos : ℕ) : ℤ := nlaLenField buf pos - NLA_HDRLEN

def nlaOk (buf : Mem) (pos : ℕ) (remaining : ℤ) : Bool :=
  decide (4 ≤ remaining) && decide (4 ≤ nlaLenField buf pos) && decide ((nlaLenField buf pos : ℤ) ≤ remaining)

def nlaNext (buf : Mem) (pos : ℕ) (remaining : ℤ) : ℕ × ℤ :=
  let totlen := align4 (nlaLenField buf pos)
  (pos + totlen, toInt32 (remaining - totlen))

/-! ## Validation -/

/-- basic attribute data types; a policy never holds another value -/
inductive NlaDataType where
  | unspec | u8 | u16 | u32 | u64 | string | flag | msecs | nested | nestedCompat | nulString | binary
  | s8 | s16 | s32 | s64
deriving DecidableEq, Repr

structure NlaPolicy where
  type : NlaDataType
  minlen : ℕ
  maxlen : ℕ
deriving DecidableEq, Repr

/-- the table `nla_attr_minlen`; types it does not list are zero -/
def nlaAttrMinlen : NlaDataType → ℕ
  | .u8 => 1
  | .u16 => 2
  | .u32 => 4
  | .u64 => 8
  | .string => 1
  | _ => 0

def validateNla (buf : Mem) (nla : ℕ) (maxtype : ℤ) (policy : ℕ → NlaPolicy) : ℤ :=
  let type := nlaType buf nla
  if maxtype < type then 0
  else
    let pt := policy type
    let minlen := if pt.minlen ≠ 0 then pt.minlen else if pt.type ≠ .unspec then nlaAttrMinlen pt.type else 0
    if toU32 (nlaLen buf nla) < minlen then -NLE_RANGE
    else if pt.maxlen ≠ 0 ∧ (pt.maxlen : ℤ) < nlaLen buf nla then -NLE_RANGE
    else if pt.type = .string ∧ buf (nlaData nla + (nlaLen buf nla).toNat - 1) ≠ 0 then -NLE_INVAL
    else 0

/-! ## Iteration -/

/-- `nla_for_each_attr` with a loop body that may leave the loop -/
def nlaForEachAttr {σ ρ : Type} (buf : Mem) (body : σ → ℕ → Except ρ σ) (n : ℕ) (s : σ) (head : ℕ) (len : ℤ) :
    Option (Except ρ σ) :=
  forEach (nlaOk buf) (nlaNext buf) body n s head len

/-- the index array `tb`, from attribute types to attributes -/
abbrev Index := ℕ → Option ℕ

/-- loop body of `nla_parse` -/
def nlaParseBody (buf : Mem) (maxtype : ℤ) (policy : Option (ℕ → NlaPolicy)) (tb : Index) (nla : ℕ) :
    Except (ℤ × Index) Index :=
  let type := nlaType buf nla
  if maxtype < type then .ok tb
  else
    let err := match policy with
      | none => 0
      | some p => validateNla buf nla maxtype p
    if err < 0 then .error (err, tb) else .ok (Function.update tb type (some nla))

/-- `nla_parse`: the return code and the index, if the loop ends within `n` iterations -/
def nlaParse (n : ℕ) (buf : Mem) (maxtype : ℤ) (head : ℕ) (len : ℤ) (policy : Option (ℕ → NlaPolicy)) :
    Option (ℤ × Index) :=
  (nlaForEachAttr buf (nlaParseBody buf maxtype policy) n (fun _ => none) head len).map fun
    | .error e => e
    | .ok tb => (0, tb)

/-- `nla_find` -/
def nlaFind (n : ℕ) (buf : Mem) (head : ℕ) (len : ℤ) (attrtype : ℤ) : Option (Option ℕ) :=
  (nlaForEachAttr buf (fun (_ : Unit) nla => if (nlaType buf nla : ℤ) = attrtype then .error nla else .ok ()) n ()
    head len).map fun
    | .error nla => some nla
    | .ok _ => none

/-! ## Building -/

/-- the attribute header with this length and type -/
def nlaHeader (len type : ℕ) : List UInt8 := u16Bytes len ++ u16Bytes type

/-- `nla_reserve` -/
def nlaReserve (msg : NlMsg) (attrtype attrlen : ℤ) : NlMsg × Option ℕ :=
  if attrlen < 0 then (msg, none)
  else
    let tlen := toInt32 (nlmsgAlign msg.nlmsgLen + nlaTotalSize attrlen)
    if msg.nmSize < toU64 tlen then (msg, none)
    else
      let nla := nlmsgTail msg
      let nlaLen := toU16 (nlaAttrSize attrlen)
      let buf := write msg.buf nla (nlaHeader nlaLen (toU16 attrtype))
      -- the padding is cleared behind the length as stored
      let buf := if attrlen ≠ 0 then zero buf (nla + nlaLen) (nlaPadlen attrlen).toNat else buf
      ({ msg with buf := buf, nlmsgLen := toU32 tlen }, some nla)

/-- `nla_put`; `data` points to at least `datalen` bytes -/
def nlaPut (msg : NlMsg) (attrtype datalen : ℤ) (data : List UInt8) : NlMsg × ℤ :=
  match nlaReserve msg attrtype datalen with
  | (msg, none) => (msg, if datalen < 0 then -NLE_INVAL else -NLE_NOMEM)
  | (msg, some nla) =>
    if 0 < datalen then ({ msg with buf := write msg.buf (nlaData nla) (data.take datalen.toNat) }, 0) else (msg, 0)

theorem nlaPut_some {m m' : NlMsg} {t n : ℤ} {nla : ℕ} (data : List UInt8) (h : nlaReserve m t n = (m', some nla)) :
    nlaPut m t n data =
      if 0 < n then ({ m' with buf := write m'.buf (nlaData nla) (data.take n.toNat) }, 0) else (m', 0) := by
  unfold nlaPut
  rw [h]

theorem nlaPut_none {m m' : NlMsg} {t n : ℤ} (data : List UInt8) (h : nlaReserve m t n = (m', none)) :
    nlaPut m t n data = (m', if n < 0 then -NLE_INVAL else -NLE_NOMEM) := by
  unfold nlaPut
  rw [h]

/-- `nla_nest_start`: the type field takes the low 16 bits of `NLA_F_NESTED | attrtype` -/
def nlaNestStart (msg : NlMsg) (attrtype : ℤ) : NlMsg × Option ℕ :=
  let start := nlmsgTail msg
  let r := nlaPut msg ((NLA_F_NESTED ||| toU16 attrtype : ℕ) : ℤ) 0 []
  (r.1, if r.2 < 0 then none else some start)

theorem nlaNestStart_of_put {m m' : NlMsg} {t err : ℤ}
    (h : nlaPut m ((NLA_F_NESTED ||| toU16 t : ℕ) : ℤ) 0 [] = (m', err)) :
    nlaNestStart m t = (m', if err < 0 then none else some (nlmsgTail m)) := by
  unfold nlaNestStart
  rw [h]

/-- `nla_nest_cancel` -/
def nlaNestCancel (msg : NlMsg) (attr : ℕ) : NlMsg :=
  let len : ℤ := nlmsgTail msg - attr
  if len < 0 then { msg with bug := true }
  else if 0 < len then
    let msg := { msg with nlmsgLen := toU32 (msg.nlmsgLen - len) }
    { msg with buf := zero msg.buf (nlmsgTail msg) len.toNat }
  else msg

def USHRT_MAX : ℕ := 65535

/-- `_nest_end` -/
def nestEnd (msg : NlMsg) (start : ℕ) (keepEmpty : Bool) : NlMsg × ℤ :=
  let len := toU64 (nlmsgTail msg - start)
  if USHRT_MAX < len ∨ (keepEmpty = false ∧ len = NLA_HDRLEN) then
    (nlaNestCancel msg start, if len = NLA_HDRLEN then 0 else -NLE_ATTRSIZE)
  else
    let msg := { msg with buf := write msg.buf start (u16Bytes len) }
    let pad := toU32 (nlmsgAlign msg.nlmsgLen - msg.nlmsgLen)
    if 0 < pad then
      match nlmsgReserve msg pad 0 with
      | (msg, none) => ({ msg with bug := true }, 0)
      | (msg, some _) => (msg, 0)
    else (msg, 0)

def nlaNestEnd (msg : NlMsg) (start : ℕ) : NlMsg × ℤ := nestEnd msg start false

def nlaNestEndKeepEmpty (msg : NlMsg) (start : ℕ) : NlMsg × ℤ := nestEnd msg start true

end Libnl.Attr
