/-
Netlink messages (`lib/msg.c`, the alignment macros of `netlink-kernel.h`).

A message is its allocated size, the header fields and the bytes of its buffer. Pointers into the buffer are offsets
from `nm_nlh`; the header occupies the first 16 bytes and its fields are kept beside the buffer. `nlmsg_len` is a 32-bit
field, `nm_size` a `size_t`, and the arithmetic on them is the one of the C types: `size_t` in `nlmsg_reserve`, `int` in
`nlmsg_next`. `bug` records that `BUG()` was reached; what a message holds after that has no meaning.

An allocation fails for sizes no object can have (above `PTRDIFF_MAX`), so every message has `nm_size < 2^63`.
-/
import Mathlib.Tactic
import Libnl.Core.Bytes

namespace Libnl.Msg

open Bytes

/-! ## Error codes (`netlink/errno.h`) -/

def NLE_FAILURE : ℤ := 1
def NLE_INTR : ℤ := 2
def NLE_BAD_SOCK : ℤ := 3
def NLE_AGAIN : ℤ := 4
def NLE_NOMEM : ℤ := 5
def NLE_EXIST : ℤ := 6
def NLE_INVAL : ℤ := 7
def NLE_RANGE : ℤ := 8
def NLE_MSGSIZE : ℤ := 9
def NLE_OPNOTSUPP : ℤ := 10
def NLE_AF_NOSUPPORT : ℤ := 11
def NLE_OBJ_NOTFOUND : ℤ := 12
def NLE_NOATTR : ℤ := 13
def NLE_MISSING_ATTR : ℤ := 14
def NLE_AF_MISMATCH : ℤ := 15
def NLE_SEQ_MISMATCH : ℤ := 16
def NLE_MSG_OVERFLOW : ℤ := 17
def NLE_MSG_TRUNC : ℤ := 18
def NLE_NOADDR : ℤ := 19
def NLE_SRCRT_NOSUPPORT : ℤ := 20
def NLE_MSG_TOOSHORT : ℤ := 21
def NLE_MSGTYPE_NOSUPPORT : ℤ := 22
def NLE_OBJ_MISMATCH : ℤ := 23
def NLE_BUSY : ℤ := 25
def NLE_PROTO_MISMATCH : ℤ := 26
def NLE_NOACCESS : ℤ := 27
def NLE_PERM : ℤ := 28
def NLE_NODEV : ℤ := 31
def NLE_DUMP_INTR : ℤ := 33
def NLE_ATTRSIZE : ℤ := 34

/-! ## Messages -/

structure NlMsg where
  /-- `nm_size`, bytes allocated for the message -/
  nmSize : ℕ
  nlmsgLen : ℕ
  nlmsgType : ℕ
  nlmsgFlags : ℕ
  nlmsgSeq : ℕ
  nlmsgPid : ℕ
  /-- the bytes at `nm_nlh` -/
  buf : Mem
  /-- `BUG()` was reached -/
  bug : Bool

def NLMSG_HDRLEN : ℕ := 16

/-- `NLMSG_ALIGN` of a 32-bit length -/
def nlmsgAlign (len : ℕ) : ℕ := (len + 3) % 4294967296 / 4 * 4

theorem nlmsgAlign_eq {len : ℕ} (h : len + 3 < 4294967296) : nlmsgAlign len = align4 len := by
  unfold nlmsgAlign align4; omega

def nlmsgTail (n : NlMsg) : ℕ := nlmsgAlign n.nlmsgLen

/-- `nlmsg_data`: the payload starts after the header -/
def nlmsgData : ℕ := NLMSG_HDRLEN

/-- `nlmsg_datalen`: an unsigned subtraction, returned as an `int` -/
def nlmsgDatalen (nlmsgLen : ℕ) : ℤ := toInt32 (nlmsgLen - NLMSG_HDRLEN)

/-- `NLMSG_ALIGN` of an `int` -/
def alignInt (x : ℤ) : ℤ := toInt32 ((x + 3) / 4 * 4)

def nlmsgAttrdata (hdrlen : ℤ) : ℕ := (nlmsgData + alignInt hdrlen).toNat

def nlmsgAttrlen (nlmsgLen : ℕ) (hdrlen : ℤ) : ℤ := max (toInt32 (nlmsgDatalen nlmsgLen - alignInt hdrlen)) 0

/-! ## Allocation -/

/-- `PTRDIFF_MAX`: no object is larger -/
def PTRDIFF_MAX : ℕ := 9223372036854775807

/-- `__nlmsg_alloc` -/
def nlmsgAllocRaw (len : ℕ) : Option NlMsg :=
  let len := if len < 16 then 16 else len
  if PTRDIFF_MAX < len then none
  else some ⟨len, NLMSG_HDRLEN, 0, 0, 0, 0, fun _ => 0, false⟩

/-- `nlmsg_alloc`; the default size is a variable of the library -/
def nlmsgAlloc (defaultMsgSize : ℕ) : Option NlMsg := nlmsgAllocRaw defaultMsgSize

def nlmsgAllocSize (max : ℕ) : Option NlMsg := nlmsgAllocRaw max

/-- `nlmsg_alloc_simple`, `nlmsg_inherit` from a header with this type and these flags -/
def nlmsgAllocSimple (defaultMsgSize nlmsgtype flags : ℕ) : Option NlMsg :=
  (nlmsgAlloc defaultMsgSize).map fun n => { n with nlmsgType := nlmsgtype, nlmsgFlags := flags }

/-- a message as the allocators hand it out -/
structure Fresh (n : NlMsg) : Prop where
  len : n.nlmsgLen = 16
  ge : 16 ≤ n.nmSize
  le : n.nmSize ≤ PTRDIFF_MAX
  nobug : n.bug = false

theorem fresh_alloc {len : ℕ} {n : NlMsg} (h : nlmsgAllocRaw len = some n) : Fresh n := by
  simp only [nlmsgAllocRaw] at h
  split_ifs at h with h1 h2
  all_goals
    cases h
    refine ⟨rfl, ?_, ?_, rfl⟩ <;> simp only [PTRDIFF_MAX] at * <;> omega

theorem fresh_alloc_simple {d t f : ℕ} {n : NlMsg} (h : nlmsgAllocSimple d t f = some n) : Fresh n := by
  obtain ⟨m, hm, rfl⟩ := Option.map_eq_some_iff.1 h
  have hf := fresh_alloc hm
  exact ⟨hf.len, hf.ge, hf.le, hf.nobug⟩

/-! ## Appending -/

/-- number of bytes `nlmsg_reserve` accounts for: `(len + (pad - 1)) & ~(pad - 1)` in `size_t`, with an `int` pad -/
def reserveLen (len : ℕ) (pad : ℤ) : ℕ :=
  if pad = 0 then len else toU64 (len + toInt32 (pad - 1)) &&& toU64 (-(toInt32 (pad - 1)) - 1)

/-- `nlmsg_reserve`: the offset of the reserved room, or none -/
def nlmsgReserve (n : NlMsg) (len : ℕ) (pad : ℤ) : NlMsg × Option ℕ :=
  if n.nmSize < len then (n, none)
  else
    let tlen := reserveLen len pad
    if n.nmSize < (tlen + n.nlmsgLen) % 18446744073709551616 then (n, none)
    else
      ({ n with
          nlmsgLen := (n.nlmsgLen + tlen) % 4294967296
          buf := if len < tlen then zero n.buf (n.nlmsgLen + len) (tlen - len) else n.buf },
        some n.nlmsgLen)

/-- `nlmsg_append` -/
def nlmsgAppend (n : NlMsg) (data : List UInt8) (pad : ℤ) : NlMsg × ℤ :=
  match nlmsgReserve n data.length pad with
  | (n', none) => (n', -NLE_NOMEM)
  | (n', some tmp) => ({ n' with buf := write n'.buf tmp data }, 0)

/-! ## Streams of messages -/

/-- `nlmsg_ok`: the third comparison is made between unsigned integers -/
def nlmsgOk [HostOrder] (buf : Mem) (pos : ℕ) (remaining : ℤ) : Bool :=
  decide (16 ≤ remaining) && decide (16 ≤ getU32 buf pos) && decide (getU32 buf pos ≤ toU32 remaining)

/-- `nlmsg_next`: the aligned length is converted to `int` -/
def nlmsgNext [HostOrder] (buf : Mem) (pos : ℕ) (remaining : ℤ) : ℕ × ℤ :=
  let totlen := toInt32 (nlmsgAlign (getU32 buf pos))
  -- a pointer below the buffer is never dereferenced: the count is negative then
  ((pos + totlen).toNat, toInt32 (remaining - totlen))

end Libnl.Msg
