/-
Abstract addresses (`lib/addr.c`).
-/
import Mathlib.Tactic
import Libnl.Message.Fields

namespace Libnl.Addr

open Bytes Fields

structure NlAddr where
  aFamily : ℤ
  aPrefixlen : ℤ
  /-- the binary address; `a_len` is its length -/
  aAddr : List UInt8
deriving DecidableEq, Repr

/-! Address families, as the `int` that `a_family` is -/

namespace Family

def AF_INET : ℤ := 2
def AF_INET6 : ℤ := 10
def AF_LLC : ℤ := 26
def AF_MPLS : ℤ := 28

end Family

/-- `nl_addr_build`; an MPLS address is a 20-bit label -/
def nlAddrBuild (family : ℤ) (buf : List UInt8) : NlAddr :=
  ⟨family, if family = Family.AF_MPLS then 20 else buf.length * 8, buf⟩

/-- the address with the prefix length -/
def nlAddrSetPrefixlen (addr : NlAddr) (prefixlen : BitVec 8) : NlAddr := { addr with aPrefixlen := prefixlen.toNat }

/-- `nl_addr_alloc_attr` -/
def nlAddrAllocAttr [HostOrder] (buf : Mem) (nla : ℕ) (family : ℤ) : NlAddr := nlAddrBuild family (nlaBytes buf nla)

/-- `nl_addr_cmp` is not zero; two `NULL` pointers are equal. Prefix lengths are compared only when there are addresses
to compare. -/
def nlAddrCmp : Option NlAddr → Option NlAddr → Bool
  | none, none => false
  | none, some _ => true
  | some _, none => true
  | some a, some b =>
    decide (a.aFamily ≠ b.aFamily) || decide (a.aAddr ≠ b.aAddr) ||
      (decide (a.aAddr ≠ []) && decide (a.aPrefixlen ≠ b.aPrefixlen))

/-- `nl_addr_cmp_prefix` is not zero: the addresses differ within the shorter of their prefixes. It is called for two
addresses. -/
def nlAddrCmpPrefix : Option NlAddr → Option NlAddr → Bool
  | some a, some b =>
    if a.aFamily ≠ b.aFamily then true
    else
      let len := (min a.aPrefixlen b.aPrefixlen).toNat
      let bytes := len / 8
      if a.aAddr.take bytes ≠ b.aAddr.take bytes then true
      else
        let mask := (0xFF00 >>> (len % 8)) &&& 0xFF
        decide (len % 8 ≠ 0) &&
          decide ((a.aAddr.getD bytes 0).toNat &&& mask ≠ (b.aAddr.getD bytes 0).toNat &&& mask)
  | _, _ => true

/-- what `nl_addr_cmp` looks at -/
def addrKey (a : Option NlAddr) : Option (ℤ × List UInt8 × ℤ) :=
  a.map fun a => (a.aFamily, a.aAddr, if a.aAddr = [] then 0 else a.aPrefixlen)

theorem nlAddrCmp_eq_false_iff (a b : Option NlAddr) : nlAddrCmp a b = false ↔ addrKey a = addrKey b := by
  cases a with
  | none =>
    cases b with
    | none => simp [nlAddrCmp]
    | some b => simp [nlAddrCmp, addrKey]
  | some a =>
    cases b with
    | none => simp [nlAddrCmp, addrKey]
    | some b =>
      simp only [nlAddrCmp, addrKey, Option.map_some, Option.some.injEq, Prod.mk.injEq, Bool.or_eq_false_iff,
        Bool.and_eq_false_iff, decide_eq_false_iff_not, not_not, and_assoc]
      refine and_congr_right fun _ => and_congr_right fun haddr => ?_
      by_cases hempty : a.aAddr = []
      · rw [if_pos hempty, if_pos (haddr ▸ hempty)]
        simp [hempty]
      · rw [if_neg hempty, if_neg (haddr ▸ hempty)]
        simp [hempty]

end Libnl.Addr
