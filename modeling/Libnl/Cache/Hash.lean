/-
The hash of a byte string (`nl_hash` of `lib/hash.c`), as on a little-endian host.

`hashlittle` adds twelve bytes at a time to three words and mixes them. It reads them as words where the key is aligned, and
as half-words or bytes otherwise; on a little-endian host all three come to the same.
-/
import Mathlib.Tactic

namespace Libnl.Hash

structure State where
  a : BitVec 32
  b : BitVec 32
  c : BitVec 32
deriving DecidableEq, Repr

def rot (x : BitVec 32) (k : ℕ) : BitVec 32 := x <<< k ||| x >>> (32 - k)

/-- `mix` -/
def mix (s : State) : State :=
  let a := (s.a - s.c) ^^^ rot s.c 4
  let c := s.c + s.b
  let b := (s.b - a) ^^^ rot a 6
  let a := a + c
  let c := (c - b) ^^^ rot b 8
  let b := b + a
  let a := (a - c) ^^^ rot c 16
  let c := c + b
  let b := (b - a) ^^^ rot a 19
  let a := a + c
  let c := (c - b) ^^^ rot b 4
  ⟨a, b + a, c⟩

/-- `final`; only the third word is used -/
def final (s : State) : BitVec 32 :=
  let c := (s.c ^^^ s.b) - rot s.b 14
  let a := (s.a ^^^ c) - rot c 11
  let b := (s.b ^^^ a) - rot a 25
  let c := (c ^^^ b) - rot b 16
  let a := (a ^^^ c) - rot c 4
  let b := (b ^^^ a) - rot a 14
  (c ^^^ b) - rot b 24

/-- the word that starts with these bytes; missing ones are zero -/
def word (k : List UInt8) : BitVec 32 :=
  BitVec.ofNat 32 ((k.getD 0 0).toNat + (k.getD 1 0).toNat * 256 + (k.getD 2 0).toNat * 65536 +
    (k.getD 3 0).toNat * 16777216)

/-- up to twelve bytes -/
def State.add (s : State) (k : List UInt8) : State :=
  ⟨s.a + word k, s.b + word ((k.take 8).drop 4), s.c + word ((k.take 12).drop 8)⟩

/-- all but the last block -/
def blocks : ℕ → State → List UInt8 → State × List UInt8
  | 0, s, k => (s, k)
  | n + 1, s, k => blocks n (mix (s.add k)) (k.drop 12)

/-- `hashlittle` -/
def hashlittle (key : List UInt8) (val2 : BitVec 32) : BitVec 32 :=
  let start := 0xdeadbeef + BitVec.ofNat 32 key.length + val2
  let r := blocks ((key.length - 1) / 12) ⟨start, start, start⟩ key
  if r.2 = [] then r.1.c else final (r.1.add r.2)

/-- `nl_hash` with the initial value 0 -/
def nlHash (k : List UInt8) : ℕ := (hashlittle k 0).toNat

/-- the bytes of a 32-bit field of a key -/
def bytes32 (n : BitVec 32) : List UInt8 :=
  [UInt8.ofNat n.toNat, UInt8.ofNat (n.toNat / 256), UInt8.ofNat (n.toNat / 65536), UInt8.ofNat (n.toNat / 16777216)]

/-- the bytes of a 16-bit field -/
def bytes16 (n : BitVec 16) : List UInt8 := [UInt8.ofNat n.toNat, UInt8.ofNat (n.toNat / 256)]

/-- a text of thirty bytes -/
example : hashlittle [70, 111, 117, 114, 32, 115, 99, 111, 114, 101, 32, 97, 110, 100, 32, 115, 101, 118, 101, 110,
    32, 121, 101, 97, 114, 115, 32, 97, 103, 111] 0 = 0x17770551 := by rfl

end Libnl.Hash
