import SrxNote.Misc.Heap

/-!
# Address prefixes with a reference count

`prefix_t` of `patricia.h` and the functions of `patricia.c` that make, share and
compare prefixes. The prefixes are on a heap and known by their addresses; a result
of `none` is a failed assertion, an access outside the address or to a prefix that was
freed, or a count of references that an `int` does not hold.
-/

namespace SrxNote.Patricia

open Heap

/-- The address families that are told apart, and the others. -/
inductive Family where
  | inet
  | inet6
  | other (value : UInt16)
  deriving DecidableEq, Repr

/-- `prefix_t` (`patricia.h:49-59`): the union has the 16 octets of an IPv6 address. -/
structure Prefix where
  family : Family
  bitlen : UInt16
  refCount : Int
  add : Vector UInt8 16
  deriving DecidableEq, Repr

/-- `assert`. -/
def cAssert (c : Prop) [Decidable c] : Option Unit := if c then some () else none

/-- `BIT_TEST (addr[bit >> 3], 0x80 >> (bit & 0x07))`. -/
def bitTest (addr : Vector UInt8 16) (bit : Nat) : Option Bool :=
  addr[bit >>> 3]?.map fun octet => octet &&& ((0x80 : UInt8) >>> UInt8.ofNat (bit &&& 0x07)) ≠ 0

/-- `memcpy` of the first `n` octets. -/
def memcpy (dst : Vector UInt8 16) (src : List UInt8) (n : Nat) : Option (Vector UInt8 16) :=
  if n ≤ src.length then some (Vector.ofFn fun i => if i < n then src.getD i 0 else dst.get i) else none

/-- `comp_with_mask` (`patricia.c:50-63`). -/
def compWithMask (addr dest : Vector UInt8 16) (mask : Nat) : Option Bool :=
  let n := mask / 8
  if n ≤ 16 then
    if addr.toList.take n = dest.toList.take n then
      if mask % 8 = 0 then some true
      else do
        -- `(-1) << (8 - (mask % 8))`, of which an octet meets the low bits
        let m := (0xff : UInt8) <<< UInt8.ofNat (8 - mask % 8)
        let a ← addr[n]?
        let d ← dest[n]?
        some (a &&& m = d &&& m)
    else some false
  else none

/-- The octets of an address and the default length of the family, where it is a known one. -/
def familySize : Family → Option (Nat × Int)
  | .inet => some (4, 32)
  | .inet6 => some (16, 128)
  | .other _ => none

/-- `New_Prefix2` (`patricia.c:221-264`): NULL for an unknown family, a new prefix with one reference
    where no prefix is given. -/
def newPrefix2 (h : Heap Prefix) (family : Family) (dest : List UInt8) (bitlen : Int)
    (given : Option Nat) : Option (Heap Prefix × Option Nat) :=
  match familySize family with
  | none => some (h, none)
  | some (octets, defaultBitlen) =>
      let length := UInt16.ofInt (if bitlen ≥ 0 then bitlen else defaultBitlen)
      match given with
      | none => do
          let add ← memcpy (Vector.replicate 16 0) dest octets
          some (h.alloc ⟨family, length, 1, add⟩, some h.fresh)
      | some p => do
          let old ← h.read p
          let add ← memcpy old.add dest octets
          some (h.set p (some ⟨family, length, 0, add⟩), some p)

/-- `New_Prefix` (`patricia.c:266-270`). -/
def newPrefix (h : Heap Prefix) (family : Family) (dest : List UInt8) (bitlen : Int) :
    Option (Heap Prefix × Option Nat) :=
  newPrefix2 h family dest bitlen none

/-- The largest `int`. -/
def intMax : Int := 2147483647

/-- `Ref_Prefix` (`patricia.c:344-356`): a static prefix is copied. -/
def refPrefix (h : Heap Prefix) : Option Nat → Option (Heap Prefix × Option Nat)
  | none => some (h, none)
  | some p => do
      let pre ← h.read p
      if pre.refCount = -1 then newPrefix2 h pre.family pre.add.toList pre.bitlen.toNat none
      -- `ref_count++` on an `int`
      else if pre.refCount < intMax then
        some (h.set p (some { pre with refCount := pre.refCount + 1 }), some p)
      else none

/-- `Deref_Prefix` (`patricia.c:358-373`). -/
def derefPrefix (h : Heap Prefix) : Option Nat → Option (Heap Prefix)
  | none => some h
  | some p => do
      let pre ← h.read p
      cAssert (pre.refCount > 0)
      let pre := { pre with refCount := pre.refCount - 1 }
      cAssert (pre.refCount ≥ 0)
      if pre.refCount ≤ 0 then h.free p else some (h.set p (some pre))

end SrxNote.Patricia
