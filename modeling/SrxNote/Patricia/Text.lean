import SrxNote.Misc.Strtol
import SrxNote.Patricia.Prefix

/-!
# Prefixes as texts

`my_inet_pton`, `prefix_toa2x` and `ascii2prefix` of `patricia.c`. A string has no NUL
in it. The IPv6 functions of the C library are parameters.
-/

namespace SrxNote.Patricia

open Heap Text

/-- The digits of a part (`patricia.c:115-121`): its value, and what follows; `none` for a value
    over 255. -/
def readPart : Nat → List Char → Option (Nat × List Char)
  | val, [] => some (val, [])
  | val, c :: src =>
      let val := val * 10 + (c.toNat - '0'.toNat)
      if val > 255 then none
      else
        match src with
        | [] => some (val, [])
        | d :: rest => if d.isDigit then readPart val (d :: rest) else some (val, d :: rest)

/-- A part from its first character on (`patricia.c:111-121`), or the result that is not 1. -/
def startPart : List Char → Except Int (Nat × List Char)
  | [] => .error (-1)
  | c :: src =>
      if c.isDigit then
        match readPart 0 (c :: src) with
        | none => .error 0
        | some part => .ok part
      else .error (-1)

/-- The loop over the parts (`patricia.c:110-128`) from part `i` on. -/
def ptonLoop : Nat → Nat → List UInt8 → List Char → Except Int (List UInt8)
  | 0, _, _, _ => .error 0
  | fuel + 1, i, xp, src => do
      let (val, rest) ← startPart src
      let xp := xp.set i (UInt8.ofNat val)
      match rest with
      | [] => .ok xp
      | d :: rest =>
          if d ≠ '.' then .error 0
          else if i ≥ 3 then .error 0
          else ptonLoop fuel (i + 1) xp rest

/-- `my_inet_pton` for AF_INET (`patricia.c:104-129`). -/
def myInetPton (src : List Char) : Except Int (List UInt8) := ptonLoop 4 0 [0, 0, 0, 0] src

/-- `a[0].a[1].a[2].a[3]` of `prefix_touchar`. -/
def dotted (add : Vector UInt8 16) : List Char :=
  decimal add[0].toNat ++ '.' :: (decimal add[1].toNat ++ '.' :: (decimal add[2].toNat ++ '.' ::
    decimal add[3].toNat))

/-- `prefix_toa2x` (`patricia.c:147-202`): the string, or NULL; `inetNtop` is `inet_ntop (AF_INET6, ..)`. -/
def prefixToa2x (inetNtop : Vector UInt8 16 → List Char) (h : Heap Prefix) (x : Option Nat) (withLen : Bool) :
    Option (Option (List Char)) :=
  match x with
  | none => some (some "(Null)".toList)
  | some x => do
      let pre ← h.read x
      cAssert (pre.refCount ≥ 0)
      match pre.family with
      | .inet => do
          cAssert (pre.bitlen.toNat ≤ 32)
          some (some (dotted pre.add ++ if withLen then '/' :: decimal pre.bitlen.toNat else []))
      | .inet6 =>
          if withLen then do
            cAssert (pre.bitlen.toNat ≤ 128)
            some (some (inetNtop pre.add ++ '/' :: decimal pre.bitlen.toNat))
          else some (some (inetNtop pre.add))
      | .other _ => some none

/-- `prefix_toa` (`patricia.c:215-219`). -/
def prefixToa (inetNtop : Vector UInt8 16 → List Char) (h : Heap Prefix) (x : Option Nat) :
    Option (Option (List Char)) :=
  prefixToa2x inetNtop h x false

/-- `MAXLINE`. -/
def maxLine : Nat := 1024

/-- The length behind the slash (`patricia.c:306-319`), where `u_long` has 64 bits: a negative number is
    a large one. -/
def readBitlen (string : List Char) (maxbitlen : Nat) : Nat :=
  match string.dropWhile (· ≠ '/') with
  | [] => maxbitlen
  | _ :: len =>
      let bitlen := (strtol len % 2 ^ 64).toNat
      if bitlen > maxbitlen then maxbitlen else bitlen

/-- `ascii2prefix` (`patricia.c:274-342`); `inetPton` is `inet_pton (AF_INET6, ..)`, where it succeeds. -/
def ascii2prefix (inetPton : List Char → Option (List UInt8)) (h : Heap Prefix) (family : Family)
    (string : List Char) : Option (Heap Prefix × Option Nat) := do
  let family := if family = .other 0 then if ':' ∈ string then .inet6 else .inet else family
  let maxbitlen := match family with
    | .inet => 32
    | .inet6 => 128
    | .other _ => 0
  let address := string.takeWhile (· ≠ '/')
  cAssert ('/' ∈ string → address.length < maxLine)
  let bitlen := readBitlen string maxbitlen
  match family with
  | .inet =>
      match myInetPton address with
      | .error _ => some (h, none)
      | .ok sin => newPrefix h .inet sin bitlen
  | .inet6 =>
      match inetPton address with
      | none => some (h, none)
      | some sin6 => newPrefix h .inet6 sin6 bitlen
  | .other _ => some (h, none)

end SrxNote.Patricia
