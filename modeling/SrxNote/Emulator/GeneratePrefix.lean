import Mathlib.Algebra.Group.Int.Defs
import Mathlib.Algebra.Group.Nat.Defs
import SrxNote.Misc.Text

/-!
# Prefixes of the emulator's nodes

`generate_prefix.py`: the prefixes that a node announces, from the lengths 8 to 31 in
turn, until the wanted number is reached. Only the run that writes files is modelled.
-/

namespace SrxNote.Emulator
open SrxNote.Text

/-- `str(n)`, and `%d`. -/
def str (n : Int) : List Char :=
  if n < 0 then '-' :: decimal n.natAbs else decimal n.natAbs

/-- `range(start, stop)`. -/
def pyRange (start stop : Int) : List Int :=
  (List.range (stop - start).toNat).map fun k => start + Int.ofNat k

/-- The type of the configuration files. -/
inductive Mode where
  | quagga
  | exabgp
  deriving DecidableEq, Repr

/-- `ip_attr[0][0]` to `ip_attr[3][0]`. -/
structure IpAttr where
  a : Int
  b : Int
  c : Int
  d : Int
  deriving DecidableEq, Repr

/-- `IPstat.keep` and `IPstat.counter`, and what was written to `nodeFile`. -/
structure IPstat where
  keep : Bool
  counter : Int
  nodeFile : List Char

/-- `"%d.%d.%d.%d"` and `'/'+str(N)`. -/
def printPrefix (ip : IpAttr) (n : Nat) : List Char :=
  str ip.a ++ ".".toList ++ str ip.b ++ ".".toList ++ str ip.c ++ ".".toList ++ str ip.d ++
    "/".toList ++ str n

/-- `buf` (47-53). -/
def prefixLine (mode : Mode) (nexthop : List Char) (ip : IpAttr) (n : Nat) : List Char :=
  match mode with
  | .quagga => "network ".toList ++ printPrefix ip n ++ "\n".toList
  | .exabgp =>
      "\t\troute ".toList ++ printPrefix ip n ++ "   \tnext-hop ".toList ++ nexthop ++
        ";".toList ++ "\n".toList

/-- `printIPaddr` into a file. -/
def printIPaddr (maxNum : Int) (mode : Mode) (nexthop : List Char) (st : IPstat) (ip : IpAttr)
    (n : Nat) : IPstat :=
  let st :=
    if st.keep then
      { st with
        nodeFile := st.nodeFile ++ prefixLine mode nexthop ip n
        counter := st.counter + 1 }
    else st
  if st.counter ≥ maxNum then { st with keep := false } else st

/-- The values of a loop from 0 to 255. -/
def octetValues (step : Nat) : List Int := (List.range' 0 (255 / step + 1) step).map Int.ofNat

/-- The addresses of the length `n` (122-192): the loops of the layers above `p` go in steps of 1, that
    of the layer `p` in steps of `interval`. -/
def layers (aValues : List Int) (n : Nat) : List IpAttr :=
  let p := n / 8
  let q := n % 8
  let interval := 2 ^ (8 - q)
  aValues.flatMap fun a =>
    if q = 0 ∧ p = 1 then [⟨a, 0, 0, 0⟩]
    else
      (octetValues (if p = 1 then interval else 1)).flatMap fun b =>
        if q = 0 ∧ p = 2 then [⟨a, b, 0, 0⟩]
        else if p = 1 then [⟨a, b, 0, 0⟩]
        else
          (octetValues (if p = 2 then interval else 1)).flatMap fun c =>
            if q = 0 ∧ p = 3 then [⟨a, b, c, 0⟩]
            else if p = 2 then [⟨a, b, c, 0⟩]
            else (octetValues interval).map fun d => ⟨a, b, c, d⟩

/-- `generatePrefix`: what it writes. The loops end when `keep` is false, from when on `printIPaddr`
    writes nothing. -/
def generatePrefix (i numPrefix : Int) (mode : Mode) (nexthop : List Char) : List Char :=
  let aValues := if i > 1 then [i] else pyRange 1 225
  ((List.range' 8 24).foldl
    (fun st n => (layers aValues n).foldl (fun st ip => printIPaddr numPrefix mode nexthop st ip n) st)
    ⟨true, 0, []⟩).nodeFile

end SrxNote.Emulator
