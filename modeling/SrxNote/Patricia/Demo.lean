import SrxNote.Patricia.Text
import SrxNote.Patricia.Tree

/-!
# The programs of the demo

The functions of `patricia.c` that read a prefix from a text, call the tree with it and
give it back, and the loop of `perf_test.c` that fills a tree from the lines of a file.
A NULL that is dereferenced is a result of `none`; the printed texts are results too.
-/

namespace SrxNote.Patricia

open Heap Text

variable {δ : Type} (inetNtop : Vector UInt8 16 → List Char) (inetPton : List Char → Option (List UInt8))

/-- `%s/%d` of `prefix_toa (prefix)` and `prefix->bitlen`. -/
def printed (h : Heap Prefix) (x : Option Nat) : Option (List Char) := do
  let text ← prefixToa inetNtop h x
  let x ← x
  let pre ← h.read x
  some (text.getD "(null)".toList ++ '/' :: decimal pre.bitlen.toNat)

/-- `make_and_lookup` (`patricia.c:983-994`). -/
def makeAndLookup (s : PatriciaTree δ) (string : List Char) : Option (PatriciaTree δ × List Char × Nat) := do
  let (prefixes, x) ← ascii2prefix inetPton s.prefixes .inet string
  let text ← printed inetNtop prefixes x
  let x ← x
  let (s, node) ← patriciaLookup { s with prefixes := prefixes } x
  let prefixes ← derefPrefix s.prefixes (some x)
  some ({ s with prefixes := prefixes }, "make_and_lookup: ".toList ++ text ++ ['\n'], node)

/-- What a search prints about its result. -/
def printedResult (name : List Char) (s : PatriciaTree δ) : Option Nat → Option (List Char)
  | none => some (name ++ ": not found\n".toList)
  | some p => do
      let node ← s.nodes.read p
      let text ← printed inetNtop s.prefixes node.pfx
      some (name ++ ": ".toList ++ text ++ " found\n".toList)

/-- A search for the prefix of a text. -/
def trySearch (name : List Char) (search : PatriciaTree δ → Nat → Option (Option Nat)) (s : PatriciaTree δ)
    (string : List Char) : Option (PatriciaTree δ × List Char × Option Nat) := do
  let (prefixes, x) ← ascii2prefix inetPton s.prefixes .inet string
  let text ← printed inetNtop prefixes x
  let x ← x
  let s := { s with prefixes := prefixes }
  let node ← search s x
  let result ← printedResult inetNtop name s node
  let prefixes ← derefPrefix s.prefixes (some x)
  some ({ s with prefixes := prefixes }, name ++ ": ".toList ++ text ++ '\n' :: result, node)

/-- `try_search_exact` (`patricia.c:996-1013`). -/
def trySearchExact (s : PatriciaTree δ) (string : List Char) :
    Option (PatriciaTree δ × List Char × Option Nat) :=
  trySearch inetNtop inetPton "try_search_exact".toList patriciaSearchExact s string

/-- `lookup_then_remove` (`patricia.c:1015-1022`). -/
def lookupThenRemove (s : PatriciaTree δ) (string : List Char) : Option (PatriciaTree δ × List Char) := do
  let (s, text, node) ← trySearchExact inetNtop inetPton s string
  match node with
  | none => some (s, text)
  | some p => do
      let s ← patriciaRemove s p
      some (s, text)

/-- `try_search_best` (`patricia.c:1024-1038`), which returns nothing. -/
def trySearchBest (s : PatriciaTree δ) (string : List Char) : Option (PatriciaTree δ × List Char) :=
  (trySearch inetNtop inetPton "try_search_best".toList patriciaSearchBest s string).map fun (s, text, _) =>
    (s, text)

/-- The loop over the lines of a file (`perf_test.c:47-56`). -/
def loadLines (s : PatriciaTree δ) : List (List Char) → Option (PatriciaTree δ)
  | [] => some s
  | line :: lines => do
      let (prefixes, x) ← ascii2prefix inetPton s.prefixes .inet line
      let x ← x
      let (s, _) ← patriciaLookup { s with prefixes := prefixes } x
      let prefixes ← derefPrefix s.prefixes (some x)
      loadLines { s with prefixes := prefixes } lines

/-- The calls of `main` in `demo.c`. -/
inductive Command where
  | makeAndLookup (string : List Char)
  | trySearchExact (string : List Char)
  | lookupThenRemove (string : List Char)
  | trySearchBest (string : List Char)
  deriving DecidableEq, Repr

def Command.string : Command → List Char
  | .makeAndLookup string => string
  | .trySearchExact string => string
  | .lookupThenRemove string => string
  | .trySearchBest string => string

/-- A call, and what it prints. -/
def runCommand (s : PatriciaTree δ) : Command → Option (PatriciaTree δ × List Char)
  | .makeAndLookup string => (makeAndLookup inetNtop inetPton s string).map fun (s, text, _) => (s, text)
  | .trySearchExact string => (trySearchExact inetNtop inetPton s string).map fun (s, text, _) => (s, text)
  | .lookupThenRemove string => lookupThenRemove inetNtop inetPton s string
  | .trySearchBest string => trySearchBest inetNtop inetPton s string

end SrxNote.Patricia
