import SrxNote.Patricia.Tree

/-!
# Programs that use a tree

A program makes prefixes, shares them with the tree, looks words up, and gives data to
nodes and removes them, one call after another.
-/

namespace SrxNote.Patricia

open Heap

variable {δ : Type}

/-- The calls of a program; `PATRICIA_DATA_SET` (`patricia.h:105`) is the one that is a macro. -/
inductive Call (δ : Type) where
  | newPrefix (family : Family) (dest : List UInt8) (bitlen : Int)
  | refPrefix (x : Nat)
  | derefPrefix (x : Nat)
  | lookup (x : Nat)
  | searchExact (x : Nat)
  | searchBest (x : Nat) (inclusive : Bool)
  | setData (p : Nat) (data : Option δ)
  | remove (p : Nat)
  deriving DecidableEq, Repr

/-- A call, and the pointer that it returns. -/
def call (s : PatriciaTree δ) : Call δ → Option (PatriciaTree δ × Option Nat)
  | .newPrefix family dest bitlen =>
      (newPrefix s.prefixes family dest bitlen).map fun (prefixes, x) => ({ s with prefixes := prefixes }, x)
  | .refPrefix x =>
      (refPrefix s.prefixes (some x)).map fun (prefixes, y) => ({ s with prefixes := prefixes }, y)
  | .derefPrefix x => (derefPrefix s.prefixes (some x)).map fun prefixes => ({ s with prefixes := prefixes }, none)
  | .lookup x => (patriciaLookup s x).map fun (s, p) => (s, some p)
  | .searchExact x => (patriciaSearchExact s x).map fun p => (s, p)
  | .searchBest x inclusive => (patriciaSearchBest2 s x inclusive).map fun p => (s, p)
  | .setData p data => (s.modify p fun node => { node with data := data }).map fun s => (s, none)
  | .remove p => (patriciaRemove s p).map fun s => (s, none)

end SrxNote.Patricia
