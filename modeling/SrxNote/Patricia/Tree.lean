import Mathlib.Algebra.Group.Int.Defs
import SrxNote.Patricia.Prefix

/-!
# The Patricia tree

`patricia.c`: the nodes of a tree lie on a heap and point to their children, their
parent and their prefix; a node without a prefix only branches. A result of `none` is
a failed assertion, a read or write through a NULL or freed pointer, a read outside
an address or a write outside a stack. A loop along the tree passes no node twice, so
it has the number of nodes ever allocated as fuel.
-/

namespace SrxNote.Patricia

open Heap

/-- `patricia_node_t` (`patricia.h:63-70`), without `user1`. -/
structure PatriciaNode (δ : Type) where
  bit : Nat
  pfx : Option Nat
  l : Option Nat
  r : Option Nat
  parent : Option Nat
  data : Option δ
  deriving DecidableEq, Repr

/-- `patricia_tree_t` (`patricia.h:72-76`), with the heaps of the nodes and of the prefixes. -/
structure PatriciaTree (δ : Type) where
  head : Option Nat
  maxbits : Nat
  numActiveNode : Int
  nodes : Heap (PatriciaNode δ)
  prefixes : Heap Prefix
  deriving DecidableEq, Repr

/-- `PATRICIA_MAXBITS`. -/
def patriciaMaxbits : Nat := 128

variable {δ : Type}

/-- `New_Patricia` (`patricia.c:382-394`); `maxbits` becomes unsigned. -/
def newPatricia (prefixes : Heap Prefix) (maxbits : Int) : Option (PatriciaTree δ) := do
  cAssert (maxbits ≤ patriciaMaxbits)
  some ⟨none, (maxbits % 2 ^ 32).toNat, 0, [], prefixes⟩

/-- Write to the node behind a pointer. -/
def PatriciaTree.modify (s : PatriciaTree δ) (p : Nat) (f : PatriciaNode δ → PatriciaNode δ) :
    Option (PatriciaTree δ) :=
  (s.nodes.read p).map fun node => { s with nodes := s.nodes.set p (some (f node)) }

/-- `calloc` of a node that is then filled in. -/
def PatriciaTree.calloc (s : PatriciaTree δ) (node : PatriciaNode δ) : PatriciaTree δ :=
  { s with nodes := s.nodes.alloc node, numActiveNode := s.numActiveNode + 1 }

/-- `Delete (node)`, counted. -/
def PatriciaTree.delete (s : PatriciaTree δ) (p : Nat) : Option (PatriciaTree δ) :=
  (s.nodes.free p).map fun nodes => { s with nodes := nodes, numActiveNode := s.numActiveNode - 1 }

/-! ### Searching -/

/-- The loop of `patricia_search_exact` (`patricia.c:510-537`): the node it ends at, or NULL. -/
def exactLoop (nodes : Heap (PatriciaNode δ)) (addr : Vector UInt8 16) (bitlen : Nat) :
    Nat → Nat → Option (Option Nat)
  | 0, _ => none
  | fuel + 1, p => do
      let node ← nodes.read p
      if node.bit < bitlen then do
        let b ← bitTest addr node.bit
        match if b then node.r else node.l with
        | none => some none
        | some q => exactLoop nodes addr bitlen fuel q
      else some (some p)

/-- `patricia_search_exact` (`patricia.c:492-559`). -/
def patriciaSearchExact (s : PatriciaTree δ) (x : Nat) : Option (Option Nat) := do
  let pre ← s.prefixes.read x
  let bitlen := pre.bitlen.toNat
  cAssert (bitlen ≤ s.maxbits)
  match s.head with
  | none => some none
  | some head => do
      match ← exactLoop s.nodes pre.add bitlen s.nodes.fresh head with
      | none => some none
      | some p => do
          let node ← s.nodes.read p
          match node.pfx with
          | none => some none
          | some own =>
              if node.bit > bitlen then some none
              else do
                let own ← s.prefixes.read own
                cAssert (node.bit = bitlen)
                cAssert (node.bit = own.bitlen.toNat)
                if ← compWithMask own.add pre.add bitlen then some (some p) else some none

/-- `stack[cnt++] = node`, newest first. -/
def push (stack : List Nat) (p : Nat) : Option (List Nat) :=
  if stack.length < patriciaMaxbits + 1 then some (p :: stack) else none

/-- The loop of `patricia_search_best2` down the tree (`patricia.c:583-618`): the stack, and the node it
    ends at, or NULL. -/
def bestLoop (nodes : Heap (PatriciaNode δ)) (addr : Vector UInt8 16) (bitlen : Nat) :
    Nat → List Nat → Nat → Option (List Nat × Option Nat)
  | 0, _, _ => none
  | fuel + 1, stack, p => do
      let node ← nodes.read p
      if node.bit < bitlen then do
        let stack ← if node.pfx.isSome then push stack p else some stack
        let b ← bitTest addr node.bit
        match if b then node.r else node.l with
        | none => some (stack, none)
        | some q => bestLoop nodes addr bitlen fuel stack q
      else some (stack, some p)

/-- The loop over the stack (`patricia.c:636-652`). -/
def popLoop (s : PatriciaTree δ) (addr : Vector UInt8 16) (bitlen : Nat) : List Nat → Option (Option Nat)
  | [] => some none
  | p :: stack => do
      let node ← s.nodes.read p
      let own ← node.pfx
      let own ← s.prefixes.read own
      if (← compWithMask own.add addr own.bitlen.toNat) && own.bitlen.toNat ≤ bitlen then some (some p)
      else popLoop s addr bitlen stack

/-- `patricia_search_best2` (`patricia.c:563-653`). -/
def patriciaSearchBest2 (s : PatriciaTree δ) (x : Nat) (inclusive : Bool) : Option (Option Nat) := do
  let pre ← s.prefixes.read x
  let bitlen := pre.bitlen.toNat
  cAssert (bitlen ≤ s.maxbits)
  match s.head with
  | none => some none
  | some head => do
      let (stack, stop) ← bestLoop s.nodes pre.add bitlen s.nodes.fresh [] head
      let stack ←
        match stop with
        | none => some stack
        | some p => do
            let node ← s.nodes.read p
            if inclusive && node.pfx.isSome then push stack p else some stack
      popLoop s pre.add bitlen stack

/-- `patricia_search_best` (`patricia.c:656-660`). -/
def patriciaSearchBest (s : PatriciaTree δ) (x : Nat) : Option (Option Nat) := patriciaSearchBest2 s x true

/-! ### Inserting -/

/-- Whether `patricia_lookup` goes to the right: `bit < maxbits && BIT_TEST (..)`. -/
def goesRight (s : PatriciaTree δ) (addr : Vector UInt8 16) (bit : Nat) : Option Bool :=
  if bit < s.maxbits then bitTest addr bit else some false

/-- The loop of `patricia_lookup` down the tree (`patricia.c:695-724`): the node it ends at. -/
def descend (s : PatriciaTree δ) (addr : Vector UInt8 16) (bitlen : Nat) : Nat → Nat → Option Nat
  | 0, _ => none
  | fuel + 1, p => do
      let node ← s.nodes.read p
      if node.bit < bitlen ∨ node.pfx = none then do
        let b ← goesRight s addr node.bit
        match if b then node.r else node.l with
        | none => some p
        | some q => descend s addr bitlen fuel q
      else some p

/-- The first bit that is set, from the highest one on. -/
def firstBit (r : UInt8) : Option Nat :=
  (List.range 8).find? fun j => r &&& ((0x80 : UInt8) >>> UInt8.ofNat j) ≠ 0

/-- The loop over the octets (`patricia.c:736-750`) from octet `i` on, with the value of `differ_bit`. -/
def differLoop (checkBit : Nat) : Nat → Nat → List UInt8 → List UInt8 → Option Nat
  | i, differ, addr, test =>
      if i * 8 < checkBit then
        match addr, test with
        | a :: addr, t :: test =>
            if a ^^^ t = 0 then differLoop checkBit (i + 1) ((i + 1) * 8) addr test
            else (firstBit (a ^^^ t)).map fun j => i * 8 + j
        | _, _ => none
      else some differ

/-- `differ_bit` (`patricia.c:734-752`): the first bit below `check_bit` in which the addresses differ,
    or `check_bit`. -/
def differBit (addr test : Vector UInt8 16) (checkBit : Nat) : Option Nat :=
  (differLoop checkBit 0 0 addr.toList test.toList).map fun differ =>
    if differ > checkBit then checkBit else differ

/-- The loop of `patricia_lookup` up the tree (`patricia.c:757-768`). -/
def ascend (nodes : Heap (PatriciaNode δ)) (differ : Nat) : Nat → Nat → Option Nat
  | 0, _ => none
  | fuel + 1, p => do
      let node ← nodes.read p
      match node.parent with
      | none => some p
      | some q => do
          let parent ← nodes.read q
          if parent.bit ≥ differ then ascend nodes differ fuel q else some p

/-- Put a node in the place of the node `p` below its parent (`patricia.c:822-831, 856-865`). -/
def replaceInParent (s : PatriciaTree δ) (parent : Option Nat) (p new : Nat) : Option (PatriciaTree δ) :=
  match parent with
  | none => do
      cAssert (s.head = some p)
      some { s with head := some new }
  | some q => do
      let node ← s.nodes.read q
      if node.r = some p then s.modify q fun node => { node with r := some new }
      else s.modify q fun node => { node with l := some new }

/-- The new node as a child of `p` (`patricia.c:796-805`). -/
def attachChild (s : PatriciaTree δ) (addr : Vector UInt8 16) (p new : Nat) : Option (PatriciaTree δ) := do
  let s ← s.modify new fun node => { node with parent := some p }
  let node ← s.nodes.read p
  if ← goesRight s addr node.bit then do
    cAssert (node.r = none)
    s.modify p fun node => { node with r := some new }
  else do
    cAssert (node.l = none)
    s.modify p fun node => { node with l := some new }

/-- The new node as the parent of `p` (`patricia.c:814-832`). -/
def attachParent (s : PatriciaTree δ) (testAddr : Vector UInt8 16) (bitlen p new : Nat) :
    Option (PatriciaTree δ) := do
  let b ← goesRight s testAddr bitlen
  let s ← s.modify new fun node => if b then { node with r := some p } else { node with l := some p }
  let node ← s.nodes.read p
  let s ← s.modify new fun new => { new with parent := node.parent }
  let s ← replaceInParent s node.parent p new
  s.modify p fun node => { node with parent := some new }

/-- A new node that branches between `p` and the new node (`patricia.c:839-866`). -/
def attachGlue (s : PatriciaTree δ) (addr : Vector UInt8 16) (differ p new : Nat) : Option (PatriciaTree δ) := do
  let node ← s.nodes.read p
  let glue := s.nodes.fresh
  let s := s.calloc ⟨differ, none, none, none, node.parent, none⟩
  let b ← goesRight s addr differ
  let s ← s.modify glue fun glue =>
    if b then { glue with r := some new, l := some p } else { glue with r := some p, l := some new }
  let s ← s.modify new fun new => { new with parent := some glue }
  let s ← replaceInParent s node.parent p glue
  s.modify p fun node => { node with parent := some glue }

/-- The way of `patricia_lookup` down to an entry and up again (`patricia.c:690-768`): the prefix of the
    entry, `differ_bit`, and the node at which it ends. -/
def findPlace (s : PatriciaTree δ) (pre : Prefix) (head : Nat) : Option (Prefix × Nat × Nat) := do
  let bitlen := pre.bitlen.toNat
  let stop ← descend s pre.add bitlen s.nodes.fresh head
  let node ← s.nodes.read stop
  let test ← node.pfx
  let test ← s.prefixes.read test
  let checkBit := if node.bit < bitlen then node.bit else bitlen
  let differ ← differBit pre.add test.add checkBit
  let p ← ascend s.nodes differ s.nodes.fresh stop
  some (test, differ, p)

/-- `patricia_lookup` (`patricia.c:663-873`): the node with the prefix `x`, which is a new one if there
    was none. -/
def patriciaLookup (s : PatriciaTree δ) (x : Nat) : Option (PatriciaTree δ × Nat) := do
  let pre ← s.prefixes.read x
  let bitlen := pre.bitlen.toNat
  cAssert (bitlen ≤ s.maxbits)
  match s.head with
  | none => do
      let (prefixes, own) ← refPrefix s.prefixes (some x)
      let p := s.nodes.fresh
      let s := { s with prefixes := prefixes }
      some ({ s.calloc ⟨bitlen, own, none, none, none, none⟩ with head := some p }, p)
  | some head => do
      let (test, differ, p) ← findPlace s pre head
      let node ← s.nodes.read p
      if differ = bitlen ∧ node.bit = bitlen then
        match node.pfx with
        | some _ => some (s, p)
        | none => do
            let (prefixes, own) ← refPrefix s.prefixes (some x)
            let s ← PatriciaTree.modify { s with prefixes := prefixes } p fun node => { node with pfx := own }
            cAssert (node.data.isNone)
            some (s, p)
      else do
        let (prefixes, own) ← refPrefix s.prefixes (some x)
        let new := s.nodes.fresh
        let s := PatriciaTree.calloc { s with prefixes := prefixes } ⟨bitlen, own, none, none, none, none⟩
        if node.bit = differ then (attachChild s pre.add p new).map fun s => (s, new)
        else if bitlen = differ then (attachParent s test.add bitlen p new).map fun s => (s, new)
        else (attachGlue s pre.add differ p new).map fun s => (s, new)

/-! ### Removing -/

/-- Let the parent of the node `p` point to another node in its place, or to none
    (`patricia.c:910-924, 931-941, 966-978`). -/
def relink (s : PatriciaTree δ) (parent : Option Nat) (p : Nat) (new : Option Nat) : Option (PatriciaTree δ) :=
  match parent with
  | none => do
      cAssert (s.head = some p)
      some { s with head := new }
  | some q => do
      let node ← s.nodes.read q
      if node.r = some p then s.modify q fun node => { node with r := new }
      else do
        cAssert (node.l = some p)
        s.modify q fun node => { node with l := new }

/-- What follows the removal of a node without children (`patricia.c:916-944`): a parent that only
    branched is removed too. -/
def removeGlue (s : PatriciaTree δ) (p q : Nat) : Option (PatriciaTree δ) := do
  let parent ← s.nodes.read q
  let child := if parent.r = some p then parent.l else parent.r
  let s ← relink s (some q) p none
  if parent.pfx.isSome then some s
  else do
    let s ← relink s parent.parent q child
    let child ← child
    let s ← s.modify child fun node => { node with parent := parent.parent }
    s.delete q

/-- `patricia_remove` (`patricia.c:876-979`). -/
def patriciaRemove (s : PatriciaTree δ) (p : Nat) : Option (PatriciaTree δ) := do
  let node ← s.nodes.read p
  let prefixes ← derefPrefix s.prefixes node.pfx
  let s := { s with prefixes := prefixes }
  match node.l, node.r with
  | some _, some _ => s.modify p fun node => { node with pfx := none, data := none }
  | none, none => do
      let s ← s.delete p
      match node.parent with
      | none => relink s none p none
      | some q => removeGlue s p q
  | l, r => do
      let child ← if r.isSome then r else l
      let s ← s.modify child fun child => { child with parent := node.parent }
      let s ← s.delete p
      relink s node.parent p (some child)

end SrxNote.Patricia
