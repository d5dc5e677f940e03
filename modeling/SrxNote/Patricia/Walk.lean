import SrxNote.Patricia.Tree

/-!
# Walking along and clearing a tree

The loops of `patricia.c` and `patricia.h` that go through all nodes. The function that
is called at a node is given by the list of its calls.
-/

namespace SrxNote.Patricia

open Heap

variable {δ : Type}

/-- Where a walk goes from a node (`PATRICIA_WALK_END`, `patricia.h:131-145`): the stack and the node,
    or NULL. -/
def walkNext (l r : Option Nat) (stack : List Nat) : Option (List Nat × Option Nat) :=
  match l, r with
  | some l, some r => (push stack r).map fun stack => (stack, some l)
  | some l, none => some (stack, some l)
  | none, some r => some (stack, some r)
  | none, none => some (stack.tail, stack.head?)

/-- The loop of `PATRICIA_WALK` (`patricia.h:107-113, 131-145`), with the call of
    `patricia_process`. -/
def processLoop (nodes : Heap (PatriciaNode δ)) :
    Nat → List Nat → Option Nat → Option (List (Nat × Option δ))
  | _, _, none => some []
  | 0, _, some _ => none
  | fuel + 1, stack, some p => do
      let node ← nodes.read p
      let (stack, next) ← walkNext node.l node.r stack
      let calls ← processLoop nodes fuel stack next
      some ((node.pfx.map fun x => (x, node.data)).toList ++ calls)

/-- `patricia_process` (`patricia.c:458-467`): the prefix and the data of each call. -/
def patriciaProcess (s : PatriciaTree δ) : Option (List (Nat × Option δ)) :=
  processLoop s.nodes s.nodes.fresh [] s.head

/-- `patricia_walk_inorder` (`patricia.c:469-489`): the calls, and their number. -/
def patriciaWalkInorder (nodes : Heap (PatriciaNode δ)) : Nat → Nat → Option (List (Nat × Option δ) × Nat)
  | 0, _ => none
  | fuel + 1, p => do
      let node ← nodes.read p
      let (left, n) ← node.l.elim (some ([], 0)) (patriciaWalkInorder nodes fuel)
      let own := (node.pfx.map fun x => (x, node.data)).toList
      let (right, m) ← node.r.elim (some ([], 0)) (patriciaWalkInorder nodes fuel)
      some (left ++ own ++ right, n + own.length + m)

/-- The loop of `Clear_Patricia` (`patricia.c:406-440`): the data that `func` is called with. -/
def clearLoop (func : Bool) :
    Nat → PatriciaTree δ → List Nat → Option Nat → Option (PatriciaTree δ × List δ)
  | _, s, _, none => some (s, [])
  | 0, _, _, some _ => none
  | fuel + 1, s, stack, some p => do
      let node ← s.nodes.read p
      let prefixes ← derefPrefix s.prefixes node.pfx
      cAssert (node.pfx.isSome ∨ node.data.isNone)
      let s ← PatriciaTree.delete { s with prefixes := prefixes } p
      let (stack, next) ← walkNext node.l node.r stack
      let (s, calls) ← clearLoop func fuel s stack next
      some (s, (if func && node.pfx.isSome then node.data.toList else []) ++ calls)

/-- `Clear_Patricia` (`patricia.c:401-443`): `head` still points to the node that was freed. -/
def clearPatricia (s : PatriciaTree δ) (func : Bool) : Option (PatriciaTree δ × List δ) := do
  let (s, calls) ← clearLoop func s.nodes.fresh s [] s.head
  cAssert (s.numActiveNode = 0)
  some (s, calls)

end SrxNote.Patricia
