import SrxNote.Misc.Heap

/-!
# A trie of AS numbers

`trie_test.c`: the numbers are inserted as strings of digits, and a number is
looked up by following its digits from the root. The nodes are on a heap; a read
outside the ten children or of a node that was never allocated is undefined.
-/

namespace SrxNote.Programs

open Heap

/-- A string of digits. -/
structure DigitString where
  chars : List Char
  digits : ∀ c ∈ chars, c.isDigit = true
  deriving DecidableEq

structure TrieNode where
  data : Char
  children : Vector (Option Nat) 10
  isLeaf : Nat
  deriving DecidableEq, Repr

/-- `(int) word[i] - '0'`. -/
def childIndex (c : Char) : Int := (c.toNat : Int) - '0'.toNat

/-- `children[idx]`; `none` outside the array. -/
def TrieNode.child (node : TrieNode) (idx : Int) : Option (Option Nat) :=
  if 0 ≤ idx then node.children[idx.toNat]? else none

def TrieNode.setChild (node : TrieNode) (idx : Int) (p : Nat) : TrieNode :=
  { node with children := node.children.setIfInBounds idx.toNat (some p) }

/-- The node that `make_trienode` fills in. -/
def newTrieNode (data : Char) : TrieNode := ⟨data, Vector.replicate 10 none, 0⟩

def makeTrienode (h : Heap TrieNode) (data : Char) : Heap TrieNode × Nat :=
  (h.alloc (newTrieNode data), h.fresh)

/-- The loop of `insert_trie`, with the rest of the word, and the mark at its end. -/
def insertFrom (h : Heap TrieNode) (temp : Nat) : List Char → Option (Heap TrieNode)
  | [] => do
      let node ← h.read temp
      some (h.set temp (some { node with isLeaf := 1 }))
  | c :: word => do
      let node ← h.read temp
      match ← node.child (childIndex c) with
      | none =>
          let (h', p) := makeTrienode h c
          insertFrom (h'.set temp (some (node.setChild (childIndex c) p))) p word
      | some p => insertFrom h p word

def insertTrie (h : Heap TrieNode) (root : Nat) (word : List Char) : Option (Heap TrieNode × Nat) :=
  (insertFrom h root word).map fun h' => (h', root)

/-- The loop of `search_trie`, with the rest of the word, and the test of the mark at its end. -/
def searchFrom (h : Heap TrieNode) (temp : Nat) : List Char → Option Nat
  | [] => do
      let node ← h.read temp
      some (if node.isLeaf = 1 then 1 else 0)
  | c :: word => do
      let node ← h.read temp
      match ← node.child (childIndex c) with
      | none => some 0
      | some p => searchFrom h p word

def searchTrie (h : Heap TrieNode) (root : Nat) (word : List Char) : Option Nat :=
  searchFrom h root word

/-- `root = insert_trie(root, word)`. -/
def insertWord (s : Heap TrieNode × Nat) (word : DigitString) : Option (Heap TrieNode × Nat) :=
  insertTrie s.1 s.2 word.chars

end SrxNote.Programs
