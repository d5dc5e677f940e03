import Mathlib.Data.List.Infix
import SrxNote.Misc.Alloc
import SrxNote.Patricia.Proofs.Bits

/-!
# What a Patricia tree is for

A tree is a table of words: `Table` has the node, the prefix and the data of each word
that was inserted. `Represents` says that the nodes on the heap are a path-compressed
tree, and `Models` that the entries of this tree are those of a table.
-/

namespace SrxNote.Patricia

open Heap LinkedTree PrefixTree

variable {δ : Type}

/-- What a table has for a word: the node, the prefix it holds and its data. -/
structure Entry (δ : Type) where
  node : Nat
  pfx : Nat
  data : Option δ
  deriving DecidableEq, Repr

/-- The entries of the words. -/
abbrev Table (δ : Type) := List Bool → Option (Entry δ)

/-- A node of the tree: its address, the word it stands for and, unless it only branches, its prefix
    and data. -/
structure Cell (δ : Type) where
  addr : Nat
  word : List Bool
  entry : Option (Nat × Option δ)

/-- How a cell lies on the heap. -/
def layout : Layout (Cell δ) (PatriciaNode δ) where
  addr := Cell.addr
  content c links :=
    ⟨c.word.length, c.entry.map Prod.fst, links.l, links.r, links.parent, c.entry.bind Prod.snd⟩

def keyed : Keyed (Cell δ) := ⟨Cell.word, fun c => c.entry.isSome⟩

@[simp] theorem layout_addr (c : Cell δ) : layout.addr c = c.addr := rfl

@[simp] theorem layout_content (c : Cell δ) (links : Links) : layout.content c links =
    ⟨c.word.length, c.entry.map Prod.fst, links.l, links.r, links.parent, c.entry.bind Prod.snd⟩ := rfl

@[simp] theorem keyed_word (c : Cell δ) : keyed.word c = c.word := rfl

@[simp] theorem keyed_stored (c : Cell δ) : keyed.stored c = c.entry.isSome := rfl

/-- A live prefix for the word `w`, that is referred to. -/
def Spells (h : Heap Prefix) (x : Nat) (w : List Bool) : Prop :=
  ∃ pre, h.read x = some pre ∧ pre.word = w ∧ 1 ≤ pre.refCount

/-- The word of a cell fits the tree, and its prefix stands for it. -/
def CellOk (s : PatriciaTree δ) (c : Cell δ) : Prop :=
  c.word.length ≤ s.maxbits ∧ ∀ x d, c.entry = some (x, d) → Spells s.prefixes x c.word

/-- The heap holds the tree `t`. -/
structure Represents (s : PatriciaTree δ) (t : BinaryTree (Cell δ)) : Prop where
  maxbits_le : s.maxbits ≤ 128
  head : s.head = ptr layout t
  linked : Linked layout s.nodes none t
  nodup : (addrs layout t).Nodup
  compressed : Compressed keyed [] t
  active : s.numActiveNode = t.numNodes
  cells : ∀ c ∈ preorder t, CellOk s c

/-- The tree has the entry `e` for the word `w`. -/
def Holds (t : BinaryTree (Cell δ)) (w : List Bool) (e : Entry δ) : Prop :=
  ⟨e.node, w, some (e.pfx, e.data)⟩ ∈ preorder t

/-- The entries of the tree on the heap are those of the table. -/
def Models (s : PatriciaTree δ) (T : Table δ) : Prop :=
  ∃ t, Represents s t ∧ ∀ w e, T w = some e ↔ Holds t w e

/-- A cell with an entry is what the table has for its word. -/
theorem table_of_cell {T : Table δ} {t : BinaryTree (Cell δ)} {c : Cell δ}
    (htable : ∀ w e, T w = some e ↔ Holds t w e) (hc : c ∈ preorder t) {own : Nat} {d : Option δ} (hentry : c.entry = some (own, d)) :
    T c.word = some ⟨c.addr, own, d⟩ := by
  rw [htable, Holds, ← hentry]
  exact hc

theorem cAssert_of {c : Prop} [Decidable c] (h : c) : cAssert c = some () := if_pos h

@[simp] theorem cAssert_true : cAssert True = some () := rfl

theorem modify_of_read {s : PatriciaTree δ} {p : Nat} {node : PatriciaNode δ} (hread : s.nodes.read p = some node)
    (f : PatriciaNode δ → PatriciaNode δ) :
    s.modify p f = some { s with nodes := s.nodes.set p (some (f node)) } := by
  rw [PatriciaTree.modify, hread, Option.map_some]

theorem delete_of_read {s : PatriciaTree δ} {p : Nat} {node : PatriciaNode δ} (hread : s.nodes.read p = some node) :
    s.delete p = some { s with nodes := s.nodes.set p none, numActiveNode := s.numActiveNode - 1 } := by
  rw [PatriciaTree.delete, free_of_read hread, Option.map_some]

/-! ### Prefixes -/

/-- A prefix that `Ref_Prefix` can share: one that is counted and has room for one reference more, or
    a static one that has no more bits than its family. -/
def Shareable (pre : Prefix) : Prop :=
  0 ≤ pre.refCount ∧ pre.refCount < intMax ∨
    pre.refCount = -1 ∧ ∃ octets length, familySize pre.family = some (octets, length) ∧
      pre.bitlen.toNat ≤ octets * 8

instance (pre : Prefix) : Decidable (Shareable pre) := by
  unfold Shareable
  cases familySize pre.family with
  | none => exact decidable_of_iff (0 ≤ pre.refCount ∧ pre.refCount < intMax) (by simp)
  | some size =>
      exact decidable_of_iff (0 ≤ pre.refCount ∧ pre.refCount < intMax ∨ pre.refCount = -1 ∧ pre.bitlen.toNat ≤ size.1 * 8)
        (by cases size; simp)

theorem familySize_le {family : Family} {octets : Nat} {length : Int}
    (h : familySize family = some (octets, length)) : octets ≤ 16 := by
  cases family <;> simp [familySize] at h <;> omega

/-- A copy of the first octets has their bits. -/
theorem memcpy_spec (addr dst : Vector UInt8 16) {n : Nat} (hn : n ≤ 16) :
    ∃ add, memcpy dst addr.toList n = some add ∧ ∀ i < n * 8, addrBit add i = addrBit addr i := by
  refine ⟨_, if_pos (by simpa using hn), ?_⟩
  intro i hi
  have hoctet : i / 8 < n := by omega
  have hoctet16 : i / 8 < 16 := by omega
  rw [addrBit, addrBit]
  simp [List.getD_eq_getElem?_getD, hoctet, hoctet16]

/-- One reference more to a prefix that is counted. -/
theorem refPrefix_of_counted {h : Heap Prefix} {x : Nat} {pre : Prefix} (hread : h.read x = some pre)
    (hcount : 0 ≤ pre.refCount) (hroom : pre.refCount < intMax) :
    refPrefix h (some x) = some (h.set x (some { pre with refCount := pre.refCount + 1 }), some x) := by
  have hne : pre.refCount ≠ -1 := by omega
  simp [refPrefix, hread, hne, hroom]

/-- A prefix that is shared: the count goes up, or there is a copy. -/
theorem refPrefix_spec {h : Heap Prefix} {x : Nat} {pre : Prefix} (hread : h.read x = some pre)
    (hshare : Shareable pre) :
    ∃ h' own, refPrefix h (some x) = some (h', some own) ∧ Spells h' own pre.word ∧
      ∀ y w, Spells h y w → Spells h' y w := by
  rcases hshare with ⟨hcount, hroom⟩ | ⟨hstatic, octets, length, hfamily, hfits⟩
  · refine ⟨h.set x (some { pre with refCount := pre.refCount + 1 }), x,
      refPrefix_of_counted hread hcount hroom, ?_, ?_⟩
    · exact ⟨_, read_set_self hread _, rfl, Int.add_le_add_right hcount 1⟩
    · rintro y w ⟨pre', hread', hword, hlive⟩
      by_cases hyx : y = x
      · subst hyx
        obtain rfl : pre = pre' := Option.some.inj (hread.symm.trans hread')
        refine ⟨_, read_set_self hread _, hword, ?_⟩
        simp only
        omega
      · exact ⟨pre', by rw [read_set_of_ne h hyx, hread'], hword, hlive⟩
  · obtain ⟨add, hcopy, hbits⟩ := memcpy_spec pre.add (Vector.replicate 16 0) (familySize_le hfamily)
    refine ⟨h.alloc ⟨pre.family, UInt16.ofInt pre.bitlen.toNat, 1, add⟩, h.fresh, ?_, ?_, ?_⟩
    · simp [refPrefix, hread, hstatic, newPrefix2, hfamily, hcopy]
    · refine ⟨_, read_alloc_fresh h _, ?_, Int.le_refl 1⟩
      have hof : UInt16.ofInt (pre.bitlen.toNat : Int) = pre.bitlen := by
        apply UInt16.toNat_inj.mp
        have hlt := pre.bitlen.toNat_lt
        rw [UInt16.ofInt, UInt16.toNat_ofNat']
        omega
      rw [Prefix.word, Prefix.word, hof, bits_eq_iff]
      intro i hi
      exact hbits i (Nat.lt_of_lt_of_le hi hfits)
    · rintro y w ⟨pre', hread', hword, hlive⟩
      exact ⟨pre', read_alloc hread' _, hword, hlive⟩

/-- What is left of a prefix with a reference less. -/
def dropRef (pre : Prefix) : Option Prefix :=
  if pre.refCount ≤ 1 then none else some { pre with refCount := pre.refCount - 1 }

theorem derefPrefix_eq {h : Heap Prefix} {x : Nat} {pre : Prefix} (hread : h.read x = some pre)
    (hlive : 1 ≤ pre.refCount) : derefPrefix h (some x) = some (h.set x (dropRef pre)) := by
  have hpos : cAssert (pre.refCount > 0) = some () := cAssert_of (by omega)
  have hge : cAssert (pre.refCount - 1 ≥ 0) = some () := cAssert_of (by omega)
  simp only [derefPrefix, hread, hpos, hge, Option.bind_eq_bind, Option.bind_some, dropRef]
  by_cases hlast : pre.refCount ≤ 1
  · rw [if_pos hlast, if_pos (by omega), free_of_read hread]
  · rw [if_neg hlast, if_neg (by omega)]

/-- A reference less to a live prefix; the others are as before. -/
theorem derefPrefix_spec {h : Heap Prefix} {x : Nat} {w : List Bool} (hx : Spells h x w) :
    ∃ h', derefPrefix h (some x) = some h' ∧ ∀ y, h'.read y = if y = x then (h.read x).bind dropRef else h.read y := by
  obtain ⟨pre, hread, -, hlive⟩ := hx
  refine ⟨_, derefPrefix_eq hread hlive, fun y => ?_⟩
  rw [read_set hread, hread, Option.bind_some]

theorem Spells.congr {h h' : Heap Prefix} {x : Nat} {w : List Bool} (hx : Spells h x w)
    (heq : h'.read x = h.read x) : Spells h' x w := by
  obtain ⟨pre, hread, hrest⟩ := hx
  exact ⟨pre, heq.trans hread, hrest⟩

/-- A prefix stands for one word. -/
theorem Spells.word_eq {h : Heap Prefix} {x : Nat} {w w' : List Bool} (hx : Spells h x w)
    (hx' : Spells h x w') : w = w' := by
  obtain ⟨pre, hread, hword, -⟩ := hx
  obtain ⟨pre', hread', hword', -⟩ := hx'
  obtain rfl : pre = pre' := Option.some.inj (hread.symm.trans hread')
  exact hword.symm.trans hword'

/-! ### A small tree -/

/-- The first octet of an IPv4 address, with `bitlen` bits, that is referred to once. -/
def samplePrefix (o : UInt8) (bitlen : UInt16) : Prefix :=
  ⟨.inet, bitlen, 1, #v[o, 0, 0, 0, 0, 0, 0, 0, 0, 0, 0, 0, 0, 0, 0, 0]⟩

/-- 10.0.0.0/8 with data and 11.0.0.0/8 below a node that only branches; 10.0.0.0/16 is not in the tree. -/
def sampleTree : PatriciaTree Nat where
  head := some 2
  maxbits := 32
  numActiveNode := 3
  nodes := [some ⟨8, some 0, none, none, some 2, some 7⟩, some ⟨8, some 1, none, none, some 2, none⟩,
    some ⟨7, none, some 0, some 1, none, none⟩]
  prefixes := [some (samplePrefix 10 8), some (samplePrefix 11 8), some (samplePrefix 10 16)]

/-- The eight bits of an octet. -/
def octetWord (o : UInt8) : List Bool := bits (octetBit o) 8

def sampleTable : Table Nat := fun w =>
  if w = octetWord 10 then some ⟨0, 0, some 7⟩ else if w = octetWord 11 then some ⟨1, 1, none⟩ else none

theorem models_sample : Models sampleTree sampleTable := by
  let left : Cell Nat := ⟨0, octetWord 10, some (0, some 7)⟩
  let right : Cell Nat := ⟨1, octetWord 11, some (1, none)⟩
  let root : Cell Nat := ⟨2, (octetWord 10).take 7, none⟩
  have hcells : preorder (.node root (.node left .nil .nil) (.node right .nil .nil)) = [root, left, right] := rfl
  have hspells : ∀ x o, sampleTree.prefixes.read x = some (samplePrefix o 8) → (samplePrefix o 8).word = octetWord o →
      Spells sampleTree.prefixes x (octetWord o) := fun x o hread hword => ⟨_, hread, hword, Int.le_refl 1⟩
  refine ⟨.node root (.node left .nil .nil) (.node right .nil .nil), ⟨by decide, rfl, ⟨rfl, ⟨rfl, trivial, trivial⟩,
    ⟨rfl, trivial, trivial⟩⟩, by decide, ?_, rfl, ?_⟩, fun w e => ?_⟩
  · refine ⟨List.nil_prefix, .inr ⟨by simp, by simp⟩, ⟨by decide, .inl rfl, trivial, trivial⟩,
      ⟨by decide, .inl rfl, trivial, trivial⟩⟩
  · rw [hcells]
    simp only [List.mem_cons, List.not_mem_nil, or_false]
    rintro c (rfl | rfl | rfl)
    · exact ⟨by decide, by simp [root]⟩
    · refine ⟨by decide, ?_⟩
      rintro x d heq
      cases heq
      exact hspells 0 10 rfl (by decide)
    · refine ⟨by decide, ?_⟩
      rintro x d heq
      cases heq
      exact hspells 1 11 rfl (by decide)
  · rw [Holds, hcells]
    have hne : octetWord 11 ≠ octetWord 10 := by decide
    obtain ⟨node, pfx, data⟩ := e
    by_cases h10 : w = octetWord 10
    · subst h10
      simp [sampleTable, root, left, right, hne.symm, eq_comm]
    · by_cases h11 : w = octetWord 11
      · subst h11
        simp [sampleTable, root, left, right, hne, eq_comm]
      · simp [sampleTable, root, left, right, h10, h11]

end SrxNote.Patricia
