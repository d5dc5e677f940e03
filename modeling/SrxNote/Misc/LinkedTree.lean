import Mathlib.Data.List.Nodup
import Mathlib.Data.List.Perm.Subperm
import Mathlib.Data.List.Range
import Mathlib.Data.Tree.Basic
import SrxNote.Misc.Heap

/-!
# Binary trees linked on a heap

The nodes of a binary tree are objects on a heap that point to their children and
to their parent. `Linked` says that a heap holds a given tree, whose labels know the
addresses of their nodes. A `Frame` is a node with a hole below it; a list of them
leads from a subtree up to the root, so that a tree is taken apart at any of its
nodes (`linked_plug`) and put together again around another subtree
(`LinkedAbove.refill`).
-/

namespace SrxNote.LinkedTree

open Heap

/-- The pointers of a node. -/
structure Links where
  l : Option Nat
  r : Option Nat
  parent : Option Nat

/-- Where the node of a label is, and what it is for given pointers. -/
structure Layout (γ ν : Type) where
  addr : γ → Nat
  content : γ → Links → ν

variable {γ ν : Type} (lay : Layout γ ν)

/-- The pointer to a tree. -/
def ptr : BinaryTree γ → Option Nat
  | .nil => none
  | .node c _ _ => some (lay.addr c)

/-- The heap holds the tree, below the given parent. -/
def Linked (h : Heap ν) : Option Nat → BinaryTree γ → Prop
  | _, .nil => True
  | parent, .node c l r =>
      h.read (lay.addr c) = some (lay.content c ⟨ptr lay l, ptr lay r, parent⟩) ∧
        Linked h (some (lay.addr c)) l ∧ Linked h (some (lay.addr c)) r

/-- The labels, each before those below it. -/
def preorder : BinaryTree γ → List γ
  | .nil => []
  | .node c l r => c :: (preorder l ++ preorder r)

/-- The labels, each between those below it on the left and on the right. -/
def inorder : BinaryTree γ → List γ
  | .nil => []
  | .node c l r => inorder l ++ c :: inorder r

def addrs (t : BinaryTree γ) : List Nat := (preorder t).map lay.addr

/-- A node with a hole in place of one of its children. -/
structure Frame (γ : Type) where
  label : γ
  right : Bool
  other : BinaryTree γ

def Frame.fill (f : Frame γ) (t : BinaryTree γ) : BinaryTree γ :=
  if f.right then .node f.label f.other t else .node f.label t f.other

/-- The tree around a subtree, the frame next to the subtree first. -/
def plug : List (Frame γ) → BinaryTree γ → BinaryTree γ
  | [], t => t
  | f :: fs, t => plug fs (f.fill t)

def Frame.links (f : Frame γ) (hole parent : Option Nat) : Links :=
  if f.right then ⟨ptr lay f.other, hole, parent⟩ else ⟨hole, ptr lay f.other, parent⟩

/-- The parent of what is below the frames. -/
def parentPtr : List (Frame γ) → Option Nat
  | [] => none
  | f :: _ => some (lay.addr f.label)

/-- The pointer to the root above the frames, `hole` where there are none. -/
def rootPtr (hole : Option Nat) : List (Frame γ) → Option Nat
  | [] => hole
  | f :: fs => rootPtr (some (lay.addr f.label)) fs

/-- The heap holds the frames, with the pointer `hole` in the hole of the first one. -/
def LinkedAbove (h : Heap ν) (hole : Option Nat) : List (Frame γ) → Prop
  | [] => True
  | f :: fs =>
      h.read (lay.addr f.label) = some (lay.content f.label (f.links lay hole (parentPtr lay fs))) ∧
        Linked lay h (some (lay.addr f.label)) f.other ∧
        LinkedAbove h (some (lay.addr f.label)) fs

/-- The labels of the frames and beside them. -/
def above (fs : List (Frame γ)) : List γ := fs.flatMap fun f => f.label :: preorder f.other

def addrsAbove (fs : List (Frame γ)) : List Nat := (above fs).map lay.addr

variable {h h' : Heap ν} {t l r : BinaryTree γ} {c : γ} {f : Frame γ} {fs : List (Frame γ)}
  {parent hole : Option Nat}

/-! ### Labels -/

theorem inorder_perm (t : BinaryTree γ) : (inorder t).Perm (preorder t) := by
  induction t with
  | nil => exact .refl _
  | node c l r ihl ihr =>
      have hmiddle : (inorder l ++ c :: inorder r).Perm (c :: (inorder l ++ inorder r)) :=
        List.perm_middle
      exact hmiddle.trans ((ihl.append ihr).cons c)

theorem length_preorder (t : BinaryTree γ) : (preorder t).length = t.numNodes := by
  induction t with
  | nil => rfl
  | node c l r ihl ihr => simp [preorder, ihl, ihr]

theorem length_addrs (t : BinaryTree γ) : (addrs lay t).length = t.numNodes := by
  rw [addrs, List.length_map, length_preorder]

@[simp] theorem preorder_nil : preorder (.nil : BinaryTree γ) = [] := rfl

@[simp] theorem preorder_node (c : γ) (l r : BinaryTree γ) :
    preorder (.node c l r) = c :: (preorder l ++ preorder r) := rfl

theorem preorder_fill (f : Frame γ) (t : BinaryTree γ) :
    (preorder (f.fill t)).Perm (f.label :: preorder f.other ++ preorder t) := by
  unfold Frame.fill
  cases f.right with
  | true => exact .refl _
  | false => exact List.perm_append_comm.cons f.label

@[simp] theorem above_nil : above ([] : List (Frame γ)) = [] := rfl

@[simp] theorem above_cons (f : Frame γ) (fs : List (Frame γ)) :
    above (f :: fs) = f.label :: (preorder f.other ++ above fs) := by
  simp [above]

@[simp] theorem addrs_nil : addrs lay (.nil : BinaryTree γ) = [] := rfl

@[simp] theorem addrs_node (c : γ) (l r : BinaryTree γ) :
    addrs lay (.node c l r) = lay.addr c :: (addrs lay l ++ addrs lay r) := by
  simp [addrs]

@[simp] theorem addrsAbove_nil : addrsAbove lay ([] : List (Frame γ)) = [] := rfl

@[simp] theorem addrsAbove_cons (f : Frame γ) (fs : List (Frame γ)) :
    addrsAbove lay (f :: fs) = lay.addr f.label :: (addrs lay f.other ++ addrsAbove lay fs) := by
  simp [addrsAbove, addrs]

theorem preorder_plug (fs : List (Frame γ)) (t : BinaryTree γ) :
    (preorder (plug fs t)).Perm (above fs ++ preorder t) := by
  induction fs generalizing t with
  | nil => exact .refl _
  | cons f fs ih =>
      have hfill := (preorder_fill f t).append_left (above fs)
      have hswap := List.perm_append_comm_assoc (above fs) (f.label :: preorder f.other) (preorder t)
      refine (ih (f.fill t)).trans (hfill.trans (hswap.trans ?_))
      rw [above_cons, List.cons_append, List.cons_append, List.append_assoc]

theorem addrs_plug (fs : List (Frame γ)) (t : BinaryTree γ) :
    (addrs lay (plug fs t)).Perm (addrsAbove lay fs ++ addrs lay t) := by
  rw [addrsAbove, addrs, addrs, ← List.map_append]
  exact (preorder_plug fs t).map lay.addr

theorem mem_plug (fs : List (Frame γ)) (t : BinaryTree γ) (c : γ) :
    c ∈ preorder (plug fs t) ↔ c ∈ above fs ∨ c ∈ preorder t := by
  rw [(preorder_plug fs t).mem_iff, List.mem_append]

theorem length_above_add (fs : List (Frame γ)) (t : BinaryTree γ) :
    (plug fs t).numNodes = (above fs).length + t.numNodes := by
  rw [← length_preorder, (preorder_plug fs t).length_eq, List.length_append, length_preorder]

theorem length_le_above (fs : List (Frame γ)) : fs.length ≤ (above fs).length := by
  induction fs with
  | nil => exact le_rfl
  | cons f fs ih =>
      simp only [above_cons, List.length_cons, List.length_append]
      omega

theorem plug_append (fs gs : List (Frame γ)) (t : BinaryTree γ) :
    plug (fs ++ gs) t = plug gs (plug fs t) := by
  induction fs generalizing t with
  | nil => rfl
  | cons f fs ih => exact ih (f.fill t)

theorem fill_ne_nil (f : Frame γ) (t : BinaryTree γ) : f.fill t ≠ .nil := by
  unfold Frame.fill
  split <;> simp

theorem exists_fill (f : Frame γ) (t : BinaryTree γ) : ∃ l r, f.fill t = .node f.label l r := by
  unfold Frame.fill
  split
  · exact ⟨_, _, rfl⟩
  · exact ⟨_, _, rfl⟩

/-- A tree can be taken apart at each of its labels. -/
theorem exists_plug_of_mem (hc : c ∈ preorder t) : ∃ fs l r, t = plug fs (.node c l r) := by
  induction t with
  | nil => cases hc
  | node d l r ihl ihr =>
      rcases List.mem_cons.mp hc with rfl | hc
      · exact ⟨[], l, r, rfl⟩
      · rcases List.mem_append.mp hc with hc | hc
        · obtain ⟨fs, l', r', rfl⟩ := ihl hc
          exact ⟨fs ++ [⟨d, false, r⟩], l', r', by rw [plug_append]; rfl⟩
        · obtain ⟨fs, l', r', rfl⟩ := ihr hc
          exact ⟨fs ++ [⟨d, true, l⟩], l', r', by rw [plug_append]; rfl⟩

/-! ### Reading the heap -/

theorem ptr_fill (f : Frame γ) (t : BinaryTree γ) : ptr lay (f.fill t) = some (lay.addr f.label) := by
  unfold Frame.fill
  split <;> rfl

theorem ptr_plug (fs : List (Frame γ)) (t : BinaryTree γ) :
    ptr lay (plug fs t) = rootPtr lay (ptr lay t) fs := by
  induction fs generalizing t with
  | nil => rfl
  | cons f fs ih => rw [plug, ih, ptr_fill, rootPtr]

variable {lay}

theorem ptr_eq_none : ptr lay t = none ↔ t = .nil := by
  cases t <;> simp [ptr]

theorem linked_fill : Linked lay h parent (f.fill t) ↔
    h.read (lay.addr f.label) = some (lay.content f.label (f.links lay (ptr lay t) parent)) ∧
      Linked lay h (some (lay.addr f.label)) f.other ∧ Linked lay h (some (lay.addr f.label)) t := by
  unfold Frame.fill Frame.links
  cases f.right with
  | true => rfl
  | false => exact and_congr_right fun _ => and_comm

/-- A tree is on the heap when what is above one of its subtrees is, and the subtree is. -/
theorem linked_plug : Linked lay h none (plug fs t) ↔
    LinkedAbove lay h (ptr lay t) fs ∧ Linked lay h (parentPtr lay fs) t := by
  induction fs generalizing t with
  | nil => exact (true_and _).symm ▸ Iff.rfl
  | cons f fs ih =>
      rw [plug, ih, ptr_fill, linked_fill, LinkedAbove, parentPtr]
      constructor
      · rintro ⟨habove, hread, hother, ht⟩
        exact ⟨⟨hread, hother, habove⟩, ht⟩
      · rintro ⟨⟨hread, hother, habove⟩, ht⟩
        exact ⟨habove, hread, hother, ht⟩

/-- Every label has its node. -/
theorem Linked.exists_read (hl : Linked lay h parent t) (hc : c ∈ preorder t) :
    ∃ links, h.read (lay.addr c) = some (lay.content c links) := by
  induction t generalizing parent with
  | nil => cases hc
  | node d l r ihl ihr =>
      obtain ⟨hread, hl', hr'⟩ := hl
      rcases List.mem_cons.mp hc with rfl | hc
      · exact ⟨_, hread⟩
      · rcases List.mem_append.mp hc with hc | hc
        · exact ihl hl' hc
        · exact ihr hr' hc

/-- A tree on a heap has at most as many nodes as were ever allocated. -/
theorem Linked.numNodes_le (hl : Linked lay h parent t) (hnodup : (addrs lay t).Nodup) :
    t.numNodes ≤ h.fresh := by
  have hsub : addrs lay t ⊆ List.range h.fresh := by
    intro p hp
    obtain ⟨c, hc, rfl⟩ := List.mem_map.mp hp
    obtain ⟨links, hread⟩ := hl.exists_read hc
    exact List.mem_range.mpr (lt_fresh_of_read hread)
  have hle := (hnodup.subperm hsub).length_le
  rwa [length_addrs, List.length_range] at hle

/-! ### Writing to the heap -/

/-- A tree stays where nothing is written to its nodes. -/
theorem Linked.congr (hl : Linked lay h parent t)
    (heq : ∀ p ∈ addrs lay t, h'.read p = h.read p) : Linked lay h' parent t := by
  induction t generalizing parent with
  | nil => trivial
  | node c l r ihl ihr =>
      obtain ⟨hread, hl', hr'⟩ := hl
      rw [addrs_node] at heq
      refine ⟨by rw [heq _ (by simp), hread], ihl hl' ?_, ihr hr' ?_⟩
      · exact fun p hp => heq p (by simp [hp])
      · exact fun p hp => heq p (by simp [hp])

theorem LinkedAbove.congr (hl : LinkedAbove lay h hole fs)
    (heq : ∀ p ∈ addrsAbove lay fs, h'.read p = h.read p) : LinkedAbove lay h' hole fs := by
  induction fs generalizing hole with
  | nil => trivial
  | cons f fs ih =>
      obtain ⟨hread, hother, habove⟩ := hl
      rw [addrsAbove_cons] at heq
      refine ⟨by rw [heq _ (by simp), hread], hother.congr ?_, ih habove ?_⟩
      · exact fun p hp => heq p (by simp [hp])
      · exact fun p hp => heq p (by simp [hp])

/-- Another pointer in the hole of the first frame. -/
theorem LinkedAbove.refill (hl : LinkedAbove lay h hole (f :: fs)) {hole' : Option Nat}
    (hnew : h'.read (lay.addr f.label) =
      some (lay.content f.label (f.links lay hole' (parentPtr lay fs))))
    (hother : ∀ p ∈ addrs lay f.other, h'.read p = h.read p)
    (habove : ∀ p ∈ addrsAbove lay fs, h'.read p = h.read p) :
    LinkedAbove lay h' hole' (f :: fs) :=
  ⟨hnew, hl.2.1.congr hother, hl.2.2.congr habove⟩

/-- Another parent of the root. -/
theorem Linked.reparent (hl : Linked lay h parent (.node c l r)) {parent' : Option Nat}
    (hnew : h'.read (lay.addr c) = some (lay.content c ⟨ptr lay l, ptr lay r, parent'⟩))
    (heq : ∀ p ∈ addrs lay l ++ addrs lay r, h'.read p = h.read p) :
    Linked lay h' parent' (.node c l r) :=
  ⟨hnew, hl.2.1.congr fun p hp => heq p (List.mem_append_left _ hp),
    hl.2.2.congr fun p hp => heq p (List.mem_append_right _ hp)⟩

end SrxNote.LinkedTree
