import Mathlib.Data.List.Basic

/-!
# Objects behind handles

Objects that are allocated, read and freed through handles. A handle is the
index of its object and is never given out twice; a freed object cannot be read
or freed again.
-/

namespace SrxNote

/-- The objects in the order of their allocation; `none` is one that was freed. -/
abbrev Heap (α : Type) := List (Option α)

namespace Heap

variable {α : Type}

/-- The handle of the object that is allocated next. -/
def fresh (h : Heap α) : Nat := List.length h

/-- Allocate an object. -/
def alloc (h : Heap α) (x : α) : Heap α := h ++ [some x]

/-- The object behind a handle, when it was allocated and not freed. -/
def read (h : Heap α) (p : Nat) : Option α := (h[p]?).join

/-- Free an object; `none` when there is none behind the handle. -/
def free (h : Heap α) (p : Nat) : Option (Heap α) :=
  if (h.read p).isSome then some (h.set p none) else none

theorem lt_fresh_of_read {h : Heap α} {p : Nat} {x : α} (hp : h.read p = some x) :
    p < h.fresh := by
  by_contra hle
  have hnone : h[p]? = none := List.getElem?_eq_none (Nat.le_of_not_lt hle)
  rw [read, hnone] at hp
  cases hp

theorem read_alloc_fresh (h : Heap α) (x : α) : (h.alloc x).read h.fresh = some x := by
  simp [read, alloc, fresh]

/-- An allocation leaves what can be read as it is. -/
theorem read_alloc {h : Heap α} {p : Nat} {x : α} (hp : h.read p = some x) (y : α) :
    (h.alloc y).read p = some x := by
  have hlt : p < List.length h := lt_fresh_of_read hp
  rw [read, alloc, List.getElem?_append_left hlt]
  exact hp

theorem free_of_read {h : Heap α} {p : Nat} {x : α} (hp : h.read p = some x) :
    h.free p = some (h.set p none) := by
  rw [free, hp]
  rfl

/-- Freeing an object leaves the others as they are. -/
theorem read_set_of_ne (h : Heap α) {p q : Nat} (hne : q ≠ p) (x : Option α) :
    read (h.set p x) q = h.read q := by
  rw [read, read, List.getElem?_set_ne (Ne.symm hne)]

end Heap

end SrxNote
