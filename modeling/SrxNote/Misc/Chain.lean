import Mathlib.Data.List.Flatten
import SrxNote.Misc.Alloc

/-!
# Copying a chain of nodes

The loop that copies a singly linked chain: the node at hand is filled from its
source, and while the source has a successor a new node is allocated and linked
behind it. Filling a node may allocate and may fail. The copy consists of the
first node and of what the loop allocated (`copyChain_eq_some`).
-/

namespace SrxNote.Heap

variable {α β γ : Type}

/-- Copy a chain into a new one whose first node is already there. Without a source node the
    first access fails. -/
def copyChain (zero : γ) (fill : Heap γ → Nat → α → Option (Heap γ × β)) (h : Heap γ) (new : Nat) :
    List α → Option (Heap γ × List β)
  | [] => none
  | src :: srcs =>
      match fill h new src with
      | none => none
      | some (h, y) =>
          match srcs with
          | [] => some (h, [y])
          | next :: rest =>
              match copyChain zero fill (h.alloc zero) h.fresh (next :: rest) with
              | none => none
              | some (h, ys) => some (h, y :: ys)

section

variable {zero : γ} {fill : Heap γ → Nat → α → Option (Heap γ × β)}

/-- If filling a node allocates what it adds to the node and relates source and node, then copying
    a chain does so for the chain. -/
theorem copyChain_eq_some (addrs : β → List Nat) (R : α → β → Prop)
    (hfill : ∀ h new src h' y, fill h new src = some (h', y) →
      ∃ ps, Allocated zero h h' ps ∧ (addrs y).Perm (new :: ps) ∧ R src y)
    {h h' : Heap γ} {new : Nat} {srcs : List α} {ys : List β}
    (hcopy : copyChain zero fill h new srcs = some (h', ys)) :
    ∃ ps, Allocated zero h h' ps ∧ (ys.flatMap addrs).Perm (new :: ps) ∧
      List.Forall₂ R srcs ys := by
  induction srcs generalizing h new ys with
  | nil => cases hcopy
  | cons src srcs ih =>
      rw [copyChain] at hcopy
      split at hcopy
      · cases hcopy
      · rename_i h₁ y hy
        obtain ⟨ps, halloc, hperm, hR⟩ := hfill _ _ _ _ _ hy
        cases srcs with
        | nil =>
            cases hcopy
            exact ⟨ps, halloc, by simpa using hperm, .cons hR .nil⟩
        | cons next rest =>
            simp only at hcopy
            split at hcopy
            · cases hcopy
            · rename_i h₂ ys' hys
              cases hcopy
              obtain ⟨qs, halloc', hperm', hrest⟩ := ih hys
              have hnode : Allocated zero h h' (ps ++ ([h₁.fresh] ++ qs)) :=
                halloc.trans ((Allocated.alloc zero h₁).trans halloc')
              refine ⟨_, hnode, ?_, .cons hR hrest⟩
              rw [List.flatMap_cons]
              exact hperm.append hperm'

theorem copyChain_isSome {srcs : List α} (hne : srcs ≠ [])
    (hfill : ∀ src ∈ srcs, ∀ h new, (fill h new src).isSome) (h : Heap γ) (new : Nat) :
    (copyChain zero fill h new srcs).isSome := by
  induction srcs generalizing h new with
  | nil => exact absurd rfl hne
  | cons src srcs ih =>
      obtain ⟨⟨h₁, y⟩, hy⟩ := Option.isSome_iff_exists.mp (hfill src (by simp) h new)
      rw [copyChain, hy]
      cases srcs with
      | nil => rfl
      | cons next rest =>
          have hrest := ih (by simp) (fun s hs => hfill s (List.mem_cons_of_mem src hs))
            (h₁.alloc zero) h₁.fresh
          obtain ⟨⟨h₂, ys⟩, hys⟩ := Option.isSome_iff_exists.mp hrest
          simp [hys]

/-- What the copies hold, where the allocations do not matter. -/
theorem copyChain_map {δ : Type} {f : α → Option δ} (g : β → δ)
    (hfill : ∀ h new src, (fill h new src).map (fun r => g r.2) = f src) {srcs : List α}
    (hne : srcs ≠ []) (h : Heap γ) (new : Nat) :
    (copyChain zero fill h new srcs).map (fun r => r.2.map g) = srcs.mapM f := by
  induction srcs generalizing h new with
  | nil => exact absurd rfl hne
  | cons src srcs ih =>
      rw [copyChain, List.mapM_cons, ← hfill h new src]
      cases fill h new src with
      | none => rfl
      | some r =>
          cases srcs with
          | nil => rfl
          | cons next rest =>
              have hrest := ih (by simp) (r.1.alloc zero) r.1.fresh
              simp only [Option.map_some, Option.bind_eq_bind, Option.bind_some, ← hrest]
              cases copyChain zero fill (r.1.alloc zero) r.1.fresh (next :: rest) <;> rfl

end

end SrxNote.Heap
