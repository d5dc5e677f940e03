import SrxNote.Patricia.Proofs.Table
import SrxNote.Patricia.Walk

/-!
# Who owns the nodes

`num_active_node` counts the nodes that were allocated and not freed: each function
counts what it allocates and frees. As it is the size of the tree too, every live node
is in the tree.
-/

namespace SrxNote.Patricia

open Heap LinkedTree

variable {δ : Type} {s s' : PatriciaTree δ} {t : BinaryTree (Cell δ)} {p q : Nat}

/-- The counter is the number of live nodes. -/
def Counted (s : PatriciaTree δ) : Prop := s.numActiveNode = s.nodes.live

theorem counted_newPatricia {prefixes : Heap Prefix} {maxbits : Int}
    (hs : newPatricia prefixes maxbits = some s) : Counted s := by
  simp only [newPatricia, Option.bind_eq_bind, Option.bind_eq_some_iff] at hs
  obtain ⟨-, -, hs⟩ := hs
  cases hs
  rfl

theorem Counted.modify (h : Counted s) {f : PatriciaNode δ → PatriciaNode δ} (hs : s.modify p f = some s') :
    Counted s' := by
  obtain ⟨node, hread, rfl⟩ := Option.map_eq_some_iff.mp hs
  have hlive := live_set hread (some (f node))
  rw [Option.toList_some, List.length_singleton] at hlive
  rw [Counted] at h ⊢
  simp only [h]
  omega

theorem Counted.calloc (h : Counted s) (node : PatriciaNode δ) : Counted (s.calloc node) := by
  rw [Counted, PatriciaTree.calloc, live_alloc, h]
  rfl

theorem Counted.delete (h : Counted s) (hs : s.delete p = some s') : Counted s' := by
  obtain ⟨nodes, hfree, rfl⟩ := Option.map_eq_some_iff.mp hs
  rw [free] at hfree
  split at hfree
  · rename_i hsome
    obtain ⟨node, hread⟩ := Option.isSome_iff_exists.mp hsome
    have hlive := live_set hread none
    rw [Option.toList_none, List.length_nil] at hlive
    cases hfree
    rw [Counted] at h ⊢
    simp only [h]
    omega
  · cases hfree

theorem Counted.relink (h : Counted s) {parent new : Option Nat} (hs : relink s parent p new = some s') :
    Counted s' := by
  unfold Patricia.relink at hs
  cases parent with
  | none =>
      simp only [Option.bind_eq_bind, Option.bind_eq_some_iff] at hs
      obtain ⟨-, -, hs⟩ := hs
      cases hs
      exact h
  | some q =>
      simp only [Option.bind_eq_bind, Option.bind_eq_some_iff] at hs
      obtain ⟨node, -, hs⟩ := hs
      split at hs
      · exact h.modify hs
      · obtain ⟨-, -, hs⟩ := Option.bind_eq_some_iff.mp hs
        exact h.modify hs

theorem Counted.replaceInParent (h : Counted s) {parent : Option Nat} {new : Nat}
    (hs : replaceInParent s parent p new = some s') : Counted s' := by
  unfold Patricia.replaceInParent at hs
  cases parent with
  | none =>
      simp only [Option.bind_eq_bind, Option.bind_eq_some_iff] at hs
      obtain ⟨-, -, hs⟩ := hs
      cases hs
      exact h
  | some q =>
      simp only [Option.bind_eq_bind, Option.bind_eq_some_iff] at hs
      obtain ⟨node, -, hs⟩ := hs
      split at hs
      · exact h.modify hs
      · exact h.modify hs

/-! ### Inserting -/

theorem Counted.attachChild (h : Counted s) {addr : Vector UInt8 16} {new : Nat}
    (hs : attachChild s addr p new = some s') : Counted s' := by
  simp only [Patricia.attachChild, Option.bind_eq_bind, Option.bind_eq_some_iff] at hs
  obtain ⟨s₁, hs₁, node, -, b, -, hs⟩ := hs
  split at hs
  · obtain ⟨-, -, hs⟩ := Option.bind_eq_some_iff.mp hs
    exact (h.modify hs₁).modify hs
  · obtain ⟨-, -, hs⟩ := Option.bind_eq_some_iff.mp hs
    exact (h.modify hs₁).modify hs

theorem Counted.attachParent (h : Counted s) {addr : Vector UInt8 16} {bitlen new : Nat}
    (hs : attachParent s addr bitlen p new = some s') : Counted s' := by
  simp only [Patricia.attachParent, Option.bind_eq_bind, Option.bind_eq_some_iff] at hs
  obtain ⟨b, -, s₁, hs₁, node, -, s₂, hs₂, s₃, hs₃, hs⟩ := hs
  exact (((h.modify hs₁).modify hs₂).replaceInParent hs₃).modify hs

theorem Counted.attachGlue (h : Counted s) {addr : Vector UInt8 16} {differ new : Nat}
    (hs : attachGlue s addr differ p new = some s') : Counted s' := by
  simp only [Patricia.attachGlue, Option.bind_eq_bind, Option.bind_eq_some_iff] at hs
  obtain ⟨node, -, b, -, s₁, hs₁, s₂, hs₂, s₃, hs₃, hs⟩ := hs
  exact ((((h.calloc _).modify hs₁).modify hs₂).replaceInParent hs₃).modify hs

theorem Counted.patriciaLookup (h : Counted s) {x : Nat} (hs : patriciaLookup s x = some (s', p)) :
    Counted s' := by
  simp only [Patricia.patriciaLookup, Option.bind_eq_bind, Option.bind_eq_some_iff] at hs
  obtain ⟨pre, -, -, -, hs⟩ := hs
  cases hhead : s.head with
  | none =>
      simp only [hhead, Option.bind_eq_some_iff] at hs
      obtain ⟨⟨prefixes, own⟩, -, hs⟩ := hs
      cases hs
      exact Counted.calloc (s := { s with prefixes := prefixes }) h _
  | some head =>
      simp only [hhead, Option.bind_eq_some_iff] at hs
      obtain ⟨⟨test, differ, place⟩, -, node, -, hs⟩ := hs
      split at hs
      · split at hs
        · cases hs
          exact h
        · simp only [Option.bind_eq_some_iff] at hs
          obtain ⟨⟨prefixes, own⟩, -, s₁, hs₁, -, -, hs⟩ := hs
          cases hs
          exact Counted.modify (s := { s with head := some head, prefixes := prefixes }) h hs₁
      · simp only [Option.bind_eq_some_iff] at hs
        obtain ⟨⟨prefixes, own⟩, -, hs⟩ := hs
        have hcalloc := fun node => Counted.calloc (s := { s with head := some head, prefixes := prefixes }) h node
        split at hs
        · obtain ⟨s₁, hs₁, hs⟩ := Option.map_eq_some_iff.mp hs
          cases hs
          exact (hcalloc _).attachChild hs₁
        · split at hs
          · obtain ⟨s₁, hs₁, hs⟩ := Option.map_eq_some_iff.mp hs
            cases hs
            exact (hcalloc _).attachParent hs₁
          · obtain ⟨s₁, hs₁, hs⟩ := Option.map_eq_some_iff.mp hs
            cases hs
            exact (hcalloc _).attachGlue hs₁

/-! ### Removing -/

theorem Counted.removeGlue (h : Counted s) (hs : removeGlue s p q = some s') : Counted s' := by
  simp only [Patricia.removeGlue, Option.bind_eq_bind, Option.bind_eq_some_iff] at hs
  obtain ⟨parent, -, s₁, hs₁, hs⟩ := hs
  split at hs
  · cases hs
    exact h.relink hs₁
  · simp only [Option.bind_eq_some_iff] at hs
    obtain ⟨s₂, hs₂, child, -, s₃, hs₃, hs⟩ := hs
    exact (((h.relink hs₁).relink hs₂).modify hs₃).delete hs

theorem Counted.patriciaRemove (h : Counted s) (hs : patriciaRemove s p = some s') : Counted s' := by
  simp only [Patricia.patriciaRemove, Option.bind_eq_bind, Option.bind_eq_some_iff] at hs
  obtain ⟨node, -, prefixes, -, hs⟩ := hs
  have h : Counted { s with prefixes := prefixes } := h
  split at hs
  · exact h.modify hs
  · simp only [Option.bind_eq_some_iff] at hs
    obtain ⟨s₁, hs₁, hs⟩ := hs
    split at hs
    · exact (h.delete hs₁).relink hs
    · exact (h.delete hs₁).removeGlue hs
  · split at hs
    · simp only [Option.bind_eq_some_iff] at hs
      obtain ⟨child, -, s₁, hs₁, s₂, hs₂, hs⟩ := hs
      exact ((h.modify hs₁).delete hs₂).relink hs
    · simp only [Option.bind_eq_some_iff] at hs
      obtain ⟨child, -, s₁, hs₁, s₂, hs₂, hs⟩ := hs
      exact ((h.modify hs₁).delete hs₂).relink hs

/-! ### The tree has them all -/

theorem Represents.live_eq (h : Represents s t) (hcounted : Counted s) : s.nodes.live = (addrs layout t).length := by
  have hactive := h.active
  rw [length_addrs]
  rw [Counted] at hcounted
  omega

/-- Every live node is in the tree. -/
theorem Represents.mem_addrs (h : Represents s t) (hcounted : Counted s) (hp : (s.nodes.read p).isSome) :
    p ∈ addrs layout t := by
  refine mem_of_live ?_ h.nodup (h.live_eq hcounted) hp
  intro q hq
  obtain ⟨c, hc, rfl⟩ := List.mem_map.mp hq
  obtain ⟨links, hread⟩ := h.linked.exists_read hc
  rw [hread]
  rfl

end SrxNote.Patricia
