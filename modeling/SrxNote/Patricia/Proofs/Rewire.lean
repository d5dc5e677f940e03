import SrxNote.Patricia.Proofs.Table

/-!
# Another subtree in the place of one

Inserting and removing both take a tree apart at one node and put another subtree
below what is above it. Only the parent of the place is written to (`relink_spec`);
the invariants of the whole tree follow from those of the new subtree
(`Represents.rewire`).
-/

namespace SrxNote.Patricia

open Heap LinkedTree PrefixTree

variable {δ : Type} {s s' : PatriciaTree δ} {t sub sub' l r : BinaryTree (Cell δ)}
  {gs : List (Frame (Cell δ))} {c : Cell δ} {p : Nat}

@[simp] theorem fresh_set {α : Type} (h : Heap α) (p : Nat) (x : Option α) :
    fresh (h.set p x) = h.fresh := by
  simp [fresh]

theorem ptr_ne_of_not_mem (h : p ∉ addrs layout sub) : ptr layout sub ≠ some p := by
  cases sub with
  | nil => simp [ptr]
  | node c l r =>
      intro heq
      apply h
      obtain rfl : layout.addr c = p := Option.some.inj heq
      simp

/-- The nodes of a tree are apart from each other. -/
theorem nodup_plug (hnodup : (addrs layout (plug gs sub)).Nodup) :
    (addrsAbove layout gs).Nodup ∧ (addrs layout sub).Nodup ∧
      ∀ q ∈ addrs layout sub, q ∉ addrsAbove layout gs := by
  obtain ⟨habove, hsub, hapart⟩ := List.nodup_append.mp ((addrs_plug layout gs sub).nodup_iff.mp hnodup)
  exact ⟨habove, hsub, fun q hq hq' => hapart q hq' q hq rfl⟩

theorem not_mem_plug (hq : p ∉ addrs layout (plug gs sub)) :
    p ∉ addrsAbove layout gs ∧ p ∉ addrs layout sub := by
  rw [(addrs_plug layout gs sub).mem_iff, List.mem_append, not_or] at hq
  exact hq

/-- The parent of the place of `p` gets another pointer, and no other node is written to. -/
theorem relink_spec (habove : LinkedAbove layout s.nodes (some p) gs)
    (hhead : s.head = rootPtr layout (some p) gs) (hnodup : (addrsAbove layout gs).Nodup)
    (hp : p ∉ addrsAbove layout gs) (new : Option Nat) :
    ∃ nodes, relink s (parentPtr layout gs) p new =
        some { s with head := rootPtr layout new gs, nodes := nodes } ∧
      nodes.fresh = s.nodes.fresh ∧ LinkedAbove layout nodes new gs ∧
      ∀ q ∉ addrsAbove layout gs, nodes.read q = s.nodes.read q := by
  cases gs with
  | nil =>
      have hassert : cAssert (s.head = some p) = some () := cAssert_of hhead
      refine ⟨s.nodes, ?_, rfl, trivial, fun _ _ => rfl⟩
      simp only [relink, parentPtr, rootPtr, hassert, Option.bind_eq_bind, Option.bind_some]
  | cons f fs =>
      have hread := habove.1
      rw [addrsAbove_cons] at hnodup hp
      obtain ⟨hlabel, -⟩ := List.nodup_cons.mp hnodup
      have hother : ptr layout f.other ≠ some p := ptr_ne_of_not_mem (by simp_all)
      have hroot : rootPtr layout new (f :: fs) = s.head := hhead.symm
      refine ⟨_, ?_, fresh_set _ f.label.addr
        (some (layout.content f.label (f.links layout new (parentPtr layout fs)))), ?_, ?_⟩
      · rw [hroot, parentPtr, relink]
        simp only [Option.bind_eq_bind]
        rw [layout_addr] at hread ⊢
        rw [hread, Option.bind_some]
        unfold Frame.links at hread ⊢
        cases hright : f.right with
        | true =>
            rw [hright] at hread
            rw [if_pos (by simp), modify_of_read hread]
            rfl
        | false =>
            rw [hright] at hread
            rw [if_neg (by simpa using hother), modify_of_read hread]
            simp
      · refine habove.refill (read_set_self hread _) ?_ ?_
        · rintro q hq
          have hne : q ≠ f.label.addr := by
            rintro rfl
            exact hlabel (List.mem_append_left _ hq)
          exact read_set_of_ne _ hne _
        · rintro q hq
          have hne : q ≠ f.label.addr := by
            rintro rfl
            exact hlabel (List.mem_append_right _ hq)
          exact read_set_of_ne _ hne _
      · intro q hq
        refine read_set_of_ne _ ?_ _
        rintro rfl
        simp at hq

/-- Where the parent is changed with an assertion, it is without one. -/
theorem replaceInParent_of_relink {parent : Option Nat} {new : Nat}
    (h : relink s parent p (some new) = some s') : replaceInParent s parent p new = some s' := by
  cases parent with
  | none => exact h
  | some q =>
      simp only [relink, replaceInParent, Option.bind_eq_bind, Option.bind_eq_some_iff] at h ⊢
      obtain ⟨node, hread, h⟩ := h
      refine ⟨node, hread, ?_⟩
      by_cases hr : node.r = some p
      · rw [if_pos hr] at h ⊢
        exact h
      · rw [if_neg hr] at h ⊢
        obtain ⟨-, -, h⟩ := Option.bind_eq_some_iff.mp h
        exact h

/-- The cells of a tree, that of one node first. -/
theorem preorder_focus (gs : List (Frame (Cell δ))) (c : Cell δ) (l r : BinaryTree (Cell δ)) :
    (preorder (plug gs (.node c l r))).Perm (c :: (above gs ++ (preorder l ++ preorder r))) :=
  (preorder_plug gs _).trans List.perm_middle

theorem Represents.read_focus (h : Represents s (plug gs (.node c l r))) :
    s.nodes.read c.addr = some (layout.content c ⟨ptr layout l, ptr layout r, parentPtr layout gs⟩) :=
  (linked_plug.mp h.linked).2.1

/-- Another entry of a node. -/
theorem Represents.relabel (h : Represents s (plug gs (.node c l r))) (entry : Option (Nat × Option δ))
    (prefixes : Heap Prefix) (hentry : entry.isSome ∨ (l ≠ .nil ∧ r ≠ .nil))
    (hothers : ∀ d ∈ above gs ++ (preorder l ++ preorder r), ∀ y e, d.entry = some (y, e) →
      Spells prefixes y d.word)
    (hown : ∀ y e, entry = some (y, e) → Spells prefixes y c.word) :
    Represents
      { s with
        nodes := s.nodes.set c.addr (some (layout.content { c with entry := entry }
          ⟨ptr layout l, ptr layout r, parentPtr layout gs⟩))
        prefixes := prefixes }
      (plug gs (.node { c with entry := entry } l r)) := by
  obtain ⟨habove, hread, hl, hr⟩ := linked_plug.mp h.linked
  obtain ⟨hcabove, hu, -, hcl, hcr⟩ := (compressed_plug (by simp)).mp h.compressed
  obtain ⟨hnodupabove, hnodup, hapart⟩ := nodup_plug h.nodup
  rw [addrs_node] at hnodup hapart
  obtain ⟨hc, -⟩ := List.nodup_cons.mp hnodup
  have hwords := h.cells
  refine ⟨h.maxbits_le, ?_, linked_plug.mpr ⟨?_, ?_⟩, ?_, ?_, ?_, ?_⟩
  · rw [h.head, ptr_plug, ptr_plug]
    rfl
  · refine habove.congr fun p hp => read_set_of_ne _ ?_ _
    rintro rfl
    exact hapart _ List.mem_cons_self hp
  · refine ⟨read_set_self hread _, hl.congr fun p hp => read_set_of_ne _ ?_ _,
      hr.congr fun p hp => read_set_of_ne _ ?_ _⟩
    · rintro rfl
      exact hc (List.mem_append_left _ hp)
    · rintro rfl
      exact hc (List.mem_append_right _ hp)
  · have hsame := (addrs_plug layout gs (.node c l r)).nodup_iff.mp h.nodup
    rw [(addrs_plug layout gs _).nodup_iff, addrs_node]
    rw [addrs_node] at hsame
    exact hsame
  · exact (compressed_plug (by simp)).mpr ⟨hcabove, hu, hentry, hcl, hcr⟩
  · rw [h.active, length_above_add, length_above_add, BinaryTree.numNodes, BinaryTree.numNodes]
  · intro d hd
    rcases List.mem_cons.mp ((preorder_focus gs _ l r).mem_iff.mp hd) with rfl | hd
    · exact ⟨(hwords c ((preorder_focus gs c l r).mem_iff.mpr List.mem_cons_self)).1, hown⟩
    · exact ⟨(hwords d ((preorder_focus gs c l r).mem_iff.mpr (List.mem_cons_of_mem c hd))).1, hothers d hd⟩

theorem not_mem_focus (hnodup : (addrs layout (plug gs (.node c l r))).Nodup) :
    c ∉ above gs ++ (preorder l ++ preorder r) := by
  intro hmem
  rw [addrs, ((preorder_focus gs c l r).map _).nodup_iff, List.map_cons, List.nodup_cons] at hnodup
  exact hnodup.1 (List.mem_map_of_mem hmem)

/-- The other cells are as before. -/
theorem mem_relabel (hnodup : (addrs layout (plug gs (.node c l r))).Nodup) {entry : Option (Nat × Option δ)}
    {d : Cell δ} : d ∈ preorder (plug gs (.node { c with entry := entry } l r)) ↔
      d = { c with entry := entry } ∨ d ∈ preorder (plug gs (.node c l r)) ∧ d ≠ c := by
  have hperm := preorder_focus gs c l r
  have hnot := not_mem_focus hnodup
  rw [(preorder_focus gs _ l r).mem_iff, hperm.mem_iff, List.mem_cons, List.mem_cons]
  constructor
  · rintro (heq | hmem)
    · exact .inl heq
    · exact .inr ⟨.inr hmem, fun heq => hnot (heq ▸ hmem)⟩
  · rintro (heq | ⟨heq | hmem, hne⟩)
    · exact .inl heq
    · exact absurd heq hne
    · exact .inr hmem

end SrxNote.Patricia
