import SrxNote.Patricia.Proofs.Rewire

/-!
# A new node in the tree

`patricia_lookup` puts a new node below, above or beside a node of the tree. The node
at which this is done is the subtree that is replaced.
-/

namespace SrxNote.Patricia

open Heap LinkedTree PrefixTree

variable {δ : Type} {s : PatriciaTree δ} {l r : BinaryTree (Cell δ)} {gs : List (Frame (Cell δ))}
  {c new : Cell δ} {addr : Vector UInt8 16} {b : Bool}

/-- A node that is not yet in the tree. -/
structure Detached (s : PatriciaTree δ) (t : BinaryTree (Cell δ)) (new : Cell δ) : Prop where
  linked : Linked layout s.nodes none t
  nodup : (addrs layout t).Nodup
  head : s.head = ptr layout t
  node : s.nodes.read new.addr = some (layout.content new ⟨none, none, none⟩)
  outside : new.addr ∉ addrs layout t

/-- The new node is a child of `c`. -/
theorem attachChild_spec (h : Detached s (plug gs (.node c l r)) new)
    (hside : goesRight s addr c.word.length = some b) (hfree : (if b then r else l) = .nil) :
    ∃ nodes, attachChild s addr c.addr new.addr = some { s with nodes := nodes } ∧
      Linked layout nodes none (plug gs (Frame.fill ⟨c, b, if b then l else r⟩ (.node new .nil .nil))) := by
  obtain ⟨habove, hcread, hl, hr⟩ := linked_plug.mp h.linked
  obtain ⟨-, hnodup, hapart⟩ := nodup_plug h.nodup
  obtain ⟨hnewabove, hnewsub⟩ := not_mem_plug h.outside
  rw [addrs_node, List.mem_cons, not_or] at hnewsub
  rw [addrs_node] at hnodup hapart
  obtain ⟨hc, -⟩ := List.nodup_cons.mp hnodup
  simp only [layout_addr] at hcread hc hnewsub
  have hread := h.node
  have hne : c.addr ≠ new.addr := Ne.symm hnewsub.1
  let nodes₁ := s.nodes.set new.addr (some (layout.content new ⟨none, none, some c.addr⟩))
  have hcread₁ : read nodes₁ c.addr = s.nodes.read c.addr := read_set_of_ne _ hne _
  let f : Frame (Cell δ) := ⟨c, b, if b then l else r⟩
  let nodes := List.set nodes₁ c.addr (some (layout.content c (f.links layout (some new.addr) (parentPtr layout gs))))
  have hcnew : read nodes c.addr = _ := read_set_self (hcread₁.trans hcread) _
  have hnew : read nodes new.addr = some (layout.content new ⟨none, none, some c.addr⟩) := by
    rw [read_set_of_ne _ hne.symm, read_set_self hread]
  have hsame : ∀ q, q ≠ c.addr → q ≠ new.addr → read nodes q = s.nodes.read q := by
    intro q hqc hqnew
    rw [read_set_of_ne _ hqc, read_set_of_ne _ hqnew]
  refine ⟨nodes, ?_, linked_plug.mpr ⟨?_, linked_fill.mpr ⟨hcnew, ?_, hnew, trivial, trivial⟩⟩⟩
  · have hgoes : goesRight { s with nodes := nodes₁ } addr c.word.length = some b := hside
    simp only [attachChild, modify_of_read hread, Option.bind_eq_bind, Option.bind_some]
    rw [show s.nodes.set new.addr (some { layout.content new ⟨none, none, none⟩ with parent := some c.addr }) = nodes₁
      from rfl, hcread₁, hcread, Option.bind_some, layout_content, hgoes, Option.bind_some]
    cases b with
    | true =>
        obtain rfl : r = .nil := hfree
        rw [if_pos rfl, modify_of_read (hcread₁.trans hcread)]
        simp [ptr, nodes, f, Frame.links]
    | false =>
        obtain rfl : l = .nil := hfree
        rw [if_neg (by simp), modify_of_read (hcread₁.trans hcread)]
        simp [ptr, nodes, f, Frame.links]
  · rw [ptr_fill]
    refine habove.congr fun q hq => hsame q ?_ ?_
    · rintro rfl
      exact hapart _ List.mem_cons_self hq
    · rintro rfl
      exact hnewabove hq
  · have hother : Linked layout s.nodes (some c.addr) f.other := by
      cases b with
      | true => exact hl
      | false => exact hr
    have hmem : ∀ q ∈ addrs layout f.other, q ∈ addrs layout l ++ addrs layout r := by
      intro q hq
      cases b with
      | true => exact List.mem_append_left _ hq
      | false => exact List.mem_append_right _ hq
    refine hother.congr fun q hq => hsame q ?_ ?_
    · rintro rfl
      exact hc (hmem _ hq)
    · rintro rfl
      exact hnewsub.2 (hmem _ hq)

/-- The node of the frame `f` comes between a subtree and what is above it. -/
theorem placeAbove_spec {f : Frame (Cell δ)} (hl : Linked layout s.nodes none (plug gs (.node c l r)))
    (hnodup : (addrs layout (plug gs (.node c l r))).Nodup) (hhead : s.head = ptr layout (plug gs (.node c l r)))
    (hf : s.nodes.read f.label.addr =
      some (layout.content f.label (f.links layout (some c.addr) (parentPtr layout gs))))
    (hother : Linked layout s.nodes (some f.label.addr) f.other)
    (houtside : ∀ q ∈ f.label.addr :: addrs layout f.other, q ∉ addrs layout (plug gs (.node c l r))) :
    ∃ nodes, ((replaceInParent s (parentPtr layout gs) c.addr f.label.addr).bind fun s =>
          s.modify c.addr fun node => { node with parent := some f.label.addr }) =
        some { s with head := ptr layout (plug gs (f.fill (.node c l r))), nodes := nodes } ∧
      nodes.fresh = s.nodes.fresh ∧ Linked layout nodes none (plug gs (f.fill (.node c l r))) := by
  obtain ⟨habove, hcread, hl, hr⟩ := linked_plug.mp hl
  obtain ⟨hnodupabove, hnodupsub, hapart⟩ := nodup_plug hnodup
  have hout : ∀ q ∈ f.label.addr :: addrs layout f.other,
      q ∉ addrsAbove layout gs ∧ q ≠ c.addr ∧ q ∉ addrs layout l ++ addrs layout r := by
    intro q hq
    obtain ⟨hqabove, hqsub⟩ := not_mem_plug (houtside q hq)
    rw [addrs_node, List.mem_cons, not_or] at hqsub
    exact ⟨hqabove, hqsub⟩
  rw [addrs_node] at hnodupsub hapart
  obtain ⟨hc, -⟩ := List.nodup_cons.mp hnodupsub
  have hcabove := hapart c.addr List.mem_cons_self
  rw [ptr_plug] at hhead
  obtain ⟨nodes₁, hrelink, hfresh₁, habove₁, hsame₁⟩ :=
    relink_spec habove hhead hnodupabove hcabove (some f.label.addr)
  have hcread₁ : nodes₁.read c.addr = _ := (hsame₁ c.addr hcabove).trans hcread
  have hne : f.label.addr ≠ c.addr := (hout _ List.mem_cons_self).2.1
  let nodes := nodes₁.set c.addr (some (layout.content c ⟨ptr layout l, ptr layout r, some f.label.addr⟩))
  have hsame : ∀ q, q ≠ c.addr → q ∉ addrsAbove layout gs → read nodes q = s.nodes.read q := by
    intro q hqc hqabove
    rw [read_set_of_ne _ hqc, hsame₁ q hqabove]
  refine ⟨nodes, ?_, (fresh_set _ _ _).trans hfresh₁, linked_plug.mpr ⟨?_, linked_fill.mpr ⟨?_, ?_, ?_⟩⟩⟩
  · have hreplace := replaceInParent_of_relink hrelink
    rw [layout_addr] at hreplace
    rw [hreplace, Option.bind_some, modify_of_read hcread₁, ptr_plug, ptr_fill]
    rfl
  · rw [ptr_fill]
    refine habove₁.congr fun q hq => read_set_of_ne _ ?_ _
    rintro rfl
    exact hcabove hq
  · exact (hsame _ hne (hout _ List.mem_cons_self).1).trans hf
  · refine hother.congr fun q hq => ?_
    obtain ⟨hqabove, hqc, -⟩ := hout q (List.mem_cons_of_mem _ hq)
    exact hsame q hqc hqabove
  · have hcnew : read nodes c.addr = some (layout.content c ⟨ptr layout l, ptr layout r, some f.label.addr⟩) :=
      read_set_self hcread₁ _
    have hsub : ∀ q ∈ addrs layout l ++ addrs layout r, read nodes q = s.nodes.read q := by
      intro q hq
      refine hsame q ?_ (hapart q (List.mem_cons_of_mem _ hq))
      rintro rfl
      exact hc hq
    exact Linked.reparent ⟨hcread, hl, hr⟩ hcnew hsub

/-- The new node is the parent of `c`. -/
theorem attachParent_spec (h : Detached s (plug gs (.node c l r)) new)
    (hside : goesRight s addr new.word.length = some b) :
    ∃ nodes, attachParent s addr new.word.length c.addr new.addr =
        some { s with head := ptr layout (plug gs (Frame.fill ⟨new, b, .nil⟩ (.node c l r))), nodes := nodes } ∧
      Linked layout nodes none (plug gs (Frame.fill ⟨new, b, .nil⟩ (.node c l r))) := by
  let f : Frame (Cell δ) := ⟨new, b, .nil⟩
  have hread := h.node
  have hcmem : c.addr ∈ addrs layout (plug gs (.node c l r)) := by
    rw [(addrs_plug layout gs _).mem_iff]
    simp
  have hne : c.addr ≠ new.addr := fun heq => h.outside (heq ▸ hcmem)
  have hcread := (linked_plug.mp h.linked).2.1
  let nodes₁ := s.nodes.set new.addr (some (layout.content new (f.links layout (some c.addr) (parentPtr layout gs))))
  have hsame : ∀ q ∈ addrs layout (plug gs (.node c l r)), read nodes₁ q = s.nodes.read q := by
    intro q hq
    refine read_set_of_ne _ ?_ _
    rintro rfl
    exact h.outside hq
  obtain ⟨nodes, hplace, -, hlinked⟩ := placeAbove_spec (s := { s with nodes := nodes₁ }) (f := f)
    (h.linked.congr hsame) h.nodup h.head (read_set_self hread _) trivial (by
      intro q hq
      obtain rfl : q = new.addr := by simpa [f] using hq
      exact h.outside)
  refine ⟨nodes, ?_, hlinked⟩
  have hcread₁ : ∀ x, read (s.nodes.set new.addr x) c.addr = s.nodes.read c.addr := read_set_of_ne _ hne
  simp only [layout_addr] at hcread
  simp only [attachParent, hside, modify_of_read hread, Option.bind_eq_bind, Option.bind_some, hcread₁, hcread]
  rw [modify_of_read (read_set_self hread _), Option.bind_some]
  simp only [List.set_set]
  cases b with
  | true => exact hplace
  | false => exact hplace

/-- A new branching node has `c` and the new node for children. -/
theorem attachGlue_spec (h : Detached s (plug gs (.node c l r)) new) {w : List Bool}
    (hside : goesRight s addr w.length = some b) :
    ∃ nodes, attachGlue s addr w.length c.addr new.addr =
        some { s with
          head := ptr layout (plug gs (Frame.fill ⟨⟨s.nodes.fresh, w, none⟩, !b, .node new .nil .nil⟩ (.node c l r)))
          nodes := nodes
          numActiveNode := s.numActiveNode + 1 } ∧
      Linked layout nodes none
        (plug gs (Frame.fill ⟨⟨s.nodes.fresh, w, none⟩, !b, .node new .nil .nil⟩ (.node c l r))) := by
  let glue : Cell δ := ⟨s.nodes.fresh, w, none⟩
  let f : Frame (Cell δ) := ⟨glue, !b, .node new .nil .nil⟩
  have hread := h.node
  have hlt : ∀ q ∈ addrs layout (plug gs (.node c l r)), q ≠ glue.addr := by
    intro q hq
    obtain ⟨d, hd, rfl⟩ := List.mem_map.mp hq
    obtain ⟨links, hd⟩ := h.linked.exists_read hd
    exact Nat.ne_of_lt (lt_fresh_of_read hd)
  have hcmem : c.addr ∈ addrs layout (plug gs (.node c l r)) := by
    rw [(addrs_plug layout gs _).mem_iff]
    simp
  have hne : c.addr ≠ new.addr := fun heq => h.outside (heq ▸ hcmem)
  have hnewne : new.addr ≠ glue.addr := Nat.ne_of_lt (lt_fresh_of_read hread)
  have hcread := (linked_plug.mp h.linked).2.1
  simp only [layout_addr] at hcread
  let blank : PatriciaNode δ := ⟨w.length, none, none, none, parentPtr layout gs, none⟩
  let linkedGlue := List.set (s.nodes.alloc blank) glue.addr
    (some (layout.content glue (f.links layout (some c.addr) (parentPtr layout gs))))
  let nodes₁ := List.set linkedGlue new.addr (some (layout.content new ⟨none, none, some glue.addr⟩))
  have hglue : (s.nodes.alloc blank).read glue.addr = some blank := read_alloc_fresh s.nodes blank
  have hnew : read linkedGlue new.addr = some (layout.content new ⟨none, none, none⟩) := by
    rw [read_set_of_ne _ hnewne]
    exact read_alloc hread blank
  have hsame : ∀ q ∈ addrs layout (plug gs (.node c l r)), read nodes₁ q = s.nodes.read q := by
    intro q hq
    have hqnew : q ≠ new.addr := fun heq => h.outside (heq ▸ hq)
    obtain ⟨d, hd, rfl⟩ := List.mem_map.mp hq
    obtain ⟨links, hd⟩ := h.linked.exists_read hd
    rw [read_set_of_ne _ hqnew, read_set_of_ne _ (hlt _ hq), hd]
    exact read_alloc hd blank
  obtain ⟨nodes, hplace, -, hlinked⟩ := placeAbove_spec (f := f)
    (s := { s with nodes := nodes₁, numActiveNode := s.numActiveNode + 1 })
    (h.linked.congr hsame) h.nodup h.head
    ((read_set_of_ne _ hnewne.symm _).trans (read_set_self hglue _))
    ⟨read_set_self hnew _, trivial, trivial⟩ (by
      intro q hq
      rcases List.mem_cons.mp hq with rfl | hq
      · exact fun hmem => hlt _ hmem rfl
      · obtain rfl : q = new.addr := by simpa [f] using hq
        exact h.outside)
  refine ⟨nodes, ?_, hlinked⟩
  let s₁ := s.calloc blank
  have hgoes : goesRight s₁ addr w.length = some b := hside
  have hwriteGlue : (s₁.modify glue.addr fun glue =>
      if b then { glue with r := some new.addr, l := some c.addr }
      else { glue with r := some c.addr, l := some new.addr }) = some { s₁ with nodes := linkedGlue } := by
    rw [modify_of_read hglue]
    cases b <;> rfl
  have hwriteNew : (PatriciaTree.modify { s₁ with nodes := linkedGlue } new.addr fun new =>
      { new with parent := some glue.addr }) = some { s₁ with nodes := nodes₁ } := by
    rw [modify_of_read hnew]
    rfl
  simp only [attachGlue, hcread, Option.bind_eq_bind, Option.bind_some]
  refine (congrArg (Option.bind · _) hgoes).trans ?_
  refine (congrArg (Option.bind · _) hwriteGlue).trans ?_
  refine (congrArg (Option.bind · _) hwriteNew).trans ?_
  exact hplace

end SrxNote.Patricia
