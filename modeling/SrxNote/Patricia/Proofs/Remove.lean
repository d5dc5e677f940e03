import Mathlib.Logic.Function.Basic
import SrxNote.Patricia.Proofs.Rewire

/-!
# Removing a node

`patricia_remove` takes the entry of a node out of the tree. A node with two children
stays and only branches, one with a single child is replaced by it, and one without
children goes together with a parent that only branched. All other entries stay in
their nodes.
-/

namespace SrxNote.Patricia

open Heap LinkedTree PrefixTree

variable {δ : Type} {s s' : PatriciaTree δ} {T : Table δ} {t t' l r : BinaryTree (Cell δ)}
  {gs fs : List (Frame (Cell δ))} {f : Frame (Cell δ)} {c : Cell δ} {e : Entry δ} {w : List Bool}

/-! ### The tree without the entry -/

/-- Nodes that were taken out of a tree. -/
theorem Represents.erase (h : Represents s t) (removed : List (Cell δ))
    (hperm : (preorder t).Perm (removed ++ preorder t')) (hcompressed : Compressed keyed [] t')
    (hmaxbits : s'.maxbits = s.maxbits) (hhead : s'.head = ptr layout t')
    (hactive : s'.numActiveNode = s.numActiveNode - removed.length)
    (hlinked : Linked layout s'.nodes none t')
    (hspells : ∀ d ∈ preorder t', ∀ y e, d.entry = some (y, e) → Spells s'.prefixes y d.word) :
    Represents s' t' where
  maxbits_le := hmaxbits ▸ h.maxbits_le
  head := hhead
  linked := hlinked
  nodup := by
    have hnodup := h.nodup
    rw [addrs, (hperm.map _).nodup_iff, List.map_append, List.nodup_append] at hnodup
    exact hnodup.2.1
  compressed := hcompressed
  active := by
    rw [hactive, h.active, ← length_preorder, ← length_preorder, hperm.length_eq, List.length_append]
    omega
  cells := by
    intro d hd
    have hold := h.cells d (hperm.mem_iff.mpr (List.mem_append_right _ hd))
    exact ⟨hmaxbits ▸ hold.1, hspells d hd⟩

/-- An entry less. -/
theorem table_erase (htable : ∀ w e, T w = some e ↔ Holds t w e) (hcompressed : Compressed keyed [] t)
    (hc : c ∈ preorder t)
    (hstored : ∀ d : Cell δ, d.entry.isSome → (d ∈ preorder t' ↔ d ∈ preorder t ∧ d ≠ c))
    (v : List Bool) (e : Entry δ) : Function.update T c.word none v = some e ↔ Holds t' v e := by
  rw [Holds, hstored _ rfl]
  by_cases hv : v = c.word
  · subst hv
    rw [Function.update_self]
    constructor
    · intro hnone
      cases hnone
    · rintro ⟨hmem, hne⟩
      exact absurd (hcompressed.eq_of_word hmem hc rfl) hne
  · rw [Function.update_of_ne hv, htable, Holds]
    refine (and_iff_left ?_).symm
    exact fun heq => hv (congrArg Cell.word heq)

/-- The removed cells are the one of the entry, and one that only branched. -/
theorem mem_erase (hnodup : (addrs layout t).Nodup) {removed : List (Cell δ)}
    (hperm : (preorder t).Perm (removed ++ preorder t')) (hc : c ∈ removed)
    (hglue : ∀ d ∈ removed, d.entry.isSome → d = c) {d : Cell δ} (hd : d.entry.isSome) :
    d ∈ preorder t' ↔ d ∈ preorder t ∧ d ≠ c := by
  rw [addrs, (hperm.map _).nodup_iff, List.map_append, List.nodup_append] at hnodup
  rw [hperm.mem_iff, List.mem_append]
  constructor
  · intro hmem
    refine ⟨.inr hmem, ?_⟩
    rintro rfl
    exact hnodup.2.2 _ (List.mem_map_of_mem hc) _ (List.mem_map_of_mem hmem) rfl
  · rintro ⟨hmem | hmem, hne⟩
    · exact absurd (hglue d hmem hd) hne
    · exact hmem

/-- The prefixes of the other entries are not the one that is given up. -/
theorem Represents.spells_of_ne (h : Represents s t) (hc : c ∈ preorder t) {own : Nat} {data : Option δ}
    (hentry : c.entry = some (own, data)) {prefixes : Heap Prefix}
    (hsame : ∀ y, prefixes.read y = if y = own then (s.prefixes.read own).bind dropRef else s.prefixes.read y)
    {d : Cell δ} (hd : d ∈ preorder t)
    (hne : d ≠ c) {y : Nat} {e : Option δ} (hy : d.entry = some (y, e)) : Spells prefixes y d.word := by
  have hspells := (h.cells d hd).2 y e hy
  refine hspells.congr ((hsame y).trans (if_neg ?_))
  rintro rfl
  exact hne (h.compressed.eq_of_word hd hc (hspells.word_eq ((h.cells c hc).2 y data hentry)))

/-! ### The nodes -/

/-- The only child `d` comes in the place of the node. -/
theorem splice_spec {d : Cell δ} {ll lr : BinaryTree (Cell δ)}
    (hl : Linked layout s.nodes none (plug gs (.node c l r)))
    (hnodup : (addrs layout (plug gs (.node c l r))).Nodup)
    (hhead : s.head = ptr layout (plug gs (.node c l r)))
    (hsub : Linked layout s.nodes (some c.addr) (.node d ll lr))
    (haddrs : addrs layout (.node c l r) = c.addr :: addrs layout (.node d ll lr)) :
    ∃ nodes, ((s.modify d.addr fun child => { child with parent := parentPtr layout gs }).bind fun s =>
          (s.delete c.addr).bind fun s => relink s (parentPtr layout gs) c.addr (some d.addr)) =
        some { s with
          head := ptr layout (plug gs (.node d ll lr))
          nodes := nodes
          numActiveNode := s.numActiveNode - 1 } ∧
      Linked layout nodes none (plug gs (.node d ll lr)) := by
  obtain ⟨habove, hcread, -⟩ := linked_plug.mp hl
  obtain ⟨hnodupabove, hnodupsub, hapart⟩ := nodup_plug hnodup
  rw [haddrs] at hnodupsub hapart
  obtain ⟨hc, hnodupsub⟩ := List.nodup_cons.mp hnodupsub
  rw [addrs_node] at hc hnodupsub
  obtain ⟨hd, -⟩ := List.nodup_cons.mp hnodupsub
  have hdread := hsub.1
  simp only [layout_addr] at hcread hdread hc hd
  have hdc : d.addr ≠ c.addr := fun heq => hc (heq ▸ List.mem_cons_self)
  have hcabove := hapart c.addr List.mem_cons_self
  have hsubabove : ∀ p ∈ addrs layout (.node d ll lr), p ∉ addrsAbove layout gs := fun p hp =>
    hapart p (List.mem_cons_of_mem _ hp)
  have hdabove := hsubabove d.addr (by simp)
  let nodes₁ := s.nodes.set d.addr (some (layout.content d ⟨ptr layout ll, ptr layout lr, parentPtr layout gs⟩))
  let nodes₂ := List.set nodes₁ c.addr none
  have hcread₁ : read nodes₁ c.addr = _ := (read_set_of_ne _ hdc.symm _).trans hcread
  have hsame₂ : ∀ p, p ≠ c.addr → p ≠ d.addr → read nodes₂ p = s.nodes.read p := by
    intro p hpc hpd
    rw [read_set_of_ne _ hpc, read_set_of_ne _ hpd]
  have hdread₂ : read nodes₂ d.addr = some (layout.content d ⟨ptr layout ll, ptr layout lr, parentPtr layout gs⟩) :=
    (read_set_of_ne _ hdc _).trans (read_set_self hdread _)
  have habove₂ : LinkedAbove layout nodes₂ (some c.addr) gs := by
    refine habove.congr fun p hp => hsame₂ p ?_ ?_
    · rintro rfl
      exact hcabove hp
    · rintro rfl
      exact hdabove hp
  rw [ptr_plug] at hhead
  obtain ⟨nodes, hrelink, -, habove', hsame⟩ := relink_spec
    (s := { s with nodes := nodes₂, numActiveNode := s.numActiveNode - 1 }) habove₂ hhead hnodupabove hcabove
    (some d.addr)
  refine ⟨nodes, ?_, linked_plug.mpr ⟨habove', ?_⟩⟩
  · have hmodify := modify_of_read hdread fun child => { child with parent := parentPtr layout gs }
    have hdelete := delete_of_read (s := { s with nodes := nodes₁ }) hcread₁
    rw [ptr_plug]
    refine (congrArg (Option.bind · _) hmodify).trans ?_
    exact (congrArg (Option.bind · _) hdelete).trans hrelink
  · refine hsub.reparent ((hsame _ hdabove).trans hdread₂) fun p hp => ?_
    rw [hsame p (hsubabove p (by rw [addrs_node]; exact List.mem_cons_of_mem _ hp))]
    refine hsame₂ p ?_ ?_
    · rintro rfl
      exact hc (List.mem_cons_of_mem _ hp)
    · rintro rfl
      exact hd hp

/-- The parent lets go of a child that is gone, and knows the other one. -/
theorem unlink_spec {p : Nat} (habove : LinkedAbove layout s.nodes (some p) (f :: fs))
    (hhead : s.head = rootPtr layout (some p) (f :: fs)) (hnodup : (addrsAbove layout (f :: fs)).Nodup)
    (hp : p ∉ addrsAbove layout (f :: fs)) :
    ∃ parent nodes, s.nodes.read f.label.addr = some parent ∧ parent.pfx = f.label.entry.map Prod.fst ∧
      parent.parent = parentPtr layout fs ∧
      (if parent.r = some p then parent.l else parent.r) = ptr layout f.other ∧
      relink s (some f.label.addr) p none = some { s with nodes := nodes } ∧
      LinkedAbove layout nodes none (f :: fs) ∧
      ∀ q ∉ addrsAbove layout (f :: fs), nodes.read q = s.nodes.read q := by
  obtain ⟨nodes, hrelink, -, habove', hsame⟩ := relink_spec habove hhead hnodup hp none
  have hroot : rootPtr layout none (f :: fs) = s.head := hhead.symm
  have hread := habove.1
  have hother : ptr layout f.other ≠ some p := ptr_ne_of_not_mem (by simp_all)
  rw [hroot] at hrelink
  refine ⟨_, nodes, hread, ?_, ?_, ?_, hrelink, habove', hsame⟩
  · rfl
  · unfold Frame.links
    cases f.right <;> rfl
  · unfold Frame.links
    cases f.right with
    | true => simp
    | false => simp [hother]

/-- A parent with an entry stays with its other child. -/
theorem removeGlue_of_stored {p : Nat} (habove : LinkedAbove layout s.nodes (some p) (f :: fs))
    (hhead : s.head = rootPtr layout (some p) (f :: fs)) (hnodup : (addrsAbove layout (f :: fs)).Nodup)
    (hp : p ∉ addrsAbove layout (f :: fs)) (hstored : f.label.entry.isSome) :
    ∃ nodes, removeGlue s p f.label.addr =
        some { s with head := ptr layout (plug fs (f.fill .nil)), nodes := nodes } ∧
      Linked layout nodes none (plug fs (f.fill .nil)) := by
  obtain ⟨parent, nodes, hread, hpfx, -, -, hrelink, habove', -⟩ := unlink_spec habove hhead hnodup hp
  have hpfx : parent.pfx.isSome := by rw [hpfx, Option.isSome_map, hstored]
  have hlinked : Linked layout nodes none (plug (f :: fs) .nil) := linked_plug.mpr ⟨habove', trivial⟩
  refine ⟨nodes, ?_, hlinked⟩
  · simp only [removeGlue, hread, hrelink, hpfx, Option.bind_eq_bind, Option.bind_some, if_true]
    rw [ptr_plug, ptr_fill, hhead]
    rfl

/-- A parent that only branched is removed too, and its other child comes in its place. -/
theorem removeGlue_of_glue {p : Nat} {d : Cell δ} {ll lr : BinaryTree (Cell δ)}
    (habove : LinkedAbove layout s.nodes (some p) (f :: fs))
    (hhead : s.head = rootPtr layout (some p) (f :: fs)) (hnodup : (addrsAbove layout (f :: fs)).Nodup)
    (hp : p ∉ addrsAbove layout (f :: fs)) (hglue : f.label.entry = none) (hother : f.other = .node d ll lr) :
    ∃ nodes, removeGlue s p f.label.addr =
        some { s with
          head := ptr layout (plug fs (.node d ll lr))
          nodes := nodes
          numActiveNode := s.numActiveNode - 1 } ∧
      Linked layout nodes none (plug fs (.node d ll lr)) := by
  obtain ⟨parent, nodes₁, hread, hpfx, hparent, hchild, hrelink, ⟨hfread, hsub, habove₁⟩, -⟩ :=
    unlink_spec habove hhead hnodup hp
  rw [hother] at hsub hchild
  rw [hglue, Option.map_none] at hpfx
  rw [addrsAbove_cons, hother] at hnodup
  obtain ⟨hf, hrest⟩ := List.nodup_cons.mp hnodup
  obtain ⟨hnodupd, hnodupabove, hdisjoint⟩ := List.nodup_append.mp hrest
  have hdabove : ∀ q ∈ addrs layout (.node d ll lr), q ∉ addrsAbove layout fs := fun q hq hq' =>
    hdisjoint q hq q hq' rfl
  have hfabove : f.label.addr ∉ addrsAbove layout fs := fun hmem => hf (List.mem_append_right _ hmem)
  have hfd : f.label.addr ∉ addrs layout (.node d ll lr) := fun hmem => hf (List.mem_append_left _ hmem)
  have hdmem : d.addr ∈ addrs layout (.node d ll lr) := by simp
  have hne : f.label.addr ≠ d.addr := fun heq => hfd (heq ▸ hdmem)
  rw [addrs_node] at hnodupd
  obtain ⟨hd, -⟩ := List.nodup_cons.mp hnodupd
  obtain ⟨nodes₂, hrelink₂, -, habove₂, hsame₂⟩ := relink_spec (s := { s with nodes := nodes₁ }) habove₁
    hhead hnodupabove hfabove (some d.addr)
  have hdread : nodes₂.read d.addr = _ := (hsame₂ _ (hdabove _ hdmem)).trans hsub.1
  let nodes₃ := nodes₂.set d.addr (some (layout.content d ⟨ptr layout ll, ptr layout lr, parentPtr layout fs⟩))
  let nodes := List.set nodes₃ f.label.addr none
  have hfread₃ : read nodes₃ f.label.addr = _ :=
    (read_set_of_ne _ hne _).trans ((hsame₂ _ hfabove).trans hfread)
  have hsame : ∀ q, q ≠ f.label.addr → q ≠ d.addr → read nodes q = nodes₂.read q := by
    intro q hqf hqd
    rw [read_set_of_ne _ hqf, read_set_of_ne _ hqd]
  refine ⟨nodes, ?_, linked_plug.mpr ⟨?_, ?_⟩⟩
  · have hmodify := modify_of_read
      (s := { s with head := rootPtr layout (some d.addr) fs, nodes := nodes₂ }) hdread
      fun node => { node with parent := parentPtr layout fs }
    have hdelete := delete_of_read
      (s := { s with head := rootPtr layout (some d.addr) fs, nodes := nodes₃ }) hfread₃
    rw [ptr_plug]
    simp only [removeGlue, hread, hrelink, hpfx, hchild, hparent, Option.isSome_none, Bool.false_eq_true,
      if_false, Option.bind_eq_bind, Option.bind_some, ptr, layout_addr]
    refine (congrArg (Option.bind · _) hrelink₂).trans ?_
    exact (congrArg (Option.bind · _) hmodify).trans hdelete
  · refine habove₂.congr fun q hq => hsame q ?_ ?_
    · rintro rfl
      exact hfabove hq
    · rintro rfl
      exact hdabove _ hdmem hq
  · refine hsub.reparent ((read_set_of_ne _ hne.symm _).trans (read_set_self hdread _)) fun q hq => ?_
    have hqmem : q ∈ addrs layout (.node d ll lr) := by
      rw [addrs_node]
      exact List.mem_cons_of_mem _ hq
    rw [hsame q ?_ ?_]
    · exact hsame₂ q (hdabove q hqmem)
    · rintro rfl
      exact hfd hqmem
    · rintro rfl
      exact hd hq

/-! ### The function -/

/-- What is left when the node `c` was removed. -/
structure Erased (s : PatriciaTree δ) (t : BinaryTree (Cell δ)) (c : Cell δ) (prefixes : Heap Prefix)
    (s' : PatriciaTree δ) (t' : BinaryTree (Cell δ)) : Prop where
  represents : Represents s' t'
  prefixes_eq : s'.prefixes = prefixes
  maxbits_eq : s'.maxbits = s.maxbits
  stored : ∀ d : Cell δ, d.entry.isSome → (d ∈ preorder t' ↔ d ∈ preorder t ∧ d ≠ c)

section

variable {prefixes : Heap Prefix} {own : Nat} {data : Option δ}

theorem Erased.of_perm (h : Represents s t) (removed : List (Cell δ))
    (hothers : ∀ d ∈ preorder t, d ≠ c → ∀ y e, d.entry = some (y, e) → Spells prefixes y d.word)
    (hperm : (preorder t).Perm (removed ++ preorder t')) (hcompressed : Compressed keyed [] t')
    (hc : c ∈ removed) (hglue : ∀ d ∈ removed, d.entry.isSome → d = c)
    (hlinked : Linked layout s'.nodes none t') (hhead : s'.head = ptr layout t')
    (hmaxbits : s'.maxbits = s.maxbits) (hprefixes : s'.prefixes = prefixes)
    (hactive : s'.numActiveNode = s.numActiveNode - removed.length) :
    Erased s t c prefixes s' t' := by
  have hstored : ∀ d : Cell δ, d.entry.isSome → (d ∈ preorder t' ↔ d ∈ preorder t ∧ d ≠ c) := fun d hd =>
    mem_erase h.nodup hperm hc hglue hd
  refine ⟨h.erase removed hperm hcompressed hmaxbits hhead hactive hlinked ?_, hprefixes, hmaxbits, hstored⟩
  intro d hd y e hy
  obtain ⟨hmem, hne⟩ := (hstored d (by simp [hy])).mp hd
  exact hprefixes ▸ hothers d hmem hne y e hy

/-- A node with two children only branches from now on. -/
theorem patriciaRemove_of_two (h : Represents s (plug gs (.node c l r)))
    (hentry : c.entry = some (own, data)) (hderef : derefPrefix s.prefixes (some own) = some prefixes)
    (hothers : ∀ d ∈ preorder (plug gs (.node c l r)), d ≠ c → ∀ y e, d.entry = some (y, e) →
      Spells prefixes y d.word)
    (hl : l ≠ .nil) (hr : r ≠ .nil) :
    ∃ s', patriciaRemove s c.addr = some s' ∧
      Erased s (plug gs (.node c l r)) c prefixes s' (plug gs (.node { c with entry := none } l r)) := by
  have hread := h.read_focus
  have hstored : ∀ d : Cell δ, d.entry.isSome → (d ∈ preorder (plug gs (.node { c with entry := none } l r)) ↔
      d ∈ preorder (plug gs (.node c l r)) ∧ d ≠ c) := by
    intro d hd
    rw [mem_relabel h.nodup]
    refine or_iff_right ?_
    rintro rfl
    simp at hd
  have hrep := h.relabel none prefixes (.inr ⟨hl, hr⟩) ?_ (by simp)
  · refine ⟨_, ?_, hrep, rfl, rfl, hstored⟩
    obtain ⟨d, ll, lr, rfl⟩ : ∃ d ll lr, l = .node d ll lr := by
      cases l with
      | nil => exact absurd rfl hl
      | node d ll lr => exact ⟨d, ll, lr, rfl⟩
    obtain ⟨d', rl, rr, rfl⟩ : ∃ d' rl rr, r = .node d' rl rr := by
      cases r with
      | nil => exact absurd rfl hr
      | node d' rl rr => exact ⟨d', rl, rr, rfl⟩
    have hmodify := modify_of_read (s := { s with prefixes := prefixes }) hread
      fun node => { node with pfx := none, data := none }
    simp only [patriciaRemove, hread, layout_content, hentry, Option.map_some, hderef, Option.bind_eq_bind,
      Option.bind_some]
    exact hmodify
  · intro d hd y e hy
    have hmem := (preorder_focus gs c l r).mem_iff.mpr (List.mem_cons_of_mem c hd)
    exact hothers d hmem (fun heq => not_mem_focus h.nodup (heq ▸ hd)) y e hy

/-- A node with one child is replaced by it. -/
theorem patriciaRemove_of_one (h : Represents s (plug gs (.node c l r)))
    (hentry : c.entry = some (own, data)) (hderef : derefPrefix s.prefixes (some own) = some prefixes)
    (hothers : ∀ d ∈ preorder (plug gs (.node c l r)), d ≠ c → ∀ y e, d.entry = some (y, e) →
      Spells prefixes y d.word) {d : Cell δ} {ll lr : BinaryTree (Cell δ)}
    (hchild : l = .node d ll lr ∧ r = .nil ∨ l = .nil ∧ r = .node d ll lr) :
    ∃ s', patriciaRemove s c.addr = some s' ∧
      Erased s (plug gs (.node c l r)) c prefixes s' (plug gs (.node d ll lr)) := by
  have hread := h.read_focus
  obtain ⟨-, hsub⟩ := linked_plug.mp h.linked
  obtain ⟨habove, hcompressed⟩ := (compressed_plug (by simp)).mp h.compressed
  have hchild' : Linked layout s.nodes (some c.addr) (.node d ll lr) ∧
      addrs layout (.node c l r) = c.addr :: addrs layout (.node d ll lr) ∧
      preorder l ++ preorder r = preorder (.node d ll lr) ∧
      Compressed keyed (holeWord keyed [] gs) (.node d ll lr) := by
    rcases hchild with ⟨rfl, rfl⟩ | ⟨rfl, rfl⟩
    · refine ⟨hsub.2.1, by simp, by simp, hcompressed.2.2.1.mono ?_⟩
      exact hcompressed.1.trans (List.prefix_append _ _)
    · refine ⟨hsub.2.2, by simp, by simp, hcompressed.2.2.2.mono ?_⟩
      exact hcompressed.1.trans (List.prefix_append _ _)
  obtain ⟨hlinked, haddrs, hpreorder, hbelow⟩ := hchild'
  obtain ⟨nodes, hsplice, hlinked'⟩ := splice_spec (s := { s with prefixes := prefixes }) h.linked h.nodup
    h.head hlinked haddrs
  have hrun : patriciaRemove s c.addr = some
      { s with
        head := ptr layout (plug gs (.node d ll lr))
        nodes := nodes
        numActiveNode := s.numActiveNode - 1
        prefixes := prefixes } := by
    simp only [patriciaRemove, hread, layout_content, hentry, Option.map_some, hderef, Option.bind_eq_bind,
      Option.bind_some]
    rcases hchild with ⟨rfl, rfl⟩ | ⟨rfl, rfl⟩
    · exact hsplice
    · exact hsplice
  have hfocus := preorder_focus gs c l r
  rw [hpreorder] at hfocus
  exact ⟨_, hrun, Erased.of_perm h [c] hothers (hfocus.trans ((preorder_plug gs _).symm.cons c))
    ((compressed_plug (by simp)).mpr ⟨habove, hbelow⟩) (by simp) (by simp) hlinked' rfl rfl rfl rfl⟩

/-- The heaps after a node was deleted and the reference to its prefix given up. -/
def deleted (s : PatriciaTree δ) (prefixes : Heap Prefix) (p : Nat) : PatriciaTree δ :=
  { s with nodes := s.nodes.set p none, numActiveNode := s.numActiveNode - 1, prefixes := prefixes }

/-- The removal of a node without children, by the parent that it has. -/
theorem patriciaRemove_leaf_eq (h : Represents s (plug gs (.node c .nil .nil)))
    (hentry : c.entry = some (own, data)) (hderef : derefPrefix s.prefixes (some own) = some prefixes) :
    patriciaRemove s c.addr = (parentPtr layout gs).elim (relink (deleted s prefixes c.addr) none c.addr none)
      (removeGlue (deleted s prefixes c.addr) c.addr) := by
  have hread := h.read_focus
  have hdelete := delete_of_read (s := { s with prefixes := prefixes }) hread
  simp only [patriciaRemove, hread, layout_content, hentry, Option.map_some, hderef, Option.bind_eq_bind,
    Option.bind_some, ptr]
  refine (congrArg (Option.bind · _) hdelete).trans ?_
  cases parentPtr layout gs <;> rfl

/-- The frames above a leaf are linked as before, when it is deleted. -/
theorem linkedAbove_deleted (h : Represents s (plug gs (.node c .nil .nil))) (prefixes : Heap Prefix) :
    LinkedAbove layout (deleted s prefixes c.addr).nodes (some c.addr) gs := by
  obtain ⟨-, -, hapart⟩ := nodup_plug h.nodup
  have hc : c.addr ∉ addrsAbove layout gs := hapart _ (by simp)
  refine (linked_plug.mp h.linked).1.congr fun p hp => read_set_of_ne _ ?_ _
  rintro rfl
  exact hc hp

/-- A leaf below a node with an entry of its own. -/
theorem erased_below_stored (h : Represents s (plug (f :: fs) (.node c .nil .nil)))
    (hothers : ∀ d ∈ preorder (plug (f :: fs) (.node c .nil .nil)), d ≠ c → ∀ y e, d.entry = some (y, e) →
      Spells prefixes y d.word) (hentry : f.label.entry.isSome) :
    ∃ s', removeGlue (deleted s prefixes c.addr) c.addr f.label.addr = some s' ∧
      Erased s (plug (f :: fs) (.node c .nil .nil)) c prefixes s' (plug fs (f.fill .nil)) := by
  obtain ⟨hnodupabove, -, hapart⟩ := nodup_plug h.nodup
  obtain ⟨⟨hhole, -, hother, hrest⟩, -⟩ := (compressed_plug (by simp)).mp h.compressed
  have hhead := h.head
  rw [ptr_plug] at hhead
  obtain ⟨nodes, hglue, hlinked⟩ := removeGlue_of_stored (linkedAbove_deleted h prefixes) hhead hnodupabove
    (hapart _ (by simp)) hentry
  have hfocus := preorder_focus (f :: fs) c .nil .nil
  exact ⟨_, hglue, Erased.of_perm h [c] hothers (hfocus.trans ((preorder_plug (f :: fs) .nil).symm.cons c))
    ((compressed_plug (fill_ne_nil _ _)).mpr ⟨hrest, compressed_fill_nil hhole hentry hother⟩)
    (by simp) (by simp) hlinked rfl rfl rfl rfl⟩

/-- A leaf below a node that only branched, which is removed too. -/
theorem erased_below_glue (h : Represents s (plug (f :: fs) (.node c .nil .nil)))
    (hothers : ∀ d ∈ preorder (plug (f :: fs) (.node c .nil .nil)), d ≠ c → ∀ y e, d.entry = some (y, e) →
      Spells prefixes y d.word) (hentry : f.label.entry = none) :
    ∃ s' t', removeGlue (deleted s prefixes c.addr) c.addr f.label.addr = some s' ∧
      Erased s (plug (f :: fs) (.node c .nil .nil)) c prefixes s' t' := by
  obtain ⟨hnodupabove, -, hapart⟩ := nodup_plug h.nodup
  obtain ⟨⟨hhole, hstored, hother, hrest⟩, -⟩ := (compressed_plug (by simp)).mp h.compressed
  have hhead := h.head
  rw [ptr_plug] at hhead
  rw [keyed_stored, or_iff_right (by simp [hentry])] at hstored
  obtain ⟨d, ll, lr, hd⟩ : ∃ d ll lr, f.other = .node d ll lr := by
    cases hf : f.other with
    | nil => exact absurd hf hstored
    | node d ll lr => exact ⟨d, ll, lr, rfl⟩
  obtain ⟨nodes, hglue, hlinked⟩ := removeGlue_of_glue (linkedAbove_deleted h prefixes) hhead hnodupabove
    (hapart _ (by simp)) hentry hd
  rw [hd] at hother
  refine ⟨_, _, hglue, Erased.of_perm h [c, f.label] hothers ?_
    ((compressed_plug (by simp)).mpr ⟨hrest, hother.mono (hhole.trans (List.prefix_append _ _))⟩)
    (by simp) ?_ hlinked rfl rfl rfl ?_⟩
  · have hfocus := preorder_focus (f :: fs) c .nil .nil
    rw [preorder_nil, List.append_nil, List.append_nil, above_cons, hd] at hfocus
    refine hfocus.trans ?_
    exact (List.perm_append_comm.trans (preorder_plug fs _).symm).cons f.label |>.cons c
  · simp only [List.mem_cons, List.not_mem_nil, or_false]
    rintro e (rfl | rfl) he
    · rfl
    · simp [hentry] at he
  · simp only [deleted, List.length_cons, List.length_nil]
    omega

/-- A node without children is removed, and with it a parent that only branched. -/
theorem patriciaRemove_of_leaf (h : Represents s (plug gs (.node c .nil .nil)))
    (hentry : c.entry = some (own, data)) (hderef : derefPrefix s.prefixes (some own) = some prefixes)
    (hothers : ∀ d ∈ preorder (plug gs (.node c .nil .nil)), d ≠ c → ∀ y e, d.entry = some (y, e) →
      Spells prefixes y d.word) :
    ∃ s' t', patriciaRemove s c.addr = some s' ∧ Erased s (plug gs (.node c .nil .nil)) c prefixes s' t' := by
  have hrun := patriciaRemove_leaf_eq h hentry hderef
  cases gs with
  | nil =>
      have hhead : cAssert ((deleted s prefixes c.addr).head = some c.addr) = some () := cAssert_of h.head
      simp only [parentPtr, Option.elim_none, relink, hhead, Option.bind_eq_bind, Option.bind_some] at hrun
      exact ⟨_, .nil, hrun, Erased.of_perm h [c] hothers (.refl _) trivial (by simp) (by simp) trivial rfl rfl
        rfl rfl⟩
  | cons f fs =>
      cases hparent : f.label.entry with
      | some e =>
          obtain ⟨s', hglue, herased⟩ := erased_below_stored h hothers (by simp [hparent])
          exact ⟨s', _, hrun.trans hglue, herased⟩
      | none =>
          obtain ⟨s', t', hglue, herased⟩ := erased_below_glue h hothers hparent
          exact ⟨s', t', hrun.trans hglue, herased⟩

theorem patriciaRemove_of_represents (h : Represents s t) (hc : c ∈ preorder t)
    (hentry : c.entry = some (own, data)) :
    ∃ s' t', patriciaRemove s c.addr = some s' ∧ derefPrefix s.prefixes (some own) = some s'.prefixes ∧
      Erased s t c s'.prefixes s' t' := by
  obtain ⟨prefixes, hderef, hsame⟩ := derefPrefix_spec ((h.cells c hc).2 own data hentry)
  have hothers : ∀ d ∈ preorder t, d ≠ c → ∀ y e, d.entry = some (y, e) → Spells prefixes y d.word :=
    fun d hd hne y e hy => h.spells_of_ne hc hentry hsame hd hne hy
  obtain ⟨gs, l, r, rfl⟩ := exists_plug_of_mem hc
  have hrun : ∃ s' t', patriciaRemove s c.addr = some s' ∧ Erased s (plug gs (.node c l r)) c prefixes s' t' := by
    cases l with
    | nil =>
        cases r with
        | nil => exact patriciaRemove_of_leaf h hentry hderef hothers
        | node d ll lr =>
            obtain ⟨s', hremove, herased⟩ := patriciaRemove_of_one h hentry hderef hothers (.inr ⟨rfl, rfl⟩)
            exact ⟨s', _, hremove, herased⟩
    | node d ll lr =>
        cases r with
        | nil =>
            obtain ⟨s', hremove, herased⟩ := patriciaRemove_of_one h hentry hderef hothers (.inl ⟨rfl, rfl⟩)
            exact ⟨s', _, hremove, herased⟩
        | node d' rl rr =>
            obtain ⟨s', hremove, herased⟩ := patriciaRemove_of_two h hentry hderef hothers (by simp) (by simp)
            exact ⟨s', _, hremove, herased⟩
  obtain ⟨s', t', hremove, herased⟩ := hrun
  obtain rfl := herased.prefixes_eq
  exact ⟨s', t', hremove, hderef, herased⟩

end

/-- Removing the node of an entry fails no assertion and takes this entry, and no other, from the table. -/
theorem patriciaRemove_spec (h : Models s T) (he : T w = some e) :
    ∃ s', patriciaRemove s e.node = some s' ∧ derefPrefix s.prefixes (some e.pfx) = some s'.prefixes ∧
      s'.maxbits = s.maxbits ∧ Models s' (Function.update T w none) := by
  obtain ⟨t, hrep, htable⟩ := h
  have hc := (htable w e).mp he
  obtain ⟨s', t', hremove, hderef, herased⟩ := patriciaRemove_of_represents hrep hc rfl
  exact ⟨s', hremove, hderef, herased.maxbits_eq, t', herased.represents,
    table_erase htable hrep.compressed hc herased.stored⟩

theorem patriciaRemove_spec_sample :
    ∃ s', patriciaRemove sampleTree 1 = some s' ∧ derefPrefix sampleTree.prefixes (some 1) = some s'.prefixes ∧
      s'.maxbits = 32 ∧ Models s' (Function.update sampleTable (octetWord 11) none) :=
  patriciaRemove_spec models_sample (by decide : sampleTable (octetWord 11) = some ⟨1, 1, none⟩)

end SrxNote.Patricia
