import Mathlib.Logic.Function.Basic
import SrxNote.Patricia.Proofs.Attach
import SrxNote.Patricia.Proofs.Descent

/-!
# The lookup that inserts

`patricia_lookup` leaves the tree as it is where the word has an entry. Otherwise the
word gets one at the site that was found: in the node that only branched there, or in
a new node below, above or beside it. All other entries stay in their nodes.
-/

namespace SrxNote.Patricia

open Heap LinkedTree PrefixTree

variable {δ : Type} {s s' : PatriciaTree δ} {T : Table δ} {t t' l r : BinaryTree (Cell δ)}
  {gs : List (Frame (Cell δ))} {c new : Cell δ} {q test : Nat → Bool} {n k x : Nat} {pre : Prefix}

/-! ### The new tree -/

theorem Site.compressed (h : Site t q test n k gs c l r) (hc : Compressed keyed [] t) :
    CompressedAbove keyed [] gs ∧ Compressed keyed (holeWord keyed [] gs) (.node c l r) :=
  (compressed_plug (by simp)).mp (h.tree ▸ hc)

/-- A site whose node has the word. -/
theorem Site.word_eq (h : Site t q test n k gs c l r) (hk : c.word.length = k) : c.word = bits q k :=
  (h.below.eq_of_length (by simp [hk])).symm

theorem Site.compressed_child (h : Site t q test n k gs c l r) (hc : Compressed keyed [] t)
    (hk : c.word.length = k) (hkn : k < n) (hword : new.word = bits q n) (hentry : new.entry.isSome) :
    Compressed keyed [] (plug gs (Frame.fill ⟨c, q k, if q k then l else r⟩ (.node new .nil .nil))) := by
  obtain ⟨habove, hu, -, hl, hr⟩ := h.compressed hc
  refine (compressed_plug (fill_ne_nil _ _)).mpr ⟨habove, (compressed_fill (by simp)).mpr ⟨hu, ?_, ?_, ?_⟩⟩
  · exact .inl (h.child hk hkn).1
  · cases q k with
    | true => exact hl
    | false => exact hr
  · refine ⟨?_, .inl hentry, trivial, trivial⟩
    rw [keyed_word, keyed_word, hword, append_prefix_bits_iff, hk]
    exact ⟨hkn, h.word_eq hk, rfl⟩

theorem Site.compressed_parent (h : Site t q test n k gs c l r) (hc : Compressed keyed [] t)
    (hkn : k = n) (hk : k < c.word.length) (hword : new.word = bits q n) (hentry : new.entry.isSome) :
    Compressed keyed [] (plug gs (Frame.fill ⟨new, test k, .nil⟩ (.node c l r))) := by
  obtain ⟨habove, -, hsub⟩ := h.compressed hc
  refine (compressed_plug (fill_ne_nil _ _)).mpr
    ⟨habove, (compressed_fill (by simp)).mpr ⟨?_, .inl hentry, trivial, ?_, hsub⟩⟩
  · rw [keyed_word, hword, ← hkn]
    exact h.above
  · rw [keyed_word, keyed_word, hword, ← hkn]
    exact h.parent hk

theorem Site.compressed_glue (h : Site t q test n k gs c l r) (hc : Compressed keyed [] t)
    (hkn : k < n) (hk : k < c.word.length) (hword : new.word = bits q n) (hentry : new.entry.isSome)
    (glue : Nat) :
    Compressed keyed []
      (plug gs (Frame.fill ⟨⟨glue, bits q k, none⟩, !q k, .node new .nil .nil⟩ (.node c l r))) := by
  obtain ⟨habove, -, hsub⟩ := h.compressed hc
  refine (compressed_plug (fill_ne_nil _ _)).mpr
    ⟨habove, (compressed_fill (by simp)).mpr ⟨h.above, .inr (by simp), ?_, ?_, hsub⟩⟩
  · refine ⟨?_, .inl hentry, trivial, trivial⟩
    rw [Bool.not_not, keyed_word, keyed_word, hword, append_prefix_bits_iff, length_bits]
    exact ⟨hkn, rfl, rfl⟩
  · rw [keyed_word, ← h.branch hkn hk]
    exact h.parent hk

/-- The cells of the tree with a new node are the old ones and the new one. -/
theorem preorder_child (hfree : (if q k then r else l) = .nil) :
    (preorder (plug gs (Frame.fill ⟨c, q k, if q k then l else r⟩ (.node new .nil .nil)))).Perm
      ([new] ++ preorder (plug gs (.node c l r))) := by
  have hold : preorder (.node c l r) = c :: preorder (if q k then l else r) := by
    cases hb : q k with
    | true =>
        obtain rfl : r = .nil := by simpa [hb] using hfree
        simp
    | false =>
        obtain rfl : l = .nil := by simpa [hb] using hfree
        simp
  have hfill := preorder_fill ⟨c, q k, if q k then l else r⟩ (.node new .nil .nil : BinaryTree (Cell δ))
  refine (preorder_plug gs _).trans (((hfill.trans ?_).append_left (above gs)).trans
    ((List.perm_append_comm_assoc _ _ _).trans ((preorder_plug gs _).symm.append_left [new])))
  rw [hold]
  exact List.perm_append_comm

theorem preorder_above (f : Frame (Cell δ)) :
    (preorder (plug gs (f.fill t))).Perm ((f.label :: preorder f.other) ++ preorder (plug gs t)) := by
  refine (preorder_plug gs _).trans (((preorder_fill f t).append_left (above gs)).trans
    ((List.perm_append_comm_assoc _ _ _).trans ((preorder_plug gs _).symm.append_left _)))

/-- Nodes that were added to a tree. -/
theorem Represents.insert (h : Represents s t) (extra : List (Cell δ))
    (hperm : (preorder t').Perm (extra ++ preorder t)) (hcompressed : Compressed keyed [] t')
    (hmaxbits : s'.maxbits = s.maxbits) (hhead : s'.head = ptr layout t')
    (hactive : s'.numActiveNode = s.numActiveNode + extra.length)
    (hlinked : Linked layout s'.nodes none t') (hnodup : (extra.map Cell.addr).Nodup)
    (hfresh : ∀ c ∈ extra, c.addr ∉ addrs layout t)
    (hmono : ∀ y w, Spells s.prefixes y w → Spells s'.prefixes y w) (hcells : ∀ c ∈ extra, CellOk s' c) :
    Represents s' t' where
  maxbits_le := hmaxbits ▸ h.maxbits_le
  head := hhead
  linked := hlinked
  nodup := by
    rw [addrs, (hperm.map _).nodup_iff, List.map_append, List.nodup_append]
    refine ⟨hnodup, h.nodup, ?_⟩
    rintro p hp q hq rfl
    obtain ⟨d, hd, rfl⟩ := List.mem_map.mp hp
    exact hfresh d hd hq
  compressed := hcompressed
  active := by
    rw [hactive, h.active, ← length_preorder, ← length_preorder, hperm.length_eq, List.length_append]
    omega
  cells := by
    intro d hd
    rcases List.mem_append.mp (hperm.mem_iff.mp hd) with hd | hd
    · exact hcells d hd
    · obtain ⟨hlen, hspells⟩ := h.cells d hd
      exact ⟨hmaxbits ▸ hlen, fun y e hy => hmono _ _ (hspells y e hy)⟩

/-! ### The table -/

/-- A word that a new node can have was not in the table. -/
theorem table_eq_none_of_insert {extra : List (Cell δ)} (htable : ∀ w e, T w = some e ↔ Holds t w e)
    (hperm : (preorder t').Perm (extra ++ preorder t)) (hcompressed : Compressed keyed [] t')
    (hnew : new ∈ extra) (hout : new.addr ∉ addrs layout t) : T new.word = none := by
  cases hT : T new.word with
  | none => rfl
  | some e =>
      have hold := (htable _ _).mp hT
      have heq : _ = new := hcompressed.eq_of_word (hperm.mem_iff.mpr (List.mem_append_right _ hold))
        (hperm.mem_iff.mpr (List.mem_append_left _ hnew)) rfl
      exact absurd (List.mem_map_of_mem hold) (heq ▸ hout)

/-- An entry more. -/
theorem table_insert {w : List Bool} {p own : Nat} (htable : ∀ w e, T w = some e ↔ Holds t w e)
    (hT : T w = none)
    (hstored : ∀ d : Cell δ, d.entry.isSome → (d ∈ preorder t' ↔ d = ⟨p, w, some (own, none)⟩ ∨ d ∈ preorder t))
    (v : List Bool) (e : Entry δ) :
    Function.update T w (some ⟨p, own, none⟩) v = some e ↔ Holds t' v e := by
  rw [Holds, hstored _ rfl]
  by_cases hv : v = w
  · subst hv
    have hno : ¬ Holds t v e := fun hmem => by simp [(htable v e).mpr hmem] at hT
    rw [Function.update_self, Option.some_inj]
    constructor
    · rintro rfl
      exact .inl rfl
    · rintro (heq | hmem)
      · obtain ⟨node, pfx, data⟩ := e
        obtain ⟨rfl, rfl, rfl⟩ : node = p ∧ pfx = own ∧ data = none := by simpa using heq
        rfl
      · exact absurd hmem hno
  · have hne : (⟨e.node, v, some (e.pfx, e.data)⟩ : Cell δ) ≠ ⟨p, w, some (own, none)⟩ := by
      exact fun heq => hv (congrArg Cell.word heq)
    rw [Function.update_of_ne hv, htable, or_iff_right hne, Holds]

/-! ### The function -/

/-- What a lookup did with a word: nothing, where it has an entry, and otherwise it made one. -/
def LookedUp (s : PatriciaTree δ) (T : Table δ) (x : Nat) (w : List Bool) (s' : PatriciaTree δ) (p : Nat) :
    Prop :=
  (∃ e, T w = some e ∧ s' = s ∧ p = e.node) ∨
    T w = none ∧ ∃ own, refPrefix s.prefixes (some x) = some (s'.prefixes, some own) ∧
      s'.maxbits = s.maxbits ∧ Models s' (Function.update T w (some ⟨p, own, none⟩))

/-- The prefix `own` that a node gets for the prefix `x`, whose word is `w`. -/
structure Referred (s : PatriciaTree δ) (x : Nat) (w : List Bool) (prefixes : Heap Prefix) (own : Nat) :
    Prop where
  ref : refPrefix s.prefixes (some x) = some (prefixes, some own)
  spells : Spells prefixes own w
  mono : ∀ y v, Spells s.prefixes y v → Spells prefixes y v
  fits : w.length ≤ s.maxbits

/-- The node that is allocated for a word. -/
def newCell (s : PatriciaTree δ) (w : List Bool) (own : Nat) : Cell δ := ⟨s.nodes.fresh, w, some (own, none)⟩

/-- The state with the allocated node, that is not in the tree yet. -/
def allocated (s : PatriciaTree δ) (prefixes : Heap Prefix) (bitlen own : Nat) : PatriciaTree δ :=
  PatriciaTree.calloc { s with prefixes := prefixes } ⟨bitlen, some own, none, none, none, none⟩

section

variable {w : List Bool} {prefixes : Heap Prefix} {own : Nat}

theorem Referred.cellOk (h : Referred s x w prefixes own) (hmaxbits : s'.maxbits = s.maxbits)
    (hprefixes : s'.prefixes = prefixes) : CellOk s' (newCell s w own) := by
  refine ⟨hmaxbits ▸ h.fits, ?_⟩
  rintro y e heq
  cases heq
  exact hprefixes ▸ h.spells

theorem Represents.addr_lt (h : Represents s t) {p : Nat} (hp : p ∈ addrs layout t) : p < s.nodes.fresh := by
  obtain ⟨d, hd, rfl⟩ := List.mem_map.mp hp
  obtain ⟨links, hread⟩ := h.linked.exists_read hd
  exact lt_fresh_of_read hread

theorem Represents.newCell_not_mem (h : Represents s t) : (newCell s w own).addr ∉ addrs layout t :=
  fun hp => absurd (h.addr_lt hp) (Nat.lt_irrefl _)

theorem Represents.detached (h : Represents s t) (prefixes : Heap Prefix) (w : List Bool) (own : Nat) :
    Detached (allocated s prefixes w.length own) t (newCell s w own) where
  linked := by
    refine h.linked.congr fun p hp => ?_
    obtain ⟨d, hd, rfl⟩ := List.mem_map.mp hp
    obtain ⟨links, hread⟩ := h.linked.exists_read hd
    rw [hread]
    exact read_alloc hread _
  nodup := h.nodup
  head := h.head
  node := read_alloc_fresh _ _
  outside := h.newCell_not_mem

/-- A node that only branched at the word gets the prefix. -/
theorem lookedUp_of_glue (h : Represents s (plug gs (.node c l r)))
    (htable : ∀ w e, T w = some e ↔ Holds (plug gs (.node c l r)) w e) (hentry : c.entry = none)
    (href : Referred s x c.word prefixes own) :
    LookedUp s T x c.word
      { s with
        nodes := s.nodes.set c.addr (some (layout.content { c with entry := some (own, none) }
          ⟨ptr layout l, ptr layout r, parentPtr layout gs⟩))
        prefixes := prefixes } c.addr := by
  have hfocus := preorder_focus gs c l r
  have hc : c ∈ preorder (plug gs (.node c l r)) := hfocus.mem_iff.mpr List.mem_cons_self
  have hT : T c.word = none := by
    cases hT : T c.word with
    | none => rfl
    | some e =>
        have heq := h.compressed.eq_of_word ((htable _ _).mp hT) hc rfl
        rw [← heq] at hentry
        cases hentry
  have hrep := h.relabel (some (own, none)) prefixes (.inl rfl)
    (fun d hd y e hy => href.mono _ _ ((h.cells d (hfocus.mem_iff.mpr (List.mem_cons_of_mem c hd))).2 y e hy))
    (by
      rintro y e heq
      cases heq
      exact href.spells)
  refine .inr ⟨hT, own, href.ref, rfl, _, hrep, table_insert htable hT ?_⟩
  intro d hd
  rw [mem_relabel h.nodup]
  refine or_congr Iff.rfl (and_iff_left_of_imp ?_)
  rintro - rfl
  simp [hentry] at hd

/-- A tree with nodes that were added, one of them for the word. -/
theorem lookedUp_of_insert (h : Represents s t) (htable : ∀ w e, T w = some e ↔ Holds t w e)
    (href : Referred s x w prefixes own) (extra : List (Cell δ))
    (hperm : (preorder t').Perm (extra ++ preorder t)) (hcompressed : Compressed keyed [] t')
    (hlinked : Linked layout s'.nodes none t') (hhead : s'.head = ptr layout t')
    (hmaxbits : s'.maxbits = s.maxbits) (hprefixes : s'.prefixes = prefixes)
    (hactive : s'.numActiveNode = s.numActiveNode + extra.length) (hnodup : (extra.map Cell.addr).Nodup)
    (hnew : newCell s w own ∈ extra)
    (hglue : ∀ d ∈ extra, d = newCell s w own ∨
      d.entry = none ∧ d.addr ∉ addrs layout t ∧ d.word.length ≤ s.maxbits) :
    LookedUp s T x w s' s.nodes.fresh := by
  have hout : (newCell s w own).addr ∉ addrs layout t := h.newCell_not_mem
  have hT : T w = none := table_eq_none_of_insert htable hperm hcompressed hnew hout
  have hrep : Represents s' t' := by
    refine h.insert extra hperm hcompressed hmaxbits hhead hactive hlinked hnodup ?_ ?_ ?_
    · intro d hd
      rcases hglue d hd with rfl | ⟨-, hfresh, -⟩
      · exact hout
      · exact hfresh
    · exact hprefixes ▸ href.mono
    · intro d hd
      rcases hglue d hd with rfl | ⟨hentry, -, hlen⟩
      · exact href.cellOk hmaxbits hprefixes
      · exact ⟨hmaxbits ▸ hlen, fun y e hy => by simp [hentry] at hy⟩
  refine .inr ⟨hT, own, hprefixes ▸ href.ref, hmaxbits, t', hrep, table_insert htable hT ?_⟩
  intro d hd
  rw [hperm.mem_iff, List.mem_append]
  refine or_congr ⟨?_, ?_⟩ Iff.rfl
  · intro hmem
    rcases hglue d hmem with rfl | ⟨hentry, -⟩
    · rfl
    · simp [hentry] at hd
  · rintro rfl
    exact hnew

/-- The new node as a child. -/
theorem lookedUp_child (h : Represents s (plug gs (.node c l r)))
    (htable : ∀ w e, T w = some e ↔ Holds (plug gs (.node c l r)) w e) (href : Referred s x pre.word prefixes own)
    {testPrefix : Prefix}
    (hsite : Site (plug gs (.node c l r)) (addrBit pre.add) (addrBit testPrefix.add) pre.bitlen.toNat k gs c l r)
    (hchild : c.word.length = k) (hkn : k < pre.bitlen.toNat) :
    ∃ s', attachChild (allocated s prefixes pre.bitlen.toNat own) pre.add c.addr s.nodes.fresh = some s' ∧
      LookedUp s T x pre.word s' s.nodes.fresh := by
  have hdetached := h.detached prefixes pre.word own
  have hfits := href.fits
  rw [Prefix.length_word] at hdetached hfits
  have hfree := (hsite.child hchild hkn).2
  have hside : goesRight (allocated s prefixes pre.bitlen.toNat own) pre.add c.word.length =
      some (addrBit pre.add k) := by
    rw [hchild]
    exact goesRight_eq pre.add (Nat.lt_of_lt_of_le hkn hfits) h.maxbits_le
  obtain ⟨nodes, hattach, hlinked⟩ := attachChild_spec hdetached hside hfree
  refine ⟨_, hattach, ?_⟩
  refine lookedUp_of_insert h htable href [newCell s pre.word own] (preorder_child hfree)
    (hsite.compressed_child h.compressed hchild hkn rfl rfl) hlinked ?_ rfl rfl rfl (by simp) (by simp) (by simp)
  have hhead := h.head
  rw [ptr_plug] at hhead
  rw [ptr_plug, ptr_fill]
  exact hhead

/-- The new node as the parent. -/
theorem lookedUp_parent (h : Represents s (plug gs (.node c l r)))
    (htable : ∀ w e, T w = some e ↔ Holds (plug gs (.node c l r)) w e) (href : Referred s x pre.word prefixes own)
    {testPrefix : Prefix}
    (hsite : Site (plug gs (.node c l r)) (addrBit pre.add) (addrBit testPrefix.add) pre.bitlen.toNat k gs c l r)
    (hparent : pre.bitlen.toNat = k) (hlt : k < c.word.length) :
    ∃ s', attachParent (allocated s prefixes pre.bitlen.toNat own) testPrefix.add pre.bitlen.toNat c.addr
        s.nodes.fresh = some s' ∧ LookedUp s T x pre.word s' s.nodes.fresh := by
  have hdetached := h.detached prefixes pre.word own
  have hcells := h.cells c ((preorder_focus gs c l r).mem_iff.mpr List.mem_cons_self)
  have hlen : (newCell s pre.word own).word.length = pre.bitlen.toNat := pre.length_word
  rw [Prefix.length_word] at hdetached
  have hside : goesRight (allocated s prefixes pre.bitlen.toNat own) testPrefix.add
      (newCell s pre.word own).word.length = some (addrBit testPrefix.add k) := by
    rw [hlen, hparent]
    exact goesRight_eq testPrefix.add (Nat.lt_of_lt_of_le hlt hcells.1) h.maxbits_le
  obtain ⟨nodes, hattach, hlinked⟩ := attachParent_spec hdetached hside
  rw [hlen] at hattach
  refine ⟨_, hattach, ?_⟩
  exact lookedUp_of_insert h htable href [newCell s pre.word own] (preorder_above _)
    (hsite.compressed_parent h.compressed hparent.symm hlt rfl rfl) hlinked rfl rfl rfl rfl
    (by simp) (by simp) (by simp)

/-- The new node below a node that branches. -/
theorem lookedUp_glue (h : Represents s (plug gs (.node c l r)))
    (htable : ∀ w e, T w = some e ↔ Holds (plug gs (.node c l r)) w e) (href : Referred s x pre.word prefixes own)
    {testPrefix : Prefix}
    (hsite : Site (plug gs (.node c l r)) (addrBit pre.add) (addrBit testPrefix.add) pre.bitlen.toNat k gs c l r)
    (hkn : k < pre.bitlen.toNat) (hlt : k < c.word.length) :
    ∃ s', attachGlue (allocated s prefixes pre.bitlen.toNat own) pre.add k c.addr s.nodes.fresh = some s' ∧
      LookedUp s T x pre.word s' s.nodes.fresh := by
  have hdetached := h.detached prefixes pre.word own
  have hfits := href.fits
  rw [Prefix.length_word] at hdetached hfits
  have hfreshGlue : (allocated s prefixes pre.bitlen.toNat own).nodes.fresh = s.nodes.fresh + 1 := by
    simp [allocated, PatriciaTree.calloc, fresh, alloc]
  have hside : goesRight (allocated s prefixes pre.bitlen.toNat own) pre.add
      (bits (addrBit pre.add) k).length = some (addrBit pre.add k) := by
    rw [length_bits]
    exact goesRight_eq pre.add (Nat.lt_of_lt_of_le hkn hfits) h.maxbits_le
  obtain ⟨nodes, hattach, hlinked⟩ := attachGlue_spec hdetached hside
  rw [length_bits] at hattach
  refine ⟨_, hattach, ?_⟩
  refine lookedUp_of_insert h htable href _ (preorder_above _)
    (hsite.compressed_glue h.compressed hkn hlt rfl rfl _) hlinked rfl rfl rfl ?_ ?_ (by simp) ?_
  · simp only [allocated, PatriciaTree.calloc, preorder_node, preorder_nil, List.append_nil,
      List.length_cons, List.length_nil]
    omega
  · simp [newCell, hfreshGlue]
  · simp only [preorder_node, preorder_nil, List.append_nil, List.mem_cons, List.not_mem_nil, or_false]
    rintro d (rfl | rfl)
    · refine .inr ⟨rfl, fun hmem => ?_, ?_⟩
      · have hlt := h.addr_lt hmem
        rw [hfreshGlue] at hlt
        exact absurd hlt (Nat.not_lt.mpr (Nat.le_succ _))
      · rw [length_bits]
        omega
    · exact .inl rfl

/-- The three ways in which a new node comes into the tree. -/
theorem lookedUp_of_attach (h : Represents s t) (htable : ∀ w e, T w = some e ↔ Holds t w e)
    (href : Referred s x pre.word prefixes own) {testPrefix : Prefix}
    (hsite : Site t (addrBit pre.add) (addrBit testPrefix.add) pre.bitlen.toNat k gs c l r)
    (hother : ¬ (k = pre.bitlen.toNat ∧ c.word.length = pre.bitlen.toNat)) :
    ∃ s', (if c.word.length = k then
          attachChild (allocated s prefixes pre.bitlen.toNat own) pre.add c.addr s.nodes.fresh
        else if pre.bitlen.toNat = k then
          attachParent (allocated s prefixes pre.bitlen.toNat own) testPrefix.add pre.bitlen.toNat c.addr s.nodes.fresh
        else attachGlue (allocated s prefixes pre.bitlen.toNat own) pre.add k c.addr s.nodes.fresh) = some s' ∧
      LookedUp s T x pre.word s' s.nodes.fresh := by
  obtain rfl := hsite.tree
  have hle := hsite.le
  have hkc : k ≤ c.word.length := by simpa using hsite.below.length_le
  by_cases hchild : c.word.length = k
  · rw [if_pos hchild]
    exact lookedUp_child h htable href hsite hchild (by omega)
  · rw [if_neg hchild]
    by_cases hparent : pre.bitlen.toNat = k
    · rw [if_pos hparent]
      exact lookedUp_parent h htable href hsite hparent (by omega)
    · rw [if_neg hparent]
      exact lookedUp_glue h htable href hsite (by omega) (by omega)

end

theorem patriciaLookup_of_represents (h : Represents s t) (htable : ∀ w e, T w = some e ↔ Holds t w e)
    (hread : s.prefixes.read x = some pre) (hshare : Shareable pre) (hlen : pre.bitlen.toNat ≤ s.maxbits) :
    ∃ s' p, patriciaLookup s x = some (s', p) ∧ LookedUp s T x pre.word s' p := by
  obtain ⟨prefixes, own, href, hspells, hmono⟩ := refPrefix_spec hread hshare
  have hreferred : Referred s x pre.word prefixes own :=
    ⟨href, hspells, hmono, by rw [Prefix.length_word]; exact hlen⟩
  simp only [patriciaLookup, hread, cAssert_of hlen, href, Option.bind_eq_bind, Option.bind_some]
  cases hhead : s.head with
  | none =>
      obtain rfl := ptr_eq_none.mp (h.head.symm.trans hhead)
      have hnew := (h.detached prefixes pre.word own).node
      rw [Prefix.length_word] at hnew
      exact ⟨_, _, rfl, lookedUp_of_insert h htable hreferred [newCell s pre.word own]
        (.refl (preorder (.node (newCell s pre.word own) .nil .nil)))
        ⟨List.nil_prefix, .inl rfl, trivial, trivial⟩ ⟨hnew, trivial, trivial⟩ rfl rfl rfl rfl (by simp)
        (by simp) (by simp)⟩
  | some head =>
      obtain ⟨testPrefix, k, gs, c, l, r, hplace, hsite⟩ := findPlace_spec h hhead hlen
      have hnode := (hsite.tree ▸ h).read_focus
      have hc : c ∈ preorder t := hsite.tree ▸ (preorder_focus gs c l r).mem_iff.mpr List.mem_cons_self
      simp only [hplace, hnode, layout_content, Option.bind_some]
      by_cases hsame : k = pre.bitlen.toNat ∧ c.word.length = pre.bitlen.toNat
      · rw [if_pos hsame]
        have hword : c.word = pre.word := by
          rw [hsite.word_eq (hsame.2.trans hsame.1.symm), hsame.1, Prefix.word]
        cases hentry : c.entry with
        | some stored =>
            have hT := table_of_cell htable hc hentry
            exact ⟨_, _, rfl, .inl ⟨_, hword ▸ hT, rfl, rfl⟩⟩
        | none =>
            obtain rfl := hsite.tree
            rw [← hword] at hreferred ⊢
            refine ⟨_, c.addr, ?_, lookedUp_of_glue h htable hentry hreferred⟩
            have hmodify := modify_of_read (s := { s with prefixes := prefixes }) hnode
              fun node => { node with pfx := some own }
            rw [← hhead]
            refine (congrArg (Option.bind · _) hmodify).trans ?_
            simp [hentry]
      · rw [if_neg hsame]
        obtain ⟨s', hattach, hlooked⟩ := lookedUp_of_attach h htable hreferred hsite hsame
        refine ⟨s', s.nodes.fresh, ?_, hlooked⟩
        have hmapped := congrArg (Option.map fun s' => (s', s.nodes.fresh)) hattach
        rw [apply_ite (Option.map _), apply_ite (Option.map _), Option.map_some] at hmapped
        rw [← hhead]
        exact hmapped

/-- A lookup fails no assertion and gives the node of the word, which is a new entry if there was none. -/
theorem patriciaLookup_spec (h : Models s T) (hread : s.prefixes.read x = some pre) (hshare : Shareable pre)
    (hlen : pre.bitlen.toNat ≤ s.maxbits) :
    ∃ s' p, patriciaLookup s x = some (s', p) ∧ LookedUp s T x pre.word s' p := by
  obtain ⟨t, hrep, htable⟩ := h
  exact patriciaLookup_of_represents hrep htable hread hshare hlen

theorem patriciaLookup_spec_sample :
    ∃ s' p, patriciaLookup sampleTree 2 = some (s', p) ∧
      LookedUp sampleTree sampleTable 2 (samplePrefix 10 16).word s' p :=
  patriciaLookup_spec models_sample rfl (by decide) (by decide)

end SrxNote.Patricia
