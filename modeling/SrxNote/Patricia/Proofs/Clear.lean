import SrxNote.Patricia.Proofs.Ownership
import SrxNote.Patricia.Proofs.Walk

/-!
# Clearing a tree

`Clear_Patricia` goes through the tree as a walk does and frees each node behind
itself, with a reference less to its prefix. Nothing that it freed is read again, no
node stays behind, and `head` points to a freed node afterwards.
-/

namespace SrxNote.Patricia

open Heap LinkedTree PrefixTree

variable {δ : Type} {s s₁ s' : PatriciaTree δ} {T : Table δ} {t l r : BinaryTree (Cell δ)}
  {ts : List (BinaryTree (Cell δ))} {c : Cell δ} {fuel : Nat} {func : Bool}

/-- The prefixes of the entries of a tree. -/
def pointersOf (t : BinaryTree (Cell δ)) : List Nat := (preorder t).filterMap fun c => c.entry.map Prod.fst

/-- The trees that are still to be freed. -/
structure Clearing (s : PatriciaTree δ) (ts : List (BinaryTree (Cell δ))) : Prop where
  pending : ∀ t ∈ ts, Pending s.nodes t
  stacked : Stacked ts
  nodup : (ts.flatMap (addrs layout)).Nodup
  distinct : (ts.flatMap pointersOf).Nodup
  live : ∀ x ∈ ts.flatMap pointersOf, ∃ pre, s.prefixes.read x = some pre ∧ 1 ≤ pre.refCount

/-- What the loop did to the trees. -/
structure Cleared (s : PatriciaTree δ) (ts : List (BinaryTree (Cell δ))) (s' : PatriciaTree δ) : Prop where
  head : s'.head = s.head
  active : s'.numActiveNode = s.numActiveNode - (ts.map BinaryTree.numNodes).sum
  nodes : ∀ p, s'.nodes.read p = if p ∈ ts.flatMap (addrs layout) then none else s.nodes.read p
  prefixes : ∀ x, s'.prefixes.read x =
    if x ∈ ts.flatMap pointersOf then (s.prefixes.read x).bind dropRef else s.prefixes.read x

theorem pointersOf_node (c : Cell δ) (l r : BinaryTree (Cell δ)) :
    pointersOf (.node c l r) = (c.entry.map Prod.fst).toList ++ (pointersOf l ++ pointersOf r) := by
  cases hentry : c.entry with
  | none => simp [pointersOf, hentry]
  | some e => simp [pointersOf, hentry]

theorem Pending.congr {nodes nodes' : Heap (PatriciaNode δ)} (h : Pending nodes t)
    (heq : ∀ p ∈ addrs layout t, nodes'.read p = nodes.read p) : Pending nodes' t := by
  obtain ⟨⟨parent, hl⟩, hrest⟩ := h
  exact ⟨⟨parent, hl.congr heq⟩, hrest⟩

/-- The first node is freed, and the trees below it come next. -/
theorem Clearing.step (h : Clearing s (.node c l r :: ts)) :
    ∃ prefixes, derefPrefix s.prefixes (c.entry.map Prod.fst) = some prefixes ∧
      Clearing
        { s with
          nodes := s.nodes.set c.addr none
          numActiveNode := s.numActiveNode - 1
          prefixes := prefixes } (l :: r :: ts) ∧
      ∀ x, prefixes.read x =
        if x ∈ (c.entry.map Prod.fst).toList then (s.prefixes.read x).bind dropRef else s.prefixes.read x := by
  obtain ⟨hpending, hstacked, hnodup, hdistinct, hlive⟩ := h
  obtain ⟨-, hl, hr, hcl, hcr⟩ := (hpending _ List.mem_cons_self).children
  have hderef : ∃ prefixes, derefPrefix s.prefixes (c.entry.map Prod.fst) = some prefixes ∧
      ∀ x, prefixes.read x =
        if x ∈ (c.entry.map Prod.fst).toList then (s.prefixes.read x).bind dropRef else s.prefixes.read x := by
    cases hentry : c.entry with
    | none => exact ⟨s.prefixes, rfl, by simp⟩
    | some e =>
        have hmem : e.1 ∈ (BinaryTree.node c l r :: ts).flatMap pointersOf := by
          simp [pointersOf_node, hentry]
        obtain ⟨pre, hread, hcount⟩ := hlive e.1 hmem
        refine ⟨_, derefPrefix_eq hread hcount, fun x => ?_⟩
        rw [read_set hread]
        by_cases hx : x = e.1
        · subst hx
          simp [hread]
        · simp [hx]
  obtain ⟨prefixes, hderef, hprefixes⟩ := hderef
  simp only [List.flatMap_cons, addrs_node, List.cons_append, List.nodup_cons, layout_addr] at hnodup
  obtain ⟨hc, hnodup⟩ := hnodup
  simp only [List.flatMap_cons, pointersOf_node, List.append_assoc] at hdistinct
  obtain ⟨-, hdistinct, hapart⟩ := List.nodup_append.mp hdistinct
  refine ⟨prefixes, hderef, ⟨?_, hstacked.children hcl hcr, ?_, ?_, ?_⟩, hprefixes⟩
  · have hsame : ∀ t, t ∈ l :: r :: ts → ∀ p ∈ addrs layout t, read (s.nodes.set c.addr none) p = s.nodes.read p := by
      intro t ht p hp
      refine read_set_of_ne _ ?_ _
      rintro rfl
      apply hc
      simp only [List.mem_cons] at ht
      rcases ht with rfl | rfl | ht
      · simp [hp]
      · simp [hp]
      · exact List.mem_append_right _ (List.mem_flatMap.mpr ⟨t, ht, hp⟩)
    intro t ht
    have hold : Pending s.nodes t := by
      simp only [List.mem_cons] at ht
      rcases ht with rfl | rfl | ht
      · exact hl
      · exact hr
      · exact hpending t (List.mem_cons_of_mem _ ht)
    exact hold.congr (hsame t ht)
  · simpa [List.append_assoc] using hnodup
  · simpa [List.append_assoc] using hdistinct
  · intro x hx
    have hx' : x ∈ pointersOf l ++ (pointersOf r ++ ts.flatMap pointersOf) := by simpa using hx
    have hnot : x ∉ (c.entry.map Prod.fst).toList := fun hmem => hapart x hmem x hx' rfl
    simp only []
    rw [hprefixes x, if_neg hnot]
    exact hlive x (by
      simp only [List.flatMap_cons, pointersOf_node, List.append_assoc]
      exact List.mem_append_right _ hx')

/-- The first node was freed, and then the trees below it and behind it. -/
theorem Cleared.node {prefixes : Heap Prefix} {links : Links}
    (hread : s.nodes.read c.addr = some (layout.content c links))
    (hprefixes : ∀ x, prefixes.read x =
      if x ∈ (c.entry.map Prod.fst).toList then (s.prefixes.read x).bind dropRef else s.prefixes.read x)
    (hdistinct : ((BinaryTree.node c l r :: ts).flatMap pointersOf).Nodup)
    (h : Cleared
      { s with
        nodes := s.nodes.set c.addr none
        numActiveNode := s.numActiveNode - 1
        prefixes := prefixes } (l :: r :: ts) s') : Cleared s (.node c l r :: ts) s' := by
  refine ⟨h.head, ?_, ?_, ?_⟩
  · rw [h.active]
    simp only [List.map_cons, List.sum_cons, BinaryTree.numNodes]
    omega
  · intro p
    have hmem : p ∈ (BinaryTree.node c l r :: ts).flatMap (addrs layout) ↔
        p = c.addr ∨ p ∈ (l :: r :: ts).flatMap (addrs layout) := by
      simp
    have hrest := h.nodes p
    rw [read_set hread] at hrest
    rw [hrest]
    by_cases hp : p ∈ (l :: r :: ts).flatMap (addrs layout)
    · rw [if_pos hp, if_pos (hmem.mpr (.inr hp))]
    · rw [if_neg hp]
      by_cases hpc : p = c.addr
      · rw [if_pos hpc, if_pos (hmem.mpr (.inl hpc))]
      · rw [if_neg hpc, if_neg fun hin => (hmem.mp hin).elim hpc hp]
  · intro x
    have hmem : x ∈ (BinaryTree.node c l r :: ts).flatMap pointersOf ↔
        x ∈ (c.entry.map Prod.fst).toList ∨ x ∈ (l :: r :: ts).flatMap pointersOf := by
      simp [pointersOf_node]
    simp only [List.flatMap_cons, pointersOf_node, List.append_assoc] at hdistinct
    have hapart := (List.nodup_append.mp hdistinct).2.2
    rw [h.prefixes x]
    by_cases hx : x ∈ (l :: r :: ts).flatMap pointersOf
    · have hnot : x ∉ (c.entry.map Prod.fst).toList := fun hin => hapart x hin x (by simpa using hx) rfl
      rw [if_pos hx, if_pos (hmem.mpr (.inr hx)), hprefixes x, if_neg hnot]
    · rw [if_neg hx, hprefixes x]
      by_cases hxc : x ∈ (c.entry.map Prod.fst).toList
      · rw [if_pos hxc, if_pos (hmem.mpr (.inl hxc))]
      · rw [if_neg hxc, if_neg fun hin => (hmem.mp hin).elim hxc hx]

theorem Cleared.refl (s : PatriciaTree δ) : Cleared s [] s :=
  ⟨rfl, by simp, fun p => by simp, fun x => by simp⟩

theorem Clearing.of_nil (h : Clearing s (.nil :: ts)) : Clearing s ts :=
  ⟨fun t ht => h.pending t (List.mem_cons_of_mem _ ht), h.stacked, h.nodup, h.distinct, h.live⟩

theorem Cleared.cons_nil (h : Cleared s ts s') : Cleared s (.nil :: ts) s' :=
  ⟨h.head, by simpa using h.active, h.nodes, h.prefixes⟩

/-- The loop frees the trees and calls its function with the data of their entries. -/
theorem clearLoop_spec (func : Bool) (hfuel : (ts.map BinaryTree.numNodes).sum ≤ fuel) (h : Clearing s ts) :
    ∃ s', clearLoop func fuel s (roots ts).tail (roots ts).head? =
        some (s', if func then (ts.flatMap callsOf).filterMap Prod.snd else []) ∧ Cleared s ts s' := by
  induction fuel generalizing s ts with
  | zero =>
      induction ts with
      | nil => exact ⟨s, by simp [clearLoop], .refl s⟩
      | cons t ts ih =>
          cases t with
          | nil =>
              obtain ⟨s', hloop, hcleared⟩ := ih (by simpa using hfuel) h.of_nil
              exact ⟨s', hloop, hcleared.cons_nil⟩
          | node c l r => simp at hfuel
  | succ fuel ih =>
      induction ts with
      | nil => exact ⟨s, by simp [clearLoop], .refl s⟩
      | cons t ts ihts =>
          cases t with
          | nil =>
              obtain ⟨s', hloop, hcleared⟩ := ihts (by simpa using hfuel) h.of_nil
              exact ⟨s', hloop, hcleared.cons_nil⟩
          | node c l r =>
              have hnode := h.pending _ List.mem_cons_self
              obtain ⟨⟨parent, hread⟩, -⟩ := hnode.children
              have hnext := walkNext_spec l r (room_of_pending hnode h.stacked)
              obtain ⟨prefixes, hderef, hclearing, hprefixes⟩ := h.step
              have hfuel' : ((l :: r :: ts).map BinaryTree.numNodes).sum ≤ fuel := by
                simp only [List.map_cons, List.sum_cons, BinaryTree.numNodes] at hfuel ⊢
                omega
              obtain ⟨s', hrest, hcleared⟩ := ih hfuel' hclearing
              refine ⟨s', ?_, hcleared.node hread hprefixes h.distinct⟩
              have hdelete := delete_of_read (s := { s with prefixes := prefixes }) hread
              have hassert : cAssert ((c.entry.map Prod.fst).isSome ∨ (c.entry.bind Prod.snd).isNone) =
                  some () := by
                refine cAssert_of ?_
                cases c.entry with
                | none => exact .inr rfl
                | some e => exact .inl rfl
              simp only [roots_cons_node, List.head?_cons, List.tail_cons, clearLoop, hread, layout_content,
                hderef, hassert, hdelete, hnext, hrest, Option.bind_eq_bind, Option.bind_some]
              cases func with
              | false => rfl
              | true =>
                  simp only [List.flatMap_cons, callsOf_node, List.append_assoc, List.filterMap_append]
                  cases hentry : c.entry with
                  | none => rfl
                  | some e =>
                      obtain ⟨own, data⟩ := e
                      cases data <;> rfl

/-! ### The function -/

/-- The entries of a tree have prefixes of their own. -/
theorem Represents.nodup_pointersOf (h : Represents s t) : (pointersOf t).Nodup := by
  rw [pointersOf, List.Nodup, List.pairwise_filterMap]
  refine h.compressed.sorted.imp_of_mem ?_
  rintro c d hc hd hlt x hx y hy rfl
  obtain ⟨⟨own, data⟩, hcentry, rfl⟩ := Option.map_eq_some_iff.mp hx
  obtain ⟨⟨own', data'⟩, hdentry, rfl⟩ := Option.map_eq_some_iff.mp hy
  have heq := ((h.cells c hc).2 _ _ hcentry).word_eq ((h.cells d hd).2 _ _ hdentry)
  rw [keyed_word, keyed_word, heq] at hlt
  exact absurd hlt (List.lt_irrefl _)

theorem mem_pointersOf {x : Nat} :
    x ∈ pointersOf t ↔ ∃ c ∈ preorder t, ∃ data, c.entry = some (x, data) := by
  rw [pointersOf, List.mem_filterMap]
  refine exists_congr fun c => and_congr_right fun _ => ?_
  rw [Option.map_eq_some_iff]
  constructor
  · rintro ⟨⟨own, data⟩, hentry, rfl⟩
    exact ⟨data, hentry⟩
  · rintro ⟨data, hentry⟩
    exact ⟨_, hentry, rfl⟩

theorem Represents.clearing (h : Represents s t) : Clearing s [t] := by
  refine ⟨by simpa using h.pending, stacked_singleton t, by simpa using h.nodup,
    by simpa using h.nodup_pointersOf, ?_⟩
  intro x hx
  obtain ⟨c, hc, data, hentry⟩ := mem_pointersOf.mp (by simpa using hx)
  obtain ⟨pre, hread, -, hlive⟩ := (h.cells c hc).2 x data hentry
  exact ⟨pre, hread, hlive⟩

/-- What `Clear_Patricia` does to a tree. -/
theorem clearPatricia_of_represents (h : Represents s t) (hcounted : Counted s) (func : Bool) :
    ∃ s', clearPatricia s func = some (s', if func then (callsOf t).filterMap Prod.snd else []) ∧
      s'.head = s.head ∧ s'.numActiveNode = 0 ∧ (∀ p, s'.nodes.read p = none) ∧
      ∀ x, s'.prefixes.read x =
        if x ∈ pointersOf t then (s.prefixes.read x).bind dropRef else s.prefixes.read x := by
  have hfuel : (([t] : List (BinaryTree (Cell δ))).map BinaryTree.numNodes).sum ≤ s.nodes.fresh := by
    simpa using h.linked.numNodes_le h.nodup
  obtain ⟨s', hloop, hhead, hactive, hnodes, hprefixes⟩ := clearLoop_spec func hfuel h.clearing
  simp only [List.flatMap_singleton] at hloop hnodes hprefixes
  have hzero : s'.numActiveNode = 0 := by
    rw [hactive, h.active]
    simp
  have hstart : clearLoop func s.nodes.fresh s [] s.head =
      some (s', if func then (callsOf t).filterMap Prod.snd else []) := by
    rw [h.head]
    cases t <;> exact hloop
  refine ⟨s', ?_, hhead, hzero, fun p => ?_, hprefixes⟩
  · simp only [clearPatricia, hstart, cAssert_of hzero, Option.bind_eq_bind, Option.bind_some]
  · rw [hnodes p]
    split
    · rfl
    · rename_i hp
      by_contra hlive
      exact hp (h.mem_addrs hcounted (Option.isSome_iff_ne_none.mpr hlive))

/-- `Clear_Patricia` fails no assertion, frees every node and gives up one reference to the prefix of
    each entry; its function is called with the data of the entries in the order of the words. -/
theorem clearPatricia_spec (h : Models s T) (hcounted : Counted s) (func : Bool) :
    ∃ (s' : PatriciaTree δ) (ws : List (List Bool)), ws.Pairwise (· < ·) ∧ (∀ w, w ∈ ws ↔ (T w).isSome) ∧
      clearPatricia s func = some (s', if func then (callsFor T ws).filterMap Prod.snd else []) ∧
      s'.head = s.head ∧ s'.numActiveNode = 0 ∧ (∀ p, s'.nodes.read p = none) ∧
      (∀ w e, T w = some e → s'.prefixes.read e.pfx = (s.prefixes.read e.pfx).bind dropRef) ∧
      ∀ x, (∀ w e, T w = some e → e.pfx ≠ x) → s'.prefixes.read x = s.prefixes.read x := by
  obtain ⟨t, hrep, htable⟩ := h
  obtain ⟨s', hrun, hhead, hzero, hnodes, hprefixes⟩ := clearPatricia_of_represents hrep hcounted func
  refine ⟨s', storedWords (preorder t), ?_, mem_storedWords htable (.refl _), ?_, hhead, hzero, hnodes, ?_, ?_⟩
  · rw [storedWords, List.pairwise_map]
    exact hrep.compressed.sorted.filter _
  · rw [callsFor_storedWords htable fun _ hc => hc]
    exact hrun
  · intro w e he
    have hmem : e.pfx ∈ pointersOf t := mem_pointersOf.mpr ⟨_, (htable w e).mp he, _, rfl⟩
    rw [hprefixes, if_pos hmem]
  · intro x hx
    have hnot : x ∉ pointersOf t := by
      intro hmem
      obtain ⟨c, hc, data, hentry⟩ := mem_pointersOf.mp hmem
      exact hx _ _ (table_of_cell htable hc hentry) rfl
    rw [hprefixes, if_neg hnot]

theorem clearPatricia_spec_sample :
    ∃ (s' : PatriciaTree Nat) (ws : List (List Bool)), ws.Pairwise (· < ·) ∧
      (∀ w, w ∈ ws ↔ (sampleTable w).isSome) ∧
      clearPatricia sampleTree true = some (s', (callsFor sampleTable ws).filterMap Prod.snd) ∧
      s'.head = some 2 ∧ s'.numActiveNode = 0 ∧ (∀ p, s'.nodes.read p = none) ∧
      (∀ w e, sampleTable w = some e → s'.prefixes.read e.pfx = (sampleTree.prefixes.read e.pfx).bind dropRef) ∧
      ∀ x, (∀ w e, sampleTable w = some e → e.pfx ≠ x) → s'.prefixes.read x = sampleTree.prefixes.read x :=
  clearPatricia_spec models_sample rfl true

/-- A tree that was not empty cannot be used after it was cleared: its head is a freed node. -/
theorem use_after_clearPatricia (h : Models s T) (hcounted : Counted s) {w : List Bool} {e : Entry δ}
    (he : T w = some e) {calls : List δ} (hclear : clearPatricia s func = some (s', calls)) {x : Nat} :
    patriciaSearchExact s' x = none ∧ (∀ inclusive, patriciaSearchBest2 s' x inclusive = none) ∧
      patriciaLookup s' x = none ∧ patriciaProcess s' = none ∧ clearPatricia s' func = none := by
  obtain ⟨t, hrep, htable⟩ := h
  obtain ⟨s'', hclear', hhead, -, hnodes, -⟩ := clearPatricia_of_represents hrep hcounted func
  obtain ⟨rfl, -⟩ := Prod.mk.inj (Option.some.inj (hclear.symm.trans hclear'))
  obtain ⟨head, hsome⟩ : ∃ head, s.head = some head := by
    cases t with
    | nil => cases (htable w e).mp he
    | node c l r => exact ⟨_, hrep.head⟩
  rw [hsome] at hhead
  have hexact : ∀ addr n fuel, exactLoop s'.nodes addr n fuel head = none := by
    intro addr n fuel
    cases fuel <;> simp [exactLoop, hnodes]
  have hbest : ∀ addr n fuel stack, bestLoop s'.nodes addr n fuel stack head = none := by
    intro addr n fuel stack
    cases fuel <;> simp [bestLoop, hnodes]
  have hdescend : ∀ addr n fuel, descend s' addr n fuel head = none := by
    intro addr n fuel
    cases fuel <;> simp [descend, hnodes]
  have hprocess : ∀ fuel stack, processLoop s'.nodes fuel stack (some head) = none := by
    intro fuel stack
    cases fuel <;> simp [processLoop, hnodes]
  have hloop : ∀ fuel stack, clearLoop func fuel s' stack (some head) = none := by
    intro fuel stack
    cases fuel <;> simp [clearLoop, hnodes]
  refine ⟨?_, fun inclusive => ?_, ?_, ?_, ?_⟩
  · simp [patriciaSearchExact, hhead, hexact]
  · simp [patriciaSearchBest2, hhead, hbest]
  · simp [patriciaLookup, hhead, findPlace, hdescend]
  · rw [patriciaProcess, hhead, hprocess]
  · simp [clearPatricia, hhead, hloop]

theorem use_after_clearPatricia_sample :
    ∃ s' calls, clearPatricia sampleTree false = some (s', calls) ∧ patriciaSearchExact s' 2 = none ∧
      (∀ inclusive, patriciaSearchBest2 s' 2 inclusive = none) ∧ patriciaLookup s' 2 = none ∧
      patriciaProcess s' = none ∧ clearPatricia s' false = none :=
  ⟨_, _, rfl, use_after_clearPatricia models_sample rfl (by decide : sampleTable (octetWord 11) = some ⟨1, 1, none⟩) rfl⟩

end SrxNote.Patricia
