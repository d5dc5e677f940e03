import Mathlib.Algebra.GroupWithZero.Nat
import SrxNote.Patricia.Proofs.Table
import SrxNote.Patricia.Walk

/-!
# What a walk visits

A walk with a stack works through a list of trees: the next node is the root of the
first one that is not empty, and the roots of the others are on the stack. It calls
its function for every entry once, in the order of the words, and the stack never
holds more nodes than the words have bits.
-/

namespace SrxNote.Patricia

open Heap LinkedTree PrefixTree

variable {δ : Type} {s : PatriciaTree δ} {T : Table δ} {nodes : Heap (PatriciaNode δ)}
  {t l r : BinaryTree (Cell δ)} {ts : List (BinaryTree (Cell δ))} {c : Cell δ} {fuel p : Nat}
  {parent : Option Nat} {u : List Bool}

/-- The pointers to the trees that are not empty. -/
def roots (ts : List (BinaryTree (Cell δ))) : List Nat := ts.filterMap (ptr layout)

@[simp] theorem roots_nil : roots ([] : List (BinaryTree (Cell δ))) = [] := rfl

@[simp] theorem roots_cons_nil (ts : List (BinaryTree (Cell δ))) : roots (.nil :: ts) = roots ts := rfl

@[simp] theorem roots_cons_node (c : Cell δ) (l r : BinaryTree (Cell δ)) (ts : List (BinaryTree (Cell δ))) :
    roots (.node c l r :: ts) = c.addr :: roots ts := rfl

/-- A tree has no more trees behind it than its words have bits. -/
def Stacked : List (BinaryTree (Cell δ)) → Prop
  | [] => True
  | .nil :: ts => Stacked ts
  | .node c _ _ :: ts => (roots ts).length ≤ c.word.length ∧ Stacked ts

/-- A tree that is still to be visited. -/
def Pending (nodes : Heap (PatriciaNode δ)) (t : BinaryTree (Cell δ)) : Prop :=
  (∃ parent, Linked layout nodes parent t) ∧ (∃ u, Compressed keyed u t) ∧
    ∀ c ∈ preorder t, c.word.length ≤ patriciaMaxbits

/-- The calls for the entries of a tree. -/
def callsOf (t : BinaryTree (Cell δ)) : List (Nat × Option δ) := (preorder t).filterMap Cell.entry

/-! ### The stack -/

theorem length_roots_cons (t : BinaryTree (Cell δ)) (ts : List (BinaryTree (Cell δ))) :
    (roots (t :: ts)).length ≤ (roots ts).length + 1 := by
  cases t <;> simp

/-- The trees below a node come before those that wait. -/
theorem Stacked.children (h : Stacked (.node c l r :: ts)) (hcl : Compressed keyed (c.word ++ [false]) l)
    (hcr : Compressed keyed (c.word ++ [true]) r) : Stacked (l :: r :: ts) := by
  obtain ⟨hlen, hts⟩ := h
  have hlonger : ∀ (b : Bool) (d : Cell δ), c.word ++ [b] <+: d.word → c.word.length < d.word.length := by
    intro b d hd
    have hle := hd.length_le
    rw [List.length_append, List.length_singleton] at hle
    exact hle
  have hr : Stacked (r :: ts) := by
    cases r with
    | nil => exact hts
    | node d rl rr => exact ⟨hlen.trans (Nat.le_of_lt (hlonger true d hcr.1)), hts⟩
  cases l with
  | nil => exact hr
  | node d ll lr =>
      have hcount := length_roots_cons r ts
      have hlt := hlonger false d hcl.1
      exact ⟨by omega, hr⟩

theorem walkNext_spec (l r : BinaryTree (Cell δ)) {ts : List (BinaryTree (Cell δ))}
    (hroom : (roots ts).length ≤ patriciaMaxbits) :
    walkNext (ptr layout l) (ptr layout r) (roots ts) =
      some ((roots (l :: r :: ts)).tail, (roots (l :: r :: ts)).head?) := by
  cases l with
  | nil =>
      cases r with
      | nil => rfl
      | node d rl rr => rfl
  | node d ll lr =>
      cases r with
      | nil => rfl
      | node d' rl rr =>
          have hpush : push (roots ts) d'.addr = some (d'.addr :: roots ts) := if_pos (Nat.lt_succ_of_le hroom)
          simp [walkNext, ptr, hpush]

theorem Pending.children (h : Pending nodes (.node c l r)) :
    (∃ parent, nodes.read c.addr = some (layout.content c ⟨ptr layout l, ptr layout r, parent⟩)) ∧
      Pending nodes l ∧ Pending nodes r ∧ Compressed keyed (c.word ++ [false]) l ∧
      Compressed keyed (c.word ++ [true]) r := by
  obtain ⟨⟨parent, hread, hl, hr⟩, ⟨u, -, -, hcl, hcr⟩, hwords⟩ := h
  refine ⟨⟨parent, hread⟩, ⟨⟨_, hl⟩, ⟨_, hcl⟩, ?_⟩, ⟨⟨_, hr⟩, ⟨_, hcr⟩, ?_⟩, hcl, hcr⟩
  · exact fun d hd => hwords d (by simp [hd])
  · exact fun d hd => hwords d (by simp [hd])

/-- The node of the first tree has room on the stack for what waits behind it. -/
theorem room_of_pending (h : Pending nodes (.node c l r)) (hstacked : Stacked (.node c l r :: ts)) :
    (roots ts).length ≤ patriciaMaxbits :=
  hstacked.1.trans (h.2.2 c (by simp))

theorem Represents.pending (h : Represents s t) : Pending s.nodes t :=
  ⟨⟨_, h.linked⟩, ⟨_, h.compressed⟩, fun c hc => ((h.cells c hc).1).trans h.maxbits_le⟩

theorem stacked_singleton (t : BinaryTree (Cell δ)) : Stacked [t] := by
  cases t with
  | nil => trivial
  | node c l r => exact ⟨Nat.zero_le _, trivial⟩

/-! ### `patricia_process` -/

theorem callsOf_node (c : Cell δ) (l r : BinaryTree (Cell δ)) :
    callsOf (.node c l r) = c.entry.toList ++ (callsOf l ++ callsOf r) := by
  cases hentry : c.entry with
  | none => simp [callsOf, hentry]
  | some e => simp [callsOf, hentry]

theorem processLoop_spec (hfuel : (ts.map BinaryTree.numNodes).sum ≤ fuel)
    (hpending : ∀ t ∈ ts, Pending nodes t) (hstacked : Stacked ts) :
    processLoop nodes fuel (roots ts).tail (roots ts).head? = some (ts.flatMap callsOf) := by
  induction fuel generalizing ts with
  | zero =>
      induction ts with
      | nil => rfl
      | cons t ts ih =>
          cases t with
          | nil => exact ih (by simpa using hfuel) (fun t ht => hpending t (List.mem_cons_of_mem _ ht)) hstacked
          | node c l r => simp at hfuel
  | succ fuel ih =>
      induction ts with
      | nil => rfl
      | cons t ts ihts =>
          cases t with
          | nil => exact ihts (by simpa using hfuel) (fun t ht => hpending t (List.mem_cons_of_mem _ ht)) hstacked
          | node c l r =>
              have hnode := hpending _ List.mem_cons_self
              obtain ⟨⟨parent, hread⟩, hl, hr, hcl, hcr⟩ := hnode.children
              have hnext := walkNext_spec l r (room_of_pending hnode hstacked)
              have hfuel' : ((l :: r :: ts).map BinaryTree.numNodes).sum ≤ fuel := by
                simp only [List.map_cons, List.sum_cons, BinaryTree.numNodes] at hfuel ⊢
                omega
              have hpending' : ∀ t ∈ l :: r :: ts, Pending nodes t := by
                simp only [List.mem_cons]
                rintro t (rfl | rfl | ht)
                · exact hl
                · exact hr
                · exact hpending t (List.mem_cons_of_mem _ ht)
              have hrest := ih hfuel' hpending' (hstacked.children hcl hcr)
              have hown : ((c.entry.map Prod.fst).map fun x => (x, c.entry.bind Prod.snd)).toList =
                  c.entry.toList := by
                cases c.entry <;> rfl
              simp only [roots_cons_node, List.head?_cons, List.tail_cons, processLoop, hread, layout_content,
                hnext, hrest, hown, Option.bind_eq_bind, Option.bind_some, List.flatMap_cons, callsOf_node,
                List.append_assoc]

/-- A walk calls its function once for every entry, in the order of the words. -/
theorem patriciaProcess_of_represents (h : Represents s t) : patriciaProcess s = some (callsOf t) := by
  have hfuel : ([t].map BinaryTree.numNodes).sum ≤ s.nodes.fresh := by
    simpa using h.linked.numNodes_le h.nodup
  have hloop := processLoop_spec hfuel (by simpa using h.pending) (stacked_singleton t)
  rw [List.flatMap_singleton] at hloop
  rw [patriciaProcess, h.head]
  cases t <;> exact hloop

/-- The calls for the words of a list. -/
def callsFor (T : Table δ) (ws : List (List Bool)) : List (Nat × Option δ) :=
  ws.filterMap fun w => (T w).map fun e => (e.pfx, e.data)

/-- The words of the entries among some cells. -/
def storedWords (cs : List (Cell δ)) : List (List Bool) := (cs.filter keyed.stored).map Cell.word

theorem mem_storedWords (htable : ∀ w e, T w = some e ↔ Holds t w e) {cs : List (Cell δ)}
    (hperm : cs.Perm (preorder t)) (w : List Bool) : w ∈ storedWords cs ↔ (T w).isSome := by
  rw [storedWords, List.mem_map]
  constructor
  · rintro ⟨c, hc, rfl⟩
    obtain ⟨hc, hstored⟩ := List.mem_filter.mp hc
    obtain ⟨⟨own, d⟩, hentry⟩ := Option.isSome_iff_exists.mp hstored
    rw [table_of_cell htable (hperm.mem_iff.mp hc) hentry]
    rfl
  · intro hsome
    obtain ⟨e, he⟩ := Option.isSome_iff_exists.mp hsome
    exact ⟨_, List.mem_filter.mpr ⟨hperm.mem_iff.mpr ((htable w e).mp he), rfl⟩, rfl⟩

theorem callsFor_storedWords (htable : ∀ w e, T w = some e ↔ Holds t w e) {cs : List (Cell δ)}
    (hcs : ∀ c ∈ cs, c ∈ preorder t) : callsFor T (storedWords cs) = cs.filterMap Cell.entry := by
  rw [callsFor, storedWords, List.filterMap_map, List.filterMap_filter]
  refine List.filterMap_congr fun c hc => ?_
  cases hentry : c.entry with
  | none => simp [hentry]
  | some e =>
      obtain ⟨own, d⟩ := e
      simp [hentry, table_of_cell htable (hcs c hc) hentry]

/-- `patricia_process` calls its function once for each word that has an entry, in lexicographic order,
    and does not write behind its stack. -/
theorem patriciaProcess_spec (h : Models s T) :
    ∃ ws : List (List Bool), ws.Pairwise (· < ·) ∧ (∀ w, w ∈ ws ↔ (T w).isSome) ∧
      patriciaProcess s = some (callsFor T ws) := by
  obtain ⟨t, hrep, htable⟩ := h
  refine ⟨storedWords (preorder t), ?_, mem_storedWords htable (.refl _), ?_⟩
  · rw [storedWords, List.pairwise_map]
    exact hrep.compressed.sorted.filter _
  · rw [callsFor_storedWords htable fun _ hc => hc, patriciaProcess_of_represents hrep, callsOf]

theorem patriciaProcess_spec_sample :
    ∃ ws : List (List Bool), ws.Pairwise (· < ·) ∧ (∀ w, w ∈ ws ↔ (sampleTable w).isSome) ∧
      patriciaProcess sampleTree = some (callsFor sampleTable ws) :=
  patriciaProcess_spec models_sample

/-! ### `patricia_walk_inorder` -/

theorem patriciaWalkInorder_of_linked (hl : Linked layout nodes parent t) (hp : ptr layout t = some p)
    (hfuel : t.numNodes ≤ fuel) :
    patriciaWalkInorder nodes fuel p =
      some ((inorder t).filterMap Cell.entry, ((inorder t).filterMap Cell.entry).length) := by
  induction t generalizing parent p fuel with
  | nil => cases hp
  | node c l r ihl ihr =>
      obtain ⟨hread, hl', hr'⟩ := hl
      obtain rfl : c.addr = p := Option.some.inj hp
      rw [BinaryTree.numNodes] at hfuel
      obtain ⟨fuel, rfl⟩ : ∃ k, fuel = k + 1 := ⟨fuel - 1, by omega⟩
      have hleft : (ptr layout l).elim (some ([], 0)) (patriciaWalkInorder nodes fuel) =
          some ((inorder l).filterMap Cell.entry, ((inorder l).filterMap Cell.entry).length) := by
        cases hptr : ptr layout l with
        | none =>
            obtain rfl := ptr_eq_none.mp hptr
            rfl
        | some q => exact ihl hl' hptr (by omega)
      have hright : (ptr layout r).elim (some ([], 0)) (patriciaWalkInorder nodes fuel) =
          some ((inorder r).filterMap Cell.entry, ((inorder r).filterMap Cell.entry).length) := by
        cases hptr : ptr layout r with
        | none =>
            obtain rfl := ptr_eq_none.mp hptr
            rfl
        | some q => exact ihr hr' hptr (by omega)
      have hown : ((c.entry.map Prod.fst).map fun x => (x, c.entry.bind Prod.snd)).toList = c.entry.toList := by
        cases c.entry <;> rfl
      rw [layout_addr] at hread
      simp only [patriciaWalkInorder, hread, layout_content, hleft, hright, hown, Option.bind_eq_bind,
        Option.bind_some]
      cases hentry : c.entry with
      | none => simp [inorder, hentry]
      | some e => simp [inorder, hentry, Nat.add_assoc, Nat.add_comm 1]

/-- `patricia_walk_inorder` calls its function once for each word that has an entry, between the words
    that go on with a 0 and with a 1 bit, and counts the calls. -/
theorem patriciaWalkInorder_spec (h : Models s T) (hhead : s.head = some p) :
    ∃ ws : List (List Bool), ws.Pairwise (fun v w => middle v < middle w) ∧ (∀ w, w ∈ ws ↔ (T w).isSome) ∧
      patriciaWalkInorder s.nodes s.nodes.fresh p = some (callsFor T ws, ws.length) := by
  obtain ⟨t, hrep, htable⟩ := h
  refine ⟨storedWords (inorder t), ?_, mem_storedWords htable (inorder_perm t), ?_⟩
  · rw [storedWords, List.pairwise_map]
    exact hrep.compressed.inorder_sorted.filter _
  · have hcalls := callsFor_storedWords htable fun c hc => (inorder_perm t).mem_iff.mp hc
    rw [hcalls, patriciaWalkInorder_of_linked hrep.linked (hrep.head.symm.trans hhead)
      (hrep.linked.numNodes_le hrep.nodup)]
    have hlength : (storedWords (inorder t)).length = ((inorder t).filterMap Cell.entry).length := by
      rw [storedWords, List.length_map, List.length_filterMap_eq_countP, List.countP_eq_length_filter]
      rfl
    rw [hlength]

theorem patriciaWalkInorder_spec_sample :
    ∃ ws : List (List Bool), ws.Pairwise (fun v w => middle v < middle w) ∧
      (∀ w, w ∈ ws ↔ (sampleTable w).isSome) ∧
      patriciaWalkInorder sampleTree.nodes 3 2 = some (callsFor sampleTable ws, ws.length) :=
  patriciaWalkInorder_spec models_sample rfl

end SrxNote.Patricia
