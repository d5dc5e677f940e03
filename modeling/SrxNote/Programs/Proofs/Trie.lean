import SrxNote.Misc.Alloc
import SrxNote.Misc.WordTree
import SrxNote.Programs.Trie

/-!
# What the trie holds

A word of indices leads from the root to at most one node, and two words never to
the same one, so the nodes form a tree of words. The node of a word is marked
exactly when the word was inserted; the nodes on the way to it are not, unless
their own words were.
-/

namespace SrxNote.Programs

open Heap Run WordTree

/-- The node behind a child pointer that is not NULL. -/
def edge (h : Heap TrieNode) (p : Nat) (idx : Int) : Option Nat :=
  (h.read p).bind fun node => (node.child idx).join

/-- The trie behind `root` holds the words of indices in `S`. -/
structure Holds (h : Heap TrieNode) (root : Nat) (S : List Int → Prop) : Prop where
  tree : IsTree (edge h) root
  reads : ∀ w p, exec (edge h) root w = some p → ∃ node, h.read p = some node
  marked : ∀ w p node, exec (edge h) root w = some p → h.read p = some node →
    (node.isLeaf = 1 ↔ S w)
  leads : ∀ w, S w → ∃ p, exec (edge h) root w = some p

variable {h : Heap TrieNode} {root p : Nat} {S : List Int → Prop} {u : List Int} {node : TrieNode}
  {idx : Int}

/-! ### Reads after a write -/

theorem edge_of_read (hp : h.read p = some node) (idx : Int) : edge h p idx = (node.child idx).join := by
  rw [edge, hp]
  rfl

theorem child_setChild (hidx : node.child idx = some none) (q : Nat) (idx' : Int) :
    (node.setChild idx q).child idx' = if idx' = idx then some (some q) else node.child idx' := by
  unfold TrieNode.child at hidx ⊢
  split at hidx
  · rename_i hpos
    have hlt : idx.toNat < 10 := by
      by_contra hle
      rw [Vector.getElem?_eq_none (by omega)] at hidx
      cases hidx
    by_cases heq : idx' = idx
    · simp [heq, hpos, TrieNode.setChild, hlt]
    · by_cases hpos' : 0 ≤ idx'
      · have hne : idx.toNat ≠ idx'.toNat := by omega
        simp [heq, hpos', TrieNode.setChild, Vector.getElem?_setIfInBounds_ne hne]
      · simp [heq, hpos']
  · cases hidx

theorem child_newTrieNode (c : Char) (idx : Int) : ((newTrieNode c).child idx).join = none := by
  unfold TrieNode.child newTrieNode
  split
  · by_cases hlt : idx.toNat < 10
    · simp [Vector.getElem?_eq_getElem hlt]
    · rw [Vector.getElem?_eq_none (by omega)]
      rfl
  · rfl

/-- Writing over a reached node without touching its children leaves the edges as they are. -/
theorem edge_set_marked (hp : h.read p = some node) :
    edge (h.set p (some { node with isLeaf := 1 })) = edge h := by
  funext p' idx
  by_cases hpp : p' = p
  · rw [hpp, edge_of_read (read_set_self hp _), edge_of_read hp]
    rfl
  · rw [edge, edge, read_set_of_ne h hpp]

/-- The heap after a new node was put behind a free child pointer. -/
def addNode (h : Heap TrieNode) (p : Nat) (node : TrieNode) (c : Char) : Heap TrieNode :=
  List.set (h.alloc (newTrieNode c)) p (some (node.setChild (childIndex c) h.fresh))

theorem read_addNode_self (hp : h.read p = some node) (c : Char) :
    (addNode h p node c).read p = some (node.setChild (childIndex c) h.fresh) :=
  read_set_self (read_alloc hp _) _

theorem read_addNode_fresh (hp : h.read p = some node) (c : Char) :
    (addNode h p node c).read h.fresh = some (newTrieNode c) := by
  have hlt := lt_fresh_of_read hp
  rw [addNode, read_set_of_ne _ (Nat.ne_of_gt hlt), read_alloc_fresh]

theorem read_addNode_of_ne {q : Nat} (hqp : q ≠ p) (hq : q ≠ h.fresh) (c : Char) :
    (addNode h p node c).read q = h.read q := by
  rw [addNode, read_set_of_ne _ hqp]
  rw [Heap.read, Heap.read, alloc]
  rcases Nat.lt_or_ge q (List.length h) with hlt | hle
  · rw [List.getElem?_append_left hlt]
  · have hlong : List.length h + 1 ≤ q := Nat.lt_of_le_of_ne hle (Ne.symm hq)
    rw [List.getElem?_eq_none hle, List.getElem?_eq_none (by simpa using hlong)]

theorem not_read_fresh (h : Heap TrieNode) : h.read h.fresh = none := by
  simp [Heap.read, fresh]

theorem edge_addNode (hp : h.read p = some node) {c : Char}
    (hc : node.child (childIndex c) = some none) :
    edge (addNode h p node c) = grow (edge h) p (childIndex c) h.fresh := by
  funext q idx
  have hpf : h.fresh ≠ p := Nat.ne_of_gt (lt_fresh_of_read hp)
  by_cases hqp : q = p
  · rw [hqp, edge_of_read (read_addNode_self hp c), child_setChild hc, grow, edge_of_read hp]
    by_cases hidx : idx = childIndex c <;> simp [hidx]
  · have hgrow : grow (edge h) p (childIndex c) h.fresh q idx = edge h q idx := by simp [grow, hqp]
    rw [hgrow]
    by_cases hq : q = h.fresh
    · rw [hq, edge_of_read (read_addNode_fresh hp c), child_newTrieNode, edge, not_read_fresh]
      rfl
    · rw [edge, read_addNode_of_ne hqp hq, edge]

/-! ### One step of an insertion -/

/-- No word leads to a node that is not there yet. -/
theorem Holds.not_fresh (hold : Holds h root S) {w : List Int} {q : Nat}
    (hw : exec (edge h) root w = some q) : q ≠ h.fresh := by
  intro hfresh
  obtain ⟨n, hn⟩ := hold.reads w q hw
  rw [hfresh, not_read_fresh] at hn
  cases hn

/-- A reached node is read as before, and the one with the new node below it has its mark. -/
theorem Holds.read_addNode (hold : Holds h root S) (hp : h.read p = some node) (c : Char) {w : List Int}
    {q : Nat} (hw : exec (edge h) root w = some q) :
    ∃ n n', h.read q = some n ∧ (addNode h p node c).read q = some n' ∧ n'.isLeaf = n.isLeaf := by
  by_cases hqp : q = p
  · rw [hqp]
    exact ⟨node, _, hp, read_addNode_self hp c, rfl⟩
  · obtain ⟨n, hn⟩ := hold.reads w q hw
    exact ⟨n, n, hn, by rw [read_addNode_of_ne hqp (hold.not_fresh hw), hn], rfl⟩

/-- A new node behind a reached one is reached by one word more, and the trie holds what it held. -/
theorem Holds.addNode (hold : Holds h root S) (hu : exec (edge h) root u = some p)
    (hp : h.read p = some node) {c : Char} (hc : node.child (childIndex c) = some none) :
    Holds (addNode h p node c) root S ∧
      exec (edge (addNode h p node c)) root (u ++ [childIndex c]) = some h.fresh := by
  have hd : edge h p (childIndex c) = none := by rw [edge_of_read hp, hc]; rfl
  have hq : ∀ e, edge h h.fresh e = none := fun e => by rw [edge, not_read_fresh]; rfl
  have hnew : ∀ w, exec (edge h) root w ≠ some h.fresh := fun w hw => hold.not_fresh hw rfl
  have hwalk := exec_grow hold.tree hu hd hq hnew
  rw [← edge_addNode hp hc] at hwalk
  have hnone : exec (edge h) root (u ++ [childIndex c]) = none := by
    rw [exec_snoc, hu]
    exact hd
  refine ⟨⟨?_, ?_, ?_, ?_⟩, by rw [hwalk, if_pos rfl]⟩
  · rw [edge_addNode hp hc]
    exact hold.tree.grow hu hd hq hnew
  · intro w q hw
    rw [hwalk] at hw
    split at hw
    · cases hw
      exact ⟨_, read_addNode_fresh hp c⟩
    · obtain ⟨-, n', -, hn', -⟩ := hold.read_addNode hp c hw
      exact ⟨n', hn'⟩
  · intro w q n hw hn
    rw [hwalk] at hw
    split at hw
    · rename_i hword
      cases hw
      rw [read_addNode_fresh hp c] at hn
      cases hn
      -- the new node is not marked, and its word led nowhere before
      have hout : ¬ S w := by
        intro hS
        obtain ⟨q, hq⟩ := hold.leads w hS
        rw [hword, hnone] at hq
        cases hq
      simp [newTrieNode, hout]
    · obtain ⟨n₀, n', hn₀, hn', hleaf⟩ := hold.read_addNode hp c hw
      rw [hn'] at hn
      cases hn
      rw [hleaf]
      exact hold.marked w q n₀ hw hn₀
  · intro w hS
    obtain ⟨q, hq⟩ := hold.leads w hS
    rw [hwalk]
    split
    · exact ⟨_, rfl⟩
    · exact ⟨q, hq⟩

/-- Marking the node of a word adds this word. -/
theorem Holds.mark (hold : Holds h root S) (hu : exec (edge h) root u = some p)
    (hp : h.read p = some node) :
    Holds (h.set p (some { node with isLeaf := 1 })) root (fun w => S w ∨ w = u) := by
  have hedge := edge_set_marked hp
  refine ⟨by rw [hedge]; exact hold.tree, ?_, ?_, ?_⟩
  · intro w q hw
    rw [hedge] at hw
    by_cases hqp : q = p
    · rw [hqp]
      exact ⟨_, read_set_self hp _⟩
    · rw [read_set_of_ne h hqp]
      exact hold.reads w q hw
  · intro w q n hw hn
    rw [hedge] at hw
    by_cases hqp : q = p
    · obtain rfl : w = u := hold.tree w u p (hqp ▸ hw) hu
      rw [hqp, read_set_self hp] at hn
      cases hn
      simp
    · have hwu : w ≠ u := fun heq => hqp (Option.some.inj (hw.symm.trans (heq ▸ hu)))
      rw [read_set_of_ne h hqp] at hn
      rw [hold.marked w q n hw hn]
      simp [hwu]
  · intro w hw
    rw [hedge]
    rcases hw with hS | rfl
    · exact hold.leads w hS
    · exact ⟨p, hu⟩

/-! ### A whole insertion -/

/-- Every index of a digit is one of the ten. -/
theorem child_isSome {c : Char} (hc : c.isDigit = true) (node : TrieNode) :
    ∃ q, node.child (childIndex c) = some q := by
  have hdigit : 48 ≤ c.toNat ∧ c.toNat ≤ 57 := Char.isDigit_iff_toNat.mp hc
  have hpos : 0 ≤ childIndex c := by
    unfold childIndex
    simp
    omega
  have hlt : (childIndex c).toNat < 10 := by
    unfold childIndex
    simp
    omega
  exact ⟨_, by rw [TrieNode.child, if_pos hpos, Vector.getElem?_eq_getElem hlt]⟩

/-- From the node of a word on, the loop adds the word with the rest behind it. -/
theorem insertFrom_spec {word : List Char} (hword : ∀ c ∈ word, c.isDigit = true)
    (hold : Holds h root S) (hu : exec (edge h) root u = some p) :
    ∃ h', insertFrom h p word = some h' ∧
      Holds h' root (fun w => S w ∨ w = u ++ word.map childIndex) := by
  induction word generalizing h p u with
  | nil =>
      obtain ⟨node, hp⟩ := hold.reads u p hu
      refine ⟨_, by rw [insertFrom, hp]; rfl, ?_⟩
      simpa using hold.mark hu hp
  | cons c word ih =>
      obtain ⟨hc, hrest⟩ := List.forall_mem_cons.mp hword
      obtain ⟨node, hp⟩ := hold.reads u p hu
      obtain ⟨child, hchild⟩ := child_isSome hc node
      have hstep : u ++ (c :: word).map childIndex = u ++ [childIndex c] ++ word.map childIndex := by
        simp
      rw [hstep]
      cases child with
      | none =>
          obtain ⟨hold', hu'⟩ := hold.addNode hu hp hchild
          obtain ⟨h', hins, hholds⟩ := ih hrest hold' hu'
          refine ⟨h', ?_, hholds⟩
          rw [← hins]
          simp [insertFrom, hp, hchild, makeTrienode, Programs.addNode]
      | some q =>
          have hu' : exec (edge h) root (u ++ [childIndex c]) = some q := by
            rw [exec_snoc, hu]
            simp [edge_of_read hp, hchild]
          obtain ⟨h', hins, hholds⟩ := ih hrest hold hu'
          refine ⟨h', ?_, hholds⟩
          rw [← hins]
          simp [insertFrom, hp, hchild]

/-- From the node of a word on, the search answers whether the word with the rest is held. -/
theorem searchFrom_spec {word : List Char} (hword : ∀ c ∈ word, c.isDigit = true)
    (hold : Holds h root S) [DecidablePred S] (hu : exec (edge h) root u = some p) :
    searchFrom h p word = some (if S (u ++ word.map childIndex) then 1 else 0) := by
  induction word generalizing p u with
  | nil =>
      obtain ⟨node, hp⟩ := hold.reads u p hu
      have hmark := hold.marked u p node hu hp
      simp [searchFrom, hp, hmark]
  | cons c word ih =>
      obtain ⟨hc, hrest⟩ := List.forall_mem_cons.mp hword
      obtain ⟨node, hp⟩ := hold.reads u p hu
      obtain ⟨child, hchild⟩ := child_isSome hc node
      have hstep : u ++ (c :: word).map childIndex = u ++ [childIndex c] ++ word.map childIndex := by
        simp
      rw [hstep]
      have hsnoc : exec (edge h) root (u ++ [childIndex c]) = child := by
        rw [exec_snoc, hu]
        simp [edge_of_read hp, hchild]
      cases child with
      | none =>
          -- the word leads nowhere, so it is not held
          have hout : ¬ S (u ++ [childIndex c] ++ word.map childIndex) := by
            intro hS
            obtain ⟨q, hq⟩ := hold.leads _ hS
            rw [exec_append, hsnoc] at hq
            cases hq
          rw [if_neg hout]
          simp [searchFrom, hp, hchild]
      | some q =>
          rw [← ih hrest hsnoc]
          simp [searchFrom, hp, hchild]

/-! ### Sequences of insertions -/

/-- A new trie holds no word. -/
theorem holds_makeTrienode (h : Heap TrieNode) (data : Char) :
    Holds (makeTrienode h data).1 (makeTrienode h data).2 fun _ => False := by
  have hread : (makeTrienode h data).1.read (makeTrienode h data).2 = some (newTrieNode data) :=
    read_alloc_fresh h _
  have hedge : ∀ idx, edge (makeTrienode h data).1 (makeTrienode h data).2 idx = none := by
    intro idx
    rw [edge_of_read hread, child_newTrieNode]
  have hroot : ∀ w p, exec (edge (makeTrienode h data).1) (makeTrienode h data).2 w = some p →
      w = [] ∧ p = (makeTrienode h data).2 := by
    intro w p hw
    cases w with
    | nil => exact ⟨rfl, (Option.some.inj hw).symm⟩
    | cons idx w =>
        rw [exec, hedge] at hw
        cases hw
  refine ⟨?_, ?_, ?_, fun w hw => hw.elim⟩
  · intro v w p hv hw
    rw [(hroot v p hv).1, (hroot w p hw).1]
  · intro w p hw
    rw [(hroot w p hw).2]
    exact ⟨_, hread⟩
  · intro w p node hw hn
    rw [(hroot w p hw).2, hread] at hn
    cases hn
    simp [newTrieNode]

/-- The word of indices along which a string leads. -/
def DigitString.indices (w : DigitString) : List Int := w.chars.map childIndex

theorem DigitString.indices_injective {v w : DigitString} (h : v.indices = w.indices) : v = w := by
  have hinj : Function.Injective childIndex := by
    intro c d hcd
    apply Char.toNat_inj.mp
    unfold childIndex at hcd
    omega
  have hchars : v.chars = w.chars := hinj.list_map h
  cases v
  cases w
  simpa using hchars

theorem insertWord_spec (hold : Holds h root S) (w : DigitString) :
    ∃ h', insertWord (h, root) w = some (h', root) ∧ Holds h' root fun v => S v ∨ v = w.indices := by
  obtain ⟨h', hins, hholds⟩ := insertFrom_spec w.digits hold (p := root) (u := []) rfl
  exact ⟨h', by simp [insertWord, insertTrie, hins], hholds⟩

/-- After some insertions the trie holds the words inserted. -/
theorem holds_insertWords (hold : Holds h root S) (words : List DigitString) :
    ∃ h', exec insertWord (h, root) words = some (h', root) ∧
      Holds h' root fun v => S v ∨ ∃ w ∈ words, v = w.indices := by
  induction words generalizing h S with
  | nil => exact ⟨h, rfl, by simpa using hold⟩
  | cons w words ih =>
      obtain ⟨h₁, hins, hold₁⟩ := insertWord_spec hold w
      obtain ⟨h', hrun, hold'⟩ := ih hold₁
      refine ⟨h', by rw [exec, hins]; exact hrun, ?_⟩
      simpa [or_assoc] using hold'

theorem searchTrie_spec (hold : Holds h root S) [DecidablePred S] (w : DigitString) :
    searchTrie h root w.chars = some (if S w.indices then 1 else 0) :=
  searchFrom_spec w.digits hold (u := []) rfl

/-- The trie that insertions into a new one have built answers a search by 1 for the strings that
    were inserted and by 0 for all others. -/
theorem searchTrie_insertWords (h : Heap TrieNode) (words : List DigitString) :
    ∃ h' root, exec insertWord (makeTrienode h '\x00') words = some (h', root) ∧
      ∀ w : DigitString, searchTrie h' root w.chars = some (if w ∈ words then 1 else 0) := by
  obtain ⟨h', hrun, hold⟩ := holds_insertWords (holds_makeTrienode h '\x00') words
  refine ⟨h', _, hrun, ?_⟩
  intro w
  have hmem : (False ∨ ∃ v ∈ words, w.indices = v.indices) ↔ w ∈ words := by
    constructor
    · rintro (hfalse | ⟨v, hv, heq⟩)
      · exact hfalse.elim
      · exact DigitString.indices_injective heq ▸ hv
    · exact fun hw => .inr ⟨w, hw, rfl⟩
  classical
  rw [searchTrie_spec hold w]
  simp only [hmem]

/-- `search_trie` finds exactly the strings that were inserted, in whatever order and however often:
    tries of the same strings answer alike, and nothing else is found. -/
theorem searchTrie_iff_inserted (h : Heap TrieNode) (words : List DigitString) :
    ∃ h' root, exec insertWord (makeTrienode h '\x00') words = some (h', root) ∧
      (∀ w : DigitString, searchTrie h' root w.chars = some 1 ↔ w ∈ words) ∧
      (∀ w : DigitString, w ∉ words → searchTrie h' root w.chars = some 0) ∧
      ∀ (g g' : Heap TrieNode) (root' : Nat) (words' : List DigitString),
        (∀ w, w ∈ words' ↔ w ∈ words) →
        exec insertWord (makeTrienode g '\x00') words' = some (g', root') →
        ∀ w : DigitString, searchTrie g' root' w.chars = searchTrie h' root w.chars := by
  obtain ⟨h', root, hrun, hsearch⟩ := searchTrie_insertWords h words
  refine ⟨h', root, hrun, ?_, ?_, ?_⟩
  · intro w
    rw [hsearch]
    by_cases hw : w ∈ words <;> simp [hw]
  · intro w hw
    rw [hsearch, if_neg hw]
  · intro g g' root' words' hsame hrun' w
    obtain ⟨g'', root'', hrun'', hsearch'⟩ := searchTrie_insertWords g words'
    obtain ⟨rfl, rfl⟩ := Prod.mk.inj (Option.some.inj (hrun'.symm.trans hrun''))
    rw [hsearch', hsearch]
    simp only [hsame]

end SrxNote.Programs
