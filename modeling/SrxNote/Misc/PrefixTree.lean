import Mathlib.Data.List.Lex
import Mathlib.Data.Bool.Basic
import Mathlib.Data.Set.Basic
import SrxNote.Misc.LinkedTree

/-!
# Path-compressed binary trees of words

Each label of a binary tree stands for a word of bits: the words below it on the left
go on with a 0 bit, those on the right with a 1 bit. Not every label is an entry; one
that is not must have both children, so that a tree has no more labels than its entries
call for. The tree of given entries is determined by them (`Compressed.unique`).
-/

namespace SrxNote.PrefixTree

open LinkedTree

/-- The word of a label, and whether it is an entry. -/
structure Keyed (γ : Type) where
  word : γ → List Bool
  stored : γ → Bool

/-- The first bits of an unbounded sequence. -/
def bits (q : Nat → Bool) (n : Nat) : List Bool := (List.range n).map q

variable {γ : Type} (K : Keyed γ)

/-- A tree of words that begin with `u`. -/
def Compressed (u : List Bool) : BinaryTree γ → Prop
  | .nil => True
  | .node c l r =>
      u <+: K.word c ∧ (K.stored c = true ∨ (l ≠ .nil ∧ r ≠ .nil)) ∧
        Compressed (K.word c ++ [false]) l ∧ Compressed (K.word c ++ [true]) r

/-- The entries of a tree. -/
def entries (t : BinaryTree γ) : List γ := (preorder t).filter K.stored

/-- The word that the words below the frames begin with. -/
def holeWord (u : List Bool) : List (Frame γ) → List Bool
  | [] => u
  | f :: _ => K.word f.label ++ [f.right]

/-- The part of such a tree above one of its subtrees. -/
def CompressedAbove (u : List Bool) : List (Frame γ) → Prop
  | [] => True
  | f :: fs =>
      holeWord K u fs <+: K.word f.label ∧ (K.stored f.label = true ∨ f.other ≠ .nil) ∧
        Compressed K (K.word f.label ++ [!f.right]) f.other ∧ CompressedAbove u fs

/-- Follow the bits of `q` down to the first label that is not shorter than `n`. -/
def walk (q : Nat → Bool) (n : Nat) : BinaryTree γ → BinaryTree γ
  | .nil => .nil
  | .node c l r =>
      if (K.word c).length < n then
        if q (K.word c).length then walk q n r else walk q n l
      else .node c l r

/-- The labels shorter than `n` on this way. -/
def passed (q : Nat → Bool) (n : Nat) : BinaryTree γ → List γ
  | .nil => []
  | .node c l r =>
      if (K.word c).length < n then
        c :: if q (K.word c).length then passed q n r else passed q n l
      else []

/-- The label at the root. -/
def rootLabel : BinaryTree γ → Option γ
  | .nil => none
  | .node c _ _ => some c

variable {K} {u v w : List Bool} {q : Nat → Bool} {m n : Nat} {c d : γ} {t l r : BinaryTree γ}
  {f : Frame γ} {fs : List (Frame γ)}

/-! ### Words -/

@[simp] theorem length_bits (q : Nat → Bool) (n : Nat) : (bits q n).length = n := by
  simp [bits]

theorem bits_succ (q : Nat → Bool) (n : Nat) : bits q (n + 1) = bits q n ++ [q n] := by
  simp [bits, List.range_succ]

theorem bits_mono (q : Nat → Bool) (h : m ≤ n) : bits q m <+: bits q n := by
  induction h with
  | refl => exact List.prefix_rfl
  | step _ ih =>
      rw [bits_succ]
      exact ih.trans (List.prefix_append _ _)

theorem prefix_bits_iff : w <+: bits q n ↔ w.length ≤ n ∧ w = bits q w.length := by
  constructor
  · intro h
    have hle : w.length ≤ n := by simpa using h.length_le
    refine ⟨hle, ?_⟩
    exact (List.prefix_of_prefix_length_le h (bits_mono q hle) (by simp)).eq_of_length (by simp)
  · rintro ⟨hle, heq⟩
    rw [heq]
    exact bits_mono q hle

theorem append_prefix_bits_iff {b : Bool} :
    w ++ [b] <+: bits q n ↔ w.length < n ∧ w = bits q w.length ∧ b = q w.length := by
  rw [prefix_bits_iff, List.length_append, List.length_singleton, bits_succ]
  constructor
  · rintro ⟨hle, heq⟩
    obtain ⟨hw, hb⟩ := List.append_inj' heq rfl
    exact ⟨hle, hw, List.singleton_inj.mp hb⟩
  · rintro ⟨hle, hw, hb⟩
    exact ⟨hle, by rw [← hw, ← hb]⟩

/-- A word that is longer by a bit, and every one that begins with it, is behind the shorter one. -/
theorem lt_of_append_prefix {b : Bool} (h : w ++ [b] <+: v) : w < v := by
  obtain ⟨x, rfl⟩ := h
  rw [List.append_assoc, List.singleton_append]
  induction w with
  | nil => exact List.nil_lt_cons b x
  | cons a w ih => exact List.cons_lt_cons_iff.mpr (.inr ⟨rfl, ih⟩)

theorem lt_of_branch (hv : w ++ [false] <+: u) (hw : w ++ [true] <+: v) : u < v := by
  obtain ⟨x, rfl⟩ := hv
  obtain ⟨y, rfl⟩ := hw
  rw [List.append_assoc, List.append_assoc, List.singleton_append, List.singleton_append]
  induction w with
  | nil => exact List.cons_lt_cons_iff.mpr (.inl (by decide))
  | cons a w ih => exact List.cons_lt_cons_iff.mpr (.inr ⟨rfl, ih⟩)

/-! ### What a tree holds -/

theorem Compressed.mono (h : Compressed K v t) (hu : u <+: v) : Compressed K u t := by
  cases t with
  | nil => trivial
  | node c l r => exact ⟨hu.trans h.1, h.2⟩

theorem Compressed.prefix_word (h : Compressed K u t) (hc : c ∈ preorder t) : u <+: K.word c := by
  induction t generalizing u with
  | nil => cases hc
  | node d l r ihl ihr =>
      obtain ⟨hu, -, hl, hr⟩ := h
      rcases List.mem_cons.mp hc with rfl | hc
      · exact hu
      · have hd : u <+: K.word d ++ [false] ∧ u <+: K.word d ++ [true] :=
          ⟨hu.trans (List.prefix_append _ _), hu.trans (List.prefix_append _ _)⟩
        rcases List.mem_append.mp hc with hc | hc
        · exact hd.1.trans (ihl hl hc)
        · exact hd.2.trans (ihr hr hc)

/-- The words come in lexicographic order, each before those that begin with it. -/
theorem Compressed.sorted (h : Compressed K u t) :
    (preorder t).Pairwise fun c d => K.word c < K.word d := by
  induction t generalizing u with
  | nil => exact .nil
  | node c l r ihl ihr =>
      obtain ⟨-, -, hl, hr⟩ := h
      refine List.pairwise_cons.mpr ⟨?_, List.pairwise_append.mpr ⟨ihl hl, ihr hr, ?_⟩⟩
      · intro d hd
        rcases List.mem_append.mp hd with hd | hd
        · exact lt_of_append_prefix (hl.prefix_word hd)
        · exact lt_of_append_prefix (hr.prefix_word hd)
      · intro a ha b hb
        exact lt_of_branch (hl.prefix_word ha) (hr.prefix_word hb)

/-- A word between those that go on with a 0 bit and those that go on with a 1 bit. -/
def middle (w : List Bool) : List Nat := w.map (fun b => if b then 2 else 0) ++ [1]

theorem append_lt_append_left {x y : List Nat} (z : List Nat) (h : x < y) : z ++ x < z ++ y := by
  induction z with
  | nil => exact h
  | cons a z ih => exact List.cons_lt_cons_iff.mpr (.inr ⟨rfl, ih⟩)

theorem middle_of_append_prefix {b : Bool} (h : w ++ [b] <+: v) :
    ∃ x, middle v = w.map (fun b => if b then 2 else 0) ++ ((if b then 2 else 0) :: x) := by
  obtain ⟨y, rfl⟩ := h
  exact ⟨middle y, by simp [middle]⟩

theorem middle_lt_of_false (h : w ++ [false] <+: v) : middle v < middle w := by
  obtain ⟨x, hx⟩ := middle_of_append_prefix h
  rw [hx, middle]
  exact append_lt_append_left _ (List.cons_lt_cons_iff.mpr (.inl (by decide)))

theorem middle_lt_of_true (h : w ++ [true] <+: v) : middle w < middle v := by
  obtain ⟨x, hx⟩ := middle_of_append_prefix h
  rw [hx, middle]
  exact append_lt_append_left _ (List.cons_lt_cons_iff.mpr (.inl (by decide)))

/-- In this order each word comes between those that go on with a 0 and with a 1 bit. -/
theorem Compressed.inorder_sorted (h : Compressed K u t) :
    (inorder t).Pairwise fun c d => middle (K.word c) < middle (K.word d) := by
  induction t generalizing u with
  | nil => exact .nil
  | node c l r ihl ihr =>
      obtain ⟨-, -, hl, hr⟩ := h
      have hleft : ∀ d ∈ inorder l, middle (K.word d) < middle (K.word c) := fun d hd =>
        middle_lt_of_false (hl.prefix_word ((inorder_perm l).mem_iff.mp hd))
      have hright : ∀ d ∈ inorder r, middle (K.word c) < middle (K.word d) := fun d hd =>
        middle_lt_of_true (hr.prefix_word ((inorder_perm r).mem_iff.mp hd))
      refine List.pairwise_append.mpr ⟨ihl hl, List.pairwise_cons.mpr ⟨hright, ihr hr⟩, ?_⟩
      intro d hd e he
      rcases List.mem_cons.mp he with rfl | he
      · exact hleft d hd
      · exact List.lt_trans (hleft d hd) (hright e he)

theorem Compressed.nodup_words (h : Compressed K u t) : ((preorder t).map K.word).Nodup := by
  rw [List.Nodup, List.pairwise_map]
  exact h.sorted.imp fun hlt heq => absurd (heq ▸ hlt) (List.lt_irrefl _)

theorem Compressed.eq_of_word (h : Compressed K u t) (hc : c ∈ preorder t) (hd : d ∈ preorder t)
    (heq : K.word c = K.word d) : c = d :=
  List.inj_on_of_nodup_map h.nodup_words hc hd heq

/-- There are fewer branching points than entries. -/
theorem Compressed.numNodes_lt (h : Compressed K u t) (ht : t ≠ .nil) :
    t.numNodes < 2 * (entries K t).length := by
  induction t generalizing u with
  | nil => exact absurd rfl ht
  | node c l r ihl ihr =>
      obtain ⟨-, hstored, hl, hr⟩ := h
      have hlen : (entries K (.node c l r)).length =
          (if K.stored c then 1 else 0) + (entries K l).length + (entries K r).length := by
        cases hc : K.stored c <;> simp [entries, hc, Nat.add_assoc, Nat.add_comm 1]
      have hnil : ∀ s : BinaryTree γ, s = .nil → s.numNodes = 0 := by
        rintro s rfl
        rfl
      have hl' : l ≠ .nil → l.numNodes < 2 * (entries K l).length := ihl hl
      have hr' : r ≠ .nil → r.numNodes < 2 * (entries K r).length := ihr hr
      rw [hlen, BinaryTree.numNodes]
      by_cases hln : l = .nil
      · rcases hstored with hs | ⟨hne, -⟩
        · have := hnil l hln
          by_cases hrn : r = .nil
          · have := hnil r hrn
            simp only [hs, if_true]
            omega
          · have := hr' hrn
            simp only [hs, if_true]
            omega
        · exact absurd hln hne
      · have := hl' hln
        by_cases hrn : r = .nil
        · have := hnil r hrn
          rcases hstored with hs | ⟨-, hne⟩
          · simp only [hs, if_true]
            omega
          · exact absurd hrn hne
        · have := hr' hrn
          omega

/-! ### The entries determine the tree -/

theorem mem_entries : c ∈ entries K t ↔ c ∈ preorder t ∧ K.stored c = true := by
  rw [entries, List.mem_filter]

theorem mem_entries_node : d ∈ entries K (.node c l r) ↔
    (d = c ∧ K.stored c = true) ∨ d ∈ entries K l ∨ d ∈ entries K r := by
  simp only [mem_entries, preorder_node, List.mem_cons, List.mem_append]
  constructor
  · rintro ⟨rfl | hd | hd, hs⟩
    · exact .inl ⟨rfl, hs⟩
    · exact .inr (.inl ⟨hd, hs⟩)
    · exact .inr (.inr ⟨hd, hs⟩)
  · rintro (⟨rfl, hs⟩ | ⟨hd, hs⟩ | ⟨hd, hs⟩)
    · exact ⟨.inl rfl, hs⟩
    · exact ⟨.inr (.inl hd), hs⟩
    · exact ⟨.inr (.inr hd), hs⟩

/-- The words of the entries. -/
def words (K : Keyed γ) (t : BinaryTree γ) : Set (List Bool) := {w | ∃ c ∈ entries K t, K.word c = w}

theorem Compressed.exists_entry (h : Compressed K u t) (ht : t ≠ .nil) : ∃ c, c ∈ entries K t := by
  have hlt := h.numNodes_lt ht
  exact List.exists_mem_of_length_pos (by omega)

theorem Compressed.prefix_words (h : Compressed K u t) (hw : w ∈ words K t) : u <+: w := by
  obtain ⟨c, hc, rfl⟩ := hw
  exact h.prefix_word (mem_entries.mp hc).1

theorem Compressed.root_prefix (h : Compressed K u (.node c l r)) (hw : w ∈ words K (.node c l r)) :
    K.word c <+: w := by
  have hself : Compressed K (K.word c) (.node c l r) := ⟨List.prefix_rfl, h.2⟩
  exact hself.prefix_words hw

/-- The word at the root is the longest that all entries begin with. -/
theorem Compressed.root_longest (h : Compressed K u (.node c l r))
    (hv : ∀ w ∈ words K (.node c l r), v <+: w) : v <+: K.word c := by
  obtain ⟨-, hstored, hl, hr⟩ := h
  rcases hstored with hs | ⟨hnel, hner⟩
  · exact hv _ ⟨c, mem_entries_node.mpr (.inl ⟨rfl, hs⟩), rfl⟩
  · obtain ⟨d, hd⟩ := hl.exists_entry hnel
    obtain ⟨e, he⟩ := hr.exists_entry hner
    have hvd : v <+: K.word d := hv _ ⟨d, mem_entries_node.mpr (.inr (.inl hd)), rfl⟩
    have hve : v <+: K.word e := hv _ ⟨e, mem_entries_node.mpr (.inr (.inr he)), rfl⟩
    have hcd := hl.prefix_words ⟨d, hd, rfl⟩
    have hce := hr.prefix_words ⟨e, he, rfl⟩
    by_cases hlong : v.length ≤ (K.word c).length
    · exact List.prefix_of_prefix_length_le hvd ((List.prefix_append _ _).trans hcd) hlong
    · -- a longer word would have to go on with both bits
      have hle : ∀ b : Bool, (K.word c ++ [b]).length ≤ v.length := by
        intro b
        rw [List.length_append, List.length_singleton]
        omega
      have h0 := List.prefix_of_prefix_length_le hcd hvd (hle false)
      have h1 := List.prefix_of_prefix_length_le hce hve (hle true)
      have heq := (List.prefix_of_prefix_length_le h0 h1 (by simp)).eq_of_length (by simp)
      simp at heq

/-- The root is an entry when its word is one. -/
theorem Compressed.stored_iff (h : Compressed K u (.node c l r)) :
    K.stored c = true ↔ K.word c ∈ words K (.node c l r) := by
  constructor
  · intro hs
    exact ⟨c, mem_entries_node.mpr (.inl ⟨rfl, hs⟩), rfl⟩
  · rintro ⟨d, hd, heq⟩
    obtain ⟨hd, hs⟩ := mem_entries.mp hd
    obtain rfl := h.eq_of_word hd List.mem_cons_self heq
    exact hs

/-- The words behind the next bit are those on its side. -/
theorem Compressed.words_side (h : Compressed K u (.node c l r)) (b : Bool) :
    words K (if b then r else l) = {w ∈ words K (.node c l r) | K.word c ++ [b] <+: w} := by
  obtain ⟨-, -, hl, hr⟩ := h
  have hbranch : ∀ v, K.word c ++ [false] <+: v → ¬ K.word c ++ [true] <+: v := by
    intro v h0 h1
    exact List.lt_irrefl _ (lt_of_branch h0 h1)
  have hself : ∀ b : Bool, ¬ K.word c ++ [b] <+: K.word c := by
    intro b hpre
    have hle := hpre.length_le
    rw [List.length_append, List.length_singleton] at hle
    omega
  ext w
  constructor
  · rintro ⟨d, hd, rfl⟩
    cases b with
    | true => exact ⟨⟨d, mem_entries_node.mpr (.inr (.inr hd)), rfl⟩, hr.prefix_words ⟨d, hd, rfl⟩⟩
    | false => exact ⟨⟨d, mem_entries_node.mpr (.inr (.inl hd)), rfl⟩, hl.prefix_words ⟨d, hd, rfl⟩⟩
  · rintro ⟨⟨d, hd, rfl⟩, hpre⟩
    rcases mem_entries_node.mp hd with ⟨rfl, -⟩ | hd | hd
    · exact absurd hpre (hself b)
    · cases b with
      | true => exact absurd hpre (hbranch _ (hl.prefix_words ⟨d, hd, rfl⟩))
      | false => exact ⟨d, hd, rfl⟩
    · cases b with
      | true => exact ⟨d, hd, rfl⟩
      | false => exact absurd (hr.prefix_words ⟨d, hd, rfl⟩) (hbranch _ hpre)

/-- Trees with the same entries are the same, up to what their labels are. -/
theorem Compressed.unique {γ' : Type} {K' : Keyed γ'} {t' : BinaryTree γ'} {u' : List Bool}
    (h : Compressed K u t) (h' : Compressed K' u' t') (hwords : words K t = words K' t') :
    t.map (fun c => (K.word c, K.stored c)) = t'.map fun c => (K'.word c, K'.stored c) := by
  induction t generalizing u u' t' with
  | nil =>
      cases t' with
      | nil => rfl
      | node c' l' r' =>
          obtain ⟨d, hd⟩ := h'.exists_entry (by simp)
          have hmem : K'.word d ∈ words K (.nil : BinaryTree γ) := hwords ▸ ⟨d, hd, rfl⟩
          obtain ⟨c, hc, -⟩ := hmem
          cases hc
  | node c l r ihl ihr =>
      cases t' with
      | nil =>
          obtain ⟨d, hd⟩ := h.exists_entry (by simp)
          have hmem : K.word d ∈ words K' (.nil : BinaryTree γ') := hwords ▸ ⟨d, hd, rfl⟩
          obtain ⟨c', hc', -⟩ := hmem
          cases hc'
      | node c' l' r' =>
          have hroot : K.word c = K'.word c' := by
            have h1 := h'.root_longest fun w hw => h.root_prefix (hwords ▸ hw)
            have h2 := h.root_longest fun w hw => h'.root_prefix (hwords ▸ hw)
            exact h1.eq_of_length (Nat.le_antisymm h1.length_le h2.length_le)
          have hside : ∀ b : Bool, words K (if b then r else l) = words K' (if b then r' else l') := by
            intro b
            rw [h.words_side, h'.words_side, hwords, hroot]
          have hstored : K.stored c = K'.stored c' := by
            rw [Bool.eq_iff_iff, h.stored_iff, h'.stored_iff, hwords, hroot]
          obtain ⟨-, -, hl, hr⟩ := h
          obtain ⟨-, -, hl', hr'⟩ := h'
          rw [BinaryTree.map, BinaryTree.map, ihl hl hl' (hside false), ihr hr hr' (hside true), hroot, hstored]

/-! ### Following a word -/

theorem walk_of_lt (h : (K.word c).length < n) :
    walk K q n (.node c l r) = walk K q n (if q (K.word c).length then r else l) := by
  rw [walk, if_pos h]
  split <;> rfl

theorem walk_of_not_lt (h : ¬ (K.word c).length < n) : walk K q n (.node c l r) = .node c l r := by
  rw [walk, if_neg h]

theorem passed_of_lt (h : (K.word c).length < n) :
    passed K q n (.node c l r) = c :: passed K q n (if q (K.word c).length then r else l) := by
  rw [passed, if_pos h]
  split <;> rfl

theorem passed_of_not_lt (h : ¬ (K.word c).length < n) : passed K q n (.node c l r) = [] := by
  rw [passed, if_neg h]

/-- Another word that is followed is on the side of the next bit. -/
theorem Compressed.side_of_prefix (h : Compressed K u (.node c l r)) (hd : d ∈ preorder (.node c l r))
    (hne : K.word d ≠ K.word c) (hw : K.word d <+: bits q n) :
    (K.word c).length < n ∧
      d ∈ preorder (if q (K.word c).length then r else l) := by
  obtain ⟨-, -, hl, hr⟩ := h
  rcases List.mem_cons.mp hd with rfl | hd
  · exact absurd rfl hne
  · rcases List.mem_append.mp hd with hd | hd
    · obtain ⟨hlt, -, hb⟩ := append_prefix_bits_iff.mp ((hl.prefix_word hd).trans hw)
      exact ⟨hlt, by rw [← hb]; exact hd⟩
    · obtain ⟨hlt, -, hb⟩ := append_prefix_bits_iff.mp ((hr.prefix_word hd).trans hw)
      exact ⟨hlt, by rw [← hb]; exact hd⟩

/-- The walk ends at the label of a word, if there is one. -/
theorem Compressed.walk_of_mem (h : Compressed K u t) (hc : c ∈ preorder t)
    (hw : K.word c = bits q n) : rootLabel (walk K q n t) = some c := by
  induction t generalizing u with
  | nil => cases hc
  | node d l r ihl ihr =>
      by_cases heq : K.word c = K.word d
      · obtain rfl : c = d := h.eq_of_word hc (List.mem_cons_self) heq
        have hnot : ¬ (K.word c).length < n := by simp [hw]
        simp [walk, hnot, rootLabel]
      · have hpre : K.word c <+: bits q n := prefix_bits_iff.mpr (by simp [hw])
        obtain ⟨hlt, hmem⟩ := h.side_of_prefix hc heq hpre
        obtain ⟨-, -, hl, hr⟩ := h
        rw [walk, if_pos hlt]
        cases hq : q (K.word d).length with
        | true =>
            rw [hq] at hmem
            exact ihr hr hmem
        | false =>
            rw [hq] at hmem
            exact ihl hl hmem

/-- The walk passes every shorter label whose word is followed. -/
theorem Compressed.mem_passed (h : Compressed K u t) (hc : c ∈ preorder t)
    (hw : K.word c <+: bits q n) (hlt : (K.word c).length < n) : c ∈ passed K q n t := by
  induction t generalizing u with
  | nil => cases hc
  | node d l r ihl ihr =>
      by_cases heq : K.word c = K.word d
      · obtain rfl : c = d := h.eq_of_word hc (List.mem_cons_self) heq
        simp [passed, hlt]
      · obtain ⟨hlt', hmem⟩ := h.side_of_prefix hc heq hw
        obtain ⟨-, -, hl, hr⟩ := h
        rw [passed, if_pos hlt', List.mem_cons]
        right
        cases hq : q (K.word d).length with
        | true =>
            rw [hq] at hmem
            exact ihr hr hmem
        | false =>
            rw [hq] at hmem
            exact ihl hl hmem

theorem passed_mem (hc : c ∈ passed K q n t) : c ∈ preorder t ∧ (K.word c).length < n := by
  induction t with
  | nil => cases hc
  | node d l r ihl ihr =>
      rw [passed] at hc
      split at hc
      · rename_i hlt
        rcases List.mem_cons.mp hc with rfl | hc
        · exact ⟨List.mem_cons_self, hlt⟩
        · split at hc
          · exact ⟨List.mem_cons_of_mem d (List.mem_append_right _ (ihr hc).1), (ihr hc).2⟩
          · exact ⟨List.mem_cons_of_mem d (List.mem_append_left _ (ihl hc).1), (ihl hc).2⟩
      · cases hc

/-- The labels that are passed get longer. -/
theorem Compressed.passed_sorted (h : Compressed K u t) :
    (passed K q n t).Pairwise fun c d => (K.word c).length < (K.word d).length := by
  induction t generalizing u with
  | nil => exact .nil
  | node c l r ihl ihr =>
      obtain ⟨-, -, hl, hr⟩ := h
      have hlonger : ∀ (b : Bool) (s : BinaryTree γ), Compressed K (K.word c ++ [b]) s →
          ∀ d ∈ passed K q n s, (K.word c).length < (K.word d).length := by
        intro b s hs d hd
        have hle := (hs.prefix_word (passed_mem hd).1).length_le
        rw [List.length_append, List.length_singleton] at hle
        exact hle
      rw [passed]
      split
      · split
        · exact List.pairwise_cons.mpr ⟨hlonger true r hr, ihr hr⟩
        · exact List.pairwise_cons.mpr ⟨hlonger false l hl, ihl hl⟩
      · exact .nil

theorem walk_mem (hc : rootLabel (walk K q n t) = some c) :
    c ∈ preorder t ∧ n ≤ (K.word c).length := by
  induction t with
  | nil => cases hc
  | node d l r ihl ihr =>
      rw [walk] at hc
      split at hc
      · split at hc
        · exact ⟨List.mem_cons_of_mem d (List.mem_append_right _ (ihr hc).1), (ihr hc).2⟩
        · exact ⟨List.mem_cons_of_mem d (List.mem_append_left _ (ihl hc).1), (ihl hc).2⟩
      · rename_i hnot
        obtain rfl : d = c := Option.some.inj hc
        exact ⟨List.mem_cons_self, Nat.le_of_not_lt hnot⟩

/-- There are no more labels on the way than bits. -/
theorem Compressed.length_passed_le (h : Compressed K u t) : (passed K q n t).length ≤ n := by
  have hsorted : ((passed K q n t).map fun c => (K.word c).length).Nodup := by
    rw [List.Nodup, List.pairwise_map]
    exact h.passed_sorted.imp Nat.ne_of_lt
  have hsub : ((passed K q n t).map fun c => (K.word c).length) ⊆ List.range n := by
    intro k hk
    obtain ⟨c, hc, rfl⟩ := List.mem_map.mp hk
    exact List.mem_range.mpr (passed_mem hc).2
  have hle := (hsorted.subperm hsub).length_le
  rwa [List.length_map, List.length_range] at hle

/-- The last label on the way whose word is followed, among some, is the longest of them. -/
theorem Compressed.find_longest (h : Compressed K u t) {P : γ → Bool}
    (hfind : ((passed K q n t).filter P).reverse.find? (fun c => K.word c <+: bits q n) = some c) :
    (c ∈ preorder t ∧ P c = true ∧ K.word c <+: bits q n ∧ (K.word c).length < n) ∧
      ∀ d ∈ preorder t, P d = true → K.word d <+: bits q n → (K.word d).length < n →
        (K.word d).length ≤ (K.word c).length := by
  obtain ⟨hc, front, back, hsplit, hfront⟩ := List.find?_eq_some_iff_append.mp hfind
  have hmem : c ∈ (passed K q n t).filter P := by
    rw [← List.mem_reverse, hsplit]
    simp
  obtain ⟨hpassed, hP⟩ := List.mem_filter.mp hmem
  refine ⟨⟨(passed_mem hpassed).1, hP, by simpa using hc, (passed_mem hpassed).2⟩, ?_⟩
  intro d hd hPd hword hlt
  have hdmem : d ∈ ((passed K q n t).filter P).reverse :=
    List.mem_reverse.mpr (List.mem_filter.mpr ⟨h.mem_passed hd hword hlt, hPd⟩)
  have hsorted : (((passed K q n t).filter P).reverse).Pairwise
      fun c d => (K.word d).length < (K.word c).length :=
    List.pairwise_reverse.mpr (h.passed_sorted.filter P)
  rw [hsplit] at hdmem hsorted
  rcases List.mem_append.mp hdmem with hd' | hd'
  · simpa [hword] using hfront d hd'
  · rcases List.mem_cons.mp hd' with rfl | hd'
    · exact le_rfl
    · exact Nat.le_of_lt ((List.pairwise_cons.mp (List.pairwise_append.mp hsorted).2.1).1 d hd')

theorem Compressed.find_none (h : Compressed K u t) {P : γ → Bool}
    (hfind : ((passed K q n t).filter P).reverse.find? (fun c => K.word c <+: bits q n) = none)
    (hd : d ∈ preorder t) (hP : P d = true) (hlt : (K.word d).length < n) :
    ¬ K.word d <+: bits q n := by
  intro hword
  have hmem : d ∈ ((passed K q n t).filter P).reverse :=
    List.mem_reverse.mpr (List.mem_filter.mpr ⟨h.mem_passed hd hword hlt, hP⟩)
  simpa [hword] using List.find?_eq_none.mp hfind d hmem

/-! ### Trees taken apart -/

theorem compressed_fill (ht : t ≠ .nil) : Compressed K u (f.fill t) ↔
    u <+: K.word f.label ∧ (K.stored f.label = true ∨ f.other ≠ .nil) ∧
      Compressed K (K.word f.label ++ [!f.right]) f.other ∧
      Compressed K (K.word f.label ++ [f.right]) t := by
  unfold Frame.fill
  cases f.right with
  | true => simp [Compressed, ht]
  | false => simp [Compressed, ht, and_comm]

/-- A tree that is not empty has its words below what is above it. -/
theorem compressed_plug (ht : t ≠ .nil) : Compressed K u (plug fs t) ↔
    CompressedAbove K u fs ∧ Compressed K (holeWord K u fs) t := by
  induction fs generalizing t with
  | nil => exact (true_and _).symm ▸ Iff.rfl
  | cons f fs ih =>
      rw [plug, ih (fill_ne_nil f t), compressed_fill ht, CompressedAbove, holeWord]
      constructor
      · rintro ⟨habove, hu, hstored, hother, ht'⟩
        exact ⟨⟨hu, hstored, hother, habove⟩, ht'⟩
      · rintro ⟨⟨hu, hstored, hother, habove⟩, ht'⟩
        exact ⟨habove, hu, hstored, hother, ht'⟩

/-- An entry keeps its place without one of its children. -/
theorem compressed_fill_nil (hu : u <+: K.word f.label) (hstored : K.stored f.label = true)
    (hother : Compressed K (K.word f.label ++ [!f.right]) f.other) : Compressed K u (f.fill .nil) := by
  unfold Frame.fill
  cases hright : f.right with
  | true =>
      rw [hright] at hother
      exact ⟨hu, .inl hstored, hother, trivial⟩
  | false =>
      rw [hright] at hother
      exact ⟨hu, .inl hstored, trivial, hother⟩

/-- The highest label whose word is at least `n` long, on the way up from a label whose word begins
    with the first `n` bits of `q`. -/
theorem CompressedAbove.highest (habove : CompressedAbove K u fs)
    (ht : Compressed K (holeWord K u fs) (.node c l r)) (hu : u <+: bits q n)
    (hc : bits q n <+: K.word c) :
    ∃ c' l' r', plug (fs.takeWhile fun f => n ≤ (K.word f.label).length) (.node c l r) = .node c' l' r' ∧
      bits q n <+: K.word c' ∧
      holeWord K u (fs.dropWhile fun f => n ≤ (K.word f.label).length) <+: bits q n ∧
      ((c' = c ∧ l' = l ∧ r' = r) ∨
        ∃ f ∈ fs, c' = f.label ∧ K.word f.label ++ [f.right] <+: K.word c) := by
  induction fs generalizing c l r with
  | nil => exact ⟨c, l, r, rfl, hc, hu, .inl ⟨rfl, rfl, rfl⟩⟩
  | cons f fs ih =>
      have hbelow : K.word f.label ++ [f.right] <+: K.word c := ht.1
      have hshorter : K.word f.label <+: K.word c := (List.prefix_append _ _).trans hbelow
      by_cases hn : n ≤ (K.word f.label).length
      · -- the frame is passed, and the search goes on from its node
        have hf : bits q n <+: K.word f.label :=
          List.prefix_of_prefix_length_le hc hshorter (by simpa using hn)
        obtain ⟨lf, rf, hfill⟩ := exists_fill f (.node c l r)
        obtain ⟨hhole, hstored, hother, habove'⟩ := habove
        have ht' : Compressed K (holeWord K u fs) (f.fill (.node c l r)) :=
          (compressed_fill (by simp)).mpr ⟨hhole, hstored, hother, ht⟩
        rw [hfill] at ht'
        obtain ⟨c', l', r', hplug, hc', hup, hwhere⟩ := ih habove' ht' hf
        refine ⟨c', l', r', ?_, hc', ?_, .inr ?_⟩
        · rw [List.takeWhile_cons_of_pos (by simpa using hn), plug, hfill]
          exact hplug
        · rw [List.dropWhile_cons_of_pos (by simpa using hn)]
          exact hup
        · rcases hwhere with ⟨rfl, -, -⟩ | ⟨g, hg, rfl, hgf⟩
          · exact ⟨f, List.mem_cons_self, rfl, hbelow⟩
          · exact ⟨g, List.mem_cons_of_mem f hg, rfl, hgf.trans hshorter⟩
      · refine ⟨c, l, r, ?_, hc, ?_, .inl ⟨rfl, rfl, rfl⟩⟩
        · rw [List.takeWhile_cons_of_neg (by simpa using hn)]
          rfl
        · rw [List.dropWhile_cons_of_neg (by simpa using hn)]
          refine List.prefix_of_prefix_length_le hbelow hc ?_
          rw [holeWord, List.length_append, List.length_singleton, length_bits]
          omega

end SrxNote.PrefixTree
