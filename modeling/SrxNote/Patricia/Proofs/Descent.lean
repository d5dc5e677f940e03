import SrxNote.Patricia.Proofs.Table

/-!
# Where a word belongs

`patricia_lookup` goes down the tree to an entry, finds the first bit in which this
entry differs from the prefix, and goes up again to the highest node that is not above
this bit. `Site` says what is known of the place at which this ends.
-/

namespace SrxNote.Patricia

open Heap LinkedTree PrefixTree

variable {δ : Type} {s : PatriciaTree δ} {nodes : Heap (PatriciaNode δ)} {t l r : BinaryTree (Cell δ)}
  {gs fs : List (Frame (Cell δ))} {c : Cell δ} {addr : Vector UInt8 16} {parent : Option Nat}
  {p n k fuel : Nat} {q test : Nat → Bool} {u : List Bool}

theorem goesRight_eq (addr : Vector UInt8 16) {bit : Nat} (hbit : bit < s.maxbits)
    (hmax : s.maxbits ≤ 128) : goesRight s addr bit = some (addrBit addr bit) := by
  rw [goesRight, if_pos hbit, bitTest_eq addr (by omega)]

/-- A node that only branches has longer words below it. -/
theorem length_lt_maxbits_of_glue (hcompressed : Compressed keyed u (.node c l r)) (hglue : c.entry = none)
    (hwords : ∀ d ∈ preorder (.node c l r), d.word.length ≤ s.maxbits) : c.word.length < s.maxbits := by
  obtain ⟨-, hstored, hcl, -⟩ := hcompressed
  rcases hstored with hsome | ⟨hne, -⟩
  · simp [hglue] at hsome
  · cases l with
    | nil => exact absurd rfl hne
    | node d ll lr =>
        have hlen := (hcl.prefix_word (c := d) (by simp)).length_le
        have hword := hwords d (by simp)
        simp only [keyed_word, List.length_append, List.length_singleton] at hlen
        omega

theorem isSome_entry_of_nil (hcompressed : Compressed keyed u (.node c l r)) {b : Bool}
    (hnil : (if b then r else l) = .nil) : c.entry.isSome := by
  rcases hcompressed.2.1 with hsome | ⟨hnel, hner⟩
  · exact hsome
  · cases b with
    | true => exact absurd (by simpa using hnil) hner
    | false => exact absurd (by simpa using hnil) hnel

/-- The way down ends at an entry, below which the next bit of a longer word leads nowhere. -/
theorem descend_spec (hl : Linked layout s.nodes parent t) (hp : ptr layout t = some p)
    (hcompressed : Compressed keyed u t) (hwords : ∀ c ∈ preorder t, c.word.length ≤ s.maxbits)
    (hmax : s.maxbits ≤ 128) (hn : n ≤ s.maxbits) (hfuel : t.numNodes ≤ fuel) :
    ∃ fs c l r, t = plug fs (.node c l r) ∧ descend s addr n fuel p = some c.addr ∧
      c.entry.isSome ∧ (∀ f ∈ fs, f.right = addrBit addr f.label.word.length) ∧
      (c.word.length < n → (if addrBit addr c.word.length then r else l) = .nil) := by
  induction t generalizing parent p fuel u with
  | nil => cases hp
  | node c l r ihl ihr =>
      obtain ⟨hread, hl', hr'⟩ := hl
      have hcl := hcompressed.2.2.1
      have hcr := hcompressed.2.2.2
      obtain rfl : c.addr = p := Option.some.inj hp
      rw [BinaryTree.numNodes] at hfuel
      obtain ⟨fuel, rfl⟩ : ∃ k, fuel = k + 1 := ⟨fuel - 1, by omega⟩
      rw [layout_addr] at hread
      simp only [descend, hread, layout_content, Option.map_eq_none_iff, Option.bind_eq_bind, Option.bind_some]
      by_cases hgo : c.word.length < n ∨ c.entry = none
      · have hbit : c.word.length < s.maxbits := by
          rcases hgo with hlt | hglue
          · omega
          · exact length_lt_maxbits_of_glue hcompressed hglue hwords
        rw [if_pos hgo, goesRight_eq addr hbit hmax, Option.bind_some]
        let b := addrBit addr c.word.length
        have hchild : (if b then ptr layout r else ptr layout l) = ptr layout (if b then r else l) := by
          cases b <;> rfl
        have hfill : BinaryTree.node c l r = Frame.fill ⟨c, b, if b then l else r⟩ (if b then r else l) := by
          cases b <;> rfl
        rw [hchild]
        cases hptr : ptr layout (if b then r else l) with
        | none =>
            have hnil := ptr_eq_none.mp hptr
            exact ⟨[], c, l, r, rfl, rfl, isSome_entry_of_nil hcompressed hnil, by simp, fun _ => hnil⟩
        | some p' =>
            have ih : ∃ fs d l' r', (if b then r else l) = plug fs (.node d l' r') ∧
                descend s addr n fuel p' = some d.addr ∧ d.entry.isSome ∧
                (∀ f ∈ fs, f.right = addrBit addr f.label.word.length) ∧
                (d.word.length < n → (if addrBit addr d.word.length then r' else l') = .nil) := by
              cases hb : b with
              | true =>
                  rw [hb] at hptr
                  exact ihr hr' hptr hcr (fun d hd => hwords d (by simp [hd])) (by omega)
              | false =>
                  rw [hb] at hptr
                  exact ihl hl' hptr hcl (fun d hd => hwords d (by simp [hd])) (by omega)
            obtain ⟨fs, d, l', r', hplug, hdescend, hentry, hfs, hend⟩ := ih
            refine ⟨fs ++ [⟨c, b, if b then l else r⟩], d, l', r', ?_, hdescend, hentry, ?_, hend⟩
            · rw [plug_append, ← hplug, hfill]
              rfl
            · intro f hf
              rcases List.mem_append.mp hf with hf | hf
              · exact hfs f hf
              · rw [List.mem_singleton.mp hf]
      · rw [if_neg hgo]
        rw [not_or] at hgo
        refine ⟨[], c, l, r, rfl, rfl, ?_, by simp, fun hlt => absurd hlt hgo.1⟩
        exact Option.isSome_iff_ne_none.mpr hgo.2

/-- The way up ends below the first node that is above bit `k`. -/
theorem ascend_spec (hl : Linked layout nodes none (plug fs (.node c l r))) (hfuel : fs.length < fuel) :
    ∃ d l' r', plug (fs.takeWhile fun f => k ≤ (keyed.word f.label).length) (.node c l r) = .node d l' r' ∧
      ascend nodes k fuel c.addr = some d.addr := by
  induction fs generalizing c l r fuel with
  | nil =>
      obtain ⟨fuel, rfl⟩ : ∃ k, fuel = k + 1 := ⟨fuel - 1, by simp at hfuel; omega⟩
      refine ⟨c, l, r, rfl, ?_⟩
      have hread := hl.1
      rw [layout_addr] at hread
      simp [ascend, hread]
  | cons f fs ih =>
      obtain ⟨fuel, rfl⟩ : ∃ k, fuel = k + 1 := ⟨fuel - 1, by simp at hfuel; omega⟩
      rw [List.length_cons] at hfuel
      obtain ⟨⟨hfread, -⟩, hread, -⟩ := linked_plug.mp hl
      rw [layout_addr] at hread hfread
      simp only [ascend, hread, layout_content, parentPtr, layout_addr, hfread, Option.bind_eq_bind,
        Option.bind_some]
      by_cases hk : k ≤ f.label.word.length
      · obtain ⟨lf, rf, hfill⟩ := exists_fill f (.node c l r)
        have htake : (f :: fs).takeWhile (fun f => k ≤ (keyed.word f.label).length) =
            f :: fs.takeWhile fun f => k ≤ (keyed.word f.label).length :=
          List.takeWhile_cons_of_pos (decide_eq_true hk)
        rw [plug, hfill] at hl
        rw [if_pos hk, htake, plug, hfill]
        exact ih hl (by omega)
      · have htake : (f :: fs).takeWhile (fun f => k ≤ (keyed.word f.label).length) = [] :=
          List.takeWhile_cons_of_neg fun h => hk (of_decide_eq_true h)
        rw [if_neg hk, htake]
        exact ⟨c, l, r, rfl, rfl⟩

/-- What is known of the node `c` at which the way up ends: `q` are the bits of a prefix of length `n`,
    `test` those of the entry it was compared with, and bit `k` is the first one that differs. -/
structure Site (t : BinaryTree (Cell δ)) (q test : Nat → Bool) (n k : Nat) (gs : List (Frame (Cell δ)))
    (c : Cell δ) (l r : BinaryTree (Cell δ)) : Prop where
  tree : t = plug gs (.node c l r)
  le : k ≤ n
  below : bits q k <+: c.word
  above : holeWord keyed [] gs <+: bits q k
  child : c.word.length = k → k < n → c.entry.isSome ∧ (if q k then r else l) = .nil
  parent : k < c.word.length → bits q k ++ [test k] <+: c.word
  branch : k < n → k < c.word.length → test k = !q k

/-- The search for the place of a word ends at a site. -/
theorem exists_site (hcompressed : Compressed keyed [] t) (ht : t = plug fs (.node c l r))
    (hentry : c.entry.isSome) (hfs : ∀ f ∈ fs, f.right = q f.label.word.length)
    (hend : c.word.length < n → (if q c.word.length then r else l) = .nil)
    (htest : c.word = bits test c.word.length)
    (hdiffer : FirstDiffer q test (if c.word.length < n then c.word.length else n) k) {d : Cell δ}
    {l' r' : BinaryTree (Cell δ)}
    (hplug : plug (fs.takeWhile fun f => k ≤ (keyed.word f.label).length) (.node c l r) = .node d l' r') :
    Site t q test n k (fs.dropWhile fun f => k ≤ (keyed.word f.label).length) d l' r' := by
  rw [ht] at hcompressed
  obtain ⟨habove, hsub⟩ := (compressed_plug (by simp)).mp hcompressed
  obtain ⟨hk, hagree, hne⟩ := hdiffer
  have hkc : k ≤ c.word.length := by split at hk <;> omega
  have hkn : k ≤ n := by split at hk <;> omega
  have hc : bits q k <+: c.word := by
    rw [hagree, htest]
    exact bits_mono test hkc
  obtain ⟨d', l'', r'', hplug', hd, hhole, hwhere⟩ := habove.highest hsub List.nil_prefix hc
  obtain ⟨rfl, rfl, rfl⟩ : d' = d ∧ l'' = l' ∧ r'' = r' := by simpa using hplug'.symm.trans hplug
  have hdc : d'.word <+: c.word := by
    rcases hwhere with ⟨rfl, -, -⟩ | ⟨f, -, rfl, hf⟩
    · exact List.prefix_rfl
    · exact (List.prefix_append _ _).trans hf
  have hlonger : k < c.word.length → k < n → q k ≠ test k := by
    intro hkc hkn
    exact hne (by split <;> omega)
  refine ⟨?_, hkn, hd, hhole, ?_, ?_, ?_⟩
  · rw [ht, ← hplug, ← plug_append, List.takeWhile_append_dropWhile]
  · intro hdk hkn
    rcases hwhere with ⟨rfl, rfl, rfl⟩ | ⟨f, hf, rfl, hbelow⟩
    · exact ⟨hentry, by simpa [hdk] using hend (by omega)⟩
    · -- the entry is below this node on the side of the bit, and yet differs in it
      have hright : f.right = q k := by rw [hfs f hf, hdk]
      rw [keyed_word, keyed_word, hright, htest, append_prefix_bits_iff, hdk] at hbelow
      exact absurd hbelow.2.2 (hlonger hbelow.1 hkn)
  · intro hkd
    have hbranch : bits q k ++ [test k] <+: c.word := by
      rw [hagree, ← bits_succ, htest]
      exact bits_mono test (hkd.trans_le hdc.length_le)
    refine List.prefix_of_prefix_length_le hbranch hdc ?_
    · rw [List.length_append, List.length_singleton, length_bits]
      exact hkd
  · intro hkn hkd
    exact Bool.eq_not.mpr (hlonger (hkd.trans_le hdc.length_le) hkn).symm

theorem findPlace_spec (h : Represents s t) {head : Nat} (hhead : s.head = some head) {pre : Prefix}
    (hlen : pre.bitlen.toNat ≤ s.maxbits) :
    ∃ (testPrefix : Prefix) (k : Nat) (gs : List (Frame (Cell δ))) (c : Cell δ) (l r : BinaryTree (Cell δ)),
      findPlace s pre head = some (testPrefix, k, c.addr) ∧
      Site t (addrBit pre.add) (addrBit testPrefix.add) pre.bitlen.toNat k gs c l r := by
  have hfuel := h.linked.numNodes_le h.nodup
  obtain ⟨fs, c, l, r, ht, hdescend, hentry, hfs, hend⟩ := descend_spec h.linked
    (h.head.symm.trans hhead) h.compressed (fun c hc => (h.cells c hc).1) h.maxbits_le hlen hfuel
  have hc : c ∈ preorder t := by
    rw [ht, mem_plug]
    simp
  obtain ⟨links, hread⟩ := h.linked.exists_read hc
  rw [layout_addr] at hread
  obtain ⟨⟨own, d⟩, hown⟩ := Option.isSome_iff_exists.mp hentry
  obtain ⟨hshort, hspells⟩ := h.cells c hc
  obtain ⟨testPrefix, htest, hword, -⟩ := hspells own d hown
  have hmax := h.maxbits_le
  obtain ⟨k, hdiffer, hfirst⟩ := differBit_spec pre.add testPrefix.add
    (by split <;> omega : (if c.word.length < pre.bitlen.toNat then c.word.length else pre.bitlen.toNat) ≤ 128)
  have hlength : testPrefix.bitlen.toNat = c.word.length := by rw [← hword, Prefix.length_word]
  obtain ⟨e, l', r', hplug, hascend⟩ := ascend_spec (k := k) (ht ▸ h.linked)
    (by
      rw [ht, length_above_add, BinaryTree.numNodes] at hfuel
      have := length_le_above fs
      omega : fs.length < s.nodes.fresh)
  refine ⟨testPrefix, k, _, e, l', r', ?_,
    exists_site h.compressed ht hentry hfs hend ?_ hfirst hplug⟩
  · simp [findPlace, hdescend, hread, hown, htest, hdiffer, hascend]
  · rw [← hlength, ← hword, Prefix.word]

end SrxNote.Patricia
