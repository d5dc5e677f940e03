import SrxNote.Patricia.Proofs.Table

/-!
# The searches

The loops of `patricia_search_exact` and `patricia_search_best2` follow the bits of
the address down the tree (`PrefixTree.walk`, `PrefixTree.passed`). The first finds
the entry of a word, the second that of its longest stored beginning, and the stack of
the second has a place for every node on the way.
-/

namespace SrxNote.Patricia

open Heap LinkedTree PrefixTree

variable {δ : Type} {s : PatriciaTree δ} {T : Table δ} {t l r : BinaryTree (Cell δ)}
  {nodes : Heap (PatriciaNode δ)} {parent : Option Nat} {addr : Vector UInt8 16} {n fuel p x : Nat}
  {pre : Prefix} {w : List Bool} {c : Cell δ} {e : Entry δ}

/-- The entry of the longest word that `w` begins with; `w` itself counts where it is inclusive. -/
def longestMatch (T : Table δ) (w : List Bool) (inclusive : Bool) : Option (Entry δ) :=
  (List.range (w.length + inclusive.toNat)).reverse.findSome? fun n => T (w.take n)

/-! ### Tables -/

theorem findSome?_reverse_range {α : Type} {f : Nat → Option α} {m k : Nat} {x : α} (hk : k < m)
    (hf : f k = some x) (hlast : ∀ j, k < j → j < m → f j = none) :
    (List.range m).reverse.findSome? f = some x := by
  induction m with
  | zero => cases hk
  | succ m ih =>
      rw [List.range_succ, List.reverse_append, List.reverse_singleton, List.singleton_append,
        List.findSome?_cons]
      by_cases hkm : k = m
      · rw [← hkm, hf]
      · rw [hlast m (by omega) (by omega)]
        exact ih (by omega) fun j hj hjm => hlast j hj (by omega)

theorem longestMatch_eq_some {v : List Bool} {inclusive : Bool} (hv : T v = some e) (hpre : v <+: w)
    (hlt : v.length < w.length + inclusive.toNat)
    (hlongest : ∀ v' e', T v' = some e' → v' <+: w → v'.length < w.length + inclusive.toNat →
      v'.length ≤ v.length) :
    longestMatch T w inclusive = some e := by
  refine findSome?_reverse_range hlt ?_ ?_
  · rw [← List.prefix_iff_eq_take.mp hpre, hv]
  · intro j hj hjm
    cases hT : T (w.take j) with
    | none => rfl
    | some e' =>
        have hjw : j ≤ w.length := by
          cases inclusive <;> simp at hjm <;> omega
        have hlen : (w.take j).length = j := by simp [hjw]
        have hle := hlongest _ e' hT (List.take_prefix j w) (by omega)
        omega

theorem longestMatch_eq_none {inclusive : Bool}
    (hnone : ∀ v e, T v = some e → v <+: w → ¬ v.length < w.length + inclusive.toNat) :
    longestMatch T w inclusive = none := by
  refine List.findSome?_eq_none_iff.mpr ?_
  intro j hj
  have hjm : j < w.length + inclusive.toNat := by simpa using hj
  cases hT : T (w.take j) with
  | none => rfl
  | some e =>
      have hlen : (w.take j).length ≤ j := List.length_take_le j w
      exact absurd (by omega) (hnone _ e hT (List.take_prefix j w))

/-- There is no entry for a word unless the walk ends at it. -/
theorem table_eq_none_of_walk (pre : Prefix) (h : Represents s t) (htable : ∀ w e, T w = some e ↔ Holds t w e)
    (hroot : ∀ c, rootLabel (walk keyed (addrBit pre.add) pre.bitlen.toNat t) = some c →
      c.word = pre.word → c.entry = none) :
    T pre.word = none := by
  cases hT : T pre.word with
  | none => rfl
  | some e =>
      have hc := (htable _ _).mp hT
      cases hroot _ (h.compressed.walk_of_mem hc rfl) rfl

/-! ### The exact search -/

theorem exactLoop_spec (addr : Vector UInt8 16) (hl : Linked layout nodes parent t) (hp : ptr layout t = some p)
    (hn : n ≤ 128) (hfuel : t.numNodes ≤ fuel) :
    exactLoop nodes addr n fuel p = some (ptr layout (walk keyed (addrBit addr) n t)) := by
  induction t generalizing parent p fuel with
  | nil => cases hp
  | node c l r ihl ihr =>
      obtain ⟨hread, hl', hr'⟩ := hl
      obtain rfl : c.addr = p := Option.some.inj hp
      rw [BinaryTree.numNodes] at hfuel
      obtain ⟨fuel, rfl⟩ : ∃ k, fuel = k + 1 := ⟨fuel - 1, by omega⟩
      rw [layout_addr] at hread
      simp only [exactLoop, hread, layout_content, Option.bind_eq_bind, Option.bind_some]
      by_cases hlt : c.word.length < n
      · rw [if_pos hlt, walk_of_lt hlt, bitTest_eq addr (by omega), Option.bind_some, keyed_word]
        cases addrBit addr c.word.length with
        | true =>
            cases hr : ptr layout r with
            | none =>
                obtain rfl := ptr_eq_none.mp hr
                simp [walk, ptr]
            | some q => simpa using ihr hr' hr (by omega)
        | false =>
            cases hl : ptr layout l with
            | none =>
                obtain rfl := ptr_eq_none.mp hl
                simp [walk, ptr]
            | some q => simpa using ihl hl' hl (by omega)
      · rw [if_neg hlt, walk_of_not_lt hlt]
        rfl

theorem patriciaSearchExact_of_represents (h : Represents s t)
    (htable : ∀ w e, T w = some e ↔ Holds t w e) (hread : s.prefixes.read x = some pre)
    (hlen : pre.bitlen.toNat ≤ s.maxbits) :
    patriciaSearchExact s x = some ((T pre.word).map Entry.node) := by
  have hnone := table_eq_none_of_walk pre h htable
  simp only [patriciaSearchExact, hread, cAssert_of hlen, Option.bind_eq_bind, Option.bind_some]
  cases hhead : s.head with
  | none =>
      obtain rfl := ptr_eq_none.mp (h.head.symm.trans hhead)
      simp [hnone (by simp [walk, rootLabel])]
  | some head =>
      have hn : pre.bitlen.toNat ≤ 128 := hlen.trans h.maxbits_le
      have hloop := exactLoop_spec pre.add h.linked (h.head.symm.trans hhead) hn
        (h.linked.numNodes_le h.nodup)
      simp only [hloop, Option.bind_some]
      cases hwalk : walk keyed (addrBit pre.add) pre.bitlen.toNat t with
      | nil =>
          simp [ptr, hnone (by simp [hwalk, rootLabel])]
      | node c l r =>
          have hroot : rootLabel (walk keyed (addrBit pre.add) pre.bitlen.toNat t) = some c := by
            rw [hwalk, rootLabel]
          obtain ⟨hc, hlong⟩ := walk_mem hroot
          obtain ⟨links, hnode⟩ := h.linked.exists_read hc
          -- the node at which the loop ends is the only one that can have the word
          have hno : (c.word = pre.word → c.entry = none) → T pre.word = none := by
            intro hdiffer
            refine hnone fun d hd => ?_
            obtain rfl : c = d := Option.some.inj (hroot.symm.trans hd)
            exact hdiffer
          simp only [ptr, layout_addr] at hnode ⊢
          simp only [hnode, layout_content, Option.bind_some]
          cases hentry : c.entry with
          | none => simp [hno fun _ => hentry]
          | some stored =>
              obtain ⟨own, d⟩ := stored
              simp only [Option.map_some]
              by_cases hgt : c.word.length > pre.bitlen.toNat
              · have hne : c.word ≠ pre.word := fun heq => by simp [heq] at hgt
                rw [if_pos hgt, hno fun heq => absurd heq hne]
                rfl
              · have hlength : c.word.length = pre.bitlen.toNat :=
                  Nat.le_antisymm (Nat.le_of_not_lt hgt) hlong
                obtain ⟨own', hown, hword, -⟩ := (h.cells c hc).2 own d hentry
                have hown' : own'.bitlen.toNat = c.word.length := by rw [← hword, Prefix.length_word]
                rw [if_neg hgt, hown]
                simp only [cAssert_of hlength, cAssert_of hown'.symm, Option.bind_some,
                  compWithMask_eq own'.add pre.add hn]
                have hown'' : bits (addrBit own'.add) pre.bitlen.toNat = c.word := by
                  rw [← hword, Prefix.word, ← hlength, hown']
                by_cases heq : c.word = pre.word
                · have hT := table_of_cell htable hc hentry
                  rw [heq] at hT
                  rw [hown'', heq, hT]
                  simp [Prefix.word]
                · rw [hown'', hno fun heq' => absurd heq' heq]
                  simpa [Prefix.word] using heq

/-- An exact search finds the node of a word if there is one, and fails no assertion. -/
theorem patriciaSearchExact_spec (h : Models s T) (hread : s.prefixes.read x = some pre)
    (hlen : pre.bitlen.toNat ≤ s.maxbits) :
    patriciaSearchExact s x = some ((T pre.word).map Entry.node) := by
  obtain ⟨t, hrep, htable⟩ := h
  exact patriciaSearchExact_of_represents hrep htable hread hlen

/-! ### The search for the longest match -/

theorem patriciaSearchExact_spec_sample : patriciaSearchExact sampleTree 1 = some (some 1) :=
  (patriciaSearchExact_spec models_sample rfl (by decide)).trans (by decide)

theorem bestLoop_succ (stack : List Nat) : bestLoop nodes addr n (fuel + 1) stack p =
    (nodes.read p).bind fun node =>
      if node.bit < n then
        (if node.pfx.isSome then push stack p else some stack).bind fun stack =>
          (bitTest addr node.bit).bind fun b =>
            match if b then node.r else node.l with
            | none => some (stack, none)
            | some q => bestLoop nodes addr n fuel stack q
      else some (stack, some p) := by
  rw [bestLoop]
  congr 1
  funext node
  by_cases hpfx : node.pfx.isSome
  · simp only [hpfx, if_true]
    rfl
  · simp only [hpfx, if_false, Bool.false_eq_true]
    rfl

theorem bestLoop_spec (addr : Vector UInt8 16) (hl : Linked layout nodes parent t) (hp : ptr layout t = some p)
    (hn : n ≤ 128) (hfuel : t.numNodes ≤ fuel) (stack : List Nat)
    (hroom : stack.length + (passed keyed (addrBit addr) n t).length ≤ patriciaMaxbits + 1) :
    bestLoop nodes addr n fuel stack p =
      some (((((passed keyed (addrBit addr) n t).filter keyed.stored).map Cell.addr).reverse ++ stack),
        ptr layout (walk keyed (addrBit addr) n t)) := by
  induction t generalizing parent p fuel stack with
  | nil => cases hp
  | node c l r ihl ihr =>
      obtain ⟨hread, hl', hr'⟩ := hl
      obtain rfl : c.addr = p := Option.some.inj hp
      rw [BinaryTree.numNodes] at hfuel
      obtain ⟨fuel, rfl⟩ : ∃ k, fuel = k + 1 := ⟨fuel - 1, by omega⟩
      rw [layout_addr] at hread
      simp only [bestLoop_succ, hread, layout_content, Option.bind_some]
      by_cases hlt : c.word.length < n
      · rw [passed_of_lt hlt, List.length_cons] at hroom
        have hpush : ∃ stack', (if (c.entry.map Prod.fst).isSome then push stack c.addr else some stack) =
            some stack' ∧ stack'.length ≤ stack.length + 1 ∧
            stack' = (([c].filter keyed.stored).map Cell.addr).reverse ++ stack := by
          by_cases hstored : c.entry.isSome
          · refine ⟨c.addr :: stack, ?_, le_rfl, by simp [hstored]⟩
            rw [Option.isSome_map, if_pos hstored, push, if_pos (by omega)]
          · refine ⟨stack, ?_, Nat.le_succ _, by simp [hstored]⟩
            rw [Option.isSome_map, if_neg hstored]
        obtain ⟨stack', hpush, hlength, hstack⟩ := hpush
        have hpassed : ∀ ds : List (Cell δ),
            (((c :: ds).filter keyed.stored).map Cell.addr).reverse ++ stack =
              ((ds.filter keyed.stored).map Cell.addr).reverse ++ stack' := by
          intro ds
          rw [hstack]
          by_cases hstored : c.entry.isSome <;> simp [hstored]
        rw [if_pos hlt, hpush, Option.bind_some, bitTest_eq addr (by omega), Option.bind_some,
          walk_of_lt hlt, passed_of_lt hlt, hpassed]
        rw [keyed_word] at hroom ⊢
        cases hbit : addrBit addr c.word.length with
        | true =>
            simp only [hbit, if_true] at hroom ⊢
            cases hr : ptr layout r with
            | none =>
                obtain rfl := ptr_eq_none.mp hr
                simp [walk, passed, ptr]
            | some q => exact ihr hr' hr (by omega) stack' (by omega)
        | false =>
            simp only [hbit, if_false, Bool.false_eq_true] at hroom ⊢
            cases hl : ptr layout l with
            | none =>
                obtain rfl := ptr_eq_none.mp hl
                simp [walk, passed, ptr]
            | some q => exact ihl hl' hl (by omega) stack' (by omega)
      · rw [if_neg hlt, walk_of_not_lt hlt, passed_of_not_lt hlt]
        rfl

/-- The loop over the stack ends at the first word that the address begins with. -/
theorem popLoop_spec (addr : Vector UInt8 16) (n : Nat) (h : Represents s t) {cs : List (Cell δ)}
    (hcs : ∀ c ∈ cs, c ∈ preorder t ∧ keyed.stored c = true) :
    popLoop s addr n (cs.map Cell.addr) =
      some ((cs.find? fun c => keyed.word c <+: bits (addrBit addr) n).map Cell.addr) := by
  induction cs with
  | nil => rfl
  | cons c cs ih =>
      obtain ⟨hc, hstored⟩ := hcs c List.mem_cons_self
      obtain ⟨links, hnode⟩ := h.linked.exists_read hc
      obtain ⟨⟨own, d⟩, hentry⟩ := Option.isSome_iff_exists.mp hstored
      obtain ⟨own', hown, hword, -⟩ := (h.cells c hc).2 own d hentry
      have hlen : own'.bitlen.toNat = c.word.length := by rw [← hword, Prefix.length_word]
      have hlong : c.word.length ≤ 128 := (h.cells c hc).1.trans h.maxbits_le
      have hbits : bits (addrBit own'.add) c.word.length = c.word := by rw [← hword, Prefix.length_word, Prefix.word]
      have hmatch : (decide (c.word = bits (addrBit addr) c.word.length) && decide (c.word.length ≤ n)) =
          decide (keyed.word c <+: bits (addrBit addr) n) := by
        rw [← Bool.decide_and, decide_eq_decide, keyed_word, prefix_bits_iff, and_comm]
      rw [layout_addr] at hnode
      simp only [List.map_cons, popLoop, hnode, layout_content, hentry, Option.map_some, hown, hlen,
        compWithMask_eq own'.add addr hlong, hbits, hmatch, Option.bind_eq_bind, Option.bind_some, List.find?_cons]
      by_cases hfound : keyed.word c <+: bits (addrBit addr) n
      · simp only [hfound, decide_true, if_true, Option.map_some]
      · simp only [hfound, decide_false, if_false, Bool.false_eq_true]
        exact ih fun c hc => hcs c (List.mem_cons_of_mem _ hc)

/-- The entries on the way to a prefix, the last one first. -/
def passedEntries (pre : Prefix) (t : BinaryTree (Cell δ)) : List (Cell δ) :=
  ((passed keyed (addrBit pre.add) pre.bitlen.toNat t).filter keyed.stored).reverse

theorem mem_passedEntries (hc : c ∈ passedEntries pre t) : c ∈ preorder t ∧ keyed.stored c = true := by
  obtain ⟨hpassed, hstored⟩ := List.mem_filter.mp (List.mem_reverse.mp hc)
  exact ⟨(passed_mem hpassed).1, hstored⟩

theorem length_passedEntries_le (h : Represents s t) (pre : Prefix) : (passedEntries pre t).length ≤ pre.bitlen.toNat := by
  rw [passedEntries, List.length_reverse]
  exact (List.length_filter_le _ _).trans h.compressed.length_passed_le

/-- The words on the stack have the longest match, when the whole word is not one. -/
theorem find_passedEntries_eq (h : Represents s t) (htable : ∀ w e, T w = some e ↔ Holds t w e)
    {inclusive : Bool} (hwhole : inclusive = true → T pre.word = none) :
    ((passedEntries pre t).find? fun c => keyed.word c <+: pre.word).map Cell.addr =
      (longestMatch T pre.word inclusive).map Entry.node := by
  have hstored : ∀ v e, T v = some e → v <+: pre.word → v.length < pre.word.length + inclusive.toNat →
      v.length < pre.bitlen.toNat := by
    intro v e hv hpre hlt
    by_contra hle
    have hlength : v.length = pre.word.length := Nat.le_antisymm hpre.length_le (by simpa using hle)
    obtain rfl := hpre.eq_of_length hlength
    cases inclusive with
    | true => rw [hwhole rfl] at hv; cases hv
    | false => simp at hlt
  cases hfind : (passedEntries pre t).find? fun c => keyed.word c <+: pre.word with
  | none =>
      rw [longestMatch_eq_none]
      · rfl
      · intro v e hv hpre hlt
        exact h.compressed.find_none hfind ((htable v e).mp hv) rfl (hstored v e hv hpre hlt) hpre
  | some c =>
      obtain ⟨⟨hc, hsome, hpre, hlt⟩, hlongest⟩ := h.compressed.find_longest hfind
      obtain ⟨⟨own, d⟩, hentry⟩ := Option.isSome_iff_exists.mp hsome
      have hpre : c.word <+: pre.word := hpre
      rw [longestMatch_eq_some (table_of_cell htable hc hentry) hpre]
      · rfl
      · rw [Prefix.length_word]
        exact Nat.lt_of_lt_of_le hlt (Nat.le_add_right _ _)
      · intro v e hv hpre' hlt'
        exact hlongest _ ((htable v e).mp hv) rfl hpre' (hstored v e hv hpre' hlt')

/-- The entry at which the way ends is pushed last: it is the longest match if it has the whole word. -/
theorem find_cons_passedEntries_eq (h : Represents s t) (htable : ∀ w e, T w = some e ↔ Holds t w e)
    (hroot : rootLabel (walk keyed (addrBit pre.add) pre.bitlen.toNat t) = some c) (hstored : c.entry.isSome) :
    ((c :: passedEntries pre t).find? fun c => keyed.word c <+: pre.word).map Cell.addr =
      (longestMatch T pre.word true).map Entry.node := by
  obtain ⟨hc, hlong⟩ := walk_mem hroot
  obtain ⟨⟨own, d⟩, hentry⟩ := Option.isSome_iff_exists.mp hstored
  rw [List.find?_cons]
  by_cases hword : c.word <+: pre.word
  · have hwhole : c.word = pre.word :=
      hword.eq_of_length (Nat.le_antisymm hword.length_le (by simpa using hlong))
    have hmatch : longestMatch T pre.word true = some ⟨c.addr, own, d⟩ := by
      refine longestMatch_eq_some (table_of_cell htable hc hentry) hword ?_ fun v' e' _ hpre' _ => ?_
      · rw [hwhole]
        exact Nat.lt_succ_self _
      · rw [hwhole]
        exact hpre'.length_le
    have hfound : decide (keyed.word c <+: pre.word) = true := decide_eq_true hword
    rw [hfound, hmatch]
    rfl
  · have hfound : decide (keyed.word c <+: pre.word) = false := decide_eq_false hword
    rw [hfound]
    refine find_passedEntries_eq h htable fun _ => table_eq_none_of_walk pre h htable fun d hd hwhole => ?_
    obtain rfl : c = d := Option.some.inj (hroot.symm.trans hd)
    exact absurd (hwhole ▸ List.prefix_rfl) hword

theorem patriciaSearchBest2_of_represents (h : Represents s t)
    (htable : ∀ w e, T w = some e ↔ Holds t w e) (hread : s.prefixes.read x = some pre)
    (hlen : pre.bitlen.toNat ≤ s.maxbits) (inclusive : Bool) :
    patriciaSearchBest2 s x inclusive = some ((longestMatch T pre.word inclusive).map Entry.node) := by
  simp only [patriciaSearchBest2, hread, cAssert_of hlen, Option.bind_eq_bind, Option.bind_some]
  cases hhead : s.head with
  | none =>
      obtain rfl := ptr_eq_none.mp (h.head.symm.trans hhead)
      have hempty : ∀ v e, T v ≠ some e := by
        intro v e hv
        cases (htable v e).mp hv
      simp [longestMatch_eq_none fun v e hv => absurd hv (hempty v e)]
  | some head =>
      have hn : pre.bitlen.toNat ≤ 128 := hlen.trans h.maxbits_le
      have hpassed : (passed keyed (addrBit pre.add) pre.bitlen.toNat t).length ≤ pre.bitlen.toNat :=
        h.compressed.length_passed_le
      have hloop := bestLoop_spec pre.add h.linked (h.head.symm.trans hhead) hn (h.linked.numNodes_le h.nodup) []
        (by simp only [patriciaMaxbits, List.length_nil]; omega)
      have hpop := popLoop_spec pre.add pre.bitlen.toNat h fun c (hc : c ∈ passedEntries pre t) => mem_passedEntries hc
      rw [List.append_nil, ← List.map_reverse] at hloop
      simp only [hloop, Option.bind_some]
      cases hwalk : walk keyed (addrBit pre.add) pre.bitlen.toNat t with
      | nil =>
          refine hpop.trans (congrArg some (find_passedEntries_eq h htable fun _ => ?_))
          exact table_eq_none_of_walk pre h htable (by simp [hwalk, rootLabel])
      | node c l r =>
          have hroot : rootLabel (walk keyed (addrBit pre.add) pre.bitlen.toNat t) = some c := by
            rw [hwalk, rootLabel]
          obtain ⟨links, hnode⟩ := h.linked.exists_read (walk_mem hroot).1
          simp only [ptr, layout_addr] at hnode ⊢
          simp only [hnode, layout_content, Option.isSome_map, Option.bind_some]
          by_cases hpush : (inclusive && c.entry.isSome) = true
          · obtain ⟨rfl, hstored⟩ := Bool.and_eq_true_iff.mp hpush
            have hroom : ((passedEntries pre t).map Cell.addr).length < patriciaMaxbits + 1 := by
              have hlength := length_passedEntries_le h pre
              rw [List.length_map, patriciaMaxbits]
              omega
            have hpop' : popLoop s pre.add pre.bitlen.toNat ((c :: passedEntries pre t).map Cell.addr) = _ :=
              popLoop_spec pre.add pre.bitlen.toNat h fun d hd => by
                rcases List.mem_cons.mp hd with rfl | hd
                · exact ⟨(walk_mem hroot).1, hstored⟩
                · exact mem_passedEntries hd
            have hstack : push ((passedEntries pre t).map Cell.addr) c.addr = some ((c :: passedEntries pre t).map Cell.addr) :=
              if_pos hroom
            rw [if_pos hpush]
            refine (congrArg (Option.bind · _) hstack).trans (hpop'.trans (congrArg some ?_))
            exact find_cons_passedEntries_eq h htable hroot hstored
          · rw [if_neg hpush]
            refine hpop.trans (congrArg some (find_passedEntries_eq h htable fun hinclusive => ?_))
            refine table_eq_none_of_walk pre h htable fun d hd _ => ?_
            obtain rfl : c = d := Option.some.inj (hroot.symm.trans hd)
            simpa [hinclusive] using hpush

/-- A search for the best match finds the longest stored word that the prefix begins with; no node is
    written behind the end of the stack. -/
theorem patriciaSearchBest2_spec (h : Models s T) (hread : s.prefixes.read x = some pre)
    (hlen : pre.bitlen.toNat ≤ s.maxbits) (inclusive : Bool) :
    patriciaSearchBest2 s x inclusive = some ((longestMatch T pre.word inclusive).map Entry.node) := by
  obtain ⟨t, hrep, htable⟩ := h
  exact patriciaSearchBest2_of_represents hrep htable hread hlen inclusive

theorem patriciaSearchBest2_spec_sample : patriciaSearchBest2 sampleTree 2 true = some (some 0) :=
  (patriciaSearchBest2_spec models_sample rfl (by decide) true).trans (by decide)

end SrxNote.Patricia
