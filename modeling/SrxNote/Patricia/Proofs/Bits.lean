import SrxNote.Misc.PrefixTree
import SrxNote.Patricia.Tree

/-!
# The bits of an address

A prefix stands for a word of bits: the first `bitlen` bits of its address, in each
octet from the highest one on. What `patricia.c` does with addresses is a statement
about these words: the test of a bit, the comparison under a mask and the search for
the first bit that differs.
-/

namespace SrxNote.Patricia

open PrefixTree

/-- The bits of an octet from the highest one on. -/
def octetBit (o : UInt8) (j : Nat) : Bool := o.toBitVec.getMsbD j

/-- The bits of an address. -/
def addrBit (addr : Vector UInt8 16) (i : Nat) : Bool :=
  octetBit (addr.toList.getD (i / 8) 0) (i % 8)

/-- The word that a prefix stands for. -/
def Prefix.word (pre : Prefix) : List Bool := bits (addrBit pre.add) pre.bitlen.toNat

@[simp] theorem Prefix.length_word (pre : Prefix) : pre.word.length = pre.bitlen.toNat :=
  length_bits _ _

/-! ### Octets -/

theorem octet_ext {a b : UInt8} (h : ∀ j < 8, octetBit a j = octetBit b j) : a = b := by
  apply UInt8.toBitVec_inj.mp
  exact BitVec.eq_of_getMsbD_eq h

theorem octetBit_and (a b : UInt8) (j : Nat) :
    octetBit (a &&& b) j = (octetBit a j && octetBit b j) := by
  simp [octetBit]

theorem octetBit_xor (a b : UInt8) (j : Nat) :
    octetBit (a ^^^ b) j = (octetBit a j ^^ octetBit b j) := by
  simp [octetBit]

/-- `0x80 >> j` has the bit `j`. -/
theorem octetBit_bitMask {i j : Nat} (hi : i < 8) (hj : j < 8) :
    octetBit ((0x80 : UInt8) >>> UInt8.ofNat j) i = decide (i = j) := by
  have hall : ∀ j < 8, ∀ i < 8, octetBit ((0x80 : UInt8) >>> UInt8.ofNat j) i = decide (i = j) := by
    decide
  exact hall j hj i hi

/-- `(-1) << (8 - m)` has the first `m` bits. -/
theorem octetBit_highMask {i m : Nat} (hi : i < 8) (hm : m < 8) (hpos : 0 < m) :
    octetBit ((0xff : UInt8) <<< UInt8.ofNat (8 - m)) i = decide (i < m) := by
  have hall : ∀ m < 8, 0 < m → ∀ i < 8,
      octetBit ((0xff : UInt8) <<< UInt8.ofNat (8 - m)) i = decide (i < m) := by
    decide
  exact hall m hm hpos i hi

theorem and_bitMask_ne_zero (o : UInt8) {j : Nat} (hj : j < 8) :
    o &&& ((0x80 : UInt8) >>> UInt8.ofNat j) ≠ 0 ↔ octetBit o j = true := by
  constructor
  · intro hne
    by_contra hbit
    apply hne
    apply octet_ext
    intro i hi
    have hzero : octetBit 0 i = false := by simp [octetBit]
    rw [octetBit_and, octetBit_bitMask hi hj, hzero]
    by_cases hij : i = j
    · simpa [hij] using hbit
    · simp [hij]
  · intro hbit hzero
    have hj' : octetBit (o &&& ((0x80 : UInt8) >>> UInt8.ofNat j)) j = true := by
      rw [octetBit_and, octetBit_bitMask hj hj, hbit]
      simp
    rw [hzero] at hj'
    simp [octetBit] at hj'

theorem and_highMask_eq_iff (a b : UInt8) {m : Nat} (hm : m < 8) (hpos : 0 < m) :
    a &&& ((0xff : UInt8) <<< UInt8.ofNat (8 - m)) = b &&& ((0xff : UInt8) <<< UInt8.ofNat (8 - m)) ↔
      ∀ j < m, octetBit a j = octetBit b j := by
  constructor
  · intro h j hj
    have hbit := congrArg (octetBit · j) h
    simpa [octetBit_and, octetBit_highMask (by omega : j < 8) hm hpos, hj] using hbit
  · intro h
    apply octet_ext
    intro j hj
    rw [octetBit_and, octetBit_and, octetBit_highMask hj hm hpos]
    by_cases hlt : j < m
    · rw [h j hlt]
    · simp [hlt]

/-! ### Addresses -/

theorem bits_eq_iff {q q' : Nat → Bool} {n : Nat} : bits q n = bits q' n ↔ ∀ i < n, q i = q' i := by
  rw [bits, bits, List.map_inj_left]
  simp

theorem getD_octet (addr : Vector UInt8 16) {i : Nat} (hi : i < 16) :
    addr[i]? = some (addr.toList.getD i 0) := by
  rw [Vector.getElem?_eq_getElem hi, List.getD_eq_getElem?_getD, List.getElem?_eq_getElem (by simpa using hi)]
  simp

theorem addrBit_octet (addr : Vector UInt8 16) (n : Nat) {j : Nat} (hj : j < 8) :
    addrBit addr (n * 8 + j) = octetBit (addr.toList.getD n 0) j := by
  rw [addrBit, show (n * 8 + j) / 8 = n by omega, show (n * 8 + j) % 8 = j by omega]

theorem bitTest_eq (addr : Vector UInt8 16) {bit : Nat} (h : bit < 128) :
    bitTest addr bit = some (addrBit addr bit) := by
  have hoctet : bit >>> 3 = bit / 8 := Nat.shiftRight_eq_div_pow bit 3
  have hmod : bit &&& 0x07 = bit % 8 := Nat.and_two_pow_sub_one_eq_mod bit 3
  have hmask := and_bitMask_ne_zero (addr.toList.getD (bit / 8) 0) (Nat.mod_lt bit (by decide : 0 < 8))
  rw [bitTest, hoctet, hmod, getD_octet addr (by omega), Option.map_some, addrBit, Option.some_inj,
    Bool.eq_iff_iff, decide_eq_true_iff]
  exact hmask

/-- The octets agree up to `n` when their bits do. -/
theorem take_octets_eq_iff (a b : Vector UInt8 16) {n : Nat} (hn : n ≤ 16) :
    a.toList.take n = b.toList.take n ↔ ∀ i < n * 8, addrBit a i = addrBit b i := by
  constructor
  · intro h i hi
    have hget : a.toList.getD (i / 8) 0 = b.toList.getD (i / 8) 0 := by
      have hi' : i / 8 < n := by omega
      have := congrArg (·[i / 8]?) h
      simp only [List.getElem?_take, hi', if_true] at this
      rw [List.getD_eq_getElem?_getD, List.getD_eq_getElem?_getD, this]
    rw [addrBit, addrBit, hget]
  · intro h
    apply List.ext_getElem
    · simp
    · intro k hk hk'
      have hkn : k < n := by
        rw [List.length_take] at hk
        omega
      have hoctet : a.toList.getD k 0 = b.toList.getD k 0 := by
        apply octet_ext
        intro j hj
        rw [← addrBit_octet a k hj, ← addrBit_octet b k hj]
        exact h _ (by omega)
      have hk16 : k < 16 := by omega
      rw [List.getElem_take, List.getElem_take]
      simpa [List.getD_eq_getElem?_getD, hk16] using hoctet

/-- `comp_with_mask` compares the words of the first `mask` bits. -/
theorem compWithMask_eq (a b : Vector UInt8 16) {mask : Nat} (h : mask ≤ 128) :
    compWithMask a b mask = some (decide (bits (addrBit a) mask = bits (addrBit b) mask)) := by
  have htake := take_octets_eq_iff a b (n := mask / 8) (by omega)
  unfold compWithMask
  rw [if_pos (by omega : mask / 8 ≤ 16)]
  by_cases heq : a.toList.take (mask / 8) = b.toList.take (mask / 8)
  · rw [if_pos heq]
    have hlow := htake.mp heq
    by_cases hmod : mask % 8 = 0
    · have hbits : bits (addrBit a) mask = bits (addrBit b) mask :=
        bits_eq_iff.mpr fun i hi => hlow i (by omega)
      rw [if_pos hmod, decide_eq_true hbits]
    · have hhigh := and_highMask_eq_iff (a.toList.getD (mask / 8) 0) (b.toList.getD (mask / 8) 0)
        (Nat.mod_lt mask (by decide : 0 < 8)) (Nat.pos_of_ne_zero hmod)
      rw [if_neg hmod, getD_octet a (by omega), getD_octet b (by omega)]
      simp only [Option.bind_eq_bind, Option.bind_some, Option.some_inj]
      rw [decide_eq_decide, hhigh, bits_eq_iff]
      constructor
      · intro hbits i hi
        by_cases hi' : i < mask / 8 * 8
        · exact hlow i hi'
        · have hj := hbits (i - mask / 8 * 8) (by omega)
          rw [← addrBit_octet a _ (by omega), ← addrBit_octet b _ (by omega),
            Nat.add_sub_cancel' (Nat.le_of_not_lt hi')] at hj
          exact hj
      · intro hbits j hj
        rw [← addrBit_octet a _ (by omega), ← addrBit_octet b _ (by omega)]
        exact hbits _ (by omega)
  · have hbits : bits (addrBit a) mask ≠ bits (addrBit b) mask := fun hbits =>
      heq (htake.mpr fun i hi => bits_eq_iff.mp hbits i (by omega))
    rw [if_neg heq, decide_eq_false hbits]

/-! ### The first bit that differs -/

theorem firstBit_spec {r : UInt8} (hr : r ≠ 0) :
    ∃ j < 8, firstBit r = some j ∧ octetBit r j = true ∧ ∀ i < j, octetBit r i = false := by
  cases hfirst : firstBit r with
  | none =>
      exfalso
      apply hr
      apply octet_ext
      intro j hj
      have hnone := List.find?_eq_none.mp hfirst j (List.mem_range.mpr hj)
      rw [decide_eq_true_iff, and_bitMask_ne_zero r hj] at hnone
      simpa [octetBit] using hnone
  | some j =>
      rw [firstBit, List.find?_range_eq_some] at hfirst
      obtain ⟨hbit, hj, hbefore⟩ := hfirst
      have hj := List.mem_range.mp hj
      rw [decide_eq_true_iff, and_bitMask_ne_zero r hj] at hbit
      refine ⟨j, hj, rfl, hbit, ?_⟩
      intro i hi
      have hzero := hbefore i hi
      rw [Bool.not_eq_true', decide_eq_false_iff_not, and_bitMask_ne_zero r (by omega)] at hzero
      exact Bool.eq_false_of_not_eq_true hzero

/-- The addresses agree up to bit `k`, and differ in it when it is below `n`. -/
def FirstDiffer (q q' : Nat → Bool) (n k : Nat) : Prop :=
  k ≤ n ∧ bits q k = bits q' k ∧ (k < n → q k ≠ q' k)

/-- The loop from octet `i` on, when all before it agree. -/
theorem differLoop_spec (a b : Vector UInt8 16) {n : Nat} (hn : n ≤ 128) (i : Nat) (hi : i ≤ 16)
    (hbefore : bits (addrBit a) (i * 8) = bits (addrBit b) (i * 8)) :
    ∃ d, differLoop n i (i * 8) (a.toList.drop i) (b.toList.drop i) = some d ∧
      FirstDiffer (addrBit a) (addrBit b) n (min d n) := by
  induction hk : 16 - i generalizing i with
  | zero =>
      obtain rfl : i = 16 := by omega
      refine ⟨128, ?_, ?_⟩
      · unfold differLoop
        simp [Nat.not_lt.mpr hn]
      · rw [Nat.min_eq_right hn]
        exact ⟨le_rfl, bits_eq_iff.mpr fun j hj => bits_eq_iff.mp hbefore j (by omega), by omega⟩
  | succ k ih =>
      have ha : a.toList.drop i = a.toList.getD i 0 :: a.toList.drop (i + 1) := by
        rw [List.drop_eq_getElem_cons (by simp; omega)]
        simp [List.getD_eq_getElem?_getD, show i < 16 by omega]
      have hb : b.toList.drop i = b.toList.getD i 0 :: b.toList.drop (i + 1) := by
        rw [List.drop_eq_getElem_cons (by simp; omega)]
        simp [List.getD_eq_getElem?_getD, show i < 16 by omega]
      unfold differLoop
      by_cases hlt : i * 8 < n
      · rw [if_pos hlt, ha, hb]
        simp only []
        by_cases hxor : a.toList.getD i 0 ^^^ b.toList.getD i 0 = 0
        · -- the octets are equal, and the loop goes on
          have heq : a.toList.getD i 0 = b.toList.getD i 0 := UInt8.xor_eq_zero_iff.mp hxor
          rw [if_pos hxor]
          refine ih (i + 1) (by omega) ?_ (by omega)
          apply bits_eq_iff.mpr
          intro j hj
          by_cases hj' : j < i * 8
          · exact bits_eq_iff.mp hbefore j hj'
          · obtain ⟨m, rfl⟩ := Nat.exists_eq_add_of_le (Nat.le_of_not_lt hj')
            rw [addrBit_octet a i (by omega), addrBit_octet b i (by omega), heq]
        · obtain ⟨j, hj, hfirst, hbit, hzero⟩ := firstBit_spec hxor
          rw [octetBit_xor, bne_iff_ne, ← addrBit_octet a i hj, ← addrBit_octet b i hj] at hbit
          have hagree : ∀ m < i * 8 + j, addrBit a m = addrBit b m := by
            intro m hm
            by_cases hm' : m < i * 8
            · exact bits_eq_iff.mp hbefore m hm'
            · obtain ⟨m, rfl⟩ := Nat.exists_eq_add_of_le (Nat.le_of_not_lt hm')
              have hnot := hzero m (by omega)
              rw [octetBit_xor, bne_eq_false_iff_eq] at hnot
              rw [addrBit_octet a i (by omega), addrBit_octet b i (by omega), hnot]
          refine ⟨i * 8 + j, by rw [if_neg hxor, hfirst, Option.map_some], Nat.min_le_right _ _,
            bits_eq_iff.mpr fun m hm => hagree m (by omega), ?_⟩
          intro hmin
          rwa [Nat.min_eq_left (by omega)]
      · rw [if_neg hlt]
        refine ⟨i * 8, rfl, Nat.min_le_right _ _, ?_, ?_⟩
        · exact bits_eq_iff.mpr fun j hj => bits_eq_iff.mp hbefore j (by omega)
        · intro hmin
          omega

theorem differBit_spec (a b : Vector UInt8 16) {n : Nat} (hn : n ≤ 128) :
    ∃ k, differBit a b n = some k ∧ FirstDiffer (addrBit a) (addrBit b) n k := by
  obtain ⟨d, hloop, hdiffer⟩ := differLoop_spec a b hn 0 (by omega) rfl
  rw [List.drop_zero, List.drop_zero, Nat.zero_mul] at hloop
  refine ⟨min d n, ?_, hdiffer⟩
  rw [differBit, hloop, Option.map_some, Option.some_inj]
  split <;> omega

end SrxNote.Patricia
