import Mathlib.Data.List.Basic
import Mathlib.Data.List.Pairwise
import Mathlib.Tactic.Ring
import SrxNote.Emulator.Proofs.PrefixLoops

/-!
# The prefixes of a node in their order

The loops go through all prefixes i.b.c.d/N with N from 8 to 31 and no host bit set,
by their length and then by their address. A run emits the first ones of them, as
many as were wanted, but one at least: `keep` is tested after a prefix was printed.
-/

namespace SrxNote.Emulator.PrefixLoops
open SrxNote.Text

variable {c : Settings}

/-! ### What is emitted -/

/-- What `printIPaddr` prints for a prefix while `keep` is true, and what it writes. -/
def Settings.lines (c : Settings) (p : IpAttr × Nat) : List Printed :=
  if c.output then [if c.dryRun then .route p.1 p.2 else .buf p.1 p.2] else []

def Settings.toFile (c : Settings) (p : IpAttr × Nat) : List (IpAttr × Nat) :=
  if c.dryRun then [] else [p]

theorem printIPaddr_keep (hc : c.Usable) (p : IpAttr × Nat) {out : Out} (h : out.keep = true) :
    printIPaddr c p.1 p.2 out =
      ⟨decide (out.counter + 1 < out.maxNum), out.maxNum, out.counter + 1, out.printed ++ c.lines p,
        out.written ++ c.toFile p⟩ := by
  by_cases hmore : out.counter + 1 < out.maxNum
  · have hnot : ¬ out.counter + 1 ≥ out.maxNum := Int.not_le.mpr hmore
    unfold printIPaddr Settings.lines Settings.toFile
    by_cases hdry : c.dryRun = true
    · by_cases hout : c.output = true <;> simp [hdry, hout, h, hmore]
    · have hfile : c.hasFile = true := hc.resolve_left hdry
      by_cases hout : c.output = true <;> simp [hdry, hfile, hout, h, hmore]
  · have hlast : out.counter + 1 ≥ out.maxNum := Int.not_lt.mp hmore
    unfold printIPaddr Settings.lines Settings.toFile
    by_cases hdry : c.dryRun = true
    · by_cases hout : c.output = true <;> simp [hdry, hout, h, hmore, hlast]
    · have hfile : c.hasFile = true := hc.resolve_left hdry
      by_cases hout : c.output = true <;> simp [hdry, hfile, hout, h, hmore, hlast]

theorem printPrefixes_idle (hc : c.Usable) (ps : List (IpAttr × Nat)) {out : Out}
    (h : out.keep = false) : printPrefixes c ps out = out := by
  unfold printPrefixes
  induction ps with
  | nil => rfl
  | cons p ps ih => rw [List.foldl_cons, printIPaddr_idle hc p.1 p.2 h, ih]

/-- The prefixes that are still emitted: one at least. -/
def stillEmitted (left : Int) (ps : List (IpAttr × Nat)) : List (IpAttr × Nat) :=
  ps.take (max 1 left.toNat)

/-- From a state with `keep` on, the first of the prefixes are emitted, until the number is reached. -/
theorem printPrefixes_keep (hc : c.Usable) (ps : List (IpAttr × Nat)) {out : Out}
    (h : out.keep = true) :
    ∃ keep, printPrefixes c ps out =
      ⟨keep, out.maxNum, out.counter + (stillEmitted (out.maxNum - out.counter) ps).length,
        out.printed ++ (stillEmitted (out.maxNum - out.counter) ps).flatMap c.lines,
        out.written ++ (stillEmitted (out.maxNum - out.counter) ps).flatMap c.toFile⟩ := by
  induction ps generalizing out with
  | nil => exact ⟨out.keep, by simp [printPrefixes, stillEmitted]⟩
  | cons p ps ih =>
      have hstep := printIPaddr_keep hc p h
      have hcons : printPrefixes c (p :: ps) out = printPrefixes c ps (printIPaddr c p.1 p.2 out) := rfl
      rw [hcons, hstep]
      by_cases hmore : out.counter + 1 < out.maxNum
      · have hkeep : decide (out.counter + 1 < out.maxNum) = true := decide_eq_true hmore
        have hsuffix : stillEmitted (out.maxNum - out.counter) (p :: ps) =
            p :: stillEmitted (out.maxNum - (out.counter + 1)) ps := by
          have hnum : max 1 (out.maxNum - out.counter).toNat =
              max 1 (out.maxNum - (out.counter + 1)).toNat + 1 := by omega
          rw [stillEmitted, stillEmitted, hnum, List.take_succ_cons]
        obtain ⟨keep, heq⟩ := @ih ⟨decide (out.counter + 1 < out.maxNum), out.maxNum,
          out.counter + 1, out.printed ++ c.lines p, out.written ++ c.toFile p⟩ hkeep
        refine ⟨keep, ?_⟩
        rw [heq, hsuffix]
        simp [Int.add_assoc, Int.add_comm]
      · have hkeep : decide (out.counter + 1 < out.maxNum) = false := decide_eq_false hmore
        have hone : stillEmitted (out.maxNum - out.counter) (p :: ps) = [p] := by
          have hnum : max 1 (out.maxNum - out.counter).toNat = 1 := by omega
          rw [stillEmitted, hnum]
          rfl
        refine ⟨false, ?_⟩
        rw [hone, printPrefixes_idle hc ps hkeep, hkeep]
        simp

/-- The prefixes that a run emits. -/
def emittedPrefixes (i numPrefix : Int) : List (IpAttr × Nat) := stillEmitted numPrefix (allPrefixes i)

/-- What a run of the loops leaves. -/
theorem generatePrefix_out (hc : c.Usable) (i numPrefix : Int) {fuel : Nat} (hfuel : enoughFuel ≤ fuel) :
    ∃ keep, generatePrefix c fuel i numPrefix =
      some ⟨keep, numPrefix, (emittedPrefixes i numPrefix).length,
        (initOut c numPrefix).printed ++ (emittedPrefixes i numPrefix).flatMap c.lines,
        (emittedPrefixes i numPrefix).flatMap c.toFile⟩ := by
  obtain ⟨keep, heq⟩ := @printPrefixes_keep c hc (allPrefixes i) (initOut c numPrefix) rfl
  have hleft : (initOut c numPrefix).maxNum - (initOut c numPrefix).counter = numPrefix :=
    Int.sub_zero numPrefix
  rw [hleft] at heq
  refine ⟨keep, ?_⟩
  rw [generatePrefix_eq hc i numPrefix hfuel, heq]
  simp [initOut, emittedPrefixes]

/-! ### The addresses of a length -/

/-- The address of node `i` with the number `x` in the last three octets. -/
def blockAddress (i : Int) (x : Nat) : IpAttr :=
  ⟨i, (x / 65536 : Nat), (x / 256 % 256 : Nat), (x % 256 : Nat)⟩

theorem blockAddress_octets (i : Int) {b c d : Nat} (hc : c < 256) (hd : d < 256) :
    blockAddress i (b * 65536 + c * 256 + d) = ⟨i, b, c, d⟩ := by
  have hb : (b * 65536 + c * 256 + d) / 65536 = b := by omega
  have hc' : (b * 65536 + c * 256 + d) / 256 % 256 = c := by omega
  have hd' : (b * 65536 + c * 256 + d) % 256 = d := by omega
  rw [blockAddress, hb, hc', hd']

/-- Two loops, one inside the other, count through the products. -/
theorem map_range_mul {α : Type} (f : Nat → α) (m n : Nat) :
    (List.range (m * n)).map f =
      (List.range m).flatMap fun b => (List.range n).map fun k => f (b * n + k) := by
  induction m with
  | zero => simp
  | succ m ih =>
      rw [Nat.succ_mul, List.range_add, List.map_append, ih, List.range_succ, List.flatMap_append,
        List.flatMap_singleton, List.map_map]
      rfl

theorem octetValues_eq {inc m : Nat} (h : inc * m = 256) :
    octetValues inc = (List.range m).map fun k : Nat => ((k * inc : Nat) : Int) := by
  obtain ⟨-, -, hcount⟩ := count_octetValues h
  rw [octetValues, hcount]
  apply List.ext_getElem
  · simp
  · intro k _ _
    simp [Nat.mul_comm]

theorem octetValues_one : octetValues 1 = (List.range 256).map fun b : Nat => (b : Int) := by
  rw [octetValues_eq (m := 256) rfl]
  simp

theorem octetValues_stepOf (n : Nat) :
    octetValues (stepOf n) = (List.range (2 ^ (n % 8))).map fun k : Nat => ((k * stepOf n : Nat) : Int) :=
  octetValues_eq (stepOf_mul n)

/-- The multiples of `stepOf n` are octets. -/
theorem mul_stepOf_lt {n k : Nat} (hk : k < 2 ^ (n % 8)) : k * stepOf n < 256 := by
  have hpos : 0 < stepOf n := Nat.pow_pos (by decide)
  calc k * stepOf n < 2 ^ (n % 8) * stepOf n := Nat.mul_lt_mul_of_pos_right hk hpos
    _ = 256 := by rw [Nat.mul_comm, stepOf_mul]

/-- The octet that a length lies in goes through the multiples of its step. -/
theorem addresses1_in {n : Nat} (hp : n / 8 = 1) (i : Int) :
    addresses1 n i = (List.range (2 ^ (n % 8))).map fun k => ⟨i, (k * stepOf n : Nat), 0, 0⟩ := by
  by_cases hq : n % 8 = 0
  · rw [addresses1, if_pos ⟨hq, hp⟩, hq]
    simp
  · have hnot : addresses2 n i = fun b => [⟨i, b, 0, 0⟩] := by
      funext b
      rw [addresses2, if_neg (by omega), if_pos hp]
    rw [addresses1, if_neg (by omega), if_pos hp, octetValues_stepOf, hnot, List.flatMap_map,
      ← List.map_eq_flatMap]

theorem addresses2_in {n : Nat} (hp : n / 8 = 2) (i b : Int) :
    addresses2 n i b = (List.range (2 ^ (n % 8))).map fun k => ⟨i, b, (k * stepOf n : Nat), 0⟩ := by
  by_cases hq : n % 8 = 0
  · rw [addresses2, if_pos ⟨hq, hp⟩, hq]
    simp
  · have hnot : addresses3 n i b = fun c => [⟨i, b, c, 0⟩] := by
      funext c
      rw [addresses3, if_neg (by omega), if_pos hp]
    rw [addresses2, if_neg (by omega), if_neg (by omega), if_pos hp, octetValues_stepOf, hnot,
      List.flatMap_map, ← List.map_eq_flatMap]

theorem addresses3_in {n : Nat} (hp : n / 8 = 3) (i b c : Int) :
    addresses3 n i b c = (List.range (2 ^ (n % 8))).map fun k => ⟨i, b, c, (k * stepOf n : Nat)⟩ := by
  by_cases hq : n % 8 = 0
  · rw [addresses3, if_pos ⟨hq, hp⟩, hq]
    simp
  · rw [addresses3, if_neg (by omega), if_neg (by omega), octetValues_stepOf, List.map_map]
    rfl

/-- The octets above it go through all their values. -/
theorem addresses1_above {n : Nat} (hp : n / 8 ≠ 1) (i : Int) :
    addresses1 n i = (List.range 256).flatMap fun b : Nat => addresses2 n i b := by
  rw [addresses1, if_neg (by omega), if_neg hp, octetValues_one, List.flatMap_map]

theorem addresses2_above {n : Nat} (hp : n / 8 = 3) (i b : Int) :
    addresses2 n i b = (List.range 256).flatMap fun c : Nat => addresses3 n i b c := by
  rw [addresses2, if_neg (by omega), if_neg (by omega), if_neg (by omega), octetValues_one,
    List.flatMap_map]

/-- The number of addresses that a prefix of length `n` covers. -/
def blockSize (n : Nat) : Nat := 2 ^ (32 - n)

/-- A length within the second octet: the blocks are its values. -/
theorem addresses1_second {n : Nat} (hp : n / 8 = 1) (i : Int) :
    addresses1 n i = (List.range (2 ^ (n - 8))).map fun k => blockAddress i (k * blockSize n) := by
  have hcount : n - 8 = n % 8 := by omega
  have hsize : blockSize n = stepOf n * 65536 := by
    have hexp : 32 - n = (8 - n % 8) + 16 := by omega
    rw [blockSize, hexp, Nat.pow_add, stepOf]
  rw [addresses1_in hp, hcount]
  apply List.map_congr_left
  intro k _
  have hnumber : k * blockSize n = k * stepOf n * 65536 + 0 * 256 + 0 := by
    rw [hsize]
    ring
  rw [hnumber]
  exact (blockAddress_octets i (by decide) (by decide)).symm

/-- A length within the third octet: the blocks are its values below each second octet. -/
theorem addresses1_third {n : Nat} (hp : n / 8 = 2) (i : Int) :
    addresses1 n i = (List.range (2 ^ (n - 8))).map fun k => blockAddress i (k * blockSize n) := by
  have hcount : 2 ^ (n - 8) = 256 * 2 ^ (n % 8) := by
    have hexp : n - 8 = 8 + n % 8 := by omega
    rw [hexp, Nat.pow_add]
  have hsize : blockSize n = stepOf n * 256 := by
    have hexp : 32 - n = (8 - n % 8) + 8 := by omega
    rw [blockSize, hexp, Nat.pow_add, stepOf]
  rw [addresses1_above (by omega), hcount, map_range_mul]
  congr 1
  funext b
  rw [addresses2_in hp]
  apply List.map_congr_left
  intro k hk
  have hnumber : (b * 2 ^ (n % 8) + k) * blockSize n = b * 65536 + k * stepOf n * 256 + 0 := by
    calc (b * 2 ^ (n % 8) + k) * blockSize n
        = b * (stepOf n * 2 ^ (n % 8)) * 256 + k * stepOf n * 256 := by rw [hsize]; ring
      _ = b * 65536 + k * stepOf n * 256 + 0 := by rw [stepOf_mul]; ring
  rw [hnumber]
  exact (blockAddress_octets i (mul_stepOf_lt (List.mem_range.mp hk)) (by decide)).symm

/-- A length within the last octet: the blocks are its values below each two octets. -/
theorem addresses1_last {n : Nat} (hp : n / 8 = 3) (i : Int) :
    addresses1 n i = (List.range (2 ^ (n - 8))).map fun k => blockAddress i (k * blockSize n) := by
  have hcount : 2 ^ (n - 8) = 256 * (256 * 2 ^ (n % 8)) := by
    have hexp : n - 8 = 8 + (8 + n % 8) := by omega
    rw [hexp, Nat.pow_add, Nat.pow_add]
  have hsize : blockSize n = stepOf n := by
    have hexp : 32 - n = 8 - n % 8 := by omega
    rw [blockSize, hexp, stepOf]
  rw [addresses1_above (by omega), hcount, map_range_mul]
  congr 1
  funext b
  rw [addresses2_above hp, map_range_mul]
  apply List.flatMap_congr
  intro c hc
  rw [addresses3_in hp]
  apply List.map_congr_left
  intro k hk
  have hnumber : (b * (256 * 2 ^ (n % 8)) + (c * 2 ^ (n % 8) + k)) * blockSize n =
      b * 65536 + c * 256 + k * stepOf n := by
    calc (b * (256 * 2 ^ (n % 8)) + (c * 2 ^ (n % 8) + k)) * blockSize n
        = b * 256 * (stepOf n * 2 ^ (n % 8)) + c * (stepOf n * 2 ^ (n % 8)) + k * stepOf n := by
          rw [hsize]; ring
      _ = b * 65536 + c * 256 + k * stepOf n := by rw [stepOf_mul]; ring
  rw [hnumber]
  exact (blockAddress_octets i (List.mem_range.mp hc) (mul_stepOf_lt (List.mem_range.mp hk))).symm

/-- The addresses of a length are those of its blocks, one after the other. -/
theorem addresses1_eq {n : Nat} (hn : IsLength n) (i : Int) :
    addresses1 n i = (List.range (2 ^ (n - 8))).map fun k => blockAddress i (k * blockSize n) := by
  rcases hn.layer with hp | hp | hp
  · exact addresses1_second hp i
  · exact addresses1_third hp i
  · exact addresses1_last hp i

/-! ### The list of all prefixes -/

/-- The prefix with the number `k` among those of length `n`. -/
def blockPrefix (i : Int) (n k : Nat) : IpAttr × Nat := (blockAddress i (k * blockSize n), n)

theorem allPrefixes_eq {i : Int} (hi : 2 ≤ i) :
    allPrefixes i =
      (List.range' 8 24).flatMap fun n => (List.range (2 ^ (n - 8))).map (blockPrefix i n) := by
  rw [allPrefixes]
  apply List.flatMap_congr
  intro n hn
  have hmem := List.mem_range'_1.mp hn
  have hlength : IsLength n := by unfold IsLength; omega
  have hfirst : firstOctets i = [i] := by rw [firstOctets, if_pos (by omega)]
  rw [hfirst, layers_eq, List.flatMap_singleton, addresses1_eq hlength, List.map_map]
  rfl

/-- The address as a number of 32 bits. -/
def number (ip : IpAttr) : Int := ((ip.a * 256 + ip.b) * 256 + ip.c) * 256 + ip.d

def IsOctet (k : Int) : Prop := 0 ≤ k ∧ k ≤ 255

/-- No bit behind the first `n` is set. -/
def NoHostBit (p : IpAttr × Nat) : Prop := number p.1 % (2 ^ (32 - p.2) : Nat) = 0

/-- A prefix i.b.c.d/N of the node, with N from 8 to 31. -/
def IsBlockPrefix (i : Int) (p : IpAttr × Nat) : Prop :=
  p.1.a = i ∧ IsOctet p.1.b ∧ IsOctet p.1.c ∧ IsOctet p.1.d ∧ 8 ≤ p.2 ∧ p.2 ≤ 31 ∧ NoHostBit p

/-- By the length, and then by the address. -/
def Before (p p' : IpAttr × Nat) : Prop := p.2 < p'.2 ∨ (p.2 = p'.2 ∧ number p.1 < number p'.1)

/-- The list of all prefixes of the node in their order. -/
structure IsBlockList (i : Int) (ps : List (IpAttr × Nat)) : Prop where
  mem_iff : ∀ p, p ∈ ps ↔ IsBlockPrefix i p
  sorted : ps.Pairwise Before

theorem number_blockAddress (i : Int) (x : Nat) :
    number (blockAddress i x) = i * 2 ^ 24 + x := by
  have hsplit : x / 65536 * 65536 + x / 256 % 256 * 256 + x % 256 = x := by omega
  simp only [number, blockAddress]
  omega

theorem blockNumber_lt {n k : Nat} (hn : IsLength n) (hk : k < 2 ^ (n - 8)) :
    k * blockSize n < 2 ^ 24 := by
  have hpos : 0 < blockSize n := Nat.pow_pos (by decide)
  have hexp : n - 8 + (32 - n) = 24 := by unfold IsLength at hn; omega
  calc k * blockSize n < 2 ^ (n - 8) * blockSize n := Nat.mul_lt_mul_of_pos_right hk hpos
    _ = 2 ^ 24 := by rw [blockSize, ← Nat.pow_add, hexp]

theorem isBlockPrefix_blockPrefix (i : Int) {n k : Nat} (hn : IsLength n) (hk : k < 2 ^ (n - 8)) :
    IsBlockPrefix i (blockPrefix i n k) := by
  have hlt := blockNumber_lt hn hk
  refine ⟨rfl, ?_, ?_, ?_, hn.1, hn.2, ?_⟩
  · constructor
    · exact Int.natCast_nonneg _
    · simp only [blockPrefix, blockAddress]
      omega
  · constructor
    · exact Int.natCast_nonneg _
    · simp only [blockPrefix, blockAddress]
      omega
  · constructor
    · exact Int.natCast_nonneg _
    · simp only [blockPrefix, blockAddress]
      omega
  · -- both summands of the number are multiples of the block size
    have hexp : 24 = (n - 8) + (32 - n) := by unfold IsLength at hn; omega
    have hfirst : (i * 2 ^ 24 : Int) = i * 2 ^ (n - 8) * (blockSize n : Nat) := by
      rw [blockSize, hexp, pow_add]
      push_cast
      ring
    rw [NoHostBit, blockPrefix, number_blockAddress, hfirst]
    have hsum : i * 2 ^ (n - 8) * (blockSize n : Nat) + ((k * blockSize n : Nat) : Int) =
        (i * 2 ^ (n - 8) + k) * (blockSize n : Nat) := by
      push_cast
      ring
    rw [hsum]
    exact Int.mul_emod_left _ _

/-- A prefix of the node is one of the blocks of its length. -/
theorem exists_blockPrefix {i : Int} {p : IpAttr × Nat} (h : IsBlockPrefix i p) :
    ∃ k < 2 ^ (p.2 - 8), p = blockPrefix i p.2 k := by
  obtain ⟨⟨a, b, c, d⟩, n⟩ := p
  obtain ⟨rfl, hb, hc, hd, hmin, hmax, hhost⟩ := h
  obtain ⟨b, rfl⟩ := Int.eq_ofNat_of_zero_le hb.1
  obtain ⟨c, rfl⟩ := Int.eq_ofNat_of_zero_le hc.1
  obtain ⟨d, rfl⟩ := Int.eq_ofNat_of_zero_le hd.1
  have hlt : ∀ m : Nat, (m : Int) ≤ 255 → m < 256 := fun m hm => by omega
  have hb' : b < 256 := hlt b hb.2
  have hc' : c < 256 := hlt c hc.2
  have hd' : d < 256 := hlt d hd.2
  have haddress := blockAddress_octets a (b := b) hc' hd'
  have hx : b * 65536 + c * 256 + d < 2 ^ 24 := by omega
  generalize b * 65536 + c * 256 + d = x at haddress hx
  have hexp : 24 = (n - 8) + (32 - n) := by omega
  -- the block size divides the number of the address, and with it the last three octets
  have hdvd : blockSize n ∣ x := by
    rw [NoHostBit, ← haddress, number_blockAddress] at hhost
    have hfirst : ((2 ^ (32 - n) : Nat) : Int) ∣ a * 2 ^ 24 := by
      rw [hexp, pow_add]
      push_cast
      exact ⟨a * 2 ^ (n - 8), by ring⟩
    have hlast := (Int.dvd_add_right hfirst).mp (Int.dvd_of_emod_eq_zero hhost)
    exact Int.natCast_dvd_natCast.mp hlast
  obtain ⟨k, rfl⟩ := hdvd
  refine ⟨k, ?_, ?_⟩
  · have hsplit : 2 ^ 24 = blockSize n * 2 ^ (n - 8) := by
      rw [blockSize, ← Nat.pow_add, Nat.add_comm, ← hexp]
    rw [hsplit] at hx
    exact Nat.lt_of_mul_lt_mul_left hx
  · simp only [blockPrefix, Nat.mul_comm k]
    rw [haddress]

theorem isBlockList_allPrefixes {i : Int} (hi : 2 ≤ i) : IsBlockList i (allPrefixes i) := by
  have hlength : ∀ n ∈ List.range' 8 24, IsLength n := by
    intro n hn
    have hmem := List.mem_range'_1.mp hn
    unfold IsLength
    omega
  rw [allPrefixes_eq hi]
  constructor
  · intro p
    simp only [List.mem_flatMap, List.mem_map, List.mem_range]
    constructor
    · rintro ⟨n, hn, k, hk, rfl⟩
      exact isBlockPrefix_blockPrefix i (hlength n hn) hk
    · intro h
      obtain ⟨k, hk, heq⟩ := exists_blockPrefix h
      obtain ⟨-, -, -, -, hmin, hmax, -⟩ := h
      exact ⟨p.2, List.mem_range'_1.mpr ⟨hmin, by omega⟩, k, hk, heq.symm⟩
  · apply List.pairwise_flatMap.mpr
    constructor
    · intro n hn
      rw [List.pairwise_map]
      refine List.pairwise_lt_range.imp_of_mem fun {k l} hk hl hlt => .inr ⟨rfl, ?_⟩
      have hpos : 0 < blockSize n := Nat.pow_pos (by decide)
      have hmul : k * blockSize n < l * blockSize n := Nat.mul_lt_mul_of_pos_right hlt hpos
      rw [blockPrefix, blockPrefix, number_blockAddress, number_blockAddress]
      omega
    · have hsorted : (List.range' 8 24).Pairwise (· < ·) := List.pairwise_lt_range' 1
      refine hsorted.imp fun {m n} hlt => ?_
      intro x hx y hy
      obtain ⟨k, -, rfl⟩ := List.mem_map.mp hx
      obtain ⟨l, -, rfl⟩ := List.mem_map.mp hy
      exact .inl hlt

theorem length_allPrefixes {i : Int} (hi : 2 ≤ i) : (allPrefixes i).length = 2 ^ 24 - 1 := by
  rw [allPrefixes_eq hi, List.length_flatMap]
  simp only [List.length_map, List.length_range]
  decide

theorem IsBlockList.nodup {i : Int} {ps : List (IpAttr × Nat)} (h : IsBlockList i ps) : ps.Nodup := by
  refine h.sorted.imp ?_
  rintro p p' hbefore rfl
  rcases hbefore with hlt | ⟨-, hlt⟩
  · exact Nat.lt_irrefl _ hlt
  · exact Int.lt_irrefl _ hlt

end SrxNote.Emulator.PrefixLoops
