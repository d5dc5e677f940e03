import Mathlib.Algebra.Order.Ring.Int
import Mathlib.Data.Int.Notation
import Mathlib.Data.List.TakeWhile
import SrxNote.Misc.Text

/-!
# Reading numbers as the C library does

`strtol`, `strtoul` and `atoi` in base 10, where `long` has 64 bits and `int` has 32:
blanks, a sign, and the digits up to the first other character. A number that does
not fit is cut off at the end of the range.
-/

namespace SrxNote.Text

/-- The sign, and what follows it. -/
def readSign : List Char → Bool × List Char
  | '-' :: s => (true, s)
  | '+' :: s => (false, s)
  | s => (false, s)

/-- The digits at the beginning. -/
def leadingDigits (s : List Char) : Nat := Nat.ofDigitChars 10 (s.takeWhile Char.isDigit) 0

/-- The number at the beginning of a string, without a bound. -/
def readInteger (s : List Char) : Int :=
  let (negative, rest) := readSign (s.dropWhile isBlank)
  if negative then -(leadingDigits rest : Int) else leadingDigits rest

def strtol (s : List Char) : Int := max (-2 ^ 63) (min (2 ^ 63 - 1) (readInteger s))

/-- A number behind a minus sign is negated in the unsigned type. -/
def strtoul (s : List Char) : Nat :=
  if (readInteger s).natAbs < 2 ^ 64 then (readInteger s % 2 ^ 64).toNat else 2 ^ 64 - 1

/-- `(int) strtol(s, NULL, 10)`. -/
def atoi (s : List Char) : Int := (strtol s).bmod (2 ^ 32)

/-- Digits, with a sign or without one, and the number they stand for. -/
inductive IsInteger : List Char → Int → Prop
  | plain {ds : List Char} : ds ≠ [] → (∀ c ∈ ds, c.isDigit = true) →
      IsInteger ds (Nat.ofDigitChars 10 ds 0)
  | plus {ds : List Char} : ds ≠ [] → (∀ c ∈ ds, c.isDigit = true) →
      IsInteger ('+' :: ds) (Nat.ofDigitChars 10 ds 0)
  | minus {ds : List Char} : ds ≠ [] → (∀ c ∈ ds, c.isDigit = true) →
      IsInteger ('-' :: ds) (-(Nat.ofDigitChars 10 ds 0 : Int))

theorem leadingDigits_of_digits {ds : List Char} (h : ∀ c ∈ ds, c.isDigit = true) :
    leadingDigits ds = Nat.ofDigitChars 10 ds 0 := by
  rw [leadingDigits, List.takeWhile_eq_self_iff.mpr h]

/-- A string of digits has no blank and no sign in front. -/
theorem readInteger_of_digits {ds : List Char} (hne : ds ≠ []) (h : ∀ c ∈ ds, c.isDigit = true) :
    readInteger ds = Nat.ofDigitChars 10 ds 0 := by
  obtain ⟨c, ds, rfl⟩ := List.exists_cons_of_ne_nil hne
  have hc : c.isDigit = true := h c List.mem_cons_self
  have hblank : (c :: ds).dropWhile isBlank = c :: ds := by
    rw [List.dropWhile_cons_of_neg]
    simp [isBlank_of_isDigit hc]
  have hsign : readSign (c :: ds) = (false, c :: ds) := by
    unfold readSign
    split
    · rename_i heq
      obtain ⟨rfl, -⟩ := List.cons.inj heq
      exact absurd hc (by decide)
    · rename_i heq
      obtain ⟨rfl, -⟩ := List.cons.inj heq
      exact absurd hc (by decide)
    · rfl
  rw [readInteger, hblank, hsign]
  simp [leadingDigits_of_digits h]

theorem readInteger_of_isInteger {s : List Char} {n : Int} (h : IsInteger s n) : readInteger s = n := by
  cases h with
  | plain hne hds => exact readInteger_of_digits hne hds
  | plus hne hds =>
      have hblank : isBlank '+' = false := by decide
      simp [readInteger, hblank, readSign, leadingDigits_of_digits hds]
  | minus hne hds =>
      have hblank : isBlank '-' = false := by decide
      simp [readInteger, hblank, readSign, leadingDigits_of_digits hds]

/-- `atoi` of an integer in the range of `int`. -/
theorem atoi_of_isInteger {s : List Char} {n : Int} (h : IsInteger s n) (hmin : -2 ^ 31 ≤ n)
    (hmax : n < 2 ^ 31) : atoi s = n := by
  have hlong : strtol s = n := by
    rw [strtol, readInteger_of_isInteger h]
    omega
  rw [atoi, hlong]
  exact Int.bmod_eq_of_le (by omega) (by omega)

theorem strtoul_of_digits {ds : List Char} (hne : ds ≠ []) (h : ∀ c ∈ ds, c.isDigit = true)
    (hmax : Nat.ofDigitChars 10 ds 0 < 2 ^ 64) : strtoul ds = Nat.ofDigitChars 10 ds 0 := by
  have hmod : (Nat.ofDigitChars 10 ds 0 : Int) % 2 ^ 64 = Nat.ofDigitChars 10 ds 0 := by omega
  rw [strtoul, readInteger_of_digits hne h, Int.natAbs_natCast, if_pos hmax, hmod, Int.toNat_natCast]

end SrxNote.Text
