import Mathlib.Data.List.Basic

/-!
# Lines, words and numbers of a text

A text is a list of characters. `lines` cuts it at the line ends and `words` cuts a
line at its blanks; what was put together with line ends and single blanks is read
back by them (`lines_unlines_append`, `words_spaced`). Numbers are written and read in base 10.
-/

namespace SrxNote.Text

/-- `isspace` in the C locale. -/
def isBlank (c : Char) : Bool :=
  c = ' ' ∨ c = '\t' ∨ c = '\n' ∨ c = '\x0b' ∨ c = '\x0c' ∨ c = '\r'

def lines (t : List Char) : List (List Char) := t.splitOn '\n'

def words (l : List Char) : List (List Char) := (l.splitOnP isBlank).filter (· ≠ [])

/-- A word: not empty and without blanks. -/
def IsWord (w : List Char) : Prop := w ≠ [] ∧ ∀ c ∈ w, isBlank c = false

instance (w : List Char) : Decidable (IsWord w) :=
  @instDecidableAnd _ _ _ (List.decidableBAll _ w)

/-- The words with a blank before each. -/
def spaced (ws : List (List Char)) : List Char := ws.flatMap (' ' :: ·)

/-- The lines with a line end behind each. -/
def unlines (ls : List (List Char)) : List Char := ls.flatMap (· ++ ['\n'])

theorem lines_cons {l : List Char} (hl : '\n' ∉ l) (t : List Char) :
    lines (l ++ '\n' :: t) = l :: lines t :=
  List.splitOn_append_cons_self_of_not_mem hl t

theorem unlines_append (ls ls' : List (List Char)) : unlines (ls ++ ls') = unlines ls ++ unlines ls' :=
  List.flatMap_append

theorem lines_unlines_append {ls : List (List Char)} (h : ∀ l ∈ ls, '\n' ∉ l) (t : List Char) :
    lines (unlines ls ++ t) = ls ++ lines t := by
  induction ls with
  | nil => rfl
  | cons l ls ih =>
      have hfirst : unlines (l :: ls) ++ t = l ++ '\n' :: (unlines ls ++ t) := by simp [unlines]
      have ih := ih fun l' hl' => h l' (List.mem_cons_of_mem l hl')
      rw [hfirst, lines_cons (h l List.mem_cons_self), ih]
      rfl

theorem IsWord.no_lineEnd {w : List Char} (h : IsWord w) : '\n' ∉ w := by
  intro hmem
  have hblank := h.2 '\n' hmem
  exact absurd hblank (by decide)

theorem spaced_no_lineEnd {ws : List (List Char)} (hws : ∀ w ∈ ws, IsWord w) : '\n' ∉ spaced ws := by
  intro hmem
  obtain ⟨w, hw, hc⟩ := List.mem_flatMap.mp hmem
  rcases List.mem_cons.mp hc with heq | hc
  · exact absurd heq (by decide)
  · exact (hws w hw).no_lineEnd hc

@[simp] theorem words_nil : words [] = [] := by
  simp [words]

theorem words_cons_blank {c : Char} (hc : isBlank c = true) (l : List Char) :
    words (c :: l) = words l := by
  simp [words, List.splitOnP_cons_eq_if_modifyHead, hc]

/-- The first character of a line that begins with a word is the first one of its first word. -/
theorem words_cons_of_not_blank {c : Char} (hc : isBlank c = false) (l : List Char) :
    ∃ w ws, words (c :: l) = (c :: w) :: ws := by
  obtain ⟨w, ws, hsplit⟩ := List.exists_cons_of_ne_nil (List.splitOnP_ne_nil isBlank l)
  refine ⟨w, ws.filter (· ≠ []), ?_⟩
  simp [words, List.splitOnP_cons_eq_if_modifyHead, hc, hsplit]

/-- A word behind a blank is split off. -/
theorem words_blank_append {w : List Char} (hw : IsWord w) (l : List Char) :
    words (' ' :: (w ++ ' ' :: l)) = w :: words (' ' :: l) := by
  have hblank : isBlank ' ' = true := by decide
  rw [words_cons_blank hblank, words_cons_blank hblank]
  simp [words, List.splitOnP_append_cons_of_forall_mem hw.2 ' ' hblank, hw.1]

theorem words_blank_single {w : List Char} (hw : IsWord w) : words (' ' :: w) = [w] := by
  rw [words_cons_blank (by decide)]
  simp [words, List.splitOnP_eq_singleton hw.2, hw.1]

theorem words_spaced {ws : List (List Char)} (hws : ∀ w ∈ ws, IsWord w) : words (spaced ws) = ws := by
  induction ws with
  | nil => exact words_nil
  | cons w ws ih =>
      have hw := hws w List.mem_cons_self
      have ih := ih fun v hv => hws v (List.mem_cons_of_mem w hv)
      cases ws with
      | nil =>
          have hone : spaced [w] = ' ' :: w := by simp [spaced]
          rw [hone]
          exact words_blank_single hw
      | cons v ws =>
          have hmore : spaced (w :: v :: ws) = ' ' :: (w ++ ' ' :: (v ++ spaced ws)) := by
            simp [spaced]
          have hrest : spaced (v :: ws) = ' ' :: (v ++ spaced ws) := by simp [spaced]
          rw [hmore, words_blank_append hw, ← hrest, ih]

/-! ### Numbers -/

/-- `%u`. -/
def decimal (n : Nat) : List Char := Nat.toDigits 10 n

/-- The number that a word of digits stands for. -/
def readDecimal (w : List Char) : Option Nat :=
  if w ≠ [] ∧ w.all Char.isDigit then some (Nat.ofDigitChars 10 w 0) else none

theorem decimal_isDigit {n : Nat} {c : Char} (h : c ∈ decimal n) : c.isDigit = true :=
  Nat.isDigit_of_mem_toDigits (by decide) (by decide) h

theorem decimal_no_dot (n : Nat) : '.' ∉ decimal n := by
  intro h
  exact absurd (decimal_isDigit h) (by decide)

@[simp] theorem readDecimal_decimal (n : Nat) : readDecimal (decimal n) = some n := by
  have hdigits : (decimal n).all Char.isDigit = true :=
    List.all_eq_true.mpr fun c hc => decimal_isDigit hc
  have hne : decimal n ≠ [] := Nat.toDigits_ne_nil
  simp only [readDecimal, hdigits, hne, ne_eq, not_false_eq_true, and_self, if_true]
  exact congrArg some Nat.ofDigitChars_ten_toDigits

theorem decimal_injective {m n : Nat} (h : decimal m = decimal n) : m = n := by
  have hread : readDecimal (decimal m) = readDecimal (decimal n) := by rw [h]
  rw [readDecimal_decimal, readDecimal_decimal] at hread
  exact Option.some.inj hread

theorem isBlank_of_isDigit {c : Char} (h : c.isDigit = true) : isBlank c = false := by
  by_contra hblank
  simp only [isBlank, decide_eq_true_eq, Bool.not_eq_false] at hblank
  rcases hblank with rfl | rfl | rfl | rfl | rfl | rfl <;> exact absurd h (by decide)

theorem isWord_decimal (n : Nat) : IsWord (decimal n) :=
  ⟨Nat.toDigits_ne_nil, fun _ hc => isBlank_of_isDigit (decimal_isDigit hc)⟩

end SrxNote.Text
