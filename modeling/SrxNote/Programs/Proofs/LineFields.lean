import Mathlib.Data.List.Basic
import SrxNote.Programs.AsRelationship

/-!
# The fields of one line

`strsep` cuts a line at its delimiters, and the loop stores one pointer for each
token and a NULL behind the last. The index is tested after the assignment, so the
array of five holds the tokens and the NULL of a line with at most three
delimiters; with fewer than two the NULL is one of the fields that are converted.
-/

namespace SrxNote.Programs.AsRelationship

open Text

/-- The tokens of a line. -/
def tokens (s : List Char) : List (List Char) := s.splitOnP isDelimiter

theorem length_tokens (s : List Char) : (tokens s).length = s.countP isDelimiter + 1 := by
  unfold tokens
  induction s with
  | nil => simp
  | cons c s ih =>
      rw [List.splitOnP_cons_eq_if_modifyHead, List.countP_cons]
      by_cases hc : isDelimiter c = true
      · simp [hc, ih]
      · simp [hc, ih]

/-- `strsep` takes the first token; the string is used up when there is no delimiter behind it. -/
theorem strsep_some (s : List Char) :
    ∃ t, (strsep (some s)).1 = some t ∧
      tokens s = t :: ((strsep (some s)).2.map tokens).getD [] := by
  refine ⟨_, rfl, ?_⟩
  have hsplit := List.takeWhile_append_dropWhile (p := fun c => ¬ isDelimiter c) (l := s)
  have hfree : ∀ c ∈ s.takeWhile (fun c => ¬ isDelimiter c), isDelimiter c = false := by
    intro c hc
    simpa using List.mem_takeWhile_imp hc
  rw [strsep]
  cases hrest : s.dropWhile (fun c => ¬ isDelimiter c) with
  | nil =>
      rw [hrest, List.append_nil] at hsplit
      rw [hsplit] at hfree
      simp only [hsplit]
      exact List.splitOnP_eq_singleton hfree
  | cons d rest =>
      have hd : isDelimiter d = true := by
        have hhead := List.head?_dropWhile_not (fun c => decide (¬ isDelimiter c)) s
        rw [hrest] at hhead
        simpa using hhead
      rw [hrest] at hsplit
      have htokens := List.splitOnP_append_cons_of_forall_mem hfree d hd rest
      rw [hsplit] at htokens
      exact htokens

/-- The pointers that the loop stores: the tokens and a NULL, as far as the test of the index lets
    it come. -/
def stored (s : List Char) : List CharPtr := ((tokens s).map some ++ [none]).take (numFields + 1)

/-- The values as writes from index `i` on. -/
def writesFrom (i : Nat) (values : List CharPtr) : List (Nat × CharPtr) :=
  (values.zipIdx i).map Prod.swap

theorem writesFrom_cons (i : Nat) (v : CharPtr) (values : List CharPtr) :
    writesFrom i (v :: values) = (i, v) :: writesFrom (i + 1) values := rfl

theorem splitFields_none {i : Nat} : splitFields none i = [(i, none)] := by
  rw [splitFields, strsep]
  simp

theorem splitFields_some {i room : Nat} (hi : i + room = numFields) (s : List Char) :
    splitFields (some s) i = writesFrom i (((tokens s).map some ++ [none]).take (room + 1)) := by
  induction room generalizing i s with
  | zero =>
      obtain ⟨t, ht, htokens⟩ := strsep_some s
      have hlast : ¬ i < numFields := by omega
      rw [splitFields, ht, htokens]
      simp [hlast, writesFrom]
  | succ room ih =>
      obtain ⟨t, ht, htokens⟩ := strsep_some s
      have hlt : i < numFields := by omega
      rw [splitFields, ht, htokens, if_pos ⟨by simp, hlt⟩, List.map_cons, List.cons_append,
        List.take_succ_cons, writesFrom_cons]
      cases hrest : (strsep (some s)).2 with
      | none => simp [splitFields_none, writesFrom]
      | some rest =>
          rw [ih (by omega) rest]
          simp

theorem splitFields_zero (s : List Char) : splitFields (some s) 0 = writesFrom 0 (stored s) :=
  splitFields_some (Nat.zero_add _) s

/-- The writes hit exactly the indices from `i` on. -/
theorem index_lt_iff {i n : Nat} {values : List CharPtr} (hi : i < n) :
    (∀ w ∈ writesFrom i values, w.1 < n) ↔ i + values.length ≤ n := by
  induction values generalizing i with
  | nil => simp [writesFrom]; omega
  | cons v values ih =>
      rw [writesFrom_cons, List.forall_mem_cons, List.length_cons]
      by_cases hlast : i + 1 < n
      · rw [ih hlast]
        omega
      · cases values with
        | nil => exact iff_of_true ⟨hi, fun w hw => (nomatch hw)⟩ hi
        | cons v' values =>
            rw [writesFrom_cons, List.forall_mem_cons]
            simp only [List.length_cons]
            omega

/-- Writes behind an index leave it alone. -/
theorem applyWrites_before (field : Fields) {i j : Nat} (hj : j < i) (values : List CharPtr) :
    (applyWrites field (writesFrom i values))[j]? = field[j]? := by
  induction values generalizing field i with
  | nil => rfl
  | cons v values ih =>
      have hne : i ≠ j := Nat.ne_of_gt hj
      have hrest := ih (field.setIfInBounds i v) (Nat.lt_succ_of_lt hj)
      rw [Vector.getElem?_setIfInBounds_ne hne] at hrest
      exact hrest

theorem applyWrites_get (field : Fields) {i k : Nat} {v : CharPtr} {values : List CharPtr}
    (hv : values[k]? = some v) (hk : i + k < numFields) :
    (applyWrites field (writesFrom i values))[i + k]? = some v := by
  induction values generalizing field i k with
  | nil => simp at hv
  | cons v' values ih =>
      cases k with
      | zero =>
          obtain rfl : v' = v := by simpa using hv
          have hk : i < numFields := hk
          have hrest := applyWrites_before (field.setIfInBounds i v') (Nat.lt_succ_self i) values
          rw [Vector.getElem?_setIfInBounds_self_of_lt hk] at hrest
          exact hrest
      | succ k =>
          have hrest := ih (i := i + 1) (field.setIfInBounds i v') (by simpa using hv) (by omega)
          rw [show i + (k + 1) = i + 1 + k by omega]
          exact hrest

/-! ### What is stored -/

theorem length_stored (s : List Char) :
    (stored s).length = min (numFields + 1) ((tokens s).length + 1) := by
  simp [stored]

theorem stored_token {s : List Char} {k : Nat} {t : List Char} (ht : (tokens s)[k]? = some t)
    (hk : k ≤ numFields) : (stored s)[k]? = some (some t) := by
  have hlt : k < (tokens s).length := (List.getElem?_eq_some_iff.mp ht).1
  rw [stored, List.getElem?_take_of_lt (by omega), List.getElem?_append_left (by simpa using hlt)]
  simp [ht]

theorem stored_null {s : List Char} (h : (tokens s).length ≤ numFields) :
    (stored s)[(tokens s).length]? = some none := by
  rw [stored, List.getElem?_take_of_lt (by omega),
    List.getElem?_append_right (by simp)]
  simp

theorem writes_inside_iff (s : List Char) :
    (∀ w ∈ splitFields (some s) 0, w.1 < numFields) ↔ (tokens s).length ≤ 4 := by
  rw [splitFields_zero, index_lt_iff (by decide), length_stored]
  unfold numFields
  omega

theorem field_token (field : Fields) {s : List Char} {k : Nat} {t : List Char}
    (ht : (tokens s)[k]? = some t) (hk : k < numFields) :
    (applyWrites field (splitFields (some s) 0))[k]? = some (some t) := by
  rw [splitFields_zero]
  simpa using applyWrites_get (i := 0) field (stored_token ht (Nat.le_of_lt hk)) (by omega)

theorem field_null (field : Fields) {s : List Char} (h : (tokens s).length < numFields) :
    (applyWrites field (splitFields (some s) 0))[(tokens s).length]? = some none := by
  rw [splitFields_zero]
  simpa using applyWrites_get (i := 0) field (stored_null (Nat.le_of_lt h)) (by omega)

/-! ### The splitter stays inside -/

/-- For a line whose fields are converted, every write is inside the array, and the fields 0, 1 and
    2 are strings of this line; `field` is what earlier lines have left. -/
def SplitterSafe (field : Fields) (line : List Char) : Prop :=
  (cString line).head?.any Char.isDigit →
    (∀ w ∈ splitFields (some (cString line)) 0, w.1 < numFields) ∧
    ∀ j < 3, ∃ t ∈ tokens (cString line),
      (applyWrites field (splitFields (some (cString line)) 0))[j]? = some (some t)

/-- The line is skipped, or it has two or three delimiters. -/
def FewDelimiters (line : List Char) : Prop :=
  (cString line).head?.any Char.isDigit →
    2 ≤ (cString line).countP isDelimiter ∧ (cString line).countP isDelimiter ≤ 3

theorem splitter_safe_iff (field : Fields) (line : List Char) :
    SplitterSafe field line ↔ FewDelimiters line := by
  have hlen := length_tokens (cString line)
  refine imp_congr_right fun _ => ?_
  rw [writes_inside_iff]
  constructor
  · rintro ⟨hmax, hfields⟩
    refine ⟨?_, by omega⟩
    by_contra hfew
    -- the NULL behind the last token is one of the fields 0, 1 and 2
    have hnull := field_null field (s := cString line) (by unfold numFields; omega)
    obtain ⟨t, -, ht⟩ := hfields (tokens (cString line)).length (by omega)
    rw [hnull] at ht
    cases ht
  · rintro ⟨hmin, hmax⟩
    refine ⟨by omega, ?_⟩
    intro j hj
    have hlt : j < (tokens (cString line)).length := by omega
    have hget := List.getElem?_eq_getElem hlt
    exact ⟨_, List.getElem_mem hlt, field_token field hget (by unfold numFields; omega)⟩

/-- A peer line in its documented form has five fields with the empty one behind its newline, and
    the NULL behind them is written outside the array. -/
theorem peerLine_not_safe :
    ¬ SplitterSafe (Vector.replicate numFields none)
      ['1', '|', '2', '|', '0', '|', 'b', 'g', 'p', '\n'] := by
  rw [splitter_safe_iff, FewDelimiters]
  decide

end SrxNote.Programs.AsRelationship
