import SrxNote.Misc.Text

/-!
# Statements of a text

A pattern is a list of words, some of which are left open. `statements` reads every
line of a text that has the words of a pattern, and returns the words in the open
places. A text that was put together line by line is read line by line
(`Says.statements_eq`).
-/

namespace SrxNote.Text

/-- Words, and `none` for a place that is open. -/
abbrev Pattern := List (Option (List Char))

/-- The words in the open places, when all other words are those of the pattern. -/
def matchWords : Pattern → List (List Char) → Option (List (List Char))
  | [], [] => some []
  | some k :: ps, w :: ws => if k = w then matchWords ps ws else none
  | none :: ps, w :: ws => (matchWords ps ws).map (w :: ·)
  | _, _ => none

/-- The lines of a text that have the words of the pattern. -/
def statements (p : Pattern) (t : List Char) : List (List (List Char)) :=
  (lines t).filterMap fun l => matchWords p (words l)

/-! ### The words of a line -/

/-- A blank separates words. -/
theorem words_append (l l' : List Char) : words (l ++ ' ' :: l') = words l ++ words l' := by
  have hblank : isBlank ' ' = true := by decide
  rw [words, words, words, List.splitOnP_append_cons l l' hblank, List.filter_append]

theorem words_of_isWord {w : List Char} (h : IsWord w) : words w = [w] := by
  have hblank : isBlank ' ' = true := by decide
  rw [← words_cons_blank hblank, words_blank_single h]

/-- The words of a line. -/
def Line (l : List Char) (ws : List (List Char)) : Prop := '\n' ∉ l ∧ words l = ws

instance (l : List Char) (ws : List (List Char)) : Decidable (Line l ws) :=
  inferInstanceAs (Decidable (_ ∧ _))

theorem Line.nil : Line [] [] := ⟨List.not_mem_nil, words_nil⟩

theorem Line.word {w : List Char} (h : IsWord w) : Line w [w] := ⟨h.no_lineEnd, words_of_isWord h⟩

theorem Line.append {l l' : List Char} {ws ws' : List (List Char)} (h : Line l ws)
    (h' : Line l' ws') : Line (l ++ ' ' :: l') (ws ++ ws') := by
  refine ⟨fun hmem => ?_, ?_⟩
  · rcases List.mem_append.mp hmem with hmem | hmem
    · exact h.1 hmem
    · rcases List.mem_cons.mp hmem with heq | hmem
      · exact absurd heq (by decide)
      · exact h'.1 hmem
  · rw [words_append, h.2, h'.2]

/-- A line that begins with another word does not match. -/
theorem matchWords_of_ne {k w : List Char} (h : k ≠ w) (p : Pattern) (ws : List (List Char)) :
    matchWords (some k :: p) (w :: ws) = none := by
  rw [matchWords, if_neg h]

/-- None of the patterns is the line's. -/
def Silent (ps : List Pattern) (ws : List (List Char)) : Prop := ∀ p ∈ ps, matchWords p ws = none

instance (ps : List Pattern) (ws : List (List Char)) : Decidable (Silent ps ws) :=
  inferInstanceAs (Decidable (∀ p ∈ ps, _))

/-! ### The lines of a text -/

/-- The text is a list of lines with a line end behind each, and to the patterns it says what the lines
    of the words `wss` say. -/
def Says (ps : List Pattern) (t : List Char) (wss : List (List (List Char))) : Prop :=
  ∃ ls, t = unlines ls ∧ (∀ l ∈ ls, '\n' ∉ l) ∧
    ∀ p ∈ ps, (ls.map words).filterMap (matchWords p) = wss.filterMap (matchWords p)

variable {ps : List Pattern}

theorem Says.congr {t t' : List Char} {wss : List (List (List Char))} (h : Says ps t wss)
    (ht : t' = t) : Says ps t' wss := by
  rw [ht]
  exact h

theorem Says.nil : Says ps [] [] := ⟨[], rfl, by simp, fun _ _ => rfl⟩

theorem Says.cons {l t : List Char} {ws : List (List Char)} {wss : List (List (List Char))}
    (hl : Line l ws) (ht : Says ps t wss) : Says ps (l ++ '\n' :: t) (ws :: wss) := by
  obtain ⟨ls, rfl, hls, hsaid⟩ := ht
  refine ⟨l :: ls, by simp [unlines], List.forall_mem_cons.mpr ⟨hl.1, hls⟩, fun p hp => ?_⟩
  rw [List.map_cons, hl.2, List.filterMap_cons, List.filterMap_cons, hsaid p hp]

/-- A line that none of the patterns has. -/
theorem Says.skip {l t : List Char} {ws : List (List Char)} {wss : List (List (List Char))}
    (hl : Line l ws) (hws : Silent ps ws) (ht : Says ps t wss) : Says ps (l ++ '\n' :: t) wss := by
  obtain ⟨ls, htext, hls, hsaid⟩ := Says.cons hl ht
  refine ⟨ls, htext, hls, fun p hp => ?_⟩
  rw [hsaid p hp, List.filterMap_cons, hws p hp]

theorem Says.append {t t' : List Char} {wss wss' : List (List (List Char))} (h : Says ps t wss)
    (h' : Says ps t' wss') : Says ps (t ++ t') (wss ++ wss') := by
  obtain ⟨ls, rfl, hls, hsaid⟩ := h
  obtain ⟨ls', rfl, hls', hsaid'⟩ := h'
  refine ⟨ls ++ ls', (unlines_append ls ls').symm, fun l hl => ?_, fun p hp => ?_⟩
  · rcases List.mem_append.mp hl with hl | hl
    · exact hls l hl
    · exact hls' l hl
  · rw [List.map_append, List.filterMap_append, List.filterMap_append, hsaid p hp, hsaid' p hp]

theorem Says.append_silent {t t' : List Char} {wss : List (List (List Char))} (h : Says ps t wss)
    (h' : Says ps t' []) : Says ps (t ++ t') wss := by
  have happend := h.append h'
  rw [List.append_nil] at happend
  exact happend

theorem Says.flatMap {α : Type} {as : List α} {t : α → List Char}
    {wss : α → List (List (List Char))} (h : ∀ a ∈ as, Says ps (t a) (wss a)) :
    Says ps (as.flatMap t) (as.flatMap wss) := by
  induction as with
  | nil => exact Says.nil
  | cons a as ih =>
      rw [List.flatMap_cons, List.flatMap_cons]
      exact (h a List.mem_cons_self).append (ih fun b hb => h b (List.mem_cons_of_mem a hb))

theorem Says.ite {t t' : List Char} {wss wss' : List (List (List Char))} {c : Prop} [Decidable c]
    (h : Says ps t wss) (h' : Says ps t' wss') :
    Says ps (if c then t else t') (if c then wss else wss') := by
  split
  · exact h
  · exact h'

/-- A text that is there on a condition. -/
theorem Says.ite_silent {t : List Char} {c : Prop} [Decidable c] (h : Says ps t []) :
    Says ps (if c then t else []) [] := by
  have hite : Says ps (if c then t else []) (if c then [] else []) := h.ite Says.nil
  rw [ite_self] at hite
  exact hite

/-- The statements of the text are those of the words. -/
theorem Says.statements_eq {t : List Char} {wss : List (List (List Char))} (h : Says ps t wss)
    {p : Pattern} (hp : p ∈ ps) (hne : p ≠ []) :
    statements p t = wss.filterMap (matchWords p) := by
  obtain ⟨ls, rfl, hls, hsaid⟩ := h
  have hnil : matchWords p (words []) = none := by
    rw [words_nil]
    cases p with
    | nil => exact absurd rfl hne
    | cons k ps => cases k <;> rfl
  have hlines := lines_unlines_append hls []
  rw [List.append_nil] at hlines
  have hempty : lines [] = [[]] := rfl
  rw [statements, hlines, hempty, List.filterMap_append, ← hsaid p hp, List.filterMap_map]
  simp only [List.filterMap_cons, hnil, List.filterMap_nil, List.append_nil]
  rfl

end SrxNote.Text
