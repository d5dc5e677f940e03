import Mathlib.Data.Nat.Notation

/-!
# While loops

A `while` loop is a step function that either goes on with a new state or
leaves with a result. `run` executes it with fuel; `Eval` is its big-step
meaning, and `run_iff_eval` says that the two agree once the fuel suffices.
`Eval.unique` says that there is one result, and `not_halts_of_invariant` proves
divergence.
-/

namespace SrxNote

/-- What one pass over a loop's condition and body does. -/
inductive Step (σ ρ : Type) where
  | next (s : σ)
  | done (r : ρ)

namespace Loop

variable {σ ρ : Type} {step : σ → Step σ ρ}

/-- The loop run from `s` for at most the given number of passes; `none` when the fuel is
    used up. -/
def run (step : σ → Step σ ρ) : Nat → σ → Option ρ
  | 0, _ => none
  | fuel + 1, s =>
      match step s with
      | .next s' => run step fuel s'
      | .done r => some r

/-- The loop started in `s` is left with result `r`. -/
inductive Eval (step : σ → Step σ ρ) : σ → ρ → Prop
  | done {s : σ} {r : ρ} : step s = .done r → Eval step s r
  | next {s s' : σ} {r : ρ} : step s = .next s' → Eval step s' r → Eval step s r

/-- The loop started in `s` is left at all. -/
def Halts (step : σ → Step σ ρ) (s : σ) : Prop := ∃ r, Eval step s r

theorem eval_of_run {fuel : Nat} {s : σ} {r : ρ} (h : run step fuel s = some r) :
    Eval step s r := by
  induction fuel generalizing s with
  | zero => simp [run] at h
  | succ fuel ih =>
      cases hs : step s with
      | next s' =>
          simp only [run, hs] at h
          exact .next hs (ih h)
      | done r' =>
          simp only [run, hs, Option.some.injEq] at h
          subst h
          exact .done hs

theorem run_succ {fuel : Nat} {s : σ} {r : ρ} (h : run step fuel s = some r) :
    run step (fuel + 1) s = some r := by
  induction fuel generalizing s with
  | zero => simp [run] at h
  | succ fuel ih =>
      rw [run]
      cases hs : step s with
      | next s' =>
          simp only [run, hs] at h
          exact ih h
      | done r' =>
          simp only [run, hs] at h
          exact h

/-- More fuel does not change a result. -/
theorem run_mono {fuel fuel' : Nat} (hle : fuel ≤ fuel') {s : σ} {r : ρ}
    (h : run step fuel s = some r) : run step fuel' s = some r := by
  induction hle with
  | refl => exact h
  | step _ ih => exact run_succ ih

/-- Some fuel gives the result of the loop, and no other one. -/
theorem run_iff_eval {s : σ} {r : ρ} : (∃ fuel, run step fuel s = some r) ↔ Eval step s r := by
  constructor
  · rintro ⟨fuel, h⟩
    exact eval_of_run h
  · intro h
    induction h with
    | done hs => exact ⟨1, by simp [run, hs]⟩
    | next hs _ ih =>
        obtain ⟨fuel, hf⟩ := ih
        exact ⟨fuel + 1, by simp [run, hs, hf]⟩

theorem Eval.unique {s : σ} {r r' : ρ} (h : Eval step s r) (h' : Eval step s r') : r = r' := by
  induction h with
  | done hs =>
      cases h' with
      | done hs' => rw [hs] at hs'; cases hs'; rfl
      | next hs' _ => rw [hs] at hs'; cases hs'
  | next hs _ ih =>
      cases h' with
      | done hs' => rw [hs] at hs'; cases hs'
      | next hs' ht => rw [hs] at hs'; cases hs'; exact ih ht

theorem halts_done {s : σ} {r : ρ} (hs : step s = .done r) : Halts step s := ⟨r, .done hs⟩

theorem halts_next {s s' : σ} (hs : step s = .next s') : Halts step s ↔ Halts step s' := by
  constructor
  · rintro ⟨r, h⟩
    cases h with
    | done hs' => rw [hs] at hs'; cases hs'
    | next hs' ht =>
        rw [hs] at hs'
        cases hs'
        exact ⟨r, ht⟩
  · rintro ⟨r, h⟩
    exact ⟨r, .next hs h⟩

/-- A loop that goes on from every state of an invariant is never left. -/
theorem not_halts_of_invariant {I : σ → Prop}
    (hI : ∀ s, I s → ∃ s', step s = .next s' ∧ I s') {s : σ} (hs : I s) : ¬ Halts step s := by
  rintro ⟨r, h⟩
  induction h with
  | done hstep =>
      obtain ⟨s', hnext, -⟩ := hI _ hs
      rw [hstep] at hnext
      cases hnext
  | next hstep _ ih =>
      obtain ⟨s', hnext, hI'⟩ := hI _ hs
      rw [hstep] at hnext
      cases hnext
      exact ih hI'

end Loop

end SrxNote
