import Mathlib.Data.List.Range
import SrxNote.Misc.Loop

/-!
# Counting loops

A `while` loop that counts a value up by a fixed step to a bound, and is left early
when a flag says so, from when on its body does nothing. It does what the body does
on all the values in turn (`CountsUp.run`).
-/

namespace SrxNote.Loop

variable {σ ρ τ : Type}

/-- The values from `v` on, `inc` apart, that are not above `max`. -/
inductive Counts (inc max : Int) : Int → List Int → Prop
  | stop {v : Int} : max < v → Counts inc max v []
  | value {v : Int} {vs : List Int} : v ≤ max → Counts inc max (v + inc) vs →
      Counts inc max v (v :: vs)

/-- Values that are `inc` apart, when the bound is passed behind the last one only. -/
theorem Counts.of_range' {inc n : Nat} {max : Int} {v : Nat} (hlast : (v + inc * (n - 1 : Nat) : Int) ≤ max)
    (hn : 0 < n) (hpast : max < (v + inc * n : Int)) :
    Counts inc max v ((List.range' v n inc).map Int.ofNat) := by
  induction n generalizing v with
  | zero => exact absurd hn (Nat.lt_irrefl 0)
  | succ n ih =>
      have hfirst : (v : Int) ≤ max := by
        have hle : (0 : Int) ≤ inc * (n + 1 - 1 : Nat) := Int.mul_nonneg (by omega) (by omega)
        omega
      rw [List.range'_succ, List.map_cons]
      refine .value hfirst ?_
      cases n with
      | zero => exact .stop (by simpa using hpast)
      | succ n =>
          have hcast : (v : Int) + inc = (v + inc : Nat) := by omega
          rw [hcast]
          refine ih ?_ (Nat.succ_pos n) ?_
          · have hmul : (inc : Int) * (n + 1 + 1 - 1 : Nat) = inc * (n + 1 - 1 : Nat) + inc := by
              simp [Int.mul_add]
            omega
          · have hmul : (inc : Int) * (n + 1 + 1 : Nat) = inc * (n + 1 : Nat) + inc := by
              simp [Int.mul_add]
            omega

/-- Each pass runs `body` on the value and counts it up; the loop is left at once when it is stopped,
    and else above the bound. `view` is what the body works on, and `I` what the passes keep. -/
structure CountsUp (step : σ → Step σ ρ) (leave : σ → ρ) (I : σ → Prop) (value : σ → Int)
    (view : σ → τ) (inc max : Int) (body : Int → τ → τ) (stopped : τ → Prop) : Prop where
  again : ∀ s, I s → value s ≤ max → ¬ stopped (view s) →
    ∃ s', step s = .next s' ∧ I s' ∧ value s' = value s + inc ∧ view s' = body (value s) (view s)
  early : ∀ s, I s → value s ≤ max → stopped (view s) → step s = .done (leave s)
  past : ∀ s, I s → max < value s → step s = .done (leave s)
  idle : ∀ v t, stopped t → body v t = t

variable {step : σ → Step σ ρ} {leave : σ → ρ} {I : σ → Prop} {value : σ → Int} {view : σ → τ}
  {inc max : Int} {body : Int → τ → τ} {stopped : τ → Prop}

theorem CountsUp.foldl_idle (h : CountsUp step leave I value view inc max body stopped) {t : τ}
    (ht : stopped t) (vs : List Int) : vs.foldl (fun t v => body v t) t = t := by
  induction vs with
  | nil => rfl
  | cons v vs ih => rw [List.foldl_cons, h.idle v t ht, ih]

/-- With fuel for all the values the loop is left, and the body has run on them. -/
theorem CountsUp.run (h : CountsUp step leave I value view inc max body stopped) {vs : List Int}
    {s : σ} (hvs : Counts inc max (value s) vs) (hI : I s) {fuel : Nat} (hfuel : vs.length < fuel) :
    ∃ s', Loop.run step fuel s = some (leave s') ∧ I s' ∧
      view s' = vs.foldl (fun t v => body v t) (view s) := by
  induction vs generalizing s fuel with
  | nil =>
      obtain ⟨fuel, rfl⟩ := Nat.exists_eq_add_one.mpr (Nat.zero_lt_of_lt hfuel)
      cases hvs with
      | stop hpast =>
          exact ⟨s, by simp [Loop.run, h.past s hI hpast], hI, rfl⟩
  | cons v vs ih =>
      obtain ⟨fuel, rfl⟩ := Nat.exists_eq_add_one.mpr (Nat.zero_lt_of_lt hfuel)
      generalize hval : value s = w at hvs
      cases hvs with
      | value hle hrest =>
          by_cases hstop : stopped (view s)
          · refine ⟨s, ?_, hI, (h.foldl_idle hstop _).symm⟩
            simp [Loop.run, h.early s hI (hval ▸ hle) hstop]
          · obtain ⟨s₁, hstep, hI₁, hval₁, hview₁⟩ := h.again s hI (hval ▸ hle) hstop
            rw [hval] at hval₁ hview₁
            rw [← hval₁] at hrest
            obtain ⟨s', hrun, hI', hview'⟩ := ih hrest hI₁ (Nat.lt_of_succ_lt_succ hfuel)
            refine ⟨s', ?_, hI', ?_⟩
            · simp [Loop.run, hstep, hrun]
            · rw [hview', hview₁, List.foldl_cons]

end SrxNote.Loop
