import Mathlib.Data.List.Infix

/-!
# Runs of a state machine

A machine takes one operation at a time and may refuse it, which ends the run.
A property that each step keeps exactly when the operation meets a condition
holds along a whole run exactly when every step of the run meets the condition
(`always_iff_eachStep`). Where a condition keeps an invariant under which no operation is
refused, a run of such operations comes to its end (`Obeys.exec`).
-/

namespace SrxNote.Run

variable {σ α : Type} {step : σ → α → Option σ}

/-- The operations lead from the first state to the last one. -/
inductive Path (step : σ → α → Option σ) (s₀ : σ) : List α → σ → Prop
  | nil : Path step s₀ [] s₀
  | snoc {as : List α} {a : α} {s s' : σ} : Path step s₀ as s → step s a = some s' →
      Path step s₀ (as ++ [a]) s'

/-- `P` holds in every state that the run reaches. -/
def Always (step : σ → α → Option σ) (P : σ → Prop) (s₀ : σ) (as : List α) : Prop :=
  ∀ as' s, as' <+: as → Path step s₀ as' s → P s

/-- Every step that the run takes meets `C`. -/
def EachStep (step : σ → α → Option σ) (C : σ → α → Prop) (s₀ : σ) (as : List α) : Prop :=
  ∀ as' a s s', as' ++ [a] <+: as → Path step s₀ as' s → step s a = some s' → C s a

theorem Path.eq_of_nil {s₀ s : σ} (h : Path step s₀ [] s) : s = s₀ := by
  generalize has : ([] : List α) = as at h
  cases h with
  | nil => rfl
  | snoc _ _ => simp at has

theorem EachStep.nil {C : σ → α → Prop} {s₀ : σ} : EachStep step C s₀ [] := by
  intro as' a s s' hpre
  simp at hpre

/-- A run of one step more. -/
theorem EachStep.snoc {C : σ → α → Prop} {s₀ : σ} {as : List α} {a : α}
    (h : EachStep step C s₀ as)
    (hlast : ∀ s s', Path step s₀ as s → step s a = some s' → C s a) :
    EachStep step C s₀ (as ++ [a]) := by
  intro as' b s s' hpre hpath hs
  rcases List.prefix_concat_iff.mp hpre with heq | hpre
  · obtain ⟨rfl, hb⟩ := List.append_inj' heq rfl
    rw [List.singleton_inj.mp hb] at hs ⊢
    exact hlast s s' hpath hs
  · exact h as' b s s' hpre hpath hs

theorem EachStep.before {C : σ → α → Prop} {s₀ : σ} {as as' : List α}
    (h : EachStep step C s₀ as) (hpre : as' <+: as) : EachStep step C s₀ as' := by
  intro as'' b s s' hpre'
  exact h as'' b s s' (hpre'.trans hpre)

theorem EachStep.and {C D : σ → α → Prop} {s₀ : σ} {as : List α} (hC : EachStep step C s₀ as)
    (hD : EachStep step D s₀ as) : EachStep step (fun s a => C s a ∧ D s a) s₀ as := by
  intro as' a s s' hpre hpath hs
  exact ⟨hC as' a s s' hpre hpath hs, hD as' a s s' hpre hpath hs⟩

/-- The state after the operations, when none is refused. -/
def exec (step : σ → α → Option σ) (s : σ) : List α → Option σ
  | [] => some s
  | a :: as => (step s a).bind fun s' => exec step s' as

theorem exec_append (s : σ) (as bs : List α) :
    exec step s (as ++ bs) = (exec step s as).bind fun s' => exec step s' bs := by
  induction as generalizing s with
  | nil => rfl
  | cons a as ih =>
      rw [List.cons_append, exec, exec]
      cases step s a with
      | none => rfl
      | some s' => exact ih s'

theorem path_iff_exec {s₀ s : σ} {as : List α} :
    Path step s₀ as s ↔ exec step s₀ as = some s := by
  constructor
  · intro h
    induction h with
    | nil => rfl
    | snoc _ hs ih => rw [exec_append, ih, Option.bind_some, exec, hs]; rfl
  · induction as using List.reverseRecOn generalizing s with
    | nil =>
        intro h
        cases h
        exact .nil
    | append_singleton as a ih =>
        intro h
        rw [exec_append] at h
        obtain ⟨t, ht, hs⟩ := Option.bind_eq_some_iff.mp h
        obtain ⟨t', ht', hend⟩ := Option.bind_eq_some_iff.mp hs
        cases hend
        exact (ih ht).snoc ht'

/-- The steps of a run, from its first one on. -/
theorem eachStep_cons_iff {C : σ → α → Prop} {s₀ s₁ : σ} {a : α} {as : List α}
    (hs₁ : step s₀ a = some s₁) :
    EachStep step C s₀ (a :: as) ↔ C s₀ a ∧ EachStep step C s₁ as := by
  constructor
  · intro h
    refine ⟨h [] a s₀ s₁ (by simp) .nil hs₁, ?_⟩
    intro as' b s s' hpre hpath hs
    have hpath' : exec step s₀ (a :: as') = some s := by
      rw [exec, hs₁]
      exact path_iff_exec.mp hpath
    exact h (a :: as') b s s' (List.cons_prefix_cons.mpr ⟨rfl, hpre⟩) (path_iff_exec.mpr hpath') hs
  · rintro ⟨hfirst, hrest⟩ as' b s s' hpre hpath hs
    rw [path_iff_exec] at hpath
    cases as' with
    | nil =>
        cases hpath
        rw [(List.cons_prefix_cons.mp hpre).1]
        exact hfirst
    | cons a' as' =>
        obtain ⟨rfl, hpre'⟩ := List.cons_prefix_cons.mp hpre
        rw [exec, hs₁] at hpath
        exact hrest as' b s s' hpre' (path_iff_exec.mpr hpath) hs

theorem EachStep.cons {C : σ → α → Prop} {s₀ s₁ : σ} {a : α} {as : List α}
    (hs₁ : step s₀ a = some s₁) (hfirst : C s₀ a) (hrest : EachStep step C s₁ as) :
    EachStep step C s₀ (a :: as) :=
  (eachStep_cons_iff hs₁).mpr ⟨hfirst, hrest⟩

/-- An invariant that the steps meeting `C` keep holds at the end of a run of such steps. -/
theorem Path.invariant {C : σ → α → Prop} {I : σ → Prop} {s₀ : σ}
    (hstep : ∀ s a s', I s → C s a → step s a = some s' → I s') (h₀ : I s₀)
    {as : List α} {s : σ} (hpath : Path step s₀ as s) (heach : EachStep step C s₀ as) : I s := by
  induction hpath with
  | nil => exact h₀
  | @snoc as a s s' hpath hs ih =>
      have hI : I s := ih (heach.before (List.prefix_append as [a]))
      have hC : C s a := heach as a s s' List.prefix_rfl hpath hs
      exact hstep s a s' hI hC hs

/-- In runs whose steps are all within `D`: if a step from a state with `I` and `P` that meets `C`
    keeps both, and one that keeps `P` meets `C`, then `P` holds along a run exactly when all its
    steps meet `C`. -/
theorem always_iff_eachStep_within {C D : σ → α → Prop} {I P : σ → Prop} {s₀ : σ}
    (hstep : ∀ s a s', I s → P s → D s a → step s a = some s' →
      (C s a → I s' ∧ P s') ∧ (P s' → C s a))
    (hI : I s₀) (hP : P s₀) {as : List α} (hD : EachStep step D s₀ as) :
    Always step P s₀ as ↔ EachStep step C s₀ as := by
  constructor
  · intro halways
    have hInv : ∀ as' s, as' <+: as → Path step s₀ as' s → I s := by
      intro as' s hpre hpath
      induction hpath with
      | nil => exact hI
      | @snoc as' b t t' hpath ht ih =>
          have hpre' : as' <+: as := (List.prefix_append as' [b]).trans hpre
          obtain ⟨hkeep, hmeets⟩ := hstep t b t' (ih hpre') (halways as' t hpre' hpath)
            (hD as' b t t' hpre hpath ht) ht
          exact (hkeep (hmeets (halways _ t' hpre (hpath.snoc ht)))).1
    intro as' a s s' hpre hpath hs
    have hpre' : as' <+: as := (List.prefix_append as' [a]).trans hpre
    exact (hstep s a s' (hInv as' s hpre' hpath) (halways as' s hpre' hpath)
      (hD as' a s s' hpre hpath hs) hs).2 (halways _ s' hpre (hpath.snoc hs))
  · intro heach as' s hpre hpath
    have hboth : I s ∧ P s := by
      refine Path.invariant (C := fun s a => C s a ∧ D s a) (I := fun t => I t ∧ P t) ?_ ⟨hI, hP⟩
        hpath ((heach.and hD).before hpre)
      intro t a t' hIP hCD ht
      exact (hstep t a t' hIP.1 hIP.2 hCD.2 ht).1 hCD.1
    exact hboth.2

/-- If a step from a state with `I` and `P` keeps `I`, and keeps `P` exactly when it meets `C`, then
    `P` holds along a run exactly when all its steps meet `C`. -/
theorem always_iff_eachStep {C : σ → α → Prop} {I P : σ → Prop} {s₀ : σ}
    (hstep : ∀ s a s', I s → P s → step s a = some s' → I s' ∧ (P s' ↔ C s a))
    (hI : I s₀) (hP : P s₀) (as : List α) :
    Always step P s₀ as ↔ EachStep step C s₀ as := by
  refine always_iff_eachStep_within (D := fun _ _ => True) (I := I) ?_ hI hP
    fun _ _ _ _ _ _ _ => trivial
  intro s a s' hIs hPs _ hs
  obtain ⟨hI', hP'⟩ := hstep s a s' hIs hPs hs
  exact ⟨fun hC => ⟨hI', hP'.mpr hC⟩, hP'.mp⟩

/-! ### Runs that cannot stop -/

/-- Every operation meets `C` in the state in which it is tried. -/
def Obeys (step : σ → α → Option σ) (C : σ → α → Prop) : σ → List α → Prop
  | _, [] => True
  | s, a :: as => C s a ∧ ∀ s', step s a = some s' → Obeys step C s' as

theorem Obeys.cons {C : σ → α → Prop} {s s' : σ} {a : α} {as : List α} (hC : C s a) (hs : step s a = some s')
    (h : Obeys step C s' as) : Obeys step C s (a :: as) := by
  refine ⟨hC, fun s'' hs'' => ?_⟩
  rw [hs] at hs''
  cases hs''
  exact h

/-- Operations that meet `C` are never refused, if they are not in a state with the invariant. -/
theorem Obeys.exec {C : σ → α → Prop} {I : σ → Prop}
    (hstep : ∀ s a, I s → C s a → ∃ s', step s a = some s' ∧ I s') {s : σ} (hI : I s) {as : List α}
    (h : Obeys step C s as) : ∃ s', Run.exec step s as = some s' ∧ I s' := by
  induction as generalizing s with
  | nil => exact ⟨s, rfl, hI⟩
  | cons a as ih =>
      obtain ⟨hC, hrest⟩ := h
      obtain ⟨s₁, hs₁, hI₁⟩ := hstep s a hI hC
      obtain ⟨s', hs', hI'⟩ := ih hI₁ (hrest s₁ hs₁)
      refine ⟨s', ?_, hI'⟩
      rw [Run.exec, hs₁]
      exact hs'

end SrxNote.Run
