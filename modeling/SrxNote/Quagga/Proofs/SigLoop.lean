import SrxNote.Misc.Countdown
import SrxNote.Quagga.Reading

/-!
# The loop over the signature segments

One pass of the loop in terms of the octets, its big-step meaning as `SigsRead`,
and the exact condition under which it is left: it is not exactly when the
octets run dry on an odd debt. With fewer than two octets left a pass consumes
nothing and takes 22 off `remainingBytes`, whose parity therefore decides.
-/

namespace SrxNote.Quagga
open SrxNote.Bgpsec

theorem sigLoopStep_zero {l : SigLoop} (h : l.remainingBytes = 0) :
    sigLoopStep l = .done (l, false) := by
  rw [sigLoopStep, if_pos h]

theorem sigLoopStep_cut {l : SigLoop} (h : l.remainingBytes ≠ 0) (hcut : Overlong l.s) :
    sigLoopStep l = .done (⟨l.sigSegments ++ [⟨some (skiAt l.s), sigLenAt l.s, none⟩],
      l.remainingBytes - UInt16.ofNat skiLength - 2, afterSigLen l.s⟩, true) := by
  unfold Overlong afterSigLen sigLenAt at hcut
  simp only [sigLoopStep, if_neg h, if_pos hcut, skiAt, sigLenAt, afterSigLen]

theorem sigLoopStep_sig {l : SigLoop} (h : l.remainingBytes ≠ 0) (hcut : ¬ Overlong l.s) :
    sigLoopStep l = .next ⟨l.sigSegments ++ [sigSegmentAt l.s],
      owedAfter l.remainingBytes l.s, afterSig l.s⟩ := by
  unfold Overlong afterSigLen sigLenAt at hcut
  simp only [sigLoopStep, if_neg h, if_neg hcut, streamGet_of_not_lt hcut, sigSegmentAt,
    owedAfter, afterSig, skiAt, sigLenAt, afterSigLen]

theorem eval_of_sigsRead {owed : UInt16} {s s' : Stream} {sigs : List SigSegment} {cut : Bool}
    (h : SigsRead owed s sigs s' cut) (linked : List SigSegment) :
    ∃ rest, Loop.Eval sigLoopStep ⟨linked, owed, s⟩ (⟨linked ++ sigs, rest, s'⟩, cut) := by
  induction h generalizing linked with
  | nil s =>
      refine ⟨0, .done ?_⟩
      rw [sigLoopStep_zero rfl, List.append_nil]
  | cut hne hcut => exact ⟨_, .done (sigLoopStep_cut hne hcut)⟩
  | @cons _ s _ sigs _ hne hcut _ ih =>
      obtain ⟨rest, hrest⟩ := ih (linked ++ [sigSegmentAt s])
      refine ⟨rest, .next (sigLoopStep_sig hne hcut) ?_⟩
      simpa using hrest

theorem sigsRead_of_eval {l : SigLoop} {r : SigLoop × Bool} (h : Loop.Eval sigLoopStep l r) :
    ∃ sigs, r.1.sigSegments = l.sigSegments ++ sigs ∧
      SigsRead l.remainingBytes l.s sigs r.1.s r.2 := by
  induction h with
  | @done l r hstep =>
      by_cases hz : l.remainingBytes = 0
      · rw [sigLoopStep_zero hz] at hstep
        cases hstep
        refine ⟨[], by simp, ?_⟩
        rw [hz]
        exact .nil _
      · by_cases hcut : Overlong l.s
        · rw [sigLoopStep_cut hz hcut] at hstep
          cases hstep
          exact ⟨_, rfl, .cut hz hcut⟩
        · rw [sigLoopStep_sig hz hcut] at hstep
          cases hstep
  | @next l l' r hstep _ ih =>
      by_cases hz : l.remainingBytes = 0
      · rw [sigLoopStep_zero hz] at hstep
        cases hstep
      · by_cases hcut : Overlong l.s
        · rw [sigLoopStep_cut hz hcut] at hstep
          cases hstep
        · rw [sigLoopStep_sig hz hcut] at hstep
          cases hstep
          obtain ⟨sigs, hsigs, hread⟩ := ih
          refine ⟨sigSegmentAt l.s :: sigs, ?_, .cons hz hcut hread⟩
          simpa using hsigs

/-- A run of the loop from the start of a block is a reading of its octets. -/
theorem run_sigLoopStep_iff {owed : UInt16} {s s' : Stream} {sigs : List SigSegment}
    {cut : Bool} :
    (∃ fuel rest, Loop.run sigLoopStep fuel ⟨[], owed, s⟩ = some (⟨sigs, rest, s'⟩, cut)) ↔
      SigsRead owed s sigs s' cut := by
  constructor
  · rintro ⟨fuel, rest, h⟩
    obtain ⟨sigs', hsigs, hread⟩ := sigsRead_of_eval (Loop.eval_of_run h)
    rw [List.nil_append] at hsigs
    rw [← hsigs] at hread
    exact hread
  · intro h
    obtain ⟨rest, heval⟩ := eval_of_sigsRead h []
    obtain ⟨fuel, hrun⟩ := Loop.run_iff_eval.mpr heval
    exact ⟨fuel, rest, hrun⟩

theorem SigsRead.unique {owed : UInt16} {s s₁ s₂ : Stream} {sigs₁ sigs₂ : List SigSegment}
    {cut₁ cut₂ : Bool} (h₁ : SigsRead owed s sigs₁ s₁ cut₁) (h₂ : SigsRead owed s sigs₂ s₂ cut₂) :
    sigs₁ = sigs₂ ∧ s₁ = s₂ ∧ cut₁ = cut₂ := by
  obtain ⟨rest₁, e₁⟩ := eval_of_sigsRead h₁ []
  obtain ⟨rest₂, e₂⟩ := eval_of_sigsRead h₂ []
  have heq := e₁.unique e₂
  simp only [List.nil_append, Prod.mk.injEq, SigLoop.mk.injEq] at heq
  exact ⟨heq.1.1, heq.1.2.2, heq.2⟩

/-! ### When the loop is left -/

theorem toNat_owedAfter (owed : UInt16) (s : Stream) :
    (owedAfter owed s).toNat = (owed.toNat + (2 ^ 17 - 22 - (sigLenAt s).toNat)) % 2 ^ 16 := by
  have h20 : (UInt16.ofNat skiLength).toNat = 20 := rfl
  have h2 : (2 : UInt16).toNat = 2 := rfl
  have ho := owed.toNat_lt
  have hl := (sigLenAt s).toNat_lt
  simp only [owedAfter, UInt16.toNat_sub, h20, h2]
  omega

theorem length_afterSigLen (s : Stream) : (afterSigLen s).length =
    if s.length < 2 then s.length
    else if s.length < 20 then s.length - 2
    else if s.length < 22 then s.length - 20
    else s.length - 22 := by
  have h20 : skiLength = 20 := rfl
  rw [afterSigLen, streamGetw_length, streamGet_length, h20]
  split_ifs <;> omega

/-- With fewer than two octets left the signature length reads as 0. -/
theorem sigLenAt_dry {s : Stream} (h : s.length < 2) : sigLenAt s = 0 := by
  have h20 : skiLength = 20 := rfl
  have hget : (streamGet skiNew s skiLength).2 = s := by
    rw [streamGet, if_pos (by omega)]
  rw [sigLenAt, hget, streamGetw_of_lt h]

theorem afterSig_dry {s : Stream} (h : s.length < 2) : afterSig s = s := by
  have h20 : skiLength = 20 := rfl
  have hget : (streamGet skiNew s skiLength).2 = s := by
    rw [streamGet, if_pos (by omega)]
  rw [afterSig, sigLenAt_dry h, afterSigLen, hget, streamGetw_of_lt h]
  rfl

theorem not_overlong_dry {s : Stream} (h : s.length < 2) : ¬ Overlong s := by
  rw [Overlong, sigLenAt_dry h]
  exact Nat.not_lt_zero _

/-- With two octets left a signature segment consumes some. -/
theorem length_afterSig_lt {s : Stream} (h : 2 ≤ s.length) : (afterSig s).length < s.length := by
  have hlen := length_afterSigLen s
  rw [afterSig, List.length_drop]
  split_ifs at hlen <;> omega

/-- A pass without octets takes 22 off the debt. -/
theorem toNat_owedAfter_dry {owed : UInt16} {s : Stream} (h : s.length < 2) :
    (owedAfter owed s).toNat = (owed.toNat + (2 ^ 16 - 22)) % 2 ^ 16 := by
  have hz : (0 : UInt16).toNat = 0 := rfl
  rw [toNat_owedAfter, sigLenAt_dry h, hz]
  omega

/-- Without octets the loop ends once a multiple of 22 is congruent to the debt. -/
theorem halts_dry_of_mul {s : Stream} (h : s.length < 2) (k : Nat) :
    ∀ (linked : List SigSegment) (owed : UInt16), 22 * k ≡ owed.toNat [MOD 2 ^ 16] →
      Loop.Halts sigLoopStep ⟨linked, owed, s⟩ := by
  induction k with
  | zero =>
      intro linked owed hk
      have hz : owed = 0 := by
        have ho := owed.toNat_lt
        apply UInt16.toNat_inj.mp
        rw [Nat.ModEq, Nat.mod_eq_of_lt ho] at hk
        exact hk.symm
      exact Loop.halts_done (sigLoopStep_zero hz)
  | succ k ih =>
      intro linked owed hk
      by_cases hz : owed = 0
      · exact Loop.halts_done (sigLoopStep_zero hz)
      · rw [Loop.halts_next (sigLoopStep_sig hz (not_overlong_dry h))]
        dsimp only
        rw [afterSig_dry h]
        apply ih
        rw [toNat_owedAfter_dry h]
        unfold Nat.ModEq at hk ⊢
        omega

/-- Without octets and with an odd debt the loop is never left. -/
theorem not_halts_dry {s : Stream} (h : s.length < 2) {owed : UInt16} (hodd : owed.toNat % 2 = 1)
    (linked : List SigSegment) : ¬ Loop.Halts sigLoopStep ⟨linked, owed, s⟩ := by
  refine Loop.not_halts_of_invariant
    (I := fun l : SigLoop => l.s.length < 2 ∧ l.remainingBytes.toNat % 2 = 1) ?_ ⟨h, hodd⟩
  rintro l ⟨hl, hl'⟩
  have hne : l.remainingBytes ≠ 0 := by
    intro hz
    rw [hz] at hl'
    exact absurd hl' (by decide)
  refine ⟨_, sigLoopStep_sig hne (not_overlong_dry hl), ?_, ?_⟩
  · rw [afterSig_dry hl]
    exact hl
  · dsimp only
    rw [toNat_owedAfter_dry hl]
    omega

/-- The loop over the signature segments is left unless the octets run dry on an odd debt. -/
theorem halts_sigLoop_iff (s : Stream) (owed : UInt16) (linked : List SigSegment) :
    Loop.Halts sigLoopStep ⟨linked, owed, s⟩ ↔ ¬ RunsDry owed s := by
  induction hn : s.length using Nat.strong_induction_on generalizing s owed linked with
  | _ n ih =>
    by_cases hs : s.length < 2
    · by_cases hodd : owed.toNat % 2 = 1
      · exact iff_of_false (not_halts_dry hs hodd linked) (not_not_intro (.dry hs hodd))
      · have hgcd : Nat.gcd 22 (2 ^ 16) = 2 := by decide
        have hdvd : Nat.gcd 22 (2 ^ 16) ∣ owed.toNat := by
          rw [hgcd]
          omega
        obtain ⟨k, hk⟩ := exists_mul_modEq_of_gcd_dvd (by omega) hdvd
        refine iff_of_true (halts_dry_of_mul hs k linked owed hk) ?_
        intro hdry
        cases hdry with
        | dry _ h => exact hodd h
        | sig _ h _ _ => omega
    · by_cases hz : owed = 0
      · refine iff_of_true (Loop.halts_done (sigLoopStep_zero hz)) ?_
        intro hdry
        cases hdry with
        | dry h _ => exact hs h
        | sig h _ _ _ => exact h hz
      · by_cases hcut : Overlong s
        · refine iff_of_true (Loop.halts_done (sigLoopStep_cut hz hcut)) ?_
          intro hdry
          cases hdry with
          | dry h _ => exact hs h
          | sig _ _ h _ => exact h hcut
        · rw [Loop.halts_next (sigLoopStep_sig hz hcut)]
          have hlt := length_afterSig_lt (Nat.le_of_not_lt hs)
          rw [ih _ (hn ▸ hlt) _ _ _ rfl, not_iff_not]
          constructor
          · intro hdry
            exact .sig hz (Nat.le_of_not_lt hs) hcut hdry
          · intro hdry
            cases hdry with
            | dry h _ => exact absurd h hs
            | sig _ _ _ h => exact h

end SrxNote.Quagga
