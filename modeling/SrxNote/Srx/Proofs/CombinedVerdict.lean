import SrxNote.Misc.Run
import SrxNote.Srx.BestPath

/-!
# The combined verdict of a route

Results are stored as they arrive, so that the stored octets can be any. The
combination of the two results returns one of the known results, and VALID in
the bgpsec mode only for two positive ones, exactly when the stored results are
known ones. A result of the origin validation that is none of the four is taken
for VALID unless the path result is UNDEFINED.
-/

namespace SrxNote.Srx

variable {α δ : Type}

/-- The configuration and one route. -/
structure VerdictState (α : Type) where
  srxConfig : UInt16
  info : BgpInfo α

/-- What happens: a result is stored, a default result is stored by `verify_update`, the mode is
    set. -/
inductive VerdictOp (α δ : Type) where
  | result (resType : ValType) (roaResult bgpsecResult : SRxResult)
  | default (env : Env α δ) (roaResult bgpsecResult : SRxResult)
  | evaluation (mode : Int)

/-- One step. -/
def verdictStep (s : VerdictState α) : VerdictOp α δ → Option (VerdictState α)
  | .result resType roaResult bgpsecResult =>
      some { s with info := bgpInfoSetValidationResult resType roaResult bgpsecResult s.info }
  | .default env roaResult bgpsecResult =>
      some { s with
        info := storeDefault (defaultRoaResult env s.info.attr roaResult) bgpsecResult s.info }
  | .evaluation mode => some { s with srxConfig := bgpSrxEvaluation s.srxConfig mode }

/-- A route with the default results of `srx_set_default`, in its mode. -/
def VerdictState.init (attr : α) : VerdictState α :=
  ⟨srxSetDefault, ⟨attr, none, 0, 0, .undefined, .undefined⟩⟩

/-- The verdict is a known result, and VALID in the bgpsec mode only for two positive results. -/
def VerdictSound (s : VerdictState α) : Prop :=
  (srxConfigCheck s.srxConfig srxConfigEvalPath = true →
    srxCalcValidationState s.srxConfig s.info = .valid →
    s.info.valResROA = .valid ∧ s.info.valResBGPSEC = .valid) ∧
  ∀ value, srxCalcValidationState s.srxConfig s.info ≠ .other value

/-- The results that the mode of a configuration reads are known ones. -/
def ResultsKnown (srxConfig : UInt16) (roaResult bgpsecResult : SRxResult) : Prop :=
  if srxConfigCheck srxConfig srxConfigEvalPath then
    match roaResult with
    | .notfound | .invalid | .undefined => True
    | .valid => ∀ value, bgpsecResult ≠ .other value
    | .donotuse | .other _ => bgpsecResult = .undefined
  else srxConfigCheck srxConfig srxConfigEvalOrigin = true → ∀ value, roaResult ≠ .other value

/-- The results that an operation brings, together with those it leaves in the route, are known ones
    in the mode of the configuration; for a mode command, in the mode it asks for. -/
def BringsKnown (s : VerdictState α) : VerdictOp α δ → Prop
  | .result resType roaResult bgpsecResult =>
      ResultsKnown s.srxConfig (if resType.roa then roaResult else s.info.valResROA)
        (if resType.bgpsec then bgpsecResult else s.info.valResBGPSEC)
  | .default env roaResult bgpsecResult =>
      ResultsKnown s.srxConfig
        (if defaultRoaResult env s.info.attr roaResult = .donotuse then s.info.valResROA
          else defaultRoaResult env s.info.attr roaResult)
        (if bgpsecResult = .donotuse then s.info.valResBGPSEC else bgpsecResult)
  | .evaluation mode =>
      ResultsKnown (bgpSrxEvaluation s.srxConfig mode) s.info.valResROA s.info.valResBGPSEC

theorem comparisonResult_eq_valid_iff {b : Bool} : comparisonResult b = .valid ↔ b = false := by
  cases b <;> simp [comparisonResult]

theorem comparisonResult_ne_other (b : Bool) (value : UInt8) : comparisonResult b ≠ .other value := by
  cases b <;> simp [comparisonResult]

theorem verdictSound_iff (s : VerdictState α) :
    VerdictSound s ↔ ResultsKnown s.srxConfig s.info.valResROA s.info.valResBGPSEC := by
  unfold VerdictSound ResultsKnown srxCalcValidationState
  cases hpath : srxConfigCheck s.srxConfig srxConfigEvalPath with
  | true =>
      simp only [if_true, forall_const]
      -- the cases are those of the switch over the origin result
      cases hroa : s.info.valResROA with
      | valid => simp
      | notfound => simp
      | invalid => simp
      | undefined => by_cases hb : s.info.valResBGPSEC = .invalid <;> simp [hb]
      | donotuse => simp [comparisonResult_eq_valid_iff, comparisonResult_ne_other]
      | other value => simp [comparisonResult_eq_valid_iff, comparisonResult_ne_other]
  | false =>
      cases horigin : srxConfigCheck s.srxConfig srxConfigEvalOrigin <;> simp

/-- What a step leaves is sound exactly when its operation brings known results. -/
theorem verdictStep_sound_iff {s s' : VerdictState α} {op : VerdictOp α δ}
    (hs : verdictStep s op = some s') : VerdictSound s' ↔ BringsKnown s op := by
  rw [verdictSound_iff]
  cases op with
  | result resType roaResult bgpsecResult =>
      obtain rfl := Option.some.inj hs
      rfl
  | default env roaResult bgpsecResult =>
      obtain rfl := Option.some.inj hs
      simp only [BringsKnown, storeDefault, ne_eq, ite_not]
  | evaluation mode =>
      obtain rfl := Option.some.inj hs
      rfl

theorem verdictSound_init (attr : α) : VerdictSound (VerdictState.init attr) := by
  have hpath : srxConfigCheck srxSetDefault srxConfigEvalPath = false := by decide
  rw [verdictSound_iff]
  simp [ResultsKnown, VerdictState.init, hpath]

/-- Along every run the verdict is sound exactly when each operation brings results that are known in
    its mode. -/
theorem verdict_sound_iff (attr : α) (ops : List (VerdictOp α δ)) :
    Run.Always verdictStep VerdictSound (VerdictState.init attr) ops ↔
      Run.EachStep verdictStep BringsKnown (VerdictState.init attr) ops := by
  refine Run.always_iff_eachStep (I := fun _ => True) ?_ trivial (verdictSound_init attr) ops
  intro s op s' _ _ hs
  exact ⟨trivial, verdictStep_sound_iff hs⟩

/-- The bgpsec mode is set, and the server sends an origin result 7 with an invalid path. -/
def unknownOctetRun : List (VerdictOp Unit Unit) :=
  [.evaluation srxConfigEvaluate.toNat, .result ⟨true, true⟩ (.other 7) .invalid]

/-- The route counts as VALID with neither of its results positive. -/
theorem unknownOctetRun_not_sound :
    ¬ Run.Always verdictStep VerdictSound (VerdictState.init ()) unknownOctetRun := by
  intro h
  have hend : ∃ s, Run.exec verdictStep (VerdictState.init ()) unknownOctetRun = some s ∧
      srxConfigCheck s.srxConfig srxConfigEvalPath = true ∧
      srxCalcValidationState s.srxConfig s.info = .valid ∧ s.info.valResROA ≠ .valid :=
    ⟨_, rfl, by decide, by decide, by decide⟩
  obtain ⟨s, hs, hpath, hvalid, hroa⟩ := hend
  have hsound := h unknownOctetRun s List.prefix_rfl (Run.path_iff_exec.mpr hs)
  exact hroa (hsound.1 hpath hvalid).1

end SrxNote.Srx
