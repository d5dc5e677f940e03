import SrxNote.Srx.Proofs.Identifiers

/-!
# Whose path verdict is stored

`SRX_CONFIG_EVAL_DISTR` contains the bits of the other modes, and
`handleSRxValidationResult` tests it with `CHECK_FLAG`, which is true when any of
the bits is set. So the router validates paths itself only after the evaluation
was switched off, and not in the modes that evaluate without being distributed,
among them the default.
-/

namespace SrxNote.Srx

variable {α δ : Type} {env : Env α δ} {s : Router α} {p : Nat} {info : BgpInfo α}

/-! ### The mode after a history of commands -/

/-- The configuration after a sequence of `bgp_srx_evaluation` commands. -/
def evaluatedConfig (modes : List Int) : UInt16 := modes.foldl bgpSrxEvaluation srxSetDefault

/-- The mode bits that a command leaves, when it knows the mode. -/
def modeBits (mode : Int) : Option UInt16 :=
  if mode = 0 then some 0
  else if mode = srxConfigEvalDistr.toNat then some srxConfigEvalDistr
  else if mode = srxConfigEvaluate.toNat ∨ mode = srxConfigEvalPath.toNat then
    some srxConfigEvaluate
  else if mode = srxConfigEvalOrigin.toNat then some srxConfigEvalOrigin
  else none

/-- The mode bits of the last command that knew its mode. -/
def lastMode (modes : List Int) : Option UInt16 := (modes.filterMap modeBits).getLast?

/-- The mode is distributed: bit 3 is set. -/
def Distributed (config : UInt16) : Prop := config &&& (1 : UInt16) <<< 3 ≠ 0

instance (config : UInt16) : Decidable (Distributed config) :=
  inferInstanceAs (Decidable (config &&& (1 : UInt16) <<< 3 ≠ 0))

theorem srxConfigUnset_and (config flags : UInt16) : srxConfigUnset config flags &&& flags = 0 := by
  rw [srxConfigUnset, UInt16.and_assoc, UInt16.not_and_self, UInt16.and_zero]

theorem srxConfigSet_and (config flags mask : UInt16) :
    srxConfigSet config flags &&& mask = (config &&& mask) ||| (flags &&& mask) := by
  apply UInt16.toBitVec_inj.mp
  simp only [srxConfigSet, UInt16.toBitVec_and, UInt16.toBitVec_or]
  exact BitVec.and_or_distrib_right

theorem srxConfigSet_and_self (config flags : UInt16) :
    srxConfigSet config flags &&& flags = flags := by
  apply UInt16.toBitVec_inj.mp
  ext i hi
  cases hflag : flags.toBitVec[i] <;> simp [srxConfigSet, hflag]

/-- A command replaces the mode bits, or leaves them when it does not know the mode. -/
theorem bgpSrxEvaluation_and (config : UInt16) (mode : Int) :
    bgpSrxEvaluation config mode &&& srxConfigEvalDistr =
      (modeBits mode).getD (config &&& srxConfigEvalDistr) := by
  unfold bgpSrxEvaluation modeBits
  split
  · exact srxConfigUnset_and _ _
  · split
    · exact srxConfigSet_and_self _ _
    · split
      · rw [srxConfigSet_and, srxConfigUnset_and]
        rfl
      · split
        · rw [srxConfigSet_and, srxConfigUnset_and]
          rfl
        · rfl

theorem evaluatedConfig_and (modes : List Int) :
    evaluatedConfig modes &&& srxConfigEvalDistr = (lastMode modes).getD srxConfigEvalOrigin := by
  induction modes using List.reverseRecOn with
  | nil => rfl
  | append_singleton modes mode ih =>
      have hconfig : evaluatedConfig (modes ++ [mode]) =
          bgpSrxEvaluation (evaluatedConfig modes) mode := by
        rw [evaluatedConfig, List.foldl_append]
        rfl
      rw [hconfig, bgpSrxEvaluation_and, ih]
      cases hmode : modeBits mode with
      | none => simp [lastMode, List.filterMap_append, hmode]
      | some bits => simp [lastMode, List.filterMap_append, hmode]

theorem modeBits_cases {mode : Int} {bits : UInt16} (h : modeBits mode = some bits) :
    bits = 0 ∨ bits = srxConfigEvalDistr ∨ bits = srxConfigEvaluate ∨ bits = srxConfigEvalOrigin := by
  unfold modeBits at h
  grind

/-- The configuration of the mode, as the two tests of it see it. -/
theorem evaluatedConfig_mode (modes : List Int) :
    (checkFlag (evaluatedConfig modes) srxConfigEvalDistr = false ↔ lastMode modes = some 0) ∧
      (Distributed (evaluatedConfig modes) ↔ lastMode modes = some srxConfigEvalDistr) := by
  have hbits := evaluatedConfig_and modes
  have hdistr : evaluatedConfig modes &&& (1 : UInt16) <<< 3 =
      (lastMode modes).getD srxConfigEvalOrigin &&& (1 : UInt16) <<< 3 := by
    rw [← hbits, UInt16.and_assoc]
    rfl
  rw [checkFlag, Distributed, hdistr, hbits]
  cases hlast : lastMode modes with
  | none => decide
  | some bits =>
      obtain ⟨mode, -, hmode⟩ := List.mem_filterMap.mp (List.mem_of_getLast? hlast)
      rcases modeBits_cases hmode with rfl | rfl | rfl | rfl <;> decide

/-! ### The verdict -/

/-- The first answer for the route `p` with the validation data `data`: where the mode is not
    distributed and there is a validator, it is called and its verdict stored. In the distributed
    mode it is not called, and the result of the server is stored if the answer has one. -/
def VerdictAsConfigured (env : Env α δ) (s : Router α) (answer : Answer) (p : Nat) (data : δ) :
    Prop :=
  ∃ s' events info', handleSRxValidationResult env s answer = some (s', events) ∧
    s'.routes.read p = some info' ∧
    (¬ Distributed env.srxConfig → ∀ validate, env.srxCAPI = some validate →
      events = [.validate data] ∧
        info'.valResBGPSEC = if validate data then .valid else .invalid) ∧
    (Distributed env.srxConfig → (∀ data', .validate data' ∉ events) ∧
      (answer.valType.bgpsec → info'.valResBGPSEC = answer.bgpsecResult))

theorem checkFlag_of_distributed {config : UInt16} (h : Distributed config) :
    checkFlag config srxConfigEvalDistr = true := by
  rw [checkFlag, decide_eq_true_eq]
  intro hzero
  apply h
  have hbit : config &&& (1 : UInt16) <<< 3 =
      (config &&& srxConfigEvalDistr) &&& (1 : UInt16) <<< 3 := by
    rw [UInt16.and_assoc]
    rfl
  rw [hbit, hzero, UInt16.zero_and]

theorem answered_valResBGPSEC (answer : Answer) : (answered env answer info).valResBGPSEC =
    if (localValidation env info.attr answer.valType answer.bgpsecResult).2.2.bgpsec then
      (localValidation env info.attr answer.valType answer.bgpsecResult).2.1
    else info.valResBGPSEC := rfl

theorem localValidation_of_checkFlag (h : checkFlag env.srxConfig srxConfigEvalDistr = true)
    (attr : α) (valType : ValType) (bgpsecResult : SRxResult) :
    localValidation env attr valType bgpsecResult = ([], bgpsecResult, valType) := by
  simp [localValidation, h]

theorem localValidation_of_validator (h : checkFlag env.srxConfig srxConfigEvalDistr = false)
    {validate : δ → Bool} (hcapi : env.srxCAPI = some validate) {attr : α} {data : δ}
    (hdata : env.validationData attr = some data) (valType : ValType) (bgpsecResult : SRxResult) :
    localValidation env attr valType bgpsecResult =
      ([.validate data], if validate data then .valid else .invalid,
        { valType with bgpsec := true }) := by
  simp [localValidation, h, hcapi, hdata]

theorem verdictAsConfigured_iff {answer : Answer} {data : δ} (hlocal : answer.localID ≠ 0)
    (hfetch : bgpInfoFetch env.uthash s.infoLidHash answer.localID = some p)
    (hread : s.routes.read p = some info) (hdata : env.validationData info.attr = some data) :
    VerdictAsConfigured env s answer p data ↔ env.srxCAPI = none ∨
      checkFlag env.srxConfig srxConfigEvalDistr = false ∨ Distributed env.srxConfig := by
  have hcall := handleSRxValidationResult_taken hlocal hfetch hread
  have hread' : (afterAnswer env s p info answer).routes.read p =
      some (answered env answer info) := (read_afterAnswer hread answer p).trans (if_pos rfl)
  constructor
  · rintro ⟨s', events, info', hcall', -, hlocalVerdict, -⟩
    by_contra hcond
    obtain ⟨hcapi, hflag, hdistr⟩ := by simpa only [not_or] using hcond
    obtain ⟨validate, hvalidate⟩ := Option.ne_none_iff_exists'.mp hcapi
    have hevents := (hlocalVerdict hdistr validate hvalidate).1
    rw [hcall, localValidation_of_checkFlag (Bool.not_eq_false _ ▸ hflag)] at hcall'
    cases hcall'
    cases hevents
  · intro hcond
    refine ⟨_, _, _, hcall, hread', ?_, ?_⟩
    · intro hdistr validate hvalidate
      have hflag : checkFlag env.srxConfig srxConfigEvalDistr = false := by
        rcases hcond with hnone | hflag | hdistr'
        · rw [hvalidate] at hnone
          cases hnone
        · exact hflag
        · exact absurd hdistr' hdistr
      rw [answered_valResBGPSEC, localValidation_of_validator hflag hvalidate hdata]
      exact ⟨rfl, rfl⟩
    · intro hdistr
      rw [answered_valResBGPSEC, localValidation_of_checkFlag (checkFlag_of_distributed hdistr)]
      exact ⟨fun data' => List.not_mem_nil, fun hbgpsec => if_pos hbgpsec⟩

/-- For every history of commands and every first answer for a route with validation data: the
    verdict is that of the configured validator exactly if there is no local one or the last command
    with a known mode switched the evaluation off or made it distributed. -/
theorem path_verdict_as_configured_iff (modes : List Int)
    (hconfig : env.srxConfig = evaluatedConfig modes) {answer : Answer} {data : δ}
    (hlocal : answer.localID ≠ 0)
    (hfetch : bgpInfoFetch env.uthash s.infoLidHash answer.localID = some p)
    (hread : s.routes.read p = some info) (hdata : env.validationData info.attr = some data) :
    VerdictAsConfigured env s answer p data ↔ env.srxCAPI = none ∨ lastMode modes = some 0 ∨
      lastMode modes = some srxConfigEvalDistr := by
  obtain ⟨hoff, hdistr⟩ := evaluatedConfig_mode modes
  rw [verdictAsConfigured_iff hlocal hfetch hread hdata, hconfig, hoff, hdistr]

/-- A router with a validator that accepts nothing, whose attributes are their validation data. -/
def validatingEnv (modes : List Int) : Env Nat Nat :=
  ⟨evaluatedConfig modes, some fun _ => false, false, .undefined, .undefined, some, fun _ => none,
    newestFirst⟩

/-- A route that waits for its first answer. -/
def waitingRouter : Router Nat :=
  ⟨[some ⟨5, some .lid, 0, 1, .undefined, .undefined⟩], [⟨1, 0⟩], [], 1⟩

/-- With the evaluation switched off after it was distributed, the router validates itself. -/
theorem validatingEnv_off_verdict :
    VerdictAsConfigured (validatingEnv [14, 3, 0]) waitingRouter
      ⟨7, 1, ⟨true, true⟩, .valid, .valid⟩ 0 5 :=
  (path_verdict_as_configured_iff [14, 3, 0] rfl (by decide) rfl rfl rfl).mpr
    (Or.inr (Or.inl (by decide)))

/-- In the mode that evaluates origin and path, the verdict of the server is stored although there is
    a validator. -/
theorem validatingEnv_evaluate_verdict :
    ¬ VerdictAsConfigured (validatingEnv [6]) waitingRouter ⟨7, 1, ⟨true, true⟩, .valid, .valid⟩ 0
      5 := by
  rintro ⟨s', events, info', hcall, -, hverdict, -⟩
  have hevents := (hverdict (by decide) _ rfl).1
  cases hcall
  cases hevents

end SrxNote.Srx
