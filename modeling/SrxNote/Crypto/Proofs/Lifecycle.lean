import SrxNote.Crypto.Lifecycle
import SrxNote.Crypto.Proofs.Binding

/-!
# Stale methods

The methods of the local mapping are those that `srxCryptoUnbind` clears, so that
none of them outlives its library. The other five do (`unbind_stale_iff`). An
object with an open library is not touched by a further `srxCryptoInit`.
-/

namespace SrxNote.Crypto

/-- What `srxCryptoInit` does to an object without an open library, by the value that it returns. -/
inductive InitEffect (s s' : Sca) : Int → Prop
  | library (lib : Library) (name : Method → Option String) :
      s'.api.libHandle = some lib → (∀ m, s'.api.method m = resolve lib (name m) m) →
        InitEffect s s' 1
  | localMapping : s'.api.libHandle = none →
      (∀ m, s'.api.method m = if m ∈ localMethods then .wrap m else s.api.method m) →
        InitEffect s s' 1
  | failed : s'.api.libHandle = none →
      (∀ m, s'.api.method m = if m ∈ localMethods then .null else s.api.method m) →
        InitEffect s s' 0

theorem srxCryptoUnbind_method (s : Sca) (m : Method) :
    (srxCryptoUnbind s).api.method m = if m ∈ localMethods then .null else s.api.method m := by
  rw [srxCryptoUnbind, setMethods_method]
  cases m <;> rfl

theorem srxCryptoUnbind_libHandle (s : Sca) : (srxCryptoUnbind s).api.libHandle = none := by
  rw [srxCryptoUnbind, (setMethods_frame _ _ _).1]

/-- The methods that are cleared first are methods of the local mapping. -/
theorem prepared_method (host : Host) (s : Sca) {m : Method} (hm : m ∉ localMethods) :
    (prepared host s).api.method m = s.api.method m := by
  show (resetMethods s).api.method m = s.api.method m
  rw [resetMethods, setMethods_method, if_neg]
  revert hm
  cases m <;> decide

theorem prepared_libHandle (host : Host) (s : Sca) :
    (prepared host s).api.libHandle = s.api.libHandle :=
  (setMethods_frame _ _ _).1

/-! ### One call -/

/-- A failing call ends with `srxCryptoUnbind`. -/
theorem InitEffect.of_unbind {s t : Sca}
    (ht : ∀ m, m ∉ localMethods → t.api.method m = s.api.method m) :
    InitEffect s (srxCryptoUnbind t) 0 := by
  apply InitEffect.failed (srxCryptoUnbind_libHandle t)
  intro m
  rw [srxCryptoUnbind_method]
  split
  · rfl
  · rename_i hm
    exact ht m hm

/-- A configured library that cannot be opened fails, and one that can has all methods bound. -/
theorem initEffect_bindLibrary (host : Host) (set : ConfigSetting) {s t : Sca}
    (ht : ∀ m, m ∉ localMethods → t.api.method m = s.api.method m) :
    let r := bindLibrary host
      ⟨1, false, set.lookupString "library_name", fun m => set.lookupString m.setting⟩ t
    InitEffect s (if r.1 = 0 then (0, srxCryptoUnbind r.2) else r).2
      (if r.1 = 0 then (0, srxCryptoUnbind r.2) else r).1 := by
  intro r
  cases hlib : host.dlopen (set.lookupString "library_name") with
  | none =>
      have hr : r = (0, { t with api := { t.api with libHandle := none }, dlError := false }) := by
        simp only [r, bindLibrary, hlib]
      rw [hr, if_pos rfl]
      exact InitEffect.of_unbind ht
  | some lib =>
      have hone : r.1 = 1 := by simp only [r, bindLibrary, hlib]
      rw [if_neg (by simp [hone]), hone]
      obtain ⟨lib', hlib', hmethod⟩ := bindLibrary_method hone
      rw [hlib] at hlib'
      cases hlib'
      apply InitEffect.library lib (fun m => set.lookupString m.setting) ?_ hmethod
      simp only [bindLibrary, hlib]
      rw [bindMethods_eq _ _ _ rfl, (setMethods_frame _ _ _).1]
      rfl

/-- On an object without an open library a call either opens one and binds every method in it, or
    goes to the local mapping, or fails. -/
theorem initEffect (host : Host) {s : Sca} (h : s.api.libHandle = none) :
    InitEffect s (srxCryptoInit host s).2 (srxCryptoInit host s).1 := by
  have hprep : ∀ m, m ∉ localMethods → (prepared host s).api.method m = s.api.method m :=
    fun m hm => prepared_method host s hm
  rw [srxCryptoInit_eq h]
  cases hfile : configFileOf host s.api with
  | none => exact InitEffect.of_unbind hprep
  | some file =>
      cases hcfg : host.configReadFile file with
      | none =>
          have hload : loadConfigured host file (prepared host s) = (0, prepared host s) := by
            simp [loadConfigured, hcfg, Mapping.missing]
          simp only [hload]
          exact InitEffect.of_unbind hprep
      | some cfg =>
          have hread : ∀ m, m ∉ localMethods →
              (readConfig cfg (prepared host s)).2.api.method m = s.api.method m := by
            intro m hm
            rw [readConfig_api, hprep m hm]
          cases hconf : cfg.lookupString "library_conf" with
          | none =>
              simp only [loadConfigured_local _ hcfg hconf]
              apply InitEffect.localMapping
              · rw [if_neg Int.one_ne_zero]
                show (useLocalWrappers _).api.libHandle = none
                rw [useLocalWrappers, (setMethods_frame _ _ _).1, readConfig_api,
                  prepared_libHandle, h]
              · intro m
                show (useLocalWrappers _).api.method m = _
                rw [useLocalWrappers, setMethods_method]
                split
                · rfl
                · rename_i hm
                  exact hread m hm
          | some conf =>
              cases hset : cfg.lookup conf with
              | none =>
                  have hload : loadConfigured host file (prepared host s) =
                      (0, (readConfig cfg (prepared host s)).2) := by
                    simp [loadConfigured, hcfg, readMapping, hconf, hset, Mapping.missing]
                  simp only [hload]
                  exact InitEffect.of_unbind hread
              | some set =>
                  simp only [loadConfigured_group _ hcfg hconf hset]
                  exact initEffect_bindLibrary host set hread

/-- A call that fails has no open library when it comes to `srxCryptoUnbind`, so that it closes
    none. -/
theorem loadConfigured_failed {host : Host} {file : String} {s : Sca} (h : s.api.libHandle = none)
    (hfail : (loadConfigured host file s).1 = 0) :
    (loadConfigured host file s).2.api.libHandle = none := by
  cases hcfg : host.configReadFile file with
  | none =>
      simp only [loadConfigured, hcfg, Mapping.missing]
      exact h
  | some cfg =>
      have hread : (readConfig cfg s).2.api.libHandle = none := by rw [readConfig_api, h]
      cases hconf : cfg.lookupString "library_conf" with
      | none => simp [loadConfigured_local _ hcfg hconf] at hfail
      | some conf =>
          cases hset : cfg.lookup conf with
          | none =>
              simp only [loadConfigured, hcfg, readConfig_mapping, readMapping, hconf, hset,
                Mapping.missing]
              exact hread
          | some set =>
              rw [loadConfigured_group _ hcfg hconf hset] at hfail ⊢
              cases hlib : host.dlopen (set.lookupString "library_name") with
              | none => simp only [bindLibrary, hlib]
              | some lib => simp [bindLibrary, hlib] at hfail

/-- A call on an object with an open library fails and leaves the object alone. -/
theorem srxCryptoInit_open (host : Host) {s : Sca} (h : s.api.libHandle.isSome) :
    srxCryptoInit host s = (0, s) := by
  rw [srxCryptoInit, if_pos h]

/-! ### Runs -/

/-- Without an open library the methods of the local mapping are `NULL` or local wrappers. -/
def LocalOrNull (s : Sca) : Prop :=
  s.api.libHandle = none → ∀ m ∈ localMethods, s.api.method m = .null ∨ s.api.method m = .wrap m

theorem localOrNull_init {host : Host} {s : Sca} (hs : LocalOrNull s) :
    LocalOrNull (srxCryptoInit host s).2 := by
  cases hlib : s.api.libHandle with
  | some lib =>
      rw [srxCryptoInit_open host (by simp [hlib])]
      exact hs
  | none =>
      intro hnone m hm
      have heffect := initEffect host hlib
      revert hnone
      generalize (srxCryptoInit host s).2 = s' at heffect
      generalize (srxCryptoInit host s).1 = ret at heffect
      intro hnone
      cases heffect with
      | library lib name hopen _ =>
          rw [hnone] at hopen
          cases hopen
      | localMapping _ hmethod =>
          right
          rw [hmethod m, if_pos hm]
      | failed _ hmethod =>
          left
          rw [hmethod m, if_pos hm]

theorem localOrNull_unbind (s : Sca) : LocalOrNull (srxCryptoUnbind s) := by
  intro _ m hm
  left
  rw [srxCryptoUnbind_method, if_pos hm]

theorem localOrNull_of_path {s₀ : Sca} {ops : List ApiOp} {s : ApiState}
    (hpath : Run.Path apiStep (.start s₀) ops s) : LocalOrNull s.sca := by
  induction hpath with
  | nil => exact fun _ _ _ => .inl rfl
  | @snoc ops op s s' _ hs ih =>
      cases op with
      | init host =>
          cases hs
          exact localOrNull_init ih
      | unbind =>
          cases hs
          exact localOrNull_unbind s.sca

theorem not_stale_null (closed : List Library) : ¬ Stale closed .null := by
  rintro ⟨a, lib, name, hp, -, -⟩
  cases hp

theorem not_stale_wrap (closed : List Library) (m : Method) : ¬ Stale closed (.wrap m) := by
  rintro ⟨a, lib, name, hp, -, -⟩
  cases hp

/-- What `srxCryptoUnbind` leaves stale: the methods outside the local mapping that pointed into a
    library that is closed now. -/
theorem unbind_stale_iff (s : Sca) (closed : List Library) (m : Method) :
    Stale closed ((srxCryptoUnbind s).api.method m) ↔
      m ∉ localMethods ∧ Stale closed (s.api.method m) := by
  rw [srxCryptoUnbind_method]
  by_cases hm : m ∈ localMethods
  · simp [hm, not_stale_null]
  · simp [hm]

/-- No stale binding among the methods of the local mapping, in every state of a run from a zeroed
    object. A `srxCryptoInit` that fails leaves them at `NULL`, except on an object with an open
    library, which it does not touch. -/
theorem localMethods_not_stale (s₀ : Sca) (ops : List ApiOp) :
    Run.Always apiStep
      (fun s =>
        (∀ m ∈ localMethods, NotStale s m ∧
          (s.sca.api.libHandle = none → ClearedByFailure s m)) ∧
        (s.sca.api.libHandle.isSome → ∀ host, srxCryptoInit host s.sca = (0, s.sca)))
      (.start s₀) ops := by
  intro ops' s _ hpath
  refine ⟨fun m hm => ⟨fun hnone => ?_, fun hnone host hfail => ?_⟩,
    fun hopen host => srxCryptoInit_open host hopen⟩
  · rcases localOrNull_of_path hpath hnone m hm with hnull | hwrap
    · rw [hnull]
      exact not_stale_null s.closed
    · rw [hwrap]
      exact not_stale_wrap s.closed m
  · have heffect := initEffect host hnone
    rw [hfail] at heffect
    generalize (srxCryptoInit host s.sca).2 = s' at heffect
    cases heffect with
    | failed _ hmethod => rw [hmethod m, if_pos hm]

/-! ### An object that is initialized twice -/

/-- A library with a symbol for every name. -/
def fullLibrary : Library where
  symbols name := if name = "" then none else some 7
  symbols_empty := rfl

/-- A host whose configuration names this library. -/
def libraryHost : Host where
  sysconfdir := "/etc"
  fopen _ := true
  configReadFile _ := some ⟨fun _ => none, some, fun _ => some ⟨some⟩⟩
  dlopen _ := some fullLibrary

/-- The second `srxCryptoInit` returns 0, and `validate` stays bound. -/
theorem second_init_keeps_bindings :
    ¬ Run.Always apiStep (fun s => ∀ m, NotStale s m ∧ ClearedByFailure s m)
      (.start staleSca) [.init libraryHost] := by
  intro halways
  have hpath : Run.Path apiStep (.start staleSca) [.init libraryHost]
      { ApiState.start staleSca with
        sca := (srxCryptoInit libraryHost (ApiState.start staleSca).sca).2 } :=
    Run.Path.nil.snoc rfl
  have hopen : (srxCryptoInit libraryHost (ApiState.start staleSca).sca).2.api.libHandle =
      some fullLibrary := rfl
  have hbound : (srxCryptoInit libraryHost (ApiState.start staleSca).sca).2.api.method .validate =
      .addr 7 := by decide
  have hagain := srxCryptoInit_open libraryHost (Option.isSome_of_mem hopen)
  have hnull := (halways _ _ List.prefix_rfl hpath .validate).2 libraryHost (by rw [hagain])
  rw [hagain, hbound] at hnull
  cases hnull

end SrxNote.Crypto
