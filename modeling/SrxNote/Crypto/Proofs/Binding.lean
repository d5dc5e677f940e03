import SrxNote.Crypto.Binding

/-!
# Which methods a call binds

The pending error of the dynamic linker is clear before every bind block, so a block
comes down to one assignment, and the ten blocks to an assignment for every method.
The local mapping assigns five of them.
-/

namespace SrxNote.Crypto

/-! ### Assignments -/

@[simp] theorem setMethod_setMethod (s : Sca) (m : Method) (p q : Pointer) :
    (s.setMethod m p).setMethod m q = s.setMethod m q := by
  simp [Sca.setMethod]

theorem setMethods_cons (s : Sca) (m : Method) (ms : List Method) (p : Method → Pointer) :
    s.setMethods (m :: ms) p = (s.setMethod m (p m)).setMethods ms p := rfl

/-- An assignment to the methods of `ms` sets these and no other. -/
theorem setMethods_method (s : Sca) (ms : List Method) (p : Method → Pointer) (m : Method) :
    (s.setMethods ms p).api.method m = if m ∈ ms then p m else s.api.method m := by
  induction ms generalizing s with
  | nil => rfl
  | cons head ms ih =>
      rw [setMethods_cons, ih]
      by_cases hms : m ∈ ms
      · simp [hms]
      · by_cases heq : m = head
        · subst heq
          simp [hms, Sca.setMethod]
        · simp [hms, heq, Sca.setMethod]

theorem setMethods_frame (s : Sca) (ms : List Method) (p : Method → Pointer) :
    (s.setMethods ms p).api.libHandle = s.api.libHandle ∧
      (s.setMethods ms p).api.configFile = s.api.configFile := by
  induction ms generalizing s with
  | nil => exact ⟨rfl, rfl⟩
  | cons m ms ih => exact ih (s.setMethod m (p m))

/-! ### The bind blocks -/

/-- Where a method has to be bound to in an open library: to the configured symbol, else to the one
    with the default name, else to the local wrapper. -/
def resolve (lib : Library) (name : Option String) (m : Method) : Pointer :=
  match name.bind lib.symbols with
  | some a => .addr a
  | none =>
      match lib.symbols m.defaultName with
      | some a => .addr a
      | none => .wrap m

theorem dlerror_of_clear {s : Sca} (hs : s.dlError = false) : dlerror s = (false, s) := by
  cases s
  simp only at hs
  subst hs
  rfl

theorem linkMethod_found {lib : Library} {name : String} {a : Nat} {s : Sca} (m : Method)
    (hs : s.dlError = false) (h : lib.symbols name = some a) :
    linkMethod lib m name s = (false, s.setMethod m (.addr a)) := by
  simp only [linkMethod, dlsym, h]
  exact dlerror_of_clear hs

theorem linkMethod_missing {lib : Library} {name : String} {s : Sca} (m : Method)
    (hs : s.dlError = false) (h : lib.symbols name = none) :
    linkMethod lib m name s = (true, s.setMethod m .null) := by
  cases s
  simp only at hs
  subst hs
  simp only [linkMethod, dlsym, h]
  rfl

/-- The second half of a bind block. -/
theorem linkDefault_eq {lib : Library} {name : Option String} {s : Sca} (m : Method)
    (hs : s.dlError = false) (hname : name.bind lib.symbols = none) :
    (if (linkMethod lib m m.defaultName s).1 then
        (linkMethod lib m m.defaultName s).2.setMethod m (.wrap m)
      else (linkMethod lib m m.defaultName s).2) = s.setMethod m (resolve lib name m) := by
  cases hdef : lib.symbols m.defaultName with
  | none => simp [linkMethod_missing m hs hdef, resolve, hname, hdef]
  | some a => simp [linkMethod_found m hs hdef, resolve, hname, hdef]

/-- A bind block is one assignment. -/
theorem bindMethod_eq (lib : Library) (m : Method) (name : Option String) {s : Sca}
    (hs : s.dlError = false) :
    bindMethod lib m name s = s.setMethod m (resolve lib name m) := by
  cases name with
  | none => exact linkDefault_eq m hs rfl
  | some name =>
      by_cases hlen : 0 < name.utf8ByteSize
      · cases hsym : lib.symbols name with
        | some a =>
            have hclear : (s.setMethod m (.addr a)).dlError = false := hs
            simp [bindMethod, hlen, linkMethod_found m hs hsym, dlerror_of_clear hclear, resolve, hsym]
        | none =>
            have hclear : (s.setMethod m .null).dlError = false := hs
            have hname : (some name).bind lib.symbols = none := hsym
            have hdef := linkDefault_eq m hclear hname
            simp only [setMethod_setMethod] at hdef
            simpa [bindMethod, hlen, linkMethod_missing m hs hsym, dlerror_of_clear hclear] using hdef
      · -- an empty name counts as no name, and no symbol has it
        have hempty : name = "" := String.utf8ByteSize_eq_zero_iff.mp (by omega)
        have hname : (some name).bind lib.symbols = none := by
          rw [hempty]
          exact lib.symbols_empty
        have hdef := linkDefault_eq m hs hname
        simpa [bindMethod, hlen] using hdef

/-- The bind blocks one after the other are one assignment for each method. -/
theorem bindMethods_eq (lib : Library) (names : Method → Option String) (ms : List Method) {s : Sca}
    (hs : s.dlError = false) :
    bindMethods lib names ms s = s.setMethods ms fun m => resolve lib (names m) m := by
  induction ms generalizing s with
  | nil => rfl
  | cons m ms ih =>
      have hclear : (s.setMethod m (resolve lib (names m) m)).dlError = false := hs
      calc bindMethods lib names (m :: ms) s
          = bindMethods lib names ms (bindMethod lib m (names m) s) := rfl
        _ = bindMethods lib names ms (s.setMethod m (resolve lib (names m) m)) := by
            rw [bindMethod_eq lib m (names m) hs]
        _ = s.setMethods (m :: ms) fun m => resolve lib (names m) m := ih hclear

/-! ### The call -/

/-- The configuration file of a call: the one of the API object, else the one in the system
    configuration folder, else the one in the current folder. -/
def configFileOf (host : Host) (api : SRxCryptoAPI) : Option String :=
  api.configFile.or
    (if host.fopen (sysCfgFile host) then some (sysCfgFile host)
      else if host.fopen locCfgFile then some locCfgFile
      else none)

theorem checkConfigFile_eq (host : Host) (api : SRxCryptoAPI) :
    checkConfigFile host api =
      ((configFileOf host api).isSome, { api with configFile := configFileOf host api }) := by
  obtain ⟨libHandle, configFile, method⟩ := api
  cases configFile with
  | some file => rfl
  | none =>
      simp only [checkConfigFile, configFileOf, Option.none_or]
      split
      · rfl
      · split <;> rfl

/-- The configuration names no group of settings for the library, and the call goes to the local
    mapping. -/
def LocalMapping (host : Host) (api : SRxCryptoAPI) : Prop :=
  api.libHandle = none ∧
    ∃ cfg, (configFileOf host api).bind host.configReadFile = some cfg ∧
      cfg.lookupString "library_conf" = none

/-- The group of settings that a configuration has for the library. -/
def libraryGroup (cfg : Config) : Option ConfigSetting :=
  (cfg.lookupString "library_conf").bind cfg.lookup

/-- The pointer that a method has to get: the configured library is asked for it, and a method that
    has no library to come from gets its local wrapper. -/
def requiredPointer (host : Host) (api : SRxCryptoAPI) (m : Method) : Pointer :=
  match ((configFileOf host api).bind host.configReadFile).bind libraryGroup with
  | none => .wrap m
  | some set =>
      match host.dlopen (set.lookupString "library_name") with
      | none => .wrap m
      | some lib => resolve lib (set.lookupString m.setting) m

/-! The mapping information decides between the library, the local mapping and failure. -/

@[simp] theorem readConfig_api (cfg : Config) (s : Sca) : (readConfig cfg s).2.api = s.api := by
  simp only [readConfig, scaSetKeyPath]
  split
  · split <;> rfl
  · rfl

@[simp] theorem readConfig_mapping (cfg : Config) (s : Sca) :
    (readConfig cfg s).1 = readMapping cfg := rfl

theorem loadConfigured_unread {host : Host} {file : String} (s : Sca)
    (h : host.configReadFile file = none) : (loadConfigured host file s).1 = 0 := by
  simp [loadConfigured, h, Mapping.missing]

theorem loadConfigured_noGroup {host : Host} {file : String} {cfg : Config} {conf : String} (s : Sca)
    (h : host.configReadFile file = some cfg) (hconf : cfg.lookupString "library_conf" = some conf)
    (hset : cfg.lookup conf = none) : (loadConfigured host file s).1 = 0 := by
  simp [loadConfigured, h, readMapping, hconf, hset, Mapping.missing]

theorem loadConfigured_local {host : Host} {file : String} {cfg : Config} (s : Sca)
    (h : host.configReadFile file = some cfg) (hconf : cfg.lookupString "library_conf" = none) :
    loadConfigured host file s = (1, useLocalWrappers (readConfig cfg s).2) := by
  simp [loadConfigured, h, readMapping, hconf, Mapping.missing]

theorem loadConfigured_group {host : Host} {file : String} {cfg : Config} {conf : String}
    {set : ConfigSetting} (s : Sca) (h : host.configReadFile file = some cfg)
    (hconf : cfg.lookupString "library_conf" = some conf) (hset : cfg.lookup conf = some set) :
    loadConfigured host file s =
      bindLibrary host ⟨1, false, set.lookupString "library_name", fun m => set.lookupString m.setting⟩
        (readConfig cfg s).2 := by
  simp [loadConfigured, h, readMapping, hconf, hset]

/-- A library that was opened has every method bound. -/
theorem bindLibrary_method {host : Host} {map : Mapping} {s : Sca}
    (hret : (bindLibrary host map s).1 = 1) :
    ∃ lib, host.dlopen map.libraryName = some lib ∧
      ∀ m, (bindLibrary host map s).2.api.method m = resolve lib (map.methodName m) m := by
  cases hlib : host.dlopen map.libraryName with
  | none => simp [bindLibrary, hlib] at hret
  | some lib =>
      refine ⟨lib, rfl, fun m => ?_⟩
      simp only [bindLibrary, hlib]
      rw [bindMethods_eq _ _ _ rfl, setMethods_method, if_pos m.mem_bindOrder]

/-! The call before and behind the mapping. -/

/-- What `loadConfigured` starts from. -/
def prepared (host : Host) (s : Sca) : Sca :=
  { resetMethods s with
    api := { (resetMethods s).api with configFile := configFileOf host s.api } }

theorem srxCryptoInit_eq {host : Host} {s : Sca} (h : s.api.libHandle = none) :
    srxCryptoInit host s =
      match configFileOf host s.api with
      | none => (0, srxCryptoUnbind (prepared host s))
      | some file =>
          let r := loadConfigured host file (prepared host s)
          if r.1 = 0 then (0, srxCryptoUnbind r.2) else r := by
  have hfile : configFileOf host (resetMethods s).api = configFileOf host s.api := by
    simp only [configFileOf, resetMethods, (setMethods_frame _ _ _).2]
  simp only [srxCryptoInit, h, Option.isSome_none, Bool.false_eq_true, if_false,
    checkConfigFile_eq, hfile]
  cases hcfg : configFileOf host s.api with
  | none => simp [prepared, hcfg]
  | some file => simp [prepared, hcfg]

/-- A call that returns 1 has found a file, and ends as the loading of this file did. -/
theorem srxCryptoInit_one {host : Host} {s : Sca} (hret : (srxCryptoInit host s).1 = 1) :
    s.api.libHandle = none ∧ ∃ file, configFileOf host s.api = some file ∧
      (loadConfigured host file (prepared host s)).1 = 1 ∧
      srxCryptoInit host s = loadConfigured host file (prepared host s) := by
  cases hlib : s.api.libHandle with
  | some lib => simp [srxCryptoInit, hlib] at hret
  | none =>
      rw [srxCryptoInit_eq hlib] at hret
      cases hfile : configFileOf host s.api with
      | none => simp [hfile] at hret
      | some file =>
          simp only [hfile] at hret
          by_cases hzero : (loadConfigured host file (prepared host s)).1 = 0
          · simp [hzero] at hret
          · rw [if_neg hzero] at hret
            refine ⟨rfl, file, rfl, hret, ?_⟩
            rw [srxCryptoInit_eq hlib]
            simp [hfile, hzero]

/-- With a group of settings for the library every method is bound as required. -/
theorem srxCryptoInit_library {host : Host} {s : Sca} (hret : (srxCryptoInit host s).1 = 1)
    (hlocal : ¬ LocalMapping host s.api) (m : Method) :
    (srxCryptoInit host s).2.api.method m = requiredPointer host s.api m := by
  obtain ⟨hlib, file, hfile, hload, heq⟩ := srxCryptoInit_one hret
  rw [heq]
  cases hcfg : host.configReadFile file with
  | none => simp [loadConfigured_unread _ hcfg] at hload
  | some cfg =>
      cases hconf : cfg.lookupString "library_conf" with
      | none => exact absurd ⟨hlib, cfg, by simp [hfile, hcfg], hconf⟩ hlocal
      | some conf =>
          cases hset : cfg.lookup conf with
          | none => simp [loadConfigured_noGroup _ hcfg hconf hset] at hload
          | some set =>
              rw [loadConfigured_group _ hcfg hconf hset] at hload ⊢
              obtain ⟨lib, hopen, hmethod⟩ := bindLibrary_method hload
              rw [hmethod m]
              simp [requiredPointer, hfile, hcfg, libraryGroup, hconf, hset, hopen]

/-- The local mapping succeeds, and leaves the methods that are not in it as they were. -/
theorem srxCryptoInit_local {host : Host} {s : Sca} (hlocal : LocalMapping host s.api) :
    (srxCryptoInit host s).1 = 1 ∧
      ∀ m, (srxCryptoInit host s).2.api.method m =
        if m ∈ localMethods then .wrap m else s.api.method m := by
  obtain ⟨hlib, cfg, hread, hconf⟩ := hlocal
  obtain ⟨file, hfile, hcfg⟩ := Option.bind_eq_some_iff.mp hread
  rw [srxCryptoInit_eq hlib, hfile]
  simp only [loadConfigured_local _ hcfg hconf]
  refine ⟨rfl, fun m => ?_⟩
  show (useLocalWrappers (readConfig cfg (prepared host s)).2).api.method m = _
  rw [useLocalWrappers, setMethods_method, readConfig_api]
  by_cases hm : m ∈ localMethods
  · simp [hm]
  · rw [if_neg hm, if_neg hm]
    have hreset : m ∉ [Method.registerPrivateKey, .signWithId, .signWithKey, .validate] := by
      revert hm
      cases m <;> decide
    show (resetMethods s).api.method m = s.api.method m
    rw [resetMethods, setMethods_method, if_neg hreset]

/-- The state with other method pointers. -/
def Sca.withMethods (s : Sca) (method : Method → Pointer) : Sca :=
  { s with api := { s.api with method := method } }

/-- A call that returns 1 sets every method pointer as it has to: whatever the pointers were before,
    they are the required ones afterwards. -/
def BindsAll (host : Host) (s : Sca) : Prop :=
  ∀ method, (srxCryptoInit host (s.withMethods method)).1 = 1 →
    ∀ m, (srxCryptoInit host (s.withMethods method)).2.api.method m = requiredPointer host s.api m

/-- A call binds every method exactly when it does not go to the local mapping: when a library is
    open already, or no configuration is found or can be read, or the configuration has
    `library_conf`. -/
theorem bindsAll_iff (host : Host) (s : Sca) : BindsAll host s ↔ ¬ LocalMapping host s.api := by
  constructor
  · intro hall hlocal
    -- all pointers are `NULL` before, and `extValidate` is not in the local mapping
    have hlocal' : LocalMapping host (s.withMethods fun _ => .null).api := hlocal
    obtain ⟨hret, hmethod⟩ := srxCryptoInit_local hlocal'
    have hnull := hmethod .extValidate
    rw [hall _ hret .extValidate] at hnull
    obtain ⟨hlib, cfg, hread, hconf⟩ := hlocal
    have hwrap : requiredPointer host s.api .extValidate = .wrap .extValidate := by
      simp [requiredPointer, hread, libraryGroup, hconf]
    have hnone : Method.extValidate ∉ localMethods := by decide
    rw [hwrap, if_neg hnone] at hnull
    cases hnull
  · intro hlocal method hret m
    exact srxCryptoInit_library hret hlocal m

/-- A configuration without any setting. -/
def bareConfig : Config := ⟨fun _ => none, fun _ => none, fun _ => none⟩

/-- A host that has this configuration as `/etc/srxcryptoapi.conf`. -/
def bareHost : Host where
  sysconfdir := "/etc"
  fopen := fun file => file = "/etc/srxcryptoapi.conf"
  configReadFile := fun file => if file = "/etc/srxcryptoapi.conf" then some bareConfig else none
  dlopen := fun _ => none

/-- An API object that was not cleared: no library, no file, and pointers to anywhere. -/
def staleSca : Sca := ⟨⟨none, none, fun _ => .addr 7⟩, false, 6, 3, ""⟩

theorem localMapping_bareHost : LocalMapping bareHost staleSca.api := by
  refine ⟨rfl, bareConfig, ?_, rfl⟩
  have hfile : configFileOf bareHost staleSca.api = some "/etc/srxcryptoapi.conf" := by decide
  rw [hfile]
  simp [bareHost]

/-- The call returns 1 and leaves `extValidate` at its stale address. -/
theorem bareHost_leaves_stale :
    ¬ BindsAll bareHost staleSca ∧ (srxCryptoInit bareHost staleSca).1 = 1 ∧
      (srxCryptoInit bareHost staleSca).2.api.method .extValidate = .addr 7 := by
  obtain ⟨hret, hmethod⟩ := srxCryptoInit_local localMapping_bareHost
  have hstale : (srxCryptoInit bareHost staleSca).2.api.method .extValidate = .addr 7 :=
    hmethod .extValidate
  refine ⟨fun hall => ?_, hret, hstale⟩
  have hreq := hall staleSca.api.method hret .extValidate
  rw [show staleSca.withMethods staleSca.api.method = staleSca from rfl, hstale] at hreq
  obtain ⟨-, cfg, hread, hconf⟩ := localMapping_bareHost
  simp [requiredPointer, hread, libraryGroup, hconf] at hreq

end SrxNote.Crypto
