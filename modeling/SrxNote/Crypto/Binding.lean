import Mathlib.Logic.Function.Basic

/-!
# Binding the crypto API

`srxCryptoInit` and `srxCryptoUnbind`
(`srxcryptoapi-VariousKeyManipulation.c:243-1067`): the configuration file is looked
for and read, the library it names is opened, and the ten method pointers of an
`SRxCryptoAPI` are bound, each to a symbol of the library or to a local wrapper.

libconfig, `fopen` and `dlopen` are the `Host`. A failed `dlsym` leaves an error
behind that the next `dlerror` returns and clears.
-/

namespace SrxNote.Crypto

/-- The methods of an `SRxCryptoAPI`, in the order in which they are bound. -/
inductive Method where
  | validate
  | extValidate
  | signWithId
  | signWithKey
  | registerPrivateKey
  | unregisterPrivateKey
  | registerPublicKey
  | unregisterPublicKey
  | isExtended
  | isPrivateKeyStorage
  deriving DecidableEq, Repr

namespace Method

/-- The setting that names the symbol of a method, `SCA_VALIDATE` and so on (27-36). -/
def setting : Method → String
  | validate => "method_validate"
  | extValidate => "method_exitValidate"
  | signWithId => "method_sign_with_id"
  | signWithKey => "method_sign_with_key"
  | registerPrivateKey => "method_registerPrivateKey"
  | unregisterPrivateKey => "method_unregisterPrivateKey"
  | registerPublicKey => "method_registerPublicKey"
  | unregisterPublicKey => "method_unregisterPublicKey"
  | isExtended => "method_isExtended"
  | isPrivateKeyStorage => "method_isPrivateKeyStorage"

/-- The symbol that is tried next, `SCA_DEF_VALIDATE` and so on (38-47). -/
def defaultName : Method → String
  | validate => "validate"
  | extValidate => "extValidate"
  | signWithId => "sign_with_id"
  | signWithKey => "sign_with_key"
  | registerPrivateKey => "registerPrivateKey"
  | unregisterPrivateKey => "unregisterPrivateKey"
  | registerPublicKey => "registerPublicKey"
  | unregisterPublicKey => "unregisterPublicKey"
  | isExtended => "isExtended"
  | isPrivateKeyStorage => "isPrivateKeyStorage"

/-- The bind blocks, in the order of the source (588-1001). -/
def bindOrder : List Method :=
  [validate, extValidate, signWithId, signWithKey, registerPrivateKey, unregisterPrivateKey,
    registerPublicKey, unregisterPublicKey, isExtended, isPrivateKeyStorage]

theorem mem_bindOrder (m : Method) : m ∈ bindOrder := by
  cases m <;> decide

end Method

/-- A method pointer: an address, or the local wrapper of a method. -/
inductive Pointer where
  | null
  | addr (a : Nat)
  | wrap (m : Method)
  deriving DecidableEq, Repr

/-- An opened library. A symbol has a name that is not empty. -/
structure Library where
  symbols : String → Option Nat
  symbols_empty : symbols "" = none

structure SRxCryptoAPI where
  libHandle : Option Library
  configFile : Option String
  method : Method → Pointer

/-- A group of settings, and `config_setting_lookup_string` on it. -/
structure ConfigSetting where
  lookupString : String → Option String

/-- A configuration that was read, with `config_lookup_int`, `config_lookup_string` and
    `config_lookup`. -/
structure Config where
  lookupInt : String → Option Int
  lookupString : String → Option String
  lookup : String → Option ConfigSetting

/-- The file system and the dynamic linker. `dlopen` is also called without a name. -/
structure Host where
  sysconfdir : String
  fopen : String → Bool
  configReadFile : String → Option Config
  dlopen : Option String → Option Library

/-- The state that `srxCryptoInit` works on: the API object, a pending error of the dynamic linker,
    and the globals that the configuration sets. -/
structure Sca where
  api : SRxCryptoAPI
  dlError : Bool
  loglevel : Int
  termDebug : UInt64
  keyPath : String

def Sca.setMethod (s : Sca) (m : Method) (p : Pointer) : Sca :=
  { s with api := { s.api with method := Function.update s.api.method m p } }

def Sca.setMethods (s : Sca) (ms : List Method) (p : Method → Pointer) : Sca :=
  ms.foldl (fun s m => s.setMethod m (p m)) s

/-! ### The dynamic linker -/

/-- `dlsym`. A lookup that succeeds leaves the error state alone. -/
def dlsym (lib : Library) (name : String) (s : Sca) : Pointer × Sca :=
  match lib.symbols name with
  | some a => (.addr a, s)
  | none => (.null, { s with dlError := true })

/-- `dlerror`: whether an error was pending, and the state without it. -/
def dlerror (s : Sca) : Bool × Sca := (s.dlError, { s with dlError := false })

/-- `api->m = dlsym(api->libHandle, name)` and the `dlerror` behind it. -/
def linkMethod (lib : Library) (m : Method) (name : String) (s : Sca) : Bool × Sca :=
  let (p, s) := dlsym lib name s
  dlerror (s.setMethod m p)

/-- The bind block of a method (588-625 for `validate`): `name` is the configured symbol. -/
def bindMethod (lib : Library) (m : Method) (name : Option String) (s : Sca) : Sca :=
  let (loadDefault, s) :=
    match name with
    | none => (true, s)
    | some name =>
        if 0 < name.utf8ByteSize then
          let (failed, s) := linkMethod lib m name s
          (failed, (dlerror s).2)
        else (true, s)
  if loadDefault then
    let (failed, s) := linkMethod lib m m.defaultName s
    if failed then s.setMethod m (.wrap m) else s
  else s

/-- The bind blocks of `ms`, one after the other. -/
def bindMethods (lib : Library) (names : Method → Option String) (ms : List Method) (s : Sca) : Sca :=
  ms.foldl (fun s m => bindMethod lib m (names m) s) s

/-! ### The configuration -/

def sysCfgFile (host : Host) : String := host.sysconfdir ++ "/" ++ "srxcryptoapi.conf"
def locCfgFile : String := "./" ++ "srxcryptoapi.conf"

/-- `_checkConfigFile` (251-293): the API object has the file that was found. -/
def checkConfigFile (host : Host) (api : SRxCryptoAPI) : Bool × SRxCryptoAPI :=
  match api.configFile with
  | some _ => (true, api)
  | none =>
      if host.fopen (sysCfgFile host) then (true, { api with configFile := some (sysCfgFile host) })
      else if host.fopen locCfgFile then (true, { api with configFile := some locCfgFile })
      else (false, api)

/-- `sca_SetKeyPath` (1083-1095), with `MAX_CMD_LEN`. -/
def scaSetKeyPath (keyPath : String) (s : Sca) : Sca :=
  if keyPath.utf8ByteSize < 1024 - 1 then { s with keyPath := keyPath } else s

/-- `LOG_ERR` of `syslog.h`. -/
def logErr : Int := 3

/-- What the configuration says about the mapping: `retVal`, `useLocal`, and the names that were
    found. -/
structure Mapping where
  retVal : Int
  useLocal : Bool
  libraryName : Option String
  methodName : Method → Option String

def Mapping.missing (useLocal : Bool) : Mapping := ⟨0, useLocal, none, fun _ => none⟩

/-- The mapping information in a configuration (404-553). -/
def readMapping (cfg : Config) : Mapping :=
  match cfg.lookupString "library_conf" with
  | none => .missing true
  | some conf =>
      match cfg.lookup conf with
      | none => .missing false
      | some set => ⟨1, false, set.lookupString "library_name", fun m => set.lookupString m.setting⟩

/-- A configuration that was read (371-554): log level, key path, mapping. -/
def readConfig (cfg : Config) (s : Sca) : Mapping × Sca :=
  let loglevel := (cfg.lookupInt "debug-type").getD logErr
  let s := { s with loglevel := loglevel, termDebug := UInt64.ofInt loglevel }
  let s :=
    match cfg.lookupString "key_volt" with
    | some keyVolt => scaSetKeyPath keyVolt s
    | none => s
  (readMapping cfg, s)

/-! ### Binding and unbinding -/

/-- `srxCryptoUnbind` (1045-1067). -/
def srxCryptoUnbind (s : Sca) : Sca :=
  { s with api := { s.api with libHandle := none } }.setMethods
    [.registerPrivateKey, .unregisterPrivateKey, .signWithId, .signWithKey, .validate]
    fun _ => .null

/-- The configured library is opened and all methods are bound (562-1003). -/
def bindLibrary (host : Host) (map : Mapping) (s : Sca) : Int × Sca :=
  match host.dlopen map.libraryName with
  | none => (0, { s with api := { s.api with libHandle := none }, dlError := false })
  | some lib =>
      let s := { s with api := { s.api with libHandle := some lib } }
      (map.retVal, bindMethods lib map.methodName Method.bindOrder (dlerror s).2)

/-- The methods of the local mapping. -/
def localMethods : List Method :=
  [.signWithId, .signWithKey, .validate, .registerPrivateKey, .unregisterPrivateKey]

/-- The local mapping (1007-1017). -/
def useLocalWrappers (s : Sca) : Sca := s.setMethods localMethods .wrap

/-- `srxCryptoInit` with the configuration file that was found (364-1026). -/
def loadConfigured (host : Host) (file : String) (s : Sca) : Int × Sca :=
  let (map, s) :=
    match host.configReadFile file with
    | some cfg => readConfig cfg s
    | none => (.missing false, s)
  if map.retVal ≠ 0 then bindLibrary host map s
  else if map.useLocal then (1, useLocalWrappers s)
  else (0, s)

/-- The pointers that are set to `NULL` first (332-336). -/
def resetMethods (s : Sca) : Sca :=
  s.setMethods [.registerPrivateKey, .signWithId, .signWithKey, .validate] fun _ => .null

/-- `srxCryptoInit` (305-1038). An API object with an open library is left alone. -/
def srxCryptoInit (host : Host) (s : Sca) : Int × Sca :=
  if s.api.libHandle.isSome then (0, s)
  else
    let s := resetMethods s
    let (found, api) := checkConfigFile host s.api
    let s := { s with api := api }
    let (retVal, s) :=
      match found, api.configFile with
      | true, some file => loadConfigured host file s
      | _, _ => (0, s)
    if retVal = 0 then (0, srxCryptoUnbind s) else (retVal, s)

end SrxNote.Crypto
