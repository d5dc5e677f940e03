import SrxNote.Bgpsec.Attr
import SrxNote.Misc.Text
import SrxNote.Srx.BestPath

/-!
# The `srx` commands of the router

The settings that the commands change (`struct bgp` in
`diff-QuaggaSRx_SvnRev2241-stock.patch:5235-5320`), the functions that change them
(77-97, 180-470), the handlers (6995-7789), and the command templates (4920-5166) in
the order in which they are installed (8104-8168). Quagga's own code is not part of
the patch: a line is cut into words, and it runs the command whose template it
matches word by word.

Left out are the key data that `srx_set_ski` loads, and what a command prints.
-/

namespace SrxNote.Srx
open SrxNote.Bgpsec SrxNote.Text

/-! ### The settings -/

/-- The indices of `srx_val_local_pref` (5269-5271). -/
inductive LocprfIndex where
  | valid
  | notfound
  | invalid
  deriving DecidableEq, Repr

/-- The algorithm and the SKI of an entry of `srx_bgpsec_key`. -/
structure RouterKey where
  algoID : UInt8
  ski : List UInt8
  ski_length : ski.length = skiLength

/-- The SRx settings of `struct bgp`. `bgpConfigSrx` is the flag `BGP_CONFIG_SRX` of its `config`,
    and `SRX_MAX_PRIVKEYS` is 2. -/
@[ext]
structure SrxSettings where
  srxHost : Option (List Char)
  srxPort : Int
  bgpConfigSrx : Bool
  srxKeepWindow : Int
  srxProxyID : UInt32
  srxConfig : UInt16
  srxValLocalPref : LocprfIndex → SrxLocalPref
  srxValPolicy : UInt16
  srxDefaultRoaVal : SRxResult
  srxDefaultBgpsecVal : SRxResult
  srxBgpsecKey : Fin 2 → RouterKey
  srxBgpsecActiveKey : UInt8
  srxEcommunityFlags : UInt8
  srxEcommunitySubcode : UInt8

/-- The settings, whether the proxy is connected to the server, and `flagDoConnectSrx`. -/
structure SrxRouter where
  bgp : SrxSettings
  connected : Bool
  doConnect : Bool

/-- What a command depends on besides the router: whether the server answers, whether a key file
    loads and its key is registered, and `SCA_ECDSA_ALGORITHM` of the crypto API. -/
structure VtyEnv where
  online : Bool
  keyInstalls : Bool
  scaEcdsaAlgorithm : UInt8

/-- `CMD_SUCCESS`, `CMD_WARNING` and `CMD_ERR_INCOMPLETE`. -/
inductive CmdResult where
  | success
  | warning
  | errIncomplete
  deriving DecidableEq, Repr

/-- `SRX_VAL_POLICY_IGNORE_NOTFOUND`, `_INVALID` and `_UNDEFINED` (5276-5278). -/
def srxValPolicyIgnoreNotfound : UInt16 := (1 : UInt16) <<< 1
def srxValPolicyIgnoreInvalid : UInt16 := (1 : UInt16) <<< 2
def srxValPolicyIgnoreUndefined : UInt16 := (1 : UInt16) <<< 3

/-- `SRX_BGP_FLAG_ECOMMUNITY` and `SRX_BGP_FLAG_ECOMMUNITY_EBGP`. -/
def srxBgpFlagEcommunity : UInt8 := (1 : UInt8) <<< 0
def srxBgpFlagEcommunityEbgp : UInt8 := (1 : UInt8) <<< 1

def zeroKey : RouterKey := ⟨0, List.replicate skiLength 0, rfl⟩

/-- A fresh router after `srx_set_default` (675-721), with its router id in host order. What the
    function does not set is zero from the allocation. -/
def freshRouter (routerId : UInt32) : SrxRouter where
  bgp :=
    { srxHost := none
      srxPort := 0
      bgpConfigSrx := false
      srxKeepWindow := 900
      srxProxyID := routerId
      srxConfig := srxSetDefault
      srxValLocalPref := fun _ => ⟨0, 0, 0⟩
      srxValPolicy := srxValPolicyIgnoreUndefined
      srxDefaultRoaVal := .undefined
      srxDefaultBgpsecVal := .undefined
      srxBgpsecKey := fun _ => zeroKey
      srxBgpsecActiveKey := 0
      srxEcommunityFlags := 0
      srxEcommunitySubcode := 0 }
  connected := false
  doConnect := false

/-! ### The functions that change them -/

/-- A command that changes the settings and succeeds. -/
def SrxRouter.changed (r : SrxRouter) (f : SrxSettings → SrxSettings) : CmdResult × SrxRouter :=
  (.success, { r with bgp := f r.bgp })

/-- `srx_set_proxyID` (77-97). The proxy has the same id as the router at all times. -/
def srxSetProxyID (proxyID : UInt32) (r : SrxRouter) : CmdResult × SrxRouter :=
  if r.connected then (.warning, r)
  else r.changed fun bgp => { bgp with srxProxyID := proxyID }

/-- `bgp_srx_set` with `srx_connect_proxy` (131-165, 180-251). -/
def bgpSrxSet (env : VtyEnv) (host : List Char) (port : Int) (doConnect : Bool) (r : SrxRouter) :
    CmdResult × SrxRouter :=
  if r.connected then (.warning, r)
  else
    let bgp := { r.bgp with bgpConfigSrx := true, srxHost := some host, srxPort := port }
    if doConnect then
      if env.online then (.success, { r with bgp := bgp, connected := true })
      else (.success, { r with bgp := bgp, doConnect := true })
    else (.success, { r with bgp := bgp })

/-- `bgp_srx_unset` (261-286), which `srx_disconnect` calls. `XFREE` leaves a NULL pointer. -/
def bgpSrxUnset (r : SrxRouter) : CmdResult × SrxRouter :=
  if r.bgp.bgpConfigSrx then
    (.success,
      { r with bgp := { r.bgp with bgpConfigSrx := false, srxHost := none }, connected := false })
  else (.success, r)

/-- `srx_val_local_preference_set` and `_unset` (375-403). -/
def srxValLocalPreferenceSet (index : LocprfIndex) (relative : Int) (value : UInt32)
    (bgp : SrxSettings) : SrxSettings :=
  { bgp with
    srxValLocalPref := fun i => if i = index then ⟨1, relative, value⟩ else bgp.srxValLocalPref i }

def srxValLocalPreferenceUnset (index : LocprfIndex) (bgp : SrxSettings) : SrxSettings :=
  { bgp with
    srxValLocalPref := fun i => if i = index then ⟨0, 1, 0⟩ else bgp.srxValLocalPref i }

/-- `srx_val_policy_set` and `_unset` (412-429). -/
def srxValPolicySet (policy : UInt16) (bgp : SrxSettings) : SrxSettings :=
  { bgp with srxValPolicy := bgp.srxValPolicy ||| policy }

def srxValPolicyUnset (policy : UInt16) (bgp : SrxSettings) : SrxSettings :=
  { bgp with srxValPolicy := bgp.srxValPolicy &&& ~~~policy }

/-- `srx_extcommunity_set` (439-457): an empty `cmd` leaves the eBGP flag alone. -/
def srxExtcommunitySet (subcode : UInt8) (cmd : List Char) (bgp : SrxSettings) : SrxSettings :=
  let flags := bgp.srxEcommunityFlags ||| srxBgpFlagEcommunity
  let flags :=
    if 0 < cmd.length then
      if cmd.take 3 = "inc".toList then flags ||| srxBgpFlagEcommunityEbgp
      else flags &&& ~~~srxBgpFlagEcommunityEbgp
    else flags
  { bgp with srxEcommunityFlags := flags, srxEcommunitySubcode := subcode }

/-- `srx_extcommunity_unset` (465-471). -/
def srxExtcommunityUnset (bgp : SrxSettings) : SrxSettings :=
  { bgp with
    srxEcommunityFlags :=
      bgp.srxEcommunityFlags &&& ~~~srxBgpFlagEcommunity &&& ~~~srxBgpFlagEcommunityEbgp
    srxEcommunitySubcode := 0 }

/-- One round of the loop in `hex2bin_byte` (6746-6758), before the shift. -/
def hex2binNibble (c : Char) : UInt8 :=
  if 0x40 < c.toNat ∧ c.toNat < 0x80 then UInt8.ofNat (c.toNat - 0x37) &&& 0x0f
  else if 0x30 < c.toNat ∧ c.toNat < 0x40 then UInt8.ofNat (c.toNat - 0x30)
  else 0

def hex2binByte (hi lo : Char) : UInt8 := hex2binNibble hi <<< 4 ||| hex2binNibble lo

/-- The octets of the hexadecimal digits of a SKI, two digits an octet (7116-7124). -/
def readSki : List Char → List UInt8
  | hi :: lo :: rest => hex2binByte hi lo :: readSki rest
  | _ => []

/-- The loop writes `SKI_LENGTH` octets. -/
theorem length_readSki (n : Nat) (s : List Char) (h : s.length = 2 * n) : (readSki s).length = n := by
  induction n generalizing s with
  | zero =>
      rw [List.length_eq_zero_iff.mp h]
      rfl
  | succ n ih =>
      match s, h with
      | _ :: _ :: rest, h =>
          have hrest : rest.length = 2 * n := by
            simp only [List.length_cons] at h
            omega
          simp [readSki, ih rest hrest]

-- for the literals 0 and 1 of `Fin 2`
instance neZeroTwo : NeZero 2 := ⟨by decide⟩

/-- `srx_set_ski` (7068-7170), with `SKI_HEX_LENGTH`. -/
def srxSetSki (env : VtyEnv) (skiNum : Fin 2) (skiStr : List Char) (algoID : UInt8) (r : SrxRouter) :
    CmdResult × SrxRouter :=
  if h : skiStr.length = 2 * skiLength then
    let key : RouterKey := ⟨algoID, readSki skiStr, length_readSki skiLength skiStr h⟩
    let bgp := { r.bgp with srxBgpsecKey := Function.update r.bgp.srxBgpsecKey skiNum key }
    (if env.keyInstalls then .success else .warning, { r with bgp := bgp })
  else (.errIncomplete, r)

/-! ### Templates -/

/-- A token of a command template: a keyword, `(a|b)`, `<lo-hi>`, `A.B.C.D`, `WORD`, or `.LINE`, which
    takes the rest of the line. -/
inductive CmdToken where
  | lit (s : String)
  | choice (ss : List String)
  | range (lo hi : Nat)
  | ipv4
  | word
  | vararg
  deriving DecidableEq, Repr

/-- A part of a dotted quad: at most three digits, for a number up to 255. -/
def ipv4Part (w : List Char) : Bool :=
  w.length ≤ 3 &&
    match readDecimal w with
    | some n => n ≤ 255
    | none => false

def CmdToken.accepts : CmdToken → List Char → Bool
  | lit s, w => w = s.toList
  | choice ss, w => ss.any fun s => w = s.toList
  | range lo hi, w =>
      match readDecimal w with
      | some n => lo ≤ n && n ≤ hi
      | none => false
  | ipv4, w => (w.splitOn '.').length = 4 && (w.splitOn '.').all ipv4Part
  | word, _ => true
  | vararg, _ => true

/-- Whether the word goes to `argv`. -/
def CmdToken.isVariable : CmdToken → Bool
  | lit _ => false
  | _ => true

/-- The arguments of a line that matches the template word by word. -/
def matchTemplate : List CmdToken → List (List Char) → Option (List (List Char))
  | [], [] => some []
  | .vararg :: _, w :: ws => some (w :: ws)
  | t :: ts, w :: ws =>
      if t.accepts w then (matchTemplate ts ws).map fun argv => if t.isVariable then w :: argv else argv
      else none
  | _, _ => none

/-- A template of keywords and the variables behind them. -/
def keywords (ss : List String) (ts : List CmdToken) : List CmdToken := ss.map .lit ++ ts

/-- An installed command: its template and its `DEFUN`. -/
structure Command where
  template : List CmdToken
  handler : VtyEnv → List (List Char) → SrxRouter → CmdResult × SrxRouter

/-! ### Handlers -/

/-- `atoi` and `strtoul` of an argument that its template has accepted. -/
def number (w : List Char) : Nat := (readDecimal w).getD 0

/-- `VTY_GET_INTEGER_RANGE` of a port. -/
def getPort (w : List Char) : Option Nat :=
  match readDecimal w with
  | some n => if 1 ≤ n ∧ n ≤ 65535 then some n else none
  | none => none

/-- `srx_set_server` (6995-7023) and `srx_connect` (7350-7379); an empty host name gives `empty`. -/
def serverCommand (doConnect : Bool) (empty : CmdResult) (env : VtyEnv) (argv : List (List Char))
    (r : SrxRouter) : CmdResult × SrxRouter :=
  match argv with
  | [host, port] =>
      if host.length = 0 then (empty, r)
      else
        match getPort port with
        | none => (.warning, r)
        | some port => bgpSrxSet env host port doConnect r
  | _ => (.errIncomplete, r)

def srxSetServer := serverCommand false .warning
def srxConnect := serverCommand true .errIncomplete

/-- `srx_connect_short` (7025-7057). -/
def srxConnectShort (env : VtyEnv) (_ : List (List Char)) (r : SrxRouter) : CmdResult × SrxRouter :=
  match r.bgp.srxHost with
  | none => (.warning, r)
  | some host =>
      if host.length = 0 then (.warning, r)
      else if r.bgp.srxPort = 0 then (.warning, r)
      else bgpSrxSet env host r.bgp.srxPort true r

/-- `bgpsec_ski` (7176-7200), the deprecated form. -/
def bgpsecSki (env : VtyEnv) (argv : List (List Char)) (r : SrxRouter) : CmdResult × SrxRouter :=
  match argv with
  | [skiStr] =>
      srxSetSki env 0 skiStr env.scaEcdsaAlgorithm
        { r with bgp := { r.bgp with srxBgpsecActiveKey := 0 } }
  | _ => (.errIncomplete, r)

/-- `srx_bgpsec_ski` (7214-7256). -/
def srxBgpsecSki (env : VtyEnv) (argv : List (List Char)) (r : SrxRouter) : CmdResult × SrxRouter :=
  match argv with
  | [skiNum, algoID, skiStr] =>
      if h : number skiNum < 2 then
        if number algoID < 1 ∨ 254 < number algoID then (.errIncomplete, r)
        else srxSetSki env ⟨number skiNum, h⟩ skiStr (UInt8.ofNat (number algoID)) r
      else (.errIncomplete, r)
  | _ => (.errIncomplete, r)

/-- `srx_bgpsec_active_ski` (7258-7286). -/
def srxBgpsecActiveSki (_ : VtyEnv) (argv : List (List Char)) (r : SrxRouter) :
    CmdResult × SrxRouter :=
  match argv with
  | [activeNum] =>
      if number activeNum < 2 then
        r.changed fun bgp => { bgp with srxBgpsecActiveKey := UInt8.ofNat (number activeNum) }
      else (.errIncomplete, r)
  | _ => (.errIncomplete, r)

/-- `srx_evaluation` (7393-7410): what begins with `b` is `bgpsec`. -/
def srxEvaluation (_ : VtyEnv) (argv : List (List Char)) (r : SrxRouter) : CmdResult × SrxRouter :=
  let mode :=
    if (argv.headD []).take 1 = "b".toList then srxConfigEvalOrigin ||| srxConfigEvalPath
    else srxConfigEvalOrigin
  r.changed fun bgp => { bgp with srxConfig := bgpSrxEvaluation bgp.srxConfig mode.toNat }

/-- `no_srx_evaluation` (7509-7519) and `srx_evaluation_bgpsec_distribute` (7413-7421). -/
def evaluationCommand (mode : Int) (_ : VtyEnv) (_ : List (List Char)) (r : SrxRouter) :
    CmdResult × SrxRouter :=
  r.changed fun bgp => { bgp with srxConfig := bgpSrxEvaluation bgp.srxConfig mode }

/-- The commands for the default results (7424-7506), with `bgp_srx_conf_default_result` (348-363). -/
def defaultRoaCommand (result : SRxResult) (_ : VtyEnv) (_ : List (List Char)) (r : SrxRouter) :
    CmdResult × SrxRouter :=
  r.changed fun bgp => { bgp with srxDefaultRoaVal := result }

def defaultPathCommand (result : SRxResult) (_ : VtyEnv) (_ : List (List Char)) (r : SrxRouter) :
    CmdResult × SrxRouter :=
  r.changed fun bgp => { bgp with srxDefaultBgpsecVal := result }

/-- `srx_display` and `no_srx_display` (7537-7560), with `bgp_srx_display` (328-340). -/
def displayCommand (enable : Bool) (_ : VtyEnv) (_ : List (List Char)) (r : SrxRouter) :
    CmdResult × SrxRouter :=
  r.changed fun bgp =>
    { bgp with
      srxConfig :=
        if enable then srxConfigSet bgp.srxConfig srxConfigDisplayInfo
        else srxConfigUnset bgp.srxConfig srxConfigDisplayInfo }

/-- `srx_keepwindow` (7562-7573). -/
def srxKeepwindow (_ : VtyEnv) (argv : List (List Char)) (r : SrxRouter) : CmdResult × SrxRouter :=
  r.changed fun bgp => { bgp with srxKeepWindow := number (argv.headD []) }

/-- A part of an address for `inet_aton`, in octal behind a leading zero. -/
def inetPart (w : List Char) : Option Nat :=
  let n :=
    match w with
    | '0' :: c :: cs =>
        if (c :: cs).all fun d => d.isDigit && d.toNat < '8'.toNat then
          some (Nat.ofDigitChars 8 (c :: cs) 0)
        else none
    | w => readDecimal w
  n.filter (· ≤ 255)

/-- `inet_aton` of a dotted quad, in host order. -/
def inetAton (w : List Char) : Option UInt32 :=
  match (w.splitOn '.').map inetPart with
  | [some a, some b, some c, some d] =>
      some (UInt32.ofNat a <<< 24 ||| UInt32.ofNat b <<< 16 ||| UInt32.ofNat c <<< 8 ||| UInt32.ofNat d)
  | _ => none

/-- `srx_proxyid` (7576-7606). -/
def srxProxyid (_ : VtyEnv) (argv : List (List Char)) (r : SrxRouter) : CmdResult × SrxRouter :=
  match inetAton (argv.headD []) with
  | some address => srxSetProxyID address r
  | none => (.warning, r)

/-- `parse_local_pref_index` (7618-7626). -/
def parseLocalPrefIndex (w : List Char) : LocprfIndex :=
  if w.take 1 = "v".toList then .valid else if w.take 1 = "n".toList then .notfound else .invalid

/-- `validation_local_preference` (7639-7663), which sets with two or three arguments. -/
def validationLocalPreference (set : Bool) (_ : VtyEnv) (argv : List (List Char)) (r : SrxRouter) :
    CmdResult × SrxRouter :=
  let index := parseLocalPrefIndex (argv.headD [])
  if set then
    let lpVal := UInt32.ofNat (number ((argv.drop 1).headD []))
    let relative : Int :=
      match argv.drop 2 with
      | [] => 0
      | w :: _ => if w.take 1 = "a".toList then 1 else -1
    r.changed (srxValLocalPreferenceSet index relative lpVal)
  else r.changed (srxValLocalPreferenceUnset index)

/-- The commands of the ignore and prefer policies (7692-7764). -/
def policyCommand (set : Bool) (policy : UInt16) (_ : VtyEnv) (_ : List (List Char)) (r : SrxRouter) :
    CmdResult × SrxRouter :=
  if set then r.changed (srxValPolicySet policy) else r.changed (srxValPolicyUnset policy)

/-- `srx_send_extcommunity` and `srx_send_extcommunity_ebgp` (7766-7780). -/
def srxSendExtcommunity (_ : VtyEnv) (argv : List (List Char)) (r : SrxRouter) :
    CmdResult × SrxRouter :=
  r.changed (srxExtcommunitySet (UInt8.ofNat (number (argv.headD []))) ((argv.drop 1).headD []))

def noSrxSendExtcommunity (_ : VtyEnv) (_ : List (List Char)) (r : SrxRouter) :
    CmdResult × SrxRouter :=
  r.changed srxExtcommunityUnset

/-- A command that leaves the settings alone. -/
def idleCommand (res : CmdResult) (_ : VtyEnv) (_ : List (List Char)) (r : SrxRouter) :
    CmdResult × SrxRouter := (res, r)

/-! ### The installed commands -/

/-- The commands of `bgp_vty_init` (8104-8168). `bgpsec register keys` asks for an argument that its
    template does not have. -/
def installed : List Command :=
  [⟨keywords ["show", "srx-config"] [], idleCommand .success⟩,
    ⟨keywords ["srx", "connect"] [], srxConnectShort⟩,
    ⟨keywords ["srx", "connect"] [.vararg, .range 0 65535], srxConnect⟩,
    ⟨keywords ["srx", "disconnect"] [], fun _ _ => bgpSrxUnset⟩,
    ⟨keywords ["srx", "set-server"] [.vararg, .range 0 65535], srxSetServer⟩,
    ⟨keywords ["srx", "set-origin-value", "valid"] [], defaultRoaCommand .valid⟩,
    ⟨keywords ["srx", "set-origin-value", "notfound"] [], defaultRoaCommand .notfound⟩,
    ⟨keywords ["srx", "set-origin-value", "invalid"] [], defaultRoaCommand .invalid⟩,
    ⟨keywords ["srx", "set-origin-value", "undefined"] [], defaultRoaCommand .undefined⟩,
    ⟨keywords ["srx", "set-path-value", "valid"] [], defaultPathCommand .valid⟩,
    ⟨keywords ["srx", "set-path-value", "invalid"] [], defaultPathCommand .invalid⟩,
    ⟨keywords ["srx", "set-path-value", "undefined"] [], defaultPathCommand .undefined⟩,
    ⟨keywords ["srx", "evaluation"] [.choice ["origin_only", "bgpsec"]], srxEvaluation⟩,
    ⟨keywords ["no", "srx", "evaluation"] [], evaluationCommand 0⟩,
    ⟨keywords ["srx", "evaluation", "bgpsec", "distributed"] [],
      evaluationCommand srxConfigEvalDistr.toNat⟩,
    ⟨keywords ["srx", "display"] [], displayCommand true⟩,
    ⟨keywords ["no", "srx", "display"] [], displayCommand false⟩,
    ⟨keywords ["srx", "keep-window"] [.range 0 65535], srxKeepwindow⟩,
    ⟨keywords ["srx", "set-proxy-id"] [.ipv4], srxProxyid⟩,
    ⟨keywords ["srx", "policy", "local-preference"]
        [.choice ["valid", "notfound", "invalid"], .range 0 4294967295, .choice ["add", "subtract"]],
      validationLocalPreference true⟩,
    ⟨keywords ["srx", "policy", "local-preference"]
        [.choice ["valid", "notfound", "invalid"], .range 0 4294967295],
      validationLocalPreference true⟩,
    ⟨keywords ["no", "srx", "policy", "local-preference"] [.choice ["valid", "notfound", "invalid"]],
      validationLocalPreference false⟩,
    ⟨keywords ["srx", "policy", "ignore-notfound"] [], policyCommand true srxValPolicyIgnoreNotfound⟩,
    ⟨keywords ["no", "srx", "policy", "ignore-notfound"] [],
      policyCommand false srxValPolicyIgnoreNotfound⟩,
    ⟨keywords ["srx", "policy", "ignore-invalid"] [], policyCommand true srxValPolicyIgnoreInvalid⟩,
    ⟨keywords ["no", "srx", "policy", "ignore-invalid"] [],
      policyCommand false srxValPolicyIgnoreInvalid⟩,
    ⟨keywords ["srx", "policy", "ignore-undefined"] [],
      policyCommand true srxValPolicyIgnoreUndefined⟩,
    ⟨keywords ["no", "srx", "policy", "ignore-undefined"] [],
      policyCommand false srxValPolicyIgnoreUndefined⟩,
    ⟨keywords ["srx", "policy", "prefer-valid"] [], policyCommand true srxValPolicyPreferValid⟩,
    ⟨keywords ["no", "srx", "policy", "prefer-valid"] [], policyCommand false srxValPolicyPreferValid⟩,
    ⟨keywords ["bgpsec", "ski"] [.word], bgpsecSki⟩,
    ⟨keywords ["bgpsec", "sign"] [.choice ["key", "id"]], idleCommand .warning⟩,
    ⟨keywords ["srx", "bgpsec", "ski"] [.choice ["0", "1"], .range 1 254, .word], srxBgpsecSki⟩,
    ⟨keywords ["srx", "bgpsec", "active"] [.choice ["0", "1"]], srxBgpsecActiveSki⟩,
    ⟨keywords ["srx", "bgpsec", "register", "keys"] [], idleCommand .errIncomplete⟩,
    ⟨keywords ["srx", "extcommunity"] [.range 0 255], srxSendExtcommunity⟩,
    ⟨keywords ["srx", "extcommunity"] [.range 0 255, .choice ["include_ebgp", "only_ibgp"]],
      srxSendExtcommunity⟩,
    ⟨keywords ["no", "srx", "extcommunity"] [], noSrxSendExtcommunity⟩]

/-- The command that a line runs, applied to the arguments of the line. -/
def lookupCommand (ws : List (List Char)) : Option (VtyEnv → SrxRouter → CmdResult × SrxRouter) :=
  installed.findSome? fun cmd =>
    (matchTemplate cmd.template ws).map fun argv env r => cmd.handler env argv r

/-- A line that is skipped: it has no word, or its first character that is not blank is `!`. -/
def isComment (l : List Char) : Bool :=
  match words l with
  | [] => true
  | w :: _ => w.head? = some '!'

/-- A line that one of the templates matches. -/
def accepted (l : List Char) : Bool := (lookupCommand (words l)).isSome

/-- One line of a configuration. A line that no template matches has no effect. -/
def execLine (env : VtyEnv) (r : SrxRouter) (l : List Char) : SrxRouter :=
  if isComment l then r
  else
    match lookupCommand (words l) with
    | some run => (run env r).2
    | none => r

def execLines (env : VtyEnv) (r : SrxRouter) (ls : List (List Char)) : SrxRouter :=
  ls.foldl (execLine env) r

end SrxNote.Srx
