import SrxNote.Crypto.KeyData
import SrxNote.Srx.Commands

/-!
# Writing the running configuration

`srx_config_write_configuration` and the part of `bgp_config_write` about the keys
(`diff-QuaggaSRx_SvnRev2241-stock.patch:816-985, 994-1018`) as they write to a file,
where `VTY_NEWLINE` is a line feed. The text of every `vty_out` is kept as the source
has it, line ends inside included.
-/

namespace SrxNote.Srx
open SrxNote.Bgpsec SrxNote.Crypto SrxNote.Text

/-- `VTY_NEWLINE` of a file. -/
def vtyNewline : List Char := ['\n']

/-- `%d`. -/
def printInt (n : Int) : List Char :=
  if n < 0 then '-' :: decimal n.natAbs else decimal n.natAbs

/-- `%u.%u.%u.%u` of an address in host order. -/
def printAddress (a : UInt32) : List Char :=
  decimal (a >>> 24 &&& 0xFF).toNat ++ '.' :: decimal (a >>> 16 &&& 0xFF).toNat ++
    '.' :: decimal (a >>> 8 &&& 0xFF).toNat ++ '.' :: decimal (a &&& 0xFF).toNat

/-- The lines of a key; the deprecated form of the first one is a comment (1008-1015). -/
def writeKey (bgp : SrxSettings) (kIdx : Fin 2) : List Char :=
  let skiStr := skiHex (bgp.srxBgpsecKey kIdx).ski
  (if kIdx = 0 then
    "! The following form is deprecated.".toList ++ vtyNewline ++
      "! bgpsec ski ".toList ++ skiStr ++ vtyNewline
  else []) ++
    " srx bgpsec ski ".toList ++ decimal kIdx ++ " ".toList ++ skiStr ++ vtyNewline

/-- The keys in `bgp_config_write` (994-1018). -/
def writeKeys (bgp : SrxSettings) : List Char :=
  writeKey bgp 0 ++ writeKey bgp 1 ++
    " srx bgpsec active-ski ".toList ++ decimal bgp.srxBgpsecActiveKey.toNat ++ vtyNewline

/-- Proxy id, server and keep window (831-846). -/
def writeBasic (bgp : SrxSettings) : List Char :=
  vtyNewline ++ " ! SRx Basic Configuration Settings".toList ++ vtyNewline ++
    " srx set-proxy-id ".toList ++ printAddress bgp.srxProxyID ++ vtyNewline ++
    (match bgp.srxHost with
      | some host =>
          " ".toList ++ "srx set-server".toList ++ " ".toList ++ host ++ " ".toList ++
            printInt bgp.srxPort ++ vtyNewline
      | none => []) ++
    " ".toList ++ "srx keep-window".toList ++ " ".toList ++ printInt bgp.srxKeepWindow ++ vtyNewline

/-- The evaluation mode (849-869). -/
def writeEvaluation (bgp : SrxSettings) : List Char :=
  if srxConfigCheck bgp.srxConfig srxConfigEvalPath then
    if srxConfigCheck bgp.srxConfig srxConfigEvalDistr then
      " srx evaluation ".toList ++ "bgpsec".toList ++ " distributed".toList ++ vtyNewline
    else " srx evaluation ".toList ++ "bgpsec".toList ++ vtyNewline
  else if srxConfigCheck bgp.srxConfig srxConfigEvalOrigin then
    " srx evaluation ".toList ++ "origin_only".toList ++ vtyNewline
  else " no srx evaluation".toList ++ vtyNewline

/-- The extended community (871-887). -/
def writeExtcommunity (bgp : SrxSettings) : List Char :=
  if bgp.srxEcommunityFlags &&& srxBgpFlagEcommunity ≠ 0 then
    if bgp.srxEcommunityFlags &&& srxBgpFlagEcommunityEbgp ≠ 0 then
      " srx extcommunity ".toList ++ decimal bgp.srxEcommunitySubcode.toNat ++
        " include_ebgp".toList ++ vtyNewline
    else
      " srx extcommunity ".toList ++ decimal bgp.srxEcommunitySubcode.toNat ++
        " only_ibgp".toList ++ vtyNewline
  else " no srx extcommunity".toList ++ vtyNewline

/-- The display of SRx data (890-892). -/
def writeDisplay (bgp : SrxSettings) : List Char :=
  " ".toList ++ (if srxConfigCheck bgp.srxConfig srxConfigDisplayInfo then [] else "no ".toList) ++
    "srx display".toList ++ vtyNewline

/-- The default results (900-933). The texts end with a line feed of their own. -/
def writeDefaultRoa (bgp : SrxSettings) : List Char :=
  " ".toList ++
    match bgp.srxDefaultRoaVal with
    | .valid => "srx set-origin-value valid\n".toList
    | .notfound => "srx set-origin-value notfound\n".toList
    | .invalid => "srx set-origin-value invalid\n".toList
    | _ => "srx set-origin-value undefined\n".toList

def writeDefaultPath (bgp : SrxSettings) : List Char :=
  " ".toList ++
    match bgp.srxDefaultBgpsecVal with
    | .valid => "srx set-path-value valid\n".toList
    | .invalid => "srx set-path-value invalid\n".toList
    | _ => "srx set-path-value undefined\n".toList

/-- The evaluation settings (895-933). -/
def writeDefaults (bgp : SrxSettings) : List Char :=
  vtyNewline ++ " ! SRx Evaluation Configuration Settings".toList ++ vtyNewline ++
    writeDefaultRoa bgp ++ writeDefaultPath bgp

/-- `INDEX_STR` (818-823). -/
def LocprfIndex.str : LocprfIndex → String
  | valid => "valid"
  | notfound => "notfound"
  | invalid => "invalid"

/-- One round of the loop over the local preference policies (936-951). -/
def writeLocalPref (bgp : SrxSettings) (index : LocprfIndex) : List Char :=
  let pref := bgp.srxValLocalPref index
  if pref.isSet ≠ 0 then
    " ".toList ++ "srx policy local-preference".toList ++ " ".toList ++ index.str.toList ++
      " ".toList ++ decimal pref.value.toNat ++
      (if pref.relative ≠ 0 then
        " ".toList ++ (if pref.relative = 1 then "add".toList else "subtract".toList)
      else []) ++ vtyNewline
  else []

/-- The prefer and ignore policies (954-973). The comment of the ignore policy ends with `!` behind
    its line feed. -/
def writePolicies (bgp : SrxSettings) : List Char :=
  (if bgp.srxValPolicy &&& srxValPolicyPreferValid ≠ 0 then
    " ".toList ++ "srx policy prefer-valid".toList ++ vtyNewline
  else []) ++
  (if bgp.srxValPolicy &&& srxValPolicyIgnoreNotfound ≠ 0 then
    (if srxConfigCheck bgp.srxConfig srxConfigEvalPath then
      " ! The following policy only applies to \" srx evaluation ".toList ++ "origin_only".toList ++
        "\" ".toList ++ vtyNewline ++ "!".toList
    else []) ++ " ".toList ++ "srx policy ignore-notfound".toList ++ vtyNewline
  else []) ++
  (if bgp.srxValPolicy &&& srxValPolicyIgnoreInvalid ≠ 0 then
    " ".toList ++ "srx policy ignore-invalid".toList ++ vtyNewline
  else [])

/-- The connect command (976-981). -/
def writeConnect (bgp : SrxSettings) : List Char :=
  if bgp.bgpConfigSrx then
    vtyNewline ++ " ! Connect to SRx-server".toList ++ vtyNewline ++
      " ".toList ++ "srx connect".toList ++ vtyNewline
  else []

/-- `srx_config_write_configuration` (816-985). -/
def srxConfigWriteConfiguration (bgp : SrxSettings) : List Char :=
  writeBasic bgp ++ writeEvaluation bgp ++ writeExtcommunity bgp ++ writeDisplay bgp ++
    writeDefaults bgp ++ writeLocalPref bgp .valid ++ writeLocalPref bgp .notfound ++
    writeLocalPref bgp .invalid ++ writePolicies bgp ++ writeConnect bgp

/-- The SRx part of the running configuration, in the order in which `bgp_config_write` writes it. -/
def runningConfig (bgp : SrxSettings) : List Char := writeKeys bgp ++ srxConfigWriteConfiguration bgp

/-- The settings that a fresh router has after it has read the configuration. During the reading
    there is no connection to the server yet. -/
def reload (env : VtyEnv) (routerId : UInt32) (bgp : SrxSettings) : SrxSettings :=
  (execLines { env with online := false } (freshRouter routerId) (lines (runningConfig bgp))).bgp

/-- The configuration written from the settings is accepted, and reading it restores them. -/
def RoundTrip (env : VtyEnv) (routerId : UInt32) (bgp : SrxSettings) : Prop :=
  (∀ l ∈ lines (runningConfig bgp), isComment l = false → accepted l = true) ∧
    reload env routerId bgp = bgp

/-! ### Reachable settings -/

end SrxNote.Srx
