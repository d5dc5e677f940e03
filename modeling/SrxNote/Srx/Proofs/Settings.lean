import Mathlib.Data.Bool.AllAny
import SrxNote.Srx.RunningConfig

/-!
# The settings that the commands lead to

Every installed command keeps the settings in a form that can be written: the host is
a word, the numbers are in the ranges of their templates, and the flag words have
only the bits that the commands set.
-/

namespace SrxNote.Srx
open SrxNote.Bgpsec SrxNote.Text

/-- The evaluation modes, without and with the display of SRx data. -/
def configValues : List UInt16 := [0, 2, 6, 14, 16, 18, 22, 30]

/-- The sets of the four policies. -/
def policyValues : List UInt16 := (List.range 16).map UInt16.ofNat

/-- A local preference policy is unset, or set with one of the three modes. -/
def SrxLocalPref.Wf (pref : SrxLocalPref) : Prop :=
  pref.isSet = 0 ∨ pref.isSet = 1 ∧ (pref.relative = 0 ∨ pref.relative = 1 ∨ pref.relative = -1)

/-- Settings that the commands can make. -/
structure SrxSettings.Wf (bgp : SrxSettings) : Prop where
  host : ∀ host, bgp.srxHost = some host → IsWord host
  flag : bgp.bgpConfigSrx = bgp.srxHost.isSome
  port : bgp.srxHost.isSome → 1 ≤ bgp.srxPort ∧ bgp.srxPort ≤ 65535
  keepWindow : 0 ≤ bgp.srxKeepWindow ∧ bgp.srxKeepWindow ≤ 65535
  config : bgp.srxConfig ∈ configValues
  localPref : ∀ i, (bgp.srxValLocalPref i).Wf
  policy : bgp.srxValPolicy ∈ policyValues
  roaVal : bgp.srxDefaultRoaVal ∈ [SRxResult.valid, .notfound, .invalid, .undefined]
  bgpsecVal : bgp.srxDefaultBgpsecVal ∈ [SRxResult.valid, .invalid, .undefined]
  ecommunity : (bgp.srxEcommunityFlags = 0 ∧ bgp.srxEcommunitySubcode = 0) ∨
    bgp.srxEcommunityFlags = 1 ∨ bgp.srxEcommunityFlags = 3

end SrxNote.Srx
