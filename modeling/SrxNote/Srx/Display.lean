import SrxNote.Srx.BestPath
import SrxNote.Srx.Commands

/-!
# The local preference that is shown

The LocPrf column of `route_vty_out`
(`diff-QuaggaSRx_SvnRev2241-stock.patch:3773-3834`), and the policies of a router
after commands have set and unset them.
-/

namespace SrxNote.Srx

variable {β : Type}

/-- The policy that `route_vty_out` shows a result with (3780-3801), where `srxDoLocPref` is set. -/
def srxLocPref (bgp : BgpPolicy) (srxResult : SRxResult) : Option SrxLocalPref :=
  match srxResult with
  | .valid => some bgp.locprfValid
  | .notfound => some bgp.locprfNotfound
  | .invalid => some bgp.locprfInvalid
  | _ => none

/-- The LocPrf column (3806-3834): the number with the letter behind it, or blanks. The product of the
    `int` and the `uint32_t` is one of unsigned numbers. -/
def routeVtyOutLocPrf (bgp : BgpPolicy) (binfo : RibPath β) : Option (UInt32 × List Char) :=
  let srxLocPref := srxLocPref bgp (srxCalcValidationState bgp.srxConfig binfo.toBgpInfo)
  match binfo.attr.localPref, srxLocPref with
  | some localPref, some srxLocPref =>
      some (if srxLocPref.relative ≠ 0 then
          localPref + UInt32.ofInt srxLocPref.relative * srxLocPref.value
        else srxLocPref.value, ['a'])
  | some localPref, none => some (localPref, [])
  | none, some srxLocPref =>
      if srxLocPref.isSet ≠ 0 then some (srxLocPref.value, ['s']) else none
  | none, none => none

/-- A call of `srx_val_local_preference_set` or `_unset`. -/
inductive LocprfCall where
  | set (index : LocprfIndex) (relative : Int) (value : UInt32)
  | unset (index : LocprfIndex)
  deriving DecidableEq, Repr

/-- What a call does. -/
def LocprfCall.apply (bgp : SrxSettings) : LocprfCall → SrxSettings
  | .set index relative value => srxValLocalPreferenceSet index relative value bgp
  | .unset index => srxValLocalPreferenceUnset index bgp

/-- The settings after these calls, from a table of zeros on. -/
def SrxSettings.afterCalls (bgp : SrxSettings) (calls : List LocprfCall) : SrxSettings :=
  calls.foldl LocprfCall.apply { bgp with srxValLocalPref := fun _ => ⟨0, 0, 0⟩ }

/-- What the decision reads of the settings of a router, with its default local preference. -/
def SrxSettings.policy (bgp : SrxSettings) (defaultLocalPref : UInt32) : BgpPolicy where
  srxConfig := bgp.srxConfig
  srxValPolicy := bgp.srxValPolicy
  locprfValid := bgp.srxValLocalPref .valid
  locprfNotfound := bgp.srxValLocalPref .notfound
  locprfInvalid := bgp.srxValLocalPref .invalid
  defaultLocalPref := defaultLocalPref

end SrxNote.Srx
