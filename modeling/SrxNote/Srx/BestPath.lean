import SrxNote.Misc.Scan
import SrxNote.Srx.Router

/-!
# The best path with the SRx policies

The combination of the two validation results of a route
(`diff-QuaggaSRx_SvnRev2241-stock.patch:2759-2829`), the change of the local
preference (2996-3047) and the steps that the patch puts into `bgp_info_cmp`
(3050-3131). The steps behind them are an arbitrary function. Of the scan over the
paths of a prefix it is taken over that it skips what has a flag of
`BGP_INFO_UNUSEABLE` and keeps what `bgp_info_cmp` prefers.
-/

namespace SrxNote.Srx

variable {α : Type}

/-- `srx_config_check` (62-65): whether all of the bits are set. -/
def srxConfigCheck (config flags : UInt16) : Bool := config &&& flags = flags

/-- The value of a comparison, read as a result: 0 is VALID and 1 is NOTFOUND. -/
def comparisonResult (b : Bool) : SRxResult := if b then .notfound else .valid

/-- `srx_calc_validation_state` (2794-2829). -/
def srxCalcValidationState (srxConfig : UInt16) (info : BgpInfo α) : SRxResult :=
  if srxConfigCheck srxConfig srxConfigEvalPath then
    match info.valResROA with
    | .valid => info.valResBGPSEC
    | .notfound => .invalid
    | .invalid => .invalid
    | .undefined => if info.valResBGPSEC = .invalid then .invalid else .undefined
    -- the value of the comparison is returned, not the one the log message announces
    | .donotuse => comparisonResult (info.valResBGPSEC = .undefined)
    | .other _ => comparisonResult (info.valResBGPSEC = .undefined)
  else if srxConfigCheck srxConfig srxConfigEvalOrigin then info.valResROA
  else .donotuse

/-- `struct srx_local_pref` (5215-5222). -/
structure SrxLocalPref where
  isSet : Int
  relative : Int
  value : UInt32
  deriving DecidableEq, Repr

/-- `SRX_VAL_POLICY_PREFER_VALID` (5275). -/
def srxValPolicyPreferValid : UInt16 := (1 : UInt16) <<< 0

/-- The fields of `struct bgp` that the decision reads; `srx_val_local_pref` is by its three indices
    (5268-5271). -/
structure BgpPolicy where
  srxConfig : UInt16
  srxValPolicy : UInt16
  locprfValid : SrxLocalPref
  locprfNotfound : SrxLocalPref
  locprfInvalid : SrxLocalPref
  defaultLocalPref : UInt32
  deriving DecidableEq, Repr

/-- `srx_loc_prev_value` (3004-3046). -/
def srxLocPrevValue (bgp : BgpPolicy) (locPref : UInt32) (valResult : SRxResult) : UInt32 :=
  let prefPolicy : Option SrxLocalPref :=
    match valResult with
    | .valid => some bgp.locprfValid
    | .notfound => some bgp.locprfNotfound
    | .invalid => some bgp.locprfInvalid
    | _ => none
  match prefPolicy with
  | none => locPref
  | some prefPolicy =>
      if prefPolicy.isSet > 0 then
        if prefPolicy.relative = 0 then prefPolicy.value
        else if prefPolicy.relative = -1 then
          if locPref > prefPolicy.value then locPref - prefPolicy.value else 0
        else locPref + prefPolicy.value
      else locPref

/-- The attributes that the decision reads up to the steps of the patch, and the others. -/
structure PathAttr (β : Type) where
  weight : UInt32
  localPref : Option UInt32
  rest : β

/-- The flags of `BGP_INFO_UNUSEABLE` (1276-1278). -/
structure InfoFlags where
  history : Bool
  damped : Bool
  removed : Bool
  ignore : Bool
  deriving DecidableEq, Repr

/-- A path of a prefix: its `struct bgp_info`. -/
structure RibPath (β : Type) extends BgpInfo (PathAttr β) where
  flags : InfoFlags

variable {β : Type}

/-- `CHECK_FLAG (ri->flags, BGP_INFO_UNUSEABLE)`. -/
def RibPath.unuseable (ri : RibPath β) : Bool :=
  ri.flags.history || ri.flags.damped || ri.flags.removed || ri.flags.ignore

/-- The local preference before the policies: the one of the attributes, or the default. -/
def RibPath.pref (bgp : BgpPolicy) (ri : RibPath β) : UInt32 :=
  ri.attr.localPref.getD bgp.defaultLocalPref

/-- `use_evaluation` (3058-3059). -/
def useEvaluation (bgp : BgpPolicy) : Bool :=
  srxConfigCheck bgp.srxConfig srxConfigEvalOrigin || srxConfigCheck bgp.srxConfig srxConfigEvalPath

/-- `bgp_info_cmp` (3050-3131) for a path that is compared, whether it returns 1; `later` is what the
    steps behind those of the patch return. -/
def bgpInfoCmp (bgp : BgpPolicy) (later : RibPath β → RibPath β → Bool) (new : RibPath β)
    (exist : Option (RibPath β)) : Bool :=
  match exist with
  | none => true
  | some exist =>
      -- 0.25 stop if ignore flag is set
      if useEvaluation bgp && new.flags.ignore then false
      else
        let existResult := srxCalcValidationState bgp.srxConfig exist.toBgpInfo
        let newResult := srxCalcValidationState bgp.srxConfig new.toBgpInfo
        -- 1. weight
        if new.attr.weight > exist.attr.weight then true
        else if new.attr.weight < exist.attr.weight then false
        else
          -- 2. local preference
          let newPref :=
            if useEvaluation bgp then srxLocPrevValue bgp (new.pref bgp) newResult else new.pref bgp
          let existPref :=
            if useEvaluation bgp then srxLocPrevValue bgp (exist.pref bgp) existResult
            else exist.pref bgp
          if newPref > existPref then true
          else if newPref < existPref then false
          -- 2.5. prefer valid
          else if useEvaluation bgp && checkFlag bgp.srxValPolicy srxValPolicyPreferValid then
            if newResult = .valid && existResult ≠ .valid then true
            else if newResult ≠ .valid && existResult = .valid then false
            else later new exist
          else later new exist

/-- The scan of Quagga's best path selection over the paths of a prefix. -/
def bgpBestSelection (bgp : BgpPolicy) (later : RibPath β → RibPath β → Bool)
    (paths : List (RibPath β)) : Option (RibPath β) :=
  scan RibPath.unuseable (bgpInfoCmp bgp later) none paths

end SrxNote.Srx
