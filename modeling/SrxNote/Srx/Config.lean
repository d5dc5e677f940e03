import Mathlib.Data.Nat.Notation

/-!
# The SRx configuration of the router

The flag word `srx_config` of `struct bgp` (`bgpd.h` of
`diff-QuaggaSRx_SvnRev2241-stock.patch:5235-5244`) and the command that selects
how updates are evaluated (288-319).
-/

namespace SrxNote.Srx

/-- `SRX_CONFIG_EVAL_ORIGIN`. -/
def srxConfigEvalOrigin : UInt16 := (1 : UInt16) <<< 1

/-- `SRX_CONFIG_EVAL_PATH`. -/
def srxConfigEvalPath : UInt16 := (1 : UInt16) <<< 2

/-- `SRX_CONFIG_EVALUATE`. -/
def srxConfigEvaluate : UInt16 := srxConfigEvalOrigin ||| srxConfigEvalPath

/-- `SRX_CONFIG_EVAL_DISTR`: bit 3 together with the bits of the other modes. -/
def srxConfigEvalDistr : UInt16 := (1 : UInt16) <<< 3 ||| srxConfigEvaluate

/-- `SRX_CONFIG_DISPLAY_INFO`. -/
def srxConfigDisplayInfo : UInt16 := (1 : UInt16) <<< 4

/-- Quagga's `CHECK_FLAG`: whether one of the bits is set. -/
def checkFlag (value flags : UInt16) : Bool := value &&& flags ≠ 0

/-- `srx_config_set` (39-42). -/
def srxConfigSet (config flags : UInt16) : UInt16 := config ||| flags

/-- `srx_config_unset` (50-53). -/
def srxConfigUnset (config flags : UInt16) : UInt16 := config &&& ~~~flags

/-- `bgp_srx_evaluation` (295-319): an unknown mode is reported and ignored. -/
def bgpSrxEvaluation (config : UInt16) (mode : Int) : UInt16 :=
  if mode = 0 then srxConfigUnset config srxConfigEvalDistr
  else if mode = srxConfigEvalDistr.toNat then srxConfigSet config srxConfigEvalDistr
  else if mode = srxConfigEvaluate.toNat ∨ mode = srxConfigEvalPath.toNat then
    srxConfigSet (srxConfigUnset config srxConfigEvalDistr) srxConfigEvaluate
  else if mode = srxConfigEvalOrigin.toNat then
    srxConfigSet (srxConfigUnset config srxConfigEvalDistr) srxConfigEvalOrigin
  else config

/-- The configuration that `srx_set_default` (675-717) starts with. -/
def srxSetDefault : UInt16 := srxConfigEvalOrigin ||| srxConfigDisplayInfo

end SrxNote.Srx
