import Mathlib.Logic.Function.Basic
import SrxNote.Srx.Commands

/-!
# Which routes are ignored, and when their node is processed again

`bgp_info_set_ignore_flag`, `bgp_info_set_validation_result` with the queue, and
`srx_bgp_requeue_all` (`diff-QuaggaSRx_SvnRev2241-stock.patch:2680-2984`), on the
two tables of the router. The best path of a node is selected when the node is
taken from the queue of `bgp_process`.

Three things are taken over from Quagga and not read in the patch: the queue of
`bgp_process`, that holds a node once and gives up each in some order; a withdrawn path
is marked and stays in its node, as it is freed or restored by code outside the patch;
and the steps of the decision behind those of the patch are a parameter, that reads the
attributes of two paths and not which of them is selected already. What is selected is
known by its attributes. The default results and the extended community are the same in
a whole run. The messages to the server, and the identifiers that its answers change,
are in `Router`.
-/

namespace SrxNote.Srx

variable {β δ : Type}

/-- The value of `ignore` (2698-2735); the case of UNDEFINED runs into the default. -/
def ignores (bgp : BgpPolicy) (valRes : SRxResult) : Bool :=
  if checkFlag bgp.srxConfig srxConfigEvaluate then
    match valRes with
    | .invalid => checkFlag bgp.srxValPolicy srxValPolicyIgnoreInvalid
    | .notfound => checkFlag bgp.srxValPolicy srxValPolicyIgnoreNotfound
    | .undefined => checkFlag bgp.srxValPolicy srxValPolicyIgnoreUndefined
    | _ => false
  else false

/-- `bgp_info_set_flag` and `bgp_info_unset_flag` with `BGP_INFO_IGNORE`. -/
def RibPath.setIgnore (info : RibPath β) (ignore : Bool) : RibPath β :=
  { info with flags := { info.flags with ignore := ignore } }

/-- `bgp_info_set_ignore_flag` (2691-2757): the path, and what is returned. -/
def bgpInfoSetIgnoreFlag (bgp : BgpPolicy) (info : RibPath β) : RibPath β × Bool :=
  let ignore := ignores bgp (srxCalcValidationState bgp.srxConfig info.toBgpInfo)
  if info.flags.ignore then
    if ignore = false then (info.setIgnore false, ignore) else (info, ignore)
  else if ignore = true then (info.setIgnore true, ignore)
  else (info, ignore)

/-- `bgp_info_set_validation_result` (2943-2984): the path, and `requeue`. -/
def bgpInfoSetResultRequeue (bgp : BgpPolicy) (resType : ValType) (roaResult bgpsecResult : SRxResult)
    (info : RibPath β) : RibPath β × Bool :=
  if resType.roa = false && resType.bgpsec = false then (info, false)
  else
    let oldResult := srxCalcValidationState bgp.srxConfig info.toBgpInfo
    let oldIgnore := info.flags.ignore
    let stored : RibPath β :=
      { info with toBgpInfo := bgpInfoSetValidationResult resType roaResult bgpsecResult info.toBgpInfo }
    let (info, ignore) := bgpInfoSetIgnoreFlag bgp stored
    let ignoreChanged := ignore != oldIgnore
    let resultChanged := decide (oldResult ≠ srxCalcValidationState bgp.srxConfig info.toBgpInfo)
    (info, ignoreChanged || resultChanged)

/-- What `verify_update` (3333-3457) does to the path: the default results and the flag. -/
def verifyUpdateResult (env : Env (PathAttr β) δ) (bgp : BgpPolicy) (roaResult bgpsecResult : SRxResult)
    (info : RibPath β) : RibPath β :=
  (bgpInfoSetIgnoreFlag bgp { info with
    toBgpInfo := storeDefault (defaultRoaResult env info.attr roaResult) bgpsecResult info.toBgpInfo }).1

/-- A new path (3561-3579 of `bgp_update_main`), registered under the local id that it was given. -/
def newPath (env : Env (PathAttr β) δ) (bgp : BgpPolicy) (attr : PathAttr β) (localID : Nat) : RibPath β :=
  verifyUpdateResult env bgp env.srxDefaultRoaVal env.srxDefaultBgpsecVal
    ⟨⟨attr, some .lid, 0, localID, env.srxDefaultRoaVal, env.srxDefaultBgpsecVal⟩, ⟨false, false, false, false⟩⟩

/-- A path whose attributes are replaced (3477-3532): it is reset where it was registered, and registered
    under a new local id. -/
def replacePath (env : Env (PathAttr β) δ) (bgp : BgpPolicy) (attr : PathAttr β) (localID : Nat)
    (ri : RibPath β) : RibPath β × Bool :=
  let ri : RibPath β :=
    if ri.infoHash.isSome then
      { ri with updateID := 0, valResROA := env.srxDefaultRoaVal, valResBGPSEC := env.srxDefaultBgpsecVal }
    else ri
  let ri : RibPath β := { ri with attr := attr, infoHash := some .lid, localID := localID }
  (verifyUpdateResult env bgp env.srxDefaultRoaVal env.srxDefaultBgpsecVal ri, true)

/-- A path that is sent for validation again with the results that it has (616-640), which queues
    nothing. -/
def synchPath (env : Env (PathAttr β) δ) (bgp : BgpPolicy) (info : RibPath β) : RibPath β × Bool :=
  (verifyUpdateResult env bgp info.valResROA info.valResBGPSEC info, false)

/-- A path that is withdrawn: `BGP_INFO_REMOVED`. -/
def removePath (ri : RibPath β) : RibPath β × Bool := ({ ri with flags := { ri.flags with removed := true } }, true)

/-! ### The tables and the queue -/

/-- The tables of IPv4 that the patch walks over. -/
inductive Safi where
  | unicast
  | multicast
  deriving DecidableEq, Repr

/-- A node of a table. -/
structure Place where
  safi : Safi
  index : Nat
  deriving DecidableEq, Repr

/-- `struct bgp_node`: its paths, and the attributes of the selected one. -/
structure RibNode (β : Type) where
  paths : List (RibPath β)
  selected : Option (PathAttr β)

/-- The settings, the tables and the queue of `bgp_process`. -/
structure BgpRib (β : Type) where
  bgp : BgpPolicy
  rib : Safi → List (RibNode β)
  queue : List Place

namespace BgpRib

/-- Tables whose nodes have no path yet. -/
def init (bgp : BgpPolicy) (nodes : Safi → Nat) : BgpRib β :=
  ⟨bgp, fun safi => List.replicate (nodes safi) ⟨[], none⟩, []⟩

def node (r : BgpRib β) (pl : Place) : Option (RibNode β) := (r.rib pl.safi)[pl.index]?

def setNode (r : BgpRib β) (pl : Place) (n : RibNode β) : BgpRib β :=
  { r with rib := Function.update r.rib pl.safi ((r.rib pl.safi).set pl.index n) }

/-- `bgp_process`: a node that is scheduled is not queued again. -/
def bgpProcess (r : BgpRib β) (pl : Place) : BgpRib β :=
  if pl ∈ r.queue then r else { r with queue := r.queue ++ [pl] }

/-- A change of a path, and `srx_bgp_requeue_update` (2836-2842) where it is asked for. -/
def changePath (r : BgpRib β) (pl : Place) (i : Nat) (f : RibPath β → RibPath β × Bool) : Option (BgpRib β) := do
  let n ← r.node pl
  let info ← n.paths[i]?
  let (info, requeue) := f info
  let r := r.setNode pl { n with paths := n.paths.set i info }
  some (if requeue then r.bgpProcess pl else r)

/-- The walk of `srx_bgp_requeue_all` over a table, from a node on. -/
def requeueTable (safi : Safi) : Nat → List (RibNode β) → BgpRib β → BgpRib β
  | _, [], r => r
  | k, n :: nodes, r =>
      requeueTable safi (k + 1) nodes (if n.paths = [] then r else r.bgpProcess ⟨safi, k⟩)

/-- `srx_bgp_requeue_all` (2850-2876). -/
def srxBgpRequeueAll (r : BgpRib β) : BgpRib β :=
  requeueTable .unicast 0 (r.rib .unicast) (requeueTable .multicast 0 (r.rib .multicast) r)

end BgpRib

/-- The best path of a node; `later` are the steps behind those of the patch. -/
def RibNode.best (bgp : BgpPolicy) (later : PathAttr β → PathAttr β → Bool) (n : RibNode β) :
    Option (PathAttr β) :=
  (bgpBestSelection bgp (fun new exist => later new.attr exist.attr) n.paths).map fun ri => ri.attr

/-- What happens to the tables: an update with a new path, one that replaces the attributes of a path,
    a result of the server, a synchronization request for the first path of a node, a path that is
    withdrawn, a command that changes the settings, `srx_bgp_requeue_all`, and a node that is taken
    from the queue. -/
inductive BgpRibOp (β : Type) where
  | update (pl : Place) (attr : PathAttr β) (localID : Nat)
  | replace (pl : Place) (i : Nat) (attr : PathAttr β) (localID : Nat)
  | result (pl : Place) (i : Nat) (resType : ValType) (roaResult bgpsecResult : SRxResult)
  | synch (pl : Place)
  | withdraw (pl : Place) (i : Nat)
  | configure (bgp : BgpPolicy)
  | requeueAll
  | process (pl : Place)

/-- One operation; none is one on a node or a path that is not there. -/
def bgpRibStep (env : Env (PathAttr β) δ) (later : PathAttr β → PathAttr β → Bool) (r : BgpRib β) :
    BgpRibOp β → Option (BgpRib β)
  | .update pl attr localID => do
      let n ← r.node pl
      some ((r.setNode pl { n with paths := newPath env r.bgp attr localID :: n.paths }).bgpProcess pl)
  | .replace pl i attr localID => r.changePath pl i (replacePath env r.bgp attr localID)
  | .result pl i resType roaResult bgpsecResult =>
      r.changePath pl i (bgpInfoSetResultRequeue r.bgp resType roaResult bgpsecResult)
  | .synch pl => r.changePath pl 0 (synchPath env r.bgp)
  | .withdraw pl i => r.changePath pl i removePath
  | .configure bgp => some { r with bgp := bgp }
  | .requeueAll => some r.srxBgpRequeueAll
  | .process pl => do
      let n ← r.node pl
      if pl ∈ r.queue then
        some { r.setNode pl { n with selected := n.best r.bgp later } with queue := r.queue.filter (· ≠ pl) }
      else none

end SrxNote.Srx
