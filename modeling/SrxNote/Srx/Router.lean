import SrxNote.Misc.Heap
import SrxNote.Srx.Config
import SrxNote.Srx.InfoHash

/-!
# Routes and their validation

What the router does with its routes towards the SRx server: a new route and a
route whose attributes are replaced are sent for validation, an answer or a
notification of the server is stored, and a route that is freed is taken out of
the tables (`diff-QuaggaSRx_SvnRev2241-stock.patch`). The routes live behind
handles that stand for their `struct bgp_info` pointers; a result of `none` is
an access to a route that was freed.

The best path selection that a changed result triggers, and the flag that
excludes a route from it, are read by none of these functions and left out.
-/

namespace SrxNote.Srx

/-- `SRxValidationResultVal`, the values that the functions below tell apart and the others. -/
inductive SRxResult where
  | valid
  | notfound
  | invalid
  | undefined
  | donotuse
  | other (value : UInt8)
  deriving DecidableEq, Repr

/-- `ValidationResultType`: the two flag bits. -/
structure ValType where
  roa : Bool
  bgpsec : Bool
  deriving DecidableEq, Repr

/-- The two tables. -/
inductive Table where
  | lid
  | uid
  deriving DecidableEq, Repr

/-- The fields of `struct bgp_info` that the patch adds (1236-1244), and what the server is asked
    about: the attributes, together with the prefix of the route's node. -/
structure BgpInfo (α : Type) where
  attr : α
  infoHash : Option Table
  updateID : Nat
  localID : Nat
  valResROA : SRxResult
  valResBGPSEC : SRxResult
  deriving DecidableEq, Repr

/-- What the functions read of `struct bgp`, of the attributes and of the libraries: the
    configuration, `srxCAPI->validate` (whether it returned `API_VALRESULT_VALID`), the extended
    community flag, the default results, the validation data of an attribute and the status octet
    of its extended community, where it has them, and uthash. -/
structure Env (α δ : Type) where
  srxConfig : UInt16
  srxCAPI : Option (δ → Bool)
  srxEcommunity : Bool
  srxDefaultRoaVal : SRxResult
  srxDefaultBgpsecVal : SRxResult
  validationData : α → Option δ
  ecommunityStatus : α → Option UInt8
  uthash : Uthash

/-- The routes, the tables and the counter of the local ids. -/
structure Router (α : Type) where
  routes : Heap (BgpInfo α)
  infoLidHash : List Item
  infoUidHash : List Item
  suiLocalID : Nat

/-- A call of a library: the two messages to the server, and a local validation. -/
inductive Event (α δ : Type) where
  | verifyUpdate (localID : Nat) (usePathVal : Bool) (roa bgpsec : SRxResult) (attr : α)
  | deleteUpdate (updateID : Nat)
  | validate (data : δ)

variable {α δ : Type}

namespace Router

/-- The router before the first route. -/
def init : Router α := ⟨[], [], [], 0⟩

/-- The items of a table. -/
def table (s : Router α) : Table → List Item
  | .lid => s.infoLidHash
  | .uid => s.infoUidHash

/-- Replace the items of a table. -/
def setTable (s : Router α) (t : Table) (items : List Item) : Router α :=
  match t with
  | .lid => { s with infoLidHash := items }
  | .uid => { s with infoUidHash := items }

/-- Write to the route behind a handle. -/
def modify (s : Router α) (p : Nat) (f : BgpInfo α → BgpInfo α) : Option (Router α) :=
  match s.routes.read p with
  | none => none
  | some info => some { s with routes := s.routes.set p (some (f info)) }

/-- `bgp_info_register` on a table of the router: `info->info_hash` is set where an item is
    added. -/
def register (s : Router α) (t : Table) (p identifier : Nat) : Option (Router α) :=
  if identifier = 0 then some s
  else
    (s.modify p fun info => { info with infoHash := some t }).map fun s =>
      s.setTable t (bgpInfoRegister (s.table t) p identifier).2

/-- `bgp_info_unregister` on a table of the router. -/
def unregister (env : Env α δ) (s : Router α) (t : Table) (identifier : Nat) : Router α :=
  s.setTable t (bgpInfoUnregister env.uthash (s.table t) identifier)

end Router

/-- `MAX_VALUE_INT` (3300). -/
def maxValueInt : Nat := 0x0FFFFFFF

/-- `getNextLocalID` (3308-3319): the counter afterwards, which is the value returned. -/
def getNextLocalID (suiLocalID : Nat) : Nat :=
  if suiLocalID < maxValueInt then suiLocalID + 1 else 1

/-- `checkEcomSRxValid` (2885-2930): the result that the status octet stands for, where the function
    does not return -1. -/
def checkEcomSRxValid (status : Option UInt8) : Option SRxResult :=
  match status with
  | none => none
  | some val =>
      if val = 0 then some .valid
      else if val = 1 then some .notfound
      else if val = 2 then some .invalid
      else if val = 0xAB then some .undefined
      else none

/-- The default result of the origin validation that `verify_update` uses (3337-3369). -/
def defaultRoaResult (env : Env α δ) (attr : α) (roaResult : SRxResult) : SRxResult :=
  if env.srxEcommunity then (checkEcomSRxValid (env.ecommunityStatus attr)).getD roaResult
  else roaResult

/-- The results that `verify_update` stores before it asks (3371-3379). -/
def storeDefault (roaResult bgpsecResult : SRxResult) (info : BgpInfo α) : BgpInfo α :=
  { info with
    valResROA := if roaResult ≠ .donotuse then roaResult else info.valResROA
    valResBGPSEC := if bgpsecResult ≠ .donotuse then bgpsecResult else info.valResBGPSEC }

/-- `verify_update` (3333-3457); `connected` is what `isConnected` returns. -/
def verifyUpdate (env : Env α δ) (s : Router α) (p : Nat) (roaResult bgpsecResult : SRxResult)
    (doRegisterLocalID connected : Bool) : Option (Router α × List (Event α δ)) :=
  match s.routes.read p with
  | none => none
  | some info =>
      let roaResult := defaultRoaResult env info.attr roaResult
      match s.modify p (storeDefault roaResult bgpsecResult) with
      | none => none
      | some s =>
          match if info.localID > 0 && doRegisterLocalID then s.register .lid p info.localID
            else some s with
          | none => none
          | some s =>
              if connected && (info.localID ≠ 0 || info.updateID ≠ 0) then
                some (s, [.verifyUpdate info.localID (checkFlag env.srxConfig srxConfigEvalDistr)
                  roaResult bgpsecResult info.attr])
              else some (s, [])

/-- The part of `bgp_update_main` that sends a route for validation under a new local id (3501-3519
    and 3560-3578). -/
def requestValidation (env : Env α δ) (s : Router α) (p : Nat) (connected : Bool) :
    Option (Router α × List (Event α δ)) :=
  let next := getNextLocalID s.suiLocalID
  match { s with suiLocalID := next }.modify p fun info => { info with localID := next } with
  | none => none
  | some s => verifyUpdate env s p env.srxDefaultRoaVal env.srxDefaultBgpsecVal true connected

/-- `bgp_update_main` for a route that is new (3540-3578). -/
def newRoute (env : Env α δ) (s : Router α) (attr : α) (connected : Bool) :
    Option (Router α × List (Event α δ)) :=
  let p := s.routes.fresh
  let new : BgpInfo α := ⟨attr, none, 0, 0, env.srxDefaultRoaVal, env.srxDefaultBgpsecVal⟩
  requestValidation env { s with routes := s.routes.alloc new } p connected

/-- The reset of a route whose attributes were replaced (BZ324, 3480-3504). The identifier is
    `ri->localID != 0 ? ri->localID == 0 : ri->updateID`, where the comparison is 0 whenever it is
    evaluated. -/
def resetRoute (env : Env α δ) (s : Router α) (p : Nat) : Option (Router α × List (Event α δ)) :=
  match s.routes.read p with
  | none => none
  | some ri =>
      match ri.infoHash with
      | none => some (s, [])
      | some t =>
          let identifier := if ri.localID ≠ 0 then (if ri.localID = 0 then 1 else 0) else ri.updateID
          let s := s.unregister env t identifier
          let ri := { ri with
            infoHash := none
            valResROA := env.srxDefaultRoaVal
            valResBGPSEC := env.srxDefaultBgpsecVal }
          if ri.updateID > 0 then
            (s.modify p fun _ => { ri with updateID := 0 }).map fun s =>
              (s, [.deleteUpdate ri.updateID])
          else (s.modify p fun _ => { ri with localID := 0 }).map fun s => (s, [])

/-- `bgp_update_main` for a route whose attributes are replaced (3477-3519). -/
def replaceRoute (env : Env α δ) (s : Router α) (p : Nat) (attr : α) (connected : Bool) :
    Option (Router α × List (Event α δ)) :=
  match s.modify p fun ri => { ri with attr := attr } with
  | none => none
  | some s =>
      match resetRoute env s p with
      | none => none
      | some (s, events) =>
          (requestValidation env s p connected).map fun (s, events') => (s, events ++ events')

/-- `bgp_info_free` (2645-2662). -/
def bgpInfoFree (env : Env α δ) (s : Router α) (p : Nat) : Option (Router α × List (Event α δ)) :=
  match s.routes.read p with
  | none => none
  | some binfo =>
      let (s, events) : Router α × List (Event α δ) :=
        match binfo.infoHash with
        | none => (s, [])
        | some t =>
            if binfo.updateID ≠ 0 then
              (s.unregister env t binfo.updateID, [.deleteUpdate binfo.updateID])
            else (s.unregister env t binfo.localID, [])
      (s.routes.free p).map fun routes => ({ s with routes := routes }, events)

/-- `bgp_info_set_validation_result` (2943-2984). -/
def bgpInfoSetValidationResult (resType : ValType) (roaResult bgpsecResult : SRxResult)
    (info : BgpInfo α) : BgpInfo α :=
  { info with
    valResROA := if resType.roa then roaResult else info.valResROA
    valResBGPSEC := if resType.bgpsec then bgpsecResult else info.valResBGPSEC }

/-- The local validation in `handleSRxValidationResult` (548-568): the calls it makes, the path
    result and the type of the result. -/
def localValidation (env : Env α δ) (attr : α) (valType : ValType) (bgpsecResult : SRxResult) :
    List (Event α δ) × SRxResult × ValType :=
  if ! checkFlag env.srxConfig srxConfigEvalDistr then
    match env.srxCAPI, env.validationData attr with
    | some validate, some data =>
        ([.validate data], if validate data then .valid else .invalid, { valType with bgpsec := true })
    | _, _ => ([], bgpsecResult, { valType with bgpsec := true })
  else ([], bgpsecResult, valType)

/-- An answer of the server: what `handleSRxValidationResult` is called with. -/
structure Answer where
  updateID : Nat
  localID : Nat
  valType : ValType
  roaResult : SRxResult
  bgpsecResult : SRxResult
  deriving DecidableEq, Repr

/-- The branch of `handleSRxValidationResult` for a known local id (524-572). -/
def takeAnswer (env : Env α δ) (s : Router α) (p : Nat) (answer : Answer) :
    Option (Router α × List (Event α δ)) :=
  match s.modify p fun info => { info with updateID := answer.updateID } with
  | none => none
  | some s =>
      match s.register .uid p answer.updateID with
      | none => none
      | some s =>
          let s := s.unregister env .lid answer.localID
          match s.routes.read p with
          | none => none
          | some info =>
              let (events, bgpsecResult, valType) :=
                localValidation env info.attr answer.valType answer.bgpsecResult
              (s.modify p fun info => bgpInfoSetValidationResult valType answer.roaResult
                bgpsecResult { info with localID := 0 }).map fun s => (s, events)

/-- `handleSRxValidationResult` (513-595). -/
def handleSRxValidationResult (env : Env α δ) (s : Router α) (answer : Answer) :
    Option (Router α × List (Event α δ)) :=
  if answer.localID ≠ 0 then
    match bgpInfoFetch env.uthash s.infoLidHash answer.localID with
    | some p => takeAnswer env s p answer
    | none => some (s, [.deleteUpdate answer.updateID])
  else
    match bgpInfoFetch env.uthash s.infoUidHash answer.updateID with
    | some p =>
        (s.modify p fun info => bgpInfoSetValidationResult answer.valType answer.roaResult
          answer.bgpsecResult info).map fun s => (s, [])
    | none => some (s, [.deleteUpdate answer.updateID])

/-- `handleSRxSynchRequest` (623-663) over the routes that head their nodes. -/
def handleSRxSynchRequest (env : Env α δ) (connected : Bool) (s : Router α) :
    List Nat → Option (Router α × List (Event α δ))
  | [] => some (s, [])
  | p :: ps =>
      match s.routes.read p with
      | none => none
      | some binfo =>
          match verifyUpdate env s p binfo.valResROA binfo.valResBGPSEC false connected with
          | none => none
          | some (s, events) =>
              (handleSRxSynchRequest env connected s ps).map fun (s, events') =>
                (s, events ++ events')

/-- `_handleSRxSynchRequest_processTable` (616-640): the nodes of a table in the order of the walk, each
    with its list of paths. `bnode->info` is the first path, and NULL where there is none. -/
def handleSRxSynchRequestProcessTable (env : Env α δ) (connected : Bool) (s : Router α) :
    List (List Nat) → Option (Router α × List (Event α δ))
  | [] => some (s, [])
  | [] :: nodes => handleSRxSynchRequestProcessTable env connected s nodes
  | (p :: _) :: nodes =>
      match s.routes.read p with
      | none => none
      | some binfo =>
          match verifyUpdate env s p binfo.valResROA binfo.valResBGPSEC false connected with
          | none => none
          | some (s, events) =>
              (handleSRxSynchRequestProcessTable env connected s nodes).map fun (s, events') =>
                (s, events ++ events')

/-- `handleSRxSynchRequest` (649-663) with the two tables for IPv4. -/
def handleSRxSynchRequestTables (env : Env α δ) (connected : Bool) (s : Router α)
    (multicast unicast : List (List Nat)) : Option (Router α × List (Event α δ)) :=
  match handleSRxSynchRequestProcessTable env connected s multicast with
  | none => none
  | some (s, events) =>
      (handleSRxSynchRequestProcessTable env connected s unicast).map fun (s, events') =>
        (s, events ++ events')

/-- What happens to the router: a new route, a replacement of a route's attributes, an answer or a
    notification of the server, the release of a route, a synchronization request. -/
inductive RouterOp (α : Type) where
  | new (attr : α) (connected : Bool)
  | replace (p : Nat) (attr : α) (connected : Bool)
  | answer (answer : Answer)
  | free (p : Nat)
  | synch (ps : List Nat) (connected : Bool)

/-- One operation: the router afterwards and the calls that were made. -/
def routerCall (env : Env α δ) (s : Router α) : RouterOp α → Option (Router α × List (Event α δ))
  | .new attr connected => newRoute env s attr connected
  | .replace p attr connected => replaceRoute env s p attr connected
  | .answer answer => handleSRxValidationResult env s answer
  | .free p => bgpInfoFree env s p
  | .synch ps connected => handleSRxSynchRequest env connected s ps

/-- The router after one operation. -/
def routerStep (env : Env α δ) (s : Router α) (op : RouterOp α) : Option (Router α) :=
  (routerCall env s op).map Prod.fst

end SrxNote.Srx
