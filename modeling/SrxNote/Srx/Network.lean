import SrxNote.Misc.Run
import SrxNote.Srx.Router

/-!
# The router and its requests

The router together with the requests that the server has not answered yet.
`verifyUpdate` adds a request. The server answers the requests in any order,
each one once, with an update id that depends on the content of the request
only, and it may send a notification for an update id at any time.
-/

namespace SrxNote.Srx

/-- A `verifyUpdate` message: the local id and the content it asks about. -/
structure Request (α : Type) where
  localID : Nat
  attr : α
  deriving DecidableEq, Repr

/-- The router and the requests without an answer. -/
structure Network (α : Type) where
  router : Router α
  requests : List (Request α)

variable {α δ : Type}

/-- The requests among the calls of an operation. -/
def sentRequests (events : List (Event α δ)) : List (Request α) :=
  events.filterMap fun
    | .verifyUpdate localID _ _ _ attr => some ⟨localID, attr⟩
    | _ => none

/-- What happens in the network: the operations of the router, the answer to one of the requests and
    a notification. -/
inductive NetworkOp (α : Type) where
  | new (attr : α) (connected : Bool)
  | replace (p : Nat) (attr : α) (connected : Bool)
  | free (p : Nat)
  | synch (ps : List Nat) (connected : Bool)
  | deliver (i : Nat) (valType : ValType) (roaResult bgpsecResult : SRxResult)
  | notify (updateID : Nat) (valType : ValType) (roaResult bgpsecResult : SRxResult)

namespace Network

/-- The network before the first route. -/
def init : Network α := ⟨Router.init, []⟩

/-- The operation of the router, and the requests that are then left. -/
def routerOp (updateIdOf : α → Nat) (n : Network α) :
    NetworkOp α → Option (RouterOp α × List (Request α))
  | .new attr connected => some (.new attr connected, n.requests)
  | .replace p attr connected => some (.replace p attr connected, n.requests)
  | .free p => some (.free p, n.requests)
  | .synch ps connected => some (.synch ps connected, n.requests)
  | .deliver i valType roaResult bgpsecResult =>
      (n.requests[i]?).map fun request =>
        (.answer ⟨updateIdOf request.attr, request.localID, valType, roaResult, bgpsecResult⟩,
          n.requests.eraseIdx i)
  | .notify updateID valType roaResult bgpsecResult =>
      some (.answer ⟨updateID, 0, valType, roaResult, bgpsecResult⟩, n.requests)

/-- One operation: the network afterwards and the calls that the router made. -/
def call (env : Env α δ) (updateIdOf : α → Nat) (n : Network α) (op : NetworkOp α) :
    Option (Network α × List (Event α δ)) :=
  match n.routerOp updateIdOf op with
  | none => none
  | some (op, requests) =>
      (routerCall env n.router op).map fun (s, events) =>
        (⟨s, requests ++ sentRequests events⟩, events)

/-- The network after one operation. -/
def step (env : Env α δ) (updateIdOf : α → Nat) (n : Network α) (op : NetworkOp α) :
    Option (Network α) :=
  (n.call env updateIdOf op).map Prod.fst

end Network

end SrxNote.Srx
