import SrxNote.Crypto.Binding
import SrxNote.Misc.Run

/-!
# The life of an API object

Calls of `srxCryptoInit` and `srxCryptoUnbind` one after the other on one
`SRxCryptoAPI`, each `srxCryptoInit` on a host of its own
(`srxcryptoapi-VariousKeyManipulation.c:305-1067`). The libraries that were opened
and closed again are recorded.
-/

namespace SrxNote.Crypto

/-- The API object with what else the calls work on, and the libraries that were closed. -/
structure ApiState where
  sca : Sca
  closed : List Library

inductive ApiOp where
  | init (host : Host)
  | unbind

/-- The object is zeroed; everything else is as it may be. -/
def ApiState.start (s : Sca) : ApiState := ⟨{ s with api := ⟨none, none, fun _ => .null⟩ }, []⟩

/-- One call. `dlclose` is called for a handle that is not NULL; a `srxCryptoInit` that fails has none
    (`loadConfigured_failed`). -/
def apiStep (s : ApiState) : ApiOp → Option ApiState
  | .init host => some { s with sca := (srxCryptoInit host s.sca).2 }
  | .unbind => some ⟨srxCryptoUnbind s.sca, s.sca.api.libHandle.toList ++ s.closed⟩

/-- The pointer refers to a symbol of a library that was closed. -/
def Stale (closed : List Library) (p : Pointer) : Prop :=
  ∃ a lib name, p = .addr a ∧ lib ∈ closed ∧ lib.symbols name = some a

/-- Without an open library no method is stale. -/
def NotStale (s : ApiState) (m : Method) : Prop :=
  s.sca.api.libHandle = none → ¬ Stale s.closed (s.sca.api.method m)

/-- A `srxCryptoInit` that returns 0 leaves the method at `NULL`. -/
def ClearedByFailure (s : ApiState) (m : Method) : Prop :=
  ∀ host, (srxCryptoInit host s.sca).1 = 0 → (srxCryptoInit host s.sca).2.api.method m = .null

end SrxNote.Crypto
