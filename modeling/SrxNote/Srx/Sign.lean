import SrxNote.Misc.Octets
import SrxNote.Srx.Config

/-!
# Signing a path towards a peer

`signBGPSecPathAttr` (`diff-QuaggaSRx_SvnRev2241-stock.patch:6242-6395`). It works
on the validation data of the attribute, which it adds for an origination and
removes again after a signature was made. A hash message is an address, and words
in network order are their octets.

`sign` and `sca_generateHashMessage` are the crypto API, which is not part of the
repository: what they return is an input. The releases of hash messages, which no
later call reads, and the log are left out.
-/

namespace SrxNote.Srx

/-- The address family of a prefix. -/
inductive Family where
  | inet
  | inet6
  | other
  deriving DecidableEq, Repr

/-- `family2afi`. -/
def family2afi : Family → UInt16
  | .inet => 1
  | .inet6 => 2
  | .other => 0

/-- `SAFI_UNICAST`. -/
def safiUnicast : UInt8 := 1

/-- The octets of an address in `struct prefix` and in `SCA_Prefix`. -/
def addrLen : Nat := 16

/-- `struct prefix`: no prefix is longer than the address. -/
structure QPrefix where
  family : Family
  prefixlen : UInt8
  val : List UInt8
  val_length : val.length = addrLen
  prefixlen_le : prefixlen.toNat ≤ 8 * addrLen
  deriving DecidableEq

/-- `SCA_Prefix`. -/
structure SCAPrefix where
  afi : List UInt8
  safi : UInt8
  length : UInt8
  ip : List UInt8
  deriving DecidableEq, Repr

/-- The fields of `SCA_BGPSecValidationData`. -/
structure ValidationData where
  nlri : Option SCAPrefix
  hashMessage : Option Nat
  bgpsecPathAttr : Option (List UInt8)
  status : UInt32
  deriving DecidableEq, Repr

/-- `SCA_BGPSEC_SecurePathSegment`. -/
structure SecurePathSegment where
  pCount : UInt8
  flags : UInt8
  asn : List UInt8
  deriving DecidableEq, Repr

/-- `SCA_BGPSecSignData` as it is handed to `sign`, without the signature, which is `NULL` then. -/
structure SCASignData where
  algorithmID : UInt8
  myHost : SecurePathSegment
  peerAS : List UInt8
  nlri : Option SCAPrefix
  ski : List UInt8
  status : UInt32
  hashMessage : Option Nat
  deriving DecidableEq, Repr

/-- `API_STATUS_OK`. -/
def apiStatusOk : UInt32 := 0

/-- What `signBGPSecPathAttr` reads of `struct bgp`: whether there is a crypto API and what
    `sca_generateHashMessage` makes of validation data, that is its hash message and its status. -/
structure SignEnv where
  as : UInt32
  srxConfig : UInt16
  srxCAPI : Bool
  algoID : UInt8
  ski : List UInt8
  generateHashMessage : ValidationData → Option Nat × UInt32

/-- What `sign` leaves in the sign data when it does not return `API_FAILURE`. -/
structure Signed (σ : Type) where
  signature : Option σ
  hashMessage : Option Nat

/-- One call: the arguments, and what `sign` returns in it. -/
structure SignCall (σ : Type) where
  peerAS : UInt32
  pfx : QPrefix
  pCount : UInt8
  flags : UInt8
  signed : Option (Signed σ)

/-- What a call returns, the validation data of the attribute afterwards and what `sign` was called
    with. -/
structure SignReturn (σ : Type) where
  signature : Option σ
  validationData : Option ValidationData
  handed : Option SCASignData

/-- The `nlri` of an origination (6301-6308). -/
def originNlri (pfx : QPrefix) : SCAPrefix :=
  let bLen := (pfx.prefixlen.toNat + 7) / 8
  { afi := be16 (family2afi pfx.family)
    safi := safiUnicast
    length := pfx.prefixlen
    ip := pfx.val.take bLen ++ List.replicate (addrLen - bLen) 0 }

/-- The validation data with all that `sign` needs (6290-6312). -/
def storeNlri (pfx : QPrefix) (valData : ValidationData) : ValidationData :=
  if valData.hashMessage = none then
    if valData.bgpsecPathAttr = none then
      if valData.nlri = none then { valData with nlri := some (originNlri pfx) } else valData
    else valData
  else valData

/-- The hash message for the distributed mode (6328-6334). -/
def generateHashMessage (bgp : SignEnv) (tmpData : Bool) (valData : ValidationData) :
    ValidationData :=
  if checkFlag bgp.srxConfig srxConfigEvalDistr then
    if ! tmpData then
      { valData with
        hashMessage := (bgp.generateHashMessage valData).1
        status := (bgp.generateHashMessage valData).2 }
    else valData
  else valData

/-- The hash message that is kept after a signature was made (6359-6382). -/
def storeHashMessage (bgp : SignEnv) (tmpData : Bool) (hashMessage : Option Nat)
    (valData : ValidationData) : ValidationData :=
  if ! checkFlag bgp.srxConfig srxConfigEvalDistr then
    if valData.hashMessage ≠ hashMessage then
      { valData with hashMessage := if ! tmpData then hashMessage else none }
    else valData
  else valData

/-- `signBGPSecPathAttr` on the validation data of the attribute. -/
def signBGPSecPathAttr {σ : Type} (bgp : SignEnv) (validationData : Option ValidationData)
    (call : SignCall σ) : SignReturn σ :=
  if bgp.srxCAPI = false then ⟨none, validationData, none⟩
  else
    let tmpData := validationData.isNone
    let valData := storeNlri call.pfx (validationData.getD ⟨none, none, none, 0⟩)
    let nlri := valData.nlri
    let valData := generateHashMessage bgp tmpData valData
    let signData : SCASignData :=
      ⟨bgp.algoID, ⟨call.pCount, call.flags, be32 bgp.as⟩, be32 call.peerAS, nlri, bgp.ski,
        apiStatusOk, valData.hashMessage⟩
    match call.signed with
    -- The failure returns here, whether the validation data is temporary or not.
    | none => ⟨none, some valData, some signData⟩
    | some signed =>
        let valData := storeHashMessage bgp tmpData signed.hashMessage valData
        ⟨signed.signature, if tmpData then none else some valData, some signData⟩

/-- The validation data of the attribute after a call. -/
def signStep {σ : Type} (bgp : SignEnv) (validationData : Option ValidationData)
    (call : SignCall σ) : Option (Option ValidationData) :=
  some (signBGPSecPathAttr bgp validationData call).validationData

end SrxNote.Srx
