import SrxNote.KeyStore.Store

/-!
# The three ways to sign

`sign_with_key` and `sign_with_id` of
`bgpsec_openssl-VariousKeyManipulation.c:1067-1096` with the functions behind them:
`stBgpsecReqSigning`, which loads its EC key from files (643-703),
`stBgpsecReqSigningWithKeyInfo`, which decodes it (710-763), and
`stBgpsecReqSigningWithID` of the store. The first two make an EC key of their own;
how often they free it is part of their result.

A run is a sequence of calls on the store, in which every call has its own outcomes
of the OpenSSL functions. The calls of `EC_KEY_free` are recorded.
-/

namespace SrxNote.KeyStore
open SrxNote.Bgpsec SrxNote.Crypto

/-- `BGPSecSignData` of a request to sign: the SKI beside what `SignRequest` has. -/
structure SignData extends SignRequest where
  ski : Option (List UInt8)

/-- The OpenSSL functions of `cl_GetPrivateKey` and `cl_BgpsecSetEcPrivateKey`. -/
structure KeyFiles (ssl : OpenSSL) where
  pemReadPrivateKey : List Char → Option ssl.EVPKey
  ecKeySetPrivateKey : ssl.ECKey → ssl.EVPKey → Option ssl.ECKey

/-- What a signing function returns, and how often it frees the EC key that it has made. -/
structure Signed where
  ret : Int
  frees : Nat
  deriving DecidableEq, Repr

variable {ssl : OpenSSL}

/-- `cl_BgpsecSetEcPrivateKey` (467-492): the key with its private part. -/
def clBgpsecSetEcPrivateKey (files : KeyFiles ssl) (filename : List Char) (ecKey : ssl.ECKey) :
    Option ssl.ECKey :=
  match files.pemReadPrivateKey filename with
  | none => none
  | some privateKey => files.ecKeySetPrivateKey ecKey privateKey

/-- `cl_SignParamSanityCheck` (1098-1115): the SKI and the data, when it passes. -/
def clSignParamSanityCheck (req : SignData) : Option (List UInt8 × List UInt8) :=
  match req.ski, req.data with
  | some ski, some data => if req.hasSignature then some (ski, data) else none
  | _, _ => none

/-- `stBgpsecReqSigning` (643-703). A public key that could not be loaded was freed by
    `cl_BgpsecSetEcPublicKey` and is freed again; `API_BGPSEC_SUCCESS` is 0 here, as the second
    operand of the disjunction takes it to be. -/
def stBgpsecReqSigning (files : KeyFiles ssl) (keyPath : List Char) (req : SignData) :
    Option Signed :=
  match clSignParamSanityCheck req with
  | none => some ⟨-1, 0⟩
  | some (ski, data) =>
      match scaFindDirInSKI keyPath maxPathLen (some ski) with
      | none => none
      | some filename =>
          match clBgpsecSetEcPublicKey ssl filename with
          | none => none
          | some (.failed freed) => some ⟨-1, if freed then 2 else 0⟩
          | some (.key ecKey) =>
              match clBgpsecSetEcPrivateKey files filename ecKey with
              | none => some ⟨-1, 1⟩
              | some ecKey =>
                  if ¬ ssl.ecKeyCheckKey ecKey then some ⟨0, 1⟩
                  else
                    let (ret, freed) := signWithKey ssl data req.algoID ecKey
                    some ⟨ret, if freed then 1 else 0⟩

/-- `stBgpsecReqSigningWithKeyInfo` (710-763), with `cl_SignParamWithKeySanityCheck` (1117-1132). The
    key is freed behind the signing, also when `cl_BgpsecECDSA_Sign` has freed it. -/
def stBgpsecReqSigningWithKeyInfo (ssl : OpenSSL) (req : SignData) (key : Option BGPSecKey) : Signed :=
  match clSignParamSanityCheck req, key with
  | some (_, data), some key =>
      match key.keyData with
      | none => ⟨-1, 0⟩
      | some p =>
          match ssl.d2iECPrivateKey p.octets key.keyLength.toNat with
          | none => ⟨0, 0⟩
          | some ecKey =>
              if ¬ ssl.ecKeyCheckKey ecKey then ⟨0, 0⟩
              else
                let (ret, freed) := signWithKey ssl data req.algoID ecKey
                ⟨ret, (if freed then 1 else 0) + 1⟩
  | _, _ => ⟨-1, 0⟩

/-- `sign_with_key` (1067-1072). -/
def signWithBGPSecKey (ssl : OpenSSL) (files : KeyFiles ssl) (keyPath : List Char) (req : SignData)
    (key : Option BGPSecKey) : Option Signed :=
  if (key.bind BGPSecKey.keyData).isSome then some (stBgpsecReqSigningWithKeyInfo ssl req key)
  else stBgpsecReqSigning files keyPath req

/-! ### Runs -/

/-- The outcomes of the OpenSSL functions during one call. -/
structure Outcomes (ssl : OpenSSL) where
  ecdsaVerify : List UInt8 → Option (List UInt8) → Nat → ssl.ECKey → Int
  ecdsaVerify_codes : ∀ digest signature len key,
    ecdsaVerify digest signature len key = 1 ∨ ecdsaVerify digest signature len key = 0 ∨
      ecdsaVerify digest signature len key = -1
  ecdsaSign : List UInt8 → ssl.ECKey → Option (List UInt8)
  ecKeyCheckKey : ssl.ECKey → Bool
  d2iECPrivateKey : List UInt8 → Nat → Option ssl.ECKey
  d2iX509 : List Char → Option (List UInt8)
  keyOfPoint : List UInt8 → Option ssl.ECKey
  files : KeyFiles ssl

/-- OpenSSL during a call. -/
abbrev sslDuring (ssl : OpenSSL) (out : Outcomes ssl) : OpenSSL :=
  { ssl with
    ecdsaVerify := out.ecdsaVerify
    ecdsaVerify_codes := out.ecdsaVerify_codes
    ecdsaSign := out.ecdsaSign
    ecKeyCheckKey := out.ecKeyCheckKey
    d2iECPrivateKey := out.d2iECPrivateKey
    d2iX509 := out.d2iX509
    keyOfPoint := out.keyOfPoint }

/-- The key files during a call. -/
def Outcomes.filesDuring (out : Outcomes ssl) : KeyFiles (sslDuring ssl out) :=
  ⟨out.files.pemReadPrivateKey, out.files.ecKeySetPrivateKey⟩

/-- The store as a call sees it. -/
def Store.during (st : Store ssl) (out : Outcomes ssl) : Store (sslDuring ssl out) :=
  ⟨st.gRecords, st.numBuckets, st.stEnbufEckey, st.ecKeys⟩

/-- The store that a call leaves. -/
def Store.after {out : Outcomes ssl} (st : Store (sslDuring ssl out)) : Store ssl :=
  ⟨st.gRecords, st.numBuckets, st.stEnbufEckey, st.ecKeys⟩

/-- An `EC_KEY` object: one that was registered, or the one that a call has made for itself. -/
inductive KeyHandle where
  | stored (p : Nat)
  | made (call : Nat)
  deriving DecidableEq, Repr

/-- The store, the number of calls that may have made a key, and the calls of `EC_KEY_free`. -/
structure KeyState (ssl : OpenSSL) where
  store : Store ssl
  calls : Nat
  freed : List KeyHandle

/-- The state before the first call. -/
def KeyState.init (ssl : OpenSSL) : KeyState ssl := ⟨Store.init ssl, 0, []⟩

/-- A call of the API. `sign_with_id` has `API_BGPSEC_ALGO_ID_256` in its request. -/
inductive KeyOp (ssl : OpenSSL) where
  | register (key : BGPSecKey) (alloc : Alloc) (expand : Bool) (out : Outcomes ssl)
  | unregister (id : UInt8)
  | signWithId (data : Option (List UInt8)) (hasSignature : Bool) (id : UInt8) (out : Outcomes ssl)
  | signWithKey (keyPath : List Char) (req : SignData) (key : Option BGPSecKey) (out : Outcomes ssl)

variable (prm : Params)

/-- The EC key of an id's slot. -/
def slotKey (st : Store ssl) (id : UInt8) : Option Nat :=
  (st.stEnbufEckey (id - retIdOffset).toNat).ecKey

/-- The EC key that `unregisterPrivateKey` frees. -/
def unregisteredKey (st : Store ssl) (id : UInt8) : Option Nat :=
  if (id - retIdOffset).toNat = (st.stEnbufEckey (id - retIdOffset).toNat).id then slotKey st id
  else none

/-- `EC_KEY_free` on a stored key. -/
def freeStored (s : KeyState ssl) (p : Option Nat) : KeyState ssl :=
  match p with
  | none => s
  | some p =>
      { s with
        store := { s.store with ecKeys := s.store.ecKeys.set p none }
        freed := .stored p :: s.freed }

/-- One call. -/
def keyStep (s : KeyState ssl) : KeyOp ssl → Option (KeyState ssl)
  | .register key alloc expand out =>
      (registerPrivateKey prm (s.store.during out) (some key) alloc expand).map fun r =>
        { s with store := r.2.after }
  | .unregister id =>
      (unregisterPrivateKey prm s.store id).map fun r =>
        { s with
          store := r.store
          freed := ((unregisteredKey s.store id).map KeyHandle.stored).toList ++ s.freed }
  | .signWithId data hasSignature id out =>
      (stBgpsecReqSigningWithID prm (s.store.during out) ⟨data, apiBgpsecAlgoId256, hasSignature⟩
        id).map fun r => if r.2 then freeStored s (slotKey s.store id) else s
  | .signWithKey keyPath req key out =>
      (signWithBGPSecKey (sslDuring ssl out) out.filesDuring keyPath req key).map fun r =>
        { s with
          calls := s.calls + 1
          freed := List.replicate r.frees (.made s.calls) ++ s.freed }

end SrxNote.KeyStore
