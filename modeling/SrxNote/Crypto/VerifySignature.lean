import SrxNote.Crypto.KeyData
import SrxNote.Crypto.Verify

/-!
# Checking one signature

`cl_BgpsecDoVerifySignature` and the two functions that call it
(`bgpsec_openssl-VariousKeyManipulation.c:72-382`), with the loading of a public
key from its certificate file (459-563) and the self-check of
`cl_BgpsecECDSA_Sign` (593-633). What they use of OpenSSL is a parameter. A
result of `none` is an access that the C code may not make.
-/

namespace SrxNote.Crypto
open SrxNote.Bgpsec

/-- The OpenSSL functions that are called. `ecdsaVerify` takes the digest, the signature behind a
    pointer and its length, and the key; it returns 1 for a valid signature, 0 for an invalid one and
    -1 for an error. -/
structure OpenSSL where
  ECKey : Type
  EVPKey : Type
  sha256 : List UInt8 → List UInt8
  ecdsaVerify : List UInt8 → Option (List UInt8) → Nat → ECKey → Int
  ecdsaVerify_codes : ∀ digest signature len key,
    ecdsaVerify digest signature len key = 1 ∨ ecdsaVerify digest signature len key = 0 ∨
      ecdsaVerify digest signature len key = -1
  ecdsaSign : List UInt8 → ECKey → Option (List UInt8)
  ecKeyCheckKey : ECKey → Bool
  ecKeyGet0PublicKey : ECKey → Bool
  d2iECPrivateKey : List UInt8 → Nat → Option ECKey
  d2iPUBKEY : List UInt8 → Nat → Option EVPKey
  evpPkeyGet1ECKey : EVPKey → Option ECKey
  /-- The public key octets of the certificate in the file with the given name. -/
  d2iX509 : List Char → Option (List UInt8)
  /-- A P-256 key with the given point: `EC_POINT_oct2point` and `EC_KEY_set_public_key`. -/
  keyOfPoint : List UInt8 → Option ECKey

variable (ssl : OpenSSL)

/-- `cl_BgpsecDoVerifySignature` (72-112). -/
def clBgpsecDoVerifySignature (digest : List UInt8) (key : ssl.ECKey)
    (signature : Option (List UInt8)) (signatureLen : Nat) : VerifyStatus :=
  if ssl.ecdsaVerify digest signature signatureLen key = 0 then .failure else .success

/-- What `cl_BgpsecSetEcPublicKey` leaves: a key, or none, and then whether it had been created and
    was freed. -/
inductive SetKey (K : Type) where
  | key (k : K)
  | failed (freed : Bool)

/-- The size of `szPubkey` (493). -/
def szPubkeySize : Nat := 4096

/-- `cl_BgpsecSetEcPublicKey` (490-563). -/
def clBgpsecSetEcPublicKey (filename : List Char) : Option (SetKey ssl.ECKey) :=
  match ssl.d2iX509 filename with
  | none => some (.failed false)
  | some pubkey =>
      if szPubkeySize < pubkey.length then none
      else
        match ssl.keyOfPoint pubkey with
        | none => some (.failed true)
        | some key => some (if ssl.ecKeyCheckKey key then .key key else .failed true)

/-- The key that `stcl_BgpsecVerifySignatureSSL` takes from the certificate of a SKI (126-143);
    a key that `cl_BgpsecSetEcPublicKey` has freed is freed again. -/
def certificateKey (keyPath : List Char) (ski : Option (List UInt8)) :
    Option (Option ssl.ECKey) :=
  match scaFindDirInSKI keyPath maxPathLen ski with
  | none => none
  | some filename =>
      match clBgpsecSetEcPublicKey ssl filename with
      | none => none
      | some (.failed true) => none
      | some (.failed false) => some none
      | some (.key key) => some (some key)

/-- The key that `stcl_BgpsecVerifySignatureSSL_withKeyInfo` takes from an entry of the array
    (186-345). -/
def keyInfoKey (key : Option BGPSecKey) : Option (Option ssl.ECKey) :=
  match key with
  | none => some none
  | some key =>
      match key.keyData with
      | none => some none
      | some p =>
          match isDerPrivate p.octets key.keyLength with
          | none => none
          | some retType =>
              let ecdsaKey :=
                if retType = 1 then ssl.d2iECPrivateKey p.octets key.keyLength.toNat
                else (ssl.d2iPUBKEY p.octets key.keyLength.toNat).bind ssl.evpPkeyGet1ECKey
              match ecdsaKey with
              | none => some none
              | some ecdsaKey =>
                  if ¬ ssl.ecKeyGet0PublicKey ecdsaKey then some none
                  else if ¬ ssl.ecKeyCheckKey ecdsaKey then some none
                  else some (some ecdsaKey)

/-- Digest and verification with the key that was found (145-157, 352-368); without one the status
    is -1. -/
def verifyWith (key : Option (Option ssl.ECKey)) (d : BGPSecSignData) : Option VerifyStatus :=
  match key with
  | none => none
  | some none => some .error
  | some (some key) =>
      let status := clBgpsecDoVerifySignature ssl (ssl.sha256 d.data) key d.signature d.sigLen.toNat
      some (if status ≠ .success then .failure else status)

/-- `stcl_BgpsecVerifySignatureSSL` (120-168). -/
def stclBgpsecVerifySignatureSSL (keyPath : List Char) (d : BGPSecSignData) :
    Option VerifyStatus :=
  verifyWith ssl (certificateKey ssl keyPath d.ski) d

/-- `stcl_BgpsecVerifySignatureSSL_withKeyInfo` (170-382) at the entry of `keys` it is given. -/
def stclBgpsecVerifySignatureSSLWithKeyInfo (key : Option BGPSecKey) (d : BGPSecSignData) :
    Option VerifyStatus :=
  verifyWith ssl (keyInfoKey ssl key) d

/-- The check of a signature as `cl_BgpsecVerify` makes it. -/
def checkSignature (keyPath : List Char) (c : Check) : Option VerifyStatus :=
  match c.checkBy with
  | .withKeyInfo key => stclBgpsecVerifySignatureSSLWithKeyInfo ssl key c.signData
  | .certificate => stclBgpsecVerifySignatureSSL ssl keyPath c.signData

/-! ### Signing -/

/-- The self-check of a new signature (618-620). -/
def selfCheck (digest : List UInt8) (key : ssl.ECKey) (signature : Option (List UInt8))
    (sigLen : Nat) : Bool :=
  ssl.ecdsaVerify digest signature sigLen key = 1

/-- `cl_BgpsecECDSA_Sign`: the value returned, and whether the key was freed. After a failed
    self-check `length` still is the length of the signature. -/
def clBgpsecECDSASign (digest : List UInt8) (key : ssl.ECKey) : Int × Bool :=
  match ssl.ecdsaSign digest key with
  | none => (0, true)
  | some signature =>
      if selfCheck ssl digest key (some signature) signature.length then (signature.length, false)
      else (signature.length, true)

end SrxNote.Crypto
