import SrxNote.Crypto.VerifySignature

/-!
# Loading a key from the key vault

`sca_loadKey` (`crypto_utils.c:152-603`) with the two functions that read the files
of a SKI (`srxcryptoapi-VariousKeyManipulation.c:1788-1994`). The vault holds what
is in its regular files, and what is used of OpenSSL is a parameter. A result of
`none` is an access that the C code may not make.
-/

namespace SrxNote.Crypto
open SrxNote.Bgpsec

/-- An `EC_KEY` of P-256: its public point and its private number. -/
structure ECKey (Point Scalar : Type) where
  pub : Option Point
  priv : Option Scalar

/-- The OpenSSL functions that read, check and write keys. An encoding of no octets is the length 0
    that stands for an error. The first law is `EC_KEY_check_key` on a private number beside a point,
    the second that a multiple of the generator is a point of the curve, whose order has 256 bits. -/
structure KeyLibrary where
  Point : Type
  Scalar : Type
  EVPKey : Type
  /-- `d2i_X509_bio`, and the bits of the public key. -/
  d2iX509 : List UInt8 → Option (List UInt8)
  oct2point : List UInt8 → Option Point
  pemReadPrivateKey : List UInt8 → Option EVPKey
  /-- `EC_KEY_get0_private_key` of `EVP_PKEY_get1_EC_KEY`, which is NULL for a key of another kind. -/
  evpPkeyGet1ECKey : EVPKey → Option Scalar
  pointMul : Nat → Point
  publicOf : Scalar → Point
  ecKeyCheckKey : ECKey Point Scalar → Bool
  i2dECPrivateKey : ECKey Point Scalar → List UInt8
  d2iECPrivateKey : List UInt8 → Option (ECKey Point Scalar)
  i2dPUBKEY : ECKey Point Scalar → List UInt8
  d2iPUBKEY : List UInt8 → Option (ECKey Point Scalar)
  check_private : ∀ point number, ecKeyCheckKey ⟨some point, some number⟩ = true ↔
    ecKeyCheckKey ⟨some point, none⟩ = true ∧ publicOf number = point
  check_pointMul : ∀ n, 0 < n → n < 2 ^ 255 → ecKeyCheckKey ⟨some (pointMul n), none⟩ = true
  i2dECPrivateKey_public : ∀ point, i2dECPrivateKey ⟨point, none⟩ = []
  i2dECPrivateKey_ne_nil : ∀ point number, i2dECPrivateKey ⟨some point, some number⟩ ≠ []
  d2i_i2dECPrivateKey : ∀ point number,
    d2iECPrivateKey (i2dECPrivateKey ⟨some point, some number⟩) = some ⟨some point, some number⟩
  i2dPUBKEY_ne_nil : ∀ point, i2dPUBKEY ⟨some point, none⟩ ≠ []
  d2i_i2dPUBKEY : ∀ point, d2iPUBKEY (i2dPUBKEY ⟨some point, none⟩) = some ⟨some point, none⟩
  i2dECPrivateKey_length : ∀ key, (i2dECPrivateKey key).length < 65536
  i2dPUBKEY_length : ∀ key, (i2dPUBKEY key).length < 65536

/-- The regular files of a key vault, by their names. -/
abbrev KeyVault := List Char → Option (List UInt8)

/-- `DEFAULT_CERTFILE_EXT` and `DEFAULT_KEYFILE_EXT` (`srxcryptoapi-VariousKeyManipulation.c:1184-1185`). -/
def defaultCertfileExt : List Char := "pub".toList
def defaultKeyfileExt : List Char := "private".toList

/-- `BIO_snprintf (szFileName, sizeof (szFileName) - 1, "%s.%s", filePrefix, ext)`. -/
def szFileName (filePrefix ext : List Char) : List Char :=
  (filePrefix ++ ['.'] ++ ext).take (maxPathLen - 2)

/-- `pkinit_1024_dhprime` (`crypto_utils.c:216-219`), a number by `BN_bin2bn`. -/
def pkinit1024Dhprime : List UInt8 :=
  [0xAE, 0x9F, 0x24, 0x11, 0x7C, 0x4B, 0x1F, 0xE6,
    0x49, 0x28, 0x66, 0x51, 0xEC, 0xE6, 0x53, 0x81]

/-- `BN_bin2bn`. -/
def bnBin2bn (octets : List UInt8) : Nat := octets.foldl (fun n octet => n * 256 + octet.toNat) 0

variable (lib : KeyLibrary) (vault : KeyVault)

/-- `sca_GetPublicKey` (1788-1824), as far as the public key of the certificate. -/
def scaGetPublicKey (filePrefix : List Char) : Option (List UInt8) :=
  (vault (szFileName filePrefix defaultCertfileExt)).bind lib.d2iX509

/-- `sca_BgpsecSetEcPublicKey` (1836-1905) on a key that is NULL. -/
def scaBgpsecSetEcPublicKey (filePrefix : List Char) :
    Option (SetKey (ECKey lib.Point lib.Scalar)) :=
  match scaGetPublicKey lib vault filePrefix with
  | none => some (.failed false)
  | some pubkey =>
      if szPubkeySize < pubkey.length then none
      else
        match lib.oct2point pubkey with
        | none => some (.failed true)
        | some point =>
            let key : ECKey lib.Point lib.Scalar := ⟨some point, none⟩
            some (if lib.ecKeyCheckKey key then .key key else .failed true)

/-- `sca_GetPrivateKey` (1916-1951). -/
def scaGetPrivateKey (filePrefix : List Char) : Option lib.EVPKey :=
  (vault (szFileName filePrefix defaultKeyfileExt)).bind lib.pemReadPrivateKey

/-- `sca_BgpsecSetEcPrivateKey` (1963-1994): the key with its private number, or `API_FAILURE`. -/
def scaBgpsecSetEcPrivateKey (filePrefix : List Char) (ecKey : ECKey lib.Point lib.Scalar) :
    Option (Option (ECKey lib.Point lib.Scalar)) :=
  match scaGetPrivateKey lib vault filePrefix with
  | none => some none
  | some privateKey =>
      match lib.evpPkeyGet1ECKey privateKey with
      | none => none
      | some bn => some (some { ecKey with priv := some bn })

/-- The point of the dummy public key (213-228). -/
def dummyPoint : lib.Point := lib.pointMul (bnBin2bn pkinit1024Dhprime)

/-- The key with the dummy point (231-232). -/
def dummyKey : ECKey lib.Point lib.Scalar := ⟨some (dummyPoint lib), none⟩

/-- What `sca_loadKey` returns, and the key it leaves. -/
abbrev LoadResult := Bool × BGPSecKey

/-- `int_err` (597-601). -/
def intErr (key : BGPSecKey) : LoadResult := (false, { key with keyData := none })

/-- The decoding test (319-354, 546-581) on a key whose first copy is freed, so that an error frees
    it again. -/
def decodingTest (filePrefix : List Char) (pubStatus : Bool)
    (reconKey : Option (ECKey lib.Point lib.Scalar)) : Bool :=
  match reconKey with
  | none => false
  | some reconKey =>
      if reconKey.pub.isNone && pubStatus then
        match scaBgpsecSetEcPublicKey lib vault filePrefix with
        | some (.key _) => true
        | _ => false
      else true

/-- The encoding of a key that was checked (262-359, 492-590): `ep` is what `i2d` writes, and
    `malloc` gives the address of a buffer of its size. -/
def encodeKey (malloc : Nat → Option Nat) (key : BGPSecKey) (filePrefix : List Char)
    (pubStatus : Bool) (ep : List UInt8) (d2i : List UInt8 → Option (ECKey lib.Point lib.Scalar)) :
    Option LoadResult :=
  if ep.length = 0 then some (intErr key)
  else
    match malloc ep.length with
    | none => some (intErr key)
    | some addr =>
        if decodingTest lib vault filePrefix pubStatus (d2i ep) then
          some (true, { key with keyLength := UInt16.ofNat ep.length, keyData := some ⟨addr, ep⟩ })
        else none

/-- What `sca_loadKey` does with a key whose public point is set (238-594). -/
def loadWith (malloc : Nat → Option Nat) (key : BGPSecKey) (fPrivate : Bool)
    (filePrefix : List Char) (ecKey : ECKey lib.Point lib.Scalar) : Option LoadResult :=
  let pubStatus := (vault (szFileName filePrefix defaultCertfileExt)).isSome
  let privStatus := (vault (szFileName filePrefix defaultKeyfileExt)).isSome
  let privateSet :=
    if privStatus && fPrivate then scaBgpsecSetEcPrivateKey lib vault filePrefix ecKey
    else some (some ecKey)
  match privateSet with
  | none => none
  | some none => some (intErr key)
  | some (some ecKey) =>
      if ¬ lib.ecKeyCheckKey ecKey then some (intErr key)
      else if fPrivate then
        encodeKey lib vault malloc key filePrefix pubStatus (lib.i2dECPrivateKey ecKey)
          lib.d2iECPrivateKey
      else
        encodeKey lib vault malloc key filePrefix pubStatus (lib.i2dPUBKEY ecKey) lib.d2iPUBKEY

/-- `sca_loadKey` (152-603). A key that `sca_BgpsecSetEcPublicKey` has freed is freed again at
    `int_err`. -/
def scaLoadKey (keyPath : List Char) (malloc : Nat → Option Nat) (key : BGPSecKey)
    (fPrivate : Bool) : Option LoadResult :=
  match scaFindDirInSKI keyPath maxPathLen (some key.ski) with
  | none => some (false, key)
  | some filePrefix =>
      if (vault (szFileName filePrefix defaultCertfileExt)).isSome then
        match scaBgpsecSetEcPublicKey lib vault filePrefix with
        | none => none
        | some (.failed true) => none
        | some (.failed false) => some (intErr key)
        | some (.key ecKey) => loadWith lib vault malloc key fPrivate filePrefix ecKey
      else loadWith lib vault malloc key fPrivate filePrefix (dummyKey lib)

end SrxNote.Crypto
