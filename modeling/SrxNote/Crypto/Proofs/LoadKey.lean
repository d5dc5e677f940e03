import SrxNote.Crypto.LoadKey

/-!
# The key that is loaded

`sca_loadKey` puts a dummy point in the place of a certificate that is not there,
and no later step can tell it from a real one. So a public key is returned for
every SKI, and a private key without a certificate is returned only if it belongs
to the dummy point.
-/

namespace SrxNote.Crypto
open SrxNote.Bgpsec

variable (lib : KeyLibrary) (vault : KeyVault)

/-- The public key of the certificate: a point of the curve. -/
def certificatePoint (filePrefix : List Char) : Option lib.Point :=
  (scaGetPublicKey lib vault filePrefix).bind fun pubkey =>
    (lib.oct2point pubkey).filter fun point => lib.ecKeyCheckKey ⟨some point, none⟩

/-- The number of the private key. -/
def privateNumber (filePrefix : List Char) : Option lib.Scalar :=
  (scaGetPrivateKey lib vault filePrefix).bind lib.evpPkeyGet1ECKey

/-- The key files have this name, up to the extension. -/
def keyFile (keyPath : List Char) (key : BGPSecKey) : List Char :=
  (scaFindDirInSKI keyPath maxPathLen (some key.ski)).getD []

/-- The DER octets that are requested: of the private key, which has to match the certificate when
    one exists, or of the public key of the certificate. -/
def RequestedDer (filePrefix : List Char) (fPrivate : Bool) (der : List UInt8) : Prop :=
  if fPrivate then
    ∃ number, privateNumber lib vault filePrefix = some number ∧
      (vault (szFileName filePrefix defaultCertfileExt) = none ∨
        certificatePoint lib vault filePrefix = some (lib.publicOf number)) ∧
      der = lib.i2dECPrivateKey ⟨some (lib.publicOf number), some number⟩
  else
    ∃ point, certificatePoint lib vault filePrefix = some point ∧
      der = lib.i2dPUBKEY ⟨some point, none⟩

/-- The requested key is returned, with its length, or the call fails and leaves NULL. -/
def ReturnsRequested (filePrefix : List Char) (fPrivate : Bool) (result : Option LoadResult) :
    Prop :=
  (∀ der, RequestedDer lib vault filePrefix fPrivate der →
    ∃ key addr, result = some (true, key) ∧ key.keyData = some ⟨addr, der⟩ ∧
      key.keyLength.toNat = der.length) ∧
  ((∀ der, ¬ RequestedDer lib vault filePrefix fPrivate der) →
    ∃ key, result = some (false, key) ∧ key.keyData = none)

/-- What the files of a SKI have to be. -/
structure Loadable (malloc : Nat → Option Nat) (filePrefix : List Char) (fPrivate : Bool) :
    Prop where
  /-- A certificate has a point of the curve, in octets that fit `szPubkey`. -/
  certificate : ∀ pubkey, scaGetPublicKey lib vault filePrefix = some pubkey →
    pubkey.length ≤ szPubkeySize ∧ (certificatePoint lib vault filePrefix).isSome
  /-- Without a certificate file the private key that is there, if any, belongs to the dummy point,
      and the octets of the dummy point itself find no memory. -/
  noCertificate : vault (szFileName filePrefix defaultCertfileExt) = none →
    if fPrivate then
      ∀ number, privateNumber lib vault filePrefix = some number →
        lib.publicOf number = dummyPoint lib
    else malloc (lib.i2dPUBKEY (dummyKey lib)).length = none
  /-- A private key that is read is one of an elliptic curve. -/
  ellipticCurve : fPrivate = true →
    (vault (szFileName filePrefix defaultCertfileExt) = none ∨
      (scaGetPublicKey lib vault filePrefix).isSome) →
    ∀ privateKey, scaGetPrivateKey lib vault filePrefix = some privateKey →
      (lib.evpPkeyGet1ECKey privateKey).isSome
  /-- There is memory for the octets that are requested. -/
  buffer : ∀ der, RequestedDer lib vault filePrefix fPrivate der → (malloc der.length).isSome

/-! ## A key whose point is set -/

/-- A buffer is allocated and returned. -/
def storedKey (malloc : Nat → Option Nat) (key : BGPSecKey) (der : List UInt8) : LoadResult :=
  match malloc der.length with
  | none => intErr key
  | some addr =>
      (true, { key with keyLength := UInt16.ofNat der.length, keyData := some ⟨addr, der⟩ })

/-- What a faithful decoder reads back passes the decoding test. -/
theorem encodeKey_eq {malloc : Nat → Option Nat} {key : BGPSecKey} {filePrefix : List Char}
    {pubStatus : Bool} {ep : List UInt8} {d2i : List UInt8 → Option (ECKey lib.Point lib.Scalar)}
    {point : lib.Point} {priv : Option lib.Scalar} (hep : ep ≠ [])
    (hd2i : d2i ep = some ⟨some point, priv⟩) :
    encodeKey lib vault malloc key filePrefix pubStatus ep d2i = some (storedKey malloc key ep) := by
  rw [encodeKey, if_neg (by simpa using hep), hd2i, storedKey]
  cases malloc ep.length with
  | none => rfl
  | some addr => rfl

/-- The public key of a point that was checked. -/
theorem loadWith_public (malloc : Nat → Option Nat) (key : BGPSecKey) (filePrefix : List Char)
    {point : lib.Point} (hcheck : lib.ecKeyCheckKey ⟨some point, none⟩ = true) :
    loadWith lib vault malloc key false filePrefix ⟨some point, none⟩ =
      some (storedKey malloc key (lib.i2dPUBKEY ⟨some point, none⟩)) := by
  simp only [loadWith, Bool.and_false, Bool.false_eq_true, if_false, hcheck, not_true_eq_false]
  exact encodeKey_eq lib vault (lib.i2dPUBKEY_ne_nil point) (lib.d2i_i2dPUBKEY point)

/-- Without a private key the call fails: with a file that cannot be read, or at the encoding. -/
theorem loadWith_noPrivate (malloc : Nat → Option Nat) (key : BGPSecKey) {filePrefix : List Char}
    {point : lib.Point} (hcheck : lib.ecKeyCheckKey ⟨some point, none⟩ = true)
    (hnone : scaGetPrivateKey lib vault filePrefix = none) :
    loadWith lib vault malloc key true filePrefix ⟨some point, none⟩ = some (intErr key) := by
  cases hfile : vault (szFileName filePrefix defaultKeyfileExt) with
  | none =>
      simp [loadWith, hfile, hcheck, encodeKey, lib.i2dECPrivateKey_public]
  | some file =>
      simp [loadWith, hfile, scaBgpsecSetEcPrivateKey, hnone]

theorem scaGetPrivateKey_file {filePrefix : List Char} {privateKey : lib.EVPKey}
    (h : scaGetPrivateKey lib vault filePrefix = some privateKey) :
    (vault (szFileName filePrefix defaultKeyfileExt)).isSome = true := by
  obtain ⟨file, hfile, -⟩ := Option.bind_eq_some_iff.mp h
  rw [hfile]
  rfl

/-- A private key of another kind is read through NULL. -/
theorem loadWith_otherKind (malloc : Nat → Option Nat) (key : BGPSecKey) {filePrefix : List Char}
    {privateKey : lib.EVPKey} (ecKey : ECKey lib.Point lib.Scalar)
    (hkey : scaGetPrivateKey lib vault filePrefix = some privateKey)
    (hkind : lib.evpPkeyGet1ECKey privateKey = none) :
    loadWith lib vault malloc key true filePrefix ecKey = none := by
  simp [loadWith, scaGetPrivateKey_file lib vault hkey, scaBgpsecSetEcPrivateKey, hkey, hkind]

/-- A private key is returned if it matches the point, real or not. -/
theorem loadWith_private (malloc : Nat → Option Nat) (key : BGPSecKey) {filePrefix : List Char}
    {point : lib.Point} {number : lib.Scalar}
    (hcheck : lib.ecKeyCheckKey ⟨some point, none⟩ = true)
    (hnumber : privateNumber lib vault filePrefix = some number) :
    (lib.publicOf number = point → loadWith lib vault malloc key true filePrefix ⟨some point, none⟩ =
      some (storedKey malloc key (lib.i2dECPrivateKey ⟨some point, some number⟩))) ∧
    (lib.publicOf number ≠ point →
      loadWith lib vault malloc key true filePrefix ⟨some point, none⟩ = some (intErr key)) := by
  obtain ⟨privateKey, hkey, hkind⟩ := Option.bind_eq_some_iff.mp hnumber
  have hset : scaBgpsecSetEcPrivateKey lib vault filePrefix ⟨some point, none⟩ =
      some (some ⟨some point, some number⟩) := by
    simp [scaBgpsecSetEcPrivateKey, hkey, hkind]
  have hfile := scaGetPrivateKey_file lib vault hkey
  refine ⟨fun hmatch => ?_, fun hmatch => ?_⟩
  · have hboth := (lib.check_private point number).mpr ⟨hcheck, hmatch⟩
    simp only [loadWith, hfile, Bool.and_self, if_true, hset, hboth, not_true_eq_false, if_false]
    exact encodeKey_eq lib vault (lib.i2dECPrivateKey_ne_nil point number)
      (lib.d2i_i2dECPrivateKey point number)
  · have hboth : lib.ecKeyCheckKey ⟨some point, some number⟩ = false :=
      Bool.eq_false_iff.mpr fun h => hmatch ((lib.check_private point number).mp h).2
    simp only [loadWith, hfile, Bool.and_self, if_true, hset, hboth, Bool.false_eq_true,
      not_false_eq_true]

/-! ## The whole call -/

theorem scaFindDirInSKI_keyFile (keyPath : List Char) (key : BGPSecKey) :
    scaFindDirInSKI keyPath maxPathLen (some key.ski) = some (keyFile keyPath key) := by
  have hlen : ¬ key.ski.length < skiLength := by
    rw [key.ski_length]
    exact Nat.lt_irrefl _
  simp [keyFile, scaFindDirInSKI, hlen]

theorem dummyPoint_checked : lib.ecKeyCheckKey ⟨some (dummyPoint lib), none⟩ = true :=
  lib.check_pointMul _ (by decide) (by decide)

/-- Without a certificate file the key is loaded with the dummy point. -/
theorem scaLoadKey_dummy (keyPath : List Char) (malloc : Nat → Option Nat) (key : BGPSecKey)
    (fPrivate : Bool)
    (hfile : vault (szFileName (keyFile keyPath key) defaultCertfileExt) = none) :
    scaLoadKey lib vault keyPath malloc key fPrivate =
      loadWith lib vault malloc key fPrivate (keyFile keyPath key) (dummyKey lib) := by
  simp [scaLoadKey, scaFindDirInSKI_keyFile, hfile]

/-- A file that is no certificate makes the call fail. -/
theorem scaLoadKey_undecodable (keyPath : List Char) (malloc : Nat → Option Nat) (key : BGPSecKey)
    (fPrivate : Bool)
    (hfile : vault (szFileName (keyFile keyPath key) defaultCertfileExt) ≠ none)
    (hcert : scaGetPublicKey lib vault (keyFile keyPath key) = none) :
    scaLoadKey lib vault keyPath malloc key fPrivate = some (intErr key) := by
  simp [scaLoadKey, scaFindDirInSKI_keyFile, Option.isSome_iff_ne_none, hfile,
    scaBgpsecSetEcPublicKey, hcert]

theorem scaGetPublicKey_file {filePrefix : List Char} {pubkey : List UInt8}
    (h : scaGetPublicKey lib vault filePrefix = some pubkey) :
    (vault (szFileName filePrefix defaultCertfileExt)).isSome = true := by
  obtain ⟨file, hfile, -⟩ := Option.bind_eq_some_iff.mp h
  rw [hfile]
  rfl

theorem certificatePoint_eq_some_iff {filePrefix : List Char} {pubkey : List UInt8}
    {point : lib.Point} (hcert : scaGetPublicKey lib vault filePrefix = some pubkey) :
    certificatePoint lib vault filePrefix = some point ↔
      lib.oct2point pubkey = some point ∧ lib.ecKeyCheckKey ⟨some point, none⟩ = true := by
  rw [certificatePoint, hcert, Option.bind_some, Option.filter_eq_some_iff]

/-- A certificate without a point of the curve is an overflow or a second free. -/
theorem scaLoadKey_badPoint (keyPath : List Char) (malloc : Nat → Option Nat) (key : BGPSecKey)
    (fPrivate : Bool) {pubkey : List UInt8}
    (hcert : scaGetPublicKey lib vault (keyFile keyPath key) = some pubkey)
    (hbad : ¬ (pubkey.length ≤ szPubkeySize ∧
      (certificatePoint lib vault (keyFile keyPath key)).isSome)) :
    scaLoadKey lib vault keyPath malloc key fPrivate = none := by
  have hfile := scaGetPublicKey_file lib vault hcert
  by_cases hsize : szPubkeySize < pubkey.length
  · simp [scaLoadKey, scaFindDirInSKI_keyFile, hfile, scaBgpsecSetEcPublicKey, hcert, hsize]
  · have hset : scaBgpsecSetEcPublicKey lib vault (keyFile keyPath key) = some (.failed true) := by
      simp only [scaBgpsecSetEcPublicKey, hcert, if_neg hsize]
      cases hpoint : lib.oct2point pubkey with
      | none => rfl
      | some point =>
          cases hcheck : lib.ecKeyCheckKey ⟨some point, none⟩ with
          | false => simp [hcheck]
          | true =>
              have h := (certificatePoint_eq_some_iff lib vault hcert).mpr ⟨hpoint, hcheck⟩
              exact absurd ⟨by omega, by rw [h]; rfl⟩ hbad
    simp [scaLoadKey, scaFindDirInSKI_keyFile, hfile, hset]

/-- The point of a certificate is the one the key is loaded with. -/
theorem scaLoadKey_point (keyPath : List Char) (malloc : Nat → Option Nat) (key : BGPSecKey)
    (fPrivate : Bool) {pubkey : List UInt8} {point : lib.Point}
    (hcert : scaGetPublicKey lib vault (keyFile keyPath key) = some pubkey)
    (hsize : pubkey.length ≤ szPubkeySize)
    (hpoint : certificatePoint lib vault (keyFile keyPath key) = some point) :
    scaLoadKey lib vault keyPath malloc key fPrivate =
      loadWith lib vault malloc key fPrivate (keyFile keyPath key) ⟨some point, none⟩ := by
  have hfile := scaGetPublicKey_file lib vault hcert
  obtain ⟨hoct, hcheck⟩ := (certificatePoint_eq_some_iff lib vault hcert).mp hpoint
  have hset : scaBgpsecSetEcPublicKey lib vault (keyFile keyPath key) =
      some (.key ⟨some point, none⟩) := by
    simp [scaBgpsecSetEcPublicKey, hcert, Nat.not_lt.mpr hsize, hoct, hcheck]
  simp [scaLoadKey, scaFindDirInSKI_keyFile, hfile, hset]

/-! ## What is returned -/

/-- The call returns the requested octets where `storedKey` gets memory for them. -/
theorem returnsRequested_stored_iff {filePrefix : List Char} {fPrivate : Bool} {der : List UInt8}
    (malloc : Nat → Option Nat) (key : BGPSecKey) (hlen : der.length < 65536)
    (hder : ∀ der', RequestedDer lib vault filePrefix fPrivate der' ↔ der' = der) :
    ReturnsRequested lib vault filePrefix fPrivate (some (storedKey malloc key der)) ↔
      (malloc der.length).isSome := by
  cases hmalloc : malloc der.length with
  | none =>
      refine iff_of_false (fun h => ?_) (by simp)
      obtain ⟨key', addr, heq, -⟩ := h.1 der ((hder der).mpr rfl)
      simp [storedKey, hmalloc, intErr] at heq
  | some addr =>
      refine iff_of_true ⟨fun der' h => ?_, fun h => absurd ((hder der).mpr rfl) (h der)⟩ rfl
      rw [(hder der').mp h]
      refine ⟨_, addr, by rw [storedKey, hmalloc], rfl, ?_⟩
      show (UInt16.ofNat der.length).toNat = der.length
      rw [UInt16.toNat_ofNat']
      exact Nat.mod_eq_of_lt hlen

/-- Octets that nobody requested are right only where there is no memory for them. -/
theorem returnsRequested_unrequested_iff {filePrefix : List Char} {fPrivate : Bool}
    (malloc : Nat → Option Nat) (key : BGPSecKey) (der : List UInt8)
    (hder : ∀ der', ¬ RequestedDer lib vault filePrefix fPrivate der') :
    ReturnsRequested lib vault filePrefix fPrivate (some (storedKey malloc key der)) ↔
      malloc der.length = none := by
  cases hmalloc : malloc der.length with
  | none =>
      refine iff_of_true ⟨fun der' h => absurd h (hder der'), fun _ => ?_⟩ rfl
      exact ⟨{ key with keyData := none }, by rw [storedKey, hmalloc, intErr], rfl⟩
  | some addr =>
      refine iff_of_false (fun h => ?_) (by simp)
      obtain ⟨key', heq, -⟩ := h.2 hder
      simp [storedKey, hmalloc] at heq

/-- A call that fails is right exactly when nothing is requested. -/
theorem returnsRequested_intErr_iff (filePrefix : List Char) (fPrivate : Bool) (key : BGPSecKey) :
    ReturnsRequested lib vault filePrefix fPrivate (some (intErr key)) ↔
      ∀ der, ¬ RequestedDer lib vault filePrefix fPrivate der := by
  constructor
  · intro h der hder
    obtain ⟨key', addr, heq, -⟩ := h.1 der hder
    cases heq
  · intro h
    exact ⟨fun der hder => absurd hder (h der), fun _ => ⟨_, rfl, rfl⟩⟩

/-- An access that may not be made is never right. -/
theorem not_returnsRequested_none (filePrefix : List Char) (fPrivate : Bool) :
    ¬ ReturnsRequested lib vault filePrefix fPrivate none := by
  intro h
  by_cases hder : ∃ der, RequestedDer lib vault filePrefix fPrivate der
  · obtain ⟨der, hder⟩ := hder
    obtain ⟨key', addr, heq, -⟩ := h.1 der hder
    cases heq
  · obtain ⟨key', heq, -⟩ := h.2 (not_exists.mp hder)
    cases heq

/-- A private key may be returned: it matches the certificate when one exists. -/
def MatchesCertificate (filePrefix : List Char) (number : lib.Scalar) : Prop :=
  vault (szFileName filePrefix defaultCertfileExt) = none ∨
    certificatePoint lib vault filePrefix = some (lib.publicOf number)

theorem requestedDer_private_iff {filePrefix : List Char} {number : lib.Scalar}
    (hnumber : privateNumber lib vault filePrefix = some number) (der : List UInt8) :
    RequestedDer lib vault filePrefix true der ↔ MatchesCertificate lib vault filePrefix number ∧
      der = lib.i2dECPrivateKey ⟨some (lib.publicOf number), some number⟩ := by
  rw [RequestedDer, if_pos rfl, hnumber]
  simp [MatchesCertificate]

/-- A private key that is read, behind a point that was checked: one that may be returned has to belong
    to the point. -/
theorem loadWith_number_returns_iff (malloc : Nat → Option Nat) (key : BGPSecKey)
    {filePrefix : List Char} {point : lib.Point} {number : lib.Scalar}
    (hcheck : lib.ecKeyCheckKey ⟨some point, none⟩ = true)
    (hnumber : privateNumber lib vault filePrefix = some number)
    (hpoint : lib.publicOf number = point → MatchesCertificate lib vault filePrefix number) :
    ReturnsRequested lib vault filePrefix true
        (loadWith lib vault malloc key true filePrefix ⟨some point, none⟩) ↔
      (MatchesCertificate lib vault filePrefix number → lib.publicOf number = point) ∧
      (∀ der, RequestedDer lib vault filePrefix true der → (malloc der.length).isSome) := by
  have hrequested := requestedDer_private_iff lib vault hnumber
  have hload := loadWith_private lib vault malloc key hcheck hnumber
  by_cases hmatch : lib.publicOf number = point
  · have hmatches := hpoint hmatch
    subst hmatch
    rw [hload.1 rfl, returnsRequested_stored_iff lib vault malloc key
      (lib.i2dECPrivateKey_length _) (fun der => by rw [hrequested]; simp [hmatches])]
    constructor
    · intro h
      refine ⟨fun _ => rfl, fun der hder => ?_⟩
      rw [((hrequested der).mp hder).2]
      exact h
    · intro h
      exact h.2 _ ((hrequested _).mpr ⟨hmatches, rfl⟩)
  · rw [hload.2 hmatch, returnsRequested_intErr_iff]
    constructor
    · intro h
      exact ⟨fun hmatches => absurd ((hrequested _).mpr ⟨hmatches, rfl⟩) (h _),
        fun der hder => absurd hder (h der)⟩
    · intro h der hder
      exact hmatch (h.1 ((hrequested der).mp hder).1)

/-- A private key, if there is one, behind a point that was checked. -/
theorem loadWith_private_returns_iff (malloc : Nat → Option Nat) (key : BGPSecKey)
    {filePrefix : List Char} {point : lib.Point}
    (hcheck : lib.ecKeyCheckKey ⟨some point, none⟩ = true)
    (hpoint : ∀ number, lib.publicOf number = point →
      MatchesCertificate lib vault filePrefix number) :
    ReturnsRequested lib vault filePrefix true
        (loadWith lib vault malloc key true filePrefix ⟨some point, none⟩) ↔
      (∀ privateKey, scaGetPrivateKey lib vault filePrefix = some privateKey →
        (lib.evpPkeyGet1ECKey privateKey).isSome) ∧
      (∀ number, privateNumber lib vault filePrefix = some number →
        MatchesCertificate lib vault filePrefix number → lib.publicOf number = point) ∧
      (∀ der, RequestedDer lib vault filePrefix true der → (malloc der.length).isSome) := by
  cases hkey : scaGetPrivateKey lib vault filePrefix with
  | none =>
      have hnumber : privateNumber lib vault filePrefix = none := by rw [privateNumber, hkey]; rfl
      have hder : ∀ der, ¬ RequestedDer lib vault filePrefix true der := by
        intro der h
        rw [RequestedDer, if_pos rfl, hnumber] at h
        obtain ⟨number, hn, -⟩ := h
        cases hn
      rw [loadWith_noPrivate lib vault malloc key hcheck hkey, returnsRequested_intErr_iff]
      refine iff_of_true hder ⟨fun _ h => (nomatch h), fun number h => ?_, fun der h => ?_⟩
      · rw [hnumber] at h
        cases h
      · exact absurd h (hder der)
  | some privateKey =>
      cases hkind : lib.evpPkeyGet1ECKey privateKey with
      | none =>
          rw [loadWith_otherKind lib vault malloc key _ hkey hkind]
          refine iff_of_false (not_returnsRequested_none lib vault filePrefix true) (fun h => ?_)
          have hsome := h.1 privateKey rfl
          rw [hkind] at hsome
          cases hsome
      | some number =>
          have hnumber : privateNumber lib vault filePrefix = some number := by
            rw [privateNumber, hkey]
            exact hkind
          have hkinds : ∀ k, some privateKey = some k → (lib.evpPkeyGet1ECKey k).isSome := by
            intro k hk
            cases hk
            rw [hkind]
            rfl
          rw [loadWith_number_returns_iff lib vault malloc key hcheck hnumber (hpoint number)]
          constructor
          · rintro ⟨hbelongs, hbuffer⟩
            refine ⟨hkinds, fun n hn => ?_, hbuffer⟩
            rw [hnumber] at hn
            cases hn
            exact hbelongs
          · intro h
            exact ⟨h.2.1 number hnumber, h.2.2⟩

section Cases

variable (keyPath : List Char) (malloc : Nat → Option Nat) (key : BGPSecKey) (fPrivate : Bool)

theorem not_requestedDer_public {filePrefix : List Char}
    (hpoint : certificatePoint lib vault filePrefix = none) (der : List UInt8) :
    ¬ RequestedDer lib vault filePrefix false der := by
  rintro ⟨point, h, -⟩
  rw [hpoint] at h
  cases h

/-- Without a certificate file. -/
theorem scaLoadKey_returns_dummy_iff
    (hfile : vault (szFileName (keyFile keyPath key) defaultCertfileExt) = none) :
    ReturnsRequested lib vault (keyFile keyPath key) fPrivate
        (scaLoadKey lib vault keyPath malloc key fPrivate) ↔
      Loadable lib vault malloc (keyFile keyPath key) fPrivate := by
  have hcert : scaGetPublicKey lib vault (keyFile keyPath key) = none := by
    rw [scaGetPublicKey, hfile]
    rfl
  have hnoCert : ∀ pubkey, scaGetPublicKey lib vault (keyFile keyPath key) = some pubkey →
      pubkey.length ≤ szPubkeySize ∧
        (certificatePoint lib vault (keyFile keyPath key)).isSome := by
    intro pubkey h
    rw [hcert] at h
    cases h
  rw [scaLoadKey_dummy lib vault keyPath malloc key fPrivate hfile]
  cases fPrivate with
  | false =>
      have hpoint : certificatePoint lib vault (keyFile keyPath key) = none := by
        rw [certificatePoint, hcert]
        rfl
      have hnone := not_requestedDer_public lib vault hpoint
      rw [dummyKey, loadWith_public lib vault malloc key _ (dummyPoint_checked lib),
        returnsRequested_unrequested_iff lib vault malloc key _ hnone]
      exact ⟨fun h => ⟨hnoCert, fun _ => h, fun h => (nomatch h), fun der h => absurd h (hnone der)⟩,
        fun h => h.noCertificate hfile⟩
  | true =>
      rw [dummyKey, loadWith_private_returns_iff lib vault malloc key (dummyPoint_checked lib)
        (fun number _ => Or.inl hfile)]
      constructor
      · rintro ⟨hkind, hdummy, hbuffer⟩
        exact ⟨hnoCert, fun _ number hn => hdummy number hn (Or.inl hfile), fun _ _ => hkind,
          hbuffer⟩
      · intro h
        exact ⟨h.ellipticCurve rfl (Or.inl hfile), fun number hn _ => h.noCertificate hfile number hn,
          h.buffer⟩

/-- With a file that is no certificate. -/
theorem scaLoadKey_returns_undecodable
    (hfile : vault (szFileName (keyFile keyPath key) defaultCertfileExt) ≠ none)
    (hcert : scaGetPublicKey lib vault (keyFile keyPath key) = none) :
    ReturnsRequested lib vault (keyFile keyPath key) fPrivate
        (scaLoadKey lib vault keyPath malloc key fPrivate) ∧
      Loadable lib vault malloc (keyFile keyPath key) fPrivate := by
  have hpoint : certificatePoint lib vault (keyFile keyPath key) = none := by
    rw [certificatePoint, hcert]
    rfl
  have hnone : ∀ der, ¬ RequestedDer lib vault (keyFile keyPath key) fPrivate der := by
    cases fPrivate with
    | false => exact not_requestedDer_public lib vault hpoint
    | true =>
        rintro der ⟨number, -, hmatch, -⟩
        rcases hmatch with h | h
        · exact hfile h
        · rw [hpoint] at h
          cases h
  rw [scaLoadKey_undecodable lib vault keyPath malloc key fPrivate hfile hcert,
    returnsRequested_intErr_iff]
  refine ⟨hnone, fun pubkey h => ?_, fun h => absurd h hfile, fun _ h => ?_,
    fun der h => absurd h (hnone der)⟩
  · rw [hcert] at h
    cases h
  · rcases h with h | h
    · exact absurd h hfile
    · rw [hcert] at h
      cases h

/-- With a certificate that has a point of the curve. -/
theorem scaLoadKey_returns_point_iff {pubkey : List UInt8} {point : lib.Point}
    (hcert : scaGetPublicKey lib vault (keyFile keyPath key) = some pubkey)
    (hsize : pubkey.length ≤ szPubkeySize)
    (hpoint : certificatePoint lib vault (keyFile keyPath key) = some point) :
    ReturnsRequested lib vault (keyFile keyPath key) fPrivate
        (scaLoadKey lib vault keyPath malloc key fPrivate) ↔
      Loadable lib vault malloc (keyFile keyPath key) fPrivate := by
  have hcheck := ((certificatePoint_eq_some_iff lib vault hcert).mp hpoint).2
  have hfile : vault (szFileName (keyFile keyPath key) defaultCertfileExt) ≠ none := by
    rw [← Option.isSome_iff_ne_none]
    exact scaGetPublicKey_file lib vault hcert
  have hgood : ∀ p, scaGetPublicKey lib vault (keyFile keyPath key) = some p →
      p.length ≤ szPubkeySize ∧ (certificatePoint lib vault (keyFile keyPath key)).isSome := by
    intro p h
    rw [hcert] at h
    cases h
    exact ⟨hsize, by rw [hpoint]; rfl⟩
  rw [scaLoadKey_point lib vault keyPath malloc key fPrivate hcert hsize hpoint]
  cases fPrivate with
  | false =>
      have hrequested : ∀ der, RequestedDer lib vault (keyFile keyPath key) false der ↔
          der = lib.i2dPUBKEY ⟨some point, none⟩ := by
        intro der
        rw [RequestedDer, hpoint]
        simp
      rw [loadWith_public lib vault malloc key _ hcheck, returnsRequested_stored_iff lib vault malloc
        key (lib.i2dPUBKEY_length _) hrequested]
      constructor
      · intro h
        refine ⟨hgood, fun h => absurd h hfile, fun h => (nomatch h), fun der hder => ?_⟩
        rw [(hrequested der).mp hder]
        exact h
      · intro h
        exact h.buffer _ ((hrequested _).mpr rfl)
  | true =>
      rw [loadWith_private_returns_iff lib vault malloc key hcheck
        (fun number h => Or.inr (by rw [hpoint, h]))]
      constructor
      · rintro ⟨hkind, -, hbuffer⟩
        exact ⟨hgood, fun h => absurd h hfile, fun _ _ => hkind, hbuffer⟩
      · intro h
        refine ⟨h.ellipticCurve rfl (Or.inr (by rw [hcert]; rfl)), fun number _ hmatch => ?_, h.buffer⟩
        rcases hmatch with hno | hmatch
        · exact absurd hno hfile
        · rw [hpoint] at hmatch
          exact (Option.some.inj hmatch).symm

/-- **Loading a key.** The requested key is returned, or the call fails and leaves NULL, exactly when
    the files of the SKI are loadable. -/
theorem scaLoadKey_returns_iff :
    ReturnsRequested lib vault (keyFile keyPath key) fPrivate
        (scaLoadKey lib vault keyPath malloc key fPrivate) ↔
      Loadable lib vault malloc (keyFile keyPath key) fPrivate := by
  cases hcert : scaGetPublicKey lib vault (keyFile keyPath key) with
  | none =>
      by_cases hfile : vault (szFileName (keyFile keyPath key) defaultCertfileExt) = none
      · exact scaLoadKey_returns_dummy_iff lib vault keyPath malloc key fPrivate hfile
      · have h := scaLoadKey_returns_undecodable lib vault keyPath malloc key fPrivate hfile hcert
        exact iff_of_true h.1 h.2
  | some pubkey =>
      by_cases hgood : pubkey.length ≤ szPubkeySize ∧
          (certificatePoint lib vault (keyFile keyPath key)).isSome
      · obtain ⟨point, hpoint⟩ := Option.isSome_iff_exists.mp hgood.2
        exact scaLoadKey_returns_point_iff lib vault keyPath malloc key fPrivate hcert hgood.1 hpoint
      · rw [scaLoadKey_badPoint lib vault keyPath malloc key fPrivate hcert hgood]
        exact iff_of_false (not_returnsRequested_none lib vault _ fPrivate)
          (fun h => hgood (h.certificate pubkey hcert))

end Cases

/-! ## An empty vault -/

/-- A library whose points and numbers are octets, every one of them a point and its own number. A
    certificate file is a SEQUENCE tag and a point, a private key file a dash and a number. -/
def octetLibrary : KeyLibrary where
  Point := UInt8
  Scalar := UInt8
  EVPKey := UInt8
  d2iX509 := fun file => if file.head? = some idSequence then some file.tail else none
  oct2point := List.head?
  pemReadPrivateKey := fun file => if file.head? = some 0x2d then file.tail.head? else none
  evpPkeyGet1ECKey := some
  pointMul := UInt8.ofNat
  publicOf := id
  ecKeyCheckKey := fun key => key.priv.isNone || key.priv = key.pub
  i2dECPrivateKey := fun key => if key.priv.isSome then key.priv.toList ++ key.pub.toList else []
  d2iECPrivateKey := fun der => some ⟨der.tail.head?, der.head?⟩
  i2dPUBKEY := fun key => key.pub.toList
  d2iPUBKEY := fun der => some ⟨der.head?, none⟩
  check_private := by simp [eq_comm]
  check_pointMul := by simp
  i2dECPrivateKey_public := by simp
  i2dECPrivateKey_ne_nil := by simp
  d2i_i2dECPrivateKey := by simp
  i2dPUBKEY_ne_nil := by simp
  d2i_i2dPUBKEY := by simp
  i2dECPrivateKey_length := by
    rintro ⟨_ | point, _ | number⟩ <;> simp
  i2dPUBKEY_length := by
    rintro ⟨_ | point, priv⟩ <;> simp

/-- A key that only has its SKI. -/
def emptyKey : BGPSecKey where
  algoID := 1
  asn := 65001
  ski := List.replicate skiLength 0
  keyLength := 0
  keyData := none
  ski_length := List.length_replicate

theorem scaLoadKey_empty_vault :
    ¬ ReturnsRequested octetLibrary (fun _ => none) (keyFile [] emptyKey) false
      (scaLoadKey octetLibrary (fun _ => none) [] (fun _ => some 0x1000) emptyKey false) := by
  rw [scaLoadKey_returns_dummy_iff octetLibrary _ [] _ emptyKey false rfl]
  intro h
  exact nomatch h.noCertificate rfl

end SrxNote.Crypto
