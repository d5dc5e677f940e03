import SrxNote.Crypto.Proofs.VerifyPlan
import SrxNote.Crypto.VerifySignature

/-!
# When a signature is accepted

The verify side takes every result of `ECDSA_verify` but 0 for a success, the
self-check of the sign side only 1. They differ exactly where `ECDSA_verify`
reports an error.
-/

namespace SrxNote.Crypto
open SrxNote.Bgpsec

variable (ssl : OpenSSL) (keyPath : List Char)

/-- The key that a check is made with: `none` for an access that may not be made, `some none` when
    no key is found. -/
def checkKey (c : Check) : Option (Option ssl.ECKey) :=
  match c.checkBy with
  | .withKeyInfo key => keyInfoKey ssl key
  | .certificate => certificateKey ssl keyPath c.signData.ski

/-- What `ECDSA_verify` returns in a check, on the SHA-256 digest of its data. -/
def ecdsaResult (c : Check) (key : ssl.ECKey) : Int :=
  ssl.ecdsaVerify (ssl.sha256 c.signData.data) c.signData.signature c.signData.sigLen.toNat key

theorem checkSignature_eq_verifyWith (c : Check) :
    checkSignature ssl keyPath c = verifyWith ssl (checkKey ssl keyPath c) c.signData := by
  rw [checkSignature, checkKey]
  cases c.checkBy with
  | withKeyInfo key => rfl
  | certificate => rfl

/-- A check succeeds exactly when a key is found and `ECDSA_verify` does not return 0. -/
theorem checkSignature_success_iff (c : Check) :
    checkSignature ssl keyPath c = some .success ↔
      ∃ key, checkKey ssl keyPath c = some (some key) ∧ ecdsaResult ssl c key ≠ 0 := by
  rw [checkSignature_eq_verifyWith]
  cases hkey : checkKey ssl keyPath c with
  | none => simp [verifyWith]
  | some found =>
      cases found with
      | none => simp [verifyWith]
      | some key =>
          by_cases hz : ecdsaResult ssl c key = 0
          · have hz' := hz
            unfold ecdsaResult at hz'
            simp [verifyWith, clBgpsecDoVerifySignature, hz', hz]
          · have hz' := hz
            unfold ecdsaResult at hz'
            simp [verifyWith, clBgpsecDoVerifySignature, hz', hz]

/-- Without an error a result that is not 0 is 1. -/
theorem ecdsaResult_ne_zero_iff {c : Check} {key : ssl.ECKey} (h : ecdsaResult ssl c key ≠ -1) :
    ecdsaResult ssl c key ≠ 0 ↔ ecdsaResult ssl c key = 1 := by
  rcases ssl.ecdsaVerify_codes (ssl.sha256 c.signData.data) c.signData.signature
    c.signData.sigLen.toNat key with hr | hr | hr
  · change ecdsaResult ssl c key = 1 at hr
    simp [hr]
  · change ecdsaResult ssl c key = 0 at hr
    simp [hr]
  · exact absurd hr h

/-- A step of `cl_BgpsecVerify` lets the run succeed only when its check does. -/
theorem runCheck_success_iff (oracle : Check → Option VerifyStatus) (c : Checked)
    (rest : VerifyRun) :
    (runCheck oracle c rest).outcome = .ret .success ↔
      oracle c.check = some .success ∧ rest.outcome = .ret .success := by
  by_cases hc : oracle c.check = some .success
  · rw [runCheck_success hc]
    simp [hc]
  · exact iff_of_false (runCheck_not_success hc rest).2 fun h => hc h.1

/-- Both functions, and with them each step of `cl_BgpsecVerify`, report success only when
    `ECDSA_verify` returned 1, and accept what the self-check of the sign side accepts, exactly when
    `ECDSA_verify` does not report an error. -/
theorem checkSignature_accepts_iff (c : Check) :
    ((checkSignature ssl keyPath c = some .success →
        ∃ key, checkKey ssl keyPath c = some (some key) ∧ ecdsaResult ssl c key = 1) ∧
      (∀ seg strays rest,
        (runCheck (checkSignature ssl keyPath) ⟨seg, c, strays⟩ rest).outcome = .ret .success →
          ∃ key, checkKey ssl keyPath c = some (some key) ∧ ecdsaResult ssl c key = 1) ∧
      ∀ key, checkKey ssl keyPath c = some (some key) →
        (checkSignature ssl keyPath c = some .success ↔
          selfCheck ssl (ssl.sha256 c.signData.data) key c.signData.signature
            c.signData.sigLen.toNat = true)) ↔
      ∀ key, checkKey ssl keyPath c = some (some key) → ecdsaResult ssl c key ≠ -1 := by
  constructor
  · intro h key hkey herror
    have hsuccess : checkSignature ssl keyPath c = some .success := by
      rw [checkSignature_success_iff]
      refine ⟨key, hkey, ?_⟩
      rw [herror]
      decide
    obtain ⟨key', hkey', hone⟩ := h.1 hsuccess
    rw [hkey, Option.some.injEq, Option.some.injEq] at hkey'
    rw [← hkey', herror] at hone
    exact absurd hone (by decide)
  · intro h
    have hone := fun key hkey => ecdsaResult_ne_zero_iff ssl (h key hkey)
    have haccept : checkSignature ssl keyPath c = some .success →
        ∃ key, checkKey ssl keyPath c = some (some key) ∧ ecdsaResult ssl c key = 1 := by
      intro hsuccess
      obtain ⟨key, hkey, hne⟩ := (checkSignature_success_iff ssl keyPath c).mp hsuccess
      exact ⟨key, hkey, (hone key hkey).mp hne⟩
    refine ⟨haccept, ?_, ?_⟩
    · intro seg strays rest hrun
      exact haccept ((runCheck_success_iff _ _ _).mp hrun).1
    · intro key hkey
      rw [checkSignature_success_iff, selfCheck, decide_eq_true_eq]
      constructor
      · rintro ⟨key', hkey', hne⟩
        rw [hkey, Option.some.injEq, Option.some.injEq] at hkey'
        rw [← hkey'] at hne
        exact (hone key hkey).mp hne
      · intro hr
        exact ⟨key, hkey, (hone key hkey).mpr hr⟩

/-- The base point of P-256, uncompressed. -/
def basePoint : List UInt8 :=
  [4, 107, 23, 209, 242, 225, 44, 66, 71, 248, 188, 230, 229, 99, 164, 64, 242, 119, 3, 125, 129,
    45, 235, 51, 160, 244, 161, 57, 69, 216, 152, 194, 150, 79, 227, 66, 226, 254, 26, 127, 155,
    142, 231, 235, 74, 124, 15, 158, 22, 43, 206, 51, 87, 107, 49, 94, 206, 203, 182, 64, 104, 55,
    191, 81, 245]

/-- What precedes the point in a P-256 SubjectPublicKeyInfo. -/
def spkiHeader : List UInt8 :=
  [48, 89, 48, 19, 6, 7, 42, 134, 72, 206, 61, 2, 1, 6, 8, 42, 134, 72, 206, 61, 3, 1, 7, 3, 66, 0]

/-- The origin octets of AS 1 for 10.0.0.0/8, announced to AS 3, and their digest. -/
def sampleData : List UInt8 := [0, 0, 0, 3, 0, 0, 0, 1, 1, 0, 1, 8, 10]

def sampleDigest : List UInt8 :=
  [52, 109, 3, 214, 27, 228, 227, 103, 110, 162, 139, 120, 80, 33, 227, 141, 80, 27, 242, 225, 170,
    142, 200, 14, 159, 138, 179, 7, 215, 81, 250, 152]

/-- OpenSSL as far as public keys with the base point and signatures that are no DER SEQUENCE go. -/
def sampleSSL : OpenSSL where
  ECKey := List UInt8
  EVPKey := List UInt8
  sha256 data := if data = sampleData then sampleDigest else List.replicate 32 0
  ecdsaVerify _ signature len _ := if (signature.getD []).take 1 = [48] ∧ 1 ≤ len then 0 else -1
  ecdsaVerify_codes digest signature len key := by
    split
    · exact Or.inr (Or.inl rfl)
    · exact Or.inr (Or.inr rfl)
  ecdsaSign _ _ := none
  ecKeyCheckKey key := key = basePoint
  ecKeyGet0PublicKey _ := true
  d2iECPrivateKey _ _ := none
  d2iPUBKEY octets len :=
    if octets.take 26 = spkiHeader ∧ len = 91 then some (octets.drop 26) else none
  evpPkeyGet1ECKey pkey := some pkey
  d2iX509 _ := none
  keyOfPoint point := if point = basePoint then some point else none

/-- A check with the base point as public key and a signature of a single zero octet. -/
def sampleCheck : Check :=
  ⟨.withKeyInfo (some ⟨1, 1, List.replicate 20 7, 91, some ⟨0, spkiHeader ++ basePoint⟩, rfl⟩),
    ⟨sampleData, some (List.replicate 20 7), 1, some [0], 1⟩⟩

/-- Its signature is accepted, although `ECDSA_verify` reports an error. -/
theorem checkSignature_accepts_malformed :
    ¬ (checkSignature sampleSSL [] sampleCheck = some .success →
      ∃ key, checkKey sampleSSL [] sampleCheck = some (some key) ∧
        ecdsaResult sampleSSL sampleCheck key = 1) := by
  intro h
  obtain ⟨key, -, hone⟩ := h (by decide)
  have herror : ecdsaResult sampleSSL sampleCheck key = -1 := rfl
  rw [herror] at hone
  exact absurd hone (by decide)

end SrxNote.Crypto
