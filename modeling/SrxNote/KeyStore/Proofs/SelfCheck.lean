import SrxNote.KeyStore.Signing

/-!
# What a positive result of signing says

`cl_BgpsecECDSA_Sign` returns the length of a signature also when the self-check of
it fails, and the three functions that call it hand the length on. So a positive
result stands for a verified signature exactly when the self-check passes.
-/

namespace SrxNote.KeyStore
open SrxNote.Bgpsec SrxNote.Crypto

variable {ssl : OpenSSL}

/-- A call of one of the three functions. -/
inductive SignCall (ssl : OpenSSL) where
  | withFiles (files : KeyFiles ssl) (keyPath : List Char) (req : SignData)
  | withKeyInfo (req : SignData) (key : Option BGPSecKey)
  | withID (prm : Params) (st : Store ssl) (req : SignRequest) (inID : UInt8)

/-- The value that the call returns. -/
def SignCall.returns : SignCall ssl → Option Int
  | .withFiles files keyPath req => (stBgpsecReqSigning files keyPath req).map Signed.ret
  | .withKeyInfo req key => some (stBgpsecReqSigningWithKeyInfo ssl req key).ret
  | .withID prm st req inID => (stBgpsecReqSigningWithID prm st req inID).map Prod.fst

/-- An EC key comes to `cl_BgpsecECDSA_Sign` when its check passes and the algorithm is known. -/
def signable (algoID : UInt8) (ecKey : ssl.ECKey) : Option ssl.ECKey :=
  if ssl.ecKeyCheckKey ecKey ∧ algoID = apiBgpsecAlgoId256 then some ecKey else none

/-- The EC key from the files of a SKI. -/
def fileKey (files : KeyFiles ssl) (keyPath : List Char) (ski : List UInt8) : Option ssl.ECKey :=
  match scaFindDirInSKI keyPath maxPathLen (some ski) with
  | none => none
  | some filename =>
      match clBgpsecSetEcPublicKey ssl filename with
      | some (.key ecKey) => clBgpsecSetEcPrivateKey files filename ecKey
      | _ => none

/-- The EC key from the data of a key. -/
def keyDataKey (ssl : OpenSSL) (key : Option BGPSecKey) : Option ssl.ECKey := do
  let key ← key
  let p ← key.keyData
  ssl.d2iECPrivateKey p.octets key.keyLength.toNat

/-- The digest and the EC key that a call comes to `cl_BgpsecECDSA_Sign` with, if it does. -/
def SignCall.signs : SignCall ssl → Option (List UInt8 × ssl.ECKey)
  | .withFiles files keyPath req => do
      let (ski, data) ← clSignParamSanityCheck req
      let ecKey ← fileKey files keyPath ski
      let ecKey ← signable req.algoID ecKey
      some (ssl.sha256 data, ecKey)
  | .withKeyInfo req key => do
      let (_, data) ← clSignParamSanityCheck req
      let ecKey ← keyDataKey ssl key
      let ecKey ← signable req.algoID ecKey
      some (ssl.sha256 data, ecKey)
  | .withID prm st req inID => do
      let data ← req.data
      if req.hasSignature ∧ inID ≠ 0 then
        let ecKey ← (signingKey prm st inID).join
        let ecKey ← signable req.algoID ecKey
        some (ssl.sha256 data, ecKey)
      else none

/-- A positive length is returned only for a signature of this length that verifies. -/
def ReportsVerified (call : SignCall ssl) : Prop :=
  ∀ ret, call.returns = some ret → 0 < ret → ∃ digest ecKey signature,
    call.signs = some (digest, ecKey) ∧ ssl.ecdsaSign digest ecKey = some signature ∧
    (signature.length : Int) = ret ∧
    ssl.ecdsaVerify digest (some signature) signature.length ecKey = 1

/-- The self-check of every signature that the call makes passes. -/
def SelfCheckPasses (call : SignCall ssl) : Prop :=
  ∀ digest ecKey signature, call.signs = some (digest, ecKey) →
    ssl.ecdsaSign digest ecKey = some signature →
    signature = [] ∨ ssl.ecdsaVerify digest (some signature) signature.length ecKey = 1

/-! ### The three functions -/

/-- The value that a call returns, by what it comes to `cl_BgpsecECDSA_Sign` with. -/
def Returns (signs : Option (List UInt8 × ssl.ECKey)) (ret : Int) : Prop :=
  match signs with
  | none => ret ≤ 0
  | some (digest, ecKey) => ret = (clBgpsecECDSASign ssl digest ecKey).1

/-- `ECDSA_sign` fails, or the self-check of its signature does. -/
def SigningFails (signs : Option (List UInt8 × ssl.ECKey)) : Prop :=
  ∃ digest ecKey, signs = some (digest, ecKey) ∧ ∀ signature,
    ssl.ecdsaSign digest ecKey = some signature →
    ssl.ecdsaVerify digest (some signature) signature.length ecKey ≠ 1

/-- `cl_BgpsecSetEcPublicKey` fails for a request behind the creation of its key. -/
def PublicKeyFreed (ssl : OpenSSL) (keyPath : List Char) (req : SignData) : Prop :=
  ∃ ski data filename, clSignParamSanityCheck req = some (ski, data) ∧
    scaFindDirInSKI keyPath maxPathLen (some ski) = some filename ∧
    clBgpsecSetEcPublicKey ssl filename = some (.failed true)

theorem not_signingFails_none : ¬ SigningFails (none : Option (List UInt8 × ssl.ECKey)) := by
  rintro ⟨digest, ecKey, h, -⟩
  cases h

/-- `cl_BgpsecECDSA_Sign` frees its key on its error path. -/
theorem clBgpsecECDSASign_freed_iff (digest : List UInt8) (ecKey : ssl.ECKey) :
    (clBgpsecECDSASign ssl digest ecKey).2 = true ↔ ∀ signature,
      ssl.ecdsaSign digest ecKey = some signature →
      ssl.ecdsaVerify digest (some signature) signature.length ecKey ≠ 1 := by
  rw [clBgpsecECDSASign]
  cases hsign : ssl.ecdsaSign digest ecKey with
  | none => simp
  | some signature =>
      by_cases hverify : ssl.ecdsaVerify digest (some signature) signature.length ecKey = 1 <;>
        simp [selfCheck, hverify]

/-- Signing with an EC key returns what `cl_BgpsecECDSA_Sign` does, or 0. -/
theorem signWithKey_spec (data : List UInt8) (algoID : UInt8) (ecKey : ssl.ECKey) :
    Returns ((signable algoID ecKey).bind fun ecKey => some (ssl.sha256 data, ecKey))
      (signWithKey ssl data algoID ecKey).1 ∧
    ((signWithKey ssl data algoID ecKey).2 = true ↔
      SigningFails ((signable algoID ecKey).bind fun ecKey => some (ssl.sha256 data, ecKey))) := by
  have heq : signWithKey ssl data algoID ecKey =
      (signable algoID ecKey).elim (0, false) (clBgpsecECDSASign ssl (ssl.sha256 data)) := by
    rw [signWithKey, signable]
    cases ssl.ecKeyCheckKey ecKey <;> by_cases halgo : algoID = apiBgpsecAlgoId256 <;> simp [halgo]
  rw [heq]
  cases signable algoID ecKey with
  | none => exact ⟨Int.le_refl 0, iff_of_false Bool.false_ne_true not_signingFails_none⟩
  | some ecKey =>
      refine ⟨rfl, ?_⟩
      rw [Option.elim_some, clBgpsecECDSASign_freed_iff]
      constructor
      · intro h
        exact ⟨_, ecKey, rfl, h⟩
      · rintro ⟨digest, ecKey', hsigns, h⟩
        cases hsigns
        exact h

/-- A key whose check fails does not come to signing. -/
theorem signable_of_check {ecKey : ssl.ECKey} (h : ¬ ssl.ecKeyCheckKey ecKey) (algoID : UInt8) :
    signable algoID ecKey = none := by
  rw [signable, if_neg]
  exact fun hboth => h hboth.1

/-- The end of `stBgpsecReqSigning`, with its key loaded. -/
theorem signWithLoadedKey_spec {data : List UInt8} {algoID : UInt8} {ecKey : ssl.ECKey} {r : Signed}
    (h : (if ¬ ssl.ecKeyCheckKey ecKey then some ⟨0, 1⟩
      else
        let (ret, freed) := signWithKey ssl data algoID ecKey
        some ⟨ret, if freed then 1 else 0⟩) = some r) :
    Returns ((signable algoID ecKey).bind fun ecKey => some (ssl.sha256 data, ecKey)) r.ret ∧
      r.frees ≤ 1 := by
  by_cases hcheck : ssl.ecKeyCheckKey ecKey = true
  · have hspec := (signWithKey_spec data algoID ecKey).1
    rw [if_neg (not_not.mpr hcheck)] at h
    generalize signWithKey ssl data algoID ecKey = signed at h hspec
    obtain ⟨ret, freed⟩ := signed
    cases h
    exact ⟨hspec, by cases freed <;> simp⟩
  · rw [if_pos hcheck] at h
    cases h
    rw [signable_of_check hcheck]
    exact ⟨Int.le_refl 0, Nat.le_refl 1⟩

/-- With the arguments and the name of the key file, the public key decides. -/
theorem publicKeyFreed_iff {keyPath filename : List Char} {req : SignData} {ski : List UInt8}
    {data : List UInt8} (hparam : clSignParamSanityCheck req = some (ski, data))
    (hname : scaFindDirInSKI keyPath maxPathLen (some ski) = some filename) :
    PublicKeyFreed ssl keyPath req ↔ clBgpsecSetEcPublicKey ssl filename = some (.failed true) := by
  rw [PublicKeyFreed]
  constructor
  · rintro ⟨ski', data', filename', hparam', hname', hkey⟩
    cases hparam.symm.trans hparam'
    cases hname.symm.trans hname'
    exact hkey
  · intro hkey
    exact ⟨ski, data, filename, hparam, hname, hkey⟩

/-- `stBgpsecReqSigning` frees its key twice exactly when `cl_BgpsecSetEcPublicKey` has freed it. -/
theorem stBgpsecReqSigning_spec {files : KeyFiles ssl} {keyPath : List Char} {req : SignData}
    {r : Signed} (h : stBgpsecReqSigning files keyPath req = some r) :
    Returns (SignCall.withFiles files keyPath req).signs r.ret ∧
      (r.frees ≤ 1 ↔ ¬ PublicKeyFreed ssl keyPath req) := by
  rw [stBgpsecReqSigning] at h
  rw [SignCall.signs]
  cases hparam : clSignParamSanityCheck req with
  | none =>
      simp only [hparam, Option.some.injEq] at h
      subst h
      simp [Returns, PublicKeyFreed, hparam]
  | some param =>
      obtain ⟨ski, data⟩ := param
      simp only [hparam, Option.bind_eq_bind, Option.bind_some, fileKey] at h ⊢
      cases hname : scaFindDirInSKI keyPath maxPathLen (some ski) with
      | none =>
          simp only [hname] at h
          cases h
      | some filename =>
          rw [publicKeyFreed_iff hparam hname]
          simp only [hname] at h ⊢
          cases hpublic : clBgpsecSetEcPublicKey ssl filename with
          | none =>
              simp only [hpublic] at h
              cases h
          | some loaded =>
              cases loaded with
              | failed freed =>
                  simp only [hpublic, Option.some.injEq] at h
                  subst h
                  cases freed <;> simp [Returns]
              | key ecKey =>
                  simp only [hpublic] at h ⊢
                  cases hprivate : clBgpsecSetEcPrivateKey files filename ecKey with
                  | none =>
                      simp only [hprivate, Option.some.injEq] at h
                      subst h
                      simp [Returns]
                  | some ecKey' =>
                      simp only [hprivate, Option.bind_some] at h ⊢
                      obtain ⟨hret, hfrees⟩ := signWithLoadedKey_spec h
                      exact ⟨hret, by simp [hfrees]⟩

/-- `stBgpsecReqSigningWithKeyInfo` frees its key twice exactly when the signing has freed it. -/
theorem stBgpsecReqSigningWithKeyInfo_spec (req : SignData) (key : Option BGPSecKey) :
    Returns (SignCall.withKeyInfo req key : SignCall ssl).signs
      (stBgpsecReqSigningWithKeyInfo ssl req key).ret ∧
    ((stBgpsecReqSigningWithKeyInfo ssl req key).frees ≤ 1 ↔
      ¬ SigningFails (SignCall.withKeyInfo req key : SignCall ssl).signs) := by
  unfold stBgpsecReqSigningWithKeyInfo
  rw [SignCall.signs]
  cases hparam : clSignParamSanityCheck req with
  | none => simp [Returns, not_signingFails_none]
  | some param =>
      simp only [Option.bind_eq_bind, Option.bind_some, keyDataKey]
      cases key with
      | none => simp [Returns, not_signingFails_none]
      | some key =>
          simp only [Option.bind_some]
          cases hdata : key.keyData with
          | none => simp [Returns, not_signingFails_none]
          | some p =>
              simp only [Option.bind_some]
              cases hdecode : ssl.d2iECPrivateKey p.octets key.keyLength.toNat with
              | none => simp [Returns, not_signingFails_none]
              | some ecKey =>
                  simp only [Option.bind_some]
                  by_cases hcheck : ssl.ecKeyCheckKey ecKey = true
                  · obtain ⟨hret, hfree⟩ := signWithKey_spec param.2 req.algoID ecKey
                    generalize signWithKey ssl param.2 req.algoID ecKey = signed at hret hfree
                    rw [if_neg (not_not.mpr hcheck)]
                    refine ⟨hret, ?_⟩
                    rw [← hfree]
                    cases signed.2 <;> simp
                  · rw [if_pos hcheck, signable_of_check hcheck]
                    simp [Returns, not_signingFails_none]

/-- `stBgpsecReqSigningWithID` frees the key of the slot exactly when the signing does. -/
theorem stBgpsecReqSigningWithID_spec {prm : Params} {st : Store ssl} {req : SignRequest}
    {inID : UInt8} {r : Int × Bool} (h : stBgpsecReqSigningWithID prm st req inID = some r) :
    Returns (SignCall.withID prm st req inID).signs r.1 ∧
      (r.2 = true ↔ SigningFails (SignCall.withID prm st req inID).signs) := by
  rw [stBgpsecReqSigningWithID] at h
  rw [SignCall.signs]
  split at h
  · rename_i hdata
    cases h
    simp [hdata, Returns, not_signingFails_none]
  · rename_i data hdata
    simp only [hdata, Option.bind_eq_bind, Option.bind_some]
    split at h
    · rename_i hparam
      cases h
      have hnot : ¬ (req.hasSignature = true ∧ inID ≠ 0) := by
        rintro ⟨hsig, hid⟩
        exact hparam.elim (fun hno => hno hsig) hid
      rw [if_neg hnot]
      simp [Returns, not_signingFails_none]
    · rename_i hparam
      have hyes : req.hasSignature = true ∧ inID ≠ 0 := by
        rw [not_or, not_not] at hparam
        exact hparam
      rw [if_pos hyes]
      split at h
      · cases h
      · rename_i hkey
        cases h
        simp [hkey, Returns, not_signingFails_none]
      · rename_i ecKey hkey
        cases h
        simp only [hkey, Option.join_some, Option.bind_some]
        exact signWithKey_spec data req.algoID ecKey

/-! ### The result -/

/-- The length is returned whatever the self-check says. -/
theorem clBgpsecECDSASign_ret (digest : List UInt8) (ecKey : ssl.ECKey) :
    (clBgpsecECDSASign ssl digest ecKey).1 = ((ssl.ecdsaSign digest ecKey).getD []).length := by
  rw [clBgpsecECDSASign]
  cases ssl.ecdsaSign digest ecKey with
  | none => rfl
  | some signature =>
      dsimp only
      split <;> rfl

/-- The value of a call. -/
theorem SignCall.returns_spec {call : SignCall ssl} {ret : Int} (h : call.returns = some ret) :
    Returns call.signs ret := by
  cases call with
  | withFiles files keyPath req =>
      obtain ⟨r, hr, rfl⟩ := Option.map_eq_some_iff.mp h
      exact (stBgpsecReqSigning_spec hr).1
  | withKeyInfo req key =>
      cases h
      exact (stBgpsecReqSigningWithKeyInfo_spec req key).1
  | withID prm st req inID =>
      obtain ⟨r, hr, rfl⟩ := Option.map_eq_some_iff.mp h
      exact (stBgpsecReqSigningWithID_spec hr).1

/-- A call that comes to signing returns. -/
theorem SignCall.signs_of_returns_none {call : SignCall ssl} (h : call.returns = none) :
    call.signs = none := by
  cases call with
  | withFiles files keyPath req =>
      rw [SignCall.returns, Option.map_eq_none_iff, stBgpsecReqSigning] at h
      rw [SignCall.signs]
      cases hparam : clSignParamSanityCheck req with
      | none => rfl
      | some param =>
          simp only [hparam, Option.bind_eq_bind, Option.bind_some, fileKey] at h ⊢
          cases hname : scaFindDirInSKI keyPath maxPathLen (some param.1) with
          | none => rfl
          | some filename =>
              simp only [hname] at h ⊢
              cases hpublic : clBgpsecSetEcPublicKey ssl filename with
              | none => rfl
              | some loaded =>
                  cases loaded with
                  | failed freed => simp [hpublic] at h
                  | key ecKey =>
                      simp only [hpublic] at h
                      cases hprivate : clBgpsecSetEcPrivateKey files filename ecKey with
                      | none => simp [hprivate] at h
                      | some ecKey' =>
                          simp only [hprivate] at h
                          split at h <;> cases h
  | withKeyInfo req key => cases h
  | withID prm st req inID =>
      rw [SignCall.returns, Option.map_eq_none_iff, stBgpsecReqSigningWithID] at h
      rw [SignCall.signs]
      cases hdata : req.data with
      | none => rfl
      | some data =>
          simp only [hdata, Option.bind_eq_bind, Option.bind_some] at h ⊢
          split at h
          · cases h
          · split at h
            · rename_i hkey
              simp [hkey]
            · cases h
            · cases h

/-- A call of the three functions returns a positive length only for a signature that verifies, exactly
    when the self-check passes for every signature that it makes. -/
theorem signing_verified_iff (call : SignCall ssl) : ReportsVerified call ↔ SelfCheckPasses call := by
  constructor
  · intro hreports digest ecKey signature hsigns hsign
    by_cases hempty : signature = []
    · exact .inl hempty
    · right
      cases hret : call.returns with
      | none =>
          rw [SignCall.signs_of_returns_none hret] at hsigns
          cases hsigns
      | some ret =>
          have hspec := SignCall.returns_spec hret
          rw [hsigns] at hspec
          have hpos : 0 < ret := by
            rw [hspec, clBgpsecECDSASign_ret, hsign]
            exact Int.natCast_pos.mpr (List.length_pos_iff.mpr hempty)
          obtain ⟨digest', ecKey', signature', hsigns', hsign', -, hverify⟩ := hreports ret hret hpos
          cases hsigns.symm.trans hsigns'
          cases hsign.symm.trans hsign'
          exact hverify
  · intro hcheck ret hret hpos
    have hspec := SignCall.returns_spec hret
    cases hsigns : call.signs with
    | none =>
        rw [hsigns] at hspec
        have hle : ret ≤ 0 := hspec
        omega
    | some reached =>
        obtain ⟨digest, ecKey⟩ := reached
        rw [hsigns] at hspec
        have hlen : ret = ((ssl.ecdsaSign digest ecKey).getD []).length := by
          rw [← clBgpsecECDSASign_ret]
          exact hspec
        cases hsign : ssl.ecdsaSign digest ecKey with
        | none =>
            simp only [hsign, Option.getD_none, List.length_nil] at hlen
            omega
        | some signature =>
            simp only [hsign, Option.getD_some] at hlen
            refine ⟨digest, ecKey, signature, rfl, hsign, hlen.symm, ?_⟩
            rcases hcheck digest ecKey signature hsigns hsign with hempty | hverify
            · simp only [hempty, List.length_nil] at hlen
              omega
            · exact hverify

/-- OpenSSL with a signature of one octet that its verification does not accept. -/
def rejectingSSL : OpenSSL where
  ECKey := Unit
  EVPKey := Unit
  sha256 := fun data => data
  ecdsaVerify := fun _ _ _ _ => 0
  ecdsaVerify_codes := fun _ _ _ _ => .inr (.inl rfl)
  ecdsaSign := fun _ _ => some [1]
  ecKeyCheckKey := fun _ => true
  ecKeyGet0PublicKey := fun _ => true
  d2iECPrivateKey := fun _ _ => some ()
  d2iPUBKEY := fun _ _ => none
  evpPkeyGet1ECKey := fun _ => none
  d2iX509 := fun _ => none
  keyOfPoint := fun _ => none

/-- A request to sign one octet, with a key that is given. -/
def rejectedCall : SignCall rejectingSSL :=
  .withKeyInfo ⟨⟨some [7], apiBgpsecAlgoId256, true⟩, some (List.replicate 20 0)⟩
    (some ⟨1, 65001, List.replicate 20 0, 1, some ⟨1, [0]⟩, rfl⟩)

/-- The length 1 is returned for a signature that failed the self-check. -/
theorem rejectedCall_reports : rejectedCall.returns = some 1 ∧ ¬ ReportsVerified rejectedCall := by
  have hret : rejectedCall.returns = some 1 := rfl
  refine ⟨hret, ?_⟩
  intro h
  obtain ⟨digest, ecKey, signature, -, -, -, hverify⟩ := h 1 hret (by decide)
  exact absurd (show (0 : Int) = 1 from hverify) (by decide)

end SrxNote.KeyStore
