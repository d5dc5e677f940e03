import Mathlib.Algebra.Order.Floor.Div
import Mathlib.GroupTheory.GroupAction.Ring
import SrxNote.Misc.Run
import SrxNote.Srx.Sign

/-!
# Which prefix an origination signature covers

The validation data that `signBGPSecPathAttr` adds to the attribute of an
origination is removed after a signature was made, but not when `sign` fails. The
next call then finds it, with the prefix of the failed call, and hands this prefix
to `sign`.
-/

namespace SrxNote.Srx

variable {σ : Type}

/-- The `nlri` is that of the prefix: its address family, its length and its first octets. -/
structure Announces (nlri : SCAPrefix) (pfx : QPrefix) : Prop where
  afi : nlri.afi = be16 (family2afi pfx.family)
  safi : nlri.safi = safiUnicast
  length : nlri.length = pfx.prefixlen
  octets : nlri.ip.take (pfx.prefixlen.toNat ⌈/⌉ 8) = pfx.val.take (pfx.prefixlen.toNat ⌈/⌉ 8)
  rest : ∀ octet ∈ nlri.ip.drop (pfx.prefixlen.toNat ⌈/⌉ 8), octet = 0

/-- What a call signs, and what a call without a signature leaves. -/
structure SignsAnnounced (bgp : SignEnv) (validationData : Option ValidationData)
    (call : SignCall σ) : Prop where
  /-- `sign` gets the prefix that is announced and the peer that it is announced to. -/
  handed : ∀ data, (signBGPSecPathAttr bgp validationData call).handed = some data →
    (∃ nlri, data.nlri = some nlri ∧ Announces nlri call.pfx) ∧ data.peerAS = be32 call.peerAS
  /-- A call that fails leaves the validation data as it found it. -/
  failed : (signBGPSecPathAttr bgp validationData call).signature = none →
    (signBGPSecPathAttr bgp validationData call).validationData = validationData

theorem announces_originNlri (pfx : QPrefix) : Announces (originNlri pfx) pfx := by
  have hceil : pfx.prefixlen.toNat ⌈/⌉ 8 = (pfx.prefixlen.toNat + 7) / 8 :=
    Nat.ceilDiv_eq_add_pred_div _ 8
  have hle := pfx.prefixlen_le
  have hlen : (pfx.val.take ((pfx.prefixlen.toNat + 7) / 8)).length =
      (pfx.prefixlen.toNat + 7) / 8 := by
    rw [List.length_take, pfx.val_length]
    omega
  refine ⟨rfl, rfl, rfl, ?_, ?_⟩
  · rw [hceil, originNlri, List.take_left' hlen]
  · rw [hceil, originNlri, List.drop_left' hlen]
    intro octet hoctet
    exact (List.mem_replicate.mp hoctet).2

/-- The first call for the attribute hands over the prefix that it was called with. -/
theorem signBGPSecPathAttr_none (bgp : SignEnv) (hcapi : bgp.srxCAPI = true) (call : SignCall σ) :
    (∃ data, (signBGPSecPathAttr bgp none call).handed = some data ∧
      data.nlri = some (originNlri call.pfx) ∧ data.peerAS = be32 call.peerAS) ∧
      ((signBGPSecPathAttr bgp none call).validationData = none ↔ call.signed ≠ none) ∧
      (call.signed = none → (signBGPSecPathAttr bgp none call).signature = none) := by
  cases hsigned : call.signed with
  | none => simp [signBGPSecPathAttr, hcapi, hsigned, storeNlri, generateHashMessage]
  | some signed => simp [signBGPSecPathAttr, hcapi, hsigned, storeNlri, generateHashMessage]

theorem signsAnnounced_of_signed {bgp : SignEnv} {call : SignCall σ} (hcapi : bgp.srxCAPI = true)
    (hsigned : call.signed ≠ none) : SignsAnnounced bgp none call := by
  obtain ⟨⟨data, hdata, hnlri, hpeer⟩, hleaves, -⟩ := signBGPSecPathAttr_none bgp hcapi call
  constructor
  · intro data' hdata'
    rw [hdata] at hdata'
    cases hdata'
    exact ⟨⟨originNlri call.pfx, hnlri, announces_originNlri call.pfx⟩, hpeer⟩
  · intro _
    exact hleaves.mpr hsigned

theorem not_signsAnnounced_of_failed {bgp : SignEnv} {call : SignCall σ}
    (hcapi : bgp.srxCAPI = true) (hfailed : call.signed = none) :
    ¬ SignsAnnounced bgp none call := by
  intro h
  obtain ⟨-, hleaves, hreturn⟩ := signBGPSecPathAttr_none bgp hcapi call
  exact hleaves.mp (h.failed (hreturn hfailed)) hfailed

/-- Without a crypto API a call does nothing. -/
theorem signsAnnounced_without_capi {bgp : SignEnv} (hcapi : bgp.srxCAPI = false)
    (validationData : Option ValidationData) (call : SignCall σ) :
    SignsAnnounced bgp validationData call := by
  constructor <;> simp [signBGPSecPathAttr, hcapi]

/-- In every sequence of calls on an attribute without validation data: all of them hand over their
    own prefix and peer, and the ones that fail leave the attribute alone, exactly if there is no
    crypto API or no call of `sign` fails. -/
theorem origination_signed_iff (bgp : SignEnv) (calls : List (SignCall σ)) :
    Run.EachStep (signStep bgp) (SignsAnnounced bgp) none calls ↔
      bgp.srxCAPI = false ∨ ∀ call ∈ calls, call.signed ≠ none := by
  cases hcapi : bgp.srxCAPI with
  | false =>
      refine iff_of_true ?_ (Or.inl rfl)
      intro _ call validationData _ _ _ _
      exact signsAnnounced_without_capi hcapi validationData call
  | true =>
      rw [or_iff_right (by decide)]
      induction calls with
      | nil => exact iff_of_true Run.EachStep.nil (by simp)
      | cons call calls ih =>
          by_cases hsigned : call.signed = none
          · refine iff_of_false ?_ ?_
            · intro h
              have hfirst := ((Run.eachStep_cons_iff rfl).mp h).1
              exact not_signsAnnounced_of_failed hcapi hsigned hfirst
            · intro h
              exact h call List.mem_cons_self hsigned
          · have hstep : signStep bgp none call = some none := by
              rw [signStep, (signBGPSecPathAttr_none bgp hcapi call).2.1.mpr hsigned]
            rw [Run.eachStep_cons_iff hstep, ih, List.forall_mem_cons]
            exact and_congr_left' (iff_of_true (signsAnnounced_of_signed hcapi hsigned) hsigned)

/-! ### After a failure -/

/-- A router with the key of the algorithm 1. -/
def signingEnv : SignEnv := ⟨65000, srxSetDefault, true, 1, List.replicate 20 7, fun _ => (none, 0)⟩

/-- The prefix 10.0.0.0/8. -/
def firstPrefix : QPrefix := ⟨.inet, 8, 10 :: List.replicate 15 0, rfl, by decide⟩

/-- The prefix 192.168.0.0/16. -/
def secondPrefix : QPrefix := ⟨.inet, 16, 192 :: 168 :: List.replicate 14 0, rfl, by decide⟩

/-- Two prefixes with one attribute; `sign` fails for the first one. -/
def failedSign : List (SignCall Nat) :=
  [⟨65001, firstPrefix, 1, 0, none⟩, ⟨65002, secondPrefix, 1, 0, some ⟨some 3, none⟩⟩]

/-- The call for the second prefix hands over the first one. -/
theorem failedSign_hands_first_prefix :
    ¬ Run.EachStep (signStep signingEnv) (SignsAnnounced signingEnv) none failedSign := by
  intro h
  let left : ValidationData := ⟨some (originNlri firstPrefix), none, none, 0⟩
  have hfirst : signStep signingEnv none
      (⟨65001, firstPrefix, 1, 0, none⟩ : SignCall Nat) = some (some left) := rfl
  have hsecond := ((Run.eachStep_cons_iff rfl).mp ((Run.eachStep_cons_iff hfirst).mp h).2).1
  obtain ⟨⟨nlri, hnlri, hannounces⟩, -⟩ := hsecond.handed _ rfl
  have hfound : originNlri firstPrefix = nlri := Option.some.inj hnlri
  have hlength : (8 : UInt8) = 16 := by
    rw [← hfound] at hannounces
    exact hannounces.length
  exact absurd hlength (by decide)

end SrxNote.Srx
