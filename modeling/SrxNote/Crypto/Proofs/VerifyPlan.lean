import Mathlib.Data.List.TakeWhile
import SrxNote.Crypto.Verify

/-!
# The plan of a validation

Which checks `cl_BgpsecVerify` would make if all of them succeeded, and how it
would end then, does not depend on the results of the checks. This plan is
computed first; a run follows it up to the first check that does not succeed.
-/

namespace SrxNote.Crypto
open SrxNote.Bgpsec

/-- The checks of a run in which all checks succeed, and its outcome. -/
def verifyPlan (a : VerifyArgs) :
    Nat → UInt32 → List UInt8 → List PathSegment → List SigSegment → List Checked × Outcome
  | 0, _, _, _, _ => ([], .ret .success)
  | _ + 1, _, _, [], _ => ([], .ret .success)
  | _ + 1, _, _, _ :: _, [] => ([], .ret .success)
  | iter + 1, targetAS, hashbuff, seg :: segs, ss :: sss =>
      if 1 < iter + 1 then
        match prepareTransit a (iter + 1) targetAS hashbuff seg ss sss with
        | .error o => ([], o)
        | .ok r =>
            let rest := verifyPlan a iter seg.as r.hashbuff segs sss
            (⟨seg, r.check, r.strays⟩ :: rest.1, rest.2)
      else
        match prepareOrigin a (iter + 1) targetAS hashbuff seg ss with
        | .error o => ([], o)
        | .ok r =>
            let rest := verifyPlan a iter targetAS r.hashbuff segs sss
            (⟨seg, r.check, r.strays⟩ :: rest.1, rest.2)

/-- Follow a plan up to the first check that does not succeed. -/
def execPlan (oracle : Check → Option VerifyStatus) : List Checked → Outcome → VerifyRun
  | [], o => ⟨[], o⟩
  | c :: cs, o => runCheck oracle c (execPlan oracle cs o)

/-- A check succeeds. -/
def succeeds (oracle : Check → Option VerifyStatus) (c : Checked) : Bool :=
  oracle c.check = some .success

theorem verifyLoop_eq_execPlan (oracle : Check → Option VerifyStatus) (a : VerifyArgs) (iter : Nat)
    (targetAS : UInt32) (hashbuff : List UInt8) (segs : List PathSegment)
    (sigs : List SigSegment) :
    verifyLoop oracle a iter targetAS hashbuff segs sigs =
      execPlan oracle (verifyPlan a iter targetAS hashbuff segs sigs).1
        (verifyPlan a iter targetAS hashbuff segs sigs).2 := by
  induction iter generalizing targetAS hashbuff segs sigs with
  | zero => rfl
  | succ iter ih =>
      match segs, sigs with
      | [], _ => rfl
      | _ :: _, [] => rfl
      | seg :: segs, ss :: sss =>
          rw [verifyLoop, verifyPlan]
          split
          · cases prepareTransit a (iter + 1) targetAS hashbuff seg ss sss with
            | error o => rfl
            | ok r =>
                dsimp only
                rw [ih, execPlan]
          · cases prepareOrigin a (iter + 1) targetAS hashbuff seg ss with
            | error o => rfl
            | ok r =>
                dsimp only
                rw [ih, execPlan]

/-- A transit segment of the plan. -/
theorem verifyPlan_transit (a : VerifyArgs) (iter : Nat) (targetAS : UInt32)
    (hashbuff : List UInt8) (seg : PathSegment) (segs : List PathSegment) (ss : SigSegment)
    (sss : List SigSegment) :
    verifyPlan a (iter + 2) targetAS hashbuff (seg :: segs) (ss :: sss) =
      match prepareTransit a (iter + 2) targetAS hashbuff seg ss sss with
      | .error o => ([], o)
      | .ok r =>
          (⟨seg, r.check, r.strays⟩ :: (verifyPlan a (iter + 1) seg.as r.hashbuff segs sss).1,
            (verifyPlan a (iter + 1) seg.as r.hashbuff segs sss).2) := by
  have hiter : 1 < iter + 2 := by omega
  rw [verifyPlan]
  exact if_pos hiter

/-- The origin's segment of the plan is its last one. -/
theorem verifyPlan_origin (a : VerifyArgs) (targetAS : UInt32) (hashbuff : List UInt8)
    (seg : PathSegment) (segs : List PathSegment) (ss : SigSegment) (sss : List SigSegment) :
    verifyPlan a 1 targetAS hashbuff (seg :: segs) (ss :: sss) =
      match prepareOrigin a 1 targetAS hashbuff seg ss with
      | .error o => ([], o)
      | .ok r => ([⟨seg, r.check, r.strays⟩], .ret .success) := by
  rw [verifyPlan, if_neg (by omega)]
  rfl

theorem runCheck_success {oracle : Check → Option VerifyStatus} {c : Checked}
    (h : oracle c.check = some .success) (rest : VerifyRun) :
    runCheck oracle c rest = ⟨c :: rest.checks, rest.outcome⟩ := by
  rw [runCheck, h]

theorem runCheck_not_success {oracle : Check → Option VerifyStatus} {c : Checked}
    (h : oracle c.check ≠ some .success) (rest : VerifyRun) :
    (runCheck oracle c rest).checks = [c] ∧ (runCheck oracle c rest).outcome ≠ .ret .success := by
  rw [runCheck]
  split
  · exact ⟨rfl, by simp⟩
  · rename_i hs
    exact absurd hs h
  · exact ⟨rfl, by simp⟩

/-- The checks of a run are those of its plan, up to and including the first one that does not
    succeed. -/
theorem execPlan_checks (oracle : Check → Option VerifyStatus) (cs : List Checked) (o : Outcome) :
    (execPlan oracle cs o).checks =
      cs.takeWhile (succeeds oracle) ++ (cs.dropWhile (succeeds oracle)).take 1 := by
  induction cs with
  | nil => rfl
  | cons c cs ih =>
      by_cases hc : oracle c.check = some .success
      · have hs : succeeds oracle c = true := decide_eq_true hc
        rw [execPlan, runCheck_success hc, List.takeWhile_cons_of_pos hs,
          List.dropWhile_cons_of_pos hs, ih, List.cons_append]
      · have hs : ¬ succeeds oracle c = true := by
          rw [succeeds, decide_eq_true_eq]
          exact hc
        rw [execPlan, (runCheck_not_success hc _).1, List.takeWhile_cons_of_neg hs,
          List.dropWhile_cons_of_neg hs]
        rfl

/-- A run returns success exactly when its plan does and all checks of the plan succeed. -/
theorem execPlan_success_iff (oracle : Check → Option VerifyStatus) (cs : List Checked)
    (o : Outcome) :
    (execPlan oracle cs o).outcome = .ret .success ↔
      o = .ret .success ∧ ∀ c ∈ cs, oracle c.check = some .success := by
  induction cs with
  | nil => simp [execPlan]
  | cons c cs ih =>
      by_cases hc : oracle c.check = some .success
      · rw [execPlan, runCheck_success hc]
        dsimp only
        rw [ih]
        simp [hc]
      · rw [execPlan]
        refine iff_of_false (runCheck_not_success hc _).2 ?_
        rintro ⟨-, hall⟩
        exact hc (hall c (by simp))

/-- On success all checks of the plan are made. -/
theorem execPlan_checks_of_success {oracle : Check → Option VerifyStatus} {cs : List Checked}
    (h : ∀ c ∈ cs, oracle c.check = some .success) (o : Outcome) :
    (execPlan oracle cs o).checks = cs := by
  have hall : ∀ c ∈ cs, succeeds oracle c = true := fun c hc => decide_eq_true (h c hc)
  rw [execPlan_checks, List.takeWhile_eq_self_iff.mpr hall, List.dropWhile_eq_nil_iff.mpr hall]
  exact List.append_nil cs

/-- The checks of a run are an initial part of its plan. -/
theorem checks_prefix_plan (oracle : Check → Option VerifyStatus) (cs : List Checked)
    (o : Outcome) : (execPlan oracle cs o).checks <+: cs := by
  rw [execPlan_checks]
  have hpre := (List.prefix_append_right_inj (cs.takeWhile (succeeds oracle))).mpr
    (List.take_prefix 1 (cs.dropWhile (succeeds oracle)))
  rwa [List.takeWhile_append_dropWhile] at hpre

/-- Past the sanity check `cl_BgpsecVerify` is its loop. -/
theorem clBgpsecVerify_eq_verifyLoop {bpa : BgpsecPathAttr} {sb : SigBlock}
    (hsb : bpa.sigBlocks.head? = some sb) (hsanity : bgpsecSanityCheck (some bpa) = 0)
    (beyond : Beyond) (oracle : Check → Option VerifyStatus) (numberKeys : UInt16)
    (keys : Option (List (Option BGPSecKey))) (p : Option Prefix) (localAs : UInt32) :
    clBgpsecVerify beyond oracle (some bpa) numberKeys keys p localAs =
      verifyLoop oracle ⟨sb.algoSuiteId, numberKeys, keys, p, beyond⟩
        (numSecurePathSegment bpa.securePathLen).toNat localAs (List.replicate hashbuffSize 0)
        bpa.pathSegments sb.sigSegments := by
  match bpa, hsb, hsanity with
  | ⟨_, _, sb' :: _⟩, hsb, hsanity =>
      rw [List.head?_cons, Option.some.injEq] at hsb
      subst hsb
      rw [clBgpsecVerify]
      exact hsanity

/-! ### The octets that are hashed -/

/-- Target AS, signer's AS, pCount and flags. -/
def segmentOctets (targetAS : UInt32) (seg : PathSegment) : List UInt8 :=
  be32 targetAS ++ be32 seg.as ++ [seg.pCount, seg.flags]

/-- The octets of a transit segment: they end with the signature of the next one. -/
def transitOctets (targetAS : UInt32) (seg : PathSegment) (signature : List UInt8) : List UInt8 :=
  segmentOctets targetAS seg ++ signature

/-- The octets of the origin: they end with the NLRI prefix. -/
def originOctets (targetAS : UInt32) (seg : PathSegment) (algoSuiteId : UInt8) (p : Prefix) :
    List UInt8 :=
  segmentOctets targetAS seg ++ ([algoSuiteId, p.prefixlen] ++ p.u.take (psize p.prefixlen))

/-- Copying the signature dereferences no NULL. -/
def SigThere (ss : SigSegment) : Prop := ss.signature.isSome ∨ ss.sigLen.toNat = 0

/-- The signature may be copied into `hashbuff`: it is there and not too long. -/
def Copyable (ss : SigSegment) : Prop :=
  (Buffer.read ss.signature ss.sigLen.toNat).isSome ∧ ss.sigLen.toNat ≤ bgpsecMaxSigLength

theorem putSegment_spec {hashbuff : List UInt8} (hlen : hashbuff.length = hashbuffSize)
    (targetAS : UInt32) (seg : PathSegment) :
    ∃ hashbuff', putSegment hashbuff targetAS seg = some hashbuff' ∧
      segmentOctets targetAS seg <+: hashbuff' ∧ hashbuff'.length = hashbuffSize := by
  have hsize : hashbuffSize = 138 := rfl
  obtain ⟨b₁, hb₁, hp₁, hl₁⟩ := Buffer.write_append
    (List.nil_prefix (l := hashbuff)) (be32 targetAS) (by simp [hlen, hsize])
  obtain ⟨b₂, hb₂, hp₂, hl₂⟩ := Buffer.write_append hp₁ (be32 seg.as)
    (by simp [hl₁, hlen, hsize])
  obtain ⟨b₃, hb₃, hp₃, hl₃⟩ := Buffer.write_append hp₂ [seg.pCount]
    (by simp [hl₂, hl₁, hlen, hsize])
  obtain ⟨b₄, hb₄, hp₄, hl₄⟩ := Buffer.write_append hp₃ [seg.flags]
    (by simp [hl₃, hl₂, hl₁, hlen, hsize])
  refine ⟨b₄, ?_, ?_, ?_⟩
  · simp only [List.length_nil, List.nil_append, List.length_append, be32_length,
      List.length_singleton] at hb₁ hb₂ hb₃ hb₄
    simp [putSegment, hb₁, hb₂, hb₃, hb₄]
  · simpa [segmentOctets] using hp₄
  · rw [hl₄, hl₃, hl₂, hl₁, hlen]

theorem segmentOctets_length (targetAS : UInt32) (seg : PathSegment) :
    (segmentOctets targetAS seg).length = 10 := rfl

/-- A transit segment without a next signature segment ends the run with an error. -/
theorem prepareTransit_last {hashbuff : List UInt8} (hlen : hashbuff.length = hashbuffSize)
    (a : VerifyArgs) (iter : Nat) (targetAS : UInt32) (seg : PathSegment) (ss : SigSegment) :
    prepareTransit a iter targetAS hashbuff seg ss [] = .error (.ret .error) := by
  obtain ⟨b, hb, -, -⟩ := putSegment_spec hlen targetAS seg
  rw [prepareTransit, hb]

/-- A transit segment whose next signature is NULL ends the run with a fault. -/
theorem prepareTransit_null {hashbuff : List UInt8} (hlen : hashbuff.length = hashbuffSize)
    {next : SigSegment} (hnext : ¬ SigThere next) (a : VerifyArgs) (iter : Nat)
    (targetAS : UInt32) (seg : PathSegment) (ss : SigSegment) (sss : List SigSegment) :
    prepareTransit a iter targetAS hashbuff seg ss (next :: sss) = .error (.fault .signature) := by
  obtain ⟨b, hb, -, -⟩ := putSegment_spec hlen targetAS seg
  have hnone : Buffer.readOn next.signature next.sigLen.toNat (a.beyond.octet iter) = none := by
    rw [← Option.not_isSome_iff_eq_none, Buffer.readOn_isSome_iff]
    exact hnext
  simp only [prepareTransit, hb, hnone]

/-- A transit segment otherwise: the check is made over its octets. -/
theorem prepareTransit_eq {hashbuff : List UInt8} (hlen : hashbuff.length = hashbuffSize)
    {next : SigSegment} (hnext : SigThere next) (a : VerifyArgs) (iter : Nat)
    (targetAS : UInt32) (seg : PathSegment) (ss : SigSegment) (sss : List SigSegment) :
    ∃ signature hashbuff',
      Buffer.readOn next.signature next.sigLen.toNat (a.beyond.octet iter) = some signature ∧
      hashbuff'.length = hashbuffSize ∧
      prepareTransit a iter targetAS hashbuff seg ss (next :: sss) =
        .ok ⟨⟨(transitCheckBy a iter).1, ⟨transitOctets targetAS seg signature, ss.ski,
          a.algoSuiteId, ss.signature, ss.sigLen⟩⟩,
          copyStrays next ++ (transitCheckBy a iter).2, hashbuff'⟩ := by
  obtain ⟨b, hb, hpre, hlen'⟩ := putSegment_spec hlen targetAS seg
  have hthere : (Buffer.readOn next.signature next.sigLen.toNat (a.beyond.octet iter)).isSome :=
    Buffer.readOn_isSome_iff.mpr hnext
  obtain ⟨signature, hread⟩ := Option.isSome_iff_exists.mp hthere
  have hsig := Buffer.readOn_length hread
  obtain ⟨hlen'', hpre'⟩ := Buffer.spill_append hpre signature
  rw [segmentOctets_length] at hlen'' hpre'
  have hdata : ((Buffer.spill b 10 signature).1 ++ (Buffer.spill b 10 signature).2).take
      (10 + next.sigLen.toNat) = transitOctets targetAS seg signature := by
    have htake := List.prefix_iff_eq_take.mp hpre'
    rw [List.length_append, segmentOctets_length, hsig] at htake
    exact htake.symm
  refine ⟨signature, (Buffer.spill b 10 signature).1, hread, by rw [hlen'', hlen'], ?_⟩
  simp only [prepareTransit, hb, hread, sslVerifyData, hdata]

/-- Nothing is done that may not be done exactly when the signature may be copied. -/
theorem copyStrays_eq_nil_iff {next : SigSegment} : copyStrays next = [] ↔ Copyable next := by
  rw [copyStrays, List.append_eq_nil_iff, Copyable, and_comm]
  refine and_congr ?_ ?_
  · split <;> simp_all
  · rw [hashbuffSize]
    split
    · exact iff_of_true rfl (by omega)
    · exact iff_of_false (List.cons_ne_nil _ _) (by omega)

theorem hashbuff_mem_copyStrays_iff {next : SigSegment} :
    .hashbuff ∈ copyStrays next ↔ bgpsecMaxSigLength < next.sigLen.toNat := by
  rw [copyStrays, List.mem_append, hashbuffSize]
  have hread : ∀ b : Bool, Fault.hashbuff ∉ (if b then [] else [Fault.signature]) := by
    intro b
    cases b <;> simp
  rw [or_iff_left (hread _)]
  split
  · exact iff_of_false List.not_mem_nil (by omega)
  · exact iff_of_true (List.mem_singleton_self _) (by omega)

/-- The origin's segment without a prefix ends the run with a fault. -/
theorem prepareOrigin_null {hashbuff : List UInt8} (hlen : hashbuff.length = hashbuffSize)
    {a : VerifyArgs} (hp : a.p = none) (iter : Nat) (targetAS : UInt32) (seg : PathSegment)
    (ss : SigSegment) :
    prepareOrigin a iter targetAS hashbuff seg ss = .error (.fault .nlri) := by
  obtain ⟨b, hb, -, -⟩ := putSegment_spec hlen targetAS seg
  simp only [prepareOrigin, hb, hp]

/-- The origin's segment: the check is made over the octets with the prefix. -/
theorem prepareOrigin_eq {hashbuff : List UInt8} (hlen : hashbuff.length = hashbuffSize)
    {a : VerifyArgs} {p : Prefix} (hp : a.p = some p) (iter : Nat)
    (targetAS : UInt32) (seg : PathSegment) (ss : SigSegment) :
    ∃ hashbuff', prepareOrigin a iter targetAS hashbuff seg ss =
      .ok ⟨⟨(originCheckBy a iter).1, ⟨originOctets targetAS seg a.algoSuiteId p, ss.ski,
        a.algoSuiteId, ss.signature, ss.sigLen⟩⟩, (originCheckBy a iter).2, hashbuff'⟩ := by
  have hsize : hashbuffSize = 138 := rfl
  have hpsize : psize p.prefixlen ≤ 32 := by
    have hlt := p.prefixlen.toNat_lt
    rw [psize]
    omega
  have hoctets : (p.u.take (psize p.prefixlen)).length = psize p.prefixlen := by
    rw [List.length_take, Nat.min_eq_left p.psize_le]
  obtain ⟨b, hb, hpre, hlen₀⟩ := putSegment_spec hlen targetAS seg
  obtain ⟨b₁, hb₁, hp₁, hl₁⟩ := Buffer.write_append hpre [a.algoSuiteId]
    (by simp [segmentOctets_length, hlen₀, hsize])
  obtain ⟨b₂, hb₂, hp₂, hl₂⟩ := Buffer.write_append hp₁ [p.prefixlen]
    (by simp [segmentOctets_length, hl₁, hlen₀, hsize])
  obtain ⟨b₃, hb₃, hp₃, hl₃⟩ := Buffer.write_append hp₂ (p.u.take (psize p.prefixlen))
    (by rw [hoctets]; simp [segmentOctets_length, hl₂, hl₁, hlen₀, hsize]; omega)
  have hdata : b₃.take (12 + psize p.prefixlen) = originOctets targetAS seg a.algoSuiteId p := by
    have htake := List.prefix_iff_eq_take.mp hp₃
    rw [List.length_append, List.length_append, List.length_append, segmentOctets_length,
      hoctets] at htake
    rw [originOctets, ← List.append_assoc, ← List.singleton_append (l := [p.prefixlen]),
      ← List.append_assoc]
    exact htake.symm
  refine ⟨b₃, ?_⟩
  simp only [List.length_append, segmentOctets_length, List.length_singleton] at hb₁ hb₂ hb₃
  simp only [prepareOrigin, hb, hp, hb₁, hb₂, hb₃, Option.bind_eq_bind, Option.bind_some,
    sslVerifyData, hdata]

end SrxNote.Crypto
