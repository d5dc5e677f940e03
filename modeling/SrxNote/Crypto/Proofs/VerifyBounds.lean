import SrxNote.Crypto.Proofs.KeySelection

/-!
# Bounds of a validation

Where `cl_BgpsecVerify` reads an entry outside of `keys`, writes behind `hashbuff` or
reads through a NULL prefix. The first two do not stop it. Which of its segments a
validation comes to depends on the checks, so that the bounds hold for all results of
the checks exactly when they hold in each segment that the plan comes to
(`clBgpsecVerify_bounded_iff`).
-/

namespace SrxNote.Crypto
open SrxNote.Bgpsec

/-- `number_keys` and `keys`, an array of that many entries or NULL. -/
structure KeyArray where
  numberKeys : UInt16
  keys : Option (List (Option BGPSecKey))
  length_eq : ∀ ks, keys = some ks → ks.length = numberKeys.toNat

/-- An entry outside of `keys` or an octet behind `hashbuff` was accessed for one of the checks, or
    one of these or a NULL prefix ends the run. -/
def OutOfBounds (cs : List Checked) (o : Outcome) : Prop :=
  (∃ c ∈ cs, .keys ∈ c.strays ∨ .hashbuff ∈ c.strays) ∨
    o = .fault .keys ∨ o = .fault .hashbuff ∨ o = .fault .nlri

instance (cs : List Checked) (o : Outcome) : Decidable (OutOfBounds cs o) :=
  inferInstanceAs (Decidable ((∃ c ∈ cs, .keys ∈ c.strays ∨ .hashbuff ∈ c.strays) ∨
    o = .fault .keys ∨ o = .fault .hashbuff ∨ o = .fault .nlri))

/-- Whatever the checks of the signatures return, the validation stays within its bounds. -/
def StaysInBounds (beyond : Beyond) (bpa : BgpsecPathAttr) (ka : KeyArray) (p : Option Prefix)
    (localAs : UInt32) : Prop :=
  ∀ oracle : Check → Option VerifyStatus,
    let run := clBgpsecVerify beyond oracle (some bpa) ka.numberKeys ka.keys p localAs
    ¬ OutOfBounds run.checks run.outcome

/-- The segment `i` of `n` is come to: both lists have it, and none of the signatures that are copied
    for the segments before it is NULL. -/
def ComesTo (n : Nat) (segs : List PathSegment) (sigs : List SigSegment) (i : Nat) : Prop :=
  i < n ∧ i < segs.length ∧ i < sigs.length ∧ ∀ ss ∈ sigs.tail.take i, SigThere ss

/-- What each of the `n` segments needs that is come to: a transit segment a next signature that fits
    and a key for each segment from it on, the origin a prefix and a key. -/
structure BoundsMet (n numberKeys : Nat) (hasKeys hasPrefix : Prop) (segs : List PathSegment)
    (sigs : List SigSegment) : Prop where
  transit : ∀ i next, ComesTo n segs sigs i → i + 1 < n → sigs[i + 1]? = some next →
    SigThere next → next.sigLen.toNat ≤ bgpsecMaxSigLength ∧ (hasKeys → n - i ≤ numberKeys)
  origin : ∀ i, ComesTo n segs sigs i → i + 1 = n → hasPrefix ∧ (hasKeys → 1 ≤ numberKeys)

/-! ### From one segment to the next -/

theorem comesTo_zero (n : Nat) (seg : PathSegment) (segs : List PathSegment) (ss : SigSegment)
    (sss : List SigSegment) : ComesTo (n + 1) (seg :: segs) (ss :: sss) 0 := by
  simp [ComesTo]

theorem comesTo_succ {n : Nat} {seg : PathSegment} {segs : List PathSegment} {ss next : SigSegment}
    {sss : List SigSegment} {i : Nat} :
    ComesTo (n + 1) (seg :: segs) (ss :: next :: sss) (i + 1) ↔
      SigThere next ∧ ComesTo n segs (next :: sss) i := by
  simp only [ComesTo, List.length_cons, List.tail_cons, List.take_succ_cons, List.forall_mem_cons]
  constructor
  · rintro ⟨hn, hsegs, hsigs, hnext, hrest⟩
    exact ⟨hnext, by omega, by omega, by omega, hrest⟩
  · rintro ⟨hnext, hn, hsegs, hsigs, hrest⟩
    exact ⟨by omega, by omega, by omega, hnext, hrest⟩

/-- Without a next signature no further segment is come to. -/
theorem not_comesTo_last {n : Nat} {segs : List PathSegment} {ss : SigSegment} {i : Nat} :
    ¬ ComesTo n segs [ss] (i + 1) := by
  rintro ⟨-, -, hsigs, -⟩
  simp at hsigs

section Walk
variable {n numberKeys : Nat} {hasKeys hasPrefix : Prop} {seg : PathSegment}
  {segs : List PathSegment} {ss next : SigSegment} {sss : List SigSegment}

/-- A transit segment whose next signature is there. -/
theorem boundsMet_transit (hthere : SigThere next) :
    BoundsMet (n + 2) numberKeys hasKeys hasPrefix (seg :: segs) (ss :: next :: sss) ↔
      (next.sigLen.toNat ≤ bgpsecMaxSigLength ∧ (hasKeys → n + 2 ≤ numberKeys)) ∧
        BoundsMet (n + 1) numberKeys hasKeys hasPrefix segs (next :: sss) := by
  constructor
  · intro h
    refine ⟨h.transit 0 next (comesTo_zero _ _ _ _ _) (by omega) rfl hthere, ?_, ?_⟩
    · intro i next' hcomes hi hnext' hthere'
      obtain ⟨hlen, hkeys⟩ :=
        h.transit (i + 1) next' (comesTo_succ.mpr ⟨hthere, hcomes⟩) (by omega) hnext' hthere'
      exact ⟨hlen, fun hk => by have := hkeys hk; omega⟩
    · intro i hcomes hi
      exact h.origin (i + 1) (comesTo_succ.mpr ⟨hthere, hcomes⟩) (by omega)
  · rintro ⟨hfirst, hrest⟩
    refine ⟨fun i next' hcomes hi hnext' hthere' => ?_, fun i hcomes hi => ?_⟩
    · cases i with
      | zero =>
          cases hnext'
          exact hfirst
      | succ i =>
          obtain ⟨hlen, hkeys⟩ :=
            hrest.transit i next' (comesTo_succ.mp hcomes).2 (by omega) hnext' hthere'
          exact ⟨hlen, fun hk => by have := hkeys hk; omega⟩
    · cases i with
      | zero => omega
      | succ i => exact hrest.origin i (comesTo_succ.mp hcomes).2 (by omega)

/-- A transit segment whose next signature is NULL needs nothing. -/
theorem boundsMet_null (hthere : ¬ SigThere next) :
    BoundsMet (n + 2) numberKeys hasKeys hasPrefix (seg :: segs) (ss :: next :: sss) := by
  refine ⟨fun i next' hcomes hi hnext' hthere' => ?_, fun i hcomes hi => ?_⟩
  · cases i with
    | zero =>
        cases hnext'
        exact absurd hthere' hthere
    | succ i => exact absurd (comesTo_succ.mp hcomes).1 hthere
  · cases i with
    | zero => omega
    | succ i => exact absurd (comesTo_succ.mp hcomes).1 hthere

/-- A transit segment without a next signature segment needs nothing either. -/
theorem boundsMet_last :
    BoundsMet (n + 2) numberKeys hasKeys hasPrefix (seg :: segs) [ss] := by
  refine ⟨fun i next' hcomes hi hnext' hthere' => ?_, fun i hcomes hi => ?_⟩
  · cases hnext'
  · cases i with
    | zero => omega
    | succ i => exact absurd hcomes not_comesTo_last

/-- The origin. -/
theorem boundsMet_origin :
    BoundsMet 1 numberKeys hasKeys hasPrefix (seg :: segs) (ss :: sss) ↔
      hasPrefix ∧ (hasKeys → 1 ≤ numberKeys) := by
  constructor
  · intro h
    exact h.origin 0 (comesTo_zero _ _ _ _ _) rfl
  · intro h
    exact ⟨fun i next' hcomes hi => by omega, fun i hcomes hi => h⟩

end Walk

/-! ### The entries of `keys` -/

/-- The arguments of the loop. -/
def KeyArray.args (ka : KeyArray) (algoSuiteId : UInt8) (p : Option Prefix) (beyond : Beyond) :
    VerifyArgs :=
  ⟨algoSuiteId, ka.numberKeys, ka.keys, p, beyond⟩

theorem readKey_isSome_iff {keys : List (Option BGPSecKey)} {i : Int} :
    (readKey keys i).isSome ↔ 0 ≤ i ∧ i < keys.length := by
  rw [readKey]
  split
  · rename_i hi
    rw [isSome_getElem?]
    omega
  · rename_i hi
    exact iff_of_false (by simp) (fun h => hi h.1)

theorem mem_fetchKey_iff {beyond : Beyond} {keys : List (Option BGPSecKey)} {i : Int} {f : Fault} :
    f ∈ (fetchKey beyond keys i).2 ↔ f = .keys ∧ ¬ (0 ≤ i ∧ i < keys.length) := by
  rw [← readKey_isSome_iff, fetchKey]
  cases readKey keys i <;> simp

variable {ka : KeyArray} {algoSuiteId : UInt8} {p : Option Prefix} {beyond : Beyond}

/-- With fewer keys than segments the entry is one before the array. -/
theorem mem_transitCheckBy_iff {iter : Nat} (hpos : 0 < iter) {f : Fault} :
    f ∈ (transitCheckBy (ka.args algoSuiteId p beyond) iter).2 ↔
      f = .keys ∧ ¬ (ka.keys.isSome → iter ≤ ka.numberKeys.toNat) := by
  cases hkeys : ka.keys with
  | none => simp [transitCheckBy, KeyArray.args, hkeys]
  | some keys =>
      have hlen := ka.length_eq keys hkeys
      have hlt := ka.numberKeys.toNat_lt
      have htested : f ∈ (fetchKey beyond keys ((ka.numberKeys.toNat : Int) - iter)).2 ↔
          f = .keys ∧ ¬ iter ≤ ka.numberKeys.toNat := by
        rw [mem_fetchKey_iff]
        exact and_congr_right fun _ => by omega
      have hused : f ∈ (fetchKey beyond keys (((ka.numberKeys.toNat : Int) - iter) % 2 ^ 16)).2 →
          f = .keys ∧ ¬ iter ≤ ka.numberKeys.toNat := by
        rw [mem_fetchKey_iff]
        exact And.imp_right fun hout => by omega
      simp only [transitCheckBy, KeyArray.args, hkeys, Option.isSome_some, true_imp_iff]
      split
      · exact htested
      · rw [List.mem_append, htested]
        exact or_iff_left_of_imp hused

theorem mem_originCheckBy_iff {f : Fault} :
    f ∈ (originCheckBy (ka.args algoSuiteId p beyond) 1).2 ↔
      f = .keys ∧ ¬ (ka.keys.isSome → 1 ≤ ka.numberKeys.toNat) := by
  cases hkeys : ka.keys with
  | none => simp [originCheckBy, KeyArray.args, hkeys]
  | some keys =>
      have hlen := ka.length_eq keys hkeys
      have hlt := ka.numberKeys.toNat_lt
      have htested : f ∈ (fetchKey beyond keys 0).2 ↔ f = .keys ∧ ¬ 1 ≤ ka.numberKeys.toNat := by
        rw [mem_fetchKey_iff]
        exact and_congr_right fun _ => by omega
      have hused : f ∈ (fetchKey beyond keys
          (((ka.numberKeys.toNat : Int) - (1 : Nat)) % 2 ^ 16)).2 →
          f = .keys ∧ ¬ 1 ≤ ka.numberKeys.toNat := by
        rw [mem_fetchKey_iff]
        exact And.imp_right fun hout => by omega
      simp only [originCheckBy, KeyArray.args, hkeys, Option.isSome_some, true_imp_iff]
      split
      · exact htested
      · rw [List.mem_append, htested]
        exact or_iff_left_of_imp hused

/-! ### One segment -/

theorem outOfBounds_nil {o : Outcome} :
    OutOfBounds [] o ↔ o = .fault .keys ∨ o = .fault .hashbuff ∨ o = .fault .nlri := by
  simp [OutOfBounds]

theorem outOfBounds_cons {c : Checked} {cs : List Checked} {o : Outcome} :
    OutOfBounds (c :: cs) o ↔ (.keys ∈ c.strays ∨ .hashbuff ∈ c.strays) ∨ OutOfBounds cs o := by
  simp only [OutOfBounds, List.exists_mem_cons_iff, or_assoc]

/-- The checks of a plan are in bounds, and so is its end. -/
def InBounds (plan : List Checked × Outcome) : Prop := ¬ OutOfBounds plan.1 plan.2

section Segment
variable {hashbuff : List UInt8} {targetAS : UInt32} {seg : PathSegment} {ss next : SigSegment}
  {sss : List SigSegment} {iter : Nat}

/-- The plan from the origin on. -/
theorem verifyPlan_origin_bounded_iff (hlen : hashbuff.length = hashbuffSize)
    (segs : List PathSegment) :
    InBounds (verifyPlan (ka.args algoSuiteId p beyond) 1 targetAS hashbuff (seg :: segs)
        (ss :: sss)) ↔
      p.isSome = true ∧ (ka.keys.isSome → 1 ≤ ka.numberKeys.toNat) := by
  rw [verifyPlan_origin]
  cases hp : p with
  | none =>
      rw [prepareOrigin_null hlen rfl]
      refine iff_of_false ?_ (by simp)
      simp [InBounds, OutOfBounds]
  | some q =>
      have hp' : (ka.args algoSuiteId (some q) beyond).p = some q := rfl
      obtain ⟨hashbuff', hprepare⟩ := prepareOrigin_eq hlen hp' 1 targetAS seg ss
      rw [hprepare, InBounds, outOfBounds_cons, outOfBounds_nil, mem_originCheckBy_iff,
        mem_originCheckBy_iff]
      simp [Nat.one_le_iff_ne_zero]

/-- The plan from a transit segment on whose next signature is there. -/
theorem verifyPlan_transit_bounded_iff {n : Nat} {rest : Prop} {segs : List PathSegment}
    (hlen : hashbuff.length = hashbuffSize) (hthere : SigThere next)
    (hrest : ∀ b : List UInt8, b.length = hashbuffSize →
      (InBounds (verifyPlan (ka.args algoSuiteId p beyond) (n + 1) seg.as b segs (next :: sss)) ↔
        rest)) :
    InBounds (verifyPlan (ka.args algoSuiteId p beyond) (n + 2) targetAS hashbuff (seg :: segs)
        (ss :: next :: sss)) ↔
      (next.sigLen.toNat ≤ bgpsecMaxSigLength ∧ (ka.keys.isSome → n + 2 ≤ ka.numberKeys.toNat)) ∧
        rest := by
  obtain ⟨signature, hashbuff', -, hlen', hprepare⟩ := prepareTransit_eq hlen hthere
    (ka.args algoSuiteId p beyond) (n + 2) targetAS seg ss sss
  have hkeys : Fault.keys ∉ copyStrays next := by
    rw [copyStrays]
    split <;> split <;> simp
  rw [verifyPlan_transit, hprepare, ← hrest hashbuff' hlen', InBounds, InBounds, outOfBounds_cons]
  simp only [List.mem_append, mem_transitCheckBy_iff (Nat.succ_pos _), hashbuff_mem_copyStrays_iff,
    hkeys, true_and, false_or, reduceCtorEq, false_and, or_false, not_or, not_not, not_lt]
  rw [and_comm (a := ka.keys.isSome = true → _)]

end Segment

/-! ### The whole path -/

theorem boundsMet_of_not_comesTo {n numberKeys : Nat} {hasKeys hasPrefix : Prop}
    {segs : List PathSegment} {sigs : List SigSegment} (h : ∀ i, ¬ ComesTo n segs sigs i) :
    BoundsMet n numberKeys hasKeys hasPrefix segs sigs :=
  ⟨fun i _ hcomes => absurd hcomes (h i), fun i hcomes => absurd hcomes (h i)⟩

/-- A plan stays within its bounds exactly when each segment has what it needs. -/
theorem verifyPlan_bounded_iff (n : Nat) (targetAS : UInt32) {hashbuff : List UInt8}
    (hlen : hashbuff.length = hashbuffSize) (segs : List PathSegment) (sigs : List SigSegment) :
    InBounds (verifyPlan (ka.args algoSuiteId p beyond) n targetAS hashbuff segs sigs) ↔
      BoundsMet n ka.numberKeys.toNat ka.keys.isSome p.isSome segs sigs := by
  induction n generalizing targetAS hashbuff segs sigs with
  | zero =>
      refine iff_of_true (by simp [verifyPlan, InBounds, OutOfBounds]) (boundsMet_of_not_comesTo ?_)
      rintro i ⟨hn, -⟩
      omega
  | succ n ih =>
      cases segs with
      | nil =>
          refine iff_of_true (by simp [verifyPlan, InBounds, OutOfBounds])
            (boundsMet_of_not_comesTo ?_)
          rintro i ⟨-, hsegs, -⟩
          simp at hsegs
      | cons seg segs =>
          cases sigs with
          | nil =>
              refine iff_of_true (by simp [verifyPlan, InBounds, OutOfBounds])
                (boundsMet_of_not_comesTo ?_)
              rintro i ⟨-, -, hsigs, -⟩
              simp at hsigs
          | cons ss sss =>
              cases n with
              | zero => rw [verifyPlan_origin_bounded_iff hlen, boundsMet_origin]
              | succ n =>
                  cases sss with
                  | nil =>
                      rw [verifyPlan_transit, prepareTransit_last hlen]
                      exact iff_of_true (by simp [InBounds, OutOfBounds]) boundsMet_last
                  | cons next sss =>
                      by_cases hthere : SigThere next
                      · rw [boundsMet_transit hthere]
                        exact verifyPlan_transit_bounded_iff hlen hthere fun b hb =>
                          ih seg.as hb segs (next :: sss)
                      · rw [verifyPlan_transit, prepareTransit_null hlen hthere]
                        exact iff_of_true (by simp [InBounds, OutOfBounds])
                          (boundsMet_null hthere)

/-- A run leaves its bounds only where its plan does. -/
theorem execPlan_outOfBounds {oracle : Check → Option VerifyStatus} {cs : List Checked}
    {o : Outcome}
    (h : OutOfBounds (execPlan oracle cs o).checks (execPlan oracle cs o).outcome) :
    OutOfBounds cs o := by
  induction cs with
  | nil => exact h
  | cons c cs ih =>
      rw [outOfBounds_cons]
      by_cases hc : oracle c.check = some .success
      · rw [execPlan, runCheck_success hc, outOfBounds_cons] at h
        exact h.imp id ih
      · left
        rw [execPlan, runCheck] at h
        split at h
        · simpa [OutOfBounds] using h
        · rename_i hs
          exact absurd hs hc
        · simpa [OutOfBounds] using h

/-- With checks that all succeed a run is its plan. -/
theorem execPlan_all_succeed (cs : List Checked) (o : Outcome) :
    execPlan (fun _ => some .success) cs o = ⟨cs, o⟩ := by
  induction cs with
  | nil => rfl
  | cons c cs ih =>
      rw [execPlan, ih]
      rfl

/-- The validation of an attribute that passes the sanity check stays within its bounds, whatever the
    checks return, exactly under `BoundsMet`. -/
theorem clBgpsecVerify_bounded_iff {bpa : BgpsecPathAttr} {sb : SigBlock}
    (hsb : bpa.sigBlocks.head? = some sb) (hsanity : bgpsecSanityCheck (some bpa) = 0)
    (beyond : Beyond) (ka : KeyArray) (p : Option Prefix) (localAs : UInt32) :
    StaysInBounds beyond bpa ka p localAs ↔
      BoundsMet (numSecurePathSegment bpa.securePathLen).toNat ka.numberKeys.toNat ka.keys.isSome
        p.isSome bpa.pathSegments sb.sigSegments := by
  have hlen : (List.replicate hashbuffSize (0 : UInt8)).length = hashbuffSize :=
    List.length_replicate
  have hplan : InBounds (verifyPlan (ka.args sb.algoSuiteId p beyond) _ localAs _ _ _) ↔ _ :=
    verifyPlan_bounded_iff (numSecurePathSegment bpa.securePathLen).toNat localAs hlen
      bpa.pathSegments sb.sigSegments
  rw [← hplan]
  constructor
  · intro hbounds hout
    apply hbounds fun _ => some .success
    rw [clBgpsecVerify_eq_verifyLoop hsb hsanity, verifyLoop_eq_execPlan, execPlan_all_succeed]
    exact hout
  · intro hbounds oracle
    dsimp only
    intro hout
    rw [clBgpsecVerify_eq_verifyLoop hsb hsanity, verifyLoop_eq_execPlan] at hout
    exact hbounds (execPlan_outOfBounds hout)

/-- Two hops, from AS 1 over AS 2; the length and the octets of the signature of AS 1 are given. -/
def twoHops (sigLen : UInt16) (signature : List UInt8) : BgpsecPathAttr :=
  ⟨14, [⟨2, 1, 0⟩, ⟨1, 1, 0⟩], [⟨51, 1, [⟨some (List.replicate 20 2), 2, some [8, 9]⟩,
    ⟨some (List.replicate 20 1), sigLen, some signature⟩]⟩]⟩

/-- As many NULL entries. -/
def nullKeys (numberKeys : UInt16) : KeyArray :=
  ⟨numberKeys, some (List.replicate numberKeys.toNat none), by rintro ks ⟨⟩; simp⟩

theorem twoHops_in_bounds :
    StaysInBounds zeros (twoHops 2 [6, 7]) (nullKeys 2) (some tenSlash8) 3 := by
  have hsanity : bgpsecSanityCheck (some (twoHops 2 [6, 7])) = 0 := rfl
  refine (clBgpsecVerify_bounded_iff rfl hsanity zeros (nullKeys 2) (some tenSlash8) 3).mpr
    ⟨?_, ?_⟩
  · intro i next _ hi hnext _
    obtain rfl : i = 0 := by
      have htwo : (numSecurePathSegment (twoHops 2 [6, 7]).securePathLen).toNat = 2 := rfl
      omega
    cases hnext
    exact ⟨by decide, fun _ => by decide⟩
  · exact fun i _ _ => ⟨rfl, fun _ => by decide⟩

/-- One hop from AS 1. -/
def oneHop : BgpsecPathAttr :=
  ⟨8, [⟨1, 1, 0⟩], [⟨27, 1, [⟨some (List.replicate 20 1), 2, some [6, 7]⟩]⟩]⟩

/-- A NULL prefix; one key for two hops; a signature of 129 octets; and a length of 200 for a signature
    of 150. -/
theorem twoHops_out_of_bounds :
    ¬ StaysInBounds zeros oneHop ⟨0, none, by simp⟩ none 3 ∧
      ¬ StaysInBounds zeros (twoHops 2 [6, 7]) (nullKeys 1) (some tenSlash8) 3 ∧
      ¬ StaysInBounds zeros (twoHops 129 (List.replicate 129 6)) (nullKeys 2) (some tenSlash8) 3 ∧
      ¬ StaysInBounds zeros (twoHops 200 (List.replicate 150 6)) (nullKeys 2)
        (some tenSlash8) 3 := by
  refine ⟨fun h => ?_, fun h => ?_, fun h => ?_, fun h => ?_⟩
  · exact h (fun _ => some .success) (by decide +kernel)
  · exact h (fun _ => some .success) (by decide +kernel)
  · exact h (fun _ => some .success) (by decide +kernel)
  · exact h (fun _ => some .success) (by decide +kernel)

end SrxNote.Crypto
