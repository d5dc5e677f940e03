import SrxNote.Crypto.Proofs.VerifyPlan

/-!
# When a successful validation covers the path

`cl_BgpsecVerify` takes the number of segments from the Secure_Path length, the
segments from one list and the signatures from another. A successful run has
checked the whole path for every argument exactly when these agree, or disagree
in a way that never ends in success.
-/

namespace SrxNote.Crypto
open SrxNote.Bgpsec

/-- If the run returns success, then a check was made for every path segment, all of them succeeded,
    and the last one was made over the octets with the prefix. -/
def SoundRun (beyond : Beyond) (oracle : Check → Option VerifyStatus) (bpa : BgpsecPathAttr)
    (numberKeys : UInt16) (keys : Option (List (Option BGPSecKey))) (p : Option Prefix)
    (localAs : UInt32) : Prop :=
  (clBgpsecVerify beyond oracle (some bpa) numberKeys keys p localAs).outcome = .ret .success →
    (clBgpsecVerify beyond oracle (some bpa) numberKeys keys p localAs).checks.map Checked.seg =
      bpa.pathSegments ∧
    (∀ c ∈ (clBgpsecVerify beyond oracle (some bpa) numberKeys keys p localAs).checks,
      oracle c.check = some .success) ∧
    ∃ c targetAS sb pfx,
      (clBgpsecVerify beyond oracle (some bpa) numberKeys keys p localAs).checks.getLast? = some c ∧
      bpa.sigBlocks.head? = some sb ∧ p = some pfx ∧
      c.check.signData.data = originOctets targetAS c.seg sb.algoSuiteId pfx

/-- The signature segments of the first block. -/
def firstSignatures (bpa : BgpsecPathAttr) : List SigSegment :=
  (bpa.sigBlocks.head?.map SigBlock.sigSegments).getD []

/-- The number of segments that the Secure_Path length stands for is the number of path segments;
    or there are fewer signatures than that and no more than path segments, so that one is missed;
    or a signature that has to be copied into `hashbuff` is NULL. -/
def CoversPath (bpa : BgpsecPathAttr) : Prop :=
  (numSecurePathSegment bpa.securePathLen).toNat = bpa.pathSegments.length ∨
  ((firstSignatures bpa).length < (numSecurePathSegment bpa.securePathLen).toNat ∧
    (firstSignatures bpa).length ≤ bpa.pathSegments.length) ∨
  ∃ j ss, j + 1 < (numSecurePathSegment bpa.securePathLen).toNat ∧
    j < bpa.pathSegments.length ∧ (firstSignatures bpa)[j + 1]? = some ss ∧ ¬ SigThere ss

/-! ### One segment of the plan -/

/-- A transit segment whose check is made goes on with a next signature segment. -/
theorem prepareTransit_inv {a : VerifyArgs} {iter : Nat} {targetAS : UInt32}
    {hashbuff : List UInt8} (hlen : hashbuff.length = hashbuffSize) {seg : PathSegment}
    {ss : SigSegment} {sss : List SigSegment} {r : Prepared}
    (h : prepareTransit a iter targetAS hashbuff seg ss sss = .ok r) :
    r.hashbuff.length = hashbuffSize ∧ ∃ next rest, sss = next :: rest ∧ SigThere next := by
  cases sss with
  | nil =>
      rw [prepareTransit_last hlen] at h
      cases h
  | cons next rest =>
      by_cases hnext : SigThere next
      · obtain ⟨signature, b, -, hb, heq⟩ :=
          prepareTransit_eq hlen hnext a iter targetAS seg ss rest
        rw [heq] at h
        cases h
        exact ⟨hb, next, rest, rfl, hnext⟩
      · rw [prepareTransit_null hlen hnext] at h
        cases h

/-- The check of the origin's segment is made over the octets with the prefix. -/
theorem prepareOrigin_inv {a : VerifyArgs} {iter : Nat} {targetAS : UInt32}
    {hashbuff : List UInt8} (hlen : hashbuff.length = hashbuffSize) {seg : PathSegment}
    {ss : SigSegment} {r : Prepared}
    (h : prepareOrigin a iter targetAS hashbuff seg ss = .ok r) :
    ∃ p, a.p = some p ∧ r.check.signData.data = originOctets targetAS seg a.algoSuiteId p := by
  cases hp : a.p with
  | none =>
      rw [prepareOrigin_null hlen hp] at h
      cases h
  | some p =>
      obtain ⟨b, heq⟩ := prepareOrigin_eq hlen hp iter targetAS seg ss
      rw [heq] at h
      cases h
      exact ⟨p, rfl, rfl⟩

/-- A transit segment whose check is not made does not end the run with success. -/
theorem prepareTransit_error {a : VerifyArgs} {iter : Nat} {targetAS : UInt32}
    {hashbuff : List UInt8} (hlen : hashbuff.length = hashbuffSize) {seg : PathSegment}
    {ss : SigSegment} {sss : List SigSegment} {o : Outcome}
    (h : prepareTransit a iter targetAS hashbuff seg ss sss = .error o) : o ≠ .ret .success := by
  cases sss with
  | nil =>
      rw [prepareTransit_last hlen] at h
      cases h
      simp
  | cons next rest =>
      by_cases hnext : SigThere next
      · obtain ⟨signature, b, -, -, heq⟩ :=
          prepareTransit_eq hlen hnext a iter targetAS seg ss rest
        rw [heq] at h
        cases h
      · rw [prepareTransit_null hlen hnext] at h
        cases h
        simp

/-- The same for the origin's segment. -/
theorem prepareOrigin_error {a : VerifyArgs} {iter : Nat} {targetAS : UInt32}
    {hashbuff : List UInt8} (hlen : hashbuff.length = hashbuffSize) {seg : PathSegment}
    {ss : SigSegment} {o : Outcome}
    (h : prepareOrigin a iter targetAS hashbuff seg ss = .error o) : o ≠ .ret .success := by
  cases hp : a.p with
  | none =>
      rw [prepareOrigin_null hlen hp] at h
      cases h
      simp
  | some p =>
      obtain ⟨b, heq⟩ := prepareOrigin_eq hlen hp iter targetAS seg ss
      rw [heq] at h
      cases h

/-- A plan that goes through a transit segment successfully does so behind it. -/
theorem verifyPlan_transit_success {a : VerifyArgs} {iter : Nat} {targetAS : UInt32}
    {hashbuff : List UInt8} (hlen : hashbuff.length = hashbuffSize) {seg : PathSegment}
    {segs : List PathSegment} {ss : SigSegment} {sss : List SigSegment}
    (h : (verifyPlan a (iter + 2) targetAS hashbuff (seg :: segs) (ss :: sss)).2 =
      .ret .success) :
    ∃ next rest hashbuff' check strays, sss = next :: rest ∧ SigThere next ∧
      hashbuff'.length = hashbuffSize ∧
      (verifyPlan a (iter + 2) targetAS hashbuff (seg :: segs) (ss :: sss)).1 =
        ⟨seg, check, strays⟩ :: (verifyPlan a (iter + 1) seg.as hashbuff' segs sss).1 ∧
      (verifyPlan a (iter + 1) seg.as hashbuff' segs sss).2 = .ret .success := by
  rw [verifyPlan_transit] at h ⊢
  cases hprep : prepareTransit a (iter + 2) targetAS hashbuff seg ss sss with
  | error o =>
      rw [hprep] at h
      exact absurd h (prepareTransit_error hlen hprep)
  | ok r =>
      rw [hprep] at h
      obtain ⟨hlen', next, rest, hsss, hnext⟩ := prepareTransit_inv hlen hprep
      exact ⟨next, rest, r.hashbuff, r.check, r.strays, hsss, hnext, hlen', rfl, h⟩

/-! ### Plans that succeed -/

/-- With as many segments as are counted, a successful plan checks them all, the last one as the
    origin. -/
theorem verifyPlan_covers {a : VerifyArgs} {targetAS : UInt32} {hashbuff : List UInt8}
    (hlen : hashbuff.length = hashbuffSize) {segs : List PathSegment} (hsegs : segs ≠ [])
    {sigs : List SigSegment} (hsigs : sigs ≠ [])
    (h : (verifyPlan a segs.length targetAS hashbuff segs sigs).2 = .ret .success) :
    (verifyPlan a segs.length targetAS hashbuff segs sigs).1.map Checked.seg = segs ∧
      ∃ c targetAS' p, (verifyPlan a segs.length targetAS hashbuff segs sigs).1.getLast? = some c ∧
        a.p = some p ∧ c.check.signData.data = originOctets targetAS' c.seg a.algoSuiteId p := by
  induction segs generalizing targetAS hashbuff sigs with
  | nil => exact absurd rfl hsegs
  | cons seg segs ih =>
      match sigs, hsigs with
      | ss :: sss, _ =>
          cases segs with
          | nil =>
              rw [List.length_singleton, verifyPlan_origin] at h ⊢
              cases hprep : prepareOrigin a 1 targetAS hashbuff seg ss with
              | error o =>
                  rw [hprep] at h
                  exact absurd h (prepareOrigin_error hlen hprep)
              | ok r =>
                  obtain ⟨p, hp, hdata⟩ := prepareOrigin_inv hlen hprep
                  exact ⟨rfl, ⟨seg, r.check, r.strays⟩, targetAS, p, rfl, hp, hdata⟩
          | cons seg' segs =>
              obtain ⟨next, rest, hashbuff', check, strays, rfl, -, hlen', hplan, hrest⟩ :=
                verifyPlan_transit_success hlen h
              obtain ⟨hmap, c, targetAS', p, hlast, hp, hdata⟩ :=
                ih hlen' (List.cons_ne_nil _ _) (List.cons_ne_nil _ _) hrest
              refine ⟨?_, c, targetAS', p, ?_, hp, hdata⟩
              · rw [List.length_cons] at hmap
                rw [List.length_cons, List.length_cons, hplan, List.map_cons, hmap]
              · rw [List.length_cons] at hlast
                rw [List.length_cons, List.length_cons, hplan, List.getLast?_cons, hlast]
                rfl

/-- With too few signatures no plan succeeds: the last of them is met at a transit segment. -/
theorem verifyPlan_few_signatures {a : VerifyArgs} {iter : Nat} {targetAS : UInt32}
    {hashbuff : List UInt8} (hlen : hashbuff.length = hashbuffSize) {segs : List PathSegment}
    {sigs : List SigSegment} (hsigs : sigs ≠ []) (hiter : sigs.length < iter)
    (hsegs : sigs.length ≤ segs.length) :
    (verifyPlan a iter targetAS hashbuff segs sigs).2 ≠ .ret .success := by
  induction sigs generalizing iter targetAS hashbuff segs with
  | nil => exact absurd rfl hsigs
  | cons ss sss ih =>
      match iter, segs, hiter, hsegs with
      | iter + 2, seg :: segs, hiter, hsegs =>
          intro h
          obtain ⟨next, rest, hashbuff', check, strays, rfl, -, hlen', -, hrest⟩ :=
            verifyPlan_transit_success hlen h
          exact ih hlen' (List.cons_ne_nil _ _) (Nat.lt_of_succ_lt_succ hiter)
            (Nat.le_of_succ_le_succ hsegs) hrest

/-- With a NULL to be copied no plan succeeds. -/
theorem verifyPlan_null {a : VerifyArgs} {iter : Nat} {targetAS : UInt32}
    {hashbuff : List UInt8} (hlen : hashbuff.length = hashbuffSize) {segs : List PathSegment}
    {sigs : List SigSegment} {j : Nat} {ss : SigSegment} (hiter : j + 1 < iter)
    (hsegs : j < segs.length) (hss : sigs[j + 1]? = some ss) (hnull : ¬ SigThere ss) :
    (verifyPlan a iter targetAS hashbuff segs sigs).2 ≠ .ret .success := by
  induction j generalizing iter targetAS hashbuff segs sigs with
  | zero =>
      match iter, segs, sigs, hiter, hsegs, hss with
      | iter + 2, seg :: segs, ss₀ :: sss, _, _, hss =>
          intro h
          obtain ⟨next, rest, hashbuff', check, strays, rfl, hnext, -, -, -⟩ :=
            verifyPlan_transit_success hlen h
          rw [List.getElem?_cons_succ, List.getElem?_cons_zero, Option.some.injEq] at hss
          rw [hss] at hnext
          exact hnull hnext
  | succ j ih =>
      match iter, segs, sigs, hiter, hsegs, hss with
      | iter + 2, seg :: segs, ss₀ :: sss, hiter, hsegs, hss =>
          intro h
          obtain ⟨next, rest, hashbuff', check, strays, -, -, hlen', -, hrest⟩ :=
            verifyPlan_transit_success hlen h
          rw [List.getElem?_cons_succ] at hss
          exact ih hlen' (Nat.lt_of_succ_lt_succ hiter) (Nat.lt_of_succ_lt_succ hsegs) hss hrest

/-! ### Plans that succeed on an inconsistent attribute -/

/-- Without keys a transit segment with a next signature that is there is passed. -/
theorem verifyPlan_pass {a : VerifyArgs} (hkeys : a.keys = none) (iter : Nat) (targetAS : UInt32)
    {hashbuff : List UInt8} (hlen : hashbuff.length = hashbuffSize) {next : SigSegment}
    (hnext : SigThere next) (seg : PathSegment) (segs : List PathSegment) (ss : SigSegment)
    (sss : List SigSegment) :
    ∃ hashbuff' check strays, hashbuff'.length = hashbuffSize ∧
      check.signData.data.length = 10 + next.sigLen.toNat ∧
      verifyPlan a (iter + 2) targetAS hashbuff (seg :: segs) (ss :: next :: sss) =
        (⟨seg, check, strays⟩ :: (verifyPlan a (iter + 1) seg.as hashbuff' segs (next :: sss)).1,
          (verifyPlan a (iter + 1) seg.as hashbuff' segs (next :: sss)).2) := by
  obtain ⟨signature, hashbuff', hread, hlen', hprep⟩ :=
    prepareTransit_eq hlen hnext a (iter + 2) targetAS seg ss sss
  have hby : transitCheckBy a (iter + 2) = (.certificate, []) := by
    rw [transitCheckBy, hkeys]
  rw [hby] at hprep
  refine ⟨hashbuff', ⟨.certificate, ⟨transitOctets targetAS seg signature, ss.ski, a.algoSuiteId,
    ss.signature, ss.sigLen⟩⟩, copyStrays next, hlen', ?_, ?_⟩
  · rw [transitOctets, List.length_append, segmentOctets_length, Buffer.readOn_length hread]
  · rw [verifyPlan_transit, hprep, List.append_nil]

/-- With enough signatures and segments the first `iter` segments are checked. -/
theorem verifyPlan_first {a : VerifyArgs} (hkeys : a.keys = none) {p : Prefix}
    (hp : a.p = some p) (iter : Nat) (targetAS : UInt32) {hashbuff : List UInt8}
    (hlen : hashbuff.length = hashbuffSize) {segs : List PathSegment} {sigs : List SigSegment}
    (hsegs : iter ≤ segs.length) (hsigs : iter ≤ sigs.length)
    (hthere : ∀ j ss, j + 1 < iter → j < segs.length → sigs[j + 1]? = some ss → SigThere ss) :
    (verifyPlan a iter targetAS hashbuff segs sigs).2 = .ret .success ∧
      (verifyPlan a iter targetAS hashbuff segs sigs).1.map Checked.seg = segs.take iter := by
  induction iter generalizing targetAS hashbuff segs sigs with
  | zero => exact ⟨rfl, rfl⟩
  | succ iter ih =>
      match segs, sigs, hsegs, hsigs with
      | seg :: segs, ss :: sss, hsegs, hsigs =>
          cases iter with
          | zero =>
              obtain ⟨hashbuff', hprep⟩ := prepareOrigin_eq hlen hp 1 targetAS seg ss
              rw [Nat.zero_add, verifyPlan_origin, hprep]
              exact ⟨rfl, rfl⟩
          | succ iter =>
              match sss, hsigs with
              | next :: sss, hsigs =>
                  have hnext : SigThere next := hthere 0 next (by omega) (by simp) rfl
                  obtain ⟨hashbuff', check, strays, hlen', -, hplan⟩ :=
                    verifyPlan_pass hkeys iter targetAS hlen hnext seg segs ss sss
                  obtain ⟨hrest, hmap⟩ := ih seg.as hlen'
                    (Nat.le_of_succ_le_succ hsegs) (Nat.le_of_succ_le_succ hsigs)
                    (fun j ss' hj hj' hss => hthere (j + 1) ss' (by omega)
                      (Nat.succ_lt_succ hj') hss)
                  rw [hplan]
                  refine ⟨hrest, ?_⟩
                  rw [List.map_cons, hmap, List.take_succ_cons]

/-- With more signatures than segments, and more segments counted than there are, all segments are
    checked as transit segments. -/
theorem verifyPlan_no_origin {a : VerifyArgs} (hkeys : a.keys = none) (iter : Nat)
    (targetAS : UInt32) {hashbuff : List UInt8} (hlen : hashbuff.length = hashbuffSize)
    {segs : List PathSegment} {sigs : List SigSegment} (hne : segs ≠ [])
    (hiter : segs.length < iter) {last : SigSegment} (hlast : sigs[segs.length]? = some last)
    (hthere : ∀ j ss, j + 1 < iter → j < segs.length → sigs[j + 1]? = some ss → SigThere ss) :
    (verifyPlan a iter targetAS hashbuff segs sigs).2 = .ret .success ∧
      ∃ c, (verifyPlan a iter targetAS hashbuff segs sigs).1.getLast? = some c ∧
        c.check.signData.data.length = 10 + last.sigLen.toNat := by
  induction segs generalizing iter targetAS hashbuff sigs with
  | nil => exact absurd rfl hne
  | cons seg segs ih =>
      match iter, sigs, hiter, hlast with
      | iter + 2, ss :: next :: sss, hiter, hlast =>
          have hnext : SigThere next := hthere 0 next (by omega) (by simp) rfl
          obtain ⟨hashbuff', check, strays, hlen', hdata, hplan⟩ :=
            verifyPlan_pass hkeys iter targetAS hlen hnext seg segs ss sss
          rw [hplan]
          rw [List.length_cons, List.getElem?_cons_succ] at hlast
          cases segs with
          | nil =>
              rw [List.length_nil, List.getElem?_cons_zero, Option.some.injEq] at hlast
              subst hlast
              exact ⟨rfl, ⟨seg, check, strays⟩, rfl, hdata⟩
          | cons seg' segs =>
              obtain ⟨hrest, c, hc, hcdata⟩ := ih (iter + 1) seg.as hlen'
                (List.cons_ne_nil _ _) (Nat.lt_of_succ_lt_succ hiter) hlast
                (fun j ss' hj hj' hss => hthere (j + 1) ss' (by omega)
                  (Nat.succ_lt_succ hj') hss)
              refine ⟨hrest, c, ?_, hcdata⟩
              rw [List.getLast?_cons, hc]
              rfl

/-! ### The whole function -/

/-- On success the plan succeeds, the checks of the run are those of its plan, and all of them
    succeeded. -/
theorem clBgpsecVerify_success {bpa : BgpsecPathAttr} {sb : SigBlock}
    (hsb : bpa.sigBlocks.head? = some sb) (hsanity : bgpsecSanityCheck (some bpa) = 0)
    {beyond : Beyond} {oracle : Check → Option VerifyStatus} {numberKeys : UInt16}
    {keys : Option (List (Option BGPSecKey))} {p : Option Prefix} {localAs : UInt32}
    {plan : List Checked × Outcome}
    (hplan : plan = verifyPlan ⟨sb.algoSuiteId, numberKeys, keys, p, beyond⟩
      (numSecurePathSegment bpa.securePathLen).toNat localAs (List.replicate hashbuffSize 0)
      bpa.pathSegments sb.sigSegments)
    (h : (clBgpsecVerify beyond oracle (some bpa) numberKeys keys p localAs).outcome = .ret .success) :
    plan.2 = .ret .success ∧ (∀ c ∈ plan.1, oracle c.check = some .success) ∧
      (clBgpsecVerify beyond oracle (some bpa) numberKeys keys p localAs).checks = plan.1 := by
  rw [clBgpsecVerify_eq_verifyLoop hsb hsanity, verifyLoop_eq_execPlan, ← hplan] at h ⊢
  rw [execPlan_success_iff] at h
  exact ⟨h.1, h.2, execPlan_checks_of_success h.2 _⟩

theorem clBgpsecVerify_not_sane {bpa : BgpsecPathAttr} (h : bgpsecSanityCheck (some bpa) ≠ 0)
    (beyond : Beyond) (oracle : Check → Option VerifyStatus) (numberKeys : UInt16)
    (keys : Option (List (Option BGPSecKey))) (p : Option Prefix) (localAs : UInt32) :
    clBgpsecVerify beyond oracle (some bpa) numberKeys keys p localAs = ⟨[], .ret .error⟩ := by
  unfold clBgpsecVerify
  split
  · rename_i hz
    exact absurd hz h
  · rfl

/-- A run without keys in which every check succeeds, when it is sound, is one whose plan ends with
    the origin. -/
theorem SoundRun.plan {bpa : BgpsecPathAttr} {sb : SigBlock}
    (hsb : bpa.sigBlocks.head? = some sb) (hsanity : bgpsecSanityCheck (some bpa) = 0)
    {beyond : Beyond} {p : Prefix} {plan : List Checked × Outcome}
    (hplan : plan = verifyPlan ⟨sb.algoSuiteId, 0, none, some p, beyond⟩
      (numSecurePathSegment bpa.securePathLen).toNat 0 (List.replicate hashbuffSize 0)
      bpa.pathSegments sb.sigSegments)
    (hok : plan.2 = .ret .success)
    (hsound : SoundRun beyond (fun _ => some .success) bpa 0 none (some p) 0) :
    plan.1.map Checked.seg = bpa.pathSegments ∧
      ∃ c, plan.1.getLast? = some c ∧
        c.check.signData.data.length = 10 + (2 + psize p.prefixlen) := by
  have hrun : clBgpsecVerify beyond (fun _ => some .success) (some bpa) 0 none (some p) 0 =
      execPlan (fun _ => some .success) plan.1 plan.2 := by
    rw [clBgpsecVerify_eq_verifyLoop hsb hsanity, verifyLoop_eq_execPlan, hplan]
  have hchecks : (execPlan (fun _ => some .success) plan.1 plan.2).checks = plan.1 :=
    execPlan_checks_of_success (fun _ _ => rfl) _
  have hsuccess : (execPlan (fun _ => some .success) plan.1 plan.2).outcome = .ret .success :=
    (execPlan_success_iff _ _ _).mpr ⟨hok, fun _ _ => rfl⟩
  rw [← hrun] at hsuccess hchecks
  obtain ⟨hmap, -, c, targetAS, sb', pfx, hlast, -, hp, hdata⟩ := hsound hsuccess
  rw [hchecks] at hmap hlast
  rw [Option.some.injEq] at hp
  subst hp
  refine ⟨hmap, c, hlast, ?_⟩
  rw [hdata, originOctets, List.length_append, segmentOctets_length, List.length_append,
    List.length_take, Nat.min_eq_left p.psize_le]
  rfl

/-- A prefix whose octets do not make up for the signature of a given length. -/
theorem exists_psize_ne (n : Nat) : ∃ p : Prefix, 2 + psize p.prefixlen ≠ n := by
  by_cases h : n = 2
  · exact ⟨⟨8, [0], by decide⟩, by rw [h]; decide⟩
  · refine ⟨⟨0, [], by decide⟩, ?_⟩
    have hzero : psize 0 = 0 := by decide
    intro hn
    rw [hzero] at hn
    exact h hn.symm

/-- What the sanity check says about the lists that the loop walks. -/
theorem sanityCheck_first {bpa : BgpsecPathAttr} (h : bgpsecSanityCheck (some bpa) = 0) :
    ∃ sb, bpa.sigBlocks.head? = some sb ∧ firstSignatures bpa = sb.sigSegments ∧
      bpa.pathSegments ≠ [] ∧ sb.sigSegments ≠ [] := by
  obtain ⟨a, seg, segs, sb, sbs, ss, sss, sig, ski, ha, hsegs, hsbs, hsigs, -, -⟩ :=
    bgpsecSanityCheck_eq_zero h
  rw [Option.some.injEq] at ha
  subst ha
  have hsb : bpa.sigBlocks.head? = some sb := by
    rw [hsbs, List.head?_cons]
  refine ⟨sb, hsb, ?_, ?_, ?_⟩
  · rw [firstSignatures, hsb]
    rfl
  · rw [hsegs]
    exact List.cons_ne_nil _ _
  · rw [hsigs]
    exact List.cons_ne_nil _ _

theorem soundRun_of_coversPath {bpa : BgpsecPathAttr} (hsanity : bgpsecSanityCheck (some bpa) = 0)
    (hcovers : CoversPath bpa) (beyond : Beyond) (oracle : Check → Option VerifyStatus)
    (numberKeys : UInt16) (keys : Option (List (Option BGPSecKey))) (p : Option Prefix)
    (localAs : UInt32) : SoundRun beyond oracle bpa numberKeys keys p localAs := by
  intro hsuccess
  obtain ⟨sb, hsb, hfirst, hsegsNe, hsigsNe⟩ := sanityCheck_first hsanity
  obtain ⟨hplan, hall, hchecks⟩ := clBgpsecVerify_success hsb hsanity rfl hsuccess
  rw [hchecks]
  rcases hcovers with h | ⟨hfew, hfew'⟩ | ⟨j, ss', hj, hj', hss', hnull⟩
  · rw [h] at hplan hall ⊢
    obtain ⟨hmap, c, targetAS, pfx, hlast, hp, hdata⟩ :=
      verifyPlan_covers List.length_replicate hsegsNe hsigsNe hplan
    exact ⟨hmap, hall, c, targetAS, sb, pfx, hlast, hsb, hp, hdata⟩
  · rw [hfirst] at hfew hfew'
    exact absurd hplan (verifyPlan_few_signatures List.length_replicate hsigsNe hfew hfew')
  · rw [hfirst] at hss'
    exact absurd hplan (verifyPlan_null List.length_replicate hj hj' hss' hnull)

theorem coversPath_of_soundRun {bpa : BgpsecPathAttr} (hsanity : bgpsecSanityCheck (some bpa) = 0)
    {beyond : Beyond} (hsound : ∀ oracle numberKeys keys p localAs,
      SoundRun beyond oracle bpa numberKeys keys p localAs) : CoversPath bpa := by
  obtain ⟨sb, hsb, hfirst, hsegsNe, hsigsNe⟩ := sanityCheck_first hsanity
  by_contra hcovers
  unfold CoversPath at hcovers
  simp only [not_or, not_exists, not_and, not_not, hfirst] at hcovers
  obtain ⟨hneq, hfew, hthere⟩ := hcovers
  rcases Nat.lt_or_gt_of_ne hneq with hlt | hgt
  · -- fewer segments are counted than there are: the rest is not checked
    have hk : (numSecurePathSegment bpa.securePathLen).toNat ≤ sb.sigSegments.length := by
      by_contra hk
      exact hfew (Nat.lt_of_not_le hk) (by omega)
    obtain ⟨p, -⟩ := exists_psize_ne 0
    obtain ⟨hplan, hmap⟩ := verifyPlan_first (a := ⟨sb.algoSuiteId, 0, none, some p, beyond⟩) rfl rfl
      _ 0 List.length_replicate (Nat.le_of_lt hlt) hk hthere
    obtain ⟨hmap', -⟩ := SoundRun.plan hsb hsanity rfl hplan (hsound _ _ _ _ _)
    have hlen := congrArg List.length (hmap.symm.trans hmap')
    rw [List.length_take] at hlen
    omega
  · -- more segments are counted than there are: the origin is checked as a transit segment
    have hk : bpa.pathSegments.length < sb.sigSegments.length := by
      by_contra hk
      exact hfew (by omega) (Nat.le_of_not_lt hk)
    obtain ⟨p, hp⟩ := exists_psize_ne (sb.sigSegments[bpa.pathSegments.length]).sigLen.toNat
    obtain ⟨hplan, c, hlast, hdata⟩ := verifyPlan_no_origin
      (a := ⟨sb.algoSuiteId, 0, none, some p, beyond⟩) rfl _ 0 List.length_replicate hsegsNe hgt
      (List.getElem?_eq_getElem hk) hthere
    obtain ⟨-, c', hlast', hdata'⟩ := SoundRun.plan hsb hsanity rfl hplan (hsound _ _ _ _ _)
    rw [hlast, Option.some.injEq] at hlast'
    rw [← hlast', hdata] at hdata'
    omega

/-- A successful run has checked the whole path, for every result of the checks, keys, prefix and
    AS, exactly on the attributes that fail the sanity check or cover their path. -/
theorem clBgpsecVerify_sound_iff (beyond : Beyond) (bpa : BgpsecPathAttr) :
    (∀ oracle numberKeys keys p localAs, SoundRun beyond oracle bpa numberKeys keys p localAs) ↔
      bgpsecSanityCheck (some bpa) ≠ 0 ∨ CoversPath bpa := by
  by_cases hsanity : bgpsecSanityCheck (some bpa) = 0
  · constructor
    · intro hsound
      exact Or.inr (coversPath_of_soundRun hsanity hsound)
    · intro h
      rcases h with h | hcovers
      · exact absurd hsanity h
      · exact soundRun_of_coversPath hsanity hcovers beyond
  · refine iff_of_true ?_ (Or.inl hsanity)
    intro oracle numberKeys keys p localAs hsuccess
    rw [clBgpsecVerify_not_sane hsanity] at hsuccess
    cases hsuccess

/-- A Secure_Path length of 2 with one segment: success without a check. -/
theorem clBgpsecVerify_without_check :
    ¬ ∀ beyond oracle numberKeys keys p localAs, SoundRun beyond oracle
      ⟨2, [⟨1, 1, 0⟩], [⟨25, 1, [⟨some (List.replicate 20 7), 0, some []⟩]⟩]⟩
      numberKeys keys p localAs := by
  intro h
  obtain ⟨hmap, -⟩ := h ⟨fun _ _ => 0, fun _ => none⟩ (fun _ => none) 0 none none 3 (by decide)
  exact absurd hmap (by decide)

end SrxNote.Crypto
