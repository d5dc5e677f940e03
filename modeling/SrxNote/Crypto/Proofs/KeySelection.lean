import SrxNote.Bgpsec.Wire
import SrxNote.Crypto.Proofs.VerifyPlan

/-!
# The choice of a key

A transit segment is checked with its own entry of `keys`. The origin is checked
with its own entry too, but whether a key or the certificate is used is decided by
the first entry. The two differ exactly when one of the first and the last entry is
NULL and the other one is not (`clBgpsecVerify_selects_iff`).

The plan of a path whose lengths agree is one check for each segment, made in the
way that is selected for it, with its own SKI and signature and over the octets that
its signer signed (`verifyPlan_selection`).
-/

namespace SrxNote.Crypto
open SrxNote.Bgpsec

/-- How a segment has to be checked: with its entry of `keys`, or by the certificate when there is no
    entry. -/
def chosenBy : Option BGPSecKey → CheckBy
  | none => .certificate
  | some key => .withKeyInfo (some key)

/-- A path whose lengths agree, and whose signatures in its first block `sb` are there and fit
    `hashbuff`, with an entry of `keys`, maybe NULL, for each segment. -/
structure ConsistentPath (bpa : BgpsecPathAttr) (sb : SigBlock) (numberKeys : UInt16)
    (keys : List (Option BGPSecKey)) : Prop where
  segments : 1 ≤ bpa.pathSegments.length
  len : bpa.securePathLen.toNat = 2 + 6 * bpa.pathSegments.length
  block : bpa.sigBlocks.head? = some sb
  signatures : sb.sigSegments.length = bpa.pathSegments.length
  wellFormed : ∀ ss ∈ sb.sigSegments, ss.WellFormed ∧ ss.sigLen.toNat ≤ bgpsecMaxSigLength
  entries : keys.length = bpa.pathSegments.length
  number : numberKeys.toNat = keys.length

/-- The check is the one of segment `i`: made in the way that its entry of `keys` demands, with the SKI
    and the signature of its signature segment. -/
structure ChecksSegment (bpa : BgpsecPathAttr) (sb : SigBlock) (keys : List (Option BGPSecKey))
    (i : Nat) (c : Checked) : Prop where
  seg : bpa.pathSegments[i]? = some c.seg
  way : keys[i]?.map chosenBy = some c.check.checkBy
  signed : (sb.sigSegments[i]?.map fun ss => (ss.ski, ss.signature, ss.sigLen)) =
    some (c.check.signData.ski, c.check.signData.signature, c.check.signData.sigLen)

/-- Each check that is made, for any results of the checks, is the one that its segment has to be
    checked with; and without a failing check there is one for each segment. -/
def SelectsUniformly (beyond : Beyond) (bpa : BgpsecPathAttr) (sb : SigBlock) (numberKeys : UInt16)
    (keys : List (Option BGPSecKey)) (p : Prefix) (localAs : UInt32) : Prop :=
  ∀ oracle : Check → Option VerifyStatus,
    let run := clBgpsecVerify beyond oracle (some bpa) numberKeys (some keys) (some p) localAs
    (∀ i c, run.checks[i]? = some c → ChecksSegment bpa sb keys i c) ∧
      ((∀ c, oracle c = some .success) → run.checks.length = bpa.pathSegments.length)

/-! ### What the code selects -/

/-- The origin's check, by the first and the last entry. -/
def originBy (first last : Option BGPSecKey) : CheckBy :=
  match first with
  | none => .certificate
  | some _ => .withKeyInfo last

/-- The checks of the entries from some segment on. -/
def selection (first : Option BGPSecKey) : List (Option BGPSecKey) → List CheckBy
  | [] => []
  | [last] => [originBy first last]
  | key :: next :: keys => chosenBy key :: selection first (next :: keys)

theorem selection_length (first : Option BGPSecKey) (keys : List (Option BGPSecKey)) :
    (selection first keys).length = keys.length := by
  induction keys with
  | nil => rfl
  | cons key keys ih =>
      cases keys with
      | nil => rfl
      | cons next keys =>
          rw [selection, List.length_cons, ih]
          rfl

theorem originBy_eq_iff (first last : Option BGPSecKey) :
    originBy first last = chosenBy last ↔ (first.isSome ↔ last.isSome) := by
  cases first <;> cases last <;> simp [originBy, chosenBy]

/-- All entries but the last one are selected as they have to be. -/
theorem selection_eq_iff {first last : Option BGPSecKey} (keys : List (Option BGPSecKey)) :
    selection first (keys ++ [last]) = (keys ++ [last]).map chosenBy ↔
      (first.isSome ↔ last.isSome) := by
  induction keys with
  | nil => simp [selection, originBy_eq_iff]
  | cons key keys ih =>
      have hcons : selection first (key :: (keys ++ [last])) =
          chosenBy key :: selection first (keys ++ [last]) := by
        cases keys <;> rfl
      rw [List.cons_append, hcons, List.map_cons, List.cons.injEq, ih]
      simp

theorem readKey_eq_getElem {keys : List (Option BGPSecKey)} {i : Int} {k : Nat} (h : i = k) :
    readKey keys i = keys[k]? := by
  subst h
  simp [readKey]

theorem transitCheckBy_entry {a : VerifyArgs} {before after : List (Option BGPSecKey)}
    {key : Option BGPSecKey} (hkeys : a.keys = some (before ++ key :: after)) {iter : Nat}
    (hindex : (a.numberKeys.toNat : Int) - iter = before.length) :
    transitCheckBy a iter = (chosenBy key, []) := by
  have hlt := a.numberKeys.toNat_lt
  have hread : ∀ i : Int, i = before.length →
      fetchKey a.beyond (before ++ key :: after) i = (key, []) := by
    intro i hi
    rw [fetchKey, readKey_eq_getElem hi]
    simp
  have htested := hread _ hindex
  have hused := hread (((a.numberKeys.toNat : Int) - iter) % 2 ^ 16) (by omega)
  simp only [transitCheckBy, hkeys, htested, hused]
  cases key <;> rfl

theorem originCheckBy_entries {a : VerifyArgs} {before : List (Option BGPSecKey)}
    {first last : Option BGPSecKey} (hkeys : a.keys = some (before ++ [last]))
    (hfirst : (before ++ [last]).head? = some first)
    (hindex : (a.numberKeys.toNat : Int) - (1 : Nat) = before.length) :
    originCheckBy a 1 = (originBy first last, []) := by
  have hlt := a.numberKeys.toNat_lt
  have hlast : fetchKey a.beyond (before ++ [last])
      (((a.numberKeys.toNat : Int) - (1 : Nat)) % 2 ^ 16) = (last, []) := by
    rw [fetchKey, readKey_eq_getElem (k := before.length) (by omega)]
    simp
  have hzero : fetchKey a.beyond (before ++ [last]) 0 = (first, []) := by
    rw [fetchKey, readKey_eq_getElem (k := 0) (by rfl), ← List.head?_eq_getElem?, hfirst]
  simp only [originCheckBy, hkeys, hzero, hlast]
  cases first <;> rfl

/-! ### The plan -/

/-- What is hashed behind the segment's own octets: the signature of the next signature segment,
    or the algorithm suite and the prefix for the origin. -/
def hashedBehind (algoSuiteId : UInt8) (p : Prefix) : Option SigSegment → List UInt8
  | some next => next.signature.getD []
  | none => [algoSuiteId, p.prefixlen] ++ p.u.take (psize p.prefixlen)

/-- The checks of a path, made in the given ways: each segment is the target of the one behind it. -/
def checksBy (algoSuiteId : UInt8) (p : Prefix) :
    UInt32 → List PathSegment → List SigSegment → List CheckBy → List Checked
  | targetAS, seg :: segs, ss :: sss, checkBy :: ways =>
      ⟨seg, ⟨checkBy,
        ⟨segmentOctets targetAS seg ++ hashedBehind algoSuiteId p sss.head?, ss.ski, algoSuiteId,
          ss.signature, ss.sigLen⟩⟩, []⟩ :: checksBy algoSuiteId p seg.as segs sss ways
  | _, _, _, _ => []

/-- The target AS of segment `i`. -/
def targetAt (localAs : UInt32) (segs : List PathSegment) : Nat → UInt32
  | 0 => localAs
  | i + 1 => (segs[i]?.map PathSegment.as).getD localAs

theorem targetAt_cons (localAs : UInt32) (seg : PathSegment) (segs : List PathSegment) {i : Nat}
    (hi : i < segs.length) : targetAt localAs (seg :: segs) (i + 1) = targetAt seg.as segs i := by
  cases i with
  | zero => rfl
  | succ i =>
      have hlt : i < segs.length := Nat.lt_of_succ_lt hi
      simp only [targetAt, List.getElem?_cons_succ, List.getElem?_eq_getElem hlt, Option.map_some,
        Option.getD_some]

theorem checksBy_length (algoSuiteId : UInt8) (p : Prefix) (targetAS : UInt32)
    (segs : List PathSegment) (sigs : List SigSegment) (ways : List CheckBy)
    (hsigs : sigs.length = segs.length) (hways : ways.length = segs.length) :
    (checksBy algoSuiteId p targetAS segs sigs ways).length = segs.length := by
  induction segs generalizing targetAS sigs ways with
  | nil =>
      rw [checksBy]
      · rfl
      · intros; simp_all
  | cons seg segs ih =>
      match sigs, ways, hsigs, hways with
      | ss :: sss, checkBy :: ways, hsigs, hways =>
          rw [checksBy, List.length_cons, ih _ _ _ (Nat.succ.inj hsigs) (Nat.succ.inj hways),
            List.length_cons]

/-- The check of segment `i`. -/
theorem checksBy_getElem (algoSuiteId : UInt8) (p : Prefix) (targetAS : UInt32)
    {segs : List PathSegment} {sigs : List SigSegment} {ways : List CheckBy}
    {i : Nat} {seg : PathSegment} {ss : SigSegment} {way : CheckBy} (hseg : segs[i]? = some seg)
    (hss : sigs[i]? = some ss) (hway : ways[i]? = some way) :
    (checksBy algoSuiteId p targetAS segs sigs ways)[i]? = some ⟨seg, ⟨way,
      ⟨segmentOctets (targetAt targetAS segs i) seg ++ hashedBehind algoSuiteId p sigs[i + 1]?,
        ss.ski, algoSuiteId, ss.signature, ss.sigLen⟩⟩, []⟩ := by
  induction i generalizing targetAS segs sigs ways with
  | zero =>
      match segs, sigs, ways, hseg, hss, hway with
      | _ :: _, _ :: sss, _ :: _, hseg, hss, hway =>
          simp only [List.getElem?_cons_zero, Option.some.injEq] at hseg hss hway
          subst hseg hss hway
          rw [checksBy, List.getElem?_cons_zero, List.getElem?_cons_succ, List.head?_eq_getElem?]
          rfl
  | succ i ih =>
      match segs, sigs, ways, hseg, hss, hway with
      | seg₀ :: segs, _ :: sss, _ :: ways, hseg, hss, hway =>
          simp only [List.getElem?_cons_succ] at hseg hss hway
          have hlt : i < segs.length := by
            obtain ⟨h, -⟩ := List.getElem?_eq_some_iff.mp hseg
            exact h
          rw [checksBy, List.getElem?_cons_succ, ih seg₀.as hseg hss hway, targetAt_cons _ _ _ hlt,
            List.getElem?_cons_succ]

/-- A well-formed signature that is short enough may be copied, and all of it is. -/
theorem copyable_of_wellFormed {ss : SigSegment} (h : ss.WellFormed)
    (hle : ss.sigLen.toNat ≤ bgpsecMaxSigLength) :
    SigThere ss ∧ copyStrays ss = [] ∧ ∀ behind,
      Buffer.readOn ss.signature ss.sigLen.toNat behind = some (ss.signature.getD []) := by
  obtain ⟨sig, hsig, hlen⟩ := h.signature
  have hread : Buffer.read ss.signature ss.sigLen.toNat = some (ss.signature.getD []) := by
    rw [hsig, Buffer.read, if_pos (by omega), List.take_of_length_le (by omega), Option.getD_some]
  refine ⟨Or.inl ?_, copyStrays_eq_nil_iff.mpr ⟨?_, hle⟩, Buffer.readOn_of_read hread⟩
  · rw [hsig]
    rfl
  · rw [hread]
    rfl

/-- The plan on lists of one length, with the entries still to come at the end of the array. -/
theorem verifyPlan_selection {a : VerifyArgs} {p : Prefix} (hp : a.p = some p)
    {first : Option BGPSecKey} (before : List (Option BGPSecKey)) (targetAS : UInt32)
    {hashbuff : List UInt8} (hlen : hashbuff.length = hashbuffSize) {segs : List PathSegment}
    (sigs : List SigSegment) (keys : List (Option BGPSecKey))
    (hkeysArg : a.keys = some (before ++ keys))
    (hfirst : ∀ key, (before ++ keys).head? = some key → key = first)
    (hnumber : a.numberKeys.toNat = (before ++ keys).length)
    (hsigs : sigs.length = segs.length) (hkeys : keys.length = segs.length)
    (hwf : ∀ ss ∈ sigs, ss.WellFormed ∧ ss.sigLen.toNat ≤ bgpsecMaxSigLength) :
    verifyPlan a segs.length targetAS hashbuff segs sigs =
      (checksBy a.algoSuiteId p targetAS segs sigs (selection first keys), .ret .success) := by
  induction segs generalizing before targetAS hashbuff sigs keys with
  | nil =>
      rw [List.length_nil, verifyPlan, checksBy]
      intros; simp_all
  | cons seg segs ih =>
      obtain ⟨ss, sss, rfl⟩ := List.exists_of_length_succ sigs hsigs
      obtain ⟨key, keys, rfl⟩ := List.exists_of_length_succ keys hkeys
      have hsss : sss.length = segs.length := Nat.succ.inj hsigs
      have hk : keys.length = segs.length := Nat.succ.inj hkeys
      have hindex : (a.numberKeys.toNat : Int) - (segs.length + 1 : Nat) = before.length := by
        rw [hnumber, List.length_append, List.length_cons, hk]
        omega
      rw [List.length_cons, verifyPlan]
      cases segs with
      | cons seg' segs =>
          obtain ⟨next, sss, rfl⟩ := List.exists_of_length_succ sss hsss
          obtain ⟨key', keys, rfl⟩ := List.exists_of_length_succ keys hk
          have hby := transitCheckBy_entry hkeysArg hindex
          obtain ⟨hnext, hstrays, hread⟩ := copyable_of_wellFormed (hwf next (by simp)).1
            (hwf next (by simp)).2
          obtain ⟨signature, hashbuff', hread', hlen', hprep⟩ :=
            prepareTransit_eq hlen hnext a ((seg' :: segs).length + 1) targetAS seg ss sss
          rw [hread, Option.some.injEq] at hread'
          have hrest := ih (before ++ [key]) seg.as hlen' (next :: sss) (key' :: keys)
            (by simpa using hkeysArg) (by simpa using hfirst) (by simpa using hnumber) hsss hk
            (fun x hx => hwf x (List.mem_cons_of_mem _ hx))
          rw [if_pos (by simp), hprep, hby, hstrays, ← hread', selection, checksBy]
          dsimp only
          rw [hrest]
          rfl
      | nil =>
          obtain rfl := List.eq_nil_of_length_eq_zero hsss
          obtain rfl := List.eq_nil_of_length_eq_zero hk
          obtain ⟨head, hhead⟩ : ∃ head, (before ++ [key]).head? = some head := by
            cases before <;> simp
          obtain rfl := hfirst head hhead
          have hby := originCheckBy_entries hkeysArg hhead hindex
          obtain ⟨hashbuff', hprep⟩ := prepareOrigin_eq hlen hp 1 targetAS seg ss
          rw [if_neg (by simp), List.length_nil, hprep, hby, selection, checksBy]
          dsimp only
          rw [verifyPlan, checksBy]
          · rfl
          · intros; simp_all

section Path
variable {bpa : BgpsecPathAttr} {sb : SigBlock} {numberKeys : UInt16}
  {keys : List (Option BGPSecKey)}

theorem ConsistentPath.sanityCheck (h : ConsistentPath bpa sb numberKeys keys) :
    bgpsecSanityCheck (some bpa) = 0 := by
  obtain ⟨hsegs, -, hsb, hsigs, hwf, -, -⟩ := h
  match bpa, hsegs, hsb, hsigs with
  | ⟨_, _ :: _, _ :: _⟩, _, hsb, hsigs =>
      rw [List.head?_cons, Option.some.injEq] at hsb
      subst hsb
      match hss : SigBlock.sigSegments _, hsigs with
      | ss :: sss, _ =>
          obtain ⟨⟨ski, hski, -⟩, ⟨sig, hsig, -⟩⟩ := (hwf ss (by simp [hss])).1
          simp [bgpsecSanityCheck, hss, hski, hsig]

/-- The validation of a consistent path follows the plan of its segments. -/
theorem ConsistentPath.run_eq {first : Option BGPSecKey}
    (h : ConsistentPath bpa sb numberKeys keys) (hfirst : keys.head? = some first)
    (beyond : Beyond) (oracle : Check → Option VerifyStatus) (p : Prefix) (localAs : UInt32) :
    clBgpsecVerify beyond oracle (some bpa) numberKeys (some keys) (some p) localAs =
      execPlan oracle (checksBy sb.algoSuiteId p localAs bpa.pathSegments sb.sigSegments
        (selection first keys)) (.ret .success) := by
  have hn : (numSecurePathSegment bpa.securePathLen).toNat = bpa.pathSegments.length := by
    have hlt := numberKeys.toNat_lt
    rw [numSecurePathSegment_of_eq h.len, Nat.mod_eq_of_lt]
    rw [← h.entries, ← h.number]
    exact hlt
  have hplan : verifyPlan ⟨sb.algoSuiteId, numberKeys, some keys, some p, beyond⟩
      bpa.pathSegments.length localAs (List.replicate hashbuffSize 0) bpa.pathSegments
      sb.sigSegments =
      (checksBy sb.algoSuiteId p localAs bpa.pathSegments sb.sigSegments (selection first keys),
        .ret .success) := by
    refine verifyPlan_selection rfl [] localAs List.length_replicate sb.sigSegments keys rfl ?_
      h.number h.signatures h.entries h.wellFormed
    intro key hkey
    rw [List.nil_append, hfirst] at hkey
    exact (Option.some.inj hkey).symm
  rw [clBgpsecVerify_eq_verifyLoop h.block h.sanityCheck, hn, verifyLoop_eq_execPlan, hplan]

/-- A check of the path is the one of its segment when it is made in the way that is demanded. -/
theorem ConsistentPath.checksSegment_iff (h : ConsistentPath bpa sb numberKeys keys) {p : Prefix}
    {localAs : UInt32} {ways : List CheckBy} (hways : ways.length = keys.length) {i : Nat}
    {c : Checked} (hc : (checksBy sb.algoSuiteId p localAs bpa.pathSegments sb.sigSegments
      ways)[i]? = some c) :
    ChecksSegment bpa sb keys i c ↔ keys[i]?.map chosenBy = ways[i]? := by
  obtain ⟨hi, -⟩ := List.getElem?_eq_some_iff.mp hc
  rw [checksBy_length _ _ _ _ _ _ h.signatures (hways.trans h.entries)] at hi
  have hseg := List.getElem?_eq_getElem hi
  have hss := List.getElem?_eq_getElem (h.signatures.symm ▸ hi)
  have hway := List.getElem?_eq_getElem ((hways.trans h.entries).symm ▸ hi)
  rw [checksBy_getElem _ _ _ hseg hss hway, Option.some.injEq] at hc
  subst hc
  constructor
  · intro hchecks
    rw [hway]
    exact hchecks.way
  · intro hchosen
    exact ⟨hseg, hchosen.trans hway, by rw [hss, Option.map_some]⟩

/-- Each segment is checked as its entry demands exactly when the code selects what the entries
    demand. -/
theorem ConsistentPath.selects_iff {first : Option BGPSecKey}
    (h : ConsistentPath bpa sb numberKeys keys) (hfirst : keys.head? = some first)
    (beyond : Beyond) (p : Prefix) (localAs : UInt32) :
    SelectsUniformly beyond bpa sb numberKeys keys p localAs ↔
      selection first keys = keys.map chosenBy := by
  have hways := selection_length first keys
  have hlength := checksBy_length sb.algoSuiteId p localAs _ _ _ h.signatures
    (hways.trans h.entries)
  constructor
  · intro hselects
    obtain ⟨hchecks, -⟩ := hselects fun _ => some .success
    rw [h.run_eq hfirst, execPlan_checks_of_success (fun _ _ => rfl)] at hchecks
    refine List.ext_getElem? fun i => ?_
    rw [List.getElem?_map]
    by_cases hi : i < bpa.pathSegments.length
    · have hc := List.getElem?_eq_getElem (hlength.symm ▸ hi)
      exact ((h.checksSegment_iff hways hc).mp (hchecks i _ hc)).symm
    · rw [List.getElem?_eq_none (by rw [hways, h.entries]; omega),
        List.getElem?_eq_none (by rw [h.entries]; omega)]
      rfl
  · intro hselection oracle
    dsimp only
    rw [h.run_eq hfirst]
    refine ⟨fun i c hc => ?_, fun hall => ?_⟩
    · -- a check that is made is the one of the plan
      have hpre := checks_prefix_plan oracle (checksBy sb.algoSuiteId p localAs bpa.pathSegments
        sb.sigSegments (selection first keys)) (.ret .success)
      obtain ⟨hi, hget⟩ := List.getElem?_eq_some_iff.mp hc
      have hc' := List.getElem?_eq_some_iff.mpr
        ⟨hi.trans_le hpre.length_le, (hpre.getElem hi).symm.trans hget⟩
      exact (h.checksSegment_iff hways hc').mpr (by rw [hselection, List.getElem?_map])
    · rw [execPlan_checks_of_success fun c _ => hall c.check, hlength]

/-- Each segment of a consistent path is checked as its entry of `keys` demands exactly when the first
    and the last entry are both NULL or both not NULL. -/
theorem clBgpsecVerify_selects_iff (h : ConsistentPath bpa sb numberKeys keys) (beyond : Beyond)
    (p : Prefix) (localAs : UInt32) :
    SelectsUniformly beyond bpa sb numberKeys keys p localAs ↔
      (keys.head? = some none ↔ keys.getLast? = some none) := by
  have hne : keys ≠ [] := by
    intro hnil
    have hsegs := h.segments
    rw [← h.entries, hnil] at hsegs
    simp at hsegs
  obtain ⟨init, last, rfl⟩ := List.eq_nil_or_concat' keys |>.resolve_left hne
  obtain ⟨first, hfirst⟩ : ∃ first, (init ++ [last]).head? = some first := by
    cases init <;> simp
  rw [h.selects_iff hfirst, selection_eq_iff, hfirst, List.getLast?_concat]
  cases first <;> cases last <;> simp

end Path

/-! ### Two hops with one key -/

/-- From AS 1 over AS 2. -/
def twoSegments : List PathSegment := [⟨2, 1, 0⟩, ⟨1, 1, 0⟩]

/-- The block of their signatures. -/
def twoSignatures : SigBlock :=
  ⟨51, 1, [⟨some (List.replicate 20 2), 2, some [8, 9]⟩,
    ⟨some (List.replicate 20 1), 2, some [6, 7]⟩]⟩

/-- A key without data for each AS. -/
def bareKey (asn : UInt32) : BGPSecKey := ⟨1, asn, List.replicate 20 1, 0, none, rfl⟩

/-- The prefix 10.0.0.0/8. -/
def tenSlash8 : Prefix := ⟨8, [10, 0, 0, 0], by decide⟩

theorem consistentPath_two {keys : List (Option BGPSecKey)} (hkeys : keys.length = 2) :
    ConsistentPath ⟨14, twoSegments, [twoSignatures]⟩ twoSignatures 2 keys where
  segments := by decide
  len := by decide
  block := rfl
  signatures := rfl
  wellFormed := by
    intro ss hss
    rcases List.mem_cons.mp hss with rfl | hss
    · exact ⟨⟨⟨_, rfl, rfl⟩, ⟨_, rfl, rfl⟩⟩, by decide⟩
    · rcases List.mem_singleton.mp hss with rfl
      exact ⟨⟨⟨_, rfl, rfl⟩, ⟨_, rfl, rfl⟩⟩, by decide⟩
  entries := hkeys
  number := hkeys.symm

/-- What is found outside of the arguments: zeros and NULL. -/
def zeros : Beyond := ⟨fun _ _ => 0, fun _ => none⟩

/-- Both keys are there. -/
theorem twoKeys_selected :
    SelectsUniformly zeros ⟨14, twoSegments, [twoSignatures]⟩ twoSignatures 2
      [some (bareKey 2), some (bareKey 1)] tenSlash8 3 :=
  (clBgpsecVerify_selects_iff (consistentPath_two rfl) zeros tenSlash8 3).mpr (by decide)

/-- The key of the first hop is missing: the origin's key is not used. -/
theorem originKey_not_used :
    ¬ SelectsUniformly zeros ⟨14, twoSegments, [twoSignatures]⟩ twoSignatures 2
      [none, some (bareKey 1)] tenSlash8 3 := by
  intro hselects
  have hchecks := (hselects fun _ => some .success).1
  rw [(consistentPath_two rfl).run_eq rfl, execPlan_checks_of_success (fun _ _ => rfl)] at hchecks
  have hway := (hchecks 1 _ rfl).way
  revert hway
  decide

end SrxNote.Crypto
