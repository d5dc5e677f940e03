import SrxNote.Crypto.Proofs.KeySelection

/-!
# Validation of a consistent attribute

On an attribute whose three lengths agree, and with a key for each segment, the
plan of `cl_BgpsecVerify` has one check for each path segment: with its own key
and signature, over the octets that its signer signed.
-/

namespace SrxNote.Crypto
open SrxNote.Bgpsec

/-- The lengths of an attribute agree, it has a key for each segment, and the signatures of its
    first block `sb` are there and fit `hashbuff`. -/
structure Consistent (bpa : BgpsecPathAttr) (sb : SigBlock) (keys : List BGPSecKey) : Prop where
  segments : 1 ≤ bpa.pathSegments.length
  len : bpa.securePathLen.toNat = 2 + 6 * bpa.pathSegments.length
  block : bpa.sigBlocks.head? = some sb
  signatures : sb.sigSegments.length = bpa.pathSegments.length
  wellFormed : ∀ ss ∈ sb.sigSegments, ss.WellFormed ∧ ss.sigLen.toNat ≤ bgpsecMaxSigLength
  keys : keys.length = bpa.pathSegments.length

/-- The checks of a path: each segment is the target of the one behind it. -/
def pathChecks (algoSuiteId : UInt8) (p : Prefix) :
    UInt32 → List PathSegment → List SigSegment → List BGPSecKey → List Checked
  | targetAS, seg :: segs, ss :: sss, key :: keys =>
      ⟨seg, ⟨.withKeyInfo (some key),
        ⟨segmentOctets targetAS seg ++ hashedBehind algoSuiteId p sss.head?, ss.ski, algoSuiteId,
          ss.signature, ss.sigLen⟩⟩, []⟩ :: pathChecks algoSuiteId p seg.as segs sss keys
  | _, _, _, _ => []

/-- The checks of a path are made with its keys. -/
theorem pathChecks_eq_checksBy (algoSuiteId : UInt8) (p : Prefix) (targetAS : UInt32)
    (segs : List PathSegment) (sigs : List SigSegment) (keys : List BGPSecKey) :
    pathChecks algoSuiteId p targetAS segs sigs keys =
      checksBy algoSuiteId p targetAS segs sigs (keys.map fun key => .withKeyInfo (some key)) := by
  induction segs generalizing targetAS sigs keys with
  | nil =>
      rw [pathChecks, checksBy]
      · intros; simp_all
      · intros; simp_all
  | cons seg segs ih =>
      cases sigs with
      | nil =>
          rw [pathChecks, checksBy]
          · intros; simp_all
          · intros; simp_all
      | cons ss sss =>
          cases keys with
          | nil =>
              rw [List.map_nil, pathChecks, checksBy]
              · intros; simp_all
              · intros; simp_all
          | cons key keys => rw [pathChecks, List.map_cons, checksBy, ih]

/-- The check of segment `i`. -/
theorem pathChecks_getElem (algoSuiteId : UInt8) (p : Prefix) (targetAS : UInt32)
    {segs : List PathSegment} {sigs : List SigSegment} {keys : List BGPSecKey}
    {i : Nat} {seg : PathSegment} {ss : SigSegment} {key : BGPSecKey} (hseg : segs[i]? = some seg)
    (hss : sigs[i]? = some ss) (hkey : keys[i]? = some key) :
    (pathChecks algoSuiteId p targetAS segs sigs keys)[i]? = some ⟨seg, ⟨.withKeyInfo (some key),
      ⟨segmentOctets (targetAt targetAS segs i) seg ++ hashedBehind algoSuiteId p sigs[i + 1]?,
        ss.ski, algoSuiteId, ss.signature, ss.sigLen⟩⟩, []⟩ := by
  rw [pathChecks_eq_checksBy]
  exact checksBy_getElem _ _ _ hseg hss (by rw [List.getElem?_map, hkey, Option.map_some])

/-- An array without NULL selects every key. -/
theorem selection_keys (first : BGPSecKey) (keys : List BGPSecKey) :
    selection (some first) (keys.map some) = keys.map fun key => .withKeyInfo (some key) := by
  induction keys with
  | nil => rfl
  | cons key keys ih =>
      cases keys with
      | nil => rfl
      | cons next keys =>
          rw [List.map_cons, List.map_cons, selection, ← List.map_cons, ih]
          rfl

theorem Consistent.path {bpa : BgpsecPathAttr} {sb : SigBlock} {keys : List BGPSecKey}
    (h : Consistent bpa sb keys) {numberKeys : UInt16} (hnumber : numberKeys.toNat = keys.length) :
    ConsistentPath bpa sb numberKeys (keys.map some) where
  segments := h.segments
  len := h.len
  block := h.block
  signatures := h.signatures
  wellFormed := h.wellFormed
  entries := by rw [List.length_map, h.keys]
  number := by rw [List.length_map, hnumber]

/-- The validation of a consistent attribute follows the plan of its path. -/
theorem Consistent.run_eq {bpa : BgpsecPathAttr} {sb : SigBlock} {keys : List BGPSecKey}
    (h : Consistent bpa sb keys) {numberKeys : UInt16} (hnumber : numberKeys.toNat = keys.length)
    (beyond : Beyond) (oracle : Check → Option VerifyStatus) (p : Prefix) (localAs : UInt32) :
    clBgpsecVerify beyond oracle (some bpa) numberKeys (some (keys.map some)) (some p) localAs =
      execPlan oracle (pathChecks sb.algoSuiteId p localAs bpa.pathSegments sb.sigSegments keys)
        (.ret .success) := by
  obtain ⟨first, rest, rfl⟩ : ∃ first rest, keys = first :: rest := by
    cases keys with
    | nil =>
        have hsegs := h.segments
        rw [← h.keys] at hsegs
        simp at hsegs
    | cons first rest => exact ⟨first, rest, rfl⟩
  rw [(h.path hnumber).run_eq rfl, selection_keys, pathChecks_eq_checksBy]

/-- On a consistent attribute with a key for each segment, `cl_BgpsecVerify` makes the checks of
    the path in order up to the first one that fails, and succeeds when all of them do. -/
theorem clBgpsecVerify_consistent {bpa : BgpsecPathAttr} {sb : SigBlock} {keys : List BGPSecKey}
    (h : Consistent bpa sb keys) (numberKeys : UInt16) (hnumber : numberKeys.toNat = keys.length)
    (beyond : Beyond) (oracle : Check → Option VerifyStatus) (p : Prefix) (localAs : UInt32) :
    ∃ cs : List Checked, cs.length = bpa.pathSegments.length ∧
      (∀ (i : Nat) seg ss key, bpa.pathSegments[i]? = some seg → sb.sigSegments[i]? = some ss →
        keys[i]? = some key → cs[i]? = some ⟨seg, ⟨.withKeyInfo (some key),
          ⟨be32 (targetAt localAs bpa.pathSegments i) ++ be32 seg.as ++ [seg.pCount, seg.flags] ++
            hashedBehind sb.algoSuiteId p sb.sigSegments[i + 1]?, ss.ski, sb.algoSuiteId,
            ss.signature, ss.sigLen⟩⟩, []⟩) ∧
      (clBgpsecVerify beyond oracle (some bpa) numberKeys (some (keys.map some)) (some p)
          localAs).checks =
        cs.takeWhile (succeeds oracle) ++ (cs.dropWhile (succeeds oracle)).take 1 ∧
      ((clBgpsecVerify beyond oracle (some bpa) numberKeys (some (keys.map some)) (some p)
          localAs).outcome = .ret .success ↔ ∀ c ∈ cs, oracle c.check = some .success) := by
  refine ⟨pathChecks sb.algoSuiteId p localAs bpa.pathSegments sb.sigSegments keys,
    ?_, fun i seg ss key hseg hss hkey => pathChecks_getElem _ _ _ hseg hss hkey, ?_, ?_⟩
  · rw [pathChecks_eq_checksBy]
    exact checksBy_length _ _ _ _ _ _ h.signatures (by rw [List.length_map, h.keys])
  · rw [h.run_eq hnumber, execPlan_checks]
  · rw [h.run_eq hnumber, execPlan_success_iff]
    simp

/-- Two hops, from AS 1 over AS 2 to AS 3, and the prefix 10.0.0.0/8; all checks succeed. -/
theorem clBgpsecVerify_consistent_two_hops :
    (clBgpsecVerify zeros (fun _ => some .success)
      (some ⟨14, [⟨2, 1, 0⟩, ⟨1, 1, 0⟩], [⟨51, 1, [⟨some (List.replicate 20 2), 2, some [8, 9]⟩,
        ⟨some (List.replicate 20 1), 2, some [6, 7]⟩]⟩]⟩) 2
      (some ([⟨1, 2, List.replicate 20 2, 0, none, rfl⟩,
        ⟨1, 1, List.replicate 20 1, 0, none, rfl⟩].map some))
      (some ⟨8, [10, 0, 0, 0], by decide⟩) 3).outcome = .ret .success := by
  have hconsistent : Consistent
      ⟨14, [⟨2, 1, 0⟩, ⟨1, 1, 0⟩], [⟨51, 1, [⟨some (List.replicate 20 2), 2, some [8, 9]⟩,
        ⟨some (List.replicate 20 1), 2, some [6, 7]⟩]⟩]⟩
      ⟨51, 1, [⟨some (List.replicate 20 2), 2, some [8, 9]⟩,
        ⟨some (List.replicate 20 1), 2, some [6, 7]⟩]⟩
      [⟨1, 2, List.replicate 20 2, 0, none, rfl⟩, ⟨1, 1, List.replicate 20 1, 0, none, rfl⟩] := by
    refine ⟨by decide, by decide, rfl, rfl, ?_, rfl⟩
    intro ss hss
    rcases List.mem_cons.mp hss with rfl | hss
    · exact ⟨⟨⟨_, rfl, rfl⟩, ⟨_, rfl, rfl⟩⟩, by decide⟩
    · rcases List.mem_singleton.mp hss with rfl
      exact ⟨⟨⟨_, rfl, rfl⟩, ⟨_, rfl, rfl⟩⟩, by decide⟩
  obtain ⟨cs, -, -, -, hsuccess⟩ := clBgpsecVerify_consistent hconsistent 2 rfl
    zeros (fun _ => some .success) ⟨8, [10, 0, 0, 0], by decide⟩ 3
  exact hsuccess.mpr fun _ _ => rfl

end SrxNote.Crypto
