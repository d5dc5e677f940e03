import Mathlib.Data.Prod.Lex
import SrxNote.Srx.BestPath

/-!
# The best path does not depend on the order

The steps of the patch decide two paths by one key: the local preference after
the policies, then whether the path is valid where valid paths are preferred. So
the scan over the paths of a prefix ends with a largest key in every order. A path
that is to be ignored is not decided this way: as the new one it never wins.
-/

namespace SrxNote.Srx

variable {β : Type}

/-- The result that the decision uses for a path. -/
def RibPath.state (bgp : BgpPolicy) (ri : RibPath β) : SRxResult :=
  srxCalcValidationState bgp.srxConfig ri.toBgpInfo

/-- The local preference after the policies, then VALID before all others where it is preferred. -/
def srxKey (bgp : BgpPolicy) (ri : RibPath β) : Nat ×ₗ Bool :=
  toLex ((srxLocPrevValue bgp (ri.pref bgp) (ri.state bgp)).toNat,
    checkFlag bgp.srxValPolicy srxValPolicyPreferValid && decide (ri.state bgp = .valid))

theorem srxKey_lt_iff (bgp : BgpPolicy) (a b : RibPath β) :
    srxKey bgp a < srxKey bgp b ↔
      srxLocPrevValue bgp (a.pref bgp) (a.state bgp) < srxLocPrevValue bgp (b.pref bgp) (b.state bgp) ∨
      (srxLocPrevValue bgp (a.pref bgp) (a.state bgp) =
          srxLocPrevValue bgp (b.pref bgp) (b.state bgp) ∧
        checkFlag bgp.srxValPolicy srxValPolicyPreferValid = true ∧
        a.state bgp ≠ .valid ∧ b.state bgp = .valid) := by
  rw [srxKey, srxKey, Prod.Lex.toLex_lt_toLex, UInt32.lt_iff_toNat_lt, UInt32.toNat_inj]
  cases checkFlag bgp.srxValPolicy srxValPolicyPreferValid <;>
    cases ha : decide (a.state bgp = .valid) <;> cases hb : decide (b.state bgp = .valid) <;>
    simp_all

/-- Two paths of equal weight, of which the new one is not ignored, are compared by their keys, and
    by the later steps where these are equal. -/
theorem bgpInfoCmp_eq {bgp : BgpPolicy} (hon : useEvaluation bgp = true)
    (later : RibPath β → RibPath β → Bool) {new exist : RibPath β} (hnew : new.flags.ignore = false)
    (hweight : new.attr.weight = exist.attr.weight) :
    bgpInfoCmp bgp later new (some exist) =
      if srxKey bgp exist < srxKey bgp new then true
      else if srxKey bgp new < srxKey bgp exist then false
      else later new exist := by
  have hcmp : bgpInfoCmp bgp later new (some exist) =
      if srxLocPrevValue bgp (exist.pref bgp) (exist.state bgp) <
          srxLocPrevValue bgp (new.pref bgp) (new.state bgp) then true
      else if srxLocPrevValue bgp (new.pref bgp) (new.state bgp) <
          srxLocPrevValue bgp (exist.pref bgp) (exist.state bgp) then false
      else if checkFlag bgp.srxValPolicy srxValPolicyPreferValid then
        if new.state bgp = .valid && exist.state bgp ≠ .valid then true
        else if new.state bgp ≠ .valid && exist.state bgp = .valid then false
        else later new exist
      else later new exist := by
    simp only [bgpInfoCmp, hon, hnew, hweight, Bool.and_false, Bool.false_eq_true, if_false,
      UInt32.lt_irrefl, gt_iff_lt, if_true, Bool.true_and]
    rfl
  rw [hcmp]
  simp only [srxKey_lt_iff]
  generalize srxLocPrevValue bgp (new.pref bgp) (new.state bgp) = newPref
  generalize srxLocPrevValue bgp (exist.pref bgp) (exist.state bgp) = existPref
  rcases Nat.lt_trichotomy newPref.toNat existPref.toNat with hlt | heq | hgt
  · have hne : existPref ≠ newPref := fun h => by simp [h] at hlt
    simp [UInt32.lt_iff_toNat_lt, hlt, hlt.not_gt, hne]
  · obtain rfl := UInt32.toNat_inj.mp heq
    cases checkFlag bgp.srxValPolicy srxValPolicyPreferValid <;>
      by_cases hn : new.state bgp = .valid <;> by_cases he : exist.state bgp = .valid <;>
      simp [hn, he]
  · simp [UInt32.lt_iff_toNat_lt, hgt]

/-- A new path that is ignored never wins. -/
theorem bgpInfoCmp_ignored {bgp : BgpPolicy} (hon : useEvaluation bgp = true)
    (later : RibPath β → RibPath β → Bool) {new : RibPath β} (hnew : new.flags.ignore = true)
    (exist : RibPath β) : bgpInfoCmp bgp later new (some exist) = false := by
  simp only [bgpInfoCmp, hon, hnew, Bool.and_self, if_true]

/-- A path with the larger key is preferred in both orders when it is not ignored itself. -/
theorem bgpInfoCmp_larger {bgp : BgpPolicy} (hon : useEvaluation bgp = true)
    (later : RibPath β → RibPath β → Bool) {new exist : RibPath β} (hnew : new.flags.ignore = false)
    (hweight : new.attr.weight = exist.attr.weight) (hlt : srxKey bgp exist < srxKey bgp new) :
    bgpInfoCmp bgp later new (some exist) = true ∧
      bgpInfoCmp bgp later exist (some new) = false := by
  refine ⟨by rw [bgpInfoCmp_eq hon later hnew hweight, if_pos hlt], ?_⟩
  cases hexist : exist.flags.ignore with
  | true => exact bgpInfoCmp_ignored hon later hexist new
  | false => rw [bgpInfoCmp_eq hon later hexist hweight.symm, if_neg hlt.not_gt, if_pos hlt]

/-- Among paths of one weight that are not ignored, `bgp_info_cmp` decides by the key. -/
theorem bgpInfoCmp_decided {bgp : BgpPolicy} (hon : useEvaluation bgp = true)
    (later : RibPath β → RibPath β → Bool) (weight : UInt32) :
    DecidedBy (bgpInfoCmp bgp later) (srxKey bgp)
      (fun ri => ri.flags.ignore = false ∧ ri.attr.weight = weight) := by
  refine ⟨fun _ _ => rfl, ?_, ?_⟩
  · intro new exist hnew hexist hlt
    exact (bgpInfoCmp_larger hon later hnew.1 (hnew.2.trans hexist.2.symm) hlt).1
  · intro new exist hnew hexist hlt
    exact (bgpInfoCmp_larger hon later hexist.1 (hexist.2.trans hnew.2.symm) hlt).2

theorem RibPath.not_ignore_of_useable {ri : RibPath β} (h : ri.unuseable = false) :
    ri.flags.ignore = false := by
  rw [RibPath.unuseable, Bool.or_eq_false_iff] at h
  exact h.2

/-- With evaluation on, the scan over paths of one weight ends in every order with a path that is not
    skipped and has the largest key of those, if there is one. A path that is not ignored is preferred
    to every path with a smaller key, in both orders, and is compared with one of an equal key by the
    later steps. -/
theorem best_path_order_independent (bgp : BgpPolicy) (hon : useEvaluation bgp = true)
    (later : RibPath β → RibPath β → Bool) (weight : UInt32) (paths : List (RibPath β))
    (hweight : ∀ ri ∈ paths, ri.attr.weight = weight) :
    ((∃ ri ∈ paths, ri.unuseable = false) → ∀ paths', paths'.Perm paths →
      ∃ best, bgpBestSelection bgp later paths' = some best ∧
        IsBest RibPath.unuseable (srxKey bgp) paths best) ∧
    ∀ new ∈ paths, ∀ exist ∈ paths, new.flags.ignore = false →
      (srxKey bgp exist < srxKey bgp new →
        bgpInfoCmp bgp later new (some exist) = true ∧
        bgpInfoCmp bgp later exist (some new) = false) ∧
      (srxKey bgp new = srxKey bgp exist →
        bgpInfoCmp bgp later new (some exist) = later new exist) := by
  have hdec := bgpInfoCmp_decided hon later weight
  constructor
  · rintro ⟨ri, hri, huse⟩ paths' hperm
    have hpaths' : ∀ x ∈ paths', x.unuseable = false →
        x.flags.ignore = false ∧ x.attr.weight = weight :=
      fun x hx hx' => ⟨x.not_ignore_of_useable hx', hweight x (hperm.mem_iff.mp hx)⟩
    obtain ⟨best, hscan, hbest⟩ := hdec.scan_isBest hpaths' ⟨ri, hperm.mem_iff.mpr hri, huse⟩
    exact ⟨best, hscan, hbest.of_perm hperm⟩
  · intro new hnew exist hexist hignore
    have hsame := (hweight new hnew).trans (hweight exist hexist).symm
    refine ⟨bgpInfoCmp_larger hon later hignore hsame, fun heq => ?_⟩
    rw [bgpInfoCmp_eq hon later hignore hsame, heq]
    simp

/-- The policy of `srx_set_default`, and valid paths are preferred. -/
def preferValidPolicy : BgpPolicy :=
  ⟨srxSetDefault, srxValPolicyPreferValid, ⟨0, 0, 0⟩, ⟨0, 0, 0⟩, ⟨0, 0, 0⟩, 100⟩

/-- A path with a local preference and a result of the origin validation. -/
def learnedPathWith (localPref : UInt32) (roa : SRxResult) (flags : InfoFlags) : RibPath Unit :=
  ⟨⟨⟨0, some localPref, ()⟩, none, 0, 0, roa, .undefined⟩, flags⟩

/-- A path without a flag. -/
def plainPath : RibPath Unit := learnedPathWith 100 .notfound ⟨false, false, false, false⟩

/-- A better path that is ignored. -/
def ignoredPath : RibPath Unit := learnedPathWith 200 .invalid ⟨false, false, false, true⟩

/-- The best of two paths of one local preference is the valid one. -/
theorem preferValidPolicy_best :
    ∃ best, bgpBestSelection preferValidPolicy (fun _ _ => true)
        [learnedPathWith 100 .valid ⟨false, false, false, false⟩, plainPath] = some best ∧
      srxKey preferValidPolicy plainPath ≤ srxKey preferValidPolicy best := by
  have h := best_path_order_independent preferValidPolicy (by decide) (fun _ _ => true) 0
    [plainPath, learnedPathWith 100 .valid ⟨false, false, false, false⟩]
    (by simp [plainPath, learnedPathWith])
  obtain ⟨best, hbest, hmax⟩ := h.1 ⟨plainPath, by simp, rfl⟩ _ (List.Perm.swap _ _ _)
  exact ⟨best, hbest, hmax.max plainPath (by simp) rfl⟩

/-- A list of one ignored path has no best path, and an ignored path with the larger key is preferred
    to another one in neither order. -/
theorem ignoredPath_not_decided :
    useEvaluation preferValidPolicy = true ∧
    (∀ later, bgpBestSelection preferValidPolicy later [ignoredPath] = none) ∧
    srxKey preferValidPolicy plainPath < srxKey preferValidPolicy ignoredPath ∧
    ∀ later, bgpInfoCmp preferValidPolicy later ignoredPath (some plainPath) = false ∧
      bgpInfoCmp preferValidPolicy later plainPath (some ignoredPath) = false := by
  refine ⟨by decide, fun _ => rfl, ?_, fun later => ⟨rfl, rfl⟩⟩
  rw [srxKey_lt_iff]
  exact .inl (by decide)

end SrxNote.Srx
