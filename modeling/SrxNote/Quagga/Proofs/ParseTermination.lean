import SrxNote.Quagga.Proofs.ParseSteps

/-!
# Termination of `bgpsec_parse`

The path segments and the signature blocks are counted, so `bgpsec_parse`
returns exactly when the loop over the signature segments is left in every
block it enters.
-/

namespace SrxNote.Quagga
open SrxNote.Bgpsec

theorem parseSigBlocks_mono {fuel fuel' : Nat} (hle : fuel ≤ fuel') {numSeg : UInt16} {k : Nat}
    {s : Stream} {r : List SigBlock × Bool} (h : parseSigBlocks fuel numSeg k s = some r) :
    parseSigBlocks fuel' numSeg k s = some r := by
  induction k generalizing s r with
  | zero => exact h
  | succ k ih =>
      by_cases hh : ∃ len algo rest, BlockHeader s len algo rest
      · obtain ⟨len, algo, rest, hh⟩ := hh
        obtain ⟨l, cut, hrun, hcases⟩ := (parseSigBlocks_block_iff hh).mp h
        apply (parseSigBlocks_block_iff hh).mpr
        refine ⟨l, cut, Loop.run_mono hle hrun, ?_⟩
        rcases hcases with hother | ⟨hcount, sbs, cut', hrest, hr⟩
        · exact Or.inl hother
        · exact Or.inr ⟨hcount, sbs, cut', ih hrest, hr⟩
      · simp only [not_exists] at hh
        obtain ⟨sbs, -, hend⟩ := parseSigBlocks_end hh numSeg k
        rw [hend] at h ⊢
        exact h

/-- A block and the blocks behind it are read with the same fuel. -/
theorem parseSigBlocks_of_run {s rest : Stream} {len : UInt16} {algo : UInt8}
    (hh : BlockHeader s len algo rest) {fuel₁ fuel₂ : Nat} {numSeg : UInt16} {k : Nat}
    {l : SigLoop} {cut : Bool} {r : List SigBlock × Bool}
    (hrun : Loop.run sigLoopStep fuel₁ ⟨[], len - 3, rest⟩ = some (l, cut))
    (hcount : l.sigSegments.length = numSeg.toNat)
    (hrest : parseSigBlocks fuel₂ numSeg k l.s = some r) :
    parseSigBlocks (max fuel₁ fuel₂) numSeg (k + 1) s =
      some (⟨len, algo, l.sigSegments⟩ :: r.1, cut || r.2) := by
  have hrun' := Loop.run_mono (Nat.le_max_left fuel₁ fuel₂) hrun
  have hrest' := parseSigBlocks_mono (Nat.le_max_right fuel₁ fuel₂) hrest
  apply (parseSigBlocks_block_iff hh).mpr
  exact ⟨l, cut, hrun', Or.inr ⟨hcount, r.1, r.2, hrest', rfl⟩⟩

/-- The block loop ends exactly when none of the blocks it enters runs dry on an odd debt. -/
theorem parseSigBlocks_halts_iff (numSeg : UInt16) (k : Nat) (s : Stream) :
    (∃ fuel r, parseSigBlocks fuel numSeg k s = some r) ↔ ¬ Starves numSeg.toNat k s := by
  induction k generalizing s with
  | zero =>
      refine iff_of_true ⟨0, _, rfl⟩ ?_
      intro h
      cases h
  | succ k ih =>
      by_cases hh : ∃ len algo rest, BlockHeader s len algo rest
      · obtain ⟨len, algo, rest, hh⟩ := hh
        constructor
        · rintro ⟨fuel, r, h⟩ hst
          obtain ⟨l, cut, hrun, hcases⟩ := (parseSigBlocks_block_iff hh).mp h
          cases hst with
          | here hh' hdry =>
              obtain ⟨rfl, rfl⟩ := hh.unique hh'
              exact (halts_sigLoop_iff _ _ []).mp ⟨_, Loop.eval_of_run hrun⟩ hdry
          | later hh' hread' hcount hst' =>
              obtain ⟨rfl, rfl⟩ := hh.unique hh'
              have hread := run_sigLoopStep_iff.mp ⟨fuel, l.remainingBytes, hrun⟩
              obtain ⟨rfl, rfl, -⟩ := hread.unique hread'
              rcases hcases with ⟨hother, -⟩ | ⟨-, sbs, cut', hrest, -⟩
              · exact hother hcount
              · exact (ih l.s).mp ⟨fuel, _, hrest⟩ hst'
        · intro hst
          have hlive : ¬ RunsDry (len - 3) rest := fun hdry => hst (.here hh hdry)
          obtain ⟨⟨l, cut⟩, heval⟩ := (halts_sigLoop_iff _ _ []).mpr hlive
          obtain ⟨fuel₁, hrun⟩ := Loop.run_iff_eval.mpr heval
          by_cases hcount : l.sigSegments.length = numSeg.toNat
          · have hread := run_sigLoopStep_iff.mp ⟨fuel₁, l.remainingBytes, hrun⟩
            have hst' : ¬ Starves numSeg.toNat k l.s :=
              fun h => hst (.later hh hread hcount h)
            obtain ⟨fuel₂, r', hrest⟩ := (ih l.s).mpr hst'
            exact ⟨_, _, parseSigBlocks_of_run hh hrun hcount hrest⟩
          · refine ⟨fuel₁, ([⟨len, algo, l.sigSegments⟩], true), ?_⟩
            exact (parseSigBlocks_block_iff hh).mpr ⟨l, cut, hrun, Or.inl ⟨hcount, rfl⟩⟩
      · simp only [not_exists] at hh
        obtain ⟨sbs, -, hend⟩ := parseSigBlocks_end hh numSeg k
        refine iff_of_true ⟨0, _, hend 0⟩ ?_
        intro hst
        cases hst with
        | here hh' _ => exact hh _ _ _ hh'
        | later hh' _ _ _ => exact hh _ _ _ hh'

/-- Past a Secure_Path length, `bgpsec_parse` returns when its block loop does. -/
theorem bgpsecParse_returns_iff {n : Nat} (hn : 2 + 6 * n < 2 ^ 16) (t : Stream) (fuel : Nat) :
    (∃ r, bgpsecParse fuel (be16 (UInt16.ofNat (2 + 6 * n)) ++ t)
        (be16 (UInt16.ofNat (2 + 6 * n)) ++ t).length = some r) ↔
      ∃ r, parseSigBlocks fuel (UInt16.ofNat n) bgpsecMaxSigblock (pathRest n t) = some r := by
  rw [bgpsecParse_path hn t fuel]
  cases hblocks : parseSigBlocks fuel (UInt16.ofNat n) bgpsecMaxSigblock (pathRest n t) with
  | none => simp
  | some r =>
      obtain ⟨sbs, syntaxError⟩ := r
      refine iff_of_true ?_ ⟨_, rfl⟩
      dsimp only
      split
      · exact ⟨_, rfl⟩
      · exact ⟨_, rfl⟩

theorem bgpsecParse_path_halts_iff {n : Nat} (hn : 2 + 6 * n < 2 ^ 16) (t : Stream) :
    (∃ fuel r, bgpsecParse fuel (be16 (UInt16.ofNat (2 + 6 * n)) ++ t)
        (be16 (UInt16.ofNat (2 + 6 * n)) ++ t).length = some r) ↔
      ¬ Starves n bgpsecMaxSigblock (pathRest n t) := by
  have hblocks := parseSigBlocks_halts_iff (UInt16.ofNat n) bgpsecMaxSigblock (pathRest n t)
  rw [toNat_ofNat16 (by omega)] at hblocks
  rw [← hblocks]
  exact exists_congr fun fuel => bgpsecParse_returns_iff hn t fuel

theorem securePathLen_inj {n n' : Nat} (hn : 2 + 6 * n < 2 ^ 16) (hn' : 2 + 6 * n' < 2 ^ 16)
    {t t' : Stream}
    (h : be16 (UInt16.ofNat (2 + 6 * n)) ++ t = be16 (UInt16.ofNat (2 + 6 * n')) ++ t') :
    n = n' ∧ t = t' := by
  have hw := congrArg (fun s => (streamGetw s).1.toNat) h
  have ht := congrArg (fun s => (streamGetw s).2) h
  simp only [streamGetw_be16, toNat_ofNat16 hn, toNat_ofNat16 hn'] at hw ht
  exact ⟨by omega, ht⟩

/-- `bgpsec_parse` returns exactly on the attributes that do not starve. -/
theorem bgpsecParse_halts_iff (octets : Stream) :
    (∃ fuel r, bgpsecParse fuel octets octets.length = some r) ↔ ¬ AttrStarves octets := by
  by_cases hpath : ∃ n t, 2 + 6 * n < 2 ^ 16 ∧ octets = be16 (UInt16.ofNat (2 + 6 * n)) ++ t
  · obtain ⟨n, t, hn, rfl⟩ := hpath
    have hstarves : AttrStarves (be16 (UInt16.ofNat (2 + 6 * n)) ++ t) ↔
        Starves n bgpsecMaxSigblock (pathRest n t) := by
      constructor
      · rintro ⟨n', t', hn', heq, hst⟩
        obtain ⟨rfl, rfl⟩ := securePathLen_inj hn hn' heq
        exact hst
      · intro hst
        exact ⟨n, t, hn, rfl, hst⟩
    rw [hstarves]
    exact bgpsecParse_path_halts_iff hn t
  · refine iff_of_true ⟨0, none, bgpsecParse_no_path ?_ 0⟩ ?_
    · intro n t hn heq
      exact hpath ⟨n, t, hn, heq⟩
    · rintro ⟨n, t, hn, heq, -⟩
      exact hpath ⟨n, t, hn, heq⟩

/-- One segment of AS 1 and a block of length 4 that holds a single octet after its algorithm
    suite: the loop over its signature segments is never left. -/
theorem bgpsecParse_never_returns :
    ¬ ∃ fuel r, bgpsecParse fuel [0, 8, 1, 0, 0, 0, 0, 1, 0, 4, 1, 0] 12 = some r := by
  intro h
  have hn : 2 + 6 * 1 < 2 ^ 16 := by decide
  refine (bgpsecParse_path_halts_iff hn [1, 0, 0, 0, 0, 1, 0, 4, 1, 0]).mp h ?_
  have hheader : BlockHeader [0, 4, 1, 0] 4 1 [0] :=
    ⟨[1, 0], by decide, by decide, by decide, rfl⟩
  exact .here hheader (.dry (by decide) (by decide))

end SrxNote.Quagga
