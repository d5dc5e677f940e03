import SrxNote.Quagga.Proofs.SigLoop

/-!
# The steps of `bgpsec_parse`

One lemma for each part of the parser, in terms of the octets: what the loop
over the path segments reads and leaves, what the block loop does on a block
and at its end, and how `bgpsec_parse` is put together from them.
-/

namespace SrxNote.Quagga
open SrxNote.Bgpsec

/-- A path segment is read off six octets. -/
theorem pathSegment_of_le {s : Stream} (h : 6 ≤ s.length) :
    ∃ seg s', s = PathSegment.wire seg ++ s' := by
  match s, h with
  | p :: f :: a :: b :: c :: d :: s', _ =>
      refine ⟨⟨ofBe32 a b c d, p, f⟩, s', ?_⟩
      rw [PathSegment.wire, be32_ofBe32]
      rfl

theorem parsePathSegments_wire (n : Nat) (seg : PathSegment) (s : Stream) :
    parsePathSegments (n + 1) (seg.wire ++ s) =
      (seg :: (parsePathSegments n s).1, (parsePathSegments n s).2) := by
  have hlen : ¬ (seg.wire ++ s).length < octetSecurePathSegment := by
    rw [List.length_append, PathSegment.wire_length, octetSecurePathSegment]
    omega
  have hwire : seg.wire ++ s = seg.pCount :: seg.flags :: (be32 seg.as ++ s) := rfl
  rw [parsePathSegments, if_neg hlen, hwire]
  simp only [streamGetc_cons, streamGetl_be32]

/-- The loop over the path segments reads as many whole segments as there are, up to `n`, and
    reports an error when that is fewer. -/
theorem parsePathSegments_spec (n : Nat) (s : Stream) :
    ∃ segs, parsePathSegments n s = (segs, pathRest n s, decide (s.length < 6 * n)) ∧
      s = segs.flatMap PathSegment.wire ++ pathRest n s ∧ segs.length = min n (s.length / 6) := by
  induction n generalizing s with
  | zero => exact ⟨[], by simp [parsePathSegments, pathRest], by simp [pathRest], by simp⟩
  | succ n ih =>
      by_cases hlen : s.length < 6
      · have hrest : pathRest (n + 1) s = s := by
          rw [pathRest, Nat.div_eq_of_lt hlen, Nat.min_zero]
          rfl
        refine ⟨[], ?_, by rw [hrest]; rfl, ?_⟩
        · rw [parsePathSegments, octetSecurePathSegment, if_pos hlen, hrest,
            decide_eq_true (by omega : s.length < 6 * (n + 1))]
        · rw [Nat.div_eq_of_lt hlen, Nat.min_zero]
          rfl
      · obtain ⟨seg, t, rfl⟩ := pathSegment_of_le (Nat.le_of_not_lt hlen)
        obtain ⟨segs, hparse, hwire, hcount⟩ := ih t
        have hlen' : (seg.wire ++ t).length = t.length + 6 := by
          rw [List.length_append, PathSegment.wire_length, Nat.add_comm]
        have hmin : min (n + 1) ((t.length + 6) / 6) = min n (t.length / 6) + 1 := by omega
        have hrest : pathRest (n + 1) (seg.wire ++ t) = pathRest n t := by
          have hdrop : 6 * (min n (t.length / 6) + 1) =
              seg.wire.length + 6 * min n (t.length / 6) := by
            rw [PathSegment.wire_length]
            omega
          rw [pathRest, pathRest, hlen', hmin, hdrop, List.drop_append,
            List.drop_eq_nil_of_le (Nat.le_add_right _ _), Nat.add_sub_cancel_left, List.nil_append]
        refine ⟨seg :: segs, ?_, ?_, ?_⟩
        · have hiff : (t.length + 6 < 6 * (n + 1)) ↔ (t.length < 6 * n) := by omega
          rw [parsePathSegments_wire, hparse, hrest, hlen', decide_eq_decide.mpr hiff]
        · rw [List.flatMap_cons, List.append_assoc, hrest, ← hwire]
        · rw [List.length_cons, hcount, hlen', hmin]

/-- Octets that start with whole segments are read as these. -/
theorem parsePathSegments_flatMap (segs : List PathSegment) (t : Stream) :
    parsePathSegments segs.length (segs.flatMap PathSegment.wire ++ t) = (segs, t, false) := by
  induction segs with
  | nil => rfl
  | cons seg segs ih =>
      rw [List.flatMap_cons, List.append_assoc, List.length_cons, parsePathSegments_wire, ih]

/-- The header test of the block loop passes exactly on a `BlockHeader`. -/
theorem blockHeader_of_getw {s : Stream}
    (h : ¬ ((streamGetw s).1.toNat < 2 ∨
      (streamGetw s).2.length < (streamGetw s).1.toNat - 2)) :
    BlockHeader s (streamGetw s).1 (streamGetc (streamGetw s).2).1
      (streamGetc (streamGetw s).2).2 := by
  by_cases hs : s.length < 2
  · rw [streamGetw_of_lt hs] at h
    exact absurd (Or.inl Nat.zero_lt_two) h
  · obtain ⟨t, ht, ht'⟩ := streamGetw_of_le (Nat.le_of_not_lt hs)
    rw [ht'] at h ⊢
    exact ⟨t, ht, by omega, by omega, rfl⟩

theorem BlockHeader.getw {s rest : Stream} {len : UInt16} {algo : UInt8}
    (h : BlockHeader s len algo rest) :
    0 < s.length ∧ (streamGetw s).1 = len ∧ streamGetc (streamGetw s).2 = (algo, rest) ∧
      ¬ (len.toNat < 2 ∨ (streamGetw s).2.length < len.toNat - 2) := by
  obtain ⟨t, rfl, hlen, hle, hc⟩ := h
  rw [streamGetw_be16]
  refine ⟨?_, rfl, hc, ?_⟩
  · rw [List.length_append, be16_length]
    omega
  · dsimp only
    omega

theorem BlockHeader.unique {s rest rest' : Stream} {len len' : UInt16} {algo algo' : UInt8}
    (h : BlockHeader s len algo rest) (h' : BlockHeader s len' algo' rest') :
    len' = len ∧ rest' = rest := by
  obtain ⟨-, hlen, hc, -⟩ := h.getw
  obtain ⟨-, hlen', hc', -⟩ := h'.getw
  rw [hc] at hc'
  exact ⟨hlen'.symm.trans hlen, (congrArg Prod.snd hc').symm⟩

/-- One block of the block loop, once its header is accepted. -/
theorem parseSigBlocks_block {s rest : Stream} {len : UInt16} {algo : UInt8}
    (h : BlockHeader s len algo rest) (fuel : Nat) (numSeg : UInt16) (k : Nat) :
    parseSigBlocks fuel numSeg (k + 1) s =
      match Loop.run sigLoopStep fuel ⟨[], len - 3, rest⟩ with
      | none => none
      | some (l, syntaxError) =>
          if l.sigSegments.length ≠ numSeg.toNat then some ([⟨len, algo, l.sigSegments⟩], true)
          else
            match parseSigBlocks fuel numSeg k l.s with
            | none => none
            | some (sbs, syntaxError') =>
                some (⟨len, algo, l.sigSegments⟩ :: sbs, syntaxError || syntaxError') := by
  obtain ⟨hpos, rfl, hc, hok⟩ := h.getw
  rw [parseSigBlocks, if_pos hpos]
  simp only [hc]
  exact if_neg hok

/-- What the block loop returns past an accepted header: the block alone when it does not have the
    right number of signature segments, else the block and what follows it. -/
theorem parseSigBlocks_block_iff {s rest : Stream} {len : UInt16} {algo : UInt8}
    (h : BlockHeader s len algo rest) {fuel : Nat} {numSeg : UInt16} {k : Nat}
    {r : List SigBlock × Bool} :
    parseSigBlocks fuel numSeg (k + 1) s = some r ↔
      ∃ l cut, Loop.run sigLoopStep fuel ⟨[], len - 3, rest⟩ = some (l, cut) ∧
        ((l.sigSegments.length ≠ numSeg.toNat ∧ r = ([⟨len, algo, l.sigSegments⟩], true)) ∨
          (l.sigSegments.length = numSeg.toNat ∧ ∃ sbs cut',
            parseSigBlocks fuel numSeg k l.s = some (sbs, cut') ∧
            r = (⟨len, algo, l.sigSegments⟩ :: sbs, cut || cut'))) := by
  rw [parseSigBlocks_block h]
  constructor
  · intro heq
    cases hrun : Loop.run sigLoopStep fuel ⟨[], len - 3, rest⟩ with
    | none =>
        rw [hrun] at heq
        cases heq
    | some res =>
        obtain ⟨l, cut⟩ := res
        rw [hrun] at heq
        dsimp only at heq
        refine ⟨l, cut, rfl, ?_⟩
        by_cases hcount : l.sigSegments.length = numSeg.toNat
        · rw [if_neg (not_not_intro hcount)] at heq
          cases hrest : parseSigBlocks fuel numSeg k l.s with
          | none =>
              rw [hrest] at heq
              cases heq
          | some r' =>
              rw [hrest] at heq
              cases heq
              exact Or.inr ⟨hcount, r'.1, r'.2, rfl, rfl⟩
        · rw [if_pos hcount] at heq
          cases heq
          exact Or.inl ⟨hcount, rfl⟩
  · rintro ⟨l, cut, hrun, ⟨hcount, rfl⟩ | ⟨hcount, sbs, cut', hrest, rfl⟩⟩
    · rw [hrun]
      exact if_pos hcount
    · rw [hrun]
      dsimp only
      rw [if_neg (not_not_intro hcount), hrest]

/-- Octets that are no block header end the block loop, with an error unless there are none. -/
theorem parseSigBlocks_end {s : Stream} (h : ∀ len algo rest, ¬ BlockHeader s len algo rest)
    (numSeg : UInt16) (k : Nat) :
    ∃ sbs, (s = [] → sbs = []) ∧
      ∀ fuel, parseSigBlocks fuel numSeg (k + 1) s = some (sbs, decide (0 < s.length)) := by
  by_cases hpos : 0 < s.length
  · have hbad : (streamGetw s).1.toNat < 2 ∨
        (streamGetw s).2.length < (streamGetw s).1.toNat - 2 := by
      by_contra hok
      exact h _ _ _ (blockHeader_of_getw hok)
    refine ⟨[⟨(streamGetw s).1, 0, []⟩], ?_, fun fuel => ?_⟩
    · rintro rfl
      exact absurd hpos (Nat.lt_irrefl 0)
    · rw [parseSigBlocks, if_pos hpos]
      simp only [if_pos hbad, decide_eq_true hpos]
  · refine ⟨[], fun _ => rfl, fun fuel => ?_⟩
    rw [parseSigBlocks, if_neg hpos, decide_eq_false hpos]

/-- The remainder test on the Secure_Path length, an `int`, passes exactly on `2 + 6 n`. -/
theorem tmod_securePathLen_iff (spl : UInt16) :
    ((spl.toNat : Int) - octetSecurePathLen).tmod octetSecurePathSegment = 0 ↔
      ∃ n, spl.toNat = 2 + 6 * n := by
  have h2 : ((octetSecurePathLen : Nat) : Int) = 2 := rfl
  have h6 : ((octetSecurePathSegment : Nat) : Int) = 6 := rfl
  rw [h2, h6]
  constructor
  · intro h
    have hdvd : (6 : Int) ∣ (spl.toNat : Int) - 2 := Int.dvd_of_tmod_eq_zero h
    refine ⟨(spl.toNat - 2) / 6, ?_⟩
    omega
  · rintro ⟨n, hn⟩
    apply Int.tmod_eq_zero_of_dvd
    omega

theorem toNat_ofNat16 {n : Nat} (h : n < 2 ^ 16) : (UInt16.ofNat n).toNat = n := by
  rw [UInt16.toNat_ofNat', Nat.mod_eq_of_lt h]

theorem toNat_ofNat16_toUInt64 {n : Nat} (h : n < 2 ^ 16) :
    (UInt16.ofNat n).toUInt64.toNat = n := by
  rw [UInt16.toNat_toUInt64, toNat_ofNat16 h]

/-- `bgpsec_parse` on octets that start with a Secure_Path length of `n` segments. -/
theorem bgpsecParse_path {n : Nat} (hn : 2 + 6 * n < 2 ^ 16) (t : Stream) (fuel : Nat) :
    bgpsecParse fuel (be16 (UInt16.ofNat (2 + 6 * n)) ++ t)
        (be16 (UInt16.ofNat (2 + 6 * n)) ++ t).length =
      match parseSigBlocks fuel (UInt16.ofNat n) bgpsecMaxSigblock (pathRest n t) with
      | none => none
      | some (sbs, syntaxError) =>
          if (decide (t.length < 6 * n) || decide ((pathRest n t).length < 1)) || syntaxError then
            some none
          else
            some (some ⟨(UInt16.ofNat (2 + 6 * n)).toUInt64, (parsePathSegments n t).1, sbs⟩) := by
  obtain ⟨segs, hparse, -, -⟩ := parsePathSegments_spec n t
  have hlen : ¬ ((be16 (UInt16.ofNat (2 + 6 * n)) ++ t).length <
      (be16 (UInt16.ofNat (2 + 6 * n)) ++ t).length ∨
      (be16 (UInt16.ofNat (2 + 6 * n)) ++ t).length ≤ 0) := by
    rw [List.length_append, be16_length]
    omega
  have hmod := (tmod_securePathLen_iff (UInt16.ofNat (2 + 6 * n))).mpr ⟨n, toNat_ofNat16 hn⟩
  have hseg : numSecurePathSegment (UInt16.ofNat (2 + 6 * n)).toUInt64 = UInt16.ofNat n := by
    apply UInt16.toNat_inj.mp
    rw [numSecurePathSegment_of_eq (toNat_ofNat16_toUInt64 hn), UInt16.toNat_ofNat']
  have hsegNat : (UInt16.ofNat n).toNat = n := toNat_ofNat16 (by omega)
  rw [bgpsecParse, if_neg hlen, streamGetwFrom, streamGetw_be16]
  dsimp only
  rw [hseg, hsegNat, hparse]
  exact if_neg (not_not_intro hmod)

/-- Without a Secure_Path length of that form `bgpsec_parse` returns NULL. -/
theorem bgpsecParse_no_path {octets : Stream}
    (h : ∀ n t, 2 + 6 * n < 2 ^ 16 → octets ≠ be16 (UInt16.ofNat (2 + 6 * n)) ++ t) (fuel : Nat) :
    bgpsecParse fuel octets octets.length = some none := by
  rw [bgpsecParse]
  split
  · rfl
  · rename_i hlen
    have hmod : ((streamGetwFrom octets).toNat - octetSecurePathLen : Int).tmod
        octetSecurePathSegment ≠ 0 := by
      intro hmod
      obtain ⟨n, hn⟩ := (tmod_securePathLen_iff _).mp hmod
      have hlt := (streamGetwFrom octets).toNat_lt
      by_cases hs : octets.length < 2
      · rw [streamGetwFrom, streamGetw_of_lt hs] at hn
        change 0 = 2 + 6 * n at hn
        omega
      · obtain ⟨t, ht, -⟩ := streamGetw_of_le (Nat.le_of_not_lt hs)
        refine h n t (by omega) ?_
        rw [← hn, UInt16.ofNat_toNat]
        exact ht
    rw [if_pos hmod]

end SrxNote.Quagga
