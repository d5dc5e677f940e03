import SrxNote.Quagga.AsPath

/-!
# The AS_PATH is one AS_SEQUENCE

The stream has room for the larger one of the number of segments and the sum of
the pCounts, and the count octet holds that number, cut to an octet. The octets are
an AS_SEQUENCE exactly when that number is the sum of the pCounts and fits an octet
(`srxConvertToAspath_sequence_iff`).
-/

namespace SrxNote.Quagga
open SrxNote.Bgpsec

/-- Each AS number as often as its pCount says. -/
def pathAsNumbers (segs : List PathSegment) : List UInt32 :=
  segs.flatMap fun seg => List.replicate seg.pCount.toNat seg.as

/-- The stream is an AS_SEQUENCE of these AS numbers: its type, their number, and they themselves; and
    its length is that of the octets that were written. -/
def IsSequenceOf (stream : AspathStream) (asNumbers : List UInt32) : Prop :=
  ∃ count : UInt8, stream.octets = 2 :: count :: asNumbers.flatMap be32 ∧
    count.toNat = asNumbers.length ∧ stream.streamLen.toNat = stream.octets.length

/-! ### The lengths -/

theorem pathAsNumbers_length (segs : List PathSegment) :
    (pathAsNumbers segs).length = (segs.map fun seg => seg.pCount.toNat).sum := by
  simp [pathAsNumbers, List.length_flatMap]

theorem flatMap_be32_length (asNumbers : List UInt32) :
    (asNumbers.flatMap be32).length = 4 * asNumbers.length := by
  induction asNumbers with
  | nil => rfl
  | cons as asNumbers ih =>
      rw [List.flatMap_cons, List.length_append, be32_length, ih, List.length_cons]
      omega

theorem totalPCount_foldl (segs : List PathSegment) (t : UInt64) :
    (segs.foldl (fun pcntTot seg => pcntTot + seg.pCount.toUInt64) t).toNat =
      (t.toNat + (pathAsNumbers segs).length) % 2 ^ 64 := by
  induction segs generalizing t with
  | nil =>
      have hlt := t.toNat_lt
      simp [pathAsNumbers, Nat.mod_eq_of_lt hlt]
  | cons seg segs ih =>
      rw [List.foldl_cons, ih, UInt64.toNat_add, UInt8.toNat_toUInt64]
      simp only [pathAsNumbers, List.flatMap_cons, List.length_append, List.length_replicate]
      omega

theorem totalPCount_toNat (segs : List PathSegment) :
    (totalPCount segs).toNat = (pathAsNumbers segs).length % 2 ^ 64 := by
  rw [totalPCount, totalPCount_foldl]
  simp

/-- The length of the stream, for a sum of pCounts that fits an octet. -/
theorem streamLen_toNat {bpa : BgpsecPathAttr}
    (hlen : bpa.securePathLen.toNat = 2 + 6 * bpa.pathSegments.length)
    (hsum : (pathAsNumbers bpa.pathSegments).length ≤ 255) :
    (srxConvertToAspath bpa).streamLen.toNat =
      4 * max bpa.pathSegments.length (pathAsNumbers bpa.pathSegments).length + 2 := by
  have htotal := totalPCount_toNat bpa.pathSegments
  have hlt := bpa.securePathLen.toNat_lt
  have hsub : (bpa.securePathLen - 2).toNat = 6 * bpa.pathSegments.length := by
    rw [UInt64.toNat_sub_of_le, hlen]
    · exact Nat.add_sub_cancel_left 2 _
    · rw [UInt64.le_iff_toNat_le, hlen]
      exact Nat.le_add_right 2 _
  have hsegs : ((bpa.securePathLen - 2) / 6 * 4 + 2).toNat = 4 * bpa.pathSegments.length + 2 := by
    rw [UInt64.toNat_add, UInt64.toNat_mul, UInt64.toNat_div, hsub]
    simp only [UInt64.reduceToNat]
    rw [Nat.mul_div_cancel_left _ (by decide)]
    omega
  have hcounts : (totalPCount bpa.pathSegments * 4 + 2).toNat =
      4 * (pathAsNumbers bpa.pathSegments).length + 2 := by
    rw [UInt64.toNat_add, UInt64.toNat_mul, htotal]
    simp only [UInt64.reduceToNat]
    omega
  show (if (bpa.securePathLen - 2) / 6 * 4 + 2 ≤ totalPCount bpa.pathSegments * 4 + 2
    then totalPCount bpa.pathSegments * 4 + 2 else (bpa.securePathLen - 2) / 6 * 4 + 2).toNat = _
  split
  · rename_i hle
    rw [UInt64.le_iff_toNat_le] at hle
    omega
  · rename_i hle
    rw [UInt64.le_iff_toNat_le] at hle
    omega

/-! ### The octets -/

theorem putAsNumbers_eq {size : Nat} (s : Stream) (as : UInt32) (pcnt : Nat)
    (hfit : s.length + 4 * pcnt ≤ size) :
    putAsNumbers size s as pcnt = s ++ (List.replicate pcnt as).flatMap be32 := by
  induction pcnt generalizing s with
  | zero => simp [putAsNumbers]
  | succ pcnt ih =>
      have hput : streamPutlWithin size s as = s ++ be32 as := by
        rw [streamPutlWithin, if_neg (by omega), streamPutl]
      rw [putAsNumbers, hput, ih _ (by rw [List.length_append, be32_length]; omega),
        List.replicate_succ, List.flatMap_cons, List.append_assoc]

/-- With a bound that all segments meet, each of them is written. -/
theorem putAsSegments_eq {size : Nat} (s : Stream) (iter : UInt16) (segs : List PathSegment)
    (hiter : segs.length ≤ iter.toNat) (hfit : s.length + 4 * (pathAsNumbers segs).length ≤ size) :
    putAsSegments size s iter segs = s ++ (pathAsNumbers segs).flatMap be32 := by
  induction segs generalizing s iter with
  | nil => simp [putAsSegments, pathAsNumbers]
  | cons seg segs ih =>
      have hiter' : segs.length + 1 ≤ iter.toNat := hiter
      have hpos : iter ≠ 0 := by
        rintro rfl
        simp at hiter'
      have hone : (iter - 1).toNat = iter.toNat - 1 := by
        rw [UInt16.toNat_sub_of_le]
        · rfl
        · rw [UInt16.le_iff_toNat_le]
          show 1 ≤ iter.toNat
          omega
      have hnumbers : pathAsNumbers (seg :: segs) =
          List.replicate seg.pCount.toNat seg.as ++ pathAsNumbers segs := rfl
      rw [hnumbers, List.length_append, List.length_replicate] at hfit
      have hput : putAsNumbers size s seg.as seg.pCount.toNat =
          s ++ (List.replicate seg.pCount.toNat seg.as).flatMap be32 :=
        putAsNumbers_eq s seg.as seg.pCount.toNat (by omega)
      have hlen : ((List.replicate seg.pCount.toNat seg.as).flatMap be32).length =
          4 * seg.pCount.toNat := by
        rw [flatMap_be32_length, List.length_replicate]
      rw [putAsSegments, if_neg hpos, hput, ih _ _ (by omega), hnumbers, List.flatMap_append,
        List.append_assoc]
      rw [List.length_append, hlen]
      omega

/-- The octets of a path whose sum of pCounts fits an octet and is not below its number of
    segments. -/
theorem octets_eq {bpa : BgpsecPathAttr}
    (hlen : bpa.securePathLen.toNat = 2 + 6 * bpa.pathSegments.length)
    (hle : bpa.pathSegments.length ≤ (pathAsNumbers bpa.pathSegments).length)
    (hsum : (pathAsNumbers bpa.pathSegments).length ≤ 255) :
    (srxConvertToAspath bpa).octets =
      2 :: UInt8.ofNat (pathAsNumbers bpa.pathSegments).length ::
        (pathAsNumbers bpa.pathSegments).flatMap be32 := by
  have hstream := streamLen_toNat hlen hsum
  rw [Nat.max_eq_right hle] at hstream
  have hoctets : (srxConvertToAspath bpa).octets =
      putAsSegments (srxConvertToAspath bpa).streamLen.toNat
        (streamPutcWithin (srxConvertToAspath bpa).streamLen.toNat
          (streamPutcWithin (srxConvertToAspath bpa).streamLen.toNat [] bgpAttrAsPath)
          (((srxConvertToAspath bpa).streamLen - 2) / 4).toUInt16.toUInt8)
        (((srxConvertToAspath bpa).streamLen - 2) / 4).toUInt16 bpa.pathSegments := rfl
  rw [hoctets]
  generalize (srxConvertToAspath bpa).streamLen = streamLen at hstream
  have hsub : (streamLen - 2).toNat = 4 * (pathAsNumbers bpa.pathSegments).length := by
    rw [UInt64.toNat_sub_of_le, hstream]
    · rfl
    · rw [UInt64.le_iff_toNat_le, hstream]
      exact Nat.le_add_left 2 _
  have hiter : ((streamLen - 2) / 4).toUInt16.toNat = (pathAsNumbers bpa.pathSegments).length := by
    rw [UInt64.toNat_toUInt16, UInt64.toNat_div, hsub]
    simp only [UInt64.reduceToNat]
    rw [Nat.mul_div_cancel_left _ (by decide), Nat.mod_eq_of_lt (by omega)]
  have hcount : ((streamLen - 2) / 4).toUInt16.toUInt8 =
      UInt8.ofNat (pathAsNumbers bpa.pathSegments).length := by
    rw [← UInt8.toNat_inj, UInt16.toNat_toUInt8, hiter, UInt8.toNat_ofNat']
  have hheader : streamPutcWithin streamLen.toNat
      (streamPutcWithin streamLen.toNat [] bgpAttrAsPath)
      ((streamLen - 2) / 4).toUInt16.toUInt8 =
      [2, UInt8.ofNat (pathAsNumbers bpa.pathSegments).length] := by
    rw [hcount]
    simp [streamPutcWithin, streamPutc, bgpAttrAsPath, hstream]
  rw [hheader, putAsSegments_eq _ _ _ (by rw [hiter]; exact hle)]
  · rfl
  · rw [hstream]
    simp
    omega

/-- The stream is the AS_SEQUENCE of the path exactly when the sum of its pCounts is not below the
    number of its segments and fits an octet. -/
theorem srxConvertToAspath_sequence_iff {bpa : BgpsecPathAttr}
    (hlen : bpa.securePathLen.toNat = 2 + 6 * bpa.pathSegments.length) :
    IsSequenceOf (srxConvertToAspath bpa) (pathAsNumbers bpa.pathSegments) ↔
      bpa.pathSegments.length ≤ (bpa.pathSegments.map fun seg => seg.pCount.toNat).sum ∧
        (bpa.pathSegments.map fun seg => seg.pCount.toNat).sum ≤ 255 := by
  rw [← pathAsNumbers_length]
  constructor
  · rintro ⟨count, hoctets, hcount, hstream⟩
    have hsum : (pathAsNumbers bpa.pathSegments).length ≤ 255 := by
      have hlt := count.toNat_lt
      omega
    refine ⟨?_, hsum⟩
    rw [streamLen_toNat hlen hsum, hoctets] at hstream
    simp only [List.length_cons, flatMap_be32_length] at hstream
    omega
  · rintro ⟨hle, hsum⟩
    refine ⟨UInt8.ofNat (pathAsNumbers bpa.pathSegments).length, octets_eq hlen hle hsum, ?_, ?_⟩
    · rw [UInt8.toNat_ofNat', Nat.mod_eq_of_lt (by omega)]
    · rw [streamLen_toNat hlen hsum, octets_eq hlen hle hsum, Nat.max_eq_right hle]
      simp only [List.length_cons, flatMap_be32_length]

/-- A path over AS 1 and AS 2, where AS 2 is prepended once. -/
theorem prepended_path_sequence :
    IsSequenceOf (srxConvertToAspath ⟨14, [⟨2, 2, 0⟩, ⟨1, 1, 0⟩], []⟩) [2, 2, 1] := by
  have hlen : (⟨14, [⟨2, 2, 0⟩, ⟨1, 1, 0⟩], []⟩ : BgpsecPathAttr).securePathLen.toNat =
      2 + 6 * [(⟨2, 2, 0⟩ : PathSegment), ⟨1, 1, 0⟩].length := rfl
  exact (srxConvertToAspath_sequence_iff hlen).mpr (by decide)

/-- A segment with a pCount of 0 is counted and not written. -/
theorem zero_pCount_counted :
    (srxConvertToAspath ⟨8, [⟨1, 0, 0⟩], []⟩) = ⟨[2, 1], 6⟩ ∧
      ¬ IsSequenceOf (srxConvertToAspath ⟨8, [⟨1, 0, 0⟩], []⟩) (pathAsNumbers [⟨1, 0, 0⟩]) := by
  have hstream : srxConvertToAspath ⟨8, [⟨1, 0, 0⟩], []⟩ = ⟨[2, 1], 6⟩ := by decide
  refine ⟨hstream, ?_⟩
  rw [hstream]
  rintro ⟨count, -, -, hlength⟩
  exact absurd hlength (by decide)

end SrxNote.Quagga
