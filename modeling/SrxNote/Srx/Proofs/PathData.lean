import SrxNote.Srx.PathData

/-!
# The path data that is sent

The array of `srx_create_bgpsec_data` holds all AS_SEQUENCE segments, but the number
of hops is that of the last one. Of the stored BGPSEC_Path attribute the copy for
the server is right in the extended form only, and what is sent on to a peer is
never the attribute that was received.
-/

namespace SrxNote.Srx
open SrxNote.Quagga

/-! ## The AS path -/

/-- The AS_SEQUENCE segments. -/
def sequences (segs : List AsSegment) : List AsSegment :=
  segs.filter fun seg => seg.type = .asSequence

/-- The AS numbers of the AS_SEQUENCE segments, in order. -/
def sequenceAs (segs : List AsSegment) : List UInt32 := (sequences segs).flatMap AsSegment.as

/-- What `srx_create_bgpsec_data` and `aspath_origin_as` have to make of a path. -/
structure PathDataCorrect (segs : List AsSegment) : Prop where
  /-- Every write is inside of the array. -/
  made : ∀ srxConfig localAs, (srxCreateBgpsecData srxConfig localAs (some segs) none).isSome
  path : ∀ srxConfig localAs validationData d,
    srxCreateBgpsecData srxConfig localAs (some segs) validationData = some d →
      d.asPath.getD [] = (sequenceAs segs).flatMap be32 ∧ d.numberHops = (sequenceAs segs).length
  origin : (∀ seg ∈ segs, seg.type ≠ .asSet) →
    ∀ as ∈ (sequenceAs segs).getLast?, aspathOriginAs (some segs) = as

theorem flatMap_be32_length (as : List UInt32) : (as.flatMap be32).length = as.length * 4 := by
  induction as with
  | nil => rfl
  | cons a as ih =>
      rw [List.flatMap_cons, List.length_append, be32_length, ih, List.length_cons]
      omega

/-- The AS numbers of a segment are written behind those that the array holds. -/
theorem fillArray_eq (as : List UInt32) {asPath : List UInt8} {filled : List UInt32}
    (hpre : filled.flatMap be32 <+: asPath) (hlen : asPath.length = (filled.length + as.length) * 4) :
    fillArray asPath filled.length as =
      some ((filled ++ as).flatMap be32, (filled ++ as).length) := by
  induction as generalizing asPath filled with
  | nil =>
      have hfull : filled.flatMap be32 = asPath := by
        apply hpre.eq_of_length
        rw [flatMap_be32_length, hlen]
        rfl
      rw [fillArray, List.append_nil, hfull]
  | cons a as ih =>
      have hfilled := flatMap_be32_length filled
      obtain ⟨asPath', hwrite, hpre', hlen'⟩ := Buffer.write_append hpre (be32 a) (by
        rw [hfilled, hlen, be32_length, List.length_cons]
        omega)
      have hnext := @ih asPath' (filled ++ [a])
        (by rw [List.flatMap_append, List.flatMap_singleton]; exact hpre')
        (by rw [hlen', hlen, List.length_append, List.length_cons, List.length_singleton]; omega)
      rw [List.length_append, List.length_singleton, List.append_assoc, List.singleton_append] at hnext
      rw [fillArray, ← hfilled, hwrite]
      exact hnext

/-- What the loop has done: the array holds the AS numbers, and `dataIdx` and `prevSize` are their
    number and their size. -/
structure Filled (st : PathFill) (filled : List UInt32) : Prop where
  asPath : st.asPath.getD [] = filled.flatMap be32
  dataIdx : st.dataIdx = filled.length
  prevSize : st.prevSize = filled.length * 4

/-- The loop over the segments fills in all AS_SEQUENCE segments, and counts the last one. -/
theorem fillSegments_eq (segs : List AsSegment) (st : PathFill) (filled : List UInt32)
    (h : Filled st filled) :
    ∃ st', fillSegments segs st = some st' ∧ Filled st' (filled ++ sequenceAs segs) ∧
      st'.numberHops =
        ((sequences segs).getLast?.map fun seg => seg.as.length).getD st.numberHops := by
  induction segs generalizing st filled with
  | nil => exact ⟨st, rfl, by simpa [sequenceAs, sequences] using h, rfl⟩
  | cons seg segs ih =>
      by_cases htype : seg.type = .asSequence
      · have hseqs : sequences (seg :: segs) = seg :: sequences segs := by simp [sequences, htype]
        have hfill : fillArray (realloc st.asPath (seg.as.length * 4 + st.prevSize)) st.dataIdx seg.as =
            some ((filled ++ seg.as).flatMap be32, (filled ++ seg.as).length) := by
          have hlen := flatMap_be32_length filled
          rw [realloc, h.asPath, h.dataIdx, h.prevSize, List.take_of_length_le (by omega)]
          apply fillArray_eq seg.as (List.prefix_append _ _)
          rw [List.length_append, List.length_replicate, hlen]
          omega
        have hsize : st.prevSize + seg.as.length * 4 = (filled ++ seg.as).length * 4 := by
          rw [h.prevSize, List.length_append]
          omega
        obtain ⟨st', hrun, hfilled, hhops⟩ := ih
          ⟨some ((filled ++ seg.as).flatMap be32), seg.as.length, (filled ++ seg.as).length,
            st.prevSize + seg.as.length * 4⟩ (filled ++ seg.as) ⟨rfl, rfl, hsize⟩
        refine ⟨st', ?_, ?_, ?_⟩
        · simp only [fillSegments, if_pos htype, hfill, Option.bind_eq_bind, Option.bind_some]
          exact hrun
        · rw [sequenceAs, hseqs, List.flatMap_cons, ← List.append_assoc]
          exact hfilled
        · rw [hhops, hseqs, List.getLast?_cons]
          cases (sequences segs).getLast? with
          | none => rfl
          | some last => rfl
      · have hseqs : sequences (seg :: segs) = sequences segs := by simp [sequences, htype]
        obtain ⟨st', hrun, hfilled, hhops⟩ := ih st filled h
        refine ⟨st', ?_, ?_, ?_⟩
        · rw [fillSegments, if_neg htype]
          exact hrun
        · rw [sequenceAs, hseqs]
          exact hfilled
        · rw [hseqs]
          exact hhops

/-- The last segment alone has as many AS numbers as all of them only if it is alone. -/
theorem lastLength_eq_iff (segs : List AsSegment) :
    ((segs.getLast?.map fun seg => seg.as.length).getD 0 = (segs.flatMap AsSegment.as).length) ↔
      segs.length ≤ 1 := by
  rcases List.eq_nil_or_concat segs with rfl | ⟨init, last, rfl⟩
  · exact iff_of_true rfl (Nat.zero_le 1)
  · rw [List.concat_eq_append, List.getLast?_append, List.flatMap_append, List.length_append,
      List.length_append, List.flatMap_singleton]
    cases init with
    | nil => simp
    | cons seg init =>
        have hpos := List.length_pos_iff.mpr seg.as_ne_nil
        simp only [List.flatMap_cons, List.length_append, List.getLast?_singleton, Option.some_or,
          Option.map_some, Option.getD_some, List.length_cons, List.length_nil]
        omega

/-- Without an AS_SET the origin is the last AS number of the AS_SEQUENCE segments. -/
theorem originSegments_eq (segs : List AsSegment) (oas : UInt32)
    (h : ∀ seg ∈ segs, seg.type ≠ .asSet) :
    originSegments segs oas = (sequenceAs segs).getLast?.getD oas := by
  induction segs generalizing oas with
  | nil => rfl
  | cons seg segs ih =>
      have hrest := fun oas => ih oas fun s hs => h s (List.mem_cons_of_mem _ hs)
      have hskip : seg.type ≠ .asSequence → sequenceAs (seg :: segs) = sequenceAs segs := by
        intro htype
        simp [sequenceAs, sequences, htype]
      cases htype : seg.type with
      | asSequence =>
          have hseqs : sequenceAs (seg :: segs) = seg.as ++ sequenceAs segs := by
            simp [sequenceAs, sequences, htype]
          rw [originSegments, htype, hseqs, List.getLast?_append, List.getLast?_eq_some_getLast
            seg.as_ne_nil]
          simp only [hrest]
          cases (sequenceAs segs).getLast? with
          | none => rfl
          | some as => rfl
      | asSet => exact absurd htype (h seg List.mem_cons_self)
      | asConfedSequence =>
          rw [originSegments, htype, hskip (by rw [htype]; decide)]
          exact hrest oas
      | asConfedSet =>
          rw [originSegments, htype, hskip (by rw [htype]; decide)]
          exact hrest oas

/-- The path of what is created is what the loop has made. -/
theorem srxCreateBgpsecData_path {srxConfig : UInt16} {localAs : UInt32} {segs : List AsSegment}
    {validationData : Option ValidationData} {d : BGPSecData} {st : PathFill}
    (hfill : fillSegments segs ⟨none, 0, 0, 0⟩ = some st)
    (h : srxCreateBgpsecData srxConfig localAs (some segs) validationData = some d) :
    d.asPath = st.asPath ∧ d.numberHops = st.numberHops := by
  simp only [srxCreateBgpsecData, hfill, Option.bind_eq_bind, Option.bind_some] at h
  cases validationData with
  | none =>
      cases h
      exact ⟨rfl, rfl⟩
  | some valData =>
      obtain ⟨pa, -, h⟩ := Option.bind_eq_some_iff.mp h
      obtain ⟨size, -, h⟩ := Option.bind_eq_some_iff.mp h
      split at h
      · obtain ⟨nlri, -, h⟩ := Option.bind_eq_some_iff.mp h
        obtain ⟨copy, -, h⟩ := Option.bind_eq_some_iff.mp h
        cases h
        exact ⟨rfl, rfl⟩
      · obtain ⟨copy, -, h⟩ := Option.bind_eq_some_iff.mp h
        cases h
        exact ⟨rfl, rfl⟩

/-- **The path for the validation** is right exactly when it has at most one AS_SEQUENCE segment. -/
theorem pathData_correct_iff (segs : List AsSegment) :
    PathDataCorrect segs ↔ (sequences segs).length ≤ 1 := by
  obtain ⟨st, hfill, hfilled, hhops⟩ :=
    fillSegments_eq segs ⟨none, 0, 0, 0⟩ [] ⟨rfl, rfl, rfl⟩
  have hmade : ∀ srxConfig localAs,
      srxCreateBgpsecData srxConfig localAs (some segs) none =
        some ⟨st.numberHops, st.asPath, 0, [], 0, 0, none⟩ := by
    intro srxConfig localAs
    simp only [srxCreateBgpsecData, hfill, Option.bind_eq_bind, Option.bind_some]
    rfl
  rw [← lastLength_eq_iff]
  constructor
  · intro h
    have hd := h.path 0 0 none _ (hmade 0 0)
    rw [← hhops]
    exact hd.2
  · intro hlength
    refine ⟨fun srxConfig localAs => by rw [hmade]; rfl, fun srxConfig localAs valData d hd => ?_,
      fun hset as has => ?_⟩
    · obtain ⟨hpath, hcount⟩ := srxCreateBgpsecData_path hfill hd
      rw [hpath, hcount, hfilled.asPath, hhops]
      exact ⟨rfl, hlength⟩
    · rw [aspathOriginAs, originSegments_eq segs 0 hset, Option.mem_def.mp has]
      rfl

theorem twoSequences_not_correct :
    ¬ PathDataCorrect [⟨.asSequence, [65001], by decide⟩, ⟨.asSequence, [65002], by decide⟩] := by
  intro h
  have hd := h.path 0 0 none ⟨1, some (be32 65001 ++ be32 65002), 0, [], 0, 0, none⟩ (by decide)
  exact absurd hd.2 (by decide)

/-! ## The stored attribute -/

/-- A BGPSEC_Path attribute as it is received: its length fits the length field that its flags
    select. -/
structure ReceivedAttribute where
  flags : UInt8
  octets : List UInt8
  fits : octets.length < if flags &&& bgpUpdAFlagsExtLength > 0 then 65536 else 256

namespace ReceivedAttribute

variable (a : ReceivedAttribute)

/-- The extended length flag is set. -/
abbrev Extended : Prop := a.flags &&& bgpUpdAFlagsExtLength > 0

/-- The octets of the attribute: what was received and what is stored. -/
def wire : List UInt8 := wiredAttribute a.flags a.octets

/-- A peer of the own AS is sent the attribute that was received. -/
def ForwardedExactly : Prop :=
  ∀ s validationData construct, validationData.bgpsecPathAttr = some a.wire →
    putBgpsecPath s .ibgp (some validationData) construct = some (s ++ a.wire)

/-- In the distributed mode the server is sent the attribute that was received, with its size. -/
def CopiedExactly : Prop :=
  ∀ srxConfig localAs validationData, checkFlag srxConfig srxConfigEvalDistr →
    validationData.nlri.isSome → validationData.bgpsecPathAttr = some a.wire →
    ∃ d, srxCreateBgpsecData srxConfig localAs none (some validationData) = some d ∧
      d.attrLength = a.wire.length ∧ d.bgpsecPathAttr = some a.wire

theorem wire_extended (h : a.Extended) :
    ∃ hi lo, a.wire = a.flags :: bgpAttrBgpsec :: hi :: lo :: a.octets ∧
      hi.toNat * 256 + lo.toNat = a.octets.length := by
  have hfits := a.fits
  rw [if_pos h] at hfits
  refine ⟨UInt8.ofNat ((UInt16.ofNat a.octets.length).toNat / 256),
    UInt8.ofNat (UInt16.ofNat a.octets.length).toNat, ?_, ?_⟩
  · rw [wire, wiredAttribute, if_pos h]
    rfl
  · rw [UInt16.toNat_ofNat', UInt8.toNat_ofNat', UInt8.toNat_ofNat']
    omega

theorem wire_normal (h : ¬ a.Extended) :
    ∃ len, a.wire = a.flags :: bgpAttrBgpsec :: len :: a.octets ∧ len.toNat = a.octets.length := by
  have hfits := a.fits
  rw [if_neg h] at hfits
  refine ⟨UInt8.ofNat a.octets.length, ?_, ?_⟩
  · rw [wire, wiredAttribute, if_neg h]
    rfl
  · rw [UInt8.toNat_ofNat']
    omega

/-- The reader that tests the extended length flag reads the length of the value. -/
theorem attributeSize_wire : attributeSize a.wire = some a.octets.length := by
  by_cases h : a.Extended
  · obtain ⟨hi, lo, hwire, hlen⟩ := a.wire_extended h
    have hflag : a.flags &&& bgpUpdAFlagsExtLength > 0 := h
    rw [hwire, attributeSize]
    simp only [List.getElem?_cons_zero, Option.bind_eq_bind, Option.bind_some, if_pos hflag]
    rw [← hlen, ← toNat_ofBe16]
    rfl
  · obtain ⟨len, hwire, hlen⟩ := a.wire_normal h
    have hflag : ¬ a.flags &&& bgpUpdAFlagsExtLength > 0 := h
    rw [hwire, attributeSize]
    simp only [List.getElem?_cons_zero, Option.bind_eq_bind, Option.bind_some, if_neg hflag]
    rw [← hlen]
    rfl

/-- The copy for the server is right in the extended form, whose header has four octets. -/
theorem copiedExactly_iff : a.CopiedExactly ↔ a.Extended := by
  have hsize := a.attributeSize_wire
  constructor
  · intro h
    by_contra hnormal
    obtain ⟨len, hwire, -⟩ := a.wire_normal hnormal
    obtain ⟨d, hd, -⟩ := h srxConfigEvalDistr 0 ⟨some ⟨[], 0, 0, []⟩, none, some a.wire, 0⟩
      (by decide) rfl rfl
    have hdistr : checkFlag srxConfigEvalDistr srxConfigEvalDistr = true := by decide
    have hread : Buffer.read (some a.wire) (a.octets.length + 4) = none := by
      rw [Buffer.read, if_neg]
      rw [hwire]
      simp
    simp only [srxCreateBgpsecData, Option.bind_eq_bind, Option.bind_some, hsize, hdistr, if_true,
      hread, Option.bind_none] at hd
    cases hd
  · intro hext srxConfig localAs validationData hdistr hnlri hcopy
    obtain ⟨hi, lo, hwire, -⟩ := a.wire_extended hext
    obtain ⟨nlri, hnlri⟩ := Option.isSome_iff_exists.mp hnlri
    have hlen : a.octets.length + 4 = a.wire.length := by
      rw [hwire]
      rfl
    have hread : Buffer.read (some a.wire) (a.octets.length + 4) = some a.wire := by
      rw [Buffer.read, hlen, if_pos (Nat.le_refl _), List.take_length]
    refine ⟨⟨0, none, a.octets.length + 4, nlri.afi, nlri.safi, localAs, some a.wire⟩, ?_, hlen, rfl⟩
    simp only [srxCreateBgpsecData, Option.bind_eq_bind, Option.bind_some, hcopy, hsize, hdistr,
      if_true, hnlri, hread]
    rfl

/-- The size that is forwarded is never that of the whole attribute. -/
theorem forwardedSize_ne {size : Nat} (h : forwardedSize a.wire = some size) :
    size ≠ a.wire.length := by
  have hmask : (if bgpUpdAFlagsExtLength > 0 then 1 else 0 : UInt8) = 1 := by decide
  rw [forwardedSize, hmask] at h
  by_cases hext : a.Extended
  · obtain ⟨hi, lo, hwire, hlen⟩ := a.wire_extended hext
    rw [hwire] at h ⊢
    simp only [List.getElem?_cons_zero, Option.bind_eq_bind, Option.bind_some] at h
    split at h
    · cases h
      rw [toNat_ofBe16, hlen]
      simp only [List.length_cons]
      omega
    · cases h
      have hlo := lo.toNat_lt
      simp only [List.length_cons]
      omega
  · obtain ⟨len, hwire, hlen⟩ := a.wire_normal hext
    rw [hwire] at h ⊢
    simp only [List.getElem?_cons_zero, Option.bind_eq_bind, Option.bind_some] at h
    split at h
    · -- the length octet and the first octet of the value are read as one length
      cases hoctets : a.octets with
      | nil =>
          rw [hoctets] at h
          cases h
      | cons first rest =>
          rw [hoctets] at h hlen
          cases h
          rw [toNat_ofBe16]
          simp only [List.length_cons] at hlen ⊢
          omega
    · cases h
      simp only [List.length_cons]
      omega

theorem not_forwardedExactly : ¬ a.ForwardedExactly := by
  intro h
  have hput := h [] ⟨none, none, some a.wire, 0⟩ (fun s => (s, 0)) rfl
  obtain ⟨size, hsize, hwrite⟩ := Option.bind_eq_some_iff.mp hput
  obtain ⟨octets, hread, hoctets⟩ := Option.map_eq_some_iff.mp hwrite
  have hlen := Buffer.read_length hread
  rw [List.nil_append, List.nil_append] at hoctets
  rw [hoctets] at hlen
  exact a.forwardedSize_ne hsize hlen.symm

/-- **The stored attribute.** It is never forwarded as it was received, and the copy for the server
    is right in the extended form only. -/
theorem storedAttribute_readers :
    ¬ a.ForwardedExactly ∧ (a.CopiedExactly ↔ a.Extended) :=
  ⟨a.not_forwardedExactly, a.copiedExactly_iff⟩

end ReceivedAttribute

/-- One segment and one signature of one octet, 34 octets in the extended form. -/
def storedPath : ReceivedAttribute where
  flags := 0x90
  octets := [0, 8, 1, 0, 0, 0, 0xFD, 0xE9, 0, 26, 1] ++ List.replicate 20 0x5A ++ [0, 1, 0x30]
  fits := by decide

/-- Of the attribute that was stored nothing at all is sent on. -/
theorem storedPath_not_forwarded :
    (bgpAttrBgpsecParse 8 storedPath.flags storedPath.octets AttrState.init).map
        (fun r => (r.1, r.2.validationData.bind ValidationData.bgpsecPathAttr)) =
      some (⟨.proceed, true⟩, some storedPath.wire) ∧
    putBgpsecPath [] .ibgp (some ⟨none, none, some storedPath.wire, 0⟩) (fun s => (s, 0)) = some [] ∧
    ¬ (storedPath.ForwardedExactly ∧ storedPath.CopiedExactly) :=
  ⟨by decide +kernel, by decide, fun h => storedPath.not_forwardedExactly h.1⟩

end SrxNote.Srx
