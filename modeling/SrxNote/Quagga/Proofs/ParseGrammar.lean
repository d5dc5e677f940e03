import SrxNote.Quagga.Proofs.ParseTermination
import SrxNote.Quagga.Proofs.ReadingWire

/-!
# What `bgpsec_parse` accepts

The attributes that `bgpsec_parse` returns are exactly the admitted ones, whose
blocks are read in the parser's lax way. An admitted attribute has the shape
that its users rely on. It is a BGPSEC_Path attribute unless its Secure_Path is
empty or the signature segments of a block outgrow the block's length field.
-/

namespace SrxNote.Quagga
open SrxNote.Bgpsec

/-- A Secure_Path of whole segments, followed by one or two blocks with a signature segment for
    each of them, read without a cut. -/
structure Admitted (octets : Stream) (bpa : BgpsecPathAttr) : Prop where
  len : bpa.securePathLen.toNat = 2 + 6 * bpa.pathSegments.length
  fits : bpa.securePathLen.toNat < 2 ^ 16
  wire : ∃ t, octets = be16 bpa.securePathLen.toUInt16 ++
    bpa.pathSegments.flatMap PathSegment.wire ++ t ∧ t ≠ [] ∧
    BlocksRead bpa.pathSegments.length bgpsecMaxSigblock t bpa.sigBlocks

/-- An empty Secure_Path followed by one or two blocks without signature segments. -/
def EmptyPath (octets : Stream) : Prop :=
  (∃ algo, octets = [0, 2, 0, 3, algo]) ∨ ∃ algo algo', octets = [0, 2, 0, 3, algo, 0, 3, algo']

/-- The signature segments that the octets hold for a block add up to more octets than the block's
    length field leaves for them. -/
def Outgrown (octets : Stream) : Prop :=
  ∃ (spl : UInt16) (segs : List PathSegment) (t : Stream) (sbs : List SigBlock),
    octets = be16 spl ++ segs.flatMap PathSegment.wire ++ t ∧
    spl.toNat = 2 + 6 * segs.length ∧ BlocksRead segs.length bgpsecMaxSigblock t sbs ∧
    ∃ sb ∈ sbs, sb.sigBlockLen.toNat < 3 + sigOctets sb.sigSegments

/-! ### Acceptance -/

/-- The block loop accepts exactly the octets that can be read as blocks. -/
theorem parseSigBlocks_accepts_iff (numSeg : UInt16) (k : Nat) (s : Stream) (sbs : List SigBlock) :
    (∃ fuel, parseSigBlocks fuel numSeg k s = some (sbs, false)) ↔
      BlocksRead numSeg.toNat k s sbs := by
  induction k generalizing s sbs with
  | zero =>
      constructor
      · rintro ⟨fuel, h⟩
        simp only [parseSigBlocks, Option.some.injEq, Prod.mk.injEq, decide_eq_false_iff_not,
          Nat.not_lt, Nat.le_zero, List.length_eq_zero_iff] at h
        obtain ⟨rfl, rfl⟩ := h
        exact .nil 0
      · intro h
        cases h with
        | nil => exact ⟨0, rfl⟩
  | succ k ih =>
      by_cases hh : ∃ len algo rest, BlockHeader s len algo rest
      · obtain ⟨len, algo, rest, hh⟩ := hh
        constructor
        · rintro ⟨fuel, h⟩
          obtain ⟨l, cut, hrun, hcases⟩ := (parseSigBlocks_block_iff hh).mp h
          rcases hcases with ⟨-, hr⟩ | ⟨hcount, sbs', cut', hrest, hr⟩
          · simp at hr
          · obtain ⟨rfl, hcuts⟩ := Prod.mk.inj hr
            obtain ⟨rfl, rfl⟩ := Bool.or_eq_false_iff.mp hcuts.symm
            have hread := run_sigLoopStep_iff.mp ⟨fuel, l.remainingBytes, hrun⟩
            exact .cons hh hread hcount ((ih l.s sbs').mp ⟨fuel, hrest⟩)
        · intro h
          cases h with
          | nil =>
              obtain ⟨hpos, -⟩ := hh.getw
              simp at hpos
          | @cons _ _ _ s' len' algo' sigs sbs' hh' hread hcount hrest =>
              obtain ⟨fuel₁, owed, hrun⟩ := run_sigLoopStep_iff.mpr hread
              obtain ⟨fuel₂, hblocks⟩ := (ih s' sbs').mpr hrest
              exact ⟨_, parseSigBlocks_of_run hh' hrun hcount hblocks⟩
      · simp only [not_exists] at hh
        obtain ⟨sbs', hnil, hend⟩ := parseSigBlocks_end hh numSeg k
        constructor
        · rintro ⟨fuel, h⟩
          rw [hend, Option.some.injEq, Prod.mk.injEq, decide_eq_false_iff_not, Nat.not_lt,
            Nat.le_zero, List.length_eq_zero_iff] at h
          obtain ⟨rfl, hs⟩ := h
          rw [hnil hs, hs]
          exact .nil _
        · intro h
          cases h with
          | nil =>
              refine ⟨0, ?_⟩
              rw [hend, hnil rfl]
              rfl
          | cons hh' _ _ _ => exact absurd hh' (hh _ _ _)

theorem admitted_of_accepts {octets : Stream} {bpa : BgpsecPathAttr} {fuel : Nat}
    (h : bgpsecParse fuel octets octets.length = some (some bpa)) : Admitted octets bpa := by
  by_cases hpath : ∃ n t, 2 + 6 * n < 2 ^ 16 ∧ octets = be16 (UInt16.ofNat (2 + 6 * n)) ++ t
  · obtain ⟨n, t, hn, rfl⟩ := hpath
    rw [bgpsecParse_path hn t fuel] at h
    obtain ⟨segs, hparse, hwire, hcount⟩ := parsePathSegments_spec n t
    cases hblocks : parseSigBlocks fuel (UInt16.ofNat n) bgpsecMaxSigblock (pathRest n t) with
    | none => simp [hblocks] at h
    | some r =>
        obtain ⟨sbs, syntaxError⟩ := r
        rw [hblocks, hparse] at h
        dsimp only at h
        split at h
        · cases h
        · rename_i hok
          simp only [Bool.or_eq_true, decide_eq_true_eq, not_or, Bool.not_eq_true] at hok
          obtain ⟨⟨hlen, hne⟩, rfl⟩ := hok
          have hsegs : segs.length = n := by omega
          have hread := (parseSigBlocks_accepts_iff _ _ _ _).mp ⟨fuel, hblocks⟩
          rw [toNat_ofNat16 (by omega)] at hread
          cases h
          refine ⟨?_, ?_, pathRest n t, ?_, ?_, ?_⟩
          · rw [toNat_ofNat16_toUInt64 hn, hsegs]
          · rw [toNat_ofNat16_toUInt64 hn]
            exact hn
          · rw [UInt16.toUInt16_toUInt64, List.append_assoc, ← hwire]
          · intro hnil
            rw [hnil] at hne
            exact hne Nat.zero_lt_one
          · rw [hsegs]
            exact hread
  · rw [bgpsecParse_no_path] at h
    · cases h
    · intro n t hn heq
      exact hpath ⟨n, t, hn, heq⟩

theorem accepts_of_admitted {octets : Stream} {bpa : BgpsecPathAttr} (h : Admitted octets bpa) :
    ∃ fuel, bgpsecParse fuel octets octets.length = some (some bpa) := by
  obtain ⟨spl, segs, sbs⟩ := bpa
  obtain ⟨hlen, hfits, t, rfl, hne, hread⟩ := h
  dsimp only at hlen hfits hread ⊢
  have hn : 2 + 6 * segs.length < 2 ^ 16 := by omega
  have hspl : spl.toUInt16 = UInt16.ofNat (2 + 6 * segs.length) := by
    apply UInt16.toNat_inj.mp
    rw [UInt64.toNat_toUInt16, toNat_ofNat16 hn, hlen, Nat.mod_eq_of_lt hn]
  have hspl64 : (UInt16.ofNat (2 + 6 * segs.length)).toUInt64 = spl := by
    apply UInt64.toNat_inj.mp
    rw [toNat_ofNat16_toUInt64 hn, hlen]
  have hsegs := parsePathSegments_flatMap segs t
  have hrest : pathRest segs.length (segs.flatMap PathSegment.wire ++ t) = t := by
    obtain ⟨segs', hparse, -, -⟩ :=
      parsePathSegments_spec segs.length (segs.flatMap PathSegment.wire ++ t)
    rw [hsegs] at hparse
    exact (congrArg (fun r => r.2.1) hparse).symm
  have hread' : BlocksRead (UInt16.ofNat segs.length).toNat bgpsecMaxSigblock t sbs := by
    rw [toNat_ofNat16 (by omega)]
    exact hread
  obtain ⟨fuel, hblocks⟩ := (parseSigBlocks_accepts_iff _ _ _ _).mpr hread'
  have hlong : ¬ (segs.flatMap PathSegment.wire ++ t).length < 6 * segs.length := by
    rw [List.length_append, flatMap_pathSegment_wire_length]
    omega
  have hpos : ¬ t.length < 1 := by
    intro hlt
    exact hne (List.length_eq_zero_iff.mp (by omega))
  refine ⟨fuel, ?_⟩
  rw [hspl, List.append_assoc, bgpsecParse_path hn, hrest, hblocks, hsegs, hspl64]
  simp only [decide_eq_false hlong, decide_eq_false hpos, Bool.or_false]
  rfl

theorem bgpsecParse_mono {fuel fuel' : Nat} (hle : fuel ≤ fuel') {octets : Stream}
    {r : Option BgpsecPathAttr} (h : bgpsecParse fuel octets octets.length = some r) :
    bgpsecParse fuel' octets octets.length = some r := by
  by_cases hpath : ∃ n t, 2 + 6 * n < 2 ^ 16 ∧ octets = be16 (UInt16.ofNat (2 + 6 * n)) ++ t
  · obtain ⟨n, t, hn, rfl⟩ := hpath
    rw [bgpsecParse_path hn] at h ⊢
    cases hblocks : parseSigBlocks fuel (UInt16.ofNat n) bgpsecMaxSigblock (pathRest n t) with
    | none => simp [hblocks] at h
    | some r' =>
        rw [parseSigBlocks_mono hle hblocks]
        rw [hblocks] at h
        exact h
  · have hno : ∀ n t, 2 + 6 * n < 2 ^ 16 → octets ≠ be16 (UInt16.ofNat (2 + 6 * n)) ++ t := by
      intro n t hn heq
      exact hpath ⟨n, t, hn, heq⟩
    rw [bgpsecParse_no_path hno] at h ⊢
    exact h

/-- Where `bgpsec_parse` returns, it returns the admitted attribute if there is one. -/
theorem bgpsecParse_eq_some_iff {fuel : Nat} {octets : Stream} {r : Option BgpsecPathAttr}
    (h : bgpsecParse fuel octets octets.length = some r) (bpa : BgpsecPathAttr) :
    r = some bpa ↔ Admitted octets bpa := by
  constructor
  · intro hr
    rw [hr] at h
    exact admitted_of_accepts h
  · intro hadm
    obtain ⟨fuel', h'⟩ := accepts_of_admitted hadm
    have hmax := bgpsecParse_mono (Nat.le_max_left fuel fuel') h
    have hmax' := bgpsecParse_mono (Nat.le_max_right fuel fuel') h'
    rw [hmax] at hmax'
    exact Option.some.inj hmax'

/-! ### Shape -/

/-- Every attribute that `bgpsec_parse` returns has the shape its users rely on. -/
theorem bgpsecParse_shape {fuel : Nat} {octets : Stream} {bpa : BgpsecPathAttr}
    (h : bgpsecParse fuel octets octets.length = some (some bpa)) : bpa.Shape := by
  obtain ⟨hlen, -, t, -, hne, hread⟩ := admitted_of_accepts h
  have hsegs : bpa.pathSegments.length = (bpa.securePathLen.toNat - 2) / 6 := by
    rw [hlen, Nat.add_sub_cancel_left, Nat.mul_div_cancel_left _ (by omega)]
  refine ⟨hsegs, ⟨?_, hread.length_le⟩, ?_⟩
  · exact List.length_pos_iff.mpr (hread.ne_nil hne)
  · rw [← hsegs]
    exact hread.signatures

/-- The segments of AS 1 and AS 2, and two blocks with a signature for each. -/
theorem bgpsecParse_shape_of_two_blocks :
    (BgpsecPathAttr.mk 14 [⟨1, 1, 0⟩, ⟨2, 1, 0⟩]
      [⟨50, 1, [⟨some (List.replicate 20 7), 2, some [48, 49]⟩, ⟨some (List.replicate 20 8), 1, some [50]⟩]⟩,
        ⟨49, 2, [⟨some (List.replicate 20 9), 1, some [51]⟩, ⟨some (List.replicate 20 10), 1, some [52]⟩]⟩]).Shape :=
  @bgpsecParse_shape 3 ([0, 14, 1, 0, 0, 0, 0, 1, 1, 0, 0, 0, 0, 2] ++
    ([0, 50, 1] ++ List.replicate 20 7 ++ [0, 2, 48, 49] ++ List.replicate 20 8 ++ [0, 1, 50]) ++
    ([0, 49, 2] ++ List.replicate 20 9 ++ [0, 1, 51] ++ List.replicate 20 10 ++ [0, 1, 52])) _ (by decide)

/-! ### The grammar -/

/-- A BGPSEC_Path attribute is an admitted one with a segment and with right length fields. -/
theorem onWire_iff (octets : Stream) (bpa : BgpsecPathAttr) :
    OnWire octets bpa ↔ Admitted octets bpa ∧ 1 ≤ bpa.pathSegments.length ∧
      ∀ sb ∈ bpa.sigBlocks, sb.sigBlockLen.toNat = 3 + sigOctets sb.sigSegments := by
  constructor
  · intro h
    refine ⟨⟨h.len, h.fits, _, h.wire, ?_, blocksRead_wire h.onWire h.blocks.2⟩, h.segments,
      fun sb hsb => (h.onWire sb hsb).len⟩
    intro hnil
    have hblocks := h.blocks.1
    cases hsbs : bpa.sigBlocks with
    | nil =>
        rw [hsbs] at hblocks
        exact absurd hblocks (by decide)
    | cons sb sbs =>
        rw [hsbs, List.flatMap_cons, SigBlock.wire] at hnil
        simp [be16] at hnil
  · intro h
    obtain ⟨⟨hlen, hfits, t, rfl, hne, hread⟩, hsegs, hsum⟩ := h
    refine ⟨hsegs, hlen, hfits, ⟨?_, hread.length_le⟩, ?_, ?_⟩
    · exact List.length_pos_iff.mpr (hread.ne_nil hne)
    · intro sb hsb
      obtain ⟨hcount, hwf⟩ := hread.signatures sb hsb
      exact ⟨hcount, hwf, hsum sb hsb⟩
    · rw [BgpsecPathAttr.wire, ← hread.eq_wire hsum]

/-- A block without signature segments is three octets. -/
theorem blocksRead_zero {k : Nat} {s : Stream} {sbs : List SigBlock}
    (h : BlocksRead 0 (k + 1) s sbs) (hs : s ≠ []) :
    ∃ algo s' sbs', s = [0, 3, algo] ++ s' ∧ BlocksRead 0 k s' sbs' := by
  cases h with
  | nil => exact absurd rfl hs
  | @cons _ _ rest s' len algo sigs sbs' hh hread hcount hrest =>
      rw [List.length_eq_zero_iff] at hcount
      subst hcount
      generalize howed : len - 3 = owed at hread
      cases hread
      have hlen : len = 3 := by
        rw [← UInt16.sub_add_cancel len 3, howed]
        rfl
      subst hlen
      obtain ⟨t, rfl, -, hle, hc⟩ := hh
      match t, hle, hc with
      | [], hle, _ => exact absurd hle (by decide)
      | a :: t, _, hc =>
          rw [streamGetc_cons] at hc
          cases hc
          exact ⟨algo, _, sbs', rfl, hrest⟩

theorem Admitted.emptyPath {octets : Stream} {bpa : BgpsecPathAttr} (h : Admitted octets bpa)
    (hnil : bpa.pathSegments = []) : EmptyPath octets := by
  obtain ⟨hlen, -, t, rfl, hne, hread⟩ := h
  rw [hnil] at hlen hread ⊢
  have hspl : bpa.securePathLen = 2 := UInt64.toNat_inj.mp hlen
  obtain ⟨algo, s', sbs', rfl, hread'⟩ := blocksRead_zero hread hne
  rw [hspl]
  by_cases hs' : s' = []
  · left
    rw [hs']
    exact ⟨algo, rfl⟩
  · right
    obtain ⟨algo', s'', sbs'', rfl, hread''⟩ := blocksRead_zero hread' hs'
    cases hread'' with
    | nil => exact ⟨algo, algo', rfl⟩

theorem admitted_of_emptyPath {octets : Stream} (h : EmptyPath octets) :
    ∃ bpa, Admitted octets bpa ∧ bpa.pathSegments = [] := by
  have hblock : ∀ (algo : UInt8) (s : Stream), BlockHeader ([0, 3, algo] ++ s) 3 algo s :=
    fun algo s => ⟨algo :: s, rfl, by decide, by simp, rfl⟩
  have hread : ∀ (algo : UInt8) (s : Stream) (k : Nat) (sbs : List SigBlock),
      BlocksRead 0 k s sbs → BlocksRead 0 (k + 1) ([0, 3, algo] ++ s) (⟨3, algo, []⟩ :: sbs) :=
    fun algo s k sbs h => .cons (hblock algo s) (.nil s) rfl h
  have hadm : ∀ (t : Stream) (sbs : List SigBlock), t ≠ [] → BlocksRead 0 bgpsecMaxSigblock t sbs →
      Admitted ([0, 2] ++ t) ⟨2, [], sbs⟩ := by
    intro t sbs hne hblocks
    have hspl : be16 (2 : UInt64).toUInt16 = [0, 2] := by decide
    have hfits : (2 : UInt64).toNat < 2 ^ 16 := by decide
    refine ⟨rfl, hfits, t, ?_, hne, hblocks⟩
    rw [hspl]
    rfl
  rcases h with ⟨algo, rfl⟩ | ⟨algo, algo', rfl⟩
  · exact ⟨_, hadm [0, 3, algo] _ (List.cons_ne_nil _ _) (hread algo [] 1 [] (.nil 1)), rfl⟩
  · have hblocks := hread algo [0, 3, algo'] 1 _ (hread algo' [] 0 [] (.nil 0))
    exact ⟨_, hadm [0, 3, algo, 0, 3, algo'] _ (List.cons_ne_nil _ _) hblocks, rfl⟩

theorem Admitted.outgrown {octets : Stream} {bpa : BgpsecPathAttr} (h : Admitted octets bpa)
    {sb : SigBlock} (hsb : sb ∈ bpa.sigBlocks)
    (hlt : sb.sigBlockLen.toNat < 3 + sigOctets sb.sigSegments) : Outgrown octets := by
  obtain ⟨hlen, hfits, t, rfl, -, hread⟩ := h
  refine ⟨_, _, t, _, rfl, ?_, hread, sb, hsb, hlt⟩
  rw [UInt64.toNat_toUInt16, Nat.mod_eq_of_lt hfits, hlen]

theorem admitted_of_outgrown {octets : Stream} (h : Outgrown octets) :
    ∃ bpa, Admitted octets bpa ∧
      ∃ sb ∈ bpa.sigBlocks, sb.sigBlockLen.toNat < 3 + sigOctets sb.sigSegments := by
  obtain ⟨spl, segs, t, sbs, rfl, hlen, hread, sb, hsb, hlt⟩ := h
  refine ⟨⟨spl.toUInt64, segs, sbs⟩, ⟨?_, ?_, t, ?_, ?_, hread⟩, sb, hsb, hlt⟩
  · rw [UInt16.toNat_toUInt64, hlen]
  · rw [UInt16.toNat_toUInt64]
    exact spl.toNat_lt
  · rw [UInt16.toUInt16_toUInt64]
  · rintro rfl
    cases hread with
    | nil => cases hsb
    | cons hh _ _ _ => exact absurd hh.getw.1 (Nat.lt_irrefl 0)

/-- Where it returns, `bgpsec_parse` accepts exactly the BGPSEC_Path attributes and reads their
    values, unless the octets are an empty Secure_Path or a block is outgrown. -/
theorem bgpsecParse_grammar_iff (octets : Stream) :
    (∀ fuel r, bgpsecParse fuel octets octets.length = some r →
      ∀ bpa, r = some bpa ↔ OnWire octets bpa) ↔ ¬ EmptyPath octets ∧ ¬ Outgrown octets := by
  constructor
  · intro h
    -- both kinds are admitted, hence returned, without being on the wire
    have honWire : ∀ bpa, Admitted octets bpa → OnWire octets bpa := by
      intro bpa hadm
      obtain ⟨fuel, hparse⟩ := accepts_of_admitted hadm
      exact (h fuel (some bpa) hparse bpa).mp rfl
    constructor
    · intro hempty
      obtain ⟨bpa, hadm, hnil⟩ := admitted_of_emptyPath hempty
      have hsegs := (honWire bpa hadm).segments
      rw [hnil] at hsegs
      exact absurd hsegs (by decide)
    · intro hout
      obtain ⟨bpa, hadm, sb, hsb, hlt⟩ := admitted_of_outgrown hout
      have hlen := ((honWire bpa hadm).onWire sb hsb).len
      omega
  · intro h fuel r hparse bpa
    obtain ⟨hempty, hout⟩ := h
    rw [bgpsecParse_eq_some_iff hparse, onWire_iff]
    constructor
    · intro hadm
      refine ⟨hadm, ?_, ?_⟩
      · apply List.length_pos_iff.mpr
        intro hnil
        exact hempty (hadm.emptyPath hnil)
      · intro sb hsb
        obtain ⟨t, -, -, hread⟩ := hadm.wire
        have hle := hread.len_le sb hsb
        by_contra hne
        exact hout (hadm.outgrown hsb (by omega))
    · intro hgrammar
      exact hgrammar.1

/-- An empty Secure_Path and a block of length 3 are accepted. -/
theorem bgpsecParse_accepts_empty_path :
    ¬ ∀ fuel r, bgpsecParse fuel [0, 2, 0, 3, 1] 5 = some r →
      ∀ bpa, r = some bpa ↔ OnWire [0, 2, 0, 3, 1] bpa := by
  intro h
  have hparse : bgpsecParse 1 [0, 2, 0, 3, 1] 5 = some (some ⟨2, [], [⟨3, 1, []⟩]⟩) := by decide
  have hsegs := ((h 1 _ hparse _).mp rfl).segments
  exact absurd hsegs (by decide)

end SrxNote.Quagga
