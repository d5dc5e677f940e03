import SrxNote.Quagga.Construct
import SrxNote.Quagga.Proofs.ParseGrammar

/-!
# Encoder and decoder agree

`constructBGPSecPathAttribute` appends the wire format of the attribute that has
the router's own segment and signature in front, and `bgpsec_parse` reads this
attribute back.
-/

namespace SrxNote.Quagga
open SrxNote.Bgpsec

/-- The new signature as a signature segment. -/
def SCASignature.toSegment (sig : SCASignature) : SigSegment :=
  ⟨some sig.ski, sig.sigLen, some sig.sigBuff⟩

/-- The path segments of an attribute that may be absent. -/
def oldSegments (attr : Option BgpsecPathAttr) : List PathSegment :=
  attr.elim [] BgpsecPathAttr.pathSegments

/-- The signature segments of an attribute that may be absent. -/
def oldSignatures (attr : Option BgpsecPathAttr) : List SigSegment :=
  attr.elim [] fun bpa => bpa.sigBlocks.flatMap SigBlock.sigSegments

/-- An attribute that a signature of the given algorithm can be added to: absent, or with one
    block of that algorithm and in it a signature for each of its path segments. -/
def Extensible (algoID : UInt8) (attr : Option BgpsecPathAttr) : Prop :=
  ∀ bpa, attr = some bpa → 1 ≤ bpa.pathSegments.length ∧
    bpa.securePathLen.toNat = 2 + 6 * bpa.pathSegments.length ∧
    ∃ sb, bpa.sigBlocks = [sb] ∧ sb.algoSuiteId = algoID ∧
      sb.sigSegments.length = bpa.pathSegments.length ∧ ∀ ss ∈ sb.sigSegments, ss.WellFormed

/-- The attribute with a segment and a signature put in front. -/
def extended (attr : Option BgpsecPathAttr) (own : PathSegment) (sig : SCASignature) :
    BgpsecPathAttr :=
  ⟨UInt64.ofNat (2 + 6 * (own :: oldSegments attr).length), own :: oldSegments attr,
    [⟨UInt16.ofNat (3 + sigOctets (sig.toSegment :: oldSignatures attr)), sig.algoID,
      sig.toSegment :: oldSignatures attr⟩]⟩

theorem SCASignature.toSegment_wellFormed (sig : SCASignature) : sig.toSegment.WellFormed :=
  ⟨⟨_, rfl, sig.ski_length⟩, ⟨_, rfl, sig.sigBuff_length⟩⟩

/-! ### The deep copy of a well-formed attribute -/

theorem copyBuffer_eq {buf : List UInt8} {size : Nat} (h : buf.length = size) :
    copyBuffer (some buf) size = some buf := by
  rw [copyBuffer, if_neg (by omega), List.take_of_length_le (by omega)]

theorem copySigSegment_eq {ss : SigSegment} (h : ss.WellFormed) : copySigSegment ss = some ss := by
  obtain ⟨ski, sigLen, signature⟩ := ss
  obtain ⟨⟨ski', hski, hskiLen⟩, ⟨sig, hsig, hsigLen⟩⟩ := h
  dsimp only at hski hsig hsigLen
  subst hski hsig
  rw [copySigSegment, copyBuffer_eq hskiLen, copyBuffer_eq hsigLen]

theorem concatSigSegment_eq {sigs : List SigSegment} (hne : sigs ≠ [])
    (h : ∀ ss ∈ sigs, ss.WellFormed) : concatSigSegment sigs = some sigs := by
  induction sigs with
  | nil => exact absurd rfl hne
  | cons ss sigs ih =>
      have hss := copySigSegment_eq (h ss (by simp))
      cases sigs with
      | nil => rw [concatSigSegment, hss]; rfl
      | cons ss' sigs =>
          have hrest := ih (List.cons_ne_nil _ _) fun x hx => h x (List.mem_cons_of_mem _ hx)
          rw [concatSigSegment, hss, hrest]
          exact List.cons_ne_nil _ _

theorem concatPathSegment_eq {segs : List PathSegment} (hne : segs ≠ []) :
    concatPathSegment segs = some segs := by
  induction segs with
  | nil => exact absurd rfl hne
  | cons seg segs ih =>
      cases segs with
      | nil => rfl
      | cons seg' segs =>
          rw [concatPathSegment, ih (List.cons_ne_nil _ _)]
          · rfl
          · exact List.cons_ne_nil _ _

theorem bgpsecDup_eq {bpa : BgpsecPathAttr} {sb : SigBlock} (hsegs : bpa.pathSegments ≠ [])
    (hsb : bpa.sigBlocks = [sb]) (hsigs : sb.sigSegments ≠ [])
    (hwf : ∀ ss ∈ sb.sigSegments, ss.WellFormed) (newIfNULL : Bool) :
    bgpsecDup (some bpa) newIfNULL = some (some bpa) := by
  obtain ⟨spl, segs, sbs⟩ := bpa
  obtain ⟨len, algo, sigs⟩ := sb
  dsimp only at hsegs hsb hsigs hwf
  subst hsb
  have hsanity : bgpsecSanityCheck (some ⟨spl, segs, [⟨len, algo, sigs⟩]⟩) = 0 := by
    match segs, sigs, hsegs, hsigs, hwf with
    | _ :: _, ss :: _, _, _, hwf =>
        obtain ⟨⟨ski, hski, -⟩, ⟨sig, hsig, -⟩⟩ := hwf ss (by simp)
        simp [bgpsecSanityCheck, hski, hsig]
  rw [bgpsecDup]
  · dsimp only
    rw [concatPathSegment_eq hsegs, concatSigBlock, concatSigSegment_eq hsigs hwf]
    rfl
  · exact hsanity

/-! ### What the encoder appends -/

theorem putPathSegments_eq (s : Stream) (segs : List PathSegment) :
    putPathSegments s segs = s ++ segs.flatMap PathSegment.wire := by
  induction segs generalizing s with
  | nil => rw [putPathSegments, List.flatMap_nil, List.append_nil]
  | cons seg segs ih =>
      rw [putPathSegments, ih, List.flatMap_cons]
      simp [streamPutc, streamPutl, PathSegment.wire]

theorem streamPutFrom_eq {buf : List UInt8} {size : Nat} (h : buf.length = size) (s : Stream) :
    streamPutFrom s (some buf) size = some (s ++ buf) := by
  rw [streamPutFrom, if_neg (by omega), List.take_of_length_le (by omega), streamPut]

theorem putSigSegments_eq {sigs : List SigSegment} (h : ∀ ss ∈ sigs, ss.WellFormed) (s : Stream) :
    putSigSegments s sigs = some (s ++ sigs.flatMap SigSegment.wire) := by
  induction sigs generalizing s with
  | nil => rw [putSigSegments, List.flatMap_nil, List.append_nil]
  | cons ss sigs ih =>
      obtain ⟨⟨ski, hski, hskiLen⟩, ⟨sig, hsig, hsigLen⟩⟩ := h ss (by simp)
      have hput := streamPutFrom_eq hskiLen s
      have hput' := streamPutFrom_eq hsigLen (streamPutw (s ++ ski) ss.sigLen)
      have hrest := ih fun x hx => h x (List.mem_cons_of_mem _ hx)
      rw [putSigSegments, hski, hput]
      dsimp only
      rw [hsig, hput']
      dsimp only
      rw [hrest, List.flatMap_cons, SigSegment.wire, hski, hsig]
      simp [streamPutw]

/-- A block is written with its length field filled in. -/
theorem putSigBlock_eq (sb : SigBlock) (h : ∀ ss ∈ sb.sigSegments, ss.WellFormed) (s : Stream)
    (sig : SCASignature) :
    putSigBlock s sb sig = some (s ++ SigBlock.wire
      ⟨UInt16.ofNat (3 + sigOctets (sig.toSegment :: sb.sigSegments)), sb.algoSuiteId,
        sig.toSegment :: sb.sigSegments⟩) := by
  have hwf : ∀ ss ∈ sig.toSegment :: sb.sigSegments, ss.WellFormed := by
    intro ss hss
    rcases List.mem_cons.mp hss with rfl | hss
    · exact sig.toSegment_wellFormed
    · exact h ss hss
  -- what follows the length field
  have hbody : streamPut (streamPutw (streamPut (streamPutc (streamPutw s 0) sb.algoSuiteId)
        sig.ski) sig.sigLen) sig.sigBuff ++ sb.sigSegments.flatMap SigSegment.wire =
      s ++ be16 0 ++ (sb.algoSuiteId :: (sig.toSegment :: sb.sigSegments).flatMap
        SigSegment.wire) := by
    simp [streamPut, streamPutw, streamPutc, SigSegment.wire, SCASignature.toSegment]
  have hlen : (s ++ be16 0 ++ (sb.algoSuiteId :: (sig.toSegment :: sb.sigSegments).flatMap
      SigSegment.wire)).length - s.length =
      3 + sigOctets (sig.toSegment :: sb.sigSegments) := by
    rw [List.length_append, List.length_append, List.length_cons,
      flatMap_sigSegment_wire_length hwf, be16_length]
    omega
  rw [putSigBlock, putSigSegments_eq h, hbody]
  simp only [hlen]
  rw [streamPutwAt_append, SigBlock.wire]
  simp

/-- An originated signature gets a block of its own. -/
theorem putSigBlocks_new (s : Stream) (sig : SCASignature) :
    putSigBlocks 1 [] s [sig] = some (.done [] (s ++ SigBlock.wire
      ⟨UInt16.ofNat (3 + sigOctets [sig.toSegment]), sig.algoID, [sig.toSegment]⟩)) := by
  have hput := putSigBlock_eq ⟨0, sig.algoID, []⟩ (by simp) s sig
  simp only [putSigBlocks, findBlock]
  rw [if_neg (not_not_intro rfl), hput]

/-- A signature is put in front of those of the one block with its algorithm. -/
theorem putSigBlocks_found {sb : SigBlock} {sig : SCASignature} (halgo : sb.algoSuiteId = sig.algoID)
    (h : ∀ ss ∈ sb.sigSegments, ss.WellFormed) (numPathSegments : Nat) (s : Stream) :
    putSigBlocks numPathSegments [⟨sb, false⟩] s [sig] = some (.done [] (s ++ SigBlock.wire
      ⟨UInt16.ofNat (3 + sigOctets (sig.toSegment :: sb.sigSegments)), sig.algoID,
        sig.toSegment :: sb.sigSegments⟩)) := by
  have hfind : findBlock sig.algoID [⟨sb, false⟩] = some (.found [] sb []) := by
    simp [findBlock, halgo]
  rw [putSigBlocks, hfind]
  dsimp only
  rw [putSigBlock_eq sb h, halgo]
  rfl

/-- The encoder on a copy whose blocks are all taken out of the list. -/
theorem constructBGPSecPathAttribute_of_dup {attr : Option BgpsecPathAttr} {bpa : BgpsecPathAttr}
    (hdup : bgpsecDup attr true = some (some bpa)) {signatures : List SCASignature}
    {blocks : List UInt8}
    (hblocks : ∀ s, putSigBlocks (1 + bpa.pathSegments.length)
      (bpa.sigBlocks.map fun sb => ⟨sb, false⟩) s signatures = some (.done [] (s ++ blocks)))
    {spl : UInt64} (hspl : UInt64.ofNat octetSecurePathSegment +
      (if bpa.securePathLen = 0 then 2 else bpa.securePathLen) = spl)
    (bgpAs : UInt32) (flags pCount : UInt8) (s : Stream) :
    constructBGPSecPathAttribute bgpAs attr s flags pCount signatures =
      some (UInt16.ofNat (be16 spl.toUInt16 ++
          (PathSegment.mk bgpAs pCount flags :: bpa.pathSegments).flatMap PathSegment.wire ++
          blocks).length,
        s ++ (be16 spl.toUInt16 ++
          (PathSegment.mk bgpAs pCount flags :: bpa.pathSegments).flatMap PathSegment.wire ++
          blocks)) := by
  have hpath : putPathSegments (streamPutl (streamPutc (streamPutc
        (streamPutw s spl.toUInt16) pCount) flags) bgpAs) bpa.pathSegments ++ blocks =
      s ++ (be16 spl.toUInt16 ++
        (PathSegment.mk bgpAs pCount flags :: bpa.pathSegments).flatMap PathSegment.wire ++
        blocks) := by
    rw [putPathSegments_eq]
    simp [streamPutw, streamPutc, streamPutl, PathSegment.wire]
  rw [constructBGPSecPathAttribute, hdup]
  dsimp only
  rw [hspl, hblocks, hpath]
  dsimp only
  rw [List.any_nil, List.length_append, Nat.add_sub_cancel_left]
  rfl

/-- The encoder appends the wire format of the extended attribute and returns its length. -/
theorem constructBGPSecPathAttribute_eq {attr : Option BgpsecPathAttr} {sig : SCASignature}
    (hattr : Extensible sig.algoID attr) (bgpAs : UInt32) (flags pCount : UInt8) (s : Stream) :
    constructBGPSecPathAttribute bgpAs attr s flags pCount [sig] =
      some (UInt16.ofNat (extended attr ⟨bgpAs, pCount, flags⟩ sig).wire.length,
        s ++ (extended attr ⟨bgpAs, pCount, flags⟩ sig).wire) := by
  cases attr with
  | none =>
      have hdup : bgpsecDup none true = some (some bgpsecPathAttrNew) := rfl
      rw [constructBGPSecPathAttribute_of_dup hdup (fun s => putSigBlocks_new s sig) rfl]
      simp [BgpsecPathAttr.wire, extended, oldSegments, oldSignatures, bgpsecPathAttrNew,
        octetSecurePathSegment]
  | some bpa =>
      obtain ⟨hsegs, hlen, sb, hsb, halgo, hcount, hwf⟩ := hattr bpa rfl
      have hsegs' : bpa.pathSegments ≠ [] := List.length_pos_iff.mp hsegs
      have hsigs : sb.sigSegments ≠ [] := List.length_pos_iff.mp (by omega)
      have hdup := bgpsecDup_eq hsegs' hsb hsigs hwf true
      have hblocks : ∀ s, putSigBlocks (1 + bpa.pathSegments.length)
          (bpa.sigBlocks.map fun sb => ⟨sb, false⟩) s [sig] = some (.done [] (s ++ SigBlock.wire
            ⟨UInt16.ofNat (3 + sigOctets (sig.toSegment :: sb.sigSegments)), sig.algoID,
              sig.toSegment :: sb.sigSegments⟩)) := by
        intro s
        rw [hsb]
        exact putSigBlocks_found halgo hwf _ s
      have hspl : UInt64.ofNat octetSecurePathSegment +
          (if bpa.securePathLen = 0 then 2 else bpa.securePathLen) =
          UInt64.ofNat (2 + 6 * (PathSegment.mk bgpAs pCount flags :: bpa.pathSegments).length) := by
        have hne : bpa.securePathLen ≠ 0 := by
          intro hz
          rw [hz] at hlen
          change 0 = _ at hlen
          omega
        have hspl := UInt64.ofNat_toNat (x := bpa.securePathLen)
        rw [if_neg hne, ← hspl, hlen, ← UInt64.ofNat_add, List.length_cons]
        congr 1
        rw [octetSecurePathSegment]
        omega
      rw [constructBGPSecPathAttribute_of_dup hdup hblocks hspl]
      simp [BgpsecPathAttr.wire, extended, oldSegments, oldSignatures, hsb]

/-! ### Reading it back -/

/-- The extended attribute is a BGPSEC_Path attribute when it is not too long for one. -/
theorem extended_onWire {attr : Option BgpsecPathAttr} {sig : SCASignature}
    (hattr : Extensible sig.algoID attr) (own : PathSegment)
    (hsize : 2 + 6 * (own :: oldSegments attr).length +
      (3 + sigOctets (sig.toSegment :: oldSignatures attr)) ≤ 65535) :
    OnWire (extended attr own sig).wire (extended attr own sig) := by
  have hold : (oldSignatures attr).length = (oldSegments attr).length ∧
      ∀ ss ∈ oldSignatures attr, ss.WellFormed := by
    cases attr with
    | none => exact ⟨rfl, by simp [oldSignatures]⟩
    | some bpa =>
        obtain ⟨-, -, sb, hsb, -, hcount, hwf⟩ := hattr bpa rfl
        have hsigs : oldSignatures (some bpa) = sb.sigSegments := by
          simp [oldSignatures, hsb]
        rw [hsigs]
        exact ⟨hcount, hwf⟩
  have hlen : (extended attr own sig).securePathLen.toNat =
      2 + 6 * (own :: oldSegments attr).length := by
    rw [extended, UInt64.toNat_ofNat', Nat.mod_eq_of_lt (by omega)]
  refine ⟨?_, hlen, by omega, ⟨Nat.le_refl 1, Nat.le_succ 1⟩, ?_, rfl⟩
  · exact Nat.succ_le_succ (Nat.zero_le _)
  · intro sb hsb
    rcases List.mem_singleton.mp hsb with rfl
    refine ⟨congrArg (· + 1) hold.1, ?_, ?_⟩
    · intro ss hss
      rcases List.mem_cons.mp hss with rfl | hss
      · exact sig.toSegment_wellFormed
      · exact hold.2 ss hss
    · exact toNat_ofNat16 (by omega)

/-- What `constructBGPSecPathAttribute` appends is read back by `bgpsec_parse` as the attribute
    with the own segment and the new signature in front, and its length is returned. -/
theorem constructBGPSecPathAttribute_parse (attr : Option BgpsecPathAttr) (sig : SCASignature)
    (hattr : Extensible sig.algoID attr) (own : PathSegment)
    (hsize : 2 + 6 * (own :: oldSegments attr).length +
      (3 + sigOctets (sig.toSegment :: oldSignatures attr)) ≤ 65535) (s : Stream) :
    ∃ octets ret, constructBGPSecPathAttribute own.as attr s own.flags own.pCount [sig] =
        some (ret, s ++ octets) ∧
      ret.toNat = octets.length ∧
      ∃ fuel, bgpsecParse fuel octets octets.length = some (some
        ⟨UInt64.ofNat (2 + 6 * (own :: oldSegments attr).length), own :: oldSegments attr,
          [⟨UInt16.ofNat (3 + sigOctets (sig.toSegment :: oldSignatures attr)), sig.algoID,
            sig.toSegment :: oldSignatures attr⟩]⟩) := by
  have honWire := extended_onWire hattr own hsize
  refine ⟨(extended attr own sig).wire, _,
    constructBGPSecPathAttribute_eq hattr own.as own.flags own.pCount s, ?_, ?_⟩
  · apply toNat_ofNat16
    have hblock := (honWire.onWire _ (List.mem_singleton.mpr rfl)).wire_length
    have hlen : (extended attr own sig).wire.length = 2 + 6 * (own :: oldSegments attr).length +
        (3 + sigOctets (sig.toSegment :: oldSignatures attr)) := by
      rw [BgpsecPathAttr.wire, List.length_append, List.length_append, be16_length,
        flatMap_pathSegment_wire_length, ← hblock]
      simp [extended]
    change (extended attr own sig).wire.length < 2 ^ 16
    omega
  · exact accepts_of_admitted ((onWire_iff _ _).mp honWire).1

/-- A second hop: the attribute of AS 1 extended by AS 2. -/
theorem constructBGPSecPathAttribute_parse_second_hop :
    Extensible 1 (some ⟨8, [⟨1, 1, 0⟩], [⟨26, 1, [⟨some (List.replicate 20 7), 1, some [9]⟩]⟩]⟩) ∧
      ∃ octets ret, constructBGPSecPathAttribute 2
          (some ⟨8, [⟨1, 1, 0⟩], [⟨26, 1, [⟨some (List.replicate 20 7), 1, some [9]⟩]⟩]⟩)
          [64] 0 1 [⟨1, List.replicate 20 5, 2, [3, 4], rfl, rfl⟩] = some (ret, [64] ++ octets) ∧
        ret.toNat = octets.length ∧
        ∃ fuel, bgpsecParse fuel octets octets.length = some (some
          ⟨14, [⟨2, 1, 0⟩, ⟨1, 1, 0⟩], [⟨50, 1, [⟨some (List.replicate 20 5), 2, some [3, 4]⟩,
            ⟨some (List.replicate 20 7), 1, some [9]⟩]⟩]⟩) := by
  have hattr : Extensible 1
      (some ⟨8, [⟨1, 1, 0⟩], [⟨26, 1, [⟨some (List.replicate 20 7), 1, some [9]⟩]⟩]⟩) := by
    intro bpa hbpa
    cases hbpa
    refine ⟨by decide, by decide, _, rfl, rfl, rfl, ?_⟩
    intro ss hss
    rcases List.mem_singleton.mp hss with rfl
    exact ⟨⟨_, rfl, rfl⟩, ⟨_, rfl, rfl⟩⟩
  exact ⟨hattr, constructBGPSecPathAttribute_parse _
    ⟨1, List.replicate 20 5, 2, [3, 4], rfl, rfl⟩ hattr ⟨2, 1, 0⟩ (by decide) [64]⟩

end SrxNote.Quagga
