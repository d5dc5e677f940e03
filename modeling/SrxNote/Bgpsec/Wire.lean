import SrxNote.Bgpsec.Attr

/-!
# The BGPSEC_Path wire format

What a BGPSEC_Path attribute looks like as octets, stated on its own and not
read off the parser: a two-octet Secure_Path length, the Secure_Path segments,
and one or two Signature_Blocks, each with as many signature segments as there
are path segments and with a length field that counts the whole block.
-/

namespace SrxNote.Bgpsec

/-- The six octets of a Secure_Path segment. -/
def PathSegment.wire (seg : PathSegment) : List UInt8 :=
  [seg.pCount, seg.flags] ++ be32 seg.as

/-- A signature segment: SKI, signature length, signature. -/
def SigSegment.wire (ss : SigSegment) : List UInt8 :=
  ss.ski.getD [] ++ be16 ss.sigLen ++ ss.signature.getD []

/-- The buffers of a signature segment have the sizes that go with it. -/
structure SigSegment.WellFormed (ss : SigSegment) : Prop where
  ski : ∃ ski, ss.ski = some ski ∧ ski.length = skiLength
  signature : ∃ signature, ss.signature = some signature ∧ signature.length = ss.sigLen.toNat

/-- The number of octets of a list of signature segments. -/
def sigOctets (sigs : List SigSegment) : Nat := (sigs.map fun ss => 22 + ss.sigLen.toNat).sum

/-- A Signature_Block: length, algorithm suite, signature segments. -/
def SigBlock.wire (sb : SigBlock) : List UInt8 :=
  be16 sb.sigBlockLen ++ [sb.algoSuiteId] ++ sb.sigSegments.flatMap SigSegment.wire

/-- A block that carries `n` signature segments and whose length field is right. -/
structure SigBlock.OnWire (n : Nat) (sb : SigBlock) : Prop where
  count : sb.sigSegments.length = n
  segments : ∀ ss ∈ sb.sigSegments, ss.WellFormed
  len : sb.sigBlockLen.toNat = 3 + sigOctets sb.sigSegments

/-- The octets of an attribute. -/
def BgpsecPathAttr.wire (bpa : BgpsecPathAttr) : List UInt8 :=
  be16 bpa.securePathLen.toUInt16 ++ bpa.pathSegments.flatMap PathSegment.wire ++
    bpa.sigBlocks.flatMap SigBlock.wire

/-- The octets are a BGPSEC_Path attribute with the values of `bpa`: `n ≥ 1` path segments,
    a Secure_Path length that fits its two octets, and one or two blocks of `n` signatures. -/
structure OnWire (octets : List UInt8) (bpa : BgpsecPathAttr) : Prop where
  segments : 1 ≤ bpa.pathSegments.length
  len : bpa.securePathLen.toNat = 2 + 6 * bpa.pathSegments.length
  fits : bpa.securePathLen.toNat < 2 ^ 16
  blocks : 1 ≤ bpa.sigBlocks.length ∧ bpa.sigBlocks.length ≤ bgpsecMaxSigblock
  onWire : ∀ sb ∈ bpa.sigBlocks, sb.OnWire bpa.pathSegments.length
  wire : octets = bpa.wire

/-- The shape that the validation loop and the encoder rely on: as many path segments as the
    Secure_Path length says, one or two blocks, and in every block one signature segment with
    its buffers for each path segment. -/
structure BgpsecPathAttr.Shape (bpa : BgpsecPathAttr) : Prop where
  segments : bpa.pathSegments.length = (bpa.securePathLen.toNat - 2) / 6
  blocks : 1 ≤ bpa.sigBlocks.length ∧ bpa.sigBlocks.length ≤ bgpsecMaxSigblock
  signatures : ∀ sb ∈ bpa.sigBlocks, sb.sigSegments.length = (bpa.securePathLen.toNat - 2) / 6 ∧
    ∀ ss ∈ sb.sigSegments, ss.WellFormed

@[simp] theorem PathSegment.wire_length (seg : PathSegment) : seg.wire.length = 6 := by
  simp [PathSegment.wire]

theorem SigSegment.WellFormed.wire_length {ss : SigSegment} (h : ss.WellFormed) :
    ss.wire.length = 22 + ss.sigLen.toNat := by
  obtain ⟨ski, hski, hskiLen⟩ := h.ski
  obtain ⟨sig, hsig, hsigLen⟩ := h.signature
  simp only [SigSegment.wire, hski, hsig, Option.getD_some, List.length_append, be16_length,
    hskiLen, hsigLen, skiLength]

@[simp] theorem sigOctets_nil : sigOctets [] = 0 := rfl

@[simp] theorem sigOctets_cons (ss : SigSegment) (sigs : List SigSegment) :
    sigOctets (ss :: sigs) = 22 + ss.sigLen.toNat + sigOctets sigs := by
  simp [sigOctets]

theorem flatMap_pathSegment_wire_length (segs : List PathSegment) :
    (segs.flatMap PathSegment.wire).length = 6 * segs.length := by
  induction segs with
  | nil => rfl
  | cons seg segs ih =>
      rw [List.flatMap_cons, List.length_append, PathSegment.wire_length, ih, List.length_cons]
      omega

theorem flatMap_sigSegment_wire_length {sigs : List SigSegment} (h : ∀ ss ∈ sigs, ss.WellFormed) :
    (sigs.flatMap SigSegment.wire).length = sigOctets sigs := by
  induction sigs with
  | nil => rfl
  | cons ss sigs ih =>
      have hss := h ss (by simp)
      rw [List.flatMap_cons, List.length_append, hss.wire_length, sigOctets_cons,
        ih fun x hx => h x (List.mem_cons_of_mem _ hx)]

theorem SigBlock.OnWire.wire_length {n : Nat} {sb : SigBlock} (h : sb.OnWire n) :
    sb.wire.length = 3 + sigOctets sb.sigSegments := by
  rw [SigBlock.wire, List.length_append, List.length_append, be16_length,
    flatMap_sigSegment_wire_length h.segments]
  rfl

end SrxNote.Bgpsec
