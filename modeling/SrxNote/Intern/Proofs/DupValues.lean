import SrxNote.Intern.Proofs.Copies
import SrxNote.Quagga.Proofs.RoundTrip

/-!
# The values of `bgpsecDup`

Without the addresses, the copy that `bgpsecDup` makes in memory is the one that
the encoder of the attribute works on (`bgpsecDup_attr`).
-/

namespace SrxNote.Intern
open SrxNote.Bgpsec

theorem assertBuffer_octets (m : Memory) (src : Option HeapBuffer) (size : Nat) :
    (assertBuffer m src size).map (fun r => octets r.2) =
      (Quagga.copyBuffer (octets src) size).map some := by
  cases src with
  | none => rfl
  | some b =>
      by_cases hlen : b.octets.length < size <;>
        simp [assertBuffer, copyBuffer, Quagga.copyBuffer, octets, hlen]

theorem copySigSegment_segment (m : Memory) (new : Nat) (src : SigNode) :
    (copySigSegment assertBuffer m new src).map (fun r => r.2.segment) =
      Quagga.copySigSegment src.segment := by
  have hski := assertBuffer_octets m src.ski skiLength
  rw [copySigSegment, Quagga.copySigSegment, SigNode.segment]
  cases hcopy : assertBuffer m src.ski skiLength with
  | none =>
      rw [hcopy, Option.map_none, eq_comm, Option.map_eq_none_iff] at hski
      simp [hski]
  | some r =>
      obtain ⟨m₁, ski⟩ := r
      rw [hcopy, Option.map_some, eq_comm, Option.map_eq_some_iff] at hski
      obtain ⟨skiOctets, hski, hskiOctets⟩ := hski
      have hsig := assertBuffer_octets m₁ src.signature src.sigLen.toNat
      cases hcopy' : assertBuffer m₁ src.signature src.sigLen.toNat with
      | none =>
          rw [hcopy', Option.map_none, eq_comm, Option.map_eq_none_iff] at hsig
          simp [hski, hsig, hcopy']
      | some r =>
          obtain ⟨m₂, sig⟩ := r
          rw [hcopy', Option.map_some, eq_comm, Option.map_eq_some_iff] at hsig
          obtain ⟨sigOctets, hsig, hsigOctets⟩ := hsig
          simp [hski, hsig, hcopy', ← hskiOctets, ← hsigOctets, SigNode.segment]

theorem quagga_concatSigSegment_eq {sss : List SigSegment} (h : sss ≠ []) :
    Quagga.concatSigSegment sss = sss.mapM Quagga.copySigSegment := by
  induction sss with
  | nil => exact absurd rfl h
  | cons ss sss ih =>
      cases sss with
      | nil =>
          rw [Quagga.concatSigSegment]
          cases hcopy : Quagga.copySigSegment ss <;> simp [hcopy]
      | cons next rest =>
          rw [Quagga.concatSigSegment, List.mapM_cons, ih (by simp)]
          · cases Quagga.copySigSegment ss with
            | none => rfl
            | some ss' => cases (next :: rest).mapM Quagga.copySigSegment <;> rfl
          · simp

theorem concatSigSegment_segment {srcs : List SigNode} (hne : srcs ≠ []) (m : Memory) (new : Nat) :
    (concatSigSegment m (some new) srcs).map (fun r => r.2.map SigNode.segment) =
      Quagga.concatSigSegment (srcs.map SigNode.segment) := by
  rw [quagga_concatSigSegment_eq (by simpa using hne), List.mapM_map]
  exact Heap.copyChain_map SigNode.segment copySigSegment_segment hne m new

theorem concatPathSegment_segment {srcs : List PathNode} (hne : srcs ≠ []) (m : Memory)
    (new : Nat) :
    (concatPathSegment m new srcs).map (fun r => r.2.map PathNode.segment) =
      Quagga.concatPathSegment (srcs.map PathNode.segment) := by
  have hfill : ∀ (m : Memory) new (src : PathNode),
      (some (m, (⟨new, src.segment⟩ : PathNode))).map (fun r => r.2.segment) = some src.segment :=
    fun _ _ _ => rfl
  rw [Quagga.concatPathSegment_eq (by simpa using hne), concatPathSegment,
    Heap.copyChain_map PathNode.segment hfill hne m new]
  exact List.mapM_pure

/-- Behind the first block the copies have no signature segments. -/
theorem concatSigBlock_none_block (srcs : List BlockNode) (hne : srcs ≠ []) (m : Memory)
    (new : Nat) :
    (concatSigBlock m new none srcs).map (fun r => r.2.map BlockNode.block) =
      some ((srcs.map BlockNode.block).map fun sb => { sb with sigSegments := [] }) := by
  induction srcs generalizing m new with
  | nil => exact absurd rfl hne
  | cons src srcs ih =>
      cases srcs with
      | nil => rfl
      | cons next rest =>
          have hrest := ih (by simp) (m.alloc 0) m.fresh
          rw [Option.map_eq_some_iff] at hrest
          obtain ⟨⟨m', sbs⟩, hsbs, hblocks⟩ := hrest
          rw [concatSigBlock]
          simp only [concatSigSegment, hsbs, Option.map_some]
          rw [List.map_cons, List.map_cons, List.map_cons, ← hblocks]
          rfl

theorem concatSigBlock_block {src : BlockNode} (srcs : List BlockNode)
    (hne : src.sigSegments ≠ []) (m : Memory) (new newSig : Nat) :
    (concatSigBlock m new (some newSig) (src :: srcs)).map (fun r => r.2.map BlockNode.block) =
      Quagga.concatSigBlock ((src :: srcs).map BlockNode.block) := by
  have hvalues := concatSigSegment_segment hne m newSig
  rw [List.map_cons, Quagga.concatSigBlock, BlockNode.block, ← hvalues, concatSigBlock]
  cases concatSigSegment m (some newSig) src.sigSegments with
  | none => rfl
  | some r =>
      obtain ⟨m₁, sss⟩ := r
      cases srcs with
      | nil => rfl
      | cons next rest =>
          have hrest := concatSigBlock_none_block (next :: rest) (by simp) (m₁.alloc 0) m₁.fresh
          rw [Option.map_eq_some_iff] at hrest
          obtain ⟨⟨m₂, sbs⟩, hsbs, hblocks⟩ := hrest
          simp only [hsbs, Option.map_some, ← hblocks]
          rfl

/-- The copy in memory holds the values that the copy without memory has. -/
theorem bgpsecDup_attr (m : Memory) (orig : Option AttrNode) (newIfNULL : Bool) :
    (bgpsecDup m orig newIfNULL).map (fun r => r.2.map AttrNode.attr) =
      Quagga.bgpsecDup (orig.map AttrNode.attr) newIfNULL := by
  cases orig with
  | none => cases newIfNULL <;> rfl
  | some orig =>
      by_cases hsanity : bgpsecSanityCheck (some orig.attr) = 0
      · obtain ⟨sb, sbs, hsegs, hsbs, hsss⟩ := bgpsecSanityCheck_node hsanity
        have hpath := concatPathSegment_segment hsegs
          ((((m.alloc 0).alloc 0).alloc 0).alloc 0) (m.fresh + 1)
        rw [bgpsecDup_eq hsanity, dupAttr]
        simp only [Quagga.bgpsecDup, Option.map_some, hsanity]
        rw [show orig.attr.pathSegments = orig.pathSegments.map PathNode.segment from rfl,
          ← hpath]
        cases concatPathSegment ((((m.alloc 0).alloc 0).alloc 0).alloc 0) (m.fresh + 1)
            orig.pathSegments with
        | none => rfl
        | some r =>
            obtain ⟨m₁, segs⟩ := r
            have hblocks := concatSigBlock_block sbs hsss m₁ (m.fresh + 2) (m.fresh + 3)
            rw [show orig.attr.sigBlocks = orig.sigBlocks.map BlockNode.block from rfl, hsbs,
              ← hblocks]
            cases hcopy : concatSigBlock m₁ (m.fresh + 2) (some (m.fresh + 3)) (sb :: sbs) with
            | none => simp [hcopy]
            | some r => simp [hcopy, AttrNode.attr]
      · have hvalues : Quagga.bgpsecDup (some orig.attr) newIfNULL =
            some (if newIfNULL then some Quagga.bgpsecPathAttrNew else none) := by
          simp [Quagga.bgpsecDup, hsanity]
        have hnodes : bgpsecDup m (some orig) newIfNULL =
            some (if newIfNULL then (m.alloc 0, some ⟨m.fresh, 0, [], []⟩) else (m, none)) := by
          simp [bgpsecDup, hsanity]
        rw [Option.map_some, hvalues, hnodes]
        cases newIfNULL <;> rfl

end SrxNote.Intern
