import SrxNote.Intern.Nodes

/-!
# What `bgpsec_path_free` frees

Releasing an attribute frees its nodes and buffers in the order of
`AttrNode.addrs`. It clears a buffer first, for which the buffer has to be as
long as the function takes it to be (`SigNode.Fits`).
-/

namespace SrxNote.Intern
open SrxNote.Bgpsec

/-- The buffers that are there have the octets that are cleared when they are freed. -/
structure SigNode.Fits (ss : SigNode) : Prop where
  ski : ∀ b ∈ ss.ski, skiLength ≤ b.octets.length
  signature : ∀ b ∈ ss.signature, ss.sigLen.toNat ≤ b.octets.length

/-- All buffers of the attribute fit. -/
def AttrNode.Fits (bpa : AttrNode) : Prop := ∀ sb ∈ bpa.sigBlocks, ∀ ss ∈ sb.sigSegments, ss.Fits

theorem freeBuffer_of_fits {buf : Option HeapBuffer} {size : Nat}
    (h : ∀ b ∈ buf, size ≤ b.octets.length) (m : Memory) :
    freeBuffer m buf size = m.freeAll (bufferAddrs buf) := by
  cases buf with
  | none => rfl
  | some b =>
      have hle : ¬ b.octets.length < size := Nat.not_lt.mpr (h b rfl)
      simp [freeBuffer, hle, bufferAddrs, Heap.freeAll]

theorem fits_of_freeBuffer {m m' : Memory} {buf : Option HeapBuffer} {size : Nat}
    (h : freeBuffer m buf size = some m') : ∀ b ∈ buf, size ≤ b.octets.length := by
  intro b hb
  cases hb
  simp only [freeBuffer] at h
  split at h
  · cases h
  · omega

theorem sigSegmentFree_of_fits {ss : SigNode} (h : ss.Fits) (m : Memory) :
    sigSegmentFree m ss = m.freeAll ss.addrs := by
  rw [sigSegmentFree, SigNode.addrs, Heap.freeAll_append, freeBuffer_of_fits h.ski]
  congr 1
  funext m'
  rw [Heap.freeAll_append, freeBuffer_of_fits h.signature]
  simp [Heap.freeAll]

theorem fits_of_sigSegmentFree {m m' : Memory} {ss : SigNode}
    (h : sigSegmentFree m ss = some m') : ss.Fits := by
  obtain ⟨m₁, hski, h⟩ := Option.bind_eq_some_iff.mp h
  obtain ⟨m₂, hsig, -⟩ := Option.bind_eq_some_iff.mp h
  exact ⟨fits_of_freeBuffer hski, fits_of_freeBuffer hsig⟩

theorem sigSegmentFreeAll_of_fits {sss : List SigNode} (h : ∀ ss ∈ sss, ss.Fits) (m : Memory) :
    sigSegmentFreeAll m sss = m.freeAll (sss.flatMap SigNode.addrs) := by
  induction sss generalizing m with
  | nil => rfl
  | cons ss sss ih =>
      rw [sigSegmentFreeAll, List.flatMap_cons, Heap.freeAll_append,
        sigSegmentFree_of_fits (h ss (by simp))]
      congr 1
      funext m'
      exact ih (fun ss' hss' => h ss' (List.mem_cons_of_mem ss hss')) m'

theorem fits_of_sigSegmentFreeAll {m m' : Memory} {sss : List SigNode}
    (h : sigSegmentFreeAll m sss = some m') : ∀ ss ∈ sss, ss.Fits := by
  induction sss generalizing m with
  | nil => simp
  | cons ss sss ih =>
      obtain ⟨m₁, hfirst, hrest⟩ := Option.bind_eq_some_iff.mp h
      intro ss' hss'
      rcases List.mem_cons.mp hss' with rfl | hss'
      · exact fits_of_sigSegmentFree hfirst
      · exact ih hrest ss' hss'

theorem bgpsecSigBlockFreeAll_of_fits {sbs : List BlockNode}
    (h : ∀ sb ∈ sbs, ∀ ss ∈ sb.sigSegments, ss.Fits) (m : Memory) :
    bgpsecSigBlockFreeAll m sbs = m.freeAll (sbs.flatMap BlockNode.addrs) := by
  induction sbs generalizing m with
  | nil => rfl
  | cons sb sbs ih =>
      have hblock : ∀ m : Memory, bgpsecSigBlockFree m sb = m.freeAll sb.addrs := by
        intro m
        rw [bgpsecSigBlockFree, BlockNode.addrs, Heap.freeAll_append,
          sigSegmentFreeAll_of_fits (h sb (by simp))]
        simp [Heap.freeAll]
      rw [bgpsecSigBlockFreeAll, List.flatMap_cons, Heap.freeAll_append, hblock]
      congr 1
      funext m'
      exact ih (fun sb' hsb' => h sb' (List.mem_cons_of_mem sb hsb')) m'

theorem fits_of_bgpsecSigBlockFreeAll {m m' : Memory} {sbs : List BlockNode}
    (h : bgpsecSigBlockFreeAll m sbs = some m') : ∀ sb ∈ sbs, ∀ ss ∈ sb.sigSegments, ss.Fits := by
  induction sbs generalizing m with
  | nil => simp
  | cons sb sbs ih =>
      obtain ⟨m₁, hfirst, hrest⟩ := Option.bind_eq_some_iff.mp h
      intro sb' hsb'
      rcases List.mem_cons.mp hsb' with rfl | hsb'
      · obtain ⟨m₂, hsegs, -⟩ := Option.bind_eq_some_iff.mp hfirst
        exact fits_of_sigSegmentFreeAll hsegs
      · exact ih hrest sb' hsb'

theorem bgpsecPathFree_of_fits {bpa : AttrNode} (h : bpa.Fits) (m : Memory) :
    bgpsecPathFree m bpa = m.freeAll bpa.addrs := by
  rw [bgpsecPathFree, AttrNode.addrs, Heap.freeAll_append]
  congr 1
  funext m'
  rw [Heap.freeAll_append, bgpsecSigBlockFreeAll_of_fits h]
  simp [Heap.freeAll]

/-- A release that succeeds freed all addresses of the attribute. -/
theorem bgpsecPathFree_some {m m' : Memory} {bpa : AttrNode} (h : bgpsecPathFree m bpa = some m') :
    m.freeAll bpa.addrs = some m' := by
  have hfits : bpa.Fits := by
    obtain ⟨m₁, -, hrest⟩ := Option.bind_eq_some_iff.mp h
    obtain ⟨m₂, hblocks, -⟩ := Option.bind_eq_some_iff.mp hrest
    exact fits_of_bgpsecSigBlockFreeAll hblocks
  rw [← bgpsecPathFree_of_fits hfits]
  exact h

end SrxNote.Intern
