import SrxNote.Intern.Copy
import SrxNote.Intern.Proofs.Compare
import SrxNote.Intern.Proofs.Release

/-!
# What the copies of a BGPsec path are

Both copy functions take over the content of the path segments and of the
signature segments they reach, into newly allocated nodes and buffers. They
reach those of the first block only: `bgpsec_path_hash_alloc` shares the blocks
behind it with the original, `bgpsecDup` leaves them without signatures.
-/

namespace SrxNote.Intern
open SrxNote.Bgpsec

variable {m m' : Memory} {new : Nat}

/-! ### The parts of a copy -/

/-- A way to copy a buffer: what it allocates is the copy, of which the same octets can be read. -/
def CopiesBuffer
    (copy : Memory → Option HeapBuffer → Nat → Option (Memory × Option HeapBuffer)) : Prop :=
  ∀ m src size m' buf, copy m src size = some (m', buf) →
    Heap.Allocated 0 m m' (bufferAddrs buf) ∧
    Buffer.read (octets buf) size = Buffer.read (octets src) size ∧
    ∀ b ∈ buf, size ≤ b.octets.length

theorem copyBuffer_spec {src : HeapBuffer} {size : Nat} {buf : Option HeapBuffer}
    (h : copyBuffer m src size = some (m', buf)) :
    Heap.Allocated 0 m m' (bufferAddrs buf) ∧
      Buffer.read (octets buf) size = Buffer.read (octets (some src)) size ∧
      ∀ b ∈ buf, size ≤ b.octets.length := by
  rw [copyBuffer] at h
  split at h
  · cases h
  · rename_i hlen
    have hle : size ≤ src.octets.length := Nat.le_of_not_lt hlen
    cases h
    refine ⟨Heap.Allocated.alloc 0 m, ?_, ?_⟩
    · simp [Buffer.read, octets, hle]
    · intro b hb
      cases hb
      simp [hle]

theorem copiesBuffer_assertBuffer : CopiesBuffer assertBuffer := by
  intro m src size m' buf h
  cases src with
  | none => cases h
  | some src => exact copyBuffer_spec h

theorem copiesBuffer_takeBuffer : CopiesBuffer takeBuffer := by
  intro m src size m' buf h
  cases src with
  | none =>
      cases h
      exact ⟨Heap.Allocated.refl 0 m, rfl, by simp⟩
  | some src => exact copyBuffer_spec h

theorem copySigSegment_spec
    {copy : Memory → Option HeapBuffer → Nat → Option (Memory × Option HeapBuffer)}
    (hcopy : CopiesBuffer copy) {src ss : SigNode}
    (h : copySigSegment copy m new src = some (m', ss)) :
    ∃ ps, Heap.Allocated 0 m m' ps ∧ ss.addrs.Perm (new :: ps) ∧
      (ss.compared = src.compared ∧ ss.Fits) := by
  rw [copySigSegment] at h
  split at h
  · cases h
  · rename_i m₁ ski hski
    split at h
    · cases h
    · rename_i m₂ signature hsig
      cases h
      obtain ⟨halloc, hread, hfit⟩ := hcopy _ _ _ _ _ hski
      obtain ⟨halloc', hread', hfit'⟩ := hcopy _ _ _ _ _ hsig
      refine ⟨_, halloc.trans halloc', ?_, ?_, ⟨hfit, hfit'⟩⟩
      · rw [SigNode.addrs, ← List.append_assoc]
        exact List.perm_append_comm
      · rw [SigNode.compared, SigNode.compared, hread, hread']

theorem forall₂_map_eq {α β γ : Type} {f : α → γ} {g : β → γ} {xs : List α} {ys : List β}
    (h : List.Forall₂ (fun x y => g y = f x) xs ys) : ys.map g = xs.map f := by
  induction h with
  | nil => rfl
  | cons hxy _ ih => rw [List.map_cons, List.map_cons, hxy, ih]

theorem copySigSegments_spec
    {copy : Memory → Option HeapBuffer → Nat → Option (Memory × Option HeapBuffer)}
    (hcopy : CopiesBuffer copy) {srcs sss : List SigNode}
    (h : m.copyChain 0 (copySigSegment copy) new srcs = some (m', sss)) :
    ∃ ps, Heap.Allocated 0 m m' ps ∧ (sss.flatMap SigNode.addrs).Perm (new :: ps) ∧
      sss.map SigNode.compared = srcs.map SigNode.compared ∧ ∀ ss ∈ sss, ss.Fits := by
  obtain ⟨ps, halloc, hperm, hrel⟩ := Heap.copyChain_eq_some SigNode.addrs
    (fun src ss => ss.compared = src.compared ∧ ss.Fits)
    (fun _ _ _ _ _ hss => copySigSegment_spec hcopy hss) h
  refine ⟨ps, halloc, hperm, forall₂_map_eq (hrel.imp fun _ _ hss => hss.1), ?_⟩
  clear halloc hperm h
  induction hrel with
  | nil => simp
  | cons hss _ ih =>
      intro ss' hss'
      rcases List.mem_cons.mp hss' with rfl | hss'
      · exact hss.2
      · exact ih ss' hss'

theorem concatPathSegment_spec {srcs segs : List PathNode}
    (h : concatPathSegment m new srcs = some (m', segs)) :
    ∃ ps, Heap.Allocated 0 m m' ps ∧ (segs.map PathNode.addr).Perm (new :: ps) ∧
      segs.map PathNode.segment = srcs.map PathNode.segment := by
  have hfill : ∀ (m : Memory) new (src : PathNode) m' y,
      (some (m, (⟨new, src.segment⟩ : PathNode))) = some (m', y) →
      ∃ ps, Heap.Allocated 0 m m' ps ∧ [y.addr].Perm (new :: ps) ∧ y.segment = src.segment := by
    intro m new src m' y hy
    cases hy
    exact ⟨[], Heap.Allocated.refl 0 m, List.Perm.refl _, rfl⟩
  obtain ⟨ps, halloc, hperm, hrel⟩ :=
    Heap.copyChain_eq_some (fun seg : PathNode => [seg.addr]) _ hfill h
  refine ⟨ps, halloc, ?_, forall₂_map_eq hrel⟩
  rw [← List.flatMap_pure_eq_map]
  exact hperm

/-! ### `bgpsec_path_hash_alloc` -/

/-- The copy consists of new nodes and buffers, and of the blocks behind the first one. -/
theorem bgpsecPathHashAlloc_some {bpa copy : AttrNode}
    (h : bgpsecPathHashAlloc m bpa = some (m', some copy)) :
    ∃ sb sbs newSb, bpa.sigBlocks = sb :: sbs ∧ copy.sigBlocks = newSb :: sbs ∧
      Heap.Allocated 0 m m' (copy.pathSegments.map PathNode.addr ++ (newSb.addrs ++ [copy.addr])) ∧
      copy.securePathLen = bpa.securePathLen ∧
      copy.pathSegments.map PathNode.segment = bpa.pathSegments.map PathNode.segment ∧
      newSb.compared = sb.compared ∧ ∀ ss ∈ newSb.sigSegments, ss.Fits := by
  rw [bgpsecPathHashAlloc] at h
  split at h
  · cases h
  · cases h
  · rename_i sb sbs _ _ hsbs _
    split at h
    · cases h
    · simp only at h
      split at h
      · cases h
      · rename_i m₁ segs hsegs
        split at h
        · cases h
        · rename_i m₂ sss hsss
          cases h
          obtain ⟨ps, halloc, hperm, hcontent⟩ := concatPathSegment_spec hsegs
          obtain ⟨qs, halloc', hperm', hcontent', hfits⟩ :=
            copySigSegments_spec copiesBuffer_takeBuffer hsss
          refine ⟨sb, sbs, _, hsbs, rfl, ?_, rfl, hcontent, ?_, hfits⟩
          · have hfirst := (Heap.Allocated.alloc 0 m).trans (Heap.Allocated.alloc 0 (m.alloc 0))
            have hblock := (Heap.Allocated.alloc 0 m₁).trans (Heap.Allocated.alloc 0 (m₁.alloc 0))
            have hall := (hfirst.trans halloc).trans (hblock.trans halloc')
            have hseg : (m.alloc 0).fresh = m.fresh + 1 := by simp [Heap.alloc, Heap.fresh]
            have hsig : (m₁.alloc 0).fresh = m₁.fresh + 1 := by simp [Heap.alloc, Heap.fresh]
            rw [hseg, hsig] at hall
            refine hall.perm ?_
            have hsegsPerm : (segs.map PathNode.addr).Perm ([m.fresh + 1] ++ ps) := hperm
            have hsigsPerm : (sss.flatMap SigNode.addrs).Perm ([m₁.fresh + 1] ++ qs) := hperm'
            simp only [BlockNode.addrs]
            refine (hsegsPerm.append ((hsigsPerm.append_right _).append_right _)).trans ?_
            grind
          · simp [BlockNode.compared, hcontent']

/-- The copy of an attribute with one block consists of new nodes and buffers with its content. -/
theorem bgpsecPathHashAlloc_single {bpa copy : AttrNode} {sb : BlockNode}
    (hsb : bpa.sigBlocks = [sb]) (h : bgpsecPathHashAlloc m bpa = some (m', some copy)) :
    Heap.Allocated 0 m m' copy.addrs ∧ copy.compared = bpa.compared ∧
      copy.securePathLen = bpa.securePathLen ∧ copy.Fits ∧ ∃ newSb, copy.sigBlocks = [newSb] := by
  obtain ⟨sb', sbs, newSb, hsbs, hnewSbs, halloc, hlen, hsegs, hcontent, hfits⟩ :=
    bgpsecPathHashAlloc_some h
  rw [hsb] at hsbs
  obtain ⟨rfl, rfl⟩ := List.cons.inj hsbs
  refine ⟨?_, ?_, hlen, ?_, newSb, hnewSbs⟩
  · simpa [AttrNode.addrs, hnewSbs] using halloc
  · simp [AttrNode.compared, hsegs, hsb, hnewSbs, hcontent]
  · intro sb' hsb'
    rw [hnewSbs] at hsb'
    rw [List.mem_singleton.mp hsb']
    exact hfits

/-- The buffers that a copy takes to be there. -/
structure SigNode.Buffered (ss : SigNode) : Prop where
  ski : ∃ b, ss.ski = some b ∧ skiLength ≤ b.octets.length
  signature : ∃ b, ss.signature = some b ∧ ss.sigLen.toNat ≤ b.octets.length

theorem copyBuffer_isSome {src : HeapBuffer} {size : Nat} (h : size ≤ src.octets.length)
    (m : Memory) : ∃ r, copyBuffer m src size = some r := by
  rw [copyBuffer, if_neg (Nat.not_lt.mpr h)]
  exact ⟨_, rfl⟩

theorem SigNode.Buffered.readable {ss : SigNode} (h : ss.Buffered) : ss.Readable := by
  obtain ⟨ski, hski, hle⟩ := h.ski
  obtain ⟨sig, hsig, hle'⟩ := h.signature
  refine ⟨⟨ski.octets.take skiLength, ?_⟩, ⟨sig.octets.take ss.sigLen.toNat, ?_⟩⟩
  · simp [Buffer.read, octets, hski, hle]
  · simp [Buffer.read, octets, hsig, hle']

theorem copySigSegment_isSome
    {copy : Memory → Option HeapBuffer → Nat → Option (Memory × Option HeapBuffer)}
    (hcopy : ∀ m b size, copy m (some b) size = copyBuffer m b size) {src : SigNode}
    (h : src.Buffered) (m : Memory) (new : Nat) : (copySigSegment copy m new src).isSome := by
  obtain ⟨ski, hski, hle⟩ := h.ski
  obtain ⟨sig, hsig, hle'⟩ := h.signature
  obtain ⟨⟨m₁, ski'⟩, hcopySki⟩ := copyBuffer_isSome hle m
  obtain ⟨⟨m₂, sig'⟩, hcopySig⟩ := copyBuffer_isSome hle' m₁
  simp [copySigSegment, hski, hsig, hcopy, hcopySki, hcopySig]

theorem copySigSegments_isSome
    {copy : Memory → Option HeapBuffer → Nat → Option (Memory × Option HeapBuffer)}
    (hcopy : ∀ m b size, copy m (some b) size = copyBuffer m b size) {srcs : List SigNode}
    (hne : srcs ≠ []) (h : ∀ ss ∈ srcs, ss.Buffered) (m : Memory) (new : Nat) :
    ∃ r, m.copyChain 0 (copySigSegment copy) new srcs = some r :=
  Option.isSome_iff_exists.mp
    (Heap.copyChain_isSome hne (fun src hsrc => copySigSegment_isSome hcopy (h src hsrc)) m new)

theorem assertBuffer_some {src buf : Option HeapBuffer} {size : Nat}
    (h : assertBuffer m src size = some (m', buf)) :
    ∃ b, src = some b ∧ size ≤ b.octets.length := by
  cases src with
  | none => cases h
  | some b =>
      simp only [assertBuffer, copyBuffer] at h
      split at h
      · cases h
      · exact ⟨b, rfl, by omega⟩

/-- `concatSigSegment` runs into none of its assertions only if all buffers are there. -/
theorem buffered_of_concatSigSegment {srcs sss : List SigNode}
    (h : concatSigSegment m (some new) srcs = some (m', sss)) : ∀ ss ∈ srcs, ss.Buffered := by
  have hfill : ∀ m new src m' ss, copySigSegment assertBuffer m new src = some (m', ss) →
      ∃ ps, Heap.Allocated 0 m m' ps ∧ ss.addrs.Perm (new :: ps) ∧ src.Buffered := by
    intro m new src m' ss hss
    obtain ⟨ps, halloc, hperm, -⟩ := copySigSegment_spec copiesBuffer_assertBuffer hss
    refine ⟨ps, halloc, hperm, ?_⟩
    rw [copySigSegment] at hss
    split at hss
    · cases hss
    · rename_i hski
      split at hss
      · cases hss
      · rename_i hsig
        exact ⟨assertBuffer_some hski, assertBuffer_some hsig⟩
  obtain ⟨-, -, -, hrel⟩ :=
    Heap.copyChain_eq_some SigNode.addrs (fun src _ => src.Buffered) hfill h
  clear h
  induction hrel with
  | nil => simp
  | cons hss _ ih =>
      intro ss' hss'
      rcases List.mem_cons.mp hss' with rfl | hss'
      · exact hss
      · exact ih ss' hss'

theorem concatPathSegment_isSome {srcs : List PathNode} (hne : srcs ≠ []) (m : Memory) (new : Nat) :
    ∃ r, concatPathSegment m new srcs = some r :=
  Option.isSome_iff_exists.mp (Heap.copyChain_isSome hne (fun _ _ _ _ => rfl) m new)

/-- With one path segment at least and one block of signatures with their buffers the copy is made. -/
theorem bgpsecPathHashAlloc_isSome {bpa : AttrNode} {sb : BlockNode} {sbs : List BlockNode}
    (hsegs : bpa.pathSegments ≠ []) (hsbs : bpa.sigBlocks = sb :: sbs) (hsss : sb.sigSegments ≠ [])
    (hbuffered : ∀ ss ∈ sb.sigSegments, ss.Buffered) (m : Memory) :
    ∃ m' copy, bgpsecPathHashAlloc m bpa = some (m', some copy) := by
  obtain ⟨seg, segs, hseg⟩ := List.exists_cons_of_ne_nil hsegs
  obtain ⟨ss, sss, hss⟩ := List.exists_cons_of_ne_nil hsss
  obtain ⟨⟨m₁, newSegs⟩, hcopySegs⟩ :=
    concatPathSegment_isSome hsegs ((m.alloc 0).alloc 0) (m.fresh + 1)
  have htake : ∀ m b size, takeBuffer m (some b) size = copyBuffer m b size := fun _ _ _ => rfl
  obtain ⟨⟨m₂, newSss⟩, hcopySss⟩ :=
    copySigSegments_isSome htake hsss hbuffered ((m₁.alloc 0).alloc 0) (m₁.fresh + 1)
  rw [hseg] at hcopySegs
  rw [hss] at hcopySss
  simp [bgpsecPathHashAlloc, hsbs, hseg, hss, hcopySegs, hcopySss]

/-! ### `bgpsecDup` -/

theorem bgpsecSanityCheck_node {orig : AttrNode} (h : bgpsecSanityCheck (some orig.attr) = 0) :
    ∃ sb sbs, orig.pathSegments ≠ [] ∧ orig.sigBlocks = sb :: sbs ∧ sb.sigSegments ≠ [] := by
  obtain ⟨a, seg, segs, sb, sbs, ss, sss, -, -, ha, hsegs, hsbs, hsss, -, -⟩ :=
    bgpsecSanityCheck_eq_zero h
  cases ha
  obtain ⟨node, nodes, hnodes, hnode, -⟩ := List.map_eq_cons_iff.mp hsbs
  refine ⟨node, nodes, ?_, hnodes, ?_⟩
  · intro hnil
    simp [AttrNode.attr, hnil] at hsegs
  · intro hnil
    rw [← hnode] at hsss
    simp [BlockNode.block, hnil] at hsss

theorem bgpsecDup_eq {orig : AttrNode} (h : bgpsecSanityCheck (some orig.attr) = 0) (m : Memory)
    (newIfNULL : Bool) : bgpsecDup m (some orig) newIfNULL = dupAttr m orig := by
  simp only [bgpsecDup, Option.map_some, h]

/-- Where the copy is made, the signature segments of the first block have their buffers. -/
theorem buffered_of_bgpsecDup {orig : AttrNode} {sb : BlockNode} {sbs : List BlockNode}
    {newIfNULL : Bool} {r : Memory × Option AttrNode} (hsbs : orig.sigBlocks = sb :: sbs)
    (hsanity : bgpsecSanityCheck (some orig.attr) = 0)
    (h : bgpsecDup m (some orig) newIfNULL = some r) : ∀ ss ∈ sb.sigSegments, ss.Buffered := by
  rw [bgpsecDup_eq hsanity, dupAttr, hsbs] at h
  split at h
  · cases h
  · rename_i m₁ segs _
    cases hsss : concatSigSegment m₁ (some (m.fresh + 3)) sb.sigSegments with
    | none => simp [concatSigBlock, hsss] at h
    | some r =>
        obtain ⟨m₂, sss⟩ := r
        exact buffered_of_concatSigSegment hsss

/-- The copy of an attribute with one block consists of new nodes and buffers with its content. -/
theorem bgpsecDup_single {orig copy : AttrNode} {sb : BlockNode} {newIfNULL : Bool}
    (hsb : orig.sigBlocks = [sb]) (hsanity : bgpsecSanityCheck (some orig.attr) = 0)
    (h : bgpsecDup m (some orig) newIfNULL = some (m', some copy)) :
    Heap.Allocated 0 m m' copy.addrs ∧ copy.compared = orig.compared ∧
      copy.securePathLen = orig.securePathLen := by
  rw [bgpsecDup_eq hsanity, dupAttr, hsb] at h
  split at h
  · cases h
  · rename_i m₁ segs hsegs
    simp only [concatSigBlock] at h
    cases hsss : concatSigSegment m₁ (some (m.fresh + 3)) sb.sigSegments with
    | none => simp [hsss] at h
    | some r =>
        obtain ⟨m₂, sss⟩ := r
        simp only [hsss] at h
        cases h
        obtain ⟨ps, halloc, hperm, hcontent⟩ := concatPathSegment_spec hsegs
        obtain ⟨qs, halloc', hperm', hcontent', -⟩ :=
          copySigSegments_spec copiesBuffer_assertBuffer hsss
        refine ⟨?_, ?_, rfl⟩
        · have hall := (Heap.Allocated.alloc 0 m).trans ((Heap.Allocated.alloc 0 _).trans
            ((Heap.Allocated.alloc 0 _).trans ((Heap.Allocated.alloc 0 _).trans
              (halloc.trans halloc'))))
          simp only [Heap.alloc, Heap.fresh, List.length_append, List.length_singleton] at hall
          refine hall.perm ?_
          have hsegsPerm : (segs.map PathNode.addr).Perm ([m.fresh + 1] ++ ps) := hperm
          have hsigsPerm : (sss.flatMap SigNode.addrs).Perm ([m.fresh + 3] ++ qs) := hperm'
          simp only [AttrNode.addrs, BlockNode.addrs, List.flatMap_cons, List.flatMap_nil,
            List.append_nil]
          refine (hsegsPerm.append ((hsigsPerm.append_right _).append_right _)).trans ?_
          simp only [Heap.fresh]
          grind
        · simp [AttrNode.compared, BlockNode.compared, hcontent, hcontent', hsb]

theorem bgpsecDup_isSome {orig : AttrNode} {sb : BlockNode}
    (hsb : orig.sigBlocks = [sb]) (hsanity : bgpsecSanityCheck (some orig.attr) = 0)
    (hbuffered : ∀ ss ∈ sb.sigSegments, ss.Buffered) (m : Memory) (newIfNULL : Bool) :
    ∃ m' copy, bgpsecDup m (some orig) newIfNULL = some (m', some copy) := by
  obtain ⟨sb', sbs', hsegs, hsbs, hsss⟩ := bgpsecSanityCheck_node hsanity
  have hsb' : sb' = sb := by
    rw [hsb] at hsbs
    exact (List.cons.inj hsbs).1.symm
  rw [hsb'] at hsss
  obtain ⟨⟨m₁, segs⟩, hcopySegs⟩ := concatPathSegment_isSome hsegs
    ((((m.alloc 0).alloc 0).alloc 0).alloc 0) (m.fresh + 1)
  have hassert : ∀ m b size, assertBuffer m (some b) size = copyBuffer m b size :=
    fun _ _ _ => rfl
  obtain ⟨⟨m₂, sss⟩, hcopySss⟩ :=
    copySigSegments_isSome hassert hsss hbuffered m₁ (m.fresh + 3)
  rw [bgpsecDup_eq hsanity]
  simp [dupAttr, hcopySegs, hsb, concatSigBlock, concatSigSegment, hcopySss]

/-! ### Deep copies -/

/-- The result of a copy function is a deep copy: the comparison finds it equal to the original, the
    Secure_Path length is the same, no node or buffer is shared, and all of it is still there after
    the original was freed. -/
def DeepCopy (orig : AttrNode) (result : Option (Memory × Option AttrNode)) : Prop :=
  ∃ m' copy, result = some (m', some copy) ∧
    bgpsecPathAttrCmp (some copy) (some orig) = some true ∧
    copy.securePathLen = orig.securePathLen ∧ copy.addrs.Disjoint orig.addrs ∧
    ∀ m'', bgpsecPathFree m' orig = some m'' → ∀ p ∈ copy.addrs, (m''.read p).isSome

/-- New nodes and buffers with the content of the original are a deep copy. -/
theorem deepCopy_of_allocated {orig copy : AttrNode} {sb : BlockNode}
    (hlive : ∀ p ∈ orig.addrs, (m.read p).isSome) (hsb : orig.sigBlocks = [sb])
    (hbuffered : ∀ ss ∈ sb.sigSegments, ss.Buffered)
    (halloc : Heap.Allocated 0 m m' copy.addrs) (hcontent : copy.compared = orig.compared)
    (hlen : copy.securePathLen = orig.securePathLen) :
    DeepCopy orig (some (m', some copy)) := by
  have hdisjoint : copy.addrs.Disjoint orig.addrs := by
    intro p hcopy horig
    exact halloc.not_mem_of_read (hlive p horig) hcopy
  refine ⟨m', copy, rfl, ?_, hlen, hdisjoint, ?_⟩
  · rw [bgpsecPathAttrCmp_comm]
    apply bgpsecPathAttrCmp_of_compared hcontent.symm
    rw [hsb]
    intro sb' hsb' ss hss
    rw [List.mem_singleton.mp hsb'] at hss
    exact (hbuffered ss hss).readable
  · intro m'' hfree p hp
    have hread := Heap.freeAll_some (bgpsecPathFree_some hfree) p
    rw [if_neg (hdisjoint hp), halloc.read_eq p, if_pos hp] at hread
    simp [hread]

/-- Both functions make a deep copy of an attribute that passes the sanity check exactly if it has
    one signature block, all of whose signature segments have their buffers. -/
theorem deepCopy_iff {orig : AttrNode} (hsanity : bgpsecSanityCheck (some orig.attr) = 0)
    (hlive : ∀ p ∈ orig.addrs, (m.read p).isSome) (newIfNULL : Bool) :
    DeepCopy orig (bgpsecDup m (some orig) newIfNULL) ∧
        DeepCopy orig (bgpsecPathHashAlloc m orig) ↔
      ∃ sb, orig.sigBlocks = [sb] ∧ ∀ ss ∈ sb.sigSegments, ss.Buffered := by
  constructor
  · intro hboth
    obtain ⟨⟨m₁, dup, hdup, -⟩, ⟨m₂, copy, hcopy, -, -, hdisjoint, -⟩⟩ := hboth
    obtain ⟨sb, sbs, newSb, hsbs, hnewSbs, -⟩ := bgpsecPathHashAlloc_some hcopy
    refine ⟨sb, ?_, buffered_of_bgpsecDup hsbs hsanity hdup⟩
    cases sbs with
    | nil => exact hsbs
    | cons next rest =>
        -- the second block is a node of both
        have hmem : next.addr ∈ copy.addrs := by
          simp [AttrNode.addrs, BlockNode.addrs, hnewSbs]
        have hmem' : next.addr ∈ orig.addrs := by
          simp [AttrNode.addrs, BlockNode.addrs, hsbs]
        exact absurd hmem' (hdisjoint hmem)
  · rintro ⟨sb, hsb, hbuffered⟩
    obtain ⟨sb', sbs', hsegs, hsbs, hsss⟩ := bgpsecSanityCheck_node hsanity
    have hsb' : sb' = sb := by
      rw [hsb] at hsbs
      exact (List.cons.inj hsbs).1.symm
    rw [hsb'] at hsss
    refine ⟨?_, ?_⟩
    · obtain ⟨m', copy, hdup⟩ := bgpsecDup_isSome hsb hsanity hbuffered m newIfNULL
      obtain ⟨halloc, hcontent, hlen⟩ := bgpsecDup_single hsb hsanity hdup
      rw [hdup]
      exact deepCopy_of_allocated hlive hsb hbuffered halloc hcontent hlen
    · obtain ⟨m', copy, hcopy⟩ := bgpsecPathHashAlloc_isSome hsegs hsb hsss hbuffered m
      obtain ⟨halloc, hcontent, hlen, -⟩ := bgpsecPathHashAlloc_single hsb hcopy
      rw [hcopy]
      exact deepCopy_of_allocated hlive hsb hbuffered halloc hcontent hlen

/-- A memory that holds `n` nodes and buffers behind the addresses from 1 on. -/
def memoryOf (n : Nat) : Memory := none :: List.replicate n (some 0)

theorem oneBlockPath_deepCopy :
    bgpsecSanityCheck (some (oneBlockPath 1).attr) = 0 ∧
      (∀ p ∈ (oneBlockPath 1).addrs, ((memoryOf 6).read p).isSome) ∧
      (DeepCopy (oneBlockPath 1) (bgpsecDup (memoryOf 6) (some (oneBlockPath 1)) false) ∧
          DeepCopy (oneBlockPath 1) (bgpsecPathHashAlloc (memoryOf 6) (oneBlockPath 1)) ↔
        ∃ sb, (oneBlockPath 1).sigBlocks = [sb] ∧ ∀ ss ∈ sb.sigSegments, ss.Buffered) :=
  ⟨by decide, by decide, deepCopy_iff (by decide) (by decide) false⟩

/-- Of an attribute with two blocks neither function makes a deep copy: `bgpsecDup` loses the
    signature of the second block, `bgpsec_path_hash_alloc` shares the block. -/
theorem twoBlockPath_not_deepCopy :
    bgpsecSanityCheck (some (twoBlockPath 1).attr) = 0 ∧
      (∀ p ∈ (twoBlockPath 1).addrs, ((memoryOf 10).read p).isSome) ∧
      ¬ DeepCopy (twoBlockPath 1) (bgpsecDup (memoryOf 10) (some (twoBlockPath 1)) false) ∧
      ¬ DeepCopy (twoBlockPath 1) (bgpsecPathHashAlloc (memoryOf 10) (twoBlockPath 1)) := by
  have hdup : (bgpsecDup (memoryOf 10) (some (twoBlockPath 1)) false).map
      (fun r => bgpsecPathAttrCmp r.2 (some (twoBlockPath 1))) = some (some false) := by
    decide
  have halloc : (bgpsecPathHashAlloc (memoryOf 10) (twoBlockPath 1)).map
      (fun r => r.2.map fun copy => decide (7 ∈ copy.addrs)) = some (some true) := by
    decide
  refine ⟨by decide, by decide, ?_, ?_⟩
  · rintro ⟨m', copy, hresult, hcmp, -⟩
    rw [hresult] at hdup
    simp [hcmp] at hdup
  · rintro ⟨m', copy, hresult, -, -, hdisjoint, -⟩
    rw [hresult] at halloc
    have hmem : 7 ∈ copy.addrs := by simpa using halloc
    exact hdisjoint hmem (by decide)

end SrxNote.Intern
