import SrxNote.Intern.Nodes
import SrxNote.Misc.Chain

/-!
# Copies of a BGPsec path

The two functions that copy an attribute with all that hangs off it:
`bgpsec_path_hash_alloc`, which makes the entry of the intern table
(`diff-QuaggaSRx_SvnRev2241-stock.patch:5602-5675`), and `bgpsecDup`
(6630-6732), whose values alone are `Quagga.bgpsecDup`.
-/

namespace SrxNote.Intern
open SrxNote.Bgpsec

/-- `calloc` of `size` octets and `memcpy` into them. -/
def copyBuffer (m : Memory) (src : HeapBuffer) (size : Nat) : Option (Memory × Option HeapBuffer) :=
  if src.octets.length < size then none
  else some (m.alloc 0, some ⟨m.fresh, src.octets.take size⟩)

/-- The copy of a buffer in `concatSigSegment`: the source is asserted to be there. -/
def assertBuffer (m : Memory) (src : Option HeapBuffer) (size : Nat) :
    Option (Memory × Option HeapBuffer) :=
  match src with
  | none => none
  | some src => copyBuffer m src size

/-- The copy of a buffer in `bgpsec_path_hash_alloc`: NULL is taken over by the struct copy. -/
def takeBuffer (m : Memory) (src : Option HeapBuffer) (size : Nat) :
    Option (Memory × Option HeapBuffer) :=
  match src with
  | none => some (m, none)
  | some src => copyBuffer m src size

/-- One pass over the signature segments (5641-5664 and 6661-6672), where `copy` is the way the two
    buffers are copied. -/
def copySigSegment (copy : Memory → Option HeapBuffer → Nat → Option (Memory × Option HeapBuffer))
    (m : Memory) (new : Nat) (src : SigNode) : Option (Memory × SigNode) :=
  match copy m src.ski skiLength with
  | none => none
  | some (m, ski) =>
      match copy m src.signature src.sigLen.toNat with
      | none => none
      | some (m, signature) => some (m, ⟨new, ski, src.sigLen, signature⟩)

/-- `concatPathSegment` (6707-6732); the loop of `bgpsec_path_hash_alloc` (5619-5632) does the same
    by struct copies. -/
def concatPathSegment (m : Memory) (new : Nat) (srcs : List PathNode) :
    Option (Memory × List PathNode) :=
  m.copyChain 0 (fun m new src => some (m, ⟨new, src.segment⟩)) new srcs

/-- `concatSigSegment` (6655-6681): without a new first node nothing is copied. -/
def concatSigSegment (m : Memory) (new : Option Nat) (srcs : List SigNode) :
    Option (Memory × List SigNode) :=
  match new with
  | none => some (m, [])
  | some new => m.copyChain 0 (copySigSegment assertBuffer) new srcs

/-- `concatSigBlock` (6683-6705), where `newSig` is the first signature segment of the new block:
    `bgpsec_path_attr_all_new` makes one, `sigBlock_New` none. -/
def concatSigBlock (m : Memory) (new : Nat) (newSig : Option Nat) :
    List BlockNode → Option (Memory × List BlockNode)
  | [] => none
  | src :: srcs =>
      match concatSigSegment m newSig src.sigSegments with
      | none => none
      | some (m, sss) =>
          match srcs with
          | [] => some (m, [⟨new, src.sigBlockLen, src.algoSuiteId, sss⟩])
          | next :: rest =>
              match concatSigBlock (m.alloc 0) m.fresh none (next :: rest) with
              | none => none
              | some (m, sbs) => some (m, ⟨new, src.sigBlockLen, src.algoSuiteId, sss⟩ :: sbs)

/-- The copying branch of `bgpsecDup` (6636-6647). `bgpsec_path_attr_all_new` (5700-5710) allocates
    the attribute and its first path segment, block and signature segment in this order. -/
def dupAttr (m : Memory) (orig : AttrNode) : Option (Memory × Option AttrNode) :=
  let new := m.fresh
  let m := (((m.alloc 0).alloc 0).alloc 0).alloc 0
  match concatPathSegment m (new + 1) orig.pathSegments with
  | none => none
  | some (m, segs) =>
      match concatSigBlock m (new + 2) (some (new + 3)) orig.sigBlocks with
      | none => none
      | some (m, sbs) => some (m, some ⟨new, orig.securePathLen, segs, sbs⟩)

/-- `bgpsecDup` (6630-6653). -/
def bgpsecDup (m : Memory) (orig : Option AttrNode) (newIfNULL : Bool) :
    Option (Memory × Option AttrNode) :=
  match orig, bgpsecSanityCheck (orig.map AttrNode.attr) with
  | some orig, 0 => dupAttr m orig
  | _, _ => some (if newIfNULL then (m.alloc 0, some ⟨m.fresh, 0, [], []⟩) else (m, none))

/-- `bgpsec_path_hash_alloc`. The struct copy of the first block takes its `next` pointer along, and
    the loop that follows copies the signature segments of this block only. -/
def bgpsecPathHashAlloc (m : Memory) (bpa : AttrNode) : Option (Memory × Option AttrNode) :=
  match bpa.sigBlocks, bpa.pathSegments with
  | [], _ => none
  | _, [] => none
  | sb :: sbs, _ :: _ =>
      match sb.sigSegments with
      | [] => some (m, none)
      | _ :: _ =>
          let new := m.fresh
          let m := (m.alloc 0).alloc 0
          match concatPathSegment m (new + 1) bpa.pathSegments with
          | none => none
          | some (m, segs) =>
              let newBlock := m.fresh
              let m := (m.alloc 0).alloc 0
              match m.copyChain 0 (copySigSegment takeBuffer) (newBlock + 1) sb.sigSegments with
              | none => none
              | some (m, sss) =>
                  let block := ⟨newBlock, sb.sigBlockLen, sb.algoSuiteId, sss⟩
                  some (m, some ⟨new, bpa.securePathLen, segs, block :: sbs⟩)

end SrxNote.Intern
