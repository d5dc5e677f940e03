import SrxNote.Bgpsec.Wire
import SrxNote.Quagga.Stream

/-!
# `constructBGPSecPathAttribute`

The encoder of the BGPSEC_Path attribute
(`diff-QuaggaSRx_SvnRev2241-stock.patch:6411-6528`) and the deep copy it works
on (`bgpsecDup`, 6630-6732). A result of `none` is an access the C code may not
make: a failed assertion, a NULL pointer, a read past a buffer, or the use of a
block that was freed.
-/

namespace SrxNote.Quagga
open SrxNote.Bgpsec

/-! ### The deep copy -/

/-- `memcpy` of `size` octets from `src` into a new buffer of that size. -/
def copyBuffer (src : Option (List UInt8)) (size : Nat) : Option (List UInt8) :=
  match src with
  | none => none
  | some buf => if buf.length < size then none else some (buf.take size)

/-- One pass of `concatSigSegment` (6661-6672), with its two assertions. -/
def copySigSegment (src : SigSegment) : Option SigSegment :=
  match copyBuffer src.ski skiLength, copyBuffer src.signature src.sigLen.toNat with
  | some ski, some signature => some ⟨some ski, src.sigLen, some signature⟩
  | _, _ => none

/-- `concatSigSegment` (6655-6681) into a new first node: without a source node its SKI is read
    through NULL. -/
def concatSigSegment : List SigSegment → Option (List SigSegment)
  | [] => none
  | [src] => (copySigSegment src).map fun ss => [ss]
  | src :: srcs =>
      match copySigSegment src, concatSigSegment srcs with
      | some ss, some sss => some (ss :: sss)
      | _, _ => none

/-- `concatSigBlock` (6683-6705). Only the first new block has a signature segment to copy into;
    those that `sigBlock_New` makes for the following blocks have none and stay empty. -/
def concatSigBlock : List SigBlock → Option (List SigBlock)
  | [] => none
  | src :: srcs =>
      (concatSigSegment src.sigSegments).map fun sss =>
        { src with sigSegments := sss } :: srcs.map fun sb => { sb with sigSegments := [] }

/-- `concatPathSegment` (6707-6732). -/
def concatPathSegment : List PathSegment → Option (List PathSegment)
  | [] => none
  | [src] => some [⟨src.as, src.pCount, src.flags⟩]
  | src :: srcs => (concatPathSegment srcs).map fun segs => ⟨src.as, src.pCount, src.flags⟩ :: segs

/-- `bgpsec_path_attr_new`. -/
def bgpsecPathAttrNew : BgpsecPathAttr := ⟨0, [], []⟩

/-- `bgpsecDup` (6630-6653): `some none` is NULL. -/
def bgpsecDup (orig : Option BgpsecPathAttr) (newIfNULL : Bool) :
    Option (Option BgpsecPathAttr) :=
  match orig, bgpsecSanityCheck orig with
  | some orig, 0 =>
      match concatPathSegment orig.pathSegments, concatSigBlock orig.sigBlocks with
      | some segs, some sbs => some (some ⟨orig.securePathLen, segs, sbs⟩)
      | _, _ => none
  | _, _ => some (if newIfNULL then some bgpsecPathAttrNew else none)

/-! ### The encoder -/

/-- `SCA_Signature`: the SKI is an array of the structure, `sigBuff` holds `sigLen` octets. -/
structure SCASignature where
  algoID : UInt8
  ski : List UInt8
  sigLen : UInt16
  sigBuff : List UInt8
  ski_length : ski.length = skiLength
  sigBuff_length : sigBuff.length = sigLen.toNat

/-- `stream_put` of `size` octets at a pointer; for NULL it writes zeros. -/
def streamPutFrom (s : Stream) (src : Option (List UInt8)) (size : Nat) : Option Stream :=
  match src with
  | none => some (streamPut s (List.replicate size 0))
  | some buf => if buf.length < size then none else some (streamPut s (buf.take size))

/-- The loop over the path segments (6433-6440). -/
def putPathSegments (s : Stream) : List PathSegment → Stream
  | [] => s
  | seg :: segs =>
      let s := streamPutc s seg.pCount
      let s := streamPutc s seg.flags
      let s := streamPutl s seg.as
      putPathSegments s segs

/-- The loop over the signature segments of a block (6488-6495). -/
def putSigSegments (s : Stream) : List SigSegment → Option Stream
  | [] => some s
  | ss :: sss =>
      match streamPutFrom s ss.ski skiLength with
      | none => none
      | some s =>
          match streamPutFrom (streamPutw s ss.sigLen) ss.signature ss.sigLen.toNat with
          | none => none
          | some s => putSigSegments s sss

/-- A node of the copy's block list. A node may stay in the list after it was freed. -/
structure BlockNode where
  block : SigBlock
  freed : Bool

/-- What the search for a block (6460-6464) finds: no block, or the blocks before it, the block
    and the nodes behind it. -/
inductive FindBlock where
  | notFound
  | found (before : List BlockNode) (block : SigBlock) (after : List BlockNode)

/-- The search for the first block with the signature's algorithm; it may not pass a freed
    node. -/
def findBlock (algoID : UInt8) : List BlockNode → Option FindBlock
  | [] => some .notFound
  | node :: nodes =>
      if node.freed then none
      else if node.block.algoSuiteId ≠ algoID then
        match findBlock algoID nodes with
        | none => none
        | some .notFound => some .notFound
        | some (.found before block after) => some (.found (node :: before) block after)
      else some (.found [] node.block nodes)

/-- The octets of one block (6479-6501): its length is written last, over a dummy. -/
def putSigBlock (s : Stream) (sigBlock : SigBlock) (signature : SCASignature) : Option Stream :=
  let sbPointer := s.length
  let s := streamPutw s 0
  let s := streamPutc s sigBlock.algoSuiteId
  let s := streamPut s signature.ski
  let s := streamPutw s signature.sigLen
  let s := streamPut s signature.sigBuff
  match putSigSegments s sigBlock.sigSegments with
  | none => none
  | some s => some (streamPutwAt s sbPointer (UInt16.ofNat (s.length - sbPointer)))

/-- The list after the block was written and freed (6503-6516). `prevBlock` was advanced together
    with `sigBlock`, so that linking `prevBlock` to `sigBlock`'s successor leaves a block that is
    not the first one in the list. -/
def removeBlock (before : List BlockNode) (block : SigBlock) (after : List BlockNode) :
    List BlockNode :=
  match before with
  | [] => after
  | _ => before ++ ⟨block, true⟩ :: after

/-- Where the loop over the signatures ends: at its end, or at the `return 0`. -/
inductive PutBlocks where
  | done (nodes : List BlockNode) (s : Stream)
  | failed (s : Stream)

/-- The loop over the signatures (6452-6517). -/
def putSigBlocks (numPathSegments : Nat) (nodes : List BlockNode) (s : Stream) :
    List SCASignature → Option PutBlocks
  | [] => some (.done nodes s)
  | signature :: signatures =>
      match findBlock signature.algoID nodes with
      | none => none
      | some .notFound =>
          if numPathSegments ≠ 1 then some (.failed s)
          else
            match putSigBlock s ⟨0, signature.algoID, []⟩ signature with
            | none => none
            | some s => putSigBlocks numPathSegments nodes s signatures
      | some (.found before block after) =>
          match putSigBlock s block signature with
          | none => none
          | some s => putSigBlocks numPathSegments (removeBlock before block after) s signatures

/-- `constructBGPSecPathAttribute`: the value returned and the stream. Freeing the copy in the end
    may not meet a block that was freed in the loop. -/
def constructBGPSecPathAttribute (bgpAs : UInt32) (attr : Option BgpsecPathAttr) (s : Stream)
    (flags pCount : UInt8) (signatures : List SCASignature) : Option (UInt16 × Stream) :=
  let attrLenPtr := s.length
  match bgpsecDup attr true with
  | some (some bpa) =>
      let secPathLen := UInt64.ofNat octetSecurePathSegment +
        (if bpa.securePathLen = 0 then 2 else bpa.securePathLen)
      let s := streamPutw s secPathLen.toUInt16
      let s := streamPutc s pCount
      let s := streamPutc s flags
      let s := streamPutl s bgpAs
      let s := putPathSegments s bpa.pathSegments
      let nodes := bpa.sigBlocks.map fun sb => ⟨sb, false⟩
      match putSigBlocks (1 + bpa.pathSegments.length) nodes s signatures with
      | none => none
      | some (.failed s) => some (0, s)
      | some (.done nodes s) =>
          if nodes.any BlockNode.freed then none
          else some (UInt16.ofNat (s.length - attrLenPtr), s)
  | _ => none

end SrxNote.Quagga
