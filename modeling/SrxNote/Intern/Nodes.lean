import SrxNote.Bgpsec.Attr
import SrxNote.Misc.Alloc
import SrxNote.Misc.Buffer

/-!
# BGPsec paths in memory

The BGPSEC_Path attribute with the address of every node and buffer it consists
of, for the functions whose behaviour depends on where an attribute lives: the
comparison and the key of the intern table, the copies and the release
(`bgp_validate.c`, `diff-QuaggaSRx_SvnRev2241-stock.patch:5457-5893`). A chain
of nodes linked by `next` is the list of its nodes, so that the pointer to a
chain is the address of its first node, or NULL.

The memory holds the reference count of an attribute behind the attribute's
address and 0 behind the other addresses: the count is the one field that is
written after an attribute was built. A count is a pointer held somewhere, so
that it stays far below the range of its `unsigned long`. A result of `none` is
an access the C code may not make.
-/

namespace SrxNote.Intern
open SrxNote.Bgpsec

/-- What is allocated. -/
abbrev Memory := Heap Nat

/-- An allocated octet buffer. -/
structure HeapBuffer where
  addr : Nat
  octets : List UInt8
  deriving DecidableEq, Repr

/-- A `struct PathSegment` of a chain. -/
structure PathNode where
  addr : Nat
  segment : PathSegment
  deriving DecidableEq, Repr

/-- A `struct SigSegment` of a chain. -/
structure SigNode where
  addr : Nat
  ski : Option HeapBuffer
  sigLen : UInt16
  signature : Option HeapBuffer
  deriving DecidableEq, Repr

/-- A `struct SigBlock` of a chain. -/
structure BlockNode where
  addr : Nat
  sigBlockLen : UInt16
  algoSuiteId : UInt8
  sigSegments : List SigNode
  deriving DecidableEq, Repr

/-- A `struct BgpsecPathAttr`. -/
structure AttrNode where
  addr : Nat
  securePathLen : UInt64
  pathSegments : List PathNode
  sigBlocks : List BlockNode
  deriving DecidableEq, Repr

/-! ### The values without their addresses -/

/-- The octets behind a `u_char*`. -/
def octets (buf : Option HeapBuffer) : Option (List UInt8) := buf.map HeapBuffer.octets

/-- The signature segment that the node holds. -/
def SigNode.segment (ss : SigNode) : SigSegment := ⟨octets ss.ski, ss.sigLen, octets ss.signature⟩

/-- The signature block that the node holds. -/
def BlockNode.block (sb : BlockNode) : SigBlock :=
  ⟨sb.sigBlockLen, sb.algoSuiteId, sb.sigSegments.map SigNode.segment⟩

/-- The attribute that the node holds. -/
def AttrNode.attr (bpa : AttrNode) : BgpsecPathAttr :=
  ⟨bpa.securePathLen, bpa.pathSegments.map PathNode.segment, bpa.sigBlocks.map BlockNode.block⟩

/-! ### The addresses, in the order of their release -/

/-- The address of a buffer, if there is one. -/
def bufferAddrs (buf : Option HeapBuffer) : List Nat := (buf.map HeapBuffer.addr).toList

/-- The buffers of the segment and its node. -/
def SigNode.addrs (ss : SigNode) : List Nat :=
  bufferAddrs ss.ski ++ (bufferAddrs ss.signature ++ [ss.addr])

/-- The signature segments of the block and its node. -/
def BlockNode.addrs (sb : BlockNode) : List Nat := sb.sigSegments.flatMap SigNode.addrs ++ [sb.addr]

/-- The nodes and buffers of the attribute. -/
def AttrNode.addrs (bpa : AttrNode) : List Nat :=
  bpa.pathSegments.map PathNode.addr ++ (bpa.sigBlocks.flatMap BlockNode.addrs ++ [bpa.addr])

/-! ### `bgpsec_path_attr_cmp` (5457-5519) -/

/-- `memcmp` of `size` octets: whether they are equal. -/
def memcmp (a b : Option HeapBuffer) (size : Nat) : Option Bool :=
  match Buffer.read (octets a) size, Buffer.read (octets b) size with
  | some x, some y => some (x == y)
  | _, _ => none

/-- The loop over the path segments (5473-5486). -/
def cmpPathSegments : List PathNode → List PathNode → Bool
  | [], [] => true
  | seg1 :: segs1, seg2 :: segs2 =>
      if seg1.segment.as ≠ seg2.segment.as then false
      else if seg1.segment.pCount ≠ seg2.segment.pCount then false
      else if seg1.segment.flags ≠ seg2.segment.flags then false
      else cmpPathSegments segs1 segs2
  | _, _ => false

/-- The loop over the signature segments of two blocks (5500-5513). -/
def cmpSigSegments : List SigNode → List SigNode → Option Bool
  | [], [] => some true
  | ss1 :: sss1, ss2 :: sss2 =>
      match memcmp ss1.ski ss2.ski skiLength with
      | none => none
      | some false => some false
      | some true =>
          if ss1.sigLen ≠ ss2.sigLen then some false
          else
            match memcmp ss1.signature ss2.signature ss1.sigLen.toNat with
            | none => none
            | some false => some false
            | some true => cmpSigSegments sss1 sss2
  | _, _ => some false

/-- The loop over the signature blocks (5488-5517). -/
def cmpSigBlocks : List BlockNode → List BlockNode → Option Bool
  | [], [] => some true
  | sb1 :: sbs1, sb2 :: sbs2 =>
      if sb1.sigBlockLen ≠ sb2.sigBlockLen then some false
      else if sb1.algoSuiteId ≠ sb2.algoSuiteId then some false
      else
        match cmpSigSegments sb1.sigSegments sb2.sigSegments with
        | some true => cmpSigBlocks sbs1 sbs2
        | other => other
  | _, _ => some false

/-- `bgpsec_path_attr_cmp`. Two pointers to the same attribute are equal at once; NULL and another
    attribute are not told apart before both are dereferenced. -/
def bgpsecPathAttrCmp (arg1 arg2 : Option AttrNode) : Option Bool :=
  if arg1 = arg2 then some true
  else
    match arg1, arg2 with
    | some bpa1, some bpa2 =>
        if cmpPathSegments bpa1.pathSegments bpa2.pathSegments then
          cmpSigBlocks bpa1.sigBlocks bpa2.sigBlocks
        else some false
    | _, _ => none

/-! ### `bgpsec_path_attr_key_make` (5523-5558) -/

/-- The first four octets of a pointer in memory, least significant first. -/
def pointerOctets (p : Nat) : List UInt8 := (be32 (UInt32.ofNat p)).reverse

/-- The `next` pointer of the first block, where the rest of the chain is given. -/
def nextBlock : List BlockNode → Nat
  | [] => 0
  | sb :: _ => sb.addr

/-- `bgpsec_path_attr_key_make`. `next` is the first field of `struct SigBlock`, so that the first
    four octets of a block are those of `next`. Without a block the last `jhash` of the function
    reads four octets behind `bpa->sigBlocks`, which is NULL there. -/
def bgpsecPathAttrKeyMake (jhash : List UInt8 → UInt32) (bpa : AttrNode) : Option UInt32 :=
  match bpa.sigBlocks with
  | [] => none
  | sb :: sbs =>
      match sb.sigSegments with
      | [] => none
      | ss :: _ =>
          (Buffer.read (octets ss.signature) ss.sigLen.toNat).map fun signature =>
            jhash (pointerOctets (nextBlock sbs)) + jhash signature

/-! ### `bgpsec_path_free` (5718-5848) -/

/-- `memset` of a buffer and its `free`; NULL is left alone. -/
def freeBuffer (m : Memory) (buf : Option HeapBuffer) (size : Nat) : Option Memory :=
  match buf with
  | none => some m
  | some b => if b.octets.length < size then none else m.free b.addr

/-- `sigSegment_free` (5755-5777). -/
def sigSegmentFree (m : Memory) (ss : SigNode) : Option Memory :=
  (freeBuffer m ss.ski skiLength).bind fun m =>
    (freeBuffer m ss.signature ss.sigLen.toNat).bind fun m => m.free ss.addr

/-- `sigSegment_free_all` (5784-5794). -/
def sigSegmentFreeAll (m : Memory) : List SigNode → Option Memory
  | [] => some m
  | ss :: sss => (sigSegmentFree m ss).bind fun m => sigSegmentFreeAll m sss

/-- `bgpsec_sigBlock_free` (5803-5812). -/
def bgpsecSigBlockFree (m : Memory) (sb : BlockNode) : Option Memory :=
  (sigSegmentFreeAll m sb.sigSegments).bind fun m => m.free sb.addr

/-- `bgpsec_sigBlock_free_all` (5819-5829). -/
def bgpsecSigBlockFreeAll (m : Memory) : List BlockNode → Option Memory
  | [] => some m
  | sb :: sbs => (bgpsecSigBlockFree m sb).bind fun m => bgpsecSigBlockFreeAll m sbs

/-- `bgpsec_path_free`, with `bgpsec_path_segment_free_all` (5733-5743). -/
def bgpsecPathFree (m : Memory) (bpa : AttrNode) : Option Memory :=
  (m.freeAll (bpa.pathSegments.map PathNode.addr)).bind fun m =>
    (bgpsecSigBlockFreeAll m bpa.sigBlocks).bind fun m => m.free bpa.addr

end SrxNote.Intern
