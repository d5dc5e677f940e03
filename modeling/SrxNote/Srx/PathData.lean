import SrxNote.Misc.Buffer
import SrxNote.Srx.AttrParse
import SrxNote.Srx.Peer

/-!
# The path data of a route

What becomes of the path of a route: `srx_create_bgpsec_data` collects it for the
SRx server (`diff-QuaggaSRx_SvnRev2241-stock.patch:3191-3273`), `aspath_origin_as`
takes the origin of it (8246-8283), and `bgp_packet_attribute` sends the BGPSEC_Path
attribute on (1954-2004). The last two read the copy that `bgp_attr_bgpsec` has
stored; a result of `none` is an access behind an allocated object.
-/

namespace SrxNote.Srx
open SrxNote.Quagga

/-- The types of the segments of an AS path. -/
inductive AsSegmentType where
  | asSet
  | asSequence
  | asConfedSequence
  | asConfedSet
  deriving DecidableEq, Repr

/-- `struct assegment`: its length is that of the list of its AS numbers. -/
structure AsSegment where
  type : AsSegmentType
  as : List UInt32
  as_ne_nil : as ≠ []
  deriving DecidableEq

/-! ### The AS path -/

/-- The AS number that stands for an origin that cannot be determined (8252-8256). -/
def unknownAsn : UInt32 := 65536

/-- The loop of `aspath_origin_as` (8265-8280). -/
def originSegments : List AsSegment → UInt32 → UInt32
  | [], oas => oas
  | cseg :: segs, oas =>
      match cseg.type with
      | .asSequence => originSegments segs (cseg.as.getLast cseg.as_ne_nil)
      | .asSet => unknownAsn
      | .asConfedSequence | .asConfedSet => originSegments segs oas

/-- `aspath_origin_as` (8246-8283). -/
def aspathOriginAs (ap : Option (List AsSegment)) : UInt32 :=
  match ap with
  | none => 0
  | some segments => originSegments segments 0

/-- `BGPSecData`. The declaration belongs to the SRx client library: the counts are not cut off here,
    and the AS path is the octets of its array. -/
structure BGPSecData where
  numberHops : Nat
  asPath : Option (List UInt8)
  attrLength : Nat
  afi : List UInt8
  safi : UInt8
  localAs : UInt32
  bgpsecPathAttr : Option (List UInt8)
  deriving DecidableEq, Repr

/-- `realloc`, and `malloc` for NULL. New octets have any value and are taken as 0. -/
def realloc (ptr : Option (List UInt8)) (size : Nat) : List UInt8 :=
  (ptr.getD []).take size ++ List.replicate (size - (ptr.getD []).length) 0

/-- The inner loop (3232-3235): the array and `dataIdx`. -/
def fillArray (asPath : List UInt8) (dataIdx : Nat) : List UInt32 → Option (List UInt8 × Nat)
  | [] => some (asPath, dataIdx)
  | as :: rest => do
      let asPath ← Buffer.write asPath (dataIdx * 4) (be32 as)
      fillArray asPath (dataIdx + 1) rest

/-- The variables of the loop over the segments. -/
structure PathFill where
  asPath : Option (List UInt8)
  numberHops : Nat
  dataIdx : Nat
  prevSize : Nat
  deriving DecidableEq, Repr

/-- The loop over the segments (3214-3239). -/
def fillSegments : List AsSegment → PathFill → Option PathFill
  | [], st => some st
  | pathSeg :: segs, st =>
      if pathSeg.type = .asSequence then do
        let size := pathSeg.as.length * 4
        let asPath := realloc st.asPath (size + st.prevSize)
        let (asPath, dataIdx) ← fillArray asPath st.dataIdx pathSeg.as
        fillSegments segs ⟨some asPath, pathSeg.as.length, dataIdx, st.prevSize + size⟩
      else fillSegments segs st

/-! ### The stored attribute -/

/-- `ntohs (attrLength)` of an `SCA_BGPSEC_ExtPathAttribute`. -/
def extAttrLength (pa : List UInt8) : Option Nat := do
  let hi ← pa[2]?
  let lo ← pa[3]?
  return (ofBe16 hi lo).toNat

/-- `attrLength` of an `SCA_BGPSEC_NormPathAttribute`. -/
def normAttrLength (pa : List UInt8) : Option Nat := pa[2]?.map UInt8.toNat

/-- The size that `srx_create_bgpsec_data` reads from the attribute (3246-3248). -/
def attributeSize (pa : List UInt8) : Option Nat := do
  let flags ← pa[0]?
  if flags &&& bgpUpdAFlagsExtLength > 0 then extAttrLength pa else normAttrLength pa

/-- The size that `bgp_packet_attribute` reads from it (1978-1985): the comparison binds before `&`,
    so that the flags are masked with its value. -/
def forwardedSize (pa : List UInt8) : Option Nat := do
  let flags ← pa[0]?
  if flags &&& (if bgpUpdAFlagsExtLength > 0 then 1 else 0) ≠ 0 then extAttrLength pa
  else normAttrLength pa

/-- `srx_create_bgpsec_data` (3191-3273). -/
def srxCreateBgpsecData (srxConfig : UInt16) (localAs : UInt32) (aspath : Option (List AsSegment))
    (validationData : Option ValidationData) : Option BGPSecData := do
  let path ← match aspath with
    | none => some ⟨none, 0, 0, 0⟩
    | some segments => fillSegments segments ⟨none, 0, 0, 0⟩
  let bgpsec : BGPSecData := ⟨path.numberHops, path.asPath, 0, [], 0, 0, none⟩
  match validationData with
  | none => return bgpsec
  | some valData => do
      let pa ← valData.bgpsecPathAttr
      let size ← attributeSize pa
      if checkFlag srxConfig srxConfigEvalDistr then do
        -- flag, type, attribute length itself
        let size := size + 4
        let nlri ← valData.nlri
        let copy ← Buffer.read (some pa) size
        return { bgpsec with
          attrLength := size
          afi := nlri.afi
          safi := nlri.safi
          localAs := localAs
          bgpsecPathAttr := some copy }
      else do
        let copy ← Buffer.read (some pa) size
        return { bgpsec with attrLength := size, bgpsecPathAttr := some copy }

/-- `stream_write`: `size` octets from behind a pointer. -/
def streamWrite (s : Stream) (ptr : List UInt8) (size : Nat) : Option Stream :=
  (Buffer.read (some ptr) size).map (s ++ ·)

/-- The BGPSEC_Path attribute of `bgp_packet_attribute` (1954-2003): the received one is sent on to a
    peer of the own AS, else one is made, whose content and size `construct` gives. -/
def putBgpsecPath (s : Stream) (sort : PeerSort) (validationData : Option ValidationData)
    (construct : Stream → Stream × UInt16) : Option Stream :=
  let constructed :=
    let s := streamPutc s (0x80 ||| bgpUpdAFlagsExtLength)
    let s := streamPutc s bgpAttrBgpsec
    let sizep := s.length
    let (s, attrLen) := construct (streamPutw s 0)
    some (streamPutwAt s sizep attrLen)
  match validationData.bind ValidationData.bgpsecPathAttr with
  | none => constructed
  | some pa =>
      if sort = .ibgp then (forwardedSize pa).bind (streamWrite s pa) else constructed

end SrxNote.Srx
