import SrxNote.Bgpsec.Attr
import SrxNote.Quagga.Stream

/-!
# The AS_PATH of a BGPsec route

The stream that `srx_convert_to_aspath` makes of the secure path for `aspath_parse`
(`diff-QuaggaSRx_SvnRev2241-stock.patch:1396-1460`).
-/

namespace SrxNote.Quagga
open SrxNote.Bgpsec

/-- `BGP_ATTR_AS_PATH`. -/
def bgpAttrAsPath : UInt8 := 2

/-- `stream_putc` on a stream of `size` octets: one that does not fit is not written. -/
def streamPutcWithin (size : Nat) (s : Stream) (c : UInt8) : Stream :=
  if size < s.length + 1 then s else streamPutc s c

/-- `stream_putl` on a stream of `size` octets. -/
def streamPutlWithin (size : Nat) (s : Stream) (l : UInt32) : Stream :=
  if size < s.length + 4 then s else streamPutl s l

/-- The sum of all pCounts (1416-1420). -/
def totalPCount (segs : List PathSegment) : UInt64 :=
  segs.foldl (fun pcntTot seg => pcntTot + seg.pCount.toUInt64) 0

/-- The inner loop (1434-1437): `pcnt` AS numbers. -/
def putAsNumbers (size : Nat) (s : Stream) (as : UInt32) : Nat → Stream
  | 0 => s
  | pcnt + 1 => putAsNumbers size (streamPutlWithin size s as) as pcnt

/-- The loop over the segments (1431-1439): at most `iter` of them. -/
def putAsSegments (size : Nat) (s : Stream) : UInt16 → List PathSegment → Stream
  | _, [] => s
  | iter, ps :: segs =>
      if iter = 0 then s
      else putAsSegments size (putAsNumbers size s ps.as ps.pCount.toNat) (iter - 1) segs

/-- What `aspath_parse` is called with: the octets that were written, and `streamLen`. -/
structure AspathStream where
  octets : Stream
  streamLen : UInt64
  deriving DecidableEq

/-- `srx_convert_to_aspath` up to the call of `aspath_parse`. -/
def srxConvertToAspath (bpa : BgpsecPathAttr) : AspathStream :=
  let pcntTot := totalPCount bpa.pathSegments
  let streamLen := max ((bpa.securePathLen - 2) / 6 * 4 + 2) (pcntTot * 4 + 2)
  let size := streamLen.toNat
  let iter := ((streamLen - 2) / 4).toUInt16
  let s := streamPutcWithin size [] bgpAttrAsPath
  let s := streamPutcWithin size s iter.toUInt8
  ⟨putAsSegments size s iter bpa.pathSegments, streamLen⟩

end SrxNote.Quagga
