import SrxNote.Bgpsec.Attr
import SrxNote.Misc.Loop
import SrxNote.Quagga.Stream

/-!
# `bgpsec_parse`

The parser of the BGPSEC_Path attribute
(`diff-QuaggaSRx_SvnRev2241-stock.patch:5981-6223`). Its three nested loops keep
their shape: the path segments are counted down, the signature blocks are read
while the stream has octets, and the signature segments of a block are read
while the `u_int16_t` counter `remainingBytes` is not zero. Only the last loop
need not end, so it is the one that takes fuel. The `syntaxError` flag is part
of the loops' results, since setting it does not stop the parser.
-/

namespace SrxNote.Quagga
open SrxNote.Bgpsec

/-- `ski_new` (5917-5922). -/
def skiNew : List UInt8 := List.replicate skiLength 0

/-- `signature_new` (5925-5932). -/
def signatureNew (size : Nat) : List UInt8 := List.replicate size 0

/-- The loop over the Secure_Path segments (6067-6100): the segments linked so far in order,
    the stream and `syntaxError`. -/
def parsePathSegments : Nat → Stream → List PathSegment × Stream × Bool
  | 0, s => ([], s, false)
  | iter + 1, s =>
      if s.length < octetSecurePathSegment then ([], s, true)
      else
        let (pCount, s) := streamGetc s
        let (flags, s) := streamGetc s
        let (as, s) := streamGetl s
        let (segs, s, syntaxError) := parsePathSegments iter s
        (⟨as, pCount, flags⟩ :: segs, s, syntaxError)

/-- The variables of the loop over the signature segments of a block. `numSignatures` is the
    length of `sigSegments`: both grow by one at the head of the loop body. -/
structure SigLoop where
  sigSegments : List SigSegment
  remainingBytes : UInt16
  s : Stream

/-- One pass of the loop over the signature segments (6162-6201); it is left when
    `remainingBytes` is zero or, with `syntaxError`, on a signature that is longer than the
    rest of the stream. -/
def sigLoopStep (l : SigLoop) : Step SigLoop (SigLoop × Bool) :=
  if l.remainingBytes = 0 then .done (l, false)
  else
    let (ski, s) := streamGet skiNew l.s skiLength
    let remainingBytes := l.remainingBytes - UInt16.ofNat skiLength
    let (sigLen, s) := streamGetw s
    let remainingBytes := remainingBytes - 2
    if s.length < sigLen.toNat then
      .done (⟨l.sigSegments ++ [⟨some ski, sigLen, none⟩], remainingBytes, s⟩, true)
    else
      let (signature, s) := streamGet (signatureNew sigLen.toNat) s sigLen.toNat
      .next ⟨l.sigSegments ++ [⟨some ski, sigLen, some signature⟩], remainingBytes - sigLen, s⟩

/-- The loop over the signature blocks (6120-6208). `blocksLeft` is `BGPSEC_MAX_SIGBLOCK` less
    the `numSigBlocks` counted so far, `numSeg` is `numSecurePathSegment`. The result is the
    blocks linked so far and `syntaxError`, or `none` without enough fuel. -/
def parseSigBlocks (fuel : Nat) (numSeg : UInt16) :
    Nat → Stream → Option (List SigBlock × Bool)
  | 0, s => some ([], decide (0 < s.length))
  | blocksLeft + 1, s =>
      if 0 < s.length then
        let (sigBlockLen, s) := streamGetw s
        -- `sigBlockLen - 2` is an `int` compared with a `size_t`: for 0 and 1 it is negative
        -- and becomes more than any stream holds
        if sigBlockLen.toNat < 2 ∨ s.length < sigBlockLen.toNat - 2 then
          some ([⟨sigBlockLen, 0, []⟩], true)
        else
          let (algoSuiteId, s) := streamGetc s
          match Loop.run sigLoopStep fuel ⟨[], sigBlockLen - 3, s⟩ with
          | none => none
          | some (l, syntaxError) =>
              let sb : SigBlock := ⟨sigBlockLen, algoSuiteId, l.sigSegments⟩
              if l.sigSegments.length ≠ numSeg.toNat then some ([sb], true)
              else
                match parseSigBlocks fuel numSeg blocksLeft l.s with
                | none => none
                | some (sbs, syntaxError') => some (sb :: sbs, syntaxError || syntaxError')
      else some ([], false)

/-- `bgpsec_parse`: `none` when the fuel runs out, `some none` when it returns NULL. -/
def bgpsecParse (fuel : Nat) (s : Stream) (length : Nat) : Option (Option BgpsecPathAttr) :=
  if s.length < length ∨ length ≤ 0 then some none
  else
    let spl := streamGetwFrom s
    -- `spl` is promoted to `int`, so the remainder of lengths 0 and 1 is negative
    if ((spl.toNat : Int) - octetSecurePathLen).tmod octetSecurePathSegment ≠ 0 then some none
    else
      let (securePathLen, s) := streamGetw s
      let numSeg := numSecurePathSegment securePathLen.toUInt64
      let (segs, s, syntaxError) := parsePathSegments numSeg.toNat s
      let syntaxError := syntaxError || decide (s.length < 1)
      match parseSigBlocks fuel numSeg bgpsecMaxSigblock s with
      | none => none
      | some (sbs, syntaxError') =>
          if syntaxError || syntaxError' then some none
          else some (some ⟨securePathLen.toUInt64, segs, sbs⟩)

end SrxNote.Quagga
