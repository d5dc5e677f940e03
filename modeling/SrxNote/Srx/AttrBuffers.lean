import SrxNote.Misc.Alloc
import SrxNote.Quagga.AsPath
import SrxNote.Srx.AttrParse

/-!
# The buffers of a received BGPSEC_Path attribute

`bgp_attr_bgpsec` (`diff-QuaggaSRx_SvnRev2241-stock.patch:1503-1626`) and the end of the
attributes (1655-1684) with the pointers of `attr` and the buffers behind them.
What `bgpsec_parse` allocates is linked to the path at once, and on an error it frees
the path with all of it, so the path is one buffer here and an error leaves none.
-/

namespace SrxNote.Srx.AttrBuffers
open SrxNote.Bgpsec SrxNote.Quagga

/-- `SCA_BGPSecValidationData` with its pointers. -/
structure ValDataFields where
  myAS : List UInt8
  status : UInt32
  bgpsecPathAttr : Option Nat
  nlri : Option Nat
  hashMessage : Option Nat × Option Nat
  deriving DecidableEq

/-- After `memset` to 0. -/
def ValDataFields.zero : ValDataFields := ⟨be32 0, 0, none, none, none, none⟩

inductive Buffer where
  | valData (d : ValDataFields)
  | wired (octets : List UInt8)
  | stream (octets : List UInt8)
  | path (bpa : BgpsecPathAttr)
  | nlri (p : SCAPrefix)
  | hashMessage
  deriving DecidableEq

/-- The fields of `struct attr` that are read or set. The AS path is what `aspath_parse` makes. -/
structure Attr (α : Type) where
  flag : UInt32
  aspath : Option α
  bgpsecPathAttr : Option Nat
  bgpsecValidationData : Option Nat
  deriving DecidableEq

/-- `free` of a pointer that may be NULL. -/
def freePtr (h : Heap Buffer) : Option Nat → Option (Heap Buffer)
  | none => some h
  | some p => h.free p

/-- The validation data that is filled in (1529-1556): new, or the old one without its buffers. -/
def clearedValData (h : Heap Buffer) : Option Nat → Option (Nat × Heap Buffer)
  | none => some (h.fresh, h.alloc (.valData .zero))
  | some p =>
      match h.read p with
      | some (.valData d) => do
          let h ← freePtr h d.bgpsecPathAttr
          let h ← freePtr h d.nlri
          let h ← freePtr h d.hashMessage.1
          let h ← freePtr h d.hashMessage.2
          return (p, h)
      | _ => none

variable {α : Type}

/-- The BGPsec attribute that was parsed (1616-1625). -/
def storePath (aspathParse : AspathStream → Option α) (attrFlagBit : UInt8 → UInt32)
    (bpa : BgpsecPathAttr) (attr : Attr α) (h : Heap Buffer) : Attr α × Heap Buffer :=
  ({ attr with
      flag := attr.flag ||| attrFlagBit bgpAttrAsPath ||| attrFlagBit bgpAttrBgpsec
      aspath := aspathParse (srxConvertToAspath bpa)
      bgpsecPathAttr := some h.fresh },
    h.alloc (.path bpa))

/-- The cleanup after a parsing error (1599-1613), by the local pointer `valdata`, to which NULL is
    assigned at the end. -/
def cleanup (valdata : Nat) (d : ValDataFields) (h : Heap Buffer) : Option (Heap Buffer) := do
  let h ← freePtr h d.nlri
  let h ← freePtr h d.bgpsecPathAttr
  h.write valdata (.valData .zero)

/-- `bgp_attr_bgpsec`: what it returns, `attr` and the buffers. `none` is an access to a buffer that is
    not there, or not enough fuel for `bgpsec_parse`. -/
def bgpAttrBgpsecParse (aspathParse : AspathStream → Option α) (attrFlagBit : UInt8 → UInt32)
    (fuel : Nat) (localAs : UInt32) (flags : UInt8) (octets : List UInt8) (attr : Attr α)
    (h : Heap Buffer) : Option (AttrParseRet × Attr α × Heap Buffer) :=
  if attr.aspath.isSome then some (.withdraw, attr, h)
  else do
    let (valdata, h) ← clearedValData h attr.bgpsecValidationData
    let attr := { attr with bgpsecValidationData := some valdata }
    let d : ValDataFields := ⟨be32 localAs, apiStatusOk, some h.fresh, none, none, none⟩
    let h := h.alloc (.wired (wiredAttribute flags octets))
    let h ← h.write valdata (.valData d)
    -- `str`, which no path of the function frees
    let h := h.alloc (.stream octets)
    match ← bgpsecParse fuel octets octets.length with
    | none =>
        let h ← cleanup valdata d h
        return (.withdraw, { attr with bgpsecPathAttr := none }, h)
    | some bpa =>
        let (attr, h) := storePath aspathParse attrFlagBit bpa attr h
        return (.proceed, attr, h)

/-- The end of the attributes. -/
def endOfAttributes (ret : AttrParseRet) (mpUpdate : Option BgpNlri) (attr : Attr α)
    (h : Heap Buffer) : Option (AttrParseRet × Heap Buffer) :=
  match attr.bgpsecValidationData with
  | none => some (ret, h)
  | some valdata =>
      match bgpsecCreateValdataNlri mpUpdate with
      | none => some (.error, h)
      | some (nlri, _) =>
          match h.read valdata with
          | some (.valData d) =>
              let d := { d with nlri := some h.fresh }
              ((h.alloc (.nlri nlri)).write valdata (.valData d)).map fun h => (ret, h)
          | _ => none

end SrxNote.Srx.AttrBuffers
