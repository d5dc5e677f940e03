import SrxNote.Quagga.Parse
import SrxNote.Srx.Sign

/-!
# The attributes of a received UPDATE

The loop of `bgp_attr_parse` with what the patch adds to it: `bgp_attr_bgpsec`
(`diff-QuaggaSRx_SvnRev2241-stock.patch:1503-1626`) and, behind the last
attribute, the prefix for the validation (1655-1684), which
`bgpsec_create_valdata_nlri` (1462-1489) takes from the MP_REACH_NLRI attribute.

What Quagga's own functions return for the other attributes is an input, and so
is what they leave of the stream. A copy that does not fit into the address
of an `SCA_Prefix` is made nevertheless, so the number of octets it wrote is part
of the state.
-/

namespace SrxNote.Srx
open SrxNote.Bgpsec SrxNote.Quagga

/-- `bgp_attr_parse_ret_t`. -/
inductive AttrParseRet where
  | proceed
  | withdraw
  | error
  deriving DecidableEq, Repr

/-- `struct bgp_nlri` as `bgp_mp_reach_parse` leaves it: `nlri` points to the whole NLRI field, of
    which there is at least one octet. `length` is a `bgp_size_t`. -/
structure BgpNlri where
  afi : UInt16
  safi : UInt8
  nlri : List UInt8
  nlri_pos : 0 < nlri.length
  nlri_lt : nlri.length < 65536
  deriving DecidableEq

/-- What Quagga's function for an attribute returns, and whether it read the attribute to its
    end. -/
structure StockRet where
  ret : AttrParseRet
  consumed : Bool
  deriving DecidableEq, Repr

/-- An attribute of the UPDATE. Of the attributes that Quagga itself parses it matters whether they
    set `attr->aspath`, and for MP_REACH_NLRI what is stored in `mp_update`. -/
inductive Attribute where
  | bgpsec (flags : UInt8) (octets : List UInt8)
  | mpReach (mp : BgpNlri) (stock : StockRet)
  | other (type : UInt8) (setsAspath : Bool) (stock : StockRet)

/-- `BGP_ATTR_MP_REACH_NLRI`. -/
def bgpAttrMpReachNlri : UInt8 := 14

/-- `BGP_ATTR_BGPSEC` (5365). -/
def bgpAttrBgpsec : UInt8 := 33

/-- The type code. -/
def Attribute.type : Attribute → UInt8
  | .bgpsec _ _ => bgpAttrBgpsec
  | .mpReach _ _ => bgpAttrMpReachNlri
  | .other type _ _ => type

/-- What the loop has stored: the types it has seen, whether there is an `attr->aspath`,
    `attr->bgpsecPathAttr`, `attr->bgpsec_validationData`, `mp_update`, and how many octets were
    copied into the address of the validation data. -/
structure AttrState where
  seen : List UInt8
  aspath : Bool
  bgpsecPathAttr : Option BgpsecPathAttr
  validationData : Option ValidationData
  mpUpdate : Option BgpNlri
  copied : Nat
  deriving DecidableEq

/-- The state before the first attribute. -/
def AttrState.init : AttrState := ⟨[], false, none, none, none, 0⟩

/-- `BGP_UPD_A_FLAGS_EXT_LENGTH`. -/
def bgpUpdAFlagsExtLength : UInt8 := 0x10

/-- The attribute with its header, as it is kept for the validation (1570-1590). -/
def wiredAttribute (flags : UInt8) (octets : List UInt8) : List UInt8 :=
  flags :: bgpAttrBgpsec ::
    (if flags &&& bgpUpdAFlagsExtLength > 0 then be16 (UInt16.ofNat octets.length)
      else [UInt8.ofNat octets.length]) ++ octets

/-- `bgp_attr_bgpsec` (1503-1626): what it returns, whether it read the attribute, and the state;
    `none` without enough fuel for `bgpsec_parse`. After a parsing error the validation data is
    cleared but still there. -/
def bgpAttrBgpsecParse (fuel : Nat) (flags : UInt8) (octets : List UInt8) (st : AttrState) :
    Option (StockRet × AttrState) :=
  if st.aspath then some (⟨.withdraw, false⟩, st)
  else
    match bgpsecParse fuel octets octets.length with
    | none => none
    | some none =>
        some (⟨.withdraw, true⟩,
          { st with bgpsecPathAttr := none, validationData := some ⟨none, none, none, 0⟩ })
    | some (some bpa) =>
        some (⟨.proceed, true⟩,
          { st with
            aspath := true
            bgpsecPathAttr := some bpa
            validationData :=
              some ⟨none, none, some (wiredAttribute flags octets), apiStatusOk⟩ })

/-- The function that the type of the attribute selects. -/
def attributeParse (fuel : Nat) (a : Attribute) (st : AttrState) :
    Option (StockRet × AttrState) :=
  match a with
  | .bgpsec flags octets => bgpAttrBgpsecParse fuel flags octets st
  | .mpReach mp stock =>
      some (stock, if stock.ret = .proceed then { st with mpUpdate := some mp } else st)
  | .other _ setsAspath stock => some (stock, { st with aspath := st.aspath || setsAspath })

/-- `bgpsec_create_valdata_nlri` (1462-1489): the prefix, and the octets that `memcpy` writes to
    its 16-octet address. The length is that of the first prefix of the field, the copy runs to the
    end of the field. -/
def bgpsecCreateValdataNlri (mpUpdate : Option BgpNlri) : Option (SCAPrefix × Nat) :=
  match mpUpdate with
  | none => none
  | some mp =>
      let length := mp.nlri.headD 0
      let copy := if length > 0 then mp.nlri.tail.take (mp.nlri.length - 1) else []
      some (⟨be16 mp.afi, mp.safi, length,
        (copy ++ List.replicate (addrLen - copy.length) 0).take addrLen⟩, copy.length)

/-- Behind the last attribute (1655-1684). -/
def endOfAttributes (ret : AttrParseRet) (st : AttrState) : AttrParseRet × AttrState :=
  match st.validationData with
  | none => (ret, st)
  | some valData =>
      match bgpsecCreateValdataNlri st.mpUpdate with
      | none => (.error, st)
      | some (nlri, copied) =>
          (ret, { st with validationData := some { valData with nlri := some nlri }, copied := copied })

/-- The loop of `bgp_attr_parse`. An attribute whose type was seen before is an error, and so is one
    that was not read to its end; a result other than to proceed ends the loop. -/
def bgpAttrParse (fuel : Nat) : List Attribute → AttrState → Option (AttrParseRet × AttrState)
  | [], st => some (.proceed, st)
  | a :: as, st =>
      if a.type ∈ st.seen then some (.error, st)
      else
        match attributeParse fuel a { st with seen := a.type :: st.seen } with
        | none => none
        | some (stock, st) =>
            let (ret, st) :=
              if as.isEmpty && stock.consumed then endOfAttributes stock.ret st else (stock.ret, st)
            if ret ≠ .proceed then some (ret, st)
            else if ! stock.consumed then some (.error, st)
            else bgpAttrParse fuel as st

/-! ### The NLRI field -/

/-- A prefix of an NLRI field: its length in bits and the octets this takes. No prefix is longer
    than the address. -/
structure NlriPrefix where
  length : UInt8
  addr : List UInt8
  length_le : length.toNat ≤ 8 * addrLen
  addr_length : addr.length = (length.toNat + 7) / 8

/-- The octets of a prefix in an NLRI field. -/
def NlriPrefix.wire (p : NlriPrefix) : List UInt8 := p.length :: p.addr

/-- The octets of an NLRI field. -/
def nlriWire (ps : List NlriPrefix) : List UInt8 := ps.flatMap NlriPrefix.wire

end SrxNote.Srx
