import SrxNote.Misc.Heap
import SrxNote.Srx.Router

/-!
# Validation results in extended communities

With the extended community feature on, the router puts the result of a route into
the communities that it sends (`ecommunity_bgpsec_str2com`,
`diff-QuaggaSRx_SvnRev2241-stock.patch:8875-8897`, and `srxEcommunityChange` with
`srxEcommunityRestore`, 4139-4190) and reads one from those it receives
(`checkEcomSRxValid`, 2885-2930, in `verify_update`). The communities of an attribute
are behind a pointer, as Quagga keeps them: sorted and with their text, which is
then not NULL.
-/

namespace SrxNote.Srx

/-- `struct ecommunity_val`. -/
abbrev EcommunityVal := Vector UInt8 8

/-- `ECOMMUNITY_ENCODE_BGPSEC` (8916). -/
def ecommunityEncodeBgpsec : UInt8 := 0x43

/-- `ECOMMUNITY_BGPSEC_VALID` up to `ECOMMUNITY_BGPSEC_UNDEFINED` (8945-8948). -/
def ecommunityBgpsecValid : UInt32 := 0
def ecommunityBgpsecNotFound : UInt32 := 1
def ecommunityBgpsecInvalid : UInt32 := 2
def ecommunityBgpsecUndefined : UInt32 := 3

/-- `ecommunity_bgpsec_str2com`: the one community of the list. -/
def ecommunityBgpsecStr2com (type : UInt8) (stateValue : UInt32) : EcommunityVal :=
  #v[ecommunityEncodeBgpsec, type, 0, 0, 0, 0, 0, stateValue.toUInt8]

/-- `ecom->val[7]`, where there is an `ecom->val`. -/
def ecommunityStatus (ecommunity : Option (List EcommunityVal)) : Option UInt8 :=
  ecommunity.bind fun vals => vals.head?.map fun val => val.get 7

/-- The environment of a router with the feature on, whose attributes have these communities. -/
def withEcommunity {α δ : Type} (env : Env α δ) (ecommunity : α → Option (List EcommunityVal)) :
    Env α δ :=
  { env with
    srxEcommunity := true
    ecommunityStatus := fun attr => ecommunityStatus (ecommunity attr) }

/-- `ATTR_FLAG_BIT (BGP_ATTR_EXT_COMMUNITIES)`. -/
def attrFlagBitExtCommunities : UInt32 := (1 : UInt32) <<< 15

/-- The fields of `struct attr` that are changed: `flag`, and the `ecommunity` of `extra`. -/
structure EcomAttr where
  flag : UInt32
  extra : Option (Option Nat)
  deriving DecidableEq, Repr

/-- An attribute, and the lists of communities that are allocated. -/
structure EcomState where
  attr : EcomAttr
  ecommunities : Heap (List EcommunityVal)

/-- The state that `srxEcommunityChange` sends for a result (4145-4156). -/
def ecommunityState (valResROA : SRxResult) : UInt32 :=
  match valResROA with
  | .valid => ecommunityBgpsecValid
  | .notfound => ecommunityBgpsecNotFound
  | .invalid => ecommunityBgpsecInvalid
  | _ => ecommunityBgpsecNotFound

/-- `srxEcommunityChange` (4139-4169): the pointer that it returns is the one it replaces. -/
def srxEcommunityChange (srxEcommunitySubcode : UInt8) (valResROA : SRxResult) (s : EcomState) :
    EcomState × Option Nat :=
  match s.attr.extra with
  | none => (s, none)
  | some ecomOrig =>
      let val := ecommunityBgpsecStr2com srxEcommunitySubcode (ecommunityState valResROA)
      (⟨⟨s.attr.flag ||| attrFlagBitExtCommunities, some (some s.ecommunities.fresh)⟩,
        s.ecommunities.alloc [val]⟩, ecomOrig)

/-- `srxEcommunityRestore` (4171-4189) with its result; `none` when it frees what is not
    allocated. -/
def srxEcommunityRestore (s : EcomState) (ecomOrig : Option Nat) : Option (EcomState × Bool) :=
  match s.attr.extra with
  | some (some ecom) =>
      if s.attr.flag &&& attrFlagBitExtCommunities ≠ 0 then
        (s.ecommunities.free ecom).map fun ecommunities =>
          (⟨⟨s.attr.flag &&& ~~~attrFlagBitExtCommunities, some ecomOrig⟩, ecommunities⟩, true)
      else some (s, false)
  | _ => some (s, false)

/-- What `bgp_update_packet` does with the attribute of a route (4269-4287) for one peer. -/
def sendWithEcommunity (srxEcommunitySubcode : UInt8) (s : EcomState) (valResROA : SRxResult) :
    Option EcomState :=
  let changed := srxEcommunityChange srxEcommunitySubcode valResROA s
  (srxEcommunityRestore changed.1 changed.2).map Prod.fst

end SrxNote.Srx
