import SrxNote.Misc.Tlv
import SrxNote.Quagga.Stream
import SrxNote.Srx.MessageSize

/-!
# The capabilities of an OPEN message

The BGPSEC and the EXTENDED capability as `bgp_capability_parse` reads them
(`diff-QuaggaSRx_SvnRev2241-stock.patch:8614-8707`) and as `bgp_open_capability` writes
them (8729-8860). What stock Quagga does is a parameter for the capabilities that it
knows; the loop over the capabilities is the one that the patch is made for, which goes
on at the end of each capability, and that over the options takes them one after another.
-/

namespace SrxNote.Srx

open Quagga

/-- `BGP_OPEN_OPT_CAP`. -/
def bgpOpenOptCap : UInt8 := 2

/-- `CAPABILITY_CODE_EXTENDED` (8994). -/
def capabilityCodeExtended : UInt8 := 6

/-- `CAPABILITY_CODE_BGPSEC` (9002). -/
def capabilityCodeBgpsec : UInt8 := 7

/-- The codes that stock Quagga knows (8986-9000). -/
def stockCodes : List UInt8 := [1, 2, 3, 64, 65, 66, 128, 130]

/-- `CAPABILITY_CODE_BGPSEC_LEN` (9012). -/
def capabilityCodeBgpsecLen : UInt8 := 3

/-- `CAPABILITY_CODE_EXTENDED_LEN` (9013). -/
def capabilityCodeExtendedLen : UInt8 := 0

/-- `BGPSEC_CAP_VERSION` (8975). -/
def bgpsecCapVersion : UInt8 := (0 : UInt8) <<< 4

/-- `BGPSEC_CAP_DIR_RECV` (8976). -/
def bgpsecCapDirRecv : UInt8 := (0 : UInt8) <<< 3

/-- `BGPSEC_CAP_DIR_SEND` (8977). -/
def bgpsecCapDirSend : UInt8 := (1 : UInt8) <<< 3

/-- `BGPSEC_CAP_AFI_IPv4` (8981). -/
def bgpsecCapAfiIpv4 : UInt16 := 1

/-- `BGPSEC_CAP_AFI_IPv6` (8982). -/
def bgpsecCapAfiIpv6 : UInt16 := 2

/-- `struct BgpsecCapVal` (8972-8983). -/
structure BgpsecCapVal where
  versionDir : UInt8
  afi : UInt16
  deriving DecidableEq, Repr

/-! ## Reading -/

/-- What stock Quagga has for the codes that it knows: the sizes in `cap_minsizes`, and what it does with
    such a capability, `error` where the parser gives up. It does not know the flags of the patch. -/
structure StockQuagga where
  minsize : UInt8 → Nat
  capability : BufferedPeer → UInt8 → UInt8 → Stream → Except BufferedPeer BufferedPeer
  capability_adv : ∀ peer code length s,
    checkFlag (Tlv.stateOf (capability peer code length s)).cap peerCapBgpsecAdv =
      checkFlag peer.cap peerCapBgpsecAdv
  capability_advSend : ∀ peer code length s,
    checkFlag (Tlv.stateOf (capability peer code length s)).cap peerCapBgpsecAdvSend =
      checkFlag peer.cap peerCapBgpsecAdvSend

/-- `cap_minsizes` (8622-8629). It has no entry for BGPSEC. -/
def capMinsizes (q : StockQuagga) (code : UInt8) : Nat :=
  if code = capabilityCodeExtended then capabilityCodeExtendedLen.toNat
  else if code ∈ stockCodes then q.minsize code
  else 0

/-- The branch for BGPSEC (8659-8689). -/
def bgpsecCapability (peer : BufferedPeer) (s : Stream) : BufferedPeer :=
  let (versionDir, s) := streamGetc s
  let (afi, _) := streamGetw s
  let cv : BgpsecCapVal := ⟨versionDir, afi⟩
  let cap :=
    if cv.versionDir &&& ~~~bgpsecCapDirRecv = 0 then setFlag peer.cap peerCapBgpsecAdv
    else peer.cap
  let cap :=
    if cv.versionDir &&& bgpsecCapDirSend ≠ 0 then setFlag cap peerCapBgpsecAdvSend
    else cap
  ⟨peer.flags, cap, peer.ibuf⟩

/-- A turn of the loop of `bgp_capability_parse`, with the stream behind the header. A code that is not
    known is logged or kept for an error message. -/
def capabilityStep (q : StockQuagga) (peer : BufferedPeer) (code length : UInt8) (s : Stream) :
    Except BufferedPeer BufferedPeer :=
  if (code ∈ stockCodes ∨ code = capabilityCodeBgpsec ∨ code = capabilityCodeExtended) ∧
      length.toNat < capMinsizes q code then .error peer
  else if code ∈ stockCodes then q.capability peer code length s
  else if code = capabilityCodeBgpsec then .ok (bgpsecCapability peer s)
  else if code = capabilityCodeExtended then .ok peer.capabilityExtended
  else .ok peer

/-- `bgp_capability_parse`; an error is its -1, with what has been set until then. -/
def bgpCapabilityParse (q : StockQuagga) (peer : BufferedPeer) (s : Stream) (length : Nat) :
    Except BufferedPeer BufferedPeer :=
  Tlv.walk (capabilityStep q) peer s length

/-- An option of an OPEN; all but capabilities are refused (8709-8713). -/
def openOptionStep (q : StockQuagga) (peer : BufferedPeer) (optType optLength : UInt8) (s : Stream) :
    Except BufferedPeer BufferedPeer :=
  if optType = bgpOpenOptCap then bgpCapabilityParse q peer s optLength.toNat
  else .error peer

/-- `bgp_open_option_parse`. -/
def bgpOpenOptionParse (q : StockQuagga) (peer : BufferedPeer) (s : Stream) (length : Nat) :
    Except BufferedPeer BufferedPeer :=
  Tlv.walk (openOptionStep q) peer s length

/-- An option that holds capabilities. -/
structure CapabilityOption where
  capabilities : List Tlv
  fits : (Tlv.sequence capabilities).length < 256

/-- The option with its type and length. -/
def CapabilityOption.toTlv (o : CapabilityOption) : Tlv :=
  ⟨bgpOpenOptCap, Tlv.sequence o.capabilities, o.fits⟩

/-- The octets of options in an OPEN. -/
def optionOctets (options : List CapabilityOption) : Stream :=
  Tlv.sequence (options.map CapabilityOption.toTlv)

/-! ## Writing -/

/-- What `bgp_open_capability` reads of the peer: its flags, and the address families of IPv6 in
    `peer->afc`. -/
structure OpenPeer where
  flags : UInt16
  afcIp6Unicast : Bool
  afcIp6Multicast : Bool
  deriving DecidableEq, Repr

/-- `mpnlri_v6_announced` (8729-8753). -/
def OpenPeer.mpnlriV6Announced (peer : OpenPeer) : Bool := peer.afcIp6Unicast || peer.afcIp6Multicast

/-- `makeBgpsecCapability` (8849-8859). -/
def makeBgpsecCapability (s : Stream) (version dir : UInt8) (afi : UInt16) : Stream :=
  let cv : BgpsecCapVal := ⟨0 ||| version ||| dir, afi⟩
  streamPutw (streamPutc s cv.versionDir) cv.afi

/-- An option with one BGPSEC capability, the four times that it is written (8768-8772, 8781-8785,
    8801-8805, 8815-8819). -/
def putBgpsecOption (s : Stream) (dir : UInt8) (afi : UInt16) : Stream :=
  let s := streamPutc s bgpOpenOptCap
  let s := streamPutc s (capabilityCodeBgpsecLen + 2)
  let s := streamPutc s capabilityCodeBgpsec
  let s := streamPutc s capabilityCodeBgpsecLen
  makeBgpsecCapability s bgpsecCapVersion dir afi

/-- `bgp_open_capability` behind the options of stock Quagga, which are in the stream (8763-8841). -/
def bgpOpenCapability (s : Stream) (peer : OpenPeer) : Stream :=
  let send := checkFlag peer.flags peerFlagBgpsecCapabilitySend
  let recv := checkFlag peer.flags peerFlagBgpsecCapabilityRecv
  let s := if send then putBgpsecOption s bgpsecCapDirSend bgpsecCapAfiIpv4 else s
  let s := if recv then putBgpsecOption s bgpsecCapDirRecv bgpsecCapAfiIpv4 else s
  let s := if peer.mpnlriV6Announced && send then
      putBgpsecOption s bgpsecCapDirSend bgpsecCapAfiIpv6 else s
  let s := if peer.mpnlriV6Announced && recv then
      putBgpsecOption s bgpsecCapDirRecv bgpsecCapAfiIpv6 else s
  if checkFlag peer.flags peerFlagExtendedMessageSupport then
    let s := streamPutc s bgpOpenOptCap
    let s := streamPutc s (capabilityCodeExtendedLen + 2)
    let s := streamPutc s capabilityCodeExtended
    streamPutc s capabilityCodeExtendedLen
  else s

end SrxNote.Srx
