import SrxNote.Srx.Config

/-!
# Flags and capabilities of a peer

The bits of `peer->flags` and `peer->cap` that the patch adds
(`diff-QuaggaSRx_SvnRev2241-stock.patch:5308-5332`), and the commands that switch
BGPsec for a neighbor (7799-7895). All of the bits are below 16, so that the
`u_int16_t` of the commands holds them.
-/

namespace SrxNote.Srx

/-- `PEER_CAP_EXTENDED_MSG_SUPPORT`. -/
def peerCapExtendedMsgSupport : UInt16 := (1 : UInt16) <<< 13

/-- `PEER_CAP_BGPSEC_ADV_SEND`. -/
def peerCapBgpsecAdvSend : UInt16 := (1 : UInt16) <<< 14

/-- `PEER_CAP_BGPSEC_ADV`. -/
def peerCapBgpsecAdv : UInt16 := (1 : UInt16) <<< 15

/-- `PEER_FLAG_EXTENDED_MESSAGE_SUPPORT`. -/
def peerFlagExtendedMessageSupport : UInt16 := (1 : UInt16) <<< 9

/-- `PEER_FLAG_BGPSEC_MPE_IPV4`. -/
def peerFlagBgpsecMpeIpv4 : UInt16 := (1 : UInt16) <<< 10

/-- `PEER_FLAG_EXTENDED_MESSAGE_LIBERAL`. -/
def peerFlagExtendedMessageLiberal : UInt16 := (1 : UInt16) <<< 13

/-- `PEER_FLAG_BGPSEC_CAPABILITY_RECV`. -/
def peerFlagBgpsecCapabilityRecv : UInt16 := (1 : UInt16) <<< 14

/-- `PEER_FLAG_BGPSEC_CAPABILITY_SEND`. -/
def peerFlagBgpsecCapabilitySend : UInt16 := (1 : UInt16) <<< 15

/-- Quagga's `SET_FLAG`. -/
def setFlag (value flags : UInt16) : UInt16 := value ||| flags

/-- Quagga's `UNSET_FLAG`. -/
def unsetFlag (value flags : UInt16) : UInt16 := value &&& ~~~flags

/-- `peer->sort`. -/
inductive PeerSort where
  | ibgp
  | ebgp
  | internal
  | confed
  deriving DecidableEq, Repr

/-- The fields of `struct peer` that the functions below read. -/
structure Peer where
  as : UInt32
  sort : PeerSort
  flags : UInt16
  cap : UInt16
  deriving DecidableEq, Repr

/-- The modes of `neighbor ... bgpsec (snd|rec|both)`. -/
inductive BgpsecMode where
  | snd
  | recv
  | both
  deriving DecidableEq, Repr

/-- The flags that a mode stands for (7809-7821), in the command and in its `no` form. -/
def BgpsecMode.flag : BgpsecMode → UInt16
  | .snd => peerFlagBgpsecCapabilitySend ||| peerFlagBgpsecMpeIpv4
  | .recv => peerFlagBgpsecCapabilityRecv
  | .both =>
      peerFlagBgpsecCapabilitySend ||| peerFlagBgpsecCapabilityRecv ||| peerFlagBgpsecMpeIpv4

/-- The commands that are installed (8176-8180); `mpe` has no `no` form. -/
inductive PeerCmd where
  | bgpsec (mode : BgpsecMode)
  | noBgpsec (mode : BgpsecMode)
  | mpe
  deriving DecidableEq, Repr

/-- `neighbor_capability_bgpsec`, `no_neighbor_capability_bgpsec` and `neighbor_bgpsec_mpnlri_ipv4`
    when the change of the flags is not refused. -/
def PeerCmd.apply (flags : UInt16) : PeerCmd → UInt16
  | .bgpsec mode => setFlag flags mode.flag
  | .noBgpsec mode => unsetFlag flags mode.flag
  | .mpe => setFlag flags peerFlagBgpsecMpeIpv4

end SrxNote.Srx
