import Mathlib.Data.List.Basic
import SrxNote.Srx.Peer
import SrxNote.Srx.Sign

/-!
# Sending announcements

`bgp_update_packet` (`diff-QuaggaSRx_SvnRev2241-stock.patch:4197-4413`) for IPv4
unicast, with the part of `bgp_packet_attribute` that chooses between AS_PATH
and BGPSEC_Path (1734-1800) and that writes the prefix as MP_REACH_NLRI
(1844-1886). A packet is the prefixes it announces; the other attributes are left
out.

Quagga's own part of the loop is taken over: the attributes are written when the
stream is empty, and the loop goes on with the announcements that have the same
attributes. In which order it takes these, whether there is room for one more,
and whether a signature is made are inputs. A stream has room for what is put, as
in the other modules.
-/

namespace SrxNote.Srx

/-- What is read of the attributes of an announcement: the length of the AS path that would be
    written, the length of the first segment of `attr->aspath`, whether there is a BGPsec path,
    the flags of the two aggregation attributes and `attr->extra`. The rest is one number. -/
structure OutAttr where
  strLen : Nat
  segmentsLength : Nat
  bgpsecPathAttr : Bool
  aggregator : Bool
  atomicAggregate : Bool
  extra : Bool
  rest : Nat
  deriving DecidableEq, Repr

/-- A `struct bgp_advertise` for IPv4 unicast: the prefix, the attributes, and `adv->binfo`, of which
    the peer it was learned from is read. -/
structure Announcement where
  pfx : QPrefix
  attr : OutAttr
  binfo : Option (Option Peer)
  inet : pfx.family = .inet
  deriving DecidableEq

/-- An UPDATE: the prefix of its MP_REACH_NLRI attribute, if it has one, and its NLRI. -/
structure Packet where
  mpReach : Option QPrefix
  nlri : List QPrefix
  deriving DecidableEq

/-- The prefixes that a packet announces. -/
def Packet.announced (packet : Packet) : List QPrefix := packet.mpReach.toList ++ packet.nlri

/-- The peer that a path was learned from does not take part in BGPsec (1752-1755, 4316-4319). -/
def notFromBgpsec (peer : Peer) (src : Option Peer) : Bool :=
  match src with
  | none => false
  | some src =>
      src.as ≠ 0 && src.as ≠ peer.as &&
        (! checkFlag src.flags peerFlagBgpsecCapabilityRecv ||
          ! checkFlag src.cap peerCapBgpsecAdvSend)

/-- BGPsec is sent to the peer and the peer receives it. -/
def sendsBgpsec (peer : Peer) : Bool :=
  checkFlag peer.flags peerFlagBgpsecCapabilitySend && checkFlag peer.cap peerCapBgpsecAdv

/-- `*useASpath` of `bgp_packet_attribute` (1734-1800); `signed` is whether `signBGPSecPathAttr`
    returns a signature. -/
def useASpath (peer : Peer) (attr : OutAttr) (src : Option Peer) (signed : Bool) : Bool :=
  if decide (attr.strLen > 0) && ! attr.bgpsecPathAttr then true
  else if ! sendsBgpsec peer || notFromBgpsec peer src || attr.aggregator ||
      attr.atomicAggregate then
    true
  else
    match peer.sort with
    | .ebgp | .confed => ! signed
    | .ibgp | .internal => ! attr.bgpsecPathAttr

/-- The prefix that `bgp_packet_attribute` writes as MP_REACH_NLRI for IPv4 (1844-1886). -/
def mpReachIpv4 (peer : Peer) (useASpath : Bool) (pfx : QPrefix) : Option QPrefix :=
  if ! useASpath then
    if checkFlag peer.flags peerFlagBgpsecMpeIpv4 && peer.sort ≠ .ibgp then
      if pfx.family = .inet then some pfx else none
    else none
  else none

/-- `bgp_packet_attribute`: a packet without NLRI, and `*useASpath`. Nothing when
    `assert (attr->extra)` stops the program (1862). -/
def bgpPacketAttribute (peer : Peer) (attr : OutAttr) (src : Option Peer) (signed : Bool)
    (pfx : QPrefix) : Option (Packet × Bool) :=
  let useASpath := useASpath peer attr src signed
  let mpReach := mpReachIpv4 peer useASpath pfx
  if mpReach.isSome && ! attr.extra then none else some (⟨mpReach, []⟩, useASpath)

/-- What one call of `bgp_update_packet` depends on: the order of the announcements with the same
    attributes, whether `STREAM_REMAIN` is enough for a prefix, whether signing succeeds, and
    `SRX_BGP_FLAG_ECOMMUNITY`. -/
structure UpdateCall where
  order : List Announcement → List Announcement
  order_perm : ∀ as, (order as).Perm as
  room : Option Packet → QPrefix → Bool
  signed : Bool
  srxEcommunity : Bool

/-- The variables of the loop. Without a packet the stream is empty. -/
structure PacketLoop where
  packet : Option Packet
  useASpath : Bool
  binfo : Option (Option Peer)
  bFrag : Bool

/-- The variables before the first announcement. -/
def PacketLoop.init : PacketLoop := ⟨none, false, none, false⟩

/-- The packet is emitted behind this announcement (4295-4364): BGPsec is sent to the peer or an
    extended community was added, and nothing says that the packet may take more prefixes. -/
def emitsPacket (peer : Peer) (call : UpdateCall) (attr : OutAttr) (src : Option Peer)
    (bFrag : Bool) : Bool :=
  let bDoNotFrag := sendsBgpsec peer && notFromBgpsec peer src
  (sendsBgpsec peer || (call.srxEcommunity && bFrag && src.isSome)) &&
    ! bDoNotFrag && ! (decide (attr.segmentsLength > 0) && ! attr.bgpsecPathAttr)

/-- The prefix is put behind the attributes only if an AS path was written (4255-4264). -/
def putNlri (useASpath : Bool) (packet : Packet) (pfx : QPrefix) : Packet :=
  if useASpath then { packet with nlri := packet.nlri ++ [pfx] } else packet

/-- The packet that takes an announcement, with `useASpath` and `bFrag`: its attributes are written
    when the stream is empty (4266-4293). -/
def PacketLoop.inHand (peer : Peer) (call : UpdateCall) (adv : Announcement) (src : Option Peer)
    (l : PacketLoop) : Option (Packet × Bool × Bool) :=
  match l.packet with
  | some packet => some (packet, l.useASpath, l.bFrag)
  | none =>
      (bgpPacketAttribute peer adv.attr src call.signed adv.pfx).map fun r =>
        (r.1, r.2, call.srxEcommunity && adv.attr.extra)

/-- The loop over the announcements with the same attributes: the packet, and the announcements
    taken off the queue. -/
def packetLoop (peer : Peer) (call : UpdateCall) :
    List Announcement → PacketLoop → Option (Option Packet × List Announcement)
  | [], l => some (l.packet, [])
  | adv :: advs, l =>
      let binfo := if adv.binfo.isSome then adv.binfo else l.binfo
      if ! call.room l.packet adv.pfx then some (l.packet, [])
      else do
        let (packet, useASpath, bFrag) ← l.inHand peer call adv binfo.join
        let packet := putNlri useASpath packet adv.pfx
        if checkFlag peer.flags peerFlagBgpsecMpeIpv4 ||
            emitsPacket peer call adv.attr binfo.join bFrag then
          some (some packet, [adv])
        else
          let (packet, taken) ← packetLoop peer call advs ⟨some packet, useASpath, binfo, bFrag⟩
          some (packet, adv :: taken)

/-- `bgp_update_packet`: the packet, if one is made, and the announcements taken off the queue. -/
def bgpUpdatePacket (peer : Peer) (call : UpdateCall) (queue : List Announcement) :
    Option (Option Packet × List Announcement) :=
  match queue with
  | [] => some (none, [])
  | adv :: advs =>
      packetLoop peer call (adv :: call.order (advs.filter fun a => a.attr = adv.attr))
        PacketLoop.init

/-- A peer with its queue, the announcements that were taken off it and the packets that were
    emitted. -/
structure OutState where
  peer : Peer
  queue : List Announcement
  taken : List Announcement
  sent : List Packet

/-- A peer before the first command. -/
def OutState.init (as : UInt32) (sort : PeerSort) : OutState := ⟨⟨as, sort, 0, 0⟩, [], [], []⟩

/-- What happens: a command, whose change of the flags may be refused, a negotiation of the
    capabilities, an announcement that is queued, a call of `bgp_update_packet`. -/
inductive OutOp where
  | command (cmd : PeerCmd) (accepted : Bool)
  | negotiate (cap : UInt16)
  | announce (adv : Announcement)
  | update (call : UpdateCall)

/-- One step. The run ends where the assertion stops the program. -/
def outStep (s : OutState) : OutOp → Option OutState
  | .command cmd accepted =>
      some (if accepted then { s with peer := { s.peer with flags := cmd.apply s.peer.flags } } else s)
  | .negotiate cap => some { s with peer := { s.peer with cap := cap } }
  | .announce adv => some { s with queue := s.queue ++ [adv] }
  | .update call =>
      (bgpUpdatePacket s.peer call s.queue).map fun r =>
        { s with
          queue := s.queue.diff r.2
          taken := s.taken ++ r.2
          sent := s.sent ++ r.1.toList }

end SrxNote.Srx
