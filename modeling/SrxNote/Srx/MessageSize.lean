import SrxNote.Srx.Peer

/-!
# Extended messages

The limit that `bgp_read` sets for the size of a message
(`diff-QuaggaSRx_SvnRev2241-stock.patch:4433-4457`) and the places where the input
buffer of a peer is resized: the commands for extended messages (7897-8028) and
the EXTENDED capability of the peer (8691-8704). A command is given to a peer or to
its peer group, whose template `group->conf` is a peer of its own; the change of a
flag on the group is a change on the template and on the peer.

`peer->work` is resized with the input buffer and not read by `bgp_read`; it is left
out. Whether a session is established and whether the flag change of a command
succeeds are inputs.
-/

namespace SrxNote.Srx

/-- `BGP_MAX_PACKET_SIZE` (5353). -/
def bgpMaxPacketSize : Nat := 4096

/-- `BGP_MAX_PACKET_SIZE_EXTENDED` (5355). -/
def bgpMaxPacketSizeExtended : Nat := 65535

/-- What is read of a peer: its flags, what was negotiated, and the size of `peer->ibuf`. -/
structure BufferedPeer where
  flags : UInt16
  cap : UInt16
  ibuf : Nat
  deriving DecidableEq, Repr

/-- A peer as `peer_new` makes it. -/
def BufferedPeer.new : BufferedPeer := ⟨0, 0, bgpMaxPacketSize⟩

/-- `size_policy` of `bgp_read` (4433-4457). -/
def BufferedPeer.sizePolicy (peer : BufferedPeer) : Nat :=
  if checkFlag peer.flags peerFlagExtendedMessageSupport then
    if checkFlag peer.cap peerCapExtendedMsgSupport then bgpMaxPacketSizeExtended
    else if checkFlag peer.flags peerFlagExtendedMessageLiberal then bgpMaxPacketSizeExtended
    else bgpMaxPacketSize
  else bgpMaxPacketSize

/-- `__resizeBuffer` (7903-7922). -/
def BufferedPeer.resizeBuffer (peer : BufferedPeer) (newsize : Nat) : BufferedPeer :=
  if peer.ibuf ≠ newsize then { peer with ibuf := newsize } else peer

/-- The EXTENDED capability is received (8691-8704). -/
def BufferedPeer.capabilityExtended (peer : BufferedPeer) : BufferedPeer :=
  { peer with
    cap := setFlag peer.cap peerCapExtendedMsgSupport
    ibuf := if peer.ibuf ≤ bgpMaxPacketSize then bgpMaxPacketSizeExtended else peer.ibuf }

/-- Whom a command names. -/
inductive CommandTarget where
  | peer
  | group
  deriving DecidableEq, Repr

/-- A peer and the template of its group. -/
structure GroupedPeer where
  peer : BufferedPeer
  conf : BufferedPeer
  deriving DecidableEq, Repr

namespace GroupedPeer

/-- `peer_and_group_lookup_vty`. -/
def lookup (s : GroupedPeer) : CommandTarget → BufferedPeer
  | .peer => s.peer
  | .group => s.conf

/-- Write to what was looked up. -/
def update (s : GroupedPeer) (target : CommandTarget) (f : BufferedPeer → BufferedPeer) : GroupedPeer :=
  match target with
  | .peer => { s with peer := f s.peer }
  | .group => { s with conf := f s.conf }

/-- `peer_flag_set_vty` and `peer_flag_unset_vty` when they succeed. -/
def changeFlag (s : GroupedPeer) (target : CommandTarget) (f : UInt16 → UInt16) : GroupedPeer :=
  match target with
  | .peer => { s with peer := { s.peer with flags := f s.peer.flags } }
  | .group =>
      { peer := { s.peer with flags := f s.peer.flags }
        conf := { s.conf with flags := f s.conf.flags } }

/-- `_setExtendedMessageSupport` (7927-7970): the buffer is resized before the flag is changed. -/
def setExtendedMessageSupport (s : GroupedPeer) (target : CommandTarget)
    (enable established succeeds : Bool) : GroupedPeer :=
  if ! established then
    let s := s.update target fun peer =>
      peer.resizeBuffer (if enable then bgpMaxPacketSizeExtended else bgpMaxPacketSize)
    if succeeds then
      s.changeFlag target fun flags =>
        if enable then setFlag flags peerFlagExtendedMessageSupport
        else unsetFlag flags peerFlagExtendedMessageSupport
    else s
  else s

/-- `_setExtendedMessageLiberal` (7976-8028): the flag is set by the command and by its `no` form. -/
def setExtendedMessageLiberal (s : GroupedPeer) (target : CommandTarget) (enable succeeds : Bool) :
    GroupedPeer :=
  if succeeds then
    let s := s.changeFlag target fun flags => setFlag flags peerFlagExtendedMessageLiberal
    if ! enable then
      if ! checkFlag (s.lookup target).flags peerFlagExtendedMessageSupport then
        s.update target fun peer => peer.resizeBuffer bgpMaxPacketSize
      else s
    else s.update target fun peer => peer.resizeBuffer bgpMaxPacketSizeExtended
  else s

end GroupedPeer

/-- The peer, and whether the last liberal command that succeeded was the enabling one. -/
structure MessageState extends GroupedPeer where
  liberal : Bool
  deriving DecidableEq, Repr

/-- What happens: the two commands with their `no` forms, the capability, and a reset, which clears
    what was negotiated. -/
inductive MessageOp where
  | extended (target : CommandTarget) (enable established succeeds : Bool)
  | liberal (target : CommandTarget) (enable succeeds : Bool)
  | capability
  | reset
  deriving DecidableEq, Repr

/-- A peer and its group before the first command. -/
def MessageState.init : MessageState := ⟨⟨.new, .new⟩, false⟩

/-- One step. -/
def messageStep (s : MessageState) : MessageOp → Option MessageState
  | .extended target enable established succeeds =>
      some { s with
        toGroupedPeer := s.setExtendedMessageSupport target enable established succeeds }
  | .liberal target enable succeeds =>
      some
        { toGroupedPeer := s.setExtendedMessageLiberal target enable succeeds
          liberal := if succeeds then enable else s.liberal }
  | .capability => some { s with peer := s.peer.capabilityExtended }
  | .reset => some { s with peer := { s.peer with cap := 0 } }

end SrxNote.Srx
