import SrxNote.Misc.Run
import SrxNote.Srx.Proofs.Flags
import SrxNote.Srx.Proofs.SignedPrefix
import SrxNote.Srx.UpdatePacket

/-!
# No prefix is lost on output

The flag that lets a prefix go out as MP_REACH_NLRI is set whenever BGPsec is
sent to the peer, so a packet with a BGPsec path takes one announcement, and a
packet with an AS path takes each of its announcements into the NLRI. What is
lost is a BGPsec path that is forwarded to an iBGP peer: it needs MP_REACH_NLRI,
which is not written for such a peer.
-/

namespace SrxNote.Srx

/-- Every announcement that was taken off the queue is announced once in the packets. -/
def AllAnnounced (s : OutState) : Prop :=
  s.sent.flatMap Packet.announced = s.taken.map Announcement.pfx

/-- The announcement goes out with its BGPsec path to an iBGP peer. -/
structure ForwardsToIbgp (peer : Peer) (adv : Announcement) : Prop where
  sort : peer.sort = .ibgp
  path : adv.attr.bgpsecPathAttr = true
  sends : sendsBgpsec peer = true
  learned : notFromBgpsec peer adv.binfo.join = false
  aggregator : adv.attr.aggregator = false
  atomicAggregate : adv.attr.atomicAggregate = false

/-- A call of `bgp_update_packet` does not take such an announcement off the queue. -/
def AnnouncesHead (s : OutState) : OutOp → Prop
  | .update call => ∀ adv advs, s.queue = adv :: advs → call.room none adv.pfx = true →
      ¬ ForwardsToIbgp s.peer adv
  | _ => True

/-- Whoever is sent BGPsec gets the prefixes as MP_REACH_NLRI. -/
def MpeWithSend (flags : UInt16) : Prop :=
  checkFlag flags peerFlagBgpsecCapabilitySend = true →
    checkFlag flags peerFlagBgpsecMpeIpv4 = true

/-! ### The commands -/

theorem MpeWithSend.apply {flags : UInt16} (h : MpeWithSend flags) (cmd : PeerCmd) :
    MpeWithSend (cmd.apply flags) := by
  intro hsend
  cases cmd with
  | bgpsec mode =>
      rw [PeerCmd.apply, checkFlag_setFlag] at hsend ⊢
      cases mode with
      | snd | both => exact Bool.or_eq_true_iff.mpr (.inr (by decide))
      | recv =>
          have hno : checkFlag BgpsecMode.recv.flag peerFlagBgpsecCapabilitySend = false := by decide
          rw [hno, Bool.or_false] at hsend
          exact Bool.or_eq_true_iff.mpr (.inl (h hsend))
  | noBgpsec mode =>
      rw [PeerCmd.apply, checkFlag_unsetFlag] at hsend ⊢
      cases mode with
      | snd | both =>
          -- the send flag was cleared
          exact absurd hsend (by
            rw [show ~~~ BgpsecMode.flag _ &&& peerFlagBgpsecCapabilitySend = 0 by decide]
            simp [checkFlag])
      | recv => exact h hsend
  | mpe =>
      rw [PeerCmd.apply, checkFlag_setFlag]
      exact Bool.or_eq_true_iff.mpr (.inr (by decide))

/-! ### One call -/

theorem useASpath_eq_false_iff {peer : Peer} {attr : OutAttr} {src : Option Peer} {signed : Bool} :
    useASpath peer attr src signed = false ↔
      (attr.strLen = 0 ∨ attr.bgpsecPathAttr = true) ∧ sendsBgpsec peer = true ∧
      notFromBgpsec peer src = false ∧ attr.aggregator = false ∧ attr.atomicAggregate = false ∧
      (match peer.sort with
        | .ebgp | .confed => signed = true
        | .ibgp | .internal => attr.bgpsecPathAttr = true) := by
  rw [useASpath]
  cases hsort : peer.sort <;> grind

/-- What one round of the loop can do: leave the announcement, take it as the last one, or take it
    and go on. It goes on only if the prefixes need not go out as MP_REACH_NLRI. -/
theorem packetLoop_cons_cases {peer : Peer} {call : UpdateCall} {adv : Announcement}
    {advs taken : List Announcement} {l : PacketLoop} {packet : Option Packet}
    (h : packetLoop peer call (adv :: advs) l = some (packet, taken)) :
    (call.room l.packet adv.pfx = false ∧ packet = l.packet ∧ taken = []) ∨
    ∃ pk use bFrag, call.room l.packet adv.pfx = true ∧
      l.inHand peer call adv (if adv.binfo.isSome then adv.binfo else l.binfo).join =
        some (pk, use, bFrag) ∧
      ((packet = some (putNlri use pk adv.pfx) ∧ taken = [adv]) ∨
        (checkFlag peer.flags peerFlagBgpsecMpeIpv4 = false ∧ ∃ binfo taken',
          packetLoop peer call advs ⟨some (putNlri use pk adv.pfx), use, binfo, bFrag⟩ =
            some (packet, taken') ∧ taken = adv :: taken')) := by
  simp only [packetLoop] at h
  generalize hbinfo : (if adv.binfo.isSome then adv.binfo else l.binfo) = binfo at h
  split at h
  · rename_i hroom
    cases h
    exact .inl ⟨by simpa using hroom, rfl, rfl⟩
  · rename_i hroom
    obtain ⟨⟨pk, use, bFrag⟩, hpk, h⟩ := Option.bind_eq_some_iff.mp h
    refine .inr ⟨pk, use, bFrag, by simpa using hroom, hpk, ?_⟩
    split at h
    · cases h
      exact .inl ⟨rfl, rfl⟩
    · rename_i hstop
      obtain ⟨⟨packet', taken'⟩, hrest, hr⟩ := Option.bind_eq_some_iff.mp h
      cases hr
      have hmpe : checkFlag peer.flags peerFlagBgpsecMpeIpv4 = false := by
        simp only [Bool.or_eq_true, not_or, Bool.not_eq_true] at hstop
        exact hstop.1
      exact .inr ⟨hmpe, binfo, taken', hrest, rfl⟩

theorem putNlri_announced (pk : Packet) (pfx : QPrefix) :
    (putNlri true pk pfx).announced = pk.announced ++ [pfx] := by
  simp [putNlri, Packet.announced]

/-- With an AS path, what is announced grows by what is taken. -/
theorem packetLoop_announced {peer : Peer} {call : UpdateCall} {advs taken : List Announcement}
    {l : PacketLoop} {pk : Packet} {packet : Option Packet} (hpk : l.packet = some pk)
    (huse : l.useASpath = true) (h : packetLoop peer call advs l = some (packet, taken)) :
    ∃ pk', packet = some pk' ∧ pk'.announced = pk.announced ++ taken.map Announcement.pfx := by
  induction advs generalizing l pk packet taken with
  | nil =>
      cases h
      exact ⟨pk, hpk, by simp⟩
  | cons adv advs ih =>
      obtain ⟨-, rfl, rfl⟩ | ⟨pk₁, use, bFrag, -, hhand, hend⟩ := packetLoop_cons_cases h
      · exact ⟨pk, hpk, by simp⟩
      · simp only [PacketLoop.inHand, hpk, huse] at hhand
        cases hhand
        rcases hend with ⟨rfl, rfl⟩ | ⟨-, binfo, taken', hrest, rfl⟩
        · exact ⟨_, rfl, putNlri_announced _ _⟩
        · obtain ⟨pk', rfl, hann⟩ := ih rfl rfl hrest
          refine ⟨pk', rfl, ?_⟩
          rw [hann, putNlri_announced, List.append_assoc]
          rfl

theorem bgpPacketAttribute_eq_some {peer : Peer} {attr : OutAttr} {src : Option Peer} {signed : Bool}
    {pfx : QPrefix} {pk : Packet} {use : Bool}
    (h : bgpPacketAttribute peer attr src signed pfx = some (pk, use)) :
    use = useASpath peer attr src signed ∧ pk = ⟨mpReachIpv4 peer use pfx, []⟩ := by
  simp only [bgpPacketAttribute] at h
  split at h
  · simp at h
  · cases h
    exact ⟨rfl, rfl⟩

/-- Without an AS path the prefix goes out as MP_REACH_NLRI, but not to an iBGP peer. -/
theorem mpReachIpv4_false {peer : Peer} (hmpe : checkFlag peer.flags peerFlagBgpsecMpeIpv4 = true)
    (adv : Announcement) :
    mpReachIpv4 peer false adv.pfx = if peer.sort = .ibgp then none else some adv.pfx := by
  simp [mpReachIpv4, hmpe, adv.inet]

theorem forwardsToIbgp_iff {peer : Peer} {adv : Announcement} (signed : Bool) :
    ForwardsToIbgp peer adv ↔
      useASpath peer adv.attr adv.binfo.join signed = false ∧ peer.sort = .ibgp := by
  rw [useASpath_eq_false_iff]
  constructor
  · intro h
    refine ⟨⟨.inr h.path, h.sends, h.learned, h.aggregator, h.atomicAggregate, ?_⟩, h.sort⟩
    rw [h.sort]
    exact h.path
  · rintro ⟨⟨-, hsends, hlearned, hagg, hatomic, hpath⟩, hsort⟩
    rw [hsort] at hpath
    exact ⟨hsort, hpath, hsends, hlearned, hagg, hatomic⟩

/-- What a packet announces is what was taken for it, unless its first announcement goes to an iBGP
    peer with its BGPsec path. -/
theorem packetLoop_init_announced {peer : Peer} (hflags : MpeWithSend peer.flags)
    {call : UpdateCall} {adv : Announcement} {advs taken : List Announcement}
    {packet : Option Packet}
    (h : packetLoop peer call (adv :: advs) .init = some (packet, taken)) :
    packet.toList.flatMap Packet.announced = taken.map Announcement.pfx ↔
      (call.room none adv.pfx = true → ¬ ForwardsToIbgp peer adv) := by
  obtain ⟨hroom, rfl, rfl⟩ | ⟨pk, use, bFrag, hroom, hhand, hend⟩ := packetLoop_cons_cases h
  · simp only [PacketLoop.init] at hroom ⊢
    simp [hroom]
  · have hroom' : call.room none adv.pfx = true := hroom
    have hnew : bgpPacketAttribute peer adv.attr adv.binfo.join call.signed adv.pfx =
        some (pk, use) := by
      have hbinfo : (if adv.binfo.isSome then adv.binfo else PacketLoop.init.binfo) = adv.binfo := by
        cases hb : adv.binfo <;> simp [PacketLoop.init]
      rw [hbinfo] at hhand
      obtain ⟨r, hr, heq⟩ := Option.map_eq_some_iff.mp hhand
      cases heq
      exact hr
    obtain ⟨huse, rfl⟩ := bgpPacketAttribute_eq_some hnew
    rw [forwardsToIbgp_iff call.signed, ← huse]
    simp only [hroom', forall_const]
    cases use with
    | true =>
        -- an AS path: every announcement is in the NLRI
        simp only [Bool.true_eq_false, false_and, not_false_eq_true, iff_true]
        have hfirst : (putNlri true ⟨mpReachIpv4 peer true adv.pfx, []⟩ adv.pfx).announced =
            [adv.pfx] := by
          simp [putNlri, Packet.announced, mpReachIpv4]
        rcases hend with ⟨rfl, rfl⟩ | ⟨-, binfo, taken', hrest, rfl⟩
        · simp [hfirst]
        · obtain ⟨pk', rfl, hann⟩ := packetLoop_announced rfl rfl hrest
          simp [hann, hfirst]
    | false =>
        -- a BGPsec path: the loop stops behind this announcement
        have hmpe : checkFlag peer.flags peerFlagBgpsecMpeIpv4 = true := by
          obtain ⟨-, hsends, -⟩ := useASpath_eq_false_iff.mp huse.symm
          rw [sendsBgpsec, Bool.and_eq_true] at hsends
          exact hflags hsends.1
        rcases hend with ⟨rfl, rfl⟩ | ⟨hno, -⟩
        · rw [mpReachIpv4_false hmpe]
          by_cases hsort : peer.sort = .ibgp <;> simp [putNlri, Packet.announced, hsort]
        · simp [hmpe] at hno

/-! ### Runs -/

theorem outStep_allAnnounced {s s' : OutState} {op : OutOp} (hI : MpeWithSend s.peer.flags)
    (hP : AllAnnounced s) (hs : outStep s op = some s') :
    MpeWithSend s'.peer.flags ∧ (AllAnnounced s' ↔ AnnouncesHead s op) := by
  cases op with
  | command cmd accepted =>
      cases hs
      cases accepted with
      | true => exact ⟨hI.apply cmd, iff_of_true hP trivial⟩
      | false => exact ⟨hI, iff_of_true hP trivial⟩
  | negotiate cap =>
      cases hs
      exact ⟨hI, iff_of_true hP trivial⟩
  | announce adv =>
      cases hs
      exact ⟨hI, iff_of_true hP trivial⟩
  | update call =>
      obtain ⟨⟨packet, taken⟩, hr, rfl⟩ := Option.map_eq_some_iff.mp hs
      refine ⟨hI, ?_⟩
      have hsent : AllAnnounced { s with
            queue := s.queue.diff taken
            taken := s.taken ++ taken
            sent := s.sent ++ packet.toList } ↔
          packet.toList.flatMap Packet.announced = taken.map Announcement.pfx := by
        rw [AllAnnounced, List.flatMap_append, List.map_append, hP, List.append_cancel_left_eq]
      rw [hsent, AnnouncesHead]
      cases hq : s.queue with
      | nil =>
          rw [hq] at hr
          cases hr
          simp
      | cons adv advs =>
          rw [hq] at hr
          rw [packetLoop_init_announced hI hr]
          constructor
          · rintro h _ _ heq
            cases heq
            exact h
          · intro h
            exact h adv advs rfl

/-- Each announcement that is taken off the queue is announced once, in every run, exactly when no
    call of `bgp_update_packet` takes a BGPsec path that is forwarded to an iBGP peer. -/
theorem all_announced_iff (as : UInt32) (sort : PeerSort) (ops : List OutOp) :
    Run.Always outStep AllAnnounced (OutState.init as sort) ops ↔
      Run.EachStep outStep AnnouncesHead (OutState.init as sort) ops := by
  have hflags : MpeWithSend (OutState.init as sort).peer.flags := by
    simp [OutState.init, MpeWithSend, checkFlag]
  have hnone : AllAnnounced (OutState.init as sort) := rfl
  exact Run.always_iff_eachStep (fun s op s' => outStep_allAnnounced) hflags hnone ops

/-- A peer of the router's own AS. -/
def internalSession : OutState := OutState.init 65000 .ibgp

/-- A prefix that was learned with a BGPsec path from AS 65001, which takes part in BGPsec. -/
def learnedPath : Announcement where
  pfx := firstPrefix
  attr := ⟨0, 0, true, false, false, true, 0⟩
  binfo := some (some ⟨65001, .ebgp, peerFlagBgpsecCapabilityRecv, peerCapBgpsecAdvSend⟩)
  inet := rfl

/-- A call that has room for every prefix. -/
def roomyCall : UpdateCall where
  order := id
  order_perm := fun as => List.Perm.refl as
  room := fun _ _ => true
  signed := true
  srxEcommunity := false

/-- BGPsec is switched on for the peer, negotiated, and the learned path is to be sent. -/
def forwardRun : List OutOp :=
  [.command (.bgpsec .both) true, .negotiate peerCapBgpsecAdv, .announce learnedPath,
    .update roomyCall]

/-- The learned path is taken off the queue, and the packet announces nothing. -/
theorem forwardRun_not_announced :
    ¬ Run.Always outStep AllAnnounced internalSession forwardRun := by
  intro h
  have hend : ∃ s, Run.exec outStep internalSession forwardRun = some s ∧
      s.taken.map Announcement.pfx = [learnedPath.pfx] ∧ s.sent.flatMap Packet.announced = [] :=
    ⟨_, rfl, by decide, by decide⟩
  obtain ⟨s, hs, htaken, hsent⟩ := hend
  have hP : AllAnnounced s := h forwardRun s List.prefix_rfl (Run.path_iff_exec.mpr hs)
  rw [AllAnnounced, htaken, hsent] at hP
  exact absurd hP (by simp)

end SrxNote.Srx
