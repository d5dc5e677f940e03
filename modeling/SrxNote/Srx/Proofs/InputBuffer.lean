import SrxNote.Misc.Run
import SrxNote.Srx.MessageSize
import SrxNote.Srx.Proofs.Flags

/-!
# The input buffer holds what the reader admits

The limit of the reader depends on two flags and a capability, the buffer follows
them in three other places. They part where a command is given to the peer group,
whose template has a buffer of its own, and where the flag change fails behind the
resize. The liberal flag is never cleared.
-/

namespace SrxNote.Srx

/-- Nothing that the reader admits is larger than the buffer, and the liberal flag is as the last
    successful command asked for. -/
def BufferHolds (s : MessageState) : Prop :=
  s.peer.sizePolicy ≤ s.peer.ibuf ∧
    checkFlag s.peer.flags peerFlagExtendedMessageLiberal = s.liberal

/-- Extended messages are admitted once they are supported. -/
def BufferedPeer.accepts (peer : BufferedPeer) : Bool :=
  checkFlag peer.cap peerCapExtendedMsgSupport || checkFlag peer.flags peerFlagExtendedMessageLiberal

/-- Extended messages are supported. -/
def BufferedPeer.supports (peer : BufferedPeer) : Bool :=
  checkFlag peer.flags peerFlagExtendedMessageSupport

/-- A step keeps the limit and the buffer together: no disabling liberal command succeeds; a group is
    not given the support or the liberal policy while this makes the peer admit extended messages
    with a small buffer; and a disabling command for the peer does not fail while it admits them. -/
def KeepsBuffer (s : MessageState) : MessageOp → Prop
  | .extended .peer false false false => ¬ (s.peer.supports = true ∧ s.peer.accepts = true)
  | .extended .group true false true => s.peer.accepts = true → s.peer.ibuf = bgpMaxPacketSizeExtended
  | .extended .. => True
  | .liberal target enable true => enable = true ∧
      (target = .group → s.peer.supports = true → s.peer.ibuf = bgpMaxPacketSizeExtended)
  | .liberal _ _ false => True
  | .capability => True
  | .reset => True

/-- The buffer has one of the two sizes. -/
def BufferSized (peer : BufferedPeer) : Prop :=
  peer.ibuf = bgpMaxPacketSize ∨ peer.ibuf = bgpMaxPacketSizeExtended

/-! ### One peer -/

theorem BufferedPeer.sizePolicy_le_iff {peer : BufferedPeer} (h : BufferSized peer) :
    peer.sizePolicy ≤ peer.ibuf ↔
      (peer.supports = true → peer.accepts = true → peer.ibuf = bgpMaxPacketSizeExtended) := by
  rw [BufferedPeer.sizePolicy, BufferedPeer.supports, BufferedPeer.accepts]
  cases checkFlag peer.flags peerFlagExtendedMessageSupport <;>
    cases checkFlag peer.cap peerCapExtendedMsgSupport <;>
    cases checkFlag peer.flags peerFlagExtendedMessageLiberal <;>
    rcases h with h | h <;> simp [h, bgpMaxPacketSize, bgpMaxPacketSizeExtended]

@[simp] theorem BufferedPeer.resizeBuffer_eq (peer : BufferedPeer) (newsize : Nat) :
    peer.resizeBuffer newsize = { peer with ibuf := newsize } := by
  rw [BufferedPeer.resizeBuffer]
  split
  · rfl
  · rename_i h
    cases peer
    cases not_not.mp h
    rfl

theorem bufferHolds_iff {s : MessageState} (h : BufferSized s.peer) :
    BufferHolds s ↔
      (s.peer.supports = true → s.peer.accepts = true → s.peer.ibuf = bgpMaxPacketSizeExtended) ∧
      checkFlag s.peer.flags peerFlagExtendedMessageLiberal = s.liberal := by
  rw [BufferHolds, BufferedPeer.sizePolicy_le_iff h]

/-! ### The flags -/

theorem supports_setSupport (value : UInt16) :
    checkFlag (setFlag value peerFlagExtendedMessageSupport) peerFlagExtendedMessageSupport = true :=
  checkFlag_setFlag_self (by decide) value

theorem liberal_setSupport (value : UInt16) :
    checkFlag (setFlag value peerFlagExtendedMessageSupport) peerFlagExtendedMessageLiberal =
      checkFlag value peerFlagExtendedMessageLiberal :=
  checkFlag_setFlag_of_disjoint (by decide) value

theorem supports_unsetSupport (value : UInt16) :
    checkFlag (unsetFlag value peerFlagExtendedMessageSupport) peerFlagExtendedMessageSupport =
      false :=
  checkFlag_unsetFlag_self value peerFlagExtendedMessageSupport

theorem liberal_unsetSupport (value : UInt16) :
    checkFlag (unsetFlag value peerFlagExtendedMessageSupport) peerFlagExtendedMessageLiberal =
      checkFlag value peerFlagExtendedMessageLiberal :=
  checkFlag_unsetFlag_of_disjoint (by decide) value

theorem liberal_setLiberal (value : UInt16) :
    checkFlag (setFlag value peerFlagExtendedMessageLiberal) peerFlagExtendedMessageLiberal = true :=
  checkFlag_setFlag_self (by decide) value

theorem supports_setLiberal (value : UInt16) :
    checkFlag (setFlag value peerFlagExtendedMessageLiberal) peerFlagExtendedMessageSupport =
      checkFlag value peerFlagExtendedMessageSupport :=
  checkFlag_setFlag_of_disjoint (by decide) value

/-! ### The commands -/

theorem setExtendedMessageSupport_peer (s : GroupedPeer) (enable succeeds : Bool) :
    (s.setExtendedMessageSupport .peer enable false succeeds).peer =
      { flags := if succeeds then
          (if enable then setFlag s.peer.flags peerFlagExtendedMessageSupport
            else unsetFlag s.peer.flags peerFlagExtendedMessageSupport)
          else s.peer.flags
        cap := s.peer.cap
        ibuf := if enable then bgpMaxPacketSizeExtended else bgpMaxPacketSize } := by
  cases succeeds <;>
    simp [GroupedPeer.setExtendedMessageSupport, GroupedPeer.update, GroupedPeer.changeFlag]

theorem setExtendedMessageSupport_group (s : GroupedPeer) (enable succeeds : Bool) :
    (s.setExtendedMessageSupport .group enable false succeeds).peer =
      { s.peer with
        flags := if succeeds then
          (if enable then setFlag s.peer.flags peerFlagExtendedMessageSupport
            else unsetFlag s.peer.flags peerFlagExtendedMessageSupport)
          else s.peer.flags } := by
  cases succeeds <;>
    simp [GroupedPeer.setExtendedMessageSupport, GroupedPeer.update, GroupedPeer.changeFlag]

theorem setExtendedMessageLiberal_enable (s : GroupedPeer) (target : CommandTarget) :
    (s.setExtendedMessageLiberal target true true).peer =
      { s.peer with
        flags := setFlag s.peer.flags peerFlagExtendedMessageLiberal
        ibuf := if target = .peer then bgpMaxPacketSizeExtended else s.peer.ibuf } := by
  cases target <;>
    simp [GroupedPeer.setExtendedMessageLiberal, GroupedPeer.update, GroupedPeer.changeFlag]

/-- The disabling form sets the flag as well. -/
theorem setExtendedMessageLiberal_disable (s : GroupedPeer) (target : CommandTarget) :
    ∃ ibuf, (ibuf = bgpMaxPacketSize ∨ ibuf = s.peer.ibuf) ∧
      (s.setExtendedMessageLiberal target false true).peer =
        { s.peer with
          flags := setFlag s.peer.flags peerFlagExtendedMessageLiberal
          ibuf := ibuf } := by
  cases target with
  | group =>
      refine ⟨s.peer.ibuf, .inr rfl, ?_⟩
      simp only [GroupedPeer.setExtendedMessageLiberal, GroupedPeer.changeFlag, GroupedPeer.update,
        GroupedPeer.lookup, supports_setLiberal]
      cases checkFlag s.conf.flags peerFlagExtendedMessageSupport <;> rfl
  | peer =>
      simp only [GroupedPeer.setExtendedMessageLiberal, GroupedPeer.changeFlag, GroupedPeer.update,
        GroupedPeer.lookup, supports_setLiberal]
      cases checkFlag s.peer.flags peerFlagExtendedMessageSupport with
      | true => exact ⟨s.peer.ibuf, .inr rfl, rfl⟩
      | false => exact ⟨bgpMaxPacketSize, .inl rfl, by simp⟩

/-! ### Steps -/

/-- A step that leaves a peer with a sized buffer and the liberal flag that was asked for. -/
theorem keepsBuffer_of {s' : MessageState} {C : Prop} (hsized : BufferSized s'.peer)
    (hliberal : checkFlag s'.peer.flags peerFlagExtendedMessageLiberal = s'.liberal)
    (hiff : (s'.peer.supports = true → s'.peer.accepts = true →
      s'.peer.ibuf = bgpMaxPacketSizeExtended) ↔ C) :
    BufferSized s'.peer ∧ (BufferHolds s' ↔ C) := by
  refine ⟨hsized, ?_⟩
  rw [bufferHolds_iff hsized, hiff]
  exact and_iff_left hliberal

theorem extended_peer_keepsBuffer {s s' : MessageState} (hP : BufferHolds s) {enable succeeds : Bool}
    (hs : messageStep s (.extended .peer enable false succeeds) = some s') :
    BufferSized s'.peer ∧ (BufferHolds s' ↔ KeepsBuffer s (.extended .peer enable false succeeds)) := by
  have hpeer := setExtendedMessageSupport_peer s.toGroupedPeer enable succeeds
  have hliberal := hP.2
  cases hs
  refine keepsBuffer_of ?_ ?_ ?_
  · rw [BufferSized, hpeer]
    cases enable <;> simp
  · rw [hpeer]
    cases enable <;> cases succeeds <;>
      simp [liberal_setSupport, liberal_unsetSupport, hliberal]
  · rw [hpeer]
    cases enable with
    | true => simp [KeepsBuffer]
    | false =>
        cases succeeds with
        | true => simp [KeepsBuffer, BufferedPeer.supports, supports_unsetSupport]
        | false =>
            simp [KeepsBuffer, BufferedPeer.supports, BufferedPeer.accepts, bgpMaxPacketSize,
              bgpMaxPacketSizeExtended]

theorem extended_group_keepsBuffer {s s' : MessageState} (hI : BufferSized s.peer)
    (hP : BufferHolds s) {enable succeeds : Bool}
    (hs : messageStep s (.extended .group enable false succeeds) = some s') :
    BufferSized s'.peer ∧ (BufferHolds s' ↔ KeepsBuffer s (.extended .group enable false succeeds)) := by
  have hpeer := setExtendedMessageSupport_group s.toGroupedPeer enable succeeds
  obtain ⟨hbuf, hliberal⟩ := (bufferHolds_iff hI).mp hP
  cases hs
  refine keepsBuffer_of ?_ ?_ ?_
  · rw [BufferSized, hpeer]
    exact hI
  · rw [hpeer]
    cases enable <;> cases succeeds <;>
      simp [liberal_setSupport, liberal_unsetSupport, hliberal]
  · rw [hpeer]
    cases succeeds with
    | false => cases enable <;> simpa [KeepsBuffer] using hbuf
    | true =>
        cases enable with
        | true =>
            simp [KeepsBuffer, BufferedPeer.supports, BufferedPeer.accepts, supports_setSupport,
              liberal_setSupport]
        | false => simp [KeepsBuffer, BufferedPeer.supports, supports_unsetSupport]

theorem liberal_keepsBuffer {s s' : MessageState} (hI : BufferSized s.peer) (hP : BufferHolds s)
    {target : CommandTarget} {enable succeeds : Bool}
    (hs : messageStep s (.liberal target enable succeeds) = some s') :
    BufferSized s'.peer ∧ (BufferHolds s' ↔ KeepsBuffer s (.liberal target enable succeeds)) := by
  obtain ⟨hbuf, hliberal⟩ := (bufferHolds_iff hI).mp hP
  cases succeeds with
  | false =>
      cases hs
      exact ⟨hI, iff_of_true hP trivial⟩
  | true =>
      cases enable with
      | true =>
          have hpeer := setExtendedMessageLiberal_enable s.toGroupedPeer target
          cases hs
          refine keepsBuffer_of ?_ ?_ ?_
          · rw [BufferSized, hpeer]
            cases target with
            | peer => simp
            | group => exact hI
          · rw [hpeer]
            simp [liberal_setLiberal]
          · rw [hpeer]
            cases target <;>
              simp [KeepsBuffer, BufferedPeer.supports, BufferedPeer.accepts, supports_setLiberal,
                liberal_setLiberal]
      | false =>
          obtain ⟨ibuf, hsize, hpeer⟩ := setExtendedMessageLiberal_disable s.toGroupedPeer target
          cases hs
          refine ⟨?_, ?_⟩
          · rw [BufferSized, hpeer]
            rcases hsize with rfl | rfl
            · exact .inl rfl
            · exact hI
          · refine iff_of_false ?_ (by simp [KeepsBuffer])
            rintro ⟨-, hflag⟩
            rw [hpeer, liberal_setLiberal] at hflag
            cases hflag

theorem messageStep_keepsBuffer {s s' : MessageState} {op : MessageOp} (hI : BufferSized s.peer)
    (hP : BufferHolds s) (hs : messageStep s op = some s') :
    BufferSized s'.peer ∧ (BufferHolds s' ↔ KeepsBuffer s op) := by
  obtain ⟨hbuf, hliberal⟩ := (bufferHolds_iff hI).mp hP
  cases op with
  | extended target enable established succeeds =>
      cases established with
      | true =>
          cases hs
          refine ⟨hI, iff_of_true hP ?_⟩
          cases target <;> cases enable <;> cases succeeds <;> trivial
      | false =>
          cases target with
          | peer => exact extended_peer_keepsBuffer hP hs
          | group => exact extended_group_keepsBuffer hI hP hs
  | liberal target enable succeeds => exact liberal_keepsBuffer hI hP hs
  | capability =>
      cases hs
      have hsize : s.peer.capabilityExtended.ibuf = bgpMaxPacketSizeExtended := by
        rcases hI with h | h <;> simp [BufferedPeer.capabilityExtended, h, bgpMaxPacketSize,
          bgpMaxPacketSizeExtended]
      exact keepsBuffer_of (.inr hsize) hliberal (iff_of_true (fun _ _ => hsize) trivial)
  | reset =>
      cases hs
      refine keepsBuffer_of hI hliberal (iff_of_true ?_ trivial)
      intro hsup hacc
      refine hbuf hsup ?_
      simp only [BufferedPeer.accepts, checkFlag, UInt16.zero_and, ne_eq, not_true_eq_false,
        decide_false, Bool.false_or] at hacc
      simp [BufferedPeer.accepts, checkFlag, hacc]

/-- Along every run the buffer holds what the reader admits, and the liberal flag is the one that was
    asked for last, exactly when each step keeps the two together. -/
theorem input_buffer_holds_iff (ops : List MessageOp) :
    Run.Always messageStep BufferHolds MessageState.init ops ↔
      Run.EachStep messageStep KeepsBuffer MessageState.init ops := by
  have hsized : BufferSized MessageState.init.peer := .inl rfl
  have hholds : BufferHolds MessageState.init := ⟨by decide, by decide⟩
  exact Run.always_iff_eachStep (fun s op s' => messageStep_keepsBuffer) hsized hholds ops

/-- The liberal policy and then extended messages are switched on for the peer group. -/
def groupRun : List MessageOp :=
  [.liberal .group true true, .extended .group true false true]

/-- The reader admits more than the buffer of the peer holds. -/
theorem groupRun_overflows :
    ¬ Run.Always messageStep BufferHolds MessageState.init groupRun := by
  intro h
  have hend : ∃ s, Run.exec messageStep MessageState.init groupRun = some s ∧
      s.peer.sizePolicy = 65535 ∧ s.peer.ibuf = 4096 := ⟨_, rfl, by decide, by decide⟩
  obtain ⟨s, hs, hpolicy, hibuf⟩ := hend
  have hholds := h groupRun s List.prefix_rfl (Run.path_iff_exec.mpr hs)
  rw [BufferHolds, hpolicy, hibuf] at hholds
  exact absurd hholds.1 (by decide)

end SrxNote.Srx
