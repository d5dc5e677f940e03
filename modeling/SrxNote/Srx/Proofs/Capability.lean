import Mathlib.Data.Nat.Bitwise
import SrxNote.Srx.Capability
import SrxNote.Srx.Proofs.Flags

/-!
# What the capability flags say

The flags of the peer are those of the octets that the parser reads as version and
direction. Such an octet is the first one of the value, or, where the value is empty,
the octet behind it.
-/

namespace SrxNote.Srx

open Quagga

/-- The directions of BGPsec. -/
inductive BgpsecDir where
  | recv
  | send
  deriving DecidableEq, Repr

namespace BgpsecDir

/-- The flag in `peer->cap`. -/
def capFlag : BgpsecDir → UInt16
  | recv => peerCapBgpsecAdv
  | send => peerCapBgpsecAdvSend

/-- The flag in `peer->flags` of a router that is configured for it. -/
def peerFlag : BgpsecDir → UInt16
  | recv => peerFlagBgpsecCapabilityRecv
  | send => peerFlagBgpsecCapabilitySend

/-- The direction bit. -/
def bit : BgpsecDir → UInt8
  | recv => bgpsecCapDirRecv
  | send => bgpsecCapDirSend

/-- The octets that the parser sets the flag for. -/
def reads : BgpsecDir → UInt8 → Bool
  | recv, d => d = 0
  | send, d => d &&& bgpsecCapDirSend ≠ 0

end BgpsecDir

/-! ## What is read -/

/-- The octet that is read as version and direction of a capability with these octets behind it. -/
def versionDirRead (v : Tlv × Stream) : UInt8 := (streamGetc (v.1.value ++ v.2)).1

/-- The BGPSEC capabilities of an OPEN. -/
def bgpsecCapabilities (options : List CapabilityOption) : List Tlv :=
  (options.flatMap CapabilityOption.capabilities).filter fun c => c.type = capabilityCodeBgpsec

/-- Their values. -/
def bgpsecValues (options : List CapabilityOption) : List (List UInt8) :=
  (bgpsecCapabilities options).map Tlv.value

/-- The BGPSEC capabilities with the octets behind each of them. -/
def bgpsecPositions : List CapabilityOption → Stream → List (Tlv × Stream)
  | [], _ => []
  | o :: os, behind =>
      ((Tlv.positions o.capabilities (optionOctets os ++ behind)).filter
          fun v => v.1.type = capabilityCodeBgpsec) ++
        bgpsecPositions os behind

/-- Those that come before the first capability that stock Quagga gives up at. -/
def bgpsecVisits (q : StockQuagga) (peer : BufferedPeer) :
    List CapabilityOption → Stream → List (Tlv × Stream)
  | [], _ => []
  | o :: os, behind =>
      ((Tlv.visits (capabilityStep q) peer o.capabilities (optionOctets os ++ behind)).filter
          fun v => v.1.type = capabilityCodeBgpsec) ++
        match Tlv.run (capabilityStep q) peer o.capabilities (optionOctets os ++ behind) with
        | .ok peer' => bgpsecVisits q peer' os behind
        | .error _ => []

/-- What an OPEN with these options leaves. -/
def parseOpen (q : StockQuagga) (peer : BufferedPeer) (options : List CapabilityOption)
    (behind : Stream) : Except BufferedPeer BufferedPeer :=
  bgpOpenOptionParse q peer (optionOctets options ++ behind) (optionOctets options).length

@[simp] theorem optionOctets_append (os os' : List CapabilityOption) :
    optionOctets (os ++ os') = optionOctets os ++ optionOctets os' := by
  rw [optionOctets, List.map_append, Tlv.sequence_append]
  rfl

/-- An option is read by a run over its capabilities. -/
theorem openOptionStep_toTlv (q : StockQuagga) (peer : BufferedPeer) (o : CapabilityOption)
    (s : Stream) :
    openOptionStep q peer o.toTlv.type o.toTlv.length (o.toTlv.value ++ s) =
      Tlv.run (capabilityStep q) peer o.capabilities s := by
  have htype : o.toTlv.type = bgpOpenOptCap := rfl
  rw [openOptionStep, if_pos htype, Tlv.toNat_length, bgpCapabilityParse]
  exact Tlv.walk_sequence peer o.capabilities s

theorem parseOpen_eq_run (q : StockQuagga) (peer : BufferedPeer) (options : List CapabilityOption)
    (behind : Stream) :
    parseOpen q peer options behind =
      Tlv.run (openOptionStep q) peer (options.map CapabilityOption.toTlv) behind :=
  Tlv.walk_sequence peer _ behind

theorem parseOpen_cons (q : StockQuagga) (peer : BufferedPeer) (o : CapabilityOption)
    (os : List CapabilityOption) (behind : Stream) :
    parseOpen q peer (o :: os) behind =
      match Tlv.run (capabilityStep q) peer o.capabilities (optionOctets os ++ behind) with
      | .ok peer' => parseOpen q peer' os behind
      | .error peer' => .error peer' := by
  have hoctets : Tlv.sequence (os.map CapabilityOption.toTlv) = optionOctets os := rfl
  rw [parseOpen_eq_run, List.map_cons, Tlv.run, openOptionStep_toTlv, hoctets]
  cases Tlv.run (capabilityStep q) peer o.capabilities (optionOctets os ++ behind) with
  | ok peer' => exact (parseOpen_eq_run q peer' os behind).symm
  | error peer' => rfl

/-- Options are read one list behind the other. -/
theorem parseOpen_append {q : StockQuagga} {peer peer' : BufferedPeer} {os os' : List CapabilityOption}
    {behind : Stream} (h : parseOpen q peer os (optionOctets os' ++ behind) = .ok peer') :
    parseOpen q peer (os ++ os') behind = parseOpen q peer' os' behind := by
  have hoctets : Tlv.sequence (os'.map CapabilityOption.toTlv) = optionOctets os' := rfl
  rw [parseOpen_eq_run] at h
  rw [parseOpen_eq_run, List.map_append, Tlv.run_append, hoctets, h]
  exact (parseOpen_eq_run q peer' os' behind).symm

/-! ## The flags after the parser -/

/-- The branch for BGPSEC sets the flag of a direction where the octet that is read is one for it. -/
theorem checkFlag_bgpsecCapability (dir : BgpsecDir) (peer : BufferedPeer) (s : Stream) :
    checkFlag (bgpsecCapability peer s).cap dir.capFlag =
      (checkFlag peer.cap dir.capFlag || dir.reads (streamGetc s).1) := by
  have hmask : (streamGetc s).1 &&& ~~~bgpsecCapDirRecv = (streamGetc s).1 := by
    have hall : ~~~bgpsecCapDirRecv = -1 := by decide
    rw [hall, UInt8.and_neg_one]
  simp only [bgpsecCapability, checkFlag_ite_setFlag, hmask]
  cases dir with
  | recv =>
      have hself : checkFlag peerCapBgpsecAdv peerCapBgpsecAdv = true := by decide
      have hother : checkFlag peerCapBgpsecAdvSend peerCapBgpsecAdv = false := by decide
      simp only [BgpsecDir.capFlag, BgpsecDir.reads, hself, hother, Bool.and_true, Bool.and_false,
        Bool.or_false]
  | send =>
      have hself : checkFlag peerCapBgpsecAdvSend peerCapBgpsecAdvSend = true := by decide
      have hother : checkFlag peerCapBgpsecAdv peerCapBgpsecAdvSend = false := by decide
      simp only [BgpsecDir.capFlag, BgpsecDir.reads, hself, hother, Bool.and_true, Bool.and_false,
        Bool.or_false]

theorem checkFlag_capabilityExtended (dir : BgpsecDir) (peer : BufferedPeer) :
    checkFlag peer.capabilityExtended.cap dir.capFlag = checkFlag peer.cap dir.capFlag := by
  cases dir with
  | recv => exact checkFlag_setFlag_of_disjoint (by decide) peer.cap
  | send => exact checkFlag_setFlag_of_disjoint (by decide) peer.cap

theorem StockQuagga.checkFlag_capability (q : StockQuagga) (dir : BgpsecDir) (peer : BufferedPeer)
    (code length : UInt8) (s : Stream) :
    checkFlag (Tlv.stateOf (q.capability peer code length s)).cap dir.capFlag =
      checkFlag peer.cap dir.capFlag := by
  cases dir with
  | recv => exact q.capability_adv peer code length s
  | send => exact q.capability_advSend peer code length s

/-- A BGPSEC capability is never refused: its length is not checked. -/
theorem capabilityStep_bgpsec (q : StockQuagga) (peer : BufferedPeer) (length : UInt8) (s : Stream) :
    capabilityStep q peer capabilityCodeBgpsec length s = .ok (bgpsecCapability peer s) := by
  have hmin : capMinsizes q capabilityCodeBgpsec = 0 := by
    rw [capMinsizes, if_neg (by decide), if_neg (by decide)]
  rw [capabilityStep, if_neg (fun h => absurd h.2 (by rw [hmin]; exact Nat.not_lt_zero _)),
    if_neg (by decide), if_pos rfl]

/-- A turn of the loop sets the flag of a direction for a BGPSEC capability whose octet is read so. -/
theorem checkFlag_capabilityStep (q : StockQuagga) (dir : BgpsecDir) (peer : BufferedPeer) (t : Tlv)
    (s : Stream) :
    checkFlag (Tlv.stateOf (capabilityStep q peer t.type t.length (t.value ++ s))).cap dir.capFlag =
      (checkFlag peer.cap dir.capFlag ||
        (decide (t.type = capabilityCodeBgpsec) && dir.reads (versionDirRead (t, s)))) := by
  by_cases hcode : t.type = capabilityCodeBgpsec
  · rw [hcode, capabilityStep_bgpsec, decide_eq_true rfl, Bool.true_and]
    exact checkFlag_bgpsecCapability dir peer (t.value ++ s)
  · rw [decide_eq_false hcode, Bool.false_and, Bool.or_false, capabilityStep]
    split
    · rfl
    · split
      · exact q.checkFlag_capability dir peer t.type t.length (t.value ++ s)
      · split
        · exact checkFlag_capabilityExtended dir peer
        · rfl

/-- **After an OPEN a flag is set where it was, or where a BGPSEC capability that the parser comes to is
    read so.** -/
theorem checkFlag_parseOpen (q : StockQuagga) (dir : BgpsecDir) (peer : BufferedPeer)
    (options : List CapabilityOption) (behind : Stream) :
    checkFlag (Tlv.stateOf (parseOpen q peer options behind)).cap dir.capFlag =
      (checkFlag peer.cap dir.capFlag ||
        (bgpsecVisits q peer options behind).any fun v => dir.reads (versionDirRead v)) := by
  induction options generalizing peer with
  | nil =>
      rw [parseOpen_eq_run]
      exact (Bool.or_false _).symm
  | cons o os ih =>
      have hrun := Tlv.test_run (fun p => checkFlag p.cap dir.capFlag)
        (fun t s => decide (t.type = capabilityCodeBgpsec) && dir.reads (versionDirRead (t, s)))
        (checkFlag_capabilityStep q dir) peer o.capabilities (optionOctets os ++ behind)
      rw [parseOpen_cons, bgpsecVisits, List.any_append, List.any_filter, ← Bool.or_assoc, ← hrun]
      cases Tlv.run (capabilityStep q) peer o.capabilities (optionOctets os ++ behind) with
      | ok peer' => exact ih peer'
      | error peer' => exact (Bool.or_false _).symm

/-! ## An OPEN that is read to its end -/

theorem capabilityStep_ok {code : UInt8} (hcode : code ∉ stockCodes) (q : StockQuagga)
    (peer : BufferedPeer) (length : UInt8) (s : Stream) :
    ∃ peer', capabilityStep q peer code length s = .ok peer' := by
  have hmin : capMinsizes q code = 0 := by
    rw [capMinsizes, if_neg hcode]
    exact ite_self 0
  rw [capabilityStep, if_neg (fun h => absurd h.2 (by rw [hmin]; exact Nat.not_lt_zero _)),
    if_neg hcode]
  split
  · exact ⟨_, rfl⟩
  · split
    · exact ⟨_, rfl⟩
    · exact ⟨_, rfl⟩

/-- An OPEN without capabilities of stock Quagga is read to its end. -/
theorem parseOpen_ok {options : List CapabilityOption}
    (h : ∀ o ∈ options, ∀ c ∈ o.capabilities, c.type ∉ stockCodes) (q : StockQuagga)
    (peer : BufferedPeer) (behind : Stream) : ∃ peer', parseOpen q peer options behind = .ok peer' := by
  induction options generalizing peer with
  | nil =>
      refine ⟨peer, ?_⟩
      rw [parseOpen_eq_run]
      rfl
  | cons o os ih =>
      have hstep : ∀ peer, ∀ t ∈ o.capabilities, ∀ s,
          ∃ peer', capabilityStep q peer t.type t.length s = .ok peer' :=
        fun peer t ht s => capabilityStep_ok (h o List.mem_cons_self t ht) q peer t.length s
      obtain ⟨peer₁, hrun⟩ := Tlv.run_ok hstep peer (optionOctets os ++ behind)
      obtain ⟨peer', hrest⟩ := ih (fun o' ho' => h o' (List.mem_cons_of_mem o ho')) peer₁
      refine ⟨peer', ?_⟩
      rw [parseOpen_cons, hrun]
      exact hrest

theorem bgpsecVisits_eq_positions {q : StockQuagga} {peer peer' : BufferedPeer}
    {options : List CapabilityOption} {behind : Stream}
    (h : parseOpen q peer options behind = .ok peer') :
    bgpsecVisits q peer options behind = bgpsecPositions options behind := by
  induction options generalizing peer with
  | nil => rfl
  | cons o os ih =>
      rw [parseOpen_cons] at h
      rw [bgpsecVisits, bgpsecPositions]
      cases hrun : Tlv.run (capabilityStep q) peer o.capabilities (optionOctets os ++ behind) with
      | ok peer₁ =>
          rw [hrun] at h
          rw [Tlv.visits_eq_positions hrun]
          exact congrArg _ (ih h)
      | error peer₁ =>
          rw [hrun] at h
          cases h

theorem bgpsecCapabilities_cons (o : CapabilityOption) (os : List CapabilityOption) :
    bgpsecCapabilities (o :: os) =
      (o.capabilities.filter fun c => c.type = capabilityCodeBgpsec) ++ bgpsecCapabilities os := by
  rw [bgpsecCapabilities, List.flatMap_cons, List.filter_append, bgpsecCapabilities]

theorem map_fst_bgpsecPositions (options : List CapabilityOption) (behind : Stream) :
    (bgpsecPositions options behind).map Prod.fst = bgpsecCapabilities options := by
  induction options with
  | nil => rfl
  | cons o os ih =>
      have hfilter :
          ((Tlv.positions o.capabilities (optionOctets os ++ behind)).filter
              fun v => v.1.type = capabilityCodeBgpsec).map Prod.fst =
            o.capabilities.filter fun c => c.type = capabilityCodeBgpsec := by
        have hmap := congrArg (List.filter fun c => c.type = capabilityCodeBgpsec)
          (Tlv.map_fst_positions o.capabilities (optionOctets os ++ behind))
        rw [List.filter_map] at hmap
        exact hmap
      rw [bgpsecPositions, List.map_append, ih, bgpsecCapabilities_cons, hfilter]

theorem map_value_bgpsecPositions (options : List CapabilityOption) (behind : Stream) :
    (bgpsecPositions options behind).map (fun v => v.1.value) = bgpsecValues options := by
  rw [bgpsecValues, ← map_fst_bgpsecPositions options behind, List.map_map]
  rfl

theorem fst_mem_of_mem_bgpsecVisits {q : StockQuagga} {peer : BufferedPeer}
    {options : List CapabilityOption} {behind : Stream} {v : Tlv × Stream}
    (h : v ∈ bgpsecVisits q peer options behind) : v.1 ∈ bgpsecCapabilities options := by
  induction options generalizing peer with
  | nil => cases h
  | cons o os ih =>
      rw [bgpsecCapabilities_cons]
      rw [bgpsecVisits] at h
      rcases List.mem_append.mp h with h | h
      · obtain ⟨hv, hcode⟩ := List.mem_filter.mp h
        exact List.mem_append_left _ (List.mem_filter.mpr ⟨Tlv.mem_of_mem_visits hv, hcode⟩)
      · apply List.mem_append_right
        cases hrun : Tlv.run (capabilityStep q) peer o.capabilities (optionOctets os ++ behind) with
        | ok peer₁ =>
            rw [hrun] at h
            exact ih h
        | error peer₁ =>
            rw [hrun] at h
            cases h

/-! ## What the flags mean -/

/-- A value announces BGPsec in this direction: three octets, the version, and the direction bit. -/
def AnnouncesDir (dir : BgpsecDir) (value : List UInt8) : Prop :=
  3 ≤ value.length ∧
    ∃ d ∈ value.head?, d &&& 0xF0 = bgpsecCapVersion ∧ d &&& bgpsecCapDirSend = dir.bit

/-- The flags say what the BGPSEC capabilities of the OPEN announce. -/
def FlagsMean (q : StockQuagga) (peer : BufferedPeer) (options : List CapabilityOption)
    (behind : Stream) : Prop :=
  ∀ dir, checkFlag (Tlv.stateOf (parseOpen q peer options behind)).cap dir.capFlag = true ↔
    ∃ value ∈ bgpsecValues options, AnnouncesDir dir value

/-- Any two OPENs with these values of BGPSEC capabilities that are read to their ends give the same
    flags. -/
def OwnValuesDecide (q : StockQuagga) (peer : BufferedPeer) (values : List (List UInt8)) : Prop :=
  ∀ options₁ behind₁ peer₁ options₂ behind₂ peer₂,
    bgpsecValues options₁ = values → parseOpen q peer options₁ behind₁ = .ok peer₁ →
    bgpsecValues options₂ = values → parseOpen q peer options₂ behind₂ = .ok peer₂ →
      ∀ dir : BgpsecDir, checkFlag peer₁.cap dir.capFlag = checkFlag peer₂.cap dir.capFlag

/-- An OPEN that `bgp_open_capability` has built, of which the parser gets through the options of stock
    Quagga, gives the flags of the sender. -/
def BuiltOpenMeans (q : StockQuagga) (peer : BufferedPeer) : Prop :=
  ∀ (sender : OpenPeer) (stock : List CapabilityOption) (behind : Stream) (peer' : BufferedPeer),
    bgpsecCapabilities stock = [] →
    bgpOpenOptionParse q peer (bgpOpenCapability (optionOctets stock) sender ++ behind)
      (optionOctets stock).length = .ok peer' →
    ∀ dir : BgpsecDir,
      checkFlag (Tlv.stateOf (bgpOpenOptionParse q peer
          (bgpOpenCapability (optionOctets stock) sender ++ behind)
          (bgpOpenCapability (optionOctets stock) sender).length)).cap dir.capFlag =
        checkFlag sender.flags dir.peerFlag

/-- What the flags of the patch are for. -/
structure CapabilityFlagsRight (q : StockQuagga) (peer : BufferedPeer)
    (options : List CapabilityOption) (behind : Stream) : Prop where
  mean : FlagsMean q peer options behind
  own : OwnValuesDecide q peer (bgpsecValues options)
  built : BuiltOpenMeans q peer

/-- The octets that are read as version and direction are what the OPEN announces. -/
structure OctetsAnnounced (q : StockQuagga) (peer : BufferedPeer) (options : List CapabilityOption)
    (behind : Stream) : Prop where
  recv_short : ∀ v ∈ bgpsecVisits q peer options behind, v.1.value.length < 3 →
    versionDirRead v = 0 → ∃ value ∈ bgpsecValues options, AnnouncesDir .recv value
  recv_clear : (∃ value ∈ bgpsecValues options, AnnouncesDir .recv value) →
    ∃ v ∈ bgpsecVisits q peer options behind, versionDirRead v = 0
  send_other : ∀ v ∈ bgpsecVisits q peer options behind,
    v.1.value.length < 3 ∨ versionDirRead v &&& 0xF0 ≠ bgpsecCapVersion →
    versionDirRead v &&& bgpsecCapDirSend ≠ 0 → ∃ value ∈ bgpsecValues options, AnnouncesDir .send value
  send_reached : (∃ value ∈ bgpsecValues options, AnnouncesDir .send value) →
    ∃ v ∈ bgpsecVisits q peer options behind, versionDirRead v &&& bgpsecCapDirSend ≠ 0

/-- Where there is an empty value, the first octets of others set both flags. -/
def EmptyCovered (values : List (List UInt8)) : Prop :=
  [] ∈ values → ∀ dir : BgpsecDir, ∃ value ∈ values, ∃ d ∈ value.head?, dir.reads d = true

theorem and_bgpsecCapDirSend {d : UInt8} (h : d &&& bgpsecCapDirSend ≠ 0) :
    d &&& bgpsecCapDirSend = bgpsecCapDirSend := by
  have hand : (d &&& bgpsecCapDirSend).toNat = (d.toNat.testBit 3).toNat * 2 ^ 3 := by
    rw [UInt8.toNat_and]
    exact Nat.and_two_pow d.toNat 3
  cases hbit : d.toNat.testBit 3 with
  | true =>
      rw [hbit] at hand
      exact UInt8.toNat_inj.mp hand
  | false =>
      rw [hbit] at hand
      exact absurd (UInt8.toNat_inj.mp hand) h

/-- The first octet of a value is the one that is read. -/
theorem versionDirRead_of_head? {v : Tlv × Stream} {d : UInt8} (h : d ∈ v.1.value.head?) :
    versionDirRead v = d := by
  rw [versionDirRead]
  cases hvalue : v.1.value with
  | nil =>
      rw [hvalue] at h
      cases h
  | cons d' value =>
      rw [hvalue] at h
      exact Option.some.inj h

theorem versionDirRead_mem_head? {v : Tlv × Stream} (h : v.1.value ≠ []) :
    versionDirRead v ∈ v.1.value.head? := by
  cases hvalue : v.1.value with
  | nil => exact absurd hvalue h
  | cons d value =>
      have hd : d ∈ v.1.value.head? := by rw [hvalue]; rfl
      rw [versionDirRead_of_head? hd]
      rfl

section

variable {q : StockQuagga} {peer : BufferedPeer}

/-- A flag that was clear is set for an octet that is read so. -/
theorem flag_iff_visits (q : StockQuagga)
    (hpeer : ∀ dir : BgpsecDir, checkFlag peer.cap dir.capFlag = false) (dir : BgpsecDir)
    (options : List CapabilityOption) (behind : Stream) :
    checkFlag (Tlv.stateOf (parseOpen q peer options behind)).cap dir.capFlag = true ↔
      ∃ v ∈ bgpsecVisits q peer options behind, dir.reads (versionDirRead v) = true := by
  rw [checkFlag_parseOpen, hpeer dir, Bool.false_or, List.any_eq_true]

theorem value_mem_of_mem_visits {options : List CapabilityOption} {behind : Stream} {v : Tlv × Stream}
    (h : v ∈ bgpsecVisits q peer options behind) : v.1.value ∈ bgpsecValues options :=
  List.mem_map_of_mem (fst_mem_of_mem_bgpsecVisits h)

/-- A value of three octets or more that is read as 0 announces receiving. -/
theorem announcesDir_recv {v : Tlv × Stream} (hlen : ¬ v.1.value.length < 3) (hread : versionDirRead v = 0) :
    AnnouncesDir .recv v.1.value := by
  have hne : v.1.value ≠ [] := by
    rintro h
    rw [h] at hlen
    exact hlen (by decide)
  refine ⟨Nat.le_of_not_lt hlen, versionDirRead v, versionDirRead_mem_head? hne, ?_⟩
  rw [hread]
  decide

theorem announcesDir_send {v : Tlv × Stream}
    (hproper : ¬ (v.1.value.length < 3 ∨ versionDirRead v &&& 0xF0 ≠ bgpsecCapVersion))
    (hread : versionDirRead v &&& bgpsecCapDirSend ≠ 0) : AnnouncesDir .send v.1.value := by
  obtain ⟨hlen, hversion⟩ := not_or.mp hproper
  have hne : v.1.value ≠ [] := by
    rintro h
    rw [h] at hlen
    exact hlen (by decide)
  exact ⟨Nat.le_of_not_lt hlen, versionDirRead v, versionDirRead_mem_head? hne,
    not_not.mp hversion, and_bgpsecCapDirSend hread⟩

theorem flagsMean_iff (hpeer : ∀ dir : BgpsecDir, checkFlag peer.cap dir.capFlag = false)
    (options : List CapabilityOption) (behind : Stream) :
    FlagsMean q peer options behind ↔ OctetsAnnounced q peer options behind := by
  have hflag := fun dir => flag_iff_visits q hpeer dir options behind
  constructor
  · intro h
    have hrecv := (hflag .recv).symm.trans (h .recv)
    have hsend := (hflag .send).symm.trans (h .send)
    simp only [BgpsecDir.reads, decide_eq_true_eq] at hrecv hsend
    exact
      { recv_short := fun v hv _ hread => hrecv.mp ⟨v, hv, hread⟩
        recv_clear := hrecv.mpr
        send_other := fun v hv _ hread => hsend.mp ⟨v, hv, hread⟩
        send_reached := hsend.mpr }
  · intro h dir
    rw [hflag dir]
    cases dir with
    | recv =>
        simp only [BgpsecDir.reads, decide_eq_true_eq]
        refine ⟨?_, h.recv_clear⟩
        rintro ⟨v, hv, hread⟩
        by_cases hlen : v.1.value.length < 3
        · exact h.recv_short v hv hlen hread
        · exact ⟨v.1.value, value_mem_of_mem_visits hv, announcesDir_recv hlen hread⟩
    | send =>
        simp only [BgpsecDir.reads, decide_eq_true_eq]
        refine ⟨?_, h.send_reached⟩
        rintro ⟨v, hv, hread⟩
        by_cases hother : v.1.value.length < 3 ∨ versionDirRead v &&& 0xF0 ≠ bgpsecCapVersion
        · exact h.send_other v hv hother hread
        · exact ⟨v.1.value, value_mem_of_mem_visits hv, announcesDir_send hother hread⟩

/-! ## Whose octets decide -/

/-- In an OPEN that is read to its end, the flags are those of the first octets of the values, where an
    empty value does not matter. -/
theorem flag_iff_values (hpeer : ∀ dir : BgpsecDir, checkFlag peer.cap dir.capFlag = false)
    {options : List CapabilityOption} {behind : Stream} {peer' : BufferedPeer}
    (hcovered : EmptyCovered (bgpsecValues options))
    (hparse : parseOpen q peer options behind = .ok peer') (dir : BgpsecDir) :
    checkFlag peer'.cap dir.capFlag = true ↔
      ∃ value ∈ bgpsecValues options, ∃ d ∈ value.head?, dir.reads d = true := by
  have hflag := flag_iff_visits q hpeer dir options behind
  rw [hparse, Tlv.stateOf_ok, bgpsecVisits_eq_positions hparse] at hflag
  rw [hflag]
  have hvalues := map_value_bgpsecPositions options behind
  constructor
  · rintro ⟨v, hv, hread⟩
    have hmem : v.1.value ∈ bgpsecValues options := by
      rw [← hvalues]
      exact List.mem_map_of_mem hv
    by_cases hempty : v.1.value = []
    · exact hcovered (hempty ▸ hmem) dir
    · exact ⟨v.1.value, hmem, versionDirRead v, versionDirRead_mem_head? hempty, hread⟩
  · rintro ⟨value, hmem, d, hd, hread⟩
    rw [← hvalues] at hmem
    obtain ⟨v, hv, rfl⟩ := List.mem_map.mp hmem
    refine ⟨v, hv, ?_⟩
    rw [versionDirRead_of_head? hd]
    exact hread

theorem ownValuesDecide_of_covered (hpeer : ∀ dir : BgpsecDir, checkFlag peer.cap dir.capFlag = false)
    {values : List (List UInt8)} (hcovered : EmptyCovered values) : OwnValuesDecide q peer values := by
  intro options₁ behind₁ peer₁ options₂ behind₂ peer₂ hvalues₁ hparse₁ hvalues₂ hparse₂ dir
  have h₁ := flag_iff_values hpeer (hvalues₁.symm ▸ hcovered) hparse₁ dir
  have h₂ := flag_iff_values hpeer (hvalues₂.symm ▸ hcovered) hparse₂ dir
  rw [hvalues₁] at h₁
  rw [hvalues₂] at h₂
  exact Bool.eq_iff_iff.mpr (h₁.trans h₂.symm)

/-- An option for a BGPSEC capability; behind an empty one it has a capability of another code, which is
    the octet that is read. -/
theorem exists_probeOption {code : UInt8} (hcode : code ≠ capabilityCodeBgpsec) {c : Tlv}
    (htype : c.type = capabilityCodeBgpsec) (hlen : c.octets.length < 256) :
    ∃ o : CapabilityOption, (o.capabilities.filter fun c => c.type = capabilityCodeBgpsec) = [c] ∧
      (∀ c' ∈ o.capabilities, c'.type = capabilityCodeBgpsec ∨ c'.type = code) ∧
      ∀ s, ∀ v ∈ (Tlv.positions o.capabilities s).filter fun v => v.1.type = capabilityCodeBgpsec,
        v.1.value = [] → versionDirRead v = code := by
  by_cases hempty : c.value = []
  · let other : Tlv := ⟨code, [], by decide⟩
    have hfits : (Tlv.sequence [c, other]).length < 256 := by
      simp [hempty, other]
    refine ⟨⟨[c, other], hfits⟩, ?_, ?_, ?_⟩
    · simp [htype, other, hcode]
    · intro c' hc'
      rcases List.mem_cons.mp hc' with rfl | hc'
      · exact .inl htype
      · rw [List.mem_singleton.mp hc']
        exact .inr rfl
    · intro s v hv _
      simp only [Tlv.positions, List.filter_cons, htype, other, hcode, decide_true, if_true,
        decide_false, Bool.false_eq_true, if_false, List.filter_nil, List.mem_singleton] at hv
      rw [hv, versionDirRead, hempty]
      rfl
  · have hfits : (Tlv.sequence [c]).length < 256 := by
      rw [Tlv.sequence_cons, Tlv.sequence_nil, List.append_nil]
      exact hlen
    refine ⟨⟨[c], hfits⟩, ?_, ?_, ?_⟩
    · simp [htype]
    · intro c' hc'
      rw [List.mem_singleton.mp hc']
      exact .inl htype
    · intro s v hv hvalue
      simp only [Tlv.positions, List.filter_cons, htype, decide_true, if_true, List.filter_nil,
        List.mem_singleton] at hv
      rw [hv] at hvalue
      exact absurd hvalue hempty

/-- The same BGPSEC capabilities in options of their own. -/
theorem exists_probe {code : UInt8} (hcode : code ≠ capabilityCodeBgpsec) {cs : List Tlv}
    (hcs : ∀ c ∈ cs, c.type = capabilityCodeBgpsec ∧ c.octets.length < 256) :
    ∃ options : List CapabilityOption, bgpsecCapabilities options = cs ∧
      (∀ o ∈ options, ∀ c ∈ o.capabilities, c.type = capabilityCodeBgpsec ∨ c.type = code) ∧
      ∀ behind, ∀ v ∈ bgpsecPositions options behind, v.1.value = [] → versionDirRead v = code := by
  induction cs with
  | nil => exact ⟨[], rfl, nofun, nofun⟩
  | cons c cs ih =>
      obtain ⟨os, hos, htypes, hread⟩ := ih fun c' hc' => hcs c' (List.mem_cons_of_mem c hc')
      obtain ⟨htype, hlen⟩ := hcs c List.mem_cons_self
      obtain ⟨o, ho, hotypes, horead⟩ := exists_probeOption hcode htype hlen
      refine ⟨o :: os, ?_, ?_, ?_⟩
      · rw [bgpsecCapabilities_cons, ho, hos]
        rfl
      · intro o' ho'
        rcases List.mem_cons.mp ho' with rfl | ho'
        · exact hotypes
        · exact htypes o' ho'
      · intro behind v hv
        rw [bgpsecPositions] at hv
        rcases List.mem_append.mp hv with hv | hv
        · exact horead _ v hv
        · exact hread behind v hv

theorem capability_of_mem {options : List CapabilityOption} {c : Tlv}
    (h : c ∈ bgpsecCapabilities options) : c.type = capabilityCodeBgpsec ∧ c.octets.length < 256 := by
  obtain ⟨hmem, hcode⟩ := List.mem_filter.mp h
  obtain ⟨o, _, hc⟩ := List.mem_flatMap.mp hmem
  exact ⟨of_decide_eq_true hcode, Nat.lt_of_le_of_lt (Tlv.octets_length_le hc) o.fits⟩

/-- The flags of such an OPEN: an empty value counts as the code behind it. -/
theorem exists_parsed_probe (q : StockQuagga)
    (hpeer : ∀ dir : BgpsecDir, checkFlag peer.cap dir.capFlag = false) {code : UInt8}
    (hcode : code ≠ capabilityCodeBgpsec) (hunknown : code ∉ stockCodes)
    (options : List CapabilityOption) :
    ∃ options' peer', bgpsecValues options' = bgpsecValues options ∧
      parseOpen q peer options' [] = .ok peer' ∧
      ∀ dir : BgpsecDir, checkFlag peer'.cap dir.capFlag = true ↔
        ([] ∈ bgpsecValues options ∧ dir.reads code = true) ∨
          ∃ value ∈ bgpsecValues options, ∃ d ∈ value.head?, dir.reads d = true := by
  obtain ⟨options', hsame, htypes, hread⟩ := exists_probe hcode fun c hc => capability_of_mem hc
  have hknown : ∀ o ∈ options', ∀ c ∈ o.capabilities, c.type ∉ stockCodes := by
    intro o ho c hc
    rcases htypes o ho c hc with htype | htype
    · rw [htype]
      decide
    · rw [htype]
      exact hunknown
  obtain ⟨peer', hparse⟩ := parseOpen_ok hknown q peer []
  have hvalues : bgpsecValues options' = bgpsecValues options := congrArg (List.map Tlv.value) hsame
  refine ⟨options', peer', hvalues, hparse, fun dir => ?_⟩
  have hflag := flag_iff_visits q hpeer dir options' []
  rw [hparse, Tlv.stateOf_ok, bgpsecVisits_eq_positions hparse] at hflag
  rw [hflag, ← hvalues, ← map_value_bgpsecPositions options' []]
  constructor
  · rintro ⟨v, hv, hset⟩
    by_cases hempty : v.1.value = []
    · rw [hread [] v hv hempty] at hset
      exact .inl ⟨List.mem_map.mpr ⟨v, hv, hempty⟩, hset⟩
    · exact .inr ⟨v.1.value, List.mem_map_of_mem hv, versionDirRead v,
        versionDirRead_mem_head? hempty, hset⟩
  · rintro (⟨hempty, hset⟩ | ⟨value, hmem, d, hd, hset⟩)
    · obtain ⟨v, hv, hvalue⟩ := List.mem_map.mp hempty
      exact ⟨v, hv, (hread [] v hv hvalue).symm ▸ hset⟩
    · obtain ⟨v, hv, rfl⟩ := List.mem_map.mp hmem
      exact ⟨v, hv, (versionDirRead_of_head? hd).symm ▸ hset⟩

/-- An octet that is read for a direction, and the code of no capability that is known. -/
def BgpsecDir.probe : BgpsecDir → UInt8
  | .recv => 0
  | .send => 8

/-- The octet behind an empty value sets a flag or does not, so others have to set it. -/
theorem covered_of_ownValuesDecide (hpeer : ∀ dir : BgpsecDir, checkFlag peer.cap dir.capFlag = false)
    (options : List CapabilityOption) (h : OwnValuesDecide q peer (bgpsecValues options)) :
    EmptyCovered (bgpsecValues options) := by
  intro hempty dir
  have hprobe : dir.probe ≠ capabilityCodeBgpsec ∧ dir.probe ∉ stockCodes ∧
      dir.reads dir.probe = true ∧ dir.reads 4 = false := by
    cases dir <;> decide
  obtain ⟨hcode, hunknown, hset, hclear⟩ := hprobe
  have hcode₄ : (4 : UInt8) ≠ capabilityCodeBgpsec := by decide
  obtain ⟨options₁, peer₁, hvalues₁, hparse₁, hflag₁⟩ :=
    exists_parsed_probe q hpeer hcode hunknown options
  obtain ⟨options₂, peer₂, hvalues₂, hparse₂, hflag₂⟩ :=
    exists_parsed_probe q hpeer hcode₄ (by decide) options
  have hsame := h options₁ [] peer₁ options₂ [] peer₂ hvalues₁ hparse₁ hvalues₂ hparse₂ dir
  have hflag : checkFlag peer₂.cap dir.capFlag = true :=
    hsame.symm.trans ((hflag₁ dir).mpr (.inl ⟨hempty, hset⟩))
  rcases (hflag₂ dir).mp hflag with ⟨_, hread⟩ | hread
  · rw [hclear] at hread
    cases hread
  · exact hread

theorem ownValuesDecide_iff (hpeer : ∀ dir : BgpsecDir, checkFlag peer.cap dir.capFlag = false)
    (options : List CapabilityOption) :
    OwnValuesDecide q peer (bgpsecValues options) ↔ EmptyCovered (bgpsecValues options) :=
  ⟨covered_of_ownValuesDecide hpeer options, ownValuesDecide_of_covered hpeer⟩

/-! ## An OPEN that was built -/

/-- The option for a direction and an address family. -/
def bgpsecOption (dir : BgpsecDir) (afi : UInt16) : CapabilityOption where
  capabilities := [⟨capabilityCodeBgpsec, dir.bit :: be16 afi, by simp⟩]
  fits := by simp

/-- The option for extended messages. -/
def extendedOption : CapabilityOption where
  capabilities := [⟨capabilityCodeExtended, [], by decide⟩]
  fits := by decide

/-- The options that the patch adds. -/
def OpenPeer.addedOptions (peer : OpenPeer) : List CapabilityOption :=
  let send := checkFlag peer.flags peerFlagBgpsecCapabilitySend
  let recv := checkFlag peer.flags peerFlagBgpsecCapabilityRecv
  (if send then [bgpsecOption .send bgpsecCapAfiIpv4] else []) ++
    (if recv then [bgpsecOption .recv bgpsecCapAfiIpv4] else []) ++
    (if peer.mpnlriV6Announced && send then [bgpsecOption .send bgpsecCapAfiIpv6] else []) ++
    (if peer.mpnlriV6Announced && recv then [bgpsecOption .recv bgpsecCapAfiIpv6] else []) ++
    (if checkFlag peer.flags peerFlagExtendedMessageSupport then [extendedOption] else [])

theorem putBgpsecOption_eq (s : Stream) (dir : BgpsecDir) (afi : UInt16) :
    putBgpsecOption s dir.bit afi = s ++ (bgpsecOption dir afi).toTlv.octets := by
  have hdir : 0 ||| bgpsecCapVersion ||| dir.bit = dir.bit := by cases dir <;> decide
  simp only [putBgpsecOption, makeBgpsecCapability, streamPutc, streamPutw, hdir, List.append_assoc]
  rfl

/-- What `bgp_open_capability` adds to the stream are these options. -/
theorem bgpOpenCapability_eq (s : Stream) (sender : OpenPeer) :
    bgpOpenCapability s sender = s ++ optionOctets sender.addedOptions := by
  have hput : ∀ (c : Bool) (dir : BgpsecDir) (afi : UInt16) (s : Stream),
      (if c then putBgpsecOption s dir.bit afi else s) =
        s ++ optionOctets (if c then [bgpsecOption dir afi] else []) := by
    intro c dir afi s
    cases c with
    | true => exact putBgpsecOption_eq s dir afi
    | false => exact (List.append_nil s).symm
  have hextended : ∀ (c : Bool) (s : Stream),
      (if c then
          streamPutc (streamPutc (streamPutc (streamPutc s bgpOpenOptCap)
            (capabilityCodeExtendedLen + 2)) capabilityCodeExtended) capabilityCodeExtendedLen
        else s) = s ++ optionOctets (if c then [extendedOption] else []) := by
    intro c s
    cases c with
    | true =>
        simp only [streamPutc, List.append_assoc]
        rfl
    | false => exact (List.append_nil s).symm
  have hsend := fun c afi s => hput c .send afi s
  have hrecv := fun c afi s => hput c .recv afi s
  simp only [BgpsecDir.bit] at hsend hrecv
  simp only [bgpOpenCapability, hsend, hrecv, hextended, OpenPeer.addedOptions, optionOctets_append,
    List.append_assoc]

/-- The options that are added are the one for extended messages, and those of the directions that the
    sender is configured for. -/
theorem mem_addedOptions {sender : OpenPeer} {o : CapabilityOption} (h : o ∈ sender.addedOptions) :
    o = extendedOption ∨
      ∃ dir afi, o = bgpsecOption dir afi ∧ checkFlag sender.flags dir.peerFlag = true := by
  simp only [OpenPeer.addedOptions, List.mem_append, List.mem_ite_nil_right, List.mem_singleton,
    Bool.and_eq_true] at h
  rcases h with (((⟨hflag, rfl⟩ | ⟨hflag, rfl⟩) | ⟨⟨_, hflag⟩, rfl⟩) | ⟨⟨_, hflag⟩, rfl⟩) | ⟨_, rfl⟩
  · exact .inr ⟨.send, _, rfl, hflag⟩
  · exact .inr ⟨.recv, _, rfl, hflag⟩
  · exact .inr ⟨.send, _, rfl, hflag⟩
  · exact .inr ⟨.recv, _, rfl, hflag⟩
  · exact .inl rfl

theorem bgpsecOption_mem_addedOptions {sender : OpenPeer} {dir : BgpsecDir}
    (h : checkFlag sender.flags dir.peerFlag = true) :
    bgpsecOption dir bgpsecCapAfiIpv4 ∈ sender.addedOptions := by
  simp only [OpenPeer.addedOptions, List.mem_append, List.mem_ite_nil_right, List.mem_singleton]
  cases dir with
  | recv => exact .inl (.inl (.inl (.inr ⟨h, rfl⟩)))
  | send => exact .inl (.inl (.inl (.inl ⟨h, rfl⟩)))

theorem mem_bgpsecValues {options : List CapabilityOption} {value : List UInt8} :
    value ∈ bgpsecValues options ↔
      ∃ o ∈ options, ∃ c ∈ o.capabilities, c.type = capabilityCodeBgpsec ∧ c.value = value := by
  simp only [bgpsecValues, bgpsecCapabilities, List.mem_map, List.mem_filter, List.mem_flatMap,
    decide_eq_true_eq]
  constructor
  · rintro ⟨c, ⟨⟨o, ho, hc⟩, hcode⟩, hvalue⟩
    exact ⟨o, ho, c, hc, hcode, hvalue⟩
  · rintro ⟨o, ho, c, hc, hcode, hvalue⟩
    exact ⟨c, ⟨⟨o, ho, hc⟩, hcode⟩, hvalue⟩

/-- The values that are added start with the bit of a direction that the sender is configured for. -/
theorem addedValues_head? {sender : OpenPeer} {value : List UInt8}
    (h : value ∈ bgpsecValues sender.addedOptions) :
    ∃ dir : BgpsecDir, value.head? = some dir.bit ∧ checkFlag sender.flags dir.peerFlag = true := by
  obtain ⟨o, ho, c, hc, hcode, rfl⟩ := mem_bgpsecValues.mp h
  rcases mem_addedOptions ho with rfl | ⟨dir, afi, rfl, hflag⟩
  · rw [List.mem_singleton.mp hc] at hcode
    exact absurd hcode (by decide)
  · rw [List.mem_singleton.mp hc]
    exact ⟨dir, rfl, hflag⟩

theorem BgpsecDir.reads_bit (dir dir' : BgpsecDir) : dir.reads dir'.bit = true ↔ dir' = dir := by
  cases dir <;> cases dir' <;> decide

theorem addedOptions_unknown {sender : OpenPeer} :
    ∀ o ∈ sender.addedOptions, ∀ c ∈ o.capabilities, c.type ∉ stockCodes := by
  intro o ho c hc
  rcases mem_addedOptions ho with rfl | ⟨dir, afi, rfl, _⟩
  · rw [List.mem_singleton.mp hc]
    decide
  · rw [List.mem_singleton.mp hc]
    show capabilityCodeBgpsec ∉ stockCodes
    decide

theorem bgpsecCapabilities_append (os os' : List CapabilityOption) :
    bgpsecCapabilities (os ++ os') = bgpsecCapabilities os ++ bgpsecCapabilities os' := by
  rw [bgpsecCapabilities, List.flatMap_append, List.filter_append]
  rfl

/-- **An OPEN that was built gives the flags of its sender.** -/
theorem builtOpenMeans (q : StockQuagga)
    (hpeer : ∀ dir : BgpsecDir, checkFlag peer.cap dir.capFlag = false) : BuiltOpenMeans q peer := by
  intro sender stock behind peer' hstock hthrough dir
  have hvalues : bgpsecValues (stock ++ sender.addedOptions) = bgpsecValues sender.addedOptions := by
    rw [bgpsecValues, bgpsecCapabilities_append, hstock, List.nil_append, bgpsecValues]
  rw [bgpOpenCapability_eq] at hthrough ⊢
  rw [List.append_assoc] at hthrough
  rw [← optionOctets_append]
  change parseOpen q peer stock (optionOctets sender.addedOptions ++ behind) = _ at hthrough
  change checkFlag (Tlv.stateOf (parseOpen q peer (stock ++ sender.addedOptions) behind)).cap _ = _
  obtain ⟨peer'', hadded⟩ := parseOpen_ok addedOptions_unknown q peer' behind
  have hparse := (parseOpen_append hthrough).trans hadded
  have hcovered : EmptyCovered (bgpsecValues (stock ++ sender.addedOptions)) := by
    intro hempty
    rw [hvalues] at hempty
    obtain ⟨dir', hhead, _⟩ := addedValues_head? hempty
    cases hhead
  have hflag := flag_iff_values hpeer hcovered hparse dir
  rw [hparse, Tlv.stateOf_ok, Bool.eq_iff_iff, hflag, hvalues]
  constructor
  · rintro ⟨value, hmem, d, hd, hread⟩
    obtain ⟨dir', hhead, hsender⟩ := addedValues_head? hmem
    rw [hhead] at hd
    cases hd
    exact (BgpsecDir.reads_bit dir dir').mp hread ▸ hsender
  · intro hsender
    refine ⟨dir.bit :: be16 bgpsecCapAfiIpv4, ?_, dir.bit, rfl, (BgpsecDir.reads_bit dir dir).mpr rfl⟩
    exact mem_bgpsecValues.mpr
      ⟨_, bgpsecOption_mem_addedOptions hsender, _, List.mem_singleton.mpr rfl, rfl, rfl⟩

/-- **The flags of the patch are right exactly where the octets that are read are what the OPEN announces
    and no empty value lets the octet behind it decide.** -/
theorem capabilityFlags_right_iff (q : StockQuagga) {peer : BufferedPeer}
    (hpeer : ∀ dir : BgpsecDir, checkFlag peer.cap dir.capFlag = false)
    (options : List CapabilityOption) (behind : Stream) :
    CapabilityFlagsRight q peer options behind ↔
      OctetsAnnounced q peer options behind ∧ EmptyCovered (bgpsecValues options) := by
  rw [← flagsMean_iff hpeer, ← ownValuesDecide_iff hpeer]
  constructor
  · intro h
    exact ⟨h.mean, h.own⟩
  · rintro ⟨hmean, hown⟩
    exact ⟨hmean, hown, builtOpenMeans q hpeer⟩

end

/-- Stock Quagga for OPENs that have none of its capabilities. -/
def plainQuagga : StockQuagga where
  minsize := fun _ => 0
  capability := fun peer _ _ _ => .ok peer
  capability_adv := fun _ _ _ _ => rfl
  capability_advSend := fun _ _ _ _ => rfl

/-- The octets of an OPEN for sending and for receiving are read as it announces. -/
theorem capabilityFlags_right_both :
    CapabilityFlagsRight plainQuagga .new
      [bgpsecOption .send bgpsecCapAfiIpv4, bgpsecOption .recv bgpsecCapAfiIpv4] [] := by
  refine (capabilityFlags_right_iff plainQuagga ?_ _ _).mpr ⟨?_, ?_⟩
  · intro dir
    cases dir <;> decide
  · refine ⟨fun _ _ _ _ => ?_, fun _ => ?_, fun _ _ _ _ => ?_, fun _ => ?_⟩
    · exact ⟨[0, 0, 1], by decide, by decide, 0, rfl, by decide, by decide⟩
    · exact ⟨_, List.mem_cons_of_mem _ List.mem_cons_self, rfl⟩
    · exact ⟨[8, 0, 1], by decide, by decide, 8, rfl, by decide, by decide⟩
    · exact ⟨_, List.mem_cons_self, by decide⟩
  · intro h
    exact absurd h (by decide)

/-- A BGPSEC capability without octets in front of a capability with code 8. -/
def emptyCapabilityOption : CapabilityOption where
  capabilities := [⟨capabilityCodeBgpsec, [], by decide⟩, ⟨8, [], by decide⟩]
  fits := by decide

/-- Its direction is read from the code behind it: the peer counts as one that sends. -/
theorem emptyCapability_counts_as_send :
    ¬ CapabilityFlagsRight plainQuagga .new [emptyCapabilityOption] [] := by
  intro h
  have hflag : checkFlag
      (Tlv.stateOf (parseOpen plainQuagga .new [emptyCapabilityOption] [])).cap
        BgpsecDir.send.capFlag = true := by
    rw [checkFlag_parseOpen]
    decide
  obtain ⟨value, hmem, hlen, _⟩ := (h.mean .send).mp hflag
  have hvalues : bgpsecValues [emptyCapabilityOption] = [[]] := by decide
  rw [hvalues, List.mem_singleton] at hmem
  rw [hmem] at hlen
  exact absurd hlen (by decide)

end SrxNote.Srx
