import SrxNote.KeyStore.Proofs.Resolve

/-!
# What unregistering removes

The loop of `unregisterPrivateKey` over `g_records` reads the link of each record
that it deletes behind `free`. So a run that stays clear of freed memory deletes no
record at all: the call removes a key, from both structures and nothing else,
exactly when there is no record of it (`unregisterPrivateKey_removes_iff`). That is
so only for a key whose registration found no memory for its SKI. For any other key
the call reads the freed record when the mask of the hash table, `num_buckets-1`,
takes it to the slot, and leaves it behind when it does not.
-/

namespace SrxNote.KeyStore
open SrxNote.Bgpsec SrxNote.Crypto

variable {ssl : OpenSSL} (prm : Params)

/-- What is left when a key was removed: its slot is empty, the records with the buffer that was
    freed are gone, all others and the other slots are as before. The key is not found any more, and
    such a key can be registered again and signs. -/
structure Removed (st st' : Store ssl) (id : UInt8) (key : BGPSecKey) : Prop where
  slot : st'.stEnbufEckey (slotOfId id) = Slot.empty
  records : st'.gRecords = st.gRecords.filter fun r =>
    keyDataAddr r.data ≠ (st.stEnbufEckey (slotOfId id)).enBuf
  others : ∀ j, j ≠ slotOfId id → st'.stEnbufEckey j = st.stEnbufEckey j ∧ keyAt st' j = keyAt st j
  not_found : hashKeyGetBGPSecKey st' key.asn key.ski = none
  again : ∀ key' ecKey expand, key'.asn = key.asn → key'.ski = key.ski →
    decodeKey ssl key' = some (some ecKey) →
      ∃ id' st'', registerPrivateKey prm st' (some key') ⟨true, true, true⟩ expand =
        some (id', st'') ∧ Resolves prm st'' id' key'

/-- Unregistering the id removes the key and reads no freed record. -/
def Removes (st : Store ssl) (id : UInt8) (key : BGPSecKey) : Prop :=
  ∃ r, unregisterPrivateKey prm st id = some r ∧ r.readsFreed = false ∧
    Removed prm st r.store id key

/-- No record holds the buffer of the slot or is found for the key, and the slot that the key's AS
    number has an id that is not 0. -/
structure Recordless (st : Store ssl) (id : UInt8) (key : BGPSecKey) : Prop where
  buffer : ∀ r ∈ st.gRecords, keyDataAddr r.data ≠ (st.stEnbufEckey (slotOfId id)).enBuf
  not_found : restoreKeyInfo st key.ski key.asn = none
  id_ne : idOfSlot (prm.slotOf (prm.hash key.asn)) ≠ 0

/-! ### What a run leaves -/

/-- Some key of the AS number and the SKI decodes. -/
def Decodes (ssl : OpenSSL) (asn : UInt32) (ski : List UInt8) : Prop :=
  ∃ key ecKey, key.asn = asn ∧ key.ski = ski ∧ decodeKey ssl key = some (some ecKey)

/-- A slot without an EC key is empty, and records and live keys are of keys that were decoded. -/
structure HistoryOk (s : State ssl) : Prop where
  ids : IdsOk prm s
  empty : ∀ i, (s.store.stEnbufEckey i).ecKey = none → s.store.stEnbufEckey i = Slot.empty
  records : ∀ r ∈ s.store.gRecords, Decodes ssl r.asn r.ski
  live : ∀ e ∈ s.live, e.2.asn ≠ 0 ∧ Decodes ssl e.2.asn e.2.ski

variable {prm}

theorem HistoryOk.init : HistoryOk prm (State.init ssl) where
  ids := IdsOk.init prm
  empty := fun _ _ => rfl
  records := by
    intro r hr
    cases hr
  live := by
    intro e he
    cases he

theorem mem_gRecords_storeKey {st : Store ssl} {key : BGPSecKey} {alloc : Alloc} {expand : Bool}
    {i : Nat} {ecKey : ssl.ECKey} {r : Record} :
    r ∈ (storeKey (withRecord prm st key alloc expand) i ecKey key).gRecords ↔
      r ∈ st.gRecords ∨ alloc.ski = true ∧ r = newRecord prm key := by
  rw [gRecords_storeKey_withRecord, List.mem_append]
  cases alloc.ski with
  | true => simp
  | false => simp

theorem HistoryOk.register {s s' : State ssl} {key : BGPSecKey} {alloc : Alloc} {expand : Bool}
    (h : HistoryOk prm s) (hstep : step prm s (.register key alloc expand) = some s') :
    HistoryOk prm s' := by
  have hids := h.ids.step hstep
  obtain ⟨id, st', hregister, rfl⟩ := step_register prm hstep
  have hlive : key.asn ≠ 0 → Decodes ssl key.asn key.ski →
      ∀ e ∈ addLive s.live id key, e.2.asn ≠ 0 ∧ Decodes ssl e.2.asn e.2.ski := by
    intro hasn hdecodes e he
    rcases mem_addLive.mp he with ⟨-, rfl⟩ | he
    · exact ⟨hasn, hdecodes⟩
    · exact h.live e he
  rcases registerPrivateKey_cases prm hregister with
    ⟨rfl, rfl, -⟩ | ⟨hasn, r, hfind, rfl, rfl⟩ | ⟨hasn, -, ecKey, hdecode, rfl, rfl⟩
  · exact h
  · obtain ⟨hmem, hrasn, hrski⟩ := restoreKeyInfo_eq_some hfind
    have hdecodes := h.records r hmem
    rw [hrasn, hrski] at hdecodes
    exact ⟨hids, h.empty, h.records, hlive hasn hdecodes⟩
  · have hdecodes : Decodes ssl key.asn key.ski := ⟨key, ecKey, rfl, rfl, hdecode⟩
    obtain ⟨hslots, -⟩ := stEnbufEckey_withRecord prm s.store key alloc expand
    refine ⟨hids, fun i hi => ?_, fun r hr => ?_, hlive hasn hdecodes⟩
    · by_cases hne : i = writtenSlot prm key alloc
      · rw [hne, slot_storeKey_self] at hi
        cases hi
      · rw [slot_storeKey_of_ne _ hne, hslots] at hi ⊢
        exact h.empty i hi
    · rcases mem_gRecords_storeKey.mp hr with hr | ⟨-, rfl⟩
      · exact h.records r hr
      · exact hdecodes

theorem HistoryOk.unregister {s s' : State ssl} {id : UInt8} (h : HistoryOk prm s)
    (hstep : step prm s (.unregister id) = some s') : HistoryOk prm s' := by
  have hids := h.ids.step hstep
  obtain ⟨r, hunregister, rfl⟩ := step_unregister prm hstep
  have hlive : ∀ e ∈ s.live.filter (fun e => e.1 ≠ id), e.2.asn ≠ 0 ∧ Decodes ssl e.2.asn e.2.ski :=
    fun e he => h.live e (mem_unregistered.mp he).1
  obtain ⟨-, ⟨-, rfl⟩ | ⟨-, ecKeys, rfl, -⟩⟩ := unregisterPrivateKey_cases prm hunregister
  · exact ⟨hids, h.empty, h.records, hlive⟩
  · refine ⟨hids, fun i hi => ?_, fun r hr => ?_, hlive⟩
    · by_cases hne : i = slotOfId id
      · rw [hne]
        exact slot_withoutKey_self _ _ _
      · dsimp only at hi ⊢
        rw [slot_withoutKey_of_ne _ hne] at hi ⊢
        exact h.empty i hi
    · have hkept : r ∈ (slotLoop s.store (slotOfId id)).1 := hr
      rw [slotLoop, deleteRecords_kept] at hkept
      exact h.records r (List.mem_filter.mp hkept).1

theorem HistoryOk.of_path {ops : List Op} {s : State ssl}
    (hpath : Run.Path (step prm) (State.init ssl) ops s) : HistoryOk prm s := by
  refine Run.Path.invariant (C := fun _ _ => True) ?_ HistoryOk.init hpath
    (fun _ _ _ _ _ _ _ => trivial)
  intro t op t' h _ hstep
  cases op with
  | register key alloc expand => exact h.register hstep
  | unregister id => exact h.unregister hstep

/-! ### The loop -/

/-- Without a record of the buffer the loop leaves the records alone. -/
theorem slotLoop_of_buffer {st : Store ssl} {i : Nat}
    (hbuffer : ∀ r ∈ st.gRecords, keyDataAddr r.data ≠ (st.stEnbufEckey i).enBuf) :
    slotLoop st i = (st.gRecords, false) := by
  have hdeleted : ∀ r ∈ st.gRecords,
      isDeleted st.numBuckets i (st.stEnbufEckey i).enBuf r = false := by
    intro r hr
    rw [isDeleted, decide_eq_false_iff_not]
    exact fun hboth => hbuffer r hr hboth.2.symm
  refine Prod.ext ?_ ?_
  · rw [slotLoop, deleteRecords_kept, List.filter_eq_self]
    intro r hr
    rw [hdeleted r hr]
    rfl
  · refine Bool.eq_false_iff.mpr fun hread => ?_
    obtain ⟨r, hr, htrue⟩ := (deleteRecords_readsFreed_iff _ _).mp hread
    rw [hdeleted r hr] at htrue
    cases htrue

/-- A call that reads no freed record deletes none. -/
theorem unregisterPrivateKey_gRecords {st : Store ssl} {r : Unregistered ssl} {id : UInt8}
    (h : unregisterPrivateKey prm st id = some r) (hread : r.readsFreed = false) :
    r.store.gRecords = st.gRecords := by
  obtain ⟨-, ⟨-, rfl⟩ | ⟨-, ecKeys, rfl, -⟩⟩ := unregisterPrivateKey_cases prm h
  · rfl
  · change (slotLoop st (slotOfId id)).1 = st.gRecords
    rw [slotLoop, deleteRecords_kept, List.filter_eq_self]
    intro rec hrec
    rw [Bool.not_eq_true', ← Bool.not_eq_true]
    intro hdeleted
    exact absurd ((deleteRecords_readsFreed_iff _ _).mpr ⟨rec, hrec, hdeleted⟩)
      (Bool.eq_false_iff.mp hread)

/-! ### What is removed -/

/-- The id 0 does not sign. -/
theorem not_resolves_zero (st : Store ssl) (key : BGPSecKey) : ¬ Resolves prm st 0 key := by
  rintro ⟨ecKey, -, -, hsigns⟩
  have hzero := hsigns [] 0
  have hdefault : (0 : UInt8) ≠ apiBgpsecAlgoId256 := by decide
  simp only [stBgpsecReqSigningWithID, signWithKey, if_neg hdefault, or_true, if_true, ite_self,
    Option.some.injEq, Prod.mk.injEq, and_true] at hzero
  exact absurd hzero (by decide)

/-- A key that is not found is stored again, and signs unless its slot has the id 0. -/
theorem resolves_registered {st : Store ssl} (hok : SlotsOk st) {key : BGPSecKey}
    {ecKey : ssl.ECKey} (hasn : key.asn ≠ 0) (hnone : restoreKeyInfo st key.ski key.asn = none)
    (hdecode : decodeKey ssl key = some (some ecKey)) (expand : Bool) :
    (∃ id st', registerPrivateKey prm st (some key) ⟨true, true, true⟩ expand = some (id, st') ∧
      Resolves prm st' id key) ↔ idOfSlot (prm.slotOf (prm.hash key.asn)) ≠ 0 := by
  rw [registerPrivateKey_new prm hasn hnone hdecode expand]
  constructor
  · rintro ⟨id, st', heq, hresolves⟩ hzero
    cases heq
    rw [hzero] at hresolves
    exact not_resolves_zero _ _ hresolves
  · intro hid
    have hst : SlotsOk (hashAdd st (newRecord prm key) expand) := hok.congr rfl rfl
    exact ⟨_, _, rfl, resolves_storeKey hst (prm.slotOf_lt _) hid hdecode⟩

/-- Where no record is the key's, its slot and the records are as they have to be. -/
theorem HistoryOk.emptied {s : State ssl} {id : UInt8} (h : HistoryOk prm s)
    (hbuffer : ∀ r ∈ s.store.gRecords,
      keyDataAddr r.data ≠ (s.store.stEnbufEckey (slotOfId id)).enBuf)
    {r : Unregistered ssl} (hr : unregisterPrivateKey prm s.store id = some r) :
    r.readsFreed = false ∧ SlotsOk r.store ∧ r.store.gRecords = s.store.gRecords ∧
      r.store.stEnbufEckey (slotOfId id) = Slot.empty ∧
      ∀ j, j ≠ slotOfId id → r.store.stEnbufEckey j = s.store.stEnbufEckey j ∧
        keyAt r.store j = keyAt s.store j := by
  obtain ⟨-, ⟨hid, rfl⟩ | ⟨-, ecKeys, rfl, hfree⟩⟩ := unregisterPrivateKey_cases prm hr
  · refine ⟨rfl, h.ids.slots, rfl, h.empty _ ?_, fun j _ => ⟨rfl, rfl⟩⟩
    rw [Option.eq_none_iff_forall_ne_some]
    intro p hp
    exact hid (h.ids.slots.own_id _ p hp).symm
  · have hloop := slotLoop_of_buffer hbuffer
    refine ⟨congrArg Prod.snd hloop, h.ids.slots.withoutKey hfree, congrArg Prod.fst hloop,
      slot_withoutKey_self _ _ _, fun j hj => ⟨slot_withoutKey_of_ne _ hj _, ?_⟩⟩
    rw [keyAt_withoutKey h.ids.slots hfree, Function.update_of_ne hj]

variable (prm)

/-- In every state that a run reaches, unregistering a live id removes its key from both structures
    and nothing else, without a read of a freed record, exactly when there is no record of the key. -/
theorem unregisterPrivateKey_removes_iff {ops : List Op} {s : State ssl} {id : UInt8}
    {key : BGPSecKey} (hpath : Run.Path (step prm) (State.init ssl) ops s)
    (hlive : (id, key) ∈ s.live) :
    Removes prm s.store id key ↔ Recordless prm s.store id key := by
  have h := HistoryOk.of_path hpath
  obtain ⟨hasn, key', ecKey, hasn', hski', hdecode⟩ := h.live _ hlive
  dsimp only at hasn hasn' hski'
  constructor
  · rintro ⟨r, hr, hread, hremoved⟩
    have hsame := unregisterPrivateKey_gRecords hr hread
    have hnone : restoreKeyInfo r.store key.ski key.asn = none := by
      have hfound := hremoved.not_found
      rwa [hashKeyGetBGPSecKey, if_neg hasn, Option.map_eq_none_iff] at hfound
    have hbuffer : ∀ rec ∈ s.store.gRecords,
        keyDataAddr rec.data ≠ (s.store.stEnbufEckey (slotOfId id)).enBuf := by
      have hrecords := hremoved.records
      rw [hsame, eq_comm, List.filter_eq_self] at hrecords
      exact fun rec hrec => of_decide_eq_true (hrecords rec hrec)
    refine ⟨hbuffer, restoreKeyInfo_congr hsame _ _ ▸ hnone, ?_⟩
    obtain ⟨-, hslots, -⟩ := h.emptied hbuffer hr
    have hagain := hremoved.again key' ecKey false hasn' hski' hdecode
    rw [← hasn', ← hski'] at hnone
    rw [← hasn'] at hasn ⊢
    exact (resolves_registered hslots hasn hnone hdecode false).mp hagain
  · rintro ⟨hbuffer, hnone, hid⟩
    have hreadable := h.ids.slots.readable (slotOfId id)
    obtain ⟨r, hr⟩ := Option.isSome_iff_exists.mp
      (unregisterPrivateKey_isSome prm (h.ids.bound _ hlive) hreadable)
    obtain ⟨hread, hslots, hrecords, hslot, hothers⟩ := h.emptied hbuffer hr
    rw [← restoreKeyInfo_congr hrecords] at hnone
    refine ⟨r, hr, hread, hslot, ?_, hothers, ?_, ?_⟩
    · rw [hrecords, eq_comm, List.filter_eq_self]
      exact fun rec hrec => decide_eq_true (hbuffer rec hrec)
    · rw [hashKeyGetBGPSecKey, if_neg hasn, hnone, Option.map_none]
    · intro key'' ecKey' expand hasn'' hski'' hdecode'
      rw [← hasn'', ← hski''] at hnone
      rw [← hasn''] at hasn hid
      exact (resolves_registered hslots hasn hnone hdecode' expand).mpr hid

/-- A key for whose SKI there was no memory goes from its slot. -/
theorem unregisterPrivateKey_removes_recordless : ∃ s,
    Run.Path (step samplePrm) (State.init derSSL)
      [.register (sampleKey 5 1) ⟨true, true, false⟩ false] s ∧
      (1, sampleKey 5 1) ∈ s.live ∧ Removes samplePrm s.store 1 (sampleKey 5 1) := by
  have hpath : Run.Path (step samplePrm) (State.init derSSL)
      [.register (sampleKey 5 1) ⟨true, true, false⟩ false] _ := Run.Path.snoc Run.Path.nil rfl
  have hlive := List.mem_singleton_self ((1 : UInt8), sampleKey 5 1)
  refine ⟨_, hpath, hlive, (unregisterPrivateKey_removes_iff samplePrm hpath hlive).mpr ?_⟩
  refine ⟨?_, rfl, by decide⟩
  intro r hr
  cases hr

/-- In the states that the calls lead to, where no two live keys share a slot, unregistering a live id
    removes its key. -/
def AlwaysRemoves (ssl : OpenSSL) (prm : Params) (ops : List Op) : Prop :=
  ∀ s : State ssl, Run.Path (step prm) (State.init ssl) ops s →
    (∀ e ∈ s.live, ∀ e' ∈ s.live, slotOfId e.1 = slotOfId e'.1 → e = e') →
      ∀ e ∈ s.live, Removes prm s.store e.1 e.2

variable {prm}

theorem AlwaysRemoves.of_one {ops : List Op} {s : State ssl} {e : UInt8 × BGPSecKey}
    (h : AlwaysRemoves ssl prm ops) (hpath : Run.Path (step prm) (State.init ssl) ops s)
    (hlive : s.live = [e]) : Removes prm s.store e.1 e.2 := by
  refine h s hpath (fun e₁ he₁ e₂ he₂ _ => ?_) e (by simp [hlive])
  rw [hlive, List.mem_singleton] at he₁ he₂
  rw [he₁, he₂]

/-- The record of a key with the hash value 5 is read behind `free`, and that of a key with the hash
    value 65 stays: its slot is 65, while it is in bucket 1. -/
theorem unregisterPrivateKey_removes_neither :
    ¬ AlwaysRemoves derSSL samplePrm [sampleRegister 5 1] ∧
      ¬ AlwaysRemoves derSSL samplePrm [sampleRegister 65 1] := by
  constructor
  · intro h
    obtain ⟨r, hr, hread, -⟩ := h.of_one (Run.Path.snoc Run.Path.nil rfl) rfl
    cases hr
    cases hread
  · intro h
    obtain ⟨r, hr, -, hremoved⟩ := h.of_one (Run.Path.snoc Run.Path.nil rfl) rfl
    have hfound := hremoved.not_found
    cases hr
    cases hfound

end SrxNote.KeyStore
