import SrxNote.KeyStore.Proofs.Steps

/-!
# Finding registered keys again

The records are found by their AS number alone, and the SKI is compared with the
one record that is found. A second key of an AS therefore hides the first. Along
a run of registrations the records stay distinct and every registered key stays
findable exactly when no registration brings a second key of an AS.
-/

namespace SrxNote.KeyStore
open SrxNote.Bgpsec SrxNote.Crypto

variable {ssl : OpenSSL} (prm : Params)

/-- A call of `registerPrivateKey`. -/
structure Registration where
  key : BGPSecKey
  alloc : Alloc
  expand : Bool

def registerStep (s : State ssl) (call : Registration) : Option (State ssl) :=
  step prm s (.register call.key call.alloc call.expand)

/-- There is at most one record for an AS number and a SKI. -/
def DistinctRecords (st : Store ssl) : Prop :=
  (st.gRecords.map fun r => (r.asn, r.ski)).Nodup

/-- The record of a key is found, and registering such a key again returns the id and adds
    nothing. -/
def Findable (st : Store ssl) (id : UInt8) (key : BGPSecKey) : Prop :=
  (∃ r, restoreKeyInfo st key.ski key.asn = some r ∧ r.asn = key.asn ∧ r.ski = key.ski) ∧
    ∀ key' alloc expand, key'.asn = key.asn → key'.ski = key.ski →
      registerPrivateKey prm st (some key') alloc expand = some (id, st)

/-- The records are distinct, and all registered keys are found again. -/
def AllFindable (s : State ssl) : Prop :=
  DistinctRecords s.store ∧ ∀ e ∈ s.live, Findable prm s.store e.1 e.2

/-- A key that is not found and decodes is the first one of its AS, is not recorded, and gets memory
    for its SKI. -/
def FirstOfAs (s : State ssl) (call : Registration) : Prop :=
  call.key.asn ≠ 0 → restoreKeyInfo s.store call.key.ski call.key.asn = none →
    ∀ ecKey, decodeKey ssl call.key = some (some ecKey) →
      call.alloc.ski = true ∧ (∀ e ∈ s.live, e.2.asn ≠ call.key.asn) ∧
        ∀ r ∈ s.store.gRecords, (r.asn, r.ski) ≠ (call.key.asn, call.key.ski)

/-- Live keys have an AS number. -/
def LiveAsn (s : State ssl) : Prop := ∀ e ∈ s.live, e.2.asn ≠ 0

variable {prm}

theorem findable_iff {st : Store ssl} {id : UInt8} {key : BGPSecKey} (hasn : key.asn ≠ 0) :
    Findable prm st id key ↔
      ∃ r, restoreKeyInfo st key.ski key.asn = some r ∧ id = idOfSlot (prm.slotOf r.hashv) := by
  constructor
  · rintro ⟨⟨r, hfind, -, -⟩, hagain⟩
    have hid := hagain key ⟨true, true, true⟩ false rfl rfl
    rw [registerPrivateKey_found prm hasn hfind] at hid
    exact ⟨r, hfind, (Prod.mk.inj (Option.some.inj hid)).1.symm⟩
  · rintro ⟨r, hfind, rfl⟩
    obtain ⟨-, hr⟩ := restoreKeyInfo_eq_some hfind
    refine ⟨⟨r, hfind, hr⟩, ?_⟩
    intro key' alloc expand hasn' hski'
    rw [← hasn'] at hasn
    rw [← hasn', ← hski'] at hfind
    exact registerPrivateKey_found prm hasn hfind alloc expand

/-- Whether a key is findable depends on the records only. -/
theorem Findable.congr {st st' : Store ssl} {id : UInt8} {key : BGPSecKey} (hasn : key.asn ≠ 0)
    (hfind : restoreKeyInfo st' key.ski key.asn = restoreKeyInfo st key.ski key.asn)
    (h : Findable prm st id key) : Findable prm st' id key := by
  rw [findable_iff hasn, hfind]
  exact (findable_iff hasn).mp h

theorem LiveAsn.addLive {s : State ssl} (h : LiveAsn s) (st : Store ssl) (id : UInt8)
    {key : BGPSecKey} (hasn : key.asn ≠ 0) : LiveAsn ⟨st, addLive s.live id key⟩ := by
  intro e he
  rcases mem_addLive.mp he with ⟨-, rfl⟩ | he
  · exact hasn
  · exact h e he

/-! ### A new key -/

/-- A key without a record is not found again, although it was given an id. -/
theorem not_findable_without_record {s : State ssl} {st : Store ssl} {key : BGPSecKey}
    (hfind : restoreKeyInfo s.store key.ski key.asn = none)
    (hrecords : st.gRecords = s.store.gRecords) :
    ¬ AllFindable prm ⟨st, addLive s.live (idOfSlot 0) key⟩ := by
  rintro ⟨-, hall⟩
  have hmem : (idOfSlot 0, key) ∈ addLive s.live (idOfSlot 0) key :=
    mem_addLive.mpr (Or.inl ⟨by decide, rfl⟩)
  obtain ⟨⟨r, hfound, -⟩, -⟩ := hall _ hmem
  rw [restoreKeyInfo_congr hrecords, hfind] at hfound
  cases hfound

theorem distinctRecords_append {st st' : Store ssl} {r : Record}
    (h : st'.gRecords = st.gRecords ++ [r]) (hdistinct : DistinctRecords st) :
    DistinctRecords st' ↔ ∀ r' ∈ st.gRecords, (r'.asn, r'.ski) ≠ (r.asn, r.ski) := by
  unfold DistinctRecords at *
  rw [h, List.map_append, List.map_singleton, List.nodup_append]
  simp [hdistinct]

/-- A new record keeps the others findable exactly when they are of other ASes. -/
theorem allFindable_new {s : State ssl} (hlive : LiveAsn s) (hall : AllFindable prm s)
    {st : Store ssl} {key : BGPSecKey} (hasn : key.asn ≠ 0)
    (hfind : restoreKeyInfo s.store key.ski key.asn = none)
    (hrecords : st.gRecords = s.store.gRecords ++ [newRecord prm key]) :
    AllFindable prm ⟨st, addLive s.live (idOfSlot (prm.slotOf (prm.hash key.asn))) key⟩ ↔
      (∀ e ∈ s.live, e.2.asn ≠ key.asn) ∧
        ∀ r ∈ s.store.gRecords, (r.asn, r.ski) ≠ (key.asn, key.ski) := by
  have happend : ∀ ski asn, restoreKeyInfo st ski asn =
      if key.asn = asn then (if key.ski = ski then some (newRecord prm key) else none)
      else restoreKeyInfo s.store ski asn := restoreKeyInfo_append hrecords
  constructor
  · rintro ⟨hdistinct, hfindable⟩
    refine ⟨?_, (distinctRecords_append hrecords hall.1).mp hdistinct⟩
    intro e he hsame
    -- the new record is what is found for the AS, and its SKI is another one
    obtain ⟨⟨r, hfound, -⟩, -⟩ := hfindable e (mem_addLive.mpr (Or.inr he))
    obtain ⟨⟨r', hfound', -⟩, -⟩ := hall.2 e he
    rw [happend, if_pos hsame.symm] at hfound
    have hski : key.ski = e.2.ski := by
      by_contra hne
      rw [if_neg hne] at hfound
      cases hfound
    rw [hsame, ← hski, hfind] at hfound'
    cases hfound'
  · rintro ⟨hother, hfresh⟩
    refine ⟨(distinctRecords_append hrecords hall.1).mpr hfresh, ?_⟩
    intro e he
    rcases mem_addLive.mp he with ⟨-, rfl⟩ | he
    · apply (findable_iff hasn).mpr
      refine ⟨newRecord prm key, ?_, rfl⟩
      rw [happend, if_pos rfl, if_pos rfl]
    · apply (hall.2 e he).congr (hlive e he)
      rw [happend, if_neg (Ne.symm (hother e he))]

/-! ### The steps -/

theorem registerStep_findable {s s' : State ssl} {call : Registration} (hlive : LiveAsn s)
    (hall : AllFindable prm s) (hstep : registerStep prm s call = some s') :
    LiveAsn s' ∧ (AllFindable prm s' ↔ FirstOfAs s call) := by
  obtain ⟨key, alloc, expand⟩ := call
  obtain ⟨id, st', hregister, rfl⟩ := step_register prm hstep
  rcases registerPrivateKey_cases prm hregister with
    ⟨rfl, rfl, hreason⟩ | ⟨hasn, r, hfind, rfl, rfl⟩ | ⟨hasn, hfind, ecKey, hdecode, rfl, rfl⟩
  · refine ⟨hlive, iff_of_true hall ?_⟩
    intro hasn hfind ecKey hdecode
    rcases hreason with hzero | ⟨-, hnull⟩
    · exact absurd hzero hasn
    · rw [hnull] at hdecode
      cases hdecode
  · refine ⟨hlive.addLive _ _ hasn, iff_of_true ⟨hall.1, ?_⟩ ?_⟩
    · intro e he
      rcases mem_addLive.mp he with ⟨-, rfl⟩ | he
      · exact (findable_iff hasn).mpr ⟨r, hfind, rfl⟩
      · exact hall.2 e he
    · intro _ hnone
      dsimp only at hnone
      rw [hfind] at hnone
      cases hnone
  · refine ⟨hlive.addLive _ _ hasn, ?_⟩
    have hrecords := gRecords_storeKey_withRecord prm s.store key alloc expand
      (writtenSlot prm key alloc) ecKey
    have hcond : FirstOfAs s ⟨key, alloc, expand⟩ ↔
        alloc.ski = true ∧ (∀ e ∈ s.live, e.2.asn ≠ key.asn) ∧
          ∀ r ∈ s.store.gRecords, (r.asn, r.ski) ≠ (key.asn, key.ski) := by
      constructor
      · intro h
        exact h hasn hfind ecKey hdecode
      · intro h _ _ _ _
        exact h
    rw [hcond]
    by_cases hski : alloc.ski = true
    · rw [if_pos hski] at hrecords
      have hslot : writtenSlot prm key alloc = prm.slotOf (prm.hash key.asn) := if_pos hski
      rw [hslot] at hrecords ⊢
      rw [allFindable_new hlive hall hasn hfind hrecords]
      simp only [hski, true_and]
    · rw [if_neg hski, List.append_nil] at hrecords
      have hslot : writtenSlot prm key alloc = 0 := if_neg hski
      rw [hslot] at hrecords ⊢
      exact iff_of_false (not_findable_without_record hfind hrecords) fun h => hski h.1

variable (prm)

/-- Along a run of registrations from the empty store the records are distinct and every registered
    key is found again exactly when every key that is stored is the first one of its AS. -/
theorem registerPrivateKey_findable_iff (calls : List Registration) :
    Run.Always (registerStep prm) (AllFindable prm) (State.init ssl) calls ↔
      Run.EachStep (registerStep prm) FirstOfAs (State.init ssl) calls := by
  refine Run.always_iff_eachStep (fun _ _ _ => registerStep_findable) ?_ ?_ calls
  · intro e he
    cases he
  · refine ⟨List.nodup_nil, ?_⟩
    intro e he
    cases he

/-- The registration of a sample key. -/
def sampleCall (asn : UInt32) (secret : UInt8) : Registration :=
  ⟨sampleKey asn secret, ⟨true, true, true⟩, false⟩

/-- The second key of an AS hides the first: it is not found any more. -/
theorem registerPrivateKey_hides :
    ¬ Run.Always (registerStep samplePrm) (AllFindable samplePrm) (State.init derSSL)
      [sampleCall 65001 1, sampleCall 65001 2] := by
  intro h
  have hpath : Run.Path (registerStep samplePrm) (State.init derSSL)
      [sampleCall 65001 1, sampleCall 65001 2] _ :=
    Run.Path.snoc (Run.Path.snoc Run.Path.nil rfl) rfl
  obtain ⟨-, hall⟩ := h _ _ List.prefix_rfl hpath
  obtain ⟨⟨r, hfound, -⟩, -⟩ := hall (234, sampleKey 65001 1)
    (List.mem_cons_of_mem _ (List.mem_singleton_self _))
  cases hfound

end SrxNote.KeyStore
