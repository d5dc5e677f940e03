import SrxNote.KeyStore.Proofs.Find

/-!
# What a registration reports and hands back

An id of 0 stands for a failed registration, and the slot 255 and the failed
allocation of a SKI are where it does not (`registerPrivateKey_reports_iff`). The
scan for a record ends with the first one (`restoreKeyInfoWithID_finds_iff`). The
stored length of a key is that of an `EC_KEY`, and the one by which a stored key
is copied (`registerPublicKey_handsBack_iff`).
-/

namespace SrxNote.KeyStore
open SrxNote.Bgpsec SrxNote.Crypto

variable {ssl : OpenSSL} (prm : Params)

/-! ### The id that is returned -/

/-- The key can be found in the store. -/
def Registered (st : Store ssl) (key : Option BGPSecKey) : Prop :=
  ∃ k, key = some k ∧ (hashKeyGetBGPSecKey st k.asn k.ski).isSome

/-- The call returns, with 0 exactly for a key that is not registered afterwards, and then with the
    records and the table of slots as they were. -/
def ReportsRegistration (st : Store ssl) (key : Option BGPSecKey) (alloc : Alloc) (expand : Bool) :
    Prop :=
  ∃ id st', registerPrivateKey prm st key alloc expand = some (id, st') ∧
    (id = 0 ↔ ¬ Registered st' key) ∧
    (id = 0 → st'.gRecords = st.gRecords ∧ st'.stEnbufEckey = st.stEnbufEckey)

/-- There is nothing to register; or the key is found and its slot is not the last of 256; or it does
    not decode; or it decodes, there is memory for it, and its slot is not the last of 256. -/
def ReportCondition (st : Store ssl) (key : Option BGPSecKey) (alloc : Alloc) : Prop :=
  ∀ k, key = some k → k.asn ≠ 0 →
    match restoreKeyInfo st k.ski k.asn with
    | some r => prm.slotOf r.hashv ≠ 255
    | none =>
        match decodeKey ssl k with
        | none => False
        | some none => True
        | some (some _) => alloc = ⟨true, true, true⟩ ∧ prm.slotOf (prm.hash k.asn) ≠ 255

theorem idOfSlot_eq_zero_iff {i : Nat} (hi : i < prm.idNumMax) : idOfSlot i = 0 ↔ i = 255 := by
  constructor
  · intro hzero
    rw [← slotOfId_idOfSlot prm hi, hzero]
    decide
  · rintro rfl
    decide

theorem registered_iff {st : Store ssl} {key : BGPSecKey} (hasn : key.asn ≠ 0) :
    Registered st (some key) ↔ (restoreKeyInfo st key.ski key.asn).isSome := by
  simp [Registered, hashKeyGetBGPSecKey, hasn]

theorem not_registered_of_asn {st : Store ssl} {key : BGPSecKey} (hasn : key.asn = 0) :
    ¬ Registered st (some key) := by
  simp [Registered, hashKeyGetBGPSecKey, hasn]

/-- A new record is the one that is found for its key. -/
theorem registered_storeKey (st : Store ssl) {key : BGPSecKey} (hasn : key.asn ≠ 0) (alloc : Alloc)
    (expand : Bool) (hfind : restoreKeyInfo st key.ski key.asn = none) (i : Nat)
    (ecKey : ssl.ECKey) :
    Registered (storeKey (withRecord prm st key alloc expand) i ecKey key) (some key) ↔
      alloc.ski = true := by
  rw [registered_iff hasn]
  have hrecords := gRecords_storeKey_withRecord prm st key alloc expand i ecKey
  cases hski : alloc.ski with
  | false =>
      rw [hski] at hrecords
      rw [restoreKeyInfo_congr (by simpa using hrecords), hfind]
      simp
  | true =>
      rw [hski] at hrecords
      rw [restoreKeyInfo_append hrecords]
      simp [newRecord]

/-- The call on a key that decodes and is not found: without memory for the record it does not return,
    and without memory for the SKI it fails and returns 1. -/
theorem registerPrivateKey_decoded {st : Store ssl} {key : BGPSecKey} {ecKey : ssl.ECKey}
    (hasn : key.asn ≠ 0) (hfind : restoreKeyInfo st key.ski key.asn = none)
    (hdecode : decodeKey ssl key = some (some ecKey)) (alloc : Alloc) (expand : Bool) :
    registerPrivateKey prm st (some key) alloc expand =
      if alloc.bsKeyInfo ∧ alloc.record then
        some (idOfSlot (writtenSlot prm key alloc),
          storeKey (withRecord prm st key alloc expand) (writtenSlot prm key alloc) ecKey key)
      else none := by
  unfold registerPrivateKey
  dsimp only
  rw [if_neg hasn, hfind]
  dsimp only
  rw [hdecode]
  dsimp only
  obtain ⟨bsKeyInfo, record, ski⟩ := alloc
  cases bsKeyInfo <;> cases record <;> cases ski <;> rfl

theorem reports_decoded_iff {st : Store ssl} {key : BGPSecKey} {ecKey : ssl.ECKey}
    (hasn : key.asn ≠ 0) (hfind : restoreKeyInfo st key.ski key.asn = none)
    (hdecode : decodeKey ssl key = some (some ecKey)) (alloc : Alloc) (expand : Bool) :
    ReportsRegistration prm st (some key) alloc expand ↔
      alloc = ⟨true, true, true⟩ ∧ prm.slotOf (prm.hash key.asn) ≠ 255 := by
  have hcall := registerPrivateKey_decoded prm hasn hfind hdecode alloc expand
  have hregistered := fun i => registered_storeKey prm st hasn alloc expand hfind i ecKey
  by_cases hmemory : alloc.bsKeyInfo ∧ alloc.record
  · rw [if_pos hmemory] at hcall
    cases hski : alloc.ski with
    | false =>
        -- the id is 1 and the key has no record
        have hid : idOfSlot (writtenSlot prm key alloc) ≠ 0 := by
          rw [writtenSlot, hski, if_neg Bool.false_ne_true]
          decide
        have halloc : alloc ≠ ⟨true, true, true⟩ := by
          rintro rfl
          cases hski
        refine iff_of_false ?_ fun h => halloc h.1
        rintro ⟨id, st', hreturns, hzero, -⟩
        rw [hcall] at hreturns
        cases hreturns
        exact hid (hzero.mpr (by simp [hregistered, hski]))
    | true =>
        have halloc : alloc = ⟨true, true, true⟩ := by
          obtain ⟨bsKeyInfo, record, ski⟩ := alloc
          simp_all
        have hslot : writtenSlot prm key alloc = prm.slotOf (prm.hash key.asn) := by
          rw [writtenSlot, hski, if_pos rfl]
        have hid := idOfSlot_eq_zero_iff prm (prm.slotOf_lt (prm.hash key.asn))
        constructor
        · rintro ⟨id, st', hreturns, hzero, -⟩
          rw [hcall] at hreturns
          cases hreturns
          refine ⟨halloc, fun h255 => ?_⟩
          rw [hslot] at hzero
          exact hzero.mp (hid.mpr h255) ((hregistered _).mpr hski)
        · rintro ⟨-, h255⟩
          have hne : idOfSlot (writtenSlot prm key alloc) ≠ 0 := by
            rw [hslot]
            exact mt hid.mp h255
          refine ⟨_, _, hcall, iff_of_false hne ?_, fun hzero => absurd hzero hne⟩
          rw [not_not]
          exact (hregistered _).mpr hski
  · rw [if_neg hmemory] at hcall
    refine iff_of_false ?_ ?_
    · rintro ⟨id, st', hreturns, -⟩
      rw [hcall] at hreturns
      cases hreturns
    · rintro ⟨rfl, -⟩
      exact hmemory ⟨rfl, rfl⟩

/-- A failed registration is reported, and leaves the store as it was, exactly under
    `ReportCondition`. -/
theorem registerPrivateKey_reports_iff (st : Store ssl) (key : Option BGPSecKey) (alloc : Alloc)
    (expand : Bool) :
    ReportsRegistration prm st key alloc expand ↔ ReportCondition prm st key alloc := by
  cases key with
  | none =>
      refine iff_of_true ⟨0, st, rfl, ?_, fun _ => ⟨rfl, rfl⟩⟩ fun k hk => ?_
      · simp [Registered]
      · cases hk
  | some key =>
      by_cases hasn : key.asn = 0
      · refine iff_of_true ⟨0, st, ?_, ?_, fun _ => ⟨rfl, rfl⟩⟩ fun k hk hne => ?_
        · simp [registerPrivateKey, hasn]
        · simp [not_registered_of_asn hasn]
        · cases hk
          exact absurd hasn hne
      · have hcondition : ReportCondition prm st (some key) alloc ↔
            match restoreKeyInfo st key.ski key.asn with
            | some r => prm.slotOf r.hashv ≠ 255
            | none =>
                match decodeKey ssl key with
                | none => False
                | some none => True
                | some (some _) =>
                    alloc = ⟨true, true, true⟩ ∧ prm.slotOf (prm.hash key.asn) ≠ 255 := by
          constructor
          · intro h
            exact h key rfl hasn
          · intro h k hk _
            cases hk
            exact h
        rw [hcondition]
        cases hfind : restoreKeyInfo st key.ski key.asn with
        | some r =>
            have hregistered : Registered st (some key) := by simp [registered_iff hasn, hfind]
            have hid := idOfSlot_eq_zero_iff prm (prm.slotOf_lt r.hashv)
            simp [ReportsRegistration, registerPrivateKey_found prm hasn hfind, hregistered, hid]
        | none =>
            have hnot : ¬ Registered st (some key) := by simp [registered_iff hasn, hfind]
            cases hdecode : decodeKey ssl key with
            | none =>
                have hcall : registerPrivateKey prm st (some key) alloc expand = none := by
                  simp [registerPrivateKey, hasn, hfind, hdecode]
                simp [ReportsRegistration, hcall]
            | some decoded =>
                cases decoded with
                | none =>
                    have hcall : registerPrivateKey prm st (some key) alloc expand =
                        some (0, st) := by
                      simp [registerPrivateKey, hasn, hfind, hdecode]
                    simp [ReportsRegistration, hcall, hnot]
                | some ecKey => exact reports_decoded_iff prm hasn hfind hdecode alloc expand

/-- Without memory for the SKI the call fails, returns 1 and overwrites the first slot. -/
theorem registerPrivateKey_hides_failure :
    ¬ ReportsRegistration samplePrm (Store.init derSSL) (some (sampleKey 5 1)) ⟨true, true, false⟩
        false ∧
      ∃ st', registerPrivateKey samplePrm (Store.init derSSL) (some (sampleKey 5 1))
          ⟨true, true, false⟩ false = some (1, st') ∧
        ¬ Registered st' (some (sampleKey 5 1)) := by
  have hasn : (sampleKey 5 1).asn ≠ 0 := by decide
  have hfind : restoreKeyInfo (Store.init derSSL) (sampleKey 5 1).ski (sampleKey 5 1).asn = none :=
    rfl
  have hdecode : decodeKey derSSL (sampleKey 5 1) = some (some (List.replicate 31 0 ++ [1])) := rfl
  have hcall := registerPrivateKey_decoded samplePrm hasn hfind hdecode ⟨true, true, false⟩ false
  have hnot := mt (registered_storeKey samplePrm (Store.init derSSL) hasn ⟨true, true, false⟩ false
    hfind 0 (List.replicate 31 0 ++ [1])).mp (by decide)
  refine ⟨?_, _, hcall, hnot⟩
  rw [reports_decoded_iff samplePrm hasn hfind hdecode]
  decide

/-! ### The scan for a record -/

/-- The record has the AS number, the SKI and the hash value. -/
def Record.Matches (r : Record) (ski : List UInt8) (asn id : UInt32) : Prop :=
  r.asn = asn ∧ r.ski = ski ∧ r.hashv = id

/-- The scan returns a record exactly when some record matches, and then that one. -/
def ScanFinds (st : Store ssl) (ski : List UInt8) (asn id : UInt32) : Prop :=
  ∀ r, restoreKeyInfoWithID st ski asn id = some r ↔ r ∈ st.gRecords ∧ r.Matches ski asn id

theorem restoreKeyInfoWithID_eq_some {st : Store ssl} {ski : List UInt8} {asn id : UInt32}
    {r : Record} :
    restoreKeyInfoWithID st ski asn id = some r ↔
      st.gRecords.head? = some r ∧ r.Matches ski asn id := by
  rw [restoreKeyInfoWithID]
  cases st.gRecords with
  | nil => simp
  | cons s rest =>
      rw [List.head?_cons, Option.some.injEq]
      by_cases hkey : s.asn = asn ∧ s.ski = ski
      · by_cases hid : id = s.hashv
        · simp only [if_pos hkey, if_pos hid, Option.some.injEq]
          constructor
          · rintro rfl
            exact ⟨rfl, hkey.1, hkey.2, hid.symm⟩
          · exact And.left
        · simp only [if_pos hkey, if_neg hid]
          refine iff_of_false (by simp) ?_
          rintro ⟨rfl, -, -, hhashv⟩
          exact hid hhashv.symm
      · simp only [if_neg hkey]
        refine iff_of_false (by simp) ?_
        rintro ⟨rfl, hasn, hski, -⟩
        exact hkey ⟨hasn, hski⟩

/-- The scan finds what is to be found exactly when no record behind the first one matches. -/
theorem restoreKeyInfoWithID_finds_iff {st : Store ssl} (hdistinct : DistinctRecords st)
    (ski : List UInt8) (asn id : UInt32) :
    ScanFinds st ski asn id ↔ ∀ r ∈ st.gRecords.tail, ¬ r.Matches ski asn id := by
  rw [DistinctRecords] at hdistinct
  constructor
  · intro hfinds r htail hmatches
    have hfirst := (hfinds r).mpr ⟨List.mem_of_mem_tail htail, hmatches⟩
    obtain ⟨hhead, -⟩ := restoreKeyInfoWithID_eq_some.mp hfirst
    -- `r` stands at the head and behind it
    cases hrecords : st.gRecords with
    | nil => simp [hrecords] at htail
    | cons s rest =>
        rw [hrecords] at hhead htail hdistinct
        cases hhead
        rw [List.map_cons, List.nodup_cons] at hdistinct
        exact hdistinct.1 (List.mem_map_of_mem htail)
  · intro htail r
    rw [restoreKeyInfoWithID_eq_some]
    cases hrecords : st.gRecords with
    | nil => simp
    | cons s rest =>
        rw [hrecords, List.tail_cons] at htail
        rw [List.head?_cons, Option.some.injEq, List.mem_cons]
        constructor
        · rintro ⟨rfl, hmatches⟩
          exact ⟨Or.inl rfl, hmatches⟩
        · rintro ⟨rfl | hmem, hmatches⟩
          · exact ⟨rfl, hmatches⟩
          · exact absurd hmatches (htail r hmem)

/-- A store with the records of these keys. -/
def storeWith (keys : List BGPSecKey) : Store derSSL :=
  { Store.init derSSL with gRecords := keys.map (newRecord samplePrm) }

def twoRecords : Store derSSL := storeWith [sampleKey 5 1, sampleKey 6 2]

theorem twoRecords_distinct : DistinctRecords twoRecords := by
  rw [DistinctRecords]
  decide

/-- The first record is found. -/
theorem twoRecords_first : ScanFinds twoRecords (sampleKey 5 1).ski 5 5 := by
  refine (restoreKeyInfoWithID_finds_iff twoRecords_distinct _ _ _).mpr ?_
  intro r hr
  obtain rfl : r = newRecord samplePrm (sampleKey 6 2) := List.mem_singleton.mp hr
  exact fun hmatches => absurd hmatches.1 (by decide)

/-- The second one is not. -/
theorem twoRecords_second :
    DistinctRecords twoRecords ∧ restoreKeyInfoWithID twoRecords (sampleKey 6 2).ski 6 6 = none ∧
      ¬ ScanFinds twoRecords (sampleKey 6 2).ski 6 6 := by
  have hscan : restoreKeyInfoWithID twoRecords (sampleKey 6 2).ski 6 6 = none := by decide
  refine ⟨twoRecords_distinct, hscan, fun hfinds => ?_⟩
  have hsecond := (hfinds (newRecord samplePrm (sampleKey 6 2))).mpr
    ⟨List.mem_cons_of_mem _ (List.mem_singleton.mpr rfl), rfl, rfl, rfl⟩
  rw [hscan] at hsecond
  cases hsecond

/-! ### A stored key for a caller -/

/-- The caller's key has the stored key's length afterwards, and its octets in the buffer that was
    allocated. -/
def HandsBack (st : Store ssl) (outKey key : BGPSecKey) (malloc : Option Nat) (alloc : Alloc)
    (expand : Bool) : Prop :=
  ∃ id outKey' st' addr,
    registerPublicKey prm st (some outKey) malloc alloc expand = some (id, some outKey', st') ∧
      malloc = some addr ∧ outKey'.keyLength = key.keyLength ∧
      outKey'.keyData = key.keyData.map fun buf => ⟨addr, buf.octets⟩

/-- The call on a key without data whose record is found. -/
theorem registerPublicKey_found {st : Store ssl} {outKey : BGPSecKey} {r : Record}
    (hasn : outKey.asn ≠ 0) (hfind : restoreKeyInfo st outKey.ski outKey.asn = some r)
    (malloc : Option Nat) (alloc : Alloc) (expand : Bool) :
    registerPublicKey prm st (some outKey) malloc alloc expand =
      (copyStoredKey r.data outKey malloc).map fun key =>
        (idOfSlot (prm.slotOf r.hashv), some key, st) := by
  simp only [registerPublicKey, if_neg hasn, hfind]

/-- A stored key comes back as it was given exactly when it is as long as an `EC_KEY`, and there is
    memory for it. -/
theorem registerPublicKey_handsBack_iff {st : Store ssl} {key outKey : BGPSecKey} {buf : KeyBuffer}
    (hdata : key.keyData = some buf) (hlength : buf.octets.length = key.keyLength.toNat)
    (hasn : outKey.asn ≠ 0)
    (hfind : restoreKeyInfo st outKey.ski outKey.asn = some (newRecord prm key))
    (hnoData : outKey.keyData = none) (hnoLength : outKey.keyLength = 0) (malloc : Option Nat)
    (alloc : Alloc) (expand : Bool) :
    HandsBack prm st outKey key malloc alloc expand ↔
      key.keyLength = prm.sizeofEcKey ∧ malloc.isSome := by
  rw [HandsBack, registerPublicKey_found prm hasn hfind]
  cases malloc with
  | none => simp
  | some addr =>
      have hcopy : copyStoredKey (newRecord prm key).data outKey (some addr) =
          (Buffer.read (some buf.octets) prm.sizeofEcKey.toNat).map fun octets =>
            { outKey with keyData := some ⟨addr, octets⟩, keyLength := prm.sizeofEcKey } := by
        simp [copyStoredKey, newRecord, hdata, hnoData, hnoLength, Function.comp_def]
      rw [hcopy, hdata]
      constructor
      · rintro ⟨id, outKey', st', addr', hcall, -, hlen, -⟩
        simp only [Option.map_eq_some_iff] at hcall
        obtain ⟨_, ⟨octets, -, rfl⟩, hpair⟩ := hcall
        cases hpair
        exact ⟨hlen.symm, rfl⟩
      · rintro ⟨hlen, -⟩
        have hread : Buffer.read (some buf.octets) prm.sizeofEcKey.toNat = some buf.octets := by
          rw [Buffer.read, ← hlen, ← hlength, if_pos (Nat.le_refl _), List.take_length]
        rw [hread]
        exact ⟨_, _, _, addr, rfl, rfl, hlen.symm, rfl⟩

/-- A caller's key without data. -/
def emptyKey (asn : UInt32) (secret : UInt8) : BGPSecKey :=
  { sampleKey asn secret with keyLength := 0, keyData := none }

/-- A key in a buffer as long as an `EC_KEY`. -/
def paddedKey : BGPSecKey :=
  { sampleKey 5 1 with keyLength := 56, keyData := some ⟨4096, List.replicate 56 1⟩ }

theorem paddedKey_handed_back :
    HandsBack samplePrm (storeWith [paddedKey]) (emptyKey 5 1) paddedKey (some 8192)
      ⟨true, true, true⟩ false := by
  have hdata : paddedKey.keyData = some ⟨4096, List.replicate 56 1⟩ := rfl
  have hlength : (List.replicate 56 (1 : UInt8)).length = paddedKey.keyLength.toNat := by decide
  have hasn : (emptyKey 5 1).asn ≠ 0 := by decide
  have hfind : restoreKeyInfo (storeWith [paddedKey]) (emptyKey 5 1).ski (emptyKey 5 1).asn =
      some (newRecord samplePrm paddedKey) := rfl
  exact (registerPublicKey_handsBack_iff samplePrm hdata hlength hasn hfind rfl rfl (some 8192)
    ⟨true, true, true⟩ false).mpr ⟨rfl, rfl⟩

/-- The DER of a P-256 key is shorter: the copy reads behind its buffer. -/
theorem sampleKey_read_behind :
    restoreKeyInfo (storeWith [sampleKey 5 1]) (emptyKey 5 1).ski (emptyKey 5 1).asn =
        some (newRecord samplePrm (sampleKey 5 1)) ∧
      registerPublicKey samplePrm (storeWith [sampleKey 5 1]) (some (emptyKey 5 1)) (some 8192)
        ⟨true, true, true⟩ false = none ∧
      ¬ HandsBack samplePrm (storeWith [sampleKey 5 1]) (emptyKey 5 1) (sampleKey 5 1) (some 8192)
        ⟨true, true, true⟩ false := by
  have hcall : registerPublicKey samplePrm (storeWith [sampleKey 5 1]) (some (emptyKey 5 1))
      (some 8192) ⟨true, true, true⟩ false = none := rfl
  refine ⟨rfl, hcall, ?_⟩
  rintro ⟨id, outKey', st', addr, hreturns, -⟩
  rw [hcall] at hreturns
  cases hreturns

end SrxNote.KeyStore
