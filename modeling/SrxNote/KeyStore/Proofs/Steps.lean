import Mathlib.Data.Nat.Bitwise
import SrxNote.KeyStore.Store
import SrxNote.Misc.Run

/-!
# What a call can do to the store

One lemma for each function of the store that says everything a call of it can
do. The proofs about runs use these and never unfold the functions.
-/

namespace SrxNote.KeyStore
open SrxNote.Bgpsec SrxNote.Crypto

variable {ssl : OpenSSL} (prm : Params)

/-! ### Slots and ids -/

/-- The slot of an id. -/
def slotOfId (id : UInt8) : Nat := (id - retIdOffset).toNat

theorem Params.idNumMax_le : prm.idNumMax ≤ 256 :=
  Nat.pow_le_pow_right (by decide) prm.idBits_le

theorem Params.idNumMax_pos : 0 < prm.idNumMax := Nat.two_pow_pos prm.idBits

theorem Params.slotOf_lt (hashv : UInt32) : prm.slotOf hashv < prm.idNumMax := by
  rw [Params.slotOf, Params.idNumMax, Nat.and_two_pow_sub_one_eq_mod]
  exact Nat.mod_lt _ (Nat.two_pow_pos _)

theorem slotOfId_idOfSlot {i : Nat} (hi : i < prm.idNumMax) : slotOfId (idOfSlot i) = i := by
  have hle := prm.idNumMax_le
  rw [slotOfId, idOfSlot, UInt8.add_sub_cancel, UInt8.toNat_ofNat', Nat.mod_eq_of_lt (by omega)]

theorem slotOfId_inj {id id' : UInt8} (h : slotOfId id = slotOfId id') : id = id' := by
  have hsub : id - retIdOffset = id' - retIdOffset := UInt8.toNat_inj.mp h
  rw [← UInt8.sub_add_cancel id retIdOffset, hsub, UInt8.sub_add_cancel]

/-! ### The table -/

theorem hashFind_append (records : List Record) (r : Record) (asn : UInt32) :
    hashFind (records ++ [r]) asn = if r.asn = asn then some r else hashFind records asn := by
  rw [hashFind, List.reverse_append, List.reverse_singleton, List.singleton_append,
    List.find?_cons]
  by_cases h : r.asn = asn
  · simp [h]
  · simp [h, hashFind]

theorem hashFind_eq_some {records : List Record} {asn : UInt32} {r : Record}
    (h : hashFind records asn = some r) : r ∈ records ∧ r.asn = asn := by
  have hmem := List.mem_of_find?_eq_some h
  have hasn := List.find?_some h
  exact ⟨List.mem_reverse.mp hmem, of_decide_eq_true hasn⟩

theorem restoreKeyInfo_eq_some {st : Store ssl} {ski : List UInt8} {asn : UInt32} {r : Record}
    (h : restoreKeyInfo st ski asn = some r) : r ∈ st.gRecords ∧ r.asn = asn ∧ r.ski = ski := by
  unfold restoreKeyInfo at h
  split at h
  · cases h
  · rename_i out hfind
    split at h
    · rename_i hski
      cases h
      exact ⟨(hashFind_eq_some hfind).1, (hashFind_eq_some hfind).2, hski⟩
    · cases h

/-- What `restoreKeyInfo` finds depends on the records only. -/
theorem restoreKeyInfo_congr {st st' : Store ssl} (h : st'.gRecords = st.gRecords)
    (ski : List UInt8) (asn : UInt32) : restoreKeyInfo st' ski asn = restoreKeyInfo st ski asn := by
  rw [restoreKeyInfo, restoreKeyInfo, h]

/-- A new last record is found under its own AS number and changes nothing for the others. -/
theorem restoreKeyInfo_append {st st' : Store ssl} {r : Record}
    (h : st'.gRecords = st.gRecords ++ [r]) (ski : List UInt8) (asn : UInt32) :
    restoreKeyInfo st' ski asn =
      if r.asn = asn then (if r.ski = ski then some r else none)
      else restoreKeyInfo st ski asn := by
  rw [restoreKeyInfo, h, hashFind_append]
  by_cases hasn : r.asn = asn
  · simp only [if_pos hasn]
  · simp only [if_neg hasn]
    rfl

/-! ### `registerPrivateKey` -/

/-- The slot that a new key is written to. -/
def writtenSlot (key : BGPSecKey) (alloc : Alloc) : Nat :=
  if alloc.ski then prm.slotOf (prm.hash key.asn) else 0

/-- The store with the record of a new key, when its SKI could be allocated. -/
def withRecord (st : Store ssl) (key : BGPSecKey) (alloc : Alloc) (expand : Bool) : Store ssl :=
  if alloc.ski then hashAdd st (newRecord prm key) expand else st

theorem writtenSlot_lt (key : BGPSecKey) (alloc : Alloc) :
    writtenSlot prm key alloc < prm.idNumMax := by
  unfold writtenSlot
  split
  · exact prm.slotOf_lt _
  · exact prm.idNumMax_pos

/-- The records after a new key. -/
theorem gRecords_storeKey_withRecord (st : Store ssl) (key : BGPSecKey) (alloc : Alloc)
    (expand : Bool) (i : Nat) (ecKey : ssl.ECKey) :
    (storeKey (withRecord prm st key alloc expand) i ecKey key).gRecords =
      st.gRecords ++ if alloc.ski then [newRecord prm key] else [] := by
  unfold withRecord
  split
  · rfl
  · exact (List.append_nil _).symm

theorem inputKeyInfo_eq_some {st : Store ssl} {key : BGPSecKey} {alloc : Alloc} {expand : Bool}
    {result : Option Nat × Store ssl}
    (h : inputKeyInfo prm st key alloc expand = some result) :
    result.1.getD 0 = writtenSlot prm key alloc ∧
      result.2 = withRecord prm st key alloc expand := by
  unfold inputKeyInfo at h
  split at h
  · cases h
  · split at h
    · rename_i hski
      cases h
      simp [writtenSlot, withRecord, hski]
    · rename_i hski
      cases h
      simp [writtenSlot, withRecord, not_not.mp hski]

/-- A key is not registered, found, or new. -/
theorem registerPrivateKey_cases {st st' : Store ssl} {key : BGPSecKey} {alloc : Alloc}
    {expand : Bool} {id : UInt8}
    (h : registerPrivateKey prm st (some key) alloc expand = some (id, st')) :
    (id = 0 ∧ st' = st ∧ (key.asn = 0 ∨
      restoreKeyInfo st key.ski key.asn = none ∧ decodeKey ssl key = some none)) ∨
    (key.asn ≠ 0 ∧ ∃ r, restoreKeyInfo st key.ski key.asn = some r ∧
      id = idOfSlot (prm.slotOf r.hashv) ∧ st' = st) ∨
    (key.asn ≠ 0 ∧ restoreKeyInfo st key.ski key.asn = none ∧ ∃ ecKey,
      decodeKey ssl key = some (some ecKey) ∧ id = idOfSlot (writtenSlot prm key alloc) ∧
      st' = storeKey (withRecord prm st key alloc expand) (writtenSlot prm key alloc) ecKey key) := by
  unfold registerPrivateKey at h
  dsimp only at h
  by_cases hasn : key.asn = 0
  · rw [if_pos hasn] at h
    cases h
    exact Or.inl ⟨rfl, rfl, Or.inl hasn⟩
  · rw [if_neg hasn] at h
    cases hfind : restoreKeyInfo st key.ski key.asn with
    | some r =>
        rw [hfind] at h
        cases h
        exact Or.inr (Or.inl ⟨hasn, r, rfl, rfl, rfl⟩)
    | none =>
        rw [hfind] at h
        dsimp only at h
        cases hdecode : decodeKey ssl key with
        | none =>
            rw [hdecode] at h
            cases h
        | some decoded =>
            rw [hdecode] at h
            cases decoded with
            | none =>
                cases h
                exact Or.inl ⟨rfl, rfl, Or.inr ⟨rfl, rfl⟩⟩
            | some ecKey =>
                dsimp only at h
                refine Or.inr (Or.inr ⟨hasn, rfl, ecKey, rfl, ?_⟩)
                cases hinput : inputKeyInfo prm st key alloc expand with
                | none =>
                    rw [hinput] at h
                    cases h
                | some result =>
                    rw [hinput] at h
                    obtain ⟨hslot, hstore⟩ := inputKeyInfo_eq_some prm hinput
                    cases h
                    rw [hslot, hstore]
                    exact ⟨rfl, rfl⟩

/-- A key whose record is found is not registered again. -/
theorem registerPrivateKey_found {st : Store ssl} {key : BGPSecKey} {r : Record}
    (hasn : key.asn ≠ 0) (hfind : restoreKeyInfo st key.ski key.asn = some r) (alloc : Alloc)
    (expand : Bool) :
    registerPrivateKey prm st (some key) alloc expand =
      some (idOfSlot (prm.slotOf r.hashv), st) := by
  unfold registerPrivateKey
  dsimp only
  rw [if_neg hasn, hfind]

/-- A key that is not found, decodes, and gets its memory is stored. -/
theorem registerPrivateKey_new {st : Store ssl} {key : BGPSecKey} {ecKey : ssl.ECKey}
    (hasn : key.asn ≠ 0) (hfind : restoreKeyInfo st key.ski key.asn = none)
    (hdecode : decodeKey ssl key = some (some ecKey)) (expand : Bool) :
    registerPrivateKey prm st (some key) ⟨true, true, true⟩ expand =
      some (idOfSlot (prm.slotOf (prm.hash key.asn)),
        storeKey (hashAdd st (newRecord prm key) expand) (prm.slotOf (prm.hash key.asn)) ecKey
          key) := by
  unfold registerPrivateKey
  dsimp only
  rw [if_neg hasn, hfind]
  dsimp only
  rw [hdecode]
  rfl

/-! ### `unregisterPrivateKey` -/

theorem deleteRecords_kept (deleted : Record → Bool) (records : List Record) :
    (deleteRecords deleted records).1 = records.filter fun r => !deleted r := by
  induction records with
  | nil => rfl
  | cons r records ih =>
      rw [deleteRecords]
      cases hr : deleted r <;> simp [hr, ih]

/-- A freed record is read exactly when one is deleted. -/
theorem deleteRecords_readsFreed_iff (deleted : Record → Bool) (records : List Record) :
    (deleteRecords deleted records).2 = true ↔ ∃ r ∈ records, deleted r = true := by
  induction records with
  | nil => simp [deleteRecords]
  | cons r records ih =>
      rw [deleteRecords]
      cases hr : deleted r <;> simp [hr, ih]

/-- The loop of `unregisterPrivateKey` for a slot. -/
def slotLoop (st : Store ssl) (i : Nat) : List Record × Bool :=
  deleteRecords (isDeleted st.numBuckets i (st.stEnbufEckey i).enBuf) st.gRecords

/-- The store without the key of a slot. -/
def withoutKey (st : Store ssl) (i : Nat) (ecKeys : Heap ssl.ECKey) : Store ssl :=
  { st with
    gRecords := (slotLoop st i).1
    stEnbufEckey := Function.update st.stEnbufEckey i Slot.empty
    ecKeys := ecKeys }

/-- The EC key of a slot, if there is one, is freed. -/
def FreesKeyOf (st : Store ssl) (i : Nat) (ecKeys : Heap ssl.ECKey) : Prop :=
  ((st.stEnbufEckey i).ecKey = none ∧ ecKeys = st.ecKeys) ∨
    ∃ p, (st.stEnbufEckey i).ecKey = some p ∧ st.ecKeys.free p = some ecKeys

/-- An id whose slot holds another number changes nothing; else the slot is emptied, and its EC key,
    if there is one, is freed. -/
theorem unregisterPrivateKey_cases {st : Store ssl} {r : Unregistered ssl} {id : UInt8}
    (h : unregisterPrivateKey prm st id = some r) :
    slotOfId id < prm.idNumMax ∧
    ((slotOfId id ≠ (st.stEnbufEckey (slotOfId id)).id ∧ r = ⟨st, false⟩) ∨
      (slotOfId id = (st.stEnbufEckey (slotOfId id)).id ∧ ∃ ecKeys,
        r = ⟨withoutKey st (slotOfId id) ecKeys, (slotLoop st (slotOfId id)).2⟩ ∧
          FreesKeyOf st (slotOfId id) ecKeys)) := by
  unfold unregisterPrivateKey at h
  change (if prm.idNumMax ≤ slotOfId id then none
    else if slotOfId id ≠ (st.stEnbufEckey (slotOfId id)).id then some ⟨st, false⟩ else _) =
      some r at h
  by_cases hbound : prm.idNumMax ≤ slotOfId id
  · rw [if_pos hbound] at h
    cases h
  · rw [if_neg hbound] at h
    refine ⟨Nat.lt_of_not_le hbound, ?_⟩
    by_cases hid : slotOfId id ≠ (st.stEnbufEckey (slotOfId id)).id
    · rw [if_pos hid] at h
      cases h
      exact Or.inl ⟨hid, rfl⟩
    · rw [if_neg hid] at h
      refine Or.inr ⟨not_not.mp hid, ?_⟩
      split at h
      · rename_i hkey
        cases h
        exact ⟨st.ecKeys, rfl, Or.inl ⟨hkey, rfl⟩⟩
      · rename_i p hkey
        split at h
        · cases h
        · rename_i ecKeys hfree
          cases h
          exact ⟨ecKeys, rfl, Or.inr ⟨p, hkey, hfree⟩⟩

/-- Unregistering an id of a slot comes to an end, when the EC key of the slot, if there is one, can be
    freed. -/
theorem unregisterPrivateKey_isSome {st : Store ssl} {id : UInt8}
    (hbound : slotOfId id < prm.idNumMax)
    (hread : ∀ p, (st.stEnbufEckey (slotOfId id)).ecKey = some p →
      ∃ ecKey, st.ecKeys.read p = some ecKey) : (unregisterPrivateKey prm st id).isSome := by
  unfold unregisterPrivateKey
  change (if prm.idNumMax ≤ slotOfId id then none
    else if slotOfId id ≠ (st.stEnbufEckey (slotOfId id)).id then some ⟨st, false⟩
      else _ : Option (Unregistered ssl)).isSome
  rw [if_neg (Nat.not_le_of_lt hbound)]
  split
  · rfl
  · cases hkey : (st.stEnbufEckey (slotOfId id)).ecKey with
    | none =>
        -- the slot as the function computes it
        have hslot : (st.stEnbufEckey (id - retIdOffset).toNat).ecKey = none := hkey
        simp only [hslot, Option.isSome_some]
    | some p =>
        have hslot : (st.stEnbufEckey (id - retIdOffset).toNat).ecKey = some p := hkey
        obtain ⟨ecKey, hread⟩ := hread p hkey
        simp only [hslot, Heap.free_of_read hread, Option.isSome_some]

/-! ### Calls -/

/-- The live keys after a registration. -/
def addLive (live : List (UInt8 × BGPSecKey)) (id : UInt8) (key : BGPSecKey) :
    List (UInt8 × BGPSecKey) :=
  if id = 0 then live else (id, key) :: live

theorem mem_addLive {live : List (UInt8 × BGPSecKey)} {id : UInt8} {key : BGPSecKey}
    {e : UInt8 × BGPSecKey} :
    e ∈ addLive live id key ↔ (id ≠ 0 ∧ e = (id, key)) ∨ e ∈ live := by
  by_cases hid : id = 0
  · simp [addLive, hid]
  · simp [addLive, hid]

theorem step_register {s s' : State ssl} {key : BGPSecKey} {alloc : Alloc} {expand : Bool}
    (h : step prm s (.register key alloc expand) = some s') :
    ∃ id st', registerPrivateKey prm s.store (some key) alloc expand = some (id, st') ∧
      s' = ⟨st', addLive s.live id key⟩ := by
  unfold step at h
  dsimp only at h
  split at h
  · cases h
  · rename_i id st' hregister
    cases h
    exact ⟨id, st', hregister, rfl⟩

theorem step_unregister {s s' : State ssl} {id : UInt8}
    (h : step prm s (.unregister id) = some s') :
    ∃ r, unregisterPrivateKey prm s.store id = some r ∧
      s' = ⟨r.store, s.live.filter fun e => e.1 ≠ id⟩ := by
  unfold step at h
  dsimp only at h
  split at h
  · cases h
  · rename_i r hunregister
    cases h
    exact ⟨r, hunregister, rfl⟩

/-! ### Sample keys -/

/-- What stands before and behind the secret in the DER of a P-256 private key. -/
def derHeader : List UInt8 := [48, 49, 2, 1, 1, 4, 32]

def derCurve : List UInt8 := [160, 10, 6, 8, 42, 134, 72, 206, 61, 3, 1, 7]

/-- OpenSSL as far as decoding these private keys goes: an EC key is its secret. -/
def derSSL : OpenSSL where
  ECKey := List UInt8
  EVPKey := Empty
  sha256 _ := List.replicate 32 0
  ecdsaVerify _ _ _ _ := -1
  ecdsaVerify_codes _ _ _ _ := Or.inr (Or.inr rfl)
  ecdsaSign _ _ := none
  ecKeyCheckKey key := key ≠ List.replicate 32 0
  ecKeyGet0PublicKey _ := true
  d2iECPrivateKey octets len :=
    if octets.take 7 = derHeader ∧ (octets.drop 39).take 12 = derCurve ∧ 51 ≤ len
    then some ((octets.drop 7).take 32) else none
  d2iPUBKEY _ _ := none
  evpPkeyGet1ECKey := Empty.elim
  d2iX509 _ := none
  keyOfPoint _ := none

/-- The key with a small secret, in a buffer of its own. -/
def sampleKey (asn : UInt32) (secret : UInt8) : BGPSecKey :=
  ⟨1, asn, List.replicate 20 secret, 51,
    some ⟨4096 * secret.toNat, derHeader ++ (List.replicate 31 0 ++ [secret]) ++ derCurve⟩,
    List.length_replicate⟩

/-- A store with 256 slots, and AS numbers for their own hash values. -/
def samplePrm : Params := ⟨fun asn => asn, 8, Nat.le_refl 8, 56⟩

/-- The registration of a key for which there is memory. -/
def sampleRegister (asn : UInt32) (secret : UInt8) : Op :=
  .register (sampleKey asn secret) ⟨true, true, true⟩ false

end SrxNote.KeyStore
