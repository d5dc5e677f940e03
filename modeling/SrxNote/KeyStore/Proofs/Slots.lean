import SrxNote.KeyStore.Proofs.Steps

/-!
# The slots as a table of EC keys

`stEnbuf_Eckey` and the EC keys behind its handles stand for a table from slots
to EC keys. In every store that calls can reach, storing a key is an update of
that table and so is removing one; the handles of the slots never clash and are
never stale, and a slot that holds a key has a live id (`IdsOk.of_path`).
-/

namespace SrxNote.KeyStore
open SrxNote.Bgpsec SrxNote.Crypto

variable {ssl : OpenSSL} {prm : Params}

/-- The EC key of a slot. -/
def keyAt (st : Store ssl) (i : Nat) : Option ssl.ECKey :=
  (st.stEnbufEckey i).ecKey.bind st.ecKeys.read

/-- A slot with an EC key holds its own index and a handle of its own, which can be read. -/
structure SlotsOk (st : Store ssl) : Prop where
  own_id : ∀ i p, (st.stEnbufEckey i).ecKey = some p → (st.stEnbufEckey i).id = i
  readable : ∀ i p, (st.stEnbufEckey i).ecKey = some p → ∃ ecKey, st.ecKeys.read p = some ecKey
  injective : ∀ i j p, (st.stEnbufEckey i).ecKey = some p → (st.stEnbufEckey j).ecKey = some p →
    i = j

theorem SlotsOk.init : SlotsOk (Store.init ssl) where
  own_id := by
    intro i p h
    cases h
  readable := by
    intro i p h
    cases h
  injective := by
    intro i j p h
    cases h

theorem keyAt_eq_some {st : Store ssl} {i : Nat} {ecKey : ssl.ECKey} :
    keyAt st i = some ecKey ↔
      ∃ p, (st.stEnbufEckey i).ecKey = some p ∧ st.ecKeys.read p = some ecKey :=
  Option.bind_eq_some_iff

/-- The slot of an id is where `stBgpsecReqSigningWithID` takes its EC key from. -/
theorem signingKey_eq_keyAt {st : Store ssl} (hok : SlotsOk st) {id : UInt8}
    (hbound : slotOfId id < prm.idNumMax) :
    signingKey prm st id = some (keyAt st (slotOfId id)) := by
  unfold signingKey
  change (if prm.idNumMax ≤ slotOfId id then none else _) = _
  rw [if_neg (Nat.not_le_of_lt hbound), keyAt]
  cases hkey : (st.stEnbufEckey (slotOfId id)).ecKey with
  | none =>
      have hslot : (st.stEnbufEckey (id - retIdOffset).toNat).ecKey = none := hkey
      simp only [hslot]
      rfl
  | some p =>
      have hslot : (st.stEnbufEckey (id - retIdOffset).toNat).ecKey = some p := hkey
      obtain ⟨ecKey, hread⟩ := hok.readable _ p hkey
      simp [hslot, hread]

/-! ### Storing a key -/

theorem slot_storeKey_self (st : Store ssl) (i : Nat) (ecKey : ssl.ECKey) (key : BGPSecKey) :
    (storeKey st i ecKey key).stEnbufEckey i = ⟨keyDataAddr key, some st.ecKeys.fresh, i⟩ :=
  Function.update_self _ _ _

theorem slot_storeKey_of_ne (st : Store ssl) {i j : Nat} (hj : j ≠ i) (ecKey : ssl.ECKey)
    (key : BGPSecKey) : (storeKey st i ecKey key).stEnbufEckey j = st.stEnbufEckey j :=
  Function.update_of_ne hj _ _

theorem SlotsOk.storeKey {st : Store ssl} (hok : SlotsOk st) (i : Nat) (ecKey : ssl.ECKey)
    (key : BGPSecKey) : SlotsOk (storeKey st i ecKey key) := by
  have hold : ∀ j p, j ≠ i → ((KeyStore.storeKey st i ecKey key).stEnbufEckey j).ecKey = some p →
      (st.stEnbufEckey j).ecKey = some p := by
    intro j p hne h
    rwa [slot_storeKey_of_ne st hne] at h
  have hnew : ∀ p, ((KeyStore.storeKey st i ecKey key).stEnbufEckey i).ecKey = some p →
      p = st.ecKeys.fresh := by
    intro p h
    rw [slot_storeKey_self] at h
    exact (Option.some.inj h).symm
  -- the handles that were there before are older than the new one
  have holder : ∀ j p, j ≠ i → ((KeyStore.storeKey st i ecKey key).stEnbufEckey j).ecKey = some p →
      p ≠ st.ecKeys.fresh := by
    intro j p hne h
    obtain ⟨ecKey', hread⟩ := hok.readable j p (hold j p hne h)
    exact Nat.ne_of_lt (Heap.lt_fresh_of_read hread)
  constructor
  case own_id =>
    intro j p h
    by_cases hj : j = i
    · rw [hj, slot_storeKey_self]
    · rw [slot_storeKey_of_ne st hj]
      exact hok.own_id j p (hold j p hj h)
  case readable =>
    intro j p h
    by_cases hj : j = i
    · rw [hj] at h
      rw [hnew p h]
      exact ⟨ecKey, Heap.read_alloc_fresh _ _⟩
    · obtain ⟨ecKey', hread⟩ := hok.readable j p (hold j p hj h)
      exact ⟨ecKey', Heap.read_alloc hread ecKey⟩
  case injective =>
    intro j k p hj hk
    by_cases hji : j = i
    · rw [hji] at hj ⊢
      by_contra hne
      exact holder k p (Ne.symm hne) hk (hnew p hj)
    · by_cases hki : k = i
      · rw [hki] at hk
        exact absurd (hnew p hk) (holder j p hji hj)
      · exact hok.injective j k p (hold j p hji hj) (hold k p hki hk)

theorem keyAt_storeKey {st : Store ssl} (hok : SlotsOk st) (i : Nat) (ecKey : ssl.ECKey)
    (key : BGPSecKey) :
    keyAt (storeKey st i ecKey key) = Function.update (keyAt st) i (some ecKey) := by
  funext j
  by_cases hj : j = i
  · rw [hj, Function.update_self, keyAt, slot_storeKey_self]
    exact Heap.read_alloc_fresh _ _
  · rw [Function.update_of_ne hj, keyAt, keyAt, slot_storeKey_of_ne st hj]
    cases hkey : (st.stEnbufEckey j).ecKey with
    | none => rfl
    | some p =>
        obtain ⟨ecKey', hread⟩ := hok.readable j p hkey
        rw [Option.bind_some, Option.bind_some, hread]
        exact Heap.read_alloc hread ecKey

/-- Adding a record leaves the slots alone. -/
theorem stEnbufEckey_withRecord (prm : Params) (st : Store ssl) (key : BGPSecKey) (alloc : Alloc)
    (expand : Bool) :
    (withRecord prm st key alloc expand).stEnbufEckey = st.stEnbufEckey ∧
      (withRecord prm st key alloc expand).ecKeys = st.ecKeys := by
  unfold withRecord
  split
  · exact ⟨rfl, rfl⟩
  · exact ⟨rfl, rfl⟩

/-- Slots and EC keys that are the same ones are as good. -/
theorem SlotsOk.congr {st st' : Store ssl} (hok : SlotsOk st)
    (hslots : st'.stEnbufEckey = st.stEnbufEckey) (hkeys : st'.ecKeys = st.ecKeys) :
    SlotsOk st' where
  own_id := by
    rw [hslots]
    exact hok.own_id
  readable := by
    rw [hslots, hkeys]
    exact hok.readable
  injective := by
    rw [hslots]
    exact hok.injective

theorem keyAt_congr {st st' : Store ssl} (hslots : st'.stEnbufEckey = st.stEnbufEckey)
    (hkeys : st'.ecKeys = st.ecKeys) : keyAt st' = keyAt st := by
  funext i
  rw [keyAt, keyAt, hslots, hkeys]

/-! ### Removing a key -/

theorem slot_withoutKey_self (st : Store ssl) (i : Nat) (ecKeys : Heap ssl.ECKey) :
    (withoutKey st i ecKeys).stEnbufEckey i = Slot.empty :=
  Function.update_self _ _ _

theorem slot_withoutKey_of_ne (st : Store ssl) {i j : Nat} (hj : j ≠ i)
    (ecKeys : Heap ssl.ECKey) : (withoutKey st i ecKeys).stEnbufEckey j = st.stEnbufEckey j :=
  Function.update_of_ne hj _ _

/-- The EC keys of the other slots stay. -/
theorem FreesKeyOf.read {st : Store ssl} (hok : SlotsOk st) {i j p : Nat}
    {ecKeys : Heap ssl.ECKey} (hfree : FreesKeyOf st i ecKeys) (hj : j ≠ i)
    (hkey : (st.stEnbufEckey j).ecKey = some p) : ecKeys.read p = st.ecKeys.read p := by
  rcases hfree with ⟨-, rfl⟩ | ⟨q, hq, hfree⟩
  · rfl
  · have hne : p ≠ q := by
      intro h
      rw [h] at hkey
      exact hj (hok.injective j i q hkey hq)
    obtain ⟨ecKey, hread⟩ := hok.readable i q hq
    rw [Heap.free_of_read hread, Option.some.injEq] at hfree
    rw [← hfree]
    exact Heap.read_set_of_ne _ hne none

theorem SlotsOk.withoutKey {st : Store ssl} (hok : SlotsOk st) {i : Nat}
    {ecKeys : Heap ssl.ECKey} (hfree : FreesKeyOf st i ecKeys) :
    SlotsOk (withoutKey st i ecKeys) := by
  have hold : ∀ j p, ((KeyStore.withoutKey st i ecKeys).stEnbufEckey j).ecKey = some p →
      j ≠ i ∧ (st.stEnbufEckey j).ecKey = some p := by
    intro j p h
    by_cases hj : j = i
    · rw [hj, slot_withoutKey_self] at h
      cases h
    · rw [slot_withoutKey_of_ne st hj] at h
      exact ⟨hj, h⟩
  constructor
  case own_id =>
    intro j p h
    obtain ⟨hj, hkey⟩ := hold j p h
    rw [slot_withoutKey_of_ne st hj]
    exact hok.own_id j p hkey
  case readable =>
    intro j p h
    obtain ⟨hj, hkey⟩ := hold j p h
    obtain ⟨ecKey, hread⟩ := hok.readable j p hkey
    exact ⟨ecKey, (hfree.read hok hj hkey).trans hread⟩
  case injective =>
    intro j k p hj hk
    exact hok.injective j k p (hold j p hj).2 (hold k p hk).2

theorem keyAt_withoutKey {st : Store ssl} (hok : SlotsOk st) {i : Nat}
    {ecKeys : Heap ssl.ECKey} (hfree : FreesKeyOf st i ecKeys) :
    keyAt (withoutKey st i ecKeys) = Function.update (keyAt st) i none := by
  funext j
  by_cases hj : j = i
  · rw [hj, Function.update_self, keyAt, slot_withoutKey_self]
    rfl
  · rw [Function.update_of_ne hj, keyAt, keyAt, slot_withoutKey_of_ne st hj]
    cases hkey : (st.stEnbufEckey j).ecKey with
    | none => rfl
    | some p =>
        rw [Option.bind_some, Option.bind_some]
        exact hfree.read hok hj hkey

/-! ### Ids -/

variable (prm)

/-- Live ids are ids of slots, and a slot with an EC key has a live id, if it has one at all. -/
structure IdsOk (s : State ssl) : Prop where
  slots : SlotsOk s.store
  id_ne : ∀ e ∈ s.live, e.1 ≠ 0
  bound : ∀ e ∈ s.live, slotOfId e.1 < prm.idNumMax
  live : ∀ i ecKey, i < prm.idNumMax → keyAt s.store i = some ecKey → idOfSlot i ≠ 0 →
    ∃ e ∈ s.live, e.1 = idOfSlot i

theorem IdsOk.init : IdsOk prm (State.init ssl) where
  slots := SlotsOk.init
  id_ne := by
    intro e he
    cases he
  bound := by
    intro e he
    cases he
  live := by
    intro i ecKey hi hkey
    cases hkey

variable {prm}

theorem IdsOk.addLive {s : State ssl} (hok : IdsOk prm s) {i : Nat} (hi : i < prm.idNumMax)
    (key : BGPSecKey) : IdsOk prm ⟨s.store, addLive s.live (idOfSlot i) key⟩ where
  slots := hok.slots
  id_ne := by
    intro e he
    rcases mem_addLive.mp he with ⟨hid, rfl⟩ | he
    · exact hid
    · exact hok.id_ne e he
  bound := by
    intro e he
    rcases mem_addLive.mp he with ⟨hid, rfl⟩ | he
    · rw [slotOfId_idOfSlot prm hi]
      exact hi
    · exact hok.bound e he
  live := by
    intro j ecKey hj hkey hid
    obtain ⟨e, he, heq⟩ := hok.live j ecKey hj hkey hid
    exact ⟨e, mem_addLive.mpr (Or.inr he), heq⟩

theorem IdsOk.storeKey {s : State ssl} (hok : IdsOk prm s) {st : Store ssl} (hst : SlotsOk st)
    (hsame : keyAt st = keyAt s.store) {i : Nat} (hi : i < prm.idNumMax) (ecKey : ssl.ECKey)
    (key : BGPSecKey) :
    IdsOk prm ⟨storeKey st i ecKey key, KeyStore.addLive s.live (idOfSlot i) key⟩ where
  slots := hst.storeKey i ecKey key
  id_ne := (hok.addLive hi key).id_ne
  bound := (hok.addLive hi key).bound
  live := by
    intro j ecKey' hj hkey hid
    by_cases hji : j = i
    · rw [hji] at hid ⊢
      exact ⟨(idOfSlot i, key), mem_addLive.mpr (Or.inl ⟨hid, rfl⟩), rfl⟩
    · rw [keyAt_storeKey hst, Function.update_of_ne hji, hsame] at hkey
      exact (hok.addLive hi key).live j ecKey' hj hkey hid

/-- The live keys after an id was unregistered are those of the other slots. -/
theorem mem_unregistered {live : List (UInt8 × BGPSecKey)} {id : UInt8} {e : UInt8 × BGPSecKey} :
    e ∈ live.filter (fun e => e.1 ≠ id) ↔ e ∈ live ∧ slotOfId e.1 ≠ slotOfId id := by
  rw [List.mem_filter, decide_eq_true_eq]
  constructor
  · rintro ⟨hmem, hne⟩
    exact ⟨hmem, fun h => hne (slotOfId_inj h)⟩
  · rintro ⟨hmem, hne⟩
    exact ⟨hmem, fun h => hne (by rw [h])⟩

theorem IdsOk.unregister {s : State ssl} (hok : IdsOk prm s) {id : UInt8} {st : Store ssl}
    (hst : SlotsOk st) (hkept : ∀ i ecKey, keyAt st i = some ecKey →
      i ≠ slotOfId id ∧ keyAt s.store i = some ecKey) :
    IdsOk prm ⟨st, s.live.filter fun e => e.1 ≠ id⟩ where
  slots := hst
  id_ne := by
    intro e he
    exact hok.id_ne e (mem_unregistered.mp he).1
  bound := by
    intro e he
    exact hok.bound e (mem_unregistered.mp he).1
  live := by
    intro i ecKey hi hkey hid
    obtain ⟨hne, hkey⟩ := hkept i ecKey hkey
    obtain ⟨e, he, heq⟩ := hok.live i ecKey hi hkey hid
    refine ⟨e, mem_unregistered.mpr ⟨he, ?_⟩, heq⟩
    rw [heq, slotOfId_idOfSlot prm hi]
    exact hne

/-- Every call keeps the ids in order. -/
theorem IdsOk.step {s s' : State ssl} {op : Op} (hok : IdsOk prm s)
    (hstep : step prm s op = some s') : IdsOk prm s' := by
  cases op with
  | register key alloc expand =>
      obtain ⟨id, st', hregister, rfl⟩ := step_register prm hstep
      rcases registerPrivateKey_cases prm hregister with
        ⟨rfl, rfl, -⟩ | ⟨-, r, -, rfl, rfl⟩ | ⟨-, -, ecKey, -, rfl, rfl⟩
      · exact hok
      · exact hok.addLive (prm.slotOf_lt r.hashv) key
      · obtain ⟨hslots, hkeys⟩ := stEnbufEckey_withRecord prm s.store key alloc expand
        exact hok.storeKey (hok.slots.congr hslots hkeys) (keyAt_congr hslots hkeys)
          (writtenSlot_lt prm key alloc) ecKey key
  | unregister id =>
      obtain ⟨r, hunregister, rfl⟩ := step_unregister prm hstep
      obtain ⟨hbound, ⟨hid, rfl⟩ | ⟨-, ecKeys, rfl, hfree⟩⟩ :=
        unregisterPrivateKey_cases prm hunregister
      · apply hok.unregister hok.slots
        intro i ecKey hkey
        refine ⟨?_, hkey⟩
        rintro rfl
        obtain ⟨p, hp, -⟩ := keyAt_eq_some.mp hkey
        exact hid (hok.slots.own_id _ p hp).symm
      · apply hok.unregister (hok.slots.withoutKey hfree)
        intro i ecKey hkey
        rw [keyAt_withoutKey hok.slots hfree] at hkey
        by_cases hne : i = slotOfId id
        · rw [hne, Function.update_self] at hkey
          cases hkey
        · rw [Function.update_of_ne hne] at hkey
          exact ⟨hne, hkey⟩

theorem IdsOk.of_path {ops : List Op} {s : State ssl}
    (hpath : Run.Path (KeyStore.step prm) (State.init ssl) ops s) : IdsOk prm s :=
  hpath.invariant (C := fun _ _ => True) (fun _ _ _ hok _ hstep => hok.step hstep)
    (IdsOk.init prm) (fun _ _ _ _ _ _ _ => trivial)

end SrxNote.KeyStore
