import SrxNote.KeyStore.Proofs.Slots

/-!
# What an id signs with

An id that was given out for a key signs with the EC key decoded from that key's
data as long as no other key is written over its slot, and no record is found
whose slot was emptied or holds another EC key. Over a run both directions hold:
the ids stay right exactly when every registration keeps to this.
-/

namespace SrxNote.KeyStore
open SrxNote.Bgpsec SrxNote.Crypto

variable {ssl : OpenSSL} (prm : Params)

/-- Signing with the id is signing with the EC key decoded from the key's own data. -/
def Resolves (st : Store ssl) (id : UInt8) (key : BGPSecKey) : Prop :=
  ∃ ecKey, decodeKey ssl key = some (some ecKey) ∧ signingKey prm st id = some (some ecKey) ∧
    ∀ data algoID, stBgpsecReqSigningWithID prm st ⟨some data, algoID, true⟩ id =
      some (signWithKey ssl data algoID ecKey)

/-- Every live key is what its id signs with. -/
def AllResolve (s : State ssl) : Prop :=
  ∀ e ∈ s.live, Resolves prm s.store e.1 e.2

/-- What keeps the ids right. A key whose record is found is given the record's id, so that id must
    be live, for the same EC key. A new key is written to a slot, so the live keys of that slot must
    be the same EC key. -/
def KeepsKeys (s : State ssl) : Op → Prop
  | .register key alloc _ =>
      key.asn ≠ 0 →
        match restoreKeyInfo s.store key.ski key.asn with
        | some r =>
            idOfSlot (prm.slotOf r.hashv) ≠ 0 →
              ∃ e ∈ s.live, e.1 = idOfSlot (prm.slotOf r.hashv) ∧
                decodeKey ssl e.2 = decodeKey ssl key
        | none =>
            ∀ ecKey, decodeKey ssl key = some (some ecKey) →
              ∀ e ∈ s.live, slotOfId e.1 = writtenSlot prm key alloc →
                decodeKey ssl e.2 = decodeKey ssl key
  | .unregister _ => True

variable {prm}

/-- In terms of the table of EC keys. -/
theorem resolves_iff {st : Store ssl} (hok : SlotsOk st) {id : UInt8} (hid : id ≠ 0)
    (hbound : slotOfId id < prm.idNumMax) (key : BGPSecKey) :
    Resolves prm st id key ↔
      ∃ ecKey, decodeKey ssl key = some (some ecKey) ∧ keyAt st (slotOfId id) = some ecKey := by
  have hsigning := signingKey_eq_keyAt hok hbound
  constructor
  · rintro ⟨ecKey, hdecode, hkey, -⟩
    rw [hsigning, Option.some.injEq] at hkey
    exact ⟨ecKey, hdecode, hkey⟩
  · rintro ⟨ecKey, hdecode, hkey⟩
    rw [hkey] at hsigning
    refine ⟨ecKey, hdecode, hsigning, ?_⟩
    intro data algoID
    simp [stBgpsecReqSigningWithID, hid, hsigning]

/-- Only what the key decodes to matters. -/
theorem Resolves.congr {st : Store ssl} {id : UInt8} {key key' : BGPSecKey}
    (h : Resolves prm st id key) (hdecode : decodeKey ssl key = decodeKey ssl key') :
    Resolves prm st id key' := by
  obtain ⟨ecKey, hkey, hsigning⟩ := h
  exact ⟨ecKey, hdecode ▸ hkey, hsigning⟩

theorem allResolve_addLive (st : Store ssl) (live : List (UInt8 × BGPSecKey)) (id : UInt8)
    (key : BGPSecKey) :
    AllResolve prm ⟨st, addLive live id key⟩ ↔
      (id ≠ 0 → Resolves prm st id key) ∧ ∀ e ∈ live, Resolves prm st e.1 e.2 := by
  constructor
  · intro h
    constructor
    · intro hid
      exact h (id, key) (mem_addLive.mpr (Or.inl ⟨hid, rfl⟩))
    · intro e he
      exact h e (mem_addLive.mpr (Or.inr he))
  · rintro ⟨hnew, hold⟩ e he
    rcases mem_addLive.mp he with ⟨hid, rfl⟩ | he
    · exact hnew hid
    · exact hold e he

/-- A slot's id is right for a key exactly when it is live for the same EC key. -/
theorem resolves_idOfSlot_iff {s : State ssl} (hok : IdsOk prm s) (hall : AllResolve prm s)
    {i : Nat} (hi : i < prm.idNumMax) (hid : idOfSlot i ≠ 0) (key : BGPSecKey) :
    Resolves prm s.store (idOfSlot i) key ↔
      ∃ e ∈ s.live, e.1 = idOfSlot i ∧ decodeKey ssl e.2 = decodeKey ssl key := by
  have hslot := slotOfId_idOfSlot prm hi
  have hiff := resolves_iff hok.slots hid (hslot.symm ▸ hi)
  constructor
  · intro h
    obtain ⟨ecKey, hdecode, hkey⟩ := (hiff key).mp h
    rw [hslot] at hkey
    obtain ⟨e, he, heq⟩ := hok.live i ecKey hi hkey hid
    have hresolves := hall e he
    rw [heq] at hresolves
    obtain ⟨ecKey', hdecode', hkey'⟩ := (hiff e.2).mp hresolves
    rw [hslot, hkey, Option.some.injEq] at hkey'
    exact ⟨e, he, heq, by rw [hdecode', hdecode, hkey']⟩
  · rintro ⟨e, he, heq, hdecode⟩
    have hresolves := hall e he
    rw [heq] at hresolves
    exact hresolves.congr hdecode

theorem resolves_storeKey {st : Store ssl} (hst : SlotsOk st) {i : Nat} (hi : i < prm.idNumMax)
    (hid : idOfSlot i ≠ 0) {ecKey : ssl.ECKey} {key : BGPSecKey}
    (hdecode : decodeKey ssl key = some (some ecKey)) :
    Resolves prm (storeKey st i ecKey key) (idOfSlot i) key := by
  have hslot := slotOfId_idOfSlot prm hi
  apply (resolves_iff (hst.storeKey i ecKey key) hid (hslot.symm ▸ hi) key).mpr
  refine ⟨ecKey, hdecode, ?_⟩
  rw [hslot, keyAt_storeKey hst, Function.update_self]

/-- The key that is written over the others of its slot must be the same EC key. -/
theorem allResolve_storeKey {s : State ssl} (hok : IdsOk prm s) (hall : AllResolve prm s)
    {st : Store ssl} (hst : SlotsOk st) (hsame : keyAt st = keyAt s.store) {i : Nat}
    (hi : i < prm.idNumMax) {ecKey : ssl.ECKey} {key : BGPSecKey}
    (hdecode : decodeKey ssl key = some (some ecKey)) :
    AllResolve prm ⟨storeKey st i ecKey key, addLive s.live (idOfSlot i) key⟩ ↔
      ∀ e ∈ s.live, slotOfId e.1 = i → decodeKey ssl e.2 = decodeKey ssl key := by
  have hst' := hst.storeKey i ecKey key
  have hat : keyAt (storeKey st i ecKey key) = Function.update (keyAt s.store) i (some ecKey) := by
    rw [keyAt_storeKey hst, hsame]
  rw [allResolve_addLive]
  constructor
  · rintro ⟨-, hold⟩ e he hslot
    obtain ⟨ecKey', hdecode', hkey⟩ :=
      (resolves_iff hst' (hok.id_ne e he) (hok.bound e he) e.2).mp (hold e he)
    rw [hat, hslot, Function.update_self, Option.some.injEq] at hkey
    rw [hdecode', hdecode, hkey]
  · intro hsep
    refine ⟨fun hid => resolves_storeKey hst hi hid hdecode, ?_⟩
    intro e he
    apply (resolves_iff hst' (hok.id_ne e he) (hok.bound e he) e.2).mpr
    by_cases hslot : slotOfId e.1 = i
    · exact ⟨ecKey, (hsep e he hslot).trans hdecode, by rw [hat, hslot, Function.update_self]⟩
    · rw [hat, Function.update_of_ne hslot]
      exact (resolves_iff hok.slots (hok.id_ne e he) (hok.bound e he) e.2).mp (hall e he)

/-! ### The steps -/

theorem register_step {s s' : State ssl} {key : BGPSecKey} {alloc : Alloc} {expand : Bool}
    (hok : IdsOk prm s) (hall : AllResolve prm s)
    (hstep : step prm s (.register key alloc expand) = some s') :
    AllResolve prm s' ↔ KeepsKeys prm s (.register key alloc expand) := by
  obtain ⟨id, st', hregister, rfl⟩ := step_register prm hstep
  rcases registerPrivateKey_cases prm hregister with
    ⟨rfl, rfl, hreason⟩ | ⟨hasn, r, hfind, rfl, rfl⟩ | ⟨hasn, hfind, ecKey, hdecode, rfl, rfl⟩
  · refine iff_of_true hall ?_
    rcases hreason with hasn | ⟨hfind, hdecode⟩
    · intro hne
      exact absurd hasn hne
    · intro _
      simp [hfind, hdecode]
  · have hi := prm.slotOf_lt r.hashv
    rw [allResolve_addLive]
    simp only [KeepsKeys, hfind]
    constructor
    · rintro ⟨hnew, -⟩ - hid
      exact (resolves_idOfSlot_iff hok hall hi hid key).mp (hnew hid)
    · intro hkeeps
      refine ⟨?_, hall⟩
      intro hid
      exact (resolves_idOfSlot_iff hok hall hi hid key).mpr (hkeeps hasn hid)
  · obtain ⟨hslots, hkeys⟩ := stEnbufEckey_withRecord prm s.store key alloc expand
    rw [allResolve_storeKey hok hall (hok.slots.congr hslots hkeys) (keyAt_congr hslots hkeys)
      (writtenSlot_lt prm key alloc) hdecode]
    simp [KeepsKeys, hfind, hdecode, hasn]

theorem unregister_step {s s' : State ssl} {id : UInt8} (hok : IdsOk prm s)
    (hall : AllResolve prm s) (hstep : step prm s (.unregister id) = some s') :
    AllResolve prm s' := by
  obtain ⟨r, hunregister, rfl⟩ := step_unregister prm hstep
  obtain ⟨-, ⟨-, rfl⟩ | ⟨-, ecKeys, rfl, hfree⟩⟩ := unregisterPrivateKey_cases prm hunregister
  · intro e he
    exact hall e (mem_unregistered.mp he).1
  · intro e he
    obtain ⟨hmem, hne⟩ := mem_unregistered.mp he
    have hid := hok.id_ne e hmem
    have hbound := hok.bound e hmem
    apply (resolves_iff (hok.slots.withoutKey hfree) hid hbound e.2).mpr
    rw [keyAt_withoutKey hok.slots hfree, Function.update_of_ne hne]
    exact (resolves_iff hok.slots hid hbound e.2).mp (hall e hmem)

variable (prm)

/-- Along a run from the empty store every live id signs with its key's own EC key exactly when every
    registration keeps the keys of its slot. -/
theorem registerPrivateKey_resolves_iff (ops : List Op) :
    Run.Always (step prm) (AllResolve prm) (State.init ssl) ops ↔
      Run.EachStep (step prm) (KeepsKeys prm) (State.init ssl) ops := by
  refine Run.always_iff_eachStep ?_ (IdsOk.init prm) ?_ ops
  · intro s op s' hok hall hstep
    refine ⟨hok.step hstep, ?_⟩
    cases op with
    | register key alloc expand => exact register_step hok hall hstep
    | unregister id => exact iff_of_true (unregister_step hok hall hstep) trivial
  · intro e he
    cases he

/-- Two keys of one AS have one slot: the id of the first signs with the second. -/
theorem registerPrivateKey_overwrites :
    ¬ Run.Always (step samplePrm) (AllResolve samplePrm) (State.init derSSL)
      [sampleRegister 65001 1, sampleRegister 65001 2] := by
  intro h
  have hpath : Run.Path (step samplePrm) (State.init derSSL)
      [sampleRegister 65001 1, sampleRegister 65001 2] _ :=
    Run.Path.snoc (Run.Path.snoc Run.Path.nil rfl) rfl
  have hfirst := h _ _ List.prefix_rfl hpath (234, sampleKey 65001 1)
    (List.mem_cons_of_mem _ (List.mem_singleton_self _))
  obtain ⟨ecKey, hdecode, hsigning, -⟩ := hfirst
  have hown : some (some (List.replicate 31 0 ++ [1])) = some (some ecKey) := hdecode
  have hother : some (some (List.replicate 31 0 ++ [2])) = some (some ecKey) := hsigning
  have hsame : List.replicate 31 (0 : UInt8) ++ [1] = List.replicate 31 0 ++ [2] :=
    Option.some.inj (Option.some.inj (hown.trans hother.symm))
  exact absurd hsame (by decide)

end SrxNote.KeyStore
