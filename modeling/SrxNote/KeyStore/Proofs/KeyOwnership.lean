import SrxNote.KeyStore.Proofs.SelfCheck
import SrxNote.KeyStore.Proofs.Slots

/-!
# Who frees an EC key

`cl_BgpsecECDSA_Sign` frees its key on its error path. The key of
`stBgpsecReqSigningWithID` belongs to a slot, which keeps it; the key of
`stBgpsecReqSigningWithKeyInfo` is freed behind the call once more. A key of
`stBgpsecReqSigning` whose public part could not be loaded is freed twice as well.
These are the only ways to free a key twice or to leave a freed key in a slot.
-/

namespace SrxNote.KeyStore
open SrxNote.Bgpsec SrxNote.Crypto

variable {ssl : OpenSSL} {prm : Params}

/-- Each EC key was freed at most once, and no slot holds one that was freed. -/
def KeysOwned (s : KeyState ssl) : Prop :=
  s.freed.Nodup ∧ ∀ i p, (s.store.stEnbufEckey i).ecKey = some p → KeyHandle.stored p ∉ s.freed

/-- A call does not take one of the error paths that free a key which is not theirs. -/
def SigningSucceeds (prm : Params) (s : KeyState ssl) : KeyOp ssl → Prop
  | .register .. => True
  | .unregister _ => True
  | .signWithId data hasSignature id out =>
      ¬ SigningFails (SignCall.withID prm (s.store.during out) ⟨data, apiBgpsecAlgoId256, hasSignature⟩
        id).signs
  | .signWithKey keyPath req key out =>
      if (key.bind BGPSecKey.keyData).isSome then
        ¬ SigningFails (SignCall.withKeyInfo req key : SignCall (sslDuring ssl out)).signs
      else ¬ PublicKeyFreed (sslDuring ssl out) keyPath req

/-- The handles of the slots and of the freed keys were given out, and no two slots hold the same
    one. -/
structure HandlesOk (s : KeyState ssl) : Prop where
  slot_lt : ∀ i p, (s.store.stEnbufEckey i).ecKey = some p → p < s.store.ecKeys.fresh
  injective : ∀ i j p, (s.store.stEnbufEckey i).ecKey = some p →
    (s.store.stEnbufEckey j).ecKey = some p → i = j
  stored_lt : ∀ p, KeyHandle.stored p ∈ s.freed → p < s.store.ecKeys.fresh
  made_lt : ∀ n, KeyHandle.made n ∈ s.freed → n < s.calls

theorem HandlesOk.init : HandlesOk (KeyState.init ssl) where
  slot_lt := by
    intro i p h
    cases h
  injective := by
    intro i j p h
    cases h
  stored_lt := by
    intro p h
    cases h
  made_lt := by
    intro n h
    cases h

/-! ### The calls -/

/-- A new key in a slot. -/
theorem owned_of_stored {s s' : KeyState ssl} (hI : HandlesOk s) (hP : KeysOwned s) {i : Nat}
    (hslot : (s'.store.stEnbufEckey i).ecKey = some s.store.ecKeys.fresh)
    (hother : ∀ j, j ≠ i → s'.store.stEnbufEckey j = s.store.stEnbufEckey j)
    (hfresh : s'.store.ecKeys.fresh = s.store.ecKeys.fresh + 1) (hcalls : s'.calls = s.calls)
    (hfreed : s'.freed = s.freed) : HandlesOk s' ∧ KeysOwned s' := by
  -- a slot holds the new handle or an older one
  have hcases : ∀ j p, (s'.store.stEnbufEckey j).ecKey = some p →
      (j = i ∧ p = s.store.ecKeys.fresh) ∨ (j ≠ i ∧ (s.store.stEnbufEckey j).ecKey = some p) := by
    intro j p hj
    by_cases hji : j = i
    · subst hji
      exact .inl ⟨rfl, Option.some.inj (hj.symm.trans hslot)⟩
    · rw [hother j hji] at hj
      exact .inr ⟨hji, hj⟩
  refine ⟨⟨?_, ?_, ?_, ?_⟩, ?_, ?_⟩
  · intro j p hj
    rw [hfresh]
    rcases hcases j p hj with ⟨-, rfl⟩ | ⟨-, hold⟩
    · exact Nat.lt_succ_self _
    · exact Nat.lt_succ_of_lt (hI.slot_lt j p hold)
  · intro j k p hj hk
    rcases hcases j p hj with ⟨rfl, rfl⟩ | ⟨-, hjold⟩
    · rcases hcases k _ hk with ⟨rfl, -⟩ | ⟨-, hkold⟩
      · rfl
      · exact absurd (hI.slot_lt k _ hkold) (Nat.lt_irrefl _)
    · rcases hcases k p hk with ⟨-, rfl⟩ | ⟨-, hkold⟩
      · exact absurd (hI.slot_lt j _ hjold) (Nat.lt_irrefl _)
      · exact hI.injective j k p hjold hkold
  · intro p hp
    rw [hfresh]
    rw [hfreed] at hp
    exact Nat.lt_succ_of_lt (hI.stored_lt p hp)
  · intro n hn
    rw [hcalls]
    rw [hfreed] at hn
    exact hI.made_lt n hn
  · rw [hfreed]
    exact hP.1
  · intro j p hj
    rw [hfreed]
    rcases hcases j p hj with ⟨-, rfl⟩ | ⟨-, hold⟩
    · exact fun hmem => absurd (hI.stored_lt _ hmem) (Nat.lt_irrefl _)
    · exact hP.2 j p hold

theorem register_owned {s s' : KeyState ssl} {key : BGPSecKey} {alloc : Alloc} {expand : Bool}
    {out : Outcomes ssl} (hI : HandlesOk s) (hP : KeysOwned s)
    (hs : keyStep prm s (.register key alloc expand out) = some s') :
    HandlesOk s' ∧ KeysOwned s' := by
  obtain ⟨⟨id, st⟩, hreg, rfl⟩ := Option.map_eq_some_iff.mp hs
  obtain ⟨-, rfl, -⟩ | ⟨-, -, -, -, rfl⟩ | ⟨-, -, ecKey, -, -, rfl⟩ :=
    registerPrivateKey_cases prm hreg
  · exact ⟨hI, hP⟩
  · exact ⟨hI, hP⟩
  · obtain ⟨hslots, hkeys⟩ := stEnbufEckey_withRecord prm (s.store.during out) key alloc expand
    refine owned_of_stored hI hP (i := writtenSlot prm key alloc) ?_ ?_ ?_ rfl rfl
    · have hself := slot_storeKey_self (withRecord prm (s.store.during out) key alloc expand)
        (writtenSlot prm key alloc) ecKey key
      rw [hkeys] at hself
      exact congrArg Slot.ecKey hself
    · intro j hj
      have hne := slot_storeKey_of_ne (withRecord prm (s.store.during out) key alloc expand) hj ecKey key
      rw [hslots] at hne
      exact hne
    · change List.length ((withRecord prm (s.store.during out) key alloc expand).ecKeys.alloc ecKey) = _
      rw [hkeys]
      exact List.length_append

/-- A slot that is emptied, with its key freed. -/
theorem owned_of_emptied {s s' : KeyState ssl} (hI : HandlesOk s) (hP : KeysOwned s) {i : Nat}
    (hslot : (s'.store.stEnbufEckey i).ecKey = none)
    (hother : ∀ j, j ≠ i → s'.store.stEnbufEckey j = s.store.stEnbufEckey j)
    (hfresh : s'.store.ecKeys.fresh = s.store.ecKeys.fresh) (hcalls : s'.calls = s.calls)
    (hfreed : s'.freed = ((s.store.stEnbufEckey i).ecKey.map KeyHandle.stored).toList ++ s.freed) :
    HandlesOk s' ∧ KeysOwned s' := by
  have hold : ∀ j p, (s'.store.stEnbufEckey j).ecKey = some p →
      j ≠ i ∧ (s.store.stEnbufEckey j).ecKey = some p := by
    intro j p hj
    have hji : j ≠ i := by
      rintro rfl
      cases hj.symm.trans hslot
    rw [hother j hji] at hj
    exact ⟨hji, hj⟩
  have hmem : ∀ h, h ∈ s'.freed ↔
      (∃ p, (s.store.stEnbufEckey i).ecKey = some p ∧ h = .stored p) ∨ h ∈ s.freed := by
    intro h
    rw [hfreed, List.mem_append]
    simp [eq_comm]
  refine ⟨⟨?_, ?_, ?_, ?_⟩, ?_, ?_⟩
  · intro j p hj
    rw [hfresh]
    exact hI.slot_lt j p (hold j p hj).2
  · intro j k p hj hk
    exact hI.injective j k p (hold j p hj).2 (hold k p hk).2
  · intro p hp
    rw [hfresh]
    rcases (hmem _).mp hp with ⟨q, hq, heq⟩ | hp
    · cases heq
      exact hI.slot_lt i p hq
    · exact hI.stored_lt p hp
  · intro n hn
    rw [hcalls]
    rcases (hmem _).mp hn with ⟨q, -, heq⟩ | hn
    · cases heq
    · exact hI.made_lt n hn
  · rw [hfreed]
    cases hkey : (s.store.stEnbufEckey i).ecKey with
    | none => exact hP.1
    | some p => exact List.nodup_cons.mpr ⟨hP.2 i p hkey, hP.1⟩
  · intro j p hj hp
    obtain ⟨hji, hjold⟩ := hold j p hj
    rcases (hmem _).mp hp with ⟨q, hq, heq⟩ | hp
    · cases heq
      exact hji (hI.injective j i p hjold hq)
    · exact hP.2 j p hjold hp

theorem unregister_owned {s s' : KeyState ssl} {id : UInt8} (hI : HandlesOk s) (hP : KeysOwned s)
    (hs : keyStep prm s (.unregister id) = some s') : HandlesOk s' ∧ KeysOwned s' := by
  obtain ⟨r, hunreg, rfl⟩ := Option.map_eq_some_iff.mp hs
  obtain ⟨-, ⟨hid, rfl⟩ | ⟨hid, ecKeys, rfl, hfrees⟩⟩ := unregisterPrivateKey_cases prm hunreg
  · have hnone : unregisteredKey s.store id = none := if_neg hid
    rw [hnone]
    exact ⟨hI, hP⟩
  · have hsome : unregisteredKey s.store id = (s.store.stEnbufEckey (slotOfId id)).ecKey := if_pos hid
    refine owned_of_emptied hI hP (i := slotOfId id) ?_ ?_ ?_ rfl ?_
    · rw [slot_withoutKey_self]
      rfl
    · intro j hj
      exact slot_withoutKey_of_ne s.store hj ecKeys
    · rcases hfrees with ⟨-, rfl⟩ | ⟨p, -, hfree⟩
      · rfl
      · rw [Heap.free] at hfree
        split at hfree
        · cases hfree
          exact List.length_set
        · cases hfree
    · rw [hsome]

/-- A key that comes to signing under an id is in the slot of the id. -/
theorem exists_slotKey {st : Store ssl} {req : SignRequest} {id : UInt8}
    {reached : List UInt8 × ssl.ECKey}
    (h : (SignCall.withID prm st req id).signs = some reached) : ∃ p, slotKey st id = some p := by
  obtain ⟨data, -, h⟩ := Option.bind_eq_some_iff.mp h
  split at h
  · obtain ⟨ecKey, hkey, -⟩ := Option.bind_eq_some_iff.mp h
    rw [Option.join_eq_some_iff, signingKey] at hkey
    split at hkey
    · cases hkey
    · split at hkey
      · cases hkey
      · rename_i p hp
        exact ⟨p, hp⟩
  · cases h

/-- An error of the signing leaves the freed key in its slot. -/
theorem signWithId_owned {s s' : KeyState ssl} {data : Option (List UInt8)} {hasSignature : Bool}
    {id : UInt8} {out : Outcomes ssl} (hI : HandlesOk s) (hP : KeysOwned s)
    (hs : keyStep prm s (.signWithId data hasSignature id out) = some s') :
    HandlesOk s' ∧ (KeysOwned s' ↔ SigningSucceeds prm s (.signWithId data hasSignature id out)) := by
  obtain ⟨r, hsign, rfl⟩ := Option.map_eq_some_iff.mp hs
  have hfreed := (stBgpsecReqSigningWithID_spec hsign).2
  rw [SigningSucceeds, ← hfreed]
  cases hr : r.2 with
  | false =>
      simp only [Bool.false_eq_true, if_false, not_false_eq_true, iff_true]
      exact ⟨hI, hP⟩
  | true =>
      -- the key of the slot came to signing
      obtain ⟨p, hp⟩ : ∃ p, slotKey s.store id = some p := by
        obtain ⟨digest, ecKey, hsigns, -⟩ := hfreed.mp hr
        obtain ⟨p, hp⟩ := exists_slotKey hsigns
        exact ⟨p, hp⟩
      have hlength : Heap.fresh (s.store.ecKeys.set p none) = s.store.ecKeys.fresh := List.length_set
      simp only [if_true, hp, freeStored, not_true_eq_false, iff_false]
      refine ⟨⟨?_, hI.injective, ?_, ?_⟩, ?_⟩
      · intro i q hq
        rw [hlength]
        exact hI.slot_lt i q hq
      · intro q hq
        rw [hlength]
        rcases List.mem_cons.mp hq with heq | hq
        · cases heq
          exact hI.slot_lt _ p hp
        · exact hI.stored_lt q hq
      · intro n hn
        rcases List.mem_cons.mp hn with heq | hn
        · cases heq
        · exact hI.made_lt n hn
      · rintro ⟨-, hslots⟩
        exact hslots _ p hp List.mem_cons_self

theorem signWithKey_owned {s s' : KeyState ssl} {keyPath : List Char} {req : SignData}
    {key : Option BGPSecKey} {out : Outcomes ssl} (hI : HandlesOk s) (hP : KeysOwned s)
    (hs : keyStep prm s (.signWithKey keyPath req key out) = some s') :
    HandlesOk s' ∧ (KeysOwned s' ↔ SigningSucceeds prm s (.signWithKey keyPath req key out)) := by
  obtain ⟨r, hsign, rfl⟩ := Option.map_eq_some_iff.mp hs
  have hfrees : r.frees ≤ 1 ↔ SigningSucceeds prm s (.signWithKey keyPath req key out) := by
    rw [SigningSucceeds]
    rw [signWithBGPSecKey] at hsign
    split at hsign
    · rename_i hkey
      rw [if_pos hkey, ← Option.some.inj hsign]
      exact (stBgpsecReqSigningWithKeyInfo_spec req key).2
    · rename_i hkey
      rw [if_neg hkey]
      exact (stBgpsecReqSigning_spec hsign).2
  rw [← hfrees]
  have hnew : KeyHandle.made s.calls ∉ s.freed := fun h => absurd (hI.made_lt _ h) (Nat.lt_irrefl _)
  refine ⟨⟨hI.slot_lt, hI.injective, ?_, ?_⟩, ?_⟩
  · intro p hp
    rcases List.mem_append.mp hp with hp | hp
    · cases List.eq_of_mem_replicate hp
    · exact hI.stored_lt p hp
  · intro n hn
    rcases List.mem_append.mp hn with hn | hn
    · cases List.eq_of_mem_replicate hn
      exact Nat.lt_succ_self _
    · exact Nat.lt_succ_of_lt (hI.made_lt n hn)
  · constructor
    · rintro ⟨hnodup, -⟩
      exact List.nodup_replicate.mp (List.nodup_append.mp hnodup).1
    · intro hle
      refine ⟨List.nodup_append.mpr ⟨List.nodup_replicate.mpr hle, hP.1, ?_⟩, ?_⟩
      · rintro h hmade _ hold rfl
        rw [List.eq_of_mem_replicate hmade] at hold
        exact hnew hold
      · intro i p hp hmem
        rcases List.mem_append.mp hmem with hmem | hmem
        · cases List.eq_of_mem_replicate hmem
        · exact hP.2 i p hp hmem

/-! ### Runs -/

theorem keyStep_owned {s s' : KeyState ssl} {op : KeyOp ssl} (hI : HandlesOk s) (hP : KeysOwned s)
    (hs : keyStep prm s op = some s') :
    HandlesOk s' ∧ (KeysOwned s' ↔ SigningSucceeds prm s op) := by
  cases op with
  | register key alloc expand out =>
      obtain ⟨hI', hP'⟩ := register_owned hI hP hs
      exact ⟨hI', iff_of_true hP' trivial⟩
  | unregister id =>
      obtain ⟨hI', hP'⟩ := unregister_owned hI hP hs
      exact ⟨hI', iff_of_true hP' trivial⟩
  | signWithId data hasSignature id out => exact signWithId_owned hI hP hs
  | signWithKey keyPath req key out => exact signWithKey_owned hI hP hs

/-- Along every run the EC keys are freed at most once and no slot holds a freed one, exactly when no
    call takes an error path that frees a key of somebody else. -/
theorem keys_owned_iff (ops : List (KeyOp ssl)) :
    Run.Always (keyStep prm) KeysOwned (KeyState.init ssl) ops ↔
      Run.EachStep (keyStep prm) (SigningSucceeds prm) (KeyState.init ssl) ops := by
  have hnone : KeysOwned (KeyState.init ssl) := ⟨List.nodup_nil, fun _ _ h => nomatch h⟩
  exact Run.always_iff_eachStep (fun s op s' => keyStep_owned) HandlesOk.init hnone ops

/-- Outcomes in which no signature is made. -/
def noSignature : Outcomes derSSL where
  ecdsaVerify := fun _ _ _ _ => -1
  ecdsaVerify_codes := fun _ _ _ _ => .inr (.inr rfl)
  ecdsaSign := fun _ _ => none
  ecKeyCheckKey := derSSL.ecKeyCheckKey
  d2iECPrivateKey := derSSL.d2iECPrivateKey
  d2iX509 := fun _ => none
  keyOfPoint := fun _ => none
  files := ⟨fun _ => none, fun _ _ => none⟩

/-- A key is registered, and `sign_with_id` fails with it. -/
def failedSignRun : List (KeyOp derSSL) :=
  [.register (sampleKey 65001 1) ⟨true, true, true⟩ false noSignature,
    .signWithId (some [7]) true 234 noSignature]

/-- The slot is left with a key that was freed. -/
theorem failedSignRun_not_owned :
    ¬ Run.Always (keyStep samplePrm) KeysOwned (KeyState.init derSSL) failedSignRun := by
  intro h
  have hend : ∃ s, Run.exec (keyStep samplePrm) (KeyState.init derSSL) failedSignRun = some s ∧
      (s.store.stEnbufEckey 233).ecKey = some 0 ∧ KeyHandle.stored 0 ∈ s.freed :=
    ⟨_, rfl, by decide +kernel, by decide +kernel⟩
  obtain ⟨s, hs, hslot, hfreed⟩ := hend
  have howned := h failedSignRun s List.prefix_rfl (Run.path_iff_exec.mpr hs)
  exact howned.2 233 0 hslot hfreed

end SrxNote.KeyStore
