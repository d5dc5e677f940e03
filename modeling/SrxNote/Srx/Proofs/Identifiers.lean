import SrxNote.Misc.Run
import SrxNote.Srx.Proofs.Items
import SrxNote.Srx.Proofs.RouterSteps

/-!
# One item for each identifier

`bgp_info_register` adds an item without looking whether its identifier is
known. The tables keep one item for each identifier, and lookup and removal
agree, exactly in the runs that never register a known identifier.
-/

namespace SrxNote.Srx

variable {α δ : Type} {env : Env α δ} {s s' : Router α} {p : Nat} {info : BgpInfo α}

/-- The table and the identifier that an operation registers: the next local id for a route that is
    sent for validation, the update id for a route whose local id is answered. -/
def registers (env : Env α δ) (s : Router α) : RouterOp α → Option (Table × Nat)
  | .new _ _ => some (.lid, getNextLocalID s.suiLocalID)
  | .replace _ _ _ => some (.lid, getNextLocalID s.suiLocalID)
  | .answer answer =>
      if answer.localID ≠ 0 ∧ bgpInfoFetch env.uthash s.infoLidHash answer.localID ≠ none then
        some (.uid, answer.updateID)
      else none
  | _ => none

/-- The identifier is in the table. -/
def Known (items : List Item) (id : Nat) : Prop := ∃ item ∈ items, item.identifier = id

/-- The identifier that the operation registers is 0 or not known. -/
def RegistersNew (env : Env α δ) (s : Router α) (op : RouterOp α) : Prop :=
  ∀ t id, registers env s op = some (t, id) → id = 0 ∨ ¬ Known (s.table t) id

/-- `bgp_info_register` as its comment has it: a known identifier is answered with 0, and the table
    is not changed. -/
def RegistersAsDocumented (env : Env α δ) (s : Router α) (op : RouterOp α) : Prop :=
  ∀ t id, registers env s op = some (t, id) → Known (s.table t) id →
    ∀ p, bgpInfoRegister (s.table t) p id = (0, s.table t)

/-- `bgp_info_unregister` removes the item whose route `bgp_info_fetch` returns, and nothing when it
    returns none. -/
def RemovesFetched (uthash : Uthash) (items : List Item) : Prop :=
  ∀ id, (bgpInfoFetch uthash items id = none ∧ bgpInfoUnregister uthash items id = items) ∨
    ∃ l₁ item l₂, items = l₁ ++ item :: l₂ ∧ item.identifier = id ∧
      bgpInfoFetch uthash items id = some item.info ∧
      bgpInfoUnregister uthash items id = l₁ ++ l₂

/-- Both tables have one item for each identifier. -/
def TablesDistinct (s : Router α) : Prop := ∀ t, DistinctIds (s.table t)

theorem DistinctIds.removesFetched {items : List Item} (h : DistinctIds items) (uthash : Uthash) :
    RemovesFetched uthash items := by
  intro id
  rcases bgpInfoUnregister_cases uthash items id with
    ⟨hsame, hnone⟩ | ⟨l₁, item, l₂, heq, hid, -, hun⟩
  · exact Or.inl ⟨bgpInfoFetch_eq_none_iff.mpr hnone, hsame⟩
  · refine Or.inr ⟨l₁, item, l₂, heq, hid, ?_, hun⟩
    have hitem : item ∈ items := by simp [heq]
    cases hfetch : bgpInfoFetch uthash items id with
    | none => exact absurd hid (bgpInfoFetch_eq_none_iff.mp hfetch item hitem)
    | some p =>
        have heq' := h.eq_of_identifier (bgpInfoFetch_eq_some hfetch) hitem hid.symm
        rw [← heq']

/-! ### What no run changes -/

/-- No item has the identifier 0, and a route that is in the table of the local ids without having
    one has no update id either. -/
structure IdsOk (s : Router α) : Prop where
  nonzero : ∀ t, ∀ item ∈ s.table t, item.identifier ≠ 0
  lid : ∀ q info, s.routes.read q = some info → info.infoHash = some .lid →
    info.localID = 0 → info.updateID = 0

theorem IdsOk.init : IdsOk (Router.init : Router α) where
  nonzero := by
    intro t
    cases t <;> simp [Router.table, Router.init]
  lid := by simp [Router.init, Heap.read]

theorem IdsOk.keepsIds (h : IdsOk s) (hkeep : KeepsIds s s') : IdsOk s' where
  nonzero := by
    intro t
    rw [hkeep.table t]
    exact h.nonzero t
  lid := by
    intro q info' hread hhash hlocal
    obtain ⟨info, hread', hids⟩ := hkeep.read hread
    simp only [BgpInfo.ids, Prod.mk.injEq] at hids
    have hzero := h.lid q info hread' (by rw [hids.2.1, hhash]) (by rw [hids.2.2.2, hlocal])
    rw [← hids.2.2.1]
    exact hzero

theorem bgpInfoUnregister_zero (h : IdsOk s) (t : Table) :
    bgpInfoUnregister env.uthash (s.table t) 0 = s.table t := by
  rcases bgpInfoUnregister_cases env.uthash (s.table t) 0 with
    ⟨hsame, -⟩ | ⟨l₁, item, l₂, heq, hid, -, -⟩
  · exact hsame
  · exact absurd hid (h.nonzero t item (by simp [heq]))

/-- A replacement takes nothing out of the table of the local ids. -/
theorem resetTables_lid (h : IdsOk s) (hread : s.routes.read p = some info) :
    (resetTables env info s).infoLidHash = s.infoLidHash := by
  unfold resetTables
  split
  · rfl
  · rename_i t hhash
    cases t with
    | uid => rfl
    | lid =>
        have hzero : resetIdentifier info = 0 := by
          unfold resetIdentifier
          split
          · rfl
          · rename_i hlocal
            exact h.lid p info hread hhash (not_not.mp hlocal)
        rw [hzero]
        exact bgpInfoUnregister_zero h .lid

theorem afterReplace_lid (h : IdsOk s) (hread : s.routes.read p = some info) (attr : α) :
    (afterReplace env s p info attr).infoLidHash =
      s.infoLidHash ++ [⟨getNextLocalID s.suiLocalID, p⟩] := by
  rw [afterReplace, resetTables_lid h hread]

theorem resetTables_uid_sublist :
    (resetTables env info s).infoUidHash.Sublist s.infoUidHash := by
  unfold resetTables
  split
  · rfl
  · rename_i t _
    cases t with
    | lid => rfl
    | uid => exact bgpInfoUnregister_sublist _ _ _

theorem freeTables_sublist (t : Table) :
    ((freeTables env info s).table t).Sublist (s.table t) := by
  unfold freeTables
  split
  · rfl
  · rename_i t' _
    cases t' <;> cases t <;>
      first
      | exact List.Sublist.refl _
      | exact bgpInfoUnregister_sublist _ _ _

/-- A table with one item more. -/
theorem nonzero_append {items : List Item} (h : ∀ item ∈ items, item.identifier ≠ 0) {id : Nat}
    (hid : id ≠ 0) (p : Nat) : ∀ item ∈ items ++ [⟨id, p⟩], item.identifier ≠ 0 := by
  intro item hitem
  rcases List.mem_append.mp hitem with hitem | hitem
  · exact h item hitem
  · rw [List.mem_singleton.mp hitem]
    exact hid

theorem IdsOk.afterNew (h : IdsOk s) (attr : α) : IdsOk (afterNew env s attr) where
  nonzero t item hitem := by
    cases t with
    | lid => exact nonzero_append (h.nonzero .lid) (getNextLocalID_ne_zero _) _ item hitem
    | uid => exact h.nonzero .uid item hitem
  lid q info hread hhash hlocal := by
    rw [read_afterNew] at hread
    split at hread
    · cases hread
      exact absurd hlocal (getNextLocalID_ne_zero _)
    · exact h.lid q info hread hhash hlocal

theorem IdsOk.afterReplace (h : IdsOk s) (hread : s.routes.read p = some info) (attr : α) :
    IdsOk (afterReplace env s p info attr) where
  nonzero t item hitem := by
    cases t with
    | lid =>
        rw [Router.table, afterReplace_lid h hread] at hitem
        exact nonzero_append (h.nonzero .lid) (getNextLocalID_ne_zero _) _ item hitem
    | uid => exact h.nonzero .uid item (resetTables_uid_sublist.subset hitem)
  lid q info hread' hhash hlocal := by
    rw [read_afterReplace hread] at hread'
    split at hread'
    · cases hread'
      exact absurd hlocal (getNextLocalID_ne_zero _)
    · exact h.lid q info hread' hhash hlocal

theorem IdsOk.afterAnswer (h : IdsOk s) (hread : s.routes.read p = some info) (answer : Answer) :
    IdsOk (afterAnswer env s p info answer) where
  nonzero t item hitem := by
    cases t with
    | lid => exact h.nonzero .lid item (mem_of_mem_bgpInfoUnregister hitem)
    | uid =>
        by_cases hupdate : answer.updateID = 0
        · have hitem' : item ∈ s.infoUidHash := by
            simpa [Router.table, Srx.afterAnswer, bgpInfoRegister, hupdate] using hitem
          exact h.nonzero .uid item hitem'
        · have hitem' : item ∈ s.infoUidHash ++ [⟨answer.updateID, p⟩] := by
            simpa only [Router.table, Srx.afterAnswer, bgpInfoRegister_of_ne hupdate] using hitem
          exact nonzero_append (h.nonzero .uid) hupdate p item hitem'
  lid q info' hread' hhash hlocal := by
    rw [read_afterAnswer hread] at hread'
    split at hread'
    · cases hread'
      rw [answered_updateID]
      by_contra hupdate
      simp [hupdate] at hhash
    · exact h.lid q info' hread' hhash hlocal

theorem IdsOk.afterFree (h : IdsOk s) (hread : s.routes.read p = some info) :
    IdsOk (afterFree env s p info) where
  nonzero t item hitem := h.nonzero t item ((freeTables_sublist t).subset hitem)
  lid q info' hread' hhash hlocal := by
    rw [read_afterFree hread] at hread'
    split at hread'
    · cases hread'
    · exact h.lid q info' hread' hhash hlocal

theorem IdsOk.step (h : IdsOk s) {op : RouterOp α} (hs : routerStep env s op = some s') :
    IdsOk s' := by
  obtain ⟨events, heffect⟩ := effect_of_routerStep hs
  cases heffect with
  | new attr connected => exact h.afterNew attr
  | replace attr connected hread => exact h.afterReplace hread attr
  | taken hlocal hfetch hread => exact h.afterAnswer hread _
  | stored hlocal hfetch hread => exact h.keepsIds (keepsIds_stored hread _)
  | unknown hfetch => exact h
  | free hread => exact h.afterFree hread
  | synch hkeep hevents => exact h.keepsIds hkeep

/-! ### Distinct identifiers -/

theorem TablesDistinct.keepsIds (h : TablesDistinct s) (hkeep : KeepsIds s s') :
    TablesDistinct s' := by
  intro t
  rw [hkeep.table t]
  exact h t

/-- Adding an item keeps the identifiers distinct exactly if its identifier is not known. -/
theorem distinctIds_append_iff {items : List Item} (h : DistinctIds items) (id p : Nat) :
    DistinctIds (items ++ [⟨id, p⟩]) ↔ ¬ Known items id := by
  constructor
  · intro hdistinct hknown
    obtain ⟨item, hitem, hid⟩ := hknown
    exact not_distinctIds_append hitem hid p hdistinct
  · intro hunknown
    exact h.append (fun item hitem hid => hunknown ⟨item, hitem, hid⟩) p

theorem tablesDistinct_iff :
    TablesDistinct s ↔ DistinctIds s.infoLidHash ∧ DistinctIds s.infoUidHash := by
  constructor
  · exact fun h => ⟨h .lid, h .uid⟩
  · intro h t
    cases t with
    | lid => exact h.1
    | uid => exact h.2

theorem registersNew_iff {op : RouterOp α} {t : Table} {id : Nat}
    (h : registers env s op = some (t, id)) :
    RegistersNew env s op ↔ id = 0 ∨ ¬ Known (s.table t) id := by
  constructor
  · exact fun hnew => hnew t id h
  · intro hid t' id' h'
    cases h.symm.trans h'
    exact hid

theorem registersNew_of_none {op : RouterOp α} (h : registers env s op = none) :
    RegistersNew env s op := by
  intro t id hregisters
  cases h.symm.trans hregisters

theorem TablesDistinct.new_iff (h : TablesDistinct s) (attr : α) (connected : Bool) :
    TablesDistinct (afterNew env s attr) ↔ RegistersNew env s (.new attr connected) := by
  have hregisters : registers env s (.new attr connected) =
    some (.lid, getNextLocalID s.suiLocalID) := rfl
  have huid : DistinctIds (afterNew env s attr).infoUidHash := h .uid
  rw [registersNew_iff hregisters, or_iff_right (getNextLocalID_ne_zero _), tablesDistinct_iff,
    and_iff_left huid]
  exact distinctIds_append_iff (h .lid) _ _

theorem TablesDistinct.replace_iff (hok : IdsOk s) (h : TablesDistinct s)
    (hread : s.routes.read p = some info) (attr : α) (connected : Bool) :
    TablesDistinct (afterReplace env s p info attr) ↔
      RegistersNew env s (.replace p attr connected) := by
  have hregisters : registers env s (.replace p attr connected) =
    some (.lid, getNextLocalID s.suiLocalID) := rfl
  have huid : DistinctIds (afterReplace env s p info attr).infoUidHash :=
    List.Nodup.sublist (resetTables_uid_sublist.map _) (h .uid)
  rw [registersNew_iff hregisters, or_iff_right (getNextLocalID_ne_zero _), tablesDistinct_iff,
    and_iff_left huid, afterReplace_lid hok hread]
  exact distinctIds_append_iff (h .lid) _ _

theorem TablesDistinct.taken_iff (h : TablesDistinct s) {answer : Answer}
    (hlocal : answer.localID ≠ 0)
    (hfetch : bgpInfoFetch env.uthash s.infoLidHash answer.localID = some p) :
    TablesDistinct (afterAnswer env s p info answer) ↔ RegistersNew env s (.answer answer) := by
  have hregisters : registers env s (.answer answer) = some (.uid, answer.updateID) := by
    simp [registers, hlocal, hfetch]
  have hlid : DistinctIds (afterAnswer env s p info answer).infoLidHash :=
    (h .lid).unregister _ _
  rw [registersNew_iff hregisters, tablesDistinct_iff, and_iff_right hlid]
  by_cases hupdate : answer.updateID = 0
  · have htable : (afterAnswer env s p info answer).infoUidHash = s.infoUidHash := by
      simp [afterAnswer, bgpInfoRegister, hupdate]
    rw [htable]
    exact iff_of_true (h .uid) (Or.inl hupdate)
  · have htable : (afterAnswer env s p info answer).infoUidHash =
        s.table .uid ++ [⟨answer.updateID, p⟩] := by
      simp [afterAnswer, bgpInfoRegister, hupdate, Router.table]
    rw [htable, or_iff_right hupdate]
    exact distinctIds_append_iff (h .uid) _ _

/-- One step keeps the identifiers distinct exactly if it registers none that is known. -/
theorem TablesDistinct.step_iff (hok : IdsOk s) (h : TablesDistinct s) {op : RouterOp α}
    (hs : routerStep env s op = some s') : TablesDistinct s' ↔ RegistersNew env s op := by
  obtain ⟨events, heffect⟩ := effect_of_routerStep hs
  cases heffect with
  | new attr connected => exact h.new_iff attr connected
  | replace attr connected hread => exact h.replace_iff hok hread attr connected
  | taken hlocal hfetch hread => exact h.taken_iff hlocal hfetch
  | @stored p info answer hlocal hfetch hread =>
      refine iff_of_true (h.keepsIds (keepsIds_stored hread answer)) (registersNew_of_none ?_)
      simp [registers, hlocal]
  | @unknown answer hfetch =>
      refine iff_of_true h (registersNew_of_none ?_)
      by_cases hlocal : answer.localID = 0
      · simp [registers, hlocal]
      · rw [if_pos hlocal] at hfetch
        simp [registers, hfetch]
  | free hread =>
      refine iff_of_true (fun t => ?_) (registersNew_of_none rfl)
      exact List.Nodup.sublist ((freeTables_sublist t).map _) (h t)
  | synch hkeep hevents => exact iff_of_true (h.keepsIds hkeep) (registersNew_of_none rfl)

/-- `bgp_info_register` is as documented exactly where it is not called with a known identifier. -/
theorem registersAsDocumented_iff (env : Env α δ) (s : Router α) (op : RouterOp α) :
    RegistersAsDocumented env s op ↔ RegistersNew env s op := by
  constructor
  · intro hdoc t id hregisters
    by_cases hzero : id = 0
    · exact Or.inl hzero
    · refine Or.inr fun hknown => ?_
      have hreturn := hdoc t id hregisters hknown 0
      simp [bgpInfoRegister_of_ne hzero] at hreturn
  · intro hnew t id hregisters hknown p
    rcases hnew t id hregisters with hzero | hunknown
    · simp [bgpInfoRegister, hzero]
    · exact absurd hknown hunknown

/-- In every run: the tables have one item for each identifier, removal takes out what lookup finds
    and registration is as documented, exactly if no step registers a known identifier. -/
theorem infoHash_identifiers_iff (env : Env α δ) (ops : List (RouterOp α)) :
    (Run.Always (routerStep env) (fun s => TablesDistinct s ∧
          ∀ t, RemovesFetched env.uthash (s.table t)) Router.init ops ∧
        Run.EachStep (routerStep env) (RegistersAsDocumented env) Router.init ops) ↔
      Run.EachStep (routerStep env) (RegistersNew env) Router.init ops := by
  have hdistinct : Run.Always (routerStep env) TablesDistinct Router.init ops ↔
      Run.EachStep (routerStep env) (RegistersNew env) Router.init ops := by
    refine Run.always_iff_eachStep (I := IdsOk) ?_ IdsOk.init ?_ ops
    · intro s op s' hok hdistinct hs
      exact ⟨hok.step hs, hdistinct.step_iff hok hs⟩
    · intro t
      cases t <;> simp [Router.table, Router.init, DistinctIds]
  have hdoc : Run.EachStep (routerStep env) (RegistersAsDocumented env) Router.init ops ↔
      Run.EachStep (routerStep env) (RegistersNew env) Router.init ops := by
    simp only [Run.EachStep, registersAsDocumented_iff]
  rw [hdoc, ← hdistinct]
  constructor
  · intro hall
    exact hall.2
  · intro halways
    refine ⟨?_, halways⟩
    intro ops' s hpre hpath
    have hs := halways ops' s hpre hpath
    exact ⟨hs, fun t => (hs t).removesFetched env.uthash⟩

/-! ### Two routes with the same update id -/

/-- A router that validates nothing itself, whose attributes are numbers. -/
def plainEnv : Env Nat Unit :=
  ⟨srxSetDefault, none, false, .undefined, .undefined, fun _ => none, fun _ => none, newestFirst⟩

/-- Two peers announce equal content and get the same update id. -/
def sharedId : List (RouterOp Nat) :=
  [.new 5 true, .new 5 true, .answer ⟨7, 1, ⟨true, false⟩, .valid, .undefined⟩,
    .answer ⟨7, 2, ⟨true, false⟩, .valid, .undefined⟩]

theorem sharedId_not_distinct :
    ¬ (Run.Always (routerStep plainEnv) (fun s => TablesDistinct s ∧
          ∀ t, RemovesFetched plainEnv.uthash (s.table t)) Router.init sharedId ∧
        Run.EachStep (routerStep plainEnv) (RegistersAsDocumented plainEnv) Router.init
          sharedId) := by
  intro h
  have huid : (Run.exec (routerStep plainEnv) Router.init sharedId).map (fun s => s.infoUidHash) =
      some [⟨7, 0⟩, ⟨7, 1⟩] := by
    decide
  rw [Option.map_eq_some_iff] at huid
  obtain ⟨s, hs, huid⟩ := huid
  have hdistinct := (h.1 sharedId s List.prefix_rfl (Run.path_iff_exec.mpr hs)).1 .uid
  rw [Router.table, huid] at hdistinct
  exact absurd hdistinct (by decide)

end SrxNote.Srx
