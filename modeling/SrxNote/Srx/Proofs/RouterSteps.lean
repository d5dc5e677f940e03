import SrxNote.Misc.Alloc
import SrxNote.Srx.Router

/-!
# What one operation does to the router

Each operation in closed form: the route that is written, the items that are
added and removed, and the calls that are made.
-/

namespace SrxNote.Srx

variable {α δ : Type} {env : Env α δ} {s : Router α} {p : Nat} {info : BgpInfo α}

theorem getNextLocalID_pos (n : Nat) : 0 < getNextLocalID n := by
  rw [getNextLocalID]
  split <;> omega

theorem getNextLocalID_ne_zero (n : Nat) : getNextLocalID n ≠ 0 :=
  Nat.pos_iff_ne_zero.mp (getNextLocalID_pos n)

theorem getNextLocalID_of_lt {n : Nat} (h : n < maxValueInt) : getNextLocalID n = n + 1 := by
  rw [getNextLocalID, if_pos h]

theorem Router.modify_of_read (h : s.routes.read p = some info) (f : BgpInfo α → BgpInfo α) :
    s.modify p f = some { s with routes := s.routes.set p (some (f info)) } := by
  simp only [Router.modify, h]

/-! ### Sending for validation -/

/-- The route after it was sent for validation under a new local id. -/
def requested (env : Env α δ) (localID : Nat) (info : BgpInfo α) : BgpInfo α :=
  { storeDefault (defaultRoaResult env info.attr env.srxDefaultRoaVal) env.srxDefaultBgpsecVal info
    with localID := localID, infoHash := some .lid }

@[simp] theorem requested_attr (localID : Nat) : (requested env localID info).attr = info.attr := rfl

/-- The message for a route that is sent for validation. -/
def verifyEvents (env : Env α δ) (connected : Bool) (localID : Nat) (roa bgpsec : SRxResult)
    (attr : α) : List (Event α δ) :=
  if connected then
    [.verifyUpdate localID (checkFlag env.srxConfig srxConfigEvalDistr) roa bgpsec attr]
  else []

theorem requestValidation_of_read (env : Env α δ) (h : s.routes.read p = some info) (connected : Bool) :
    requestValidation env s p connected =
      some ({ s with
          routes := s.routes.set p (some (requested env (getNextLocalID s.suiLocalID) info))
          infoLidHash := s.infoLidHash ++ [⟨getNextLocalID s.suiLocalID, p⟩]
          suiLocalID := getNextLocalID s.suiLocalID },
        verifyEvents env connected (getNextLocalID s.suiLocalID)
          (defaultRoaResult env info.attr env.srxDefaultRoaVal) env.srxDefaultBgpsecVal
          info.attr) := by
  have hpos := getNextLocalID_pos s.suiLocalID
  have hne := getNextLocalID_ne_zero s.suiLocalID
  have hread : ∀ r : BgpInfo α, Heap.read (s.routes.set p (some r)) p = some r :=
    fun r => Heap.read_set_self h (some r)
  simp only [requestValidation, Router.modify, h, verifyUpdate, hread, Router.register, hne,
    List.set_set]
  cases connected <;>
    simp [hne, hpos, Router.setTable, Router.table, bgpInfoRegister, verifyEvents, requested,
      storeDefault]

/-- A new route. -/
theorem newRoute_eq (env : Env α δ) (s : Router α) (attr : α) (connected : Bool) :
    newRoute env s attr connected =
      some ({ s with
          routes := s.routes.alloc (requested env (getNextLocalID s.suiLocalID)
            ⟨attr, none, 0, 0, env.srxDefaultRoaVal, env.srxDefaultBgpsecVal⟩)
          infoLidHash := s.infoLidHash ++ [⟨getNextLocalID s.suiLocalID, s.routes.fresh⟩]
          suiLocalID := getNextLocalID s.suiLocalID },
        verifyEvents env connected (getNextLocalID s.suiLocalID)
          (defaultRoaResult env attr env.srxDefaultRoaVal) env.srxDefaultBgpsecVal attr) := by
  have hset : ∀ x y : BgpInfo α, (s.routes.alloc x).set s.routes.fresh (some y) =
      s.routes.alloc y := by
    intro x y
    simp [Heap.alloc, Heap.fresh, List.set_append_right]
  simp only [newRoute]
  rw [requestValidation_of_read env (Heap.read_alloc_fresh _ _)]
  simp only [hset]

/-! ### Replacing the attributes -/

/-- The route after its attributes were replaced, before it is sent for validation. -/
def resetInfo (env : Env α δ) (attr : α) (info : BgpInfo α) : BgpInfo α :=
  match info.infoHash with
  | none => { info with attr := attr }
  | some _ =>
      if info.updateID > 0 then
        ⟨attr, none, 0, info.localID, env.srxDefaultRoaVal, env.srxDefaultBgpsecVal⟩
      else ⟨attr, none, info.updateID, 0, env.srxDefaultRoaVal, env.srxDefaultBgpsecVal⟩

/-- The identifier that is taken out of the table of the route: 0 while a request is outstanding. -/
def resetIdentifier (info : BgpInfo α) : Nat := if info.localID ≠ 0 then 0 else info.updateID

/-- The tables after the route was taken out of its own one. -/
def resetTables (env : Env α δ) (info : BgpInfo α) (s : Router α) : Router α :=
  match info.infoHash with
  | none => s
  | some t => s.unregister env t (resetIdentifier info)

/-- The message for a route that is replaced or freed and has an update id. -/
def deleteEvents (info : BgpInfo α) : List (Event α δ) :=
  if info.infoHash ≠ none ∧ info.updateID ≠ 0 then [.deleteUpdate info.updateID] else []

@[simp] theorem resetInfo_attr (attr : α) : (resetInfo env attr info).attr = attr := by
  unfold resetInfo
  split
  · rfl
  · split <;> rfl

theorem resetInfo_updateID (h : info.infoHash ≠ none) (attr : α) :
    (resetInfo env attr info).updateID = 0 := by
  unfold resetInfo
  split
  · rename_i hnone
    exact absurd hnone h
  · split
    · rfl
    · rename_i hpos
      exact Nat.eq_zero_of_not_pos hpos

@[simp] theorem Router.unregister_routes (env : Env α δ) (s : Router α) (t : Table) (id : Nat) :
    (s.unregister env t id).routes = s.routes := by
  cases t <;> rfl

@[simp] theorem Router.unregister_suiLocalID (env : Env α δ) (s : Router α) (t : Table) (id : Nat) :
    (s.unregister env t id).suiLocalID = s.suiLocalID := by
  cases t <;> rfl

@[simp] theorem resetTables_routes : (resetTables env info s).routes = s.routes := by
  unfold resetTables
  split <;> simp

@[simp] theorem resetTables_suiLocalID : (resetTables env info s).suiLocalID = s.suiLocalID := by
  unfold resetTables
  split <;> simp

theorem resetTables_congr (routes : Heap (BgpInfo α)) :
    resetTables env info { s with routes := routes } =
      { resetTables env info s with routes := routes } := by
  unfold resetTables
  split
  · rfl
  · rename_i t _
    cases t <;> rfl

theorem resetRoute_of_read (env : Env α δ) (h : s.routes.read p = some info) :
    resetRoute env s p =
      some ({ resetTables env info s with
          routes := s.routes.set p (some (resetInfo env info.attr info)) },
        deleteEvents info) := by
  cases hhash : info.infoHash with
  | none =>
      have hreset : resetInfo env info.attr info = info := by
        unfold resetInfo
        split
        · rfl
        · rename_i hsome
          rw [hhash] at hsome
          cases hsome
      simp [resetRoute, h, hhash, resetTables, hreset, deleteEvents, Heap.set_of_read h]
  | some t =>
      by_cases hupdate : info.updateID > 0
      · have hne : info.updateID ≠ 0 := Nat.pos_iff_ne_zero.mp hupdate
        by_cases hlocal : info.localID = 0 <;>
          simp [resetRoute, h, hhash, hupdate, hne, hlocal, resetTables, resetInfo, deleteEvents,
            resetIdentifier, Router.modify]
      · have hzero : info.updateID = 0 := Nat.eq_zero_of_not_pos hupdate
        by_cases hlocal : info.localID = 0 <;>
          simp [resetRoute, h, hhash, hzero, hlocal, resetTables, resetInfo, deleteEvents,
            resetIdentifier, Router.modify]

/-- A replacement of the attributes. -/
theorem replaceRoute_of_read (env : Env α δ) (h : s.routes.read p = some info) (attr : α)
    (connected : Bool) :
    replaceRoute env s p attr connected =
      some ({ resetTables env info s with
          routes := s.routes.set p (some (requested env (getNextLocalID s.suiLocalID)
            (resetInfo env attr info)))
          infoLidHash := (resetTables env info s).infoLidHash ++
            [⟨getNextLocalID s.suiLocalID, p⟩]
          suiLocalID := getNextLocalID s.suiLocalID },
        deleteEvents info ++ verifyEvents env connected (getNextLocalID s.suiLocalID)
          (defaultRoaResult env attr env.srxDefaultRoaVal) env.srxDefaultBgpsecVal attr) := by
  let info₁ : BgpInfo α := { info with attr := attr }
  let s₁ : Router α := { s with routes := s.routes.set p (some info₁) }
  have hread₁ : s₁.routes.read p = some info₁ := Heap.read_set_self h _
  have hreset : resetInfo env info₁.attr info₁ = resetInfo env attr info := by
    unfold resetInfo
    cases info.infoHash <;> simp [info₁]
  have htables : resetTables env info₁ s₁ = { resetTables env info s with routes := s₁.routes } :=
    resetTables_congr s₁.routes
  let s₂ : Router α := { resetTables env info s with
    routes := s.routes.set p (some (resetInfo env attr info)) }
  have hresetRoute : resetRoute env s₁ p = some (s₂, deleteEvents info) := by
    rw [resetRoute_of_read env hread₁, hreset, htables]
    simp [s₂, s₁, deleteEvents, info₁, List.set_set]
  have hread₂ : s₂.routes.read p = some (resetInfo env attr info) := Heap.read_set_self h _
  have hrequest := requestValidation_of_read env hread₂ connected
  rw [replaceRoute, Router.modify_of_read h]
  simp only [info₁, s₁] at hresetRoute
  simp only [hresetRoute, hrequest]
  simp [s₂, List.set_set]

/-! ### Releasing a route -/

/-- The tables after a route was freed. -/
def freeTables (env : Env α δ) (info : BgpInfo α) (s : Router α) : Router α :=
  match info.infoHash with
  | none => s
  | some t => s.unregister env t (if info.updateID ≠ 0 then info.updateID else info.localID)

@[simp] theorem freeTables_routes : (freeTables env info s).routes = s.routes := by
  unfold freeTables
  split <;> simp

@[simp] theorem freeTables_suiLocalID : (freeTables env info s).suiLocalID = s.suiLocalID := by
  unfold freeTables
  split <;> simp

/-- The release of a route. -/
theorem bgpInfoFree_of_read (env : Env α δ) (h : s.routes.read p = some info) :
    bgpInfoFree env s p =
      some ({ freeTables env info s with routes := s.routes.set p none }, deleteEvents info) := by
  cases hhash : info.infoHash with
  | none => simp [bgpInfoFree, h, hhash, freeTables, deleteEvents, Heap.free_of_read h]
  | some t =>
      by_cases hupdate : info.updateID = 0 <;>
        simp [bgpInfoFree, h, hhash, hupdate, freeTables, deleteEvents, Heap.free_of_read h]

/-! ### Answers and notifications -/

/-- The route after the first answer for it. -/
def answered (env : Env α δ) (answer : Answer) (info : BgpInfo α) : BgpInfo α :=
  let validation := localValidation env info.attr answer.valType answer.bgpsecResult
  bgpInfoSetValidationResult validation.2.2 answer.roaResult validation.2.1
    { info with
      updateID := answer.updateID
      infoHash := if answer.updateID = 0 then info.infoHash else some .uid
      localID := 0 }

@[simp] theorem answered_attr (answer : Answer) : (answered env answer info).attr = info.attr := rfl

@[simp] theorem answered_updateID (answer : Answer) :
    (answered env answer info).updateID = answer.updateID := rfl

@[simp] theorem answered_infoHash (answer : Answer) : (answered env answer info).infoHash =
    if answer.updateID = 0 then info.infoHash else some .uid := rfl

/-- The local validation leaves the origin result alone. -/
theorem answered_valResROA (answer : Answer) : (answered env answer info).valResROA =
    if answer.valType.roa then answer.roaResult else info.valResROA := by
  have hroa : (localValidation env info.attr answer.valType answer.bgpsecResult).2.2.roa =
      answer.valType.roa := by
    unfold localValidation
    split
    · split <;> rfl
    · rfl
  simp only [answered, bgpInfoSetValidationResult, hroa]

/-- The first answer for a route. -/
theorem takeAnswer_of_read (env : Env α δ) (h : s.routes.read p = some info) (answer : Answer) :
    takeAnswer env s p answer =
      some ({ s with
          routes := s.routes.set p (some (answered env answer info))
          infoLidHash := bgpInfoUnregister env.uthash s.infoLidHash answer.localID
          infoUidHash := (bgpInfoRegister s.infoUidHash p answer.updateID).2 },
        (localValidation env info.attr answer.valType answer.bgpsecResult).1) := by
  have hread : ∀ r : BgpInfo α, Heap.read (s.routes.set p (some r)) p = some r :=
    fun r => Heap.read_set_self h (some r)
  by_cases hupdate : answer.updateID = 0 <;>
    simp [takeAnswer, Router.modify, h, Router.register, hread, hupdate, Router.setTable,
      Router.table, Router.unregister, bgpInfoRegister, List.set_set, answered]

/-- What identifies a route: its attributes, its table and its two identifiers. -/
def BgpInfo.ids (info : BgpInfo α) : α × Option Table × Nat × Nat :=
  (info.attr, info.infoHash, info.updateID, info.localID)

/-- The operation writes results only. -/
structure KeepsIds (s s' : Router α) : Prop where
  lid : s'.infoLidHash = s.infoLidHash
  uid : s'.infoUidHash = s.infoUidHash
  sui : s'.suiLocalID = s.suiLocalID
  routes : ∀ q, (s'.routes.read q).map BgpInfo.ids = (s.routes.read q).map BgpInfo.ids

theorem KeepsIds.refl (s : Router α) : KeepsIds s s := ⟨rfl, rfl, rfl, fun _ => rfl⟩

theorem KeepsIds.trans {s s' s'' : Router α} (h : KeepsIds s s') (h' : KeepsIds s' s'') :
    KeepsIds s s'' :=
  ⟨h'.lid.trans h.lid, h'.uid.trans h.uid, h'.sui.trans h.sui,
    fun q => (h'.routes q).trans (h.routes q)⟩

theorem KeepsIds.read {s s' : Router α} (h : KeepsIds s s') {q : Nat} {info' : BgpInfo α}
    (hread : s'.routes.read q = some info') :
    ∃ info, s.routes.read q = some info ∧ info.ids = info'.ids := by
  have hids := h.routes q
  rw [hread, Option.map_some, eq_comm, Option.map_eq_some_iff] at hids
  exact hids

theorem KeepsIds.table {s s' : Router α} (h : KeepsIds s s') (t : Table) : s'.table t = s.table t := by
  cases t with
  | lid => exact h.lid
  | uid => exact h.uid

theorem keepsIds_set {f : BgpInfo α → BgpInfo α} (hf : ∀ info, (f info).ids = info.ids)
    (h : s.routes.read p = some info) :
    KeepsIds s { s with routes := s.routes.set p (some (f info)) } := by
  refine ⟨rfl, rfl, rfl, ?_⟩
  intro q
  rw [Heap.read_set h]
  split
  · rename_i heq
    rw [heq, h, Option.map_some, Option.map_some, hf]
  · rfl

/-- What `handleSRxValidationResult` does: it takes the first answer for a route, stores a
    notification, or asks for the deletion of an update it does not know. -/
theorem handleSRxValidationResult_eq_some {s' : Router α} {answer : Answer}
    {events : List (Event α δ)}
    (h : handleSRxValidationResult env s answer = some (s', events)) :
    (answer.localID ≠ 0 ∧ ∃ p info,
        bgpInfoFetch env.uthash s.infoLidHash answer.localID = some p ∧
        s.routes.read p = some info ∧
        s' = { s with
          routes := s.routes.set p (some (answered env answer info))
          infoLidHash := bgpInfoUnregister env.uthash s.infoLidHash answer.localID
          infoUidHash := (bgpInfoRegister s.infoUidHash p answer.updateID).2 } ∧
        events = (localValidation env info.attr answer.valType answer.bgpsecResult).1) ∨
      (answer.localID = 0 ∧ ∃ p info,
        bgpInfoFetch env.uthash s.infoUidHash answer.updateID = some p ∧
        s.routes.read p = some info ∧
        s' = { s with routes := s.routes.set p (some (bgpInfoSetValidationResult answer.valType
          answer.roaResult answer.bgpsecResult info)) } ∧ events = []) ∨
      ((if answer.localID ≠ 0 then
          bgpInfoFetch env.uthash s.infoLidHash answer.localID = none
        else bgpInfoFetch env.uthash s.infoUidHash answer.updateID = none) ∧
        s' = s ∧ events = [.deleteUpdate answer.updateID]) := by
  rw [handleSRxValidationResult] at h
  split at h
  · rename_i hlocal
    split at h
    · rename_i p hfetch
      cases hread : s.routes.read p with
      | none => simp [takeAnswer, Router.modify, hread] at h
      | some info =>
          rw [takeAnswer_of_read env hread] at h
          cases h
          exact Or.inl ⟨hlocal, p, info, hfetch, hread, rfl, rfl⟩
    · rename_i hfetch
      cases h
      exact Or.inr (Or.inr ⟨by simpa [hlocal] using hfetch, rfl, rfl⟩)
  · rename_i hlocal
    have hzero : answer.localID = 0 := not_not.mp hlocal
    split at h
    · rename_i p hfetch
      cases hread : s.routes.read p with
      | none => simp [Router.modify, hread] at h
      | some info =>
          rw [Router.modify_of_read hread] at h
          cases h
          exact Or.inr (Or.inl ⟨hzero, p, info, hfetch, hread, rfl, rfl⟩)
    · rename_i hfetch
      cases h
      exact Or.inr (Or.inr ⟨by simpa [hzero] using hfetch, rfl, rfl⟩)

/-! ### Synchronization -/

/-- A call of a synchronization request: it asks again for a route that is there and not local, under
    its local id. -/
def AsksAgain (s : Router α) (e : Event α δ) : Prop :=
  ∃ q info usePathVal roa bgpsec, s.routes.read q = some info ∧
    (info.localID ≠ 0 ∨ info.updateID ≠ 0) ∧
    e = .verifyUpdate info.localID usePathVal roa bgpsec info.attr

theorem AsksAgain.of_keepsIds {s s' : Router α} {e : Event α δ} (hkeep : KeepsIds s s')
    (h : AsksAgain s' e) : AsksAgain s e := by
  obtain ⟨q, info', usePathVal, roa, bgpsec, hread', hasked, rfl⟩ := h
  obtain ⟨info, hread, hids⟩ := hkeep.read hread'
  simp only [BgpInfo.ids, Prod.mk.injEq] at hids
  rw [← hids.2.2.1, ← hids.2.2.2] at hasked
  exact ⟨q, info, usePathVal, roa, bgpsec, hread, hasked, by rw [hids.1, hids.2.2.2]⟩

/-- A synchronization request keeps what identifies the routes. -/
theorem handleSRxSynchRequest_eq_some {connected : Bool} {ps : List Nat} {s' : Router α}
    {events : List (Event α δ)}
    (h : handleSRxSynchRequest env connected s ps = some (s', events)) :
    KeepsIds s s' ∧ ∀ e ∈ events, AsksAgain s e := by
  induction ps generalizing s events with
  | nil =>
      cases h
      exact ⟨KeepsIds.refl _, by simp⟩
  | cons p ps ih =>
      rw [handleSRxSynchRequest] at h
      cases hread : s.routes.read p with
      | none => simp [hread] at h
      | some info =>
          simp only [hread, verifyUpdate, Router.modify, Bool.and_false, Bool.false_eq_true,
            if_false] at h
          split at h
          · cases h
          · rename_i s₁ events₁ hverify
            rw [Option.map_eq_some_iff] at h
            obtain ⟨⟨s₂, events₂⟩, hrest, heq⟩ := h
            cases heq
            have hkeep : KeepsIds s { s with routes := s.routes.set p (some (storeDefault
                (defaultRoaResult env info.attr info.valResROA) info.valResBGPSEC info)) } :=
              keepsIds_set (fun _ => rfl) hread
            have hs₁ : KeepsIds s s₁ ∧ ∀ e ∈ events₁, AsksAgain s e := by
              split at hverify
              · rename_i hasked
                cases hverify
                refine ⟨hkeep, ?_⟩
                intro e he
                have hids : info.localID ≠ 0 ∨ info.updateID ≠ 0 := by
                  simpa using (Bool.and_eq_true_iff.mp hasked).2
                exact ⟨p, info, _, _, _, hread, hids, List.mem_singleton.mp he⟩
              · cases hverify
                exact ⟨hkeep, by simp⟩
            obtain ⟨hkeep₂, hevents₂⟩ := ih hrest
            refine ⟨hs₁.1.trans hkeep₂, ?_⟩
            intro e he
            rcases List.mem_append.mp he with he | he
            · exact hs₁.2 e he
            · exact (hevents₂ e he).of_keepsIds hs₁.1

/-! ### All operations -/

/-- The router after a new route. -/
def afterNew (env : Env α δ) (s : Router α) (attr : α) : Router α :=
  { s with
    routes := s.routes.alloc (requested env (getNextLocalID s.suiLocalID)
      ⟨attr, none, 0, 0, env.srxDefaultRoaVal, env.srxDefaultBgpsecVal⟩)
    infoLidHash := s.infoLidHash ++ [⟨getNextLocalID s.suiLocalID, s.routes.fresh⟩]
    suiLocalID := getNextLocalID s.suiLocalID }

/-- The router after a replacement. -/
def afterReplace (env : Env α δ) (s : Router α) (p : Nat) (info : BgpInfo α) (attr : α) :
    Router α :=
  { resetTables env info s with
    routes := s.routes.set p (some (requested env (getNextLocalID s.suiLocalID)
      (resetInfo env attr info)))
    infoLidHash := (resetTables env info s).infoLidHash ++ [⟨getNextLocalID s.suiLocalID, p⟩]
    suiLocalID := getNextLocalID s.suiLocalID }

/-- The router after the first answer for a route. -/
def afterAnswer (env : Env α δ) (s : Router α) (p : Nat) (info : BgpInfo α) (answer : Answer) :
    Router α :=
  { s with
    routes := s.routes.set p (some (answered env answer info))
    infoLidHash := bgpInfoUnregister env.uthash s.infoLidHash answer.localID
    infoUidHash := (bgpInfoRegister s.infoUidHash p answer.updateID).2 }

/-- The router after the release of a route. -/
def afterFree (env : Env α δ) (s : Router α) (p : Nat) (info : BgpInfo α) : Router α :=
  { freeTables env info s with routes := s.routes.set p none }

theorem read_afterNew (env : Env α δ) (s : Router α) (attr : α) (q : Nat) :
    (afterNew env s attr).routes.read q =
      if q = s.routes.fresh then some (requested env (getNextLocalID s.suiLocalID)
        ⟨attr, none, 0, 0, env.srxDefaultRoaVal, env.srxDefaultBgpsecVal⟩)
      else s.routes.read q := Heap.read_alloc_eq _ _ q

theorem read_afterReplace (h : s.routes.read p = some info) (attr : α) (q : Nat) :
    (afterReplace env s p info attr).routes.read q =
      if q = p then some (requested env (getNextLocalID s.suiLocalID) (resetInfo env attr info))
      else s.routes.read q := Heap.read_set h _ q

theorem read_afterAnswer (h : s.routes.read p = some info) (answer : Answer) (q : Nat) :
    (afterAnswer env s p info answer).routes.read q =
      if q = p then some (answered env answer info) else s.routes.read q := Heap.read_set h _ q

theorem read_afterFree (h : s.routes.read p = some info) (q : Nat) :
    (afterFree env s p info).routes.read q = if q = p then none else s.routes.read q :=
  Heap.read_set h _ q

section Answers

variable {answer : Answer}

theorem handleSRxValidationResult_taken (hlocal : answer.localID ≠ 0)
    (hfetch : bgpInfoFetch env.uthash s.infoLidHash answer.localID = some p)
    (hread : s.routes.read p = some info) :
    handleSRxValidationResult env s answer = some (afterAnswer env s p info answer,
      (localValidation env info.attr answer.valType answer.bgpsecResult).1) := by
  rw [handleSRxValidationResult, if_pos hlocal, hfetch]
  exact takeAnswer_of_read env hread answer

theorem handleSRxValidationResult_stored (hlocal : answer.localID = 0)
    (hfetch : bgpInfoFetch env.uthash s.infoUidHash answer.updateID = some p)
    (hread : s.routes.read p = some info) :
    handleSRxValidationResult env s answer = some ({ s with
      routes := s.routes.set p (some (bgpInfoSetValidationResult answer.valType answer.roaResult
        answer.bgpsecResult info)) }, []) := by
  rw [handleSRxValidationResult, if_neg (not_not.mpr hlocal), hfetch]
  simp only [Router.modify_of_read hread, Option.map_some]

theorem handleSRxValidationResult_unknown
    (hfetch : if answer.localID ≠ 0 then
        bgpInfoFetch env.uthash s.infoLidHash answer.localID = none
      else bgpInfoFetch env.uthash s.infoUidHash answer.updateID = none) :
    handleSRxValidationResult env s answer = some (s, [.deleteUpdate answer.updateID]) := by
  rw [handleSRxValidationResult]
  split at hfetch
  · rename_i hlocal
    rw [if_pos hlocal, hfetch]
  · rename_i hlocal
    rw [if_neg hlocal, hfetch]

end Answers

/-- All that an operation can do. -/
inductive Effect (env : Env α δ) (s : Router α) :
    RouterOp α → Router α → List (Event α δ) → Prop
  | new (attr : α) (connected : Bool) :
      Effect env s (.new attr connected) (afterNew env s attr)
        (verifyEvents env connected (getNextLocalID s.suiLocalID)
          (defaultRoaResult env attr env.srxDefaultRoaVal) env.srxDefaultBgpsecVal attr)
  | replace {p : Nat} {info : BgpInfo α} (attr : α) (connected : Bool)
      (hread : s.routes.read p = some info) :
      Effect env s (.replace p attr connected) (afterReplace env s p info attr)
        (deleteEvents info ++ verifyEvents env connected (getNextLocalID s.suiLocalID)
          (defaultRoaResult env attr env.srxDefaultRoaVal) env.srxDefaultBgpsecVal attr)
  | taken {p : Nat} {info : BgpInfo α} {answer : Answer} (hlocal : answer.localID ≠ 0)
      (hfetch : bgpInfoFetch env.uthash s.infoLidHash answer.localID = some p)
      (hread : s.routes.read p = some info) :
      Effect env s (.answer answer) (afterAnswer env s p info answer)
        (localValidation env info.attr answer.valType answer.bgpsecResult).1
  | stored {p : Nat} {info : BgpInfo α} {answer : Answer} (hlocal : answer.localID = 0)
      (hfetch : bgpInfoFetch env.uthash s.infoUidHash answer.updateID = some p)
      (hread : s.routes.read p = some info) :
      Effect env s (.answer answer)
        { s with routes := s.routes.set p (some (bgpInfoSetValidationResult answer.valType
          answer.roaResult answer.bgpsecResult info)) } []
  | unknown {answer : Answer}
      (hfetch : if answer.localID ≠ 0 then
          bgpInfoFetch env.uthash s.infoLidHash answer.localID = none
        else bgpInfoFetch env.uthash s.infoUidHash answer.updateID = none) :
      Effect env s (.answer answer) s [.deleteUpdate answer.updateID]
  | free {p : Nat} {info : BgpInfo α} (hread : s.routes.read p = some info) :
      Effect env s (.free p) (afterFree env s p info) (deleteEvents info)
  | synch {ps : List Nat} {connected : Bool} {s' : Router α} {events : List (Event α δ)}
      (hkeep : KeepsIds s s')
      (hevents : ∀ e ∈ events, AsksAgain s e) :
      Effect env s (.synch ps connected) s' events

theorem effect_of_routerCall {op : RouterOp α} {s' : Router α} {events : List (Event α δ)}
    (h : routerCall env s op = some (s', events)) : Effect env s op s' events := by
  cases op with
  | new attr connected =>
      rw [routerCall, newRoute_eq] at h
      cases h
      exact .new attr connected
  | replace p attr connected =>
      rw [routerCall] at h
      cases hread : s.routes.read p with
      | none => simp [replaceRoute, Router.modify, hread] at h
      | some info =>
          rw [replaceRoute_of_read env hread] at h
          cases h
          exact .replace attr connected hread
  | answer answer =>
      rcases handleSRxValidationResult_eq_some h with ⟨hlocal, p, info, hfetch, hread, rfl, rfl⟩ |
        ⟨hlocal, p, info, hfetch, hread, rfl, rfl⟩ | ⟨hfetch, rfl, rfl⟩
      · exact .taken hlocal hfetch hread
      · exact .stored hlocal hfetch hread
      · exact .unknown hfetch
  | free p =>
      rw [routerCall] at h
      cases hread : s.routes.read p with
      | none => simp [bgpInfoFree, hread] at h
      | some info =>
          rw [bgpInfoFree_of_read env hread] at h
          cases h
          exact .free hread
  | synch ps connected =>
      obtain ⟨hkeep, hevents⟩ := handleSRxSynchRequest_eq_some h
      exact .synch hkeep hevents

theorem effect_of_routerStep {op : RouterOp α} {s' : Router α}
    (h : routerStep env s op = some s') : ∃ events, Effect env s op s' events := by
  rw [routerStep, Option.map_eq_some_iff] at h
  obtain ⟨⟨t, events⟩, hcall, rfl⟩ := h
  exact ⟨events, effect_of_routerCall hcall⟩

theorem keepsIds_stored (h : s.routes.read p = some info) (answer : Answer) :
    KeepsIds s { s with routes := s.routes.set p (some (bgpInfoSetValidationResult answer.valType
      answer.roaResult answer.bgpsecResult info)) } :=
  keepsIds_set (f := bgpInfoSetValidationResult answer.valType answer.roaResult answer.bgpsecResult)
    (fun _ => rfl) h

end SrxNote.Srx
