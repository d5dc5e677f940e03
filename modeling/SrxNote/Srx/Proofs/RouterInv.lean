import SrxNote.Srx.Proofs.Identifiers

/-!
# Routes and items in step

The invariant of the router: a route waits for its answer under its local id or
has an update id, and the items of the two tables are those of the routes. The
operations keep it as long as no route with an outstanding request is replaced
and `HASH_FIND` finds the item of the route that is taken out of the table of the
update ids.
-/

namespace SrxNote.Srx

variable {α δ : Type} {env : Env α δ} {P : α → Nat → Prop} {s s' : Router α} {p q id : Nat}
  {info : BgpInfo α}

/-- The route waits for its answer. Its local id is 0 when the answer had the update id 0, which
    cannot be registered. -/
structure Waits (s : Router α) (q : Nat) (info : BgpInfo α) : Prop where
  infoHash : info.infoHash = some .lid
  updateID : info.updateID = 0
  lid : ∀ id, ⟨id, q⟩ ∈ s.infoLidHash ↔ id = info.localID ∧ id ≠ 0
  uid : ∀ id, ⟨id, q⟩ ∉ s.infoUidHash

/-- The route was answered; `P` relates its content and its update id. -/
structure Answered (P : α → Nat → Prop) (s : Router α) (q : Nat) (info : BgpInfo α) : Prop where
  infoHash : info.infoHash = some .uid
  localID : info.localID = 0
  content : P info.attr info.updateID
  updateID : info.updateID ≠ 0
  lid : ∀ id, ⟨id, q⟩ ∉ s.infoLidHash
  uid : ∀ id, ⟨id, q⟩ ∈ s.infoUidHash ↔ id = info.updateID

/-- A handle with its route and its items. -/
structure RouteOk (P : α → Nat → Prop) (s : Router α) (q : Nat) : Prop where
  absent : s.routes.read q = none →
    (∀ id, ⟨id, q⟩ ∉ s.infoLidHash) ∧ ∀ id, ⟨id, q⟩ ∉ s.infoUidHash
  present : ∀ info, s.routes.read q = some info → Waits s q info ∨ Answered P s q info

/-- The invariant. -/
structure RouterOk (P : α → Nat → Prop) (s : Router α) : Prop where
  ids : IdsOk s
  lid : DistinctIds s.infoLidHash
  uid : DistinctRoutes s.infoUidHash
  route : ∀ q, RouteOk P s q

/-- The item that a removal by the update id of the route takes is the one of the route. -/
def RemovesOwn (env : Env α δ) (s : Router α) (p : Nat) : Prop :=
  ∀ info, s.routes.read p = some info → info.infoHash = some .uid →
    FindsItemOf env.uthash s.infoUidHash info.updateID p

/-! ### One route -/

theorem RouteOk.congr (h : RouteOk P s q) (hread : s'.routes.read q = s.routes.read q)
    (hlid : ∀ id, ⟨id, q⟩ ∈ s'.infoLidHash ↔ ⟨id, q⟩ ∈ s.infoLidHash)
    (huid : ∀ id, ⟨id, q⟩ ∈ s'.infoUidHash ↔ ⟨id, q⟩ ∈ s.infoUidHash) : RouteOk P s' q where
  absent := by
    intro hnone
    simp only [hlid, huid]
    exact h.absent (hread ▸ hnone)
  present := by
    intro info hinfo
    rcases h.present info (hread ▸ hinfo) with hw | ha
    · refine Or.inl ⟨hw.infoHash, hw.updateID, ?_, ?_⟩
      · simpa only [hlid] using hw.lid
      · simpa only [huid] using hw.uid
    · refine Or.inr ⟨ha.infoHash, ha.localID, ha.content, ha.updateID, ?_, ?_⟩
      · simpa only [hlid] using ha.lid
      · simpa only [huid] using ha.uid

theorem RouteOk.keepsIds (h : RouteOk P s q) (hkeep : KeepsIds s s') : RouteOk P s' q where
  absent := by
    intro hnone
    have hids := hkeep.routes q
    rw [hnone, Option.map_none, eq_comm, Option.map_eq_none_iff] at hids
    rw [hkeep.lid, hkeep.uid]
    exact h.absent hids
  present := by
    intro info' hread'
    obtain ⟨info, hread, hids⟩ := hkeep.read hread'
    simp only [BgpInfo.ids, Prod.mk.injEq] at hids
    obtain ⟨hattr, hhash, hupdate, hlocal⟩ := hids
    rcases h.present info hread with hw | ha
    · refine Or.inl ⟨hhash ▸ hw.infoHash, hupdate ▸ hw.updateID, ?_, ?_⟩
      · rw [hkeep.lid, ← hlocal]
        exact hw.lid
      · rw [hkeep.uid]
        exact hw.uid
    · refine Or.inr ⟨hhash ▸ ha.infoHash, hlocal ▸ ha.localID, ?_, hupdate ▸ ha.updateID, ?_, ?_⟩
      · rw [← hattr, ← hupdate]
        exact ha.content
      · rw [hkeep.lid]
        exact ha.lid
      · rw [hkeep.uid, ← hupdate]
        exact ha.uid

/-- The route behind an item of the local ids waits under its identifier. -/
theorem RouteOk.of_mem_lid (h : RouteOk P s q) (hitem : ⟨id, q⟩ ∈ s.infoLidHash) :
    ∃ info, s.routes.read q = some info ∧ Waits s q info ∧ info.localID = id := by
  cases hread : s.routes.read q with
  | none => exact absurd hitem ((h.absent hread).1 id)
  | some info =>
      rcases h.present info hread with hw | ha
      · exact ⟨info, rfl, hw, ((hw.lid id).mp hitem).1.symm⟩
      · exact absurd hitem (ha.lid id)

/-- The route behind an item of the update ids has its identifier. -/
theorem RouteOk.of_mem_uid (h : RouteOk P s q) (hitem : ⟨id, q⟩ ∈ s.infoUidHash) :
    ∃ info, s.routes.read q = some info ∧ Answered P s q info ∧ info.updateID = id := by
  cases hread : s.routes.read q with
  | none => exact absurd hitem ((h.absent hread).2 id)
  | some info =>
      rcases h.present info hread with hw | ha
      · exact absurd hitem (hw.uid id)
      · exact ⟨info, rfl, ha, ((ha.uid id).mp hitem).symm⟩

/-- A route with a local id waits under it. -/
theorem RouterOk.mem_lid (h : RouterOk P s) (hread : s.routes.read q = some info)
    (hlocal : info.localID ≠ 0) : ⟨info.localID, q⟩ ∈ s.infoLidHash := by
  rcases (h.route q).present info hread with hw | ha
  · exact (hw.lid _).mpr ⟨rfl, hlocal⟩
  · exact absurd ha.localID hlocal

/-- A route with an update id was answered. -/
theorem RouterOk.answered_of_ne (h : RouterOk P s) (hread : s.routes.read q = some info)
    (hupdate : info.updateID ≠ 0) : Answered P s q info := by
  rcases (h.route q).present info hread with hw | ha
  · exact absurd hw.updateID hupdate
  · exact ha

theorem RouterOk.infoHash_ne (h : RouterOk P s) (hread : s.routes.read q = some info) :
    info.infoHash ≠ none := by
  rcases (h.route q).present info hread with hw | ha
  · simp [hw.infoHash]
  · simp [ha.infoHash]

theorem RouterOk.init : RouterOk P (Router.init : Router α) where
  ids := IdsOk.init
  lid := by simp [Router.init, DistinctIds]
  uid := by simp [Router.init, DistinctRoutes]
  route := fun q => ⟨by simp [Router.init], by simp [Router.init, Heap.read]⟩

theorem RouterOk.keepsIds (h : RouterOk P s) (hkeep : KeepsIds s s') : RouterOk P s' where
  ids := h.ids.keepsIds hkeep
  lid := by
    rw [hkeep.lid]
    exact h.lid
  uid := by
    rw [hkeep.uid]
    exact h.uid
  route := fun q => (h.route q).keepsIds hkeep

/-- An operation on one route: the others and their items stay. -/
theorem RouterOk.route_of_ne (h : RouterOk P s) (hp : RouteOk P s' p)
    (hread : ∀ q, q ≠ p → s'.routes.read q = s.routes.read q)
    (hlid : ∀ id q, q ≠ p → (⟨id, q⟩ ∈ s'.infoLidHash ↔ ⟨id, q⟩ ∈ s.infoLidHash))
    (huid : ∀ id q, q ≠ p → (⟨id, q⟩ ∈ s'.infoUidHash ↔ ⟨id, q⟩ ∈ s.infoUidHash)) (q : Nat) :
    RouteOk P s' q := by
  by_cases hq : q = p
  · rw [hq]
    exact hp
  · exact (h.route q).congr (hread q hq) (fun id => hlid id q hq) (fun id => huid id q hq)

/-! ### Routes that are sent for validation -/

/-- A route was taken out of the tables and waits under a new local id. -/
structure Draws (s s' : Router α) (p : Nat) (info : BgpInfo α) : Prop where
  lid : s'.infoLidHash = s.infoLidHash ++ [⟨getNextLocalID s.suiLocalID, p⟩]
  own : ∀ id, ⟨id, p⟩ ∉ s.infoLidHash
  uid : ∀ item, item ∈ s'.infoUidHash ↔ item ∈ s.infoUidHash ∧ item.info ≠ p
  uidSublist : s'.infoUidHash.Sublist s.infoUidHash
  others : ∀ q, q ≠ p → s'.routes.read q = s.routes.read q
  read : s'.routes.read p = some info
  infoHash : info.infoHash = some .lid
  updateID : info.updateID = 0
  localID : info.localID = getNextLocalID s.suiLocalID

theorem Draws.routerOk (hd : Draws s s' p info) (h : RouterOk P s) (hids : IdsOk s')
    (hunused : ¬ Known s.infoLidHash (getNextLocalID s.suiLocalID)) : RouterOk P s' where
  ids := hids
  lid := by
    rw [hd.lid]
    exact h.lid.append (fun item hitem hid => hunused ⟨item, hitem, hid⟩) p
  uid := List.Nodup.sublist (hd.uidSublist.map _) h.uid
  route := by
    have hne := getNextLocalID_ne_zero s.suiLocalID
    have hwaits : Waits s' p info := by
      refine ⟨hd.infoHash, hd.updateID, ?_, ?_⟩
      · intro id
        rw [hd.lid, hd.localID, List.mem_append, List.mem_singleton, or_iff_right (hd.own id)]
        constructor
        · intro hid
          cases hid
          exact ⟨rfl, hne⟩
        · rintro ⟨rfl, -⟩
          rfl
      · intro id hitem
        exact ((hd.uid _).mp hitem).2 rfl
    refine h.route_of_ne (p := p) ⟨?_, ?_⟩ hd.others ?_ ?_
    · intro hnone
      rw [hd.read] at hnone
      cases hnone
    · intro info' hread'
      cases hd.read.symm.trans hread'
      exact Or.inl hwaits
    · intro id q hq
      rw [hd.lid, List.mem_append, List.mem_singleton, or_iff_left]
      intro hitem
      exact hq (congrArg Item.info hitem)
    · intro id q hq
      rw [hd.uid, and_iff_left hq]

theorem draws_new (h : RouterOk P s) (attr : α) :
    Draws s (afterNew env s attr) s.routes.fresh (requested env (getNextLocalID s.suiLocalID)
      ⟨attr, none, 0, 0, env.srxDefaultRoaVal, env.srxDefaultBgpsecVal⟩) := by
  have hfresh : s.routes.read s.routes.fresh = none := by
    cases hread : s.routes.read s.routes.fresh with
    | none => rfl
    | some info => exact absurd (Heap.lt_fresh_of_read hread) (Nat.lt_irrefl _)
  obtain ⟨hlid, huid⟩ := (h.route _).absent hfresh
  refine ⟨rfl, hlid, mem_iff_info_ne huid, List.Sublist.refl _, ?_, ?_, rfl, rfl, rfl⟩
  · intro q hq
    rw [read_afterNew, if_neg hq]
  · rw [read_afterNew, if_pos rfl]

theorem draws_replace (h : RouterOk P s) (hread : s.routes.read p = some info)
    (hlocal : info.localID = 0) (hremoves : RemovesOwn env s p) (attr : α) :
    Draws s (afterReplace env s p info attr) p (requested env (getNextLocalID s.suiLocalID)
      (resetInfo env attr info)) := by
  have hown : (∀ id, ⟨id, p⟩ ∉ s.infoLidHash) ∧
      ∀ item, item ∈ (resetTables env info s).infoUidHash ↔
        item ∈ s.infoUidHash ∧ item.info ≠ p := by
    rcases (h.route p).present info hread with hw | ha
    · have hsame : (resetTables env info s).infoUidHash = s.infoUidHash := by
        simp [resetTables, hw.infoHash, Router.unregister, Router.setTable]
      refine ⟨?_, ?_⟩
      · intro id hitem
        obtain ⟨hid, hne⟩ := (hw.lid id).mp hitem
        exact hne (hid.trans hlocal)
      · rw [hsame]
        exact mem_iff_info_ne hw.uid
    · have hremoved : (resetTables env info s).infoUidHash =
          bgpInfoUnregister env.uthash s.infoUidHash info.updateID := by
        simp [resetTables, ha.infoHash, Router.unregister, Router.setTable, Router.table,
          resetIdentifier, hlocal]
      refine ⟨ha.lid, fun item => ?_⟩
      rw [hremoved]
      exact h.uid.mem_unregister_iff (hremoves info hread ha.infoHash) ((ha.uid _).mpr rfl)
  refine ⟨afterReplace_lid h.ids hread attr, hown.1, hown.2, resetTables_uid_sublist, ?_, ?_,
    rfl, ?_, rfl⟩
  · intro q hq
    rw [read_afterReplace hread, if_neg hq]
  · rw [read_afterReplace hread, if_pos rfl]
  · exact resetInfo_updateID (h.infoHash_ne hread) attr

/-! ### The first answer for a route -/

/-- Taking the local id of a waiting route out of its table leaves the items of the others. -/
theorem RouterOk.mem_unregister_lid (h : RouterOk P s) (env : Env α δ)
    (hown : ⟨id, p⟩ ∈ s.infoLidHash) (item : Item) :
    item ∈ bgpInfoUnregister env.uthash s.infoLidHash id ↔
      item ∈ s.infoLidHash ∧ item.info ≠ p := by
  rw [h.lid.mem_unregister_iff]
  refine and_congr_right fun hitem => not_congr ⟨?_, ?_⟩
  · intro hid
    exact congrArg Item.info (h.lid.eq_of_identifier hitem hown hid)
  · intro hp
    subst hp
    obtain ⟨info, -, hw, hlocal⟩ := (h.route item.info).of_mem_lid hown
    exact ((hw.lid item.identifier).mp hitem).1.trans hlocal

/-- What becomes of the route of an answer: it waits on when the update id cannot be registered. -/
theorem RouterOk.taken_zero {answer : Answer} (h : RouterOk P s) (hw : Waits s p info)
    (hzero : answer.updateID = 0)
    (hnoLid : ∀ id, ⟨id, p⟩ ∉ (afterAnswer env s p info answer).infoLidHash) :
    DistinctRoutes (afterAnswer env s p info answer).infoUidHash ∧
      Waits (afterAnswer env s p info answer) p (answered env answer info) ∧
      ∀ id q, (⟨id, q⟩ ∈ (afterAnswer env s p info answer).infoUidHash ↔ ⟨id, q⟩ ∈ s.infoUidHash) := by
  have huid : (afterAnswer env s p info answer).infoUidHash = s.infoUidHash := by
    simp [afterAnswer, bgpInfoRegister, hzero]
  rw [huid]
  refine ⟨h.uid, ⟨by simp [hzero, hw.infoHash], hzero, ?_, by rw [huid]; exact hw.uid⟩,
    fun _ _ => Iff.rfl⟩
  intro id
  refine iff_of_false (hnoLid id) ?_
  rintro ⟨hid, hne⟩
  exact hne hid

/-- It is answered when the update id is registered. -/
theorem RouterOk.taken_registered {answer : Answer} (h : RouterOk P s) (hw : Waits s p info)
    (hcontent : P info.attr answer.updateID) (hzero : answer.updateID ≠ 0)
    (hnoLid : ∀ id, ⟨id, p⟩ ∉ (afterAnswer env s p info answer).infoLidHash) :
    DistinctRoutes (afterAnswer env s p info answer).infoUidHash ∧
      Answered P (afterAnswer env s p info answer) p (answered env answer info) ∧
      ∀ id q, q ≠ p → (⟨id, q⟩ ∈ (afterAnswer env s p info answer).infoUidHash ↔
        ⟨id, q⟩ ∈ s.infoUidHash) := by
  have huid : (afterAnswer env s p info answer).infoUidHash =
      s.infoUidHash ++ [⟨answer.updateID, p⟩] := by
    simp [afterAnswer, bgpInfoRegister, hzero]
  refine ⟨?_, ⟨by simp [hzero], rfl, hcontent, hzero, hnoLid, ?_⟩, ?_⟩
  · rw [huid]
    refine h.uid.append ?_ _
    intro item hitem hp
    subst hp
    exact hw.uid item.identifier hitem
  · intro id
    rw [huid, List.mem_append, List.mem_singleton, or_iff_right (hw.uid id)]
    simp
  · intro id q hq
    rw [huid, List.mem_append, List.mem_singleton, or_iff_left]
    intro hitem
    exact hq (congrArg Item.info hitem)

theorem RouterOk.taken {answer : Answer} (h : RouterOk P s)
    (hids : IdsOk (afterAnswer env s p info answer))
    (hfetch : bgpInfoFetch env.uthash s.infoLidHash answer.localID = some p)
    (hread : s.routes.read p = some info) (hcontent : P info.attr answer.updateID) :
    RouterOk P (afterAnswer env s p info answer) := by
  have hown := bgpInfoFetch_eq_some hfetch
  have hread' : (afterAnswer env s p info answer).routes.read p = some (answered env answer info) :=
    (read_afterAnswer hread answer p).trans (if_pos rfl)
  have hlid : ∀ item, item ∈ (afterAnswer env s p info answer).infoLidHash ↔
      item ∈ s.infoLidHash ∧ item.info ≠ p := h.mem_unregister_lid env hown
  have hnoLid : ∀ id, ⟨id, p⟩ ∉ (afterAnswer env s p info answer).infoLidHash :=
    fun id hitem => ((hlid _).mp hitem).2 rfl
  have hw : Waits s p info := by
    obtain ⟨info', hread₀, hw, -⟩ := (h.route p).of_mem_lid hown
    cases hread.symm.trans hread₀
    exact hw
  have hroute : DistinctRoutes (afterAnswer env s p info answer).infoUidHash ∧
      (Waits (afterAnswer env s p info answer) p (answered env answer info) ∨
        Answered P (afterAnswer env s p info answer) p (answered env answer info)) ∧
      ∀ id q, q ≠ p → (⟨id, q⟩ ∈ (afterAnswer env s p info answer).infoUidHash ↔
        ⟨id, q⟩ ∈ s.infoUidHash) := by
    by_cases hzero : answer.updateID = 0
    · obtain ⟨huid, hwaits, hmem⟩ := h.taken_zero hw hzero hnoLid
      exact ⟨huid, .inl hwaits, fun id q _ => hmem id q⟩
    · obtain ⟨huid, hanswered, hmem⟩ := h.taken_registered hw hcontent hzero hnoLid
      exact ⟨huid, .inr hanswered, hmem⟩
  refine ⟨hids, h.lid.unregister _ _, hroute.1, ?_⟩
  refine h.route_of_ne (p := p) ⟨?_, ?_⟩ ?_ ?_ hroute.2.2
  · intro hnone
    rw [hread'] at hnone
    cases hnone
  · intro info' hinfo'
    cases hread'.symm.trans hinfo'
    exact hroute.2.1
  · intro q hq
    rw [read_afterAnswer hread, if_neg hq]
  · intro id q hq
    rw [hlid, and_iff_left hq]

/-! ### The release of a route -/

theorem RouterOk.mem_free (h : RouterOk P s) (hread : s.routes.read p = some info)
    (hremoves : RemovesOwn env s p) :
    (∀ item, item ∈ (afterFree env s p info).infoLidHash ↔
        item ∈ s.infoLidHash ∧ item.info ≠ p) ∧
      ∀ item, item ∈ (afterFree env s p info).infoUidHash ↔
        item ∈ s.infoUidHash ∧ item.info ≠ p := by
  rcases (h.route p).present info hread with hw | ha
  · have htables : freeTables env info s = s.unregister env .lid info.localID := by
      simp [freeTables, hw.infoHash, hw.updateID]
    rw [afterFree, htables]
    refine ⟨?_, mem_iff_info_ne hw.uid⟩
    by_cases hlocal : info.localID = 0
    · have hsame : bgpInfoUnregister env.uthash s.infoLidHash info.localID = s.infoLidHash := by
        rw [hlocal]
        exact bgpInfoUnregister_zero h.ids .lid
      show ∀ item, item ∈ bgpInfoUnregister env.uthash s.infoLidHash info.localID ↔ _
      rw [hsame]
      apply mem_iff_info_ne
      intro id hitem
      obtain ⟨hid, hne⟩ := (hw.lid id).mp hitem
      exact hne (hid.trans hlocal)
    · exact h.mem_unregister_lid env ((hw.lid _).mpr ⟨rfl, hlocal⟩)
  · have htables : freeTables env info s = s.unregister env .uid info.updateID := by
      simp [freeTables, ha.infoHash, ha.updateID]
    rw [afterFree, htables]
    refine ⟨mem_iff_info_ne ha.lid, fun item => ?_⟩
    exact h.uid.mem_unregister_iff (hremoves info hread ha.infoHash) ((ha.uid _).mpr rfl)

theorem RouterOk.free (h : RouterOk P s) (hids : IdsOk (afterFree env s p info))
    (hread : s.routes.read p = some info) (hremoves : RemovesOwn env s p) :
    RouterOk P (afterFree env s p info) := by
  obtain ⟨hlid, huid⟩ := h.mem_free hread hremoves
  have hgone : (afterFree env s p info).routes.read p = none := by
    rw [read_afterFree hread, if_pos rfl]
  refine ⟨hids, ?_, ?_, ?_⟩
  · exact List.Nodup.sublist ((freeTables_sublist .lid).map _) h.lid
  · exact List.Nodup.sublist ((freeTables_sublist .uid).map _) h.uid
  · refine h.route_of_ne (p := p) ⟨?_, ?_⟩ ?_ ?_ ?_
    · intro _
      exact ⟨fun id hitem => ((hlid _).mp hitem).2 rfl, fun id hitem => ((huid _).mp hitem).2 rfl⟩
    · intro info' hread'
      rw [hgone] at hread'
      cases hread'
    · intro q hq
      rw [read_afterFree hread, if_neg hq]
    · intro id q hq
      rw [hlid, and_iff_left hq]
    · intro id q hq
      rw [huid, and_iff_left hq]

end SrxNote.Srx
