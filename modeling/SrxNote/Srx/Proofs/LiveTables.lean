import SrxNote.Srx.Proofs.RouterInv

/-!
# The tables hold live routes

While the local ids do not wrap around and the server gives different routes
different update ids, every item points to a live route that has its identifier
and every route is in its table, exactly in the runs that replace no route with
an outstanding request and get no update id 0. A replacement of the other kind
leaves an item under the old local id behind.
-/

namespace SrxNote.Srx

variable {α δ : Type} {env : Env α δ} {s s' : Router α} {p : Nat} {info : BgpInfo α}

/-- The identifier under which a route is in a table. -/
def currentId (t : Table) (info : BgpInfo α) : Nat :=
  match t with
  | .lid => info.localID
  | .uid => info.updateID

/-- Items and routes belong to each other. -/
structure TablesLive (s : Router α) : Prop where
  /-- An item points to a live route whose identifier it has. -/
  item : ∀ t, ∀ item ∈ s.table t, ∃ info, s.routes.read item.info = some info ∧
    currentId t info = item.identifier
  /-- A live route is in the table it refers to. -/
  route : ∀ q info t, s.routes.read q = some info → info.infoHash = some t →
    ⟨currentId t info, q⟩ ∈ s.table t

/-- `bgp_info_fetch` returns live routes only. -/
def FetchesLive (env : Env α δ) (s : Router α) : Prop :=
  ∀ t id q, bgpInfoFetch env.uthash (s.table t) id = some q → (s.routes.read q).isSome

/-- The runs that are considered: the counter of the local ids does not wrap around, and an answer
    for a route carries no update id that another route has. -/
def IdsInRange (env : Env α δ) (s : Router α) : RouterOp α → Prop
  | .new _ _ => s.suiLocalID < maxValueInt
  | .replace _ _ _ => s.suiLocalID < maxValueInt
  | .answer answer => ∀ q, bgpInfoFetch env.uthash s.infoLidHash answer.localID = some q →
      answer.updateID ≠ 0 → ∀ q' info, s.routes.read q' = some info → q' ≠ q →
      info.updateID ≠ answer.updateID
  | _ => True

/-- No route with an outstanding request is replaced, and no outstanding request is answered with
    the update id 0. -/
def LeavesNothing (env : Env α δ) (s : Router α) : RouterOp α → Prop
  | .replace p _ _ => ∀ info, s.routes.read p = some info → info.localID = 0
  | .answer answer => answer.localID ≠ 0 →
      bgpInfoFetch env.uthash s.infoLidHash answer.localID ≠ none → answer.updateID ≠ 0
  | _ => True

/-- The invariant: the routes and items are in step, the update ids are distinct, all local ids were
    drawn, and every route in the table of the local ids has one. -/
structure InPhase (s : Router α) : Prop where
  router : RouterOk (fun _ _ => True) s
  uid : DistinctIds s.infoUidHash
  drawn : ∀ item ∈ s.infoLidHash, item.identifier ≤ s.suiLocalID
  asked : ∀ q info, s.routes.read q = some info → info.infoHash = some .lid → info.localID ≠ 0

theorem TablesLive.fetchesLive (h : TablesLive s) (env : Env α δ) : FetchesLive env s := by
  intro t id q hfetch
  obtain ⟨info, hread, -⟩ := h.item t _ (bgpInfoFetch_eq_some hfetch)
  simp [hread]

theorem InPhase.tablesLive (h : InPhase s) : TablesLive s where
  item := by
    intro t item hitem
    cases t with
    | lid =>
        obtain ⟨info, hread, -, hlocal⟩ := (h.router.route item.info).of_mem_lid hitem
        exact ⟨info, hread, hlocal⟩
    | uid =>
        obtain ⟨info, hread, -, hupdate⟩ := (h.router.route item.info).of_mem_uid hitem
        exact ⟨info, hread, hupdate⟩
  route := by
    intro q info t hread hhash
    rcases (h.router.route q).present info hread with hw | ha
    · cases hw.infoHash.symm.trans hhash
      exact (hw.lid _).mpr ⟨rfl, h.asked q info hread hw.infoHash⟩
    · cases ha.infoHash.symm.trans hhash
      exact (ha.uid _).mpr rfl

theorem InPhase.init : InPhase (Router.init : Router α) where
  router := RouterOk.init
  uid := by simp [Router.init, DistinctIds]
  drawn := by simp [Router.init]
  asked := by simp [Router.init, Heap.read]

theorem InPhase.keepsIds (h : InPhase s) (hkeep : KeepsIds s s') : InPhase s' where
  router := h.router.keepsIds hkeep
  uid := by
    rw [hkeep.uid]
    exact h.uid
  drawn := by
    rw [hkeep.lid, hkeep.sui]
    exact h.drawn
  asked := by
    intro q info' hread' hhash
    obtain ⟨info, hread, hids⟩ := hkeep.read hread'
    simp only [BgpInfo.ids, Prod.mk.injEq] at hids
    rw [← hids.2.2.2]
    exact h.asked q info hread (hids.2.1.trans hhash)

/-- A local id that is drawn without a wrap is new. -/
theorem InPhase.next_unknown (h : InPhase s) (hlt : s.suiLocalID < maxValueInt) :
    ¬ Known s.infoLidHash (getNextLocalID s.suiLocalID) := by
  rintro ⟨item, hitem, hid⟩
  have hle := h.drawn item hitem
  rw [hid, getNextLocalID_of_lt hlt] at hle
  omega

/-- As the update ids are distinct, `HASH_FIND` finds the item of the route. -/
theorem InPhase.removesOwn (h : InPhase s) (env : Env α δ) (p : Nat) : RemovesOwn env s p := by
  intro info hread hhash i hfind
  obtain ⟨item, hitem, hid⟩ := env.uthash.find_some hfind
  have hown : ⟨info.updateID, p⟩ ∈ s.infoUidHash := h.tablesLive.route p info .uid hread hhash
  have heq := h.uid.eq_of_identifier (List.mem_of_getElem? hitem) hown hid
  rw [hitem, heq]
  rfl

/-! ### Routes that are sent for validation -/

theorem InPhase.draw (h : InPhase s) (hd : Draws s s' p info) (hids : IdsOk s')
    (hlt : s.suiLocalID < maxValueInt) (hsui : s'.suiLocalID = getNextLocalID s.suiLocalID) :
    InPhase s' where
  router := hd.routerOk h.router hids (h.next_unknown hlt)
  uid := List.Nodup.sublist (hd.uidSublist.map _) h.uid
  drawn := by
    intro item hitem
    rw [hd.lid] at hitem
    rw [hsui]
    rcases List.mem_append.mp hitem with hitem | hitem
    · have hle := h.drawn item hitem
      rw [getNextLocalID_of_lt hlt]
      omega
    · rw [List.mem_singleton.mp hitem]
  asked := by
    intro q info' hread' hhash
    by_cases hq : q = p
    · rw [hq] at hread'
      cases hd.read.symm.trans hread'
      rw [hd.localID]
      exact getNextLocalID_ne_zero _
    · rw [hd.others q hq] at hread'
      exact h.asked q info' hread' hhash

/-- The item of an outstanding request stays, and its identifier is not that of the route. -/
theorem InPhase.not_tablesLive_replace (h : InPhase s) (hlt : s.suiLocalID < maxValueInt)
    (hread : s.routes.read p = some info) (hlocal : info.localID ≠ 0) (attr : α) :
    ¬ TablesLive (afterReplace env s p info attr) := by
  intro hlive'
  have hitem := h.router.mem_lid hread hlocal
  have hstays : ⟨info.localID, p⟩ ∈ (afterReplace env s p info attr).table .lid := by
    rw [Router.table, afterReplace_lid h.router.ids hread]
    exact List.mem_append_left _ hitem
  obtain ⟨info', hread', hid⟩ := hlive'.item .lid _ hstays
  cases ((read_afterReplace hread attr p).trans (if_pos rfl)).symm.trans hread'
  have hnext : getNextLocalID s.suiLocalID = info.localID := hid
  have hle : info.localID ≤ s.suiLocalID := h.drawn _ hitem
  rw [getNextLocalID_of_lt hlt] at hnext
  omega

/-! ### The first answer for a route -/

section Answers

variable {answer : Answer}

theorem InPhase.taken (h : InPhase s) (hids : IdsOk (afterAnswer env s p info answer))
    (hfetch : bgpInfoFetch env.uthash s.infoLidHash answer.localID = some p)
    (hread : s.routes.read p = some info) (hupdate : answer.updateID ≠ 0)
    (hother : ∀ q info, s.routes.read q = some info → q ≠ p → info.updateID ≠ answer.updateID) :
    InPhase (afterAnswer env s p info answer) where
  router := h.router.taken hids hfetch hread trivial
  uid := by
    show DistinctIds (bgpInfoRegister s.infoUidHash p answer.updateID).2
    rw [bgpInfoRegister_of_ne hupdate]
    refine h.uid.append ?_ p
    intro item hitem hid
    obtain ⟨info', hread', ha, hupdate'⟩ := (h.router.route item.info).of_mem_uid hitem
    -- The route itself waits, so that it is not in the table of the update ids.
    have hp : item.info ≠ p := by
      intro hp
      obtain ⟨info₀, hread₀, hw, -⟩ := (h.router.route p).of_mem_lid (bgpInfoFetch_eq_some hfetch)
      rw [hp] at hread'
      cases hread₀.symm.trans hread'
      exact ha.updateID hw.updateID
    exact hother item.info info' hread' hp (hupdate'.trans hid)
  drawn := by
    intro item hitem
    exact h.drawn item (mem_of_mem_bgpInfoUnregister hitem)
  asked := by
    intro q info' hread' hhash
    rw [read_afterAnswer hread] at hread'
    split at hread'
    · cases hread'
      rw [answered_infoHash, if_neg hupdate] at hhash
      cases hhash
    · exact h.asked q info' hread' hhash

/-- An answer with the update id 0 leaves a route that refers to the table of the local ids without
    being in it. -/
theorem InPhase.not_tablesLive_taken (h : InPhase s)
    (hfetch : bgpInfoFetch env.uthash s.infoLidHash answer.localID = some p)
    (hread : s.routes.read p = some info) (hupdate : answer.updateID = 0) :
    ¬ TablesLive (afterAnswer env s p info answer) := by
  intro hlive'
  obtain ⟨info', hread', hw, -⟩ := (h.router.route p).of_mem_lid (bgpInfoFetch_eq_some hfetch)
  cases hread.symm.trans hread'
  have hroute := hlive'.route p (answered env answer info) .lid
    ((read_afterAnswer hread answer p).trans (if_pos rfl)) (by simp [hupdate, hw.infoHash])
  exact h.router.ids.nonzero .lid ⟨0, p⟩ (mem_of_mem_bgpInfoUnregister hroute) rfl

end Answers

/-! ### The release of a route -/

theorem InPhase.free (h : InPhase s) (hids : IdsOk (afterFree env s p info))
    (hread : s.routes.read p = some info) : InPhase (afterFree env s p info) where
  router := h.router.free hids hread (h.removesOwn env p)
  uid := List.Nodup.sublist ((freeTables_sublist .uid).map _) h.uid
  drawn := by
    intro item hitem
    have hle := h.drawn item ((freeTables_sublist .lid).subset hitem)
    simpa [afterFree] using hle
  asked := by
    intro q info' hread' hhash
    rw [read_afterFree hread] at hread'
    split at hread'
    · cases hread'
    · exact h.asked q info' hread' hhash

/-! ### Whole runs -/

/-- One step within the range of the identifiers keeps the tables live exactly if it leaves nothing
    behind. -/
theorem InPhase.step (h : InPhase s) {op : RouterOp α} (hrange : IdsInRange env s op)
    (hs : routerStep env s op = some s') :
    (LeavesNothing env s op → InPhase s') ∧ (TablesLive s' → LeavesNothing env s op) := by
  have hids := h.router.ids.step hs
  obtain ⟨events, heffect⟩ := effect_of_routerStep hs
  cases heffect with
  | new attr connected =>
      exact ⟨fun _ => h.draw (draws_new h.router attr) hids hrange rfl, fun _ => trivial⟩
  | @replace p info attr connected hread =>
      constructor
      · intro hleaves
        have hdraws := draws_replace h.router hread (hleaves info hread) (h.removesOwn env p) attr
        exact h.draw hdraws hids hrange rfl
      · intro hlive' info' hread'
        cases hread.symm.trans hread'
        by_contra hlocal
        exact h.not_tablesLive_replace hrange hread hlocal attr hlive'
  | @taken p info answer hlocal hfetch hread =>
      constructor
      · intro hleaves
        have hupdate : answer.updateID ≠ 0 := hleaves hlocal (by simp [hfetch])
        exact h.taken hids hfetch hread hupdate (hrange p hfetch hupdate)
      · intro hlive' _ _ hupdate
        exact h.not_tablesLive_taken hfetch hread hupdate hlive'
  | @stored p info answer hlocal hfetch hread =>
      exact ⟨fun _ => h.keepsIds (keepsIds_stored hread answer), fun _ hne => absurd hlocal hne⟩
  | @unknown answer hfetch =>
      refine ⟨fun _ => h, fun _ hlocal hknown => ?_⟩
      rw [if_pos hlocal] at hfetch
      exact absurd hfetch hknown
  | free hread => exact ⟨fun _ => h.free hids hread, fun _ => trivial⟩
  | synch hkeep hevents => exact ⟨fun _ => h.keepsIds hkeep, fun _ => trivial⟩

/-- In the runs whose identifiers are in range: the items of the tables point to live routes with
    their identifiers, the routes are in their tables and lookups return live routes, exactly if no
    step replaces a route with an outstanding request or takes an answer with the update id 0. -/
theorem infoHash_live_iff (env : Env α δ) (ops : List (RouterOp α))
    (hrange : Run.EachStep (routerStep env) (IdsInRange env) Router.init ops) :
    Run.Always (routerStep env) (fun s => TablesLive s ∧ FetchesLive env s) Router.init ops ↔
      Run.EachStep (routerStep env) (LeavesNothing env) Router.init ops := by
  have hlive : ∀ {s : Router α}, InPhase s → TablesLive s ∧ FetchesLive env s :=
    fun hphase => ⟨hphase.tablesLive, hphase.tablesLive.fetchesLive env⟩
  refine Run.always_iff_eachStep_within (I := InPhase) ?_ InPhase.init (hlive InPhase.init) hrange
  intro s op s' hphase _ hrange hs
  obtain ⟨hkeeps, hleaves⟩ := hphase.step hrange hs
  exact ⟨fun hC => ⟨hkeeps hC, hlive (hkeeps hC)⟩, fun hlive' => hleaves hlive'.1⟩

/-- A route is validated, replaced, validated again and freed. -/
def answeredReplace : List (RouterOp Nat) :=
  [.new 5 true, .answer ⟨7, 1, ⟨true, false⟩, .valid, .undefined⟩, .replace 0 6 true,
    .answer ⟨8, 2, ⟨true, false⟩, .invalid, .undefined⟩, .free 0]

theorem answeredReplace_live :
    Run.Always (routerStep plainEnv) (fun s => TablesLive s ∧ FetchesLive plainEnv s) Router.init
      answeredReplace := by
  have hone : ∀ (r : BgpInfo Nat) (id : Nat) (P : BgpInfo Nat → Prop), ∀ q,
      bgpInfoFetch newestFirst [⟨id, 0⟩] id = some q → ∀ q' info,
      Heap.read [some r] q' = some info → q' ≠ q → P info := by
    intro r id P q hfetch q' info hread hne
    have hq := bgpInfoFetch_eq_some hfetch
    have hlt := Heap.lt_fresh_of_read hread
    simp [Heap.fresh] at hq hlt
    omega
  let s₁ : Router Nat := ⟨[some ⟨5, some .lid, 0, 1, .undefined, .undefined⟩], [⟨1, 0⟩], [], 1⟩
  let s₂ : Router Nat := ⟨[some ⟨5, some .uid, 7, 0, .valid, .undefined⟩], [], [⟨7, 0⟩], 1⟩
  let s₃ : Router Nat := ⟨[some ⟨6, some .lid, 0, 2, .undefined, .undefined⟩], [⟨2, 0⟩], [], 2⟩
  let s₄ : Router Nat := ⟨[some ⟨6, some .uid, 8, 0, .invalid, .undefined⟩], [], [⟨8, 0⟩], 2⟩
  have hs₁ : routerStep plainEnv .init (.new 5 true) = some s₁ := rfl
  have hs₂ : routerStep plainEnv s₁ (.answer ⟨7, 1, ⟨true, false⟩, .valid, .undefined⟩) =
      some s₂ := rfl
  have hs₃ : routerStep plainEnv s₂ (.replace 0 6 true) = some s₃ := rfl
  have hs₄ : routerStep plainEnv s₃ (.answer ⟨8, 2, ⟨true, false⟩, .invalid, .undefined⟩) =
      some s₄ := rfl
  have hs₅ : routerStep plainEnv s₄ (.free 0) = some ⟨[none], [], [], 2⟩ := rfl
  refine (infoHash_live_iff plainEnv answeredReplace ?_).mpr ?_
  · refine .cons hs₁ (show 0 < maxValueInt by decide) (.cons hs₂ ?_ (.cons hs₃
      (show 1 < maxValueInt by decide) (.cons hs₄ ?_ (.cons hs₅ trivial .nil))))
    · exact fun q hfetch _ => hone _ 1 _ q hfetch
    · exact fun q hfetch _ => hone _ 2 _ q hfetch
  · refine .cons hs₁ trivial (.cons hs₂ (fun _ _ => by decide) (.cons hs₃ ?_ (.cons hs₄
      (fun _ _ => by decide) (.cons hs₅ trivial .nil))))
    intro info hread
    cases hread
    rfl

/-- A route is replaced while its request is outstanding, and freed. -/
def outstandingReplace : List (RouterOp Nat) := [.new 5 true, .replace 0 6 true, .free 0]

/-- The item of the first request then points to a freed route. -/
theorem outstandingReplace_not_live :
    Run.EachStep (routerStep plainEnv) (IdsInRange plainEnv) Router.init outstandingReplace ∧
      ¬ Run.Always (routerStep plainEnv) (fun s => TablesLive s ∧ FetchesLive plainEnv s)
        Router.init outstandingReplace := by
  have hs₁ : routerStep plainEnv .init (.new 5 true) =
      some ⟨[some ⟨5, some .lid, 0, 1, .undefined, .undefined⟩], [⟨1, 0⟩], [], 1⟩ := rfl
  have hs₂ : routerStep plainEnv
      ⟨[some ⟨5, some .lid, 0, 1, .undefined, .undefined⟩], [⟨1, 0⟩], [], 1⟩ (.replace 0 6 true) =
      some ⟨[some ⟨6, some .lid, 0, 2, .undefined, .undefined⟩], [⟨1, 0⟩, ⟨2, 0⟩], [], 2⟩ := rfl
  refine ⟨.cons hs₁ (show 0 < maxValueInt by decide) (.cons hs₂ (show 1 < maxValueInt by decide)
    (.cons rfl trivial .nil)), ?_⟩
  intro h
  have hend : (Run.exec (routerStep plainEnv) Router.init outstandingReplace).map
      (fun s => (s.infoLidHash, s.routes.read 0)) = some ([⟨1, 0⟩], none) := by
    decide
  rw [Option.map_eq_some_iff] at hend
  obtain ⟨s, hs, hend⟩ := hend
  obtain ⟨hlid, hfreed⟩ := Prod.mk.inj hend
  have hfetches := (h outstandingReplace s List.prefix_rfl (Run.path_iff_exec.mpr hs)).2
  have hfetch : bgpInfoFetch plainEnv.uthash (s.table .lid) 1 = some 0 := by
    rw [Router.table, hlid]
    decide
  have hlive := hfetches .lid 1 0 hfetch
  rw [hfreed] at hlive
  cases hlive

end SrxNote.Srx
