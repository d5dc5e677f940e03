import SrxNote.Srx.Proofs.NetworkSteps

/-!
# Which attributes a result is stored for

Whatever answer or notification arrives next, its results are stored for the
attributes that were asked about. This holds in all runs in which no route with
an outstanding request is replaced and `HASH_FIND` finds the item of the route
that is taken out. A replacement of the other kind leaves the item of the old
request, and the late answer is stored for the new attributes.
-/

namespace SrxNote.Srx

variable {α δ : Type} {env : Env α δ} {updateIdOf : α → Nat} {n n' : Network α} {p : Nat}
  {info : BgpInfo α}

/-- The two results of a route. -/
def BgpInfo.results (info : BgpInfo α) : SRxResult × SRxResult := (info.valResROA, info.valResBGPSEC)

/-- `handleSRxValidationResult` touches no freed route, and the routes whose results it changes have
    attributes with `P`. -/
def StoresOnly (env : Env α δ) (s : Router α) (answer : Answer) (P : α → Prop) : Prop :=
  ∃ s' events, handleSRxValidationResult env s answer = some (s', events) ∧
    ∀ q info info', s.routes.read q = some info → s'.routes.read q = some info' →
      info'.results ≠ info.results → P info'.attr

/-- Whatever arrives next: the answer to a request is stored for the attributes that the request was
    about, and results for an update id are stored for attributes that have this id. -/
structure StoresAsAsked (env : Env α δ) (updateIdOf : α → Nat) (n : Network α) : Prop where
  answer : ∀ r ∈ n.requests, r.localID ≠ 0 → ∀ valType roaResult bgpsecResult,
    StoresOnly env n.router ⟨updateIdOf r.attr, r.localID, valType, roaResult, bgpsecResult⟩
      fun attr => attr = r.attr
  update : ∀ updateID valType roaResult bgpsecResult,
    StoresOnly env n.router ⟨updateID, 0, valType, roaResult, bgpsecResult⟩
      fun attr => updateIdOf attr = updateID

/-- The counter of the local ids does not wrap around. -/
def DrawsInRange (n : Network α) : NetworkOp α → Prop
  | .new _ _ => n.router.suiLocalID < maxValueInt
  | .replace _ _ _ => n.router.suiLocalID < maxValueInt
  | _ => True

/-- All local ids that are in use were drawn. -/
structure AllDrawn (n : Network α) : Prop where
  item : ∀ item ∈ n.router.infoLidHash, item.identifier ≤ n.router.suiLocalID
  request : ∀ r ∈ n.requests, r.localID ≤ n.router.suiLocalID

/-! ### What is stored -/

theorem storesOnly_same {s : Router α} {answer : Answer} {P : α → Prop} {events : List (Event α δ)}
    (h : handleSRxValidationResult env s answer = some (s, events)) : StoresOnly env s answer P := by
  refine ⟨s, events, h, ?_⟩
  intro q info info' hread hread' hne
  rw [hread] at hread'
  cases hread'
  exact absurd rfl hne

theorem storesOnly_set {s s' : Router α} {answer : Answer} {P : α → Prop}
    {events : List (Event α δ)} {info' : BgpInfo α}
    (h : handleSRxValidationResult env s answer = some (s', events))
    (hread : ∀ q, s'.routes.read q = if q = p then some info' else s.routes.read q)
    (hP : P info'.attr) : StoresOnly env s answer P := by
  refine ⟨s', events, h, ?_⟩
  intro q info₀ info₁ hread₀ hread₁ hne
  rw [hread] at hread₁
  split at hread₁
  · cases hread₁
    exact hP
  · rw [hread₀] at hread₁
    cases hread₁
    exact absurd rfl hne

theorem NetworkOk.storesAsAsked (h : NetworkOk updateIdOf n) (env : Env α δ) :
    StoresAsAsked env updateIdOf n where
  answer := by
    intro r hr hlocal valType roaResult bgpsecResult
    cases hfetch : bgpInfoFetch env.uthash n.router.infoLidHash r.localID with
    | none =>
        refine storesOnly_same (handleSRxValidationResult_unknown ?_)
        rwa [if_pos hlocal]
    | some p =>
        have hitem := bgpInfoFetch_eq_some hfetch
        obtain ⟨info, hread, -, -⟩ := (h.router.route p).of_mem_lid hitem
        have hattr := (h.requests r hr).attr hlocal p info hitem hread
        exact storesOnly_set (handleSRxValidationResult_taken hlocal hfetch hread)
          (read_afterAnswer hread _) hattr
  update := by
    intro updateID valType roaResult bgpsecResult
    cases hfetch : bgpInfoFetch env.uthash n.router.infoUidHash updateID with
    | none => exact storesOnly_same (handleSRxValidationResult_unknown hfetch)
    | some p =>
        obtain ⟨info, hread, hanswered, hupdate⟩ :=
          (h.router.route p).of_mem_uid (bgpInfoFetch_eq_some hfetch)
        exact storesOnly_set (handleSRxValidationResult_stored rfl hfetch hread)
          (fun q => Heap.read_set hread _ q) (hanswered.content.trans hupdate)

/-! ### Local ids -/

theorem AllDrawn.drawsUnused (h : AllDrawn n) {op : NetworkOp α} (hrange : DrawsInRange n op) :
    DrawsUnused n op := by
  have hnew : n.router.suiLocalID < maxValueInt →
      ¬ Known n.router.infoLidHash (getNextLocalID n.router.suiLocalID) ∧
        ∀ r ∈ n.requests, r.localID ≠ getNextLocalID n.router.suiLocalID := by
    intro hlt
    rw [getNextLocalID_of_lt hlt]
    constructor
    · rintro ⟨item, hitem, hid⟩
      have hle := h.item item hitem
      omega
    · intro r hr hid
      have hle := h.request r hr
      omega
  cases op with
  | new attr connected => exact hnew hrange
  | replace p attr connected => exact hnew hrange
  | _ => trivial

/-- A route that is sent for validation: the counter is its local id. -/
theorem AllDrawn.draw {s' : Router α} (hd : AllDrawn n)
    (hlt : n.router.suiLocalID < maxValueInt)
    (hlid : s'.infoLidHash = n.router.infoLidHash ++ [⟨getNextLocalID n.router.suiLocalID, p⟩])
    (hsui : s'.suiLocalID = getNextLocalID n.router.suiLocalID) {connected : Bool} {attr : α} :
    AllDrawn ⟨s', n.requests ++ sentRequests (requestEvents env n.router connected attr)⟩ := by
  have hnext := getNextLocalID_of_lt hlt
  constructor
  · intro item hitem
    show item.identifier ≤ s'.suiLocalID
    rw [hlid] at hitem
    rw [hsui, hnext]
    rcases List.mem_append.mp hitem with hitem | hitem
    · exact Nat.le_succ_of_le (hd.item item hitem)
    · rw [List.mem_singleton.mp hitem, hnext]
  · intro r hr
    show r.localID ≤ s'.suiLocalID
    rw [hsui, hnext]
    rcases List.mem_append.mp hr with hr | hr
    · exact Nat.le_succ_of_le (hd.request r hr)
    · rw [mem_sentRequests_requestEvents hr, hnext]

/-- The other operations draw none. -/
theorem AllDrawn.of_subset {s' : Router α} {requests : List (Request α)} (hd : AllDrawn n)
    (hlid : ∀ item ∈ s'.infoLidHash, item ∈ n.router.infoLidHash)
    (hsui : s'.suiLocalID = n.router.suiLocalID)
    (hrequests : ∀ r ∈ requests, r ∈ n.requests ∨ r.localID = 0 ∨
      ∃ q, ⟨r.localID, q⟩ ∈ n.router.infoLidHash) : AllDrawn ⟨s', requests⟩ := by
  constructor
  · intro item hitem
    show item.identifier ≤ s'.suiLocalID
    rw [hsui]
    exact hd.item item (hlid item hitem)
  · intro r hr
    show r.localID ≤ s'.suiLocalID
    rw [hsui]
    rcases hrequests r hr with hr | hzero | ⟨q, hitem⟩
    · exact hd.request r hr
    · rw [hzero]
      exact Nat.zero_le _
    · exact hd.item _ hitem

theorem AllDrawn.call (hd : AllDrawn n) (h : NetworkOk updateIdOf n) {op : NetworkOp α}
    {events : List (Event α δ)} (hrange : DrawsInRange n op)
    (hs : n.call env updateIdOf op = some (n', events)) : AllDrawn n' := by
  cases networkEffect_of_call hs with
  | new attr connected => exact hd.draw hrange rfl rfl
  | replace attr connected hread =>
      exact hd.draw hrange (afterReplace_lid h.router.ids hread attr) rfl
  | free hread =>
      exact hd.of_subset (fun item hitem => (freeTables_sublist .lid).subset hitem)
        freeTables_suiLocalID (fun r hr => Or.inl hr)
  | synch hkeep hevents =>
      refine hd.of_subset (fun item hitem => hkeep.lid ▸ hitem) hkeep.sui ?_
      intro r hr
      rcases List.mem_append.mp hr with hr | hr
      · exact Or.inl hr
      · obtain ⟨q, info, hread, -, rfl⟩ := mem_sentRequests_again hevents hr
        by_cases hlocal : info.localID = 0
        · exact Or.inr (Or.inl hlocal)
        · exact Or.inr (Or.inr ⟨q, h.router.mem_lid hread hlocal⟩)
  | answer hbrings hrequests heffect =>
      refine hd.of_subset ?_ ?_ (fun r hr => Or.inl (hrequests r hr))
      · intro item hitem
        cases heffect with
        | taken hlocal hfetch hread => exact mem_of_mem_bgpInfoUnregister hitem
        | stored hlocal hfetch hread => exact hitem
        | unknown hfetch => exact hitem
      · cases heffect <;> rfl

/-! ### Whole runs -/

/-- In every run without a wrap of the local ids whose steps replace no route with an outstanding
    request and find the item of the route they take out, whatever arrives next is stored for the
    attributes that were asked about. -/
theorem results_stored_as_asked (env : Env α δ) (updateIdOf : α → Nat) (ops : List (NetworkOp α))
    (hrange : Run.EachStep (Network.step env updateIdOf) DrawsInRange Network.init ops)
    (hkeeps : Run.EachStep (Network.step env updateIdOf) (KeepsInStep env) Network.init ops) :
    Run.Always (Network.step env updateIdOf) (StoresAsAsked env updateIdOf) Network.init ops := by
  intro ops' n hpre hpath
  have hok : NetworkOk updateIdOf n ∧ AllDrawn n := by
    refine Run.Path.invariant (C := fun n op => DrawsInRange n op ∧ KeepsInStep env n op)
      (I := fun n => NetworkOk updateIdOf n ∧ AllDrawn n) ?_ ⟨NetworkOk.init, ?_⟩ hpath
      ((hrange.and hkeeps).before hpre)
    · intro n op n' hn hC hs
      obtain ⟨events, hcall⟩ := Network.call_of_step hs
      exact ⟨hn.1.call (hn.2.drawsUnused hC.1) hC.2 hcall, hn.2.call hn.1 hC.1 hcall⟩
    · constructor <;> simp [Network.init, Router.init]
  exact hok.1.storesAsAsked env

/-- A route is validated, replaced and validated again, and another one with the same content comes
    and goes. -/
def answeredRun : List (NetworkOp Nat) :=
  [.new 5 true, .deliver 0 ⟨true, false⟩ .valid .undefined, .replace 0 6 true, .new 6 true,
    .deliver 1 ⟨true, false⟩ .invalid .undefined, .free 1,
    .deliver 0 ⟨true, false⟩ .invalid .undefined]

theorem answeredRun_stored_as_asked :
    Run.Always (Network.step plainEnv (fun attr => attr + 1))
      (StoresAsAsked plainEnv fun attr => attr + 1) Network.init answeredRun := by
  let step := Network.step plainEnv (fun attr => attr + 1)
  let n₁ : Network Nat :=
    ⟨⟨[some ⟨5, some .lid, 0, 1, .undefined, .undefined⟩], [⟨1, 0⟩], [], 1⟩, [⟨1, 5⟩]⟩
  let n₂ : Network Nat := ⟨⟨[some ⟨5, some .uid, 6, 0, .valid, .undefined⟩], [], [⟨6, 0⟩], 1⟩, []⟩
  let n₃ : Network Nat :=
    ⟨⟨[some ⟨6, some .lid, 0, 2, .undefined, .undefined⟩], [⟨2, 0⟩], [], 2⟩, [⟨2, 6⟩]⟩
  let n₄ : Network Nat :=
    ⟨⟨[some ⟨6, some .lid, 0, 2, .undefined, .undefined⟩,
      some ⟨6, some .lid, 0, 3, .undefined, .undefined⟩], [⟨2, 0⟩, ⟨3, 1⟩], [], 3⟩,
      [⟨2, 6⟩, ⟨3, 6⟩]⟩
  let n₅ : Network Nat :=
    ⟨⟨[some ⟨6, some .lid, 0, 2, .undefined, .undefined⟩,
      some ⟨6, some .uid, 7, 0, .invalid, .undefined⟩], [⟨2, 0⟩], [⟨7, 1⟩], 3⟩, [⟨2, 6⟩]⟩
  let n₆ : Network Nat :=
    ⟨⟨[some ⟨6, some .lid, 0, 2, .undefined, .undefined⟩, none], [⟨2, 0⟩], [], 3⟩, [⟨2, 6⟩]⟩
  have hn₁ : step .init (.new 5 true) = some n₁ := rfl
  have hn₂ : step n₁ (.deliver 0 ⟨true, false⟩ .valid .undefined) = some n₂ := rfl
  have hn₃ : step n₂ (.replace 0 6 true) = some n₃ := rfl
  have hn₄ : step n₃ (.new 6 true) = some n₄ := rfl
  have hn₅ : step n₄ (.deliver 1 ⟨true, false⟩ .invalid .undefined) = some n₅ := rfl
  have hn₆ : step n₅ (.free 1) = some n₆ := rfl
  refine results_stored_as_asked plainEnv _ answeredRun ?_ ?_
  · exact .cons hn₁ (show 0 < maxValueInt by decide) (.cons hn₂ trivial (.cons hn₃
      (show 1 < maxValueInt by decide) (.cons hn₄ (show 2 < maxValueInt by decide) (.cons hn₅ trivial
      (.cons hn₆ trivial (.cons rfl trivial .nil))))))
  · refine .cons hn₁ trivial (.cons hn₂ trivial (.cons hn₃ ⟨?_, ?_⟩ (.cons hn₄ trivial (.cons hn₅
      trivial (.cons hn₆ ?_ (.cons rfl trivial .nil))))))
    · intro info hread
      cases hread
      rfl
    · intro info hread _ i hfind
      cases hread
      cases hfind
      rfl
    · intro info hread _ i hfind
      cases hread
      cases hfind
      rfl

/-! ### A replacement while a request is outstanding -/

theorem exists_ne_result (x : SRxResult) : ∃ y, y ≠ x := by
  by_cases hx : x = .valid
  · exact ⟨.invalid, by simp [hx]⟩
  · exact ⟨.valid, Ne.symm hx⟩

/-- Whenever a route is replaced by other attributes while an answer to its request is to come, this
    answer will be stored for the new attributes. -/
theorem not_storesAsAsked_replace (h : NetworkOk updateIdOf n) {attr : α} {connected : Bool}
    {events : List (Event α δ)} (hread : n.router.routes.read p = some info) {r : Request α}
    (hr : r ∈ n.requests) (hne : r.localID ≠ 0) (hlocal : info.localID = r.localID) (hattr : attr ≠ r.attr)
    (hs : n.call env updateIdOf (.replace p attr connected) = some (n', events)) :
    ¬ StoresAsAsked env updateIdOf n' := by
  intro hstores
  have hafter : n'.router = afterReplace env n.router p info attr ∧ r ∈ n'.requests := by
    cases networkEffect_of_call hs with
    | replace _ _ hread' =>
        cases hread.symm.trans hread'
        exact ⟨rfl, List.mem_append_left _ hr⟩
    | answer hbrings => cases hbrings
  obtain ⟨hrouter, hr'⟩ := hafter
  have hlid : n'.router.infoLidHash =
      n.router.infoLidHash ++ [⟨getNextLocalID n.router.suiLocalID, p⟩] := by
    rw [hrouter, afterReplace_lid h.router.ids hread]
  have hown : ⟨r.localID, p⟩ ∈ n.router.infoLidHash :=
    hlocal ▸ h.router.mem_lid hread (hlocal ▸ hne)
  have hfetch : bgpInfoFetch env.uthash n'.router.infoLidHash r.localID = some p := by
    cases hfetch : bgpInfoFetch env.uthash n'.router.infoLidHash r.localID with
    | none =>
        rw [bgpInfoFetch_eq_none_iff, hlid] at hfetch
        exact absurd rfl (hfetch _ (List.mem_append_left _ hown))
    | some p' =>
        have hitem := bgpInfoFetch_eq_some hfetch
        rw [hlid] at hitem
        rcases List.mem_append.mp hitem with hitem | hitem
        · have heq := h.router.lid.eq_of_identifier hitem hown rfl
          exact congrArg (fun item => some item.info) heq
        · exact congrArg (fun item => some item.info) (List.mem_singleton.mp hitem)
  have hread' : n'.router.routes.read p =
      some (requested env (getNextLocalID n.router.suiLocalID) (resetInfo env attr info)) := by
    rw [hrouter, read_afterReplace hread, if_pos rfl]
  obtain ⟨result, hresult⟩ := exists_ne_result
    (requested env (getNextLocalID n.router.suiLocalID) (resetInfo env attr info)).valResROA
  obtain ⟨s', events', hanswer, hstored⟩ := hstores.answer r hr' hne ⟨true, false⟩ result .undefined
  rw [handleSRxValidationResult_taken hne hfetch hread'] at hanswer
  cases hanswer
  have hattr' := hstored p _ _ hread' ((read_afterAnswer hread' _ p).trans (if_pos rfl)) ?_
  · rw [answered_attr, requested_attr, resetInfo_attr] at hattr'
    exact hattr hattr'
  · intro hsame
    apply hresult
    have hroa : (answered env _ _).valResROA = _ := congrArg Prod.fst hsame
    rwa [answered_valResROA, if_pos rfl] at hroa

/-- A route with the attributes 5 is replaced by 6 while its request is outstanding. -/
def lateAnswer : List (NetworkOp Nat) := [.new 5 true, .replace 0 6 true]

/-- The answer for 5 will be stored for 6. -/
theorem lateAnswer_not_stored_as_asked :
    Run.EachStep (Network.step plainEnv fun attr => attr + 1) DrawsInRange Network.init lateAnswer ∧
      ¬ Run.Always (Network.step plainEnv fun attr => attr + 1)
        (StoresAsAsked plainEnv fun attr => attr + 1) Network.init lateAnswer := by
  let step := Network.step plainEnv (fun attr => attr + 1)
  let n₁ : Network Nat :=
    ⟨⟨[some ⟨5, some .lid, 0, 1, .undefined, .undefined⟩], [⟨1, 0⟩], [], 1⟩, [⟨1, 5⟩]⟩
  let n₂ : Network Nat :=
    ⟨⟨[some ⟨6, some .lid, 0, 2, .undefined, .undefined⟩], [⟨1, 0⟩, ⟨2, 0⟩], [], 2⟩,
      [⟨1, 5⟩, ⟨2, 6⟩]⟩
  have hn₁ : step .init (.new 5 true) = some n₁ := rfl
  have hn₂ : step n₁ (.replace 0 6 true) = some n₂ := rfl
  refine ⟨.cons hn₁ (show 0 < maxValueInt by decide) (.cons hn₂ (show 1 < maxValueInt by decide)
    .nil), ?_⟩
  intro h
  have hstores := h lateAnswer n₂ List.prefix_rfl ((Run.Path.nil.snoc hn₁).snoc hn₂)
  obtain ⟨s', events, hanswer, hstored⟩ := hstores.answer ⟨1, 5⟩ (by decide) (by decide)
    ⟨true, false⟩ .valid .undefined
  cases hanswer
  have hattr : (6 : Nat) = 5 := hstored 0 _ _ rfl rfl (by decide)
  exact absurd hattr (by decide)

end SrxNote.Srx
