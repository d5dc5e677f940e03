import SrxNote.Srx.Network
import SrxNote.Srx.Proofs.RouterInv

/-!
# Routes and requests in step

The invariant of the network: the routes and the items of the router are in step,
an answered route has the update id of its content, and a request that is still to
be answered asks about the attributes of the route that waits for it.
-/

namespace SrxNote.Srx

variable {α δ : Type} {env : Env α δ} {updateIdOf : α → Nat} {s s' : Router α} {p : Nat}
  {info : BgpInfo α} {n n' : Network α} {op : NetworkOp α} {events : List (Event α δ)}

/-- The invariant of the router, where the server chooses the update ids. -/
def ServedOk (updateIdOf : α → Nat) (s : Router α) : Prop :=
  RouterOk (fun attr updateID => updateIdOf attr = updateID) s

/-- A request that is still to be answered: the route that waits for it has the attributes it asks
    about, and one without a local id asks about content that has an update id. -/
structure RequestOk (updateIdOf : α → Nat) (s : Router α) (r : Request α) : Prop where
  attr : r.localID ≠ 0 → ∀ q info, ⟨r.localID, q⟩ ∈ s.infoLidHash →
    s.routes.read q = some info → info.attr = r.attr
  known : r.localID = 0 → updateIdOf r.attr ≠ 0

/-- The invariant of the network. -/
structure NetworkOk (updateIdOf : α → Nat) (n : Network α) : Prop where
  router : ServedOk updateIdOf n.router
  requests : ∀ r ∈ n.requests, RequestOk updateIdOf n.router r

/-- The local id that is drawn is new: no route waits under it and no request carries it. -/
def DrawsUnused (n : Network α) : NetworkOp α → Prop
  | .new _ _ => ¬ Known n.router.infoLidHash (getNextLocalID n.router.suiLocalID) ∧
      ∀ r ∈ n.requests, r.localID ≠ getNextLocalID n.router.suiLocalID
  | .replace _ _ _ => ¬ Known n.router.infoLidHash (getNextLocalID n.router.suiLocalID) ∧
      ∀ r ∈ n.requests, r.localID ≠ getNextLocalID n.router.suiLocalID
  | _ => True

/-- No route with an outstanding request is replaced, and a route that is replaced or freed is taken
    out of the table of the update ids. -/
def KeepsInStep (env : Env α δ) (n : Network α) : NetworkOp α → Prop
  | .replace p _ _ => (∀ info, n.router.routes.read p = some info → info.localID = 0) ∧
      RemovesOwn env n.router p
  | .free p => RemovesOwn env n.router p
  | _ => True

/-! ### What one step of the network does -/

/-- The messages for a route that is sent for validation. -/
def requestEvents (env : Env α δ) (s : Router α) (connected : Bool) (attr : α) :
    List (Event α δ) :=
  verifyEvents env connected (getNextLocalID s.suiLocalID)
    (defaultRoaResult env attr env.srxDefaultRoaVal) env.srxDefaultBgpsecVal attr

/-- The answer of the server that an operation brings. -/
inductive Brings (updateIdOf : α → Nat) (n : Network α) : NetworkOp α → Answer → Prop
  | deliver {i : Nat} {r : Request α} (hr : n.requests[i]? = some r) (valType : ValType)
      (roaResult bgpsecResult : SRxResult) :
      Brings updateIdOf n (.deliver i valType roaResult bgpsecResult)
        ⟨updateIdOf r.attr, r.localID, valType, roaResult, bgpsecResult⟩
  | notify (updateID : Nat) (valType : ValType) (roaResult bgpsecResult : SRxResult) :
      Brings updateIdOf n (.notify updateID valType roaResult bgpsecResult)
        ⟨updateID, 0, valType, roaResult, bgpsecResult⟩

/-- All that a step can do. -/
inductive NetworkEffect (env : Env α δ) (updateIdOf : α → Nat) (n : Network α) :
    NetworkOp α → Network α → List (Event α δ) → Prop
  | new (attr : α) (connected : Bool) :
      NetworkEffect env updateIdOf n (.new attr connected)
        ⟨afterNew env n.router attr,
          n.requests ++ sentRequests (requestEvents env n.router connected attr)⟩
        (requestEvents env n.router connected attr)
  | replace {p : Nat} {info : BgpInfo α} (attr : α) (connected : Bool)
      (hread : n.router.routes.read p = some info) :
      NetworkEffect env updateIdOf n (.replace p attr connected)
        ⟨afterReplace env n.router p info attr,
          n.requests ++ sentRequests (requestEvents env n.router connected attr)⟩
        (deleteEvents info ++ requestEvents env n.router connected attr)
  | free {p : Nat} {info : BgpInfo α} (hread : n.router.routes.read p = some info) :
      NetworkEffect env updateIdOf n (.free p) ⟨afterFree env n.router p info, n.requests⟩
        (deleteEvents info)
  | synch {ps : List Nat} {connected : Bool} {s' : Router α} {events : List (Event α δ)}
      (hkeep : KeepsIds n.router s') (hevents : ∀ e ∈ events, AsksAgain n.router e) :
      NetworkEffect env updateIdOf n (.synch ps connected)
        ⟨s', n.requests ++ sentRequests events⟩ events
  | answer {op : NetworkOp α} {answer : Answer} {s' : Router α} {requests : List (Request α)}
      {events : List (Event α δ)} (hbrings : Brings updateIdOf n op answer)
      (hrequests : ∀ r ∈ requests, r ∈ n.requests)
      (heffect : Effect env n.router (.answer answer) s' events) :
      NetworkEffect env updateIdOf n op ⟨s', requests⟩ events

theorem sentRequests_append (events events' : List (Event α δ)) :
    sentRequests (events ++ events') = sentRequests events ++ sentRequests events' :=
  List.filterMap_append

theorem sentRequests_deleteEvents (info : BgpInfo α) :
    sentRequests (deleteEvents info : List (Event α δ)) = [] := by
  unfold deleteEvents
  split <;> rfl

theorem sentRequests_localValidation (env : Env α δ) (attr : α) (valType : ValType)
    (bgpsecResult : SRxResult) :
    sentRequests (localValidation env attr valType bgpsecResult).1 = [] := by
  unfold localValidation
  split
  · split <;> rfl
  · rfl

/-- No answer makes the router ask. -/
theorem sentRequests_answer {answer : Answer} (h : Effect env s (.answer answer) s' events) :
    sentRequests events = [] := by
  cases h with
  | taken hlocal hfetch hread => exact sentRequests_localValidation _ _ _ _
  | stored hlocal hfetch hread => rfl
  | unknown hfetch => rfl

theorem mem_sentRequests_requestEvents {connected : Bool} {attr : α} {r : Request α}
    (h : r ∈ sentRequests (requestEvents env s connected attr)) :
    r = ⟨getNextLocalID s.suiLocalID, attr⟩ := by
  cases connected with
  | false => cases h
  | true => exact List.mem_singleton.mp h

theorem mem_sentRequests_again (h : ∀ e ∈ events, AsksAgain s e) {r : Request α}
    (hr : r ∈ sentRequests events) :
    ∃ q info, s.routes.read q = some info ∧ (info.localID ≠ 0 ∨ info.updateID ≠ 0) ∧
      r = ⟨info.localID, info.attr⟩ := by
  obtain ⟨e, he, hsent⟩ := List.mem_filterMap.mp hr
  obtain ⟨q, info, usePathVal, roa, bgpsec, hread, hasked, rfl⟩ := h e he
  cases hsent
  exact ⟨q, info, hread, hasked, rfl⟩

theorem Network.call_eq_some (h : n.call env updateIdOf op = some (n', events)) :
    ∃ op' requests, n.routerOp updateIdOf op = some (op', requests) ∧
      routerCall env n.router op' = some (n'.router, events) ∧
      n'.requests = requests ++ sentRequests events := by
  rw [Network.call] at h
  split at h
  · cases h
  · rename_i op' requests hop
    rw [Option.map_eq_some_iff] at h
    obtain ⟨⟨s', events'⟩, hcall, heq⟩ := h
    cases heq
    exact ⟨op', requests, hop, hcall, rfl⟩

theorem networkEffect_of_call (h : n.call env updateIdOf op = some (n', events)) :
    NetworkEffect env updateIdOf n op n' events := by
  obtain ⟨op', requests, hop, hcall, hrequests⟩ := Network.call_eq_some h
  have heffect := effect_of_routerCall hcall
  obtain ⟨s', requests'⟩ := n'
  subst hrequests
  cases op with
  | new attr connected =>
      cases hop
      cases heffect with
      | new => exact .new attr connected
  | replace p attr connected =>
      cases hop
      cases heffect with
      | replace _ _ hread =>
          rw [sentRequests_append, sentRequests_deleteEvents]
          exact .replace attr connected hread
  | free p =>
      cases hop
      cases heffect with
      | free hread =>
          rw [sentRequests_deleteEvents, List.append_nil]
          exact .free hread
  | synch ps connected =>
      cases hop
      cases heffect with
      | synch hkeep hevents => exact .synch hkeep hevents
  | deliver i valType roaResult bgpsecResult =>
      rw [Network.routerOp, Option.map_eq_some_iff] at hop
      obtain ⟨r, hr, heq⟩ := hop
      cases heq
      rw [sentRequests_answer heffect, List.append_nil]
      exact .answer (.deliver hr _ _ _) (fun r hr => List.mem_of_mem_eraseIdx hr) heffect
  | notify updateID valType roaResult bgpsecResult =>
      cases hop
      rw [sentRequests_answer heffect, List.append_nil]
      exact .answer (.notify _ _ _ _) (fun r hr => hr) heffect

theorem Network.call_of_step (h : n.step env updateIdOf op = some n') :
    ∃ events, n.call env updateIdOf op = some (n', events) := by
  rw [Network.step, Option.map_eq_some_iff] at h
  obtain ⟨⟨n'', events⟩, hcall, rfl⟩ := h
  exact ⟨events, hcall⟩

/-! ### The requests -/

section Requests

variable {r : Request α}

/-- A request stays in order when no route is added to the ones that wait for it. -/
theorem RequestOk.of_subset (h : RequestOk updateIdOf s r)
    (hlid : ∀ q, ⟨r.localID, q⟩ ∈ s'.infoLidHash → ⟨r.localID, q⟩ ∈ s.infoLidHash)
    (hread : ∀ q info', ⟨r.localID, q⟩ ∈ s.infoLidHash → s'.routes.read q = some info' →
      ∃ info, s.routes.read q = some info ∧ info.attr = info'.attr) :
    RequestOk updateIdOf s' r where
  attr := by
    intro hne q info' hitem hread'
    obtain ⟨info, hinfo, hattr⟩ := hread q info' (hlid q hitem) hread'
    rw [← hattr]
    exact h.attr hne q info (hlid q hitem) hinfo
  known := h.known

theorem RequestOk.draw (h : RequestOk updateIdOf s r) (hd : Draws s s' p info)
    (hunused : r.localID ≠ getNextLocalID s.suiLocalID) : RequestOk updateIdOf s' r := by
  refine h.of_subset ?_ ?_
  · intro q hitem
    rw [hd.lid] at hitem
    rcases List.mem_append.mp hitem with hitem | hitem
    · exact hitem
    · exact absurd (congrArg Item.identifier (List.mem_singleton.mp hitem)) hunused
  · intro q info' hitem hread'
    have hq : q ≠ p := by
      rintro rfl
      exact hd.own _ hitem
    rw [hd.others q hq] at hread'
    exact ⟨info', hread', rfl⟩

/-- The request that is sent: only the route itself waits for it. -/
theorem Draws.requestOk (hd : Draws s s' p info)
    (hunused : ¬ Known s.infoLidHash (getNextLocalID s.suiLocalID)) :
    RequestOk updateIdOf s' ⟨getNextLocalID s.suiLocalID, info.attr⟩ where
  attr := by
    intro _ q info' hitem hread'
    rw [hd.lid] at hitem
    rcases List.mem_append.mp hitem with hitem | hitem
    · exact absurd ⟨_, hitem, rfl⟩ hunused
    · have hq : q = p := congrArg Item.info (List.mem_singleton.mp hitem)
      rw [hq, hd.read] at hread'
      cases hread'
      rfl
  known := fun hzero => absurd hzero (getNextLocalID_ne_zero s.suiLocalID)

theorem RequestOk.taken {answer : Answer} (h : RequestOk updateIdOf s r)
    (hread : s.routes.read p = some info) :
    RequestOk updateIdOf (afterAnswer env s p info answer) r := by
  refine h.of_subset (fun q hitem => mem_of_mem_bgpInfoUnregister hitem) ?_
  intro q info' _ hread'
  rw [read_afterAnswer hread] at hread'
  split at hread'
  · rename_i hq
    cases hread'
    exact ⟨info, hq ▸ hread, rfl⟩
  · exact ⟨info', hread', rfl⟩

theorem RequestOk.free (h : RequestOk updateIdOf s r) (hread : s.routes.read p = some info) :
    RequestOk updateIdOf (afterFree env s p info) r := by
  refine h.of_subset (fun q hitem => (freeTables_sublist .lid).subset hitem) ?_
  intro q info' _ hread'
  rw [read_afterFree hread] at hread'
  split at hread'
  · cases hread'
  · exact ⟨info', hread', rfl⟩

theorem RequestOk.keepsIds (h : RequestOk updateIdOf s r) (hkeep : KeepsIds s s') :
    RequestOk updateIdOf s' r := by
  refine h.of_subset (fun q hitem => hkeep.lid ▸ hitem) ?_
  intro q info' _ hread'
  obtain ⟨info, hread, hids⟩ := hkeep.read hread'
  simp only [BgpInfo.ids, Prod.mk.injEq] at hids
  exact ⟨info, hread, hids.1⟩

/-- A request that is sent again asks about the attributes of the route. -/
theorem ServedOk.requestOk_again (h : ServedOk updateIdOf s) {q : Nat}
    (hread : s.routes.read q = some info) (hasked : info.localID ≠ 0 ∨ info.updateID ≠ 0) :
    RequestOk updateIdOf s ⟨info.localID, info.attr⟩ where
  attr := by
    intro hlocal q' info' hitem hread'
    have hown := h.mem_lid hread hlocal
    have hq : q' = q := congrArg Item.info (h.lid.eq_of_identifier hitem hown rfl)
    rw [hq, hread] at hread'
    cases hread'
    rfl
  known := by
    intro hzero
    have hupdate : info.updateID ≠ 0 := hasked.resolve_left (not_not.mpr hzero)
    rw [(h.answered_of_ne hread hupdate).content]
    exact hupdate

end Requests

/-! ### The invariant -/

theorem NetworkOk.init : NetworkOk updateIdOf (Network.init : Network α) where
  router := RouterOk.init
  requests := by simp [Network.init]

theorem NetworkOk.draw (h : NetworkOk updateIdOf n) (hd : Draws n.router s' p info) (hids : IdsOk s')
    (hunused : ¬ Known n.router.infoLidHash (getNextLocalID n.router.suiLocalID) ∧
      ∀ r ∈ n.requests, r.localID ≠ getNextLocalID n.router.suiLocalID)
    {connected : Bool} {attr : α} (hattr : info.attr = attr) :
    NetworkOk updateIdOf
      ⟨s', n.requests ++ sentRequests (requestEvents env n.router connected attr)⟩ where
  router := hd.routerOk h.router hids hunused.1
  requests := by
    intro r hr
    rcases List.mem_append.mp hr with hr | hr
    · exact (h.requests r hr).draw hd (hunused.2 r hr)
    · rw [mem_sentRequests_requestEvents hr, ← hattr]
      exact hd.requestOk hunused.1

/-- The answer to a request is for the attributes of the route that waits for it. -/
theorem NetworkOk.brings (h : NetworkOk updateIdOf n) {answer : Answer}
    (hbrings : Brings updateIdOf n op answer) (hlocal : answer.localID ≠ 0)
    (hitem : ⟨answer.localID, p⟩ ∈ n.router.infoLidHash)
    (hread : n.router.routes.read p = some info) : updateIdOf info.attr = answer.updateID := by
  cases hbrings with
  | deliver hr _ _ _ => rw [(h.requests _ (List.mem_of_getElem? hr)).attr hlocal p info hitem hread]
  | notify _ _ _ _ => exact absurd rfl hlocal

/-- One step keeps the network in step. -/
theorem NetworkOk.call (h : NetworkOk updateIdOf n) (hunused : DrawsUnused n op)
    (hkeeps : KeepsInStep env n op) (hs : n.call env updateIdOf op = some (n', events)) :
    NetworkOk updateIdOf n' := by
  have hids : IdsOk n'.router := by
    obtain ⟨op', requests, -, hcall, -⟩ := Network.call_eq_some hs
    exact h.router.ids.step (by rw [routerStep, hcall]; rfl)
  cases networkEffect_of_call hs with
  | new attr connected => exact h.draw (draws_new h.router attr) hids hunused rfl
  | replace attr connected hread =>
      have hdraws := draws_replace h.router hread (hkeeps.1 _ hread) hkeeps.2 attr
      exact h.draw hdraws hids hunused (by rw [requested_attr, resetInfo_attr])
  | free hread =>
      exact ⟨h.router.free hids hread hkeeps, fun r hr => (h.requests r hr).free hread⟩
  | synch hkeep hevents =>
      refine ⟨h.router.keepsIds hkeep, fun r hr => ?_⟩
      rcases List.mem_append.mp hr with hr | hr
      · exact (h.requests r hr).keepsIds hkeep
      · obtain ⟨q, info, hread, hasked, rfl⟩ := mem_sentRequests_again hevents hr
        exact (h.router.requestOk_again hread hasked).keepsIds hkeep
  | @answer _ answer _ _ _ hbrings hrequests heffect =>
      have hrequest := fun r hr => h.requests r (hrequests r hr)
      cases heffect with
      | taken hlocal hfetch hread =>
          have hcontent := h.brings hbrings hlocal (bgpInfoFetch_eq_some hfetch) hread
          exact ⟨h.router.taken hids hfetch hread hcontent,
            fun r hr => (hrequest r hr).taken hread⟩
      | stored hlocal hfetch hread =>
          have hkeep := keepsIds_stored hread answer
          exact ⟨h.router.keepsIds hkeep, fun r hr => (hrequest r hr).keepsIds hkeep⟩
      | unknown hfetch => exact ⟨h.router, hrequest⟩

end SrxNote.Srx
