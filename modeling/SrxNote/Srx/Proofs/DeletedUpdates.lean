import SrxNote.Srx.Proofs.StoredResults

/-!
# Which updates the router deletes

`deleteUpdate` is sent for a route that is replaced or freed, and for an answer
whose identifier is not known. The server gives equal content the same update
id, and answers a repeated request twice, so that the update may still be the
one of another route. One step deletes only what no route uses exactly if no
other answered route has content with the same update id
(`deletesUnused_iff`), and so do whole runs of such steps.
-/

namespace SrxNote.Srx

variable {α δ : Type} {env : Env α δ} {updateIdOf : α → Nat} {n n' : Network α} {p : Nat}
  {info : BgpInfo α} {op : NetworkOp α} {events : List (Event α δ)}

/-- Every update that the operation deletes is one that no route has afterwards. -/
def DeletesUnused (env : Env α δ) (updateIdOf : α → Nat) (n : Network α) (op : NetworkOp α) : Prop :=
  ∀ n' events, n.call env updateIdOf op = some (n', events) →
    ∀ u, .deleteUpdate u ∈ events → ∀ q info, n'.router.routes.read q = some info → info.updateID ≠ u

/-- No answered route other than `p` has content with the update id `u`. -/
def NoOtherUser (updateIdOf : α → Nat) (s : Router α) (p : Option Nat) (u : Nat) : Prop :=
  ∀ q info, some q ≠ p → s.routes.read q = some info → info.updateID ≠ 0 → updateIdOf info.attr ≠ u

/-- A route that is replaced or freed after its answer, and a request that is answered when no route
    waits for it any more: no other answered route has content with the same update id. -/
def SharesNoId (updateIdOf : α → Nat) (n : Network α) : NetworkOp α → Prop
  | .replace p _ _ => ∀ info, n.router.routes.read p = some info → info.updateID ≠ 0 →
      NoOtherUser updateIdOf n.router (some p) (updateIdOf info.attr)
  | .free p => ∀ info, n.router.routes.read p = some info → info.updateID ≠ 0 →
      NoOtherUser updateIdOf n.router (some p) (updateIdOf info.attr)
  | .deliver i _ _ _ => ∀ r, n.requests[i]? = some r → r.localID ≠ 0 →
      ¬ Known n.router.infoLidHash r.localID → NoOtherUser updateIdOf n.router none (updateIdOf r.attr)
  | _ => True

/-- No route with an outstanding request is replaced. -/
def ReplacesAnswered (n : Network α) : NetworkOp α → Prop
  | .replace p _ _ => ∀ info, n.router.routes.read p = some info → info.localID = 0
  | _ => True

/-- The server sends no update id 0. -/
def SendsIds (updateIdOf : α → Nat) (n : Network α) : NetworkOp α → Prop
  | .deliver i _ _ _ => ∀ r, n.requests[i]? = some r → updateIdOf r.attr ≠ 0
  | .notify u _ _ _ => u ≠ 0
  | _ => True

theorem mem_deleteEvents {u : Nat} :
    (.deleteUpdate u : Event α δ) ∈ deleteEvents info ↔
      info.infoHash ≠ none ∧ info.updateID ≠ 0 ∧ u = info.updateID := by
  unfold deleteEvents
  split
  · rename_i h
    simp [h.1, h.2]
  · rename_i h
    simp only [List.not_mem_nil, false_iff]
    rintro ⟨hhash, hupdate, -⟩
    exact h ⟨hhash, hupdate⟩

theorem not_mem_verifyEvents {u localID : Nat} {connected : Bool} {roa bgpsec : SRxResult} {attr : α} :
    (.deleteUpdate u : Event α δ) ∉ verifyEvents env connected localID roa bgpsec attr := by
  cases connected <;> simp [verifyEvents]

theorem not_mem_localValidation {u : Nat} {attr : α} {valType : ValType} {bgpsecResult : SRxResult} :
    (.deleteUpdate u : Event α δ) ∉ (localValidation env attr valType bgpsecResult).1 := by
  unfold localValidation
  split
  · split <;> simp
  · simp

/-- Where the other users of an update id are concerned, the table and the content agree. -/
theorem ServedOk.noOtherUser_iff {s : Router α} (h : ServedOk updateIdOf s) {u : Nat} (hu : u ≠ 0)
    (p : Option Nat) : NoOtherUser updateIdOf s p u ↔
      ∀ q info, some q ≠ p → s.routes.read q = some info → info.updateID ≠ u := by
  constructor
  · intro hno q info hq hread hid
    have hne : info.updateID ≠ 0 := hid ▸ hu
    exact hno q info hq hread hne ((h.answered_of_ne hread hne).content.trans hid)
  · intro hno q info hq hread hne hid
    exact hno q info hq hread ((h.answered_of_ne hread hne).content.symm.trans hid)

/-- Both operations that take a route away send the same message. -/
theorem ServedOk.deletes_own_iff {s s' : Router α} (h : ServedOk updateIdOf s)
    (hread : s.routes.read p = some info) {rest : List (Event α δ)}
    (hrest : ∀ u, .deleteUpdate u ∉ rest)
    (hothers : ∀ q, q ≠ p → s'.routes.read q = s.routes.read q)
    (hp : ∀ info', s'.routes.read p = some info' → info'.updateID = 0) :
    (∀ u, .deleteUpdate u ∈ deleteEvents info ++ rest →
        ∀ q info', s'.routes.read q = some info' → info'.updateID ≠ u) ↔
      ∀ info, s.routes.read p = some info → info.updateID ≠ 0 →
        NoOtherUser updateIdOf s (some p) (updateIdOf info.attr) := by
  have hhash := h.infoHash_ne hread
  constructor
  · intro hdeletes info₀ hread₀ hne
    rw [hread] at hread₀
    cases hread₀
    rw [(h.answered_of_ne hread hne).content, h.noOtherUser_iff hne]
    intro q info' hq hread'
    have hq' : q ≠ p := fun heq => hq (congrArg some heq)
    rw [← hothers q hq'] at hread'
    exact hdeletes info.updateID (List.mem_append_left _ (mem_deleteEvents.mpr ⟨hhash, hne, rfl⟩))
      q info' hread'
  · intro hno u hu q info' hread'
    rcases List.mem_append.mp hu with hu | hu
    · obtain ⟨-, hne, rfl⟩ := mem_deleteEvents.mp hu
      by_cases hq : q = p
      · rw [hq] at hread'
        rw [hp info' hread']
        exact Ne.symm hne
      · have hno' := hno info hread hne
        rw [(h.answered_of_ne hread hne).content, h.noOtherUser_iff hne] at hno'
        rw [hothers q hq] at hread'
        exact hno' q info' (fun heq => hq (Option.some.inj heq)) hread'
    · exact absurd hu (hrest u)

/-- An answer that is not known deletes its own update id. -/
theorem ServedOk.deletes_unknown_iff {s : Router α} (h : ServedOk updateIdOf s) {u : Nat}
    (hu : u ≠ 0) :
    (∀ u', (.deleteUpdate u' : Event α δ) ∈ [Event.deleteUpdate u] →
        ∀ q info, s.routes.read q = some info → info.updateID ≠ u') ↔
      NoOtherUser updateIdOf s none u := by
  rw [h.noOtherUser_iff hu]
  constructor
  · intro hdeletes q info _ hread
    exact hdeletes u (List.mem_singleton.mpr rfl) q info hread
  · intro hno u' hu' q info hread
    cases List.mem_singleton.mp hu'
    exact hno q info (by simp) hread

/-- An update id that the table does not know is not used. -/
theorem ServedOk.noOtherUser_of_fetch {s : Router α} (h : ServedOk updateIdOf s) {u : Nat}
    (hu : u ≠ 0) (hfetch : bgpInfoFetch env.uthash s.infoUidHash u = none) :
    NoOtherUser updateIdOf s none u := by
  rw [h.noOtherUser_iff hu]
  intro q info _ hread hid
  have hne : info.updateID ≠ 0 := hid ▸ hu
  have hitem := ((h.answered_of_ne hread hne).uid _).mpr rfl
  exact bgpInfoFetch_eq_none_iff.mp hfetch _ hitem hid

/-- An answer deletes only what no route uses exactly if it is for a request whose route is gone and no
    answered route has its update id. -/
theorem ServedOk.deletes_answer_iff {s s' : Router α} (h : ServedOk updateIdOf s) {answer : Answer}
    (hu : answer.updateID ≠ 0) (heffect : Effect env s (.answer answer) s' events) :
    (∀ u, .deleteUpdate u ∈ events →
        ∀ q info, s'.routes.read q = some info → info.updateID ≠ u) ↔
      (answer.localID ≠ 0 → ¬ Known s.infoLidHash answer.localID →
        NoOtherUser updateIdOf s none answer.updateID) := by
  cases heffect with
  | taken _ hfetch _ =>
      refine iff_of_true (fun u hu => absurd hu not_mem_localValidation) ?_
      intro _ hunknown
      exact absurd ⟨_, bgpInfoFetch_eq_some hfetch, rfl⟩ hunknown
  | stored hlocal _ _ =>
      exact iff_of_true (fun u hu => absurd hu List.not_mem_nil) fun hne => absurd hlocal hne
  | unknown hfetch =>
      rw [h.deletes_unknown_iff hu]
      split at hfetch
      · rename_i hlocal
        rw [bgpInfoFetch_eq_none_iff] at hfetch
        refine ⟨fun hno _ _ => hno, fun hno => hno hlocal ?_⟩
        rintro ⟨item, hitem, hid⟩
        exact hfetch item hitem hid
      · rename_i hlocal
        exact iff_of_true (h.noOtherUser_of_fetch hu hfetch) fun hne => absurd hne hlocal

/-- One step deletes only updates that no route uses exactly if the route or the request concerned
    shares its update id with no other answered route. -/
theorem NetworkOk.deletesUnused_iff (h : NetworkOk updateIdOf n) (hsends : SendsIds updateIdOf n op)
    (hs : n.call env updateIdOf op = some (n', events)) :
    DeletesUnused env updateIdOf n op ↔ SharesNoId updateIdOf n op := by
  have hsame : DeletesUnused env updateIdOf n op ↔ ∀ u, .deleteUpdate u ∈ events →
      ∀ q info, n'.router.routes.read q = some info → info.updateID ≠ u := by
    refine ⟨fun hdeletes => hdeletes n' events hs, fun hdeletes n'' events'' hs' => ?_⟩
    rw [hs] at hs'
    cases hs'
    exact hdeletes
  rw [hsame]
  cases networkEffect_of_call hs with
  | new attr connected => exact iff_of_true (fun u hu => absurd hu not_mem_verifyEvents) trivial
  | replace attr connected hread =>
      refine h.router.deletes_own_iff hread (fun u => not_mem_verifyEvents) ?_ ?_
      · intro q hq
        exact (read_afterReplace hread attr q).trans (if_neg hq)
      · intro info' hread'
        cases ((read_afterReplace hread attr _).trans (if_pos rfl)).symm.trans hread'
        exact resetInfo_updateID (h.router.infoHash_ne hread) attr
  | @free _ info hread =>
      rw [← List.append_nil (deleteEvents info)]
      refine h.router.deletes_own_iff hread (fun u => List.not_mem_nil) ?_ ?_
      · intro q hq
        exact (read_afterFree hread q).trans (if_neg hq)
      · intro info' hread'
        cases ((read_afterFree hread _).trans (if_pos rfl)).symm.trans hread'
  | synch hkeep hevents =>
      refine iff_of_true (fun u hu => ?_) trivial
      obtain ⟨q, info, usePathVal, roa, bgpsec, -, -, heq⟩ := hevents _ hu
      cases heq
  | answer hbrings hrequests heffect =>
      cases hbrings with
      | @deliver i r hr valType roaResult bgpsecResult =>
          rw [h.router.deletes_answer_iff (hsends r hr) heffect]
          constructor
          · intro hshares r' hr'
            cases hr.symm.trans hr'
            exact hshares
          · intro hshares
            exact hshares r hr
      | notify updateID valType roaResult bgpsecResult =>
          have hu : updateID ≠ 0 := hsends
          rw [h.router.deletes_answer_iff hu heffect]
          exact iff_of_true (fun hlocal => absurd rfl hlocal) trivial

/-! ### Whole runs -/

/-- A step of the kind that deletes only what is not used: the local id it draws is new, it replaces
    no route with an outstanding request, the update id that arrives is not 0, and no other answered
    route shares the update id of the route or request concerned. -/
structure SafeStep (updateIdOf : α → Nat) (n : Network α) (op : NetworkOp α) : Prop where
  unused : DrawsUnused n op
  replaces : ReplacesAnswered n op
  sends : SendsIds updateIdOf n op
  shares : SharesNoId updateIdOf n op

/-- Where no other answered route shares the update id, `HASH_FIND` finds the item of the route. -/
theorem ServedOk.removesOwn {s : Router α} (h : ServedOk updateIdOf s)
    (hno : ∀ info, s.routes.read p = some info → info.updateID ≠ 0 →
      NoOtherUser updateIdOf s (some p) (updateIdOf info.attr)) : RemovesOwn env s p := by
  intro info hread _ i hfind
  obtain ⟨item, hitem, hid⟩ := env.uthash.find_some hfind
  have hmem : ⟨item.identifier, item.info⟩ ∈ s.infoUidHash := List.mem_of_getElem? hitem
  obtain ⟨info', hread', hanswered, hupdate'⟩ := (h.route item.info).of_mem_uid hmem
  have hne : info.updateID ≠ 0 := by
    rw [← hid, ← hupdate']
    exact hanswered.updateID
  rw [hitem, Option.map_some]
  by_contra hp
  refine hno info hread hne item.info info' hp hread' hanswered.updateID ?_
  rw [hanswered.content, hupdate', hid, (h.answered_of_ne hread hne).content]

theorem SafeStep.keepsInStep (hsafe : SafeStep updateIdOf n op) (h : NetworkOk updateIdOf n)
    (env : Env α δ) : KeepsInStep env n op := by
  cases op with
  | replace p attr connected => exact ⟨hsafe.replaces, h.router.removesOwn hsafe.shares⟩
  | free p => exact h.router.removesOwn hsafe.shares
  | _ => trivial

/-- In every run of safe steps, each step deletes only updates that no route uses. -/
theorem updates_deleted_unused (env : Env α δ) (updateIdOf : α → Nat) (ops : List (NetworkOp α))
    (hsafe : Run.EachStep (Network.step env updateIdOf) (SafeStep updateIdOf) Network.init ops) :
    Run.EachStep (Network.step env updateIdOf) (DeletesUnused env updateIdOf) Network.init ops := by
  intro ops' op n n' hpre hpath hs
  have hok : NetworkOk updateIdOf n := by
    refine Run.Path.invariant (I := NetworkOk updateIdOf) ?_ NetworkOk.init hpath
      (hsafe.before ((List.prefix_append ops' [op]).trans hpre))
    intro n op n' hn hC hs
    obtain ⟨events, hcall⟩ := Network.call_of_step hs
    exact hn.call hC.unused (hC.keepsInStep hn env) hcall
  have hC := hsafe ops' op n n' hpre hpath hs
  obtain ⟨events, hcall⟩ := Network.call_of_step hs
  exact (hok.deletesUnused_iff hC.sends hcall).mpr hC.shares

/-- A route is validated and freed while another one waits. -/
def freedRun : List (NetworkOp Nat) :=
  [.new 5 true, .deliver 0 ⟨true, false⟩ .valid .undefined, .new 5 true, .free 0]

theorem freedRun_deletes_unused :
    Run.EachStep (Network.step plainEnv fun attr => attr + 1)
      (DeletesUnused plainEnv fun attr => attr + 1) Network.init freedRun := by
  let step := Network.step plainEnv (fun attr => attr + 1)
  let n₁ : Network Nat :=
    ⟨⟨[some ⟨5, some .lid, 0, 1, .undefined, .undefined⟩], [⟨1, 0⟩], [], 1⟩, [⟨1, 5⟩]⟩
  let n₂ : Network Nat := ⟨⟨[some ⟨5, some .uid, 6, 0, .valid, .undefined⟩], [], [⟨6, 0⟩], 1⟩, []⟩
  let n₃ : Network Nat :=
    ⟨⟨[some ⟨5, some .uid, 6, 0, .valid, .undefined⟩,
      some ⟨5, some .lid, 0, 2, .undefined, .undefined⟩], [⟨2, 1⟩], [⟨6, 0⟩], 2⟩, [⟨2, 5⟩]⟩
  have hn₁ : step .init (.new 5 true) = some n₁ := rfl
  have hn₂ : step n₁ (.deliver 0 ⟨true, false⟩ .valid .undefined) = some n₂ := rfl
  have hn₃ : step n₂ (.new 5 true) = some n₃ := rfl
  have hunused : ∀ n : Network Nat, n.router.infoLidHash = [] → n.requests = [] →
      DrawsUnused n (.new 5 true) := by
    intro n hlid hrequests
    simp [DrawsUnused, Known, hlid, hrequests]
  refine updates_deleted_unused plainEnv _ freedRun (.cons hn₁
    ⟨hunused _ rfl rfl, trivial, trivial, trivial⟩ (.cons hn₂
    ⟨trivial, trivial, fun r _ => Nat.succ_ne_zero _, ?_⟩ (.cons hn₃
    ⟨hunused _ rfl rfl, trivial, trivial, trivial⟩ (.cons rfl ⟨trivial, trivial, trivial, ?_⟩ .nil))))
  · intro r hr _ hunknown
    cases hr
    exact absurd ⟨⟨1, 0⟩, by decide, rfl⟩ hunknown
  · intro info hread _ q info' hq hread' hne
    have hlt := Heap.lt_fresh_of_read hread'
    match q, hlt with
    | 0, _ => exact absurd rfl hq
    | 1, _ =>
        cases hread'
        exact absurd rfl hne

/-- A synchronization request crosses the answer, and both requests are answered. -/
def crossedRun : List (NetworkOp Nat) :=
  [.new 5 true, .synch [0] true, .deliver 0 ⟨true, false⟩ .valid .undefined,
    .deliver 0 ⟨true, false⟩ .valid .undefined]

/-- The second answer makes the router delete the update of its own route. -/
theorem crossedRun_deletes_used :
    ¬ Run.EachStep (Network.step plainEnv fun attr => attr + 1)
      (DeletesUnused plainEnv fun attr => attr + 1) Network.init crossedRun := by
  intro h
  let step := Network.step plainEnv (fun attr => attr + 1)
  let n₁ : Network Nat :=
    ⟨⟨[some ⟨5, some .lid, 0, 1, .undefined, .undefined⟩], [⟨1, 0⟩], [], 1⟩, [⟨1, 5⟩]⟩
  let n₂ : Network Nat :=
    ⟨⟨[some ⟨5, some .lid, 0, 1, .undefined, .undefined⟩], [⟨1, 0⟩], [], 1⟩, [⟨1, 5⟩, ⟨1, 5⟩]⟩
  let n₃ : Network Nat :=
    ⟨⟨[some ⟨5, some .uid, 6, 0, .valid, .undefined⟩], [], [⟨6, 0⟩], 1⟩, [⟨1, 5⟩]⟩
  let n₄ : Network Nat := ⟨⟨[some ⟨5, some .uid, 6, 0, .valid, .undefined⟩], [], [⟨6, 0⟩], 1⟩, []⟩
  have hn₁ : step .init (.new 5 true) = some n₁ := rfl
  have hn₂ : step n₁ (.synch [0] true) = some n₂ := rfl
  have hn₃ : step n₂ (.deliver 0 ⟨true, false⟩ .valid .undefined) = some n₃ := rfl
  have hn₄ : step n₃ (.deliver 0 ⟨true, false⟩ .valid .undefined) = some n₄ := rfl
  have hcall : n₃.call plainEnv (fun attr => attr + 1)
      (.deliver 0 ⟨true, false⟩ .valid .undefined) = some (n₄, [.deleteUpdate 6]) := rfl
  have hdeletes := h [.new 5 true, .synch [0] true, .deliver 0 ⟨true, false⟩ .valid .undefined] _ n₃ n₄
    List.prefix_rfl (((Run.Path.nil.snoc hn₁).snoc hn₂).snoc hn₃) hn₄
  exact hdeletes n₄ _ hcall 6 (List.mem_singleton.mpr rfl) 0 _ rfl rfl

end SrxNote.Srx
