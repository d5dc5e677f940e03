import Mathlib.Data.List.Perm.Basic
import Mathlib.Data.List.Nodup
import SrxNote.Srx.Proofs.RouterSteps

/-!
# Synchronization

A synchronization request asks for the first path of each node. So all updates are
covered exactly when no path behind a first one has an id. The stored results stay,
but for a first path with a result in its communities, which takes the place of the
stored one.
-/

namespace SrxNote.Srx

variable {α δ : Type} {env : Env α δ} {s s' : Router α} {p : Nat} {info : BgpInfo α}

/-! ### The walk -/

/-- The first paths of the nodes. -/
def firstPaths (nodes : List (List Nat)) : List Nat := nodes.filterMap List.head?

/-- The paths behind the first ones. -/
def laterPaths (nodes : List (List Nat)) : List Nat := nodes.flatMap List.tail

/-- Every path is a first or a later one. -/
theorem flatten_perm (nodes : List (List Nat)) :
    nodes.flatten.Perm (firstPaths nodes ++ laterPaths nodes) := by
  induction nodes with
  | nil => exact .refl _
  | cons node nodes ih =>
      cases node with
      | nil => exact ih
      | cons p ps =>
          have hrest := (ih.append_left ps).trans (List.perm_append_comm_assoc ps _ _)
          exact hrest.cons p

/-- The walk over a table is that over its first paths. -/
theorem processTable_eq (env : Env α δ) (connected : Bool) (nodes : List (List Nat)) (s : Router α) :
    handleSRxSynchRequestProcessTable env connected s nodes =
      handleSRxSynchRequest env connected s (firstPaths nodes) := by
  induction nodes generalizing s with
  | nil => rfl
  | cons node nodes ih =>
      cases node with
      | nil => exact ih s
      | cons p ps =>
          have hfirst : firstPaths ((p :: ps) :: nodes) = p :: firstPaths nodes := rfl
          rw [handleSRxSynchRequestProcessTable, hfirst, handleSRxSynchRequest]
          cases s.routes.read p with
          | none => rfl
          | some binfo =>
              dsimp only
              cases verifyUpdate env s p binfo.valResROA binfo.valResBGPSEC false connected with
              | none => rfl
              | some res => simp only [ih]

theorem handleSRxSynchRequest_append (env : Env α δ) (connected : Bool) (ps qs : List Nat) (s : Router α) :
    handleSRxSynchRequest env connected s (ps ++ qs) =
      (handleSRxSynchRequest env connected s ps).bind fun (s, events) =>
        (handleSRxSynchRequest env connected s qs).map fun (s, events') => (s, events ++ events') := by
  induction ps generalizing s with
  | nil =>
      cases handleSRxSynchRequest env connected s qs <;> simp [handleSRxSynchRequest, *]
  | cons p ps ih =>
      rw [List.cons_append, handleSRxSynchRequest, handleSRxSynchRequest]
      cases s.routes.read p with
      | none => rfl
      | some binfo =>
          dsimp only
          cases verifyUpdate env s p binfo.valResROA binfo.valResBGPSEC false connected with
          | none => rfl
          | some res =>
              simp only [ih]
              cases handleSRxSynchRequest env connected res.1 ps with
              | none => rfl
              | some res' =>
                  simp only [Option.bind_some, Option.map_some]
                  cases handleSRxSynchRequest env connected res'.1 qs <;> simp

/-- The request is the walk over the first paths of both tables. -/
theorem handleSRxSynchRequestTables_eq (env : Env α δ) (connected : Bool) (s : Router α)
    (multicast unicast : List (List Nat)) :
    handleSRxSynchRequestTables env connected s multicast unicast =
      handleSRxSynchRequest env connected s (firstPaths (multicast ++ unicast)) := by
  have hboth : firstPaths (multicast ++ unicast) = firstPaths multicast ++ firstPaths unicast :=
    List.filterMap_append
  rw [handleSRxSynchRequestTables, processTable_eq, hboth, handleSRxSynchRequest_append]
  cases handleSRxSynchRequest env connected s (firstPaths multicast) with
  | none => rfl
  | some res => simp only [processTable_eq, Option.bind_some]

/-! ### One path -/

/-- The path has an id. -/
def BgpInfo.hasId (info : BgpInfo α) : Bool := info.localID ≠ 0 || info.updateID ≠ 0

/-- The path after it was asked for again. -/
def resynched (env : Env α δ) (info : BgpInfo α) : BgpInfo α :=
  storeDefault (defaultRoaResult env info.attr info.valResROA) info.valResBGPSEC info

/-- The message for a path with an id. -/
def synchRequest (env : Env α δ) (info : BgpInfo α) : Event α δ :=
  .verifyUpdate info.localID (checkFlag env.srxConfig srxConfigEvalDistr)
    (defaultRoaResult env info.attr info.valResROA) info.valResBGPSEC info.attr

theorem verifyUpdate_synch (env : Env α δ) (h : s.routes.read p = some info) :
    verifyUpdate env s p info.valResROA info.valResBGPSEC false true =
      some ({ s with routes := s.routes.set p (some (resynched env info)) },
        if info.hasId then [synchRequest env info] else []) := by
  have hid : (decide (info.localID ≠ 0) || decide (info.updateID ≠ 0)) = info.hasId := rfl
  simp only [verifyUpdate, h, Router.modify, Bool.and_false, Bool.false_eq_true, if_false,
    Bool.true_and, hid]
  cases info.hasId <;> rfl

/-- What the message for a path is: none without an id. -/
def requestOf (env : Env α δ) (s : Router α) (p : Nat) : Option (Event α δ) :=
  (s.routes.read p).bind fun info => if info.hasId then some (synchRequest env info) else none

/-- A walk over different paths sends the message for each, and stores only what the communities say. -/
theorem handleSRxSynchRequest_run (env : Env α δ) {ps : List Nat} (hnodup : ps.Nodup)
    (hlive : ∀ p ∈ ps, (s.routes.read p).isSome) :
    ∃ s', handleSRxSynchRequest env true s ps = some (s', ps.filterMap (requestOf env s)) ∧
      s'.infoLidHash = s.infoLidHash ∧ s'.infoUidHash = s.infoUidHash ∧
      ∀ q, s'.routes.read q =
        if q ∈ ps then (s.routes.read q).map (resynched env) else s.routes.read q := by
  induction ps generalizing s with
  | nil => exact ⟨s, rfl, rfl, rfl, fun q => by simp⟩
  | cons p ps ih =>
      obtain ⟨hp, hps⟩ := List.nodup_cons.mp hnodup
      obtain ⟨info, hread⟩ := Option.isSome_iff_exists.mp (hlive p List.mem_cons_self)
      let s₁ : Router α := { s with routes := s.routes.set p (some (resynched env info)) }
      have hread₁ : ∀ q, s₁.routes.read q =
          if q = p then some (resynched env info) else s.routes.read q :=
        fun q => Heap.read_set hread (some (resynched env info)) q
      -- the other paths are as before
      have hother : ∀ q ∈ ps, s₁.routes.read q = s.routes.read q := by
        intro q hq
        rw [hread₁, if_neg]
        rintro rfl
        exact hp hq
      have hlive₁ : ∀ q ∈ ps, (s₁.routes.read q).isSome := by
        intro q hq
        rw [hother q hq]
        exact hlive q (List.mem_cons_of_mem p hq)
      obtain ⟨s', hrun, hlid, huid, hroutes⟩ := ih hps hlive₁
      have hevents : ps.filterMap (requestOf env s₁) = ps.filterMap (requestOf env s) := by
        apply List.filterMap_congr
        intro q hq
        rw [requestOf, requestOf, hother q hq]
      refine ⟨s', ?_, hlid, huid, ?_⟩
      · rw [handleSRxSynchRequest, hread]
        simp only [verifyUpdate_synch env hread]
        rw [hrun, Option.map_some, hevents, List.filterMap_cons, requestOf, hread, Option.bind_some]
        cases info.hasId <;> rfl
      · intro q
        rw [hroutes q, hread₁ q]
        by_cases hqp : q = p
        · subst hqp
          simp [hp, hread]
        · simp [hqp]

/-! ### All updates -/

/-- A request for each path with an id, one for each; and tables, ids and stored results as before. -/
structure Synchronized (s : Router α) (paths : List Nat) (s' : Router α) (events : List (Event α δ)) :
    Prop where
  requests : ∃ asked : List (Nat × Event α δ), asked.map Prod.snd = events ∧
    (asked.map Prod.fst).Perm (paths.filter fun p => (s.routes.read p).any BgpInfo.hasId) ∧
    ∀ x ∈ asked, ∃ info usePathVal roa bgpsec, s.routes.read x.1 = some info ∧
      x.2 = .verifyUpdate info.localID usePathVal roa bgpsec info.attr
  lid : s'.infoLidHash = s.infoLidHash
  uid : s'.infoUidHash = s.infoUidHash
  paths : ∀ p, s'.routes.read p = s.routes.read p

/-- The messages of a walk, each with its path. -/
def askedPaths (env : Env α δ) (s : Router α) (ps : List Nat) : List (Nat × Event α δ) :=
  ps.filterMap fun p => (requestOf env s p).map fun e => (p, e)

theorem askedPaths_snd (env : Env α δ) (s : Router α) (ps : List Nat) :
    (askedPaths env s ps).map Prod.snd = ps.filterMap (requestOf env s) := by
  rw [askedPaths, List.map_filterMap]
  congr 1
  funext p
  cases requestOf env s p <;> rfl

theorem askedPaths_fst (env : Env α δ) (s : Router α) (ps : List Nat) :
    (askedPaths env s ps).map Prod.fst = ps.filter fun p => (s.routes.read p).any BgpInfo.hasId := by
  rw [askedPaths, List.map_filterMap, ← List.filterMap_eq_filter]
  congr 1
  funext p
  cases hread : s.routes.read p with
  | none => simp [requestOf, hread, Option.guard]
  | some info => cases hid : info.hasId <;> simp [requestOf, hread, hid, Option.guard]

/-- A message asks for its path. -/
theorem asked_of_mem {ps : List Nat} : ∀ x ∈ askedPaths env s ps,
    ∃ info usePathVal roa bgpsec, s.routes.read x.1 = some info ∧
      x.2 = .verifyUpdate info.localID usePathVal roa bgpsec info.attr := by
  intro x hx
  obtain ⟨p, -, hmap⟩ := List.mem_filterMap.mp hx
  obtain ⟨e, hrequest, rfl⟩ := Option.map_eq_some_iff.mp hmap
  obtain ⟨info, hread, hif⟩ := Option.bind_eq_some_iff.mp hrequest
  split at hif
  · cases hif
    exact ⟨info, _, _, _, hread, rfl⟩
  · cases hif

theorem checkEcomSRxValid_ne_donotuse (status : Option UInt8) :
    checkEcomSRxValid status ≠ some .donotuse := by
  unfold checkEcomSRxValid
  split
  · exact (nomatch ·)
  · repeat' split
    all_goals exact (nomatch ·)

/-- The communities of a path, where they are read, say the stored result. -/
def CommunityAgrees (env : Env α δ) (info : BgpInfo α) : Prop :=
  env.srxEcommunity = true →
    ∀ r, checkEcomSRxValid (env.ecommunityStatus info.attr) = some r → info.valResROA = r

theorem defaultRoaResult_eq_iff (env : Env α δ) (info : BgpInfo α) :
    defaultRoaResult env info.attr info.valResROA = info.valResROA ↔ CommunityAgrees env info := by
  unfold defaultRoaResult CommunityAgrees
  cases env.srxEcommunity with
  | false => simp
  | true =>
      cases checkEcomSRxValid (env.ecommunityStatus info.attr) with
      | none => simp
      | some r =>
          simp only [if_true, Option.getD_some, forall_const, Option.some.injEq, forall_eq']
          exact eq_comm

/-- The path is as before exactly when its communities do not say otherwise. -/
theorem resynched_eq_self_iff (env : Env α δ) (info : BgpInfo α) :
    resynched env info = info ↔ CommunityAgrees env info := by
  have hfields : resynched env info = info ↔ (resynched env info).valResROA = info.valResROA := by
    constructor
    · exact congrArg BgpInfo.valResROA
    · intro hroa
      obtain ⟨attr, infoHash, updateID, localID, valResROA, valResBGPSEC⟩ := info
      simp only [resynched, storeDefault, ite_self] at hroa ⊢
      rw [hroa]
  rw [hfields, ← defaultRoaResult_eq_iff]
  simp only [resynched, storeDefault]
  by_cases hnot : defaultRoaResult env info.attr info.valResROA = .donotuse
  · -- no community says this, so that it is the stored result
    have hstored : info.valResROA = .donotuse := by
      unfold defaultRoaResult at hnot
      split at hnot
      · cases hcheck : checkEcomSRxValid (env.ecommunityStatus info.attr) with
        | none =>
            rw [hcheck] at hnot
            exact hnot
        | some r =>
            rw [hcheck] at hnot
            exact absurd (hcheck.trans (congrArg some hnot)) (checkEcomSRxValid_ne_donotuse _)
      · exact hnot
    simp [hstored]
  · simp [hnot]

/-- No path behind a first one has an id, and the communities of the first ones agree with what is
    stored. -/
def SynchCovers (env : Env α δ) (s : Router α) (nodes : List (List Nat)) : Prop :=
  (∀ p ∈ laterPaths nodes, ∀ info, s.routes.read p = some info → info.hasId = false) ∧
    ∀ p ∈ firstPaths nodes, ∀ info, s.routes.read p = some info → CommunityAgrees env info

theorem filter_hasId_eq_nil_iff {ps : List Nat} :
    ps.filter (fun p => (s.routes.read p).any BgpInfo.hasId) = [] ↔
      ∀ p ∈ ps, ∀ info, s.routes.read p = some info → info.hasId = false := by
  rw [List.filter_eq_nil_iff]
  constructor
  · intro h p hp info hread
    have hnot := h p hp
    rw [hread, Option.any_some] at hnot
    exact Bool.eq_false_iff.mpr hnot
  · intro h p hp hid
    cases hread : s.routes.read p with
    | none =>
        rw [hread] at hid
        cases hid
    | some info =>
        rw [hread, Option.any_some, h p hp info hread] at hid
        cases hid

/-- The messages of the walk over the first paths are one for each path with an id exactly when no
    later path has one. -/
theorem asked_perm_iff (env : Env α δ) (s : Router α) (nodes : List (List Nat)) :
    (∃ asked : List (Nat × Event α δ), asked.map Prod.snd = (firstPaths nodes).filterMap (requestOf env s) ∧
      (asked.map Prod.fst).Perm (nodes.flatten.filter fun p => (s.routes.read p).any BgpInfo.hasId) ∧
      ∀ x ∈ asked, ∃ info usePathVal roa bgpsec, s.routes.read x.1 = some info ∧
        x.2 = .verifyUpdate info.localID usePathVal roa bgpsec info.attr) ↔
      ∀ p ∈ laterPaths nodes, ∀ info, s.routes.read p = some info → info.hasId = false := by
  have hcover := (flatten_perm nodes).filter fun p => (s.routes.read p).any BgpInfo.hasId
  rw [List.filter_append] at hcover
  rw [← filter_hasId_eq_nil_iff]
  constructor
  · rintro ⟨asked, hevents, hasked, -⟩
    -- as many messages as first paths with an id
    have hmessages := congrArg List.length hevents
    have hpaths := hasked.length_eq
    have hcount := hcover.length_eq
    have hsent := congrArg List.length (askedPaths_snd env s (firstPaths nodes))
    have hids := congrArg List.length (askedPaths_fst env s (firstPaths nodes))
    rw [List.length_map] at hmessages hpaths hsent hids
    rw [List.length_append] at hcount
    exact List.eq_nil_of_length_eq_zero (by omega)
  · intro hnone
    rw [hnone, List.append_nil] at hcover
    refine ⟨askedPaths env s (firstPaths nodes), askedPaths_snd env s _, ?_, asked_of_mem⟩
    rw [askedPaths_fst]
    exact hcover.symm

/-- The walk leaves all paths as they are exactly when the communities of its own agree. -/
theorem resynched_kept_iff {ps : List Nat} (hlive : ∀ p ∈ ps, (s.routes.read p).isSome)
    (hroutes : ∀ q, s'.routes.read q =
      if q ∈ ps then (s.routes.read q).map (resynched env) else s.routes.read q) :
    (∀ p, s'.routes.read p = s.routes.read p) ↔
      ∀ p ∈ ps, ∀ info, s.routes.read p = some info → CommunityAgrees env info := by
  constructor
  · intro h p hp info hread
    have hsame := h p
    rw [hroutes p, if_pos hp, hread] at hsame
    exact (resynched_eq_self_iff env info).mp (Option.some.inj hsame)
  · intro h p
    rw [hroutes p]
    by_cases hp : p ∈ ps
    · obtain ⟨info, hread⟩ := Option.isSome_iff_exists.mp (hlive p hp)
      rw [if_pos hp, hread, Option.map_some, (resynched_eq_self_iff env info).mpr (h p hp info hread)]
    · rw [if_neg hp]

/-- A synchronization request asks for all updates, and keeps what is stored, exactly when no path
    behind the first of its node has an id and the communities of the first paths do not say otherwise. -/
theorem synchronized_iff (env : Env α δ) (s : Router α) {multicast unicast : List (List Nat)}
    (hlive : ∀ p ∈ (multicast ++ unicast).flatten, (s.routes.read p).isSome)
    (hnodup : (multicast ++ unicast).flatten.Nodup) :
    (∃ s' events, handleSRxSynchRequestTables env true s multicast unicast = some (s', events) ∧
        Synchronized s (multicast ++ unicast).flatten s' events) ↔
      SynchCovers env s (multicast ++ unicast) := by
  have hperm := flatten_perm (multicast ++ unicast)
  have hfirst : ∀ p ∈ firstPaths (multicast ++ unicast), (s.routes.read p).isSome :=
    fun p hp => hlive p (hperm.mem_iff.mpr (List.mem_append_left _ hp))
  have hfirstNodup : (firstPaths (multicast ++ unicast)).Nodup :=
    (List.nodup_append.mp (hperm.nodup_iff.mp hnodup)).1
  obtain ⟨s', hrun, hlid, huid, hroutes⟩ := handleSRxSynchRequest_run env hfirstNodup hfirst
  rw [← handleSRxSynchRequestTables_eq] at hrun
  rw [SynchCovers, ← asked_perm_iff, ← resynched_kept_iff hfirst hroutes]
  constructor
  · rintro ⟨s'', events, hrun', hsynch⟩
    cases hrun.symm.trans hrun'
    exact ⟨hsynch.requests, hsynch.paths⟩
  · rintro ⟨hrequests, hpaths⟩
    exact ⟨s', _, hrun, hrequests, hlid, huid, hpaths⟩

/-- The feature off, and no communities. -/
def silentEnv : Env Unit Unit where
  srxConfig := 0
  srxCAPI := none
  srxEcommunity := false
  srxDefaultRoaVal := .undefined
  srxDefaultBgpsecVal := .undefined
  validationData _ := none
  ecommunityStatus _ := none
  uthash := newestFirst

/-- A route with an update id. -/
def validatedRoute (updateID : Nat) : BgpInfo Unit := ⟨(), some .uid, updateID, 0, .valid, .undefined⟩

/-- Two routes and their update ids. -/
def twoRoutes : Router Unit :=
  ⟨[some (validatedRoute 1), some (validatedRoute 2)], [], [⟨1, 0⟩, ⟨2, 1⟩], 2⟩

/-- One path in each of two nodes. -/
theorem twoNodes_synchronized :
    ∃ s' events, handleSRxSynchRequestTables silentEnv true twoRoutes [] [[0], [1]] = some (s', events) ∧
      Synchronized twoRoutes [0, 1] s' events :=
  (synchronized_iff silentEnv twoRoutes (by decide) (by decide)).mpr
    ⟨fun _ h => (nomatch h), fun _ _ _ _ h => (nomatch h)⟩

/-- Two paths of one node: nothing is asked for the second one. -/
theorem oneNode_not_synchronized :
    (∃ s', handleSRxSynchRequestTables silentEnv true twoRoutes [] [[0, 1]] =
        some (s', [.verifyUpdate 0 false .valid .undefined ()])) ∧
      ¬ ∃ s' events,
        handleSRxSynchRequestTables silentEnv true twoRoutes [] [[0, 1]] = some (s', events) ∧
          Synchronized twoRoutes [0, 1] s' events := by
  refine ⟨⟨_, rfl⟩, ?_⟩
  intro h
  have hcovers := (@synchronized_iff Unit Unit silentEnv twoRoutes [] [[0, 1]] (by decide) (by decide)).mp h
  have hnone := hcovers.1 1 (by decide) (validatedRoute 2) rfl
  cases hnone

end SrxNote.Srx
