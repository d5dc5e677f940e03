import SrxNote.Misc.Run
import SrxNote.Srx.Selection
import SrxNote.Srx.Proofs.BestPath

/-!
# The selected routes are the best ones

A result that does not put its node into the queue changes nothing that the best path
selection reads. So, as long as no command changes the settings, a node that is not
in the queue has its best path selected, and no selected path is one that the
policies ignore. After a command, `srx_bgp_requeue_all` brings the selections up to
date, for the flags that the paths have.
-/

namespace SrxNote.Srx

open Run

variable {β δ : Type} {env : Env (PathAttr β) δ} {later : PathAttr β → PathAttr β → Bool} {bgp : BgpPolicy}
  {r r' : BgpRib β} {pl q : Place} {n : RibNode β} {info : RibPath β} {i : Nat}

/-! ### What the selection reads -/

/-- What the best path selection reads of a path. -/
def RibPath.view (bgp : BgpPolicy) (ri : RibPath β) : PathAttr β × InfoFlags × SRxResult :=
  (ri.attr, ri.flags, ri.state bgp)

theorem view_eq_iff {a b : RibPath β} :
    a.view bgp = b.view bgp ↔ a.attr = b.attr ∧ a.flags = b.flags ∧ a.state bgp = b.state bgp := by
  simp [RibPath.view]

theorem unuseable_of_view {a b : RibPath β} (h : a.view bgp = b.view bgp) : a.unuseable = b.unuseable := by
  rw [RibPath.unuseable, RibPath.unuseable, (view_eq_iff.mp h).2.1]

theorem bgpInfoCmp_of_view {a a' : RibPath β} {b b' : Option (RibPath β)} (ha : a.view bgp = a'.view bgp)
    (hb : b.map (RibPath.view bgp) = b'.map (RibPath.view bgp)) :
    bgpInfoCmp bgp (fun new exist => later new.attr exist.attr) a b =
      bgpInfoCmp bgp (fun new exist => later new.attr exist.attr) a' b' := by
  obtain ⟨hattr, hflags, hstate⟩ := view_eq_iff.mp ha
  cases b with
  | none =>
      cases b' with
      | none => rfl
      | some b' => cases hb
  | some b =>
      cases b' with
      | none => cases hb
      | some b' =>
          obtain ⟨hattr', hflags', hstate'⟩ := view_eq_iff.mp (Option.some.inj hb)
          simp only [RibPath.state] at hstate hstate'
          simp only [bgpInfoCmp, RibPath.pref, hattr, hflags, hstate, hattr', hstate']

/-- Paths that look the same to the selection give the same selection. -/
theorem best_of_views {n n' : RibNode β}
    (h : n.paths.map (RibPath.view bgp) = n'.paths.map (RibPath.view bgp)) :
    n.best bgp later = n'.best bgp later := by
  have hnone : (none : Option (RibPath β)).map (RibPath.view bgp) = none.map (RibPath.view bgp) := rfl
  have hcmp : ∀ a a' b b', a.view bgp = a'.view bgp → b.map (RibPath.view bgp) = b'.map (RibPath.view bgp) →
      bgpInfoCmp bgp (fun new exist : RibPath β => later new.attr exist.attr) a b = bgpInfoCmp bgp _ a' b' :=
    fun _ _ _ _ => bgpInfoCmp_of_view
  have hscan := scan_congr_map (fun _ _ => unuseable_of_view) hcmp h hnone
  have hattr := congrArg (Option.map Prod.fst) hscan
  rw [Option.map_map, Option.map_map] at hattr
  exact hattr

/-- What is selected is a path that is not ignored. -/
theorem exists_of_best {attr : PathAttr β} (h : n.best bgp later = some attr) :
    ∃ ri ∈ n.paths, ri.attr = attr ∧ ri.unuseable = false := by
  obtain ⟨ri, hscan, hattr⟩ := Option.map_eq_some_iff.mp h
  rcases scan_mem hscan with hnone | ⟨hmem, hskip⟩
  · cases hnone
  · exact ⟨ri, hmem, hattr, hskip⟩

/-! ### The flag -/

theorem setIgnore_self (info : RibPath β) : info.setIgnore info.flags.ignore = info := rfl

/-- The flag is set to what the policies say. -/
theorem bgpInfoSetIgnoreFlag_eq (bgp : BgpPolicy) (info : RibPath β) :
    bgpInfoSetIgnoreFlag bgp info = (info.setIgnore (ignores bgp (info.state bgp)), ignores bgp (info.state bgp)) := by
  have hself := setIgnore_self info
  have hstate : srxCalcValidationState bgp.srxConfig info.toBgpInfo = info.state bgp := rfl
  rw [bgpInfoSetIgnoreFlag, hstate]
  cases hold : info.flags.ignore <;> cases hnew : ignores bgp (info.state bgp) <;> simp_all

/-- The flag of the path is what the policies say of its state. -/
def Follows (bgp : BgpPolicy) (ri : RibPath β) : Prop := ri.flags.ignore = ignores bgp (ri.state bgp)

theorem follows_setIgnoreFlag (bgp : BgpPolicy) (info : RibPath β) :
    Follows bgp (bgpInfoSetIgnoreFlag bgp info).1 := by
  rw [bgpInfoSetIgnoreFlag_eq]
  rfl

theorem follows_setResult {resType : ValType} {roaResult bgpsecResult : SRxResult} (h : Follows bgp info) :
    Follows bgp (bgpInfoSetResultRequeue bgp resType roaResult bgpsecResult info).1 := by
  rw [bgpInfoSetResultRequeue]
  split
  · exact h
  · exact follows_setIgnoreFlag bgp _

/-- A result without a requeue leaves the path as the selection sees it. -/
theorem view_of_not_requeue {resType : ValType} {roaResult bgpsecResult : SRxResult}
    (h : (bgpInfoSetResultRequeue bgp resType roaResult bgpsecResult info).2 = false) :
    (bgpInfoSetResultRequeue bgp resType roaResult bgpsecResult info).1.view bgp = info.view bgp := by
  revert h
  rw [bgpInfoSetResultRequeue]
  split
  · intro _
    rfl
  · intro h
    simp only [bgpInfoSetIgnoreFlag_eq, Bool.or_eq_false_iff, bne_eq_false_iff_eq, decide_eq_false_iff_not,
      not_not] at h ⊢
    obtain ⟨hignore, hstate⟩ := h
    refine view_eq_iff.mpr ⟨rfl, ?_, hstate.symm⟩
    rw [RibPath.setIgnore, hignore]

/-! ### Nodes and the queue -/

theorem node_setNode {n' : RibNode β} (hn : r.node pl = some n) (q : Place) :
    (r.setNode pl n').node q = if q = pl then some n' else r.node q := by
  obtain ⟨hlt, -⟩ := List.getElem?_eq_some_iff.mp hn
  rw [BgpRib.node, BgpRib.setNode]
  dsimp only
  by_cases hsafi : q.safi = pl.safi
  · rw [hsafi, Function.update_self]
    by_cases hindex : q.index = pl.index
    · have hq : q = pl := by cases q; cases pl; simp_all
      rw [if_pos hq, hindex, List.getElem?_set_self hlt]
    · have hq : q ≠ pl := fun h => hindex (congrArg Place.index h)
      rw [if_neg hq, List.getElem?_set_ne (Ne.symm hindex), BgpRib.node, hsafi]
  · have hq : q ≠ pl := fun h => hsafi (congrArg Place.safi h)
    rw [if_neg hq, Function.update_of_ne hsafi, BgpRib.node]

@[simp] theorem setNode_bgp (r : BgpRib β) (pl : Place) (n : RibNode β) : (r.setNode pl n).bgp = r.bgp := rfl

@[simp] theorem bgpProcess_bgp (r : BgpRib β) (pl : Place) : (r.bgpProcess pl).bgp = r.bgp := by
  rw [BgpRib.bgpProcess]
  split <;> rfl

@[simp] theorem bgpProcess_rib (r : BgpRib β) (pl : Place) : (r.bgpProcess pl).rib = r.rib := by
  rw [BgpRib.bgpProcess]
  split <;> rfl

@[simp] theorem bgpProcess_node (r : BgpRib β) (pl q : Place) : (r.bgpProcess pl).node q = r.node q := by
  rw [BgpRib.node, BgpRib.node, bgpProcess_rib]

@[simp] theorem mem_queue_bgpProcess : q ∈ (r.bgpProcess pl).queue ↔ q ∈ r.queue ∨ q = pl := by
  rw [BgpRib.bgpProcess]
  split
  · next hmem => exact ⟨.inl, fun h => h.elim id fun heq => heq ▸ hmem⟩
  · simp

theorem changePath_cases {f : RibPath β → RibPath β × Bool} (h : r.changePath pl i f = some r') :
    ∃ n info, r.node pl = some n ∧ n.paths[i]? = some info ∧
      r' = if (f info).2 then (r.setNode pl { n with paths := n.paths.set i (f info).1 }).bgpProcess pl
        else r.setNode pl { n with paths := n.paths.set i (f info).1 } := by
  rw [BgpRib.changePath] at h
  obtain ⟨n, hn, h⟩ := Option.bind_eq_some_iff.mp h
  obtain ⟨info, hinfo, h⟩ := Option.bind_eq_some_iff.mp h
  exact ⟨n, info, hn, hinfo, (Option.some.inj h).symm⟩

/-! ### The selections are up to date -/

namespace BgpRib

/-- A node that is not in the queue has its best path selected. -/
def Current (later : PathAttr β → PathAttr β → Bool) (r : BgpRib β) : Prop :=
  ∀ pl n, r.node pl = some n → pl ∉ r.queue → n.selected = n.best r.bgp later

/-- The flags of all paths are what the policies say. -/
def AllFollow (r : BgpRib β) : Prop := ∀ pl n, r.node pl = some n → ∀ ri ∈ n.paths, Follows r.bgp ri

/-- What holds of every state: a node without paths has nothing selected, and the queue has nodes of the
    tables only, each of them once. -/
structure Ok (r : BgpRib β) : Prop where
  empty : ∀ pl n, r.node pl = some n → n.paths = [] → n.selected = none
  nodes : ∀ pl ∈ r.queue, (r.node pl).isSome
  nodup : r.queue.Nodup

/-- A node that is put into the queue need not be up to date. -/
theorem Current.queued (h : r.Current later) (hn : r.node pl = some n) (n' : RibNode β) :
    ((r.setNode pl n').bgpProcess pl).Current later := by
  intro q m hq hnot
  rw [bgpProcess_node, node_setNode hn] at hq
  rw [mem_queue_bgpProcess, not_or] at hnot
  rw [if_neg hnot.2] at hq
  rw [bgpProcess_bgp]
  exact h q m hq hnot.1

/-- A node whose paths look the same to the selection stays up to date. -/
theorem Current.unchanged {n' : RibNode β} (h : r.Current later) (hn : r.node pl = some n)
    (hselected : n'.selected = n.selected)
    (hviews : n'.paths.map (RibPath.view r.bgp) = n.paths.map (RibPath.view r.bgp)) :
    (r.setNode pl n').Current later := by
  intro q m hq hnot
  rw [node_setNode hn] at hq
  split at hq
  · next heq =>
      cases hq
      rw [hselected, h pl n hn (heq ▸ hnot), setNode_bgp]
      exact (best_of_views hviews).symm
  · exact h q m hq hnot

theorem Current.changePath {f : RibPath β → RibPath β × Bool} (h : r.Current later)
    (hrun : r.changePath pl i f = some r')
    (hf : ∀ n info, r.node pl = some n → n.paths[i]? = some info → (f info).2 = false →
      (f info).1.view r.bgp = info.view r.bgp) : r'.Current later := by
  obtain ⟨n, info, hn, hinfo, rfl⟩ := changePath_cases hrun
  split
  · exact h.queued hn _
  · next hrequeue =>
      refine h.unchanged hn rfl ?_
      rw [List.map_set, hf n info hn hinfo (Bool.eq_false_iff.mpr hrequeue)]
      have hsame : (n.paths.map (RibPath.view r.bgp))[i]? = some (info.view r.bgp) := by
        rw [List.getElem?_map, hinfo, Option.map_some]
      obtain ⟨hlt, hget⟩ := List.getElem?_eq_some_iff.mp hsame
      rw [← hget]
      exact List.set_getElem_self hlt

theorem AllFollow.setNode {n' : RibNode β} (h : r.AllFollow) (hn : r.node pl = some n)
    (hpaths : ∀ ri ∈ n'.paths, Follows r.bgp ri) : (r.setNode pl n').AllFollow := by
  intro q m hq
  rw [node_setNode hn] at hq
  split at hq
  · cases hq
    exact hpaths
  · exact h q m hq

theorem AllFollow.bgpProcess (h : r.AllFollow) (pl : Place) : (r.bgpProcess pl).AllFollow := by
  intro q m hq
  rw [bgpProcess_node] at hq
  rw [bgpProcess_bgp]
  exact h q m hq

theorem AllFollow.changePath {f : RibPath β → RibPath β × Bool} (h : r.AllFollow)
    (hrun : r.changePath pl i f = some r') (hf : ∀ info, Follows r.bgp info → Follows r.bgp (f info).1) :
    r'.AllFollow := by
  obtain ⟨n, info, hn, hinfo, rfl⟩ := changePath_cases hrun
  have hset : (r.setNode pl { n with paths := n.paths.set i (f info).1 }).AllFollow := by
    refine h.setNode hn fun ri hri => ?_
    rcases List.mem_or_eq_of_mem_set hri with hmem | rfl
    · exact h pl n hn ri hmem
    · exact hf info (h pl n hn info (List.mem_of_getElem? hinfo))
  split
  · exact hset.bgpProcess pl
  · exact hset

theorem Ok.setNode {n' : RibNode β} (h : r.Ok) (hn : r.node pl = some n)
    (hempty : n'.paths = [] → n'.selected = none) : (r.setNode pl n').Ok := by
  refine ⟨fun q m hq => ?_, fun q hq => ?_, h.nodup⟩
  · rw [node_setNode hn] at hq
    split at hq
    · cases hq
      exact hempty
    · exact h.empty q m hq
  · rw [node_setNode hn]
    split
    · rfl
    · exact h.nodes q hq

theorem Ok.bgpProcess (h : r.Ok) (hn : (r.node pl).isSome) : (r.bgpProcess pl).Ok := by
  refine ⟨fun q m hq => ?_, fun q hq => ?_, ?_⟩
  · rw [bgpProcess_node] at hq
    exact h.empty q m hq
  · rw [bgpProcess_node]
    rcases mem_queue_bgpProcess.mp hq with hmem | rfl
    · exact h.nodes q hmem
    · exact hn
  · rw [BgpRib.bgpProcess]
    split
    · exact h.nodup
    · next hnot => exact List.nodup_append.mpr ⟨h.nodup, by simp, fun a ha b hb => by grind⟩

theorem Ok.changePath {f : RibPath β → RibPath β × Bool} (h : r.Ok) (hrun : r.changePath pl i f = some r') :
    r'.Ok := by
  obtain ⟨n, info, hn, hinfo, rfl⟩ := changePath_cases hrun
  have hset : (r.setNode pl { n with paths := n.paths.set i (f info).1 }).Ok := by
    refine h.setNode hn fun hnil => ?_
    exact h.empty pl n hn (by simpa using hnil)
  split
  · refine hset.bgpProcess ?_
    rw [node_setNode hn, if_pos rfl]
    rfl
  · exact hset

/-! ### The steps -/

theorem requeueTable_spec (safi : Safi) (k : Nat) (nodes : List (RibNode β)) (r : BgpRib β) :
    (requeueTable safi k nodes r).bgp = r.bgp ∧ (requeueTable safi k nodes r).rib = r.rib ∧
      (∀ q ∈ r.queue, q ∈ (requeueTable safi k nodes r).queue) ∧
      ∀ j n, nodes[j]? = some n → n.paths ≠ [] → ⟨safi, k + j⟩ ∈ (requeueTable safi k nodes r).queue := by
  induction nodes generalizing k r with
  | nil => exact ⟨rfl, rfl, fun _ hq => hq, by simp⟩
  | cons n nodes ih =>
      obtain ⟨hbgp, hrib, hkeep, hqueued⟩ := ih (k + 1) (if n.paths = [] then r else r.bgpProcess ⟨safi, k⟩)
      rw [requeueTable]
      refine ⟨?_, ?_, fun q hq => hkeep q ?_, fun j m hm hpaths => ?_⟩
      · rw [hbgp]
        split
        · rfl
        · exact bgpProcess_bgp r _
      · rw [hrib]
        split
        · rfl
        · exact bgpProcess_rib r _
      · split
        · exact hq
        · exact mem_queue_bgpProcess.mpr (.inl hq)
      · cases j with
        | zero =>
            cases hm
            refine hkeep _ ?_
            rw [if_neg hpaths]
            exact mem_queue_bgpProcess.mpr (.inr rfl)
        | succ j =>
            have hj := hqueued j m hm hpaths
            rwa [Nat.add_assoc, Nat.add_comm 1 j] at hj

theorem Ok.requeueTable (safi : Safi) {k : Nat} {nodes : List (RibNode β)} (h : r.Ok)
    (hnodes : ∀ j, j < nodes.length → (r.node ⟨safi, k + j⟩).isSome) : (requeueTable safi k nodes r).Ok := by
  induction nodes generalizing k r with
  | nil => exact h
  | cons n nodes ih =>
      rw [BgpRib.requeueTable]
      refine ih ?_ fun j hj => ?_
      · split
        · exact h
        · exact h.bgpProcess (hnodes 0 (by simp))
      · have hsome := hnodes (j + 1) (by simpa using hj)
        have hindex : k + 1 + j = k + (j + 1) := by omega
        rw [hindex]
        split
        · exact hsome
        · rwa [bgpProcess_node]

theorem Ok.requeueAll (h : r.Ok) : r.srxBgpRequeueAll.Ok := by
  have hnode : ∀ safi j, j < (r.rib safi).length → (r.node ⟨safi, 0 + j⟩).isSome := by
    intro safi j hj
    rw [BgpRib.node, Nat.zero_add, List.getElem?_eq_getElem hj]
    rfl
  obtain ⟨-, hrib, -⟩ := requeueTable_spec .multicast 0 (r.rib .multicast) r
  refine Ok.requeueTable .unicast (h.requeueTable .multicast (hnode .multicast)) fun j hj => ?_
  rw [BgpRib.node, hrib]
  exact hnode .unicast j hj

/-- All nodes with a path are in the queue, and nothing else is changed. -/
theorem requeueAll_spec (r : BgpRib β) :
    r.srxBgpRequeueAll.bgp = r.bgp ∧ (∀ q, r.srxBgpRequeueAll.node q = r.node q) ∧
      (∀ q ∈ r.queue, q ∈ r.srxBgpRequeueAll.queue) ∧
      ∀ q n, r.node q = some n → n.paths ≠ [] → q ∈ r.srxBgpRequeueAll.queue := by
  obtain ⟨hbgp, hrib, hkeep, hqueued⟩ := requeueTable_spec .multicast 0 (r.rib .multicast) r
  obtain ⟨hbgp', hrib', hkeep', hqueued'⟩ :=
    requeueTable_spec .unicast 0 (r.rib .unicast) (requeueTable .multicast 0 (r.rib .multicast) r)
  refine ⟨hbgp'.trans hbgp, fun q => ?_, fun q hq => hkeep' q (hkeep q hq), fun q n hn hpaths => ?_⟩
  · rw [BgpRib.node, srxBgpRequeueAll, hrib', hrib, BgpRib.node]
  · obtain ⟨safi, j⟩ := q
    cases safi with
    | unicast =>
        have hq := hqueued' j n hn hpaths
        rwa [Nat.zero_add] at hq
    | multicast =>
        have hq := hqueued j n hn hpaths
        rw [Nat.zero_add] at hq
        exact hkeep' _ hq

/-- Whatever the state was, it is up to date but for the queue. -/
theorem Ok.requeueAll_current (h : r.Ok) (later : PathAttr β → PathAttr β → Bool) :
    r.srxBgpRequeueAll.Current later := by
  obtain ⟨-, hnode, -, hqueued⟩ := requeueAll_spec r
  intro q n hn hnot
  rw [hnode] at hn
  have hnil : n.paths = [] := Classical.byContradiction fun hpaths => hnot (hqueued q n hn hpaths)
  rw [h.empty q n hn hnil, RibNode.best, hnil]
  rfl

end BgpRib

/-- The operation is not a command. -/
def BgpRibOp.KeepsSettings : BgpRibOp β → Prop
  | .configure _ => False
  | _ => True

/-- The operation is not a synchronization request. -/
def BgpRibOp.NotSynch : BgpRibOp β → Prop
  | .synch _ => False
  | _ => True

/-- Without communities a path with a flag that follows the policies is left as it is. -/
theorem verifyUpdateResult_self (hecom : env.srxEcommunity = false) (h : Follows bgp info) :
    verifyUpdateResult env bgp info.valResROA info.valResBGPSEC info = info := by
  have hstore : storeDefault (defaultRoaResult env info.attr info.valResROA) info.valResBGPSEC info.toBgpInfo =
      info.toBgpInfo := by
    simp [storeDefault, defaultRoaResult, hecom]
  rw [verifyUpdateResult, hstore, bgpInfoSetIgnoreFlag_eq]
  exact (congrArg info.setIgnore h.symm).trans (setIgnore_self info)

theorem follows_verifyUpdateResult {roaResult bgpsecResult : SRxResult} (bgp : BgpPolicy) (info : RibPath β) :
    Follows bgp (verifyUpdateResult env bgp roaResult bgpsecResult info) := follows_setIgnoreFlag bgp _

theorem process_eq_some (h : bgpRibStep env later r (.process pl) = some r') :
    ∃ n, r.node pl = some n ∧ pl ∈ r.queue ∧
      r' = { r.setNode pl { n with selected := n.best r.bgp later } with queue := r.queue.filter (· ≠ pl) } := by
  obtain ⟨n, hn, h⟩ := Option.bind_eq_some_iff.mp h
  split at h
  · next hmem => exact ⟨n, hn, hmem, (Option.some.inj h).symm⟩
  · cases h

theorem update_eq_some {attr : PathAttr β} {localID : Nat}
    (h : bgpRibStep env later r (.update pl attr localID) = some r') :
    ∃ n, r.node pl = some n ∧
      r' = (r.setNode pl { n with paths := newPath env r.bgp attr localID :: n.paths }).bgpProcess pl := by
  obtain ⟨n, hn, h⟩ := Option.bind_eq_some_iff.mp h
  exact ⟨n, hn, (Option.some.inj h).symm⟩

namespace BgpRib

theorem Ok.step {op : BgpRibOp β} (h : r.Ok) (hstep : bgpRibStep env later r op = some r') : r'.Ok := by
  cases op with
  | update pl attr localID =>
      obtain ⟨n, hn, rfl⟩ := update_eq_some hstep
      refine (h.setNode hn (by simp)).bgpProcess ?_
      rw [node_setNode hn, if_pos rfl]
      rfl
  | replace pl i attr localID =>
      rw [bgpRibStep] at hstep
      exact h.changePath hstep
  | result pl i resType roaResult bgpsecResult => exact h.changePath hstep
  | synch pl =>
      rw [bgpRibStep] at hstep
      exact h.changePath hstep
  | withdraw pl i =>
      rw [bgpRibStep] at hstep
      exact h.changePath hstep
  | configure bgp =>
      cases hstep
      exact ⟨h.empty, h.nodes, h.nodup⟩
  | requeueAll =>
      cases hstep
      exact h.requeueAll
  | process pl =>
      obtain ⟨n, hn, hmem, rfl⟩ := process_eq_some hstep
      have hset : (r.setNode pl { n with selected := n.best r.bgp later }).Ok := by
        refine h.setNode hn fun hnil => ?_
        rw [RibNode.best, hnil]
        rfl
      obtain ⟨hempty, hnodes, hnodup⟩ := hset
      exact ⟨hempty, fun q hq => hnodes q (List.mem_filter.mp hq).1, hnodup.filter _⟩

/-- Without a command the selections stay up to date, and where a synchronization request is handled,
    the flags and the communities must not get in its way. -/
theorem Current.step {op : BgpRibOp β} (h : r.Current later) (hop : op.KeepsSettings)
    (hsynch : op.NotSynch ∨ (env.srxEcommunity = false ∧ r.AllFollow))
    (hstep : bgpRibStep env later r op = some r') : r'.Current later := by
  cases op with
  | update pl attr localID =>
      obtain ⟨n, hn, rfl⟩ := update_eq_some hstep
      exact h.queued hn _
  | replace pl i attr localID =>
      rw [bgpRibStep] at hstep
      refine h.changePath hstep fun _ _ _ _ hrequeue => ?_
      cases hrequeue
  | result pl i resType roaResult bgpsecResult =>
      exact h.changePath hstep fun _ _ _ _ hrequeue => view_of_not_requeue hrequeue
  | synch pl =>
      obtain ⟨hecom, hfollow⟩ := hsynch.resolve_left id
      rw [bgpRibStep] at hstep
      refine h.changePath hstep fun n info hn hinfo _ => ?_
      rw [synchPath, verifyUpdateResult_self hecom (hfollow pl n hn info (List.mem_of_getElem? hinfo))]
  | withdraw pl i =>
      rw [bgpRibStep] at hstep
      refine h.changePath hstep fun _ _ _ _ hrequeue => ?_
      cases hrequeue
  | configure bgp => exact hop.elim
  | requeueAll =>
      cases hstep
      obtain ⟨hbgp, hnode, hkeep, -⟩ := requeueAll_spec r
      intro q n hn hnot
      rw [hnode] at hn
      rw [hbgp]
      exact h q n hn fun hmem => hnot (hkeep q hmem)
  | process pl =>
      obtain ⟨n, hn, hmem, rfl⟩ := process_eq_some hstep
      intro q m hq hnot
      have hq' : (r.setNode pl { n with selected := n.best r.bgp later }).node q = some m := hq
      rw [node_setNode hn] at hq'
      split at hq'
      · cases hq'
        rfl
      · next hne => exact h q m hq' fun hmem' => hnot (List.mem_filter.mpr ⟨hmem', by simpa using hne⟩)

theorem AllFollow.step {op : BgpRibOp β} (h : r.AllFollow) (hop : op.KeepsSettings)
    (hstep : bgpRibStep env later r op = some r') : r'.AllFollow := by
  cases op with
  | update pl attr localID =>
      obtain ⟨n, hn, rfl⟩ := update_eq_some hstep
      refine (h.setNode hn fun ri hri => ?_).bgpProcess pl
      rcases List.mem_cons.mp hri with rfl | hmem
      · exact follows_verifyUpdateResult r.bgp _
      · exact h pl n hn ri hmem
  | replace pl i attr localID =>
      rw [bgpRibStep] at hstep
      exact h.changePath hstep fun _ _ => follows_verifyUpdateResult r.bgp _
  | result pl i resType roaResult bgpsecResult => exact h.changePath hstep fun _ hinfo => follows_setResult hinfo
  | synch pl =>
      rw [bgpRibStep] at hstep
      exact h.changePath hstep fun _ _ => follows_verifyUpdateResult r.bgp _
  | withdraw pl i =>
      rw [bgpRibStep] at hstep
      exact h.changePath hstep fun _ hinfo => hinfo
  | configure bgp => exact hop.elim
  | requeueAll =>
      cases hstep
      obtain ⟨hbgp, hnode, -⟩ := requeueAll_spec r
      intro q n hn
      rw [hnode] at hn
      rw [hbgp]
      exact h q n hn
  | process pl =>
      obtain ⟨n, hn, -, rfl⟩ := process_eq_some hstep
      have hset : (r.setNode pl { n with selected := n.best r.bgp later }).AllFollow := h.setNode hn (h pl n hn)
      exact hset

end BgpRib

/-! ### A router with one node in each table -/

/-- The settings with the origin validation and a policy. -/
def originPolicy (srxValPolicy : UInt16) : BgpPolicy :=
  ⟨srxSetDefault, srxValPolicy, ⟨0, 0, 0⟩, ⟨0, 0, 0⟩, ⟨0, 0, 0⟩, 100⟩

/-- A router without a validator and without communities. -/
def attributeEnv : Env (PathAttr Unit) Unit :=
  ⟨srxSetDefault, none, false, .undefined, .undefined, fun _ => none, fun _ => none, newestFirst⟩

def unicastNode : Place := ⟨.unicast, 0⟩

/-- A route is learned and selected, and found to be invalid. -/
def invalidRoute : List (BgpRibOp Unit) :=
  [.update unicastNode ⟨0, some 100, ()⟩ 1, .process unicastNode,
    .result unicastNode 0 ⟨true, false⟩ .invalid .undefined, .process unicastNode]

/-- The node with the invalid route. -/
def invalidNode (ignore : Bool) (selected : Option (PathAttr Unit)) : RibNode Unit :=
  ⟨[⟨⟨⟨0, some 100, ()⟩, some .lid, 0, 1, .invalid, .undefined⟩, ⟨false, false, false, ignore⟩⟩], selected⟩

/-- The state after a run from the router before its first route. -/
def runPlain (srxValPolicy : UInt16) (ops : List (BgpRibOp Unit)) : Option (BgpRib Unit) :=
  exec (bgpRibStep attributeEnv fun _ _ => false) (BgpRib.init (originPolicy srxValPolicy) fun _ => 1) ops

theorem runPlain_node (srxValPolicy : UInt16) (ops : List (BgpRibOp Unit)) (m : RibNode Unit)
    (hnode : ((runPlain srxValPolicy ops).bind fun s => s.node unicastNode) = some m)
    (hqueue : (runPlain srxValPolicy ops).map BgpRib.queue = some []) :
    ∃ s, runPlain srxValPolicy ops = some s ∧ s.node unicastNode = some m ∧ unicastNode ∉ s.queue := by
  obtain ⟨s, hs, hm⟩ := Option.bind_eq_some_iff.mp hnode
  rw [hs] at hqueue
  refine ⟨s, hs, hm, ?_⟩
  rw [Option.some.inj hqueue]
  exact List.not_mem_nil

/-! ### Runs -/

theorem init_paths {bgp : BgpPolicy} {nodes : Safi → Nat}
    (hn : (BgpRib.init bgp nodes : BgpRib β).node pl = some n) : n = ⟨[], none⟩ := by
  rw [BgpRib.node, BgpRib.init] at hn
  exact List.eq_of_mem_replicate (List.mem_of_getElem? hn)

theorem init_ok (bgp : BgpPolicy) (nodes : Safi → Nat) : (BgpRib.init bgp nodes : BgpRib β).Ok := by
  refine ⟨fun pl n hn _ => ?_, by simp [BgpRib.init], List.nodup_nil⟩
  rw [init_paths hn]

theorem reached_ok {nodes : Safi → Nat} {ops : List (BgpRibOp β)}
    (hrun : exec (bgpRibStep env later) (BgpRib.init bgp nodes) ops = some r) : r.Ok :=
  Path.invariant (C := fun _ _ => True) (fun _ _ _ hok _ hstep => hok.step hstep) (init_ok bgp nodes)
    (path_iff_exec.mpr hrun) fun _ _ _ _ _ _ _ => trivial

/-- Along a run without commands, and without synchronization requests where extended communities are
    used, the flags of all paths are what the policies say; a node that is not in the queue has its best
    path selected, and this is not one that the policies ignore. -/
theorem selections_current {nodes : Safi → Nat} {ops : List (BgpRibOp β)}
    (hops : ∀ op ∈ ops, op.KeepsSettings ∧ (op.NotSynch ∨ env.srxEcommunity = false))
    (hrun : exec (bgpRibStep env later) (BgpRib.init bgp nodes) ops = some r) (hn : r.node pl = some n) :
    (∀ ri ∈ n.paths, ri.flags.ignore = ignores r.bgp (ri.state r.bgp)) ∧
      (pl ∉ r.queue → n.selected = n.best r.bgp later ∧
        ∀ attr, n.selected = some attr →
          ∃ ri ∈ n.paths, ri.attr = attr ∧ ri.unuseable = false ∧ ignores r.bgp (ri.state r.bgp) = false) := by
  have heach : EachStep (bgpRibStep env later)
      (fun _ op => op.KeepsSettings ∧ (op.NotSynch ∨ env.srxEcommunity = false)) (BgpRib.init bgp nodes) ops :=
    fun _ op _ _ hpre _ _ => hops op (hpre.subset (by simp))
  have hinit : (BgpRib.init bgp nodes : BgpRib β).Current later ∧ (BgpRib.init bgp nodes : BgpRib β).AllFollow := by
    refine ⟨fun q m hq _ => ?_, fun q m hq ri hri => ?_⟩
    · rw [init_paths hq]
      rfl
    · rw [init_paths hq] at hri
      cases hri
  have hstep : ∀ s op s', (s.Current later ∧ s.AllFollow) →
      (op.KeepsSettings ∧ (op.NotSynch ∨ env.srxEcommunity = false)) → bgpRibStep env later s op = some s' →
      s'.Current later ∧ s'.AllFollow := by
    intro s op s' hs hop hstep
    have hsynch := hop.2.imp_right fun hecom => And.intro hecom hs.2
    exact ⟨hs.1.step hop.1 hsynch hstep, hs.2.step hop.1 hstep⟩
  obtain ⟨hcurrent, hfollow⟩ := Path.invariant (I := fun s => s.Current later ∧ s.AllFollow) hstep hinit
    (path_iff_exec.mpr hrun) heach
  refine ⟨hfollow pl n hn, fun hnot => ⟨hcurrent pl n hn hnot, fun attr hattr => ?_⟩⟩
  rw [hcurrent pl n hn hnot] at hattr
  obtain ⟨ri, hri, hsame, huse⟩ := exists_of_best hattr
  exact ⟨ri, hri, hsame, huse, (hfollow pl n hn ri hri).symm.trans (ri.not_ignore_of_useable huse)⟩

/-- Where invalid routes are ignored, the route is not selected any more. -/
theorem selections_current_sample :
    ∃ s, runPlain srxValPolicyIgnoreInvalid invalidRoute = some s ∧
      s.node unicastNode = some (invalidNode true none) ∧ none = (invalidNode true none).best s.bgp fun _ _ => false := by
  have hops : ∀ op ∈ invalidRoute, op.KeepsSettings ∧ (op.NotSynch ∨ attributeEnv.srxEcommunity = false) := by
    simp [invalidRoute, BgpRibOp.KeepsSettings, BgpRibOp.NotSynch]
  obtain ⟨s, hrun, hm, hqueue⟩ := runPlain_node srxValPolicyIgnoreInvalid invalidRoute (invalidNode true none)
    rfl rfl
  exact ⟨s, hrun, hm, ((selections_current hops hrun hm).2 hqueue).1⟩

/-- After `srx_bgp_requeue_all`, in whatever state, a node that is not in the queue has its best path
    selected, until there is a command or a synchronization request. -/
theorem requeued_selections_current {nodes : Safi → Nat} {before after : List (BgpRibOp β)}
    (hafter : ∀ op ∈ after, op.KeepsSettings ∧ op.NotSynch)
    (hrun : exec (bgpRibStep env later) (BgpRib.init bgp nodes) (before ++ .requeueAll :: after) = some r)
    (hn : r.node pl = some n) (hnot : pl ∉ r.queue) : n.selected = n.best r.bgp later := by
  rw [exec_append] at hrun
  obtain ⟨s, hs, hrun⟩ := Option.bind_eq_some_iff.mp hrun
  have hrest : exec (bgpRibStep env later) s.srxBgpRequeueAll after = some r := hrun
  have hcurrent : s.srxBgpRequeueAll.Current later := (reached_ok hs).requeueAll_current later
  have heach : EachStep (bgpRibStep env later) (fun _ op => op.KeepsSettings ∧ op.NotSynch)
      s.srxBgpRequeueAll after := fun _ op _ _ hpre _ _ => hafter op (hpre.subset (by simp))
  exact Path.invariant (C := fun _ op => op.KeepsSettings ∧ op.NotSynch) (I := fun s => s.Current later)
    (fun _ _ _ hcur hop hstep => hcur.step hop.1 (.inl hop.2) hstep) hcurrent (path_iff_exec.mpr hrest) heach
    pl n hn hnot

/-- Invalid routes are to be ignored from a command on that comes behind the result. -/
def lateCommand : List (BgpRibOp Unit) := invalidRoute ++ [.configure (originPolicy srxValPolicyIgnoreInvalid)]

/-- The route is still selected after the command, because its flag is as it was. -/
theorem requeued_selections_current_sample :
    ∃ s, runPlain 0 (lateCommand ++ .requeueAll :: [.process unicastNode]) = some s ∧
      s.node unicastNode = some (invalidNode false (some ⟨0, some 100, ()⟩)) ∧
      some ⟨0, some 100, ()⟩ = (invalidNode false (some ⟨0, some 100, ()⟩)).best s.bgp fun _ _ => false := by
  have hafter : ∀ op ∈ [(.process unicastNode : BgpRibOp Unit)], op.KeepsSettings ∧ op.NotSynch := by
    simp [BgpRibOp.KeepsSettings, BgpRibOp.NotSynch]
  obtain ⟨s, hrun, hm, hqueue⟩ := runPlain_node 0 (lateCommand ++ .requeueAll :: [.process unicastNode])
    (invalidNode false (some ⟨0, some 100, ()⟩)) rfl rfl
  exact ⟨s, hrun, hm, requeued_selections_current hafter hrun hm hqueue⟩

/-! ### The queue is worked off -/

/-- The nodes of the queue are processed in any order, and the others stay as they are. -/
theorem process_all (env : Env (PathAttr β) δ) (later : PathAttr β → PathAttr β → Bool) {order : List Place}
    (h : r.Ok) (hnodup : order.Nodup) (horder : ∀ q, q ∈ order ↔ q ∈ r.queue) :
    ∃ r', exec (bgpRibStep env later) r (order.map .process) = some r' ∧ r'.queue = [] ∧ r'.bgp = r.bgp ∧
      ∀ q n, r.node q = some n → ∃ n', r'.node q = some n' ∧ n'.paths = n.paths ∧
        n'.selected = if q ∈ order then n.best r.bgp later else n.selected := by
  induction order generalizing r with
  | nil =>
      have hqueue : r.queue = [] := List.eq_nil_iff_forall_not_mem.mpr fun q hq => by simpa using (horder q).mpr hq
      exact ⟨r, rfl, hqueue, rfl, fun q n hn => ⟨n, hn, rfl, by simp⟩⟩
  | cons pl order ih =>
      obtain ⟨hnot, hnodup'⟩ := List.nodup_cons.mp hnodup
      have hmem : pl ∈ r.queue := (horder pl).mp List.mem_cons_self
      obtain ⟨m, hm⟩ := Option.isSome_iff_exists.mp (h.nodes pl hmem)
      have hstep : bgpRibStep env later r (.process pl) = some
          { r.setNode pl { m with selected := m.best r.bgp later } with queue := r.queue.filter (· ≠ pl) } := by
        rw [bgpRibStep, hm, Option.bind_eq_bind, Option.bind_some, if_pos hmem]
      obtain ⟨r', hrun, hqueue, hbgp, hnodes⟩ := ih (h.step hstep) hnodup' fun q => by
        rw [List.mem_filter, ← horder q, List.mem_cons]
        constructor
        · intro hq
          exact ⟨.inr hq, by simpa using fun heq : q = pl => hnot (heq ▸ hq)⟩
        · intro hq
          exact hq.1.resolve_left (by simpa using hq.2)
      refine ⟨r', ?_, hqueue, hbgp, fun q n hn => ?_⟩
      · rw [List.map_cons, exec, hstep]
        exact hrun
      · have hnode : (r.setNode pl { m with selected := m.best r.bgp later }).node q = _ := node_setNode hm q
        by_cases heq : q = pl
        · subst heq
          rw [if_pos rfl] at hnode
          cases hm.symm.trans hn
          obtain ⟨n', hn', hpaths, hselected⟩ := hnodes q _ hnode
          rw [if_neg hnot] at hselected
          exact ⟨n', hn', hpaths, by rw [hselected, if_pos List.mem_cons_self]⟩
        · rw [if_neg heq, hn] at hnode
          obtain ⟨n', hn', hpaths, hselected⟩ := hnodes q _ hnode
          refine ⟨n', hn', hpaths, ?_⟩
          rw [hselected]
          simp only [List.mem_cons, heq, false_or]
          rfl

/-- In every state that is reached, by commands too, `srx_bgp_requeue_all` and then the nodes of the queue,
    in any order, leave every node with the best of its paths selected under the settings of now. The
    nodes that it does not queue had theirs selected before. -/
theorem apply_policy_selects {nodes : Safi → Nat} {ops : List (BgpRibOp β)}
    (hrun : exec (bgpRibStep env later) (BgpRib.init bgp nodes) ops = some r) {order : List Place}
    (horder : order.Perm r.srxBgpRequeueAll.queue) :
    ∃ r', exec (bgpRibStep env later) r (.requeueAll :: order.map .process) = some r' ∧ r'.queue = [] ∧
      r'.bgp = r.bgp ∧
      (∀ q n, r.node q = some n → ∃ n', r'.node q = some n' ∧ n'.paths = n.paths ∧
        n'.selected = n.best r.bgp later) ∧
      ∀ q n, r.node q = some n → q ∉ r.srxBgpRequeueAll.queue → n.selected = n.best r.bgp later := by
  have hok := reached_ok hrun
  obtain ⟨hbgp, hnode, -, -⟩ := BgpRib.requeueAll_spec r
  have hcurrent : ∀ q n, r.node q = some n → q ∉ r.srxBgpRequeueAll.queue → n.selected = n.best r.bgp later := by
    intro q n hn hnot
    rw [← hnode q] at hn
    rw [← hbgp]
    exact hok.requeueAll_current later q n hn hnot
  have hnodup : order.Nodup := horder.nodup_iff.mpr hok.requeueAll.nodup
  obtain ⟨r', hexec, hqueue, hbgp', hnodes⟩ := process_all env later hok.requeueAll hnodup fun _ => horder.mem_iff
  refine ⟨r', hexec, hqueue, hbgp'.trans hbgp, fun q n hn => ?_, hcurrent⟩
  obtain ⟨n', hn', hpaths, hselected⟩ := hnodes q n ((hnode q).trans hn)
  refine ⟨n', hn', hpaths, ?_⟩
  rw [hselected, hbgp]
  split
  · rfl
  · next hnot => exact hcurrent q n hn fun hmem => hnot (horder.mem_iff.mpr hmem)

/-- The two nodes after the command, of which one has a route. -/
theorem apply_policy_selects_sample :
    ∃ s s', runPlain 0 lateCommand = some s ∧
      exec (bgpRibStep attributeEnv fun _ _ => false) s [.requeueAll, .process unicastNode] = some s' ∧
      s'.queue = [] ∧ s'.bgp = s.bgp ∧
      (∀ q n, s.node q = some n → ∃ n', s'.node q = some n' ∧ n'.paths = n.paths ∧
        n'.selected = n.best s.bgp fun _ _ => false) ∧
      ∀ q n, s.node q = some n → q ∉ s.srxBgpRequeueAll.queue → n.selected = n.best s.bgp fun _ _ => false := by
  have hqueue : (runPlain 0 lateCommand).map (fun s => s.srxBgpRequeueAll.queue) = some [unicastNode] := rfl
  obtain ⟨s, hrun, hs⟩ := Option.map_eq_some_iff.mp hqueue
  have horder : [unicastNode].Perm s.srxBgpRequeueAll.queue := by rw [hs]
  obtain ⟨s', hexec, hselects⟩ := apply_policy_selects hrun horder
  exact ⟨s, s', hrun, hexec, hselects⟩

end SrxNote.Srx
