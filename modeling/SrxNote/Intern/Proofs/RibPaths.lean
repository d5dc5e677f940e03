import SrxNote.Intern.Proofs.Compare
import SrxNote.Intern.Rib
import SrxNote.Misc.Run

/-!
# The paths of the routes

The count of references keeps the attribute of a route alive, whatever happens
(`Counts`). It says nothing about the path behind the attribute: the branch
for an attribute that comes in again frees the path of the interned attribute,
which may be the one of this route or of another one.
-/

namespace SrxNote.Intern

variable {ρ σ : Type}

/-- The attribute of each route is there, and its BGPsec path was not freed. -/
def RoutesKeepPaths (s : Rib ρ σ) : Prop :=
  ∀ ri ∈ s.routes, ∃ o, s.objects.read ri.attr = some o ∧ pathFreed s.freed o.attr = false

/-- The attribute that `bgp_attr_intern` returns: the one of the table, or the one that is given. -/
def internedAttr (hash : Attrhash σ) (s : Rib ρ σ) (attr : Attr σ) : Option (Attr σ) :=
  match attrhashLookup hash s attr s.backets with
  | none => none
  | some none => some attr
  | some (some p) => (s.objects.read p).map AttrObject.attr

/-- The route is there, with an attribute that compares equal. -/
def SameAttribute [DecidableEq ρ] (hash : Attrhash σ) (s : Rib ρ σ) (id : ρ) (found : Attr σ) : Prop :=
  ∃ ri old, s.routes.find? (fun ri => ri.id = id) = some ri ∧ ri.removed = false ∧
    s.objects.read ri.attr = some old ∧
    attrhashCmpFreed hash s.freed old.attr found = some true

/-- A route refers to the path. -/
def Refers (s : Rib ρ σ) (addr : Nat) : Prop :=
  ∃ ri ∈ s.routes, ∃ o bpa, s.objects.read ri.attr = some o ∧ o.attr.bgpsecPathAttr = some bpa ∧
    bpa.addr = addr

/-- An update with the same attribute does not free a path that a route refers to, and another one
    does not bring in a path that was freed. -/
def UpdateKeepsPaths [DecidableEq ρ] (hash : Attrhash σ) (s : Rib ρ σ) : RibOp ρ σ → Prop
  | .update id attr => ∀ found, internedAttr hash s attr = some found →
      (SameAttribute hash s id found → hasBgpsec found = true →
        ∀ bpa, found.bgpsecPathAttr = some bpa → ¬ Refers s bpa.addr) ∧
      (¬ SameAttribute hash s id found → pathFreed s.freed found = false)
  | _ => True

/-! ### The count of references -/

/-- The count of an attribute; 0 when it is not there. -/
def Rib.refcnt (s : Rib ρ σ) (p : Nat) : Nat :=
  match s.objects.read p with
  | none => 0
  | some o => o.refcnt

/-- The references of the routes and of the others. -/
def Rib.refs (s : Rib ρ σ) (p : Nat) : Nat :=
  s.routes.countP (fun ri => ri.attr = p) + s.held.count p

/-- Every attribute counts `refs` references. -/
def Counts (s : Rib ρ σ) (refs : Nat → Nat) : Prop := ∀ p, s.refcnt p = refs p

/-- One reference more. -/
def oneMore (refs : Nat → Nat) (p q : Nat) : Nat := refs q + if q = p then 1 else 0

/-- Only the attribute behind `p` is another one. -/
structure ChangedAt (s s' : Rib ρ σ) (p : Nat) (o : Option (AttrObject σ)) : Prop where
  routes : s'.routes = s.routes
  held : s'.held = s.held
  freed : s'.freed = s.freed
  read : ∀ q, s'.objects.read q = if q = p then o else s.objects.read q

theorem Rib.refs_congr {s s' : Rib ρ σ} (hroutes : s'.routes = s.routes) (hheld : s'.held = s.held) :
    s'.refs = s.refs := by
  funext q
  rw [Rib.refs, Rib.refs, hroutes, hheld]

theorem ChangedAt.refs_eq {s s' : Rib ρ σ} {p : Nat} {o : Option (AttrObject σ)}
    (h : ChangedAt s s' p o) : s'.refs = s.refs :=
  Rib.refs_congr h.routes h.held

theorem ChangedAt.refcnt_of_ne {s s' : Rib ρ σ} {p : Nat} {o : Option (AttrObject σ)}
    (h : ChangedAt s s' p o) {q : Nat} (hq : q ≠ p) : s'.refcnt q = s.refcnt q := by
  rw [Rib.refcnt, Rib.refcnt, h.read, if_neg hq]

theorem Counts.exists_read {s : Rib ρ σ} {refs : Nat → Nat} (h : Counts s refs) {p : Nat}
    (hp : 0 < refs p) : ∃ o, s.objects.read p = some o := by
  have hcount := h p
  rw [Rib.refcnt] at hcount
  cases hread : s.objects.read p with
  | none =>
      simp only [hread] at hcount
      omega
  | some o => exact ⟨o, rfl⟩

theorem Rib.refs_pos {s : Rib ρ σ} {ri : Route ρ} (hri : ri ∈ s.routes) : 0 < s.refs ri.attr := by
  have hpos : 0 < s.routes.countP fun r => r.attr = ri.attr :=
    List.countP_pos_iff.mpr ⟨ri, hri, by simp⟩
  rw [Rib.refs]
  omega

/-- What `bgp_attr_intern` does: the attribute behind the reference it returns is the interned one,
    with one reference more. -/
theorem bgpAttrIntern_spec {hash : Attrhash σ} {s s' : Rib ρ σ} {attr : Attr σ} {p : Nat}
    (hs : bgpAttrIntern hash s attr = some (s', p)) :
    ∃ o, ChangedAt s s' p (some o) ∧ internedAttr hash s attr = some o.attr ∧
      o.refcnt = s.refcnt p + 1 ∧ ∀ o', s.objects.read p = some o' → o'.attr = o.attr := by
  rw [bgpAttrIntern] at hs
  split at hs
  · cases hs
  · rename_i hlookup
    cases hs
    have hnone : s.objects.read s.objects.fresh = none := by simp [Heap.read, Heap.fresh]
    refine ⟨⟨attr, 1⟩, ⟨rfl, rfl, rfl, fun q => Heap.read_alloc_eq _ _ _⟩, ?_, ?_, ?_⟩
    · rw [internedAttr, hlookup]
    · rw [Rib.refcnt, hnone]
    · intro o' ho'
      cases hnone.symm.trans ho'
  · rename_i q hlookup
    obtain ⟨o, ho, heq⟩ := Option.map_eq_some_iff.mp hs
    cases heq
    refine ⟨{ o with refcnt := o.refcnt + 1 }, ⟨rfl, rfl, rfl, fun q => Heap.read_set ho _ q⟩,
      ?_, ?_, ?_⟩
    · rw [internedAttr, hlookup]
      simp only [ho, Option.map_some]
    · rw [Rib.refcnt, ho]
    · intro o' ho'
      rw [Option.some.inj (ho.symm.trans ho')]

/-- What `bgp_attr_unintern` does: the attribute has one reference less, and is gone with its last
    one. -/
theorem bgpAttrUnintern_spec {s s' : Rib ρ σ} {p : Nat} (hs : bgpAttrUnintern s p = some s') :
    ∃ o, s.objects.read p = some o ∧
      ChangedAt s s' p (if o.refcnt - 1 = 0 then none else some { o with refcnt := o.refcnt - 1 }) := by
  rw [bgpAttrUnintern] at hs
  split at hs
  · cases hs
  · rename_i o ho
    refine ⟨o, ho, ?_⟩
    split at hs
    · rename_i hzero
      cases hs
      refine ⟨rfl, rfl, rfl, fun q => ?_⟩
      rw [if_pos hzero]
      exact Heap.read_set ho _ q
    · rename_i hpos
      cases hs
      refine ⟨rfl, rfl, rfl, fun q => ?_⟩
      rw [if_neg hpos]
      exact Heap.read_set ho _ q

theorem bgpAttrIntern_counts {hash : Attrhash σ} {s s' : Rib ρ σ} {attr : Attr σ} {p : Nat}
    (hs : bgpAttrIntern hash s attr = some (s', p)) {refs : Nat → Nat} (h : Counts s refs) :
    Counts s' (oneMore refs p) := by
  obtain ⟨o, hch, -, hcnt, -⟩ := bgpAttrIntern_spec hs
  intro q
  rw [oneMore]
  by_cases hq : q = p
  · subst hq
    have hread : s'.refcnt q = o.refcnt := by rw [Rib.refcnt, hch.read, if_pos rfl]
    rw [hread, hcnt, h q, if_pos rfl]
  · rw [hch.refcnt_of_ne hq, h q, if_neg hq]
    rfl

theorem bgpAttrUnintern_counts {s s' : Rib ρ σ} {p : Nat} (hs : bgpAttrUnintern s p = some s')
    {refs : Nat → Nat} (h : Counts s (oneMore refs p)) : Counts s' refs := by
  obtain ⟨o, ho, hch⟩ := bgpAttrUnintern_spec hs
  intro q
  have hq' := h q
  rw [oneMore] at hq'
  by_cases hq : q = p
  · subst hq
    have hread : s.refcnt q = o.refcnt := by rw [Rib.refcnt, ho]
    have hafter : s'.refcnt q = o.refcnt - 1 := by
      rw [Rib.refcnt, hch.read, if_pos rfl]
      by_cases hzero : o.refcnt - 1 = 0 <;> simp [hzero]
    rw [if_pos rfl] at hq'
    omega
  · rw [if_neg hq] at hq'
    rw [hch.refcnt_of_ne hq, hq']
    rfl

/-- Releasing a reference leaves the paths of the attributes that stay. -/
theorem bgpAttrUnintern_attr {s s' : Rib ρ σ} {p : Nat} (hs : bgpAttrUnintern s p = some s')
    {q : Nat} {o' : AttrObject σ} (ho' : s'.objects.read q = some o') :
    ∃ o, s.objects.read q = some o ∧ o.attr = o'.attr := by
  obtain ⟨o, ho, hch⟩ := bgpAttrUnintern_spec hs
  rw [hch.read] at ho'
  by_cases hq : q = p
  · subst hq
    rw [if_pos rfl] at ho'
    split at ho'
    · cases ho'
    · cases ho'
      exact ⟨o, ho, rfl⟩
  · rw [if_neg hq] at ho'
    exact ⟨o', ho', rfl⟩

/-! ### The paths of the attributes -/

/-- An attribute that is there before and after has the same path. -/
def SamePaths (s s' : Rib ρ σ) : Prop :=
  ∀ q o o', s.objects.read q = some o → s'.objects.read q = some o' →
    o'.attr.bgpsecPathAttr = o.attr.bgpsecPathAttr

theorem pathFreed_congr {attr attr' : Attr σ} (h : attr'.bgpsecPathAttr = attr.bgpsecPathAttr)
    (freed : List Nat) : pathFreed freed attr' = pathFreed freed attr := by
  rw [pathFreed, pathFreed, h]

/-- Interning leaves every attribute as it is. -/
theorem bgpAttrIntern_attr {hash : Attrhash σ} {s s' : Rib ρ σ} {attr : Attr σ} {p : Nat}
    (hs : bgpAttrIntern hash s attr = some (s', p)) {q : Nat} {o : AttrObject σ}
    (ho : s.objects.read q = some o) : ∃ o', s'.objects.read q = some o' ∧ o'.attr = o.attr := by
  obtain ⟨new, hch, -, -, hold⟩ := bgpAttrIntern_spec hs
  rw [hch.read]
  by_cases hq : q = p
  · subst hq
    exact ⟨new, if_pos rfl, (hold o ho).symm⟩
  · exact ⟨o, by rw [if_neg hq, ho], rfl⟩

/-- After an interning, what keeps the paths keeps those from before it. -/
theorem SamePaths.of_intern {hash : Attrhash σ} {s s₁ s' : Rib ρ σ} {attr : Attr σ} {p : Nat}
    (hs : bgpAttrIntern hash s attr = some (s₁, p)) (h : SamePaths s₁ s') : SamePaths s s' := by
  intro q o o' ho ho'
  obtain ⟨o₁, ho₁, hattr⟩ := bgpAttrIntern_attr hs ho
  rw [h q o₁ o' ho₁ ho', hattr]

theorem SamePaths.refl (s : Rib ρ σ) : SamePaths s s := by
  intro q o o' ho ho'
  rw [Option.some.inj (ho.symm.trans ho')]

theorem SamePaths.unintern {s s₁ s' : Rib ρ σ} {p : Nat} (h : SamePaths s s₁)
    (hs : bgpAttrUnintern s₁ p = some s') : SamePaths s s' := by
  intro q o o' ho ho'
  obtain ⟨o₁, ho₁, hattr⟩ := bgpAttrUnintern_attr hs ho'
  rw [← hattr]
  exact h q o o₁ ho ho₁

theorem bgpAttrUnintern_samePaths {s s' : Rib ρ σ} {p : Nat} (hs : bgpAttrUnintern s p = some s') :
    SamePaths s s' := (SamePaths.refl s).unintern hs

theorem refs_cons (s : Rib ρ σ) (ri : Route ρ) (routes : List (Route ρ)) :
    Rib.refs { s with routes := ri :: routes } =
      oneMore (Rib.refs { s with routes := routes }) ri.attr := by
  funext q
  simp only [Rib.refs, oneMore, List.countP_cons, decide_eq_true_eq, eq_comm (a := q)]
  omega

theorem refs_erase [DecidableEq ρ] {s : Rib ρ σ} {ri : Route ρ} (hri : ri ∈ s.routes) :
    s.refs = oneMore (Rib.refs { s with routes := s.routes.erase ri }) ri.attr := by
  rw [← refs_cons]
  funext q
  have hperm : s.routes.Perm (ri :: s.routes.erase ri) := List.perm_cons_erase hri
  rw [Rib.refs, Rib.refs, hperm.countP_eq]

theorem refs_erase_held {s : Rib ρ σ} {p : Nat} (hp : p ∈ s.held) :
    s.refs = oneMore (Rib.refs { s with held := s.held.erase p }) p := by
  funext q
  have hperm : s.held.Perm (p :: s.held.erase p) := List.perm_cons_erase hp
  rw [Rib.refs, oneMore, Rib.refs, hperm.count_eq, List.count_cons]
  simp only [beq_iff_eq, eq_comm (a := q)]
  omega

/-- The routes that were there keep their paths when nothing is freed. -/
theorem RoutesKeepPaths.mono {s s' : Rib ρ σ} (hP : RoutesKeepPaths s) (hcount : Counts s' s'.refs)
    (hsame : SamePaths s s') (hfreed : s'.freed = s.freed) {ri : Route ρ} (hri : ri ∈ s'.routes)
    (hold : ∃ r ∈ s.routes, r.attr = ri.attr) :
    ∃ o, s'.objects.read ri.attr = some o ∧ pathFreed s'.freed o.attr = false := by
  obtain ⟨o', ho'⟩ := hcount.exists_read (Rib.refs_pos hri)
  obtain ⟨r, hr, hattr⟩ := hold
  obtain ⟨o, ho, hfree⟩ := hP r hr
  rw [hattr] at ho
  refine ⟨o', ho', ?_⟩
  rw [pathFreed_congr (hsame _ o o' ho ho'), hfreed]
  exact hfree

/-! ### `bgp_update_main` -/

/-- The flag is cleared in place: the counts stay. -/
theorem Counts.unset {s : Rib ρ σ} {p : Nat} {o : AttrObject σ} (ho : s.objects.read p = some o)
    {refs : Nat → Nat} (h : Counts s refs) (freed : List Nat) :
    Counts { s with
      objects := s.objects.set p (some { o with attr := unsetBgpsec o.attr }), freed := freed } refs := by
  intro q
  rw [← h q, Rib.refcnt, Rib.refcnt, Heap.read_set ho]
  by_cases hq : q = p
  · subst hq
    rw [if_pos rfl, ho]
  · rw [if_neg hq]

/-- The path stays, too. -/
theorem samePaths_unset {s : Rib ρ σ} {p : Nat} {o : AttrObject σ} (ho : s.objects.read p = some o)
    (freed : List Nat) :
    SamePaths s { s with
      objects := s.objects.set p (some { o with attr := unsetBgpsec o.attr }), freed := freed } := by
  intro q o₁ o₁' ho₁ ho₁'
  rw [Heap.read_set ho] at ho₁'
  by_cases hq : q = p
  · subst hq
    rw [if_pos rfl] at ho₁'
    cases ho₁'
    rw [Option.some.inj (ho₁.symm.trans ho)]
    rfl
  · rw [if_neg hq, ho₁] at ho₁'
    cases ho₁'
    rfl

/-- What the branch for the same attribute does to the state after the interning. -/
theorem sameAttribute_spec {s s' : Rib ρ σ} {p : Nat} {o : AttrObject σ}
    (ho : s.objects.read p = some o) (hs : sameAttribute s p = some s') {refs : Nat → Nat}
    (h : Counts s (oneMore refs p)) :
    s'.routes = s.routes ∧ s'.held = s.held ∧ Counts s' refs ∧ SamePaths s s' ∧
      s'.freed = if hasBgpsec o.attr then (o.attr.bgpsecPathAttr.map AttrNode.addr).toList ++ s.freed
        else s.freed := by
  have hplain : bgpAttrUnintern s p = some s' → s'.routes = s.routes ∧ s'.held = s.held ∧
      Counts s' refs ∧ SamePaths s s' ∧ s'.freed = s.freed := by
    intro hs
    obtain ⟨_, -, hch⟩ := bgpAttrUnintern_spec hs
    exact ⟨hch.routes, hch.held, bgpAttrUnintern_counts hs h, bgpAttrUnintern_samePaths hs, hch.freed⟩
  rw [sameAttribute, ho] at hs
  cases hpath : o.attr.bgpsecPathAttr with
  | none =>
      simp only [hpath] at hs
      simpa using hplain hs
  | some bpa =>
      simp only [hpath] at hs
      cases hflag : hasBgpsec o.attr with
      | false =>
          simp only [hflag, Bool.false_eq_true, if_false] at hs ⊢
          exact hplain hs
      | true =>
          simp only [hflag, if_true] at hs ⊢
          obtain ⟨s₁, hs₁, hs⟩ := Option.bind_eq_some_iff.mp hs
          rw [freePath] at hs₁
          split at hs₁
          · cases hs₁
          cases hs₁
          obtain ⟨o₁, ho₁, hch⟩ := bgpAttrUnintern_spec hs
          exact ⟨hch.routes, hch.held, bgpAttrUnintern_counts hs (h.unset ho _),
            (samePaths_unset ho _).unintern hs, hch.freed⟩

/-- A step that frees no path and adds no route. -/
structure KeepsRoutes (s s' : Rib ρ σ) : Prop where
  counts : Counts s' s'.refs
  samePaths : SamePaths s s'
  freed : s'.freed = s.freed
  routes : ∀ ri ∈ s'.routes, ∃ r ∈ s.routes, r.attr = ri.attr

theorem KeepsRoutes.keepPaths {s s' : Rib ρ σ} (h : KeepsRoutes s s') (hP : RoutesKeepPaths s) :
    RoutesKeepPaths s' := by
  intro ri hri
  exact hP.mono h.counts h.samePaths h.freed hri (h.routes ri hri)

/-- A reference is given back, and with it a route or the entry of another holder. -/
theorem keepsRoutes_unintern {s s₁ s' : Rib ρ σ} {p : Nat} (h : Counts s s.refs)
    (hs₁ : bgpAttrUnintern s p = some s₁) (hobjects : s'.objects = s₁.objects)
    (hfreed : s'.freed = s₁.freed) (hrefs : s.refs = oneMore s'.refs p)
    (hsub : s'.routes ⊆ s.routes) : KeepsRoutes s s' := by
  obtain ⟨_, -, hch⟩ := bgpAttrUnintern_spec hs₁
  refine ⟨?_, ?_, hfreed.trans hch.freed, fun ri hri => ⟨ri, hsub hri, rfl⟩⟩
  · intro p
    rw [Rib.refcnt, hobjects]
    exact bgpAttrUnintern_counts hs₁ (hrefs ▸ h) p
  · intro q o o' ho ho'
    rw [hobjects] at ho'
    exact bgpAttrUnintern_samePaths hs₁ q o o' ho ho'

/-- A path is freed for the routes exactly when one refers to it. -/
theorem pathFreed_append {freed : List Nat} {attr : Attr σ} {addrs : List Nat}
    (h : pathFreed freed attr = false) :
    pathFreed (addrs ++ freed) attr = false ↔
      ∀ bpa, attr.bgpsecPathAttr = some bpa → bpa.addr ∉ addrs := by
  rw [pathFreed] at h ⊢
  cases hpath : attr.bgpsecPathAttr with
  | none => simp
  | some bpa =>
      simp only [hpath, decide_eq_false_iff_not] at h
      simp [h]

/-- With a new route in front the routes keep their paths exactly when the new route's is there. -/
theorem routesKeepPaths_cons_iff {s s' : Rib ρ σ} {ri : Route ρ} {routes : List (Route ρ)}
    {o : AttrObject σ} (hP : RoutesKeepPaths s) (hcount : Counts s' s'.refs) (hpaths : SamePaths s s')
    (hfreed : s'.freed = s.freed) (hroutes : s'.routes = ri :: routes) (hsub : routes ⊆ s.routes)
    (ho : s'.objects.read ri.attr = some o) :
    RoutesKeepPaths s' ↔ pathFreed s'.freed o.attr = false := by
  constructor
  · intro hP'
    obtain ⟨o', ho', hfree⟩ := hP' ri (hroutes ▸ List.mem_cons_self)
    rw [Option.some.inj (ho.symm.trans ho')]
    exact hfree
  · intro hfree r hr
    have hr' := hr
    rw [hroutes] at hr'
    rcases List.mem_cons.mp hr' with rfl | hmem
    · exact ⟨o, ho, hfree⟩
    · exact hP.mono hcount hpaths hfreed hr ⟨r, hsub hmem, rfl⟩

/-- When a path is freed the routes keep theirs exactly when none refers to it. -/
theorem routesKeepPaths_freed_iff {s s' : Rib ρ σ} {path : Option AttrNode}
    (hP : RoutesKeepPaths s) (hcount : Counts s' s'.refs) (hpaths : SamePaths s s')
    (hroutes : s'.routes = s.routes)
    (hfreed : s'.freed = (path.map AttrNode.addr).toList ++ s.freed) :
    RoutesKeepPaths s' ↔ ∀ bpa, path = some bpa → ¬ Refers s bpa.addr := by
  have hafter : ∀ ri ∈ s.routes, ∀ o, s.objects.read ri.attr = some o →
      ∃ o', s'.objects.read ri.attr = some o' ∧
        o'.attr.bgpsecPathAttr = o.attr.bgpsecPathAttr := by
    intro ri hri o ho
    obtain ⟨o', ho'⟩ := hcount.exists_read (Rib.refs_pos (hroutes ▸ hri))
    exact ⟨o', ho', hpaths _ o o' ho ho'⟩
  constructor
  · rintro hP' bpa rfl ⟨ri, hri, o, bpa', ho, hpath, haddr⟩
    obtain ⟨o', ho', hsame⟩ := hafter ri hri o ho
    obtain ⟨o₁, ho₁, hfree⟩ := hP' ri (hroutes ▸ hri)
    cases ho'.symm.trans ho₁
    simp only [pathFreed, hsame, hpath, hfreed, haddr] at hfree
    simp at hfree
  · intro hnone ri hri
    rw [hroutes] at hri
    obtain ⟨o, ho, hfree⟩ := hP ri hri
    obtain ⟨o', ho', hsame⟩ := hafter ri hri o ho
    refine ⟨o', ho', ?_⟩
    rw [pathFreed_congr hsame, hfreed, pathFreed_append hfree]
    intro bpa hbpa hmem
    simp only [Option.mem_toList, Option.map_eq_some_iff] at hmem
    obtain ⟨bpa', hbpa', haddr⟩ := hmem
    exact hnone bpa' hbpa' ⟨ri, hri, o, bpa, ho, hbpa, haddr.symm⟩

section Steps

variable [DecidableEq ρ] {hash : Attrhash σ} {s s' : Rib ρ σ}

/-- The comparison that decides about an update of a route. -/
theorem sameAttribute_iff_cmp {id : ρ} {ri : Route ρ} {old : AttrObject σ}
    (hfind : s.routes.find? (fun ri => ri.id = id) = some ri)
    (hold : s.objects.read ri.attr = some old) (found : Attr σ) :
    SameAttribute hash s id found ↔
      (if ri.removed then some false else attrhashCmpFreed hash s.freed old.attr found) =
        some true := by
  constructor
  · rintro ⟨ri', old', hfind', hrem, hold', hcmp⟩
    cases hfind.symm.trans hfind'
    cases hold.symm.trans hold'
    rw [hrem]
    exact hcmp
  · intro hcmp
    cases hrem : ri.removed with
    | true => simp [hrem] at hcmp
    | false =>
        simp only [hrem, Bool.false_eq_true, if_false] at hcmp
        exact ⟨ri, old, hfind, hrem, hold, hcmp⟩

/-- The route gets another attribute, to which it already holds a reference. -/
theorem changedRoute_spec {s₂ : Rib ρ σ} {p : Nat} {o : AttrObject σ} {ri : Route ρ}
    (h : Counts s (oneMore s.refs p)) (hri : ri ∈ s.routes)
    (hs : bgpAttrUnintern s ri.attr = some s₂) (hp : s.objects.read p = some o) (id : ρ) :
    Counts { s₂ with routes := ⟨id, p, false⟩ :: s₂.routes.erase ri }
        (Rib.refs { s₂ with routes := ⟨id, p, false⟩ :: s₂.routes.erase ri }) ∧
      SamePaths s s₂ ∧ s₂.freed = s.freed ∧ s₂.routes.erase ri = s.routes.erase ri ∧
      ∃ o', s₂.objects.read p = some o' ∧ o'.attr.bgpsecPathAttr = o.attr.bgpsecPathAttr := by
  obtain ⟨_, -, hch⟩ := bgpAttrUnintern_spec hs
  have hpaths := bgpAttrUnintern_samePaths hs
  have hroutes : s₂.routes.erase ri = s.routes.erase ri := by rw [hch.routes]
  have hcount : Counts s₂ (oneMore (Rib.refs { s₂ with routes := s₂.routes.erase ri }) p) := by
    refine bgpAttrUnintern_counts hs fun q => ?_
    have hrefs := refs_erase hri
    rw [h q, oneMore, oneMore, oneMore, hrefs, oneMore]
    simp only [Rib.refs, hroutes, hch.held]
    omega
  obtain ⟨o', ho'⟩ : ∃ o', s₂.objects.read p = some o' := hcount.exists_read (by simp [oneMore])
  refine ⟨?_, hpaths, hch.freed, hroutes, o', ho', hpaths p o o' hp ho'⟩
  rw [refs_cons]
  exact hcount

/-- What `bgp_update_main` can do: put a route with the interned attribute in front of routes that
    were there, or free the path of the interned attribute when the route has the same attribute. -/
theorem bgpUpdateMain_cases {id : ρ} {attr : Attr σ} (h : Counts s s.refs)
    (hs : bgpUpdateMain hash s id attr = some s') :
    ∃ found, internedAttr hash s attr = some found ∧ Counts s' s'.refs ∧ SamePaths s s' ∧
      ((¬ SameAttribute hash s id found ∧ s'.freed = s.freed ∧ ∃ p routes o,
          s'.routes = ⟨id, p, false⟩ :: routes ∧ routes ⊆ s.routes ∧
          s'.objects.read p = some o ∧ o.attr.bgpsecPathAttr = found.bgpsecPathAttr) ∨
        (SameAttribute hash s id found ∧ s'.routes = s.routes ∧
          s'.freed = if hasBgpsec found then (found.bgpsecPathAttr.map AttrNode.addr).toList ++ s.freed
            else s.freed)) := by
  rw [bgpUpdateMain] at hs
  split at hs
  · cases hs
  rename_i s₁ p hintern
  obtain ⟨o, hch, hfound, -, -⟩ := bgpAttrIntern_spec hintern
  have hcount₁ : Counts s₁ (oneMore s₁.refs p) := by
    rw [hch.refs_eq]
    exact bgpAttrIntern_counts hintern h
  have hnew : s₁.objects.read p = some o := by rw [hch.read, if_pos rfl]
  refine ⟨o.attr, hfound, ?_⟩
  split at hs
  · -- a new route
    rename_i hfind
    rw [hch.routes] at hfind
    cases hs
    refine ⟨?_, ?_, .inl ⟨?_, hch.freed, p, s₁.routes, o, rfl, ?_, hnew, rfl⟩⟩
    · rw [refs_cons]
      exact hcount₁
    · exact SamePaths.of_intern hintern (SamePaths.refl s₁)
    · rintro ⟨ri, _, hri, -⟩
      cases hfind.symm.trans hri
    · rw [hch.routes]
      exact List.Subset.refl _
  · rename_i ri hfind
    have hri : ri ∈ s₁.routes := List.mem_of_find?_eq_some hfind
    rw [hch.routes] at hfind
    split at hs
    · rename_i old new hold hnew'
      cases hnew.symm.trans hnew'
      -- the attribute of the route before the interning is the same one
      obtain ⟨old₀, hold₀⟩ := h.exists_read (Rib.refs_pos (hch.routes ▸ hri))
      have holdAttr : old.attr = old₀.attr := by
        obtain ⟨old₁, hold₁, hattr⟩ := bgpAttrIntern_attr hintern hold₀
        rw [Option.some.inj (hold.symm.trans hold₁), hattr]
      have hsame : SameAttribute hash s id o.attr ↔ _ := sameAttribute_iff_cmp hfind hold₀ o.attr
      rw [← holdAttr, ← hch.freed] at hsame
      split at hs
      · cases hs
      · -- the same attribute
        rename_i hcmp
        obtain ⟨hroutes, hheld, hcount, hpaths, hfreed⟩ := sameAttribute_spec hnew hs hcount₁
        have hrefs : s'.refs = s₁.refs := Rib.refs_congr hroutes hheld
        refine ⟨hrefs ▸ hcount, hpaths.of_intern hintern,
          .inr ⟨hsame.mpr hcmp, hroutes.trans hch.routes, ?_⟩⟩
        rw [hfreed, hch.freed]
      · -- the attribute is changed
        rename_i hcmp
        obtain ⟨s₂, hs₂, rfl⟩ := Option.map_eq_some_iff.mp hs
        obtain ⟨hcount, hpaths, hfreed, hroutes, o', ho', hpath⟩ :=
          changedRoute_spec hcount₁ hri hs₂ hnew id
        refine ⟨hcount, hpaths.of_intern hintern, .inl ⟨?_, hfreed.trans hch.freed, p,
          s₂.routes.erase ri, o', rfl, ?_, ho', hpath⟩⟩
        · intro hyes
          cases hcmp.symm.trans (hsame.mp hyes)
        · rw [hroutes, hch.routes]
          exact List.erase_subset
    · cases hs

theorem keepsRoutes_hold {attr : Attr σ} (h : Counts s s.refs)
    (hs : ribStep hash s (.hold attr) = some s') : KeepsRoutes s s' := by
  obtain ⟨⟨s₁, p⟩, hs₁, rfl⟩ := Option.map_eq_some_iff.mp hs
  obtain ⟨o, hch, -⟩ := bgpAttrIntern_spec hs₁
  refine ⟨?_, SamePaths.of_intern hs₁ (SamePaths.refl s₁), hch.freed,
    fun ri hri => ⟨ri, hch.routes ▸ hri, rfl⟩⟩
  have hrefs : Rib.refs { s₁ with held := p :: s₁.held } = oneMore s.refs p := by
    funext q
    simp only [Rib.refs, oneMore, List.count_cons, hch.routes, hch.held, beq_iff_eq, eq_comm (a := q)]
    omega
  rw [hrefs]
  exact bgpAttrIntern_counts hs₁ h

theorem keepsRoutes_release {p : Nat} (h : Counts s s.refs)
    (hs : ribStep hash s (.release p) = some s') : KeepsRoutes s s' := by
  rw [ribStep] at hs
  split at hs
  · rename_i hp
    obtain ⟨s₁, hs₁, rfl⟩ := Option.map_eq_some_iff.mp hs
    obtain ⟨_, -, hch⟩ := bgpAttrUnintern_spec hs₁
    refine keepsRoutes_unintern h hs₁ rfl rfl ?_ ?_
    · rw [refs_erase_held hp]
      exact congrArg (oneMore · p)
        (Rib.refs_congr hch.routes.symm (congrArg (List.erase · p) hch.held.symm))
    · exact hch.routes ▸ List.Subset.refl _
  · cases hs

theorem keepsRoutes_withdraw {ri : Route ρ} (h : Counts s s.refs)
    (hs : ribStep hash s (.withdraw ri) = some s') : KeepsRoutes s s' := by
  rw [ribStep] at hs
  split at hs
  · rename_i hri
    cases hs
    refine ⟨?_, SamePaths.refl s, rfl, ?_⟩
    · rw [refs_cons, ← refs_erase hri]
      exact h
    · intro r hr
      rcases List.mem_cons.mp hr with rfl | hr
      · exact ⟨ri, hri, rfl⟩
      · exact ⟨r, List.mem_of_mem_erase hr, rfl⟩
  · cases hs

theorem keepsRoutes_infoFree {ri : Route ρ} (h : Counts s s.refs)
    (hs : ribStep hash s (.infoFree ri) = some s') : KeepsRoutes s s' := by
  rw [ribStep] at hs
  split at hs
  · rename_i hri
    obtain ⟨s₁, hs₁, rfl⟩ := Option.map_eq_some_iff.mp hs
    obtain ⟨_, -, hch⟩ := bgpAttrUnintern_spec hs₁
    refine keepsRoutes_unintern h hs₁ rfl rfl ?_ ?_
    · rw [refs_erase hri]
      exact congrArg (oneMore · ri.attr)
        (Rib.refs_congr (congrArg (List.erase · ri) hch.routes.symm) hch.held.symm)
    · exact hch.routes ▸ List.erase_subset
  · cases hs

/-- The routes keep their paths in an update exactly when it frees none that a route refers to and
    brings in none that was freed. -/
theorem bgpUpdateMain_keepPaths_iff {id : ρ} {attr : Attr σ} (h : Counts s s.refs)
    (hP : RoutesKeepPaths s) (hs : bgpUpdateMain hash s id attr = some s') :
    RoutesKeepPaths s' ↔ UpdateKeepsPaths hash s (.update id attr) := by
  obtain ⟨found, hfound, hcount, hpaths, hcase⟩ := bgpUpdateMain_cases h hs
  have hcond : UpdateKeepsPaths hash s (.update id attr) ↔
      (SameAttribute hash s id found → hasBgpsec found = true →
        ∀ bpa, found.bgpsecPathAttr = some bpa → ¬ Refers s bpa.addr) ∧
      (¬ SameAttribute hash s id found → pathFreed s.freed found = false) := by
    rw [UpdateKeepsPaths]
    constructor
    · intro hall
      exact hall found hfound
    · intro hone found' hfound'
      rw [Option.some.inj (hfound'.symm.trans hfound)]
      exact hone
  rw [hcond]
  rcases hcase with ⟨hno, hfreed, p, routes, o, hroutes, hsub, ho, hopath⟩ | ⟨hyes, hroutes, hfreed⟩
  · simp only [hno, false_implies, true_and, not_false_eq_true, forall_const]
    rw [routesKeepPaths_cons_iff hP hcount hpaths hfreed hroutes hsub ho, ← hfreed,
      pathFreed_congr hopath]
  · simp only [hyes, not_true_eq_false, false_implies, and_true, forall_const]
    cases hflag : hasBgpsec found with
    | false =>
        simp only [Bool.false_eq_true, false_implies, iff_true]
        rw [hflag] at hfreed
        exact KeepsRoutes.keepPaths ⟨hcount, hpaths, hfreed, fun ri hri => ⟨ri, hroutes ▸ hri, rfl⟩⟩ hP
    | true =>
        rw [hflag, if_pos rfl] at hfreed
        simp only [forall_const]
        exact routesKeepPaths_freed_iff hP hcount hpaths hroutes hfreed

/-! ### Runs -/

theorem ribStep_keepPaths {op : RibOp ρ σ} (h : Counts s s.refs) (hP : RoutesKeepPaths s)
    (hs : ribStep hash s op = some s') :
    Counts s' s'.refs ∧ (RoutesKeepPaths s' ↔ UpdateKeepsPaths hash s op) := by
  have hother : KeepsRoutes s s' → Counts s' s'.refs ∧ (RoutesKeepPaths s' ↔ True) :=
    fun hk => ⟨hk.counts, iff_of_true (hk.keepPaths hP) trivial⟩
  cases op with
  | update id attr =>
      obtain ⟨_, -, hcount, -⟩ := bgpUpdateMain_cases h hs
      exact ⟨hcount, bgpUpdateMain_keepPaths_iff h hP hs⟩
  | hold attr => exact hother (keepsRoutes_hold h hs)
  | release p => exact hother (keepsRoutes_release h hs)
  | withdraw ri => exact hother (keepsRoutes_withdraw h hs)
  | infoFree ri => exact hother (keepsRoutes_infoFree h hs)

/-- The paths of all routes are there along a run exactly when no update with the same attribute
    frees the path of a route, and no other one brings in a path that was freed. -/
theorem routes_keep_paths_iff (hash : Attrhash σ) (ops : List (RibOp ρ σ)) :
    Run.Always (ribStep hash) RoutesKeepPaths Rib.init ops ↔
      Run.EachStep (ribStep hash) (UpdateKeepsPaths hash) Rib.init ops := by
  have hcount : Counts (Rib.init : Rib ρ σ) (Rib.init : Rib ρ σ).refs := by
    intro p
    simp [Rib.refcnt, Rib.init, Heap.read, Rib.refs]
  have hnone : RoutesKeepPaths (Rib.init : Rib ρ σ) := by
    simp [RoutesKeepPaths, Rib.init]
  exact Run.always_iff_eachStep (fun s op s' => ribStep_keepPaths) hcount hnone ops

end Steps

/-- An attribute that `bgp_attr_bgpsec` has read. -/
def learnedAttr : Attr Unit := ⟨⟨attrFlagBit bgpAttrBgpsec, ()⟩, some (oneBlockPath 1)⟩

/-- A table in which all keys are equal, and the flags are compared. -/
def flagHash : Attrhash Unit where
  keyMake := fun _ => 0
  stock := ⟨fun _ => 0, fun a b => a.flag == b.flag, fun _ _ => true⟩

/-- The attribute is stored for the soft reconfiguration, a route is made of it, and the soft
    reconfiguration presents it again. -/
def softReconfiguration : List (RibOp Nat Unit) :=
  [.hold learnedAttr, .update 1 learnedAttr, .update 1 learnedAttr]

/-- The route is left with a path that was freed. -/
theorem softReconfiguration_frees_path :
    ¬ Run.Always (ribStep flagHash) RoutesKeepPaths Rib.init softReconfiguration := by
  intro h
  have hend : ∃ s, Run.exec (ribStep flagHash) Rib.init softReconfiguration = some s ∧
      s.routes = [⟨1, 0, false⟩] ∧ ∃ o, s.objects.read 0 = some o ∧
        pathFreed s.freed o.attr = true :=
    ⟨_, rfl, rfl, _, rfl, rfl⟩
  obtain ⟨s, hs, hroutes, o, ho, hfreed⟩ := hend
  have hP : RoutesKeepPaths s := h _ s List.prefix_rfl (Run.path_iff_exec.mpr hs)
  obtain ⟨o', ho', hfree⟩ := hP ⟨1, 0, false⟩ (by simp [hroutes])
  cases ho.symm.trans ho'
  rw [hfreed] at hfree
  cases hfree

end SrxNote.Intern
