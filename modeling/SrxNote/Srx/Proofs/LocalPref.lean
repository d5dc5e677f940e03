import SrxNote.Srx.Display
import SrxNote.Srx.Proofs.BestPath

/-!
# Local preference policies

A policy that subtracts stops at 0, one that adds goes on behind the largest number
and so turns the order of two routes around. What is shown for a route is computed
by another formula, which agrees with the decision only where nothing is cut off
and the policy is one that was set.
-/

namespace SrxNote.Srx

variable {β : Type}

/-- What a policy makes of a local preference. -/
def SrxLocalPref.adjust (p : SrxLocalPref) (locPref : UInt32) : UInt32 :=
  if p.isSet > 0 then
    if p.relative = 0 then p.value
    else if p.relative = -1 then (if locPref > p.value then locPref - p.value else 0)
    else locPref + p.value
  else locPref

theorem srxLocPrevValue_eq (bgp : BgpPolicy) (locPref : UInt32) (r : SRxResult) :
    srxLocPrevValue bgp locPref r =
      match srxLocPref bgp r with
      | none => locPref
      | some p => p.adjust locPref := by
  cases r <;> rfl

/-- A policy that adds, and one that subtracts. -/
def SrxLocalPref.Adds (p : SrxLocalPref) : Prop :=
  p.isSet > 0 ∧ p.relative ≠ 0 ∧ p.relative ≠ -1

def SrxLocalPref.Subtracts (p : SrxLocalPref) : Prop :=
  p.isSet > 0 ∧ p.relative = -1

theorem toNat_adjust_subtracts {p : SrxLocalPref} (h : p.Subtracts) (locPref : UInt32) :
    (p.adjust locPref).toNat = locPref.toNat - p.value.toNat := by
  rw [SrxLocalPref.adjust, if_pos h.1, if_neg (by rw [h.2]; decide), if_pos h.2]
  split
  · rename_i hgt
    exact UInt32.toNat_sub_of_le _ _ (UInt32.le_of_lt hgt)
  · rename_i hle
    have hle' : locPref.toNat ≤ p.value.toNat := UInt32.le_iff_toNat_le.mp (UInt32.not_lt.mp hle)
    rw [UInt32.toNat_zero]
    omega

theorem adjust_adds {p : SrxLocalPref} (h : p.Adds) (locPref : UInt32) :
    p.adjust locPref = locPref + p.value := by
  rw [SrxLocalPref.adjust, if_pos h.1, if_neg h.2.1, if_neg h.2.2]

/-- A policy keeps the order of two local preferences, does not lower one to which it adds and does not
    raise one from which it subtracts, with 0 where that is as much as it subtracts. -/
structure KeepsOrder (bgp : BgpPolicy) (r : SRxResult) (l₁ l₂ : UInt32) : Prop where
  order : srxLocPrevValue bgp l₁ r ≤ srxLocPrevValue bgp l₂ r
  adds : ∀ p, srxLocPref bgp r = some p → p.Adds →
    l₁ ≤ srxLocPrevValue bgp l₁ r ∧ l₂ ≤ srxLocPrevValue bgp l₂ r
  subtracts : ∀ p, srxLocPref bgp r = some p → p.Subtracts → ∀ l ∈ [l₁, l₂],
    srxLocPrevValue bgp l r ≤ l ∧ (l ≤ p.value → srxLocPrevValue bgp l r = 0)

theorem keepsOrder_of_none {bgp : BgpPolicy} {r : SRxResult} {l₁ l₂ : UInt32} (h : l₁ ≤ l₂)
    (hnone : srxLocPref bgp r = none) : KeepsOrder bgp r l₁ l₂ := by
  refine ⟨?_, fun p hp => ?_, fun p hp => ?_⟩
  · rw [srxLocPrevValue_eq, srxLocPrevValue_eq, hnone]
    exact h
  · rw [hnone] at hp
    cases hp
  · rw [hnone] at hp
    cases hp

/-- With a policy the order is the one of what it makes of the two. -/
theorem keepsOrder_iff_adjust {bgp : BgpPolicy} {r : SRxResult} {p : SrxLocalPref}
    (hp : srxLocPref bgp r = some p) (l₁ l₂ : UInt32) :
    KeepsOrder bgp r l₁ l₂ ↔
      p.adjust l₁ ≤ p.adjust l₂ ∧ (p.Adds → l₁ ≤ p.adjust l₁ ∧ l₂ ≤ p.adjust l₂) ∧
        (p.Subtracts → ∀ l ∈ [l₁, l₂], p.adjust l ≤ l ∧ (l ≤ p.value → p.adjust l = 0)) := by
  have hvalue : ∀ l, srxLocPrevValue bgp l r = p.adjust l := by
    intro l
    rw [srxLocPrevValue_eq, hp]
  constructor
  · rintro ⟨horder, hadds, hsubtracts⟩
    simp only [hvalue] at horder hadds hsubtracts
    exact ⟨horder, hadds p hp, hsubtracts p hp⟩
  · rintro ⟨horder, hadds, hsubtracts⟩
    refine ⟨?_, fun q hq => ?_, fun q hq => ?_⟩
    · simp only [hvalue]
      exact horder
    · rw [hp, Option.some.injEq] at hq
      subst hq
      simp only [hvalue]
      exact hadds
    · rw [hp, Option.some.injEq] at hq
      subst hq
      simp only [hvalue]
      exact hsubtracts

/-- What a policy can be. -/
theorem SrxLocalPref.cases (p : SrxLocalPref) :
    ¬ p.isSet > 0 ∨ (p.isSet > 0 ∧ p.relative = 0) ∨ p.Subtracts ∨ p.Adds := by
  unfold SrxLocalPref.Subtracts SrxLocalPref.Adds
  omega

theorem adjust_not_set {p : SrxLocalPref} (h : ¬ p.isSet > 0) (l : UInt32) : p.adjust l = l := by
  rw [SrxLocalPref.adjust, if_neg h]

theorem adjust_absolute {p : SrxLocalPref} (h : p.isSet > 0 ∧ p.relative = 0) (l : UInt32) :
    p.adjust l = p.value := by
  rw [SrxLocalPref.adjust, if_pos h.1, if_pos h.2]

theorem not_subtracts_of_adds {p : SrxLocalPref} (h : p.Adds) : ¬ p.Subtracts :=
  fun hsub => h.2.2 hsub.2

/-- What is subtracted keeps the order, and is cut off at 0. -/
theorem adjust_subtracts_order {p : SrxLocalPref} (h : p.Subtracts) {l₁ l₂ : UInt32} (hle : l₁ ≤ l₂) :
    p.adjust l₁ ≤ p.adjust l₂ ∧ ∀ l, p.adjust l ≤ l ∧ (l ≤ p.value → p.adjust l = 0) := by
  have hnat := toNat_adjust_subtracts h
  have hle' : l₁.toNat ≤ l₂.toNat := UInt32.le_iff_toNat_le.mp hle
  refine ⟨?_, fun l => ⟨?_, fun hl => ?_⟩⟩
  · rw [UInt32.le_iff_toNat_le, hnat, hnat]
    omega
  · rw [UInt32.le_iff_toNat_le, hnat]
    omega
  · have hl' : l.toNat ≤ p.value.toNat := UInt32.le_iff_toNat_le.mp hl
    apply UInt32.toNat_inj.mp
    rw [hnat, UInt32.toNat_zero]
    omega

/-- What is added keeps the order and takes nothing away exactly when the larger sum fits. -/
theorem adjust_adds_order_iff {p : SrxLocalPref} (h : p.Adds) {l₁ l₂ : UInt32} (hle : l₁ ≤ l₂) :
    (p.adjust l₁ ≤ p.adjust l₂ ∧ l₁ ≤ p.adjust l₁ ∧ l₂ ≤ p.adjust l₂) ↔
      l₂.toNat + p.value.toNat < 4294967296 := by
  have hle' : l₁.toNat ≤ l₂.toNat := UInt32.le_iff_toNat_le.mp hle
  have hv := p.value.toNat_lt
  have hl₂ := l₂.toNat_lt
  simp only [adjust_adds h, UInt32.le_iff_toNat_le, UInt32.toNat_add]
  omega

/-- **The order of routes.** A policy keeps the order of two local preferences exactly when it does not
    add beyond the largest number. -/
theorem srxLocPrevValue_keepsOrder_iff (bgp : BgpPolicy) (r : SRxResult) {l₁ l₂ : UInt32}
    (h : l₁ ≤ l₂) :
    KeepsOrder bgp r l₁ l₂ ↔
      ∀ p, srxLocPref bgp r = some p → p.Adds → l₂.toNat + p.value.toNat < 4294967296 := by
  cases hp : srxLocPref bgp r with
  | none => exact iff_of_true (keepsOrder_of_none h hp) (fun p hp => nomatch hp)
  | some p =>
      simp only [Option.some.injEq, forall_eq']
      rw [keepsOrder_iff_adjust hp]
      rcases p.cases with hset | habs | hsub | hadds
      · have hno : ¬ p.Adds ∧ ¬ p.Subtracts := ⟨fun h => hset h.1, fun h => hset h.1⟩
        simp only [adjust_not_set hset]
        exact iff_of_true ⟨h, fun ha => absurd ha hno.1, fun hs => absurd hs hno.2⟩
          (fun ha => absurd ha hno.1)
      · have hno : ¬ p.Adds ∧ ¬ p.Subtracts := by
          unfold SrxLocalPref.Subtracts SrxLocalPref.Adds
          omega
        simp only [adjust_absolute habs]
        exact iff_of_true
          ⟨UInt32.le_refl _, fun ha => absurd ha hno.1, fun hs => absurd hs hno.2⟩
          (fun ha => absurd ha hno.1)
      · have hno : ¬ p.Adds := fun ha => not_subtracts_of_adds ha hsub
        obtain ⟨horder, hless⟩ := adjust_subtracts_order hsub h
        exact iff_of_true ⟨horder, fun ha => absurd ha hno, fun _ l _ => hless l⟩
          (fun ha => absurd ha hno)
      · have hnosub := not_subtracts_of_adds hadds
        have hfits := adjust_adds_order_iff hadds h
        constructor
        · rintro ⟨horder, hmore, -⟩ -
          exact hfits.mp ⟨horder, hmore hadds⟩
        · intro hfit
          obtain ⟨horder, hmore⟩ := hfits.mpr (hfit hadds)
          exact ⟨horder, fun _ => hmore, fun hs => absurd hs hnosub⟩

/-- A router that adds 10 to the local preference of valid routes. -/
def addTen : BgpPolicy := ((freshRouter 0).bgp.afterCalls [.set .valid 1 10]).policy 100

theorem addTen_keepsOrder :
    KeepsOrder addTen .valid 100 200 ↔
      ∀ p, srxLocPref addTen .valid = some p → p.Adds →
        (200 : UInt32).toNat + p.value.toNat < 4294967296 :=
  srxLocPrevValue_keepsOrder_iff addTen .valid (by decide)

/-- 4294967290 becomes 4, and 100 becomes 110. -/
theorem addTen_turns_order : ¬ KeepsOrder addTen .valid 100 4294967290 := by
  intro h
  exact absurd h.order (by decide)

/-! ## What is shown -/

/-- An entry of a table that the calls reach: untouched, unset or set. -/
inductive LocprfEntry : SrxLocalPref → Prop
  | zero : LocprfEntry ⟨0, 0, 0⟩
  | unset : LocprfEntry ⟨0, 1, 0⟩
  | set (relative : Int) (value : UInt32) : LocprfEntry ⟨1, relative, value⟩

theorem LocprfCall.apply_entry (call : LocprfCall) {bgp : SrxSettings}
    (h : ∀ i, LocprfEntry (bgp.srxValLocalPref i)) (i : LocprfIndex) :
    LocprfEntry ((call.apply bgp).srxValLocalPref i) := by
  cases call with
  | set index relative value =>
      show LocprfEntry (if i = index then ⟨1, relative, value⟩ else bgp.srxValLocalPref i)
      split
      · exact .set relative value
      · exact h i
  | unset index =>
      show LocprfEntry (if i = index then ⟨0, 1, 0⟩ else bgp.srxValLocalPref i)
      split
      · exact .unset
      · exact h i

theorem afterCalls_entry (bgp : SrxSettings) (calls : List LocprfCall) (i : LocprfIndex) :
    LocprfEntry ((bgp.afterCalls calls).srxValLocalPref i) := by
  suffices hrun : ∀ b : SrxSettings, (∀ i, LocprfEntry (b.srxValLocalPref i)) →
      ∀ i, LocprfEntry ((calls.foldl LocprfCall.apply b).srxValLocalPref i) from
    hrun _ (fun _ => .zero) i
  induction calls with
  | nil => exact fun b h => h
  | cons call calls ih => exact fun b h => ih _ (call.apply_entry h)

/-- The policy that a result selects is an entry of the table. -/
theorem srxLocPref_entry {bgp : SrxSettings} {calls : List LocprfCall} {defaultLocalPref : UInt32}
    {r : SRxResult} {p : SrxLocalPref}
    (h : srxLocPref ((bgp.afterCalls calls).policy defaultLocalPref) r = some p) : LocprfEntry p := by
  cases r with
  | valid =>
      cases h
      exact afterCalls_entry bgp calls .valid
  | notfound =>
      cases h
      exact afterCalls_entry bgp calls .notfound
  | invalid =>
      cases h
      exact afterCalls_entry bgp calls .invalid
  | undefined => cases h
  | donotuse => cases h
  | other value => cases h

/-- The local preference by which `bgp_info_cmp` compares a path. -/
def comparedPref (bgp : BgpPolicy) (ri : RibPath β) : UInt32 :=
  if useEvaluation bgp then srxLocPrevValue bgp (ri.pref bgp) (ri.state bgp) else ri.pref bgp

/-- Without the evaluation there is no result that selects a policy. -/
theorem comparedPref_eq (bgp : BgpPolicy) (ri : RibPath β) :
    comparedPref bgp ri = srxLocPrevValue bgp (ri.pref bgp) (ri.state bgp) := by
  unfold comparedPref
  split
  · rfl
  · rename_i hoff
    rw [useEvaluation, Bool.or_eq_true, not_or] at hoff
    have hstate : ri.state bgp = .donotuse := by
      unfold RibPath.state srxCalcValidationState
      rw [if_neg hoff.2, if_neg hoff.1]
    rw [hstate]
    rfl

/-- The number that is shown, if one is, is what the policy makes of the local preference, by which
    `bgp_info_cmp` compares the path. -/
def ShowsDecision (bgp : BgpPolicy) (ri : RibPath β) : Prop :=
  ∀ n mark, routeVtyOutLocPrf bgp ri = some (n, mark) →
    n = srxLocPrevValue bgp (ri.pref bgp) (ri.state bgp) ∧ n = comparedPref bgp ri

/-- Where the two formulas agree. A policy that is not set has to be one that was unset, unless the
    local preference is 0. One that is set may be absolute; it may subtract as much as there is, or
    as much as it leaves of the default; another one may add, or change nothing for a default
    of 0. -/
def ShownAgrees (p : SrxLocalPref) (localPref : Option UInt32) (defaultLocalPref : UInt32) : Prop :=
  match localPref with
  | some l =>
      if p.isSet = 0 then p.relative = 0 → l = 0
      else if p.relative = 0 then True
      else if p.relative = -1 then p.value ≤ l
      else UInt32.ofInt p.relative * p.value = p.value
  | none =>
      p.isSet ≠ 0 → p.relative ≠ 0 →
        if p.relative = -1 then defaultLocalPref.toNat - p.value.toNat = p.value.toNat
        else defaultLocalPref = 0

theorem subtracts_set (value : UInt32) : SrxLocalPref.Subtracts ⟨1, -1, value⟩ :=
  ⟨Int.zero_lt_one, rfl⟩

theorem adds_set {relative : Int} (value : UInt32) (hzero : relative ≠ 0) (hone : relative ≠ -1) :
    SrxLocalPref.Adds ⟨1, relative, value⟩ :=
  ⟨Int.zero_lt_one, hzero, hone⟩

/-- A route with a local preference. -/
theorem shown_present_iff {p : SrxLocalPref} (hp : LocprfEntry p) (l defaultLocalPref : UInt32) :
    (if p.relative ≠ 0 then l + UInt32.ofInt p.relative * p.value else p.value) = p.adjust l ↔
      ShownAgrees p (some l) defaultLocalPref := by
  cases hp with
  | zero => simp [SrxLocalPref.adjust, ShownAgrees, eq_comm]
  | unset => simp [SrxLocalPref.adjust, ShownAgrees]
  | set relative value =>
      by_cases habs : relative = 0
      · subst habs
        simp [SrxLocalPref.adjust, ShownAgrees]
      · by_cases hsub : relative = -1
        · subst hsub
          -- the product is the negated value, so that the sum wraps below 0
          have hnat : _ = l.toNat - value.toNat := toNat_adjust_subtracts (subtracts_set value) l
          have hl := l.toNat_lt
          have hv := value.toNat_lt
          show l + UInt32.ofInt (-1) * value = _ ↔ value ≤ l
          have hprod : UInt32.ofInt (-1) * value = -value := (UInt32.neg_eq_neg_one_mul value).symm
          rw [hprod, ← UInt32.sub_eq_add_neg, ← UInt32.toNat_inj, hnat, UInt32.toNat_sub,
            UInt32.le_iff_toNat_le]
          omega
        · rw [adjust_adds (adds_set value habs hsub), if_pos habs, UInt32.add_right_inj]
          simp [ShownAgrees, habs, hsub]

/-- A route without one. -/
theorem shown_absent_iff {p : SrxLocalPref} (hp : LocprfEntry p) (defaultLocalPref : UInt32) :
    (p.isSet ≠ 0 → p.value = p.adjust defaultLocalPref) ↔ ShownAgrees p none defaultLocalPref := by
  cases hp with
  | zero => simp [ShownAgrees]
  | unset => simp [ShownAgrees]
  | set relative value =>
      by_cases habs : relative = 0
      · subst habs
        simp [SrxLocalPref.adjust, ShownAgrees]
      · by_cases hsub : relative = -1
        · subst hsub
          have hnat := toNat_adjust_subtracts (subtracts_set value) defaultLocalPref
          rw [← UInt32.toNat_inj, hnat]
          simp [ShownAgrees, eq_comm]
        · rw [adjust_adds (adds_set value habs hsub)]
          simp [ShownAgrees, habs, hsub, eq_comm]

/-- The column, by the policy that the result of the route selects. -/
theorem routeVtyOutLocPrf_none {bgp : BgpPolicy} {ri : RibPath β}
    (h : srxLocPref bgp (ri.state bgp) = none) :
    routeVtyOutLocPrf bgp ri = ri.attr.localPref.map fun l => (l, []) := by
  unfold RibPath.state at h
  rw [routeVtyOutLocPrf, h]
  cases ri.attr.localPref with
  | none => rfl
  | some l => rfl

theorem routeVtyOutLocPrf_some {bgp : BgpPolicy} {ri : RibPath β} {p : SrxLocalPref}
    (h : srxLocPref bgp (ri.state bgp) = some p) :
    routeVtyOutLocPrf bgp ri =
      match ri.attr.localPref with
      | some l =>
          some (if p.relative ≠ 0 then l + UInt32.ofInt p.relative * p.value else p.value, ['a'])
      | none => if p.isSet ≠ 0 then some (p.value, ['s']) else none := by
  unfold RibPath.state at h
  rw [routeVtyOutLocPrf, h]
  cases ri.attr.localPref with
  | none => rfl
  | some l => rfl

/-- **What is shown** for a route is the local preference of the decision exactly when the policy that
    its result selects is one for which the two formulas agree. -/
theorem locPrf_shows_decision_iff (bgp : SrxSettings) (calls : List LocprfCall)
    (defaultLocalPref : UInt32) (ri : RibPath β) :
    ShowsDecision ((bgp.afterCalls calls).policy defaultLocalPref) ri ↔
      ∀ p, srxLocPref ((bgp.afterCalls calls).policy defaultLocalPref)
          (ri.state ((bgp.afterCalls calls).policy defaultLocalPref)) = some p →
        ShownAgrees p ri.attr.localPref defaultLocalPref := by
  have hentry : ∀ r p, srxLocPref ((bgp.afterCalls calls).policy defaultLocalPref) r = some p →
      LocprfEntry p := fun _ _ h => srxLocPref_entry h
  have hdefault : ((bgp.afterCalls calls).policy defaultLocalPref).defaultLocalPref =
    defaultLocalPref := rfl
  generalize (bgp.afterCalls calls).policy defaultLocalPref = policy at hentry hdefault
  rw [ShowsDecision, comparedPref_eq, srxLocPrevValue_eq, RibPath.pref, hdefault]
  simp only [and_self]
  cases hp : srxLocPref policy (ri.state policy) with
  | none =>
      refine iff_of_true (fun n mark hshown => ?_) (fun p h => nomatch h)
      rw [routeVtyOutLocPrf_none hp] at hshown
      cases hpref : ri.attr.localPref with
      | none =>
          rw [hpref] at hshown
          cases hshown
      | some l =>
          rw [hpref] at hshown
          cases hshown
          rfl
  | some p =>
      have hreached := hentry (ri.state policy) p hp
      rw [routeVtyOutLocPrf_some hp]
      simp only [Option.some.injEq, forall_eq']
      cases ri.attr.localPref with
      | none =>
          rw [← shown_absent_iff hreached, Option.getD_none]
          by_cases hset : p.isSet ≠ 0
          · simp [hset]
          · simp [hset]
      | some l =>
          rw [← shown_present_iff hreached, Option.getD_some]
          simp

/-- A valid route of local preference 100. -/
def validRoute : RibPath Unit where
  attr := ⟨0, some 100, ()⟩
  infoHash := none
  updateID := 0
  localID := 0
  valResROA := .valid
  valResBGPSEC := .valid
  flags := ⟨false, false, false, false⟩

/-- Without any policy a local preference of 0 is shown. -/
theorem noPolicy_shows_zero :
    ¬ ShowsDecision (((freshRouter 0).bgp.afterCalls []).policy 100) validRoute := by
  intro h
  exact absurd (h 0 ['a'] (by decide)).1 (by decide)

end SrxNote.Srx
