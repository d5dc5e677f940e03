import SrxNote.Misc.Run
import SrxNote.Srx.Ecommunity

/-!
# Communities as carriers of results

The reader looks at the last octet of the first community whatever its type, so a
foreign community may carry a verdict and one of the router's own may be missed.
The sender clears the flag of the communities when it restores an attribute, so an
attribute that had communities does not have its flag any more.
-/

namespace SrxNote.Srx

/-! ## Receiving -/

/-- A community that carries a validation result: of the type and of the configured subcode. -/
def IsSrxCommunity (subcode : UInt8) (com : EcommunityVal) : Prop :=
  com[0] = ecommunityEncodeBgpsec ∧ com[1] = subcode

instance (subcode : UInt8) (com : EcommunityVal) : Decidable (IsSrxCommunity subcode com) :=
  inferInstanceAs (Decidable (_ ∧ _))

/-- The state octets and the results that they stand for. -/
def ecommunityStates : List (UInt8 × SRxResult) :=
  [(ecommunityBgpsecValid.toUInt8, .valid), (ecommunityBgpsecNotFound.toUInt8, .notfound),
    (ecommunityBgpsecInvalid.toUInt8, .invalid), (ecommunityBgpsecUndefined.toUInt8, .undefined)]

/-- The result that `verify_update` uses comes from a community that carries one, or is the default
    when there is none. -/
def VerdictFromSrx (subcode : UInt8) (communities : List EcommunityVal)
    (verdict : SRxResult → SRxResult) : Prop :=
  ∀ roaResult,
    ((∃ com ∈ communities, IsSrxCommunity subcode com) →
      ∃ com ∈ communities, IsSrxCommunity subcode com ∧
        (com[7], verdict roaResult) ∈ ecommunityStates) ∧
    ((∀ com ∈ communities, ¬ IsSrxCommunity subcode com) → verdict roaResult = roaResult)

/-- The octets that are read, with the state that each of them is read as. -/
def readAs : List (UInt8 × UInt8) := [(0, 0), (1, 1), (2, 2), (0xAB, 3)]

/-- Where there is a community that carries a result, the last octet of the first community is read as
    the state of one; where there is none, it is not read. -/
def FirstAgrees (subcode : UInt8) (communities : List EcommunityVal) : Prop :=
  ((∃ com ∈ communities, IsSrxCommunity subcode com) →
    ∃ first ∈ communities.head?, ∃ com ∈ communities, IsSrxCommunity subcode com ∧
      (first[7], com[7]) ∈ readAs) ∧
  ((∀ com ∈ communities, ¬ IsSrxCommunity subcode com) →
    ∀ first ∈ communities.head?, ∀ state, (first[7], state) ∉ readAs)

theorem checkEcomSRxValid_eq_some_iff {octet : UInt8} {r : SRxResult} :
    checkEcomSRxValid (some octet) = some r ↔
      (octet = 0 ∧ r = .valid) ∨ (octet = 1 ∧ r = .notfound) ∨ (octet = 2 ∧ r = .invalid) ∨
        (octet = 0xAB ∧ r = .undefined) := by
  constructor
  · intro h
    unfold checkEcomSRxValid at h
    dsimp only at h
    split at h
    · exact Or.inl ⟨‹_›, (Option.some.inj h).symm⟩
    · split at h
      · exact Or.inr (Or.inl ⟨‹_›, (Option.some.inj h).symm⟩)
      · split at h
        · exact Or.inr (Or.inr (Or.inl ⟨‹_›, (Option.some.inj h).symm⟩))
        · split at h
          · exact Or.inr (Or.inr (Or.inr ⟨‹_›, (Option.some.inj h).symm⟩))
          · cases h
  · rintro (⟨rfl, rfl⟩ | ⟨rfl, rfl⟩ | ⟨rfl, rfl⟩ | ⟨rfl, rfl⟩) <;> rfl

/-- A state stands for what an octet is read as exactly when the octet is read as this state. -/
theorem mem_ecommunityStates_iff {octet state : UInt8} {r : SRxResult}
    (h : checkEcomSRxValid (some octet) = some r) :
    (state, r) ∈ ecommunityStates ↔ (octet, state) ∈ readAs := by
  rcases checkEcomSRxValid_eq_some_iff.mp h with ⟨rfl, rfl⟩ | ⟨rfl, rfl⟩ | ⟨rfl, rfl⟩ | ⟨rfl, rfl⟩ <;>
    simp [ecommunityStates, readAs, ecommunityBgpsecValid, ecommunityBgpsecNotFound,
      ecommunityBgpsecInvalid, ecommunityBgpsecUndefined]

/-- An octet that is read as a state is read as a result. -/
theorem checkEcomSRxValid_of_readAs {octet state : UInt8} (h : (octet, state) ∈ readAs) :
    ∃ r, checkEcomSRxValid (some octet) = some r := by
  simp only [readAs, List.mem_cons, Prod.mk.injEq, List.not_mem_nil, or_false] at h
  rcases h with ⟨rfl, -⟩ | ⟨rfl, -⟩ | ⟨rfl, -⟩ | ⟨rfl, -⟩
  · exact ⟨.valid, rfl⟩
  · exact ⟨.notfound, rfl⟩
  · exact ⟨.invalid, rfl⟩
  · exact ⟨.undefined, rfl⟩

theorem readAs_of_checkEcomSRxValid {octet : UInt8} {r : SRxResult}
    (h : checkEcomSRxValid (some octet) = some r) : ∃ state, (octet, state) ∈ readAs := by
  rcases checkEcomSRxValid_eq_some_iff.mp h with ⟨rfl, -⟩ | ⟨rfl, -⟩ | ⟨rfl, -⟩ | ⟨rfl, -⟩
  · exact ⟨0, by decide⟩
  · exact ⟨1, by decide⟩
  · exact ⟨2, by decide⟩
  · exact ⟨3, by decide⟩

theorem donotuse_not_mem_ecommunityStates (state : UInt8) :
    (state, SRxResult.donotuse) ∉ ecommunityStates := by
  simp [ecommunityStates]

section Receiving

variable {subcode : UInt8} {cs : List EcommunityVal}

/-- To keep the default is right exactly where no community carries a result. -/
theorem verdictFromSrx_id_iff :
    VerdictFromSrx subcode cs id ↔ ∀ com ∈ cs, ¬ IsSrxCommunity subcode com := by
  constructor
  · intro h com hc hsrx
    -- a default that no state stands for shows that it was kept
    obtain ⟨com', -, -, hstate⟩ := (h .donotuse).1 ⟨com, hc, hsrx⟩
    exact donotuse_not_mem_ecommunityStates com'[7] hstate
  · intro h roaResult
    exact ⟨fun ⟨com, hc, hsrx⟩ => absurd hsrx (h com hc), fun _ => rfl⟩

/-- To replace it is right exactly where a community carries this result. -/
theorem verdictFromSrx_const_iff (r : SRxResult) :
    VerdictFromSrx subcode cs (fun _ => r) ↔
      ∃ com ∈ cs, IsSrxCommunity subcode com ∧ (com[7], r) ∈ ecommunityStates := by
  constructor
  · intro h
    apply (h .valid).1
    by_contra hnone
    have hnone' : ∀ com ∈ cs, ¬ IsSrxCommunity subcode com := fun com hc hsrx => hnone ⟨com, hc, hsrx⟩
    have hvalid : r = .valid := (h .valid).2 hnone'
    have hinvalid : r = .invalid := (h .invalid).2 hnone'
    exact absurd (hvalid.symm.trans hinvalid) (by decide)
  · rintro ⟨com, hc, hsrx, hstate⟩ roaResult
    exact ⟨fun _ => ⟨com, hc, hsrx, hstate⟩, fun hnone => absurd hsrx (hnone com hc)⟩

theorem firstAgrees_unread_iff (h : checkEcomSRxValid (cs.head?.map fun com => com[7]) = none) :
    FirstAgrees subcode cs ↔ ∀ com ∈ cs, ¬ IsSrxCommunity subcode com := by
  have hunread : ∀ first ∈ cs.head?, ∀ state, (first[7], state) ∉ readAs := by
    intro first hfirst state hread
    obtain ⟨r, hr⟩ := checkEcomSRxValid_of_readAs hread
    rw [Option.mem_def.mp hfirst, Option.map_some, hr] at h
    cases h
  constructor
  · intro hagrees com hc hsrx
    obtain ⟨first, hfirst, com', -, -, hread⟩ := hagrees.1 ⟨com, hc, hsrx⟩
    exact hunread first hfirst _ hread
  · intro hnone
    exact ⟨fun ⟨com, hc, hsrx⟩ => absurd hsrx (hnone com hc), fun _ => hunread⟩

theorem firstAgrees_read_iff {r : SRxResult}
    (h : checkEcomSRxValid (cs.head?.map fun com => com[7]) = some r) :
    FirstAgrees subcode cs ↔
      ∃ com ∈ cs, IsSrxCommunity subcode com ∧ (com[7], r) ∈ ecommunityStates := by
  cases hfirst : cs.head? with
  | none =>
      rw [hfirst] at h
      cases h
  | some first =>
      rw [hfirst, Option.map_some] at h
      constructor
      · intro hagrees
        have hsrx : ∃ com ∈ cs, IsSrxCommunity subcode com := by
          by_contra hnone
          obtain ⟨state, hread⟩ := readAs_of_checkEcomSRxValid h
          exact hagrees.2 (fun com hc hsrx => hnone ⟨com, hc, hsrx⟩) first hfirst state hread
        obtain ⟨first', hfirst', com, hc, hsrx, hread⟩ := hagrees.1 hsrx
        rw [hfirst] at hfirst'
        cases hfirst'
        exact ⟨com, hc, hsrx, (mem_ecommunityStates_iff h).mpr hread⟩
      · rintro ⟨com, hc, hsrx, hstate⟩
        exact ⟨fun _ => ⟨first, hfirst, com, hc, hsrx, (mem_ecommunityStates_iff h).mp hstate⟩,
          fun hnone => absurd hsrx (hnone com hc)⟩

variable {α δ : Type} (env : Env α δ) (ecommunity : α → Option (List EcommunityVal))

/-- The default is replaced by what the last octet of the first community is read as. -/
theorem defaultRoaResult_withEcommunity (attr : α) (roaResult : SRxResult) :
    defaultRoaResult (withEcommunity env ecommunity) attr roaResult =
      (checkEcomSRxValid (((ecommunity attr).getD []).head?.map fun com => com[7])).getD roaResult := by
  rw [defaultRoaResult, withEcommunity, if_pos rfl]
  dsimp only
  rw [ecommunityStatus]
  cases ecommunity attr with
  | none => rfl
  | some vals => rfl

/-- **Received communities.** A verdict comes from the SRx communities alone exactly when the first
    community agrees with them. -/
theorem ecommunity_verdict_iff (subcode : UInt8) (attr : α) :
    VerdictFromSrx subcode ((ecommunity attr).getD [])
        (defaultRoaResult (withEcommunity env ecommunity) attr) ↔
      FirstAgrees subcode ((ecommunity attr).getD []) := by
  have hverdict := funext (defaultRoaResult_withEcommunity env ecommunity attr)
  rw [hverdict]
  cases hread : checkEcomSRxValid (((ecommunity attr).getD []).head?.map fun com => com[7]) with
  | none => exact verdictFromSrx_id_iff.trans (firstAgrees_unread_iff hread).symm
  | some r => exact (verdictFromSrx_const_iff r).trans (firstAgrees_read_iff hread).symm

end Receiving

/-- A router with the default configuration. -/
def communityEnv : Env Unit Unit :=
  ⟨srxSetDefault, none, true, .undefined, .undefined, fun _ => none, fun _ => none, newestFirst⟩

/-- A route target of AS 65001, number 2. -/
def routeTarget : EcommunityVal := #v[0x00, 0x02, 0xFD, 0xE9, 0, 0, 0, 2]

/-- A route target is read as INVALID. -/
theorem routeTarget_is_verdict :
    ¬ VerdictFromSrx 0 [routeTarget]
      (defaultRoaResult (withEcommunity communityEnv fun _ => some [routeTarget]) ()) := by
  intro h
  have hother : ∀ com ∈ [routeTarget], ¬ IsSrxCommunity 0 com := by
    intro com hcom hsrx
    rw [List.mem_singleton.mp hcom] at hsrx
    exact absurd hsrx.1 (by decide)
  exact absurd ((h .valid).2 hother) (by decide)

/-! ## Sending -/

/-- Each call leaves the attribute, its flag and its pointer, and the communities that were
    allocated, as they were before the first one. -/
def SameAttribute (s₀ s : EcomState) : Prop :=
  s.attr = s₀.attr ∧ ∀ p vals, s₀.ecommunities.read p = some vals → s.ecommunities.read p = some vals

section Bits

variable (flag bit : UInt32)

theorem or_and_self_right : (flag ||| bit) &&& bit = bit := by
  apply UInt32.toBitVec_inj.mp
  ext i
  simp only [UInt32.toBitVec_and, UInt32.toBitVec_or, BitVec.getElem_and, BitVec.getElem_or]
  cases bit.toBitVec[i] <;> simp

theorem or_and_not_right : (flag ||| bit) &&& ~~~bit = flag &&& ~~~bit := by
  apply UInt32.toBitVec_inj.mp
  ext i
  simp only [UInt32.toBitVec_and, UInt32.toBitVec_or, UInt32.toBitVec_not, BitVec.getElem_and,
    BitVec.getElem_or, BitVec.getElem_not]
  cases bit.toBitVec[i] <;> simp

/-- Clearing bits changes nothing exactly when they are clear. -/
theorem and_not_eq_self_iff : flag &&& ~~~bit = flag ↔ flag &&& bit = 0 := by
  constructor
  · intro h
    rw [← h, UInt32.and_assoc, UInt32.not_and_self, UInt32.and_zero]
  · intro h
    have hsplit : flag = (flag &&& bit) ||| (flag &&& ~~~bit) := by
      apply UInt32.toBitVec_inj.mp
      ext i
      simp only [UInt32.toBitVec_and, UInt32.toBitVec_or, UInt32.toBitVec_not, BitVec.getElem_and,
        BitVec.getElem_or, BitVec.getElem_not]
      cases bit.toBitVec[i] <;> simp
    rw [h, UInt32.zero_or] at hsplit
    exact hsplit.symm

end Bits

/-- One call: without `extra` nothing happens, else the flag is cleared. -/
theorem sendWithEcommunity_eq (subcode : UInt8) (s : EcomState) (valResROA : SRxResult) :
    ∃ s', sendWithEcommunity subcode s valResROA = some s' ∧
      (∀ p vals, s.ecommunities.read p = some vals → s'.ecommunities.read p = some vals) ∧
      s'.attr = if s.attr.extra = none then s.attr
        else ⟨s.attr.flag &&& ~~~attrFlagBitExtCommunities, s.attr.extra⟩ := by
  cases hextra : s.attr.extra with
  | none =>
      refine ⟨s, ?_, fun p vals h => h, by rw [if_pos rfl]⟩
      simp [sendWithEcommunity, srxEcommunityChange, srxEcommunityRestore, hextra]
  | some ecomOrig =>
      have hbit : (s.attr.flag ||| attrFlagBitExtCommunities) &&& attrFlagBitExtCommunities ≠ 0 := by
        rw [or_and_self_right]
        decide
      have hfree := Heap.free_of_read (Heap.read_alloc_fresh s.ecommunities
        [ecommunityBgpsecStr2com subcode (ecommunityState valResROA)])
      have hsend : sendWithEcommunity subcode s valResROA =
          some ⟨⟨s.attr.flag &&& ~~~attrFlagBitExtCommunities, some ecomOrig⟩,
            List.set (s.ecommunities.alloc
              [ecommunityBgpsecStr2com subcode (ecommunityState valResROA)])
                s.ecommunities.fresh none⟩ := by
        simp only [sendWithEcommunity, srxEcommunityChange, srxEcommunityRestore, hextra, if_pos hbit,
          hfree, Option.map_some, or_and_not_right]
      refine ⟨_, hsend, fun p vals hp => ?_, by rw [if_neg nofun]⟩
      have hne : p ≠ s.ecommunities.fresh := Nat.ne_of_lt (Heap.lt_fresh_of_read hp)
      exact (Heap.read_set_of_ne _ hne none).trans (Heap.read_alloc hp _)

/-- A call leaves the attribute as it was exactly when it has no `extra` or its flag is clear. -/
theorem sendWithEcommunity_same_iff {subcode : UInt8} {s s' : EcomState} {valResROA : SRxResult}
    (h : sendWithEcommunity subcode s valResROA = some s') :
    s'.attr = s.attr ↔ s.attr.extra = none ∨ s.attr.flag &&& attrFlagBitExtCommunities = 0 := by
  obtain ⟨s'', hsend, -, hattr⟩ := sendWithEcommunity_eq subcode s valResROA
  rw [h, Option.some.injEq] at hsend
  rw [hsend, hattr]
  by_cases hextra : s.attr.extra = none
  · rw [if_pos hextra]
    exact iff_of_true rfl (Or.inl hextra)
  · rw [if_neg hextra, ← and_not_eq_self_iff]
    constructor
    · intro heq
      exact Or.inr (congrArg EcomAttr.flag heq)
    · rintro (hnone | hflag)
      · exact absurd hnone hextra
      · rw [hflag]

/-- Every call succeeds: what is freed is the list that was just allocated. -/
theorem sendWithEcommunity_path (subcode : UInt8) (s₀ : EcomState) (calls : List SRxResult) :
    ∃ s, Run.Path (sendWithEcommunity subcode) s₀ calls s := by
  induction calls using List.reverseRecOn with
  | nil => exact ⟨s₀, .nil⟩
  | append_singleton calls valResROA ih =>
      obtain ⟨s, hpath⟩ := ih
      obtain ⟨s', hsend, -⟩ := sendWithEcommunity_eq subcode s valResROA
      exact ⟨s', hpath.snoc hsend⟩

/-- A call on an attribute without the flag keeps the attribute. -/
theorem SameAttribute.send {subcode : UInt8} {s₀ s s' : EcomState} {valResROA : SRxResult}
    (hclear : s₀.attr.extra = none ∨ s₀.attr.flag &&& attrFlagBitExtCommunities = 0)
    (h : SameAttribute s₀ s) (hsend : sendWithEcommunity subcode s valResROA = some s') :
    SameAttribute s₀ s' := by
  obtain ⟨hattr, hkept⟩ := h
  obtain ⟨s'', hsend', hread, -⟩ := sendWithEcommunity_eq subcode s valResROA
  rw [hsend, Option.some.injEq] at hsend'
  subst hsend'
  rw [← hattr] at hclear
  refine ⟨((sendWithEcommunity_same_iff hsend).mpr hclear).trans hattr, fun p vals hp => ?_⟩
  exact hread p vals (hkept p vals hp)

/-- **Sent communities.** The peers served one after another see the same attribute exactly when no
    call is made or the attribute has no `extra` or not the flag of the communities. -/
theorem sendWithEcommunity_run_iff (subcode : UInt8) (s₀ : EcomState) (calls : List SRxResult) :
    (∃ s, Run.Path (sendWithEcommunity subcode) s₀ calls s) ∧
        Run.Always (sendWithEcommunity subcode) (SameAttribute s₀) s₀ calls ↔
      calls = [] ∨ s₀.attr.extra = none ∨ s₀.attr.flag &&& attrFlagBitExtCommunities = 0 := by
  have hsame : SameAttribute s₀ s₀ := ⟨rfl, fun _ _ h => h⟩
  constructor
  · rintro ⟨-, halways⟩
    cases calls with
    | nil => exact Or.inl rfl
    | cons valResROA calls =>
        obtain ⟨s, hsend, -⟩ := sendWithEcommunity_eq subcode s₀ valResROA
        have hfirst := halways [valResROA] s (List.prefix_append _ calls) (Run.Path.nil.snoc hsend)
        exact Or.inr ((sendWithEcommunity_same_iff hsend).mp hfirst.1)
  · intro h
    refine ⟨sendWithEcommunity_path subcode s₀ calls, fun calls' s hpre hpath => ?_⟩
    rcases h with rfl | hclear
    · rw [List.prefix_nil.mp hpre] at hpath
      rw [hpath.eq_of_nil]
      exact hsame
    · exact Run.Path.invariant (C := fun _ _ => True)
        (fun s a s' hI _ hs => SameAttribute.send hclear hI hs) hsame hpath
        (fun _ _ _ _ _ _ _ => trivial)

/-- An attribute with communities does not have their flag behind the first peer. -/
theorem communities_lose_flag :
    ¬ Run.Always (sendWithEcommunity 0) (SameAttribute ⟨⟨attrFlagBitExtCommunities, some (some 0)⟩,
        [some [routeTarget]]⟩)
      ⟨⟨attrFlagBitExtCommunities, some (some 0)⟩, [some [routeTarget]]⟩ [.valid] := by
  intro h
  have hsend : sendWithEcommunity 0
      ⟨⟨attrFlagBitExtCommunities, some (some 0)⟩, [some [routeTarget]]⟩ .valid =
        some ⟨⟨0, some (some 0)⟩, [some [routeTarget], none]⟩ := by
    rfl
  have hfirst := h [.valid] _ List.prefix_rfl (Run.Path.nil.snoc hsend)
  exact absurd hfirst.1 (by decide)

end SrxNote.Srx
