import SrxNote.Srx.AttrParse

/-!
# Which prefix is validated

The prefix for the validation has the length of the first prefix of the NLRI
field and the octets of the whole field. So it is the prefix that is announced
when the field holds one prefix, and also when all its prefixes are of length 0,
for which nothing is copied; in all other cases it is not.
-/

namespace SrxNote.Srx
open SrxNote.Bgpsec SrxNote.Quagga

/-- The prefix of the validation data is the given one: its length, its octets, and zeros. -/
structure SCAPrefix.Stores (nlri : SCAPrefix) (p : NlriPrefix) : Prop where
  length : nlri.length = p.length
  ip : nlri.ip = p.addr ++ List.replicate (addrLen - p.addr.length) 0

/-- The validation data holds each of the prefixes, and nothing was written behind its address. -/
def ValidatesAnnounced (st : AttrState) (ps : List NlriPrefix) : Prop :=
  (∃ valData nlri, st.validationData = some valData ∧ valData.nlri = some nlri ∧
    ∀ p ∈ ps, nlri.Stores p) ∧ st.copied ≤ addrLen

theorem NlriPrefix.addr_length_le (p : NlriPrefix) : p.addr.length ≤ addrLen := by
  have hle := p.length_le
  have hlen := p.addr_length
  omega

/-! ### The copy -/

/-- The prefix that is made of an NLRI field, and how much of the field is copied. -/
theorem bgpsecCreateValdataNlri_wire {mp : BgpNlri} {p : NlriPrefix} {ps : List NlriPrefix}
    (hmp : mp.nlri = nlriWire (p :: ps)) :
    ∃ nlri copied, bgpsecCreateValdataNlri (some mp) = some (nlri, copied) ∧
      nlri.length = p.length ∧
      (p.length = 0 → nlri.ip = List.replicate addrLen 0 ∧ copied = 0) ∧
      (p.length ≠ 0 → copied = p.addr.length + (nlriWire ps).length ∧
        nlri.ip = (p.addr ++ nlriWire ps ++
          List.replicate (addrLen - (p.addr.length + (nlriWire ps).length)) 0).take addrLen) := by
  have hfield : mp.nlri = p.length :: (p.addr ++ nlriWire ps) := by
    rw [hmp, nlriWire, List.flatMap_cons, NlriPrefix.wire]
    rfl
  refine ⟨_, _, rfl, ?_, ?_, ?_⟩
  · simp [hfield]
  · intro hzero
    simp [hfield, hzero]
  · intro hne
    have hpos : p.length > 0 := UInt8.pos_iff_ne_zero.mpr hne
    have htake : (p.addr ++ nlriWire ps).take (p.addr.length + (nlriWire ps).length) =
        p.addr ++ nlriWire ps := List.take_of_length_le (by simp)
    simp [hfield, hpos, htake]

/-- With a second prefix behind it, the first prefix is not stored with zeros behind its octets. -/
theorem not_stores_of_next {nlri : SCAPrefix} {p q : NlriPrefix} {ps : List NlriPrefix}
    {zeros : List UInt8} (hip : nlri.ip = p.addr ++ nlriWire (q :: ps) ++ zeros)
    (hp : nlri.Stores p) (hq : q.length ≠ 0) : False := by
  have hsplit := hp.ip
  rw [hip, List.append_assoc, List.append_cancel_left_eq] at hsplit
  have hmem : q.length ∈ List.replicate (addrLen - p.addr.length) (0 : UInt8) := by
    rw [← hsplit]
    simp [nlriWire, NlriPrefix.wire]
  exact hq (List.mem_replicate.mp hmem).2

/-- Behind a first prefix of length 0 nothing is copied, so that all have to be of length 0. -/
theorem create_stores_zero_iff {mp : BgpNlri} {p : NlriPrefix} {ps : List NlriPrefix}
    (hmp : mp.nlri = nlriWire (p :: ps)) {nlri : SCAPrefix} {copied : Nat}
    (hcreate : bgpsecCreateValdataNlri (some mp) = some (nlri, copied)) (hp : p.length = 0) :
    ((∀ q ∈ p :: ps, nlri.Stores q) ∧ copied ≤ addrLen) ↔ ∀ q ∈ p :: ps, q.length = 0 := by
  obtain ⟨nlri', copied', hcreate', hlength, hzero, -⟩ := bgpsecCreateValdataNlri_wire hmp
  rw [hcreate] at hcreate'
  cases hcreate'
  obtain ⟨hip, hcopied⟩ := hzero hp
  constructor
  · rintro ⟨hstores, -⟩ q hq
    rw [← (hstores q hq).length, hlength, hp]
  · intro hall
    refine ⟨fun q hq => ?_, by omega⟩
    have haddr : q.addr = [] := by
      apply List.eq_nil_of_length_eq_zero
      rw [q.addr_length, hall q hq]
      rfl
    exact ⟨by rw [hlength, hp, hall q hq], by rw [hip, haddr]; rfl⟩

/-- Behind another one the rest of the field is copied, so that it has to be the only one. -/
theorem create_stores_ne_iff {mp : BgpNlri} {p : NlriPrefix} {ps : List NlriPrefix}
    (hmp : mp.nlri = nlriWire (p :: ps)) {nlri : SCAPrefix} {copied : Nat}
    (hcreate : bgpsecCreateValdataNlri (some mp) = some (nlri, copied)) (hp : p.length ≠ 0) :
    ((∀ q ∈ p :: ps, nlri.Stores q) ∧ copied ≤ addrLen) ↔ ps = [] := by
  obtain ⟨nlri', copied', hcreate', hlength, -, hcopy⟩ := bgpsecCreateValdataNlri_wire hmp
  rw [hcreate] at hcreate'
  cases hcreate'
  obtain ⟨hcopied, hip⟩ := hcopy hp
  constructor
  · rintro ⟨hstores, hfits⟩
    cases ps with
    | nil => rfl
    | cons q ps =>
        rw [List.take_of_length_le (by simp; omega)] at hip
        have hq : q.length ≠ 0 := by
          rw [← (hstores q (by simp)).length, hlength]
          exact hp
        exact (not_stores_of_next hip (hstores p (by simp)) hq).elim
  · rintro rfl
    have hle := p.addr_length_le
    simp only [nlriWire, List.flatMap_nil, List.length_nil, Nat.add_zero, List.append_nil]
      at hcopied hip
    refine ⟨fun q hq => ?_, by omega⟩
    rw [List.mem_singleton.mp hq]
    refine ⟨hlength, ?_⟩
    rw [hip, List.take_of_length_le (by simp; omega)]

/-- The prefix that is made of an NLRI field is each prefix of the field, and fits, exactly if it is
    the only one or all are of length 0. -/
theorem create_stores_iff {mp : BgpNlri} {ps : List NlriPrefix} (hmp : mp.nlri = nlriWire ps)
    {nlri : SCAPrefix} {copied : Nat}
    (hcreate : bgpsecCreateValdataNlri (some mp) = some (nlri, copied)) :
    ((∀ p ∈ ps, nlri.Stores p) ∧ copied ≤ addrLen) ↔
      (∃ p, ps = [p]) ∨ ∀ p ∈ ps, p.length = 0 := by
  cases ps with
  | nil =>
      have hpos := mp.nlri_pos
      rw [hmp] at hpos
      exact absurd hpos (by simp [nlriWire])
  | cons p ps =>
      by_cases hp : p.length = 0
      · rw [create_stores_zero_iff hmp hcreate hp]
        refine ⟨Or.inr, ?_⟩
        rintro (⟨q, hq⟩ | hall)
        · cases hq
          simpa using hp
        · exact hall
      · rw [create_stores_ne_iff hmp hcreate hp]
        constructor
        · rintro rfl
          exact Or.inl ⟨p, rfl⟩
        · rintro (⟨q, hq⟩ | hall)
          · exact (List.cons.inj hq).2
          · exact absurd (hall p List.mem_cons_self) hp

/-! ### The loop over the attributes -/

/-- What an attribute that is accepted leaves. -/
theorem attributeParse_proceed {fuel : Nat} {a : Attribute} {st st' : AttrState} {consumed : Bool}
    (h : attributeParse fuel a st = some (⟨.proceed, consumed⟩, st')) :
    st'.seen = st.seen ∧ (∀ mp stock, a = .mpReach mp stock → st'.mpUpdate = some mp) ∧
      ((∀ mp stock, a ≠ .mpReach mp stock) → st'.mpUpdate = st.mpUpdate) ∧
      ((∃ flags octets, a = .bgpsec flags octets) ∨ st.validationData ≠ none →
        st'.validationData ≠ none) := by
  cases a with
  | bgpsec flags octets =>
      rw [attributeParse, bgpAttrBgpsecParse] at h
      split at h
      · cases h
      · split at h
        · cases h
        · cases h
        · cases h
          simp
  | mpReach mp stock =>
      simp only [attributeParse, Option.some.injEq, Prod.mk.injEq] at h
      obtain ⟨rfl, rfl⟩ := h
      simp
  | other type setsAspath stock =>
      simp only [attributeParse, Option.some.injEq, Prod.mk.injEq] at h
      obtain ⟨rfl, rfl⟩ := h
      simp

/-- The prefix is added to an UPDATE that is accepted so far, and nothing else is changed. -/
theorem endOfAttributes_proceed {ret : AttrParseRet} {st st' : AttrState}
    (h : endOfAttributes ret st = (.proceed, st')) :
    ret = .proceed ∧ st'.mpUpdate = st.mpUpdate ∧
      (st.validationData ≠ none → ∃ valData nlri,
        bgpsecCreateValdataNlri st.mpUpdate = some (nlri, st'.copied) ∧
        st'.validationData = some valData ∧ valData.nlri = some nlri) := by
  rw [endOfAttributes] at h
  split at h
  · rename_i hnone
    cases h
    exact ⟨rfl, rfl, fun hsome => absurd hnone hsome⟩
  · split at h
    · cases h
    · rename_i nlri copied hcreate
      cases h
      exact ⟨rfl, rfl, fun _ => ⟨_, nlri, hcreate, rfl, rfl⟩⟩

/-- A loop that accepts has accepted its first attribute; behind the last one the prefix is
    added. -/
theorem bgpAttrParse_cons {fuel : Nat} {a : Attribute} {as : List Attribute} {st st' : AttrState}
    (h : bgpAttrParse fuel (a :: as) st = some (.proceed, st')) :
    a.type ∉ st.seen ∧ ∃ st₁,
      attributeParse fuel a { st with seen := a.type :: st.seen } = some (⟨.proceed, true⟩, st₁) ∧
      (as = [] → endOfAttributes .proceed st₁ = (.proceed, st')) ∧
      (as ≠ [] → bgpAttrParse fuel as st₁ = some (.proceed, st')) := by
  rw [bgpAttrParse] at h
  split at h
  · cases h
  · rename_i hseen
    refine ⟨hseen, ?_⟩
    split at h
    · cases h
    · rename_i stock st₁ hparse
      obtain ⟨ret, consumed⟩ := stock
      cases hend : (if as.isEmpty && consumed then endOfAttributes ret st₁ else (ret, st₁)) with
      | mk ret' st₂ =>
          simp only [hend, ne_eq, ite_not] at h
          split at h
          · rename_i hproceed
            subst hproceed
            cases consumed with
            | false => simp at h
            | true =>
                simp only [Bool.not_true, Bool.false_eq_true, if_false] at h
                cases as with
                | nil =>
                    cases h
                    have hret := (endOfAttributes_proceed hend).1
                    subst hret
                    exact ⟨st₁, hparse, fun _ => hend, fun hne => absurd rfl hne⟩
                | cons b bs =>
                    cases hend
                    exact ⟨st₁, hparse, (fun hnil => nomatch hnil), fun _ => h⟩
          · rename_i hne
            cases h
            exact absurd rfl hne

/-- An UPDATE that is accepted: `mp_update` is that of its MP_REACH_NLRI attribute, and with a
    BGPSEC_Path attribute the prefix is made of it. -/
theorem bgpAttrParse_proceed {fuel : Nat} {as : List Attribute} {st st' : AttrState}
    (h : bgpAttrParse fuel as st = some (.proceed, st')) :
    (∀ mp stock, .mpReach mp stock ∈ as → st'.mpUpdate = some mp) ∧
      (bgpAttrMpReachNlri ∈ st.seen → st'.mpUpdate = st.mpUpdate) ∧
      ((∃ flags octets, .bgpsec flags octets ∈ as) ∨ st.validationData ≠ none ∧ as ≠ [] →
        ∃ valData nlri, bgpsecCreateValdataNlri st'.mpUpdate = some (nlri, st'.copied) ∧
          st'.validationData = some valData ∧ valData.nlri = some nlri) := by
  induction as generalizing st with
  | nil =>
      cases h
      simp
  | cons a as ih =>
      obtain ⟨hseen, st₁, hparse, hlast, hmore⟩ := bgpAttrParse_cons h
      obtain ⟨hseen₁, hmp₁, hother₁, hval₁⟩ := attributeParse_proceed hparse
      have hkept : bgpAttrMpReachNlri ∈ st.seen → st₁.mpUpdate = st.mpUpdate := by
        intro hmem
        refine hother₁ ?_
        rintro mp stock rfl
        exact hseen hmem
      have hsome : (∃ flags octets, .bgpsec flags octets ∈ a :: as) ∨
          st.validationData ≠ none ∧ a :: as ≠ [] →
          (∃ flags octets, .bgpsec flags octets ∈ as) ∨ st₁.validationData ≠ none := by
        rintro (⟨flags, octets, hmem⟩ | ⟨hne, -⟩)
        · rcases List.mem_cons.mp hmem with rfl | hmem
          · exact Or.inr (hval₁ (Or.inl ⟨flags, octets, rfl⟩))
          · exact Or.inl ⟨flags, octets, hmem⟩
        · exact Or.inr (hval₁ (Or.inr hne))
      by_cases hnil : as = []
      · subst hnil
        obtain ⟨-, hmp', hend⟩ := endOfAttributes_proceed (hlast rfl)
        refine ⟨?_, ?_, ?_⟩
        · intro mp stock hmem
          rw [hmp']
          exact hmp₁ mp stock (List.mem_singleton.mp hmem).symm
        · intro hmem
          rw [hmp', hkept hmem]
        · intro hbgpsec
          have hne : st₁.validationData ≠ none := by
            rcases hsome hbgpsec with ⟨_, _, hmem⟩ | hne
            · cases hmem
            · exact hne
          rw [hmp']
          exact hend hne
      · obtain ⟨hmp, hseen', hval⟩ := ih (hmore hnil)
        refine ⟨?_, ?_, ?_⟩
        · intro mp stock hmem
          rcases List.mem_cons.mp hmem with rfl | hmem
          · -- no later attribute is of this type
            rw [hseen' (by simp [hseen₁, Attribute.type])]
            exact hmp₁ mp stock rfl
          · exact hmp mp stock hmem
        · intro hmem
          rw [hseen' (by simp [hseen₁, hmem]), hkept hmem]
        · intro hbgpsec
          refine hval ?_
          rcases hsome hbgpsec with hmem | hne
          · exact Or.inl hmem
          · exact Or.inr ⟨hne, hnil⟩

/-- In an UPDATE with a BGPSEC_Path and an MP_REACH_NLRI attribute that is accepted, each announced
    prefix is the one that is validated, and the copy of it fits, exactly if only one prefix is
    announced or all are of length 0. -/
theorem validated_prefix_iff {fuel : Nat} {as : List Attribute} {st : AttrState} {flags : UInt8}
    {octets : List UInt8} {mp : BgpNlri} {stock : StockRet} {ps : List NlriPrefix}
    (haccept : bgpAttrParse fuel as AttrState.init = some (.proceed, st))
    (hbgpsec : .bgpsec flags octets ∈ as) (hmp : .mpReach mp stock ∈ as)
    (hps : mp.nlri = nlriWire ps) :
    ValidatesAnnounced st ps ↔ (∃ p, ps = [p]) ∨ ∀ p ∈ ps, p.length = 0 := by
  obtain ⟨hmpUpdate, -, hval⟩ := bgpAttrParse_proceed haccept
  obtain ⟨valData, nlri, hcreate, hvalData, hnlri⟩ := hval (Or.inl ⟨flags, octets, hbgpsec⟩)
  rw [hmpUpdate mp stock hmp] at hcreate
  rw [← create_stores_iff hps hcreate]
  constructor
  · rintro ⟨⟨valData', nlri', hvalData', hnlri', hstores⟩, hfits⟩
    rw [hvalData] at hvalData'
    cases hvalData'
    rw [hnlri] at hnlri'
    cases hnlri'
    exact ⟨hstores, hfits⟩
  · rintro ⟨hstores, hfits⟩
    exact ⟨⟨valData, nlri, hvalData, hnlri, hstores⟩, hfits⟩

/-- A Secure_Path of one segment and a block with one signature of one octet. -/
def shortPath : List UInt8 :=
  [0, 8, 1, 0, 0, 0, 0xFD, 0xE8, 0, 26, 1] ++ List.replicate 20 7 ++ [0, 1, 0xAA]

theorem eight_le_addrLen : (8 : UInt8).toNat ≤ 8 * addrLen := by decide

/-- 10.0.0.0/8. -/
def prefixTen : NlriPrefix := ⟨8, [10], eight_le_addrLen, rfl⟩

/-- 11.0.0.0/8. -/
def prefixEleven : NlriPrefix := ⟨8, [11], eight_le_addrLen, rfl⟩

/-- An MP_REACH_NLRI attribute for IPv4 unicast that announces 10.0.0.0/8. -/
def reachTen : Attribute := .mpReach ⟨1, 1, [8, 10], by decide, by decide⟩ ⟨.proceed, true⟩

/-- An MP_REACH_NLRI attribute for IPv4 unicast that announces 10.0.0.0/8 and 11.0.0.0/8. -/
def reachTenEleven : Attribute :=
  .mpReach ⟨1, 1, [8, 10, 8, 11], by decide, by decide⟩ ⟨.proceed, true⟩

theorem reachTen_validated :
    ∃ st, bgpAttrParse 2 [reachTen, .bgpsec 0x80 shortPath] AttrState.init = some (.proceed, st) ∧
      ValidatesAnnounced st [prefixTen] := by
  obtain ⟨st, hst⟩ : ∃ st, bgpAttrParse 2 [reachTen, .bgpsec 0x80 shortPath] AttrState.init =
      some (.proceed, st) := ⟨_, rfl⟩
  have hbgpsec : Attribute.bgpsec 0x80 shortPath ∈ [reachTen, .bgpsec 0x80 shortPath] := by simp
  have hmp : Attribute.mpReach ⟨1, 1, [8, 10], by decide, by decide⟩ ⟨.proceed, true⟩ ∈
      [reachTen, .bgpsec 0x80 shortPath] := List.mem_cons_self
  exact ⟨st, hst, (validated_prefix_iff hst hbgpsec hmp rfl).mpr (Or.inl ⟨prefixTen, rfl⟩)⟩

/-- Two prefixes are announced and accepted. The one that is validated is 10.8.11.0/8. -/
theorem reachTenEleven_not_validated :
    ¬ ∀ st, bgpAttrParse 2 [.bgpsec 0x80 shortPath, reachTenEleven] AttrState.init =
      some (.proceed, st) → ValidatesAnnounced st [prefixTen, prefixEleven] := by
  intro h
  obtain ⟨⟨valData, nlri, hvalData, hnlri, hstores⟩, -⟩ := h _ rfl
  cases hvalData
  cases hnlri
  exact absurd (hstores prefixTen (by simp)).ip (by decide)

end SrxNote.Srx
