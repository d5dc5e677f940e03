import SrxNote.Srx.AttrBuffers

/-!
# What a malformed BGPSEC_Path leaves

After a parsing error the cleared validation data is still behind its pointer in
`attr`, so the end of the attributes takes the UPDATE for a BGPsec one, and the stream
that was parsed is never freed. Nothing is left of an attribute behind an AS_PATH,
which is not parsed.
-/

namespace SrxNote.Srx.AttrBuffers
open SrxNote.Bgpsec SrxNote.Quagga

variable {α : Type} {aspathParse : AspathStream → Option α} {attrFlagBit : UInt8 → UInt32}
  {fuel : Nat} {localAs : UInt32} {flags : UInt8} {octets : List UInt8} {attr : Attr α}
  {h h' : Heap Buffer}

/-! ### The two results -/

/-- The buffers of a call before the attribute is parsed. -/
def prepared (localAs : UInt32) (flags : UInt8) (octets : List UInt8) (h : Heap Buffer) : Heap Buffer :=
  h ++ [some (.valData ⟨be32 localAs, apiStatusOk, some (h.fresh + 1), none, none, none⟩),
    some (.wired (wiredAttribute flags octets)), some (.stream octets)]

theorem write_prepared (d d' : ValDataFields) (x : Buffer) :
    Heap.write (h ++ [some (.valData d), some x]) h.fresh (.valData d') =
      some (h ++ [some (.valData d'), some x]) := by
  simp [Heap.write, Heap.read, Heap.fresh]

/-- Without BGPsec data and an AS path, the function parses into new buffers. -/
theorem bgpAttrBgpsecParse_eq (haspath : attr.aspath = none) (hval : attr.bgpsecValidationData = none) :
    bgpAttrBgpsecParse aspathParse attrFlagBit fuel localAs flags octets attr h =
      (bgpsecParse fuel octets octets.length).bind fun parsed =>
        match parsed with
        | none => (cleanup h.fresh ⟨be32 localAs, apiStatusOk, some (h.fresh + 1), none, none, none⟩
            (prepared localAs flags octets h)).map fun h' =>
          (.withdraw, { attr with bgpsecValidationData := some h.fresh, bgpsecPathAttr := none }, h')
        | some bpa =>
            let stored := storePath aspathParse attrFlagBit bpa
              { attr with bgpsecValidationData := some h.fresh } (prepared localAs flags octets h)
            some (.proceed, stored.1, stored.2) := by
  have hfresh : (h.alloc (.valData .zero)).fresh = h.fresh + 1 := by simp [Heap.alloc, Heap.fresh]
  have htwo : (h.alloc (.valData .zero)).alloc (.wired (wiredAttribute flags octets)) =
      h ++ [some (.valData .zero), some (.wired (wiredAttribute flags octets))] := by
    simp [Heap.alloc]
  have hthree : ∀ d, Heap.alloc (h ++ [some (.valData d), some (.wired (wiredAttribute flags octets))])
      (.stream octets) = h ++ [some (.valData d), some (.wired (wiredAttribute flags octets)),
        some (.stream octets)] := fun d => by simp [Heap.alloc]
  simp only [bgpAttrBgpsecParse, haspath, hval, clearedValData, Option.isSome_none, Bool.false_eq_true,
    if_false, Option.bind_eq_bind, Option.bind_some, hfresh, htwo, write_prepared, hthree]
  congr 1
  funext parsed
  cases parsed with
  | none => exact Option.map_eq_bind.symm
  | some bpa => rfl

/-- The cleanup frees the attribute and clears the validation data, and no more. -/
theorem cleanup_prepared :
    cleanup h.fresh ⟨be32 localAs, apiStatusOk, some (h.fresh + 1), none, none, none⟩
      (prepared localAs flags octets h) =
        some (h ++ [some (.valData .zero), none, some (.stream octets)]) := by
  simp [cleanup, freePtr, prepared, Heap.free, Heap.write, Heap.read, Heap.fresh]

theorem bgpAttrBgpsecParse_malformed (hnull : bgpsecParse fuel octets octets.length = some none)
    (haspath : attr.aspath = none) (hpath : attr.bgpsecPathAttr = none)
    (hval : attr.bgpsecValidationData = none) :
    bgpAttrBgpsecParse aspathParse attrFlagBit fuel localAs flags octets attr h =
      some (.withdraw, { attr with bgpsecValidationData := some h.fresh },
        h ++ [some (.valData .zero), none, some (.stream octets)]) := by
  have hsame : { attr with bgpsecValidationData := some h.fresh, bgpsecPathAttr := none } =
      { attr with bgpsecValidationData := some h.fresh } := by rw [← hpath]
  rw [bgpAttrBgpsecParse_eq haspath hval, hnull, Option.bind_some]
  simp only [cleanup_prepared, Option.map_some, hsame]

theorem bgpAttrBgpsecParse_accepted {bpa : BgpsecPathAttr}
    (hsome : bgpsecParse fuel octets octets.length = some (some bpa))
    (haspath : attr.aspath = none) (hval : attr.bgpsecValidationData = none) :
    bgpAttrBgpsecParse aspathParse attrFlagBit fuel localAs flags octets attr h =
      some (.proceed, ⟨attr.flag ||| attrFlagBit bgpAttrAsPath ||| attrFlagBit bgpAttrBgpsec,
          aspathParse (srxConvertToAspath bpa), some (h.fresh + 3), some h.fresh⟩,
        prepared localAs flags octets h ++ [some (.path bpa)]) := by
  have hfresh : (prepared localAs flags octets h).fresh = h.fresh + 3 := by simp [prepared, Heap.fresh]
  rw [bgpAttrBgpsecParse_eq haspath hval, hsome, Option.bind_some]
  simp only [storePath, hfresh]
  rfl

/-- What a call can do: it withdraws the attribute behind an AS path or a malformed one, and
    stores any other. -/
theorem bgpAttrBgpsecParse_cases (hpath : attr.bgpsecPathAttr = none)
    (hval : attr.bgpsecValidationData = none) {ret : AttrParseRet} {attr' : Attr α}
    (hrun : bgpAttrBgpsecParse aspathParse attrFlagBit fuel localAs flags octets attr h =
      some (ret, attr', h')) :
    (attr.aspath.isSome ∧ ret = .withdraw ∧ attr' = attr ∧ h' = h) ∨
    (attr.aspath = none ∧ bgpsecParse fuel octets octets.length = some none ∧ ret = .withdraw ∧
      attr' = { attr with bgpsecValidationData := some h.fresh } ∧
      h' = h ++ [some (.valData .zero), none, some (.stream octets)]) ∨
    (attr.aspath = none ∧ ∃ bpa, bgpsecParse fuel octets octets.length = some (some bpa) ∧
      ret = .proceed ∧
      attr' = ⟨attr.flag ||| attrFlagBit bgpAttrAsPath ||| attrFlagBit bgpAttrBgpsec,
        aspathParse (srxConvertToAspath bpa), some (h.fresh + 3), some h.fresh⟩ ∧
      h' = prepared localAs flags octets h ++ [some (.path bpa)]) := by
  cases haspath : attr.aspath with
  | some path =>
      rw [bgpAttrBgpsecParse, if_pos (by rw [haspath]; rfl)] at hrun
      cases hrun
      exact .inl ⟨rfl, rfl, rfl, rfl⟩
  | none =>
      rcases hparsed : bgpsecParse fuel octets octets.length with _ | _ | bpa
      · rw [bgpAttrBgpsecParse_eq haspath hval, hparsed] at hrun
        cases hrun
      · rw [bgpAttrBgpsecParse_malformed hparsed haspath hpath hval] at hrun
        cases hrun
        exact .inr (.inl ⟨rfl, rfl, rfl, by rw [haspath], rfl⟩)
      · rw [bgpAttrBgpsecParse_accepted hparsed haspath hval] at hrun
        cases hrun
        exact .inr (.inr ⟨rfl, bpa, rfl, rfl, rfl, rfl⟩)

/-! ### What is left -/

/-- Nothing is left of a call: `attr` is as before, and so are the buffers, and the end of the
    attributes builds no validation data. -/
structure NoTrace (attr : Attr α) (h : Heap Buffer) (attr' : Attr α) (h' : Heap Buffer) : Prop where
  path : attr'.bgpsecPathAttr = none
  valData : attr'.bgpsecValidationData = none
  aspath : attr'.aspath = attr.aspath
  flag : attr'.flag = attr.flag
  released : ∀ p, h'.read p = h.read p
  notBuilt : ∀ ret mpUpdate, endOfAttributes ret mpUpdate attr' h' = some (ret, h')

theorem endOfAttributes_of_none (hval : attr.bgpsecValidationData = none) (ret : AttrParseRet)
    (mpUpdate : Option BgpNlri) : endOfAttributes ret mpUpdate attr h = some (ret, h) := by
  rw [endOfAttributes, hval]

/-- A malformed attribute leaves nothing exactly when there is an AS path already. -/
theorem malformed_noTrace_iff (aspathParse : AspathStream → Option α) (attrFlagBit : UInt8 → UInt32)
    (hnull : bgpsecParse fuel octets octets.length = some none) (localAs : UInt32) (flags : UInt8)
    (hpath : attr.bgpsecPathAttr = none) (hval : attr.bgpsecValidationData = none)
    (h : Heap Buffer) :
    (∃ attr' h', bgpAttrBgpsecParse aspathParse attrFlagBit fuel localAs flags octets attr h =
        some (.withdraw, attr', h') ∧ NoTrace attr h attr' h') ↔ attr.aspath ≠ none := by
  constructor
  · rintro ⟨attr', h', hrun, htrace⟩ haspath
    rw [bgpAttrBgpsecParse_malformed hnull haspath hpath hval] at hrun
    cases hrun
    have hleft := htrace.valData
    cases hleft
  · intro haspath
    refine ⟨attr, h, ?_, hpath, hval, rfl, rfl, fun _ => rfl, endOfAttributes_of_none hval⟩
    rw [bgpAttrBgpsecParse, if_pos (Option.isSome_iff_ne_none.mpr haspath)]

/-- A Secure_Path length that no number of segments has. -/
def oddPath : List UInt8 := [0, 3, 0]

theorem oddPath_noTrace :
    ∃ attr' h', bgpAttrBgpsecParse (fun _ => some ()) (fun _ => 0) 0 65000 0x80 oddPath
        ⟨2, some (), none, none⟩ [] = some (.withdraw, attr', h') ∧
      NoTrace ⟨2, some (), none, none⟩ [] attr' h' :=
  (malformed_noTrace_iff (fun _ => some ()) (fun _ => 0) rfl 65000 0x80 rfl rfl []).mpr (by decide)

/-- Without an AS path, the validation data and the stream are left, and a prefix is added to the
    validation data. -/
theorem oddPath_trace :
    ¬ (∃ attr' h', bgpAttrBgpsecParse (fun _ => some ()) (fun _ => 0) 0 65000 0x80 oddPath
        ⟨0, none, none, none⟩ [] = some (.withdraw, attr', h') ∧
      NoTrace ⟨0, none, none, none⟩ [] attr' h') ∧
    ∃ attr' h' h'' nlri, bgpAttrBgpsecParse (fun _ => some ()) (fun _ => 0) 0 65000 0x80 oddPath
        ⟨0, none, none, none⟩ [] = some (.withdraw, attr', h') ∧
      h'.read 2 = some (.stream oddPath) ∧
      endOfAttributes .withdraw (some ⟨1, 1, [8, 10], by decide, by decide⟩) attr' h' =
        some (.withdraw, h'') ∧
      h''.read 0 = some (.valData { ValDataFields.zero with nlri := some 3 }) ∧
      h''.read 3 = some (.nlri nlri) := by
  constructor
  · rw [@malformed_noTrace_iff Unit 0 oddPath ⟨0, none, none, none⟩ (fun _ => some ()) (fun _ => 0)
      rfl 65000 0x80 rfl rfl []]
    decide
  · exact ⟨_, _, _, _, rfl, rfl, rfl, rfl, rfl⟩

/-! ### What the loop over the attributes sees -/

def pathAt (h : Heap Buffer) (p : Nat) : Option BgpsecPathAttr :=
  match h.read p with
  | some (.path bpa) => some bpa
  | _ => none

def wiredAt (h : Heap Buffer) (p : Nat) : Option (List UInt8) :=
  match h.read p with
  | some (.wired octets) => some octets
  | _ => none

def nlriAt (h : Heap Buffer) (p : Nat) : Option SCAPrefix :=
  match h.read p with
  | some (.nlri nlri) => some nlri
  | _ => none

def valDataAt (h : Heap Buffer) (p : Nat) : Option ValidationData :=
  match h.read p with
  | some (.valData d) =>
      some ⟨d.nlri.bind (nlriAt h), d.hashMessage.1, d.bgpsecPathAttr.bind (wiredAt h), d.status⟩
  | _ => none

/-- The state of the loop, with the values behind the pointers. -/
def Attr.view (attr : Attr α) (h : Heap Buffer) (st : AttrState) : AttrState :=
  { st with
    aspath := attr.aspath.isSome
    bgpsecPathAttr := attr.bgpsecPathAttr.bind (pathAt h)
    validationData := attr.bgpsecValidationData.bind (valDataAt h) }

/-- The values that the loop gets are those of the buffers. -/
theorem bgpAttrBgpsecParse_view (hparse : ∀ s, (aspathParse s).isSome)
    (hpath : attr.bgpsecPathAttr = none) (hval : attr.bgpsecValidationData = none)
    {ret : AttrParseRet} {attr' : Attr α}
    (hrun : bgpAttrBgpsecParse aspathParse attrFlagBit fuel localAs flags octets attr h =
      some (ret, attr', h')) (st : AttrState) :
    ∃ consumed, Srx.bgpAttrBgpsecParse fuel flags octets (attr.view h st) =
      some (⟨ret, consumed⟩, attr'.view h' st) := by
  obtain ⟨hsome, rfl, rfl, rfl⟩ | ⟨haspath, hparsed, rfl, rfl, rfl⟩ |
    ⟨haspath, bpa, hparsed, rfl, rfl, rfl⟩ := bgpAttrBgpsecParse_cases hpath hval hrun
  · refine ⟨false, ?_⟩
    exact if_pos hsome
  · have hnone : ¬ (attr.view h st).aspath = true := by simp [Attr.view, haspath]
    refine ⟨true, ?_⟩
    rw [Srx.bgpAttrBgpsecParse, if_neg hnone, hparsed]
    simp [Attr.view, haspath, hpath, valDataAt, Heap.read, Heap.fresh, ValDataFields.zero]
  · have hnone : ¬ (attr.view h st).aspath = true := by simp [Attr.view, haspath]
    refine ⟨true, ?_⟩
    rw [Srx.bgpAttrBgpsecParse, if_neg hnone, hparsed]
    simp [Attr.view, hparse, valDataAt, wiredAt, pathAt, prepared, Heap.read, Heap.fresh]

/-- What can be read after the prefix was added to the validation data. -/
theorem read_withNlri {valdata : Nat} {d : ValDataFields} (hd : h.read valdata = some (.valData d))
    (nlri : SCAPrefix) (d' : ValDataFields) (p : Nat) :
    Heap.read ((h.alloc (.nlri nlri)).set valdata (some (.valData d'))) p =
      if p = valdata then some (.valData d') else if p = h.fresh then some (.nlri nlri) else h.read p := by
  rw [Heap.read_set (Heap.read_alloc hd (.nlri nlri)), Heap.read_alloc_eq]

/-- A reader that sees neither validation data nor prefixes does not see the one that was added. -/
theorem reader_withNlri {β : Type} {valdata : Nat} {d : ValDataFields}
    (hd : h.read valdata = some (.valData d)) (nlri : SCAPrefix) (d' : ValDataFields)
    (reader : Heap Buffer → Nat → Option β)
    (hcongr : ∀ h h' : Heap Buffer, ∀ p, h.read p = h'.read p → reader h p = reader h' p)
    (hnone : ∀ h : Heap Buffer, ∀ p, h.read p = none → reader h p = none)
    (hvalData : ∀ h : Heap Buffer, ∀ p e, h.read p = some (.valData e) → reader h p = none)
    (hnlri : ∀ h : Heap Buffer, ∀ p n, h.read p = some (.nlri n) → reader h p = none) :
    reader ((h.alloc (.nlri nlri)).set valdata (some (.valData d'))) = reader h := by
  funext p
  have hread := read_withNlri hd nlri d' p
  by_cases hval : p = valdata
  · rw [if_pos hval] at hread
    rw [hvalData _ p d' hread, hval, hvalData h valdata d hd]
  · rw [if_neg hval] at hread
    by_cases hnew : p = h.fresh
    · rw [if_pos hnew] at hread
      rw [hnlri _ p nlri hread, hnew, hnone h h.fresh (by simp [Heap.read, Heap.fresh])]
    · rw [if_neg hnew] at hread
      exact hcongr _ h p hread

/-- The prefix that was added is neither a path nor an attribute. -/
theorem values_withNlri {valdata : Nat} {d : ValDataFields} (hd : h.read valdata = some (.valData d))
    (nlri : SCAPrefix) (d' : ValDataFields) :
    pathAt ((h.alloc (.nlri nlri)).set valdata (some (.valData d'))) = pathAt h ∧
      wiredAt ((h.alloc (.nlri nlri)).set valdata (some (.valData d'))) = wiredAt h := by
  constructor
  · refine reader_withNlri hd nlri d' pathAt ?_ ?_ ?_ ?_
    · intro h h' p hread
      rw [pathAt, pathAt, hread]
    · intro h p hread
      rw [pathAt, hread]
    · intro h p e hread
      rw [pathAt, hread]
    · intro h p n hread
      rw [pathAt, hread]
  · refine reader_withNlri hd nlri d' wiredAt ?_ ?_ ?_ ?_
    · intro h h' p hread
      rw [wiredAt, wiredAt, hread]
    · intro h p hread
      rw [wiredAt, hread]
    · intro h p e hread
      rw [wiredAt, hread]
    · intro h p n hread
      rw [wiredAt, hread]

/-- The end of the attributes does to the values what it does to the buffers. -/
theorem endOfAttributes_view {ret ret' : AttrParseRet} {st : AttrState}
    (hlive : ∀ valdata, attr.bgpsecValidationData = some valdata →
      ∃ d, h.read valdata = some (.valData d))
    (hend : endOfAttributes ret st.mpUpdate attr h = some (ret', h')) :
    ∃ copied, Srx.endOfAttributes ret (attr.view h st) =
      (ret', attr.view h' { st with copied := copied }) := by
  unfold endOfAttributes at hend
  unfold Srx.endOfAttributes Attr.view
  cases hval : attr.bgpsecValidationData with
  | none =>
      rw [hval] at hend
      cases hend
      exact ⟨st.copied, rfl⟩
  | some valdata =>
      obtain ⟨d, hd⟩ := hlive valdata hval
      have hold : valDataAt h valdata = some ⟨d.nlri.bind (nlriAt h), d.hashMessage.1,
        d.bgpsecPathAttr.bind (wiredAt h), d.status⟩ := by rw [valDataAt, hd]
      simp only [Option.bind_some, hold]
      cases hcreate : bgpsecCreateValdataNlri st.mpUpdate with
      | none =>
          simp only [hval, hcreate] at hend
          cases hend
          exact ⟨st.copied, by simp only [hold]⟩
      | some created =>
          obtain ⟨nlri, copied⟩ := created
          simp only [hval, hcreate, hd, Heap.write_of_read (Heap.read_alloc hd _), Option.map_some] at hend
          cases hend
          obtain ⟨hpaths, hwired⟩ := values_withNlri hd nlri { d with nlri := some h.fresh }
          have hnew := read_withNlri hd nlri { d with nlri := some h.fresh } valdata
          have hne : h.fresh ≠ valdata := Ne.symm (Nat.ne_of_lt (Heap.lt_fresh_of_read hd))
          have hnlri := read_withNlri hd nlri { d with nlri := some h.fresh } h.fresh
          rw [if_pos rfl] at hnew
          rw [if_neg hne, if_pos rfl] at hnlri
          refine ⟨copied, ?_⟩
          rw [hpaths, valDataAt, hnew, hwired]
          simp only [Option.bind_some, nlriAt, hnlri]

/-- The validation data of a call is there afterwards. -/
theorem valData_live (hpath : attr.bgpsecPathAttr = none) (hval : attr.bgpsecValidationData = none)
    {ret : AttrParseRet} {attr' : Attr α}
    (hrun : bgpAttrBgpsecParse aspathParse attrFlagBit fuel localAs flags octets attr h =
      some (ret, attr', h')) :
    ∀ valdata, attr'.bgpsecValidationData = some valdata →
      ∃ d, h'.read valdata = some (.valData d) := by
  intro valdata hvaldata
  obtain ⟨-, -, rfl, -⟩ | ⟨-, -, -, rfl, rfl⟩ | ⟨-, bpa, -, -, rfl, rfl⟩ :=
    bgpAttrBgpsecParse_cases hpath hval hrun
  · rw [hval] at hvaldata
    cases hvaldata
  · cases hvaldata
    exact ⟨.zero, by simp [Heap.read, Heap.fresh]⟩
  · cases hvaldata
    exact ⟨⟨be32 localAs, apiStatusOk, some (h.fresh + 1), none, none, none⟩, by
      simp [Heap.read, Heap.fresh, prepared]⟩

/-- A BGPSEC_Path as the last attribute: the loop over the values goes with that over the buffers. -/
theorem lastAttribute_view (hparse : ∀ s, (aspathParse s).isSome) (hpath : attr.bgpsecPathAttr = none)
    (hval : attr.bgpsecValidationData = none) {ret ret' : AttrParseRet} {attr' : Attr α}
    {h'' : Heap Buffer} {st : AttrState}
    (hrun : bgpAttrBgpsecParse aspathParse attrFlagBit fuel localAs flags octets attr h =
      some (ret, attr', h'))
    (hend : endOfAttributes ret st.mpUpdate attr' h' = some (ret', h'')) :
    ∃ consumed copied st', Srx.bgpAttrBgpsecParse fuel flags octets (attr.view h st) =
        some (⟨ret, consumed⟩, st') ∧
      Srx.endOfAttributes ret st' = (ret', attr'.view h'' { st with copied := copied }) := by
  obtain ⟨consumed, hvalues⟩ := bgpAttrBgpsecParse_view hparse hpath hval hrun st
  obtain ⟨copied, hvaluesEnd⟩ := endOfAttributes_view (valData_live hpath hval hrun) hend
  exact ⟨consumed, copied, _, hvalues, hvaluesEnd⟩

end SrxNote.Srx.AttrBuffers
