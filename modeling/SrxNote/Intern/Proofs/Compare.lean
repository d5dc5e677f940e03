import SrxNote.Intern.Nodes

/-!
# What `bgpsec_path_attr_cmp` compares

`AttrNode.compared` is the content that two attributes are compared by: the path
segments and, for every block, its header and the octets of its signature
segments, and neither an address nor `securePathLen`. Where the comparison is
defined it is equality of these contents (`bgpsecPathAttrCmp_eq_true_iff`).
-/

namespace SrxNote.Intern
open SrxNote.Bgpsec

/-- What is compared of a signature segment: the octets that `memcmp` reads and the length. -/
def SigNode.compared (ss : SigNode) : Option (List UInt8) × UInt16 × Option (List UInt8) :=
  (Buffer.read (octets ss.ski) skiLength, ss.sigLen,
    Buffer.read (octets ss.signature) ss.sigLen.toNat)

/-- What is compared of a block. -/
def BlockNode.compared (sb : BlockNode) :
    UInt16 × UInt8 × List (Option (List UInt8) × UInt16 × Option (List UInt8)) :=
  (sb.sigBlockLen, sb.algoSuiteId, sb.sigSegments.map SigNode.compared)

/-- What is compared of an attribute. -/
def AttrNode.compared (bpa : AttrNode) : List PathSegment ×
    List (UInt16 × UInt8 × List (Option (List UInt8) × UInt16 × Option (List UInt8))) :=
  (bpa.pathSegments.map PathNode.segment, bpa.sigBlocks.map BlockNode.compared)

/-- Both buffers that `memcmp` compares can be read. -/
def SigNode.Readable (ss : SigNode) : Prop :=
  (∃ ski, Buffer.read (octets ss.ski) skiLength = some ski) ∧
    ∃ signature, Buffer.read (octets ss.signature) ss.sigLen.toNat = some signature

theorem cmpPathSegments_iff (segs1 segs2 : List PathNode) :
    cmpPathSegments segs1 segs2 = true ↔
      segs1.map PathNode.segment = segs2.map PathNode.segment := by
  induction segs1 generalizing segs2 with
  | nil => cases segs2 <;> simp [cmpPathSegments]
  | cons seg1 segs1 ih =>
      cases segs2 with
      | nil => simp [cmpPathSegments]
      | cons seg2 segs2 =>
          obtain ⟨_, as1, pCount1, flags1⟩ := seg1
          obtain ⟨_, as2, pCount2, flags2⟩ := seg2
          have ih' := ih segs2
          simp only [cmpPathSegments, List.map_cons, List.cons.injEq, PathSegment.mk.injEq]
          by_cases has : as1 = as2
          · by_cases hpCount : pCount1 = pCount2
            · by_cases hflags : flags1 = flags2
              · simp [has, hpCount, hflags, ih']
              · simp [has, hpCount, hflags]
            · simp [has, hpCount]
          · simp [has]

theorem memcmp_eq_some {a b : Option HeapBuffer} {size : Nat} {r : Bool}
    (h : memcmp a b size = some r) :
    ∃ x y, Buffer.read (octets a) size = some x ∧ Buffer.read (octets b) size = some y ∧
      r = (x == y) := by
  rw [memcmp] at h
  split at h
  · rename_i x y hx hy
    cases h
    exact ⟨x, y, hx, hy, rfl⟩
  · cases h

theorem memcmp_comm (a b : Option HeapBuffer) (size : Nat) : memcmp a b size = memcmp b a size := by
  rw [memcmp, memcmp]
  cases Buffer.read (octets a) size with
  | none => cases Buffer.read (octets b) size <;> rfl
  | some x =>
      cases Buffer.read (octets b) size with
      | none => rfl
      | some y => simp [Bool.beq_comm]

/-- One pass of the loop over the signature segments. -/
theorem cmpSigSegments_cons {ss1 ss2 : SigNode} {sss1 sss2 : List SigNode} {r : Bool}
    (h : cmpSigSegments (ss1 :: sss1) (ss2 :: sss2) = some r) :
    (r = false ∧ ss1.compared ≠ ss2.compared) ∨
      (ss1.compared = ss2.compared ∧ ss1.Readable ∧ ss2.Readable ∧
        cmpSigSegments sss1 sss2 = some r) := by
  rw [cmpSigSegments] at h
  split at h
  · cases h
  · rename_i hski
    obtain ⟨x, y, hx, hy, hxy⟩ := memcmp_eq_some hski
    cases h
    refine Or.inl ⟨rfl, fun heq => ?_⟩
    have hskis : some x = some y := by
      rw [← hx, ← hy]
      exact congrArg Prod.fst heq
    simp [Option.some.inj hskis] at hxy
  · rename_i hski
    obtain ⟨x, y, hx, hy, hxy⟩ := memcmp_eq_some hski
    have hxy' : x = y := eq_of_beq hxy.symm
    split at h
    · rename_i hlen
      cases h
      exact Or.inl ⟨rfl, fun heq => hlen (congrArg (fun c => c.2.1) heq)⟩
    · rename_i hlen
      have hlen' : ss1.sigLen = ss2.sigLen := not_not.mp hlen
      split at h
      · cases h
      · rename_i hsig
        obtain ⟨u, v, hu, hv, huv⟩ := memcmp_eq_some hsig
        cases h
        refine Or.inl ⟨rfl, fun heq => ?_⟩
        have hsigs : some u = some v := by
          rw [← hu, ← hv, hlen']
          have := congrArg (fun c => c.2.2) heq
          simpa [SigNode.compared, hlen'] using this
        simp [Option.some.inj hsigs] at huv
      · rename_i hsig
        obtain ⟨u, v, hu, hv, huv⟩ := memcmp_eq_some hsig
        have huv' : u = v := eq_of_beq huv.symm
        refine Or.inr ⟨?_, ⟨⟨x, hx⟩, ⟨u, hu⟩⟩, ⟨⟨y, hy⟩, ⟨v, ?_⟩⟩, h⟩
        · rw [SigNode.compared, SigNode.compared, hx, hy, hxy', hu, huv', ← hlen', hv]
        · rw [← hlen']
          exact hv

theorem cmpSigSegments_eq_some {sss1 sss2 : List SigNode} {r : Bool}
    (h : cmpSigSegments sss1 sss2 = some r) :
    r = true ↔ sss1.map SigNode.compared = sss2.map SigNode.compared := by
  induction sss1 generalizing sss2 with
  | nil =>
      cases sss2 with
      | nil =>
          cases h
          simp
      | cons ss2 sss2 =>
          cases h
          simp
  | cons ss1 sss1 ih =>
      cases sss2 with
      | nil =>
          cases h
          simp
      | cons ss2 sss2 =>
          rcases cmpSigSegments_cons h with ⟨rfl, hne⟩ | ⟨heq, -, -, hrest⟩
          · simp [hne]
          · simp [heq, ih hrest]

theorem cmpSigBlocks_eq_some {sbs1 sbs2 : List BlockNode} {r : Bool}
    (h : cmpSigBlocks sbs1 sbs2 = some r) :
    r = true ↔ sbs1.map BlockNode.compared = sbs2.map BlockNode.compared := by
  induction sbs1 generalizing sbs2 with
  | nil =>
      cases sbs2 with
      | nil =>
          cases h
          simp
      | cons sb2 sbs2 =>
          cases h
          simp
  | cons sb1 sbs1 ih =>
      cases sbs2 with
      | nil =>
          cases h
          simp
      | cons sb2 sbs2 =>
          rw [cmpSigBlocks] at h
          rw [List.map_cons, List.map_cons, List.cons.injEq, BlockNode.compared,
            BlockNode.compared, Prod.mk.injEq, Prod.mk.injEq]
          split at h
          · rename_i hlen
            cases h
            simp [hlen]
          · rename_i hlen
            have hlen' := not_not.mp hlen
            split at h
            · rename_i halgo
              cases h
              simp [halgo]
            · rename_i halgo
              have halgo' := not_not.mp halgo
              split at h
              · rename_i hsegs
                have hsegs' := (cmpSigSegments_eq_some hsegs).mp rfl
                rw [ih h]
                simp [hlen', halgo', hsegs']
              · rename_i hfalse
                have hsegs := cmpSigSegments_eq_some h
                cases r with
                | false =>
                    have hne := mt hsegs.mpr (by simp)
                    simp [hne]
                | true => exact absurd h hfalse

/-- Where the comparison is defined, it compares the contents. -/
theorem bgpsecPathAttrCmp_eq_true_iff {bpa1 bpa2 : AttrNode} {r : Bool}
    (h : bgpsecPathAttrCmp (some bpa1) (some bpa2) = some r) :
    r = true ↔ bpa1.compared = bpa2.compared := by
  rw [bgpsecPathAttrCmp] at h
  split at h
  · rename_i heq
    cases h
    simp [Option.some.inj heq]
  · rw [AttrNode.compared, AttrNode.compared, Prod.mk.injEq, ← cmpPathSegments_iff]
    change (if cmpPathSegments bpa1.pathSegments bpa2.pathSegments = true then
      cmpSigBlocks bpa1.sigBlocks bpa2.sigBlocks else some false) = some r at h
    split at h
    · rename_i hsegs
      rw [cmpSigBlocks_eq_some h]
      simp [hsegs]
    · rename_i hsegs
      cases h
      simp [hsegs]

/-! ### The comparison reads the contents only -/

theorem memcmp_congr {a a' b b' : Option HeapBuffer} {size : Nat}
    (ha : Buffer.read (octets a) size = Buffer.read (octets a') size)
    (hb : Buffer.read (octets b) size = Buffer.read (octets b') size) :
    memcmp a b size = memcmp a' b' size := by
  rw [memcmp, memcmp, ha, hb]

theorem cmpSigSegments_congr {sss1 sss1' sss2 sss2' : List SigNode}
    (h1 : sss1.map SigNode.compared = sss1'.map SigNode.compared)
    (h2 : sss2.map SigNode.compared = sss2'.map SigNode.compared) :
    cmpSigSegments sss1 sss2 = cmpSigSegments sss1' sss2' := by
  induction sss1 generalizing sss1' sss2 sss2' with
  | nil =>
      have hnil : sss1' = [] := by simpa using h1.symm
      subst hnil
      cases sss2 <;> cases sss2' <;> simp_all [cmpSigSegments]
  | cons ss1 sss1 ih =>
      obtain ⟨ss1', rest1, rfl, hs1, hr1⟩ := List.map_eq_cons_iff.mp h1.symm
      cases sss2 with
      | nil =>
          have hnil : sss2' = [] := by simpa using h2.symm
          subst hnil
          rfl
      | cons ss2 sss2 =>
          obtain ⟨ss2', rest2, rfl, hs2, hr2⟩ := List.map_eq_cons_iff.mp h2.symm
          simp only [SigNode.compared, Prod.mk.injEq] at hs1 hs2
          obtain ⟨hski1, hlen1, hsig1⟩ := hs1
          obtain ⟨hski2, hlen2, hsig2⟩ := hs2
          rw [cmpSigSegments, cmpSigSegments, memcmp_congr hski1.symm hski2.symm, hlen1, hlen2,
            ih hr1.symm hr2.symm]
          by_cases hlen : ss1.sigLen = ss2.sigLen
          · have hu : Buffer.read (octets ss1.signature) ss1.sigLen.toNat =
                Buffer.read (octets ss1'.signature) ss1.sigLen.toNat := by rw [← hsig1, hlen1]
            have hv : Buffer.read (octets ss2.signature) ss1.sigLen.toNat =
                Buffer.read (octets ss2'.signature) ss1.sigLen.toNat := by
              rw [hlen, ← hsig2, hlen2]
            rw [memcmp_congr hu hv]
          · simp [hlen]

theorem cmpSigBlocks_congr {sbs1 sbs1' sbs2 sbs2' : List BlockNode}
    (h1 : sbs1.map BlockNode.compared = sbs1'.map BlockNode.compared)
    (h2 : sbs2.map BlockNode.compared = sbs2'.map BlockNode.compared) :
    cmpSigBlocks sbs1 sbs2 = cmpSigBlocks sbs1' sbs2' := by
  induction sbs1 generalizing sbs1' sbs2 sbs2' with
  | nil =>
      have hnil : sbs1' = [] := by simpa using h1.symm
      subst hnil
      cases sbs2 <;> cases sbs2' <;> simp_all [cmpSigBlocks]
  | cons sb1 sbs1 ih =>
      obtain ⟨sb1', rest1, rfl, hs1, hr1⟩ := List.map_eq_cons_iff.mp h1.symm
      cases sbs2 with
      | nil =>
          have hnil : sbs2' = [] := by simpa using h2.symm
          subst hnil
          rfl
      | cons sb2 sbs2 =>
          obtain ⟨sb2', rest2, rfl, hs2, hr2⟩ := List.map_eq_cons_iff.mp h2.symm
          simp only [BlockNode.compared, Prod.mk.injEq] at hs1 hs2
          obtain ⟨hlen1, halgo1, hsegs1⟩ := hs1
          obtain ⟨hlen2, halgo2, hsegs2⟩ := hs2
          rw [cmpSigBlocks, cmpSigBlocks, hlen1, hlen2, halgo1, halgo2,
            cmpSigSegments_congr hsegs1.symm hsegs2.symm, ih hr1.symm hr2.symm]

theorem cmpSigSegments_comm (sss1 sss2 : List SigNode) :
    cmpSigSegments sss1 sss2 = cmpSigSegments sss2 sss1 := by
  induction sss1 generalizing sss2 with
  | nil => cases sss2 <;> rfl
  | cons ss1 sss1 ih =>
      cases sss2 with
      | nil => rfl
      | cons ss2 sss2 =>
          rw [cmpSigSegments, cmpSigSegments, memcmp_comm ss1.ski, ih sss2]
          by_cases hlen : ss1.sigLen = ss2.sigLen
          · rw [hlen, memcmp_comm ss1.signature]
          · simp [hlen, Ne.symm hlen]

theorem cmpSigBlocks_comm (sbs1 sbs2 : List BlockNode) :
    cmpSigBlocks sbs1 sbs2 = cmpSigBlocks sbs2 sbs1 := by
  induction sbs1 generalizing sbs2 with
  | nil => cases sbs2 <;> rfl
  | cons sb1 sbs1 ih =>
      cases sbs2 with
      | nil => rfl
      | cons sb2 sbs2 =>
          rw [cmpSigBlocks, cmpSigBlocks, cmpSigSegments_comm sb1.sigSegments, ih sbs2]
          simp only [ne_eq, eq_comm]

theorem cmpPathSegments_comm (segs1 segs2 : List PathNode) :
    cmpPathSegments segs1 segs2 = cmpPathSegments segs2 segs1 := by
  rw [Bool.eq_iff_iff, cmpPathSegments_iff, cmpPathSegments_iff, eq_comm]

/-- Two attributes that are not one and the same. -/
theorem bgpsecPathAttrCmp_of_ne {bpa1 bpa2 : AttrNode} (hne : bpa1 ≠ bpa2) :
    bgpsecPathAttrCmp (some bpa1) (some bpa2) =
      if cmpPathSegments bpa1.pathSegments bpa2.pathSegments then
        cmpSigBlocks bpa1.sigBlocks bpa2.sigBlocks
      else some false :=
  if_neg fun heq => hne (Option.some.inj heq)

theorem bgpsecPathAttrCmp_comm (bpa1 bpa2 : AttrNode) :
    bgpsecPathAttrCmp (some bpa1) (some bpa2) = bgpsecPathAttrCmp (some bpa2) (some bpa1) := by
  by_cases heq : bpa1 = bpa2
  · rw [heq]
  · rw [bgpsecPathAttrCmp_of_ne heq, bgpsecPathAttrCmp_of_ne (Ne.symm heq),
      cmpPathSegments_comm, cmpSigBlocks_comm]

/-- An attribute may be replaced by another one with the same content. -/
theorem bgpsecPathAttrCmp_congr {bpa bpa1 bpa2 : AttrNode} (h1 : bpa ≠ bpa1) (h2 : bpa ≠ bpa2)
    (hcontent : bpa1.compared = bpa2.compared) :
    bgpsecPathAttrCmp (some bpa) (some bpa1) = bgpsecPathAttrCmp (some bpa) (some bpa2) := by
  simp only [AttrNode.compared, Prod.mk.injEq] at hcontent
  have hsegs : cmpPathSegments bpa.pathSegments bpa1.pathSegments =
      cmpPathSegments bpa.pathSegments bpa2.pathSegments := by
    rw [Bool.eq_iff_iff, cmpPathSegments_iff, cmpPathSegments_iff, hcontent.1]
  rw [bgpsecPathAttrCmp_of_ne h1, bgpsecPathAttrCmp_of_ne h2, hsegs,
    cmpSigBlocks_congr rfl hcontent.2]

/-! ### Where the comparison is defined -/

theorem cmpSigSegments_self {sss : List SigNode} (h : ∀ ss ∈ sss, ss.Readable) :
    cmpSigSegments sss sss = some true := by
  induction sss with
  | nil => rfl
  | cons ss sss ih =>
      obtain ⟨⟨ski, hski⟩, ⟨sig, hsig⟩⟩ := h ss (by simp)
      have hrest := ih fun ss' hss' => h ss' (List.mem_cons_of_mem ss hss')
      simp [cmpSigSegments, memcmp, hski, hsig, hrest]

theorem cmpSigBlocks_self {sbs : List BlockNode}
    (h : ∀ sb ∈ sbs, ∀ ss ∈ sb.sigSegments, ss.Readable) : cmpSigBlocks sbs sbs = some true := by
  induction sbs with
  | nil => rfl
  | cons sb sbs ih =>
      have hrest := ih fun sb' hsb' => h sb' (List.mem_cons_of_mem sb hsb')
      simp [cmpSigBlocks, cmpSigSegments_self (h sb (by simp)), hrest]

/-- Attributes of the same content whose buffers can be read are found equal. -/
theorem bgpsecPathAttrCmp_of_compared {bpa1 bpa2 : AttrNode}
    (hcontent : bpa1.compared = bpa2.compared)
    (h : ∀ sb ∈ bpa1.sigBlocks, ∀ ss ∈ sb.sigSegments, ss.Readable) :
    bgpsecPathAttrCmp (some bpa1) (some bpa2) = some true := by
  by_cases heq : bpa1 = bpa2
  · rw [bgpsecPathAttrCmp, heq, if_pos rfl]
  · simp only [AttrNode.compared, Prod.mk.injEq] at hcontent
    rw [bgpsecPathAttrCmp_of_ne heq, if_pos ((cmpPathSegments_iff _ _).mpr hcontent.1),
      ← cmpSigBlocks_congr rfl hcontent.2, cmpSigBlocks_self h]

/-- All buffers that the comparison reads can be read. -/
def AttrNode.Readable (bpa : AttrNode) : Prop :=
  ∀ sb ∈ bpa.sigBlocks, ∀ ss ∈ sb.sigSegments, ss.Readable

theorem cmpSigSegments_isSome {sss1 sss2 : List SigNode} (h1 : ∀ ss ∈ sss1, ss.Readable)
    (h2 : ∀ ss ∈ sss2, ss.Readable) : (cmpSigSegments sss1 sss2).isSome := by
  induction sss1 generalizing sss2 with
  | nil => cases sss2 <;> rfl
  | cons ss1 sss1 ih =>
      cases sss2 with
      | nil => rfl
      | cons ss2 sss2 =>
          obtain ⟨⟨x, hx⟩, ⟨u, hu⟩⟩ := h1 ss1 (by simp)
          obtain ⟨⟨y, hy⟩, ⟨v, hv⟩⟩ := h2 ss2 (by simp)
          have hrest := ih (fun ss hss => h1 ss (List.mem_cons_of_mem ss1 hss))
            (fun ss hss => h2 ss (List.mem_cons_of_mem ss2 hss))
          have hski : memcmp ss1.ski ss2.ski skiLength = some (x == y) := by
            rw [memcmp, hx, hy]
          rw [cmpSigSegments, hski]
          cases x == y with
          | false => rfl
          | true =>
              by_cases hlen : ss1.sigLen = ss2.sigLen
              · have hsig : memcmp ss1.signature ss2.signature ss1.sigLen.toNat =
                    some (u == v) := by
                  rw [← hlen] at hv
                  rw [memcmp, hu, hv]
                cases huv : u == v <;> simp [hlen, hlen ▸ hsig, huv, hrest]
              · simp [hlen]

/-- Where all buffers can be read, the comparison is defined. -/
theorem bgpsecPathAttrCmp_isSome {bpa1 bpa2 : AttrNode} (h1 : bpa1.Readable)
    (h2 : bpa2.Readable) : (bgpsecPathAttrCmp (some bpa1) (some bpa2)).isSome := by
  have hblocks : ∀ {sbs1 sbs2 : List BlockNode},
      (∀ sb ∈ sbs1, ∀ ss ∈ sb.sigSegments, ss.Readable) →
      (∀ sb ∈ sbs2, ∀ ss ∈ sb.sigSegments, ss.Readable) → (cmpSigBlocks sbs1 sbs2).isSome := by
    intro sbs1 sbs2 hs1 hs2
    induction sbs1 generalizing sbs2 with
    | nil => cases sbs2 <;> rfl
    | cons sb1 sbs1 ih =>
        cases sbs2 with
        | nil => rfl
        | cons sb2 sbs2 =>
            have hrest := ih (fun sb hsb => hs1 sb (List.mem_cons_of_mem sb1 hsb))
              (fun sb hsb => hs2 sb (List.mem_cons_of_mem sb2 hsb))
            obtain ⟨r, hr⟩ := Option.isSome_iff_exists.mp
              (cmpSigSegments_isSome (hs1 sb1 (by simp)) (hs2 sb2 (by simp)))
            rw [cmpSigBlocks, hr]
            cases r <;> split <;> (try split) <;> simp [hrest]
  by_cases heq : bpa1 = bpa2
  · rw [bgpsecPathAttrCmp, heq, if_pos rfl]
    rfl
  · rw [bgpsecPathAttrCmp_of_ne heq]
    split
    · exact hblocks h1 h2
    · rfl

/-- Whether the buffers can be read is seen from the content. -/
theorem AttrNode.Readable.of_compared {bpa1 bpa2 : AttrNode} (h : bpa1.Readable)
    (hcontent : bpa1.compared = bpa2.compared) : bpa2.Readable := by
  simp only [AttrNode.compared, Prod.mk.injEq] at hcontent
  intro sb hsb ss hss
  have hmem : sb.compared ∈ bpa1.sigBlocks.map BlockNode.compared := by
    rw [hcontent.2]
    exact List.mem_map_of_mem hsb
  obtain ⟨sb', hsb', hblock⟩ := List.mem_map.mp hmem
  simp only [BlockNode.compared, Prod.mk.injEq] at hblock
  have hmem' : ss.compared ∈ sb'.sigSegments.map SigNode.compared := by
    rw [hblock.2.2]
    exact List.mem_map_of_mem hss
  obtain ⟨ss', hss', hseg⟩ := List.mem_map.mp hmem'
  simp only [SigNode.compared, Prod.mk.injEq] at hseg
  obtain ⟨⟨ski, hski⟩, ⟨sig, hsig⟩⟩ := h sb' hsb' ss' hss'
  exact ⟨⟨ski, hseg.1 ▸ hski⟩, ⟨sig, hseg.2.2 ▸ hsig⟩⟩

/-! ### Two small attributes -/

/-- An attribute with one path segment and two blocks of one empty signature each, whose nodes and
    buffers lie next to each other from `base` on. -/
def twoBlockPath (base : Nat) : AttrNode :=
  let segment (p : Nat) : SigNode := ⟨p, some ⟨p + 1, List.replicate 20 7⟩, 0, some ⟨p + 2, []⟩⟩
  ⟨base, 8, [⟨base + 1, ⟨65000, 1, 0⟩⟩],
    [⟨base + 2, 25, 1, [segment (base + 3)]⟩, ⟨base + 6, 25, 2, [segment (base + 7)]⟩]⟩

/-- The same attribute without its second block. -/
def oneBlockPath (base : Nat) : AttrNode :=
  { twoBlockPath base with sigBlocks := (twoBlockPath base).sigBlocks.take 1 }

/-! ### Routes with and without a BGPsec path -/

/-- An attribute whose buffers can be read. -/
abbrev ReadableAttr := { bpa : AttrNode // bpa.Readable }

/-- `attr1->bgpsecPathAttr` and `attr2->bgpsecPathAttr` in `attrhash_cmp` (1368). -/
def cmpBgpsecPaths (path1 path2 : Option ReadableAttr) : Option Bool :=
  bgpsecPathAttrCmp (path1.map Subtype.val) (path2.map Subtype.val)

/-- The comparison is defined, and it is equality of what it compares; NULL has its own content. -/
def ComparesContents (path1 path2 : Option ReadableAttr) : Prop :=
  ∃ r, cmpBgpsecPaths path1 path2 = some r ∧
    (r = true ↔ path1.map (fun bpa => bpa.val.compared) = path2.map (fun bpa => bpa.val.compared))

theorem cmpBgpsecPaths_comm (path1 path2 : Option ReadableAttr) :
    cmpBgpsecPaths path1 path2 = cmpBgpsecPaths path2 path1 := by
  cases path1 with
  | none => cases path2 <;> rfl
  | some bpa1 =>
      cases path2 with
      | none => rfl
      | some bpa2 => exact bgpsecPathAttrCmp_comm bpa1.val bpa2.val

/-- Two routes of which one has no path: NULL is dereferenced. -/
theorem cmpBgpsecPaths_oneNull (bpa : ReadableAttr) :
    cmpBgpsecPaths none (some bpa) = none ∧ cmpBgpsecPaths (some bpa) none = none :=
  ⟨rfl, rfl⟩

theorem comparesContents_none : ComparesContents none none :=
  ⟨true, rfl, by simp⟩

theorem comparesContents_some (bpa1 bpa2 : ReadableAttr) :
    ComparesContents (some bpa1) (some bpa2) := by
  obtain ⟨r, hr⟩ := Option.isSome_iff_exists.mp (bgpsecPathAttrCmp_isSome bpa1.2 bpa2.2)
  refine ⟨r, hr, ?_⟩
  rw [bgpsecPathAttrCmp_eq_true_iff hr, Option.map_some, Option.map_some, Option.some.injEq]

/-- Two routes that are found equal have the same content. -/
theorem cmpBgpsecPaths_true {path1 path2 : Option ReadableAttr}
    (h : cmpBgpsecPaths path1 path2 = some true) :
    path1.map (fun bpa => bpa.val.compared) = path2.map (fun bpa => bpa.val.compared) := by
  have hcontents : ComparesContents path1 path2 := by
    cases path1 with
    | none =>
        cases path2 with
        | none => exact comparesContents_none
        | some bpa => simp [cmpBgpsecPaths_oneNull] at h
    | some bpa1 =>
        cases path2 with
        | none => simp [cmpBgpsecPaths_oneNull] at h
        | some bpa2 => exact comparesContents_some bpa1 bpa2
  obtain ⟨r, hr, hiff⟩ := hcontents
  rw [h] at hr
  exact hiff.mp (Option.some.inj hr).symm

theorem cmpBgpsecPaths_of_contents {path1 path2 : Option ReadableAttr}
    (h : path1.map (fun bpa => bpa.val.compared) = path2.map (fun bpa => bpa.val.compared)) :
    cmpBgpsecPaths path1 path2 = some true := by
  cases path1 with
  | none =>
      have hnone : path2 = none := by simpa using h.symm
      rw [hnone]
      rfl
  | some bpa1 =>
      cases path2 with
      | none => cases h
      | some bpa2 => exact bgpsecPathAttrCmp_of_compared (Option.some.inj h) bpa1.2

/-- Routes that are found equal are an equivalence. -/
theorem cmpBgpsecPaths_equivalence :
    Equivalence fun path1 path2 : Option ReadableAttr => cmpBgpsecPaths path1 path2 = some true where
  refl path := cmpBgpsecPaths_of_contents rfl
  symm {path1 path2} h := by rw [cmpBgpsecPaths_comm, h]
  trans h12 h23 :=
    cmpBgpsecPaths_of_contents ((cmpBgpsecPaths_true h12).trans (cmpBgpsecPaths_true h23))

/-- The comparison of two routes is equality of their contents exactly when both or neither have a
    BGPsec path. Routes that are found equal are an equivalence in any case. -/
theorem cmpBgpsecPaths_contents_iff (path1 path2 : Option ReadableAttr) :
    (ComparesContents path1 path2 ↔ (path1.isSome ↔ path2.isSome)) ∧
      Equivalence fun path path' : Option ReadableAttr => cmpBgpsecPaths path path' = some true := by
  refine ⟨?_, cmpBgpsecPaths_equivalence⟩
  cases path1 with
  | none =>
      cases path2 with
      | none => simp [comparesContents_none]
      | some bpa => simp [ComparesContents, cmpBgpsecPaths_oneNull]
  | some bpa1 =>
      cases path2 with
      | none => simp [ComparesContents, cmpBgpsecPaths_oneNull]
      | some bpa2 => simp [comparesContents_some]

theorem oneBlockPath_readable (base : Nat) : (oneBlockPath base).Readable := by
  intro sb hsb ss hss
  obtain rfl : sb = ⟨base + 2, 25, 1, [⟨base + 3, some ⟨base + 4, List.replicate 20 7⟩, 0,
    some ⟨base + 5, []⟩⟩]⟩ := by simpa [oneBlockPath, twoBlockPath] using hsb
  obtain rfl : ss = ⟨base + 3, some ⟨base + 4, List.replicate 20 7⟩, 0, some ⟨base + 5, []⟩⟩ := by
    simpa using hss
  exact ⟨⟨_, rfl⟩, ⟨_, rfl⟩⟩

/-- A plain BGP route against one with a BGPsec path. -/
theorem plain_route_dereferences_null :
    cmpBgpsecPaths none (some ⟨oneBlockPath 1, oneBlockPath_readable 1⟩) = none ∧
      ¬ ComparesContents none (some ⟨oneBlockPath 1, oneBlockPath_readable 1⟩) := by
  refine ⟨rfl, ?_⟩
  rintro ⟨r, hr, -⟩
  cases hr

end SrxNote.Intern
