import SrxNote.Intern.Proofs.Compare
import SrxNote.Intern.Table

/-!
# Equal paths and equal keys

A hash table finds an entry only if the key is a function of what the
comparison looks at. The key of the intern table hashes the first octets of the
first signature block, which hold its `next` pointer, and the key of the route
attributes hashes the pointer to the BGPsec path. Both depend on addresses,
while `bgpsec_path_attr_cmp` does not.
-/

namespace SrxNote.Intern
open SrxNote.Bgpsec

theorem be32_inj {v w : UInt32} (h : be32 v = be32 w) : v = w := by
  simp only [be32, List.cons.injEq, and_true] at h
  obtain ⟨h3, h2, h1, h0⟩ := h
  rw [← ofBe32_be32 v, ← ofBe32_be32 w, h3, h2, h1, h0]

theorem ofNat_eq_iff (p q : Nat) : UInt32.ofNat p = UInt32.ofNat q ↔ p % 2 ^ 32 = q % 2 ^ 32 := by
  rw [← UInt32.toNat_inj, UInt32.toNat_ofNat', UInt32.toNat_ofNat']

theorem pointerOctets_eq_iff (p q : Nat) :
    pointerOctets p = pointerOctets q ↔ p % 2 ^ 32 = q % 2 ^ 32 := by
  rw [← ofNat_eq_iff, pointerOctets, pointerOctets, List.reverse_inj]
  exact ⟨be32_inj, congrArg be32⟩

/-- The attribute has a block, and the first block a signature segment. -/
def AttrNode.Signed (bpa : AttrNode) : Prop :=
  ∃ sb sbs ss sss, bpa.sigBlocks = sb :: sbs ∧ sb.sigSegments = ss :: sss

/-- The `next` pointer of the first block. -/
def AttrNode.secondBlock (bpa : AttrNode) : Nat := nextBlock bpa.sigBlocks.tail

theorem bgpsecPathAttrKeyMake_of_read {bpa : AttrNode} {sb : BlockNode} {sbs : List BlockNode}
    {ss : SigNode} {sss : List SigNode} {signature : List UInt8} (hsbs : bpa.sigBlocks = sb :: sbs)
    (hsss : sb.sigSegments = ss :: sss)
    (hread : Buffer.read (octets ss.signature) ss.sigLen.toNat = some signature)
    (jhash : List UInt8 → UInt32) :
    bgpsecPathAttrKeyMake jhash bpa =
      some (jhash (pointerOctets bpa.secondBlock) + jhash signature) := by
  simp [bgpsecPathAttrKeyMake, AttrNode.secondBlock, hsbs, hsss, hread]

/-- The first signature segments of two different attributes that are found equal were read. -/
theorem first_signature_of_cmp {bpa1 bpa2 : AttrNode} (hne : bpa1 ≠ bpa2)
    (hcmp : bgpsecPathAttrCmp (some bpa1) (some bpa2) = some true) (h : bpa1.Signed) :
    ∃ sb1 sbs1 ss1 sss1 sb2 sbs2 ss2 sss2 signature,
      bpa1.sigBlocks = sb1 :: sbs1 ∧ sb1.sigSegments = ss1 :: sss1 ∧
      bpa2.sigBlocks = sb2 :: sbs2 ∧ sb2.sigSegments = ss2 :: sss2 ∧
      Buffer.read (octets ss1.signature) ss1.sigLen.toNat = some signature ∧
      Buffer.read (octets ss2.signature) ss2.sigLen.toNat = some signature := by
  obtain ⟨sb1, sbs1, ss1, sss1, hsbs1, hsss1⟩ := h
  rw [bgpsecPathAttrCmp_of_ne hne, hsbs1] at hcmp
  split at hcmp
  · cases hsbs2 : bpa2.sigBlocks with
    | nil => simp [hsbs2, cmpSigBlocks] at hcmp
    | cons sb2 sbs2 =>
        rw [hsbs2, cmpSigBlocks, hsss1] at hcmp
        split at hcmp
        · cases hcmp
        · split at hcmp
          · cases hcmp
          · split at hcmp
            · rename_i hsegs
              cases hsss2 : sb2.sigSegments with
              | nil => simp [hsss2, cmpSigSegments] at hsegs
              | cons ss2 sss2 =>
                  rw [hsss2] at hsegs
                  rcases cmpSigSegments_cons hsegs with ⟨hfalse, -⟩ | ⟨heq, ⟨-, u, hu⟩, -, -⟩
                  · cases hfalse
                  · have hv : Buffer.read (octets ss2.signature) ss2.sigLen.toNat = some u := by
                      rw [← hu]
                      exact (congrArg (fun c => c.2.2) heq).symm
                    exact ⟨sb1, sbs1, ss1, sss1, sb2, sbs2, ss2, sss2, u, hsbs1, hsss1, rfl,
                      hsss2, hu, hv⟩
            · rename_i hnot
              exact absurd hcmp hnot
  · cases hcmp

/-- For attributes that are found equal, the key of the intern table is the same for every hash
    function exactly if the first blocks' `next` pointers agree in the half that is hashed. -/
theorem key_make_eq_iff_of_cmp {bpa1 bpa2 : AttrNode} (h1 : bpa1.Signed)
    (hcmp : bgpsecPathAttrCmp (some bpa1) (some bpa2) = some true) :
    (∀ jhash, bgpsecPathAttrKeyMake jhash bpa1 = bgpsecPathAttrKeyMake jhash bpa2) ↔
      bpa1.secondBlock % 2 ^ 32 = bpa2.secondBlock % 2 ^ 32 := by
  by_cases hne : bpa1 = bpa2
  · simp [hne]
  · obtain ⟨sb1, sbs1, ss1, sss1, sb2, sbs2, ss2, sss2, signature, hsbs1, hsss1, hsbs2, hsss2, hu,
      hv⟩ := first_signature_of_cmp hne hcmp h1
    rw [← pointerOctets_eq_iff]
    constructor
    · intro hkey
      have hat := hkey fun o => if o = pointerOctets bpa1.secondBlock then 1 else 0
      rw [bgpsecPathAttrKeyMake_of_read hsbs1 hsss1 hu,
        bgpsecPathAttrKeyMake_of_read hsbs2 hsss2 hv] at hat
      by_contra hoctets
      simp [Ne.symm hoctets] at hat
    · intro hoctets jhash
      rw [bgpsecPathAttrKeyMake_of_read hsbs1 hsss1 hu, bgpsecPathAttrKeyMake_of_read hsbs2 hsss2 hv,
        hoctets]

theorem oneBlockPath_key_make :
    (oneBlockPath 16).Signed ∧ (oneBlockPath 32).Signed ∧
      bgpsecPathAttrCmp (some (oneBlockPath 16)) (some (oneBlockPath 32)) = some true ∧
      ((∀ jhash, bgpsecPathAttrKeyMake jhash (oneBlockPath 16) =
          bgpsecPathAttrKeyMake jhash (oneBlockPath 32)) ↔
        (oneBlockPath 16).secondBlock % 2 ^ 32 = (oneBlockPath 32).secondBlock % 2 ^ 32) := by
  have h16 : (oneBlockPath 16).Signed := ⟨_, _, _, _, rfl, rfl⟩
  have h32 : (oneBlockPath 32).Signed := ⟨_, _, _, _, rfl, rfl⟩
  have hcmp : bgpsecPathAttrCmp (some (oneBlockPath 16)) (some (oneBlockPath 32)) = some true := by
    decide
  exact ⟨h16, h32, hcmp, key_make_eq_iff_of_cmp h16 hcmp⟩

/-- Two attributes of two blocks at different addresses are found equal and have different keys. -/
theorem twoBlockPath_keys_differ :
    ¬ ((twoBlockPath 16).Signed → (twoBlockPath 32).Signed →
      bgpsecPathAttrCmp (some (twoBlockPath 16)) (some (twoBlockPath 32)) = some true →
      ∀ jhash, bgpsecPathAttrKeyMake jhash (twoBlockPath 16) =
        bgpsecPathAttrKeyMake jhash (twoBlockPath 32)) := by
  intro h
  have hkeys := h ⟨_, _, _, _, rfl, rfl⟩ ⟨_, _, _, _, rfl, rfl⟩ (by decide)
    fun o => (o.headD 0).toUInt32
  exact absurd hkeys (by decide)

/-! ### The route attributes -/

section

variable {σ : Type} {stock : StockAttrhash σ} {mix : UInt32 → UInt32 → UInt32}

/-- What `attrhash_cmp` compares before and behind the BGPsec path. -/
def StockAttrhash.cmp (stock : StockAttrhash σ) (a b : σ) : Bool :=
  stock.cmpBefore a b && stock.cmpAfter a b

theorem attrhashCmp_eq_true {attr1 attr2 : RouteAttr σ}
    (h : attrhashCmp stock attr1 attr2 = some true) :
    stock.cmp attr1.stock attr2.stock = true ∧
      bgpsecPathAttrCmp attr1.bgpsecPathAttr attr2.bgpsecPathAttr = some true := by
  rw [attrhashCmp] at h
  split at h
  · rename_i hbefore
    split at h
    · rename_i hcmp
      refine ⟨?_, hcmp⟩
      rw [StockAttrhash.cmp, hbefore, Option.some.inj h]
      rfl
    · rename_i hnot
      exact absurd h hnot
  · cases h

/-- For route attributes that are found equal, the keys are equal exactly if the pointers to their
    BGPsec paths agree in the low half. -/
theorem attrhash_key_eq_iff_of_cmp
    (hstock : ∀ a b, stock.cmp a b = true → stock.keyMake a = stock.keyMake b)
    (hmix : ∀ key, Function.Injective fun value => mix value key) {attr1 attr2 : RouteAttr σ}
    (hcmp : attrhashCmp stock attr1 attr2 = some true) :
    attrhashKeyMake stock mix attr1 = attrhashKeyMake stock mix attr2 ↔
      attr1.pointer % 2 ^ 32 = attr2.pointer % 2 ^ 32 := by
  have hkey := hstock _ _ (attrhashCmp_eq_true hcmp).1
  rw [attrhashKeyMake, attrhashKeyMake, hkey, ← ofNat_eq_iff]
  exact ⟨fun h => hmix _ h, fun h => by rw [h]⟩

end

/-- Route attributes whose stock part is one number. -/
def numberAttrhash : StockAttrhash UInt32 := ⟨id, fun a b => a == b, fun _ _ => true⟩

theorem numberAttrhash_key_eq_iff :
    attrhashCmp numberAttrhash ⟨5, some (oneBlockPath 16)⟩ ⟨5, some (oneBlockPath (2 ^ 32 + 16))⟩ =
        some true ∧
      (attrhashKeyMake numberAttrhash (· + ·) ⟨5, some (oneBlockPath 16)⟩ =
          attrhashKeyMake numberAttrhash (· + ·) ⟨5, some (oneBlockPath (2 ^ 32 + 16))⟩ ↔
        (⟨5, some (oneBlockPath 16)⟩ : RouteAttr UInt32).pointer % 2 ^ 32 =
          (⟨5, some (oneBlockPath (2 ^ 32 + 16))⟩ : RouteAttr UInt32).pointer % 2 ^ 32) := by
  have hcmp : attrhashCmp numberAttrhash ⟨5, some (oneBlockPath 16)⟩
      ⟨5, some (oneBlockPath (2 ^ 32 + 16))⟩ = some true := by decide
  refine ⟨hcmp, attrhash_key_eq_iff_of_cmp ?_ ?_ hcmp⟩
  · intro a b hab
    simpa [numberAttrhash, StockAttrhash.cmp] using hab
  · intro key value value' heq
    exact (UInt32.add_left_inj key).mp heq

/-- One path in two allocations: the attributes are found equal and have different keys. -/
theorem equal_paths_keys_differ :
    ¬ (attrhashCmp numberAttrhash ⟨5, some (oneBlockPath 16)⟩ ⟨5, some (oneBlockPath 32)⟩ =
        some true →
      attrhashKeyMake numberAttrhash (· + ·) ⟨5, some (oneBlockPath 16)⟩ =
        attrhashKeyMake numberAttrhash (· + ·) ⟨5, some (oneBlockPath 32)⟩) := by
  intro h
  exact absurd (h (by decide)) (by decide)

end SrxNote.Intern
