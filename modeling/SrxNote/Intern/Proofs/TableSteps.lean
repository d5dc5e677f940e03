import SrxNote.Intern.Proofs.Contract
import SrxNote.Intern.Proofs.Copies

/-!
# One operation on the intern table

What a search and a removal in the table find, and what one call of
`bgpsec_path_intern` or `bgpsec_path_unintern` does to the table and the memory.
-/

namespace SrxNote.Intern
open SrxNote.Bgpsec

variable {jhash : List UInt8 → UInt32}

/-! ### Searching and removing -/

theorem hashLookup_eq_some {key : UInt32} {data : AttrNode} {bs : List Backet}
    {r : Option AttrNode} (h : hashLookup key data bs = some r) :
    (∃ b ∈ bs, r = some b.data ∧ b.key = key ∧
        bgpsecPathAttrCmp (some b.data) (some data) = some true) ∨
      (r = none ∧ ∀ b ∈ bs, b.key = key →
        bgpsecPathAttrCmp (some b.data) (some data) = some false) := by
  induction bs with
  | nil =>
      cases h
      exact Or.inr ⟨rfl, by simp⟩
  | cons b bs ih =>
      rw [hashLookup] at h
      split at h
      · rename_i hkey
        rcases ih h with ⟨b', hb', hr⟩ | ⟨hr, hall⟩
        · exact Or.inl ⟨b', List.mem_cons_of_mem b hb', hr⟩
        · refine Or.inr ⟨hr, ?_⟩
          intro b' hb' hkey'
          rcases List.mem_cons.mp hb' with rfl | hb'
          · exact absurd hkey' hkey
          · exact hall b' hb' hkey'
      · rename_i hkey
        split at h
        · cases h
        · rename_i hcmp
          cases h
          exact Or.inl ⟨b, List.mem_cons_self, rfl, not_not.mp hkey, hcmp⟩
        · rename_i hcmp
          rcases ih h with ⟨b', hb', hr⟩ | ⟨hr, hall⟩
          · exact Or.inl ⟨b', List.mem_cons_of_mem b hb', hr⟩
          · refine Or.inr ⟨hr, ?_⟩
            intro b' hb' hkey'
            rcases List.mem_cons.mp hb' with rfl | hb'
            · exact hcmp
            · exact hall b' hb' hkey'

theorem hashLookup_isSome {key : UInt32} {data : AttrNode} {bs : List Backet}
    (h : ∀ b ∈ bs, b.key = key → (bgpsecPathAttrCmp (some b.data) (some data)).isSome) :
    (hashLookup key data bs).isSome := by
  induction bs with
  | nil => rfl
  | cons b bs ih =>
      have hrest := ih fun b' hb' => h b' (List.mem_cons_of_mem b hb')
      rw [hashLookup]
      by_cases hkey : b.key = key
      · obtain ⟨r, hr⟩ := Option.isSome_iff_exists.mp (h b List.mem_cons_self hkey)
        cases r <;> simp [hkey, hr, hrest]
      · simp [hkey, hrest]

/-- Backets of one key are told apart by the comparison. -/
def Apart (b b' : Backet) : Prop :=
  b.key = b'.key → bgpsecPathAttrCmp (some b.data) (some b'.data) = some false

/-- The removal of an entry finds this entry. -/
theorem hashReleaseKey_of_mem {bs : List Backet} (hapart : bs.Pairwise Apart) {b : Backet}
    (hb : b ∈ bs) :
    ∃ l₁ l₂, bs = l₁ ++ b :: l₂ ∧ hashReleaseKey b.key b.data bs = some (some (b.data, l₁ ++ l₂)) := by
  induction bs with
  | nil => cases hb
  | cons b' bs ih =>
      obtain ⟨hhead, htail⟩ := List.pairwise_cons.mp hapart
      by_cases heq : b' = b
      · subst heq
        refine ⟨[], bs, rfl, ?_⟩
        simp [hashReleaseKey, bgpsecPathAttrCmp]
      · have hb' : b ∈ bs := by
          rcases List.mem_cons.mp hb with rfl | hb'
          · exact absurd rfl heq
          · exact hb'
        obtain ⟨l₁, l₂, hbs, hrelease⟩ := ih htail hb'
        refine ⟨b' :: l₁, l₂, by rw [hbs]; rfl, ?_⟩
        rw [hashReleaseKey, hrelease]
        by_cases hkey : b'.key = b.key
        · simp [hkey, hhead b hb' hkey]
        · simp [hkey]

/-! ### The key of equal attributes with one block -/

theorem key_make_of_compared {bpa1 bpa2 : AttrNode} {sb1 sb2 : BlockNode} {key : UInt32}
    (h1 : bpa1.sigBlocks = [sb1]) (h2 : bpa2.sigBlocks = [sb2])
    (hcontent : bpa1.compared = bpa2.compared)
    (hkey : bgpsecPathAttrKeyMake jhash bpa1 = some key) :
    bgpsecPathAttrKeyMake jhash bpa2 = some key := by
  simp only [AttrNode.compared, h1, h2, List.map_cons, List.map_nil, Prod.mk.injEq,
    List.cons.injEq, BlockNode.compared, and_true] at hcontent
  obtain ⟨-, -, -, hsegs⟩ := hcontent
  rw [bgpsecPathAttrKeyMake, h1] at hkey
  rw [bgpsecPathAttrKeyMake, h2]
  cases hsss1 : sb1.sigSegments with
  | nil => simp [hsss1] at hkey
  | cons ss1 sss1 =>
      rw [hsss1, List.map_cons] at hsegs
      obtain ⟨ss2, sss2, hsss2, hss, -⟩ := List.map_eq_cons_iff.mp hsegs.symm
      simp only [SigNode.compared, Prod.mk.injEq] at hss
      simp only [hsss1] at hkey
      simp only [hsss2, hss.2.2]
      exact hkey

/-! ### The two operations -/

theorem build_eq_some {m m' : Memory} {bpa : AttrNode} (h : build m bpa = some m') :
    Heap.Allocated 0 m m' bpa.addrs := by
  rw [build] at h
  split at h
  · rename_i hperm
    cases h
    exact ⟨rfl, hperm⟩
  · cases h

theorem AttrNode.addr_mem (bpa : AttrNode) : bpa.addr ∈ bpa.addrs := by
  simp [AttrNode.addrs]

theorem addRef_eq_some {m m' : Memory} {p : Nat} (h : addRef m p = some m') :
    ∃ refcnt, m.read p = some refcnt ∧ m' = m.set p (some (refcnt + 1)) := by
  rw [addRef] at h
  split at h
  · cases h
  · rename_i refcnt hread
    rw [Heap.write_of_read hread] at h
    cases h
    exact ⟨refcnt, hread, rfl⟩

/-- What `hash_get` can find: an entry of the table, which stays as it is, or a copy, which is put
    in front. -/
theorem hashGet_eq_some {t t' : Bgpsechash} {data find : AttrNode}
    (h : hashGet jhash t data = some (t', some find)) :
    ∃ key, bgpsecPathAttrKeyMake jhash data = some key ∧
      ((t'.memory = t.memory ∧ t'.backets = t.backets ∧ ∃ b ∈ t.backets, find = b.data ∧
          b.key = key ∧ bgpsecPathAttrCmp (some b.data) (some data) = some true) ∨
        (bgpsecPathHashAlloc t.memory data = some (t'.memory, some find) ∧
          t'.backets = ⟨key, find⟩ :: t.backets ∧ ∀ b ∈ t.backets, b.key = key →
            bgpsecPathAttrCmp (some b.data) (some data) = some false)) := by
  rw [hashGet] at h
  split at h
  · cases h
  · rename_i key hkey
    refine ⟨key, hkey, ?_⟩
    split at h
    · cases h
    · -- an entry was found
      rename_i found hlookup
      cases h
      rcases hashLookup_eq_some hlookup with ⟨b, hb, hr, hbkey, hcmp⟩ | ⟨hr, -⟩
      · cases hr
        exact .inl ⟨rfl, rfl, b, hb, rfl, hbkey, hcmp⟩
      · cases hr
    · -- a copy was made
      rename_i hlookup
      rcases hashLookup_eq_some hlookup with ⟨b, hb, hr, -⟩ | ⟨-, hall⟩
      · cases hr
      · split at h
        · cases h
        · cases h
        · rename_i m₂ new halloc
          cases h
          exact .inr ⟨halloc, rfl, hall⟩

/-- What an `intern` operation does: it finds an entry or makes a new one, frees the argument and
    counts the reference. -/
theorem internStep_intern {s s' : InternState} {bpa : AttrNode}
    (h : internStep jhash s (.intern bpa) = some s') :
    ∃ m₁ key m₂ find backets m₃ refcnt, Heap.Allocated 0 s.memory m₁ bpa.addrs ∧
      bgpsecPathAttrKeyMake jhash bpa = some key ∧
      ((m₂ = m₁ ∧ backets = s.backets ∧ ∃ b ∈ s.backets, find = b.data ∧ b.key = key ∧
          bgpsecPathAttrCmp (some b.data) (some bpa) = some true) ∨
        (bgpsecPathHashAlloc m₁ bpa = some (m₂, some find) ∧ backets = ⟨key, find⟩ :: s.backets ∧
          ∀ b ∈ s.backets, b.key = key →
            bgpsecPathAttrCmp (some b.data) (some bpa) = some false)) ∧
      (if find ≠ bpa then bgpsecPathFree m₂ bpa else some m₂) = some m₃ ∧
      m₃.read find.addr = some refcnt ∧
      s' = ⟨⟨m₃.set find.addr (some (refcnt + 1)), backets⟩, ⟨bpa, find⟩ :: s.refs⟩ := by
  rw [internStep] at h
  split at h
  · cases h
  · rename_i m₁ hbuild
    rw [Option.map_eq_some_iff] at h
    obtain ⟨⟨t, find⟩, hintern, rfl⟩ := h
    rw [bgpsecPathIntern] at hintern
    split at hintern
    · split at hintern
      · rename_i t' find' hget
        split at hintern
        · cases hintern
        · rename_i m₃ hfree
          rw [Option.map_eq_some_iff] at hintern
          obtain ⟨m₄, hadd, hm₄⟩ := hintern
          cases hm₄
          obtain ⟨refcnt, hread, rfl⟩ := addRef_eq_some hadd
          obtain ⟨key, hkey, hfind⟩ := hashGet_eq_some hget
          exact ⟨m₁, key, t'.memory, find, t'.backets, m₃, refcnt, build_eq_some hbuild, hkey, hfind,
            hfree, hread, rfl⟩
      · cases hintern
    · cases hintern

/-- What an `unintern` operation does on an entry with a given count. -/
theorem internStep_unintern {s : InternState} (hapart : s.backets.Pairwise Apart)
    {b : Backet} (hb : b ∈ s.backets) (hkey : bgpsecPathAttrKeyMake jhash b.data = some b.key)
    {refcnt : Nat} (hread : s.memory.read b.data.addr = some refcnt) :
    ∃ l₁ l₂, s.backets = l₁ ++ b :: l₂ ∧
      internStep jhash s (.unintern b.data) =
        if refcnt - 1 = 0 then
          (bgpsecPathFree (s.memory.set b.data.addr (some (refcnt - 1))) b.data).map fun m =>
            ⟨⟨m, l₁ ++ l₂⟩, s.refs.eraseP fun r => r.got = b.data⟩
        else some ⟨⟨s.memory.set b.data.addr (some (refcnt - 1)), s.backets⟩,
          s.refs.eraseP fun r => r.got = b.data⟩ := by
  obtain ⟨l₁, l₂, hbs, hrelease⟩ := hashReleaseKey_of_mem hapart hb
  refine ⟨l₁, l₂, hbs, ?_⟩
  rw [internStep, bgpsecPathUnintern]
  simp only [hread, Heap.write_of_read hread, hashRelease, hkey, hrelease]
  by_cases hzero : refcnt - 1 = 0
  · simp only [hzero, if_true, Option.map_map]
    rfl
  · simp only [hzero, if_false, Option.map_some]

end SrxNote.Intern
