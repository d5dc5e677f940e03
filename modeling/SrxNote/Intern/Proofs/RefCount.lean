import SrxNote.Intern.Proofs.TableSteps
import SrxNote.Misc.Run

/-!
# Reference counts of interned paths

Along every run of `bgpsec_path_intern` and `bgpsec_path_unintern`, the entries
of the table are the attributes that are referenced, one for each content; the
count of an entry is the number of its references, and the memory holds the
entries and nothing else (`Counted`).
-/

namespace SrxNote.Intern
open SrxNote.Bgpsec

variable {jhash : List UInt8 → UInt32}

/-- The number of outstanding references to an attribute. -/
def outstanding (refs : List Reference) (bpa : AttrNode) : Nat := refs.countP fun r => r.got = bpa

/-- The attributes in the table. -/
def InternState.entries (s : InternState) : List AttrNode := s.backets.map Backet.data

/-- The table is in step with the references that are outstanding. -/
structure Counted (s : InternState) : Prop where
  /-- What is referenced is in the table, with the content that was interned. -/
  referenced : ∀ r ∈ s.refs, r.got ∈ s.entries ∧ r.got.compared = r.asked.compared
  /-- What is in the table is referenced. -/
  used : ∀ e ∈ s.entries, ∃ r ∈ s.refs, r.got = e
  /-- No two entries have the same content. -/
  distinct : s.entries.Pairwise fun e e' => e.compared ≠ e'.compared
  refcnt : ∀ e ∈ s.entries, s.memory.read e.addr = some (outstanding s.refs e)
  /-- The memory holds the nodes and buffers of the entries, and no others. -/
  live : ∀ p, (s.memory.read p).isSome ↔ ∃ e ∈ s.entries, p ∈ e.addrs

/-- What the callers keep to: an attribute that is interned has one block with a signature segment,
    and only what was obtained and not given back is given back. -/
def Allowed (s : InternState) : InternOp → Prop
  | .intern bpa => ∃ sb, bpa.sigBlocks = [sb] ∧ sb.sigSegments ≠ []
  | .unintern bpa => ∃ r ∈ s.refs, r.got = bpa

/-- The invariant of the runs. -/
structure InternOk (jhash : List UInt8 → UInt32) (s : InternState) : Prop where
  key : ∀ b ∈ s.backets, bgpsecPathAttrKeyMake jhash b.data = some b.key
  single : ∀ b ∈ s.backets, ∃ sb, b.data.sigBlocks = [sb]
  fits : ∀ b ∈ s.backets, b.data.Fits
  apart : s.backets.Pairwise Apart
  nodup : ∀ b ∈ s.backets, b.data.addrs.Nodup
  disjoint : s.backets.Pairwise fun b b' => b.data.addrs.Disjoint b'.data.addrs
  live : ∀ p, (s.memory.read p).isSome ↔ ∃ b ∈ s.backets, p ∈ b.data.addrs
  refs : ∀ r ∈ s.refs, (∃ b ∈ s.backets, b.data = r.got) ∧ r.got.compared = r.asked.compared
  count : ∀ b ∈ s.backets, s.memory.read b.data.addr = some (outstanding s.refs b.data) ∧
    0 < outstanding s.refs b.data

theorem InternOk.init : InternOk jhash InternState.init where
  key := by simp [InternState.init]
  single := by simp [InternState.init]
  fits := by simp [InternState.init]
  apart := by simp [InternState.init]
  nodup := by simp [InternState.init]
  disjoint := by simp [InternState.init]
  live := by
    intro p
    cases p <;> simp [InternState.init, Heap.read]
  refs := by simp [InternState.init]
  count := by simp [InternState.init]

/-! ### What the invariant says about addresses -/

variable {s s' : InternState}

/-- Entries that share an address are the same. -/
theorem InternOk.eq_of_mem_addrs (h : InternOk jhash s) {b b' : Backet} (hb : b ∈ s.backets)
    (hb' : b' ∈ s.backets) {p : Nat} (hp : p ∈ b.data.addrs) (hp' : p ∈ b'.data.addrs) : b = b' := by
  by_contra hne
  have hsymm : Std.Symm fun b b' : Backet => b.data.addrs.Disjoint b'.data.addrs :=
    ⟨fun _ _ hdisjoint _ hp hp' => hdisjoint hp' hp⟩
  exact h.disjoint.forall hb hb' hne hp hp'

theorem InternOk.read_isSome (h : InternOk jhash s) {b : Backet} (hb : b ∈ s.backets) {p : Nat}
    (hp : p ∈ b.data.addrs) : (s.memory.read p).isSome := (h.live p).mpr ⟨b, hb, hp⟩

theorem InternOk.addr_ne (h : InternOk jhash s) {b b' : Backet} (hb : b ∈ s.backets)
    (hb' : b' ∈ s.backets) (hne : b.data ≠ b'.data) : b'.data.addr ≠ b.data.addr := by
  intro haddr
  have hbb' := h.eq_of_mem_addrs hb' hb b'.data.addr_mem (haddr ▸ b.data.addr_mem)
  exact hne (congrArg Backet.data hbb').symm

/-- A new count of an entry does not change what is live. -/
theorem InternOk.live_set (h : InternOk jhash s) {b : Backet} (hb : b ∈ s.backets) {m : Memory}
    (hmem : ∀ p, m.read p = s.memory.read p) {old : Nat} (hread : m.read b.data.addr = some old)
    (new p : Nat) :
    (Heap.read (m.set b.data.addr (some new)) p).isSome ↔ ∃ b ∈ s.backets, p ∈ b.data.addrs := by
  rw [← h.live p, Heap.read_set hread, hmem p]
  split
  · rename_i heq
    simp [heq, h.read_isSome hb b.data.addr_mem]
  · rfl

/-- Entries of the same content are the same. -/
theorem InternOk.eq_of_compared (h : InternOk jhash s) {b b' : Backet} (hb : b ∈ s.backets)
    (hb' : b' ∈ s.backets) (hcontent : b.data.compared = b'.data.compared) : b = b' := by
  by_contra hne
  obtain ⟨sb, hsb⟩ := h.single b hb
  obtain ⟨sb', hsb'⟩ := h.single b' hb'
  have hkey := key_make_of_compared hsb hsb' hcontent (h.key b hb)
  rw [h.key b' hb'] at hkey
  have hsymm : Std.Symm Apart :=
    ⟨fun b b' hapart heq => by rw [bgpsecPathAttrCmp_comm]; exact hapart heq.symm⟩
  have hcmp := h.apart.forall hb hb' hne (Option.some.inj hkey).symm
  exact Bool.false_ne_true ((bgpsecPathAttrCmp_eq_true_iff hcmp).mpr hcontent)

theorem InternOk.counted (h : InternOk jhash s) : Counted s where
  referenced := by
    intro r hr
    obtain ⟨⟨b, hb, hdata⟩, hcontent⟩ := h.refs r hr
    exact ⟨List.mem_map.mpr ⟨b, hb, hdata⟩, hcontent⟩
  used := by
    intro e he
    obtain ⟨b, hb, rfl⟩ := List.mem_map.mp he
    obtain ⟨r, hr, hgot⟩ := List.countP_pos_iff.mp (h.count b hb).2
    exact ⟨r, hr, by simpa using hgot⟩
  distinct := by
    refine List.pairwise_map.mpr ?_
    refine h.disjoint.imp_of_mem ?_
    intro b b' hb hb' hdisjoint hcontent
    have heq : b = b' := h.eq_of_compared hb hb' hcontent
    subst heq
    exact hdisjoint b.data.addr_mem b.data.addr_mem
  refcnt := by
    intro e he
    obtain ⟨b, hb, rfl⟩ := List.mem_map.mp he
    exact (h.count b hb).1
  live := by
    intro p
    rw [h.live p]
    simp [InternState.entries]

/-! ### Interning -/

theorem outstanding_cons (refs : List Reference) (asked find e : AttrNode) :
    outstanding (⟨asked, find⟩ :: refs) e =
      outstanding refs e + if find = e then 1 else 0 := by
  simp [outstanding, List.countP_cons]

/-- What an attribute that is being interned is made of is not in the table. -/
theorem InternOk.ne_of_allocated (h : InternOk jhash s) {m₁ : Memory} {bpa : AttrNode}
    (halloc : Heap.Allocated 0 s.memory m₁ bpa.addrs) {b : Backet} (hb : b ∈ s.backets) :
    b.data ≠ bpa := by
  intro heq
  have hread := h.read_isSome hb b.data.addr_mem
  exact halloc.not_mem_of_read hread (heq ▸ bpa.addr_mem)

/-- An entry was found: its count goes up, and the memory is otherwise as before. -/
theorem InternOk.intern_found (h : InternOk jhash s) {bpa : AttrNode} {b : Backet} {m : Memory}
    {refcnt : Nat} (hb : b ∈ s.backets) (hmem : ∀ p, m.read p = s.memory.read p)
    (hread : m.read b.data.addr = some refcnt) (hcontent : b.data.compared = bpa.compared) :
    InternOk jhash ⟨⟨m.set b.data.addr (some (refcnt + 1)), s.backets⟩,
      ⟨bpa, b.data⟩ :: s.refs⟩ where
  key := h.key
  single := h.single
  fits := h.fits
  apart := h.apart
  nodup := h.nodup
  disjoint := h.disjoint
  live := h.live_set hb hmem hread _
  refs := by
    intro r hr
    rcases List.mem_cons.mp hr with rfl | hr
    · exact ⟨⟨b, hb, rfl⟩, hcontent⟩
    · exact h.refs r hr
  count := by
    intro b' hb'
    obtain ⟨hcount, hpos⟩ := h.count b' hb'
    rw [Heap.read_set hread, hmem, outstanding_cons]
    by_cases heq : b.data = b'.data
    · have hrefcnt : refcnt = outstanding s.refs b'.data := by
        rw [hmem, heq, hcount] at hread
        exact (Option.some.inj hread).symm
      simp [heq, hrefcnt]
    · have haddr := h.addr_ne hb hb' heq
      simp [heq, haddr, hcount, hpos]

/-- With a copy in new memory, what is live is what the table and the copy are made of. -/
theorem InternOk.live_new (h : InternOk jhash s) {copy : AttrNode} {m : Memory} {refcnt : Nat}
    (hmem : ∀ p, m.read p = if p ∈ copy.addrs then some 0 else s.memory.read p)
    (hread : m.read copy.addr = some refcnt) (key : UInt32) (new p : Nat) :
    (Heap.read (m.set copy.addr (some new)) p).isSome ↔
      ∃ b ∈ ⟨key, copy⟩ :: s.backets, p ∈ b.data.addrs := by
  simp only [List.mem_cons, exists_eq_or_imp, ← h.live p]
  rw [Heap.read_set hread, hmem p]
  by_cases hp : p ∈ copy.addrs
  · by_cases haddr : p = copy.addr <;> simp [hp, haddr, copy.addr_mem]
  · have haddr : p ≠ copy.addr := fun heq => hp (heq ▸ copy.addr_mem)
    simp [hp, haddr]

/-- A new entry was made: it has one reference, and the memory holds it besides the others. -/
theorem InternOk.intern_new (h : InternOk jhash s) {bpa copy : AttrNode} {key : UInt32} {m : Memory}
    {refcnt : Nat} {sb : BlockNode} (hmem : ∀ p, m.read p = if p ∈ copy.addrs then some 0
      else s.memory.read p) (hnew : ∀ p ∈ copy.addrs, s.memory.read p = none)
    (hread : m.read copy.addr = some refcnt) (hcontent : copy.compared = bpa.compared)
    (hkey : bgpsecPathAttrKeyMake jhash copy = some key) (hsb : copy.sigBlocks = [sb])
    (hfits : copy.Fits) (hnodup : copy.addrs.Nodup)
    (hapart : ∀ b ∈ s.backets, Apart ⟨key, copy⟩ b) :
    InternOk jhash ⟨⟨m.set copy.addr (some (refcnt + 1)), ⟨key, copy⟩ :: s.backets⟩,
      ⟨bpa, copy⟩ :: s.refs⟩ := by
  have hother : ∀ b ∈ s.backets, ∀ p ∈ b.data.addrs, p ∉ copy.addrs := by
    intro b hb p hp hpcopy
    have hlive := h.read_isSome hb hp
    rw [hnew p hpcopy] at hlive
    cases hlive
  have hne : ∀ b ∈ s.backets, copy ≠ b.data := by
    intro b hb heq
    exact hother b hb b.data.addr b.data.addr_mem (heq ▸ copy.addr_mem)
  have hzero : outstanding s.refs copy = 0 := by
    rw [outstanding, List.countP_eq_zero]
    intro r hr hgot
    obtain ⟨⟨b, hb, hdata⟩, -⟩ := h.refs r hr
    exact hne b hb (hdata.trans (by simpa using hgot)).symm
  have hrefcnt : refcnt = 0 := by
    rw [hmem, if_pos copy.addr_mem] at hread
    exact (Option.some.inj hread).symm
  refine ⟨?_, ?_, ?_, ?_, ?_, ?_, ?_, ?_, ?_⟩
  · simpa [hkey] using h.key
  · intro b hb
    rcases List.mem_cons.mp hb with rfl | hb
    · exact ⟨sb, hsb⟩
    · exact h.single b hb
  · simpa [hfits] using h.fits
  · exact List.pairwise_cons.mpr ⟨hapart, h.apart⟩
  · simpa [hnodup] using h.nodup
  · refine List.pairwise_cons.mpr ⟨?_, h.disjoint⟩
    intro b hb p hpcopy hp
    exact hother b hb p hp hpcopy
  · exact h.live_new hmem hread key (refcnt + 1)
  · intro r hr
    rcases List.mem_cons.mp hr with rfl | hr
    · exact ⟨⟨_, List.mem_cons_self, rfl⟩, hcontent⟩
    · obtain ⟨⟨b, hb, hdata⟩, hasked⟩ := h.refs r hr
      exact ⟨⟨b, List.mem_cons_of_mem _ hb, hdata⟩, hasked⟩
  · intro b hb
    rw [Heap.read_set hread, hmem, outstanding_cons]
    rcases List.mem_cons.mp hb with rfl | hb
    · simp [hzero, hrefcnt]
    · obtain ⟨hcount, hpos⟩ := h.count b hb
      have hb' := hother b hb b.data.addr b.data.addr_mem
      have haddr : b.data.addr ≠ copy.addr := fun heq => hb' (heq ▸ copy.addr_mem)
      simp [hne b hb, hb', haddr, hcount, hpos]

theorem InternOk.intern_step (h : InternOk jhash s) {bpa : AttrNode}
    (hallowed : Allowed s (.intern bpa)) (hs : internStep jhash s (.intern bpa) = some s') :
    InternOk jhash s' := by
  obtain ⟨sb, hsb, -⟩ := hallowed
  obtain ⟨m₁, key, m₂, find, backets, m₃, refcnt, halloc, hkey, hfind, hfree, hread, rfl⟩ :=
    internStep_intern hs
  rcases hfind with ⟨rfl, rfl, b, hb, rfl, -, hcmp⟩ | ⟨hcopy, rfl, hall⟩
  · rw [if_pos (h.ne_of_allocated halloc hb)] at hfree
    have hmem := halloc.read_of_freeAll (Heap.Allocated.refl 0 m₂) (bgpsecPathFree_some hfree)
    exact h.intern_found hb (by simpa using hmem) hread
      ((bgpsecPathAttrCmp_eq_true_iff hcmp).mp rfl)
  · obtain ⟨halloc', hcontent, -, hfits, newSb, hnewSb⟩ := bgpsecPathHashAlloc_single hsb hcopy
    have hlive : ∀ p ∈ bpa.addrs, (m₁.read p).isSome := by
      intro p hp
      simp [halloc.read_eq p, hp]
    have hne : find ≠ bpa := by
      intro heq
      exact halloc'.not_mem_of_read (hlive bpa.addr bpa.addr_mem) (heq ▸ find.addr_mem)
    rw [if_pos hne] at hfree
    have hmem := halloc.read_of_freeAll halloc' (bgpsecPathFree_some hfree)
    have hnew : ∀ p ∈ find.addrs, s.memory.read p = none := by
      intro p hp
      by_contra hread'
      have hp' : p ∉ bpa.addrs := halloc.not_mem_of_read (Option.isSome_iff_ne_none.mpr hread')
      refine halloc'.not_mem_of_read ?_ hp
      rw [halloc.read_eq p, if_neg hp']
      exact Option.isSome_iff_ne_none.mpr hread'
    refine h.intern_new hmem hnew hread hcontent
      (key_make_of_compared hsb hnewSb hcontent.symm hkey) hnewSb hfits halloc'.nodup ?_
    intro b hb hbkey
    have hbfind : b.data ≠ find := by
      intro heq
      have hread' := h.read_isSome hb b.data.addr_mem
      rw [heq, hnew find.addr find.addr_mem] at hread'
      cases hread'
    rw [bgpsecPathAttrCmp_comm,
      bgpsecPathAttrCmp_congr hbfind (h.ne_of_allocated halloc hb) hcontent]
    exact hall b hb hbkey.symm

/-! ### Giving back -/

/-- A reference that is given back is counted no more. -/
theorem outstanding_eraseP {refs : List Reference} {bpa : AttrNode} (h : ∃ r ∈ refs, r.got = bpa)
    (e : AttrNode) :
    outstanding (refs.eraseP fun r => r.got = bpa) e + (if bpa = e then 1 else 0) =
      outstanding refs e := by
  obtain ⟨r, hr, hgot⟩ := h
  obtain ⟨r', l₁, l₂, -, hr', hrefs, herase⟩ :=
    List.exists_of_eraseP (p := fun r : Reference => decide (r.got = bpa)) hr (by simpa using hgot)
  have hgot' : r'.got = bpa := by simpa using hr'
  rw [herase, outstanding, outstanding, hrefs]
  simp only [List.countP_append, List.countP_cons, hgot', decide_eq_true_eq]
  omega

/-- References remain: the count goes down. -/
theorem InternOk.unintern_kept (h : InternOk jhash s) {b : Backet} (hb : b ∈ s.backets)
    (href : ∃ r ∈ s.refs, r.got = b.data) (hmore : outstanding s.refs b.data - 1 ≠ 0) :
    InternOk jhash ⟨⟨s.memory.set b.data.addr (some (outstanding s.refs b.data - 1)), s.backets⟩,
      s.refs.eraseP fun r => r.got = b.data⟩ where
  key := h.key
  single := h.single
  fits := h.fits
  apart := h.apart
  nodup := h.nodup
  disjoint := h.disjoint
  live := h.live_set hb (fun _ => rfl) (h.count b hb).1 _
  refs := by
    intro r hr
    exact h.refs r (List.mem_of_mem_eraseP hr)
  count := by
    intro b' hb'
    obtain ⟨hcount, hpos⟩ := h.count b' hb'
    have herase := outstanding_eraseP href b'.data
    rw [Heap.read_set (h.count b hb).1]
    by_cases heq : b.data = b'.data
    · simp only [heq, if_true] at herase hmore ⊢
      exact ⟨congrArg some (by omega), by omega⟩
    · have haddr := h.addr_ne hb hb' heq
      rw [if_neg heq, Nat.add_zero] at herase
      rw [if_neg haddr, hcount, herase]
      exact ⟨rfl, hpos⟩

/-- The other entries share no memory with one of the table. -/
theorem InternOk.disjoint_split (h : InternOk jhash s) {b : Backet} {l₁ l₂ : List Backet}
    (hbs : s.backets = l₁ ++ b :: l₂) :
    ∀ b' ∈ l₁ ++ l₂, b'.data.addrs.Disjoint b.data.addrs := by
  have hpair := h.disjoint
  rw [hbs] at hpair
  obtain ⟨-, hright, hcross⟩ := List.pairwise_append.mp hpair
  intro b' hb' p hp hp'
  rcases List.mem_append.mp hb' with hb' | hb'
  · exact hcross b' hb' b List.mem_cons_self hp hp'
  · exact (List.pairwise_cons.mp hright).1 b' hb' hp' hp

/-- Without an entry and what it was made of, the rest of the table is live. -/
theorem InternOk.live_gone (h : InternOk jhash s) {b : Backet} {l₁ l₂ : List Backet}
    (hbs : s.backets = l₁ ++ b :: l₂) {m : Memory}
    (hmem : ∀ p, m.read p = if p ∈ b.data.addrs then none else s.memory.read p) (p : Nat) :
    (m.read p).isSome ↔ ∃ b' ∈ l₁ ++ l₂, p ∈ b'.data.addrs := by
  have hmemb : ∀ b', b' ∈ s.backets ↔ b' = b ∨ b' ∈ l₁ ++ l₂ := by
    intro b'
    rw [hbs, List.perm_middle.mem_iff, List.mem_cons]
  rw [hmem p]
  by_cases hp : p ∈ b.data.addrs
  · simp only [hp, if_true, Option.isSome_none, Bool.false_eq_true, false_iff]
    rintro ⟨b', hb', hp'⟩
    exact h.disjoint_split hbs b' hb' hp' hp
  · rw [if_neg hp, h.live p]
    constructor
    · rintro ⟨b', hb', hp'⟩
      rcases (hmemb b').mp hb' with rfl | hb'
      · exact absurd hp' hp
      · exact ⟨b', hb', hp'⟩
    · rintro ⟨b', hb', hp'⟩
      exact ⟨b', (hmemb b').mpr (.inr hb'), hp'⟩

/-- The last reference was given back: the entry is gone, and so is all it was made of. -/
theorem InternOk.unintern_last (h : InternOk jhash s) {b : Backet} {l₁ l₂ : List Backet}
    (hbs : s.backets = l₁ ++ b :: l₂) (href : ∃ r ∈ s.refs, r.got = b.data)
    (hlast : outstanding s.refs b.data - 1 = 0) {m : Memory}
    (hmem : ∀ p, m.read p = if p ∈ b.data.addrs then none else s.memory.read p) :
    InternOk jhash ⟨⟨m, l₁ ++ l₂⟩, s.refs.eraseP fun r => r.got = b.data⟩ := by
  have hsublist : (l₁ ++ l₂).Sublist s.backets := by
    rw [hbs]
    exact (List.Sublist.refl l₁).append (List.sublist_cons_self b l₂)
  have hsub : ∀ b' ∈ l₁ ++ l₂, b' ∈ s.backets := fun b' hb' => hsublist.subset hb'
  have hkept : ∀ b' ∈ s.backets, b' ≠ b → b' ∈ l₁ ++ l₂ := by
    intro b' hb' hne
    rw [hbs, List.perm_middle.mem_iff] at hb'
    exact List.mem_of_ne_of_mem hne hb'
  have hapart := h.disjoint_split hbs
  have hgone : outstanding (s.refs.eraseP fun r => r.got = b.data) b.data = 0 := by
    have herase := outstanding_eraseP href b.data
    rw [if_pos rfl] at herase
    omega
  refine ⟨?_, ?_, ?_, ?_, ?_, ?_, ?_, ?_, ?_⟩
  · exact fun b' hb' => h.key b' (hsub b' hb')
  · exact fun b' hb' => h.single b' (hsub b' hb')
  · exact fun b' hb' => h.fits b' (hsub b' hb')
  · exact h.apart.sublist hsublist
  · exact fun b' hb' => h.nodup b' (hsub b' hb')
  · exact h.disjoint.sublist hsublist
  · exact h.live_gone hbs hmem
  · intro r hr
    obtain ⟨⟨b', hb', hdata⟩, hcontent⟩ := h.refs r (List.mem_of_mem_eraseP hr)
    -- a reference that is still outstanding is not to the entry that is gone
    have hne : b' ≠ b := by
      rintro rfl
      rw [outstanding, List.countP_eq_zero] at hgone
      exact hgone r hr (by simp [hdata])
    exact ⟨⟨b', hkept b' hb' hne, hdata⟩, hcontent⟩
  · intro b' hb'
    obtain ⟨hcount, hpos⟩ := h.count b' (hsub b' hb')
    have haddr : b'.data.addr ∉ b.data.addrs := fun hp => hapart b' hb' b'.data.addr_mem hp
    have hne : b.data ≠ b'.data := fun heq => haddr (heq ▸ b'.data.addr_mem)
    have herase := outstanding_eraseP href b'.data
    rw [if_neg hne, Nat.add_zero] at herase
    rw [hmem, if_neg haddr, hcount, herase]
    exact ⟨rfl, hpos⟩

/-- A reference that is outstanding can be given back, and no entry is added by that. -/
theorem InternOk.unintern_step (h : InternOk jhash s) {bpa : AttrNode}
    (href : ∃ r ∈ s.refs, r.got = bpa) :
    ∃ s', internStep jhash s (.unintern bpa) = some s' ∧ InternOk jhash s' ∧
      ∀ b ∈ s'.backets, b ∈ s.backets := by
  obtain ⟨r, hr, rfl⟩ := href
  obtain ⟨⟨b, hb, hdata⟩, -⟩ := h.refs r hr
  rw [← hdata]
  have href : ∃ r ∈ s.refs, r.got = b.data := ⟨r, hr, hdata.symm⟩
  obtain ⟨hcount, hpos⟩ := h.count b hb
  obtain ⟨l₁, l₂, hbs, hstep⟩ := internStep_unintern h.apart hb (h.key b hb) hcount
  rw [hstep]
  by_cases hlast : outstanding s.refs b.data - 1 = 0
  · have hread : ∀ p, Heap.read (s.memory.set b.data.addr
        (some (outstanding s.refs b.data - 1))) p =
          if p = b.data.addr then some (outstanding s.refs b.data - 1) else s.memory.read p :=
      Heap.read_set hcount _
    have hlive : ∀ p ∈ b.data.addrs, (Heap.read (s.memory.set b.data.addr
        (some (outstanding s.refs b.data - 1))) p).isSome := by
      intro p hp
      rw [hread p]
      split
      · rfl
      · exact h.read_isSome hb hp
    obtain ⟨m, hfree, -, hmem⟩ := Heap.freeAll_spec hlive (h.nodup b hb)
    rw [if_pos hlast, bgpsecPathFree_of_fits (h.fits b hb), hfree]
    refine ⟨_, rfl, h.unintern_last hbs href hlast ?_, ?_⟩
    · intro p
      rw [hmem p, hread p]
      by_cases hp : p ∈ b.data.addrs
      · simp [hp]
      · have haddr : p ≠ b.data.addr := fun heq => hp (heq ▸ b.data.addr_mem)
        simp [hp, haddr]
    · intro b' hb'
      rw [hbs, List.perm_middle.mem_iff]
      exact List.mem_cons_of_mem b hb'
  · rw [if_neg hlast]
    exact ⟨_, rfl, h.unintern_kept hb href hlast, fun _ hb' => hb'⟩

/-! ### Whole runs -/

theorem InternOk.step {op : InternOp} (h : InternOk jhash s) (hallowed : Allowed s op)
    (hs : internStep jhash s op = some s') : InternOk jhash s' := by
  cases op with
  | intern bpa => exact h.intern_step hallowed hs
  | unintern bpa =>
      obtain ⟨t, ht, hok, -⟩ := h.unintern_step hallowed
      rw [hs] at ht
      cases ht
      exact hok

theorem InternOk.of_path {ops : List InternOp}
    (hpath : Run.Path (internStep jhash) InternState.init ops s)
    (hops : Run.EachStep (internStep jhash) Allowed InternState.init ops) : InternOk jhash s :=
  hpath.invariant (C := Allowed) (I := InternOk jhash) (fun _ _ _ hok hallowed => hok.step hallowed)
    InternOk.init hops

/-- The entry goes exactly with its last reference. -/
theorem InternOk.gone_iff (h : InternOk jhash s) {bpa : AttrNode} :
    bpa ∉ s.entries ↔ outstanding s.refs bpa = 0 := by
  rw [outstanding, List.countP_eq_zero]
  constructor
  · intro hgone r hr hgot
    have hgot' : r.got = bpa := by simpa using hgot
    exact hgone (hgot' ▸ (h.counted.referenced r hr).1)
  · intro hzero hmem
    obtain ⟨r, hr, hgot⟩ := h.counted.used bpa hmem
    exact hzero r hr (by simp [hgot])

/-- An attribute as `bgpsec_parse` builds it: with a path segment, one block, a signature segment,
    and a SKI and a signature for each. -/
structure WellBuilt (bpa : AttrNode) : Prop where
  segments : bpa.pathSegments ≠ []
  block : ∃ sb, bpa.sigBlocks = [sb] ∧ sb.sigSegments ≠ [] ∧ ∀ ss ∈ sb.sigSegments, ss.Buffered

theorem SigNode.Buffered.fits {ss : SigNode} (h : ss.Buffered) : ss.Fits := by
  obtain ⟨ski, hski, hle⟩ := h.ski
  obtain ⟨sig, hsig, hle'⟩ := h.signature
  refine ⟨?_, ?_⟩
  · intro b hb
    rw [hski] at hb
    cases hb
    exact hle
  · intro b hb
    rw [hsig] at hb
    cases hb
    exact hle'

theorem WellBuilt.readable {bpa : AttrNode} (h : WellBuilt bpa) : bpa.Readable := by
  obtain ⟨sb, hsb, -, hbuffered⟩ := h.block
  intro sb' hsb' ss hss
  rw [hsb] at hsb'
  rw [List.mem_singleton.mp hsb'] at hss
  exact (hbuffered ss hss).readable

theorem WellBuilt.fits {bpa : AttrNode} (h : WellBuilt bpa) : bpa.Fits := by
  obtain ⟨sb, hsb, -, hbuffered⟩ := h.block
  intro sb' hsb' ss hss
  rw [hsb] at hsb'
  rw [List.mem_singleton.mp hsb'] at hss
  exact (hbuffered ss hss).fits

theorem WellBuilt.key_make {bpa : AttrNode} (h : WellBuilt bpa) (jhash : List UInt8 → UInt32) :
    ∃ key, bgpsecPathAttrKeyMake jhash bpa = some key := by
  obtain ⟨sb, hsb, hsss, -⟩ := h.block
  obtain ⟨ss, sss, hss⟩ := List.exists_cons_of_ne_nil hsss
  obtain ⟨-, signature, hread⟩ := h.readable sb (by simp [hsb]) ss (by simp [hss])
  exact ⟨_, bgpsecPathAttrKeyMake_of_read hsb hss hread jhash⟩

/-- The argument of `bgpsec_path_intern` can be freed, and the entry then be counted. -/
theorem WellBuilt.intern_finish {bpa : AttrNode} (find : AttrNode) {m₁ m₂ : Memory} {qs : List Nat}
    (hbuilt : WellBuilt bpa) (halloc : Heap.Allocated 0 s.memory m₁ bpa.addrs)
    (halloc' : Heap.Allocated 0 m₁ m₂ qs)
    (hfind : find.addr ∈ qs ∨ (s.memory.read find.addr).isSome) :
    ∃ m₃ m₄, bgpsecPathFree m₂ bpa = some m₃ ∧ addRef m₃ find.addr = some m₄ := by
  have hlive : ∀ p ∈ bpa.addrs, (m₂.read p).isSome := by
    intro p hp
    rw [halloc'.read_eq p, halloc.read_eq p, if_pos hp]
    split <;> rfl
  obtain ⟨m₃, hfree, -, -⟩ := Heap.freeAll_spec hlive halloc.nodup
  have hread := halloc.read_of_freeAll halloc' hfree find.addr
  have hsome : (m₃.read find.addr).isSome := by
    rw [hread]
    split
    · rfl
    · rename_i hnot
      exact hfind.resolve_left hnot
  obtain ⟨refcnt, hrefcnt⟩ := Option.isSome_iff_exists.mp hsome
  refine ⟨m₃, m₃.set find.addr (some (refcnt + 1)), ?_, ?_⟩
  · rw [bgpsecPathFree_of_fits hbuilt.fits]
    exact hfree
  · rw [addRef, hrefcnt]
    exact Heap.write_of_read hrefcnt _

/-- Interning a well-built attribute succeeds when the attributes that are interned have their
    buffers. -/
theorem InternOk.intern_isSome (h : InternOk jhash s) {bpa : AttrNode} {m₁ : Memory}
    (hbuild : build s.memory bpa = some m₁) (hbuilt : WellBuilt bpa)
    (hreadable : ∀ r ∈ s.refs, r.asked.Readable) :
    ∃ s', internStep jhash s (.intern bpa) = some s' := by
  have halloc := build_eq_some hbuild
  have hzero : m₁.read bpa.addr = some 0 := by rw [halloc.read_eq, if_pos bpa.addr_mem]
  obtain ⟨key, hkey⟩ := hbuilt.key_make jhash
  have hcmp : ∀ b ∈ s.backets, b.key = key →
      (bgpsecPathAttrCmp (some b.data) (some bpa)).isSome := by
    intro b hb _
    obtain ⟨r, hr, hgot⟩ := h.counted.used b.data (List.mem_map_of_mem hb)
    have hcontent := (h.refs r hr).2
    rw [hgot] at hcontent
    exact bgpsecPathAttrCmp_isSome ((hreadable r hr).of_compared hcontent.symm) hbuilt.readable
  obtain ⟨find, hlookup⟩ := Option.isSome_iff_exists.mp (hashLookup_isSome hcmp)
  cases find with
  | some find =>
      rcases hashLookup_eq_some hlookup with ⟨b, hb, hfind, -, -⟩ | ⟨hnone, -⟩
      · cases hfind
        have hne := h.ne_of_allocated halloc hb
        obtain ⟨m₃, m₄, hfree, hadd⟩ := hbuilt.intern_finish b.data halloc
          (Heap.Allocated.refl 0 m₁) (Or.inr (h.read_isSome hb b.data.addr_mem))
        simp [internStep, hbuild, bgpsecPathIntern, hzero, hashGet, hkey, hlookup, hne, hfree,
          hadd]
      · cases hnone
  | none =>
      obtain ⟨sb, hsb, hsss, hbuffered⟩ := hbuilt.block
      obtain ⟨m₂, copy, hcopy⟩ :=
        bgpsecPathHashAlloc_isSome hbuilt.segments hsb hsss hbuffered m₁
      have halloc' := (bgpsecPathHashAlloc_single hsb hcopy).1
      have hne : copy ≠ bpa := by
        intro heq
        have hmem : bpa.addr ∈ copy.addrs := by
          rw [heq]
          exact bpa.addr_mem
        exact halloc'.not_mem_of_read (by simp [hzero]) hmem
      obtain ⟨m₃, m₄, hfree, hadd⟩ := hbuilt.intern_finish copy halloc halloc'
        (Or.inl copy.addr_mem)
      simp [internStep, hbuild, bgpsecPathIntern, hzero, hashGet, hkey, hlookup, hcopy, hne, hfree,
        hadd]

/-- In every state that a run reaches, the table is in step with the outstanding references. Each of
    them can be given back, which removes and frees the entry exactly if none is left, and a
    well-built attribute can be interned. -/
theorem bgpsec_path_intern_counted {ops : List InternOp}
    (hpath : Run.Path (internStep jhash) InternState.init ops s)
    (hops : Run.EachStep (internStep jhash) Allowed InternState.init ops) :
    Counted s ∧
      (∀ r ∈ s.refs, ∃ s', internStep jhash s (.unintern r.got) = some s' ∧
        (r.got ∉ s'.entries ∧ (∀ p ∈ r.got.addrs, s'.memory.read p = none) ↔
          outstanding s'.refs r.got = 0)) ∧
      ∀ bpa m, build s.memory bpa = some m → WellBuilt bpa → (∀ r ∈ s.refs, r.asked.Readable) →
        ∃ s', internStep jhash s (.intern bpa) = some s' := by
  have hok := InternOk.of_path hpath hops
  refine ⟨hok.counted, ?_, ?_⟩
  · intro r hr
    obtain ⟨s', hs', hok', hsub⟩ := hok.unintern_step ⟨r, hr, rfl⟩
    refine ⟨s', hs', ?_⟩
    rw [← hok'.gone_iff]
    refine ⟨fun hgone => hgone.1, fun hgone => ⟨hgone, ?_⟩⟩
    intro p hp
    by_contra hread
    obtain ⟨b, hb, hpb⟩ := (hok'.live p).mp (Option.isSome_iff_ne_none.mpr hread)
    obtain ⟨⟨b', hb', hdata⟩, -⟩ := hok.refs r hr
    have heq : b = b' := hok.eq_of_mem_addrs (hsub b hb) hb' hpb (hdata ▸ hp)
    exact hgone (List.mem_map.mpr ⟨b, hb, heq ▸ hdata⟩)
  · intro bpa m hbuild hbuilt hreadable
    exact hok.intern_isSome hbuild hbuilt hreadable

/-- The entry that `bgpsec_path_hash_alloc` makes of the first path of the run below. -/
def firstEntry : AttrNode :=
  ⟨7, 8, [⟨8, ⟨65000, 1, 0⟩⟩],
    [⟨9, 25, 1, [⟨10, some ⟨11, List.replicate 20 7⟩, 0, some ⟨12, []⟩⟩]⟩]⟩

/-- One path is interned twice and given back once. -/
theorem oneBlockPath_interned_twice :
    ∃ s, Run.Path (internStep fun _ => 0) InternState.init
        [.intern (oneBlockPath 1), .intern (oneBlockPath 13), .unintern firstEntry] s ∧
      s.entries = [firstEntry] ∧ outstanding s.refs firstEntry = 1 ∧ Counted s := by
  let s₁ : InternState := ⟨⟨List.replicate 7 none ++ [some 1] ++ List.replicate 5 (some 0),
    [⟨0, firstEntry⟩]⟩, [⟨oneBlockPath 1, firstEntry⟩]⟩
  let s₂ : InternState := ⟨⟨List.replicate 7 none ++ [some 2] ++ List.replicate 5 (some 0) ++
    List.replicate 6 none, [⟨0, firstEntry⟩]⟩,
    [⟨oneBlockPath 13, firstEntry⟩, ⟨oneBlockPath 1, firstEntry⟩]⟩
  let s₃ : InternState := ⟨⟨List.replicate 7 none ++ [some 1] ++ List.replicate 5 (some 0) ++
    List.replicate 6 none, [⟨0, firstEntry⟩]⟩, [⟨oneBlockPath 1, firstEntry⟩]⟩
  have hs₁ : internStep (fun _ => 0) InternState.init (.intern (oneBlockPath 1)) = some s₁ := by
    decide +kernel
  have hs₂ : internStep (fun _ => 0) s₁ (.intern (oneBlockPath 13)) = some s₂ := by
    decide +kernel
  have hs₃ : internStep (fun _ => 0) s₂ (.unintern firstEntry) = some s₃ := by decide +kernel
  have hpath : Run.Path (internStep fun _ => 0) InternState.init
      [.intern (oneBlockPath 1), .intern (oneBlockPath 13), .unintern firstEntry] s₃ :=
    ((Run.Path.nil.snoc hs₁).snoc hs₂).snoc hs₃
  refine ⟨s₃, hpath, rfl, rfl, (bgpsec_path_intern_counted hpath ?_).1⟩
  refine .cons hs₁ ⟨_, rfl, by simp⟩ (.cons hs₂ ⟨_, rfl, by simp⟩ (.cons hs₃ ?_ .nil))
  exact ⟨⟨oneBlockPath 1, firstEntry⟩, by simp [s₂], rfl⟩

end SrxNote.Intern
