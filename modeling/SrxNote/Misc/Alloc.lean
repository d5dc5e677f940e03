import Mathlib.Data.List.Nodup
import Mathlib.Data.List.Range
import SrxNote.Misc.Heap

/-!
# Building and releasing structures on a heap

A structure of several objects is built by allocations one after another and is
released object by object. `Allocated` is what a sequence of allocations did,
whatever its order: it composes (`Allocated.trans`) and says what can be read
behind every handle afterwards (`Allocated.read_eq`). `freeAll` releases a list
of handles and succeeds when they are live and pairwise different.
-/

namespace SrxNote.Heap

variable {α : Type} {x : α} {h h' h'' : Heap α} {ps qs : List Nat}

/-- Overwrite the object behind a handle; `none` when there is none. -/
def write (h : Heap α) (p : Nat) (x : α) : Option (Heap α) :=
  if (h.read p).isSome then some (h.set p (some x)) else none

/-- Free the objects behind a list of handles, in its order. -/
def freeAll (h : Heap α) : List Nat → Option (Heap α)
  | [] => some h
  | p :: ps => (h.free p).bind fun h => freeAll h ps

/-- `h'` is `h` after objects `x` were allocated, whose handles are `ps` in some order. -/
def Allocated (x : α) (h h' : Heap α) (ps : List Nat) : Prop :=
  h' = h ++ List.replicate ps.length (some x) ∧ ps.Perm (List.range' h.fresh ps.length)

theorem write_of_read {p : Nat} {y : α} (hp : h.read p = some y) (x : α) :
    h.write p x = some (h.set p (some x)) := by
  rw [write, hp]
  rfl

theorem read_set_self {p : Nat} {y : α} (hp : h.read p = some y) (x : Option α) :
    read (h.set p x) p = x := by
  have hlt : p < List.length h := lt_fresh_of_read hp
  simp [read, List.getElem?_set_self hlt]

theorem set_of_read {p : Nat} {y : α} (hp : h.read p = some y) : h.set p (some y) = h := by
  have hlt : p < List.length h := lt_fresh_of_read hp
  have hget : h[p]? = some (some y) := Option.join_eq_some_iff.mp hp
  rw [List.getElem?_eq_getElem hlt] at hget
  rw [← Option.some.inj hget, List.set_getElem_self]

theorem freeAll_append (h : Heap α) (ps qs : List Nat) :
    h.freeAll (ps ++ qs) = (h.freeAll ps).bind fun h => h.freeAll qs := by
  induction ps generalizing h with
  | nil => rfl
  | cons p ps ih =>
      rw [List.cons_append, freeAll, freeAll]
      cases hfree : h.free p with
      | none => rfl
      | some h' => exact ih h'

/-- Freeing pairwise different live handles succeeds; nothing can be read behind them then, and
    the others are as before. -/
theorem freeAll_spec (hlive : ∀ p ∈ ps, (h.read p).isSome) (hnodup : ps.Nodup) :
    ∃ h', h.freeAll ps = some h' ∧ h'.fresh = h.fresh ∧
      ∀ p, h'.read p = if p ∈ ps then none else h.read p := by
  induction ps generalizing h with
  | nil => exact ⟨h, rfl, rfl, fun p => by simp⟩
  | cons q qs ih =>
      obtain ⟨y, hy⟩ := Option.isSome_iff_exists.mp (hlive q (by simp))
      obtain ⟨hq, hqs⟩ := List.nodup_cons.mp hnodup
      have hlive' : ∀ p ∈ qs, (read (h.set q none) p).isSome := by
        intro p hp
        have hne : p ≠ q := fun heq => hq (heq ▸ hp)
        rw [read_set_of_ne h hne]
        exact hlive p (List.mem_cons_of_mem q hp)
      obtain ⟨h', hfree, hfresh, hread⟩ := ih hlive' hqs
      refine ⟨h', ?_, ?_, ?_⟩
      · rw [freeAll, free_of_read hy]
        exact hfree
      · rw [hfresh]
        simp [fresh]
      · intro p
        rw [hread p]
        by_cases hpq : p = q
        · subst hpq
          simp [hq, read_set_self hy]
        · simp [hpq, read_set_of_ne h hpq]

/-- A successful release leaves no handle of the list and changes no other. -/
theorem freeAll_some (hfree : h.freeAll ps = some h') :
    ∀ p, h'.read p = if p ∈ ps then none else h.read p := by
  induction ps generalizing h with
  | nil =>
      cases hfree
      simp
  | cons q qs ih =>
      rw [freeAll] at hfree
      cases hq : h.read q with
      | none => simp [free, hq] at hfree
      | some y =>
          rw [free_of_read hq] at hfree
          intro p
          rw [ih hfree p]
          by_cases hpq : p = q
          · subst hpq
            simp [read_set_self hq]
          · simp [hpq, read_set_of_ne h hpq]

namespace Allocated

theorem refl (x : α) (h : Heap α) : Allocated x h h [] := by
  simp [Allocated]

theorem alloc (x : α) (h : Heap α) : Allocated x h (h.alloc x) [h.fresh] := by
  simp [Allocated, Heap.alloc]

theorem fresh_eq (ha : Allocated x h h' ps) : h'.fresh = h.fresh + ps.length := by
  rw [ha.1]
  simp [fresh]

theorem perm (ha : Allocated x h h' ps) (hperm : qs.Perm ps) : Allocated x h h' qs := by
  rw [Allocated, hperm.length_eq]
  exact ⟨ha.1, hperm.trans ha.2⟩

theorem trans (ha : Allocated x h h' ps) (hb : Allocated x h' h'' qs) :
    Allocated x h h'' (ps ++ qs) := by
  have hfresh := ha.fresh_eq
  obtain ⟨hh', hps⟩ := ha
  obtain ⟨hh'', hqs⟩ := hb
  refine ⟨?_, ?_⟩
  · rw [hh'', hh', List.length_append, List.append_assoc, List.replicate_append_replicate]
  · rw [hfresh] at hqs
    rw [List.length_append, ← List.range'_append_1]
    exact hps.append hqs

theorem mem_iff (ha : Allocated x h h' ps) {p : Nat} : p ∈ ps ↔ h.fresh ≤ p ∧ p < h'.fresh := by
  rw [ha.fresh_eq, ha.2.mem_iff, List.mem_range'_1]

theorem nodup (ha : Allocated x h h' ps) : ps.Nodup := ha.2.nodup_iff.mpr List.nodup_range'

/-- Behind the new handles are the new objects, behind the others what was there. -/
theorem read_eq (ha : Allocated x h h' ps) (p : Nat) :
    h'.read p = if p ∈ ps then some x else h.read p := by
  have hmem := ha.mem_iff (p := p)
  have hlen := ha.fresh_eq
  rw [fresh, fresh] at hmem hlen
  by_cases hlt : p < List.length h
  · have hnot : p ∉ ps := fun hp => absurd (hmem.mp hp).1 (Nat.not_le.mpr hlt)
    rw [if_neg hnot, ha.1, read, read, List.getElem?_append_left hlt]
  · have hle : List.length h ≤ p := Nat.le_of_not_lt hlt
    rw [ha.1, read, List.getElem?_append_right hle, List.getElem?_replicate]
    by_cases hp : p ∈ ps
    · have hin : p - List.length h < ps.length := by
        have := (hmem.mp hp).2
        omega
      simp [hp, hin]
    · have hout : ¬ p - List.length h < ps.length := fun hin => hp (hmem.mpr ⟨hle, by omega⟩)
      have hnone : h[p]? = none := List.getElem?_eq_none hle
      simp [hp, hout, read, hnone]

/-- A new handle is none of those that could be read before. -/
theorem not_mem_of_read (ha : Allocated x h h' ps) {p : Nat} (hp : (h.read p).isSome) :
    p ∉ ps := by
  intro hmem
  obtain ⟨y, hy⟩ := Option.isSome_iff_exists.mp hp
  exact absurd (ha.mem_iff.mp hmem).1 (Nat.not_le.mpr (lt_fresh_of_read hy))

/-- After further allocations and the release of the first ones, only the further ones were made. -/
theorem read_of_freeAll (ha : Allocated x h h' ps) (hb : Allocated x h' h'' qs) {h₃ : Heap α}
    (hfree : h''.freeAll ps = some h₃) (p : Nat) :
    h₃.read p = if p ∈ qs then some x else h.read p := by
  rw [freeAll_some hfree p, hb.read_eq p, ha.read_eq p]
  by_cases hp : p ∈ ps
  · have hqs : p ∉ qs := hb.not_mem_of_read (by simp [ha.read_eq p, hp])
    cases hread : h.read p with
    | none => simp [hp, hqs]
    | some y => exact absurd hp (ha.not_mem_of_read (by simp [hread]))
  · simp [hp]

end Allocated

theorem read_alloc_eq (h : Heap α) (x : α) (q : Nat) :
    (h.alloc x).read q = if q = h.fresh then some x else h.read q := by
  simpa using (Allocated.alloc x h).read_eq q

theorem read_set {p : Nat} {y : α} (hp : h.read p = some y) (x : Option α) (q : Nat) :
    read (h.set p x) q = if q = p then x else h.read q := by
  by_cases hqp : q = p
  · subst hqp
    simp [read_set_self hp]
  · simp [hqp, read_set_of_ne h hqp]

/-! ### Counting what is live -/

/-- The number of objects that were allocated and not freed. -/
def live (h : Heap α) : Nat := List.countP Option.isSome h

theorem live_alloc (h : Heap α) (x : α) : (h.alloc x).live = h.live + 1 := by
  simp [live, alloc]

theorem live_set {p : Nat} {y : α} (hp : h.read p = some y) (x : Option α) :
    live (h.set p x) + 1 = h.live + x.toList.length := by
  have hlt : p < List.length h := lt_fresh_of_read hp
  have hget : h[p]? = some (some y) := Option.join_eq_some_iff.mp hp
  have hpos : 0 < List.countP Option.isSome h :=
    List.countP_pos_iff.mpr ⟨some y, List.mem_of_getElem? hget, rfl⟩
  rw [List.getElem?_eq_getElem hlt] at hget
  rw [live, live, List.countP_set hlt, Option.some.inj hget]
  cases x with
  | none => simp; omega
  | some x => simp; omega

/-- There are at most as many live handles that are pairwise different as live objects. -/
theorem length_le_live (hlive : ∀ p ∈ ps, (h.read p).isSome) (hnodup : ps.Nodup) :
    ps.length ≤ h.live := by
  induction ps generalizing h with
  | nil => exact Nat.zero_le _
  | cons q qs ih =>
      obtain ⟨hq, hqs⟩ := List.nodup_cons.mp hnodup
      obtain ⟨y, hy⟩ := Option.isSome_iff_exists.mp (hlive q List.mem_cons_self)
      have hcount := live_set hy none
      have hle := ih (h := h.set q none) (fun p hp => by
        have hne : p ≠ q := fun heq => hq (heq ▸ hp)
        rw [read_set_of_ne h hne]
        exact hlive p (List.mem_cons_of_mem q hp)) hqs
      rw [Option.toList_none, List.length_nil] at hcount
      rw [List.length_cons]
      omega

/-- Live handles that are pairwise different are all there are, when there are as many of them. -/
theorem mem_of_live (hlive : ∀ p ∈ ps, (h.read p).isSome) (hnodup : ps.Nodup)
    (hcount : h.live = ps.length) {q : Nat} (hq : (h.read q).isSome) : q ∈ ps := by
  by_contra hnot
  have hall : ∀ p ∈ q :: ps, (h.read p).isSome := by
    simp only [List.mem_cons]
    rintro p (rfl | hp)
    · exact hq
    · exact hlive p hp
  have hle := length_le_live hall (List.nodup_cons.mpr ⟨hnot, hnodup⟩)
  rw [List.length_cons] at hle
  omega

end SrxNote.Heap
