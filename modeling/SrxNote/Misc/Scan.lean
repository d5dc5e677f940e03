import Mathlib.Data.List.Basic
import Mathlib.Order.Lattice

/-!
# Selecting a best element by a scan

A scan keeps the best element so far and replaces it by the next one where a
comparison says so. If the comparison decides the elements by a key wherever two
keys differ, the scan ends with a largest key, whatever the order of the list and
whatever the comparison does on equal keys.
-/

namespace SrxNote

variable {α κ : Type}

/-- Keep the best element so far; `none` before the first one. -/
def scan (skip : α → Bool) (better : α → Option α → Bool) (best : Option α) (xs : List α) : Option α :=
  xs.foldl (fun best x => if skip x then best else if better x best then some x else best) best

/-- Among the elements with `p`, an element replaces nothing, and two different keys decide. -/
structure DecidedBy [LT κ] (better : α → Option α → Bool) (key : α → κ) (p : α → Prop) : Prop where
  first : ∀ x, p x → better x none = true
  larger : ∀ x y, p x → p y → key y < key x → better x (some y) = true
  smaller : ∀ x y, p x → p y → key x < key y → better x (some y) = false

/-- `b` is one of the elements that are not skipped, and none of them has a larger key. -/
structure IsBest [LE κ] (skip : α → Bool) (key : α → κ) (xs : List α) (b : α) : Prop where
  mem : b ∈ xs
  not_skip : skip b = false
  max : ∀ x ∈ xs, skip x = false → key x ≤ key b

theorem IsBest.of_perm [LE κ] {skip : α → Bool} {key : α → κ} {xs ys : List α} {b : α}
    (h : IsBest skip key xs b) (hperm : xs.Perm ys) : IsBest skip key ys b :=
  ⟨hperm.mem_iff.mp h.mem, h.not_skip, fun x hx => h.max x (hperm.mem_iff.mpr hx)⟩

/-- A scan reads its elements through `f` only. -/
theorem scan_congr_map {γ : Type} {f : α → γ} {skip : α → Bool} {better : α → Option α → Bool}
    (hskip : ∀ x x', f x = f x' → skip x = skip x')
    (hbetter : ∀ x x' b b', f x = f x' → b.map f = b'.map f → better x b = better x' b') {xs xs' : List α}
    (hxs : xs.map f = xs'.map f) {best best' : Option α} (hbest : best.map f = best'.map f) :
    (scan skip better best xs).map f = (scan skip better best' xs').map f := by
  induction xs generalizing xs' best best' with
  | nil =>
      cases List.map_eq_nil_iff.mp hxs.symm
      exact hbest
  | cons x xs ih =>
      obtain ⟨x', xs'', rfl, hx, hrest⟩ := List.map_eq_cons_iff.mp hxs.symm
      refine ih hrest.symm ?_
      dsimp only
      rw [hskip x x' hx.symm, hbetter x x' best best' hx.symm hbest]
      split
      · exact hbest
      · split
        · exact congrArg some hx.symm
        · exact hbest

/-- A scan ends with the best element that it starts with or with one that is not skipped. -/
theorem scan_mem {skip : α → Bool} {better : α → Option α → Bool} {xs : List α} {best : Option α} {b : α}
    (h : scan skip better best xs = some b) : best = some b ∨ (b ∈ xs ∧ skip b = false) := by
  induction xs generalizing best with
  | nil => exact .inl h
  | cons x xs ih =>
      rcases ih h with hbest | ⟨hmem, hskip⟩
      · dsimp only at hbest
        split at hbest
        · exact .inl hbest
        · rename_i hskip
          split at hbest
          · cases hbest
            exact .inr ⟨List.mem_cons_self, Bool.eq_false_iff.mpr hskip⟩
          · exact .inl hbest
      · exact .inr ⟨List.mem_cons_of_mem x hmem, hskip⟩

section

variable [LinearOrder κ] {skip : α → Bool} {better : α → Option α → Bool} {key : α → κ} {p : α → Prop}

/-- The element that is kept has the larger key. -/
theorem DecidedBy.step (h : DecidedBy better key p) {b x : α} (hb : p b) (hx : p x) :
    ∃ b', (if better x (some b) then some x else some b) = some b' ∧ (b' = b ∨ b' = x) ∧
      key b ≤ key b' ∧ key x ≤ key b' := by
  cases hbetter : better x (some b) with
  | true =>
      have hle : key b ≤ key x := by
        by_contra hlt
        rw [h.smaller x b hx hb (not_le.mp hlt)] at hbetter
        cases hbetter
      exact ⟨x, rfl, .inr rfl, hle, le_rfl⟩
  | false =>
      have hle : key x ≤ key b := by
        by_contra hlt
        rw [h.larger x b hx hb (not_le.mp hlt)] at hbetter
        cases hbetter
      exact ⟨b, rfl, .inl rfl, le_rfl, hle⟩

/-- From an element on, the scan ends with it or with one of the list, and with the largest key. -/
theorem DecidedBy.scan_some (h : DecidedBy better key p) {xs : List α}
    (hxs : ∀ x ∈ xs, skip x = false → p x) {b : α} (hb : p b) :
    ∃ b', scan skip better (some b) xs = some b' ∧ (b' = b ∨ (b' ∈ xs ∧ skip b' = false)) ∧
      key b ≤ key b' ∧ ∀ x ∈ xs, skip x = false → key x ≤ key b' := by
  induction xs generalizing b with
  | nil => exact ⟨b, rfl, .inl rfl, le_rfl, by simp⟩
  | cons x xs ih =>
      have hxs' : ∀ y ∈ xs, skip y = false → p y := fun y hy => hxs y (List.mem_cons_of_mem x hy)
      cases hskip : skip x with
      | true =>
          obtain ⟨b', hscan, hmem, hle, hmax⟩ := ih hxs' hb
          refine ⟨b', by simpa [scan, hskip] using hscan, ?_, hle, ?_⟩
          · exact hmem.imp_right fun hm => ⟨List.mem_cons_of_mem x hm.1, hm.2⟩
          · intro y hy hskip'
            rcases List.mem_cons.mp hy with rfl | hy
            · cases hskip.symm.trans hskip'
            · exact hmax y hy hskip'
      | false =>
          have hx : p x := hxs x List.mem_cons_self hskip
          obtain ⟨b₁, hb₁, hone, hle₁, hlex⟩ := h.step hb hx
          have hpb₁ : p b₁ := by
            rcases hone with rfl | rfl
            · exact hb
            · exact hx
          obtain ⟨b', hscan, hmem, hle, hmax⟩ := ih hxs' hpb₁
          refine ⟨b', ?_, ?_, hle₁.trans hle, ?_⟩
          · rw [← hb₁] at hscan
            simpa [scan, hskip] using hscan
          · rcases hmem with rfl | hm
            · rcases hone with rfl | rfl
              · exact .inl rfl
              · exact .inr ⟨List.mem_cons_self, hskip⟩
            · exact .inr ⟨List.mem_cons_of_mem x hm.1, hm.2⟩
          · intro y hy hskip'
            rcases List.mem_cons.mp hy with rfl | hy
            · exact hlex.trans hle
            · exact hmax y hy hskip'

/-- A scan over elements of which one is not skipped ends with a best one. -/
theorem DecidedBy.scan_isBest (h : DecidedBy better key p) {xs : List α}
    (hxs : ∀ x ∈ xs, skip x = false → p x) (hsome : ∃ x ∈ xs, skip x = false) :
    ∃ b, scan skip better none xs = some b ∧ IsBest skip key xs b := by
  induction xs with
  | nil => simp at hsome
  | cons x xs ih =>
      have hxs' : ∀ y ∈ xs, skip y = false → p y := fun y hy => hxs y (List.mem_cons_of_mem x hy)
      cases hskip : skip x with
      | true =>
          obtain ⟨b, hscan, hbest⟩ := ih hxs' (by simpa [hskip] using hsome)
          refine ⟨b, by simpa [scan, hskip] using hscan, List.mem_cons_of_mem x hbest.mem,
            hbest.not_skip, ?_⟩
          intro y hy hskip'
          rcases List.mem_cons.mp hy with rfl | hy
          · cases hskip.symm.trans hskip'
          · exact hbest.max y hy hskip'
      | false =>
          have hx : p x := hxs x List.mem_cons_self hskip
          obtain ⟨b, hscan, hmem, hle, hmax⟩ := h.scan_some hxs' hx
          refine ⟨b, by simpa [scan, hskip, h.first x hx] using hscan, ?_, ?_, ?_⟩
          · rcases hmem with rfl | hm
            · exact List.mem_cons_self
            · exact List.mem_cons_of_mem x hm.1
          · rcases hmem with rfl | hm
            · exact hskip
            · exact hm.2
          · intro y hy hskip'
            rcases List.mem_cons.mp hy with rfl | hy
            · exact hle
            · exact hmax y hy hskip'

end

end SrxNote
