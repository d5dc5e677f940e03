import SrxNote.Misc.Run

/-!
# Trees of words

`next p d` is the node behind the edge `d` of the node `p`, and a word leads from
the root along its edges (`Run.exec`). In a tree no node is reached by two words;
an edge to a node without edges then adds one word and changes no other
(`exec_grow`).
-/

namespace SrxNote.WordTree

open Run

variable {σ α : Type} {next : σ → α → Option σ} {root p q : σ} {u : List α} {d : α}

/-- No node is reached by two words. -/
def IsTree (next : σ → α → Option σ) (root : σ) : Prop :=
  ∀ u v p, exec next root u = some p → exec next root v = some p → u = v

theorem exec_snoc (next : σ → α → Option σ) (root : σ) (u : List α) (d : α) :
    exec next root (u ++ [d]) = (exec next root u).bind (next · d) := by
  rw [exec_append]
  cases exec next root u with
  | none => rfl
  | some p => simp [exec]

variable [DecidableEq σ] [DecidableEq α]

/-- One edge more, or another node behind an edge. -/
def grow (next : σ → α → Option σ) (p : σ) (d : α) (q : σ) : σ → α → Option σ :=
  fun p' d' => if p' = p ∧ d' = d then some q else next p' d'

/-- A new edge of the node behind `u`, to a node that was not reached and has no edges, adds the
    word with this edge behind `u`. -/
theorem exec_grow (htree : IsTree next root) (hp : exec next root u = some p)
    (hd : next p d = none) (hq : ∀ e, next q e = none) (hnew : ∀ w, exec next root w ≠ some q)
    (w : List α) :
    exec (grow next p d q) root w = if w = u ++ [d] then some q else exec next root w := by
  induction w using List.reverseRecOn with
  | nil => simp [exec]
  | append_singleton v e ih =>
      rw [exec_snoc, ih, exec_snoc next]
      by_cases hv : v = u ++ [d]
      · -- the new node has no edges, and nothing was behind the new edge before
        subst hv
        have hqp : q ≠ p := fun h => hnew u (h ▸ hp)
        have hlong : u ++ [d] ++ [e] ≠ u ++ [d] := by simp
        rw [if_pos rfl, if_neg hlong, exec_snoc next, hp]
        simp [grow, hqp, hq, hd]
      · rw [if_neg hv]
        cases hv' : exec next root v with
        | none =>
            have hne : v ≠ u := fun h => by simp [h, hp] at hv'
            simp [hne]
        | some p' =>
            by_cases hpp : p' = p
            · obtain rfl : v = u := htree v u p (hpp ▸ hv') hp
              simp [grow, hpp]
            · have hne : v ≠ u := fun h => hpp (Option.some.inj (hv'.symm.trans (h ▸ hp)))
              simp [grow, hpp, hne]

theorem IsTree.grow (htree : IsTree next root) (hp : exec next root u = some p)
    (hd : next p d = none) (hq : ∀ e, next q e = none) (hnew : ∀ w, exec next root w ≠ some q) :
    IsTree (grow next p d q) root := by
  intro v w p' hv hw
  rw [exec_grow htree hp hd hq hnew] at hv hw
  by_cases hvu : v = u ++ [d]
  · by_cases hwu : w = u ++ [d]
    · exact hvu.trans hwu.symm
    · rw [if_pos hvu] at hv
      rw [if_neg hwu, ← hv] at hw
      exact absurd hw (hnew w)
  · rw [if_neg hvu] at hv
    by_cases hwu : w = u ++ [d]
    · rw [if_pos hwu] at hw
      rw [← hw] at hv
      exact absurd hv (hnew v)
    · rw [if_neg hwu] at hw
      exact htree v w p' hv hw

end SrxNote.WordTree
