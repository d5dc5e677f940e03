import Mathlib.Data.List.Infix

/-!
# Fixed-size buffers

A buffer is a list whose length does not change. Writing outside of it fails
(`write`), or goes on behind its end (`spill`). A buffer that is filled from its
start holds the concatenation of what was written, whatever it held before.
-/

namespace SrxNote.Buffer

variable {α : Type}

/-- Overwrite the buffer at an offset; `none` when the octets do not fit. -/
def write (b : List α) (offset : Nat) (src : List α) : Option (List α) :=
  if offset + src.length ≤ b.length then
    some (b.take offset ++ src ++ b.drop (offset + src.length))
  else none

/-- Read `size` elements behind a pointer. NULL may be read only for none of them. -/
def read (src : Option (List α)) (size : Nat) : Option (List α) :=
  match src with
  | none => if size = 0 then some [] else none
  | some buf => if size ≤ buf.length then some (buf.take size) else none

/-- Read on behind the end of what a pointer points to, where there is what `behind` gives. -/
def readOn (src : Option (List α)) (size : Nat) (behind : Nat → α) : Option (List α) :=
  match src with
  | none => if size = 0 then some [] else none
  | some buf => some (buf.take size ++ (List.range (size - buf.length)).map behind)

/-- Overwrite the buffer at an offset, and what is behind it with what does not fit. -/
def spill (b : List α) (offset : Nat) (src : List α) : List α × List α :=
  let written := b.take offset ++ src ++ b.drop (offset + src.length)
  (written.take b.length, written.drop b.length)

theorem write_length {b b' src : List α} {offset : Nat} (h : write b offset src = some b') :
    b'.length = b.length := by
  unfold write at h
  split at h
  · rename_i hle
    cases h
    simp only [List.length_append, List.length_take, List.length_drop]
    omega
  · cases h

/-- Writing right behind what the buffer holds extends it. -/
theorem write_append {b s : List α} (hs : s <+: b) (src : List α)
    (hfit : s.length + src.length ≤ b.length) :
    ∃ b', write b s.length src = some b' ∧ s ++ src <+: b' ∧ b'.length = b.length := by
  have htake : b.take s.length = s := (List.prefix_iff_eq_take.mp hs).symm
  have hwrite : write b s.length src = some (s ++ src ++ b.drop (s.length + src.length)) := by
    rw [write, if_pos hfit, htake]
  exact ⟨_, hwrite, List.prefix_append _ _, write_length hwrite⟩

theorem read_length {src : Option (List α)} {size : Nat} {octets : List α}
    (h : read src size = some octets) : octets.length = size := by
  cases src with
  | none =>
      rw [read] at h
      by_cases hz : size = 0
      · rw [if_pos hz, Option.some.injEq] at h
        rw [← h, hz]
        rfl
      · rw [if_neg hz] at h
        cases h
  | some buf =>
      rw [read] at h
      by_cases hle : size ≤ buf.length
      · rw [if_pos hle, Option.some.injEq] at h
        rw [← h, List.length_take, Nat.min_eq_left hle]
      · rw [if_neg hle] at h
        cases h

theorem readOn_length {src : Option (List α)} {size : Nat} {behind : Nat → α} {octets : List α}
    (h : readOn src size behind = some octets) : octets.length = size := by
  cases src with
  | none =>
      rw [readOn] at h
      split at h
      · rename_i hz
        cases h
        exact hz.symm
      · cases h
  | some buf =>
      cases h
      rw [List.length_append, List.length_take, List.length_map, List.length_range]
      omega

theorem readOn_isSome_iff {src : Option (List α)} {size : Nat} {behind : Nat → α} :
    (readOn src size behind).isSome ↔ src.isSome ∨ size = 0 := by
  cases src with
  | none =>
      rw [readOn]
      split
      · rename_i hz
        simp [hz]
      · rename_i hz
        simp [hz]
  | some buf => simp [readOn]

/-- What may be read is read as it is. -/
theorem readOn_of_read {src : Option (List α)} {size : Nat} {octets : List α}
    (h : read src size = some octets) (behind : Nat → α) : readOn src size behind = some octets := by
  cases src with
  | none => exact h
  | some buf =>
      rw [read] at h
      split at h
      · rename_i hle
        rw [readOn, Nat.sub_eq_zero_of_le hle, List.range_zero, List.map_nil, List.append_nil]
        exact h
      · cases h

/-- Writing right behind what the buffer holds extends it, if need be behind its end. -/
theorem spill_append {b s : List α} (hs : s <+: b) (src : List α) :
    (spill b s.length src).1.length = b.length ∧
      s ++ src <+: (spill b s.length src).1 ++ (spill b s.length src).2 := by
  have htake : b.take s.length = s := (List.prefix_iff_eq_take.mp hs).symm
  rw [spill, htake]
  dsimp only
  rw [List.take_append_drop]
  refine ⟨?_, List.prefix_append _ _⟩
  rw [List.length_take, List.length_append, List.length_append, List.length_drop]
  omega

end SrxNote.Buffer
