import Mathlib.Data.List.Sort
import SrxNote.Programs.ArrayTest

/-!
# The binary search and what the program makes of it

A search between the bounds `l` and `r` of an increasing array is right unless it
runs beyond the largest index that an `int` holds: then `mid + 1` overflows. The
program prints index 0 whatever the search has returned.
-/

namespace SrxNote.Programs.ArrayTest

open Text

/-- `x` is an element between the bounds. -/
def Occurs (arr : List Int) (l r x : Int) : Prop := ∃ i, l ≤ i ∧ i ≤ r ∧ elementAt arr i = some x

/-- The search ends, has read between the bounds only, and has found `x` if it occurs there. -/
def SearchRight (arr : List Int) (l r x : Int) : Prop :=
  ∃ s, binarySearch arr l r x = some s ∧ (∀ i ∈ s.reads, l ≤ i ∧ i ≤ r) ∧
    (Occurs arr l r x → l ≤ s.index ∧ s.index ≤ r ∧ elementAt arr s.index = some x) ∧
    (¬ Occurs arr l r x → s.index = -1)

/-- All elements up to the largest index of an `int` are smaller than `x`. -/
def RunsOver (arr : List Int) (l r x : Int) : Prop :=
  l ≤ r ∧ r = intMax ∧ ∃ a, elementAt arr r = some a ∧ a < x

theorem elementAt_isSome {arr : List Int} {i : Int} (hpos : 0 ≤ i) (hlt : i < arr.length) :
    ∃ a, elementAt arr i = some a := by
  have hidx : i.toNat < arr.length := by omega
  exact ⟨arr[i.toNat], by rw [elementAt, if_pos hpos, List.getElem?_eq_getElem hidx]⟩

/-- The elements of an increasing array are in the order of their indices. -/
theorem elementAt_lt {arr : List Int} (hinc : arr.Pairwise (· < ·)) {i j a b : Int}
    (hi : elementAt arr i = some a) (hj : elementAt arr j = some b) (hij : i < j) : a < b := by
  unfold elementAt at hi hj
  split at hi
  · rename_i hpos
    have hposj : 0 ≤ j := by omega
    rw [if_pos hposj] at hj
    obtain ⟨hilt, rfl⟩ := List.getElem?_eq_some_iff.mp hi
    obtain ⟨hjlt, rfl⟩ := List.getElem?_eq_some_iff.mp hj
    exact List.pairwise_iff_getElem.mp hinc i.toNat j.toNat hilt hjlt (by omega)
  · cases hi

theorem elementAt_le {arr : List Int} (hinc : arr.Pairwise (· < ·)) {i j a b : Int}
    (hi : elementAt arr i = some a) (hj : elementAt arr j = some b) (hij : i ≤ j) : a ≤ b := by
  rcases Int.lt_or_eq_of_le hij with hlt | rfl
  · exact Int.le_of_lt (elementAt_lt hinc hi hj hlt)
  · rw [hi] at hj
    exact Int.le_of_eq (Option.some.inj hj)

theorem index_lt_of_lt {arr : List Int} (hinc : arr.Pairwise (· < ·)) {i j a b : Int}
    (hi : elementAt arr i = some a) (hj : elementAt arr j = some b) (hab : a < b) : i < j := by
  by_contra hle
  have hba : b ≤ a := elementAt_le hinc hj hi (by omega)
  omega

/-- One call between bounds that are indices of the array. -/
theorem binarySearch_eq {arr : List Int} {l r x mid a : Int} (hl : 0 ≤ l) (hle : l ≤ r)
    (hr : r ≤ intMax) (hmid : mid = l + (r - l) / 2) (ha : elementAt arr mid = some a) :
    binarySearch arr l r x =
      if a = x then some ⟨mid, [mid]⟩
      else if a > x then (binarySearch arr l (mid - 1) x).map (Search.after mid)
      else if mid = intMax then none
      else (binarySearch arr (mid + 1) r x).map (Search.after mid) := by
  have hdiff : IsInt (r - l) := by unfold IsInt intMin; omega
  have hmidInt : IsInt mid := by unfold IsInt intMin; omega
  have hbefore : IsInt (mid - 1) := by unfold IsInt intMin; omega
  rw [binarySearch, if_pos hle]
  simp only [← hmid, hdiff, hmidInt, hbefore, ha, and_self, if_true]
  by_cases hlast : mid = intMax
  · have hover : ¬ IsInt (mid + 1) := by unfold IsInt; omega
    simp only [hover, if_false, if_pos hlast]
  · have hbehind : IsInt (mid + 1) := by unfold IsInt intMin; unfold IsInt at hmidInt; omega
    simp only [hbehind, if_true, if_neg hlast]

/-- A search on the left that is right makes the whole search right, when `arr[mid]` is larger. -/
theorem SearchRight.left {arr : List Int} (hinc : arr.Pairwise (· < ·)) {l r x mid a : Int}
    (hbounds : l ≤ mid ∧ mid ≤ r) (ha : elementAt arr mid = some a) (hax : a > x)
    (heq : binarySearch arr l r x = (binarySearch arr l (mid - 1) x).map (Search.after mid))
    (h : SearchRight arr l (mid - 1) x) : SearchRight arr l r x := by
  obtain ⟨s, hs, hreads, hfound, habsent⟩ := h
  have hocc : Occurs arr l r x ↔ Occurs arr l (mid - 1) x := by
    constructor
    · rintro ⟨i, hli, -, hi⟩
      have him := index_lt_of_lt hinc hi ha hax
      exact ⟨i, hli, by omega, hi⟩
    · rintro ⟨i, hli, hir, hi⟩
      exact ⟨i, hli, by omega, hi⟩
  refine ⟨s.after mid, by rw [heq, hs]; rfl, ?_, ?_, ?_⟩
  · intro i hi
    simp only [Search.after, List.mem_cons] at hi
    rcases hi with rfl | rfl | hi
    · exact hbounds
    · exact hbounds
    · have hbound := hreads i hi
      omega
  · intro h
    obtain ⟨hl, hr, helem⟩ := hfound (hocc.mp h)
    exact ⟨hl, by simp only [Search.after]; omega, helem⟩
  · exact fun h => habsent fun hocc' => h (hocc.mpr hocc')

/-- And one on the right, when `arr[mid]` is smaller. -/
theorem SearchRight.right {arr : List Int} (hinc : arr.Pairwise (· < ·)) {l r x mid a : Int}
    (hbounds : l ≤ mid ∧ mid ≤ r) (ha : elementAt arr mid = some a) (hax : a < x)
    (heq : binarySearch arr l r x = (binarySearch arr (mid + 1) r x).map (Search.after mid))
    (h : SearchRight arr (mid + 1) r x) : SearchRight arr l r x := by
  obtain ⟨s, hs, hreads, hfound, habsent⟩ := h
  have hocc : Occurs arr l r x ↔ Occurs arr (mid + 1) r x := by
    constructor
    · rintro ⟨i, -, hir, hi⟩
      have him := index_lt_of_lt hinc ha hi hax
      exact ⟨i, by omega, hir, hi⟩
    · rintro ⟨i, hli, hir, hi⟩
      exact ⟨i, by omega, hir, hi⟩
  refine ⟨s.after mid, by rw [heq, hs]; rfl, ?_, ?_, ?_⟩
  · intro i hi
    simp only [Search.after, List.mem_cons] at hi
    rcases hi with rfl | rfl | hi
    · exact hbounds
    · exact hbounds
    · have hbound := hreads i hi
      omega
  · intro h
    obtain ⟨hl, hr, helem⟩ := hfound (hocc.mp h)
    exact ⟨by simp only [Search.after]; omega, hr, helem⟩
  · exact fun h => habsent fun hocc' => h (hocc.mpr hocc')

/-- The search is right, or runs over and is undefined; the induction is on the bounds. -/
theorem binarySearch_spec {arr : List Int} (hinc : arr.Pairwise (· < ·)) {l r x : Int} (hl : 0 ≤ l)
    (hr : r < arr.length) (hmax : r ≤ intMax) :
    (¬ RunsOver arr l r x → SearchRight arr l r x) ∧
      (RunsOver arr l r x → binarySearch arr l r x = none) := by
  by_cases hle : l ≤ r
  · obtain ⟨mid, hmid⟩ : ∃ mid, mid = l + (r - l) / 2 := ⟨_, rfl⟩
    have hbounds : l ≤ mid ∧ mid ≤ r := by omega
    obtain ⟨a, ha⟩ : ∃ a, elementAt arr mid = some a := elementAt_isSome (by omega) (by omega)
    obtain ⟨b, hb⟩ : ∃ b, elementAt arr r = some b := elementAt_isSome (by omega) (by omega)
    have hab : a ≤ b := elementAt_le hinc ha hb hbounds.2
    have hover : RunsOver arr l r x ↔ r = intMax ∧ b < x := by simp [RunsOver, hle, hb]
    have heq := binarySearch_eq (x := x) hl hle hmax hmid ha
    rw [hover]
    rcases Int.lt_trichotomy a x with hax | rfl | hax
    · have hne : a ≠ x := Int.ne_of_lt hax
      have hnot : ¬ a > x := by omega
      rw [if_neg hne, if_neg hnot] at heq
      by_cases hlast : mid = intMax
      · -- `mid + 1` overflows
        rw [if_pos hlast] at heq
        have hrmid : r = mid := by omega
        rw [hrmid, ha] at hb
        have hbx : b < x := by rw [← Option.some.inj hb]; exact hax
        exact ⟨fun h => absurd ⟨hrmid.trans hlast, hbx⟩ h, fun _ => heq⟩
      · rw [if_neg hlast] at heq
        obtain ⟨hright, hnone⟩ := binarySearch_spec hinc (l := mid + 1) (x := x) (by omega) hr hmax
        have hover' : RunsOver arr (mid + 1) r x ↔ r = intMax ∧ b < x := by
          simp only [RunsOver, hb, Option.some.injEq, exists_eq_left']
          constructor
          · exact fun h => h.2
          · exact fun h => ⟨by omega, h⟩
        rw [hover'] at hright hnone
        exact ⟨fun h => .right hinc hbounds ha hax heq (hright h), fun h => by rw [heq, hnone h]; rfl⟩
    · rw [if_pos rfl] at heq
      refine ⟨fun _ => ⟨_, heq, ?_, fun _ => ⟨hbounds.1, hbounds.2, ha⟩, fun h => ?_⟩, fun h => ?_⟩
      · intro i hi
        rw [List.mem_singleton.mp hi]
        exact hbounds
      · exact absurd ⟨mid, hbounds.1, hbounds.2, ha⟩ h
      · omega
    · have hne : a ≠ x := Int.ne_of_gt hax
      rw [if_neg hne, if_pos hax] at heq
      obtain ⟨hright, -⟩ := binarySearch_spec hinc (r := mid - 1) (x := x) hl (by omega) (by omega)
      have hover' : ¬ RunsOver arr l (mid - 1) x := fun h => by have := h.2.1; omega
      exact ⟨fun _ => .left hinc hbounds ha hax heq (hright hover'), fun h => by omega⟩
  · have heq : binarySearch arr l r x = some ⟨-1, []⟩ := by rw [binarySearch, if_neg hle]
    refine ⟨fun _ => ⟨_, heq, fun i hi => (nomatch hi), fun h => ?_, fun _ => rfl⟩, fun h => absurd h.1 hle⟩
    obtain ⟨i, hli, hir, -⟩ := h
    omega
termination_by (r + 1 - l).toNat

/-! ### The program -/

theorem asList_increasing : asList.Pairwise (· < ·) := by
  rw [asList, List.pairwise_map]
  exact List.pairwise_lt_range.imp fun h => by omega

@[simp] theorem length_asList : asList.length = maxCnt := by simp [asList]

theorem elementAt_asList {i v : Int} :
    elementAt asList i = some v ↔ 0 ≤ i ∧ i < maxCnt ∧ v = i + 1 := by
  unfold elementAt asList
  by_cases hpos : 0 ≤ i
  · rw [if_pos hpos, List.getElem?_map, Option.map_eq_some_iff]
    constructor
    · rintro ⟨k, hk, rfl⟩
      obtain ⟨hlt, rfl⟩ := List.getElem?_eq_some_iff.mp hk
      have hlt' : i.toNat < maxCnt := by simpa using hlt
      rw [List.getElem_range]
      omega
    · rintro ⟨-, hlt, rfl⟩
      exact ⟨i.toNat, List.getElem?_range (by omega), by omega⟩
  · simp [hpos]

theorem mem_asList {v : Int} : v ∈ asList ↔ 1 ≤ v ∧ v ≤ maxCnt := by
  rw [asList, List.mem_map]
  constructor
  · rintro ⟨k, hk, rfl⟩
    have hlt : k < maxCnt := List.mem_range.mp hk
    omega
  · rintro ⟨hmin, hmax⟩
    exact ⟨(v - 1).toNat, List.mem_range.mpr (by omega), by omega⟩

/-- The search of the program is right for every number. -/
theorem searchRight_asList (x : Int) : SearchRight asList 0 (maxCnt - 1) x := by
  have hmax : (maxCnt : Int) - 1 < intMax := by decide
  refine (binarySearch_spec asList_increasing (Int.le_refl 0) ?_ (Int.le_of_lt hmax)).1 ?_
  · rw [length_asList]
    omega
  · exact fun h => absurd h.2.1 (Int.ne_of_lt hmax)

/-- The index of a number of the list is the number before it. -/
theorem binarySearch_asList {x : Int} (hx : x ∈ asList) :
    ∃ s, binarySearch asList 0 (maxCnt - 1) x = some s ∧ s.index = x - 1 := by
  obtain ⟨s, hs, -, hfound, -⟩ := searchRight_asList x
  obtain ⟨hmin, hmax⟩ := mem_asList.mp hx
  have hocc : Occurs asList 0 (maxCnt - 1) x :=
    ⟨x - 1, by omega, by omega, elementAt_asList.mpr ⟨by omega, by omega, by omega⟩⟩
  obtain ⟨-, -, helem⟩ := hfound hocc
  obtain ⟨-, -, hval⟩ := elementAt_asList.mp helem
  exact ⟨s, hs, by omega⟩

/-- The program prints index 0 for every argument. -/
theorem main_some (word : List Char) :
    main (some word) = some [.presentAt 0, .valueFound (atoi word), .workDone] := by
  obtain ⟨s, hs, -⟩ := searchRight_asList (atoi word)
  simp [main, hs]

/-- The program says that the element is present exactly when the number is in the list, and then
    prints the index that the search has returned. -/
def MainRight (word : List Char) (n : Int) : Prop :=
  ∃ out s, main (some word) = some out ∧ binarySearch asList 0 (maxCnt - 1) (atoi word) = some s ∧
    ((∃ i, Line.presentAt i ∈ out) ↔ n ∈ asList) ∧ ∀ i, Line.presentAt i ∈ out → i = s.index

theorem mainRight_iff {word : List Char} {n : Int} (hword : IsInteger word n) :
    MainRight word n ↔ n = 1 := by
  have hprinted : ∀ i, Line.presentAt i ∈ [Line.presentAt 0, .valueFound (atoi word), .workDone] ↔
      i = 0 := by
    intro i
    simp
  have hatoi : n ∈ asList → atoi word = n := by
    intro hn
    obtain ⟨hmin, hmax⟩ := mem_asList.mp hn
    have hcnt : (maxCnt : Int) < 2 ^ 31 := by decide
    exact atoi_of_isInteger hword (by omega) (by omega)
  unfold MainRight
  rw [main_some]
  constructor
  · rintro ⟨out, s, hout, hs, hpresent, hindex⟩
    cases hout
    have hn : n ∈ asList := hpresent.mp ⟨0, (hprinted 0).mpr rfl⟩
    obtain ⟨s', hs', hval⟩ := binarySearch_asList hn
    rw [hatoi hn] at hs
    obtain rfl := Option.some.inj (hs.symm.trans hs')
    have hzero := hindex 0 ((hprinted 0).mpr rfl)
    omega
  · rintro rfl
    have hn : (1 : Int) ∈ asList := mem_asList.mpr ⟨Int.le_refl 1, by decide⟩
    obtain ⟨s, hs, hval⟩ := binarySearch_asList hn
    refine ⟨_, s, rfl, by rw [hatoi hn]; exact hs, ?_, ?_⟩
    · exact iff_of_true ⟨0, (hprinted 0).mpr rfl⟩ hn
    · intro i hi
      rw [(hprinted i).mp hi, hval]
      rfl

/-- `binarySearch` is right between bounds of an increasing array exactly when it does not run over,
    and the program exactly for the number 1. -/
theorem arrayTest_right_iff {arr : List Int} {l r x : Int} (hinc : arr.Pairwise (· < ·)) (hl : 0 ≤ l)
    (hr : r < arr.length) (hmax : r ≤ intMax) {word : List Char} {n : Int} (hword : IsInteger word n) :
    (SearchRight arr l r x ↔ ¬ RunsOver arr l r x) ∧ (MainRight word n ↔ n = 1) := by
  obtain ⟨hright, hnone⟩ := binarySearch_spec hinc hl hr hmax (x := x)
  refine ⟨⟨?_, hright⟩, mainRight_iff hword⟩
  rintro ⟨s, hs, -⟩ hover
  rw [hnone hover] at hs
  cases hs

theorem arrayTest_right_iff_five : SearchRight [2, 3, 5] 0 2 5 ∧ ¬ MainRight ['5'] 5 := by
  have hover : ¬ RunsOver [2, 3, 5] 0 2 5 := fun h => absurd h.2.1 (by decide)
  have hfive : IsInteger ['5'] 5 := .plain (by decide) (List.all_eq_true.mp (by decide))
  have hinc : [(2 : Int), 3, 5].Pairwise (· < ·) := by decide
  obtain ⟨hsearch, hmain⟩ := arrayTest_right_iff (l := 0) (r := 2) (x := 5) hinc (by decide)
    (by decide) (by decide) hfive
  refine ⟨hsearch.mpr hover, ?_⟩
  rw [hmain]
  decide

/-- For 5 the search returns index 4 and the program prints index 0. -/
theorem main_five_wrong : IsInteger ['5'] 5 ∧ ¬ MainRight ['5'] 5 := by
  have hfive : IsInteger ['5'] 5 := .plain (by decide) (List.all_eq_true.mp (by decide))
  refine ⟨hfive, ?_⟩
  rw [mainRight_iff hfive]
  decide

end SrxNote.Programs.ArrayTest
