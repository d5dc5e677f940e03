import Mathlib.Logic.Basic
import SrxNote.Srx.Peer

/-!
# Setting and testing flags

What `CHECK_FLAG` returns after `SET_FLAG` and `UNSET_FLAG`, for any of the bits.
-/

namespace SrxNote.Srx

theorem checkFlag_setFlag (value flags flag : UInt16) :
    checkFlag (setFlag value flags) flag = (checkFlag value flag || checkFlag flags flag) := by
  have hor : (value ||| flags) &&& flag = (value &&& flag) ||| (flags &&& flag) := by
    apply UInt16.toBitVec_inj.mp
    simp only [UInt16.toBitVec_and, UInt16.toBitVec_or]
    exact BitVec.and_or_distrib_right
  have hzero : (value &&& flag) ||| (flags &&& flag) = 0 ↔ value &&& flag = 0 ∧ flags &&& flag = 0 :=
    UInt16.or_eq_zero_iff
  rw [setFlag, checkFlag, checkFlag, checkFlag, hor, Bool.eq_iff_iff]
  simp only [Bool.or_eq_true, decide_eq_true_eq, ne_eq, hzero]
  exact not_and_or

theorem checkFlag_unsetFlag (value flags flag : UInt16) :
    checkFlag (unsetFlag value flags) flag = checkFlag value (~~~flags &&& flag) := by
  rw [unsetFlag, checkFlag, checkFlag, UInt16.and_assoc]

theorem checkFlag_setFlag_self {flag : UInt16} (h : flag ≠ 0) (value : UInt16) :
    checkFlag (setFlag value flag) flag = true := by
  rw [checkFlag_setFlag]
  simp [checkFlag, h]

theorem checkFlag_unsetFlag_self (value flag : UInt16) :
    checkFlag (unsetFlag value flag) flag = false := by
  rw [checkFlag_unsetFlag]
  simp [checkFlag]

/-- Setting other bits does not change a test. -/
theorem checkFlag_setFlag_of_disjoint {flags flag : UInt16} (h : flags &&& flag = 0)
    (value : UInt16) : checkFlag (setFlag value flags) flag = checkFlag value flag := by
  rw [checkFlag_setFlag]
  simp [checkFlag, h]

/-- Clearing other bits does not change a test. -/
theorem checkFlag_unsetFlag_of_disjoint {flags flag : UInt16} (h : ~~~flags &&& flag = flag)
    (value : UInt16) : checkFlag (unsetFlag value flags) flag = checkFlag value flag := by
  rw [checkFlag_unsetFlag, h]

/-- Setting a flag under a condition. -/
theorem checkFlag_ite_setFlag (value flags flag : UInt16) (c : Prop) [Decidable c] :
    checkFlag (if c then setFlag value flags else value) flag =
      (checkFlag value flag || (decide c && checkFlag flags flag)) := by
  split
  · rename_i h
    rw [checkFlag_setFlag, decide_eq_true h, Bool.true_and]
  · rename_i h
    rw [decide_eq_false h, Bool.false_and, Bool.or_false]

end SrxNote.Srx
