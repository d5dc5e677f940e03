import SrxNote.Misc.Strtol

/-!
# The array lookup program

`array_test.c`: a recursive binary search, and the program that looks up the
number on its command line in the list 1, 2, .. `MAX_CNT`. An `int` has 32 bits; a
calculation that overflows and a read outside the array are undefined.
-/

namespace SrxNote.Programs.ArrayTest

open Text

def intMin : Int := -2 ^ 31

def intMax : Int := 2 ^ 31 - 1

def IsInt (z : Int) : Prop := intMin ≤ z ∧ z ≤ intMax

instance (z : Int) : Decidable (IsInt z) := inferInstanceAs (Decidable (_ ∧ _))

def elementAt (arr : List Int) (i : Int) : Option Int :=
  if 0 ≤ i then arr[i.toNat]? else none

/-- What a search returns, and the indices it has read in their order. -/
structure Search where
  index : Int
  reads : List Int
  deriving DecidableEq, Repr

/-- The search that has read `arr[mid]` twice before it went on. -/
def Search.after (mid : Int) (s : Search) : Search := ⟨s.index, mid :: mid :: s.reads⟩

def binarySearch (arr : List Int) (l r x : Int) : Option Search :=
  if r ≥ l then
    let mid := l + (r - l) / 2
    if IsInt (r - l) ∧ IsInt mid then
      match elementAt arr mid with
      | none => none
      | some a =>
          if a = x then some ⟨mid, [mid]⟩
          else if a > x then
            if IsInt (mid - 1) then (binarySearch arr l (mid - 1) x).map (Search.after mid) else none
          else
            if IsInt (mid + 1) then (binarySearch arr (mid + 1) r x).map (Search.after mid) else none
    else none
  else some ⟨-1, []⟩
termination_by (r + 1 - l).toNat
decreasing_by all_goals omega

/-- The lines that the program prints. -/
inductive Line where
  | notPresent
  | presentAt (index : Int)
  | valueFound (value : Int)
  | workDone
  deriving DecidableEq, Repr

def Line.text : Line → String
  | .notPresent => "Element is not present in array\n"
  | .presentAt index => "Element is present at index " ++ toString index ++ "\n"
  | .valueFound value => " value found : " ++ toString value ++ "\n"
  | .workDone => "Work Done \n"

def maxCnt : Nat := 100000

/-- `as_list[i] = i+1`. -/
def asList : List Int := (List.range maxCnt).map fun i : Nat => (i : Int) + 1

/-- With `BINARY_SEARCH`; the argument is `argv[1]`, when there is one. -/
def main (arg : Option (List Char)) : Option (List Line) := do
  let find := arg.getD ['1', '0', '0']
  let findVal := atoi find
  let found : Int := 0
  let n : Int := maxCnt
  let x := findVal
  let _ ← binarySearch asList 0 (n - 1) x
  -- `result = found` writes over the index that was returned
  let result := found
  let found := if result ≠ -1 then 1 else found
  some ([if result = -1 then .notPresent else .presentAt result] ++
    (if found ≠ 0 then [.valueFound findVal] else []) ++ [.workDone])

end SrxNote.Programs.ArrayTest
