import SrxNote.Misc.Strtol

/-!
# Looking up the relationship of two ASes

`fileOpenExample_with_strsep.c`: `check_AsRelationship` reads a file of lines
`<provider-as>|<customer-as>|-1` and `<peer-as>|<peer-as>|0|<source>` and stops at
the first one that names the two ASes. A write outside `field` and the conversion
of a NULL pointer are undefined. The file is `none` when it cannot be opened.
-/

namespace SrxNote.Programs.AsRelationship

open Text

inductive AsRelDir where
  | upstream
  | downstream
  | unknownstream
  deriving DecidableEq, Repr

def numFields : Nat := 5

/-- The size of `buf`. -/
def bufSize : Nat := 1024

/-- A `char *`: NULL or a string. -/
abbrev CharPtr := Option (List Char)

/-- `char *field[NUM_FIELDS]`. -/
abbrev Fields := Vector CharPtr numFields

/-- `fgets` for a buffer with room for so many characters: what is read, and the rest of the file. -/
def fgets : Nat → List Char → List Char × List Char
  | 0, file => ([], file)
  | _ + 1, [] => ([], [])
  | room + 1, c :: file =>
      if c = '\n' then ([c], file)
      else (c :: (fgets room file).1, (fgets room file).2)

/-- The string in a buffer ends before its first NUL. -/
def cString (buf : List Char) : List Char := buf.takeWhile (· ≠ '\x00')

/-- The delimiters `"|\n"`. -/
def isDelimiter (c : Char) : Bool := c = '|' ∨ c = '\n'

/-- `strsep(&s, delimiters)`: the token, and the new value of `s`. -/
def strsep : CharPtr → CharPtr × CharPtr
  | none => (none, none)
  | some s =>
      (some (s.takeWhile fun c => ¬ isDelimiter c),
        match s.dropWhile fun c => ¬ isDelimiter c with
        | [] => none
        | _ :: rest => some rest)

/-- The loop over the fields from index `i` on: the writes `field[i] = ..` in their order. The
    assignment comes before the test of the index. -/
def splitFields (s : CharPtr) (i : Nat) : List (Nat × CharPtr) :=
  (i, (strsep s).1) ::
    if (strsep s).1 ≠ none ∧ i < numFields then splitFields (strsep s).2 (i + 1) else []
termination_by numFields - i

/-- The array after the writes into it. -/
def applyWrites (field : Fields) (writes : List (Nat × CharPtr)) : Fields :=
  writes.foldl (fun field w => field.setIfInBounds w.1 w.2) field

/-- `strtoul(field[j], NULL, 10)` as a `uint32_t`. -/
def convert (field : Fields) (j : Nat) : Option Nat :=
  field[j]?.join.map fun s => strtoul s % 2 ^ 32

/-- The fields of a line, and its provider, customer and mark. -/
def splitLine (field : Fields) (line : List Char) : Option (Fields × Nat × Nat × Nat) := do
  let writes := splitFields (some line) 0
  if ∀ w ∈ writes, w.1 < numFields then
    let field := applyWrites field writes
    let providerAs ← convert field 0
    let customerAs ← convert field 1
    let option ← convert field 2
    some (field, providerAs, customerAs, option)
  else none

theorem length_fgets (room : Nat) (file : List Char) :
    (fgets room file).1.length + (fgets room file).2.length = file.length := by
  induction room generalizing file with
  | zero => simp [fgets]
  | succ room ih =>
      cases file with
      | nil => rfl
      | cons c file =>
          rw [fgets]
          split
          · simp
            omega
          · have hrest := ih file
            simp only [List.length_cons]
            omega

theorem length_fgets_rest (c : Char) (file : List Char) :
    (fgets (bufSize - 1) (c :: file)).2.length < (c :: file).length := by
  have hroom : bufSize - 1 = 1022 + 1 := rfl
  rw [hroom, fgets]
  split
  · simp
  · have hrest := length_fgets 1022 file
    simp only [List.length_cons]
    omega

/-- The loop over the lines of the file. -/
def checkLines (field : Fields) (as1 as2 : Nat) (file : List Char) : Option AsRelDir :=
  match file with
  | [] => some .unknownstream
  | c :: file =>
      let buf := (fgets (bufSize - 1) (c :: file)).1
      let rest := (fgets (bufSize - 1) (c :: file)).2
      if (cString buf).head?.any Char.isDigit then
        -- the mark is read, and not used
        match splitLine field (cString buf) with
        | none => none
        | some (field, providerAs, customerAs, _option) =>
            if providerAs = as1 ∧ customerAs = as2 then some .upstream
            else if providerAs = as2 ∧ customerAs = as1 then some .downstream
            else checkLines field as1 as2 rest
      else checkLines field as1 as2 rest
termination_by file.length
decreasing_by all_goals exact length_fgets_rest c file

/-- `fclose` of a file that was not opened is undefined; `field` has no initial values. -/
def checkAsRelationship (field : Fields) (file : CharPtr) (as1 as2 : Nat) : Option AsRelDir :=
  file.bind (checkLines field as1 as2)

end SrxNote.Programs.AsRelationship
