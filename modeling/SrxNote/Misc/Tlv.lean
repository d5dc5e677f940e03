import Mathlib.Data.List.Basic

/-!
# Type, length, value

Sequences of elements that are a type octet, a length octet and a value of that many
octets, and a reader that walks over them. A step of the reader is given the stream
from the value on, so it can look behind the value; the reader goes on behind the
value however much the step has read. On the octets of a sequence the reader is a run
of the steps over the elements (`walk_sequence`).
-/

namespace SrxNote

/-- A type, and a value whose length fits the length octet. -/
structure Tlv where
  type : UInt8
  value : List UInt8
  length_lt : value.length < 256

namespace Tlv

variable {σ : Type}

/-- The length octet. -/
def length (t : Tlv) : UInt8 := UInt8.ofNat t.value.length

/-- The octets of an element. -/
def octets (t : Tlv) : List UInt8 := t.type :: t.length :: t.value

/-- The octets of elements, one behind the other. -/
def sequence (ts : List Tlv) : List UInt8 := ts.flatMap octets

/-- The state, also where the reader has given up. -/
def stateOf : Except σ σ → σ
  | .ok st => st
  | .error st => st

/-- Read elements until `length` octets are behind. An element that does not fit gives up. -/
def walk (step : σ → UInt8 → UInt8 → List UInt8 → Except σ σ) (st : σ) (s : List UInt8) (length : Nat) :
    Except σ σ :=
  if length = 0 then .ok st
  else
    match s with
    | type :: len :: s =>
        if length < 2 + len.toNat then .error st
        else
          match step st type len s with
          | .ok st' => walk step st' (s.drop len.toNat) (length - (2 + len.toNat))
          | .error st' => .error st'
    | _ => .error st
termination_by length
decreasing_by omega

/-- The steps over elements, with the octets that follow the last one. -/
def run (step : σ → UInt8 → UInt8 → List UInt8 → Except σ σ) (st : σ) :
    List Tlv → List UInt8 → Except σ σ
  | [], _ => .ok st
  | t :: ts, rest =>
      match step st t.type t.length (t.value ++ (sequence ts ++ rest)) with
      | .ok st' => run step st' ts rest
      | .error st' => .error st'

/-- The elements, each with all the octets behind it. -/
def positions : List Tlv → List UInt8 → List (Tlv × List UInt8)
  | [], _ => []
  | t :: ts, rest => (t, sequence ts ++ rest) :: positions ts rest

/-- Those that a run comes to; the last one may be where it gives up. -/
def visits (step : σ → UInt8 → UInt8 → List UInt8 → Except σ σ) (st : σ) :
    List Tlv → List UInt8 → List (Tlv × List UInt8)
  | [], _ => []
  | t :: ts, rest =>
      (t, sequence ts ++ rest) ::
        match step st t.type t.length (t.value ++ (sequence ts ++ rest)) with
        | .ok st' => visits step st' ts rest
        | .error _ => []

@[simp] theorem stateOf_ok (st : σ) : stateOf (.ok st) = st := rfl

@[simp] theorem sequence_nil : sequence [] = [] := rfl

@[simp] theorem sequence_cons (t : Tlv) (ts : List Tlv) : sequence (t :: ts) = t.octets ++ sequence ts :=
  List.flatMap_cons

@[simp] theorem sequence_append (ts us : List Tlv) : sequence (ts ++ us) = sequence ts ++ sequence us :=
  List.flatMap_append

theorem toNat_length (t : Tlv) : t.length.toNat = t.value.length := by
  rw [length, UInt8.toNat_ofNat']
  exact Nat.mod_eq_of_lt t.length_lt

@[simp] theorem octets_length (t : Tlv) : t.octets.length = 2 + t.value.length := by
  rw [octets, List.length_cons, List.length_cons]
  omega

theorem octets_length_le {ts : List Tlv} {t : Tlv} (h : t ∈ ts) :
    t.octets.length ≤ (sequence ts).length := by
  induction ts with
  | nil => cases h
  | cons u ts ih =>
      rw [sequence_cons, List.length_append]
      rcases List.mem_cons.mp h with rfl | h
      · exact Nat.le_add_right _ _
      · exact Nat.le_add_left_of_le (ih h)

theorem map_fst_positions (ts : List Tlv) (rest : List UInt8) :
    (positions ts rest).map Prod.fst = ts := by
  induction ts with
  | nil => rfl
  | cons t ts ih => rw [positions, List.map_cons, ih]

variable {step : σ → UInt8 → UInt8 → List UInt8 → Except σ σ}

/-- One turn of the reader on the octets of an element. -/
theorem walk_octets (st : σ) (t : Tlv) (s : List UInt8) (length : Nat) :
    walk step st (t.octets ++ s) (t.octets.length + length) =
      match step st t.type t.length (t.value ++ s) with
      | .ok st' => walk step st' s length
      | .error st' => .error st' := by
  rw [octets_length]
  change walk step st (t.type :: t.length :: (t.value ++ s)) _ = _
  have hfit : ¬ 2 + t.value.length + length < 2 + t.length.toNat := by
    rw [toNat_length]
    omega
  have hleft : 2 + t.value.length + length - (2 + t.length.toNat) = length := by
    rw [toNat_length]
    omega
  rw [walk, if_neg (by omega), if_neg hfit, hleft, toNat_length, List.drop_left]

/-- **The reader on the octets of a sequence is the run over its elements.** -/
theorem walk_sequence (st : σ) (ts : List Tlv) (rest : List UInt8) :
    walk step st (sequence ts ++ rest) (sequence ts).length = run step st ts rest := by
  induction ts generalizing st with
  | nil =>
      unfold walk
      exact if_pos rfl
  | cons t ts ih =>
      rw [sequence_cons, List.length_append, List.append_assoc, walk_octets, run]
      cases step st t.type t.length (t.value ++ (sequence ts ++ rest)) with
      | ok st' => exact ih st'
      | error st' => rfl

theorem run_append (st : σ) (ts us : List Tlv) (rest : List UInt8) :
    run step st (ts ++ us) rest =
      match run step st ts (sequence us ++ rest) with
      | .ok st' => run step st' us rest
      | .error st' => .error st' := by
  induction ts generalizing st with
  | nil => rfl
  | cons t ts ih =>
      rw [List.cons_append, run, run, sequence_append, List.append_assoc]
      cases step st t.type t.length (t.value ++ (sequence ts ++ (sequence us ++ rest))) with
      | ok st' => exact ih st'
      | error st' => rfl

/-- A run comes to elements of its list only. -/
theorem mem_of_mem_visits {st : σ} {ts : List Tlv} {rest : List UInt8} {v : Tlv × List UInt8}
    (h : v ∈ visits step st ts rest) : v.1 ∈ ts := by
  induction ts generalizing st with
  | nil => cases h
  | cons t ts ih =>
      rw [visits] at h
      rcases List.mem_cons.mp h with rfl | h
      · exact List.mem_cons_self
      · cases hstep : step st t.type t.length (t.value ++ (sequence ts ++ rest)) with
        | ok st' =>
            rw [hstep] at h
            exact List.mem_cons_of_mem t (ih h)
        | error st' =>
            rw [hstep] at h
            cases h

/-- A run that does not give up comes to every element. -/
theorem visits_eq_positions {st st' : σ} {ts : List Tlv} {rest : List UInt8}
    (h : run step st ts rest = .ok st') : visits step st ts rest = positions ts rest := by
  induction ts generalizing st with
  | nil => rfl
  | cons t ts ih =>
      rw [run] at h
      rw [visits, positions]
      cases hstep : step st t.type t.length (t.value ++ (sequence ts ++ rest)) with
      | ok st₁ =>
          rw [hstep] at h
          exact congrArg _ (ih h)
      | error st₁ =>
          rw [hstep] at h
          cases h

/-- Where no step on one of the elements gives up, the run does not. -/
theorem run_ok {ts : List Tlv}
    (h : ∀ st, ∀ t ∈ ts, ∀ s, ∃ st', step st t.type t.length s = .ok st')
    (st : σ) (rest : List UInt8) : ∃ st', run step st ts rest = .ok st' := by
  induction ts generalizing st with
  | nil => exact ⟨st, rfl⟩
  | cons t ts ih =>
      obtain ⟨st₁, hstep⟩ :=
        h st t List.mem_cons_self (t.value ++ (sequence ts ++ rest))
      obtain ⟨st', hrun⟩ := ih (fun st u hu => h st u (List.mem_cons_of_mem t hu)) st₁
      refine ⟨st', ?_⟩
      rw [run, hstep]
      exact hrun

/-- A test that a step can only turn to true is true at the end where it was before or where an element
    that the run comes to has turned it. -/
theorem test_run (test : σ → Bool) (sets : Tlv → List UInt8 → Bool)
    (h : ∀ st t s, test (stateOf (step st t.type t.length (t.value ++ s))) = (test st || sets t s))
    (st : σ) (ts : List Tlv) (rest : List UInt8) :
    test (stateOf (run step st ts rest)) =
      (test st || (visits step st ts rest).any fun v => sets v.1 v.2) := by
  induction ts generalizing st with
  | nil => exact (Bool.or_false _).symm
  | cons t ts ih =>
      have ht := h st t (sequence ts ++ rest)
      rw [run, visits, List.any_cons, ← Bool.or_assoc, ← ht]
      cases step st t.type t.length (t.value ++ (sequence ts ++ rest)) with
      | ok st' => exact ih st'
      | error st' => exact (Bool.or_false _).symm

end Tlv

end SrxNote
