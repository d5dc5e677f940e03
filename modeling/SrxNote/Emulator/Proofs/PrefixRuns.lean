import SrxNote.Emulator.Proofs.PrefixOrder

/-!
# Dry runs and real runs

A dry run with output and a run that writes a file emit the same prefixes, the
first ones of the list of all. They are as many as were wanted, unless none was
wanted: the first prefix is emitted before the number is looked at.
-/

namespace SrxNote.Emulator.PrefixLoops
open SrxNote.Text

/-- A dry run with output, or a run with a file. -/
def Settings.Emits (c : Settings) : Prop :=
  (c.dryRun = true ∧ c.output = true) ∨ (c.dryRun = false ∧ c.hasFile = true)

def Printed.route? : Printed → Option (IpAttr × Nat)
  | .route ip n => some (ip, n)
  | _ => none

/-- The prefixes that a dry run has printed, or that were written. -/
def Settings.emitted (c : Settings) (out : Out) : List (IpAttr × Nat) :=
  if c.dryRun then out.printed.filterMap Printed.route? else out.written

variable {c : Settings}

theorem Settings.Emits.usable (h : c.Emits) : c.Usable := by
  rcases h with ⟨hdry, -⟩ | ⟨-, hfile⟩
  · exact .inl hdry
  · exact .inr hfile

theorem emitted_eq (h : c.Emits) (keep : Bool) (numPrefix counter : Int) (ps : List (IpAttr × Nat)) :
    c.emitted ⟨keep, numPrefix, counter, (initOut c numPrefix).printed ++ ps.flatMap c.lines,
      ps.flatMap c.toFile⟩ = ps := by
  have hfirst : (initOut c numPrefix).printed.filterMap Printed.route? = [] := by
    unfold initOut
    split <;> rfl
  rcases h with ⟨hdry, hout⟩ | ⟨hdry, -⟩
  · have hline : c.lines = fun p => [.route p.1 p.2] := by
      funext p
      simp [Settings.lines, hdry, hout]
    simp only [Settings.emitted, hdry, if_true, List.filterMap_append, hfirst, hline,
      List.nil_append, List.filterMap_flatMap]
    exact List.flatMap_singleton' ps
  · have hfile : c.toFile = fun p => [p] := by
      funext p
      simp [Settings.toFile, hdry]
    simp [Settings.emitted, hdry, hfile]

/-- What a run emits, and its counter. -/
theorem generatePrefix_emitted (h : c.Emits) (i numPrefix : Int) {fuel : Nat}
    (hfuel : enoughFuel ≤ fuel) :
    ∃ out, generatePrefix c fuel i numPrefix = some out ∧
      c.emitted out = emittedPrefixes i numPrefix ∧
      out.counter = (emittedPrefixes i numPrefix).length := by
  obtain ⟨keep, heq⟩ := generatePrefix_out h.usable i numPrefix hfuel
  exact ⟨_, heq, emitted_eq h _ _ _ _, rfl⟩

/-- The number of all prefixes of a node. -/
def blockCount : Int := 2 ^ 24 - 1

theorem length_emittedPrefixes {i : Int} (hi : 2 ≤ i) (numPrefix : Int) :
    ((emittedPrefixes i numPrefix).length : Int) = min (max 1 numPrefix) blockCount := by
  rw [emittedPrefixes, stillEmitted, List.length_take, length_allPrefixes hi, blockCount]
  omega

theorem emittedPrefixes_eq_take {i numPrefix : Int} (hi : 2 ≤ i) (hnum : 1 ≤ numPrefix) :
    emittedPrefixes i numPrefix = (allPrefixes i).take (min numPrefix blockCount).toNat := by
  have hlen := length_allPrefixes hi
  have hmax : max 1 numPrefix.toNat = numPrefix.toNat := by omega
  rw [emittedPrefixes, stillEmitted, hmax]
  rcases Int.le_total numPrefix blockCount with hle | hge
  · rw [Int.min_eq_left hle]
  · have hall : blockCount.toNat = (allPrefixes i).length := by rw [hlen]; rfl
    rw [Int.min_eq_right hge, List.take_of_length_le (by unfold blockCount at hge; omega),
      hall, List.take_length]

/-- A run for a node and at least one prefix emits the first prefixes of the list of all, as many as
    were wanted; runs for two nodes emit no prefix in common. -/
theorem generatePrefix_enumerates (h : c.Emits) {i numPrefix : Int} (hi : 2 ≤ i) (hnum : 1 ≤ numPrefix)
    {fuel : Nat} (hfuel : enoughFuel ≤ fuel) :
    ∃ out ps, generatePrefix c fuel i numPrefix = some out ∧ IsBlockList i ps ∧
      c.emitted out = ps.take (min numPrefix blockCount).toNat ∧
      ((c.emitted out).length : Int) = min numPrefix blockCount ∧
      (c.emitted out).Nodup ∧ (∀ p ∈ c.emitted out, NoHostBit p) ∧
      ∀ (c' : Settings) (fuel' : Nat) (j numPrefix' : Int) (out' : Out), c'.Emits →
        enoughFuel ≤ fuel' → 2 ≤ j → j ≠ i → generatePrefix c' fuel' j numPrefix' = some out' →
        (c.emitted out).Disjoint (c'.emitted out') := by
  obtain ⟨out, hout, hemitted, -⟩ := generatePrefix_emitted h i numPrefix hfuel
  have hlist := isBlockList_allPrefixes hi
  have htake := emittedPrefixes_eq_take hi hnum
  have hmem : ∀ p ∈ emittedPrefixes i numPrefix, IsBlockPrefix i p :=
    fun p hp => (hlist.mem_iff p).mp (List.mem_of_mem_take hp)
  refine ⟨out, allPrefixes i, hout, hlist, ?_, ?_, ?_, ?_, ?_⟩
  · rw [hemitted, htake]
  · rw [hemitted, length_emittedPrefixes hi, Int.max_eq_right hnum]
  · rw [hemitted]
    exact (List.take_sublist _ _).nodup hlist.nodup
  · rw [hemitted]
    intro p hp
    exact (hmem p hp).2.2.2.2.2.2
  · intro c' fuel' j numPrefix' out' h' hfuel' hj hne hout'
    obtain ⟨out'', hout'', hemitted', -⟩ := generatePrefix_emitted h' j numPrefix' hfuel'
    obtain rfl := Option.some.inj (hout'.symm.trans hout'')
    rw [hemitted, hemitted']
    intro p hp hp'
    have hfirst := (hmem p hp).1
    have hother := (((isBlockList_allPrefixes hj).mem_iff p).mp (List.mem_of_mem_take hp')).1
    exact hne (hother.symm.trans hfirst)

theorem generatePrefix_enumerates_five :
    ∃ out ps, generatePrefix ⟨true, true, false⟩ 257 2 5 = some out ∧ IsBlockList 2 ps ∧
      (Settings.mk true true false).emitted out = ps.take 5 := by
  obtain ⟨out, ps, hout, hlist, htake, -⟩ := @generatePrefix_enumerates ⟨true, true, false⟩
    (.inl ⟨rfl, rfl⟩) 2 5 (by decide) (by decide) 257 (Nat.le_refl enoughFuel)
  exact ⟨out, ps, hout, hlist, htake⟩

/-! ### The two kinds of runs -/

/-- The text of a file. -/
def Out.fileText (mode : Mode) (nexthop : List Char) (out : Out) : List Char :=
  out.written.flatMap fun p => prefixLine mode nexthop p.1 p.2

/-- The text on the terminal. -/
def Out.printedText (mode : Mode) (nexthop : List Char) (out : Out) : List Char :=
  out.printed.flatMap (Printed.text mode nexthop)

/-- A dry run with output and a run with a file emit the same prefixes, in either mode, as many as were
    wanted; the counters say so. -/
def RunsAgree (fuel : Nat) (i numPrefix : Int) : Prop :=
  ∀ output hasFile, ∃ dry real ps,
    generatePrefix ⟨true, true, hasFile⟩ fuel i numPrefix = some dry ∧
    generatePrefix ⟨false, output, true⟩ fuel i numPrefix = some real ∧
    (Settings.mk true true hasFile).emitted dry = ps ∧ (Settings.mk false output true).emitted real = ps ∧
    (∀ mode nexthop,
      dry.printedText mode nexthop = (initOut ⟨true, true, hasFile⟩ numPrefix).printedText mode nexthop ++
        ps.flatMap (fun p => routeLine mode nexthop p.1 p.2) ∧
      real.fileText mode nexthop = ps.flatMap fun p => prefixLine mode nexthop p.1 p.2) ∧
    (ps.length : Int) = min numPrefix blockCount ∧
    dry.counter = min numPrefix blockCount ∧ real.counter = min numPrefix blockCount

theorem dryRun_printedText (mode : Mode) (nexthop : List Char) (hasFile : Bool)
    (ps : List (IpAttr × Nat)) :
    (ps.flatMap (Settings.mk true true hasFile).lines).flatMap (Printed.text mode nexthop) =
      ps.flatMap fun p => routeLine mode nexthop p.1 p.2 := by
  rw [List.flatMap_assoc]
  congr 1
  funext p
  exact List.append_nil _

theorem realRun_written (output : Bool) (ps : List (IpAttr × Nat)) :
    ps.flatMap (Settings.mk false output true).toFile = ps :=
  List.flatMap_singleton' ps

/-- The two runs agree exactly when one prefix at least is wanted. -/
theorem runs_agree_iff {i numPrefix : Int} (hi : 2 ≤ i) (hnum : 0 ≤ numPrefix) {fuel : Nat}
    (hfuel : enoughFuel ≤ fuel) : RunsAgree fuel i numPrefix ↔ 1 ≤ numPrefix := by
  have hlen := length_emittedPrefixes hi numPrefix
  constructor
  · intro h
    obtain ⟨dry, real, ps, hdry, -, hps, -, -, hcount, -⟩ := h false false
    have hemits : (Settings.mk true true false).Emits := .inl ⟨rfl, rfl⟩
    obtain ⟨out, hout, hemitted, -⟩ := generatePrefix_emitted hemits i numPrefix hfuel
    obtain rfl := Option.some.inj (hdry.symm.trans hout)
    rw [← hps, hemitted, hlen] at hcount
    unfold blockCount at hcount
    omega
  · intro hone output hasFile
    have hmax : max 1 numPrefix = numPrefix := Int.max_eq_right hone
    rw [hmax] at hlen
    have hdry : (Settings.mk true true hasFile).Emits := .inl ⟨rfl, rfl⟩
    have hreal : (Settings.mk false output true).Emits := .inr ⟨rfl, rfl⟩
    obtain ⟨keep, hdryRun⟩ := generatePrefix_out hdry.usable i numPrefix hfuel
    obtain ⟨keep', hrealRun⟩ := generatePrefix_out hreal.usable i numPrefix hfuel
    refine ⟨_, _, emittedPrefixes i numPrefix, hdryRun, hrealRun, emitted_eq hdry _ _ _ _,
      emitted_eq hreal _ _ _ _, ?_, hlen, hlen, hlen⟩
    intro mode nexthop
    constructor
    · rw [Out.printedText, List.flatMap_append, dryRun_printedText]
      rfl
    · rw [Out.fileText, realRun_written]

theorem runs_agree_ten : RunsAgree 257 2 10 :=
  (runs_agree_iff (by decide) (by decide) (Nat.le_refl enoughFuel)).mpr (by decide)

/-- Where no prefix is wanted one is emitted, and the counter is 1. -/
theorem runs_disagree_zero :
    (∃ out, generatePrefix ⟨false, false, true⟩ 257 2 0 = some out ∧
      out.written = [(⟨2, 0, 0, 0⟩, 8)] ∧ out.counter = 1) ∧ ¬ RunsAgree 257 2 0 := by
  have hreal : (Settings.mk false false true).Emits := .inr ⟨rfl, rfl⟩
  have hone : emittedPrefixes 2 0 = [(⟨2, 0, 0, 0⟩, 8)] := rfl
  obtain ⟨out, hout, hemitted, hcounter⟩ := generatePrefix_emitted hreal 2 0 (Nat.le_refl enoughFuel)
  rw [hone] at hemitted hcounter
  refine ⟨⟨out, hout, hemitted, hcounter⟩, ?_⟩
  rw [@runs_agree_iff 2 0 (by decide) (by decide) 257 (Nat.le_refl enoughFuel)]
  decide

/-! ### The file of a node -/

/-- The states of `Emulator.generatePrefix` and of the loops that write a file. -/
structure SameFile (mode : Mode) (nexthop : List Char) (maxNum : Int) (st : IPstat) (out : Out) :
    Prop where
  keep : st.keep = out.keep
  counter : st.counter = out.counter
  maxNum : out.maxNum = maxNum
  text : st.nodeFile = out.fileText mode nexthop

theorem SameFile.step {mode : Mode} {nexthop : List Char} {maxNum : Int} {st : IPstat} {out : Out}
    (h : SameFile mode nexthop maxNum st out) (p : IpAttr × Nat) :
    SameFile mode nexthop maxNum (Emulator.printIPaddr maxNum mode nexthop st p.1 p.2)
      (printIPaddr ⟨false, false, true⟩ p.1 p.2 out) := by
  obtain ⟨keep, counter, nodeFile⟩ := st
  obtain ⟨rfl, rfl, rfl, rfl⟩ := h
  unfold Emulator.printIPaddr printIPaddr
  by_cases hkeep : out.keep = true
  · by_cases hlast : out.counter + 1 ≥ out.maxNum <;>
      constructor <;> simp [hkeep, hlast, Out.fileText]
  · by_cases hlast : out.counter ≥ out.maxNum <;>
      constructor <;> simp [hkeep, hlast, Out.fileText]

theorem SameFile.run {mode : Mode} {nexthop : List Char} {maxNum : Int} (ps : List (IpAttr × Nat))
    {st : IPstat} {out : Out} (h : SameFile mode nexthop maxNum st out) :
    SameFile mode nexthop maxNum
      (ps.foldl (fun st p => Emulator.printIPaddr maxNum mode nexthop st p.1 p.2) st)
      (printPrefixes ⟨false, false, true⟩ ps out) := by
  induction ps generalizing st out with
  | nil => exact h
  | cons p ps ih => exact ih (h.step p)

/-- The text of a node's file is what the loops write. -/
theorem generatePrefix_refines (i numPrefix : Int) (mode : Mode) (nexthop : List Char) {fuel : Nat}
    (hfuel : enoughFuel ≤ fuel) :
    ∃ out, generatePrefix ⟨false, false, true⟩ fuel i numPrefix = some out ∧
      Emulator.generatePrefix i numPrefix mode nexthop = out.fileText mode nexthop ∧
      out.written = emittedPrefixes i numPrefix := by
  have husable : (Settings.mk false false true).Usable := .inr rfl
  have hinit : SameFile mode nexthop numPrefix ⟨true, 0, []⟩ (initOut ⟨false, false, true⟩ numPrefix) :=
    ⟨rfl, rfl, rfl, rfl⟩
  have hsame := hinit.run (allPrefixes i)
  obtain ⟨out, hout, hemitted, -⟩ := generatePrefix_emitted (.inr ⟨rfl, rfl⟩) i numPrefix hfuel
    (c := ⟨false, false, true⟩)
  have heq := generatePrefix_eq husable i numPrefix hfuel
  obtain rfl := Option.some.inj (hout.symm.trans heq)
  refine ⟨_, heq, ?_, hemitted⟩
  rw [← hsame.text, Emulator.generatePrefix, allPrefixes, List.foldl_flatMap]
  simp only [List.foldl_map]
  rfl

end SrxNote.Emulator.PrefixLoops
