import SrxNote.Emulator.PrefixLoops
import SrxNote.Misc.Counting

/-!
# What the nested loops print

Each loop counts one octet up in the step of its layer and does the loops of the
layers below for each value, so that the loops together call `printIPaddr` for the
addresses of `layers`, one length after the other. They are left early when `keep`
is false, from when on `printIPaddr` does nothing.
-/

namespace SrxNote.Emulator.PrefixLoops
open SrxNote.Text SrxNote.Loop

/-- The prefixes go to the terminal or to a file. -/
def Settings.Usable (c : Settings) : Prop := c.dryRun = true ∨ c.hasFile = true

/-- The fuel that every loop needs: a pass for each value of an octet, and the last one. -/
def enoughFuel : Nat := 257

variable {c : Settings} {n : Nat}

theorem printIPaddr_idle (hc : c.Usable) (ip : IpAttr) (n : Nat) {out : Out} (h : out.keep = false) :
    printIPaddr c ip n out = out := by
  unfold printIPaddr
  rcases hc with hdry | hfile
  · simp [hdry, h]
    intro _
    rw [← h]
  · by_cases hdry : c.dryRun = true
    · simp [hdry, h]
      intro _
      rw [← h]
    · simp [hdry, hfile, h]
      intro _
      rw [← h]

/-- `printIPaddr` for one address after the other. -/
def printAll (c : Settings) (n : Nat) (ips : List IpAttr) (out : Out) : Out :=
  ips.foldl (fun out ip => printIPaddr c ip n out) out

theorem printAll_idle (hc : c.Usable) (ips : List IpAttr) {out : Out} (h : out.keep = false) :
    printAll c n ips out = out := by
  unfold printAll
  induction ips with
  | nil => rfl
  | cons ip ips ih => rw [List.foldl_cons, printIPaddr_idle hc ip n h, ih]

theorem printAll_flatMap {α : Type} (vs : List α) (f : α → List IpAttr) (out : Out) :
    printAll c n (vs.flatMap f) out = vs.foldl (fun out v => printAll c n (f v) out) out :=
  List.foldl_flatMap

/-! ### The values of an octet -/

/-- `interval`, as a natural number. -/
def stepOf (n : Nat) : Nat := 2 ^ (8 - n % 8)

theorem interval_eq (n : Nat) : interval n = (stepOf n : Int) := by
  simp [interval, stepOf]

/-- The number of values in steps of a divisor of 256. -/
theorem count_octetValues {inc m : Nat} (h : inc * m = 256) : 0 < inc ∧ 0 < m ∧ 255 / inc + 1 = m := by
  have hinc : 0 < inc := by
    by_contra hzero
    obtain rfl : inc = 0 := by omega
    omega
  have hm : 0 < m := by
    by_contra hzero
    obtain rfl : m = 0 := by omega
    omega
  refine ⟨hinc, hm, ?_⟩
  have hdiv : 255 / inc = m - 1 := by
    apply Nat.div_eq_of_lt_le
    · rw [Nat.sub_mul, Nat.mul_comm m, h]
      omega
    · rw [Nat.sub_add_cancel hm, Nat.mul_comm, h]
      omega
  omega

theorem length_octetValues {inc m : Nat} (h : inc * m = 256) : (octetValues inc).length = m := by
  obtain ⟨-, -, hcount⟩ := count_octetValues h
  rw [octetValues, List.length_map, List.length_range', hcount]

theorem counts_octetValues {inc m : Nat} (h : inc * m = 256) :
    Counts inc 255 0 (octetValues inc) := by
  obtain ⟨hinc, hm, hcount⟩ := count_octetValues h
  have hcast : (inc : Int) * m = 256 := by
    rw [← Int.natCast_mul, h]
    rfl
  have hlast : (inc : Int) * (m - 1 : Nat) = 256 - inc := by
    have hsub : ((m - 1 : Nat) : Int) = m - 1 := by omega
    rw [hsub, Int.mul_sub, hcast, Int.mul_one]
  rw [octetValues, hcount]
  exact Counts.of_range' (v := 0) (by omega) hm (by omega)

theorem length_octetValues_le {inc m : Nat} (h : inc * m = 256) {fuel : Nat}
    (hfuel : enoughFuel ≤ fuel) : (octetValues inc).length < fuel := by
  obtain ⟨hinc, -, -⟩ := count_octetValues h
  have hm : m ≤ inc * m := Nat.le_mul_of_pos_left m hinc
  rw [length_octetValues h]
  unfold enoughFuel at hfuel
  omega

theorem stepOf_mul (n : Nat) : stepOf n * 2 ^ (n % 8) = 256 := by
  have hlt : n % 8 < 8 := Nat.mod_lt n (by decide)
  rw [stepOf, ← Nat.pow_add, Nat.sub_add_cancel (Nat.le_of_lt hlt)]

/-! ### The ranges -/

/-- `ip_attr` in the loops for the length `n`: bounds, steps, and the octets below the prefix that no
    loop counts. -/
structure Ranges (n : Nat) (ip : IpRanges) : Prop where
  max1 : ip.ip1.max = 255
  max2 : ip.ip2.max = 255
  max3 : ip.ip3.max = 255
  step1 : ip.ip1.step = if n / 8 = 1 then interval n else 1
  step2 : ip.ip2.step = if n / 8 = 2 then interval n else 1
  step3 : ip.ip3.step = if n / 8 = 3 then interval n else 1
  zero1 : n / 8 = 1 ∧ n % 8 = 0 → ip.ip1.value = 0
  zero2 : n / 8 = 1 ∨ (n / 8 = 2 ∧ n % 8 = 0) → ip.ip2.value = 0
  zero3 : n / 8 ≠ 3 ∨ n % 8 = 0 → ip.ip3.value = 0

/-- The octet of a layer takes a value that its loop may give it. -/
theorem Ranges.set0 {ip : IpRanges} (h : Ranges n ip) (r : IpRange) : Ranges n { ip with ip0 := r } :=
  ⟨h.max1, h.max2, h.max3, h.step1, h.step2, h.step3, h.zero1, h.zero2, h.zero3⟩

theorem Ranges.set1 {ip : IpRanges} (h : Ranges n ip) {v : Int}
    (hv : n / 8 = 1 ∧ n % 8 = 0 → v = 0) : Ranges n { ip with ip1 := { ip.ip1 with value := v } } :=
  ⟨h.max1, h.max2, h.max3, h.step1, h.step2, h.step3, hv, h.zero2, h.zero3⟩

theorem Ranges.set2 {ip : IpRanges} (h : Ranges n ip) {v : Int}
    (hv : n / 8 = 1 ∨ (n / 8 = 2 ∧ n % 8 = 0) → v = 0) :
    Ranges n { ip with ip2 := { ip.ip2 with value := v } } :=
  ⟨h.max1, h.max2, h.max3, h.step1, h.step2, h.step3, h.zero1, hv, h.zero3⟩

theorem Ranges.set3 {ip : IpRanges} (h : Ranges n ip) {v : Int}
    (hv : n / 8 ≠ 3 ∨ n % 8 = 0 → v = 0) : Ranges n { ip with ip3 := { ip.ip3 with value := v } } :=
  ⟨h.max1, h.max2, h.max3, h.step1, h.step2, h.step3, h.zero1, h.zero2, hv⟩

/-- The lengths of the prefixes. -/
def IsLength (n : Nat) : Prop := 8 ≤ n ∧ n ≤ 31

theorem IsLength.layer (h : IsLength n) : n / 8 = 1 ∨ n / 8 = 2 ∨ n / 8 = 3 := by
  unfold IsLength at h
  omega

theorem ranges_initRanges (h : IsLength n) (i : Int) : Ranges n (initRanges n i) := by
  unfold initRanges
  rcases h.layer with hp | hp | hp <;> rw [hp] <;>
    exact ⟨rfl, rfl, rfl, by simp [hp, IpRanges.setStep], by simp [hp, IpRanges.setStep],
      by simp [hp, IpRanges.setStep], fun _ => rfl, fun _ => rfl, fun _ => rfl⟩

/-! ### The addresses of each layer -/

/-- The addresses that the loop of layer 4 goes through, and the one of layer 3 without it. -/
def addresses3 (n : Nat) (a b c : Int) : List IpAttr :=
  if n % 8 = 0 ∧ n / 8 = 3 then [⟨a, b, c, 0⟩]
  else if n / 8 = 2 then [⟨a, b, c, 0⟩]
  else (octetValues (stepOf n)).map fun d => ⟨a, b, c, d⟩

def addresses2 (n : Nat) (a b : Int) : List IpAttr :=
  if n % 8 = 0 ∧ n / 8 = 2 then [⟨a, b, 0, 0⟩]
  else if n / 8 = 1 then [⟨a, b, 0, 0⟩]
  else (octetValues (if n / 8 = 2 then stepOf n else 1)).flatMap (addresses3 n a b)

def addresses1 (n : Nat) (a : Int) : List IpAttr :=
  if n % 8 = 0 ∧ n / 8 = 1 then [⟨a, 0, 0, 0⟩]
  else (octetValues (if n / 8 = 1 then stepOf n else 1)).flatMap (addresses2 n a)

theorem layers_eq (aValues : List Int) (n : Nat) : layers aValues n = aValues.flatMap (addresses1 n) := rfl

/-! ### The loops -/

/-- The loop of layer 4 prints an address for each value of the last octet. -/
theorem layer4_spec (hc : c.Usable) (hp : n / 8 = 3) (hq : n % 8 ≠ 0) {s : Run} (hs : Ranges n s.ip)
    (hzero : s.ip.ip3.value = 0) {fuel : Nat} (hfuel : enoughFuel ≤ fuel) :
    ∃ s', layer4 c n fuel s = some s' ∧ Ranges n s'.ip ∧
      (s'.ip.ip0 = s.ip.ip0 ∧ s'.ip.ip1 = s.ip.ip1 ∧ s'.ip.ip2 = s.ip.ip2) ∧
      s'.out = printAll c n ((octetValues (stepOf n)).map fun d =>
        ⟨s.ip.ip0.value, s.ip.ip1.value, s.ip.ip2.value, d⟩) s.out := by
  have hloop : CountsUp (layer4Step c n) id
      (fun t => Ranges n t.ip ∧ t.ip.ip0 = s.ip.ip0 ∧ t.ip.ip1 = s.ip.ip1 ∧ t.ip.ip2 = s.ip.ip2)
      (fun t => t.ip.ip3.value) Run.out (stepOf n) 255
      (fun d out => printIPaddr c ⟨s.ip.ip0.value, s.ip.ip1.value, s.ip.ip2.value, d⟩ n out)
      (fun out => out.keep = false) := by
    refine ⟨?_, ?_, ?_, fun d out h => printIPaddr_idle hc _ n h⟩
    · rintro t ⟨ht, h0, h1, h2⟩ hle hkeep
      have hstep : t.ip.ip3.step = stepOf n := by rw [ht.step3, if_pos hp, interval_eq]
      refine ⟨(t.print c n).advance3, ?_, ⟨ht.set3 ?_, h0, h1, h2⟩, ?_, ?_⟩
      · rw [layer4Step, if_pos (ht.max3 ▸ hle), if_neg hkeep, if_neg (by omega), if_pos hp]
      · exact fun h => absurd h (by omega)
      · rw [← hstep]
        rfl
      · rw [← h0, ← h1, ← h2]
        rfl
    · rintro t ⟨ht, -⟩ hle hkeep
      rw [layer4Step, if_pos (ht.max3 ▸ hle), if_pos hkeep]
      rfl
    · rintro t ⟨ht, -⟩ hpast
      rw [layer4Step, if_neg (by rw [ht.max3]; exact Int.not_le.mpr hpast)]
      rfl
  have hcounts := counts_octetValues (stepOf_mul n)
  rw [← hzero] at hcounts
  obtain ⟨s', hrun, ⟨hranges, h0, h1, h2⟩, hout⟩ := hloop.run hcounts ⟨hs, rfl, rfl, rfl⟩
    (length_octetValues_le (stepOf_mul n) hfuel)
  refine ⟨s', hrun, hranges, ⟨h0, h1, h2⟩, ?_⟩
  rw [hout, printAll, List.foldl_map]

/-- The step of the loop of a layer, over which the length `n` lies or not. -/
theorem step_eq {r : IpRange} {k : Nat} (h : r.step = if n / 8 = k then interval n else 1) :
    r.step = ((if n / 8 = k then stepOf n else 1 : Nat) : Int) := by
  rw [h]
  split
  · exact interval_eq n
  · rfl

theorem layerStep_mul (n k : Nat) :
    (if n / 8 = k then stepOf n else 1) * (if n / 8 = k then 2 ^ (n % 8) else 256) = 256 := by
  split
  · exact stepOf_mul n
  · rfl

/-- Where layer 4 is not entered, layer 3 prints its own address. -/
theorem addresses3_printed (hprint : (n % 8 = 0 ∧ n / 8 = 3) ∨ n / 8 = 2) (x y z : Int) :
    addresses3 n x y z = [⟨x, y, z, 0⟩] := by
  rw [addresses3]
  rcases hprint with hq3 | hp2
  · rw [if_pos hq3]
  · rw [if_neg (by omega), if_pos hp2]

theorem layer3Step_prints {fuel : Nat} {t : Run} (ht : Ranges n t.ip) (hle : t.ip.ip2.value ≤ 255)
    (hkeep : ¬ t.out.keep = false) (hprint : (n % 8 = 0 ∧ n / 8 = 3) ∨ n / 8 = 2) :
    layer3Step c n fuel t = .next (t.print c n).advance2 := by
  rw [layer3Step, if_pos (ht.max2 ▸ hle), if_neg hkeep]
  rcases hprint with hq3 | hp2
  · rw [if_pos hq3]
  · rw [if_neg (by omega), if_pos hp2]

/-- Where layer 3 is not entered, layer 2 prints its own address. -/
theorem addresses2_printed (hprint : (n % 8 = 0 ∧ n / 8 = 2) ∨ n / 8 = 1) (x y : Int) :
    addresses2 n x y = [⟨x, y, 0, 0⟩] := by
  rw [addresses2]
  rcases hprint with hq2 | hp1
  · rw [if_pos hq2]
  · rw [if_neg (by omega), if_pos hp1]

theorem layer2Step_prints {fuel : Nat} {t : Run} (ht : Ranges n t.ip) (hle : t.ip.ip1.value ≤ 255)
    (hkeep : ¬ t.out.keep = false) (hprint : (n % 8 = 0 ∧ n / 8 = 2) ∨ n / 8 = 1) :
    layer2Step c n fuel t = .next (t.print c n).advance1 := by
  rw [layer2Step, if_pos (ht.max1 ▸ hle), if_neg hkeep]
  rcases hprint with hq2 | hp1
  · rw [if_pos hq2]
  · have hinterval : interval n = t.ip.ip1.step := by rw [ht.step1, if_pos hp1]
    rw [if_neg (by omega), if_pos hp1, hinterval]
    rfl

/-- The loop of layer 3 prints the addresses of the layers 3 and 4. -/
theorem layer3_spec (hc : c.Usable) (hn : IsLength n) (hp : n / 8 ≠ 1) (hq : ¬ (n % 8 = 0 ∧ n / 8 = 2))
    {s : Run} (hs : Ranges n s.ip) (hzero : s.ip.ip2.value = 0) {fuel : Nat}
    (hfuel : enoughFuel ≤ fuel) :
    ∃ s', layer3 c n fuel s = some s' ∧ Ranges n s'.ip ∧
      (s'.ip.ip0 = s.ip.ip0 ∧ s'.ip.ip1 = s.ip.ip1) ∧
      s'.out = printAll c n ((octetValues (if n / 8 = 2 then stepOf n else 1)).flatMap
        (addresses3 n s.ip.ip0.value s.ip.ip1.value)) s.out := by
  have hloop : CountsUp (layer3Step c n fuel) some
      (fun t => Ranges n t.ip ∧ t.ip.ip0 = s.ip.ip0 ∧ t.ip.ip1 = s.ip.ip1)
      (fun t => t.ip.ip2.value) Run.out (if n / 8 = 2 then stepOf n else 1 : Nat) 255
      (fun v out => printAll c n (addresses3 n s.ip.ip0.value s.ip.ip1.value v) out)
      (fun out => out.keep = false) := by
    refine ⟨?_, ?_, ?_, fun v out h => printAll_idle hc _ h⟩
    · rintro t ⟨ht, h0, h1⟩ hle hkeep
      have hstep := step_eq ht.step2
      rw [← hstep]
      by_cases hprint : (n % 8 = 0 ∧ n / 8 = 3) ∨ n / 8 = 2
      · -- layer 4 is not entered, and its octet is 0
        have hlast : t.ip.ip3.value = 0 := ht.zero3 (by omega)
        have haddress : addresses3 n s.ip.ip0.value s.ip.ip1.value t.ip.ip2.value = [t.ip.address] := by
          rw [addresses3_printed hprint, IpRanges.address, hlast, h0, h1]
        refine ⟨(t.print c n).advance2, layer3Step_prints ht hle hkeep hprint,
          ⟨ht.set2 (fun h => absurd h (by omega)), h0, h1⟩, rfl, ?_⟩
        rw [haddress]
        rfl
      · obtain ⟨hq3, hp2⟩ := not_or.mp hprint
        have hp3 : n / 8 = 3 := by
          rcases hn.layer with h | h | h
          · exact absurd h hp
          · exact absurd h hp2
          · exact h
        have hq0 : n % 8 ≠ 0 := fun h => hq3 ⟨h, hp3⟩
        obtain ⟨t', hrun, ht', ⟨h0', h1', h2'⟩, hout⟩ := layer4_spec hc hp3 hq0
          (s := { t with ip := { t.ip with ip3 := { t.ip.ip3 with value := 0 } } })
          (ht.set3 fun _ => rfl) rfl hfuel
        refine ⟨t'.advance2, ?_, ⟨ht'.set2 (fun h => absurd h (by omega)), h0'.trans h0, h1'.trans h1⟩,
          ?_, ?_⟩
        · rw [layer3Step, if_pos (ht.max2 ▸ hle), if_neg hkeep, if_neg hq3, if_neg hp2,
            if_pos (by omega), hrun]
        · show t'.ip.ip2.value + t'.ip.ip2.step = _
          rw [h2']
        · rw [addresses3, if_neg hq3, if_neg hp2, ← h0, ← h1]
          exact hout
    · rintro t ⟨ht, -⟩ hle hkeep
      rw [layer3Step, if_pos (ht.max2 ▸ hle), if_pos hkeep]
    · rintro t ⟨ht, -⟩ hpast
      rw [layer3Step, if_neg (by rw [ht.max2]; exact Int.not_le.mpr hpast)]
  have hcounts := counts_octetValues (layerStep_mul n 2)
  rw [← hzero] at hcounts
  obtain ⟨s', hrun, ⟨hranges, h0, h1⟩, hout⟩ := hloop.run hcounts ⟨hs, rfl, rfl⟩
    (length_octetValues_le (layerStep_mul n 2) hfuel)
  refine ⟨s', by rw [layer3, hrun]; rfl, hranges, ⟨h0, h1⟩, ?_⟩
  rw [hout, printAll_flatMap]

/-- The loop of layer 2 prints the addresses of the layers 2 to 4. -/
theorem layer2_spec (hc : c.Usable) (hn : IsLength n) (hq : ¬ (n % 8 = 0 ∧ n / 8 = 1)) {s : Run}
    (hs : Ranges n s.ip) (hzero : s.ip.ip1.value = 0) {fuel : Nat} (hfuel : enoughFuel ≤ fuel) :
    ∃ s', layer2 c n fuel s = some s' ∧ Ranges n s'.ip ∧ s'.ip.ip0 = s.ip.ip0 ∧
      s'.out = printAll c n ((octetValues (if n / 8 = 1 then stepOf n else 1)).flatMap
        (addresses2 n s.ip.ip0.value)) s.out := by
  have hloop : CountsUp (layer2Step c n fuel) some
      (fun t => Ranges n t.ip ∧ t.ip.ip0 = s.ip.ip0)
      (fun t => t.ip.ip1.value) Run.out (if n / 8 = 1 then stepOf n else 1 : Nat) 255
      (fun v out => printAll c n (addresses2 n s.ip.ip0.value v) out)
      (fun out => out.keep = false) := by
    refine ⟨?_, ?_, ?_, fun v out h => printAll_idle hc _ h⟩
    · rintro t ⟨ht, h0⟩ hle hkeep
      have hstep := step_eq ht.step1
      rw [← hstep]
      by_cases hprint : (n % 8 = 0 ∧ n / 8 = 2) ∨ n / 8 = 1
      · -- the layers below are not entered, and their octets are 0
        have hthird : t.ip.ip2.value = 0 := ht.zero2 (by omega)
        have hlast : t.ip.ip3.value = 0 := ht.zero3 (by omega)
        have haddress : addresses2 n s.ip.ip0.value t.ip.ip1.value = [t.ip.address] := by
          rw [addresses2_printed hprint, IpRanges.address, hthird, hlast, h0]
        refine ⟨(t.print c n).advance1, layer2Step_prints ht hle hkeep hprint,
          ⟨ht.set1 (fun h => absurd h.symm hq), h0⟩, rfl, ?_⟩
        rw [haddress]
        rfl
      · obtain ⟨hq2, hp1⟩ := not_or.mp hprint
        obtain ⟨t', hrun, ht', ⟨h0', h1'⟩, hout⟩ := layer3_spec hc hn hp1 hq2
          (s := { t with ip := { t.ip with ip2 := { t.ip.ip2 with value := 0 } } })
          (ht.set2 fun _ => rfl) rfl hfuel
        have hp2 : n / 8 ≥ 2 := by
          rcases hn.layer with h | h | h
          · exact absurd h hp1
          · omega
          · omega
        refine ⟨t'.advance1, ?_, ⟨ht'.set1 (fun h => absurd h.symm hq), h0'.trans h0⟩, ?_, ?_⟩
        · rw [layer2Step, if_pos (ht.max1 ▸ hle), if_neg hkeep, if_neg hq2, if_neg hp1, if_pos hp2, hrun]
        · show t'.ip.ip1.value + t'.ip.ip1.step = _
          rw [h1']
        · rw [addresses2, if_neg hq2, if_neg hp1, ← h0]
          exact hout
    · rintro t ⟨ht, -⟩ hle hkeep
      rw [layer2Step, if_pos (ht.max1 ▸ hle), if_pos hkeep]
    · rintro t ⟨ht, -⟩ hpast
      rw [layer2Step, if_neg (by rw [ht.max1]; exact Int.not_le.mpr hpast)]
  have hcounts := counts_octetValues (layerStep_mul n 1)
  rw [← hzero] at hcounts
  obtain ⟨s', hrun, ⟨hranges, h0⟩, hout⟩ := hloop.run hcounts ⟨hs, rfl⟩
    (length_octetValues_le (layerStep_mul n 1) hfuel)
  refine ⟨s', by rw [layer2, hrun]; rfl, hranges, h0, ?_⟩
  rw [hout, printAll_flatMap]

/-- The first octets: `i`, or 1 to 224. -/
def firstOctets (i : Int) : List Int := if i > 1 then [i] else pyRange 1 225

theorem ip0_initRanges (hn : IsLength n) (i : Int) :
    (initRanges n i).ip0 = if i > 1 then ⟨i, i, 1⟩ else ⟨1, 224, 1⟩ := by
  unfold initRanges
  rcases hn.layer with hp | hp | hp <;> rw [hp] <;> rfl

theorem counts_firstOctets (hn : IsLength n) (i : Int) :
    Counts 1 (initRanges n i).ip0.max (initRanges n i).ip0.value (firstOctets i) ∧
      (firstOctets i).length < enoughFuel := by
  rw [ip0_initRanges hn, firstOctets]
  by_cases hi : i > 1
  · simp only [if_pos hi]
    refine ⟨.value (Int.le_refl i) (.stop (by omega)), ?_⟩
    rw [List.length_singleton]
    decide
  · simp only [if_neg hi]
    have hrange : pyRange 1 225 = (List.range' 1 224 1).map Int.ofNat := by
      rw [List.range'_eq_map_range, List.map_map]
      apply List.map_congr_left
      intro k _
      simp only [Function.comp_apply, Int.ofNat_eq_natCast]
      omega
    rw [hrange]
    refine ⟨Counts.of_range' (v := 1) (by decide) (by decide) (by decide), ?_⟩
    rw [List.length_map, List.length_range']
    decide

/-- The loop of layer 1 prints all addresses of a length. -/
theorem layer1_spec (hc : c.Usable) (hn : IsLength n) (i : Int) (out : Out) {fuel : Nat}
    (hfuel : enoughFuel ≤ fuel) :
    ∃ s', layer1 c n fuel ⟨initRanges n i, out⟩ = some s' ∧
      s'.out = printAll c n (layers (firstOctets i) n) out := by
  have hloop : CountsUp (layer1Step c n fuel) some
      (fun t => Ranges n t.ip ∧ t.ip.ip0.max = (initRanges n i).ip0.max ∧ t.ip.ip0.step = 1)
      (fun t => t.ip.ip0.value) Run.out 1 (initRanges n i).ip0.max
      (fun v out => printAll c n (addresses1 n v) out) (fun out => out.keep = false) := by
    refine ⟨?_, ?_, ?_, fun v out h => printAll_idle hc _ h⟩
    · rintro t ⟨ht, hmax, hstep⟩ hle hkeep
      rw [layer1Step, if_pos (hmax ▸ hle), if_neg hkeep]
      by_cases hprint : n % 8 = 0 ∧ n / 8 = 1
      · -- the prefix ends behind the first octet
        have hsecond : t.ip.ip1.value = 0 := ht.zero1 hprint.symm
        have hthird : t.ip.ip2.value = 0 := ht.zero2 (.inl hprint.2)
        have hlast : t.ip.ip3.value = 0 := ht.zero3 (.inr hprint.1)
        have haddress : addresses1 n t.ip.ip0.value = [t.ip.address] := by
          rw [IpRanges.address, hsecond, hthird, hlast, addresses1, if_pos hprint]
        refine ⟨(t.print c n).advance0, by rw [if_pos hprint], ⟨ht.set0 _, hmax, hstep⟩,
          congrArg (t.ip.ip0.value + ·) hstep, ?_⟩
        rw [haddress]
        rfl
      · obtain ⟨t', hrun, ht', h0, hout⟩ := layer2_spec hc hn hprint
          (s := { t with ip := { t.ip with ip1 := { t.ip.ip1 with value := 0 } } })
          (ht.set1 fun _ => rfl) rfl hfuel
        have hmax' : t'.ip.ip0.max = (initRanges n i).ip0.max := by rw [h0]; exact hmax
        have hstep' : t'.ip.ip0.step = 1 := by rw [h0]; exact hstep
        refine ⟨t'.advance0, by rw [if_neg hprint, hrun], ⟨ht'.set0 _, hmax', hstep'⟩, ?_, ?_⟩
        · show t'.ip.ip0.value + t'.ip.ip0.step = _
          rw [h0, hstep]
        · rw [addresses1, if_neg hprint]
          exact hout
    · rintro t ⟨-, hmax, -⟩ hle hkeep
      rw [layer1Step, if_pos (hmax ▸ hle), if_pos hkeep]
    · rintro t ⟨-, hmax, -⟩ hpast
      rw [layer1Step, if_neg (by rw [hmax]; exact Int.not_le.mpr hpast)]
  obtain ⟨hcounts, hlen⟩ := counts_firstOctets hn i
  have hstep : (initRanges n i).ip0.step = 1 := by
    rw [ip0_initRanges hn]
    split <;> rfl
  obtain ⟨s', hrun, -, hout⟩ := hloop.run (s := ⟨initRanges n i, out⟩) hcounts
    ⟨ranges_initRanges hn i, rfl, hstep⟩ (Nat.lt_of_lt_of_le hlen hfuel)
  refine ⟨s', by rw [layer1, hrun]; rfl, ?_⟩
  rw [hout, layers_eq, printAll_flatMap]

/-! ### All lengths -/

/-- The prefixes in the order of the loops. -/
def allPrefixes (i : Int) : List (IpAttr × Nat) :=
  (List.range' 8 24).flatMap fun n => (layers (firstOctets i) n).map fun ip => (ip, n)

/-- `printIPaddr` for one prefix after the other. -/
def printPrefixes (c : Settings) (ps : List (IpAttr × Nat)) (out : Out) : Out :=
  ps.foldl (fun out p => printIPaddr c p.1 p.2 out) out

/-- `IPstat` and the terminal before the loops. -/
def initOut (c : Settings) (numPrefix : Int) : Out :=
  ⟨true, numPrefix, 0, if numPrefix ≠ 0 ∧ c.output then [.showing] else [], []⟩

theorem foldlM_layer1 (hc : c.Usable) (i : Int) {fuel : Nat} (hfuel : enoughFuel ≤ fuel) {ns : List Nat}
    (hns : ∀ n ∈ ns, IsLength n) (out : Out) :
    ns.foldlM (fun out n => (layer1 c n fuel ⟨initRanges n i, out⟩).map Run.out) out =
      some (printPrefixes c (ns.flatMap fun n => (layers (firstOctets i) n).map fun ip => (ip, n))
        out) := by
  induction ns generalizing out with
  | nil => rfl
  | cons n ns ih =>
      obtain ⟨hn, hns⟩ := List.forall_mem_cons.mp hns
      obtain ⟨s', hrun, hout⟩ := layer1_spec hc hn i out hfuel
      rw [List.foldlM_cons, hrun, Option.map_some, Option.bind_eq_bind, Option.bind_some, ih hns, hout,
        List.flatMap_cons]
      simp only [printPrefixes, printAll, List.foldl_append, List.foldl_map]

/-- The loops print the prefixes of all lengths. -/
theorem generatePrefix_eq (hc : c.Usable) (i numPrefix : Int) {fuel : Nat} (hfuel : enoughFuel ≤ fuel) :
    generatePrefix c fuel i numPrefix = some (printPrefixes c (allPrefixes i) (initOut c numPrefix)) := by
  apply foldlM_layer1 hc i hfuel
  intro n hn
  have hmem := List.mem_range'_1.mp hn
  unfold IsLength
  omega

end SrxNote.Emulator.PrefixLoops
