import SrxNote.Emulator.GeneratePrefix
import SrxNote.Misc.Loop

/-!
# The loops that generate prefixes

`generatePrefix` (`generate_prefix.py:84-205`) with its four nested `while` loops over
the octets, whose values, bounds and steps are in `ip_attr`, for the dry run and for
the run that writes a file. Every loop has fuel for a number of passes; `none` is
returned when it is used up.
-/

namespace SrxNote.Emulator.PrefixLoops
open SrxNote.Text

/-- `[value, max, step]`. -/
structure IpRange where
  value : Int
  max : Int
  step : Int
  deriving DecidableEq, Repr

/-- `ip_attr`. -/
structure IpRanges where
  ip0 : IpRange
  ip1 : IpRange
  ip2 : IpRange
  ip3 : IpRange
  deriving DecidableEq, Repr

def IpRanges.address (ip : IpRanges) : IpAttr := ⟨ip.ip0.value, ip.ip1.value, ip.ip2.value, ip.ip3.value⟩

/-- `ip_attr[p][2] = interval`. -/
def IpRanges.setStep (ip : IpRanges) (p : Nat) (interval : Int) : IpRanges :=
  match p with
  | 0 => { ip with ip0 := { ip.ip0 with step := interval } }
  | 1 => { ip with ip1 := { ip.ip1 with step := interval } }
  | 2 => { ip with ip2 := { ip.ip2 with step := interval } }
  | _ => { ip with ip3 := { ip.ip3 with step := interval } }

/-- `ip_attr[k][0] += ip_attr[k][2]`. -/
def IpRange.advance (r : IpRange) : IpRange := { r with value := r.value + r.step }

/-- A line on the terminal. -/
inductive Printed where
  | showing
  | route (ip : IpAttr) (n : Nat)
  | buf (ip : IpAttr) (n : Nat)
  | notExist
  deriving DecidableEq, Repr

/-- What the dry run prints for a prefix (26-34). -/
def routeLine (mode : Mode) (nexthop : List Char) (ip : IpAttr) (n : Nat) : List Char :=
  match mode with
  | .quagga => "network ".toList ++ printPrefix ip n ++ "\n".toList
  | .exabgp =>
      "route ".toList ++ printPrefix ip n ++ " next-hop ".toList ++ nexthop ++ ";".toList ++ "\n".toList

def Printed.text (mode : Mode) (nexthop : List Char) : Printed → List Char
  | .showing => "+++ showing generate prefix\n".toList
  | .route ip n => routeLine mode nexthop ip n
  | .buf ip n => prefixLine mode nexthop ip n
  | .notExist => "File not exist\n".toList

/-- `IPstat`, the terminal, and the prefixes whose lines were written to `nodeFile`. -/
structure Out where
  keep : Bool
  maxNum : Int
  counter : Int
  printed : List Printed
  written : List (IpAttr × Nat)
  deriving DecidableEq, Repr

/-- `dry_run`, `output` neither `None` nor `False`, and whether `nodeFile` is a file. -/
structure Settings where
  dryRun : Bool
  output : Bool
  hasFile : Bool
  deriving DecidableEq, Repr

/-- `printIPaddr` (22-66). -/
def printIPaddr (c : Settings) (ip : IpAttr) (n : Nat) (out : Out) : Out :=
  if c.dryRun then
    let out :=
      if out.keep then
        { out with
          printed := if c.output then out.printed ++ [.route ip n] else out.printed
          counter := out.counter + 1 }
      else out
    if out.counter ≥ out.maxNum then { out with keep := false } else out
  else if c.hasFile then
    let out :=
      if out.keep then
        { out with
          printed := if c.output then out.printed ++ [.buf ip n] else out.printed
          written := out.written ++ [(ip, n)]
          counter := out.counter + 1 }
      else out
    if out.counter ≥ out.maxNum then { out with keep := false } else out
  else { out with printed := out.printed ++ [.notExist] }

/-- What the loops change. -/
structure Run where
  ip : IpRanges
  out : Out
  deriving DecidableEq, Repr

variable (c : Settings) (n : Nat)

def Run.print (s : Run) : Run := { s with out := printIPaddr c s.ip.address n s.out }

def Run.advance0 (s : Run) : Run := { s with ip := { s.ip with ip0 := s.ip.ip0.advance } }

def Run.advance1 (s : Run) : Run := { s with ip := { s.ip with ip1 := s.ip.ip1.advance } }

def Run.advance2 (s : Run) : Run := { s with ip := { s.ip with ip2 := s.ip.ip2.advance } }

def Run.advance3 (s : Run) : Run := { s with ip := { s.ip with ip3 := s.ip.ip3.advance } }

/-- `interval`. -/
def interval : Int := 2 ^ (8 - n % 8)

/-- One pass of the loop of layer 4 (182-193); `p` is `n / 8` and `q` is `n % 8`. -/
def layer4Step (s : Run) : Step Run Run :=
  if s.ip.ip3.value ≤ s.ip.ip3.max then
    if s.out.keep = false then .done s
    else if n % 8 = 0 ∧ n / 8 = 4 then .next (s.print c n).advance3
    else if n / 8 = 3 then .next (s.print c n).advance3
    else .next s
  else .done s

def layer4 (fuel : Nat) (s : Run) : Option Run := Loop.run (layer4Step c n) fuel s

/-- One pass of the loop of layer 3 (166-197). -/
def layer3Step (fuel : Nat) (s : Run) : Step Run (Option Run) :=
  if s.ip.ip2.value ≤ s.ip.ip2.max then
    if s.out.keep = false then .done (some s)
    else if n % 8 = 0 ∧ n / 8 = 3 then .next (s.print c n).advance2
    else if n / 8 = 2 then .next (s.print c n).advance2
    else if n / 8 ≥ 3 then
      match layer4 c n fuel { s with ip := { s.ip with ip3 := { s.ip.ip3 with value := 0 } } } with
      | none => .done none
      | some s => .next s.advance2
    else .next s.advance2
  else .done (some s)

def layer3 (fuel : Nat) (s : Run) : Option Run := (Loop.run (layer3Step c n fuel) fuel s).join

/-- One pass of the loop of layer 2 (148-201). For `p = 1` the value goes up by `interval`. -/
def layer2Step (fuel : Nat) (s : Run) : Step Run (Option Run) :=
  if s.ip.ip1.value ≤ s.ip.ip1.max then
    if s.out.keep = false then .done (some s)
    else if n % 8 = 0 ∧ n / 8 = 2 then .next (s.print c n).advance1
    else if n / 8 = 1 then
      let s := s.print c n
      .next { s with ip := { s.ip with ip1 := { s.ip.ip1 with value := s.ip.ip1.value + interval n } } }
    else if n / 8 ≥ 2 then
      match layer3 c n fuel { s with ip := { s.ip with ip2 := { s.ip.ip2 with value := 0 } } } with
      | none => .done none
      | some s => .next s.advance1
    else .next s.advance1
  else .done (some s)

def layer2 (fuel : Nat) (s : Run) : Option Run := (Loop.run (layer2Step c n fuel) fuel s).join

/-- One pass of the loop of layer 1 (137-205). -/
def layer1Step (fuel : Nat) (s : Run) : Step Run (Option Run) :=
  if s.ip.ip0.value ≤ s.ip.ip0.max then
    if s.out.keep = false then .done (some s)
    else if n % 8 = 0 ∧ n / 8 = 1 then .next (s.print c n).advance0
    else
      match layer2 c n fuel { s with ip := { s.ip with ip1 := { s.ip.ip1 with value := 0 } } } with
      | none => .done none
      | some s => .next s.advance0
  else .done (some s)

def layer1 (fuel : Nat) (s : Run) : Option Run := (Loop.run (layer1Step c n fuel) fuel s).join

/-- `ip_attr` for the length `n` (103-132): the first octet is `i` alone, when it is above 1. -/
def initRanges (i : Int) : IpRanges :=
  let ip0 := if i > 1 then ⟨i, i, 1⟩ else ⟨1, 224, 1⟩
  (IpRanges.mk ip0 ⟨0, 255, 1⟩ ⟨0, 255, 1⟩ ⟨0, 255, 1⟩).setStep (n / 8) (interval n)

/-- `generatePrefix`. -/
def generatePrefix (fuel : Nat) (i numPrefix : Int) : Option Out :=
  let printed := if numPrefix ≠ 0 ∧ c.output then [.showing] else []
  (List.range' 8 24).foldlM (fun out n => (layer1 c n fuel ⟨initRanges n i, out⟩).map Run.out)
    ⟨true, numPrefix, 0, printed, []⟩

end SrxNote.Emulator.PrefixLoops
