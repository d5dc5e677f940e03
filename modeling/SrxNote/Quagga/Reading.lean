import SrxNote.Bgpsec.Wire
import SrxNote.Quagga.Parse

/-!
# Reading signature segments off octets

The octet-level meaning of the parser's loop over signature segments, without
its variables. Reading a signature segment always gives one: octets that are
not there count as an all-zero SKI or a zero length, and are not consumed. The
only failure is a length that exceeds the octets left (`Overlong`). A block's
length field less 3 is the number of octets owed to its signature segments;
each segment pays 22 and its signature length, in arithmetic modulo `2 ^ 16`.
-/

namespace SrxNote.Quagga
open SrxNote.Bgpsec

/-- The SKI of the signature segment that starts the octets. -/
def skiAt (s : Stream) : List UInt8 := (streamGet skiNew s skiLength).1

/-- Its signature length. -/
def sigLenAt (s : Stream) : UInt16 := (streamGetw (streamGet skiNew s skiLength).2).1

/-- The octets after its SKI and its signature length. -/
def afterSigLen (s : Stream) : Stream := (streamGetw (streamGet skiNew s skiLength).2).2

/-- Its signature length exceeds the octets left. -/
def Overlong (s : Stream) : Prop := (afterSigLen s).length < (sigLenAt s).toNat

instance (s : Stream) : Decidable (Overlong s) := inferInstanceAs (Decidable (_ < _))

/-- The signature segment that starts the octets, when it is not overlong. -/
def sigSegmentAt (s : Stream) : SigSegment :=
  ⟨some (skiAt s), sigLenAt s, some ((afterSigLen s).take (sigLenAt s).toNat)⟩

/-- The octets after it. -/
def afterSig (s : Stream) : Stream := (afterSigLen s).drop (sigLenAt s).toNat

/-- What is owed after it has been read. -/
def owedAfter (owed : UInt16) (s : Stream) : UInt16 :=
  owed - UInt16.ofNat skiLength - 2 - sigLenAt s

/-- `SigsRead owed s sigs s' cut`: reading signature segments off `s` until nothing is owed
    gives `sigs` and leaves `s'`, or (`cut`) ends with an overlong one, whose signature is
    missing. -/
inductive SigsRead : UInt16 → Stream → List SigSegment → Stream → Bool → Prop
  | nil (s : Stream) : SigsRead 0 s [] s false
  | cut {owed : UInt16} {s : Stream} : owed ≠ 0 → Overlong s →
      SigsRead owed s [⟨some (skiAt s), sigLenAt s, none⟩] (afterSigLen s) true
  | cons {owed : UInt16} {s s' : Stream} {sigs : List SigSegment} {cut : Bool} : owed ≠ 0 →
      ¬ Overlong s → SigsRead (owedAfter owed s) (afterSig s) sigs s' cut →
      SigsRead owed s (sigSegmentAt s :: sigs) s' cut

/-- The octets run dry on an odd debt: after some whole signature segments fewer than two octets
    are left, and what is still owed is odd. From there on every segment costs 22 and consumes
    nothing. -/
inductive RunsDry : UInt16 → Stream → Prop
  | dry {owed : UInt16} {s : Stream} : s.length < 2 → owed.toNat % 2 = 1 → RunsDry owed s
  | sig {owed : UInt16} {s : Stream} : owed ≠ 0 → 2 ≤ s.length → ¬ Overlong s →
      RunsDry (owedAfter owed s) (afterSig s) → RunsDry owed s

/-- What is left of the octets after a Secure_Path length of `n` segments once the whole segments
    that are there, at most `n`, have been read. -/
def pathRest (n : Nat) (s : Stream) : Stream := s.drop (6 * min n (s.length / 6))

/-- The octets start with a block header that the parser goes past: the length field `len`
    counts itself and at most the octets that are there. The algorithm suite of a block of
    length 2 at the end of the octets reads as 0. -/
def BlockHeader (s : Stream) (len : UInt16) (algo : UInt8) (rest : Stream) : Prop :=
  ∃ t, s = be16 len ++ t ∧ 2 ≤ len.toNat ∧ len.toNat - 2 ≤ t.length ∧ streamGetc t = (algo, rest)

/-- `BlocksRead n k s sbs`: the octets are at most `k` blocks, each read as `n` signature
    segments without a cut. -/
inductive BlocksRead (n : Nat) : Nat → Stream → List SigBlock → Prop
  | nil (k : Nat) : BlocksRead n k [] []
  | cons {k : Nat} {s rest s' : Stream} {len : UInt16} {algo : UInt8} {sigs : List SigSegment}
      {sbs : List SigBlock} : BlockHeader s len algo rest →
      SigsRead (len - 3) rest sigs s' false → sigs.length = n → BlocksRead n k s' sbs →
      BlocksRead n (k + 1) s (⟨len, algo, sigs⟩ :: sbs)

/-- `Starves n k s`: one of the first `k` blocks read off `s` runs dry on an odd debt. A block
    is followed by another one when `n` signature segments were read from it, cut or not. -/
inductive Starves (n : Nat) : Nat → Stream → Prop
  | here {k : Nat} {s rest : Stream} {len : UInt16} {algo : UInt8} : BlockHeader s len algo rest →
      RunsDry (len - 3) rest → Starves n (k + 1) s
  | later {k : Nat} {s rest s' : Stream} {len : UInt16} {algo : UInt8} {sigs : List SigSegment}
      {cut : Bool} : BlockHeader s len algo rest → SigsRead (len - 3) rest sigs s' cut →
      sigs.length = n → Starves n k s' → Starves n (k + 1) s

/-- An attribute starves when, after a Secure_Path length of `n` segments and these segments, one
    of its first two blocks runs dry on an odd debt. -/
def AttrStarves (octets : Stream) : Prop :=
  ∃ n t, 2 + 6 * n < 2 ^ 16 ∧ octets = be16 (UInt16.ofNat (2 + 6 * n)) ++ t ∧
    Starves n bgpsecMaxSigblock (pathRest n t)

end SrxNote.Quagga
