import SrxNote.Quagga.Proofs.ParseSteps

/-!
# Lax reading and the wire format

Octets written by the wire format are read back as the values they were written
from. Conversely, a reading whose signature segments add up to what was owed
consumes exactly their wire format; otherwise they add up to more.
-/

namespace SrxNote.Quagga
open SrxNote.Bgpsec

/-! ### Signature segments -/

theorem sigSegmentAt_wellFormed {s : Stream} (h : ¬ Overlong s) :
    (sigSegmentAt s).WellFormed := by
  refine ⟨⟨skiAt s, rfl, ?_⟩, ⟨_, rfl, ?_⟩⟩
  · exact streamGet_dst_length s List.length_replicate
  · have hle := Nat.le_of_not_lt h
    rw [List.length_take, Nat.min_eq_left hle]
    rfl

/-- Segments read without a cut have their buffers. -/
theorem SigsRead.wellFormed {owed : UInt16} {s s' : Stream} {sigs : List SigSegment} {cut : Bool}
    (h : SigsRead owed s sigs s' cut) (hcut : cut = false) : ∀ ss ∈ sigs, ss.WellFormed := by
  induction h with
  | nil s => simp
  | cut _ _ => cases hcut
  | cons _ hover _ ih =>
      intro ss hss
      rcases List.mem_cons.mp hss with rfl | hss
      · exact sigSegmentAt_wellFormed hover
      · exact ih hcut ss hss

theorem toNat_owedAfter_of_le (owed : UInt16) (s : Stream)
    (h : 22 + (sigLenAt s).toNat ≤ owed.toNat) :
    (owedAfter owed s).toNat = owed.toNat - (22 + (sigLenAt s).toNat) := by
  have ho := owed.toNat_lt
  rw [toNat_owedAfter]
  omega

/-- Segments read without a cut pay at least what was owed. -/
theorem SigsRead.owed_le {owed : UInt16} {s s' : Stream} {sigs : List SigSegment} {cut : Bool}
    (h : SigsRead owed s sigs s' cut) (hcut : cut = false) : owed.toNat ≤ sigOctets sigs := by
  induction h with
  | nil s => exact Nat.le_refl 0
  | cut _ _ => cases hcut
  | @cons owed s _ sigs _ _ _ _ ih =>
      have hrest := ih hcut
      rw [sigOctets_cons]
      change owed.toNat ≤ 22 + (sigLenAt s).toNat + sigOctets sigs
      by_cases hle : 22 + (sigLenAt s).toNat ≤ owed.toNat
      · rw [toNat_owedAfter_of_le _ _ hle] at hrest
        omega
      · omega

/-- The parts of a signature segment that is there in full. -/
theorem sigSegmentAt_of_le {s : Stream} (h : 22 + (sigLenAt s).toNat ≤ s.length) :
    s = (sigSegmentAt s).wire ++ afterSig s := by
  have hski : ¬ s.length < skiLength := by
    rw [skiLength]
    omega
  have hdrop : 2 ≤ (s.drop skiLength).length := by
    rw [List.length_drop, skiLength]
    omega
  obtain ⟨t, ht, ht'⟩ := streamGetw_of_le hdrop
  have hskiAt : skiAt s = s.take skiLength := by
    rw [skiAt, streamGet_of_not_lt hski]
  have hlen : sigLenAt s = (streamGetw (s.drop skiLength)).1 := by
    rw [sigLenAt, streamGet_of_not_lt hski]
  have hafter : afterSigLen s = t := by
    rw [afterSigLen, streamGet_of_not_lt hski]
    exact ht'
  calc s = s.take skiLength ++ s.drop skiLength := (List.take_append_drop _ _).symm
    _ = skiAt s ++ (be16 (sigLenAt s) ++ afterSigLen s) := by rw [hskiAt, hlen, hafter, ← ht]
    _ = skiAt s ++ be16 (sigLenAt s) ++ ((afterSigLen s).take (sigLenAt s).toNat ++ afterSig s) :=
        by rw [afterSig, List.take_append_drop, List.append_assoc]
    _ = (sigSegmentAt s).wire ++ afterSig s := (List.append_assoc _ _ _).symm

/-- Segments that add up to what was owed, with that many octets there, are on the wire. -/
theorem SigsRead.eq_wire {owed : UInt16} {s s' : Stream} {sigs : List SigSegment} {cut : Bool}
    (h : SigsRead owed s sigs s' cut) (hcut : cut = false) (hsum : owed.toNat = sigOctets sigs)
    (hle : owed.toNat ≤ s.length) : s = sigs.flatMap SigSegment.wire ++ s' := by
  induction h with
  | nil s => rfl
  | cut _ _ => cases hcut
  | @cons owed s s' sigs _ _ hover _ ih =>
      rw [sigOctets_cons] at hsum
      change owed.toNat = 22 + (sigLenAt s).toNat + sigOctets sigs at hsum
      have hsig : s = (sigSegmentAt s).wire ++ afterSig s := sigSegmentAt_of_le (by omega)
      have hlen := congrArg List.length hsig
      rw [List.length_append, (sigSegmentAt_wellFormed hover).wire_length] at hlen
      change s.length = 22 + (sigLenAt s).toNat + (afterSig s).length at hlen
      have howed := toNat_owedAfter_of_le owed s (by omega)
      have hrest := ih hcut (by omega) (by omega)
      rw [List.flatMap_cons, List.append_assoc, ← hrest]
      exact hsig

/-- A signature segment on the wire is read back. -/
theorem sigSegmentAt_wire {ss : SigSegment} (h : ss.WellFormed) (t : Stream) :
    ¬ Overlong (ss.wire ++ t) ∧ sigSegmentAt (ss.wire ++ t) = ss ∧ afterSig (ss.wire ++ t) = t := by
  obtain ⟨ski, sigLen, signature⟩ := ss
  obtain ⟨⟨ski', hski, hskiLen⟩, ⟨sig, hsig, hsigLen⟩⟩ := h
  dsimp only at hski hsig hsigLen
  subst hski hsig
  have hget : streamGet skiNew (ski' ++ (be16 sigLen ++ (sig ++ t))) skiLength =
      (ski', be16 sigLen ++ (sig ++ t)) := by
    rw [← hskiLen]
    exact streamGet_append skiNew ski' _
  have hwire : SigSegment.wire ⟨some ski', sigLen, some sig⟩ ++ t =
      ski' ++ (be16 sigLen ++ (sig ++ t)) := by
    simp [SigSegment.wire]
  rw [hwire]
  have hskiAt : skiAt (ski' ++ (be16 sigLen ++ (sig ++ t))) = ski' := by
    rw [skiAt, hget]
  have hlenAt : sigLenAt (ski' ++ (be16 sigLen ++ (sig ++ t))) = sigLen := by
    rw [sigLenAt, hget, streamGetw_be16]
  have hafter : afterSigLen (ski' ++ (be16 sigLen ++ (sig ++ t))) = sig ++ t := by
    rw [afterSigLen, hget, streamGetw_be16]
  refine ⟨?_, ?_, ?_⟩
  · rw [Overlong, hafter, hlenAt, List.length_append]
    omega
  · rw [sigSegmentAt, hskiAt, hlenAt, hafter, ← hsigLen, List.take_left]
  · rw [afterSig, hlenAt, hafter, ← hsigLen, List.drop_left]

/-- Signature segments on the wire are read back when what is owed is their size. -/
theorem sigsRead_wire {sigs : List SigSegment} (hwf : ∀ ss ∈ sigs, ss.WellFormed) (owed : UInt16)
    (hsum : owed.toNat = sigOctets sigs) (s' : Stream) :
    SigsRead owed (sigs.flatMap SigSegment.wire ++ s') sigs s' false := by
  induction sigs generalizing owed with
  | nil =>
      have hz : owed = 0 := UInt16.toNat_inj.mp hsum
      rw [hz]
      exact .nil s'
  | cons ss sigs ih =>
      obtain ⟨hover, hat, hafter⟩ :=
        sigSegmentAt_wire (hwf ss (by simp)) (sigs.flatMap SigSegment.wire ++ s')
      rw [List.flatMap_cons, List.append_assoc]
      rw [sigOctets_cons] at hsum
      have hne : owed ≠ 0 := by
        rintro rfl
        change 0 = _ at hsum
        omega
      have hlenAt : sigLenAt (ss.wire ++ (sigs.flatMap SigSegment.wire ++ s')) = ss.sigLen :=
        congrArg SigSegment.sigLen hat
      have howed := toNat_owedAfter_of_le owed
        (ss.wire ++ (sigs.flatMap SigSegment.wire ++ s')) (by rw [hlenAt]; omega)
      rw [hlenAt] at howed
      have hrest := ih (fun x hx => hwf x (List.mem_cons_of_mem _ hx))
        (owedAfter owed (ss.wire ++ (sigs.flatMap SigSegment.wire ++ s'))) (by omega)
      have hread : SigsRead owed (ss.wire ++ (sigs.flatMap SigSegment.wire ++ s'))
          (sigSegmentAt (ss.wire ++ (sigs.flatMap SigSegment.wire ++ s')) :: sigs) s' false := by
        refine .cons hne hover ?_
        rw [hafter]
        exact hrest
      rw [hat] at hread
      exact hread

/-! ### Blocks -/

theorem BlocksRead.length_le {n k : Nat} {s : Stream} {sbs : List SigBlock}
    (h : BlocksRead n k s sbs) : sbs.length ≤ k := by
  induction h with
  | nil k => exact Nat.zero_le k
  | cons _ _ _ _ ih => exact Nat.succ_le_succ ih

theorem BlocksRead.ne_nil {n k : Nat} {s : Stream} {sbs : List SigBlock}
    (h : BlocksRead n k s sbs) (hs : s ≠ []) : sbs ≠ [] := by
  cases h with
  | nil => exact absurd rfl hs
  | cons _ _ _ _ => exact List.cons_ne_nil _ _

theorem BlocksRead.signatures {n k : Nat} {s : Stream} {sbs : List SigBlock}
    (h : BlocksRead n k s sbs) :
    ∀ sb ∈ sbs, sb.sigSegments.length = n ∧ ∀ ss ∈ sb.sigSegments, ss.WellFormed := by
  induction h with
  | nil k => simp
  | cons _ hread hcount _ ih =>
      intro sb hsb
      rcases List.mem_cons.mp hsb with rfl | hsb
      · exact ⟨hcount, hread.wellFormed rfl⟩
      · exact ih sb hsb

theorem toNat_len_sub_three (len : UInt16) (h : 3 ≤ len.toNat) :
    (len - 3).toNat = len.toNat - 3 := by
  have h3 : (3 : UInt16).toNat = 3 := rfl
  have hlt := len.toNat_lt
  rw [UInt16.toNat_sub, h3]
  omega

/-- The signature segments of a block that is read take up what its length field leaves for
    them, or more. -/
theorem BlocksRead.len_le {n k : Nat} {s : Stream} {sbs : List SigBlock}
    (h : BlocksRead n k s sbs) :
    ∀ sb ∈ sbs, sb.sigBlockLen.toNat ≤ 3 + sigOctets sb.sigSegments := by
  induction h with
  | nil k => simp
  | @cons _ _ _ _ len _ _ _ _ hread _ _ ih =>
      intro sb hsb
      rcases List.mem_cons.mp hsb with rfl | hsb
      · have hle := hread.owed_le rfl
        dsimp only
        by_cases h3 : 3 ≤ len.toNat
        · rw [toNat_len_sub_three _ h3] at hle
          omega
        · omega
      · exact ih sb hsb

/-- Blocks whose signature segments take up what their length fields say are on the wire. -/
theorem BlocksRead.eq_wire {n k : Nat} {s : Stream} {sbs : List SigBlock}
    (h : BlocksRead n k s sbs)
    (hsum : ∀ sb ∈ sbs, sb.sigBlockLen.toNat = 3 + sigOctets sb.sigSegments) :
    s = sbs.flatMap SigBlock.wire := by
  induction h with
  | nil k => rfl
  | @cons _ s rest s' len algo sigs sbs hh hread _ _ ih =>
      have hlen : len.toNat = 3 + sigOctets sigs := hsum ⟨len, algo, sigs⟩ (by simp)
      obtain ⟨t, rfl, -, hle, hc⟩ := hh
      match t, hle, hc with
      | [], hle, _ =>
          change len.toNat - 2 ≤ 0 at hle
          omega
      | a :: t, hle, hc =>
          rw [streamGetc_cons] at hc
          cases hc
          rw [List.length_cons] at hle
          have howed := toNat_len_sub_three len (by omega)
          have hwire := hread.eq_wire rfl (by omega) (by omega)
          have hrest := ih fun sb hsb => hsum sb (List.mem_cons_of_mem _ hsb)
          rw [List.flatMap_cons, ← hrest, SigBlock.wire, List.append_assoc, List.append_assoc,
            ← hwire]
          rfl

/-- Blocks on the wire are read back. -/
theorem blocksRead_wire {n k : Nat} {sbs : List SigBlock} (hwf : ∀ sb ∈ sbs, sb.OnWire n)
    (hk : sbs.length ≤ k) : BlocksRead n k (sbs.flatMap SigBlock.wire) sbs := by
  induction sbs generalizing k with
  | nil => exact .nil k
  | cons sb sbs ih =>
      obtain ⟨len, algo, sigs⟩ := sb
      obtain ⟨hcount, hsigs, hlen⟩ := hwf ⟨len, algo, sigs⟩ (by simp)
      dsimp only at hcount hsigs hlen
      cases k with
      | zero => exact absurd hk (Nat.not_succ_le_zero _)
      | succ k =>
          have hrest := ih (fun sb hsb => hwf sb (List.mem_cons_of_mem _ hsb))
            (Nat.le_of_succ_le_succ hk)
          have howed := toNat_len_sub_three len (by omega)
          have hread := sigsRead_wire hsigs (len - 3) (by omega)
            (sbs.flatMap SigBlock.wire)
          have hheader : BlockHeader ((⟨len, algo, sigs⟩ :: sbs).flatMap SigBlock.wire) len algo
              (sigs.flatMap SigSegment.wire ++ sbs.flatMap SigBlock.wire) := by
            refine ⟨algo :: (sigs.flatMap SigSegment.wire ++ sbs.flatMap SigBlock.wire), ?_,
              by omega, ?_, rfl⟩
            · simp [SigBlock.wire]
            · rw [List.length_cons, List.length_append, flatMap_sigSegment_wire_length hsigs]
              omega
          exact .cons hheader hread hcount hrest

end SrxNote.Quagga
