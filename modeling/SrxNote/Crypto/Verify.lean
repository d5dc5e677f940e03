import SrxNote.Crypto.Api
import SrxNote.Misc.Buffer

/-!
# `cl_BgpsecVerify`

Path validation (`bgpsec_openssl-VariousKeyManipulation.c:836-1057`), with the
check of one signature as a parameter. The model records every check that is
made, together with the path segment it is made for and the accesses on the way to
it that the C code may not make, and how the function ends: with a return code or
with an access that ends it.

Nothing in the C code stops a run that reads behind a signature or outside of
`keys`, or that writes behind `hashbuff`. Such a run goes on: with what it finds
there (`Beyond`), and with the octets behind `hashbuff` hashed as they were written;
that they are written over other variables is left out. Only NULL, when it is
dereferenced, ends a run.
-/

namespace SrxNote.Crypto
open SrxNote.Bgpsec

/-- Which function checks a signature: `stcl_BgpsecVerifySignatureSSL_withKeyInfo` with the entry
    of the array it is pointed at, or `stcl_BgpsecVerifySignatureSSL`. -/
inductive CheckBy where
  | withKeyInfo (key : Option BGPSecKey)
  | certificate
  deriving DecidableEq

/-- One check of a signature. -/
structure Check where
  checkBy : CheckBy
  signData : BGPSecSignData
  deriving DecidableEq

/-- The accesses that a run may not make: an index outside `keys`, octets behind the end of
    `hashbuff`, a NULL prefix, octets of a signature that are not there, and whatever the check of
    a signature does. -/
inductive Fault where
  | keys
  | hashbuff
  | nlri
  | signature
  | check
  deriving DecidableEq, Repr

/-- How a run ends. -/
inductive Outcome where
  | ret (status : VerifyStatus)
  | fault (f : Fault)
  deriving DecidableEq, Repr

/-- A check, the path segment it is made for, and the accesses that were made for it and may not be
    made. -/
structure Checked where
  seg : PathSegment
  check : Check
  strays : List Fault
  deriving DecidableEq

/-- The checks that were made, in order, and the outcome. -/
structure VerifyRun where
  checks : List Checked
  outcome : Outcome

/-- What a run finds where it may not read: the octets behind the signature that is copied with
    `iter` segments to go, and the entries outside of `keys`. -/
structure Beyond where
  octet : Nat → Nat → UInt8
  entry : Int → Option BGPSecKey

/-- `BGPSEC_MAX_SIG_LENGTH` (`perf_test.h:14`). -/
def bgpsecMaxSigLength : Nat := 128

/-- The size of `hashbuff` (856). -/
def hashbuffSize : Nat := bgpsecMaxSigLength + 10

/-- What stays the same over the loop: the first block's algorithm, the arguments, and what is found
    outside of them. -/
structure VerifyArgs where
  algoSuiteId : UInt8
  numberKeys : UInt16
  keys : Option (List (Option BGPSecKey))
  p : Option Prefix
  beyond : Beyond

/-- `keys[i]`; `none` when the index is outside of the array. -/
def readKey (keys : List (Option BGPSecKey)) (i : Int) : Option (Option BGPSecKey) :=
  if 0 ≤ i then keys[i.toNat]? else none

/-- What the code takes for `keys[i]`, and whether that is an entry. -/
def fetchKey (beyond : Beyond) (keys : List (Option BGPSecKey)) (i : Int) :
    Option BGPSecKey × List Fault :=
  match readKey keys i with
  | some key => (key, [])
  | none => (beyond.entry i, [.keys])

/-- Target AS, signer's AS, pCount and flags (891-895, 982-986). -/
def putSegment (hashbuff : List UInt8) (targetAS : UInt32) (seg : PathSegment) :
    Option (List UInt8) := do
  let hashbuff ← Buffer.write hashbuff 0 (be32 targetAS)
  let hashbuff ← Buffer.write hashbuff 4 (be32 seg.as)
  let hashbuff ← Buffer.write hashbuff 8 [seg.pCount]
  Buffer.write hashbuff 9 [seg.flags]

/-- `sslVerifyData` over the first `hashLen` octets of `hashbuff` (919-926, 1011-1018). -/
def sslVerifyData (a : VerifyArgs) (hashbuff : List UInt8) (hashLen : Nat) (ss : SigSegment) :
    BGPSecSignData :=
  ⟨hashbuff.take hashLen, ss.ski, a.algoSuiteId, ss.signature, ss.sigLen⟩

/-- Choice of the function for a transit segment (928-945): the entry at `currNum` is tested, and the
    one at `currNum`, as a `u_int16_t`, is used. -/
def transitCheckBy (a : VerifyArgs) (iter : Nat) : CheckBy × List Fault :=
  match a.keys with
  | none => (.certificate, [])
  | some keys =>
      let currNum : Int := a.numberKeys.toNat - iter
      let tested := fetchKey a.beyond keys currNum
      match tested.1 with
      | none => (.certificate, tested.2)
      | some _ =>
          let used := fetchKey a.beyond keys (currNum % 2 ^ 16)
          (.withKeyInfo used.1, tested.2 ++ used.2)

/-- Choice of the function for the origin (1020-1044): the first entry is tested, the entry at
    `number_keys - iter`, a `u_int16_t`, is used. -/
def originCheckBy (a : VerifyArgs) (iter : Nat) : CheckBy × List Fault :=
  match a.keys with
  | none => (.certificate, [])
  | some keys =>
      let tested := fetchKey a.beyond keys 0
      match tested.1 with
      | none => (.certificate, tested.2)
      | some _ =>
          let used := fetchKey a.beyond keys (((a.numberKeys.toNat : Int) - iter) % 2 ^ 16)
          (.withKeyInfo used.1, tested.2 ++ used.2)

/-- A check that is about to be made, what was done for it that may not be done, and `hashbuff`. -/
structure Prepared where
  check : Check
  strays : List Fault
  hashbuff : List UInt8

/-- What `memcpy` may not do to copy a signature behind the first ten octets of `hashbuff` (900): write
    behind `hashbuff`, and read behind the signature. -/
def copyStrays (next : SigSegment) : List Fault :=
  (if 10 + next.sigLen.toNat ≤ hashbuffSize then [] else [.hashbuff]) ++
    (if (Buffer.read next.signature next.sigLen.toNat).isSome then [] else [.signature])

/-- A transit segment up to its check (875-944): the octets end with the signature of the next
    signature segment, whatever its length is. -/
def prepareTransit (a : VerifyArgs) (iter : Nat) (targetAS : UInt32) (hashbuff : List UInt8)
    (seg : PathSegment) (ss : SigSegment) (sss : List SigSegment) : Except Outcome Prepared :=
  match putSegment hashbuff targetAS seg with
  | none => .error (.fault .hashbuff)
  | some hashbuff =>
      match sss with
      | [] => .error (.ret .error)
      | next :: _ =>
          match Buffer.readOn next.signature next.sigLen.toNat (a.beyond.octet iter) with
          | none => .error (.fault .signature)
          | some signature =>
              let written := Buffer.spill hashbuff 10 signature
              let hashLen := 10 + next.sigLen.toNat
              let way := transitCheckBy a iter
              .ok ⟨⟨way.1, sslVerifyData a (written.1 ++ written.2) hashLen ss⟩,
                copyStrays next ++ way.2, written.1⟩

/-- The origin's segment up to its check (960-1044): the octets end with the prefix. -/
def prepareOrigin (a : VerifyArgs) (iter : Nat) (targetAS : UInt32) (hashbuff : List UInt8)
    (seg : PathSegment) (ss : SigSegment) : Except Outcome Prepared :=
  match putSegment hashbuff targetAS seg with
  | none => .error (.fault .hashbuff)
  | some hashbuff =>
      match a.p with
      | none => .error (.fault .nlri)
      | some p =>
          let written := do
            let hashbuff ← Buffer.write hashbuff 10 [a.algoSuiteId]
            let hashbuff ← Buffer.write hashbuff 11 [p.prefixlen]
            Buffer.write hashbuff 12 (p.u.take (psize p.prefixlen))
          match written with
          | none => .error (.fault .hashbuff)
          | some hashbuff =>
              let hashLen := 12 + psize p.prefixlen
              let way := originCheckBy a iter
              .ok ⟨⟨way.1, sslVerifyData a hashbuff hashLen ss⟩, way.2, hashbuff⟩

/-- A check, and the rest of the run when it succeeds. -/
def runCheck (oracle : Check → Option VerifyStatus) (c : Checked) (rest : VerifyRun) : VerifyRun :=
  match oracle c.check with
  | none => ⟨[c], .fault .check⟩
  | some .success => ⟨c :: rest.checks, rest.outcome⟩
  | some _ => ⟨[c], .ret .error⟩

/-- The loop (869-1054): `iter` counts down, `seg` and `ss` walk their lists. -/
def verifyLoop (oracle : Check → Option VerifyStatus) (a : VerifyArgs) :
    Nat → UInt32 → List UInt8 → List PathSegment → List SigSegment → VerifyRun
  | 0, _, _, _, _ => ⟨[], .ret .success⟩
  | _ + 1, _, _, [], _ => ⟨[], .ret .success⟩
  | _ + 1, _, _, _ :: _, [] => ⟨[], .ret .success⟩
  | iter + 1, targetAS, hashbuff, seg :: segs, ss :: sss =>
      if 1 < iter + 1 then
        match prepareTransit a (iter + 1) targetAS hashbuff seg ss sss with
        | .error o => ⟨[], o⟩
        | .ok r =>
            runCheck oracle ⟨seg, r.check, r.strays⟩
              (verifyLoop oracle a iter seg.as r.hashbuff segs sss)
      else
        match prepareOrigin a (iter + 1) targetAS hashbuff seg ss with
        | .error o => ⟨[], o⟩
        | .ok r =>
            runCheck oracle ⟨seg, r.check, r.strays⟩
              (verifyLoop oracle a iter targetAS r.hashbuff segs sss)

/-- `cl_BgpsecVerify`, which the API function `validate` calls. What `hashbuff` holds before the
    loop is never read. -/
def clBgpsecVerify (beyond : Beyond) (oracle : Check → Option VerifyStatus)
    (bpa : Option BgpsecPathAttr) (numberKeys : UInt16) (keys : Option (List (Option BGPSecKey)))
    (p : Option Prefix) (localAs : UInt32) : VerifyRun :=
  match bpa, bgpsecSanityCheck bpa with
  | some ⟨securePathLen, segs, sb :: _⟩, 0 =>
      verifyLoop oracle ⟨sb.algoSuiteId, numberKeys, keys, p, beyond⟩
        (numSecurePathSegment securePathLen).toNat localAs (List.replicate hashbuffSize 0) segs
        sb.sigSegments
  | _, _ => ⟨[], .ret .error⟩

end SrxNote.Crypto
