import Mathlib.Algebra.Group.Int.Defs
import Mathlib.Algebra.GroupWithZero.Nat
import SrxNote.Misc.Octets

/-!
# The BGPSEC_Path attribute

The pointer structure that the parser, the encoder and the validation share
(`bgp_validate.h`, `diff-QuaggaSRx_SvnRev2241-stock.patch:4657-4724`). A chain
of nodes linked by `next` is a list; a `u_char*` is `none` when it is NULL and
otherwise the octets it points to, whose number is not tied to `sigLen` by the
type. The nodes' `refcnt` fields are read by none of the functions modelled
here and are left out.
-/

namespace SrxNote.Bgpsec

/-- `SKI_LENGTH`, `BGPSEC_SKI_LENGTH`. -/
def skiLength : Nat := 20

/-- `BGPSEC_MAX_SIGBLOCK` (4677). -/
def bgpsecMaxSigblock : Nat := 2

/-- `OCTET_SECURE_PATH_SEGMENT` (4679), also `LEN_SECPATHSEGMENT`. -/
def octetSecurePathSegment : Nat := 6

/-- `OCTET_SECURE_PATH_LEN` (4680). -/
def octetSecurePathLen : Nat := 2

/-- `struct PathSegment` (4686-4693). -/
structure PathSegment where
  as : UInt32
  pCount : UInt8
  flags : UInt8
  deriving DecidableEq, Repr

/-- `struct SigSegment` (4695-4702). -/
structure SigSegment where
  ski : Option (List UInt8)
  sigLen : UInt16
  signature : Option (List UInt8)
  deriving DecidableEq, Repr

/-- `struct SigBlock` (4704-4711). -/
structure SigBlock where
  sigBlockLen : UInt16
  algoSuiteId : UInt8
  sigSegments : List SigSegment
  deriving DecidableEq, Repr

/-- `struct BgpsecPathAttr` (4714-4724); `size_t` has 64 bits. -/
structure BgpsecPathAttr where
  securePathLen : UInt64
  pathSegments : List PathSegment
  sigBlocks : List SigBlock
  deriving DecidableEq, Repr

/-- `(securePathLen - OCTET_SECURE_PATH_LEN) / OCTET_SECURE_PATH_SEGMENT` in `size_t`, stored
    in an `int` and from there in an `u_short`: the number of segments that the parser
    (6063-6064) and the validation loop count down. -/
def numSecurePathSegment (securePathLen : UInt64) : UInt16 :=
  ((securePathLen - UInt64.ofNat octetSecurePathLen) /
    UInt64.ofNat octetSecurePathSegment).toUInt16

/-- `bgpsecSanityCheck` (6593-6617), and its twin `cl_BgpsecSanityCheck` of the crypto library
    (`bgpsec_openssl-VariousKeyManipulation.c:1148-1172`): 0 when the attribute, its first
    path segment, first block and first signature segment are there and the latter has a
    signature and a SKI, otherwise -1. -/
def bgpsecSanityCheck (bpa : Option BgpsecPathAttr) : Int :=
  match bpa with
  | none => -1
  | some bpa =>
      match bpa.pathSegments, bpa.sigBlocks with
      | [], _ => -1
      | _, [] => -1
      | _ :: _, sb :: _ =>
          match sb.sigSegments with
          | [] => -1
          | ss :: _ => if ss.signature.isNone || ss.ski.isNone then -1 else 0

theorem toNat_numSecurePathSegment (spl : UInt64) :
    (numSecurePathSegment spl).toNat = (spl.toNat + (2 ^ 64 - 2)) % 2 ^ 64 / 6 % 2 ^ 16 := by
  have h2 : (UInt64.ofNat octetSecurePathLen).toNat = 2 := rfl
  have h6 : (UInt64.ofNat octetSecurePathSegment).toNat = 6 := rfl
  rw [numSecurePathSegment, UInt64.toNat_toUInt16, UInt64.toNat_div, UInt64.toNat_sub, h2, h6,
    Nat.add_comm]

/-- On a Secure_Path length that counts its own two octets and `n` segments the count is `n`,
    up to the 16 bits it is kept in. -/
theorem numSecurePathSegment_of_eq {spl : UInt64} {n : Nat} (h : spl.toNat = 2 + 6 * n) :
    (numSecurePathSegment spl).toNat = n % 2 ^ 16 := by
  have hlt := spl.toNat_lt
  have hdiff : (2 + 6 * n + (2 ^ 64 - 2)) % 2 ^ 64 = 6 * n := by omega
  rw [toNat_numSecurePathSegment, h, hdiff, Nat.mul_div_cancel_left n (by omega)]

/-- A passed sanity check exposes the nodes it looked at. -/
theorem bgpsecSanityCheck_eq_zero {bpa : Option BgpsecPathAttr} (h : bgpsecSanityCheck bpa = 0) :
    ∃ a seg segs sb sbs ss sss sig ski, bpa = some a ∧ a.pathSegments = seg :: segs ∧
      a.sigBlocks = sb :: sbs ∧ sb.sigSegments = ss :: sss ∧ ss.signature = some sig ∧
      ss.ski = some ski := by
  match bpa, h with
  | none, h => simp [bgpsecSanityCheck] at h
  | some ⟨_, [], _⟩, h => simp [bgpsecSanityCheck] at h
  | some ⟨_, _ :: _, []⟩, h => simp [bgpsecSanityCheck] at h
  | some ⟨_, _ :: _, ⟨_, _, []⟩ :: _⟩, h => simp [bgpsecSanityCheck] at h
  | some ⟨spl, seg :: segs, ⟨len, algo, ss :: sss⟩ :: sbs⟩, h =>
      obtain ⟨ski, sigLen, sig⟩ := ss
      cases sig with
      | none => simp [bgpsecSanityCheck] at h
      | some sig =>
          cases ski with
          | none => simp [bgpsecSanityCheck] at h
          | some ski => exact ⟨_, _, _, _, _, _, _, sig, ski, rfl, rfl, rfl, rfl, rfl, rfl⟩

end SrxNote.Bgpsec
