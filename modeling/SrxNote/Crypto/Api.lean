import SrxNote.Bgpsec.Attr

/-!
# The data of the crypto API

What `bgpsec_openssl-VariousKeyManipulation.c` shares with its callers: the keys,
the data that is signed or verified, the announced prefix, and the codes of a
verification.
-/

namespace SrxNote.Crypto
open SrxNote.Bgpsec

/-- The result of a verification: `API_BGPSEC_VERIFY_SUCCESS`, `API_BGPSEC_VERIFY_FAILURE`, and
    `API_BGPSEC_VERIFY_ERROR`, which is the -1 that the functions also return by value
    (`diff_time-measure-GETRUSAGE_FileDesc.patch:24-27`). -/
inductive VerifyStatus where
  | success
  | failure
  | error
  deriving DecidableEq, Repr

/-- A heap buffer: its address and what it holds. -/
structure KeyBuffer where
  addr : Nat
  octets : List UInt8
  deriving DecidableEq, Repr

/-- `BGPSecKey`. The key data is a buffer that need not be `keyLength` octets long. -/
structure BGPSecKey where
  algoID : UInt8
  asn : UInt32
  ski : List UInt8
  keyLength : UInt16
  keyData : Option KeyBuffer
  ski_length : ski.length = skiLength
  deriving DecidableEq

/-- `BGPSecSignData` as a verification fills it in: `data` is the part of its buffer that
    `dataLength` covers. -/
structure BGPSecSignData where
  data : List UInt8
  ski : Option (List UInt8)
  algoID : UInt8
  signature : Option (List UInt8)
  sigLen : UInt16
  deriving DecidableEq, Repr

/-- `PSIZE` (`perf_test.h:50`). -/
def psize (prefixlen : UInt8) : Nat := (prefixlen.toNat + 7) / 8

/-- `struct prefix`: the union holds all octets that the length stands for. -/
structure Prefix where
  prefixlen : UInt8
  u : List UInt8
  psize_le : psize prefixlen ≤ u.length
  deriving DecidableEq

end SrxNote.Crypto
