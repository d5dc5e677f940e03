import SrxNote.Crypto.Api

/-!
# Key data and key files

How the crypto library tells a private key from a public one in DER octets
(`IS_DER_PRIVATE`, `bgpsec_openssl-VariousKeyManipulation.c:1937-2016`), and the
file name that belongs to a SKI (`sca_FindDirInSKI`,
`srxcryptoapi-VariousKeyManipulation.c:1109-1132`). `perf_test.c` reads the digits
of a SKI on its own (`hex2bin_byte`, `init_handle`, 114-136).
-/

namespace SrxNote.Crypto
open SrxNote.Bgpsec

def idSequence : UInt8 := 0x30
def idInteger : UInt8 := 0x02
def idOctetString : UInt8 := 0x04

/-- The content of the outer SEQUENCE from `pos`, an `unsigned char`: 1 for an INTEGER followed by
    an OCTET STRING, 0 for a SEQUENCE, else -1 (1969-1988, 1998-2013). -/
def derContent (p : List UInt8) (pos : UInt8) : Option Int := do
  let id ← p[pos.toNat]?
  if id = idInteger then
    let intLen ← p[(pos + 1).toNat]?
    let id' ← p[(pos + 2 + intLen).toNat]?
    return if id' = idOctetString then 1 else -1
  else return if id = idSequence then 0 else -1

/-- `IS_DER_PRIVATE` on a buffer that is not NULL: 1 for a private key, 0 for a public key and -1
    for anything else; `none` when it reads behind the buffer. -/
def isDerPrivate (p : List UInt8) (length : UInt16) : Option Int := do
  let id ← p[0]?
  if id ≠ idSequence then return -1
  let initLen ← p[1]?
  if length < 127 ∧ initLen &&& 0x80 = 0 then derContent p 2
  else derContent p (2 + (initLen &&& 0x7f))

/-- `%X` of a nibble. -/
def hexDigit (n : Nat) : Char := if n < 10 then Char.ofNat (48 + n) else Char.ofNat (55 + n)

/-- `%02X` of every octet. -/
def skiHex (ski : List UInt8) : List Char :=
  ski.flatMap fun octet => [hexDigit (octet.toNat / 16), hexDigit (octet.toNat % 16)]

/-- `MAXPATHLEN`. -/
def maxPathLen : Nat := 4096

/-- `sca_FindDirInSKI`: the name cut off to the buffer, whose last two places are not written;
    `none` when the SKI is NULL or too short. -/
def scaFindDirInSKI (keyPath : List Char) (filenamebufLen : Nat) (ski : Option (List UInt8)) :
    Option (List Char) :=
  match ski with
  | none => none
  | some ski =>
      if ski.length < skiLength then none
      else
        let hex := skiHex (ski.take skiLength)
        some ((keyPath ++ ['/'] ++ hex.take 2 ++ ['/'] ++ (hex.drop 2).take 4 ++ ['/'] ++
          hex.drop 6).take (filenamebufLen - 2))

/-- One round of the loop in `hex2bin_byte` of `perf_test.c`, for an `unsigned char`. -/
def hex2binDigit (c : Char) : UInt8 :=
  if 0x40 < c.toNat then UInt8.ofNat (c.toNat - 0x37) &&& 0x0f
  else if 0x30 < c.toNat ∧ c.toNat < 0x40 then UInt8.ofNat (c.toNat - 0x30)
  else 0

/-- `init_handle`: two digits of the string for each octet; `none` when it reads behind the string. -/
def initHandle (ski : List Char) : Option (List UInt8) :=
  (List.range skiLength).mapM fun i => do
    let hi ← ski[2 * i]?
    let lo ← ski[2 * i + 1]?
    return hex2binDigit hi <<< 4 ||| hex2binDigit lo

end SrxNote.Crypto
