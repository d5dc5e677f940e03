import SrxNote.Crypto.VerifySignature
import SrxNote.Misc.Heap

/-!
# The private key store

The store of `bgpsec_openssl-VariousKeyManipulation.c`: the uthash table
`g_records`, keyed by the AS number alone, and beside it the array
`stEnbuf_Eckey`, indexed by the low bits of a record's hash value. An id is such
an index plus one. EC keys are objects behind handles; a key's buffer belongs to
the caller and is known by its address. A result of `none` is an access that the
C code may not make and that ends the run; where the loop of `unregisterPrivateKey`
reads a record that it has freed, the run goes on, and the result says so.
-/

namespace SrxNote.KeyStore
open SrxNote.Bgpsec SrxNote.Crypto

/-- What the store takes from elsewhere: uthash's hash of an AS number, `ID_NUM_MAX`, a power of two
    not above 256, and `sizeof(EC_KEY)`. -/
structure Params where
  hash : UInt32 → UInt32
  idBits : Nat
  idBits_le : idBits ≤ 8
  sizeofEcKey : UInt16

/-- `ID_NUM_MAX`. -/
def Params.idNumMax (prm : Params) : Nat := 2 ^ prm.idBits

/-- `RET_ID_OFFSET`. -/
def retIdOffset : UInt8 := 1

/-- `API_BGPSEC_ALGO_ID_256`. -/
def apiBgpsecAlgoId256 : UInt8 := 1

/-- `Record_t` without its links: the key, the SKI, the stored `BGPSecKey` and `hh.hashv`. -/
structure Record where
  asn : UInt32
  ski : List UInt8
  data : BGPSecKey
  hashv : UInt32
  deriving DecidableEq

/-- `struct Enbuf_Eckey_t` (21-26): the address of a buffer and the handle of an EC key. -/
structure Slot where
  enBuf : Option Nat
  ecKey : Option Nat
  id : Nat
  deriving DecidableEq, Repr

/-- An entry of the zeroed array. -/
def Slot.empty : Slot := ⟨none, none, 0⟩

/-- The address of a key's buffer. -/
def keyDataAddr (key : BGPSecKey) : Option Nat := key.keyData.map KeyBuffer.addr

variable (ssl : OpenSSL)

/-- The store: `g_records` in the order of insertion, the number of buckets of its table,
    `stEnbuf_Eckey`, and the EC keys. -/
structure Store where
  gRecords : List Record
  numBuckets : Nat
  stEnbufEckey : Nat → Slot
  ecKeys : Heap ssl.ECKey

/-- The store of a program that has just been started. -/
def Store.init : Store ssl := ⟨[], 0, fun _ => Slot.empty, []⟩

variable {ssl} (prm : Params)

/-- `hashv & (ID_NUM_MAX-1)`: the index of the slot. -/
def Params.slotOf (hashv : UInt32) : Nat := hashv.toNat &&& (prm.idNumMax - 1)

/-! ### uthash -/

/-- `HASH_FIND`: the record with the AS number that was added last. -/
def hashFind (records : List Record) (asn : UInt32) : Option Record :=
  records.reverse.find? fun r => r.asn = asn

/-- `HASH_INITIAL_NUM_BUCKETS`. -/
def hashInitialNumBuckets : Nat := 32

/-- `HASH_ADD`: an empty table is made anew, and adding may double the number of buckets. -/
def hashAdd (st : Store ssl) (r : Record) (expand : Bool) : Store ssl :=
  let numBuckets := if st.gRecords = [] then hashInitialNumBuckets else st.numBuckets
  { st with
    gRecords := st.gRecords ++ [r]
    numBuckets := if expand then 2 * numBuckets else numBuckets }

/-! ### Registration -/

/-- `restoreKeyInfo` (1416-1453). -/
def restoreKeyInfo (st : Store ssl) (ski : List UInt8) (asn : UInt32) : Option Record :=
  match hashFind st.gRecords asn with
  | none => none
  | some out => if out.ski = ski then some out else none

/-- `restoreKeyInfo_withID` (1455-1478). Each branch of the loop returns, so that it ends with the first
    record. -/
def restoreKeyInfoWithID (st : Store ssl) (ski : List UInt8) (asn id : UInt32) : Option Record :=
  match st.gRecords with
  | [] => none
  | s :: _ =>
      if s.asn = asn ∧ s.ski = ski then
        if id = s.hashv then some s else none
      else none

/-- `hashKey_get_BGPSecKey` (1480-1506). -/
def hashKeyGetBGPSecKey (st : Store ssl) (asn : UInt32) (ski : List UInt8) : Option BGPSecKey :=
  if asn = 0 then none else (restoreKeyInfo st ski asn).map Record.data

/-- Which of the three allocations of `inputKeyInfo` succeed. -/
structure Alloc where
  bsKeyInfo : Bool
  record : Bool
  ski : Bool
  deriving DecidableEq, Repr

/-- The record that `inputKeyInfo` adds for a key. -/
def newRecord (key : BGPSecKey) : Record :=
  ⟨key.asn, key.ski, { key with algoID := apiBgpsecAlgoId256, keyLength := prm.sizeofEcKey },
    prm.hash key.asn⟩

/-- `inputKeyInfo` (1347-1404) for an EC key and a key that are there: the slot index, or `none` for
    the -1. Without `bsKeyInfo` an uninitialized pointer is freed, without the record NULL is
    written to. -/
def inputKeyInfo (st : Store ssl) (key : BGPSecKey) (alloc : Alloc) (expand : Bool) :
    Option (Option Nat × Store ssl) :=
  if ¬ alloc.bsKeyInfo ∨ ¬ alloc.record then none
  else if ¬ alloc.ski then some (none, st)
  else
    some (some (prm.slotOf (prm.hash key.asn)), hashAdd st (newRecord prm key) expand)

/-- `d2i_ECPrivateKey` on a key's buffer (1579): NULL fails when nothing is to be read. -/
def decodeKey (ssl : OpenSSL) (key : BGPSecKey) : Option (Option ssl.ECKey) :=
  match key.keyData with
  | none => if key.keyLength = 0 then some none else none
  | some p => some (ssl.d2iECPrivateKey p.octets key.keyLength.toNat)

/-- The id of a slot, a `u_int8_t`. -/
def idOfSlot (i : Nat) : UInt8 := UInt8.ofNat i + retIdOffset

/-- Storing the EC key (1606-1608); after a failed `inputKeyInfo` the index is 0. -/
def storeKey (st : Store ssl) (i : Nat) (ecKey : ssl.ECKey) (key : BGPSecKey) : Store ssl :=
  { st with
    stEnbufEckey := Function.update st.stEnbufEckey i ⟨keyDataAddr key, some st.ecKeys.fresh, i⟩
    ecKeys := st.ecKeys.alloc ecKey }

/-- `registerPrivateKey` (1522-1625). -/
def registerPrivateKey (st : Store ssl) (outKey : Option BGPSecKey) (alloc : Alloc)
    (expand : Bool) : Option (UInt8 × Store ssl) :=
  match outKey with
  | none => some (0, st)
  | some key =>
      if key.asn = 0 then some (0, st)
      else
        match restoreKeyInfo st key.ski key.asn with
        | some rec => some (idOfSlot (prm.slotOf rec.hashv), st)
        | none =>
            match decodeKey ssl key with
            | none => none
            | some none => some (0, st)
            | some (some ecKey) =>
                match inputKeyInfo prm st key alloc expand with
                | none => none
                | some (retVal, st) =>
                    let i := retVal.getD 0
                    some (idOfSlot i, storeKey st i ecKey key)

/-- The key of a record for a caller (1665-1677): `malloc` gives a buffer of the stored length for the
    stored data. What the caller has set stays. -/
def copyStoredKey (stored outKey : BGPSecKey) (malloc : Option Nat) : Option BGPSecKey :=
  let keyData : Option (Option KeyBuffer) :=
    match malloc with
    | none => some none
    | some addr =>
        (Buffer.read (stored.keyData.map KeyBuffer.octets) stored.keyLength.toNat).map fun octets =>
          some ⟨addr, octets⟩
  keyData.map fun keyData =>
    { outKey with
      keyData := outKey.keyData.or keyData
      keyLength := if outKey.keyLength = 0 then stored.keyLength else outKey.keyLength }

/-- `registerPublicKey` (1635-1749): the id, the caller's key afterwards, and the store. The argument
    that `inputKeyInfo` is passed in addition has no parameter there. -/
def registerPublicKey (st : Store ssl) (outKey : Option BGPSecKey) (malloc : Option Nat)
    (alloc : Alloc) (expand : Bool) : Option (UInt8 × Option BGPSecKey × Store ssl) :=
  match outKey with
  | none => some (0, none, st)
  | some key =>
      if key.asn = 0 then some (0, some key, st)
      else
        match restoreKeyInfo st key.ski key.asn with
        | some rec =>
            (copyStoredKey rec.data key malloc).map fun key =>
              (idOfSlot (prm.slotOf rec.hashv), some key, st)
        | none =>
            match key.keyData with
            | none => some (0, some key, st)
            | some p =>
                match ssl.d2iPUBKEY p.octets key.keyLength.toNat with
                | none => some (0, some key, st)
                | some pkey =>
                    match ssl.evpPkeyGet1ECKey pkey with
                    | none => none
                    | some _ =>
                        (inputKeyInfo prm st key alloc expand).map fun (retVal, st) =>
                          (idOfSlot (retVal.getD 0), some key, st)

/-- The record is one that unregistering a slot deletes (1868-1871). -/
def isDeleted (numBuckets keyID : Nat) (enBuf : Option Nat) (s : Record) : Bool :=
  s.hashv.toNat &&& (numBuckets - 1) = keyID ∧ enBuf = keyDataAddr s.data

/-- The loop over `g_records` (1864-1880): the records that are left, and whether `s->hh.next` was read
    from a record that had just been freed. Such a run goes on with the link as it was. -/
def deleteRecords (deleted : Record → Bool) : List Record → List Record × Bool
  | [] => ([], false)
  | s :: next =>
      let rest := deleteRecords deleted next
      if deleted s then (rest.1, true) else (s :: rest.1, rest.2)

/-- What `unregisterPrivateKey` leaves: the store, and whether a freed record was read. -/
structure Unregistered (ssl : OpenSSL) where
  store : Store ssl
  readsFreed : Bool

/-- `unregisterPrivateKey` (1844-1899). -/
def unregisterPrivateKey (st : Store ssl) (inID : UInt8) : Option (Unregistered ssl) :=
  let keyID := (inID - retIdOffset).toNat
  if prm.idNumMax ≤ keyID then none
  else
    let slot := st.stEnbufEckey keyID
    if keyID ≠ slot.id then some ⟨st, false⟩
    else
      let loop := deleteRecords (isDeleted st.numBuckets keyID slot.enBuf) st.gRecords
      let emptied := Function.update st.stEnbufEckey keyID Slot.empty
      match slot.ecKey with
      | none => some ⟨{ st with gRecords := loop.1, stEnbufEckey := emptied }, loop.2⟩
      | some h =>
          match st.ecKeys.free h with
          | none => none
          | some ecKeys =>
              some ⟨{ st with gRecords := loop.1, stEnbufEckey := emptied, ecKeys := ecKeys }, loop.2⟩

/-! ### Signing with an id -/

/-- The data to be signed: what is behind `data`, the algorithm, and whether `signature` points to
    anything. -/
structure SignRequest where
  data : Option (List UInt8)
  algoID : UInt8
  hasSignature : Bool

/-- Signing with an EC key (790-806): the value returned and whether the key was freed. -/
def signWithKey (ssl : OpenSSL) (data : List UInt8) (algoID : UInt8) (ecKey : ssl.ECKey) :
    Int × Bool :=
  if ¬ ssl.ecKeyCheckKey ecKey then (0, false)
  else if algoID = apiBgpsecAlgoId256 then clBgpsecECDSASign ssl (ssl.sha256 data) ecKey
  else (0, false)

/-- The EC key that an id stands for (778-785): `some none` is NULL. -/
def signingKey (st : Store ssl) (inID : UInt8) : Option (Option ssl.ECKey) :=
  let keyID := (inID - retIdOffset).toNat
  if prm.idNumMax ≤ keyID then none
  else
    match (st.stEnbufEckey keyID).ecKey with
    | none => some none
    | some h => (st.ecKeys.read h).map some

/-- `stBgpsecReqSigningWithID` (766-813), with `cl_SignParamWithIDSanityCheck` (1134-1146). The check
    of a NULL key fails. -/
def stBgpsecReqSigningWithID (st : Store ssl) (req : SignRequest) (inID : UInt8) :
    Option (Int × Bool) :=
  match req.data with
  | none => some (-1, false)
  | some data =>
      if ¬ req.hasSignature ∨ inID = 0 then some (-1, false)
      else
        match signingKey prm st inID with
        | none => none
        | some none => some (0, false)
        | some (some ecKey) => some (signWithKey ssl data req.algoID ecKey)

/-! ### Runs -/

/-- A call of the store's API, with what it does not control. -/
inductive Op where
  | register (key : BGPSecKey) (alloc : Alloc) (expand : Bool)
  | unregister (id : UInt8)

/-- The store, and the keys that are live: registered under an id other than 0 that was not
    unregistered since. -/
structure State (ssl : OpenSSL) where
  store : Store ssl
  live : List (UInt8 × BGPSecKey)

/-- The state before the first call. -/
def State.init (ssl : OpenSSL) : State ssl := ⟨Store.init ssl, []⟩

/-- One call. -/
def step (s : State ssl) : Op → Option (State ssl)
  | .register key alloc expand =>
      match registerPrivateKey prm s.store (some key) alloc expand with
      | none => none
      | some (id, store) => some ⟨store, if id = 0 then s.live else (id, key) :: s.live⟩
  | .unregister id =>
      match unregisterPrivateKey prm s.store id with
      | none => none
      | some r => some ⟨r.store, s.live.filter fun e => e.1 ≠ id⟩

end SrxNote.KeyStore
