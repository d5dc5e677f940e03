import SrxNote.Intern.Copy

/-!
# The tables of BGPsec paths and of route attributes

`bgpsec_path_intern` and `bgpsec_path_unintern` with the hash table they share
(`diff-QuaggaSRx_SvnRev2241-stock.patch:5851-5893`), and what the patch adds to
the key and the comparison of Quagga's table of route attributes (1352-1371).

Quagga's `hash_get` and `hash_release` walk the backets of one key, the newest
first, and compare with those whose key is equal; the list of all backets in
this order stands for the table.
-/

namespace SrxNote.Intern

/-- `struct hash_backet`. -/
structure Backet where
  key : UInt32
  data : AttrNode
  deriving DecidableEq

/-- The memory and `bgpsechash`. -/
structure Bgpsechash where
  memory : Memory
  backets : List Backet
  deriving DecidableEq

/-- The search of `hash_get`: `some none` when no backet matches. -/
def hashLookup (key : UInt32) (data : AttrNode) : List Backet → Option (Option AttrNode)
  | [] => some none
  | b :: bs =>
      if b.key ≠ key then hashLookup key data bs
      else
        match bgpsecPathAttrCmp (some b.data) (some data) with
        | none => none
        | some true => some (some b.data)
        | some false => hashLookup key data bs

/-- `hash_get` with `bgpsec_path_hash_alloc`. -/
def hashGet (jhash : List UInt8 → UInt32) (s : Bgpsechash) (data : AttrNode) :
    Option (Bgpsechash × Option AttrNode) :=
  match bgpsecPathAttrKeyMake jhash data with
  | none => none
  | some key =>
      match hashLookup key data s.backets with
      | none => none
      | some (some find) => some (s, some find)
      | some none =>
          match bgpsecPathHashAlloc s.memory data with
          | none => none
          | some (m, none) => some (⟨m, s.backets⟩, none)
          | some (m, some new) => some (⟨m, ⟨key, new⟩ :: s.backets⟩, some new)

/-- The walk of `hash_release`: the data of the first backet that matches and the table without this
    backet. -/
def hashReleaseKey (key : UInt32) (data : AttrNode) :
    List Backet → Option (Option (AttrNode × List Backet))
  | [] => some none
  | b :: bs =>
      if b.key ≠ key then
        (hashReleaseKey key data bs).map fun r => r.map fun (ret, bs) => (ret, b :: bs)
      else
        match bgpsecPathAttrCmp (some b.data) (some data) with
        | none => none
        | some true => some (some (b.data, bs))
        | some false =>
            (hashReleaseKey key data bs).map fun r => r.map fun (ret, bs) => (ret, b :: bs)

/-- `hash_release`. -/
def hashRelease (jhash : List UInt8 → UInt32) (backets : List Backet) (data : AttrNode) :
    Option (Option (AttrNode × List Backet)) :=
  match bgpsecPathAttrKeyMake jhash data with
  | none => none
  | some key => hashReleaseKey key data backets

/-- `find->refcnt++`. -/
def addRef (m : Memory) (p : Nat) : Option Memory :=
  match m.read p with
  | none => none
  | some refcnt => m.write p (refcnt + 1)

/-- `bgpsec_path_intern` (5876-5893). -/
def bgpsecPathIntern (jhash : List UInt8 → UInt32) (s : Bgpsechash) (bpa : AttrNode) :
    Option (Bgpsechash × AttrNode) :=
  match s.memory.read bpa.addr with
  | some 0 =>
      match hashGet jhash s bpa with
      | some (s, some find) =>
          match if find ≠ bpa then bgpsecPathFree s.memory bpa else some s.memory with
          | none => none
          | some m => (addRef m find.addr).map fun m => (⟨m, s.backets⟩, find)
      | _ => none
  | _ => none

/-- `bgpsec_path_unintern` (5851-5872), with the assertion that the entry is found. The second
    component is what `*pbpa` is afterwards. -/
def bgpsecPathUnintern (jhash : List UInt8 → UInt32) (s : Bgpsechash) (bpa : AttrNode) :
    Option (Bgpsechash × Option AttrNode) :=
  match s.memory.read bpa.addr with
  | none => none
  | some refcnt =>
      match s.memory.write bpa.addr (refcnt - 1) with
      | none => none
      | some m =>
          if refcnt - 1 = 0 then
            match hashRelease jhash s.backets bpa with
            | some (some (_, backets)) =>
                (bgpsecPathFree m bpa).map fun m => (⟨m, backets⟩, none)
            | _ => none
          else some (⟨m, s.backets⟩, some bpa)

/-! ### Runs of the intern table -/

/-- A reference that was handed out and not given back: what was interned and what was returned
    for it. -/
structure Reference where
  asked : AttrNode
  got : AttrNode
  deriving DecidableEq

/-- The table together with the references that are outstanding. -/
structure InternState extends Bgpsechash where
  refs : List Reference
  deriving DecidableEq

/-- The callers intern an attribute they have built, or give a reference back. -/
inductive InternOp where
  | intern (bpa : AttrNode)
  | unintern (bpa : AttrNode)

/-- Nothing is interned. The address 0 is NULL and behind it there is never anything. -/
def InternState.init : InternState := ⟨⟨[none], []⟩, []⟩

/-- The memory after `bpa` was built on it: all its nodes and buffers are newly allocated, in any
    order. -/
def build (m : Memory) (bpa : AttrNode) : Option Memory :=
  if bpa.addrs.Perm (List.range' m.fresh bpa.addrs.length) then
    some (m ++ List.replicate bpa.addrs.length (some 0))
  else none

/-- One operation. A step of `none` is one that the C code may not make. -/
def internStep (jhash : List UInt8 → UInt32) (s : InternState) : InternOp → Option InternState
  | .intern bpa =>
      match build s.memory bpa with
      | none => none
      | some m =>
          (bgpsecPathIntern jhash ⟨m, s.backets⟩ bpa).map fun (t, find) =>
            ⟨t, ⟨bpa, find⟩ :: s.refs⟩
  | .unintern bpa =>
      (bgpsecPathUnintern jhash s.toBgpsechash bpa).map fun (t, _) =>
        ⟨t, s.refs.eraseP fun r => r.got = bpa⟩

/-! ### The route attributes -/

/-- `struct attr`: the fields of stock Quagga and the pointer that the patch adds. -/
structure RouteAttr (σ : Type) where
  stock : σ
  bgpsecPathAttr : Option AttrNode

/-- The value of the pointer. -/
def RouteAttr.pointer {σ : Type} (attr : RouteAttr σ) : Nat :=
  match attr.bgpsecPathAttr with
  | none => 0
  | some bpa => bpa.addr

/-- What Quagga computes of its own fields: the key, and the comparison before and after the place
    of the patch. -/
structure StockAttrhash (σ : Type) where
  keyMake : σ → UInt32
  cmpBefore : σ → σ → Bool
  cmpAfter : σ → σ → Bool

/-- `attrhash_key_make` with the patch (1352-1354): `jhash_1word` takes a 32-bit word, so that `mix`
    gets the low half of the pointer. -/
def attrhashKeyMake {σ : Type} (stock : StockAttrhash σ) (mix : UInt32 → UInt32 → UInt32)
    (attr : RouteAttr σ) : UInt32 :=
  mix (UInt32.ofNat attr.pointer) (stock.keyMake attr.stock)

/-- `attrhash_cmp` with the patch (1364-1366). -/
def attrhashCmp {σ : Type} (stock : StockAttrhash σ) (attr1 attr2 : RouteAttr σ) : Option Bool :=
  if stock.cmpBefore attr1.stock attr2.stock then
    match bgpsecPathAttrCmp attr1.bgpsecPathAttr attr2.bgpsecPathAttr with
    | some true => some (stock.cmpAfter attr1.stock attr2.stock)
    | other => other
  else some false

end SrxNote.Intern
