import SrxNote.Intern.Table
import SrxNote.Misc.Alloc

/-!
# Routes with interned attributes

What `bgp_update_main` does with the attributes of a route
(`diff-QuaggaSRx_SvnRev2241-stock.patch:3461-3479` and the stock code around it),
over Quagga's table of attributes. The attributes are objects with a count of
references; a copy of an attribute keeps the pointer to its BGPsec path, for
which nothing is counted. Who holds references beside the routes (`adj_in` for
the soft reconfiguration, `adj_out`) is in the list `held`.

The addresses of BGPsec paths are never given out twice, so that a path that was
freed stays one. Reading it ends the run.
-/

namespace SrxNote.Intern

/-- `BGP_ATTR_BGPSEC` (5364-5365). -/
def bgpAttrBgpsec : UInt64 := 33

/-- `ATTR_FLAG_BIT`. -/
def attrFlagBit (x : UInt64) : UInt64 := 1 <<< (x - 1)

/-- The fields of stock Quagga: `attr->flag`, wide enough for the bit of `BGP_ATTR_BGPSEC`, and the
    others. -/
structure StockAttr (σ : Type) where
  flag : UInt64
  fields : σ

/-- `struct attr`. -/
abbrev Attr (σ : Type) := RouteAttr (StockAttr σ)

/-- An attribute of the table with its count of references. -/
structure AttrObject (σ : Type) where
  attr : Attr σ
  refcnt : Nat

/-- A backet of `attrhash`. -/
structure AttrBacket where
  key : UInt32
  data : Nat

/-- The key of the table, and the comparison of the stock fields. -/
structure Attrhash (σ : Type) where
  keyMake : Attr σ → UInt32
  stock : StockAttrhash (StockAttr σ)

/-- A `struct bgp_info`: the prefix and peer it is for, its attribute, and `BGP_INFO_REMOVED`. -/
structure Route (ρ : Type) where
  id : ρ
  attr : Nat
  removed : Bool
  deriving DecidableEq

/-- The attributes with their table, the routes, the references that others hold, and the paths that
    `bgpsec_path_free` has freed. -/
structure Rib (ρ σ : Type) where
  objects : Heap (AttrObject σ)
  backets : List AttrBacket
  routes : List (Route ρ)
  held : List Nat
  freed : List Nat

variable {ρ σ : Type} [DecidableEq ρ]

/-- Nothing was received. -/
def Rib.init : Rib ρ σ := ⟨[], [], [], [], []⟩

/-- The path of an attribute was freed. -/
def pathFreed (freed : List Nat) (attr : Attr σ) : Bool :=
  match attr.bgpsecPathAttr with
  | none => false
  | some bpa => decide (bpa.addr ∈ freed)

/-- `attrhash_cmp` where paths may be freed: two pointers that are equal are not dereferenced. -/
def attrhashCmpFreed (hash : Attrhash σ) (freed : List Nat) (attr1 attr2 : Attr σ) : Option Bool :=
  if hash.stock.cmpBefore attr1.stock attr2.stock &&
      decide (attr1.bgpsecPathAttr ≠ attr2.bgpsecPathAttr) &&
      (pathFreed freed attr1 || pathFreed freed attr2) then
    none
  else attrhashCmp hash.stock attr1 attr2

/-- The search of `hash_get`: `some none` when no attribute of the table matches. -/
def attrhashLookup (hash : Attrhash σ) (s : Rib ρ σ) (attr : Attr σ) :
    List AttrBacket → Option (Option Nat)
  | [] => some none
  | b :: bs =>
      if b.key ≠ hash.keyMake attr then attrhashLookup hash s attr bs
      else
        match s.objects.read b.data with
        | none => none
        | some o =>
            match attrhashCmpFreed hash s.freed o.attr attr with
            | none => none
            | some true => some (some b.data)
            | some false => attrhashLookup hash s attr bs

/-- Quagga's `bgp_attr_intern`. -/
def bgpAttrIntern (hash : Attrhash σ) (s : Rib ρ σ) (attr : Attr σ) : Option (Rib ρ σ × Nat) :=
  match attrhashLookup hash s attr s.backets with
  | none => none
  | some none =>
      some ({ s with
        objects := s.objects.alloc ⟨attr, 1⟩
        backets := ⟨hash.keyMake attr, s.objects.fresh⟩ :: s.backets }, s.objects.fresh)
  | some (some p) =>
      (s.objects.read p).map fun o =>
        ({ s with objects := s.objects.set p (some { o with refcnt := o.refcnt + 1 }) }, p)

/-- Quagga's `bgp_attr_unintern`. The patch leaves `bgp_attr_unintern_sub` without a line for the
    BGPsec path (1372-1378). -/
def bgpAttrUnintern (s : Rib ρ σ) (p : Nat) : Option (Rib ρ σ) :=
  match s.objects.read p with
  | none => none
  | some o =>
      if o.refcnt - 1 = 0 then
        some { s with
          objects := s.objects.set p none
          backets := s.backets.filter fun b => b.data ≠ p }
      else some { s with objects := s.objects.set p (some { o with refcnt := o.refcnt - 1 }) }

/-- `bgpsec_path_free` (5838-5848); of a path that was freed it would read what is gone. -/
def freePath (s : Rib ρ σ) (bpa : AttrNode) : Option (Rib ρ σ) :=
  if bpa.addr ∈ s.freed then none else some { s with freed := bpa.addr :: s.freed }

/-- `UNSET_FLAG(attr_new->flag, BGP_ATTR_BGPSEC)`: the number 33, not its bit. -/
def unsetBgpsec (attr : Attr σ) : Attr σ :=
  { attr with stock := { attr.stock with flag := attr.stock.flag &&& ~~~bgpAttrBgpsec } }

/-- `attr->flag & ATTR_FLAG_BIT (BGP_ATTR_BGPSEC)`. -/
def hasBgpsec (attr : Attr σ) : Bool := attr.stock.flag &&& attrFlagBit bgpAttrBgpsec ≠ 0

/-- The same attribute comes in: the end of the branch (3461-3479). -/
def sameAttribute (s : Rib ρ σ) (attrNew : Nat) : Option (Rib ρ σ) :=
  match s.objects.read attrNew with
  | none => none
  | some o =>
      match o.attr.bgpsecPathAttr with
      | none => bgpAttrUnintern s attrNew
      | some bpa =>
          if hasBgpsec o.attr then
            (freePath
              { s with objects := s.objects.set attrNew (some { o with attr := unsetBgpsec o.attr }) }
              bpa).bind fun s => bgpAttrUnintern s attrNew
          else bgpAttrUnintern s attrNew

/-- `bgp_update_main`, as far as the attributes are concerned. -/
def bgpUpdateMain (hash : Attrhash σ) (s : Rib ρ σ) (id : ρ) (attr : Attr σ) : Option (Rib ρ σ) :=
  match bgpAttrIntern hash s attr with
  | none => none
  | some (s, attrNew) =>
      match s.routes.find? fun ri => ri.id = id with
      | none => some { s with routes := ⟨id, attrNew, false⟩ :: s.routes }
      | some ri =>
          match s.objects.read ri.attr, s.objects.read attrNew with
          | some old, some new =>
              match if ri.removed then some false
                else attrhashCmpFreed hash s.freed old.attr new.attr with
              | none => none
              | some true => sameAttribute s attrNew
              | some false =>
                  (bgpAttrUnintern s ri.attr).map fun s =>
                    { s with routes := ⟨id, attrNew, false⟩ :: s.routes.erase ri }
          | _, _ => none

/-- What happens: an update for a route, with new attributes or with stored ones, a reference that is
    taken or given back elsewhere, a route that is withdrawn, and one that is freed after that. -/
inductive RibOp (ρ σ : Type) where
  | update (id : ρ) (attr : Attr σ)
  | hold (attr : Attr σ)
  | release (p : Nat)
  | withdraw (ri : Route ρ)
  | infoFree (ri : Route ρ)

/-- One step. A reference that nobody holds is not given back, and a route that is not there is
    neither withdrawn nor freed. -/
def ribStep (hash : Attrhash σ) (s : Rib ρ σ) : RibOp ρ σ → Option (Rib ρ σ)
  | .update id attr => bgpUpdateMain hash s id attr
  | .hold attr => (bgpAttrIntern hash s attr).map fun (s, p) => { s with held := p :: s.held }
  | .release p =>
      if p ∈ s.held then (bgpAttrUnintern s p).map fun s => { s with held := s.held.erase p }
      else none
  | .withdraw ri =>
      if ri ∈ s.routes then
        some { s with routes := { ri with removed := true } :: s.routes.erase ri }
      else none
  | .infoFree ri =>
      if ri ∈ s.routes then
        (bgpAttrUnintern s ri.attr).map fun s => { s with routes := s.routes.erase ri }
      else none

end SrxNote.Intern
