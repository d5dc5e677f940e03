import Mathlib.Data.List.Basic

/-!
# The tables of update identifiers

`bgp_info_hash.c` (`diff-QuaggaSRx_SvnRev2241-stock.patch:8524-8606`). A table is
the list of its items in the order in which uthash links them, that is in the
order of their addition. An item refers to its route by the route's handle, and
identifiers are `uint32_t` numbers with which the functions do not calculate.

uthash may hold several items of one key, and then which of them `HASH_FIND`
returns depends on its buckets. `Uthash` is any such search.
-/

namespace SrxNote.Srx

/-- `struct bgp_info_hash_item`. -/
structure Item where
  identifier : Nat
  info : Nat
  deriving DecidableEq, Repr

/-- `HASH_FIND`: the position of an item with the identifier, if there is one. -/
structure Uthash where
  find : List Item → Nat → Option Nat
  find_some : ∀ {items id i}, find items id = some i →
    ∃ item, items[i]? = some item ∧ item.identifier = id
  find_none : ∀ {items id}, find items id = none → ∀ item ∈ items, item.identifier ≠ id

/-- `bgp_info_register` (8533-8560): the value it returns and the table. The identifier 0 is
    refused, any other one is added. -/
def bgpInfoRegister (items : List Item) (info identifier : Nat) : Int × List Item :=
  if identifier = 0 then (0, items) else (1, items ++ [⟨identifier, info⟩])

/-- `bgp_info_unregister` (8568-8578). -/
def bgpInfoUnregister (uthash : Uthash) (items : List Item) (identifier : Nat) : List Item :=
  match uthash.find items identifier with
  | none => items
  | some i => items.eraseIdx i

/-- `bgp_info_fetch` (8588-8606): when the identifier is known, the first item that has it. -/
def bgpInfoFetch (uthash : Uthash) (items : List Item) (identifier : Nat) : Option Nat :=
  match uthash.find items identifier with
  | none => none
  | some _ => (items.find? fun item => item.identifier = identifier).map Item.info

/-- The position of the item that was added last among those with the identifier. -/
def findLast (items : List Item) (id : Nat) : Option Nat :=
  match items with
  | [] => none
  | item :: items =>
      match findLast items id with
      | some i => some (i + 1)
      | none => if item.identifier = id then some 0 else none

theorem findLast_some {items : List Item} {id i : Nat} (h : findLast items id = some i) :
    ∃ item, items[i]? = some item ∧ item.identifier = id := by
  induction items generalizing i with
  | nil => cases h
  | cons item items ih =>
      rw [findLast] at h
      split at h
      · rename_i j hj
        cases h
        exact ih hj
      · split at h
        · rename_i hid
          cases h
          exact ⟨item, rfl, hid⟩
        · cases h

theorem findLast_none {items : List Item} {id : Nat} (h : findLast items id = none) :
    ∀ item ∈ items, item.identifier ≠ id := by
  induction items with
  | nil => simp
  | cons item items ih =>
      rw [findLast] at h
      split at h
      · cases h
      · rename_i hnone
        split at h
        · cases h
        · rename_i hid
          intro item' hmem
          rcases List.mem_cons.mp hmem with rfl | hmem
          · exact hid
          · exact ih hnone item' hmem

/-- uthash as long as it does not expand its buckets: it adds an item in front of its bucket and so
    finds the newest one. -/
def newestFirst : Uthash := ⟨findLast, findLast_some, findLast_none⟩

end SrxNote.Srx
