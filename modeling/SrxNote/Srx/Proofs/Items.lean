import Mathlib.Data.List.Nodup
import SrxNote.Srx.InfoHash

/-!
# Looking up and removing items

What `bgp_info_fetch` returns and what `bgp_info_unregister` removes. Both are
determined only where no two items have the same identifier.
-/

namespace SrxNote.Srx

variable {uthash : Uthash} {items : List Item} {id p : Nat}

/-- No two items have the same identifier. -/
def DistinctIds (items : List Item) : Prop := (items.map Item.identifier).Nodup

instance (items : List Item) : Decidable (DistinctIds items) :=
  inferInstanceAs (Decidable (items.map Item.identifier).Nodup)

theorem bgpInfoRegister_of_ne (h : id ≠ 0) :
    bgpInfoRegister items p id = (1, items ++ [⟨id, p⟩]) := if_neg h

theorem bgpInfoFetch_eq_some (h : bgpInfoFetch uthash items id = some p) :
    ⟨id, p⟩ ∈ items := by
  rw [bgpInfoFetch] at h
  split at h
  · cases h
  · rw [Option.map_eq_some_iff] at h
    obtain ⟨item, hfind, rfl⟩ := h
    have hid : item.identifier = id := by simpa using List.find?_some hfind
    rw [← hid]
    exact List.mem_of_find?_eq_some hfind

theorem bgpInfoFetch_eq_none_iff :
    bgpInfoFetch uthash items id = none ↔ ∀ item ∈ items, item.identifier ≠ id := by
  constructor
  · intro h
    rw [bgpInfoFetch] at h
    split at h
    · rename_i hfind
      exact uthash.find_none hfind
    · simpa using h
  · intro h
    rw [bgpInfoFetch]
    split
    · rfl
    · rename_i i hfind
      obtain ⟨item, hitem, hid⟩ := uthash.find_some hfind
      exact absurd hid (h item (List.mem_of_getElem? hitem))

/-- A removal takes one item with the identifier out of the table, if there is one. -/
theorem bgpInfoUnregister_cases (uthash : Uthash) (items : List Item) (id : Nat) :
    (bgpInfoUnregister uthash items id = items ∧ ∀ item ∈ items, item.identifier ≠ id) ∨
      ∃ l₁ item l₂, items = l₁ ++ item :: l₂ ∧ item.identifier = id ∧
        uthash.find items id = some l₁.length ∧
        bgpInfoUnregister uthash items id = l₁ ++ l₂ := by
  cases hfind : uthash.find items id with
  | none => exact Or.inl ⟨by rw [bgpInfoUnregister, hfind], uthash.find_none hfind⟩
  | some i =>
      obtain ⟨item, hitem, hid⟩ := uthash.find_some hfind
      obtain ⟨hlt, hget⟩ := List.getElem?_eq_some_iff.mp hitem
      refine Or.inr ⟨items.take i, item, items.drop (i + 1), ?_, hid, ?_, ?_⟩
      · rw [← hget, List.getElem_cons_drop, List.take_append_drop]
      · rw [List.length_take, Nat.min_eq_left (Nat.le_of_lt hlt)]
      · rw [bgpInfoUnregister, hfind]
        exact List.eraseIdx_eq_take_drop_succ items i

theorem bgpInfoUnregister_sublist (uthash : Uthash) (items : List Item) (id : Nat) :
    (bgpInfoUnregister uthash items id).Sublist items := by
  rcases bgpInfoUnregister_cases uthash items id with ⟨hsame, -⟩ | ⟨l₁, item, l₂, heq, -, -, hun⟩
  · rw [hsame]
  · rw [hun, heq]
    exact (List.Sublist.refl l₁).append (List.sublist_cons_self item l₂)

theorem mem_of_mem_bgpInfoUnregister {item : Item}
    (h : item ∈ bgpInfoUnregister uthash items id) : item ∈ items :=
  (bgpInfoUnregister_sublist uthash items id).subset h

theorem DistinctIds.unregister (h : DistinctIds items) (uthash : Uthash) (id : Nat) :
    DistinctIds (bgpInfoUnregister uthash items id) :=
  List.Nodup.sublist ((bgpInfoUnregister_sublist uthash items id).map _) h

/-- Taking an item out of a list in which its key is the only one of its kind. -/
theorem mem_append_iff_of_nodup_map {f : Item → Nat} {l₁ l₂ : List Item} {x y : Item}
    (h : ((l₁ ++ x :: l₂).map f).Nodup) : y ∈ l₁ ++ l₂ ↔ y ∈ l₁ ++ x :: l₂ ∧ f y ≠ f x := by
  have hnot : f x ∉ (l₁ ++ l₂).map f := by
    rw [List.map_append, List.map_cons] at h
    rw [List.map_append]
    exact (List.nodup_cons.mp (List.perm_middle.nodup_iff.mp h)).1
  rw [List.perm_middle.mem_iff, List.mem_cons]
  constructor
  · intro hy
    refine ⟨Or.inr hy, ?_⟩
    intro heq
    exact hnot (heq ▸ List.mem_map_of_mem hy)
  · rintro ⟨rfl | hy, hne⟩
    · exact absurd rfl hne
    · exact hy

/-- Where the identifiers are distinct, no item with the identifier is left. -/
theorem DistinctIds.mem_unregister_iff (h : DistinctIds items) {item : Item} :
    item ∈ bgpInfoUnregister uthash items id ↔ item ∈ items ∧ item.identifier ≠ id := by
  rcases bgpInfoUnregister_cases uthash items id with
    ⟨hsame, hnone⟩ | ⟨l₁, item', l₂, rfl, rfl, -, hun⟩
  · rw [hsame]
    exact (and_iff_left_of_imp (hnone item)).symm
  · rw [hun]
    exact mem_append_iff_of_nodup_map h

/-- No two items point to the same route. -/
def DistinctRoutes (items : List Item) : Prop := (items.map Item.info).Nodup

/-- `HASH_FIND` finds the item of the route. -/
def FindsItemOf (uthash : Uthash) (items : List Item) (id p : Nat) : Prop :=
  ∀ i, uthash.find items id = some i → (items[i]?).map Item.info = some p

/-- A table without an item of the route. -/
theorem mem_iff_info_ne (h : ∀ id, ⟨id, p⟩ ∉ items) (item : Item) :
    item ∈ items ↔ item ∈ items ∧ item.info ≠ p := by
  refine (and_iff_left_of_imp fun hitem hp => ?_).symm
  subst hp
  exact h item.identifier hitem

/-- Where each route has one item and the one of the route is found, the others stay. -/
theorem DistinctRoutes.mem_unregister_iff (h : DistinctRoutes items)
    (hfinds : FindsItemOf uthash items id p) (hown : ⟨id, p⟩ ∈ items) {item : Item} :
    item ∈ bgpInfoUnregister uthash items id ↔ item ∈ items ∧ item.info ≠ p := by
  rcases bgpInfoUnregister_cases uthash items id with
    ⟨-, hnone⟩ | ⟨l₁, item', l₂, rfl, -, hfind, hun⟩
  · exact absurd rfl (hnone _ hown)
  · have hitem' : item'.info = p := by
      have hat := hfinds _ hfind
      simpa using hat
    rw [hun, mem_append_iff_of_nodup_map h, hitem']

theorem DistinctIds.eq_of_identifier (h : DistinctIds items) {item item' : Item}
    (hitem : item ∈ items) (hitem' : item' ∈ items) (heq : item.identifier = item'.identifier) :
    item = item' := List.inj_on_of_nodup_map h hitem hitem' heq

theorem nodup_map_append {f : Item → Nat} {x : Item} (h : (items.map f).Nodup)
    (hnew : ∀ item ∈ items, f item ≠ f x) : ((items ++ [x]).map f).Nodup := by
  rw [List.map_append, List.map_cons, List.map_nil, List.nodup_append]
  refine ⟨h, List.nodup_singleton _, ?_⟩
  intro a ha b hb hab
  obtain ⟨item, hitem, rfl⟩ := List.mem_map.mp ha
  rw [List.mem_singleton] at hb
  exact hnew item hitem (hab.trans hb)

theorem DistinctIds.append (h : DistinctIds items) (hnew : ∀ item ∈ items, item.identifier ≠ id)
    (p : Nat) : DistinctIds (items ++ [⟨id, p⟩]) := nodup_map_append h hnew

theorem DistinctRoutes.append (h : DistinctRoutes items) (hnew : ∀ item ∈ items, item.info ≠ p)
    (id : Nat) : DistinctRoutes (items ++ [⟨id, p⟩]) := nodup_map_append h hnew

/-- Adding an identifier that is known already breaks the distinctness. -/
theorem not_distinctIds_append {item : Item} (hitem : item ∈ items) (hid : item.identifier = id)
    (p : Nat) : ¬ DistinctIds (items ++ [⟨id, p⟩]) := by
  intro h
  rw [DistinctIds, List.map_append, List.nodup_append] at h
  exact h.2.2 item.identifier (List.mem_map_of_mem hitem) id (by simp) hid

end SrxNote.Srx
