import SrxNote.Misc.Run
import SrxNote.Patricia.Client
import SrxNote.Patricia.Proofs.Lookup
import SrxNote.Patricia.Proofs.Ownership
import SrxNote.Patricia.Proofs.Remove
import SrxNote.Patricia.Proofs.Search

/-!
# The accounts of a program

The ledger is what a program has to know of its calls: what it put under each word, and
how many references to each prefix are its own. `Allows` is the contract of the library,
that is nowhere checked: no call with a prefix or a node that is gone, no reference given
back that the program does not have, and no more references to a prefix than an `int`
counts. `Accounts` says that the heap agrees with the
ledger, and every allowed call keeps it.
-/

namespace SrxNote.Patricia

open Heap LinkedTree PrefixTree

variable {δ : Type}

/-- The first bits of some octets, and 0 bits behind them. -/
def addressWord (octets : List UInt8) (n : Nat) : List Bool :=
  bits (fun i => octetBit (octets.getD (i / 8) 0) (i % 8)) n

/-- The word of a new prefix. -/
def newWord (family : Family) (dest : List UInt8) (bitlen : Int) : List Bool :=
  match familySize family with
  | none => []
  | some (octets, length) =>
      addressWord (dest.take octets) (UInt16.ofInt (if bitlen ≥ 0 then bitlen else length)).toNat

structure Ledger (δ : Type) where
  table : Table δ
  word : Nat → List Bool
  held : Nat → Nat

/-- Before the first call. -/
def Ledger.empty : Ledger δ := ⟨fun _ => none, fun _ => [], fun _ => 0⟩

/-- The references to a prefix: those of the program, and one of the tree where it holds the prefix. -/
def Ledger.refs (g : Ledger δ) (x : Nat) : Nat :=
  g.held x + if (g.table (g.word x)).any (·.pfx = x) then 1 else 0

/-- There is a reference to the prefix, and room for one more. -/
def Ledger.Shares (g : Ledger δ) (x : Nat) : Prop := 0 < g.refs x ∧ (g.refs x : Int) < intMax

instance (g : Ledger δ) (x : Nat) : Decidable (g.Shares x) := inferInstanceAs (Decidable (_ ∧ _))

/-- What the program may call. -/
def Ledger.Allows (g : Ledger δ) (maxbits : Nat) : Call δ → Prop
  | .newPrefix family dest _ =>
      ∀ octets length, familySize family = some (octets, length) → octets ≤ dest.length
  | .refPrefix x => g.Shares x
  | .derefPrefix x => 0 < g.held x
  | .lookup x => g.Shares x ∧ (g.word x).length ≤ maxbits
  | .searchExact x => 0 < g.refs x ∧ (g.word x).length ≤ maxbits
  | .searchBest x _ => 0 < g.refs x ∧ (g.word x).length ≤ maxbits
  | .setData p _ => ∃ w e, g.table w = some e ∧ e.node = p
  | .remove p => ∃ w e, g.table w = some e ∧ e.node = p

/-- A new prefix, with one reference that is the program's. -/
def Ledger.own (g : Ledger δ) (x : Nat) (w : List Bool) : Ledger δ :=
  { g with word := Function.update g.word x w, held := Function.update g.held x 1 }

/-- The ledger after a call that returned a pointer. -/
def Ledger.after (g : Ledger δ) : Call δ → Option Nat → Ledger δ
  | .newPrefix family dest bitlen, some x => g.own x (newWord family dest bitlen)
  | .refPrefix x, _ => { g with held := Function.update g.held x (g.held x + 1) }
  | .derefPrefix x, _ => { g with held := Function.update g.held x (g.held x - 1) }
  | .lookup x, some p =>
      if (g.table (g.word x)).isSome then g
      else { g with table := Function.update g.table (g.word x) (some ⟨p, x, none⟩) }
  | .setData p data, _ =>
      { g with table := fun w => (g.table w).map fun e => if e.node = p then { e with data := data } else e }
  | .remove p, _ => { g with table := fun w => (g.table w).filter fun e => e.node ≠ p }
  | _, _ => g

/-- What a call has to return. -/
def Ledger.Answers (g : Ledger δ) : Call δ → Option Nat → Prop
  | .newPrefix family _ _, r => r.isSome = (familySize family).isSome ∧ ∀ x, r = some x → g.refs x = 0
  | .refPrefix x, r => r = some x
  | .lookup x, r => ∃ p, r = some p ∧
      (∀ e, g.table (g.word x) = some e → e.node = p) ∧
      (g.table (g.word x) = none → ∀ w e, g.table w = some e → e.node ≠ p)
  | .searchExact x, r => r = (g.table (g.word x)).map Entry.node
  | .searchBest x inclusive, r => r = (longestMatch g.table (g.word x) inclusive).map Entry.node
  | _, r => r = none

/-- The heap agrees with the ledger. -/
structure Accounts (s : PatriciaTree δ) (g : Ledger δ) : Prop where
  models : Models s g.table
  counted : Counted s
  live : ∀ x, (s.prefixes.read x).isSome ↔ 0 < g.refs x
  counts : ∀ x pre, s.prefixes.read x = some pre → pre.word = g.word x ∧ pre.refCount = g.refs x

variable {s s' : PatriciaTree δ} {g : Ledger δ} {T : Table δ} {w v : List Bool} {e e' : Entry δ} {x : Nat}
  {pre : Prefix} {prefixes : Heap Prefix}

/-! ### Tables on a heap -/

/-- Other prefixes do as well, where those of the entries stand for the same words. -/
theorem Models.of_prefixes (h : Models s T) (hspells : ∀ w e, T w = some e → Spells prefixes e.pfx w) :
    Models { s with prefixes := prefixes } T := by
  obtain ⟨t, hrep, htable⟩ := h
  refine ⟨t, ?_, htable⟩
  refine { hrep with cells := fun c hc => ⟨(hrep.cells c hc).1, fun y d hentry => ?_⟩ }
  exact hspells c.word _ (table_of_cell htable hc hentry)

theorem Models.spells (h : Models s T) (he : T w = some e) : Spells s.prefixes e.pfx w := by
  obtain ⟨t, hrep, htable⟩ := h
  exact (hrep.cells _ ((htable w e).mp he)).2 _ _ rfl

/-- A node stands for one word. -/
theorem Models.word_of_node (h : Models s T) (hw : T w = some e) (hv : T v = some e') (hnode : e.node = e'.node) :
    w = v := by
  obtain ⟨t, hrep, htable⟩ := h
  have heq := List.inj_on_of_nodup_map hrep.nodup ((htable w e).mp hw) ((htable v e').mp hv) hnode
  exact congrArg Cell.word heq

/-- `PATRICIA_DATA_SET` on the node of an entry. -/
theorem setData_of_models (h : Models s T) (he : T w = some e) (data : Option δ) :
    ∃ s', s.modify e.node (fun node => { node with data := data }) = some s' ∧ s'.prefixes = s.prefixes ∧
      s'.maxbits = s.maxbits ∧ Models s' (Function.update T w (some { e with data := data })) := by
  obtain ⟨t, hrep, htable⟩ := h
  have hc := (htable w e).mp he
  obtain ⟨gs, l, r, rfl⟩ := exists_plug_of_mem hc
  have hread := hrep.read_focus
  have hspells : ∀ d ∈ preorder (plug gs (.node ⟨e.node, w, some (e.pfx, e.data)⟩ l r)), ∀ y f,
      d.entry = some (y, f) → Spells s.prefixes y d.word := fun d hd => (hrep.cells d hd).2
  have hrep' := hrep.relabel (some (e.pfx, data)) s.prefixes (.inl rfl)
    (fun d hd => hspells d ((preorder_focus gs _ l r).mem_iff.mpr (List.mem_cons_of_mem _ hd)))
    (by
      rintro y f heq
      cases heq
      exact hspells _ hc _ _ rfl)
  refine ⟨_, modify_of_read hread _, rfl, rfl, _, hrep', fun v f => ?_⟩
  rw [Holds, mem_relabel hrep.nodup]
  by_cases hv : v = w
  · subst hv
    rw [Function.update_self, Option.some_inj]
    constructor
    · rintro rfl
      exact .inl rfl
    · rintro (heq | ⟨hmem, hne⟩)
      · obtain ⟨node, pfx, data'⟩ := f
        simp only [Cell.mk.injEq, Option.some_inj, Prod.mk.injEq, true_and] at heq
        obtain ⟨rfl, rfl, rfl⟩ := heq
        rfl
      · exact absurd (hrep.compressed.eq_of_word hmem hc rfl) hne
  · rw [Function.update_of_ne hv, htable, Holds]
    have hne : ∀ entry, (⟨f.node, v, some (f.pfx, f.data)⟩ : Cell δ) ≠ ⟨e.node, w, entry⟩ := by
      intro entry heq
      exact hv (congrArg Cell.word heq)
    rw [or_iff_right (hne _), and_iff_left (hne _)]

/-! ### References -/

theorem Ledger.refs_of_mem (he : g.table (g.word x) = some e) (hx : e.pfx = x) : g.refs x = g.held x + 1 := by
  simp [Ledger.refs, he, hx]

theorem Ledger.refs_of_not_mem (hx : ∀ e, g.table (g.word x) = some e → e.pfx ≠ x) : g.refs x = g.held x := by
  rw [Ledger.refs]
  cases he : g.table (g.word x) with
  | none => rfl
  | some e => simp [hx e he]

/-- The references to a prefix with another number of them in the program. -/
theorem Ledger.refs_update_held (g : Ledger δ) (x n y : Nat) :
    Ledger.refs { g with held := Function.update g.held x n } y =
      if y = x then n + (g.refs x - g.held x) else g.refs y := by
  by_cases hy : y = x
  · subst hy
    simp [Ledger.refs]
  · simp [Ledger.refs, hy]

theorem Accounts.exists_read (h : Accounts s g) (hx : 0 < g.refs x) :
    ∃ pre, s.prefixes.read x = some pre ∧ pre.word = g.word x ∧ pre.refCount = g.refs x := by
  obtain ⟨pre, hread⟩ := Option.isSome_iff_exists.mp ((h.live x).mpr hx)
  exact ⟨pre, hread, h.counts x pre hread⟩

/-- The tree has one reference to the prefix of an entry. -/
theorem Accounts.refs_entry (h : Accounts s g) (he : g.table w = some e) :
    g.word e.pfx = w ∧ g.refs e.pfx = g.held e.pfx + 1 := by
  obtain ⟨pre, hread, hword, -⟩ := h.models.spells he
  have heq : g.word e.pfx = w := (h.counts _ pre hread).1.symm.trans hword
  exact ⟨heq, Ledger.refs_of_mem (heq.symm ▸ he) rfl⟩

/-- A new tree; its assertion lets a negative number of bits pass, which becomes a large one. -/
theorem accounts_newPatricia {maxbits : Int} (hpos : 0 ≤ maxbits) (hs : newPatricia [] maxbits = some s) :
    Accounts s Ledger.empty := by
  have hcounted := counted_newPatricia hs
  simp only [newPatricia, Option.bind_eq_bind, Option.bind_eq_some_iff] at hs
  obtain ⟨_, hassert, hs⟩ := hs
  have hle : maxbits ≤ 128 := by
    by_contra hlt
    have hnone : cAssert (maxbits ≤ patriciaMaxbits) = none := if_neg hlt
    rw [hnone] at hassert
    cases hassert
  cases hs
  refine ⟨⟨.nil, ⟨?_, rfl, trivial, .nil, trivial, rfl, by simp⟩, ?_⟩, hcounted, ?_, ?_⟩
  · simp only
    omega
  · simp [Holds, Ledger.empty]
  · simp [Heap.read, Ledger.empty, Ledger.refs]
  · simp [Heap.read]

/-! ### The calls -/

/-- A call fails no assertion, returns what it has to, and keeps the accounts. -/
def Served (s : PatriciaTree δ) (g : Ledger δ) (c : Call δ) : Prop :=
  ∃ s' r, call s c = some (s', r) ∧ s'.maxbits = s.maxbits ∧ g.Answers c r ∧ Accounts s' (g.after c r)

/-- The octets of a new address. -/
theorem memcpy_zero {dest : List UInt8} {n : Nat} (hn : n ≤ 16) (hdest : n ≤ dest.length) :
    ∃ add, memcpy (Vector.replicate 16 0) dest n = some add ∧
      ∀ i, add.toList.getD i 0 = (dest.take n).getD i 0 := by
  have hzero : ∀ j : Fin 16, (Vector.replicate 16 (0 : UInt8)).get j = 0 := fun j => Vector.getElem_replicate j.isLt
  refine ⟨_, if_pos hdest, fun i => ?_⟩
  by_cases hoctet : i < n
  · have hlt : i < 16 := by omega
    simp [List.getD_eq_getElem?_getD, hoctet, hlt]
  · by_cases hlt : i < 16
    · simp [List.getD_eq_getElem?_getD, hoctet, hlt, hzero]
    · simp [List.getD_eq_getElem?_getD, hoctet, hlt]

/-- What `New_Prefix` makes of a known family. -/
theorem newPrefix_of_family {h : Heap Prefix} {family : Family} {dest : List UInt8} {bitlen length : Int}
    {octets : Nat} (hfamily : familySize family = some (octets, length)) (hdest : octets ≤ dest.length) :
    ∃ pre, newPrefix h family dest bitlen = some (h.alloc pre, some h.fresh) ∧ pre.family = family ∧
      pre.refCount = 1 ∧ pre.word = newWord family dest bitlen ∧
      ∀ i, pre.add.toList.getD i 0 = (dest.take octets).getD i 0 := by
  obtain ⟨add, hcopy, hoctets⟩ := memcpy_zero (familySize_le hfamily) hdest
  refine ⟨⟨family, UInt16.ofInt (if bitlen ≥ 0 then bitlen else length), 1, add⟩, ?_, rfl, rfl, ?_, hoctets⟩
  · simp only [newPrefix, newPrefix2, hfamily, hcopy, Option.bind_eq_bind, Option.bind_some]
  · simp only [Prefix.word, newWord, hfamily, addressWord, bits_eq_iff, addrBit, hoctets]
    intro i _
    trivial

/-- A prefix with another number of references; it is freed with the last one. -/
def withRefs (pre : Prefix) (n : Nat) : Option Prefix :=
  if n = 0 then none else some { pre with refCount := n }

theorem dropRef_eq {n : Nat} (hcount : pre.refCount = n) (hpos : 0 < n) : dropRef pre = withRefs pre (n - 1) := by
  rw [dropRef, withRefs, hcount]
  by_cases hlast : n = 1
  · subst hlast
    rfl
  · have hcast : ((n - 1 : Nat) : Int) = n - 1 := by omega
    rw [if_neg (by omega), if_neg (by omega), hcast]

/-- A call that changes the references to one prefix. -/
theorem Accounts.recount (h : Accounts s g) (hread : s.prefixes.read x = some pre) {g' : Ledger δ}
    (hprefixes : s'.prefixes = s.prefixes.set x (withRefs pre (g'.refs x))) (hword : g'.word = g.word)
    (hrefs : ∀ y, y ≠ x → g'.refs y = g.refs y) (hmodels : Models s' g'.table) (hcounted : Counted s') :
    Accounts s' g' := by
  have hself : s'.prefixes.read x = withRefs pre (g'.refs x) := by
    rw [hprefixes, read_set_self hread]
  have hother : ∀ y, y ≠ x → s'.prefixes.read y = s.prefixes.read y := by
    intro y hy
    rw [hprefixes, read_set_of_ne _ hy]
  refine ⟨hmodels, hcounted, fun y => ?_, fun y pre' hread' => ?_⟩
  · by_cases hy : y = x
    · subst hy
      rw [hself, withRefs]
      split
      · simp_all
      · simp
        omega
    · rw [hother y hy, hrefs y hy]
      exact h.live y
  · rw [hword]
    by_cases hy : y = x
    · subst hy
      rw [hself, withRefs] at hread'
      split at hread'
      · cases hread'
      · cases hread'
        exact ⟨(h.counts y pre hread).1, rfl⟩
    · rw [hother y hy] at hread'
      rw [hrefs y hy]
      exact h.counts y pre' hread'

/-- The prefixes of the entries stay live where one prefix keeps a reference. -/
theorem Models.withRefs (h : Models s T) (hread : s.prefixes.read x = some pre) {n : Nat}
    (hpos : 0 < n ∨ ∀ w e, T w = some e → e.pfx ≠ x) :
    Models { s with prefixes := s.prefixes.set x (withRefs pre n) } T := by
  refine h.of_prefixes fun w e he => ?_
  have hspells := h.spells he
  by_cases hx : e.pfx = x
  · rcases hpos with hpos | hnot
    · obtain ⟨pre', hread', hword, -⟩ := hspells
      rw [hx, hread] at hread'
      cases hread'
      have hne : n ≠ 0 := by omega
      refine ⟨{ pre with refCount := n }, ?_, hword, ?_⟩
      · rw [hx, read_set_self hread, Patricia.withRefs, if_neg hne]
      · simp only
        omega
    · exact absurd hx (hnot w e he)
  · exact hspells.congr (read_set_of_ne _ hx _)

/-- A prefix that was allocated. -/
theorem Accounts.alloc (h : Accounts s g) (hcount : pre.refCount = 1) :
    g.refs s.prefixes.fresh = 0 ∧
      Accounts { s with prefixes := s.prefixes.alloc pre } (g.own s.prefixes.fresh pre.word) := by
  have hfresh : ∀ w e, g.table w = some e → e.pfx ≠ s.prefixes.fresh := by
    intro w e he heq
    obtain ⟨pre', hread, -⟩ := h.models.spells he
    exact absurd (lt_fresh_of_read hread) (by omega)
  have hunused : g.refs s.prefixes.fresh = 0 := by
    by_contra hpos
    obtain ⟨pre', hread, -⟩ := h.exists_read (Nat.pos_of_ne_zero hpos)
    exact absurd (lt_fresh_of_read hread) (Nat.lt_irrefl _)
  have hrefs : ∀ y, (g.own s.prefixes.fresh pre.word).refs y =
      if y = s.prefixes.fresh then 1 else g.refs y := by
    intro y
    by_cases hy : y = s.prefixes.fresh
    · subst hy
      have hself : (g.own s.prefixes.fresh pre.word).refs s.prefixes.fresh = _ :=
        Ledger.refs_of_not_mem fun e he => hfresh _ e he
      rw [if_pos rfl, hself]
      simp [Ledger.own]
    · simp [Ledger.refs, Ledger.own, hy]
  refine ⟨hunused, ?_, h.counted, fun y => ?_, fun y pre' hread => ?_⟩
  · refine h.models.of_prefixes fun w e he => ?_
    obtain ⟨pre', hread, hrest⟩ := h.models.spells he
    exact ⟨pre', read_alloc hread _, hrest⟩
  · rw [hrefs, read_alloc_eq]
    split
    · simp
    · exact h.live y
  · rw [read_alloc_eq] at hread
    rw [hrefs]
    split at hread
    · rename_i hy
      cases hread
      rw [if_pos hy, hy]
      exact ⟨by simp [Ledger.own], hcount⟩
    · rename_i hy
      rw [if_neg hy]
      simp only [Ledger.own, Function.update_of_ne hy]
      exact h.counts y pre' hread

theorem Accounts.newPrefix (h : Accounts s g) {family : Family} {dest : List UInt8} {bitlen : Int}
    (hc : g.Allows s.maxbits (.newPrefix family dest bitlen)) : Served s g (.newPrefix family dest bitlen) := by
  cases hfamily : familySize family with
  | none =>
      refine ⟨s, none, ?_, rfl, ⟨by simp [hfamily], by simp⟩, h⟩
      simp [call, Patricia.newPrefix, newPrefix2, hfamily]
  | some size =>
      obtain ⟨octets, length⟩ := size
      obtain ⟨pre, hnew, -, hcount, hword, -⟩ : ∃ pre, Patricia.newPrefix s.prefixes family dest bitlen = _ ∧ _ :=
        newPrefix_of_family hfamily (hc octets length hfamily)
      obtain ⟨hunused, hacc⟩ := h.alloc hcount
      rw [hword] at hacc
      refine ⟨{ s with prefixes := s.prefixes.alloc pre }, some s.prefixes.fresh, ?_, rfl,
        ⟨by simp [hfamily], ?_⟩, hacc⟩
      · rw [call, hnew, Option.map_some]
      · rintro x heq
        cases heq
        exact hunused

/-- A prefix that may be shared has a count that goes up by one. -/
theorem Accounts.exists_shared (h : Accounts s g) (hx : g.Shares x) :
    ∃ pre, s.prefixes.read x = some pre ∧ pre.word = g.word x ∧ pre.refCount = g.refs x ∧
      0 ≤ pre.refCount ∧ pre.refCount < intMax := by
  obtain ⟨hpos, hroom⟩ := hx
  obtain ⟨pre, hread, hword, hcount⟩ := h.exists_read hpos
  rw [← hcount] at hroom
  exact ⟨pre, hread, hword, hcount, by omega, hroom⟩

theorem Accounts.refPrefix (h : Accounts s g) (hc : g.Allows s.maxbits (.refPrefix x)) :
    Served s g (.refPrefix x) := by
  obtain ⟨pre, hread, -, hcount, hzero, hroom⟩ := h.exists_shared hc
  have hrefs : ∀ y, (g.after (.refPrefix x) (some x)).refs y = if y = x then g.refs x + 1 else g.refs y := by
    intro y
    have hle : g.held x ≤ g.refs x := Nat.le_add_right _ _
    rw [Ledger.after, Ledger.refs_update_held]
    split <;> omega
  have hset : withRefs pre ((g.after (.refPrefix x) (some x)).refs x) =
      some { pre with refCount := pre.refCount + 1 } := by
    rw [hrefs, if_pos rfl, withRefs, if_neg (by omega), hcount]
    rfl
  refine ⟨{ s with prefixes := s.prefixes.set x (some { pre with refCount := pre.refCount + 1 }) }, some x, ?_,
    rfl, rfl, h.recount hread (by rw [hset]) rfl (fun y hy => by rw [hrefs, if_neg hy]) ?_ h.counted⟩
  · rw [call, refPrefix_of_counted hread hzero hroom, Option.map_some]
  · rw [← hset]
    exact h.models.withRefs hread (.inl (by rw [hrefs, if_pos rfl]; omega))

theorem Accounts.derefPrefix (h : Accounts s g) (hc : g.Allows s.maxbits (.derefPrefix x)) :
    Served s g (.derefPrefix x) := by
  have hheld : 0 < g.held x := hc
  have hle : g.held x ≤ g.refs x := Nat.le_add_right _ _
  obtain ⟨pre, hread, -, hcount⟩ := h.exists_read (Nat.lt_of_lt_of_le hheld hle)
  have hrefs : ∀ y, (g.after (.derefPrefix x) none).refs y = if y = x then g.refs x - 1 else g.refs y := by
    intro y
    rw [Ledger.after, Ledger.refs_update_held]
    split <;> omega
  have hdrop : dropRef pre = withRefs pre ((g.after (.derefPrefix x) none).refs x) := by
    rw [hrefs, if_pos rfl]
    exact dropRef_eq hcount (by omega)
  refine ⟨{ s with prefixes := s.prefixes.set x (dropRef pre) }, none, ?_, rfl, rfl,
    h.recount hread (by rw [hdrop]) rfl (fun y hy => by rw [hrefs, if_neg hy]) ?_ h.counted⟩
  · rw [call, derefPrefix_eq hread (by omega), Option.map_some]
  · rw [hdrop]
    refine h.models.withRefs hread ?_
    -- the program's last reference may be the last one at all, but not where the tree has one too
    by_cases hmem : ∃ w e, g.table w = some e ∧ e.pfx = x
    · obtain ⟨w, e, he, rfl⟩ := hmem
      have htree := (h.refs_entry he).2
      left
      rw [hrefs, if_pos rfl]
      omega
    · right
      rintro w e he rfl
      exact hmem ⟨w, e, he, rfl⟩

theorem Accounts.searchExact (h : Accounts s g) (hc : g.Allows s.maxbits (.searchExact x)) :
    Served s g (.searchExact x) := by
  obtain ⟨pre, hread, hword, -⟩ := h.exists_read hc.1
  obtain ⟨t, hrep, htable⟩ := h.models
  have hlen : pre.bitlen.toNat ≤ s.maxbits := by
    rw [← Prefix.length_word, hword]
    exact hc.2
  refine ⟨s, _, ?_, rfl, rfl, h⟩
  rw [call, patriciaSearchExact_of_represents hrep htable hread hlen, hword, Option.map_some]

theorem Accounts.searchBest (h : Accounts s g) {inclusive : Bool} (hc : g.Allows s.maxbits (.searchBest x inclusive)) :
    Served s g (.searchBest x inclusive) := by
  obtain ⟨pre, hread, hword, -⟩ := h.exists_read hc.1
  obtain ⟨t, hrep, htable⟩ := h.models
  have hlen : pre.bitlen.toNat ≤ s.maxbits := by
    rw [← Prefix.length_word, hword]
    exact hc.2
  refine ⟨s, _, ?_, rfl, rfl, h⟩
  rw [call, patriciaSearchBest2_of_represents hrep htable hread hlen, hword, Option.map_some]

/-- The ledger changes the entry of the node only. -/
theorem Accounts.after_setData (h : Accounts s g) (he : g.table w = some e) (data : Option δ) :
    (g.after (.setData e.node data) none).table = Function.update g.table w (some { e with data := data }) := by
  funext v
  rw [Ledger.after]
  by_cases hv : v = w
  · subst hv
    simp [he]
  · rw [Function.update_of_ne hv]
    cases he' : g.table v with
    | none => simp [he']
    | some e' =>
        have hne : e'.node ≠ e.node := fun heq => hv (h.models.word_of_node he' he heq)
        simp [he', hne]

theorem Accounts.after_remove (h : Accounts s g) (he : g.table w = some e) :
    (g.after (.remove e.node) none).table = Function.update g.table w none := by
  funext v
  rw [Ledger.after]
  by_cases hv : v = w
  · subst hv
    simp [he]
  · rw [Function.update_of_ne hv]
    cases he' : g.table v with
    | none => simp [he']
    | some e' =>
        have hne : e'.node ≠ e.node := fun heq => hv (h.models.word_of_node he' he heq)
        simp [he', hne]

theorem Accounts.setData (h : Accounts s g) {p : Nat} {data : Option δ}
    (hc : g.Allows s.maxbits (.setData p data)) : Served s g (.setData p data) := by
  obtain ⟨w, e, he, rfl⟩ := hc
  obtain ⟨s', hmodify, hprefixes, hmaxbits, hmodels⟩ := setData_of_models h.models he data
  have hrefs : ∀ y, (g.after (.setData e.node data) none).refs y = g.refs y := by
    intro y
    simp only [Ledger.refs, Ledger.after, Option.any_map]
    refine congrArg (g.held y + if · then 1 else 0) (congrArg (Option.any · _) ?_)
    funext e'
    split <;> rfl
  refine ⟨s', none, by rw [call, hmodify, Option.map_some], hmaxbits, rfl, ?_, h.counted.modify hmodify, ?_, ?_⟩
  · rw [h.after_setData he]
    exact hmodels
  · intro y
    rw [hprefixes, hrefs]
    exact h.live y
  · intro y pre hread
    rw [hprefixes] at hread
    rw [hrefs]
    exact h.counts y pre hread

theorem Accounts.remove (h : Accounts s g) {p : Nat} (hc : g.Allows s.maxbits (.remove p)) :
    Served s g (.remove p) := by
  obtain ⟨w, e, he, rfl⟩ := hc
  obtain ⟨t, hrep, htable⟩ := h.models
  have hmem := (htable w e).mp he
  obtain ⟨s', t', hremove, hderef, herased⟩ := patriciaRemove_of_represents hrep hmem rfl
  have hmodels : Models s' (Function.update g.table w none) :=
    ⟨t', herased.represents, table_erase htable hrep.compressed hmem herased.stored⟩
  obtain ⟨hword, hentry⟩ := h.refs_entry he
  obtain ⟨pre, hread, -, hcount⟩ := h.exists_read (x := e.pfx) (by omega)
  have htable' := h.after_remove he
  have hrefs : ∀ y, (g.after (.remove e.node) none).refs y = if y = e.pfx then g.refs e.pfx - 1 else g.refs y := by
    intro y
    have hword' : (g.after (.remove e.node) none).word = g.word := rfl
    have hheld : (g.after (.remove e.node) none).held = g.held := rfl
    rw [Ledger.refs, htable', hword', hheld]
    by_cases hy : y = e.pfx
    · subst hy
      rw [hword, Function.update_self, if_pos rfl, hentry]
      rfl
    · rw [if_neg hy, Ledger.refs]
      by_cases hyw : g.word y = w
      · rw [hyw, Function.update_self, he]
        simp [Ne.symm hy]
      · rw [Function.update_of_ne hyw]
  refine ⟨s', none, by rw [call, hremove, Option.map_some], herased.maxbits_eq, rfl,
    h.recount hread ?_ rfl (fun y hy => by rw [hrefs, if_neg hy]) (by rw [htable']; exact hmodels)
      (h.counted.patriciaRemove hremove)⟩
  rw [derefPrefix_eq hread (by omega)] at hderef
  rw [← Option.some.inj hderef, hrefs, if_pos rfl, dropRef_eq hcount (by omega)]

theorem Accounts.lookup (h : Accounts s g) (hc : g.Allows s.maxbits (.lookup x)) : Served s g (.lookup x) := by
  obtain ⟨hshares, hfits⟩ := hc
  obtain ⟨pre, hread, hword, hcount, hzero, hroom⟩ := h.exists_shared hshares
  obtain ⟨t, hrep, htable⟩ := h.models
  have hlen : pre.bitlen.toNat ≤ s.maxbits := by
    rw [← Prefix.length_word, hword]
    exact hfits
  obtain ⟨s', p, hlookup, hlooked⟩ :=
    patriciaLookup_of_represents hrep htable hread (.inl ⟨hzero, hroom⟩) hlen
  have hcall : call s (.lookup x) = some (s', some p) := by rw [call, hlookup, Option.map_some]
  rw [hword] at hlooked
  rcases hlooked with ⟨e, he, rfl, rfl⟩ | ⟨hnone, own, href, hmaxbits, hmodels⟩
  · refine ⟨_, _, hcall, rfl, ⟨e.node, rfl, ?_, ?_⟩, ?_⟩
    · intro e' he'
      rw [he] at he'
      cases he'
      rfl
    · intro hnone
      rw [he] at hnone
      cases hnone
    · rw [Ledger.after, he]
      exact h
  · -- the tree shares the prefix
    have hshared := refPrefix_of_counted hread hzero hroom
    obtain ⟨hprefixes, hown⟩ := Prod.mk.inj (Option.some.inj (href.symm.trans hshared))
    cases hown
    have hafter : g.after (.lookup x) (some p) =
        { g with table := Function.update g.table (g.word x) (some ⟨p, x, none⟩) } := by
      rw [Ledger.after, hnone]
      rfl
    have hheld : g.refs x = g.held x := Ledger.refs_of_not_mem (by simp [hnone])
    have hrefs : ∀ y, (g.after (.lookup x) (some p)).refs y = if y = x then g.refs x + 1 else g.refs y := by
      intro y
      rw [hafter]
      by_cases hy : y = x
      · subst hy
        rw [if_pos rfl, hheld]
        simp [Ledger.refs]
      · rw [if_neg hy, Ledger.refs, Ledger.refs]
        by_cases hyw : g.word y = g.word x
        · simp [hyw, hnone, Ne.symm hy]
        · simp [Function.update_of_ne hyw]
    have hset : withRefs pre ((g.after (.lookup x) (some p)).refs x) =
        some { pre with refCount := pre.refCount + 1 } := by
      rw [hrefs, if_pos rfl, withRefs, if_neg (by omega), hcount]
      rfl
    refine ⟨s', some p, hcall, hmaxbits, ⟨p, rfl, by simp [hnone], fun _ v e he heq => ?_⟩,
      h.recount hread (by rw [hset, hprefixes]) (by rw [hafter]) (fun y hy => by rw [hrefs, if_neg hy])
        (by rw [hafter]; exact hmodels) (h.counted.patriciaLookup hlookup)⟩
    -- no other entry has the node
    have hv : v ≠ g.word x := by
      rintro rfl
      rw [hnone] at he
      cases he
    exact hv (hmodels.word_of_node (by rw [Function.update_of_ne hv]; exact he) (Function.update_self ..) heq)

/-- Every call that the contract allows is served. -/
theorem Accounts.served (h : Accounts s g) {c : Call δ} (hc : g.Allows s.maxbits c) : Served s g c := by
  cases c with
  | newPrefix family dest bitlen => exact h.newPrefix hc
  | refPrefix x => exact h.refPrefix hc
  | derefPrefix x => exact h.derefPrefix hc
  | lookup x => exact h.lookup hc
  | searchExact x => exact h.searchExact hc
  | searchBest x inclusive => exact h.searchBest hc
  | setData p data => exact h.setData hc
  | remove p => exact h.remove hc

end SrxNote.Patricia
