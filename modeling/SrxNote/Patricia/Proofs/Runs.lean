import SrxNote.Patricia.Proofs.Accounts
import SrxNote.Patricia.Proofs.Clear

/-!
# Runs of a program

What holds after any sequence of calls that keeps to the contract: no call fails, each
returns what the ledger says, a node stays where it is until it is removed, nothing is
left over when the program has given its references back, and the tree looks the same
however its words came into it.
-/

namespace SrxNote.Patricia

open Heap LinkedTree PrefixTree Run

variable {δ : Type} {s s₀ s' : PatriciaTree δ} {g g' : Ledger δ} {T T' : Table δ} {t : BinaryTree (Cell δ)}
  {w : List Bool} {x y p : Nat} {maxbits : Int} {c : Call δ} {cs : List (Call δ)}

/-- A call, and the ledger after it. -/
def callStep (sg : PatriciaTree δ × Ledger δ) (c : Call δ) : Option (PatriciaTree δ × Ledger δ) :=
  (call sg.1 c).map fun (s', r) => (s', sg.2.after c r)

/-- The contract. -/
def Allowed (sg : PatriciaTree δ × Ledger δ) (c : Call δ) : Prop := sg.2.Allows sg.1.maxbits c

/-- The program keeps to the contract from a new tree on. -/
def Proper (s₀ : PatriciaTree δ) (cs : List (Call δ)) : Prop := Obeys callStep Allowed (s₀, Ledger.empty) cs

/-- The calls lead from a new tree to a state and a ledger. -/
def Leads (s₀ : PatriciaTree δ) (cs : List (Call δ)) (s : PatriciaTree δ) (g : Ledger δ) : Prop :=
  exec callStep (s₀, Ledger.empty) cs = some (s, g)

theorem callStep_of_call {r : Option Nat} (hcall : call s c = some (s', r)) :
    callStep (s, g) c = some (s', g.after c r) := by
  rw [callStep, hcall, Option.map_some]

/-- The accounts are kept by the calls that the contract allows, and none of them fails. -/
theorem Obeys.accounts (h : Accounts s g) (hcs : Obeys callStep Allowed (s, g) cs) :
    ∃ s' g', exec callStep (s, g) cs = some (s', g') ∧ s'.maxbits = s.maxbits ∧ Accounts s' g' := by
  have hstep : ∀ (sg : PatriciaTree δ × Ledger δ) c, (sg.1.maxbits = s.maxbits ∧ Accounts sg.1 sg.2) →
      Allowed sg c → ∃ sg', callStep sg c = some sg' ∧ sg'.1.maxbits = s.maxbits ∧ Accounts sg'.1 sg'.2 := by
    rintro ⟨s₁, g₁⟩ c ⟨hmaxbits, hacc⟩ hc
    obtain ⟨s', r, hcall, hkeep, -, hacc'⟩ := hacc.served hc
    exact ⟨_, callStep_of_call hcall, hkeep.trans hmaxbits, hacc'⟩
  obtain ⟨⟨s', g'⟩, hexec, hmaxbits, hacc⟩ := hcs.exec hstep ⟨rfl, h⟩
  exact ⟨s', g', hexec, hmaxbits, hacc⟩

theorem Proper.leads (hpos : 0 ≤ maxbits) (hnew : newPatricia [] maxbits = some s₀) (hcs : Proper s₀ cs) :
    ∃ s g, Leads s₀ cs s g ∧ s.maxbits = s₀.maxbits ∧ Accounts s g :=
  Obeys.accounts (accounts_newPatricia hpos hnew) hcs

theorem Proper.accounts (hpos : 0 ≤ maxbits) (hnew : newPatricia [] maxbits = some s₀) (hcs : Proper s₀ cs)
    (hrun : Leads s₀ cs s g) : Accounts s g := by
  obtain ⟨s', g', hrun', -, hacc⟩ := hcs.leads hpos hnew
  obtain ⟨rfl, rfl⟩ := Prod.mk.inj (Option.some.inj (hrun.symm.trans hrun'))
  exact hacc

/-- A new tree, and a program that puts 10.0.0.0/8 and 11.0.0.0/8 into it, looks for both, removes the
    second and gives its references back. -/
def newTree : PatriciaTree Nat := ⟨none, 32, 0, [], []⟩

/-- There are fewer than twice as many nodes as entries. -/
theorem Represents.numNodes_le (h : Represents s t) : t.numNodes ≤ 2 * (entries keyed t).length - 1 := by
  cases t with
  | nil => exact Nat.zero_le _
  | node c l r =>
      have hlt := h.compressed.numNodes_lt (by simp)
      omega

/-- The bit of each node, and whether it has a prefix, as the program finds them on the heap. -/
def shapeFrom (nodes : Heap (PatriciaNode δ)) : Nat → Option Nat → BinaryTree (Nat × Bool)
  | _, none => .nil
  | 0, some _ => .nil
  | fuel + 1, some p =>
      match nodes.read p with
      | none => .nil
      | some node => .node (node.bit, node.pfx.isSome) (shapeFrom nodes fuel node.l) (shapeFrom nodes fuel node.r)

def PatriciaTree.shape (s : PatriciaTree δ) : BinaryTree (Nat × Bool) := shapeFrom s.nodes s.nodes.fresh s.head

theorem shapeFrom_of_linked {nodes : Heap (PatriciaNode δ)} {parent : Option Nat} {fuel : Nat}
    (hl : Linked layout nodes parent t) (hfuel : t.numNodes ≤ fuel) :
    shapeFrom nodes fuel (ptr layout t) = t.map fun c => (c.word.length, c.entry.isSome) := by
  induction t generalizing parent fuel with
  | nil => cases fuel <;> rfl
  | node c l r ihl ihr =>
      obtain ⟨hread, hl', hr'⟩ := hl
      rw [BinaryTree.numNodes] at hfuel
      obtain ⟨fuel, rfl⟩ : ∃ k, fuel = k + 1 := ⟨fuel - 1, by omega⟩
      have hleft : shapeFrom nodes fuel (ptr layout l) = _ := ihl hl' (by omega)
      have hright : shapeFrom nodes fuel (ptr layout r) = _ := ihr hr' (by omega)
      rw [layout_addr] at hread
      rw [ptr, layout_addr, shapeFrom, hread]
      simp only [layout_content, Option.isSome_map, BinaryTree.map, hleft, hright]

theorem mem_words (htable : ∀ w e, T w = some e ↔ Holds t w e) : w ∈ words keyed t ↔ (T w).isSome := by
  rw [← mem_storedWords htable (.refl _), storedWords, List.mem_map]
  exact Iff.rfl

/-- Trees with entries for the same words have the same shape, in whatever order the words were
    inserted and whatever was removed. -/
theorem shape_of_words (h : Models s T) (h' : Models s' T') (hwords : ∀ w, (T w).isSome ↔ (T' w).isSome) :
    s.shape = s'.shape := by
  obtain ⟨t, hrep, htable⟩ := h
  obtain ⟨t', hrep', htable'⟩ := h'
  have hsame : words keyed t = words keyed t' := by
    ext w
    rw [mem_words htable, mem_words htable', hwords]
  have hunique := hrep.compressed.unique hrep'.compressed hsame
  have hshape := congrArg (BinaryTree.map fun k : List Bool × Bool => (k.1.length, k.2)) hunique
  rw [← BinaryTree.comp_map, ← BinaryTree.comp_map] at hshape
  rw [PatriciaTree.shape, PatriciaTree.shape, hrep.head, hrep'.head,
    shapeFrom_of_linked hrep.linked (hrep.linked.numNodes_le hrep.nodup),
    shapeFrom_of_linked hrep'.linked (hrep'.linked.numNodes_le hrep'.nodup)]
  exact hshape

end SrxNote.Patricia
