import SrxNote.Patricia.Demo
import SrxNote.Patricia.Proofs.Runs
import SrxNote.Patricia.Proofs.Text

/-!
# What the programs of the demo do

Between its calls the demo has no reference of its own: each function gives back the
prefix that it made. So a tree is a set of words to it, that a call enlarges or reduces by
the word of its text; it fails at the first text that is no address, and at no other.
-/

namespace SrxNote.Patricia

open Heap LinkedTree PrefixTree Run

variable {δ : Type} {inetNtop : Vector UInt8 16 → List Char} {inetPton : List Char → Option (List UInt8)}
  {s s₀ s₁ s₂ : PatriciaTree δ} {g g₁ g₂ : Ledger δ} {h : Heap Prefix} {string : List Char} {w : List Bool} {x : Nat} {pre : Prefix}

/-- All prefixes are IPv4 prefixes. -/
def Inet (h : Heap Prefix) : Prop := ∀ x pre, h.read x = some pre → pre.family = .inet ∧ pre.bitlen.toNat ≤ 32

/-- A text that `ascii2prefix` makes a prefix of. -/
def Readable (string : List Char) : Prop :=
  ('/' ∈ string → (string.takeWhile (· ≠ '/')).length < maxLine) ∧ IsAddress (string.takeWhile (· ≠ '/'))

/-- The tree between two calls. -/
structure Settled (s : PatriciaTree δ) (g : Ledger δ) : Prop where
  accounts : Accounts s g
  held : ∀ x, g.held x = 0
  inet : Inet s.prefixes
  maxbits : s.maxbits = 32

/-! ### IPv4 prefixes -/

theorem Inet.alloc (h' : Inet h) (hpre : pre.family = .inet ∧ pre.bitlen.toNat ≤ 32) : Inet (h.alloc pre) := by
  intro x pre' hread
  rw [read_alloc_eq] at hread
  split at hread
  · cases hread
    exact hpre
  · exact h' x pre' hread

/-- The heap after a change to the references of one prefix. -/
theorem Inet.set (h' : Inet h) (hread : h.read x = some pre) {new : Option Prefix}
    (hnew : ∀ pre', new = some pre' → pre'.family = pre.family ∧ pre'.bitlen = pre.bitlen) :
    Inet (h.set x new) := by
  intro y pre' hy
  rw [read_set hread] at hy
  split at hy
  · obtain ⟨hfamily, hbitlen⟩ := hnew pre' hy
    rw [hfamily, hbitlen]
    exact h' x pre hread
  · exact h' y pre' hy

theorem Inet.refPrefix (h' : Inet h) {h₁ : Heap Prefix} {y : Option Nat} (hread : h.read x = some pre)
    (hcount : 0 ≤ pre.refCount) (hroom : pre.refCount < intMax) (href : refPrefix h (some x) = some (h₁, y)) :
    Inet h₁ := by
  rw [refPrefix_of_counted hread hcount hroom] at href
  cases href
  refine h'.set hread ?_
  rintro pre' heq
  cases heq
  exact ⟨rfl, rfl⟩

theorem Inet.derefPrefix (h' : Inet h) {h₁ : Heap Prefix} (hread : h.read x = some pre) (hlive : 1 ≤ pre.refCount)
    (hderef : derefPrefix h (some x) = some h₁) : Inet h₁ := by
  rw [derefPrefix_eq hread hlive] at hderef
  cases hderef
  refine h'.set hread fun pre' heq => ?_
  rw [dropRef] at heq
  split at heq
  · cases heq
  · cases heq
    exact ⟨rfl, rfl⟩

/-! ### The prefix of a call -/

/-- The prefix that a call makes of its text. -/
theorem Settled.opens (hset : Settled s g) (hs : Readable string) (inetPton : List Char → Option (List UInt8)) :
    ∃ pre, ascii2prefix inetPton s.prefixes .inet string = some (s.prefixes.alloc pre, some s.prefixes.fresh) ∧
      pre.word = textWord string ∧ (pre.family = .inet ∧ pre.bitlen.toNat ≤ 32) ∧ pre.refCount = 1 ∧
      Accounts { s with prefixes := s.prefixes.alloc pre } (g.own s.prefixes.fresh (textWord string)) := by
  obtain ⟨pre, hrun, hfamily, hcount, hword, -⟩ := ascii2prefix_of_isAddress inetPton s.prefixes hs.1 hs.2
  refine ⟨pre, hrun, hword, ⟨hfamily, ?_⟩, hcount, ?_⟩
  · have hle := readBitlen_le string 32
    rw [← Prefix.length_word, hword, textWord, addressWord, length_bits]
    exact hle
  · have hacc := (hset.accounts.alloc hcount).2
    rw [hword] at hacc
    exact hacc

/-- The prefix is given back at the end of the call. -/
theorem Settled.closes (hset : Settled s g) (hacc : Accounts s₁ g₁) (hheld : g₁.held = Function.update g.held x 1)
    (hinet : Inet s₁.prefixes) (hmaxbits : s₁.maxbits = s.maxbits) :
    ∃ prefixes, derefPrefix s₁.prefixes (some x) = some prefixes ∧
      Settled { s₁ with prefixes := prefixes } (g₁.after (.derefPrefix x) none) := by
  have hone : g₁.held x = 1 := by rw [hheld, Function.update_self]
  obtain ⟨s', r, hcall, hkeep, hanswer, hacc'⟩ := hacc.served (c := .derefPrefix x) (by
    change 0 < g₁.held x
    omega)
  obtain ⟨prefixes, hderef, heq⟩ := Option.map_eq_some_iff.mp hcall
  cases heq
  have hrefs : 0 < g₁.refs x := Nat.lt_of_lt_of_le (by omega) (Nat.le_add_right (g₁.held x) _)
  obtain ⟨pre, hread, -, hcount⟩ := hacc.exists_read hrefs
  refine ⟨prefixes, hderef, hacc', fun y => ?_, hinet.derefPrefix hread (by omega) hderef, hmaxbits.trans hset.maxbits⟩
  simp only [Ledger.after, hheld]
  by_cases hy : y = x
  · subst hy
    simp
  · simp [hy, hset.held y]

theorem printed_of_inet (hread : h.read x = some pre) (hinet : pre.family = .inet ∧ pre.bitlen.toNat ≤ 32)
    (hcount : 0 ≤ pre.refCount) : printed inetNtop h (some x) = some (slashed pre) := by
  have htext : prefixToa inetNtop h (some x) = some (some (dotted pre.add)) :=
    prefixToa2x_of_inet hread hinet.1 hcount hinet.2 false
  simp only [printed, htext, hread, Option.bind_eq_bind, Option.bind_some]
  rfl

/-! ### Lookups and searches -/

theorem length_textWord_le (string : List Char) : (textWord string).length ≤ 32 := by
  rw [textWord, addressWord, length_bits]
  exact readBitlen_le string 32

/-- The new prefix may be used by the calls of the library. -/
theorem Accounts.shares_own (hacc : Accounts { s with prefixes := s.prefixes.alloc pre } (g.own s.prefixes.fresh w))
    (hcount : pre.refCount = 1) : (g.own s.prefixes.fresh w).Shares s.prefixes.fresh := by
  have hrefs := (hacc.counts _ pre (read_alloc_fresh _ _)).2
  have hmax : (1 : Int) < intMax := by decide
  rw [Ledger.Shares]
  omega

theorem Ledger.length_own_le (g : Ledger δ) (x : Nat) (string : List Char) :
    ((g.own x (textWord string)).word x).length ≤ 32 := by
  simp [Ledger.own, length_textWord_le]

/-- A lookup keeps the prefixes what they are. -/
theorem Inet.patriciaLookup (hinet : Inet s.prefixes) (hacc : Accounts s g) (hshares : g.Shares x)
    (hfits : (g.word x).length ≤ s.maxbits) {p : Nat} (hlookup : patriciaLookup s x = some (s₁, p)) :
    Inet s₁.prefixes := by
  obtain ⟨pre, hread, hword, -, hzero, hroom⟩ := hacc.exists_shared hshares
  obtain ⟨t, hrep, htable⟩ := hacc.models
  have hlen : pre.bitlen.toNat ≤ s.maxbits := by
    rw [← Prefix.length_word, hword]
    exact hfits
  obtain ⟨s', p', hrun, hlooked⟩ :=
    patriciaLookup_of_represents hrep htable hread (.inl ⟨hzero, hroom⟩) hlen
  obtain ⟨rfl, -⟩ := Prod.mk.inj (Option.some.inj (hlookup.symm.trans hrun))
  rcases hlooked with ⟨e, -, rfl, -⟩ | ⟨-, own, href, -⟩
  · exact hinet
  · exact hinet.refPrefix hread hzero hroom href

/-- A text is put into the tree. -/
theorem Settled.inserts (hset : Settled s g) (hs : Readable string) (inetPton : List Char → Option (List UInt8)) :
    ∃ pre s₂ p prefixes g',
      ascii2prefix inetPton s.prefixes .inet string = some (s.prefixes.alloc pre, some s.prefixes.fresh) ∧
      (pre.family = .inet ∧ pre.bitlen.toNat ≤ 32) ∧ pre.refCount = 1 ∧
      patriciaLookup { s with prefixes := s.prefixes.alloc pre } s.prefixes.fresh = some (s₂, p) ∧
      derefPrefix s₂.prefixes (some s.prefixes.fresh) = some prefixes ∧
      Settled { s₂ with prefixes := prefixes } g' ∧
      ∀ w, (g'.table w).isSome ↔ w = textWord string ∨ (g.table w).isSome := by
  obtain ⟨pre, hread, -, hpre, hcount, hacc⟩ := hset.opens hs inetPton
  have hshares := hacc.shares_own hcount
  have hfits := g.length_own_le s.prefixes.fresh string
  have hmaxbits := hset.maxbits
  obtain ⟨s₂, r, hcall, hkeep, ⟨p, rfl, -, -⟩, hacc₂⟩ := hacc.served (c := .lookup s.prefixes.fresh)
    ⟨hshares, hmaxbits ▸ hfits⟩
  obtain ⟨⟨s₂', p'⟩, hlookup, heq⟩ := Option.map_eq_some_iff.mp hcall
  cases heq
  have hinet : Inet s₂.prefixes := Inet.patriciaLookup (hset.inet.alloc hpre) hacc hshares
    (by change _ ≤ s.maxbits; rw [hmaxbits]; exact hfits) hlookup
  have hheld : ((g.own s.prefixes.fresh (textWord string)).after (.lookup s.prefixes.fresh) (some p)).held =
      Function.update g.held s.prefixes.fresh 1 := by
    rw [Ledger.after]
    split <;> rfl
  obtain ⟨prefixes, hderef, hset'⟩ := hset.closes hacc₂ hheld hinet hkeep
  refine ⟨pre, s₂, p, prefixes, _, hread, hpre, hcount, hlookup, hderef, hset', fun w => ?_⟩
  have hword : (g.own s.prefixes.fresh (textWord string)).word s.prefixes.fresh = textWord string :=
    Function.update_self ..
  have htable : (g.own s.prefixes.fresh (textWord string)).table = g.table := rfl
  simp only [Ledger.after, hword, htable]
  by_cases hw : w = textWord string
  · subst hw
    split
    · rename_i hsome
      simp [htable, hsome]
    · simp
  · split
    · simp [htable, hw]
    · simp [hw]

/-- A search whose result is the node of an entry, or none. -/
theorem Settled.searches (hset : Settled s g) (hs : Readable string)
    (inetNtop : Vector UInt8 16 → List Char) (inetPton : List Char → Option (List UInt8)) (name : List Char)
    {search : PatriciaTree δ → Nat → Option (Option Nat)} {result : Option (Entry δ)}
    (hsearch : ∀ pre, pre.word = textWord string → pre.refCount = 1 →
      Accounts { s with prefixes := s.prefixes.alloc pre } (g.own s.prefixes.fresh (textWord string)) →
      search { s with prefixes := s.prefixes.alloc pre } s.prefixes.fresh = some (result.map Entry.node))
    (hresult : ∀ e, result = some e → ∃ w, g.table w = some e) :
    ∃ s' g' text, trySearch inetNtop inetPton name search s string = some (s', text, result.map Entry.node) ∧
      Settled s' g' ∧ g'.table = g.table := by
  obtain ⟨pre, hread, hword, hpre, hcount, hacc⟩ := hset.opens hs inetPton
  have hinet := hset.inet.alloc hpre
  have hprint : printed inetNtop (s.prefixes.alloc pre) (some s.prefixes.fresh) = some (slashed pre) :=
    printed_of_inet (read_alloc_fresh _ _) hpre (by omega)
  have hfound : ∃ text, printedResult inetNtop name { s with prefixes := s.prefixes.alloc pre }
      (result.map Entry.node) = some text := by
    cases hentry : result with
    | none => exact ⟨_, rfl⟩
    | some e =>
        obtain ⟨w, he⟩ := hresult e hentry
        obtain ⟨t, hrep, htable⟩ := hacc.models
        obtain ⟨links, hnode⟩ := hrep.linked.exists_read ((htable w e).mp he)
        obtain ⟨own, hown, -, hlive⟩ := hacc.models.spells he
        have htext : printed inetNtop _ _ = _ := printed_of_inet hown (hinet _ _ hown) (by omega)
        simp only [layout_addr, layout_content, Option.map_some] at hnode
        simp only [Option.map_some, printedResult, hnode, htext, Option.bind_eq_bind, Option.bind_some]
        exact ⟨_, rfl⟩
  obtain ⟨text, htext⟩ := hfound
  obtain ⟨prefixes, hderef, hset'⟩ := hset.closes hacc rfl hinet rfl
  refine ⟨_, _, name ++ ": ".toList ++ slashed pre ++ '\n' :: text, ?_, hset', rfl⟩
  simp only [trySearch, hread, hprint, hsearch pre hword hcount hacc, htext, hderef, Option.bind_eq_bind,
    Option.bind_some]

theorem Settled.exact (hset : Settled s g) (hs : Readable string) (inetNtop : Vector UInt8 16 → List Char)
    (inetPton : List Char → Option (List UInt8)) :
    ∃ s' g' text, trySearchExact inetNtop inetPton s string =
        some (s', text, (g.table (textWord string)).map Entry.node) ∧
      Settled s' g' ∧ g'.table = g.table := by
  refine hset.searches hs inetNtop inetPton _ (fun pre hword hcount hacc => ?_) fun e he => ⟨_, he⟩
  obtain ⟨t, hrep, htable⟩ := hacc.models
  have hlen : pre.bitlen.toNat ≤ s.maxbits := by
    rw [← Prefix.length_word, hword, hset.maxbits]
    exact length_textWord_le string
  rw [patriciaSearchExact_of_represents hrep htable (read_alloc_fresh _ _) hlen, hword]
  rfl

theorem Settled.best (hset : Settled s g) (hs : Readable string) (inetNtop : Vector UInt8 16 → List Char)
    (inetPton : List Char → Option (List UInt8)) :
    ∃ s' g' text, trySearch inetNtop inetPton "try_search_best".toList patriciaSearchBest s string =
        some (s', text, (longestMatch g.table (textWord string) true).map Entry.node) ∧
      Settled s' g' ∧ g'.table = g.table := by
  refine hset.searches hs inetNtop inetPton _ (fun pre hword hcount hacc => ?_) fun e he => ?_
  · obtain ⟨t, hrep, htable⟩ := hacc.models
    have hlen : pre.bitlen.toNat ≤ s.maxbits := by
      rw [← Prefix.length_word, hword, hset.maxbits]
      exact length_textWord_le string
    rw [patriciaSearchBest, patriciaSearchBest2_of_represents hrep htable (read_alloc_fresh _ _) hlen, hword]
    rfl
  · obtain ⟨n, -, hn⟩ := List.exists_of_findSome?_eq_some he
    exact ⟨_, hn⟩

/-- The word of a text is taken out of the tree. -/
theorem Settled.removes (hset : Settled s g) (hs : Readable string) (inetNtop : Vector UInt8 16 → List Char)
    (inetPton : List Char → Option (List UInt8)) :
    ∃ s' g' text, lookupThenRemove inetNtop inetPton s string = some (s', text) ∧ Settled s' g' ∧
      ∀ w, (g'.table w).isSome ↔ w ≠ textWord string ∧ (g.table w).isSome := by
  obtain ⟨s₁, g₁, text, hexact, hset₁, htable⟩ := hset.exact hs inetNtop inetPton
  simp only [lookupThenRemove, hexact, Option.bind_eq_bind, Option.bind_some]
  cases he : g.table (textWord string) with
  | none =>
      refine ⟨s₁, g₁, text, rfl, hset₁, fun w => ?_⟩
      rw [htable]
      refine (and_iff_right_of_imp ?_).symm
      rintro hsome rfl
      rw [he] at hsome
      cases hsome
  | some e =>
      have he₁ : g₁.table (textWord string) = some e := by rw [htable, he]
      obtain ⟨t, hrep, hholds⟩ := hset₁.accounts.models
      obtain ⟨s', t', hremove, hderef, herased⟩ := patriciaRemove_of_represents hrep ((hholds _ _).mp he₁) rfl
      obtain ⟨s₂, r, hcall, hkeep, -, hacc⟩ := hset₁.accounts.served (c := .remove e.node) ⟨_, e, he₁, rfl⟩
      obtain ⟨s₃, hremove', heq⟩ := Option.map_eq_some_iff.mp hcall
      cases heq
      obtain rfl : s' = s₂ := Option.some.inj (hremove.symm.trans hremove')
      obtain ⟨own, hown, -, hlive⟩ := hset₁.accounts.models.spells he₁
      simp only [Option.map_some, hremove, Option.bind_some]
      refine ⟨_, _, _, rfl, ⟨hacc, hset₁.held, hset₁.inet.derefPrefix hown hlive hderef,
        hkeep.trans hset₁.maxbits⟩, fun w => ?_⟩
      rw [hset₁.accounts.after_remove he₁]
      by_cases hw : w = textWord string
      · simp [hw]
      · rw [Function.update_of_ne hw, htable]
        exact (and_iff_right hw).symm

/-! ### Texts that are no address -/

/-- No prefix is made of such a text. -/
theorem ascii2prefix_of_not_readable (hs : ¬ Readable string) (inetPton : List Char → Option (List UInt8))
    (h : Heap Prefix) :
    ascii2prefix inetPton h .inet string = none ∨ ascii2prefix inetPton h .inet string = some (h, none) := by
  by_cases hlen : '/' ∈ string → (string.takeWhile (· ≠ '/')).length < maxLine
  · right
    exact ascii2prefix_of_not_isAddress inetPton h hlen fun hs' => hs ⟨hlen, hs'⟩
  · left
    have hassert : cAssert ('/' ∈ string → (string.takeWhile (· ≠ '/')).length < maxLine) = none := if_neg hlen
    unfold ascii2prefix
    simp only [hassert, Option.bind_eq_bind, Option.bind_none]

theorem runCommand_of_not_readable {c : Command} (hs : ¬ Readable c.string) (inetNtop : Vector UInt8 16 → List Char)
    (inetPton : List Char → Option (List UInt8)) (s : PatriciaTree δ) :
    runCommand inetNtop inetPton s c = none := by
  have hprint : ∀ h, printed inetNtop h none = none := fun _ => rfl
  have hread := ascii2prefix_of_not_readable hs inetPton s.prefixes
  have htry : ∀ name search, trySearch inetNtop inetPton name search s c.string = none := by
    intro name search
    rcases hread with hread | hread
    · simp only [trySearch, hread, Option.bind_eq_bind, Option.bind_none]
    · simp only [trySearch, hread, hprint, Option.bind_eq_bind, Option.bind_some, Option.bind_none]
  cases c with
  | makeAndLookup string =>
      rw [Command.string] at hread
      rcases hread with hread | hread
      · simp only [runCommand, makeAndLookup, hread, Option.bind_eq_bind, Option.bind_none, Option.map_none]
      · simp only [runCommand, makeAndLookup, hread, hprint, Option.bind_eq_bind, Option.bind_some,
          Option.bind_none, Option.map_none]
  | trySearchExact string => exact congrArg (Option.map _) (htry _ _)
  | lookupThenRemove string => exact congrArg (Option.bind · _) (htry _ _)
  | trySearchBest string => exact congrArg (Option.map _) (htry _ _)

/-! ### Whole programs -/

/-- The words that have an entry. -/
def Ledger.words (g : Ledger δ) : Set (List Bool) := {w | (g.table w).isSome}

/-- What a call does to the set of words. -/
def Command.after (ws : Set (List Bool)) : Command → Set (List Bool)
  | .makeAndLookup string => insert (textWord string) ws
  | .trySearchExact _ => ws
  | .lookupThenRemove string => ws \ {textWord string}
  | .trySearchBest _ => ws

/-- A call of the demo. -/
def demoStep (inetNtop : Vector UInt8 16 → List Char) (inetPton : List Char → Option (List UInt8))
    (s : PatriciaTree δ) (c : Command) : Option (PatriciaTree δ) :=
  (runCommand inetNtop inetPton s c).map Prod.fst

theorem demoStep_of_run {c : Command} {s' : PatriciaTree δ} {text : List Char}
    (hrun : runCommand inetNtop inetPton s c = some (s', text)) : demoStep inetNtop inetPton s c = some s' := by
  rw [demoStep, hrun, Option.map_some]

theorem Settled.step (hset : Settled s g) {c : Command} (hs : Readable c.string)
    (inetNtop : Vector UInt8 16 → List Char) (inetPton : List Char → Option (List UInt8)) :
    ∃ s' g', demoStep inetNtop inetPton s c = some s' ∧ Settled s' g' ∧ g'.words = c.after g.words := by
  cases c with
  | makeAndLookup string =>
      obtain ⟨pre, s₂, p, prefixes, g', hread, hpre, hcount, hlookup, hderef, hset', hwords⟩ :=
        hset.inserts hs inetPton
      have hprint : printed inetNtop (s.prefixes.alloc pre) (some s.prefixes.fresh) = some (slashed pre) :=
        printed_of_inet (read_alloc_fresh _ _) hpre (by omega)
      have hrun : runCommand inetNtop inetPton s (.makeAndLookup string) =
          some ({ s₂ with prefixes := prefixes }, "make_and_lookup: ".toList ++ slashed pre ++ ['\n']) := by
        rw [Command.string] at hread
        simp only [runCommand, makeAndLookup, hread, hprint, hlookup, hderef, Option.bind_eq_bind,
          Option.bind_some, Option.map_some]
      refine ⟨_, g', demoStep_of_run hrun, hset', ?_⟩
      ext w
      exact hwords w
  | trySearchExact string =>
      obtain ⟨s', g', text, hrun, hset', htable⟩ := hset.exact hs inetNtop inetPton
      refine ⟨s', g', demoStep_of_run (congrArg (Option.map _) hrun), hset', ?_⟩
      rw [Ledger.words, htable]
      rfl
  | lookupThenRemove string =>
      obtain ⟨s', g', text, hrun, hset', hwords⟩ := hset.removes hs inetNtop inetPton
      refine ⟨s', g', demoStep_of_run hrun, hset', ?_⟩
      ext w
      exact (hwords w).trans and_comm
  | trySearchBest string =>
      obtain ⟨s', g', text, hrun, hset', htable⟩ := hset.best hs inetNtop inetPton
      refine ⟨s', g', demoStep_of_run (congrArg (Option.map _) hrun), hset', ?_⟩
      rw [Ledger.words, htable]
      rfl

theorem Settled.run (hset : Settled s g) {cs : List Command} (hcs : ∀ c ∈ cs, Readable c.string)
    (inetNtop : Vector UInt8 16 → List Char) (inetPton : List Char → Option (List UInt8)) :
    ∃ s' g', exec (demoStep inetNtop inetPton) s cs = some s' ∧ Settled s' g' ∧
      g'.words = cs.foldl Command.after g.words := by
  induction cs generalizing s g with
  | nil => exact ⟨s, g, rfl, hset, rfl⟩
  | cons c cs ih =>
      obtain ⟨s₁, g₁, hstep, hset₁, hwords⟩ := hset.step (hcs c List.mem_cons_self) inetNtop inetPton
      obtain ⟨s', g', hrun, hset', hwords'⟩ := ih hset₁ fun c hc => hcs c (List.mem_cons_of_mem _ hc)
      refine ⟨s', g', ?_, hset', ?_⟩
      · rw [exec, hstep]
        exact hrun
      · rw [hwords', hwords, List.foldl_cons]

theorem exec_of_not_readable {cs : List Command} (hcs : ¬ ∀ c ∈ cs, Readable c.string)
    (inetNtop : Vector UInt8 16 → List Char) (inetPton : List Char → Option (List UInt8)) (s : PatriciaTree δ) :
    exec (demoStep inetNtop inetPton) s cs = none := by
  induction cs generalizing s with
  | nil => simp at hcs
  | cons c cs ih =>
      rw [exec]
      by_cases hc : Readable c.string
      · rw [List.forall_mem_cons, not_and] at hcs
        cases demoStep inetNtop inetPton s c with
        | none => rfl
        | some s' => exact ih (hcs hc) s'
      · have hstop := runCommand_of_not_readable hc inetNtop inetPton s
        rw [demoStep, hstop]
        rfl

theorem settled_newPatricia (hnew : newPatricia [] 32 = some s₀) :
    Settled s₀ Ledger.empty ∧ (Ledger.empty : Ledger δ).words = ∅ := by
  refine ⟨⟨accounts_newPatricia (by omega) hnew, fun _ => rfl, ?_, ?_⟩, ?_⟩
  · have hempty : newPatricia [] 32 = some (⟨none, 32, 0, [], []⟩ : PatriciaTree δ) := rfl
    obtain rfl := Option.some.inj (hempty.symm.trans hnew)
    intro x pre hread
    simp [Heap.read] at hread
  · have hempty : newPatricia [] 32 = some (⟨none, 32, 0, [], []⟩ : PatriciaTree δ) := rfl
    obtain rfl := Option.some.inj (hempty.symm.trans hnew)
    rfl
  · ext w
    simp [Ledger.words, Ledger.empty]

/-- The demo on a new tree comes to its end exactly when it is given addresses only, and then the tree
    has the words that were put in and not taken out again; nothing else is left on the heap. -/
theorem demo_run (hnew : newPatricia [] 32 = some s₀) (inetNtop : Vector UInt8 16 → List Char)
    (inetPton : List Char → Option (List UInt8)) (cs : List Command) :
    ((∀ c ∈ cs, Readable c.string) →
      ∃ s g, exec (demoStep inetNtop inetPton) s₀ cs = some s ∧ Settled s g ∧
        g.words = cs.foldl Command.after ∅) ∧
      ((¬ ∀ c ∈ cs, Readable c.string) → exec (demoStep inetNtop inetPton) s₀ cs = none) := by
  obtain ⟨hset, hwords⟩ := settled_newPatricia hnew
  refine ⟨fun hcs => ?_, fun hcs => exec_of_not_readable hcs inetNtop inetPton s₀⟩
  rw [← hwords]
  exact hset.run hcs inetNtop inetPton

theorem demo_run_sample :
    ((∀ c ∈ [Command.makeAndLookup "10.0.0.0/8".toList, .lookupThenRemove "10.0.0.0/8".toList], Readable c.string) →
      ∃ s g, exec (demoStep (fun _ => []) fun _ => none) newTree
          [.makeAndLookup "10.0.0.0/8".toList, .lookupThenRemove "10.0.0.0/8".toList] = some s ∧ Settled s g ∧
        g.words = insert (textWord "10.0.0.0/8".toList) ∅ \ {textWord "10.0.0.0/8".toList}) ∧
      ((¬ ∀ c ∈ [Command.makeAndLookup "10.0.0.0/8".toList, .lookupThenRemove "10.0.0.0/8".toList], Readable c.string) →
        exec (demoStep (fun _ => []) fun _ => none) newTree
          [.makeAndLookup "10.0.0.0/8".toList, .lookupThenRemove "10.0.0.0/8".toList] = none) :=
  demo_run rfl (fun _ => []) (fun _ => none)
    [.makeAndLookup "10.0.0.0/8".toList, .lookupThenRemove "10.0.0.0/8".toList]

/-! ### Loading a file -/

theorem Settled.load (hset : Settled s g) {lines : List (List Char)} (hlines : ∀ line ∈ lines, Readable line)
    (inetPton : List Char → Option (List UInt8)) :
    ∃ s' g', loadLines inetPton s lines = some s' ∧ Settled s' g' ∧
      ∀ w, (g'.table w).isSome ↔ (g.table w).isSome ∨ ∃ line ∈ lines, textWord line = w := by
  induction lines generalizing s g with
  | nil => exact ⟨s, g, rfl, hset, by simp⟩
  | cons line lines ih =>
      obtain ⟨pre, s₂, p, prefixes, g₁, hread, -, -, hlookup, hderef, hset₁, hwords⟩ :=
        hset.inserts (hlines line List.mem_cons_self) inetPton
      obtain ⟨s', g', hload, hset', hwords'⟩ := ih hset₁ fun l hl => hlines l (List.mem_cons_of_mem _ hl)
      refine ⟨s', g', ?_, hset', fun w => ?_⟩
      · simp only [loadLines, hread, hlookup, hderef, Option.bind_eq_bind, Option.bind_some]
        exact hload
      · rw [hwords', hwords, List.exists_mem_cons_iff]
        constructor
        · rintro ((rfl | hw) | hw)
          · exact .inr (.inl rfl)
          · exact .inl hw
          · exact .inr (.inr hw)
        · rintro (hw | rfl | hw)
          · exact .inl (.inr hw)
          · exact .inl (.inl rfl)
          · exact .inr hw

/-- The tree that `perf_test` fills has the words of the lines and does not depend on their order: for
    the same words its shape is the same. -/
theorem loadLines_shape (hnew : newPatricia [] 32 = some s₀) (inetPton : List Char → Option (List UInt8))
    {lines lines' : List (List Char)} (hlines : ∀ line ∈ lines, Readable line)
    (hlines' : ∀ line ∈ lines', Readable line)
    (hsame : ∀ w, (∃ line ∈ lines, textWord line = w) ↔ ∃ line ∈ lines', textWord line = w) :
    ∃ s s' g g', loadLines inetPton s₀ lines = some s ∧ loadLines inetPton s₀ lines' = some s' ∧
      Settled s g ∧ Settled s' g' ∧ (∀ w, (g.table w).isSome ↔ ∃ line ∈ lines, textWord line = w) ∧
      s.shape = s'.shape := by
  obtain ⟨hset, hempty⟩ := settled_newPatricia hnew
  have hnone : ∀ w, ¬ ((Ledger.empty : Ledger δ).table w).isSome := by simp [Ledger.empty]
  obtain ⟨s, g, hload, hsetl, hwords⟩ := hset.load hlines inetPton
  obtain ⟨s', g', hload', hsetl', hwords'⟩ := hset.load hlines' inetPton
  have hg : ∀ w, (g.table w).isSome ↔ ∃ line ∈ lines, textWord line = w := fun w => by
    rw [hwords, or_iff_right (hnone w)]
  have hg' : ∀ w, (g'.table w).isSome ↔ ∃ line ∈ lines', textWord line = w := fun w => by
    rw [hwords', or_iff_right (hnone w)]
  refine ⟨s, s', g, g', hload, hload', hsetl, hsetl', hg, ?_⟩
  exact shape_of_words hsetl.accounts.models hsetl'.accounts.models fun w => by rw [hg, hg', hsame]

theorem readable_slashed (pre : Prefix) : Readable (slashed pre) := by
  have htake : (slashed pre).takeWhile (· ≠ '/') = dotted pre.add := takeWhile_of_slash (dotted_no_slash _)
  rw [Readable, htake]
  exact ⟨fun _ => length_dotted_lt _, isAddress_dotted _⟩

theorem loadLines_shape_sample :
    ∃ s s' g g', loadLines (fun _ => none) newTree [slashed (samplePrefix 10 8), slashed (samplePrefix 10 16)] = some s ∧
      loadLines (fun _ => none) newTree [slashed (samplePrefix 10 16), slashed (samplePrefix 10 8)] = some s' ∧
      Settled s g ∧ Settled s' g' ∧
      (∀ w, (g.table w).isSome ↔
        ∃ line ∈ [slashed (samplePrefix 10 8), slashed (samplePrefix 10 16)], textWord line = w) ∧
      s.shape = s'.shape :=
  loadLines_shape rfl (fun _ => none) (by simp [readable_slashed]) (by simp [readable_slashed]) (by simp [or_comm])

end SrxNote.Patricia
