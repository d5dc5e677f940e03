import SrxNote.Patricia.Proofs.Accounts
import SrxNote.Patricia.Text

/-!
# What the texts of prefixes say

`my_inet_pton` reads one to four numbers of at most 255 with dots between them, and
nothing else; the numbers that are missing are 0. What `prefix_toa2x` writes,
`ascii2prefix` reads.
-/

namespace SrxNote.Patricia

open Heap Text PrefixTree

/-- A number of an address. -/
structure IsPart (w : List Char) : Prop where
  ne_nil : w ≠ []
  digits : ∀ c ∈ w, c.isDigit = true
  le : Nat.ofDigitChars 10 w 0 ≤ 255

/-- Write the octets of the parts from one place on. -/
def setParts (i : Nat) (xp : List UInt8) : List (List Char) → List UInt8
  | [] => xp
  | w :: ws => setParts (i + 1) (xp.set i (UInt8.ofNat (Nat.ofDigitChars 10 w 0))) ws

/-! ### Parts -/

theorem le_ofDigitChars (ds : List Char) (n : Nat) : n ≤ Nat.ofDigitChars 10 ds n := by
  induction ds generalizing n with
  | nil => exact Nat.le_refl n
  | cons c ds ih =>
      rw [Nat.ofDigitChars_cons]
      exact Nat.le_trans (by omega) (ih _)

theorem readPart_cons (val : Nat) (c : Char) (src : List Char) {n : Nat}
    (hn : 10 * val + (c.toNat - '0'.toNat) = n) :
    readPart val (c :: src) =
      if n > 255 then none
      else
        match src with
        | [] => some (n, [])
        | d :: rest => if d.isDigit then readPart n (d :: rest) else some (n, d :: rest) := by
  rw [Nat.mul_comm] at hn
  subst hn
  cases src <;> rfl

/-- The digits at the beginning, and their value where it is not over 255. -/
theorem readPart_eq {c : Char} (hc : c.isDigit = true) (val : Nat) (src : List Char) :
    readPart val (c :: src) =
      if Nat.ofDigitChars 10 ((c :: src).takeWhile Char.isDigit) val ≤ 255 then
        some (Nat.ofDigitChars 10 ((c :: src).takeWhile Char.isDigit) val, (c :: src).dropWhile Char.isDigit)
      else none := by
  induction src generalizing c val with
  | nil =>
      rw [List.takeWhile_cons_of_pos hc, List.dropWhile_cons_of_pos hc, Nat.ofDigitChars_cons]
      generalize hn : 10 * val + (c.toNat - '0'.toNat) = n
      rw [readPart_cons val c [] hn, List.takeWhile_nil, List.dropWhile_nil, Nat.ofDigitChars_nil]
      by_cases hbig : n > 255
      · rw [if_pos hbig, if_neg (by omega)]
      · rw [if_neg hbig, if_pos (by omega)]
  | cons d src ih =>
      rw [List.takeWhile_cons_of_pos hc, List.dropWhile_cons_of_pos hc, Nat.ofDigitChars_cons]
      generalize hn : 10 * val + (c.toNat - '0'.toNat) = n
      rw [readPart_cons val c (d :: src) hn]
      by_cases hbig : n > 255
      · have hle := le_ofDigitChars ((d :: src).takeWhile Char.isDigit) n
        rw [if_pos hbig, if_neg (by omega)]
      · rw [if_neg hbig]
        by_cases hd : d.isDigit = true
        · rw [← ih hd n]
          exact if_pos hd
        · rw [List.takeWhile_cons_of_neg hd, List.dropWhile_cons_of_neg hd, Nat.ofDigitChars_nil,
            if_pos (by omega)]
          exact if_neg hd

/-- A character of a text is a dot or in one of its parts. -/
theorem mem_splitOn_of_mem {s : List Char} {c : Char} (hc : c ∈ s) (hdot : c ≠ '.') :
    ∃ w ∈ s.splitOn '.', c ∈ w := by
  induction s with
  | nil => cases hc
  | cons d s ih =>
      rw [List.splitOn_cons_eq_if_modifyHead]
      obtain ⟨v, vs, hsplit⟩ := List.exists_cons_of_ne_nil (List.splitOn_ne_nil '.' s)
      rw [hsplit] at ih ⊢
      rcases List.mem_cons.mp hc with rfl | hc
      · rw [if_neg (by simpa using hdot)]
        exact ⟨c :: v, by simp, by simp⟩
      · obtain ⟨w, hw, hcw⟩ := ih hc
        by_cases hd : (d == '.') = true
        · rw [if_pos hd]
          exact ⟨w, List.mem_cons_of_mem _ hw, hcw⟩
        · rw [if_neg hd, List.modifyHead_cons]
          rcases List.mem_cons.mp hw with rfl | hw
          · exact ⟨d :: w, by simp, List.mem_cons_of_mem d hcw⟩
          · exact ⟨w, List.mem_cons_of_mem _ hw, hcw⟩

theorem not_isPart_of_mem {s : List Char} {c : Char} (hc : c ∈ s) (hdot : c ≠ '.') (hdigit : ¬ c.isDigit = true) :
    ¬ ∀ w ∈ s.splitOn '.', IsPart w := by
  intro h
  obtain ⟨w, hw, hcw⟩ := mem_splitOn_of_mem hc hdot
  exact hdigit ((h w hw).digits c hcw)

/-! ### Addresses -/

/-- A part that begins with a digit. -/
theorem startPart_of_digit {c : Char} (hc : c.isDigit = true) (src : List Char) :
    startPart (c :: src) =
      if Nat.ofDigitChars 10 ((c :: src).takeWhile Char.isDigit) 0 ≤ 255 then
        .ok (Nat.ofDigitChars 10 ((c :: src).takeWhile Char.isDigit) 0, (c :: src).dropWhile Char.isDigit)
      else .error 0 := by
  rw [startPart, if_pos hc, readPart_eq hc]
  by_cases hle : Nat.ofDigitChars 10 ((c :: src).takeWhile Char.isDigit) 0 ≤ 255
  · rw [if_pos hle, if_pos hle]
  · rw [if_neg hle, if_neg hle]

/-- A text is no address, or a last number, or a number in front of a dot. -/
theorem startPart_cases (s : List Char) :
    ((¬ ∀ w ∈ s.splitOn '.', IsPart w) ∧
        ((∃ e, startPart s = .error e) ∨ ∃ val d rest, startPart s = .ok (val, d :: rest) ∧ d ≠ '.')) ∨
      (IsPart s ∧ s.splitOn '.' = [s] ∧ startPart s = .ok (Nat.ofDigitChars 10 s 0, [])) ∨
      ∃ w rest, IsPart w ∧ s.splitOn '.' = w :: rest.splitOn '.' ∧
        startPart s = .ok (Nat.ofDigitChars 10 w 0, '.' :: rest) := by
  cases s with
  | nil => exact .inl ⟨fun h => (h [] (by simp)).ne_nil rfl, .inl ⟨-1, by rw [startPart]⟩⟩
  | cons c src =>
      by_cases hc : c.isDigit = true
      · obtain ⟨ds, hds⟩ : ∃ ds, (c :: src).takeWhile Char.isDigit = ds := ⟨_, rfl⟩
        have hdigits : ∀ d ∈ ds, d.isDigit = true := by
          rw [← hds]
          exact fun d hd => List.mem_takeWhile_imp hd
        have hne : ds ≠ [] := by
          rw [← hds, List.takeWhile_cons_of_pos hc]
          exact List.cons_ne_nil _ _
        have hnodot : '.' ∉ ds := fun hmem => absurd (hdigits _ hmem) (by decide)
        have hsplit := List.takeWhile_append_dropWhile (p := Char.isDigit) (l := c :: src)
        have hstart := startPart_of_digit hc src
        rw [hds] at hsplit hstart
        cases hrest : (c :: src).dropWhile Char.isDigit with
        | nil =>
            rw [hrest, List.append_nil] at hsplit
            subst hsplit
            have hone := List.splitOn_eq_singleton hnodot
            by_cases hle : Nat.ofDigitChars 10 (c :: src) 0 ≤ 255
            · rw [if_pos hle, hrest] at hstart
              exact .inr (.inl ⟨⟨hne, hdigits, hle⟩, hone, hstart⟩)
            · rw [if_neg hle] at hstart
              exact .inl ⟨fun h => hle (h _ (by simp [hone])).le, .inl ⟨0, hstart⟩⟩
        | cons d rest =>
            rw [hrest] at hsplit hstart
            have hd : ¬ d.isDigit = true := by
              have hhead := List.head?_dropWhile_not Char.isDigit (c :: src)
              rw [hrest] at hhead
              simpa using hhead
            by_cases hdot : d = '.'
            · subst hdot
              have hmore : (c :: src).splitOn '.' = ds :: rest.splitOn '.' := by
                rw [← hsplit]
                exact List.splitOn_append_cons_self_of_not_mem hnodot rest
              by_cases hle : Nat.ofDigitChars 10 ds 0 ≤ 255
              · rw [if_pos hle] at hstart
                exact .inr (.inr ⟨ds, rest, ⟨hne, hdigits, hle⟩, hmore, hstart⟩)
              · rw [if_neg hle] at hstart
                exact .inl ⟨fun h => hle (h _ (by simp [hmore])).le, .inl ⟨0, hstart⟩⟩
            · refine .inl ⟨not_isPart_of_mem (c := d) ?_ hdot hd, ?_⟩
              · rw [← hsplit]
                simp
              · by_cases hle : Nat.ofDigitChars 10 ds 0 ≤ 255
                · rw [if_pos hle] at hstart
                  exact .inr ⟨_, d, rest, hstart, hdot⟩
                · rw [if_neg hle] at hstart
                  exact .inl ⟨0, hstart⟩
      · have herr : startPart (c :: src) = .error (-1) := by rw [startPart, if_neg hc]
        by_cases hdot : c = '.'
        · refine .inl ⟨fun h => (h [] ?_).ne_nil rfl, .inl ⟨-1, herr⟩⟩
          simp [hdot, List.splitOn_cons_eq_if_modifyHead]
        · exact .inl ⟨not_isPart_of_mem List.mem_cons_self hdot hc, .inl ⟨-1, herr⟩⟩

/-- The loop reads all parts of a text, if they are numbers and not too many. -/
theorem ptonLoop_eq_ok_iff {fuel i : Nat} (hi : i + fuel = 4) (xp : List UInt8) (s : List Char) (xp' : List UInt8) :
    ptonLoop fuel i xp s = .ok xp' ↔ (s.splitOn '.').length ≤ fuel ∧ (∀ w ∈ s.splitOn '.', IsPart w) ∧
      xp' = setParts i xp (s.splitOn '.') := by
  have hlong : ∀ s : List Char, 0 < (s.splitOn '.').length := fun s =>
    List.length_pos_of_ne_nil (List.splitOn_ne_nil _ s)
  induction fuel generalizing i xp s with
  | zero =>
      have := hlong s
      simp only [ptonLoop, reduceCtorEq, false_iff]
      omega
  | succ fuel ih =>
      rcases startPart_cases s with ⟨hbad, ⟨e, he⟩ | ⟨val, d, rest, hok, hdot⟩⟩ | ⟨hpart, hone, hok⟩ |
        ⟨w, rest, hpart, hmore, hok⟩
      · simp [ptonLoop, bind, Except.bind, he, hbad]
      · simp [ptonLoop, bind, Except.bind, hok, hbad, hdot]
      · simp [ptonLoop, bind, Except.bind, hok, hone, hpart, setParts, eq_comm]
      · have hrest := hlong rest
        by_cases hlast : i ≥ 3
        · have hfuel : fuel = 0 := by omega
          simp [ptonLoop, bind, Except.bind, hok, hmore, hlast, hfuel]
        · have hnext := ih (i := i + 1) (by omega) (xp.set i (UInt8.ofNat (Nat.ofDigitChars 10 w 0))) rest
          simp [ptonLoop, bind, Except.bind, hok, hmore, hlast, hnext, hpart, setParts]

/-- One to four numbers with dots between them. -/
def IsAddress (s : List Char) : Prop := (s.splitOn '.').length ≤ 4 ∧ ∀ w ∈ s.splitOn '.', IsPart w

/-- The octets of an address; those that are missing are 0. -/
def octetsOf (s : List Char) : List UInt8 :=
  (s.splitOn '.').map (fun w => UInt8.ofNat (Nat.ofDigitChars 10 w 0)) ++
    List.replicate (4 - (s.splitOn '.').length) 0

theorem setParts_zero {parts : List (List Char)} (hlen : parts.length ≤ 4) :
    setParts 0 [0, 0, 0, 0] parts =
      parts.map (fun w => UInt8.ofNat (Nat.ofDigitChars 10 w 0)) ++ List.replicate (4 - parts.length) 0 := by
  match parts, hlen with
  | [], _ => rfl
  | [_], _ => rfl
  | [_, _], _ => rfl
  | [_, _, _], _ => rfl
  | [_, _, _, _], _ => rfl

theorem myInetPton_eq_ok_iff (s : List Char) (sin : List UInt8) :
    myInetPton s = .ok sin ↔ IsAddress s ∧ sin = octetsOf s := by
  rw [myInetPton, ptonLoop_eq_ok_iff rfl, IsAddress, octetsOf, and_assoc]
  refine and_congr_right fun hlen => ?_
  rw [setParts_zero hlen]

theorem length_octetsOf {s : List Char} (hs : IsAddress s) : (octetsOf s).length = 4 := by
  have hlen := hs.1
  rw [octetsOf, List.length_append, List.length_map, List.length_replicate]
  omega

theorem readBitlen_le (string : List Char) (maxbitlen : Nat) : readBitlen string maxbitlen ≤ maxbitlen := by
  unfold readBitlen
  split
  · exact Nat.le_refl _
  · simp only
    split <;> omega

/-- The word that a text stands for. -/
def textWord (string : List Char) : List Bool :=
  addressWord (octetsOf (string.takeWhile (· ≠ '/'))) (readBitlen string 32)

theorem ascii2prefix_eq (inetPton : List Char → Option (List UInt8)) (h : Heap Prefix) {string : List Char}
    (hlen : '/' ∈ string → (string.takeWhile (· ≠ '/')).length < maxLine) :
    ascii2prefix inetPton h .inet string =
      match myInetPton (string.takeWhile (· ≠ '/')) with
      | .error _ => some (h, none)
      | .ok sin => newPrefix h .inet sin (readBitlen string 32) := by
  unfold ascii2prefix
  dsimp only
  rw [cAssert_of hlen]
  rfl

/-- The prefix of a text with an address. -/
theorem ascii2prefix_of_isAddress (inetPton : List Char → Option (List UInt8)) (h : Heap Prefix) {string : List Char}
    (hlen : '/' ∈ string → (string.takeWhile (· ≠ '/')).length < maxLine)
    (hs : IsAddress (string.takeWhile (· ≠ '/'))) :
    ∃ pre, ascii2prefix inetPton h .inet string = some (h.alloc pre, some h.fresh) ∧ pre.family = .inet ∧
      pre.refCount = 1 ∧ pre.word = textWord string ∧
      ∀ i, pre.add.toList.getD i 0 = (octetsOf (string.takeWhile (· ≠ '/'))).getD i 0 := by
  have hrun := ascii2prefix_eq inetPton h hlen
  have hsin : myInetPton (string.takeWhile (· ≠ '/')) = .ok _ := (myInetPton_eq_ok_iff _ _).mpr ⟨hs, rfl⟩
  rw [hsin] at hrun
  have hfour := length_octetsOf hs
  have hsize : familySize .inet = some (4, 32) := rfl
  obtain ⟨pre, hnew, hfamily, hcount, hword, hoctets⟩ :
      ∃ pre, newPrefix h .inet (octetsOf (string.takeWhile (· ≠ '/'))) (readBitlen string 32) = _ ∧ _ :=
    newPrefix_of_family hsize (by omega)
  rw [List.take_of_length_le (by omega)] at hoctets
  refine ⟨pre, hrun.trans hnew, hfamily, hcount, ?_, hoctets⟩
  have hbits := readBitlen_le string 32
  have hlength : (UInt16.ofInt (readBitlen string 32 : Nat)).toNat = readBitlen string 32 := by
    rw [UInt16.ofInt, UInt16.toNat_ofNat']
    omega
  rw [hword, newWord]
  simp only [familySize]
  rw [if_pos (by omega), hlength, List.take_of_length_le (by omega), textWord]

theorem ascii2prefix_of_not_isAddress (inetPton : List Char → Option (List UInt8)) (h : Heap Prefix)
    {string : List Char} (hlen : '/' ∈ string → (string.takeWhile (· ≠ '/')).length < maxLine)
    (hs : ¬ IsAddress (string.takeWhile (· ≠ '/'))) : ascii2prefix inetPton h .inet string = some (h, none) := by
  rw [ascii2prefix_eq inetPton h hlen]
  cases hsin : myInetPton (string.takeWhile (· ≠ '/')) with
  | error e => rfl
  | ok sin => exact absurd ((myInetPton_eq_ok_iff _ _).mp hsin).1 hs

/-- `ascii2prefix` makes a prefix of a text exactly when one to four numbers of at most 255, with dots
    between them, are in front of its slash; the octets of the prefix are these numbers, the missing ones
    0, and its word has as many of their bits as the number behind the slash says, but not more than 32. -/
theorem ascii2prefix_inet (inetPton : List Char → Option (List UInt8)) (h : Heap Prefix) (string : List Char)
    (hlen : '/' ∈ string → (string.takeWhile (· ≠ '/')).length < maxLine) :
    (IsAddress (string.takeWhile (· ≠ '/')) ∧
      ∃ pre, ascii2prefix inetPton h .inet string = some (h.alloc pre, some h.fresh) ∧ pre.family = .inet ∧
        pre.refCount = 1 ∧
        pre.word = addressWord (octetsOf (string.takeWhile (· ≠ '/'))) (readBitlen string 32) ∧
        ∀ i, pre.add.toList.getD i 0 = (octetsOf (string.takeWhile (· ≠ '/'))).getD i 0) ∨
      (¬ IsAddress (string.takeWhile (· ≠ '/')) ∧ ascii2prefix inetPton h .inet string = some (h, none)) := by
  by_cases hs : IsAddress (string.takeWhile (· ≠ '/'))
  · exact .inl ⟨hs, ascii2prefix_of_isAddress inetPton h hlen hs⟩
  · exact .inr ⟨hs, ascii2prefix_of_not_isAddress inetPton h hlen hs⟩

theorem ascii2prefix_inet_sample :
    (IsAddress "10.42".toList ∧
      ∃ pre, ascii2prefix (fun _ => none) [] .inet "10.42/-1".toList = some (Heap.alloc [] pre, some 0) ∧
        pre.family = .inet ∧ pre.refCount = 1 ∧
        pre.word = addressWord (octetsOf "10.42".toList) (readBitlen "10.42/-1".toList 32) ∧
        ∀ i, pre.add.toList.getD i 0 = (octetsOf "10.42".toList).getD i 0) ∨
      (¬ IsAddress "10.42".toList ∧ ascii2prefix (fun _ => none) [] .inet "10.42/-1".toList = some ([], none)) :=
  ascii2prefix_inet (fun _ => none) [] "10.42/-1".toList (by decide)

/-! ### Round trips -/

theorem splitOn_dotted (add : Vector UInt8 16) :
    (dotted add).splitOn '.' = (add.toList.take 4).map fun octet => decimal octet.toNat := by
  have hfour : add.toList.take 4 = [add[0], add[1], add[2], add[3]] := by
    refine List.ext_getElem (by simp) fun i hi hi' => ?_
    simp only [List.length_cons, List.length_nil] at hi'
    obtain rfl | rfl | rfl | rfl : i = 0 ∨ i = 1 ∨ i = 2 ∨ i = 3 := by omega
    all_goals simp
  rw [hfour, dotted, List.splitOn_append_cons_self_of_not_mem (decimal_no_dot _),
    List.splitOn_append_cons_self_of_not_mem (decimal_no_dot _),
    List.splitOn_append_cons_self_of_not_mem (decimal_no_dot _),
    List.splitOn_eq_singleton (decimal_no_dot _)]
  rfl

theorem isPart_decimal (o : UInt8) : IsPart (decimal o.toNat) where
  ne_nil := (isWord_decimal _).1
  digits := fun _ hc => decimal_isDigit hc
  le := by
    have hlt := o.toNat_lt
    have hvalue : Nat.ofDigitChars 10 (decimal o.toNat) 0 = o.toNat := Nat.ofDigitChars_ten_toDigits
    omega

theorem isAddress_dotted (add : Vector UInt8 16) : IsAddress (dotted add) := by
  rw [IsAddress, splitOn_dotted]
  refine ⟨by simp, fun part hpart => ?_⟩
  obtain ⟨octet, -, rfl⟩ := List.mem_map.mp hpart
  exact isPart_decimal octet

theorem octetsOf_dotted (add : Vector UInt8 16) : octetsOf (dotted add) = add.toList.take 4 := by
  have hvalue : ∀ o : UInt8, UInt8.ofNat (Nat.ofDigitChars 10 (decimal o.toNat) 0) = o := by
    intro o
    rw [decimal, Nat.ofDigitChars_ten_toDigits, UInt8.ofNat_toNat]
  have hlen : (add.toList.take 4).length = 4 := by simp
  rw [octetsOf, splitOn_dotted, List.map_map, List.length_map, hlen, Nat.sub_self, List.replicate_zero,
    List.append_nil]
  exact (List.map_congr_left fun o _ => hvalue o).trans (List.map_id _)

theorem dotted_no_slash (add : Vector UInt8 16) : '/' ∉ dotted add := by
  have hdecimal : ∀ n, '/' ∉ decimal n := fun n hmem => absurd (decimal_isDigit hmem) (by decide)
  simp [dotted, hdecimal]

theorem length_dotted_lt (add : Vector UInt8 16) : (dotted add).length < maxLine := by
  have hthree : ∀ o : UInt8, (decimal o.toNat).length ≤ 3 := by
    intro o
    have hlt := o.toNat_lt
    exact (Nat.length_toDigits_le_iff (by omega) (by omega)).mpr (by omega)
  have h0 := hthree add[0]
  have h1 := hthree add[1]
  have h2 := hthree add[2]
  have h3 := hthree add[3]
  simp only [dotted, List.length_append, List.length_cons, maxLine]
  omega

theorem ne_slash {s : List Char} (hs : '/' ∉ s) : ∀ c ∈ s, decide (c ≠ '/') = true := by
  intro c hc
  refine decide_eq_true ?_
  rintro rfl
  exact hs hc

theorem takeWhile_of_slash {s t : List Char} (hs : '/' ∉ s) : (s ++ '/' :: t).takeWhile (· ≠ '/') = s := by
  rw [List.takeWhile_append_of_pos (ne_slash hs)]
  simp

theorem dropWhile_of_slash {s t : List Char} (hs : '/' ∉ s) : (s ++ '/' :: t).dropWhile (· ≠ '/') = '/' :: t := by
  rw [List.dropWhile_append_of_pos (ne_slash hs)]
  simp

/-- A text with a length behind a slash. -/
theorem readBitlen_of_slash {s : List Char} (hs : '/' ∉ s) {n maxbitlen : Nat} (hn : n ≤ maxbitlen)
    (hmax : maxbitlen < 2 ^ 63) : readBitlen (s ++ '/' :: decimal n) maxbitlen = n := by
  have hdigits := readInteger_of_digits (isWord_decimal n).1 fun c hc => decimal_isDigit hc
  have hvalue : Nat.ofDigitChars 10 (decimal n) 0 = n := Nat.ofDigitChars_ten_toDigits
  have hlong : strtol (decimal n) = n := by
    rw [strtol, hdigits, hvalue]
    omega
  simp only [readBitlen, dropWhile_of_slash hs, hlong]
  rw [if_neg (by omega)]
  omega

/-- The text of a prefix with its length. -/
def slashed (pre : Prefix) : List Char := dotted pre.add ++ '/' :: decimal pre.bitlen.toNat

theorem prefixToa2x_of_inet {inetNtop : Vector UInt8 16 → List Char} {h : Heap Prefix} {x : Nat} {pre : Prefix}
    (hread : h.read x = some pre) (hfamily : pre.family = .inet) (hcount : 0 ≤ pre.refCount)
    (hbits : pre.bitlen.toNat ≤ 32) (withLen : Bool) :
    prefixToa2x inetNtop h (some x) withLen = some (some (if withLen then slashed pre else dotted pre.add)) := by
  have hassert : cAssert (pre.refCount ≥ 0) = some () := cAssert_of hcount
  have hassert' : cAssert (pre.bitlen.toNat ≤ 32) = some () := cAssert_of hbits
  simp only [prefixToa2x, hread, hassert, hfamily, hassert', Option.bind_eq_bind, Option.bind_some]
  cases withLen with
  | true => rfl
  | false => simp

/-- What `ascii2prefix` makes of the text of a prefix. -/
theorem ascii2prefix_slashed (inetPton : List Char → Option (List UInt8)) (h : Heap Prefix) {pre : Prefix}
    (hbits : pre.bitlen.toNat ≤ 32) :
    ∃ pre', ascii2prefix inetPton h .inet (slashed pre) = some (h.alloc pre', some h.fresh) ∧
      pre'.family = .inet ∧ pre'.refCount = 1 ∧ pre'.word = pre.word ∧ slashed pre' = slashed pre := by
  have htake : (slashed pre).takeWhile (· ≠ '/') = dotted pre.add := takeWhile_of_slash (dotted_no_slash _)
  have hlt := length_dotted_lt pre.add
  have haddress := isAddress_dotted pre.add
  rw [← htake] at hlt haddress
  obtain ⟨pre', hrun, hfamily, hcount, hword, hoctets⟩ := ascii2prefix_of_isAddress inetPton h (fun _ => hlt) haddress
  rw [htake, octetsOf_dotted] at hoctets
  have hlen : readBitlen (slashed pre) 32 = pre.bitlen.toNat :=
    readBitlen_of_slash (dotted_no_slash _) hbits (by omega)
  have hsame : pre'.word = pre.word := by
    rw [hword, textWord, htake, octetsOf_dotted, hlen, addressWord, Prefix.word, bits_eq_iff]
    intro i hi
    rw [addrBit]
    congr 1
    have hoctet : i / 8 < 4 := by omega
    rw [List.getD_eq_getElem?_getD, List.getElem?_take_of_lt hoctet, List.getD_eq_getElem?_getD]
  refine ⟨pre', hrun, hfamily, hcount, hsame, ?_⟩
  have hbitlen : pre'.bitlen.toNat = pre.bitlen.toNat := by
    rw [← Prefix.length_word, hsame, Prefix.length_word]
  have h0 : pre'.add[0] = pre.add[0] := by simpa [List.getD_eq_getElem?_getD] using hoctets 0
  have h1 : pre'.add[1] = pre.add[1] := by simpa [List.getD_eq_getElem?_getD] using hoctets 1
  have h2 : pre'.add[2] = pre.add[2] := by simpa [List.getD_eq_getElem?_getD] using hoctets 2
  have h3 : pre'.add[3] = pre.add[3] := by simpa [List.getD_eq_getElem?_getD] using hoctets 3
  rw [slashed, slashed, dotted, dotted, h0, h1, h2, h3, hbitlen]

/-- The text that `prefix_toa2x` writes for an IPv4 prefix is read back by `ascii2prefix` as a prefix of
    the same word, for which the same text is written. -/
theorem ascii2prefix_prefixToa2x (inetNtop : Vector UInt8 16 → List Char)
    (inetPton : List Char → Option (List UInt8)) {h : Heap Prefix} (h' : Heap Prefix) {x : Nat} {pre : Prefix}
    (hread : h.read x = some pre) (hfamily : pre.family = .inet) (hcount : 0 ≤ pre.refCount)
    (hbits : pre.bitlen.toNat ≤ 32) :
    ∃ text pre', prefixToa2x inetNtop h (some x) true = some (some text) ∧
      ascii2prefix inetPton h' .inet text = some (h'.alloc pre', some h'.fresh) ∧
      pre'.word = pre.word ∧ pre'.refCount = 1 ∧
      prefixToa2x inetNtop (h'.alloc pre') (some h'.fresh) true = some (some text) := by
  obtain ⟨pre', hrun, hfamily', hcount', hword, htext⟩ := ascii2prefix_slashed inetPton h' hbits
  refine ⟨slashed pre, pre', prefixToa2x_of_inet hread hfamily hcount hbits true, hrun, hword, hcount', ?_⟩
  have hbits' : pre'.bitlen.toNat ≤ 32 := by
    rw [← Prefix.length_word, hword, Prefix.length_word]
    exact hbits
  rw [prefixToa2x_of_inet (read_alloc_fresh h' pre') hfamily' (by omega) hbits' true, if_pos rfl, htext]

theorem ascii2prefix_prefixToa2x_sample :
    ∃ text pre', prefixToa2x (fun _ => []) sampleTree.prefixes (some 2) true = some (some text) ∧
      ascii2prefix (fun _ => none) [] .inet text = some (Heap.alloc [] pre', some 0) ∧
      pre'.word = (samplePrefix 10 16).word ∧ pre'.refCount = 1 ∧
      prefixToa2x (fun _ => []) (Heap.alloc [] pre') (some 0) true = some (some text) :=
  ascii2prefix_prefixToa2x (fun _ => []) (fun _ => none) [] (by decide : sampleTree.prefixes.read 2 = _) rfl (by decide)
    (by decide)

end SrxNote.Patricia
