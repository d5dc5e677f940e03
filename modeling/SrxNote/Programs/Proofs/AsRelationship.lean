import SrxNote.Programs.Proofs.LineFields

/-!
# Files of relationships

A file of comments, provider-customer lines and peer lines, as the format
comment describes them. The search answers the relationship that the first line
naming both ASes states, as long as it meets no peer line that ends with a
newline and this line is not a peer line: the mark is read and not used.
-/

namespace SrxNote.Programs.AsRelationship

open Text

/-! ### The documented lines -/

/-- The number of an AS in digits. -/
structure AsWord where
  digits : List Char
  ne_nil : digits ≠ []
  isDigit : ∀ c ∈ digits, c.isDigit = true
  lt : Nat.ofDigitChars 10 digits 0 < 2 ^ 32

def AsWord.value (w : AsWord) : Nat := Nat.ofDigitChars 10 w.digits 0

/-- A line that does not begin with a digit. -/
structure Comment where
  text : List Char
  noLineEnd : '\n' ∉ text
  notDigit : text.head?.any Char.isDigit = false

/-- The source of a peer relationship. -/
structure Source where
  text : List Char
  noDelimiter : ∀ c ∈ text, isDelimiter c = false
  noNul : '\x00' ∉ text

inductive AsLine where
  | comment (comment : Comment)
  | providerCustomer (provider customer : AsWord)
  | peer (peer1 peer2 : AsWord) (source : Source)

namespace AsLine

/-- The line without its newline. -/
def text : AsLine → List Char
  | comment c => c.text
  | providerCustomer p c => p.digits ++ '|' :: (c.digits ++ ['|', '-', '1'])
  | peer a b source => a.digits ++ '|' :: (b.digits ++ '|' :: '0' :: '|' :: source.text)

def isPeer : AsLine → Bool
  | peer _ _ _ => true
  | _ => false

/-- The line names both ASes, in one order or the other. -/
def names (as1 as2 : Nat) : AsLine → Bool
  | comment _ => false
  | providerCustomer p c => (p.value = as1 ∧ c.value = as2) ∨ (p.value = as2 ∧ c.value = as1)
  | peer a b _ => (a.value = as1 ∧ b.value = as2) ∨ (a.value = as2 ∧ b.value = as1)

end AsLine

/-- A file of such lines, each with its newline shorter than the buffer; the last line may lack its
    newline. -/
structure AsFile where
  lines : List AsLine
  last : Option AsLine
  short : ∀ l ∈ lines, l.text.length + 1 < bufSize
  shortLast : ∀ l ∈ last, l.text.length < bufSize

namespace AsFile

def text (f : AsFile) : List Char :=
  unlines (f.lines.map AsLine.text) ++ (f.last.map AsLine.text).getD []

def all (f : AsFile) : List AsLine := f.lines ++ f.last.toList

end AsFile

/-- What the first line that names both ASes says about them. -/
def relation (lines : List AsLine) (as1 as2 : Nat) : AsRelDir :=
  match lines.find? (AsLine.names as1 as2) with
  | some (.providerCustomer p _) => if p.value = as1 then .upstream else .downstream
  | _ => .unknownstream

def AsRelDir.swap : AsRelDir → AsRelDir
  | upstream => downstream
  | downstream => upstream
  | unknownstream => unknownstream

/-! ### Reading a line -/

theorem fgets_line {t : List Char} (ht : '\n' ∉ t) {room : Nat} (hroom : t.length < room)
    (rest : List Char) : fgets room (t ++ '\n' :: rest) = (t ++ ['\n'], rest) := by
  induction t generalizing room with
  | nil =>
      cases room with
      | zero => simp at hroom
      | succ room => simp [fgets]
  | cons c t ih =>
      cases room with
      | zero => simp at hroom
      | succ room =>
          obtain ⟨hc, ht⟩ := List.ne_and_not_mem_of_not_mem_cons ht
          have hrest := ih ht (by simpa using hroom)
          simp [fgets, Ne.symm hc, hrest]

theorem fgets_last {t : List Char} (ht : '\n' ∉ t) {room : Nat} (hroom : t.length ≤ room) :
    fgets room t = (t, []) := by
  induction t generalizing room with
  | nil => cases room <;> rfl
  | cons c t ih =>
      cases room with
      | zero => simp at hroom
      | succ room =>
          obtain ⟨hc, ht⟩ := List.ne_and_not_mem_of_not_mem_cons ht
          have hrest := ih ht (by simpa using hroom)
          simp [fgets, Ne.symm hc, hrest]

theorem noDelimiter_of_any {t : List Char} (h : t.any isDelimiter = false) :
    ∀ c ∈ t, isDelimiter c = false := by
  intro c hc
  exact Bool.eq_false_iff.mpr (List.any_eq_false.mp h c hc)

theorem not_delimiter_of_isDigit {c : Char} (hc : c.isDigit = true) : isDelimiter c = false := by
  by_contra hdel
  simp only [isDelimiter, decide_eq_true_eq, Bool.not_eq_false] at hdel
  rcases hdel with rfl | rfl <;> exact absurd hc (by decide)

theorem AsWord.noDelimiter (w : AsWord) : ∀ c ∈ w.digits, isDelimiter c = false :=
  fun c hc => not_delimiter_of_isDigit (w.isDigit c hc)

theorem AsWord.noNul (w : AsWord) : '\x00' ∉ w.digits :=
  fun h => absurd (w.isDigit _ h) (by decide)

theorem AsWord.strtoul_mod (w : AsWord) : strtoul w.digits % 2 ^ 32 = w.value := by
  have hlt := w.lt
  rw [strtoul_of_digits w.ne_nil w.isDigit (by omega), AsWord.value]
  exact Nat.mod_eq_of_lt hlt

theorem noLineEnd_of_noDelimiter {t : List Char} (ht : ∀ c ∈ t, isDelimiter c = false) : '\n' ∉ t :=
  fun h => absurd (ht _ h) (by decide)

theorem AsLine.noLineEnd (l : AsLine) : '\n' ∉ l.text := by
  cases l with
  | comment c => exact c.noLineEnd
  | providerCustomer p c =>
      have hp := noLineEnd_of_noDelimiter p.noDelimiter
      have hc := noLineEnd_of_noDelimiter c.noDelimiter
      simp [AsLine.text, hp, hc]
  | peer a b source =>
      have ha := noLineEnd_of_noDelimiter a.noDelimiter
      have hb := noLineEnd_of_noDelimiter b.noDelimiter
      have hs := noLineEnd_of_noDelimiter source.noDelimiter
      simp [AsLine.text, ha, hb, hs]

theorem cString_of_noNul {t : List Char} (ht : '\x00' ∉ t) : cString t = t := by
  rw [cString, List.takeWhile_eq_self_iff]
  intro c hc
  have hne : c ≠ '\x00' := fun h => ht (h ▸ hc)
  simpa using hne

theorem tokens_cons {t : List Char} (ht : ∀ c ∈ t, isDelimiter c = false) {d : Char}
    (hd : isDelimiter d = true) (rest : List Char) :
    tokens (t ++ d :: rest) = t :: tokens rest :=
  List.splitOnP_append_cons_of_forall_mem ht d hd rest

theorem tokens_single {t : List Char} (ht : ∀ c ∈ t, isDelimiter c = false) : tokens t = [t] :=
  List.splitOnP_eq_singleton ht

/-- A line of three or four tokens gives its first two numbers. -/
theorem splitLine_some (field : Fields) {s t₀ t₁ t₂ : List Char} {ts : List (List Char)}
    (hs : tokens s = t₀ :: t₁ :: t₂ :: ts) (hfew : ts.length ≤ 1) :
    ∃ field' option, splitLine field s =
      some (field', strtoul t₀ % 2 ^ 32, strtoul t₁ % 2 ^ 32, option) := by
  have hin : ∀ w ∈ splitFields (some s) 0, w.1 < numFields := by
    rw [writes_inside_iff, hs]
    simp only [List.length_cons]
    omega
  have h₀ := field_token field (s := s) (k := 0) (t := t₀) (by rw [hs]; rfl) (by decide)
  have h₁ := field_token field (s := s) (k := 1) (t := t₁) (by rw [hs]; rfl) (by decide)
  have h₂ := field_token field (s := s) (k := 2) (t := t₂) (by rw [hs]; rfl) (by decide)
  refine ⟨applyWrites field (splitFields (some s) 0), strtoul t₂ % 2 ^ 32, ?_⟩
  rw [splitLine]
  simp only [if_pos hin, convert, h₀, h₁, h₂]
  rfl

theorem splitLine_none (field : Fields) {s : List Char} (hs : 5 ≤ (tokens s).length) :
    splitLine field s = none := by
  have hout : ¬ ∀ w ∈ splitFields (some s) 0, w.1 < numFields := by
    rw [writes_inside_iff]
    omega
  rw [splitLine]
  simp only [if_neg hout]

/-! ### Reading a file -/

/-- What the two numbers of a line say about the ASes, when they are theirs. -/
def direction (as1 as2 x y : Nat) : Option AsRelDir :=
  if x = as1 ∧ y = as2 then some .upstream
  else if x = as2 ∧ y = as1 then some .downstream
  else none

/-- One pass over the loop. -/
theorem checkLines_read (field : Fields) (as1 as2 : Nat) {file buf rest : List Char} (hne : file ≠ [])
    (hread : fgets (bufSize - 1) file = (buf, rest)) :
    checkLines field as1 as2 file =
      if (cString buf).head?.any Char.isDigit then
        (splitLine field (cString buf)).bind fun r =>
          (direction as1 as2 r.2.1 r.2.2.1).orElse fun _ => checkLines r.1 as1 as2 rest
      else checkLines field as1 as2 rest := by
  obtain ⟨c, file, rfl⟩ := List.exists_cons_of_ne_nil hne
  rw [checkLines, hread]
  cases splitLine field (cString buf) with
  | none => rfl
  | some r =>
      obtain ⟨field', provider, customer, option⟩ := r
      simp only [Option.bind_some, direction]
      split
      · split
        · rfl
        · split <;> rfl
      · rfl

theorem head_cString (buf : List Char) :
    (cString buf).head?.any Char.isDigit = buf.head?.any Char.isDigit := by
  cases buf with
  | nil => rfl
  | cons c buf =>
      by_cases hc : c = '\x00'
      · subst hc
        rfl
      · simp [cString, hc]

/-- A line that begins with the digits of an AS is split; its first two numbers decide. -/
theorem checkLines_numbers (field : Fields) (as1 as2 : Nat) {file buf rest : List Char}
    {x y : AsWord} {t₂ : List Char} {ts : List (List Char)} (hne : file ≠ [])
    (hread : fgets (bufSize - 1) file = (buf, rest)) (hdigit : buf.head?.any Char.isDigit = true)
    (hnul : '\x00' ∉ buf) (htokens : tokens buf = x.digits :: y.digits :: t₂ :: ts)
    (hfew : ts.length ≤ 1) :
    ∃ field', checkLines field as1 as2 file =
      (direction as1 as2 x.value y.value).orElse fun _ => checkLines field' as1 as2 rest := by
  obtain ⟨field', option, hsplit⟩ := splitLine_some field htokens hfew
  refine ⟨field', ?_⟩
  rw [checkLines_read field as1 as2 hne hread, cString_of_noNul hnul, if_pos hdigit, hsplit,
    x.strtoul_mod, y.strtoul_mod]
  rfl

theorem AsWord.head_append (w : AsWord) (rest : List Char) :
    (w.digits ++ rest).head?.any Char.isDigit = true := by
  obtain ⟨c, ds, hds⟩ := List.exists_cons_of_ne_nil w.ne_nil
  have hc := w.isDigit c (by simp [hds])
  simp [hds, hc]

theorem tokens_providerCustomer (p c : AsWord) (rest : List Char) :
    tokens ((AsLine.providerCustomer p c).text ++ rest) =
      p.digits :: c.digits :: tokens (['-', '1'] ++ rest) := by
  have hbar : isDelimiter '|' = true := by decide
  simp only [AsLine.text, List.append_assoc, List.cons_append, List.nil_append]
  rw [tokens_cons p.noDelimiter hbar, tokens_cons c.noDelimiter hbar]

theorem tokens_peer (a b : AsWord) (source : Source) (rest : List Char) :
    tokens ((AsLine.peer a b source).text ++ rest) =
      a.digits :: b.digits :: ['0'] :: tokens (source.text ++ rest) := by
  have hbar : isDelimiter '|' = true := by decide
  have hmark : tokens ('0' :: '|' :: (source.text ++ rest)) = ['0'] :: tokens (source.text ++ rest) :=
    tokens_cons (t := ['0']) (noDelimiter_of_any (by decide)) hbar _
  simp only [AsLine.text, List.append_assoc, List.cons_append]
  rw [tokens_cons a.noDelimiter hbar, tokens_cons b.noDelimiter hbar, hmark]

theorem noNul_providerCustomer (p c : AsWord) : '\x00' ∉ (AsLine.providerCustomer p c).text := by
  simp [AsLine.text, p.noNul, c.noNul]

theorem noNul_peer (a b : AsWord) (source : Source) : '\x00' ∉ (AsLine.peer a b source).text := by
  simp [AsLine.text, a.noNul, b.noNul, source.noNul]

/-- What the loop does with the documented lines. -/
def scanLines (as1 as2 : Nat) : List AsLine → Option AsLine → Option AsRelDir
  | .comment _ :: ls, last => scanLines as1 as2 ls last
  | .providerCustomer p c :: ls, last =>
      (direction as1 as2 p.value c.value).orElse fun _ => scanLines as1 as2 ls last
  | .peer _ _ _ :: _, _ => none
  | [], some (.providerCustomer p c) =>
      (direction as1 as2 p.value c.value).orElse fun _ => some .unknownstream
  | [], some (.peer a b _) => (direction as1 as2 a.value b.value).orElse fun _ => some .unknownstream
  | [], _ => some .unknownstream

theorem checkLines_nil (field : Fields) (as1 as2 : Nat) :
    checkLines field as1 as2 [] = some .unknownstream := by
  rw [checkLines]

/-- The last line, without its newline. -/
theorem checkLines_last (field : Fields) (as1 as2 : Nat) {l : AsLine} (hl : l.text.length < bufSize) :
    checkLines field as1 as2 l.text = scanLines as1 as2 [] (some l) := by
  have hread : fgets (bufSize - 1) l.text = (l.text, []) :=
    fgets_last l.noLineEnd (Nat.le_sub_one_of_lt hl)
  cases l with
  | comment c =>
      by_cases hne : (AsLine.comment c).text = []
      · rw [hne]
        exact checkLines_nil field as1 as2
      · have hnot : ¬ (cString (AsLine.comment c).text).head?.any Char.isDigit = true := by
          rw [head_cString]
          simp [AsLine.text, c.notDigit]
        rw [checkLines_read field as1 as2 hne hread, if_neg hnot]
        exact checkLines_nil field as1 as2
  | providerCustomer p c =>
      have htokens := tokens_providerCustomer p c []
      rw [List.append_nil, tokens_single (t := ['-', '1'] ++ []) (noDelimiter_of_any (by decide))] at htokens
      obtain ⟨field', heq⟩ := checkLines_numbers field as1 as2 (by simp [AsLine.text]) hread
        (p.head_append _) (noNul_providerCustomer p c) htokens (Nat.zero_le 1)
      rw [heq, checkLines_nil, scanLines]
  | peer a b source =>
      have htokens := tokens_peer a b source []
      rw [List.append_nil, List.append_nil, tokens_single source.noDelimiter] at htokens
      obtain ⟨field', heq⟩ := checkLines_numbers field as1 as2 (by simp [AsLine.text]) hread
        (a.head_append _) (noNul_peer a b source) htokens (Nat.le_refl 1)
      rw [heq, checkLines_nil, scanLines]

/-- A line with its newline, and the lines behind it. -/
theorem checkLines_line (as1 as2 : Nat) {l : AsLine} (hl : l.text.length + 1 < bufSize)
    {rest : List Char} {ls : List AsLine} {last : Option AsLine}
    (hrest : ∀ field, checkLines field as1 as2 rest = scanLines as1 as2 ls last) (field : Fields) :
    checkLines field as1 as2 (l.text ++ '\n' :: rest) = scanLines as1 as2 (l :: ls) last := by
  have hne : l.text ++ '\n' :: rest ≠ [] := by simp
  have hread : fgets (bufSize - 1) (l.text ++ '\n' :: rest) = (l.text ++ ['\n'], rest) :=
    fgets_line l.noLineEnd (Nat.lt_sub_of_add_lt hl) rest
  cases l with
  | comment c =>
      have hnot : ¬ (cString ((AsLine.comment c).text ++ ['\n'])).head?.any Char.isDigit = true := by
        have hc := c.notDigit
        rw [head_cString, AsLine.text]
        cases htext : c.text with
        | nil => decide
        | cons d t =>
            rw [htext] at hc
            simpa using hc
      rw [checkLines_read field as1 as2 hne hread, if_neg hnot, hrest, scanLines]
  | providerCustomer p c =>
      have htokens := tokens_providerCustomer p c ['\n']
      rw [tokens_cons (t := ['-', '1']) (noDelimiter_of_any (by decide)) (by decide)] at htokens
      have hdigit : ((AsLine.providerCustomer p c).text ++ ['\n']).head?.any Char.isDigit = true := by
        rw [AsLine.text, List.append_assoc]
        exact p.head_append _
      have hnul : '\x00' ∉ (AsLine.providerCustomer p c).text ++ ['\n'] := by
        simp [noNul_providerCustomer]
      obtain ⟨field', heq⟩ := checkLines_numbers field as1 as2 hne hread hdigit hnul htokens
        (Nat.le_refl 1)
      rw [heq, hrest, scanLines]
  | peer a b source =>
      -- the newline makes a fifth field, and the NULL behind it is written outside the array
      have htokens := tokens_peer a b source ['\n']
      rw [tokens_cons source.noDelimiter (by decide)] at htokens
      have hdigit : ((AsLine.peer a b source).text ++ ['\n']).head?.any Char.isDigit = true := by
        rw [AsLine.text, List.append_assoc]
        exact a.head_append _
      have hnul : '\x00' ∉ (AsLine.peer a b source).text ++ ['\n'] := by simp [noNul_peer]
      have hnone : splitLine field ((AsLine.peer a b source).text ++ ['\n']) = none :=
        splitLine_none field (by rw [htokens]; simp [tokens])
      rw [checkLines_read field as1 as2 hne hread, cString_of_noNul hnul, if_pos hdigit, hnone,
        scanLines]
      rfl

/-- The search in a file of documented lines. -/
theorem checkAsRelationship_eq (f : AsFile) (field : Fields) (as1 as2 : Nat) :
    checkAsRelationship field (some f.text) as1 as2 = scanLines as1 as2 f.lines f.last := by
  obtain ⟨lines, last, short, shortLast⟩ := f
  change checkLines field as1 as2 (unlines (lines.map AsLine.text) ++ _) = _
  induction lines generalizing field with
  | nil =>
      cases last with
      | none => exact checkLines_nil field as1 as2
      | some l => exact checkLines_last field as1 as2 (shortLast l rfl)
  | cons l ls ih =>
      obtain ⟨hl, hls⟩ := List.forall_mem_cons.mp short
      rw [← checkLines_line as1 as2 hl (fun field => ih field hls) field]
      simp [unlines]

/-! ### When the answer is right -/

/-- The two numbers are those of the ASes, in one order or the other. -/
def Named (as1 as2 x y : Nat) : Prop := (x = as1 ∧ y = as2) ∨ (x = as2 ∧ y = as1)

theorem direction_named {as1 as2 x y : Nat} (h : Named as1 as2 x y) :
    direction as1 as2 x y = some (if x = as1 then .upstream else .downstream) := by
  unfold direction
  by_cases hfirst : x = as1 ∧ y = as2
  · simp [hfirst]
  · have hsecond : x = as2 ∧ y = as1 := h.resolve_left hfirst
    have hne : x ≠ as1 := fun heq => hfirst ⟨heq, by omega⟩
    rw [if_neg hfirst, if_pos hsecond, if_neg hne]

theorem direction_not_named {as1 as2 x y : Nat} (h : ¬ Named as1 as2 x y) :
    direction as1 as2 x y = none := by
  obtain ⟨hfirst, hsecond⟩ := not_or.mp h
  rw [direction, if_neg hfirst, if_neg hsecond]

theorem names_providerCustomer {as1 as2 : Nat} {p c : AsWord} :
    (AsLine.providerCustomer p c).names as1 as2 = true ↔ Named as1 as2 p.value c.value := by
  simp [AsLine.names, Named]

theorem names_peer {as1 as2 : Nat} {a b : AsWord} (source : Source) :
    (AsLine.peer a b source).names as1 as2 = true ↔ Named as1 as2 a.value b.value := by
  simp [AsLine.names, Named]

/-- The answer for the two ASes in either order: what the first line naming both says. -/
def LookupRight (field : Fields) (f : AsFile) (as1 as2 : Nat) : Prop :=
  checkAsRelationship field (some f.text) as1 as2 = some (relation f.all as1 as2) ∧
    checkAsRelationship field (some f.text) as2 as1 = some (relation f.all as1 as2).swap

/-- No peer line with a newline comes before the first line that names both ASes, and this line is
    not a peer line. -/
def NoPeerMet (f : AsFile) (as1 as2 : Nat) : Prop :=
  (∀ l ∈ f.lines.takeWhile fun l => ¬ l.names as1 as2, l.isPeer = false) ∧
    ∀ l, f.all.find? (AsLine.names as1 as2) = some l → l.isPeer = false

/-- On the last line only a peer line that names both ASes goes wrong. -/
theorem scanLines_last (as1 as2 : Nat) (l : AsLine) :
    scanLines as1 as2 [] (some l) = some (relation [l] as1 as2) ↔
      (l.names as1 as2 = true → l.isPeer = false) := by
  cases l with
  | comment c => simp [scanLines, relation, AsLine.names]
  | providerCustomer p c =>
      by_cases hnamed : Named as1 as2 p.value c.value
      · have hnames := names_providerCustomer.mpr hnamed
        simp [scanLines, relation, hnames, direction_named hnamed, AsLine.isPeer]
      · have hnames := mt names_providerCustomer.mp hnamed
        simp [scanLines, relation, hnames, direction_not_named hnamed]
  | peer a b source =>
      by_cases hnamed : Named as1 as2 a.value b.value
      · have hnames := (names_peer source).mpr hnamed
        simp only [scanLines, relation, hnames, direction_named hnamed, AsLine.isPeer]
        split <;> simp
      · have hnames := mt (names_peer source).mp hnamed
        simp [scanLines, relation, hnames, direction_not_named hnamed]

theorem relation_cons {as1 as2 : Nat} {l : AsLine} (hnames : ¬ l.names as1 as2 = true)
    (ls : List AsLine) : relation (l :: ls) as1 as2 = relation ls as1 as2 := by
  rw [relation, relation, List.find?_cons_of_neg hnames]

/-- A line that is not a peer line and does not name both ASes makes no difference. -/
theorem noPeer_cons {as1 as2 : Nat} {l : AsLine} (hnames : ¬ l.names as1 as2 = true)
    (hpeer : l.isPeer = false) (ls ls' : List AsLine) :
    ((∀ l' ∈ (l :: ls).takeWhile fun l => ¬ l.names as1 as2, l'.isPeer = false) ∧
        ∀ l', (l :: ls').find? (AsLine.names as1 as2) = some l' → l'.isPeer = false) ↔
      (∀ l' ∈ ls.takeWhile fun l => ¬ l.names as1 as2, l'.isPeer = false) ∧
        ∀ l', ls'.find? (AsLine.names as1 as2) = some l' → l'.isPeer = false := by
  rw [List.find?_cons_of_neg hnames, List.takeWhile_cons_of_pos (by simpa using hnames),
    List.forall_mem_cons]
  simp only [hpeer, true_and]

theorem scanLines_right_iff (as1 as2 : Nat) (ls : List AsLine) (last : Option AsLine) :
    scanLines as1 as2 ls last = some (relation (ls ++ last.toList) as1 as2) ↔
      (∀ l ∈ ls.takeWhile fun l => ¬ l.names as1 as2, l.isPeer = false) ∧
        ∀ l, (ls ++ last.toList).find? (AsLine.names as1 as2) = some l → l.isPeer = false := by
  induction ls with
  | nil =>
      cases last with
      | none => simp [scanLines, relation]
      | some l =>
          rw [List.nil_append, Option.toList_some, scanLines_last]
          by_cases hnames : l.names as1 as2 = true <;> simp [hnames]
  | cons l ls ih =>
      rw [List.cons_append]
      cases l with
      | comment c =>
          have hnames : ¬ (AsLine.comment c).names as1 as2 = true := Bool.false_ne_true
          rw [scanLines, relation_cons hnames, ih, noPeer_cons hnames rfl]
      | providerCustomer p c =>
          by_cases hnamed : Named as1 as2 p.value c.value
          · have hnames := names_providerCustomer.mpr hnamed
            simp [scanLines, relation, hnames, direction_named hnamed, AsLine.isPeer]
          · have hnames := mt names_providerCustomer.mp hnamed
            rw [scanLines, direction_not_named hnamed, relation_cons hnames, noPeer_cons hnames rfl]
            exact ih
      | peer a b source =>
          by_cases hnamed : Named as1 as2 a.value b.value
          · have hnames := (names_peer source).mpr hnamed
            simp [scanLines, hnames, AsLine.isPeer]
          · have hnames := mt (names_peer source).mp hnamed
            simp [scanLines, hnames, AsLine.isPeer]

/-! ### The other order -/

theorem direction_swap {as1 as2 : Nat} (hne : as1 ≠ as2) (x y : Nat) :
    direction as2 as1 x y = (direction as1 as2 x y).map AsRelDir.swap := by
  by_cases hnamed : Named as1 as2 x y
  · have hnamed' : Named as2 as1 x y := hnamed.symm
    rw [direction_named hnamed, direction_named hnamed']
    rcases hnamed with ⟨rfl, -⟩ | ⟨rfl, -⟩
    · simp [hne, AsRelDir.swap]
    · simp [Ne.symm hne, AsRelDir.swap]
  · have hnamed' : ¬ Named as2 as1 x y := fun h => hnamed h.symm
    rw [direction_not_named hnamed, direction_not_named hnamed']
    rfl

theorem scanLines_swap {as1 as2 : Nat} (hne : as1 ≠ as2) (ls : List AsLine) (last : Option AsLine) :
    scanLines as2 as1 ls last = (scanLines as1 as2 ls last).map AsRelDir.swap := by
  induction ls with
  | nil =>
      cases last with
      | none => rfl
      | some l =>
          cases l with
          | comment c => rfl
          | providerCustomer p c =>
              rw [scanLines, scanLines, direction_swap hne]
              cases direction as1 as2 p.value c.value <;> rfl
          | peer a b source =>
              rw [scanLines, scanLines, direction_swap hne]
              cases direction as1 as2 a.value b.value <;> rfl
  | cons l ls ih =>
      cases l with
      | comment c => exact ih
      | providerCustomer p c =>
          rw [scanLines, scanLines, direction_swap hne, ih]
          cases direction as1 as2 p.value c.value <;> rfl
      | peer a b source => rfl

/-- The lookup is right for two ASes exactly when it meets no peer line that counts. -/
theorem lookup_right_iff (field : Fields) (f : AsFile) {as1 as2 : Nat} (hne : as1 ≠ as2) :
    LookupRight field f as1 as2 ↔ NoPeerMet f as1 as2 := by
  have hscan := scanLines_right_iff as1 as2 f.lines f.last
  unfold LookupRight NoPeerMet AsFile.all
  rw [checkAsRelationship_eq, checkAsRelationship_eq, scanLines_swap hne, ← hscan]
  constructor
  · exact fun h => h.1
  · intro h
    exact ⟨h, by rw [h]; rfl⟩

/-- The file of the one line 1|2|-1. -/
def oneCustomer : AsFile where
  lines := [.providerCustomer ⟨['1'], by decide, List.all_eq_true.mp (by decide), by decide⟩
    ⟨['2'], by decide, List.all_eq_true.mp (by decide), by decide⟩]
  last := none
  short := by
    intro l h
    rw [List.mem_singleton.mp h]
    decide
  shortLast := fun _ h => (nomatch h)

theorem lookup_right_oneCustomer : LookupRight (Vector.replicate numFields none) oneCustomer 1 2 := by
  refine (lookup_right_iff _ oneCustomer (by decide)).mpr ⟨by decide, ?_⟩
  intro l h
  cases h
  rfl

/-- The file of the one line 1|2|0|bgp, without a newline. -/
def onePeer : AsFile where
  lines := []
  last := some (.peer ⟨['1'], by decide, List.all_eq_true.mp (by decide), by decide⟩
    ⟨['2'], by decide, List.all_eq_true.mp (by decide), by decide⟩
    ⟨['b', 'g', 'p'], noDelimiter_of_any (by decide), by decide⟩)
  short := fun _ h => (nomatch h)
  shortLast := by
    intro l h
    cases h
    decide

/-- The peers 1 and 2 are reported as provider and customer. -/
theorem onePeer_wrong :
    checkAsRelationship (Vector.replicate numFields none) (some onePeer.text) 1 2 = some .upstream ∧
      relation onePeer.all 1 2 = .unknownstream ∧
      ¬ LookupRight (Vector.replicate numFields none) onePeer 1 2 := by
  have hup : checkAsRelationship (Vector.replicate numFields none) (some onePeer.text) 1 2 =
      some .upstream := by
    rw [checkAsRelationship_eq]
    decide
  have hrel : relation onePeer.all 1 2 = .unknownstream := by decide
  refine ⟨hup, hrel, ?_⟩
  rintro ⟨h, -⟩
  rw [hup, hrel] at h
  cases h

end SrxNote.Programs.AsRelationship
