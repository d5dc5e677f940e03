import SrxNote.Srx.RunningConfig

/-!
# What the running configuration restores

The written configuration is a list of lines, comments and commands. The three
commands about the keys are in a form that no template has, so no configuration is
read back without an error, and the keys are lost.
-/

namespace SrxNote.Srx
open SrxNote.Bgpsec SrxNote.Crypto SrxNote.Text

/-! ### Lines of a configuration -/

/-- A line as it is written: a comment, or a command with a blank before each word. -/
inductive ConfigLine where
  | comment (l : List Char)
  | command (ss : List String) (ws : List (List Char))

namespace ConfigLine

/-- The words of a command. -/
def commandWords (ss : List String) (ws : List (List Char)) : List (List Char) :=
  ss.map String.toList ++ ws

def text : ConfigLine → List Char
  | comment l => l
  | command ss ws => spaced (commandWords ss ws)

/-- Keywords that a command can begin with. -/
def Keywords (ss : List String) : Prop :=
  (∀ s ∈ ss, IsWord s.toList) ∧ (ss.headD "!").toList.head? ≠ some '!'

instance (ss : List String) : Decidable (Keywords ss) := inferInstanceAs (Decidable (_ ∧ _))

/-- The line is one line, and is read as what it is. -/
def Wf : ConfigLine → Prop
  | comment l => '\n' ∉ l ∧ isComment l = true
  | command ss ws => Keywords ss ∧ ∀ w ∈ ws, IsWord w

theorem isWord_commandWords {ss : List String} {ws : List (List Char)} (h : (command ss ws).Wf) :
    ∀ w ∈ commandWords ss ws, IsWord w := by
  intro w hw
  rcases List.mem_append.mp hw with hw | hw
  · obtain ⟨s, hs, rfl⟩ := List.mem_map.mp hw
    exact h.1.1 s hs
  · exact h.2 w hw

theorem words_text {ss : List String} {ws : List (List Char)} (h : (command ss ws).Wf) :
    words (command ss ws).text = commandWords ss ws :=
  words_spaced (isWord_commandWords h)

theorem Wf.no_lineEnd {c : ConfigLine} (h : c.Wf) : '\n' ∉ c.text := by
  cases c with
  | comment l => exact h.1
  | command ss ws => exact spaced_no_lineEnd (isWord_commandWords h)

theorem isComment_text {ss : List String} {ws : List (List Char)} (h : (command ss ws).Wf) :
    isComment (command ss ws).text = false := by
  rw [isComment, words_text h]
  cases ss with
  | nil => exact absurd rfl h.1.2
  | cons s ss => exact decide_eq_false h.1.2

/-- What a line does to the router. -/
def run (env : VtyEnv) (r : SrxRouter) : ConfigLine → SrxRouter
  | comment _ => r
  | command ss ws =>
      match lookupCommand (commandWords ss ws) with
      | some run => (run env r).2
      | none => r

/-- The lines one after the other. -/
def runAll (env : VtyEnv) (r : SrxRouter) (cs : List ConfigLine) : SrxRouter :=
  cs.foldl (fun r c => c.run env r) r

theorem isComment_bang (l : List Char) : isComment ('!' :: l) = true := by
  obtain ⟨w, ws, hwords⟩ := words_cons_of_not_blank (by decide : isBlank '!' = false) l
  simp [isComment, hwords]

end ConfigLine

open ConfigLine

/-- The lines are read back one by one. -/
theorem lines_unlines_text {cs : List ConfigLine} (h : ∀ c ∈ cs, c.Wf) (t : List Char) :
    lines (unlines (cs.map text) ++ t) = cs.map text ++ lines t := by
  apply lines_unlines_append
  intro l hl
  obtain ⟨c, hc, rfl⟩ := List.mem_map.mp hl
  exact (h c hc).no_lineEnd

theorem isBlank_hexDigit : ∀ n < 16, isBlank (hexDigit n) = false := by
  decide

/-- A SKI is written as a word. -/
theorem isWord_skiHex (key : RouterKey) : IsWord (skiHex key.ski) := by
  constructor
  · cases hski : key.ski with
    | nil =>
        have hlen := key.ski_length
        rw [hski] at hlen
        cases hlen
    | cons octet ski => simp [skiHex]
  · intro c hc
    obtain ⟨octet, -, hc⟩ := List.mem_flatMap.mp hc
    have hlt := octet.toNat_lt
    simp only [List.mem_cons, List.not_mem_nil, or_false] at hc
    rcases hc with rfl | rfl
    · exact isBlank_hexDigit _ (by omega)
    · exact isBlank_hexDigit _ (by omega)

def keyLine (bgp : SrxSettings) (kIdx : Fin 2) : ConfigLine :=
  .command ["srx", "bgpsec", "ski"] [decimal kIdx, skiHex (bgp.srxBgpsecKey kIdx).ski]

def activeLine (bgp : SrxSettings) : ConfigLine :=
  .command ["srx", "bgpsec", "active-ski"] [decimal bgp.srxBgpsecActiveKey.toNat]

def keyLines (bgp : SrxSettings) : List ConfigLine :=
  [.comment "! The following form is deprecated.".toList,
    .comment ("! bgpsec ski ".toList ++ skiHex (bgp.srxBgpsecKey 0).ski),
    keyLine bgp 0, keyLine bgp 1, activeLine bgp]

theorem writeKeys_eq (bgp : SrxSettings) : writeKeys bgp = unlines ((keyLines bgp).map text) := by
  simp [writeKeys, writeKey, keyLines, keyLine, activeLine, unlines, text, commandWords, spaced,
    vtyNewline]

theorem keyLine_wf (bgp : SrxSettings) (kIdx : Fin 2) : (keyLine bgp kIdx).Wf := by
  refine ⟨by decide, fun w hw => ?_⟩
  simp only [List.mem_cons, List.not_mem_nil, or_false] at hw
  rcases hw with rfl | rfl
  · exact isWord_decimal _
  · exact isWord_skiHex _

theorem activeLine_wf (bgp : SrxSettings) : (activeLine bgp).Wf := by
  refine ⟨by decide, fun w hw => ?_⟩
  obtain rfl := List.mem_singleton.mp hw
  exact isWord_decimal _

theorem keyLines_wf (bgp : SrxSettings) : ∀ c ∈ keyLines bgp, c.Wf := by
  intro c hc
  simp only [keyLines, List.mem_cons, List.not_mem_nil, or_false] at hc
  rcases hc with rfl | rfl | rfl | rfl | rfl
  · exact ⟨by decide, isComment_bang _⟩
  · refine ⟨?_, isComment_bang _⟩
    rw [List.mem_append, not_or]
    exact ⟨by decide, (isWord_skiHex _).no_lineEnd⟩
  · exact keyLine_wf bgp 0
  · exact keyLine_wf bgp 1
  · exact activeLine_wf bgp

/-- The template of the command has the algorithm between the number of the key and its SKI. -/
theorem lookupCommand_keyLine (k hex : List Char) :
    lookupCommand (commandWords ["srx", "bgpsec", "ski"] [k, hex]) = none := by
  simp [commandWords, lookupCommand, installed, matchTemplate, keywords, CmdToken.accepts,
    CmdToken.isVariable]

theorem keyLine_rejected (bgp : SrxSettings) (kIdx : Fin 2) :
    isComment (keyLine bgp kIdx).text = false ∧ accepted (keyLine bgp kIdx).text = false := by
  have hwf := keyLine_wf bgp kIdx
  refine ⟨isComment_text hwf, ?_⟩
  rw [accepted, keyLine, words_text hwf, lookupCommand_keyLine]
  rfl

theorem keyLine_mem (bgp : SrxSettings) : (keyLine bgp 0).text ∈ lines (runningConfig bgp) := by
  rw [runningConfig, writeKeys_eq, lines_unlines_text (keyLines_wf bgp)]
  simp [keyLines]

/-- No configuration makes the round trip, whatever the settings are: the line of the first key is
    refused. -/
theorem not_roundTrip (env : VtyEnv) (routerId : UInt32) (bgp : SrxSettings) :
    ¬ RoundTrip env routerId bgp := by
  rintro ⟨hall, -⟩
  obtain ⟨hcomment, hrejected⟩ := keyLine_rejected bgp 0
  have haccepted := hall _ (keyLine_mem bgp) hcomment
  rw [hrejected] at haccepted
  cases haccepted

/-- The settings of a fresh router with the router id 10.0.0.1 are refused too, at the line
    ` srx bgpsec ski 0 00..00`. -/
theorem freshConfig_refused :
    ¬ RoundTrip ⟨false, true, 1⟩ 0x0A000001 (freshRouter 0x0A000001).bgp ∧
      " srx bgpsec ski 0 0000000000000000000000000000000000000000".toList ∈
        lines (runningConfig (freshRouter 0x0A000001).bgp) ∧
      isComment " srx bgpsec ski 0 0000000000000000000000000000000000000000".toList = false ∧
      accepted " srx bgpsec ski 0 0000000000000000000000000000000000000000".toList = false := by
  have htext : (keyLine (freshRouter 0x0A000001).bgp 0).text =
      " srx bgpsec ski 0 0000000000000000000000000000000000000000".toList := by decide
  have hmem := keyLine_mem (freshRouter 0x0A000001).bgp
  obtain ⟨hcomment, hrejected⟩ := keyLine_rejected (freshRouter 0x0A000001).bgp 0
  rw [htext] at hmem hcomment hrejected
  refine ⟨fun hround => ?_, hmem, hcomment, hrejected⟩
  have haccepted := hround.1 _ hmem hcomment
  rw [hrejected] at haccepted
  cases haccepted

end SrxNote.Srx
