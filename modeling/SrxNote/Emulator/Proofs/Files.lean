import SrxNote.Emulator.NetEmulator
import SrxNote.Misc.Statements

/-!
# What the configuration files say

The words of the lines of each file, and from them the statements about the router,
its neighbors and BGPsec. The prefixes of a node and the lines without an address do
not bear on these statements.
-/

namespace SrxNote.Emulator
open SrxNote.Text

/-! ### Words -/

/-- A word is still one with letters before it. -/
theorem isWord_append {v w : List Char} (hv : ∀ c ∈ v, isBlank c = false) (hw : IsWord w) :
    IsWord (v ++ w) := by
  refine ⟨by simp [hw.1], fun c hc => ?_⟩
  rcases List.mem_append.mp hc with hc | hc
  · exact hv c hc
  · exact hw.2 c hc

theorem isWord_str (n : Int) : IsWord (str n) := by
  have hminus : IsWord ['-'] := by decide
  rw [str]
  split
  · exact isWord_append hminus.2 (isWord_decimal _)
  · exact isWord_decimal _

/-- `peer_ip+str(i+2)`. -/
def nodeAddress (opt : Options) (i : Int) : List Char := opt.peerIp ++ str (i + 2)

/-- `str(i+2+60000)`. -/
def nodeAs (i : Int) : List Char := str (i + 2 + 60000)

theorem isWord_nodeAddress (opt : Options) (i : Int) : IsWord (nodeAddress opt i) :=
  isWord_append opt.peerIp_noBlank (isWord_str _)

theorem isWord_nodeAs (i : Int) : IsWord (nodeAs i) := isWord_str _

theorem isWord_hostname (i : Int) : IsWord ("node".toList ++ str (i + 2)) := by
  have hnode : IsWord "node".toList := by decide
  exact isWord_append hnode.2 (isWord_str _)

/-! ### The statements -/

/-- `neighbor A remote-as N`. -/
def remoteAs : Pattern := [some "neighbor".toList, none, some "remote-as".toList, none]

/-- `neighbor A bgpsec both`. -/
def bgpsecBoth : Pattern :=
  [some "neighbor".toList, none, some "bgpsec".toList, some "both".toList]

/-- `bgp router-id A`. -/
def routerId : Pattern := [some "bgp".toList, some "router-id".toList, none]

/-- `router bgp N`. -/
def routerBgp : Pattern := [some "router".toList, some "bgp".toList, none]

def patterns : List Pattern := [remoteAs, bgpsecBoth, routerId, routerBgp]

/-- A line that begins with another word. -/
theorem silent_of_first {w : List Char} (hneighbor : "neighbor".toList ≠ w)
    (hbgp : "bgp".toList ≠ w) (hrouter : "router".toList ≠ w) (ws : List (List Char)) :
    Silent patterns (w :: ws) := by
  intro p hp
  simp only [patterns, List.mem_cons, List.not_mem_nil, or_false] at hp
  rcases hp with rfl | rfl | rfl | rfl
  · exact matchWords_of_ne hneighbor _ _
  · exact matchWords_of_ne hneighbor _ _
  · exact matchWords_of_ne hbgp _ _
  · exact matchWords_of_ne hrouter _ _

/-! ### The prefixes of a node -/

theorem isWord_printPrefix (ip : IpAttr) (n : Nat) : IsWord (printPrefix ip n) := by
  have hdot : IsWord ".".toList := by decide
  have hslash : IsWord "/".toList := by decide
  have hpart := fun k => (isWord_str k).2
  simp only [printPrefix, List.append_assoc]
  iterate 3
    apply isWord_append (hpart _)
    apply isWord_append hdot.2
  apply isWord_append (hpart _)
  apply isWord_append hslash.2
  exact isWord_str n

theorem says_prefixLine (nexthop : List Char) (ip : IpAttr) (n : Nat) :
    Says patterns (prefixLine .quagga nexthop ip n) [] := by
  have hnetwork : Line "network".toList ["network".toList] := by decide
  have hline := hnetwork.append (Line.word (isWord_printPrefix ip n))
  have hsilent : Silent patterns ("network".toList :: [printPrefix ip n]) :=
    silent_of_first (by decide) (by decide) (by decide) _
  apply (Says.skip hline hsilent Says.nil).congr
  show "network ".toList ++ printPrefix ip n ++ "\n".toList = _
  simp only [String.reduceToList, List.cons_append, List.nil_append]

theorem printIPaddr_nodeFile (maxNum : Int) (mode : Mode) (nexthop : List Char) (st : IPstat)
    (ip : IpAttr) (n : Nat) :
    (printIPaddr maxNum mode nexthop st ip n).nodeFile =
      if st.keep = true then st.nodeFile ++ prefixLine mode nexthop ip n else st.nodeFile := by
  unfold printIPaddr
  by_cases hkeep : st.keep = true
  · simp only [if_pos hkeep]
    split <;> rfl
  · simp only [if_neg hkeep]
    split <;> rfl

theorem says_printIPaddr {maxNum : Int} {nexthop : List Char} {st : IPstat}
    (h : Says patterns st.nodeFile []) (ip : IpAttr) (n : Nat) :
    Says patterns (printIPaddr maxNum .quagga nexthop st ip n).nodeFile [] := by
  rw [printIPaddr_nodeFile]
  split
  · exact h.append (says_prefixLine nexthop ip n)
  · exact h

theorem says_foldl {α : Type} {f : IPstat → α → IPstat}
    (hf : ∀ st a, Says patterns st.nodeFile [] → Says patterns (f st a).nodeFile []) (as : List α)
    {st : IPstat} (h : Says patterns st.nodeFile []) : Says patterns (as.foldl f st).nodeFile [] := by
  induction as generalizing st with
  | nil => exact h
  | cons a as ih => exact ih (hf st a h)

/-- The prefixes are lines of their own, whatever their number. -/
theorem says_generatePrefix (i numPrefix : Int) (nexthop : List Char) :
    Says patterns (generatePrefix i numPrefix .quagga nexthop) [] := by
  apply says_foldl
  · intro st n h
    apply says_foldl
    · exact fun st ip h => says_printIPaddr h ip n
    · exact h
  · exact Says.nil

/-! ### Lines -/

variable (opt : Options)

theorem line_password : Line "password z".toList ["password".toList, "z".toList] := by decide

theorem line_hostname (i : Int) :
    Line ("hostname".toList ++ ' ' :: ("node".toList ++ str (i + 2)))
      ["hostname".toList, "node".toList ++ str (i + 2)] := by
  have hkey : Line "hostname".toList ["hostname".toList] := by decide
  exact hkey.append (Line.word (isWord_hostname i))

theorem line_routerBgp (i : Int) :
    Line ("router bgp".toList ++ ' ' :: nodeAs i) ["router".toList, "bgp".toList, nodeAs i] := by
  have hkey : Line "router bgp".toList ["router".toList, "bgp".toList] := by decide
  exact hkey.append (Line.word (isWord_nodeAs i))

theorem line_routerId {a : List Char} (ha : IsWord a) :
    Line ("bgp router-id".toList ++ ' ' :: a) ["bgp".toList, "router-id".toList, a] := by
  have hkey : Line "bgp router-id".toList ["bgp".toList, "router-id".toList] := by decide
  exact hkey.append (Line.word ha)

/-- A line about a neighbor. -/
theorem line_neighbor {a l : List Char} {ws : List (List Char)} (ha : IsWord a) (hl : Line l ws) :
    Line ("neighbor".toList ++ ' ' :: (a ++ ' ' :: l)) ("neighbor".toList :: a :: ws) := by
  have hkey : Line "neighbor".toList ["neighbor".toList] := by decide
  exact hkey.append ((Line.word ha).append hl)

/-- A line that names a key. -/
theorem line_ski {s : List Char} (hs : '\n' ∉ s) :
    Line ("srx bgpsec ski 0 1".toList ++ ' ' :: s)
      ("srx".toList :: (["bgpsec".toList, "ski".toList, "0".toList, "1".toList] ++ words s)) := by
  have hkey : Line "srx bgpsec ski 0 1".toList
      ("srx".toList :: ["bgpsec".toList, "ski".toList, "0".toList, "1".toList]) := by decide
  exact hkey.append ⟨hs, rfl⟩

theorem silent_srx (ws : List (List Char)) : Silent patterns ("srx".toList :: ws) :=
  silent_of_first (by decide) (by decide) (by decide) ws

theorem silent_password : Silent patterns ["password".toList, "z".toList] := by decide

theorem silent_hostname (ws : List (List Char)) : Silent patterns ("hostname".toList :: ws) :=
  silent_of_first (by decide) (by decide) (by decide) ws

theorem silent_empty : Silent patterns [] := by decide

/-! ### The parts of the files -/

/-- The line that names a key, and lines behind it that are constants. -/
theorem says_ski {s t : List Char} (hs : '\n' ∉ s) (ht : Says patterns t []) :
    Says patterns ("srx bgpsec ski 0 1 ".toList ++ s ++ "\n".toList ++ t) [] := by
  apply (Says.skip (line_ski hs) (silent_srx _) ht).congr
  simp only [String.reduceToList, List.append_assoc, List.cons_append, List.nil_append]

theorem says_tails : Says patterns tails [] :=
  ⟨(lines tails).dropLast, by decide, by decide, by decide⟩

theorem says_bgpsecTails : Says patterns bgpsecTails [] :=
  ⟨(lines bgpsecTails).dropLast, by decide, by decide, by decide⟩

theorem says_generateBaseHeader :
    Says patterns (generateBaseHeader opt (-1))
      [["router".toList, "bgp".toList, "60001".toList],
       ["bgp".toList, "router-id".toList, opt.baseIp]] := by
  have hheaders := Says.skip (line_hostname (-1)) (silent_hostname _)
    (Says.skip line_password silent_password (Says.cons (line_routerBgp (-1))
      (Says.cons (line_routerId opt.baseIp_word) (Says.skip Line.nil silent_empty Says.nil))))
  have hrest : Says patterns
      ("srx bgpsec active 0\n".toList ++ "srx connect localhost 17900\n".toList ++
        "srx evaluation bgpsec\n".toList ++ "srx evaluation bgpsec distributed \n".toList) [] :=
    ⟨["srx bgpsec active 0".toList, "srx connect localhost 17900".toList,
      "srx evaluation bgpsec".toList, "srx evaluation bgpsec distributed ".toList],
      by decide, by decide, by decide⟩
  have hski := says_ski (s := baseSKI) (by decide) hrest
  unfold generateBaseHeader
  apply Says.append_silent
  · apply hheaders.congr
    simp only [nodeAs, String.reduceToList, List.append_assoc, List.cons_append, List.nil_append]
  · apply Says.ite_silent
    simp only [List.append_assoc] at hski ⊢
    exact hski

theorem says_generateNodeHeader (hmode : opt.mode = .quagga) {i : Int} (hi : i ≠ -1) :
    Says patterns (generateNodeHeader opt i)
      [["router".toList, "bgp".toList, nodeAs i],
       ["bgp".toList, "router-id".toList, nodeAddress opt i],
       ["neighbor".toList, opt.baseIp, "remote-as".toList, "60001".toList]] := by
  have hremote : Line "remote-as 60001".toList ["remote-as".toList, "60001".toList] := by decide
  have hheaders := Says.skip (line_hostname i) (silent_hostname _)
    (Says.skip line_password silent_password (Says.cons (line_routerBgp i)
      (Says.cons (line_routerId (isWord_nodeAddress opt i))
        (Says.cons (line_neighbor opt.baseIp_word hremote)
          (Says.skip Line.nil silent_empty Says.nil)))))
  apply hheaders.congr
  unfold generateNodeHeader
  simp only [hmode, if_neg hi, nodeAs, nodeAddress, List.flatten_cons, List.flatten_nil,
    String.reduceToList, List.append_assoc, List.cons_append, List.nil_append]

/-- The line that switches BGPsec on is the only statement in the body. -/
theorem says_bgpsecBody :
    Says patterns (bgpsecBody opt)
      [["neighbor".toList, opt.baseIp, "bgpsec".toList, "both".toList]] := by
  have hski : '\n' ∉ opt.nodeSki := by
    unfold Options.nodeSki
    split
    · decide
    · exact opt.ski_oneLine
  have hboth : Line "bgpsec both ".toList ["bgpsec".toList, "both".toList] := by decide
  have hneighbor := Says.cons (line_neighbor opt.baseIp_word hboth)
    (Says.skip Line.nil silent_empty Says.nil)
  have hrest : Says patterns
      ("srx bgpsec active 0 \n".toList ++ "srx connect localhost 17900 \n".toList ++
        "srx evaluation bgpsec \n".toList ++ "srx evaluation bgpsec distributed \n".toList) [] :=
    ⟨["srx bgpsec active 0 ".toList, "srx connect localhost 17900 ".toList,
      "srx evaluation bgpsec ".toList, "srx evaluation bgpsec distributed ".toList],
      by decide, by decide, by decide⟩
  have hbody := Says.skip Line.nil silent_empty ((says_ski hski hrest).append hneighbor)
  apply hbody.congr
  unfold bgpsecBody
  simp only [String.reduceToList, List.append_assoc, List.cons_append, List.nil_append]

theorem says_baseBodyTail : Says patterns (generateNodeBodyTail opt (-1)) [] :=
  says_tails.append_silent says_bgpsecTails.ite_silent

theorem says_nodeBodyTail (hmode : opt.mode = .quagga) {i : Int} (hi : i ≠ -1) :
    Says patterns (generateNodeBodyTail opt i)
      (if opt.bgpsec then [["neighbor".toList, opt.baseIp, "bgpsec".toList, "both".toList]]
      else []) := by
  unfold generateNodeBodyTail
  simp only [if_neg hi, hmode]
  apply Says.append_silent
  · apply Says.append_silent
    · exact (says_bgpsecBody opt).ite Says.nil
    · exact says_tails
  · exact says_bgpsecTails.ite_silent

theorem says_baseNeighbor (i : Int) :
    Says patterns (baseNeighbor opt i)
      (["neighbor".toList, nodeAddress opt i, "remote-as".toList, nodeAs i] ::
        if opt.bgpsec then
          [["neighbor".toList, nodeAddress opt i, "bgpsec".toList, "both".toList]]
        else []) := by
  have hremote : Line "remote-as".toList ["remote-as".toList] := by decide
  have hboth : Line "bgpsec both".toList ["bgpsec".toList, "both".toList] := by decide
  have haddress := isWord_nodeAddress opt i
  have hnil : Says patterns [] [] := Says.nil
  have hline := hnil.cons (line_neighbor haddress (hremote.append (Line.word (isWord_nodeAs i))))
  have hbgpsec := hnil.cons (line_neighbor haddress hboth)
  unfold baseNeighbor
  show Says patterns _ ([_] ++ _)
  apply Says.append
  · apply hline.congr
    simp only [nodeAddress, nodeAs, String.reduceToList, List.append_assoc, List.cons_append,
      List.nil_append]
  · apply Says.ite
    · apply hbgpsec.congr
      simp only [nodeAddress, String.reduceToList, List.append_assoc, List.cons_append,
        List.nil_append]
    · exact Says.nil

/-! ### The files -/

/-- What the file of a node says. -/
theorem says_nodeFile (hmode : opt.mode = .quagga) {i : Int} (hi : i ≠ -1) :
    Says patterns (nodeFile opt i).2
      ([["router".toList, "bgp".toList, nodeAs i],
        ["bgp".toList, "router-id".toList, nodeAddress opt i],
        ["neighbor".toList, opt.baseIp, "remote-as".toList, "60001".toList]] ++
        if opt.bgpsec then [["neighbor".toList, opt.baseIp, "bgpsec".toList, "both".toList]]
        else []) := by
  have hprefixes := says_generatePrefix (i + 2) opt.clampedPrefix (opt.peerIp ++ str (i + 2))
  rw [← hmode] at hprefixes
  exact ((says_generateNodeHeader opt hmode hi).append_silent hprefixes).append
    (says_nodeBodyTail opt hmode hi)

/-- What the base file says. -/
theorem says_baseFile :
    Says patterns (baseFile opt)
      ([["router".toList, "bgp".toList, "60001".toList],
        ["bgp".toList, "router-id".toList, opt.baseIp]] ++
        opt.nodes.flatMap fun i =>
          ["neighbor".toList, nodeAddress opt i, "remote-as".toList, nodeAs i] ::
            if opt.bgpsec then
              [["neighbor".toList, nodeAddress opt i, "bgpsec".toList, "both".toList]]
            else []) :=
  ((says_generateBaseHeader opt).append (Says.flatMap fun i _ => says_baseNeighbor opt i)).append_silent
    (says_baseBodyTail opt)

variable {opt}

theorem routerBgp_nodeFile (hmode : opt.mode = .quagga) {i : Int} (hi : i ≠ -1) :
    statements routerBgp (nodeFile opt i).2 = [[nodeAs i]] := by
  rw [(says_nodeFile opt hmode hi).statements_eq (by decide) (by decide)]
  split <;> rfl

theorem routerId_nodeFile (hmode : opt.mode = .quagga) {i : Int} (hi : i ≠ -1) :
    statements routerId (nodeFile opt i).2 = [[nodeAddress opt i]] := by
  rw [(says_nodeFile opt hmode hi).statements_eq (by decide) (by decide)]
  split <;> rfl

theorem remoteAs_nodeFile (hmode : opt.mode = .quagga) {i : Int} (hi : i ≠ -1) :
    statements remoteAs (nodeFile opt i).2 = [[opt.baseIp, "60001".toList]] := by
  rw [(says_nodeFile opt hmode hi).statements_eq (by decide) (by decide)]
  split <;> rfl

theorem bgpsecBoth_nodeFile (hmode : opt.mode = .quagga) {i : Int} (hi : i ≠ -1) :
    statements bgpsecBoth (nodeFile opt i).2 = if opt.bgpsec then [[opt.baseIp]] else [] := by
  rw [(says_nodeFile opt hmode hi).statements_eq (by decide) (by decide)]
  split <;> rfl

/-- The statements of a kind in the base file. -/
theorem statements_baseFile {p : Pattern} (hp : p ∈ patterns) (hne : p ≠ []) :
    statements p (baseFile opt) =
      [["router".toList, "bgp".toList, "60001".toList],
        ["bgp".toList, "router-id".toList, opt.baseIp]].filterMap (matchWords p) ++
      opt.nodes.flatMap fun i =>
        (["neighbor".toList, nodeAddress opt i, "remote-as".toList, nodeAs i] ::
          if opt.bgpsec then
            [["neighbor".toList, nodeAddress opt i, "bgpsec".toList, "both".toList]]
          else []).filterMap (matchWords p) := by
  rw [(says_baseFile opt).statements_eq hp hne, List.filterMap_append, List.filterMap_flatMap]

theorem routerBgp_baseFile : statements routerBgp (baseFile opt) = [["60001".toList]] := by
  rw [statements_baseFile (by decide) (by decide), List.flatMap_eq_nil_iff.mpr]
  · rfl
  · intro i _
    split <;> rfl

theorem routerId_baseFile : statements routerId (baseFile opt) = [[opt.baseIp]] := by
  rw [statements_baseFile (by decide) (by decide), List.flatMap_eq_nil_iff.mpr]
  · rfl
  · intro i _
    split <;> rfl

theorem remoteAs_baseFile :
    statements remoteAs (baseFile opt) = opt.nodes.map fun i => [nodeAddress opt i, nodeAs i] := by
  rw [statements_baseFile (by decide) (by decide), List.map_eq_flatMap]
  show List.flatMap _ _ = _
  congr 1
  funext i
  split <;> rfl

theorem bgpsecBoth_baseFile :
    statements bgpsecBoth (baseFile opt) =
      if opt.bgpsec then opt.nodes.map fun i => [nodeAddress opt i] else [] := by
  rw [statements_baseFile (by decide) (by decide)]
  show List.flatMap _ _ = _
  split
  · exact List.map_eq_flatMap.symm
  · apply List.flatMap_eq_nil_iff.mpr
    intro i _
    rfl

end SrxNote.Emulator
