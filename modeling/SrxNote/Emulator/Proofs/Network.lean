import Mathlib.Data.List.Nodup
import SrxNote.Emulator.Proofs.Files

/-!
# The files and the network

The commands for the namespaces are read like the lines of the files. Base, nodes and
namespaces agree on the address, the AS number and the file of each node (`Fits`).
-/

namespace SrxNote.Emulator
open SrxNote.Text

variable (opt : Options)

/-! ### Numbers and names -/

theorem str_injective {m n : Int} (h : str m = str n) : m = n := by
  have hminus : ∀ k : Nat, '-' ∉ decimal k := by
    intro k hk
    exact absurd (decimal_isDigit hk) (by decide)
  unfold str at h
  split at h
  · split at h
    · have habs := decimal_injective (List.cons.inj h).2
      omega
    · exact absurd (h ▸ List.mem_cons_self) (hminus n.natAbs)
  · split at h
    · exact absurd (h ▸ List.mem_cons_self) (hminus m.natAbs)
    · have habs := decimal_injective h
      omega

/-- `"ns"+str(i)`. -/
def netnsName (i : Int) : List Char := "ns".toList ++ str i

/-- `"veth"+str(k)`. -/
def vethName (k : Int) : List Char := "veth".toList ++ str k

theorem isWord_netnsName (i : Int) : IsWord (netnsName i) := by
  have hkey : IsWord "ns".toList := by decide
  exact isWord_append hkey.2 (isWord_str i)

theorem isWord_vethName (k : Int) : IsWord (vethName k) := by
  have hkey : IsWord "veth".toList := by decide
  exact isWord_append hkey.2 (isWord_str k)

theorem netnsName_injective {i j : Int} (h : netnsName i = netnsName j) : i = j :=
  str_injective (List.append_cancel_left h)

theorem vethName_injective {k l : Int} (h : vethName k = vethName l) : k = l :=
  str_injective (List.append_cancel_left h)

theorem nodeAs_injective {i j : Int} (h : nodeAs i = nodeAs j) : i = j := by
  have hstr := str_injective h
  omega

theorem nodeAddress_injective {i j : Int} (h : nodeAddress opt i = nodeAddress opt j) : i = j := by
  have hstr := str_injective (List.append_cancel_left h)
  omega

theorem nodeFile_name_injective {i j : Int} (h : (nodeFile opt i).1 = (nodeFile opt j).1) : i = j := by
  have hstr := str_injective (List.append_cancel_left (List.append_cancel_right h))
  omega

theorem nodes_nodup : opt.nodes.Nodup := by
  apply List.Nodup.map _ List.nodup_range
  intro k l h
  have hcast := Int.add_left_cancel h
  exact Int.ofNat.inj hcast

theorem mem_nodes {opt : Options} (hmax : opt.count ≤ maxCount) {i : Int} :
    i ∈ opt.nodes ↔ opt.nsStart ≤ i ∧ i < opt.nsStart + opt.count := by
  have hcount : opt.clampedCount = opt.count := if_neg (Int.not_lt.mpr hmax)
  simp only [Options.nodes, pyRange, hcount, List.mem_map, List.mem_range]
  constructor
  · rintro ⟨k, hk, rfl⟩
    simp only [Int.ofNat_eq_natCast]
    omega
  · rintro ⟨hge, hlt⟩
    refine ⟨(i - opt.nsStart).toNat, by omega, ?_⟩
    simp only [Int.ofNat_eq_natCast]
    omega

/-- The names of the files are all different, the base file's among them. -/
theorem configFiles_names_nodup : ((configFiles opt).map Prod.fst).Nodup := by
  rw [configFiles, List.map_cons, List.map_map]
  apply List.nodup_cons.mpr
  constructor
  · intro hmem
    obtain ⟨i, _, hi⟩ := List.mem_map.mp hmem
    -- the letter behind the last dot
    have hten : ((nodeFile opt i).1)[10]? = (fileRecv opt)[10]? := congrArg (·[10]?) hi
    have hnode : ((nodeFile opt i).1)[10]? = some 'n' := rfl
    have hbase : (fileRecv opt)[10]? = some 'b' := rfl
    rw [hnode, hbase] at hten
    exact absurd hten (by decide)
  · apply List.Nodup.map _ (nodes_nodup opt)
    intro i j h
    exact nodeFile_name_injective opt h

theorem lookup_eq_of_mem {files : List (List Char × List Char)} (h : (files.map Prod.fst).Nodup)
    {f : List Char × List Char} (hf : f ∈ files) : files.lookup f.1 = some f.2 := by
  obtain ⟨s, t, rfl⟩ := List.append_of_mem hf
  refine List.lookup_eq_some_iff.mpr ⟨s, t, rfl, fun p hp => ?_⟩
  rw [List.map_append, List.nodup_append] at h
  have hne := h.2.2 p.1 (List.mem_map_of_mem hp) f.1 (by simp)
  exact bne_iff_ne.mpr (Ne.symm hne)

/-! ### The commands -/

/-- `ip netns add N`. -/
def netnsAdd : Pattern := [some "ip".toList, some "netns".toList, some "add".toList, none]

/-- `ip link add V type veth peer name W`. -/
def linkAdd : Pattern :=
  [some "ip".toList, some "link".toList, some "add".toList, none, some "type".toList,
    some "veth".toList, some "peer".toList, some "name".toList, none]

/-- `ip link set V netns N`. -/
def linkSet : Pattern :=
  [some "ip".toList, some "link".toList, some "set".toList, none, some "netns".toList, none]

/-- `ip netns exec N ifconfig V A up`. -/
def ifconfigUp : Pattern :=
  [some "ip".toList, some "netns".toList, some "exec".toList, none, some "ifconfig".toList, none,
    none, some "up".toList]

/-- The commands that have the words of the pattern. -/
def commandsOf (p : Pattern) (cmds : List (List Char)) : List (List (List Char)) :=
  cmds.filterMap fun cmd => matchWords p (words cmd)

/-- The commands for one node, with the words apart. -/
theorem netnsNode_eq (i : Int) :
    netnsNode opt i = [
      "ip netns add".toList ++ ' ' :: netnsName i,
      "ip link add".toList ++ ' ' :: (vethName (i * 2) ++ ' ' :: ("type veth peer name".toList ++
        ' ' :: vethName (i * 2 + 1))),
      "ip link set".toList ++ ' ' :: (vethName (i * 2 + 1) ++ ' ' :: ("netns".toList ++
        ' ' :: netnsName i)),
      "ip netns exec".toList ++ ' ' :: (netnsName i ++ ' ' :: "ifconfig lo up".toList),
      "ip netns exec".toList ++ ' ' :: (netnsName i ++ ' ' :: ("ifconfig".toList ++
        ' ' :: (vethName (i * 2 + 1) ++ ' ' :: ((nodeAddress opt i ++ "/24".toList) ++
          ' ' :: "up".toList)))),
      "ip netns exec".toList ++ ' ' :: (netnsName i ++ ' ' :: ("ip route add default via".toList ++
        ' ' :: opt.baseIp)),
      "brctl addif br1".toList ++ ' ' :: vethName (i * 2),
      "ip link set dev".toList ++ ' ' :: (vethName (i * 2) ++ ' ' :: "up".toList),
      "ip netns exec".toList ++ ' ' :: (netnsName i ++ ' ' :: ("bash".toList ++
        ' ' :: "-c 'ifconfig;pwd'".toList)),
      "ip netns exec".toList ++ ' ' :: (netnsName i ++ ' ' :: ("bash".toList ++
        ' ' :: ("-c '".toList ++ opt.path ++ "bgpd -f ".toList ++ opt.pathCwd ++ (nodeFile opt i).1 ++
          ' ' :: ("-i /tmp/node".toList ++ str (i + 2) ++ ".pid -d'".toList)))),
      "ps".toList ++ ' ' :: ("aux | grep bgp[d] | grep n".toList ++ str (i + 2) ++
        " | awk '\x7bprint $2\x7d'".toList)] := by
  have hfile : (nodeFile opt i).1 =
      "bgpd.conf.n".toList ++ str (i + 2) ++ if opt.bgpsec then ".bgpsec".toList else [] := rfl
  have hstart : startIpaddr + i = i + 2 := Int.add_comm 2 i
  unfold netnsNode
  rw [← hfile]
  generalize (nodeFile opt i).1 = name
  simp only [hstart, netnsName, vethName, nodeAddress, bridge, String.reduceToList,
    List.append_assoc, List.cons_append, List.nil_append]

/-- A command in the namespace of a node. -/
theorem words_exec (i : Int) (l : List Char) :
    words ("ip netns exec".toList ++ ' ' :: (netnsName i ++ ' ' :: l)) =
      "ip".toList :: "netns".toList :: "exec".toList :: netnsName i :: words l := by
  have hkey : words "ip netns exec".toList = ["ip".toList, "netns".toList, "exec".toList] := by decide
  rw [words_append, hkey, words_append, words_of_isWord (isWord_netnsName i)]
  rfl

theorem isWord_addressMask (i : Int) : IsWord (nodeAddress opt i ++ "/24".toList) :=
  isWord_append (isWord_nodeAddress opt i).2 (by decide)

/-- The words of the commands for one node. What the shells are started with, and what is behind `ps`,
    is left open. -/
def nodeCommandWords (i : Int) (shell started ps : List (List Char)) : List (List (List Char)) := [
  ["ip".toList, "netns".toList, "add".toList, netnsName i],
  ["ip".toList, "link".toList, "add".toList, vethName (i * 2), "type".toList, "veth".toList,
    "peer".toList, "name".toList, vethName (i * 2 + 1)],
  ["ip".toList, "link".toList, "set".toList, vethName (i * 2 + 1), "netns".toList, netnsName i],
  ["ip".toList, "netns".toList, "exec".toList, netnsName i, "ifconfig".toList, "lo".toList,
    "up".toList],
  ["ip".toList, "netns".toList, "exec".toList, netnsName i, "ifconfig".toList,
    vethName (i * 2 + 1), nodeAddress opt i ++ "/24".toList, "up".toList],
  ["ip".toList, "netns".toList, "exec".toList, netnsName i, "ip".toList, "route".toList,
    "add".toList, "default".toList, "via".toList, opt.baseIp],
  ["brctl".toList, "addif".toList, "br1".toList, vethName (i * 2)],
  ["ip".toList, "link".toList, "set".toList, "dev".toList, vethName (i * 2), "up".toList],
  "ip".toList :: "netns".toList :: "exec".toList :: netnsName i :: "bash".toList :: shell,
  "ip".toList :: "netns".toList :: "exec".toList :: netnsName i :: "bash".toList :: started,
  "ps".toList :: ps]

theorem words_netnsNode (i : Int) :
    ∃ shell started ps, (netnsNode opt i).map words = nodeCommandWords opt i shell started ps := by
  have hnetns := Line.word (isWord_netnsName i)
  have houter := Line.word (isWord_vethName (i * 2))
  have hinner := Line.word (isWord_vethName (i * 2 + 1))
  have haddress := Line.word (isWord_addressMask opt i)
  have hadd : Line "ip netns add".toList ["ip".toList, "netns".toList, "add".toList] := by decide
  have hlink : Line "ip link add".toList ["ip".toList, "link".toList, "add".toList] := by decide
  have hpeer : Line "type veth peer name".toList
    ["type".toList, "veth".toList, "peer".toList, "name".toList] := by decide
  have hset : Line "ip link set".toList ["ip".toList, "link".toList, "set".toList] := by decide
  have hin : Line "netns".toList ["netns".toList] := by decide
  have hlo : words "ifconfig lo up".toList = ["ifconfig".toList, "lo".toList, "up".toList] := by decide
  have hifconfig : Line "ifconfig".toList ["ifconfig".toList] := by decide
  have hup : Line "up".toList ["up".toList] := by decide
  have hroute : Line "ip route add default via".toList
    ["ip".toList, "route".toList, "add".toList, "default".toList, "via".toList] := by decide
  have haddif : Line "brctl addif br1".toList ["brctl".toList, "addif".toList, "br1".toList] := by decide
  have hdev : Line "ip link set dev".toList
    ["ip".toList, "link".toList, "set".toList, "dev".toList] := by decide
  have hbash : words "bash".toList = ["bash".toList] := by decide
  have hps : words "ps".toList = ["ps".toList] := by decide
  have hwords := congrArg (List.map words) (netnsNode_eq opt i)
  simp only [List.map_cons, List.map_nil, words_exec, hlo, (hadd.append hnetns).2,
    (hlink.append (houter.append (hpeer.append hinner))).2,
    (hset.append (hinner.append (hin.append hnetns))).2,
    (hifconfig.append (hinner.append (haddress.append hup))).2,
    (hroute.append (Line.word opt.baseIp_word)).2, (haddif.append houter).2,
    (hdev.append (houter.append hup)).2, words_append "bash".toList, hbash,
    words_append "ps".toList, hps] at hwords
  exact ⟨_, _, _, hwords⟩

/-- A pattern that one command of each node has. -/
theorem commandsOf_netnsCommands {p : Pattern} {ws : Int → List (List Char)}
    (h : ∀ i shell started ps,
      (nodeCommandWords opt i shell started ps).filterMap (matchWords p) = [ws i]) :
    commandsOf p (netnsCommands opt) = opt.nodes.map ws := by
  unfold commandsOf netnsCommands
  rw [List.filterMap_flatMap, List.map_eq_flatMap]
  congr 1
  funext i
  obtain ⟨shell, started, ps, hwords⟩ := words_netnsNode opt i
  rw [← h i shell started ps, ← hwords, List.filterMap_map]
  rfl

theorem commandsOf_netnsAdd :
    commandsOf netnsAdd (netnsCommands opt) = opt.nodes.map fun i => [netnsName i] :=
  commandsOf_netnsCommands opt fun _ _ _ _ => rfl

theorem commandsOf_linkAdd :
    commandsOf linkAdd (netnsCommands opt) =
      opt.nodes.map fun i => [vethName (i * 2), vethName (i * 2 + 1)] :=
  commandsOf_netnsCommands opt fun _ _ _ _ => rfl

theorem commandsOf_linkSet :
    commandsOf linkSet (netnsCommands opt) =
      opt.nodes.map fun i => [vethName (i * 2 + 1), netnsName i] :=
  commandsOf_netnsCommands opt fun _ _ _ _ => rfl

theorem commandsOf_ifconfigUp :
    commandsOf ifconfigUp (netnsCommands opt) =
      opt.nodes.map fun i => [netnsName i, vethName (i * 2 + 1), nodeAddress opt i ++ "/24".toList] :=
  commandsOf_netnsCommands opt fun _ _ _ _ => rfl

/-! ### The files that are used -/

/-- The namespace and the file of a command that starts `bgpd`. -/
def bgpdStarted (cmd : List Char) : Option (List (List Char)) :=
  ("ip netns exec ".toList.isPrefixOf? cmd).bind fun rest =>
    ((" bash -c '".toList ++ opt.path ++ "bgpd -f ".toList ++ opt.pathCwd).isPrefixOf?
      (rest.dropWhile fun c => !isBlank c)).map fun behind =>
        [rest.takeWhile fun c => !isBlank c, behind.takeWhile fun c => !isBlank c]

theorem takeWhile_word {w : List Char} (hw : ∀ c ∈ w, isBlank c = false) (l : List Char) :
    (w ++ ' ' :: l).takeWhile (fun c => !isBlank c) = w := by
  have hword : ∀ c ∈ w, (!isBlank c) = true := fun c hc => by rw [hw c hc]; rfl
  rw [List.takeWhile_append_of_pos hword]
  exact List.append_nil w

theorem dropWhile_word {w : List Char} (hw : ∀ c ∈ w, isBlank c = false) (l : List Char) :
    (w ++ ' ' :: l).dropWhile (fun c => !isBlank c) = ' ' :: l := by
  have hword : ∀ c ∈ w, (!isBlank c) = true := fun c hc => by rw [hw c hc]; rfl
  rw [List.dropWhile_append_of_pos hword]
  rfl

theorem bgpdStarted_exec (i : Int) (l : List Char) :
    bgpdStarted opt ("ip netns exec".toList ++ ' ' :: (netnsName i ++ ' ' :: l)) =
      ((" bash -c '".toList ++ opt.path ++ "bgpd -f ".toList ++ opt.pathCwd).isPrefixOf?
        (' ' :: l)).map fun behind => [netnsName i, behind.takeWhile fun c => !isBlank c] := by
  have hpre : "ip netns exec ".toList.isPrefixOf?
      ("ip netns exec".toList ++ ' ' :: (netnsName i ++ ' ' :: l)) =
      some (netnsName i ++ ' ' :: l) := by
    apply List.isPrefixOf?_eq_some_iff_append_eq.mpr
    simp only [String.reduceToList, List.cons_append, List.nil_append]
  have hword := (isWord_netnsName i).2
  rw [bgpdStarted, hpre, Option.bind_some, takeWhile_word hword, dropWhile_word hword]

/-- The command that shows the directory starts no `bgpd`. -/
theorem bgpdStarted_ifconfig (i : Int) :
    bgpdStarted opt ("ip netns exec".toList ++ ' ' :: (netnsName i ++ ' ' :: ("bash".toList ++
      ' ' :: "-c 'ifconfig;pwd'".toList))) = none := by
  rw [bgpdStarted_exec, Option.map_eq_none_iff, Option.eq_none_iff_forall_ne_some]
  intro behind hbehind
  have happend := List.isPrefixOf?_eq_some_iff_append_eq.mp hbehind
  have hcommand : ' ' :: ("bash".toList ++ ' ' :: "-c 'ifconfig;pwd'".toList) =
      " bash -c '".toList ++ "ifconfig;pwd'".toList := by decide
  rw [hcommand, List.append_assoc, List.append_assoc, List.append_assoc] at happend
  have hmem : 'b' ∈ "ifconfig;pwd'".toList := by
    rw [← List.append_cancel_left happend]
    apply List.mem_append_right
    exact List.mem_append_left _ (by decide)
  exact absurd hmem (by decide)

theorem bgpdStarted_file (i : Int) {name : List Char} (hname : ∀ c ∈ name, isBlank c = false)
    (behind : List Char) :
    bgpdStarted opt ("ip netns exec".toList ++ ' ' :: (netnsName i ++ ' ' :: ("bash".toList ++
      ' ' :: ("-c '".toList ++ opt.path ++ "bgpd -f ".toList ++ opt.pathCwd ++ name ++
        ' ' :: behind)))) = some [netnsName i, name] := by
  have hpre : (" bash -c '".toList ++ opt.path ++ "bgpd -f ".toList ++ opt.pathCwd).isPrefixOf?
      (' ' :: ("bash".toList ++ ' ' :: ("-c '".toList ++ opt.path ++ "bgpd -f ".toList ++
        opt.pathCwd ++ name ++ ' ' :: behind))) = some (name ++ ' ' :: behind) := by
    apply List.isPrefixOf?_eq_some_iff_append_eq.mpr
    simp only [String.reduceToList, List.append_assoc, List.cons_append, List.nil_append]
  rw [bgpdStarted_exec, hpre, Option.map_some, takeWhile_word hname]

theorem nodeFile_name_noBlank (i : Int) : ∀ c ∈ (nodeFile opt i).1, isBlank c = false := by
  have hkey : IsWord "bgpd.conf.n".toList := by decide
  have hbgpsec : IsWord ".bgpsec".toList := by decide
  intro c hc
  rcases List.mem_append.mp hc with hc | hc
  · exact (isWord_append hkey.2 (isWord_str (i + 2))).2 c hc
  · split at hc
    · exact hbgpsec.2 c hc
    · exact absurd hc List.not_mem_nil

/-- One command of a node starts `bgpd`, in its namespace and with its file. -/
theorem bgpdStarted_netnsNode (i : Int) :
    (netnsNode opt i).filterMap (bgpdStarted opt) = [[netnsName i, (nodeFile opt i).1]] := by
  have hfile := bgpdStarted_file opt i (nodeFile_name_noBlank opt i)
    ("-i /tmp/node".toList ++ str (i + 2) ++ ".pid -d'".toList)
  have hother : ∀ l : List Char, l.head? = some 'i' → bgpdStarted opt
      ("ip netns exec".toList ++ ' ' :: (netnsName i ++ ' ' :: l)) = none := by
    intro l hl
    obtain ⟨l, rfl⟩ := List.head?_eq_some_iff.mp hl
    rw [bgpdStarted_exec]
    rfl
  rw [netnsNode_eq, List.filterMap_cons_none rfl, List.filterMap_cons_none rfl,
    List.filterMap_cons_none rfl, List.filterMap_cons_none (hother "ifconfig lo up".toList rfl),
    List.filterMap_cons_none (hother ("ifconfig".toList ++ _) rfl),
    List.filterMap_cons_none (hother ("ip route add default via".toList ++ _) rfl),
    List.filterMap_cons_none rfl, List.filterMap_cons_none rfl,
    List.filterMap_cons_none (bgpdStarted_ifconfig opt i)]
  rw [List.filterMap_cons_some hfile, List.filterMap_cons_none rfl, List.filterMap_nil]

theorem bgpdStarted_netnsCommands :
    (netnsCommands opt).filterMap (bgpdStarted opt) =
      opt.nodes.map fun i => [netnsName i, (nodeFile opt i).1] := by
  unfold netnsCommands
  rw [List.filterMap_flatMap, List.map_eq_flatMap]
  congr 1
  funext i
  exact bgpdStarted_netnsNode opt i

/-- No interface is used twice, in one node or in two. -/
theorem vethNames_nodup :
    (opt.nodes.flatMap fun i => [vethName (i * 2), vethName (i * 2 + 1)]).Nodup := by
  apply List.nodup_flatMap.mpr
  constructor
  · intro i _
    apply List.nodup_cons.mpr
    constructor
    · intro hmem
      have heq := vethName_injective (List.mem_singleton.mp hmem)
      omega
    · exact List.nodup_singleton _
  · apply (nodes_nodup opt).imp
    intro i j hij name hi hj
    simp only [List.mem_cons, List.not_mem_nil, or_false] at hi hj
    rcases hi with rfl | rfl
    · rcases hj with heq | heq
      · have hk := vethName_injective heq
        omega
      · have hk := vethName_injective heq
        omega
    · rcases hj with heq | heq
      · have hk := vethName_injective heq
        omega
      · have hk := vethName_injective heq
        omega

/-! ### All of it together -/

/-- The files and the network fit together. `base` is the base file and `node i` that of the node `i`;
    `address i` and `number i` are its address and its AS number. -/
structure Fits (base : List Char) (node address number : Int → List Char) : Prop where
  mem_nodes : ∀ i, i ∈ opt.nodes ↔ opt.nsStart ≤ i ∧ i < opt.nsStart + opt.count
  nodes_nodup : opt.nodes.Nodup
  base_written : (configFiles opt).lookup (fileRecv opt) = some base
  node_written : ∀ i ∈ opt.nodes, (configFiles opt).lookup (nodeFile opt i).1 = some (node i)
  -- one line for each node, and what its file says about itself
  base_remoteAs : statements remoteAs base = opt.nodes.map fun i => [address i, number i]
  node_routerId : ∀ i ∈ opt.nodes, statements routerId (node i) = [[address i]]
  node_routerBgp : ∀ i ∈ opt.nodes, statements routerBgp (node i) = [[number i]]
  -- the other end of each session
  node_remoteAs : ∀ i ∈ opt.nodes, statements remoteAs (node i) = [[opt.baseIp, "60001".toList]]
  base_routerId : statements routerId base = [[opt.baseIp]]
  base_routerBgp : statements routerBgp base = [["60001".toList]]
  base_bgpsecBoth : statements bgpsecBoth base =
    if opt.bgpsec then opt.nodes.map fun i => [address i] else []
  node_bgpsecBoth : ∀ i ∈ opt.nodes, statements bgpsecBoth (node i) =
    if opt.bgpsec then [[opt.baseIp]] else []
  -- a namespace for each node, with an interface, its address and its file
  added : commandsOf netnsAdd (netnsCommands opt) = opt.nodes.map fun i => [netnsName i]
  linked : commandsOf linkAdd (netnsCommands opt) =
    opt.nodes.map fun i => [vethName (i * 2), vethName (i * 2 + 1)]
  moved : commandsOf linkSet (netnsCommands opt) =
    opt.nodes.map fun i => [vethName (i * 2 + 1), netnsName i]
  addressed : commandsOf ifconfigUp (netnsCommands opt) =
    opt.nodes.map fun i => [netnsName i, vethName (i * 2 + 1), address i ++ "/24".toList]
  started : (netnsCommands opt).filterMap (bgpdStarted opt) =
    opt.nodes.map fun i => [netnsName i, (nodeFile opt i).1]
  addresses_nodup : (opt.nodes.map address).Nodup
  numbers_nodup : (opt.nodes.map number).Nodup
  names_nodup : ((configFiles opt).map Prod.fst).Nodup
  netns_nodup : (opt.nodes.map netnsName).Nodup
  veths_nodup : (commandsOf linkAdd (netnsCommands opt)).flatten.Nodup

/-- The files and the network that the emulator sets up fit together. -/
theorem configuration_fits (hmode : opt.mode = .quagga) (hstart : 0 ≤ opt.nsStart)
    (hmax : opt.count ≤ maxCount) :
    Fits opt (baseFile opt) (fun i => (nodeFile opt i).2) (nodeAddress opt) nodeAs := by
  have hnodes := nodes_nodup opt
  have hnames := configFiles_names_nodup opt
  have hbase : ∀ i ∈ opt.nodes, i ≠ -1 := by
    intro i hi
    have hge := ((mem_nodes hmax).mp hi).1
    omega
  exact {
    mem_nodes := fun i => mem_nodes hmax
    nodes_nodup := hnodes
    base_written := lookup_eq_of_mem hnames List.mem_cons_self
    node_written := fun i hi =>
      lookup_eq_of_mem hnames (List.mem_cons_of_mem _ (List.mem_map_of_mem hi))
    base_remoteAs := remoteAs_baseFile
    node_routerId := fun i hi => routerId_nodeFile hmode (hbase i hi)
    node_routerBgp := fun i hi => routerBgp_nodeFile hmode (hbase i hi)
    node_remoteAs := fun i hi => remoteAs_nodeFile hmode (hbase i hi)
    base_routerId := routerId_baseFile
    base_routerBgp := routerBgp_baseFile
    base_bgpsecBoth := bgpsecBoth_baseFile
    node_bgpsecBoth := fun i hi => bgpsecBoth_nodeFile hmode (hbase i hi)
    added := commandsOf_netnsAdd opt
    linked := commandsOf_linkAdd opt
    moved := commandsOf_linkSet opt
    addressed := commandsOf_ifconfigUp opt
    started := bgpdStarted_netnsCommands opt
    addresses_nodup := hnodes.map fun i j h => nodeAddress_injective opt h
    numbers_nodup := hnodes.map fun i j h => nodeAs_injective h
    names_nodup := hnames
    netns_nodup := hnodes.map fun i j h => netnsName_injective h
    veths_nodup := by
      rw [commandsOf_linkAdd, ← List.flatMap_def]
      exact vethNames_nodup opt }

/-- The default addresses, three nodes from the second on, with BGPsec. -/
def sampleOptions : Options where
  bgpsec := true
  count := 3
  nsStart := 1
  numPrefix := 10
  mode := .quagga
  ski := []
  baseIp := "10.1.1.1".toList
  peerIp := "10.1.1.".toList
  path := "/opt/srx/sbin/".toList
  pathCwd := "/opt/net_emulator/".toList
  ski_oneLine := List.not_mem_nil
  baseIp_word := by decide
  peerIp_noBlank := by
    have hpeer : IsWord "10.1.1.".toList := by decide
    exact hpeer.2

theorem sampleOptions_fit :
    sampleOptions.mode = .quagga ∧ 0 ≤ sampleOptions.nsStart ∧ sampleOptions.count ≤ maxCount ∧
      Fits sampleOptions (baseFile sampleOptions) (fun i => (nodeFile sampleOptions i).2)
        (nodeAddress sampleOptions) nodeAs :=
  ⟨rfl, by decide, by decide, configuration_fits sampleOptions rfl (by decide) (by decide)⟩

end SrxNote.Emulator
