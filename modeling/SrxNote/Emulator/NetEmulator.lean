import SrxNote.Emulator.GeneratePrefix

/-!
# The network emulator

`net_emulator.py`: the configuration files of the base and of the nodes, and the
commands that set up a network namespace for each node and start `bgpd` there. The
run is the one that does both and is no dry run.
-/

namespace SrxNote.Emulator
open SrxNote.Text

def maxCount : Int := 500
def maxPrefix : Int := 600000
def baseSKI : List Char := "C30433FA1975FF193181458FB902B501EA9789DC".toList
def nodeSKI : List Char := "45CAD0AC44F77EFAA94602E9984305215BF47DCD".toList

/-- What the command line sets (380-413), in the forms that `usage` gives: the addresses have no blanks,
    and the SKI is of hex digits, so no line end is in it. -/
structure Options where
  bgpsec : Bool
  count : Int
  nsStart : Int
  numPrefix : Int
  mode : Mode
  ski : List Char
  baseIp : List Char
  peerIp : List Char
  path : List Char
  pathCwd : List Char
  ski_oneLine : '\n' ∉ ski
  baseIp_word : IsWord baseIp
  peerIp_noBlank : ∀ c ∈ peerIp, isBlank c = false

variable (opt : Options)

/-- The count that is used (426-428); for 0 the emulator ends. -/
def Options.clampedCount : Int := if opt.count > maxCount then maxCount else opt.count

/-- The number of prefixes that is used (430-432). -/
def Options.clampedPrefix : Int := if opt.numPrefix > maxPrefix then maxPrefix else opt.numPrefix

/-- The SKI of the nodes (452-453). -/
def Options.nodeSki : List Char := if opt.ski = [] then nodeSKI else opt.ski

/-- `range(ns_start, count+ns_start)`. -/
def Options.nodes : List Int := pyRange opt.nsStart (opt.clampedCount + opt.nsStart)

/-! ### The configuration files -/

/-- `generateBaseHeader` (204-230). -/
def generateBaseHeader (i : Int) : List Char :=
  let headers :=
    "hostname node".toList ++ str (i + 2) ++ "\n".toList ++
    "password z".toList ++ "\n".toList ++
    "router bgp ".toList ++ str (i + 2 + 60000) ++ "\n".toList ++
    "bgp router-id ".toList ++ opt.baseIp ++ "\n".toList ++
    "\n".toList
  let bgpsecHeaders :=
    "srx bgpsec ski 0 1 ".toList ++ baseSKI ++ "\n".toList ++
    "srx bgpsec active 0\n".toList ++
    "srx connect localhost 17900\n".toList ++
    "srx evaluation bgpsec\n".toList ++
    "srx evaluation bgpsec distributed \n".toList
  headers ++ if opt.bgpsec then bgpsecHeaders else []

/-- `generateNodeHeader` (242-275). -/
def generateNodeHeader (i : Int) : List Char :=
  match opt.mode with
  | .quagga =>
      let headers : List (List Char) := [
        "hostname node".toList ++ str (i + 2) ++ "\n".toList,
        "password z".toList ++ "\n".toList,
        "router bgp ".toList ++ str (i + 2 + 60000) ++ "\n".toList,
        "bgp router-id ".toList ++ opt.peerIp ++ str (i + 2) ++ "\n".toList,
        "neighbor ".toList ++ opt.baseIp ++ " remote-as 60001".toList ++ "\n".toList,
        "\n".toList]
      if i = -1 then (headers.take (headers.length - 2)).flatten else headers.flatten
  | .exabgp =>
      "neighbor ".toList ++ opt.baseIp ++ " \x7b\n".toList ++
      "\tpeer-as 60001;\n".toList ++
      "\trouter-id ".toList ++ opt.peerIp ++ str (i + 2) ++ ";\n".toList ++
      "\tlocal-address ".toList ++ opt.peerIp ++ str (i + 2) ++ ";\n".toList ++
      "\tlocal-as ".toList ++ str (i + 2 + 60000) ++ ";\n".toList ++
      "\tstatic \x7b \n".toList

/-- `tails` (279-290). -/
def tails : List Char :=
  "\n".toList ++
  "line vty \n".toList ++
  "log stdout debugging \n".toList ++
  "!debug bgp \n".toList ++
  "!debug bgp fsm \n".toList ++
  "debug bgp updates \n".toList ++
  "!debug bgp keepalives \n".toList ++
  "!debug bgp events \n".toList ++
  "!debug bgp filters \n".toList ++
  "\n".toList

/-- `bgpsecTails` (291-296). -/
def bgpsecTails : List Char :=
  "debug bgp bgpsec\n".toList ++
  "debug bgp bgpsec detail\n".toList ++
  "debug bgp bgpsec out\n".toList ++
  "debug bgp bgpsec in\n".toList

/-- `bgpsecBody` (298-309). -/
def bgpsecBody : List Char :=
  "\n".toList ++
  "srx bgpsec ski 0 1 ".toList ++ opt.nodeSki ++ "\n".toList ++
  "srx bgpsec active 0 \n".toList ++
  "srx connect localhost 17900 \n".toList ++
  "srx evaluation bgpsec \n".toList ++
  "srx evaluation bgpsec distributed \n".toList ++
  "neighbor ".toList ++ opt.baseIp ++ " bgpsec both \n".toList ++
  "\n".toList

/-- `generateNodeBodyTail` (278-341). -/
def generateNodeBodyTail (i : Int) : List Char :=
  if i = -1 then tails ++ if opt.bgpsec then bgpsecTails else []
  else
    match opt.mode with
    | .quagga =>
        (if opt.bgpsec then bgpsecBody opt else []) ++ tails ++
          if opt.bgpsec then bgpsecTails else []
    | .exabgp => "\n\t\x7d\n".toList ++ "\x7d\n".toList

/-- `file_recv` (523-525). -/
def fileRecv : List Char :=
  "bgpd.conf.base".toList ++ if opt.bgpsec then ".bgpsec".toList else []

/-- What the base file is told about a node (553-558). -/
def baseNeighbor (i : Int) : List Char :=
  "neighbor ".toList ++ opt.peerIp ++ str (i + 2) ++ " remote-as ".toList ++ str (i + 2 + 60000) ++
      "\n".toList ++
    if opt.bgpsec then
      "neighbor ".toList ++ opt.peerIp ++ str (i + 2) ++ " bgpsec both".toList ++ "\n".toList
    else []

/-- The base file (532-533, 553-565). -/
def baseFile : List Char :=
  generateBaseHeader opt (-1) ++ opt.nodes.flatMap (baseNeighbor opt) ++ generateNodeBodyTail opt (-1)

/-- The file of a node: its name and its text (540-550). -/
def nodeFile (i : Int) : List Char × List Char :=
  let fileName := "bgpd.conf.n".toList ++ str (i + 2) ++
    if opt.bgpsec then ".bgpsec".toList else []
  (fileName,
    generateNodeHeader opt i ++
      generatePrefix (i + 2) opt.clampedPrefix opt.mode (opt.peerIp ++ str (i + 2)) ++
      generateNodeBodyTail opt i)

/-- The files that are written (523-566), in the working directory. -/
def configFiles : List (List Char × List Char) :=
  (fileRecv opt, baseFile opt) :: opt.nodes.map (nodeFile opt)

/-! ### The network namespaces -/

def startIpaddr : Int := 2
def bridge : List Char := "br1".toList

/-- The commands for one node (577-628). -/
def netnsNode (i : Int) : List (List Char) :=
  let fileName := "bgpd.conf.n".toList ++ str (i + 2) ++
    if opt.bgpsec then ".bgpsec".toList else []
  [ "ip netns add ns".toList ++ str i,
    "ip link add veth".toList ++ str (i * 2) ++ " ".toList ++
      "type veth peer name veth".toList ++ str (i * 2 + 1),
    "ip link set veth".toList ++ str (i * 2 + 1) ++ " ".toList ++ "netns ns".toList ++ str i,
    "ip netns exec ns".toList ++ str i ++ " ".toList ++ "ifconfig lo up".toList,
    "ip netns exec ns".toList ++ str i ++ " ".toList ++
      "ifconfig veth".toList ++ str (i * 2 + 1) ++ " ".toList ++
      opt.peerIp ++ str (startIpaddr + i) ++ "/24 up".toList,
    "ip netns exec ns".toList ++ str i ++ " ".toList ++
      "ip route add default via ".toList ++ opt.baseIp,
    "brctl addif".toList ++ " ".toList ++ bridge ++ " ".toList ++ "veth".toList ++ str (i * 2),
    "ip link set dev veth".toList ++ str (i * 2) ++ " ".toList ++ "up".toList,
    "ip netns exec ns".toList ++ str i ++ " ".toList ++ "bash -c 'ifconfig;pwd'".toList,
    "ip netns exec ns".toList ++ str i ++ " ".toList ++
      "bash -c '".toList ++ opt.path ++ "bgpd -f ".toList ++ opt.pathCwd ++ fileName ++
      " -i /tmp/node".toList ++ str (i + 2) ++ ".pid -d'".toList,
    "ps aux | grep bgp[d] | grep n".toList ++ str (i + 2) ++ " ".toList ++
      "| awk '\x7bprint $2\x7d'".toList ]

/-- All commands (575-629). -/
def netnsCommands : List (List Char) := opt.nodes.flatMap (netnsNode opt)

end SrxNote.Emulator
