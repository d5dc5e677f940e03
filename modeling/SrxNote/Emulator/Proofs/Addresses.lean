import SrxNote.Emulator.Proofs.Network
import SrxNote.Emulator.Proofs.PrefixRuns

/-!
# The addresses of the nodes

The number of a node is the last octet of its address and the first one of its
prefixes. Both are octets exactly when the last node is below 254: the limit on the
count alone does not see to that.
-/

namespace SrxNote.Emulator
open SrxNote.Text PrefixLoops

/-- A number that fits into an octet. -/
def isOctetText (w : List Char) : Bool := (readDecimal w).any (· ≤ 255)

/-- Four octets with dots between them. -/
def IsAddress (l : List Char) : Prop :=
  (l.splitOn '.').length = 4 ∧ ∀ w ∈ l.splitOn '.', isOctetText w = true

theorem str_of_nonneg {n : Int} (hn : 0 ≤ n) : str n = decimal n.toNat := by
  have habs : n.natAbs = n.toNat := by omega
  rw [str, if_neg (by omega), habs]

theorem isOctetText_str {n : Int} (hn : 0 ≤ n) : isOctetText (str n) = true ↔ n ≤ 255 := by
  rw [isOctetText, str_of_nonneg hn, readDecimal_decimal, Option.any_some, decide_eq_true_eq]
  omega

variable {opt : Options}

theorem nodeAddress_split (hpeer : opt.peerIp = "10.1.1.".toList) {i : Int} (hi : 0 ≤ i) :
    (nodeAddress opt i).splitOn '.' = ["10".toList, "1".toList, "1".toList, str (i + 2)] := by
  have hdots : nodeAddress opt i =
      "10".toList ++ '.' :: ("1".toList ++ '.' :: ("1".toList ++ '.' :: str (i + 2))) := by
    rw [nodeAddress, hpeer]
    simp only [String.reduceToList, List.cons_append, List.nil_append]
  have hten : '.' ∉ "10".toList := by decide
  have hone : '.' ∉ "1".toList := by decide
  have hlast : '.' ∉ str (i + 2) := by
    rw [str_of_nonneg (by omega)]
    exact decimal_no_dot _
  rw [hdots, List.splitOn_append_cons_self_of_not_mem hten,
    List.splitOn_append_cons_self_of_not_mem hone, List.splitOn_append_cons_self_of_not_mem hone,
    List.splitOn_eq_singleton hlast]

theorem nodeAddress_isAddress (hpeer : opt.peerIp = "10.1.1.".toList) {i : Int} (hi : 0 ≤ i) :
    IsAddress (nodeAddress opt i) ↔ i ≤ 253 := by
  have hlast := isOctetText_str (n := i + 2) (by omega)
  have hten : isOctetText "10".toList = true := by decide
  have hone : isOctetText "1".toList = true := by decide
  unfold IsAddress
  rw [nodeAddress_split hpeer hi]
  constructor
  · intro h
    have hle := hlast.mp (h.2 _ (by simp))
    omega
  · intro hle
    refine ⟨rfl, ?_⟩
    simp only [List.forall_mem_cons]
    exact ⟨hten, hone, hone, hlast.mpr (by omega), fun _ h => (nomatch h)⟩

/-- All octets of a prefix. -/
def Octets (ip : IpAttr) : Prop := IsOctet ip.a ∧ IsOctet ip.b ∧ IsOctet ip.c ∧ IsOctet ip.d

variable (opt)

/-- The addresses and prefixes that the emulator uses: those in the base file and of the interfaces, in
    the file of each node and of its runs; and each node has its own address. -/
structure AddressesValid : Prop where
  node : ∀ i ∈ opt.nodes, IsAddress (nodeAddress opt i)
  neighbor : ∀ address number,
    [address, number] ∈ statements remoteAs (baseFile opt) → IsAddress address
  interface : ∀ netns veth address,
    [netns, veth, address ++ "/24".toList] ∈ commandsOf ifconfigUp (netnsCommands opt) → IsAddress address
  file : ∀ i ∈ opt.nodes, ∃ ps : List (IpAttr × Nat), (∀ p ∈ ps, Octets p.1) ∧
    (nodeFile opt i).2 = generateNodeHeader opt i ++
      (ps.flatMap fun p => prefixLine opt.mode (nodeAddress opt i) p.1 p.2) ++ generateNodeBodyTail opt i
  run : ∀ i ∈ opt.nodes, ∀ (c : Settings) (fuel : Nat) (out : Out), c.Emits → enoughFuel ≤ fuel →
    PrefixLoops.generatePrefix c fuel (i + 2) opt.clampedPrefix = some out →
      ∀ p ∈ c.emitted out, Octets p.1
  nodup : (opt.nodes.map (nodeAddress opt)).Nodup
  base : opt.baseIp ∉ opt.nodes.map (nodeAddress opt)

theorem mem_nodes_clamped {i : Int} :
    i ∈ opt.nodes ↔ opt.nsStart ≤ i ∧ i < opt.nsStart + opt.clampedCount := by
  simp only [Options.nodes, pyRange, List.mem_map, List.mem_range]
  constructor
  · rintro ⟨k, hk, rfl⟩
    simp only [Int.ofNat_eq_natCast]
    omega
  · rintro ⟨hge, hlt⟩
    refine ⟨(i - opt.nsStart).toNat, by omega, ?_⟩
    simp only [Int.ofNat_eq_natCast]
    omega

variable {opt}

theorem octets_emitted {i numPrefix : Int} (hi : 2 ≤ i) (hmax : i ≤ 255) :
    ∀ p ∈ emittedPrefixes i numPrefix, Octets p.1 := by
  intro p hp
  obtain ⟨hfirst, hb, hc, hd, -⟩ := ((isBlockList_allPrefixes hi).mem_iff p).mp (List.mem_of_mem_take hp)
  refine ⟨⟨?_, ?_⟩, hb, hc, hd⟩
  · omega
  · omega

theorem neighbor_baseFile {address number : List Char}
    (h : [address, number] ∈ statements remoteAs (baseFile opt)) :
    ∃ i ∈ opt.nodes, address = nodeAddress opt i := by
  rw [remoteAs_baseFile] at h
  obtain ⟨i, hi, heq⟩ := List.mem_map.mp h
  exact ⟨i, hi, (List.cons.inj heq).1.symm⟩

theorem interface_commands {netns veth address : List Char}
    (h : [netns, veth, address ++ "/24".toList] ∈ commandsOf ifconfigUp (netnsCommands opt)) :
    ∃ i ∈ opt.nodes, address = nodeAddress opt i := by
  rw [commandsOf_ifconfigUp] at h
  obtain ⟨i, hi, heq⟩ := List.mem_map.mp h
  have hmask := (List.cons.inj (List.cons.inj (List.cons.inj heq).2).2).1
  exact ⟨i, hi, (List.append_cancel_right hmask).symm⟩

theorem nodeFile_prefixes (i : Int) :
    (nodeFile opt i).2 = generateNodeHeader opt i ++
      ((emittedPrefixes (i + 2) opt.clampedPrefix).flatMap fun p =>
        prefixLine opt.mode (nodeAddress opt i) p.1 p.2) ++ generateNodeBodyTail opt i := by
  obtain ⟨out, -, htext, hwritten⟩ := generatePrefix_refines (i + 2) opt.clampedPrefix opt.mode
    (nodeAddress opt i) (Nat.le_refl enoughFuel)
  rw [← hwritten]
  exact congrArg (generateNodeHeader opt i ++ · ++ generateNodeBodyTail opt i) htext

/-- As long as the numbers of the nodes fit, everything is valid. -/
theorem addresses_valid_of_range (hbase : opt.baseIp = "10.1.1.1".toList)
    (hpeer : opt.peerIp = "10.1.1.".toList) (hrange : ∀ i ∈ opt.nodes, 0 ≤ i ∧ i ≤ 253) :
    AddressesValid opt := by
  have hvalid : ∀ i ∈ opt.nodes, IsAddress (nodeAddress opt i) :=
    fun i hi => (nodeAddress_isAddress hpeer (hrange i hi).1).mpr (hrange i hi).2
  have hoctets : ∀ i ∈ opt.nodes, ∀ p ∈ emittedPrefixes (i + 2) opt.clampedPrefix, Octets p.1 := by
    intro i hi
    have hi := hrange i hi
    exact octets_emitted (by omega) (by omega)
  exact {
    node := hvalid
    neighbor := by
      intro address number h
      obtain ⟨i, hi, rfl⟩ := neighbor_baseFile h
      exact hvalid i hi
    interface := by
      intro netns veth address h
      obtain ⟨i, hi, rfl⟩ := interface_commands h
      exact hvalid i hi
    file := fun i hi => ⟨_, hoctets i hi, nodeFile_prefixes i⟩
    run := by
      intro i hi c fuel out hc hfuel hout
      obtain ⟨out', hout', hemitted, -⟩ := generatePrefix_emitted hc (i + 2) opt.clampedPrefix hfuel
      obtain rfl := Option.some.inj (hout.symm.trans hout')
      rw [hemitted]
      exact hoctets i hi
    nodup := (nodes_nodup opt).map fun i j h => nodeAddress_injective opt h
    base := by
      intro hmem
      obtain ⟨i, hi, heq⟩ := List.mem_map.mp hmem
      have hone : opt.baseIp = opt.peerIp ++ str 1 := by
        rw [hbase, hpeer]
        rfl
      rw [nodeAddress, hone] at heq
      have hnumber := str_injective (List.append_cancel_left heq)
      have hge := (hrange i hi).1
      omega }

/-- With the default addresses, all of them are valid exactly when the last node is below 254. -/
theorem addresses_valid_iff (hbase : opt.baseIp = "10.1.1.1".toList)
    (hpeer : opt.peerIp = "10.1.1.".toList) (hstart : 0 ≤ opt.nsStart) :
    AddressesValid opt ↔ opt.clampedCount ≤ 0 ∨ opt.nsStart + opt.clampedCount ≤ 254 := by
  constructor
  · intro h
    by_cases hnone : opt.clampedCount ≤ 0
    · exact .inl hnone
    · right
      -- the last node
      have hlast : opt.nsStart + opt.clampedCount - 1 ∈ opt.nodes := by
        apply (mem_nodes_clamped opt).mpr
        omega
      have hle := (nodeAddress_isAddress hpeer (by omega)).mp (h.node _ hlast)
      omega
  · intro hlimit
    apply addresses_valid_of_range hbase hpeer
    intro i hi
    have hbounds := (mem_nodes_clamped opt).mp hi
    omega

theorem addresses_valid_sample : AddressesValid sampleOptions :=
  (addresses_valid_iff rfl rfl (by decide)).mpr (.inr (by decide))

/-- The default addresses and start, and as many nodes as can be. -/
def manyOptions : Options :=
  { sampleOptions with count := 500, nsStart := 0 }

/-- The node 254 gets the address 10.1.1.256. -/
theorem addresses_invalid_many :
    "10.1.1.256".toList ∈ manyOptions.nodes.map (nodeAddress manyOptions) ∧
      ¬ IsAddress "10.1.1.256".toList ∧ ¬ AddressesValid manyOptions := by
  have hmem : (254 : Int) ∈ manyOptions.nodes := (mem_nodes_clamped manyOptions).mpr (by decide)
  have haddress : nodeAddress manyOptions 254 = "10.1.1.256".toList := rfl
  have hnot : ¬ IsAddress "10.1.1.256".toList := by
    rw [← haddress, nodeAddress_isAddress rfl (by decide)]
    decide
  refine ⟨List.mem_map.mpr ⟨254, hmem, haddress⟩, hnot, ?_⟩
  intro h
  exact hnot (haddress ▸ h.node 254 hmem)

end SrxNote.Emulator
