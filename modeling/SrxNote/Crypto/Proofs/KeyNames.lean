import Mathlib.Data.List.Basic
import Mathlib.Data.List.Induction
import Mathlib.Data.List.TakeDrop
import SrxNote.Crypto.Binding
import SrxNote.Crypto.KeyData
import SrxNote.Srx.Commands

/-!
# The names of key files

The name of a key is the key path and the 40 digits of its SKI in three pieces.
The digits give the SKI back, as `srx_set_ski` and `init_handle` read them, so
keys with different SKIs have different names, where the buffer leaves two places
behind the name: with room for the name and its NUL only, the last digit is cut
off.
-/

namespace SrxNote.Crypto

open SrxNote.Bgpsec SrxNote.Srx

/-- The octets of a string, as characters. -/
def cChars (t : String) : List Char := t.toByteArray.data.toList.map fun octet => Char.ofNat octet.toNat

/-- An upper-case hexadecimal digit. -/
def upperDigit (n : Fin 16) : Char :=
  #v['0', '1', '2', '3', '4', '5', '6', '7', '8', '9', 'A', 'B', 'C', 'D', 'E', 'F'][n]

/-- The digits of a SKI in order, the upper half of each octet first. -/
def skiDigits (ski : List UInt8) : List Char :=
  ski.flatMap fun octet => [upperDigit (Fin.ofNat 16 (octet.toNat / 16)),
    upperDigit (Fin.ofNat 16 octet.toNat)]

/-- path/XX/XXXX/X..X -/
def keyName (path digits : List Char) : List Char :=
  path ++ '/' :: (digits.take 2 ++ '/' :: ((digits.drop 2).take 4 ++ '/' :: digits.drop 6))

/-- The length of the name of a SKI: 40 digits and three slashes behind the path. -/
def keyNameLength (path : List Char) : Nat := path.length + 43

/-! ### Digits and octets -/

theorem hexDigit_eq (n : Fin 16) : hexDigit n = upperDigit n := by
  revert n
  decide

theorem skiHex_eq (ski : List UInt8) : skiHex ski = skiDigits ski := by
  induction ski with
  | nil => rfl
  | cons octet ski ih =>
      have hhigh : octet.toNat / 16 < 16 := by
        have hlt := octet.toNat_lt
        omega
      have hlow : octet.toNat % 16 < 16 := Nat.mod_lt _ (by decide)
      have hfirst : hexDigit (octet.toNat / 16) = upperDigit (Fin.ofNat 16 (octet.toNat / 16)) := by
        rw [← hexDigit_eq, Fin.val_ofNat, Nat.mod_eq_of_lt hhigh]
      have hsecond : hexDigit (octet.toNat % 16) = upperDigit (Fin.ofNat 16 octet.toNat) := by
        rw [← hexDigit_eq, Fin.val_ofNat]
      unfold skiHex skiDigits at ih ⊢
      rw [List.flatMap_cons, List.flatMap_cons, hfirst, hsecond, ih]

theorem length_skiDigits (ski : List UInt8) : (skiDigits ski).length = 2 * ski.length := by
  induction ski with
  | nil => rfl
  | cons octet ski ih =>
      unfold skiDigits at ih ⊢
      rw [List.flatMap_cons, List.length_append, ih, List.length_cons]
      simp only [List.length_cons, List.length_nil]
      omega

theorem hex2binNibble_upperDigit (n : Fin 16) : hex2binNibble (upperDigit n) = UInt8.ofNat n := by
  revert n
  decide

theorem hex2binDigit_upperDigit (n : Fin 16) : hex2binDigit (upperDigit n) = UInt8.ofNat n := by
  revert n
  decide

theorem shift_or (hi lo : Fin 16) :
    UInt8.ofNat hi <<< 4 ||| UInt8.ofNat lo = UInt8.ofNat (16 * hi.val + lo.val) := by
  revert hi lo
  decide

/-- An octet is put together from its halves. -/
theorem octet_of_halves (octet : UInt8) :
    UInt8.ofNat (Fin.ofNat 16 (octet.toNat / 16) : Fin 16) <<< 4 |||
      UInt8.ofNat (Fin.ofNat 16 octet.toNat : Fin 16) = octet := by
  have hlt := octet.toNat_lt
  have hsum : 16 * (octet.toNat / 16 % 16) + octet.toNat % 16 = octet.toNat := by omega
  rw [shift_or, Fin.val_ofNat, Fin.val_ofNat, hsum, UInt8.ofNat_toNat]

/-- `srx_set_ski` reads the SKI back from its digits. -/
theorem readSki_skiDigits (ski : List UInt8) : readSki (skiDigits ski) = ski := by
  induction ski with
  | nil => rfl
  | cons octet ski ih =>
      unfold skiDigits at ih ⊢
      rw [List.flatMap_cons, List.cons_append, List.cons_append, List.nil_append, readSki, ih,
        hex2binByte, hex2binNibble_upperDigit, hex2binNibble_upperDigit, octet_of_halves]

theorem skiDigits_get (ski : List UInt8) {i : Nat} (hi : i < ski.length) :
    (skiDigits ski)[2 * i]? = some (upperDigit (Fin.ofNat 16 (ski[i].toNat / 16))) ∧
      (skiDigits ski)[2 * i + 1]? = some (upperDigit (Fin.ofNat 16 ski[i].toNat)) := by
  induction ski generalizing i with
  | nil => simp at hi
  | cons octet ski ih =>
      cases i with
      | zero => exact ⟨rfl, rfl⟩
      | succ i => exact ih (Nat.lt_of_succ_lt_succ hi)

theorem mapM_range_get {f : Nat → Option UInt8} {l : List UInt8}
    (h : ∀ i (hi : i < l.length), f i = some l[i]) : (List.range l.length).mapM f = some l := by
  induction l using List.reverseRecOn with
  | nil => rfl
  | append_singleton l x ih =>
      have hfirst : ∀ i (hi : i < l.length), f i = some l[i] := by
        intro i hi
        rw [h i (by simp; omega), List.getElem_append_left hi]
      have hlast : f l.length = some x := by
        rw [h l.length (by simp), List.getElem_append_right (Nat.le_refl _)]
        simp
      rw [List.length_append, List.length_singleton, List.range_succ, List.mapM_append, ih hfirst]
      simp [hlast]

/-- `init_handle` reads it back as well. -/
theorem initHandle_skiDigits {ski : List UInt8} (hski : ski.length = skiLength) :
    initHandle (skiDigits ski) = some ski := by
  rw [initHandle, ← hski]
  apply mapM_range_get
  intro i hi
  obtain ⟨hhigh, hlow⟩ := skiDigits_get ski hi
  rw [hhigh, hlow]
  simp only [Option.bind_eq_bind, Option.bind_some, hex2binDigit_upperDigit, octet_of_halves]
  rfl

theorem skiDigits_injective {ski ski' : List UInt8} (h : skiDigits ski = skiDigits ski') :
    ski = ski' := by
  rw [← readSki_skiDigits ski, h, readSki_skiDigits]

/-! ### Names -/

theorem length_keyName {path digits : List Char} (h : digits.length = 40) :
    (keyName path digits).length = keyNameLength path := by
  simp [keyName, keyNameLength, h]

/-- The digits of a name behind its path. -/
theorem keyName_injective {path ds ds' : List Char} (h : ds.length = 40) (h' : ds'.length = 40)
    (heq : keyName path ds = keyName path ds') : ds = ds' := by
  have hrest := List.append_cancel_left heq
  obtain ⟨htwo, hrest⟩ := List.append_inj (List.cons.inj hrest).2 (by simp [h, h'])
  obtain ⟨hfour, hrest⟩ := List.append_inj (List.cons.inj hrest).2 (by simp [h, h'])
  have hlong := (List.cons.inj hrest).2
  have hjoin : ∀ d : List Char, d = d.take 2 ++ ((d.drop 2).take 4 ++ d.drop 6) := by
    intro d
    have hsix : d.drop 6 = (d.drop 2).drop 4 := by rw [List.drop_drop]
    rw [hsix, List.take_append_drop, List.take_append_drop]
  rw [hjoin ds, hjoin ds', htwo, hfour, hlong]

theorem scaFindDirInSKI_eq (path : List Char) (filenamebufLen : Nat) {ski : List UInt8}
    (hski : ski.length = skiLength) :
    scaFindDirInSKI path filenamebufLen (some ski) =
      some ((keyName path (skiDigits ski)).take (filenamebufLen - 2)) := by
  have hnot : ¬ ski.length < skiLength := by omega
  have htake : ski.take skiLength = ski := List.take_of_length_le (by omega)
  simp only [scaFindDirInSKI, if_neg hnot, htake, skiHex_eq, keyName]
  simp

/-- The name of a SKI is as documented, no other SKI has it, and its digits give the SKI back. -/
def KeyNameRight (path : List Char) (filenamebufLen : Nat) (ski : List UInt8) : Prop :=
  scaFindDirInSKI path filenamebufLen (some ski) = some (keyName path (skiDigits ski)) ∧
    (∀ ski' : List UInt8, ski'.length = skiLength → ski' ≠ ski →
      scaFindDirInSKI path filenamebufLen (some ski') ≠
        scaFindDirInSKI path filenamebufLen (some ski)) ∧
    initHandle (skiDigits ski) = some ski ∧ readSki (skiDigits ski) = ski

theorem scaFindDirInSKI_room (path : List Char) {filenamebufLen : Nat} {ski : List UInt8}
    (hski : ski.length = skiLength) :
    scaFindDirInSKI path filenamebufLen (some ski) = some (keyName path (skiDigits ski)) ↔
      keyNameLength path + 2 ≤ filenamebufLen := by
  have hdigits : (skiDigits ski).length = 40 := by rw [length_skiDigits, hski]; rfl
  have hlen : (keyName path (skiDigits ski)).length = keyNameLength path := length_keyName hdigits
  have hpos : keyNameLength path ≠ 0 := by simp [keyNameLength]
  rw [scaFindDirInSKI_eq path filenamebufLen hski, Option.some.injEq, List.take_eq_self_iff, hlen]
  omega

/-- For a path that `sca_SetKeyPath` accepts: the name is right when the buffer has one place more
    than the name and its NUL take. -/
theorem keyNames_right_iff {keyPath : String} (hpath : keyPath.utf8ByteSize < 1024 - 1) (s : Sca)
    (filenamebufLen : Nat) {ski : List UInt8} (hski : ski.length = skiLength) :
    KeyNameRight (cChars (scaSetKeyPath keyPath s).keyPath) filenamebufLen ski ↔
      keyNameLength (cChars keyPath) + 2 ≤ filenamebufLen := by
  have hset : (scaSetKeyPath keyPath s).keyPath = keyPath := by rw [scaSetKeyPath, if_pos hpath]
  rw [hset]
  constructor
  · exact fun h => (scaFindDirInSKI_room _ hski).mp h.1
  · intro hlong
    have hname := (scaFindDirInSKI_room (cChars keyPath) hski).mpr hlong
    refine ⟨hname, ?_, initHandle_skiDigits hski, readSki_skiDigits ski⟩
    intro ski' hski' hne heq
    rw [hname, (scaFindDirInSKI_room (cChars keyPath) hski').mpr hlong] at heq
    have hdigits := keyName_injective (by rw [length_skiDigits, hski']; rfl)
      (by rw [length_skiDigits, hski]; rfl) (Option.some.inj heq)
    exact hne (skiDigits_injective hdigits)

/-- The library before its first call. -/
def unusedSca : Sca := ⟨⟨none, none, fun _ => .null⟩, false, logErr, 0, ""⟩

theorem keyNames_right_keys :
    KeyNameRight (cChars (scaSetKeyPath "keys" unusedSca).keyPath) 49 (List.replicate 20 0) :=
  (keyNames_right_iff (by decide) unusedSca 49 (by decide)).mpr (by decide)

/-- A buffer of 48 octets holds the 47 of a name behind the path "keys" and its NUL; the last digit
    is cut off, and two keys have one name. -/
theorem keyNames_cut :
    keyNameLength (cChars "keys") + 1 ≤ 48 ∧
      ¬ KeyNameRight (cChars (scaSetKeyPath "keys" unusedSca).keyPath) 48 (List.replicate 20 0) ∧
      scaFindDirInSKI (cChars "keys") 48 (some (List.replicate 19 0 ++ [0])) =
        scaFindDirInSKI (cChars "keys") 48 (some (List.replicate 19 0 ++ [1])) := by
  have hset : (scaSetKeyPath "keys" unusedSca).keyPath = "keys" := by decide
  have hsame : scaFindDirInSKI (cChars "keys") 48 (some (List.replicate 19 0 ++ [0])) =
      scaFindDirInSKI (cChars "keys") 48 (some (List.replicate 19 0 ++ [1])) := by decide
  refine ⟨by decide, ?_, hsame⟩
  rw [hset]
  rintro ⟨-, hdifferent, -⟩
  exact hdifferent (List.replicate 19 0 ++ [1]) (by decide) (by decide) hsame.symm

end SrxNote.Crypto
