import Mathlib.Data.Nat.Digits.Lemmas

/-!
# DER

Tag, length and content of the distinguished encoding rules (X.690, 8.1 and 10.1)
for tags of one octet. The length is definite and minimal: one octet below 128,
else the number of the octets that follow, with the top bit set, and these.
-/

namespace SrxNote.Der

/-- The octets of a number, most significant first and none in front. -/
def numberOctets (n : Nat) : List UInt8 := (Nat.digits 256 n).reverse.map UInt8.ofNat

/-- The length octets. -/
def lengthOctets (n : Nat) : List UInt8 :=
  if n < 128 then [UInt8.ofNat n]
  else UInt8.ofNat (128 + (numberOctets n).length) :: numberOctets n

/-- An element: its tag, the length of its content, its content. -/
def element (tag : UInt8) (content : List UInt8) : List UInt8 :=
  tag :: (lengthOctets content.length ++ content)

theorem numberOctets_length_le_iff {n k : Nat} : (numberOctets n).length ≤ k ↔ n < 256 ^ k := by
  rw [numberOctets, List.length_map, List.length_reverse]
  exact Nat.digits_length_le_iff (by decide) n

/-- A content below 128 octets is in the short form. -/
theorem element_short {content : List UInt8} (tag : UInt8) (h : content.length < 128) :
    element tag content = tag :: UInt8.ofNat content.length :: content := by
  rw [element, lengthOctets, if_pos h]
  rfl

/-- One of 128 octets or more is in the long form. -/
theorem element_long {content : List UInt8} (tag : UInt8) (h : 128 ≤ content.length) :
    element tag content = tag :: UInt8.ofNat (128 + (numberOctets content.length).length) ::
      (numberOctets content.length ++ content) := by
  rw [element, lengthOctets, if_neg (by omega)]
  rfl

theorem element_short_length {content : List UInt8} (tag : UInt8) (h : content.length < 128) :
    (element tag content).length = 2 + content.length := by
  rw [element_short tag h, List.length_cons, List.length_cons]
  omega

theorem element_long_length {content : List UInt8} (tag : UInt8) (h : 128 ≤ content.length) :
    (element tag content).length =
      2 + (numberOctets content.length).length + content.length := by
  rw [element_long tag h, List.length_cons, List.length_cons, List.length_append]
  omega

end SrxNote.Der
