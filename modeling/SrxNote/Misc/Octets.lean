import Mathlib.Data.Nat.Notation

/-!
# Big-endian octets

Network-order encodings of 16- and 32-bit words and their inverses. The
decoders take the octets one by one, so that a reader which has already
checked that enough octets are there needs no partial match.
-/

namespace SrxNote

/-- The two octets of a 16-bit word, most significant first. -/
def be16 (w : UInt16) : List UInt8 :=
  [UInt8.ofNat (w.toNat / 256), UInt8.ofNat w.toNat]

/-- The four octets of a 32-bit word, most significant first. -/
def be32 (w : UInt32) : List UInt8 :=
  [UInt8.ofNat (w.toNat / 16777216), UInt8.ofNat (w.toNat / 65536),
    UInt8.ofNat (w.toNat / 256), UInt8.ofNat w.toNat]

/-- The 16-bit word with the given octets. -/
def ofBe16 (a b : UInt8) : UInt16 := UInt16.ofNat (a.toNat * 256 + b.toNat)

/-- The 32-bit word with the given octets. -/
def ofBe32 (a b c d : UInt8) : UInt32 :=
  UInt32.ofNat (a.toNat * 16777216 + b.toNat * 65536 + c.toNat * 256 + d.toNat)

@[simp] theorem be16_length (w : UInt16) : (be16 w).length = 2 := rfl

@[simp] theorem be32_length (w : UInt32) : (be32 w).length = 4 := rfl

theorem ofBe16_be16 (w : UInt16) :
    ofBe16 (UInt8.ofNat (w.toNat / 256)) (UInt8.ofNat w.toNat) = w := by
  apply UInt16.toNat_inj.mp
  have hw := w.toNat_lt
  simp only [ofBe16, UInt16.toNat_ofNat', UInt8.toNat_ofNat']
  omega

theorem ofBe32_be32 (w : UInt32) :
    ofBe32 (UInt8.ofNat (w.toNat / 16777216)) (UInt8.ofNat (w.toNat / 65536))
      (UInt8.ofNat (w.toNat / 256)) (UInt8.ofNat w.toNat) = w := by
  apply UInt32.toNat_inj.mp
  have hw := w.toNat_lt
  simp only [ofBe32, UInt32.toNat_ofNat', UInt8.toNat_ofNat']
  omega

theorem toNat_ofBe16 (a b : UInt8) : (ofBe16 a b).toNat = a.toNat * 256 + b.toNat := by
  have ha := a.toNat_lt
  have hb := b.toNat_lt
  simp only [ofBe16, UInt16.toNat_ofNat']
  omega

theorem be16_ofBe16 (a b : UInt8) : be16 (ofBe16 a b) = [a, b] := by
  have hb := b.toNat_lt
  have hhi : UInt8.ofNat ((ofBe16 a b).toNat / 256) = a := by
    apply UInt8.toNat_inj.mp
    have ha := a.toNat_lt
    rw [toNat_ofBe16, UInt8.toNat_ofNat']
    omega
  have hlo : UInt8.ofNat (ofBe16 a b).toNat = b := by
    apply UInt8.toNat_inj.mp
    rw [toNat_ofBe16, UInt8.toNat_ofNat']
    omega
  rw [be16, hhi, hlo]

theorem toNat_ofBe32 (a b c d : UInt8) : (ofBe32 a b c d).toNat =
    a.toNat * 16777216 + b.toNat * 65536 + c.toNat * 256 + d.toNat := by
  have ha := a.toNat_lt
  have hb := b.toNat_lt
  have hc := c.toNat_lt
  have hd := d.toNat_lt
  simp only [ofBe32, UInt32.toNat_ofNat']
  omega

theorem be32_ofBe32 (a b c d : UInt8) : be32 (ofBe32 a b c d) = [a, b, c, d] := by
  have ha := a.toNat_lt
  have hb := b.toNat_lt
  have hc := c.toNat_lt
  have hd := d.toNat_lt
  have octet : ∀ (n : Nat) (x : UInt8), n % 256 = x.toNat → UInt8.ofNat n = x := by
    intro n x hn
    apply UInt8.toNat_inj.mp
    rw [UInt8.toNat_ofNat']
    exact hn
  rw [be32, toNat_ofBe32, octet _ a (by omega), octet _ b (by omega), octet _ c (by omega),
    octet _ d (by omega)]

end SrxNote
