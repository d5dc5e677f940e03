import Mathlib.Data.Nat.Bitwise
import SrxNote.Crypto.KeyData
import SrxNote.Misc.Der

/-!
# Private and public keys are told apart

`IS_DER_PRIVATE` finds the content of the outer SEQUENCE of a key, except for a
content of 125 to 127 octets: then the length octet is the length itself, but it
is taken for the number of the octets that follow. Nothing else than the choice of
the form depends on the length of the buffer, so a short or malformed buffer is
read behind its end.
-/

namespace SrxNote.Crypto
open SrxNote.Der

/-- `ECPrivateKey`: version 1, the private key, and what follows. -/
def IsECPrivateKey (p : List UInt8) : Prop :=
  ∃ secret rest,
    p = element idSequence (element idInteger [1] ++ (element idOctetString secret ++ rest))

/-- `SubjectPublicKeyInfo`: the algorithm, itself a SEQUENCE, and the bits of the key. -/
def IsSubjectPublicKeyInfo (p : List UInt8) : Prop :=
  ∃ algorithm rest, p = element idSequence (element idSequence algorithm ++ rest)

/-- What IS_DER_PRIVATE has to return for a key. -/
def ClassifiedAs (p : List UInt8) (result : Option Int) : Prop :=
  (IsECPrivateKey p → result = some 1) ∧ (IsSubjectPublicKeyInfo p → result = some 0)

theorem getElem?_of_drop {p content : List UInt8} {n : Nat} (h : p.drop n = content) (i : Nat) :
    p[n + i]? = content[i]? := by
  rw [← h, List.getElem?_drop]

/-! ## The content -/

theorem toNat_add_of_lt {a b : UInt8} (h : a.toNat + b.toNat < 256) :
    (a + b).toNat = a.toNat + b.toNat := by
  rw [UInt8.toNat_add]
  omega

theorem derContent_private {p rest : List UInt8} {pos : UInt8} (hpos : pos.toNat ≤ 4)
    (h : p.drop pos.toNat = [idInteger, 1, 1, idOctetString] ++ rest) :
    derContent p pos = some 1 := by
  have hid : p[pos.toNat]? = some idInteger := getElem?_of_drop h 0
  have hone : (1 : UInt8).toNat = 1 := rfl
  have hthree : (2 + 1 : UInt8).toNat = 3 := rfl
  have hlen : p[(pos + 1).toNat]? = some 1 := by
    rw [toNat_add_of_lt (by omega)]
    exact getElem?_of_drop h 1
  have hstring : p[(pos + 2 + 1).toNat]? = some idOctetString := by
    rw [UInt8.add_assoc, toNat_add_of_lt (by omega)]
    exact getElem?_of_drop h 3
  simp only [derContent, hid, hlen, hstring, Option.bind_eq_bind, Option.bind_some, if_true]
  rfl

theorem derContent_public {p rest : List UInt8} {pos : UInt8}
    (h : p.drop pos.toNat = idSequence :: rest) : derContent p pos = some 0 := by
  have hid : p[pos.toNat]? = some idSequence := getElem?_of_drop h 0
  simp [derContent, hid, idSequence, idInteger]

/-! ## The outer SEQUENCE -/

theorem toNat_ofNat_length {p : List UInt8} (h : p.length < 65536) :
    (UInt16.ofNat p.length).toNat = p.length := by
  rw [UInt16.toNat_ofNat']
  exact Nat.mod_eq_of_lt h

theorem length_lt_127_iff {p : List UInt8} (h : p.length < 65536) :
    UInt16.ofNat p.length < 127 ↔ p.length < 127 := by
  rw [UInt16.lt_iff_toNat_lt, toNat_ofNat_length h]
  rfl

theorem and_0x80_eq_zero_iff {x : UInt8} : x &&& 0x80 = 0 ↔ x.toNat < 128 := by
  have hx := x.toNat_lt
  rw [← UInt8.toNat_inj, UInt8.toNat_and]
  show x.toNat &&& 2 ^ 7 = 0 ↔ x.toNat < 128
  rw [Nat.and_two_pow, Nat.testBit_eq_decide_div_mod_eq]
  by_cases h : x.toNat < 128
  · have hdiv : x.toNat / 2 ^ 7 = 0 := Nat.div_eq_of_lt h
    rw [hdiv]
    exact iff_of_true rfl h
  · have hdiv : x.toNat / 2 ^ 7 = 1 := by omega
    rw [hdiv]
    exact iff_of_false (by decide) h

theorem and_0x7f_toNat (x : UInt8) : (x &&& 0x7f).toNat = x.toNat % 128 := by
  rw [UInt8.toNat_and]
  exact Nat.and_two_pow_sub_one_eq_mod x.toNat 7

theorem isDerPrivate_sequence (initLen : UInt8) (p : List UInt8) (length : UInt16) :
    isDerPrivate (idSequence :: initLen :: p) length =
      if length < 127 ∧ initLen &&& 0x80 = 0 then derContent (idSequence :: initLen :: p) 2
      else derContent (idSequence :: initLen :: p) (2 + (initLen &&& 0x7f)) := by
  simp [isDerPrivate]

/-- In the short form the content is found as long as the whole buffer is below 127 octets. -/
theorem isDerPrivate_short {content : List UInt8} (h : content.length < 125) :
    isDerPrivate (element idSequence content)
        (UInt16.ofNat (element idSequence content).length) =
      derContent (element idSequence content) 2 := by
  have hlen : (element idSequence content).length = 2 + content.length :=
    element_short_length idSequence (by omega)
  have hbuf := (length_lt_127_iff (p := element idSequence content) (by omega)).mpr (by omega)
  generalize UInt16.ofNat (element idSequence content).length = length at hbuf
  rw [element_short idSequence (by omega), isDerPrivate_sequence,
    if_pos ⟨hbuf, and_0x80_eq_zero_iff.mpr (by rw [UInt8.toNat_ofNat']; omega)⟩]

/-- From 127 octets on the length itself is taken for a number of octets, and the content is read at
    the end of the buffer. -/
theorem isDerPrivate_outside {content : List UInt8} (hlow : 125 ≤ content.length)
    (hhigh : content.length < 128) :
    isDerPrivate (element idSequence content)
      (UInt16.ofNat (element idSequence content).length) = none := by
  have hlen : (element idSequence content).length = 2 + content.length :=
    element_short_length idSequence hhigh
  have hbuf := mt (length_lt_127_iff (p := element idSequence content) (by omega)).mp (by omega)
  generalize UInt16.ofNat (element idSequence content).length = length at hbuf
  have hpos : (2 + (UInt8.ofNat content.length &&& 0x7f)).toNat = 2 + content.length := by
    rw [UInt8.toNat_add, and_0x7f_toNat, UInt8.toNat_ofNat']
    show (2 + _) % 256 = _
    omega
  rw [element_short idSequence hhigh, isDerPrivate_sequence, if_neg (fun hc => hbuf hc.1),
    derContent, hpos, List.getElem?_eq_none (by rw [List.length_cons, List.length_cons]; omega)]
  rfl

/-- The length octets of a content that fits. -/
theorem numberOctets_length_cases {n : Nat} (hlow : 128 ≤ n) (hhigh : n < 65536) :
    (numberOctets n).length = 1 ∨ (numberOctets n).length = 2 := by
  have hle : (numberOctets n).length ≤ 2 := numberOctets_length_le_iff.mpr (by omega)
  have hpos : ¬ (numberOctets n).length ≤ 0 := by
    rw [numberOctets_length_le_iff]
    omega
  omega

/-- In the long form the content is found behind the length octets. -/
theorem isDerPrivate_long {content : List UInt8} (hlow : 128 ≤ content.length)
    (hfit : (element idSequence content).length < 65536) :
    ∃ pos : UInt8, pos.toNat ≤ 4 ∧ (element idSequence content).drop pos.toNat = content ∧
      isDerPrivate (element idSequence content)
        (UInt16.ofNat (element idSequence content).length) =
          derContent (element idSequence content) pos := by
  have hlen := element_long_length idSequence hlow
  have hbuf := mt (length_lt_127_iff hfit).mp (by omega)
  generalize UInt16.ofNat (element idSequence content).length = length at hbuf
  rw [element_long idSequence hlow, isDerPrivate_sequence, if_neg (fun hc => hbuf hc.1)]
  rcases numberOctets_length_cases hlow (by omega) with hone | htwo
  · rw [hone]
    refine ⟨3, by decide, ?_, rfl⟩
    show (numberOctets content.length ++ content).drop 1 = content
    rw [← hone, List.drop_left]
  · rw [htwo]
    refine ⟨4, by decide, ?_, rfl⟩
    show (numberOctets content.length ++ content).drop 2 = content
    rw [← htwo, List.drop_left]

theorem element_outside_iff (content : List UInt8) :
    (element idSequence content).length < 127 ∨ 129 < (element idSequence content).length ↔
      content.length < 125 ∨ 128 ≤ content.length := by
  by_cases hshort : content.length < 128
  · rw [element_short_length idSequence hshort]
    omega
  · rw [element_long_length idSequence (by omega)]
    omega

/-- Outside of 127 to 129 octets the content is read at its place. -/
theorem isDerPrivate_element {content : List UInt8}
    (hfit : (element idSequence content).length < 65536)
    (hsize : (element idSequence content).length < 127 ∨
      129 < (element idSequence content).length) :
    ∃ pos : UInt8, pos.toNat ≤ 4 ∧ (element idSequence content).drop pos.toNat = content ∧
      isDerPrivate (element idSequence content)
        (UInt16.ofNat (element idSequence content).length) =
          derContent (element idSequence content) pos := by
  rcases (element_outside_iff content).mp hsize with hshort | hlong
  · refine ⟨2, by decide, ?_, isDerPrivate_short hshort⟩
    rw [element_short idSequence (by omega)]
    rfl
  · exact isDerPrivate_long hlong hfit

theorem isDerPrivate_private {p : List UInt8} (hfit : p.length < 65536)
    (hsize : p.length < 127 ∨ 129 < p.length) (h : IsECPrivateKey p) :
    isDerPrivate p (UInt16.ofNat p.length) = some 1 := by
  obtain ⟨secret, rest, rfl⟩ := h
  obtain ⟨pos, hpos, hdrop, heq⟩ := isDerPrivate_element hfit hsize
  rw [heq]
  have hcontent : (element idSequence (element idInteger [1] ++
      (element idOctetString secret ++ rest))).drop pos.toNat =
        [idInteger, 1, 1, idOctetString] ++ (lengthOctets secret.length ++ secret ++ rest) := by
    rw [hdrop]
    simp [element, lengthOctets]
  exact derContent_private hpos hcontent

theorem isDerPrivate_public {p : List UInt8} (hfit : p.length < 65536)
    (hsize : p.length < 127 ∨ 129 < p.length) (h : IsSubjectPublicKeyInfo p) :
    isDerPrivate p (UInt16.ofNat p.length) = some 0 := by
  obtain ⟨algorithm, rest, rfl⟩ := h
  obtain ⟨pos, hpos, hdrop, heq⟩ := isDerPrivate_element hfit hsize
  rw [heq]
  exact derContent_public hdrop

/-- **The classification.** A key that fits into the buffer is told apart exactly when its encoding
    is not of 127, 128 or 129 octets. -/
theorem isDerPrivate_classifies_iff {p : List UInt8} (hfit : p.length ≤ 65535)
    (hkey : IsECPrivateKey p ∨ IsSubjectPublicKeyInfo p) :
    ClassifiedAs p (isDerPrivate p (UInt16.ofNat p.length)) ↔ p.length < 127 ∨ 129 < p.length := by
  constructor
  · intro h
    by_contra hsize
    obtain ⟨content, rfl⟩ : ∃ content, p = element idSequence content := by
      rcases hkey with ⟨secret, rest, hp⟩ | ⟨algorithm, rest, hp⟩
      · exact ⟨_, hp⟩
      · exact ⟨_, hp⟩
    have hcontent := mt (element_outside_iff content).mpr hsize
    rw [isDerPrivate_outside (by omega) (by omega)] at h
    rcases hkey with hprivate | hpublic
    · exact nomatch h.1 hprivate
    · exact nomatch h.2 hpublic
  · intro hsize
    exact ⟨isDerPrivate_private (by omega) hsize, isDerPrivate_public (by omega) hsize⟩

/-- The key of a secret of one octet. -/
theorem isDerPrivate_classifies_shortKey :
    let p := element idSequence (element idInteger [1] ++ (element idOctetString [0x2a] ++ []))
    ClassifiedAs p (isDerPrivate p (UInt16.ofNat p.length)) ↔ p.length < 127 ∨ 129 < p.length :=
  isDerPrivate_classifies_iff (by decide) (Or.inl ⟨[0x2a], [], rfl⟩)

/-- The content of a private key whose secret has 120 octets. -/
def content125 : List UInt8 :=
  element idInteger [1] ++ (element idOctetString (List.replicate 120 0x11) ++ [])

theorem content125_length : content125.length = 125 := by
  have hsecret : (List.replicate 120 (0x11 : UInt8)).length = 120 := List.length_replicate
  rw [content125, List.length_append, List.length_append, element_short_length _ (by decide),
    element_short_length _ (by omega), hsecret]
  rfl

theorem isDerPrivate_misreads_content125 :
    (element idSequence content125).length ≤ 65535 ∧
      IsECPrivateKey (element idSequence content125) ∧
      ¬ ClassifiedAs (element idSequence content125) (isDerPrivate (element idSequence content125)
        (UInt16.ofNat (element idSequence content125).length)) := by
  have hlen := content125_length
  have hkey : IsECPrivateKey (element idSequence content125) := ⟨List.replicate 120 0x11, [], rfl⟩
  refine ⟨?_, hkey, fun h => ?_⟩
  · rw [element_short_length _ (by omega)]
    omega
  · rw [isDerPrivate_outside (by omega) (by omega)] at h
    exact nomatch h.1 hkey

/-! ## Reads -/

/-- The reads of the content from `pos` stay inside: the tag, and for an INTEGER its length and what
    is found behind it, in the arithmetic of `unsigned char`. -/
def ContentInside (p : List UInt8) (pos : Nat) : Prop :=
  pos < p.length ∧
    (p[pos]? = some idInteger →
      ∃ intLen, p[pos + 1]? = some intLen ∧ (pos + 2 + intLen.toNat) % 256 < p.length)

/-- The reads of a key stay inside: the first octet and, behind the tag of a SEQUENCE, the length octet
    and the content, whose place follows from the length octet and from the size of the buffer. -/
def KeyInside (p : List UInt8) : Prop :=
  ∃ id, p[0]? = some id ∧
    (id = idSequence → ∃ initLen, p[1]? = some initLen ∧
      ContentInside p
        (if p.length < 127 ∧ initLen.toNat < 128 then 2 else 2 + initLen.toNat % 128))

theorem derContent_isSome_iff {p : List UInt8} {pos : UInt8} (hpos : pos.toNat ≤ 129) :
    (derContent p pos).isSome ↔ ContentInside p pos.toNat := by
  have hone : (pos + 1).toNat = pos.toNat + 1 :=
    toNat_add_of_lt (by show pos.toNat + 1 < 256; omega)
  have hbehind : ∀ intLen : UInt8,
      (pos + 2 + intLen).toNat = (pos.toNat + 2 + intLen.toNat) % 256 := by
    intro intLen
    rw [UInt8.toNat_add, UInt8.toNat_add]
    show ((pos.toNat + 2) % 256 + intLen.toNat) % 256 = _
    omega
  rw [ContentInside, derContent, hone]
  cases hid : p[pos.toNat]? with
  | none =>
      have hout := List.getElem?_eq_none_iff.mp hid
      exact iff_of_false (by simp) (fun h => absurd h.1 (by omega))
  | some id =>
      have hin := (List.getElem?_eq_some_iff.mp hid).1
      by_cases hint : id = idInteger
      · subst hint
        cases hlen : p[pos.toNat + 1]? with
        | none => simp
        | some intLen =>
            simp only [Option.bind_eq_bind, Option.bind_some, if_true, hbehind]
            cases hstring : p[(pos.toNat + 2 + intLen.toNat) % 256]? with
            | none =>
                have hout := List.getElem?_eq_none_iff.mp hstring
                refine iff_of_false (by simp) (fun h => ?_)
                obtain ⟨l, hl, hlt⟩ := h.2 trivial
                cases hl
                omega
            | some id' =>
                have hlt := (List.getElem?_eq_some_iff.mp hstring).1
                exact iff_of_true rfl ⟨hin, fun _ => ⟨intLen, rfl, hlt⟩⟩
      · simp only [Option.bind_eq_bind, Option.bind_some, if_neg hint]
        exact iff_of_true rfl ⟨hin, fun h => absurd (Option.some.inj h) hint⟩

/-- **The reads.** On a buffer of its length IS_DER_PRIVATE reads only inside exactly when the reads
    that the content of the buffer asks for stay inside. -/
theorem isDerPrivate_isSome_iff {p : List UInt8} (hfit : p.length ≤ 65535) :
    (isDerPrivate p (UInt16.ofNat p.length)).isSome ↔ KeyInside p := by
  have hform : UInt16.ofNat p.length < 127 ↔ p.length < 127 := length_lt_127_iff (by omega)
  generalize UInt16.ofNat p.length = length at hform
  cases p with
  | nil => exact iff_of_false (by simp [isDerPrivate]) (by simp [KeyInside])
  | cons id p =>
      by_cases hid : id = idSequence
      · subst hid
        cases p with
        | nil => exact iff_of_false (by simp [isDerPrivate]) (by simp [KeyInside])
        | cons initLen p =>
            have hlong : (2 + (initLen &&& 0x7f)).toNat = 2 + initLen.toNat % 128 := by
              rw [UInt8.toNat_add, and_0x7f_toNat]
              show (2 + _) % 256 = _
              omega
            simp only [isDerPrivate_sequence, hform, and_0x80_eq_zero_iff]
            have hinside : KeyInside (idSequence :: initLen :: p) ↔
                ContentInside (idSequence :: initLen :: p)
                  (if (idSequence :: initLen :: p).length < 127 ∧ initLen.toNat < 128 then 2
                    else 2 + initLen.toNat % 128) := by
              simp [KeyInside]
            rw [hinside]
            split
            · exact derContent_isSome_iff (by decide)
            · rw [← hlong]
              exact derContent_isSome_iff (by omega)
      · exact iff_of_true (by simp [isDerPrivate, hid]) ⟨id, rfl, fun h => absurd h hid⟩

/-- A SEQUENCE tag alone is read behind. -/
theorem isDerPrivate_isSome_tag :
    (isDerPrivate [idSequence] (UInt16.ofNat [idSequence].length)).isSome ↔
      KeyInside [idSequence] :=
  isDerPrivate_isSome_iff (by decide)

theorem isDerPrivate_reads_behind :
    ¬ ∀ p : List UInt8, p.length ≤ 65535 → (isDerPrivate p (UInt16.ofNat p.length)).isSome := by
  intro h
  exact absurd (h [] (by decide)) (by decide)

end SrxNote.Crypto
