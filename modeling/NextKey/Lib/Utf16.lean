import Mathlib.Data.List.Basic
import Mathlib.Tactic.Lemma

/-!
# UTF-16

Texts as units of sixteen bits: a character outside the first plane is a pair of surrogates, and a
surrogate without its other half is read as U+FFFD. What was encoded is read back as it was, and in UTF-8
no text is shorter than in units of UTF-16.
-/

namespace Utf16

def isHigh (u : UInt16) : Bool := decide (0xD800 ≤ u.toNat) && decide (u.toNat < 0xDC00)

def isLow (u : UInt16) : Bool := decide (0xDC00 ≤ u.toNat) && decide (u.toNat < 0xE000)

/-- A unit that stands alone. -/
def single (u : UInt16) : Char :=
  if isHigh u || isLow u then '\uFFFD' else Char.ofNat u.toNat

/-- The two halves of a character. -/
def pair (high low : UInt16) : Char :=
  Char.ofNat (0x10000 + (high.toNat - 0xD800) * 0x400 + (low.toNat - 0xDC00))

def decode : List UInt16 → List Char
  | [] => []
  | [u] => [single u]
  | u :: v :: units =>
    if isHigh u && isLow v then pair u v :: decode units else single u :: decode (v :: units)

def encodeChar (c : Char) : List UInt16 :=
  if c.toNat < 0x10000 then [UInt16.ofNat c.toNat]
  else [UInt16.ofNat (0xD800 + (c.toNat - 0x10000) / 0x400),
    UInt16.ofNat (0xDC00 + (c.toNat - 0x10000) % 0x400)]

def encode (text : List Char) : List UInt16 := text.flatMap encodeChar

variable {c : Char} {u : UInt16} {text : List Char} {units : List UInt16}

/-- No character is a surrogate, and the last one is U+10FFFF. -/
lemma toNat_char (c : Char) : c.toNat < 0xD800 ∨ 0xDFFF < c.toNat ∧ c.toNat < 0x110000 := c.valid

/-- A number that fits a unit. -/
lemma toNat_ofNat {n : Nat} (h : n < 0x10000) : (UInt16.ofNat n).toNat = n := by
  rw [UInt16.toNat_ofNat']
  exact Nat.mod_eq_of_lt h

/-- A unit that begins no pair is read alone. -/
lemma decode_cons_of_not_high (h : isHigh u = false) : decode (u :: units) = single u :: decode units := by
  cases units with
  | nil => rfl
  | cons v units => rw [decode, h, Bool.false_and, if_neg Bool.false_ne_true]

/-- A character is read back in front of everything. -/
lemma decode_encodeChar_append : decode (encodeChar c ++ units) = c :: decode units := by
  have hc := toNat_char c
  unfold encodeChar
  split
  · next hsmall =>
    have hn := toNat_ofNat hsmall
    have hhigh : isHigh (UInt16.ofNat c.toNat) = false := by
      rw [isHigh, hn]
      simp
      omega
    have hlow : isLow (UInt16.ofNat c.toNat) = false := by
      rw [isLow, hn]
      simp
      omega
    rw [List.singleton_append, decode_cons_of_not_high hhigh, single, hhigh, hlow, hn]
    simp
  · next hlarge =>
    have hn := @toNat_ofNat (0xD800 + (c.toNat - 0x10000) / 0x400) (by omega)
    have hn' := @toNat_ofNat (0xDC00 + (c.toNat - 0x10000) % 0x400) (by omega)
    have hhigh : isHigh (UInt16.ofNat (0xD800 + (c.toNat - 0x10000) / 0x400)) = true := by
      rw [isHigh, hn]
      simp
      omega
    have hlow : isLow (UInt16.ofNat (0xDC00 + (c.toNat - 0x10000) % 0x400)) = true := by
      rw [isLow, hn']
      simp
      omega
    have hsum : 0x10000 + (0xD800 + (c.toNat - 0x10000) / 0x400 - 0xD800) * 0x400 +
        (0xDC00 + (c.toNat - 0x10000) % 0x400 - 0xDC00) = c.toNat := by omega
    show decode (_ :: _ :: units) = _
    rw [decode, hhigh, hlow, pair, hn, hn', hsum]
    simp

/-- What was encoded is read back. -/
lemma decode_encode : decode (encode text) = text := by
  induction text with
  | nil => rfl
  | cons c text ih =>
    rw [encode, List.flatMap_cons, decode_encodeChar_append]
    exact congrArg (c :: ·) ih

/-- The unit 0 is the character NUL. -/
lemma zero_not_mem_encode (h : '\x00' ∉ text) : (0 : UInt16) ∉ encode text := by
  intro hmem
  obtain ⟨c, hc, hzero⟩ := List.mem_flatMap.1 hmem
  have hvalid := toNat_char c
  unfold encodeChar at hzero
  split at hzero
  · next hsmall =>
    have hn := congrArg UInt16.toNat (List.mem_singleton.1 hzero)
    rw [toNat_ofNat hsmall] at hn
    have hnul : c = '\x00' := Char.toNat_inj.1 hn.symm
    exact h (hnul ▸ hc)
  · next hlarge =>
    rcases List.mem_cons.1 hzero with hzero | hzero
    · have hn := congrArg UInt16.toNat hzero
      rw [toNat_ofNat (by omega)] at hn
      have hn : 0 = 0xD800 + (c.toNat - 0x10000) / 0x400 := hn
      omega
    · have hn := congrArg UInt16.toNat (List.mem_singleton.1 hzero)
      rw [toNat_ofNat (by omega)] at hn
      have hn : 0 = 0xDC00 + (c.toNat - 0x10000) % 0x400 := hn
      omega

/-- A character has no more units than bytes. -/
lemma length_encodeChar_le : (encodeChar c).length ≤ c.utf8Size := by
  unfold encodeChar
  split
  · exact Char.utf8Size_pos c
  · next hlarge =>
    have hsize : c.utf8Size = 4 := by
      have hval : c.val.toNat = c.toNat := rfl
      simp only [Char.utf8Size, UInt32.le_iff_toNat_le, hval]
      rw [if_neg (by simp; omega), if_neg (by simp; omega), if_neg (by simp; omega)]
    rw [hsize]
    exact (by decide : 2 ≤ 4)

/-- A text has at least as many bytes as units. -/
lemma length_encode_le : (encode text).length ≤ (String.ofList text).utf8ByteSize := by
  induction text with
  | nil => exact Nat.zero_le _
  | cons c text ih =>
    rw [encode, List.flatMap_cons, List.length_append, String.ofList_cons, String.utf8ByteSize_append,
      String.utf8ByteSize_singleton]
    exact Nat.add_le_add length_encodeChar_le ih

end Utf16
