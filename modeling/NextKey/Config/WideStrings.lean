import Mathlib.Data.List.TakeWhile
import NextKey.Lib.Utf16
import NextKey.Macro.Case

/-!
# Wide strings in the config file

Model of the conversions of `core/WinStrings.h`. Both take a C string, so they stop at a NUL, and a
surrogate without its other half becomes U+FFFD; valid Unicode without a NUL comes back as it was.
-/

namespace NextKey

/-- C++ `WideToUtf8`, of a C string -/
def WideToUtf8 (wstr : WString) : String :=
  String.ofList (Utf16.decode (wstr.takeWhile (· != 0)))

/-- C++ `Utf8ToWide`, of a C string -/
def Utf8ToWide (str : String) : WString :=
  Utf16.encode (str.toList.takeWhile (· != '\x00'))

/-- Valid Unicode, as a C string has it. -/
def ValidWide (wstr : WString) : Prop :=
  ∃ text : List Char, '\x00' ∉ text ∧ wstr = Utf16.encode text

/-- A list without a value is taken whole up to this value. -/
lemma takeWhile_bne_eq_self {α : Type*} [DecidableEq α] {a : α} {l : List α} (h : a ∉ l) :
    l.takeWhile (· != a) = l :=
  List.takeWhile_eq_self_iff.2 fun _ hb => bne_iff_ne.2 fun heq => h (heq ▸ hb)

/-- Valid Unicode is converted character by character. -/
lemma wideToUtf8_encode {text : List Char} (h : '\x00' ∉ text) :
    WideToUtf8 (Utf16.encode text) = String.ofList text := by
  rw [WideToUtf8, takeWhile_bne_eq_self (Utf16.zero_not_mem_encode h), Utf16.decode_encode]

namespace ValidWide

variable {wstr wstr' : WString}

/-- A valid string comes back. -/
lemma utf8ToWide_wideToUtf8 (h : ValidWide wstr) : Utf8ToWide (WideToUtf8 wstr) = wstr := by
  obtain ⟨text, hnul, rfl⟩ := h
  rw [wideToUtf8_encode hnul, Utf8ToWide, String.toList_ofList, takeWhile_bne_eq_self hnul]

/-- Valid strings are told apart by their bytes. -/
lemma wideToUtf8_injective (h : ValidWide wstr) (h' : ValidWide wstr')
    (heq : WideToUtf8 wstr = WideToUtf8 wstr') : wstr = wstr' := by
  rw [← h.utf8ToWide_wideToUtf8, heq, h'.utf8ToWide_wideToUtf8]

/-- A string has no more units than bytes. -/
lemma length_le (h : ValidWide wstr) : wstr.length ≤ (WideToUtf8 wstr).utf8ByteSize := by
  obtain ⟨text, hnul, rfl⟩ := h
  rw [wideToUtf8_encode hnul]
  exact Utf16.length_encode_le

end ValidWide

end NextKey
