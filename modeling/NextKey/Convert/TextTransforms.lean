import Mathlib.Data.List.Basic
import NextKey.Output.CodeTableStrings

/-!
# Case and mark transformations of strings

Model of `RemoveDiacritics`, `ToUpper`, `ToLower`, `ToSentenceCase` and `ToTitleCase` in
`core/engine/CodeTableConverter.cpp`. Each goes through a string unit by unit; the last two carry a flag.
-/

namespace NextKey

/-- A capital letter of the ranges that the case conversions name. -/
def isCapitalViet (ch : UInt16) : Bool :=
  decide (0xC0 ≤ ch ∧ ch ≤ 0xDE ∧ ch ≠ 0xD7) ||
    [0x102, 0x110, 0x128, 0x168, 0x1A0, 0x1AF].contains ch ||
    decide (0x1EA0 ≤ ch ∧ ch ≤ 0x1EF9 ∧ ch.toNat % 2 = 0)

namespace CodeTableConverter

/-- C++ `IsAlpha` -/
def IsAlpha (ch : UInt16) : Bool :=
  decide (0x41 ≤ ch ∧ ch ≤ 0x5A) || decide (0x61 ≤ ch ∧ ch ≤ 0x7A) ||
    decide (0xC0 ≤ ch ∧ ch ≤ 0x24F) || decide (0x1EA0 ≤ ch ∧ ch ≤ 0x1EF9)

end CodeTableConverter

open CodeTableConverter (IsAlpha IsCombiningMark)

/-- ASCII characters, combining marks, and the no-break space, `¡`, `¯` and `°`. -/
def hasAsciiCase (ch : UInt16) : Bool :=
  decide (ch < 0x80) || IsCombiningMark ch || [0xA0, 0xA1, 0xAF, 0xB0].contains ch

/-- The C library's wide characters. In every locale the characters of `hasAsciiCase` have the case they
    have in the `"C"` locale, a capital is its own capital, and no letter and no combining mark is white
    space. -/
class WideChars extends WideCase where
  /-- `iswspace` -/
  iswspace : UInt16 → Bool
  towlower_eq : ∀ ch, hasAsciiCase ch → towlower ch = WideCase.ascii.towlower ch
  towupper_eq : ∀ ch, hasAsciiCase ch → towupper ch = WideCase.ascii.towupper ch
  towupper_capitalViet : ∀ ch, isCapitalViet ch → towupper ch = ch
  iswspace_letter : ∀ ch, IsAlpha ch ∨ IsCombiningMark ch → iswspace ch = false

/-- The `"C"` locale. -/
@[reducible] def WideChars.ascii : WideChars where
  toWideCase := .ascii
  iswspace ch := ch == 0x20 || decide (0x09 ≤ ch ∧ ch ≤ 0x0D)
  towlower_eq _ _ := rfl
  towupper_eq _ _ := rfl
  towupper_capitalViet ch h := by
    apply if_neg
    rintro ⟨hle, hge⟩
    simp [isCapitalViet] at h
    grind
  iswspace_letter ch h := by
    simp only [IsAlpha, IsCombiningMark, Bool.or_eq_true, decide_eq_true_eq, beq_iff_eq] at h
    simp only [Bool.or_eq_false_iff, beq_eq_false_iff_ne, decide_eq_false_iff_not]
    grind

namespace CodeTableConverter

/-- The base letter of each row of `kTonedVowel` (C++ `rowBase`). -/
def rowBase : WText :=
  [0x61, 0x61, 0x61, 0x65, 0x65, 0x69, 0x6F, 0x6F, 0x6F, 0x75, 0x75, 0x79]

/-- The letters with a modifier and no tone, and what they are without it. -/
def baseModified : List (UInt16 × UInt16) :=
  [(0xE2, 0x61), (0xC2, 0x41), (0x103, 0x61), (0x102, 0x41), (0xEA, 0x65), (0xCA, 0x45),
   (0xF4, 0x6F), (0xD4, 0x4F), (0x1A1, 0x6F), (0x1A0, 0x4F), (0x1B0, 0x75), (0x1AF, 0x55),
   (0x111, 0x64), (0x110, 0x44)]

section Locale

variable [WideCase]

/-- What the loops of `GetDiacriticsMap` write, in their order. -/
def diacriticsWrites : List (UInt16 × UInt16) :=
  (kTonedVowel.zip rowBase).flatMap (fun (row, base) =>
    row.flatMap fun c =>
      [(unitOf c, base), (ToUpperVietnamese (unitOf c), WideCase.towupper base)]) ++ baseModified

/-- C++ `GetDiacriticsMap`: the last write to a key stands -/
def GetDiacriticsMap (ch : UInt16) : Option UInt16 := diacriticsWrites.reverse.lookup ch

/-- One step of `RemoveDiacritics`. -/
def bare (ch : UInt16) : UInt16 := (GetDiacriticsMap ch).getD ch

/-- C++ `RemoveDiacritics` -/
def RemoveDiacritics (input : WText) : WText := input.map bare

/-- C++ `ToUpper` -/
def ToUpper (input : WText) : WText := input.map ToUpperVietnamese

/-- C++ `ToLower` -/
def ToLower (input : WText) : WText := input.map ToLowerVietnamese

/-- The loop of `ToSentenceCase` and `ToTitleCase`: the first letter after the flag is set is made a
    capital, every other letter small. -/
def capitalize (flag : Bool → UInt16 → Bool) : Bool → WText → WText
  | _, [] => []
  | start, ch :: rest =>
    if start && IsAlpha ch then ToUpperVietnamese ch :: capitalize flag false rest
    else (if IsAlpha ch then ToLowerVietnamese ch else ch) :: capitalize flag (flag start ch) rest

/-- `.`, `!`, `?` or the end of a line -/
def endsSentence (ch : UInt16) : Bool := ch == 0x2E || ch == 0x21 || ch == 0x3F || ch == 0x0A

/-- C++ `ToSentenceCase` -/
def ToSentenceCase (input : WText) : WText :=
  capitalize (fun atSentenceStart ch => atSentenceStart || endsSentence ch) true input

end Locale

/-- C++ `ToTitleCase` -/
def ToTitleCase [WideChars] (input : WText) : WText :=
  capitalize (fun _ ch => WideChars.iswspace ch) true input

/-- Capitals do not change the length. -/
@[simp] lemma length_capitalize [WideCase] (flag start) (input : WText) :
    (capitalize flag start input).length = input.length := by
  induction input generalizing start with
  | nil => rfl
  | cons ch rest ih =>
    unfold capitalize
    split <;> simp [ih]

section Lengths

variable [WideChars] (input : WText)

/-- Nor does taking the marks off. -/
@[simp] lemma length_RemoveDiacritics : (RemoveDiacritics input).length = input.length :=
  List.length_map _

/-- Nor does the upper case. -/
@[simp] lemma length_ToUpper : (ToUpper input).length = input.length := List.length_map _

/-- Nor does the lower case. -/
@[simp] lemma length_ToLower : (ToLower input).length = input.length := List.length_map _

/-- Nor does the case of sentences. -/
@[simp] lemma length_ToSentenceCase : (ToSentenceCase input).length = input.length :=
  length_capitalize ..

/-- Nor does the case of titles. -/
@[simp] lemma length_ToTitleCase : (ToTitleCase input).length = input.length :=
  length_capitalize ..

end Lengths

end CodeTableConverter

end NextKey
