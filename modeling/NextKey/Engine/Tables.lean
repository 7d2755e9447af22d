import Mathlib.Data.Fin.VecNotation
import NextKey.Engine.CharState

/-!
# Vietnamese lookup tables

Model of `core/engine/VietnameseTables.h` (composition tables, diphthong tables, case conversion) and
of `TypingEngine::Compose` / `ComposeAll`, which turn the buffer into text.
-/

namespace NextKey

/-- The vowel that carries the modifier, where the alphabet has one (C++ `kModifiedVowel`, through
    `VowelBaseIndex` and `ModifierIndex`). -/
def modifiedVowel : Char → Modifier → Option Char
  | 'a', .circumflex => some 'â'
  | 'a', .breve => some 'ă'
  | 'e', .circumflex => some 'ê'
  | 'o', .circumflex => some 'ô'
  | 'o', .horn => some 'ơ'
  | 'u', .horn => some 'ư'
  | _, _ => none

/-- Untoned vowels, in the row order of `kTonedVowel` (C++ `kToneBase`). -/
def kToneBase : List Char := ['a', 'â', 'ă', 'e', 'ê', 'i', 'o', 'ô', 'ơ', 'u', 'ư', 'y']

/-- Toned vowels, one row for each untoned vowel (C++ `kTonedVowel`). -/
def kTonedVowel : List (List Char) :=
  [ ['á', 'à', 'ả', 'ã', 'ạ'],
    ['ấ', 'ầ', 'ẩ', 'ẫ', 'ậ'],
    ['ắ', 'ằ', 'ẳ', 'ẵ', 'ặ'],
    ['é', 'è', 'ẻ', 'ẽ', 'ẹ'],
    ['ế', 'ề', 'ể', 'ễ', 'ệ'],
    ['í', 'ì', 'ỉ', 'ĩ', 'ị'],
    ['ó', 'ò', 'ỏ', 'õ', 'ọ'],
    ['ố', 'ồ', 'ổ', 'ỗ', 'ộ'],
    ['ớ', 'ờ', 'ở', 'ỡ', 'ợ'],
    ['ú', 'ù', 'ủ', 'ũ', 'ụ'],
    ['ứ', 'ừ', 'ử', 'ữ', 'ự'],
    ['ý', 'ỳ', 'ỷ', 'ỹ', 'ỵ'] ]

/-- Row of a possibly modified vowel in `kTonedVowel` (C++ `ToneBaseIndex`). -/
def toneBaseIndex (ch : Char) : Option Nat := kToneBase.idxOf? ch

/-- Column of a tone in `kTonedVowel` (C++ `ToneIndex`). -/
def toneIndex : Tone → Option Nat
  | .acute => some 0
  | .grave => some 1
  | .hook => some 2
  | .tilde => some 3
  | .dot => some 4
  | .none => none

/-- Tone placement for a pair of adjacent vowels. -/
inductive DiphthongRule where
  /-- 0: no rule for this pair. -/
  | noRule
  /-- 1: on the first vowel. -/
  | first
  /-- 2: on the second vowel. -/
  | second
  /-- 3: on the first vowel without a coda, on the second with one. -/
  | codaAware
  deriving DecidableEq, Repr

/-- Row and column of a base vowel in the diphthong tables (C++ `DiphthongVowelIndex`). -/
def diphthongVowelIndex : Char → Option (Fin 6)
  | 'a' => some 0
  | 'e' => some 1
  | 'i' => some 2
  | 'o' => some 3
  | 'u' => some 4
  | 'y' => some 5
  | _ => none

open DiphthongRule in
/-- Classic placement (C++ `kDiphthongClassic`). -/
def kDiphthongClassic : Fin 6 → Fin 6 → DiphthongRule :=
  ![ ![noRule, noRule, first, first, first, first],
     ![noRule, noRule, first, first, first, noRule],
     ![first, noRule, noRule, noRule, first, noRule],
     ![codaAware, codaAware, first, noRule, first, noRule],
     ![first, first, first, noRule, noRule, codaAware],
     ![noRule, noRule, noRule, noRule, codaAware, noRule] ]

open DiphthongRule in
/-- Modern placement (C++ `kDiphthongModern`). -/
def kDiphthongModern : Fin 6 → Fin 6 → DiphthongRule :=
  ![ ![noRule, noRule, first, first, first, first],
     ![noRule, noRule, first, first, first, noRule],
     ![first, noRule, noRule, noRule, first, noRule],
     ![second, second, first, noRule, first, noRule],
     ![first, second, first, second, noRule, second],
     ![noRule, noRule, noRule, noRule, codaAware, noRule] ]

/-- The diphthong table of an orthography. -/
def diphthongTable (modernOrtho : Bool) : Fin 6 → Fin 6 → DiphthongRule :=
  if modernOrtho then kDiphthongModern else kDiphthongClassic

/-- C++ `IsTriphthong`. -/
def isTriphthong (v1 v2 v3 : Char) : Bool :=
  [('o', 'a', 'i'), ('o', 'e', 'o'), ('u', 'y', 'a'), ('u', 'y', 'u'), ('o', 'a', 'o'),
    ('o', 'a', 'y')].contains (v1, v2, v3)

/-- C++ `IsBareSmartTriphthongTail`. -/
def isBareSmartTriphthongTail (v1 v2 v3 : Char) : Bool := v1 == 'u' && v2 == 'y' && v3 == 'e'

variable [WideLocale]

/-- Strip the tone of a Vietnamese vowel, keeping base and modifier (C++ `StripTone`). -/
def stripTone (ch : Char) : Char :=
  if (toneBaseIndex ch).isSome then ch
  else
    match kTonedVowel.findIdx? (·.contains (towlower ch)) with
    | some i => kToneBase.getD i ch
    | none => ch

/-- Vietnamese-aware uppercase conversion (C++ `ToUpperVietnamese`). -/
def toUpperVietnamese (ch : Char) : Char :=
  let n := ch.toNat
  if 0xE0 ≤ n ∧ n ≤ 0xF6 then Char.ofNat (n - 0x20)
  else if 0xF8 ≤ n ∧ n ≤ 0xFE then Char.ofNat (n - 0x20)
  else if ch = 'ă' then 'Ă'
  else if ch = 'đ' then 'Đ'
  else if ch = 'ĩ' then 'Ĩ'
  else if ch = 'ũ' then 'Ũ'
  else if ch = 'ơ' then 'Ơ'
  else if ch = 'ư' then 'Ư'
  else if 0x1EA0 ≤ n ∧ n ≤ 0x1EF9 then if n % 2 = 1 then Char.ofNat (n - 1) else ch
  else towupper ch

/-- Character state to Unicode; `'\x00'` for an empty state (C++ `TypingEngine::Compose`). -/
def compose (s : CharState) : Char :=
  if s.isEmpty then '\x00'
  else if s.isD ∧ s.mod = .stroke then if s.isUpper then 'Đ' else 'đ'
  else
    let modified := if s.isVowel then (modifiedVowel s.base s.mod).getD s.base else s.base
    let toned :=
      match toneBaseIndex modified, toneIndex s.tone with
      | some ti, some si => (kTonedVowel.getD ti []).getD si modified
      | _, _ => modified
    if s.isUpper then toUpperVietnamese toned else toned

/-- The text of a buffer (C++ `TypingEngine::ComposeAll`). -/
def composeAll (states : List CharState) : List Char :=
  (states.map compose).filter (· ≠ '\x00')

end NextKey
