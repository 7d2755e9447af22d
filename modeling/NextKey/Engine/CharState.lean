import Mathlib.Data.List.Basic

/-!
# Character states

Model of the unified types of `core/engine/TypingEngine.h`: the modifier and tone enumerations and
`CharState`, the unit the engine's buffer `states_` is made of. `wchar_t` is `Char`; the sentinel
`SIZE_MAX` of an index field is `none`.

The C library functions `towlower`, `towupper` and `iswupper` depend on the locale outside the ASCII
range, so they are the fields of a class: `WideLocale` fixes them on ASCII and leaves them free
elsewhere. `WideLocale.ascii` is the `"C"` locale, where no other character has a case.
-/

namespace NextKey

/-- The locale-dependent wide character functions of `<cwctype>`. -/
class WideLocale where
  /-- `towlower` -/
  towlower : Char → Char
  /-- `towupper` -/
  towupper : Char → Char
  /-- `iswupper` -/
  iswupper : Char → Bool
  towlower_ascii : ∀ c, c.toNat < 128 → towlower c = c.toLower
  towupper_ascii : ∀ c, c.toNat < 128 → towupper c = c.toUpper
  iswupper_ascii : ∀ c, c.toNat < 128 → iswupper c = c.isUpper

export WideLocale (towlower towupper iswupper)

/-- The `"C"` locale: only ASCII letters have a case. -/
@[reducible] def WideLocale.ascii : WideLocale where
  towlower := Char.toLower
  towupper := Char.toUpper
  iswupper := Char.isUpper
  towlower_ascii _ _ := rfl
  towupper_ascii _ _ := rfl
  iswupper_ascii _ _ := rfl

/-- Modifier type for Vietnamese vowels (C++ `Modifier`). -/
inductive Modifier where
  | none
  | circumflex
  | breve
  | horn
  | stroke
  deriving DecidableEq, Repr, Inhabited

/-- Tone type for Vietnamese (C++ `Tone`). -/
inductive Tone where
  | none
  | acute
  | grave
  | hook
  | tilde
  | dot
  deriving DecidableEq, Repr, Inhabited

/-- Internal state of one character of the word being typed (C++ `CharState`). -/
structure CharState where
  /-- Base letter, lowercase. -/
  base : Char := '\x00'
  mod : Modifier := .none
  tone : Tone := .none
  /-- Original case. -/
  isUpper : Bool := false
  /-- Created by a standalone `w`, not by a keystroke of its own letter. -/
  synthetic : Bool := false
  /-- Index into `rawInput_` when this state was created. -/
  rawIdx : Nat := 0
  /-- Index into `rawInput_` of the consumed tone key. -/
  toneRawIdx : Option Nat := none
  deriving DecidableEq, Repr, Inhabited

/-- Base letters that count as vowels (C++ `CharState::IsVowel`, on the base alone). -/
def isVowelBase (c : Char) : Bool :=
  c == 'a' || c == 'e' || c == 'i' || c == 'o' || c == 'u' || c == 'y'

namespace CharState

/-- C++ `CharState::IsVowel`. -/
def isVowel (s : CharState) : Bool := isVowelBase s.base

/-- C++ `CharState::IsD`. -/
def isD (s : CharState) : Bool := s.base == 'd'

/-- C++ `CharState::IsHorn`. -/
def isHorn (s : CharState) : Bool := s.mod == .horn

/-- C++ `CharState::HasModifier`. -/
def hasModifier (s : CharState) : Bool := s.mod != .none

/-- C++ `CharState::HasTone`. -/
def hasTone (s : CharState) : Bool := s.tone != .none

/-- C++ `CharState::IsEmpty`. -/
def isEmpty (s : CharState) : Bool := s.base == '\x00'

end CharState

/-- Vowel check on a key, either case (C++ `IsVowelChar`). -/
def isVowelChar (c : Char) : Bool :=
  isVowelBase c || c == 'A' || c == 'E' || c == 'I' || c == 'O' || c == 'U' || c == 'Y'

/-- `states[i]`; the code never reads past the end. -/
def charAt (states : List CharState) (i : Nat) : CharState := states.getD i {}

/-- The first index below `n` that satisfies `p`: a forward scan of the source. -/
def firstIdx? (n : Nat) (p : Nat → Bool) : Option Nat := (List.range n).find? p

/-- The last index below `n` that satisfies `p`: a backward scan, or a forward scan that keeps the
    latest hit. -/
def lastIdx? (n : Nat) (p : Nat → Bool) : Option Nat := (List.range n).reverse.find? p

end NextKey
