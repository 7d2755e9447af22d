import NextKey.Engine.EnglishProtection

/-!
# Tone placement

Model of `ComputeTonePosition` in `core/engine/Phonotactics.cpp` and of `FindToneTarget`, which
builds its input from the buffer: the rendered vowels outside the `gi`/`qu` clusters and the rendered
coda, both without case.
-/

namespace NextKey

/-- Vowels seen by the tone placement, and the bound of the source's stack buffers
    (C++ `kVowelCap`). -/
def kVowelCap : Nat := 16

/-- Rendered vowel to base and modifier (C++ `Decompose`). -/
def decompose : Char → Option (Char × Modifier)
  | 'a' => some ('a', .none)
  | 'ă' => some ('a', .breve)
  | 'â' => some ('a', .circumflex)
  | 'e' => some ('e', .none)
  | 'ê' => some ('e', .circumflex)
  | 'i' => some ('i', .none)
  | 'o' => some ('o', .none)
  | 'ô' => some ('o', .circumflex)
  | 'ơ' => some ('o', .horn)
  | 'u' => some ('u', .none)
  | 'ư' => some ('u', .horn)
  | 'y' => some ('y', .none)
  | _ => none

/-- Entry of the diphthong table for two base vowels. -/
def diphthongRule (modernOrtho : Bool) (b0 b1 : Char) : DiphthongRule :=
  match diphthongVowelIndex b0, diphthongVowelIndex b1 with
  | some i, some j => diphthongTable modernOrtho i j
  | _, _ => .noRule

/-- Placement by the diphthong and triphthong rules, or on the rightmost vowel (steps P3 and P4 of
    C++ `ComputeTonePosition`; no vowel is modified here). -/
def diphthongPosition (bases : List Char) (hasCoda modernOrtho : Bool) : Nat :=
  let count := bases.length
  let v i := bases.getD i '\x00'
  if count < 2 then count - 1
  else if modernOrtho ∧ 3 ≤ count ∧ isTriphthong (v (count - 3)) (v (count - 2)) (v (count - 1)) then
    count - 2
  else if count = 3 ∧ isBareSmartTriphthongTail (v 0) (v 1) (v 2) then count - 1
  else
    -- the first two of three vowels when these have a rule, else the last two
    let shifted := decide (3 ≤ count) &&
      diphthongRule modernOrtho (v (count - 3)) (v (count - 2)) != .noRule
    let firstPos := if shifted then count - 3 else count - 2
    let lastPos := firstPos + 1
    match diphthongRule modernOrtho (v firstPos) (v lastPos) with
    | .codaAware =>
      if shifted ∧ v (count - 1) = v (count - 2) then firstPos
      else if lastPos + 1 < count ∨ hasCoda then lastPos
      else firstPos
    | .first => firstPos
    | .second => lastPos
    | .noRule => count - 1

/-- Index of the vowel that takes the tone: the last horn, else the first circumflex or breve, else
    by the diphthong rules (C++ `ComputeTonePosition`). -/
def computeTonePosition (vowelSeq coda : List Char) (modernOrtho : Bool) : Option Nat :=
  let vowels := (vowelSeq.filterMap decompose).take kVowelCap
  let modAt i := (vowels.getD i ('\x00', .none)).2
  if vowels = [] then none
  else
    match lastIdx? vowels.length fun i => modAt i == .horn with
    | some i => some i
    | none =>
      match firstIdx? vowels.length fun i => modAt i == .circumflex || modAt i == .breve with
      | some i => some i
      | none => some (diphthongPosition (vowels.map (·.1)) (!coda.isEmpty) modernOrtho)

variable [WideLocale]

/-- Indices of the vowels outside the onset clusters, at most `kVowelCap` of them. -/
def toneVowelIdxs (states : List CharState) : List Nat :=
  ((List.range states.length).filter fun i =>
    (charAt states i).isVowel && !isClusterConsonant states i &&
      compose { charAt states i with tone := .none, isUpper := false } != '\x00').take kVowelCap

/-- The vowel that should carry the tone (C++ `TypingEngine::FindToneTarget`). -/
def findToneTarget (modernOrtho : Bool) (states : List CharState) : Option Nat :=
  let vowelStateIdx := toneVowelIdxs states
  match vowelStateIdx.getLast? with
  | none => none
  | some last =>
    let vowelSeq := vowelStateIdx.map fun i =>
      compose { charAt states i with tone := .none, isUpper := false }
    let coda := (((states.drop (last + 1)).map fun s => compose { s with isUpper := false }).filter
      (· ≠ '\x00')).take kVowelCap
    match computeTonePosition vowelSeq coda modernOrtho with
    | some vowelIdx => vowelStateIdx[vowelIdx]?
    | none => none

end NextKey
