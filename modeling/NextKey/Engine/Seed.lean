import NextKey.Engine.Typing

/-!
# Seeding the engine

Model of `DecomposeVietChar` in `core/engine/VietnameseTables.h` and of `TypingEngine::SeedFromText` and
`IsEnglishWord`: the engine is filled from a word that is already in a document, as if it had been
typed. Whether a word can seed the engine depends on its letters alone.
-/

namespace NextKey

section Locale
variable [WideLocale]

/-- Vietnamese-aware lowercase conversion (C++ `ToLowerVietnamese`). -/
def toLowerVietnamese (ch : Char) : Char :=
  let n := ch.toNat
  if 0xC0 ≤ n ∧ n ≤ 0xD6 then Char.ofNat (n + 0x20)
  else if 0xD8 ≤ n ∧ n ≤ 0xDE then Char.ofNat (n + 0x20)
  else if ch = 'Ă' then 'ă'
  else if ch = 'Đ' then 'đ'
  else if ch = 'Ơ' then 'ơ'
  else if ch = 'Ư' then 'ư'
  else if 0x1EA0 ≤ n ∧ n ≤ 0x1EF9 ∧ n % 2 = 0 then Char.ofNat (n + 1)
  else towlower ch

/-- Base and modifier of an untoned vowel (the lambda `decomposeToneBase`). -/
def decomposeToneBase : Char → Option (Char × Modifier)
  | 'a' => some ('a', .none)
  | 'e' => some ('e', .none)
  | 'i' => some ('i', .none)
  | 'o' => some ('o', .none)
  | 'u' => some ('u', .none)
  | 'y' => some ('y', .none)
  | 'â' => some ('a', .circumflex)
  | 'ă' => some ('a', .breve)
  | 'ê' => some ('e', .circumflex)
  | 'ô' => some ('o', .circumflex)
  | 'ơ' => some ('o', .horn)
  | 'ư' => some ('u', .horn)
  | _ => none

/-- Tone of a column of `kTonedVowel` (the second `switch` of C++ `SeedFromText`). -/
def toneOfIndex : Nat → Tone
  | 0 => .acute
  | 1 => .grave
  | 2 => .hook
  | 3 => .tilde
  | 4 => .dot
  | _ => .none

/-- Base, modifier, tone and case of a Vietnamese letter; `none` for a character that is not a letter
    (C++ `DecomposeVietChar`). -/
def decomposeVietChar (ch : Char) : Option (Char × Modifier × Tone × Bool) :=
  let lower := toLowerVietnamese ch
  let isUpper := lower != ch
  if lower = 'đ' then some ('d', .stroke, .none, isUpper)
  else
    match kTonedVowel.findIdx? (·.contains lower) with
    | some i =>
      (decomposeToneBase (kToneBase.getD i '\x00')).map fun (base, mod) =>
        (base, mod, toneOfIndex ((kTonedVowel.getD i []).idxOf lower), isUpper)
    | none =>
      match decomposeToneBase lower with
      | some (base, mod) => some (base, mod, .none, isUpper)
      | none => if 'a' ≤ lower ∧ lower ≤ 'z' then some (lower, .none, .none, isUpper) else none

namespace EngineState

/-- One round of the loop of `SeedFromText`: the letter becomes a state, and its base the keystroke
    behind it. -/
def seedChar (st : EngineState) (ch : Char) : Option EngineState :=
  (decomposeVietChar ch).map fun (base, mod, tone, isUpper) =>
    { st with
      states := st.states ++
        [{ base := base, mod := mod, tone := tone, isUpper := isUpper, rawIdx := st.rawInput.length }]
      rawInput := st.rawInput ++ [if isUpper then towupper base else base] }

/-- C++ `TypingEngine::SeedFromText`: the engine is reset first, and stays reset when a character is
    not a letter. -/
def seedFromText (cfg : TypingConfig) (text : List Char) : EngineState × Bool :=
  match text.foldlM seedChar {} with
  | none => ({}, false)
  | some st =>
    let st := st.updateSpellState cfg
    ({ st with engProt := checkEnglishBias st.states st.engProt }, true)

/-- C++ `TypingEngine::IsEnglishWord` -/
def isEnglishWord (st : EngineState) : Bool := st.engProt.bias == .hardEnglish

/-- Whether a word can be taken back into a composition: it seeds a throwaway engine, and is not
    English. -/
def canRevive (cfg : TypingConfig) (word : List Char) : Bool :=
  (seedFromText cfg word).2 && !(seedFromText cfg word).1.isEnglishWord

/-- A text is accepted when each letter is. -/
lemma seedFromText_snd {cfg : TypingConfig} {text} :
    (seedFromText cfg text).2 = (text.foldlM seedChar {}).isSome := by
  unfold seedFromText
  split
  · next h => simp [h]
  · next h => simp [h]

/-- Whether a word seeds the engine does not depend on the configuration. -/
lemma seedFromText_snd_congr {cfg cfg' : TypingConfig} {text} :
    (seedFromText cfg text).2 = (seedFromText cfg' text).2 := by
  rw [seedFromText_snd, seedFromText_snd]

end EngineState

end Locale

section Ascii
attribute [local instance] WideLocale.ascii

example : (EngineState.seedFromText {} ['g', 'õ']).1.peek = ['g', 'õ'] := by decide +kernel

end Ascii

end NextKey
