import NextKey.Engine.Helpers

/-!
# Engine state

Model of the fields of `TypingEngine` (`core/engine/TypingEngine.h`) and of the operations of
`core/engine/TypingEngine.cpp` the handlers share: appending and erasing keystrokes, moving the tone,
the automatic `ươ`, the spell state and the speculative validation of a modifier. Operations that
touch `states_` alone are functions on buffers. The configuration never changes while a word is
typed, so it is a parameter and not a field.
-/

namespace NextKey

/-- The mutable fields of C++ `TypingEngine`; the defaults are what `Reset` leaves. -/
structure EngineState where
  states : List CharState := []
  /-- Keystrokes behind the buffer, without those a double press consumed. -/
  rawInput : List Char := []
  /-- Every keystroke of the word. -/
  escRawHistory : List Char := []
  /-- The buffer is not a syllable. -/
  spellCheckDisabled : Bool := false
  qc : QuickConsonantState := {}
  escape : EscapeKind := .none
  /-- Key behind a quick start consonant; `none` for the source's 0. -/
  quickStartKey : Option Char := none
  engProt : EnglishProtectionState := {}
  deriving DecidableEq, Repr

/-- Move the tone and its key from one vowel to another. -/
def moveTone (states : List CharState) (src dst : Nat) : List CharState :=
  let s := charAt states src
  (states.modify dst fun t => { t with tone := s.tone, toneRawIdx := s.toneRawIdx }).modify src
    fun t => { t with tone := .none, toneRawIdx := none }

/-- Move the tone from one vowel to another and leave its key index behind. -/
def moveToneOnly (states : List CharState) (src dst : Nat) : List CharState :=
  let s := charAt states src
  (states.modify dst fun t => { t with tone := s.tone }).modify src fun t => { t with tone := .none }

/-- C++ `TypingEngine::RelocateToneToHornVowel`. -/
def relocateToneToHornVowel (states : List CharState) : List CharState :=
  let hornIdx := lastIdx? states.length fun i => (charAt states i).isVowel && (charAt states i).isHorn
  let tonedIdx := lastIdx? states.length fun i => (charAt states i).isVowel && (charAt states i).hasTone
  match hornIdx, tonedIdx with
  | some h, some t =>
    let mod := (charAt states t).mod
    if h ≠ t ∧ (mod = .none ∨ mod = .horn) ∧ ¬hasConsonantBetween states t h then
      moveToneOnly states t h
    else states
  | _, _ => states

/-- Whether `u` at an index is the glide of `qu` (the guard of C++ `ApplyAutoUO`). -/
def isQUGlide (states : List CharState) (i : Nat) : Bool :=
  decide (0 < i) && (charAt states i).base == 'u' && (charAt states (i - 1)).base == 'q'

/-- An index into the raw input after the entry at `idx` is erased. -/
def shiftIdx (idx i : Nat) : Nat := if idx < i then i - 1 else i

/-- Shift the indices of a state after the entry at `idx` is erased. -/
def CharState.eraseRaw (idx : Nat) (s : CharState) : CharState :=
  { s with rawIdx := shiftIdx idx s.rawIdx, toneRawIdx := s.toneRawIdx.map (shiftIdx idx) }

namespace EngineState

/-- C++ `TypingEngine::ProcessChar(keyChar, lower, isUpper)`. -/
def processChar (st : EngineState) (lower : Char) (isUpper : Bool) : EngineState :=
  { st with states :=
      st.states ++ [{ base := lower, isUpper := isUpper, rawIdx := st.rawInput.length - 1 }] }

/-- Remove a consumed keystroke and shift the indices after it
    (C++ `TypingEngine::EraseConsumedRaw`). -/
def eraseConsumedRaw (st : EngineState) (idx : Nat) : EngineState :=
  if st.rawInput.length ≤ idx then st
  else
    { st with
      rawInput := st.rawInput.eraseIdx idx
      states := st.states.map (CharState.eraseRaw idx) }

end EngineState

section Locale
variable [WideLocale]

/-- C++ `TypingEngine::RelocateToneToTarget`. -/
def relocateToneToTarget (cfg : TypingConfig) (states : List CharState) : List CharState :=
  match findTonedVowelIndex states with
  | none => states
  | some tonedIdx =>
    match findToneTarget cfg.modernOrtho states with
    | none => states
    | some targetIdx =>
      if targetIdx = tonedIdx then states
      else if hasConsonantBetween states tonedIdx targetIdx then states
      else if isToneRelocBlockedByP4 states targetIdx cfg.modernOrtho then states
      else moveTone states tonedIdx targetIdx

/-- One round of the scan of `ApplyAutoUO`: `uơ` becomes `ươ`, `ưo` becomes `ươ` and takes the
    tone. -/
def autoUOAt (cfg : TypingConfig) (states : List CharState) (i : Nat) : List CharState :=
  if isQUGlide states i then states
  else
    let states :=
      if (charAt states i).base = 'u' ∧ (charAt states i).mod = .none ∧
          (charAt states (i + 1)).base = 'o' ∧ (charAt states (i + 1)).mod = .horn then
        setMod states i .horn
      else states
    if (charAt states i).base = 'u' ∧ (charAt states i).mod = .horn ∧
        (charAt states (i + 1)).base = 'o' ∧ (charAt states (i + 1)).mod = .none then
      relocateToneToTarget cfg (setMod states (i + 1) .horn)
    else states

/-- C++ `TypingEngine::ApplyAutoUO`, over the last four positions. -/
def applyAutoUO (cfg : TypingConfig) (states : List CharState) : List CharState :=
  ((List.range (states.length - 2)).drop (states.length - 4)).foldl (autoUOAt cfg) states

/-- The tone is grave, hook or tilde before a stop coda (C++ `TypingEngine::IsToneStopCodaMismatch`). -/
def isToneStopCodaMismatch (states : List CharState) : Bool :=
  hasStopFinalCoda states &&
    match states.find? (·.hasTone) with
    | some s => s.tone == .grave || s.tone == .hook || s.tone == .tilde
    | none => false

/-- C++ `TypingEngine::WouldModifierKeyMatchExclusion`. -/
def wouldModifierKeyMatchExclusion (cfg : TypingConfig) (states : List CharState) (lower : Char) :
    Bool :=
  let any mod bases := wouldAnyModifierMatchExclusion states cfg.spellExclusions mod bases
  if lower = 'd' ∨ lower = '9' then wouldStrokeDMatchExclusion states cfg.spellExclusions
  else if lower = 'w' then any .horn ['u', 'o'] || any .breve ['a']
  else if lower = 'a' ∨ lower = 'e' ∨ lower = 'o' ∨ lower = '6' then any .circumflex ['a', 'e', 'o']
  else if lower = '7' then any .horn ['u', 'o']
  else if lower = '8' then any .breve ['a']
  else false

/-- The buffer a speculation validates: the modifier applied, and a sister circumflex cleared. -/
def speculateMod (states : List CharState) (targetIdx : Nat) (newMod : Modifier)
    (clearCircumflexIdx : Option Nat) : List CharState :=
  let modded := setMod states targetIdx newMod
  match clearCircumflexIdx with
  | some k => if (charAt modded k).mod = .circumflex then setMod modded k .none else modded
  | none => modded

/-- Whether a speculated buffer is accepted: not invalid, or with a tone to be corrected. -/
def acceptSpeculation (cfg : TypingConfig) (states : List CharState) : Bool :=
  Phonology.validateSyllableState states cfg.allowZwjf != .invalid || isToneStopCodaMismatch states

/-- C++ `TypingEngine::WouldBeValidSyllable`. -/
def wouldBeValidSyllable (cfg : TypingConfig) (states : List CharState) (targetIdx : Nat)
    (newMod : Modifier) (clearCircumflexIdx : Option Nat) (speculateRelocateTone : Bool) : Bool :=
  if ¬cfg.spellCheckEnabled then true
  else if states.length ≤ targetIdx then true
  else if speculateRelocateTone then
    if kVowelCap < states.length then true
    else
      let cleared := match clearCircumflexIdx with
        | some k => if (charAt states k).mod = .circumflex then
            setMod (setMod states targetIdx newMod) k .none
          else setMod states targetIdx newMod
        | none => setMod states targetIdx newMod
      acceptSpeculation cfg (relocateToneToTarget cfg cleared)
  else acceptSpeculation cfg (speculateMod states targetIdx newMod clearCircumflexIdx)

/-- C++ `TypingEngine::ShouldRejectModifier`. -/
def shouldRejectModifier (cfg : TypingConfig) (states : List CharState) (targetIdx : Nat)
    (newMod : Modifier) (key : Char) : Bool :=
  cfg.spellCheckEnabled && !wouldBeValidSyllable cfg states targetIdx newMod none false &&
    !wouldModifierKeyMatchExclusion cfg states key

namespace EngineState

/-- C++ `TypingEngine::ProcessChar(keyChar)`. -/
def processKey (st : EngineState) (c : Char) : EngineState :=
  st.processChar (towlower c) (iswupper c)

/-- C++ `TypingEngine::UpdateSpellState`. -/
def updateSpellState (st : EngineState) (cfg : TypingConfig) : EngineState :=
  { st with spellCheckDisabled := updateSpellCheck st.states cfg }

/-- C++ `RecalcEnglishBias` followed by `CheckZwjfInitialBias` in the Telex modes. -/
def recalcBias (st : EngineState) (cfg : TypingConfig) : EngineState :=
  let prot := recalcEnglishBias st.states
  { st with engProt := if cfg.isTelexMode then checkZwjfInitialBias st.states cfg prot else prot }

/-- C++ `TypingEngine::Peek`. -/
def peek (st : EngineState) : List Char := composeAll st.states

/-- C++ `TypingEngine::PeekRaw`. -/
def peekRaw (st : EngineState) : List Char := st.escRawHistory

/-- C++ `TypingEngine::Count`. -/
def count (st : EngineState) : Nat := st.states.length

end EngineState

end Locale

end NextKey
