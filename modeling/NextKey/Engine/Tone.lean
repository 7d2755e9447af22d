import NextKey.Engine.State

/-!
# Tone keys

Model of the tone subsystem of `core/engine/TypingEngine.cpp`: `HandleToneFsm` with its gates (spell
check, English words, stop codas), `ProcessTone` and `ProcessClearTone`. A gate that refuses the tone
appends the key as a literal. The target the source caches between the spell gate and `ProcessTone`
is recomputed: the buffer does not change in between.
-/

namespace NextKey

variable [WideLocale]

/-- C++ `TypingEngine::ToneMatchesExclusion`. -/
def toneMatchesExclusion (cfg : TypingConfig) (states : List CharState) (targetIdx : Option Nat)
    (requestedTone : Tone) : Bool :=
  match targetIdx with
  | none => false
  | some i =>
    !cfg.spellExclusions.isEmpty &&
      wouldToneMatchExclusion states cfg.spellExclusions i
        (compose { charAt states i with tone := requestedTone })

/-- The tone gate of an invalid buffer: it stays shut unless the key escapes the tone, matches an
    exclusion, or replaces a tone and makes the buffer valid. -/
def toneSpellBlocked (cfg : TypingConfig) (states : List CharState) (requestedTone : Tone) : Bool :=
  match findToneTarget cfg.modernOrtho states with
  | none => true
  | some i =>
    let isEscape := (charAt states i).tone == requestedTone
    let matchesExclusion := toneMatchesExclusion cfg states (some i) requestedTone
    let replaced := states.modify i fun s => { s with tone := requestedTone }
    let wouldRecover := (charAt states i).hasTone &&
      Phonology.validateSyllableState replaced cfg.allowZwjf == .valid
    !isEscape && !matchesExclusion && !wouldRecover

/-- The English protection gate of a tone key: the new protection state and whether the key is a
    literal. -/
def toneEnglishGate (st : EngineState) (keyChar : Char) (isTelexTone : Bool) :
    EnglishProtectionState × Bool :=
  if st.engProt.bias = .hardEnglish then (st.engProt, true)
  else
    let (prot, insisted) :=
      if st.engProt.bias = .softEnglish then updateToneInsistence keyChar st.engProt
      else (st.engProt, true)
    let structural :=
      if isTelexTone then isHardEnglishToneContext st.states keyChar
      else hasStructuralVCVPattern st.states
    if ¬insisted then (prot, true)
    else if structural ∨ hasInvalidAdjacentVowelPair st.states then
      ({ prot with bias := .hardEnglish }, true)
    else (prot, false)

namespace EngineState

/-- Clear the tone of a vowel and erase its key from the raw input. -/
def cancelTone (st : EngineState) (i : Nat) : EngineState :=
  let untoned := { st with states := st.states.modify i fun s => { s with tone := .none } }
  match (charAt st.states i).toneRawIdx with
  | some idx =>
    let erased := untoned.eraseConsumedRaw idx
    { erased with states := erased.states.modify i fun s => { s with toneRawIdx := none } }
  | none => untoned

/-- C++ `TypingEngine::ProcessTone`; `none` when there is no vowel to put the tone on. -/
def processTone (cfg : TypingConfig) (st : EngineState) (newTone : Tone) (keyChar : Char) :
    Option EngineState :=
  match findToneTarget cfg.modernOrtho st.states with
  | none => none
  | some targetIdx =>
    if (charAt st.states targetIdx).tone = newTone then
      -- escape: the same tone again clears it and adds the key
      some { (st.cancelTone targetIdx).processKey keyChar with escape := .tone }
    else
      some { st with
        states := st.states.modify targetIdx fun s =>
          { s with tone := newTone, toneRawIdx := some (st.rawInput.length - 1) }
        escape := .none }

/-- C++ `TypingEngine::ProcessClearTone`. -/
def processClearTone (cfg : TypingConfig) (st : EngineState) : Option EngineState :=
  match findToneTarget cfg.modernOrtho st.states with
  | none => none
  | some targetIdx =>
    if (charAt st.states targetIdx).tone = .none then none
    else
      some { st with states := st.states.modify targetIdx fun s =>
        { s with tone := .none, toneRawIdx := none } }

/-- A key that was refused as a tone, appended as it is. -/
def asLiteral (cfg : TypingConfig) (st : EngineState) (lower : Char) (isUpper : Bool) :
    EngineState :=
  (st.processChar lower isUpper).updateSpellState cfg

/-- What follows a tone that was applied or escaped. -/
def afterTone (cfg : TypingConfig) (st : EngineState) : EngineState :=
  let st :=
    if st.escape = .none then { st with engProt := { st.engProt with bias := .vietnamese } }
    else st.recalcBias cfg
  { st with states := applyAutoUO cfg st.states }.updateSpellState cfg

/-- The gates of a tone key before the English protection. -/
def toneBlocked (cfg : TypingConfig) (st : EngineState) (requestedTone : Tone) (isTelexTone : Bool) :
    Bool :=
  cfg.effectiveSpellCheck && st.spellCheckDisabled && toneSpellBlocked cfg st.states requestedTone ||
    st.escape != .none ||
    isTelexTone && cfg.effectiveSpellCheck && isBlockedEnglishTone st.rawInput &&
      !toneMatchesExclusion cfg st.states (findToneTarget cfg.modernOrtho st.states) requestedTone

/-- All gates of a tone key: the new protection state and whether the key is a literal. -/
def toneGates (cfg : TypingConfig) (st : EngineState) (requestedTone : Tone) (keyChar lower : Char) :
    EnglishProtectionState × Bool :=
  let isTelexTone := decide (lower < '0' ∨ '9' < lower)
  if toneBlocked cfg st requestedTone isTelexTone then (st.engProt, true)
  else
    let (prot, isEnglish) :=
      if cfg.allowEnglishBypass then (st.engProt, false)
      else toneEnglishGate st keyChar isTelexTone
    let stopCoda := cfg.effectiveSpellCheck && !st.spellCheckDisabled &&
      (requestedTone == .grave || requestedTone == .hook || requestedTone == .tilde) &&
      hasStopFinalCoda st.states
    (prot, isEnglish || stopCoda)

/-- C++ `TypingEngine::HandleToneFsm`; the flag says whether the key was consumed. -/
def handleToneFsm (cfg : TypingConfig) (st : EngineState) (action : TypingAction)
    (keyChar lower : Char) (isUpper : Bool) : EngineState × Bool :=
  if st.states = [] then (st, false)
  else if action = .clearTone then
    if cfg.effectiveSpellCheck ∧ st.spellCheckDisabled then
      ((st.processKey keyChar).updateSpellState cfg, true)
    else
      match processClearTone cfg st with
      | some st' => (st'.updateSpellState cfg, true)
      | none => (st, false)
  else if action.toTone = .none then (st, false)
  else
    let (prot, literal) := toneGates cfg st action.toTone keyChar lower
    let st := { st with engProt := prot }
    if literal then (asLiteral cfg st lower isUpper, true)
    else
      match processTone cfg st action.toTone keyChar with
      | some st' => (afterTone cfg st', true)
      | none => (st, false)

end EngineState

end NextKey
