import NextKey.Engine.Tone
import NextKey.Engine.Modifier
import NextKey.Lib.Machine

/-!
# Typing engine

Model of the entry points of `core/engine/TypingEngine.cpp`: `PushChar` with the quick consonant rules
and the dispatch of the rule registry, `Backspace`, `Commit`, `Reset` and `Peek`. A run of the engine
is a list of `PushChar` and `Backspace` events.
-/

namespace NextKey

/-- Expansion of a quick start consonant: f to ph, j to gi, w to qu. -/
def quickStartPair : Char → Option (Char × Char)
  | 'f' => some ('p', 'h')
  | 'j' => some ('g', 'i')
  | 'w' => some ('q', 'u')
  | _ => none

/-- Expansion of a doubled consonant: cc to ch, gg to gi, nn to ng and so on. -/
def quickConsonantReplacement : Char → Char → Option Char
  | 'c', 'c' => some 'h'
  | 'g', 'g' => some 'i'
  | 'n', 'n' => some 'g'
  | 'k', 'k' => some 'h'
  | 'q', 'q' => some 'u'
  | 'p', 'p' => some 'h'
  | 't', 't' => some 'h'
  | _, _ => none

/-- Expansion of a quick end consonant: g to ng, h to nh, k to ch. -/
def quickEndPair : Char → Option (Char × Char)
  | 'g' => some ('n', 'g')
  | 'h' => some ('n', 'h')
  | 'k' => some ('c', 'h')
  | _ => none

/-- A literal digit of a number sequence (the digit test of C++ `PushChar`). -/
def isDigitKey (c : Char) : Bool := decide ('0' ≤ c ∧ c ≤ '9')

variable [WideLocale]

namespace EngineState

/-- A leading synthetic `ư` goes back to `w` when the raw input starts with `wh` or `wr` (full Telex,
    the last part of C++ `FinalizeRegularChar`). -/
def revertSyntheticW (cfg : TypingConfig) (st : EngineState) : EngineState :=
  let s0 := charAt st.states 0
  if cfg.inputMethod = .telex ∧ st.engProt.bias ≠ .hardEnglish ∧ s0.synthetic ∧ s0.base = 'u' ∧
      s0.mod = .horn ∧ s0.tone = .none ∧ isHardEnglishRawStart st.rawInput then
    { st with
      engProt := { st.engProt with bias := .hardEnglish }
      states := st.states.modify 0 fun s => { s with base := 'w', mod := .none, synthetic := false } }
  else st

/-- C++ `TypingEngine::FinalizeRegularChar`. -/
def finalizeRegularChar (cfg : TypingConfig) (st : EngineState) : EngineState :=
  let states := applyAutoUO cfg (relocateToneToTarget cfg st.states)
  let st := { st with states := states }.updateSpellState cfg
  let st := revertSyntheticW cfg { st with engProt := checkEnglishBias st.states st.engProt }
  if cfg.isTelexMode then { st with engProt := checkZwjfInitialBias st.states cfg st.engProt } else st

/-- Undo a quick start consonant in front of a key that is not a vowel: the buffer becomes the
    original key and the new one follows. -/
def undoQuickStart (st : EngineState) (keyChar : Char) : EngineState :=
  match st.quickStartKey with
  | none => st
  | some savedKey =>
    let st := { st with quickStartKey := none }
    if isVowelChar keyChar then st
    else
      let st := { st with states := [], rawInput := [savedKey] }.processKey savedKey
      { st with rawInput := st.rawInput ++ [keyChar] }

/-- The doubled consonants of C++ `HandleQuickStartConsonant` (step 0b); `none` when the key is not
    consumed. -/
def quickConsonantExpand (cfg : TypingConfig) (st : EngineState) (lower : Char) (isUpper : Bool) :
    Option EngineState :=
  let n := st.states.length
  let last := charAt st.states (n - 1)
  let vowelBefore i := (charAt st.states (n - i)).isVowel
  let active := { st.qc with
    resultIndex := some n, lastKey := some lower, onlyQC := st.qc.onlyQC || n == 1 }
  if st.states = [] then none
  else if ¬last.isVowel ∧ ¬last.isD then
    match quickConsonantReplacement last.base lower with
    | some replacement =>
      let newKey := if isUpper then towupper replacement else replacement
      some (({ st with qc := active }.processKey newKey).finalizeRegularChar cfg)
    | none => none
  else if last.base = 'u' ∧ last.mod = .none ∧ lower = 'u' then
    if 3 ≤ n ∧ vowelBefore 3 ∧ vowelBefore 2 ∧
        isTriphthong (charAt st.states (n - 3)).base (charAt st.states (n - 2)).base last.base then
      none
    else
      let states := setMod st.states (n - 1) .horn ++
        [{ base := 'o', mod := .horn, isUpper := isUpper, rawIdx := st.rawInput.length - 1 }]
      some ({ st with states := states, qc := active }.updateSpellState cfg)
  else none

/-- C++ `TypingEngine::HandleQuickStartConsonant`; the flag says whether `PushChar` returns. -/
def handleQuickStartConsonant (cfg : TypingConfig) (st : EngineState) (keyChar lower : Char)
    (isUpper : Bool) : EngineState × Bool :=
  let start := if cfg.quickStartConsonant ∧ st.states = [] then quickStartPair lower else none
  match start with
  | some (first, second) =>
    let st := (st.processKey (if isUpper then towupper first else first)).processKey second
    ({ st with quickStartKey := some keyChar }.updateSpellState cfg, true)
  | none =>
    let st := st.undoQuickStart keyChar
    let sameKey := st.qc.lastKey == some lower
    let quickEscaped := st.qc.escaped || sameKey
    let st := { st with qc := { st.qc with
      escaped := false, lastKey := if sameKey then st.qc.lastKey else none } }
    if cfg.quickConsonant ∧ ¬quickEscaped then
      match quickConsonantExpand cfg st lower isUpper with
      | some st' => (st', true)
      | none => (st, false)
    else (st, false)

/-- C++ `TypingEngine::HandleQuickEndConsonant` behind the guards of `QuickEndConsonantRule`. -/
def handleQuickEndConsonant (cfg : TypingConfig) (st : EngineState) (lower : Char) :
    Option EngineState :=
  match st.states.getLast?, quickEndPair lower with
  | some last, some (first, second) =>
    if cfg.quickEndConsonant ∧ last.isVowel then
      some (((st.processKey first).processKey second).updateSpellState cfg)
    else none
  | _, _ => none

/-- A digit right after a literal digit in a VNI mode: a number is being typed. -/
def isVniDigitSequence (cfg : TypingConfig) (st : EngineState) (keyChar : Char) : Bool :=
  cfg.isVniMode && isDigitKey keyChar &&
    match st.states.getLast? with
    | some last => isDigitKey last.base
    | none => false

/-- The action of a key in the current state (the classification step of C++ `PushChar`). -/
def classify (cfg : TypingConfig) (st : EngineState) (keyChar lower : Char) : TypingAction :=
  let overrideAction := if cfg.inputMethod = .userDefined then cfg.customAction lower else .none
  if isVniDigitSequence cfg st keyChar then .none
  else if overrideAction ≠ .none then overrideAction
  else classifyKey lower cfg.isTelexMode cfg.isVniMode

/-- The rules after the classification, and the regular character. The tone rule is kept out while an
    escape is active. -/
def dispatch (cfg : TypingConfig) (st : EngineState) (action : TypingAction)
    (keyChar lower : Char) (isUpper : Bool) : EngineState :=
  let (st, toned) :=
    if st.escape = .none ∧ action.isTone then handleToneFsm cfg st action keyChar lower isUpper
    else (st, false)
  if toned then st
  else
    let (st, modified) := handleModifierAction cfg st action keyChar lower
    if modified then st
    else
      match handleQuickEndConsonant cfg st lower with
      | some st' => st'
      | none => (st.processChar lower isUpper).finalizeRegularChar cfg

/-- Record a key (the first lines of C++ `PushChar`). -/
def press (st : EngineState) (keyChar : Char) : EngineState :=
  { st with
    rawInput := st.rawInput ++ [keyChar]
    escRawHistory := st.escRawHistory ++ [keyChar]
    qc := { st.qc with onlyQC := false } }

/-- C++ `TypingEngine::PushChar`. -/
def pushChar (cfg : TypingConfig) (st : EngineState) (keyChar : Char) : EngineState :=
  let lower := towlower keyChar
  let isUpper := iswupper keyChar
  let (st, veto) := handleQuickStartConsonant cfg (st.press keyChar) keyChar lower isUpper
  if veto then st
  else dispatch cfg st (classify cfg st keyChar lower) keyChar lower isUpper

/-- Undo a quick consonant expansion in place (the middle branch of C++ `Backspace`). -/
def undoQuickConsonant (cfg : TypingConfig) (st : EngineState) : EngineState :=
  let originalKey := st.qc.lastKey
  let st := { st with
    qc := st.qc.markEscaped
    states := (undoHornU st.states (st.states.length - 1)).dropLast }
  let st := match originalKey with
    | some key => st.processKey key
    | none => st
  (st.updateSpellState cfg).recalcBias cfg

/-- Remove the last state with its keystrokes (the regular branch of C++ `Backspace`). -/
def popChar (cfg : TypingConfig) (st : EngineState) : EngineState :=
  let states := st.states.dropLast
  let rawTarget := (charAt st.states (st.states.length - 1)).rawIdx
  let st := { st with
    qc := st.qc.clearActive
    states := states
    rawInput := st.rawInput.take rawTarget
    escRawHistory := if states = [] then [] else st.escRawHistory.dropLast }
  (st.updateSpellState cfg).recalcBias cfg

/-- C++ `TypingEngine::Backspace`. -/
def backspace (cfg : TypingConfig) (st : EngineState) : EngineState :=
  if st.states = [] then st
  else
    let startKey := if st.states.length = 2 then st.quickStartKey else none
    let st := { st with escape := .none, quickStartKey := none }
    match startKey with
    | some key =>
      ({ st with states := [], rawInput := [key] }.processKey key).updateSpellState cfg
    | none =>
      if st.qc.resultIndex = some (st.states.length - 1) then undoQuickConsonant cfg st
      else popChar cfg st

/-- The text C++ `TypingEngine::Commit` returns; the engine is reset afterwards. -/
def commitText (cfg : TypingConfig) (st : EngineState) : List Char :=
  let composed := st.peek
  let raw := st.rawInput
  let quickAlone := st.quickStartKey.isSome && raw.length == 1 || st.qc.onlyQC
  let skipAutoRestore := !cfg.spellCheckEnabled || !cfg.autoRestoreEnabled || st.qc.hasActive
  let shouldRestore := st.spellCheckDisabled || !st.states.isEmpty &&
    Phonology.validateSyllableState st.states cfg.allowZwjf == .validPrefix
  let keepComposed := isSpellExcluded st.states cfg.spellExclusions ||
    hasIntentionalStrokeD raw composed
  if quickAlone ∧ shouldAutoRestore raw composed then raw
  else if ¬skipAutoRestore ∧ shouldRestore ∧ ¬keepComposed then
    let cased := match raw, composed with
      | r :: rs, ch :: _ => if iswupper ch then towupper r :: rs else raw
      | _, _ => raw
    if shouldAutoRestore cased composed then cased else composed
  else composed

/-- C++ `TypingEngine::Commit`. -/
def commit (cfg : TypingConfig) (st : EngineState) : EngineState × List Char :=
  ({}, st.commitText cfg)

end EngineState

/-- Input of the engine between two resets. -/
inductive EngineEvent where
  | push (keyChar : Char)
  | back
  deriving DecidableEq, Repr

/-- One event. -/
def EngineState.step (cfg : TypingConfig) (st : EngineState) : EngineEvent → EngineState
  | .push keyChar => st.pushChar cfg keyChar
  | .back => st.backspace cfg

/-- A run of events. -/
abbrev EngineState.run (cfg : TypingConfig) : EngineState → List EngineEvent → EngineState :=
  Machine.run (step cfg)

end NextKey
