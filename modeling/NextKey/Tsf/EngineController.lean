import Mathlib.Data.List.DropRight
import NextKey.Engine.Seed
import NextKey.Hook.ConfigSync
import NextKey.Hook.DigitLedWord
import NextKey.Hook.ModeDisplay
import NextKey.Hook.VirtualKeys

/-!
# The engine controller of the text service

Model of `tsf/EngineController.cpp` and of the edit sessions of `tsf/CompositionEditSession.h`,
`tsf/EscRestoreLastCommitSession.h` and `tsf/CompositionManager.cpp`: the typing engine on one side, the
composition in the host's document on the other. Every edit session succeeds. The document is the text
before the composition, the composition and the text after it; without a composition the caret stands
between the two texts. The language bar, the log and the colours of the composition are left out.

Nothing is mapped before the application has created the shared state, and every callback tries to
map it first, so `IsConnected` is whether there is a shared state.
-/

namespace NextKey

namespace SharedFlags

def ENGINE_ENABLED : BitVec 32 := 0x0002
def TSF_ACTIVE : BitVec 32 := 0x0008

end SharedFlags

/-- C++ `CapTrigger` -/
inductive CapTrigger where
  | none
  | docStart
  | lineStart
  | sentenceEnd
  deriving DecidableEq, Repr

/-- C++ `ClassifyCapTrigger` -/
def ClassifyCapTrigger (buf : List Char) : CapTrigger :=
  let text := buf.rdropWhile fun c => c == ' ' || c == '\t'
  let skippedWhitespace := decide (text.length < buf.length)
  match text.getLast? with
  | none => .docStart
  | some c =>
    if c = '\n' ∨ c = '\r' then .lineStart
    else if (c = '.' ∨ c = '?' ∨ c = '!') ∧ skippedWhitespace then .sentenceEnd
    else .none

/-- C++ `ComputeShouldAutoCap` -/
def ComputeShouldAutoCap (buf : List Char) : Bool := ClassifyCapTrigger buf != .none

/-- The part of `TypingConfig` that the text service reads. -/
structure TsfConfig extends TypingConfig where
  autoCaps : Bool := false
  escRestoreRawEnabled : Bool := false
  suggestKeepChars : Bool := false

/-- C++ `CommitUndoState` -/
inductive CommitUndoState where
  | idle
  | ready
  | primed
  deriving DecidableEq, Repr

/-- C++ `LastCommit` -/
structure LastCommit where
  text : List Char := []
  rawInput : List Char := []
  hasTrailingChar : Bool := false
  timestamp : BitVec 32 := 0
  deriving DecidableEq, Repr

/-- A key, with what Windows and the host say when the callback comes. -/
structure KeyInput where
  vk : Nat
  shift : Bool := false
  ctrl : Bool := false
  alt : Bool := false
  win : Bool := false
  capsLock : Bool := false
  /-- What `VkToChar` finds; `'\x00'` when the key has no character. -/
  char : Char := '\x00'
  /-- Identity of the context. -/
  context : Nat := 0
  /-- What `InputScopeCheckSession` finds in the context. -/
  inputScopeBlocked : Bool := false
  /-- The selection is not empty. -/
  selection : Bool := false
  /-- `GetTickCount` -/
  tick : BitVec 32 := 0
  /-- The text around the composition or the caret, as the host has it by now. -/
  before : List Char := []
  after : List Char := []

/-- The shared state, the fields of `EngineController` and of `KeyEventSink`, and the document. -/
structure TextService where
  shared : Option SharedState := none
  engine : EngineState := {}
  config : TsfConfig := {}
  lastEpoch : BitVec 32 := 0
  engineEnabled : Bool := true
  tsfActive : Bool := false
  vietnameseMode : Bool := true
  /-- The layout of the shared state is the one of this DLL. -/
  abiOk : Bool := true
  lastContext : Option Nat := none
  contextBlocked : Bool := false
  isScintillaApp : Bool := false
  digitLedWord : Bool := false
  /-- `pendingReviveWord_`, with a range that covers it. -/
  pendingRevive : Option (List Char) := none
  lastCommit : LastCommit := {}
  commitUndoState : CommitUndoState := .idle
  -- `KeyEventSink`
  lastTestedVk : Nat := 0
  lastWantKeyResult : Bool := false
  /-- `'\x00'` when there is none. -/
  lastPunctChar : Char := '\x00'
  -- the document
  before : List Char := []
  composition : Option (List Char) := none
  after : List Char := []

namespace KeyInput

/-- Ctrl, Alt or Win is down. -/
def modifiers (k : KeyInput) : Bool := k.ctrl || k.alt || k.win

end KeyInput

namespace SharedState

/-- C++ `Read`, when nothing is being written. -/
def readNow (st : SharedState) : SharedState :=
  if st .magic = MAGIC_VALUE ∧ (st .epoch) &&& 1 = 0 then st else zero

/-- C++ `ReadEpoch` -/
def readEpochNow (st : SharedState) : BitVec 32 := if st .magic = MAGIC_VALUE then st .epoch else 0

/-- C++ `ReadFlags` -/
def readFlagsNow (st : SharedState) : BitVec 32 := if st .magic = MAGIC_VALUE then st .flags else 0

end SharedState

namespace TextService

/-- The text of the document. -/
def document (s : TextService) : List Char := s.before ++ s.composition.getD [] ++ s.after

/-- The text before the caret, which stands at the end of a composition. -/
def caretText (s : TextService) : List Char := s.before ++ s.composition.getD []

/-- C++ `CompositionManager::IsComposing` -/
def IsComposing (s : TextService) : Bool := s.composition.isSome

/-- C++ `HasEngineBuffer` -/
def HasEngineBuffer [WideLocale] (s : TextService) : Bool := decide (0 < s.engine.count)

/-- C++ `CompositionManager::StartComposition`: a composition that is there is ended first. -/
def StartComposition (s : TextService) : TextService :=
  { s with before := s.caretText, composition := some [] }

/-- C++ `CompositionManager::SetCompositionText` -/
def SetCompositionText (s : TextService) (text : List Char) : TextService :=
  { s with composition := s.composition.map fun _ => text }

/-- C++ `CompositionManager::EndComposition` and `TerminateComposition`: the text stays. -/
def EndComposition (s : TextService) : TextService :=
  { s with before := s.caretText, composition := none }

/-- `ITfComposition::ShiftStart` over a word in front of the composition. -/
def shiftStart (s : TextService) (word : List Char) : TextService :=
  { s with
    before := s.before.rdrop word.length
    composition := s.composition.map fun text => word ++ text }

/-- C++ `StartCompositionEditSession` -/
def StartCompositionEditSession (s : TextService) (text : List Char) : TextService :=
  if text ≠ [] then s.StartComposition.SetCompositionText text else s.StartComposition

/-- C++ `UpdateCompositionEditSession` -/
def UpdateCompositionEditSession (s : TextService) (text : List Char) : TextService :=
  (if s.IsComposing then s else s.StartComposition).SetCompositionText text

/-- C++ `CommitEditSession`: without a composition the text is dropped. -/
def CommitEditSession (s : TextService) (finalText : List Char) : TextService :=
  if s.IsComposing then (s.SetCompositionText finalText).EndComposition else s

/-- C++ `EscRestoreLastCommitSession`: the text in front of the caret is replaced, up to the end of a
    composition that is there. -/
def EscRestoreLastCommitSession (s : TextService) (textToReplace rawInput : List Char) :
    TextService :=
  if textToReplace = [] then s
  else if s.caretText.length < textToReplace.length then s
  else
    match s.composition with
    | none => { s with before := s.before.rdrop textToReplace.length ++ rawInput }
    | some text =>
      { s with
        before := s.before.rdrop (textToReplace.length - text.length)
        composition := some (text.rdrop textToReplace.length ++ rawInput) }

end TextService

section Locale
variable [WideLocale]

/-- The Vietnamese letters at the end of a text. -/
def precedingWord (buf : List Char) : List Char :=
  buf.rtakeWhile fun c => (decomposeVietChar c).isSome

namespace TextService

/-- C++ `ReadPrecedingWordEditSession` -/
def ReadPrecedingWordEditSession (s : TextService) (k : KeyInput) : List Char :=
  if k.selection then [] else precedingWord (s.caretText.rtake 16)

/-- C++ `InspectPrecedingTextEditSession`: the word, and whether to capitalize. -/
def InspectPrecedingTextEditSession (s : TextService) (k : KeyInput) : List Char × Bool :=
  if k.selection then ([], false)
  else if s.caretText = [] then ([], true)
  else (precedingWord (s.caretText.rtake 64), ComputeShouldAutoCap (s.caretText.rtake 64))

/-- The common part of C++ `ReviveCompositionEditSession` and `ReviveAndTypeEditSession`: a composition
    over a word, with the engine seeded from it and then given a key. -/
def reviveSession (s : TextService) (word : List Char) (key : EngineState → EngineState) :
    TextService :=
  if word = [] then s
  else
    let (engine, ok) := EngineState.seedFromText s.config.toTypingConfig word
    let s := { s with engine := engine }
    if ¬ok then s
    else
      let s := s.StartComposition.shiftStart word
      let s := { s with engine := key s.engine }
      let s := s.SetCompositionText s.engine.peek
      if s.engine.count = 0 then s.EndComposition else s

/-- C++ `ReviveCompositionEditSession` -/
def ReviveCompositionEditSession (s : TextService) (word : List Char) : TextService :=
  s.reviveSession word fun engine => engine.backspace s.config.toTypingConfig

/-- C++ `ReviveAndTypeEditSession` -/
def ReviveAndTypeEditSession (s : TextService) (word : List Char) (ch : Char) : TextService :=
  s.reviveSession word fun engine => engine.pushChar s.config.toTypingConfig ch

/-- C++ `ApplySharedState`: the text of a pending composition is discarded with the engine. -/
def ApplySharedState (s : TextService) (state : SharedState) : TextService :=
  let features := DecodeFeatureFlags state.GetFeatureFlags
  { s with
    engineEnabled := hasFlag (state .flags) SharedFlags.ENGINE_ENABLED
    vietnameseMode := hasFlag (state .flags) SharedFlags.VIETNAMESE_MODE
    config := { s.config with
      inputMethod := match (state .inputMethod).toNat with
        | 1 => .vni
        | 2 => .simpleTelex
        | _ => .telex
      spellCheckEnabled := state .spellCheck != 0
      modernOrtho := features.modernOrtho
      allowZwjf := features.allowZwjf
      autoRestoreEnabled := features.autoRestoreEnabled
      quickConsonant := features.quickConsonant
      quickStartConsonant := features.quickStartConsonant
      quickEndConsonant := features.quickEndConsonant
      allowEnglishBypass := features.allowEnglishBypass
      autoCaps := features.autoCaps
      escRestoreRawEnabled := features.escRestoreRawEnabled
      suggestKeepChars := features.suggestKeepChars }
    engine := {} }

/-- C++ `CheckConfigEvent` -/
def CheckConfigEvent (s : TextService) : TextService :=
  match s.shared with
  | none => s
  | some shared =>
    if shared.readEpochNow = s.lastEpoch then s
    else if ¬shared.readNow.IsValid then s
    else { s with lastEpoch := shared.readNow .epoch }.ApplySharedState shared.readNow

/-- C++ `EngineController::EngineController` -/
def create (shared : Option SharedState) : TextService :=
  let s : TextService := { config := { spellCheckEnabled := false } }
  match shared with
  | none => { s with engineEnabled := false }
  | some st =>
    let s := { s with shared := shared }
    if st .magic ≠ SharedState.MAGIC_VALUE then { s with engineEnabled := false }
    else if ¬st.IsValid then { s with abiOk := false }
    else if ¬st.readNow.IsValid then s
    else { s with lastEpoch := st.readNow .epoch }.ApplySharedState st.readNow

def kCommitUndoTimeoutMs : BitVec 32 := 1500

/-- C++ `RecordCommitSnapshot` -/
def RecordCommitSnapshot (s : TextService) (k : KeyInput) (text rawInput : List Char)
    (hasTrailingChar : Bool) : TextService :=
  if text = [] ∨ rawInput = [] then { s with commitUndoState := .idle, lastCommit := {} }
  else
    { s with
      lastCommit := ⟨text, rawInput, hasTrailingChar, k.tick⟩
      commitUndoState := if hasTrailingChar then .ready else .idle }

/-- C++ `WithinUndoWindow` -/
def WithinUndoWindow (s : TextService) (k : KeyInput) : Bool :=
  s.commitUndoState != .idle && decide (k.tick - s.lastCommit.timestamp ≤ kCommitUndoTimeoutMs)

/-- C++ `ResetCommitUndo` -/
def ResetCommitUndo (s : TextService) : TextService :=
  if s.commitUndoState = .idle then s else { s with commitUndoState := .idle, lastCommit := {} }

/-- C++ `TryRestoreLastCommitRaw` -/
def TryRestoreLastCommitRaw (s : TextService) (k : KeyInput) : TextService × Bool :=
  if s.commitUndoState ≠ .primed then (s, false)
  else if ¬s.WithinUndoWindow k then (s.ResetCommitUndo, false)
  else if s.lastCommit.text = [] ∨ s.lastCommit.rawInput = [] then (s.ResetCommitUndo, false)
  else
    let body :=
      if s.lastCommit.hasTrailingChar then s.lastCommit.text.dropLast else s.lastCommit.text
    ((s.EscRestoreLastCommitSession body s.lastCommit.rawInput).ResetCommitUndo, true)

/-- C++ `Commit` -/
def Commit (s : TextService) (k : KeyInput) : TextService :=
  let rawSnapshot := s.engine.peekRaw
  let committed := (s.engine.commit s.config.toTypingConfig).2
  let s := s.CommitEditSession committed
  { s with engine := {}, digitLedWord := false }.RecordCommitSnapshot k committed rawSnapshot false

/-- C++ `CommitWithChar` -/
def CommitWithChar (s : TextService) (k : KeyInput) (appendChar : Char) : TextService :=
  let rawSnapshot := s.engine.peekRaw
  let committed := (s.engine.commit s.config.toTypingConfig).2
  let committed := if appendChar ≠ '\x00' then committed ++ [appendChar] else committed
  let s := s.CommitEditSession committed
  { s with engine := {}, digitLedWord := false }.RecordCommitSnapshot k committed rawSnapshot
    (appendChar != '\x00')

/-- C++ `CommitRawAndEnd`; `none` when the engine has no raw input. -/
def CommitRawAndEnd (s : TextService) : Option TextService :=
  let raw := s.engine.peekRaw
  if raw = [] then none
  else some { s.CommitEditSession raw with engine := {}, digitLedWord := false }

/-- C++ `Reset` -/
def Reset (s : TextService) : TextService :=
  { s.EndComposition with engine := {}, digitLedWord := false }

/-- C++ `IsEngineDigitKey` -/
def IsEngineDigitKey (s : TextService) (k : KeyInput) : Bool :=
  s.config.inputMethod.hasDigitKeys && isDigitVk k.vk && !k.shift

/-- C++ `WantKey`, behind the flags and the modifiers: the digit-led word, and then the key. -/
def wantTypingKey (s : TextService) (k : KeyInput) : TextService × Bool :=
  let engineHasComp := s.HasEngineBuffer
  match DecideDigitLed k.vk k.shift (!engineHasComp) s.config.inputMethod s.digitLedWord with
  | .arm => ({ s with digitLedWord := true }, false)
  | .bypass => (s, false)
  | .reset => ({ s with digitLedWord := false }, false)
  | .proceed =>
    if isLetterVk k.vk then (s, true)
    else if s.IsEngineDigitKey k ∧ engineHasComp then (s, true)
    else if k.vk = VK_BACK then (s, engineHasComp)
    else if k.vk = VK_SPACE then (s, !s.isScintillaApp && engineHasComp)
    else (s, false)

/-- C++ `WantKey` -/
def WantKey (s : TextService) (k : KeyInput) : TextService × Bool :=
  match s.shared with
  | none => (s, false)
  | some shared =>
    let flags := shared.readFlagsNow
    if ¬s.abiOk then (s, false)
    else if ¬hasFlag flags SharedFlags.ENGINE_ENABLED then (s, false)
    else
      let s := { s with tsfActive := hasFlag flags SharedFlags.TSF_ACTIVE }
      if ¬s.tsfActive then (s, false)
      else
        let s := { s with vietnameseMode := hasFlag flags SharedFlags.VIETNAMESE_MODE }
        if ¬s.vietnameseMode then (s, false)
        else if k.modifiers then (s, false)
        else s.wantTypingKey k

/-- C++ `CheckContextBlocked` -/
def CheckContextBlocked (s : TextService) (k : KeyInput) : TextService :=
  if s.lastContext = some k.context then s
  else { s with lastContext := some k.context, contextBlocked := k.inputScopeBlocked }

/-- C++ `PrepareBackspaceRevive` -/
def PrepareBackspaceRevive (s : TextService) (k : KeyInput) : TextService × Bool :=
  let s := { s with pendingRevive := none }
  if ¬s.engineEnabled ∨ ¬s.tsfActive ∨ ¬s.vietnameseMode then (s, false)
  else if s.contextBlocked then (s, false)
  else if s.HasEngineBuffer then (s, false)
  else if s.isScintillaApp then (s, false)
  else
    let word := s.ReadPrecedingWordEditSession k
    if word = [] ∨ ¬EngineState.canRevive s.config.toTypingConfig word then (s, false)
    else ({ s with pendingRevive := some word }, true)

/-- C++ `ProcessBackspace` -/
def ProcessBackspace (s : TextService) : TextService :=
  let s := { s with engine := s.engine.backspace s.config.toTypingConfig }
  if s.HasEngineBuffer then s.UpdateCompositionEditSession s.engine.peek
  else s.CommitEditSession []

/-- A character goes to the engine and its text to the composition (the last part of the letter
branch of C++ `HandleKey`). -/
def pushLetter (s : TextService) (ch : Char) : TextService × Bool :=
  let s := { s with engine := s.engine.pushChar s.config.toTypingConfig ch }
  if ¬s.IsComposing then
    let s := s.StartCompositionEditSession s.engine.peek
    if ¬s.IsComposing then ({ s with engine := {} }, false) else (s, true)
  else (s.UpdateCompositionEditSession s.engine.peek, true)

/-- The letter branch of C++ `HandleKey`. -/
def handleLetter (s : TextService) (k : KeyInput) : TextService × Bool :=
  let upper := k.shift != k.capsLock
  let ch := if upper then Char.ofNat k.vk else towlower (Char.ofNat k.vk)
  if s.engine.count = 0 ∧ ¬s.IsComposing ∧ ¬s.isScintillaApp then
    let (word, shouldAutoCap) := s.InspectPrecedingTextEditSession k
    if word ≠ [] ∧ EngineState.canRevive s.config.toTypingConfig word then
      (s.ReviveAndTypeEditSession word ch, true)
    else s.pushLetter (if s.config.autoCaps ∧ shouldAutoCap then towupper ch else ch)
  else s.pushLetter ch

/-- The digit branch of C++ `HandleKey`. -/
def handleDigit (s : TextService) (k : KeyInput) : TextService × Bool :=
  let s := { s with engine := s.engine.pushChar s.config.toTypingConfig (Char.ofNat k.vk) }
  (if s.IsComposing then s.UpdateCompositionEditSession s.engine.peek else s, true)

/-- C++ `HandleKey` -/
def HandleKey (s : TextService) (k : KeyInput) : TextService × Bool :=
  if k.vk = VK_BACK then
    match s.pendingRevive with
    | some word => ({ s.ReviveCompositionEditSession word with pendingRevive := none }, true)
    | none => (s.ProcessBackspace, true)
  else if k.vk = VK_SPACE then (s.CommitWithChar k ' ', true)
  else if isLetterVk k.vk then s.handleLetter k
  else if s.IsEngineDigitKey k ∧ s.HasEngineBuffer then s.handleDigit k
  else (s, false)

end TextService

end Locale

end NextKey
