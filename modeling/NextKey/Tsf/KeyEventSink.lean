import NextKey.Tsf.EngineController

/-!
# The key event sink of the text service

Model of `KeyEventSink::OnTestKeyDown` and `OnKeyDown` in `tsf/KeyEventSink.cpp`. Both return the
new state and whether the key is eaten. A host calls the first to ask whether the key is wanted and
then the second, and some hosts call the second alone; the state of the modifier keys is read again
in each. What happens between two callbacks to the text around the composition is the host's, so a
callback finds it in its input.
-/

namespace NextKey

/-- C++ `IsPunctuationKey` -/
def IsPunctuationKey (vk : Nat) : Bool :=
  isDigitVk vk || decide (0x60 ≤ vk ∧ vk ≤ 0x6F) || decide (0xBA ≤ vk ∧ vk ≤ 0xC0) ||
    decide (0xDB ≤ vk ∧ vk ≤ 0xDF) || vk == VK_TAB

variable [WideLocale]

namespace TextService

/-- Backspace dismisses an autocomplete suggestion. -/
def dismissesSuggestion (s : TextService) (k : KeyInput) : Bool :=
  k.vk == VK_BACK && s.config.suggestKeepChars && k.selection

/-- Recover from a desync of engine and composition. -/
def resync (s : TextService) (k : KeyInput) : TextService :=
  if ¬s.IsComposing ∧ s.HasEngineBuffer then s.Reset
  else if s.IsComposing ∧ ¬s.HasEngineBuffer then s.Commit k
  else s

/-- Escape brings the raw keys back: those of the composition, or those of the last commit. -/
def escRestoreRaw (s : TextService) (k : KeyInput) : TextService × Bool :=
  if k.vk = VK_ESCAPE ∧ s.config.escRestoreRawEnabled then
    if s.HasEngineBuffer then
      match s.CommitRawAndEnd with
      | some s' => (s', true)
      | none => (s, false)
    else if s.commitUndoState = .primed ∧ s.WithinUndoWindow k then s.TryRestoreLastCommitRaw k
    else (s, false)
  else (s, false)

/-- The result of the test phase, for `OnKeyDown`. -/
def cacheResult (s : TextService) (k : KeyInput) (wantKey : Bool) : TextService :=
  { s with lastTestedVk := k.vk, lastWantKeyResult := wantKey }

/-- `OnKeyDown` has used the result of the test phase. -/
def clearCache (s : TextService) : TextService := { s with lastTestedVk := 0, lastPunctChar := '\x00' }

/-- `OnTestKeyDown` after `WantKey`. -/
def testWanted (s : TextService) (k : KeyInput) (wantKey : Bool) : TextService × Bool :=
  let backOnEmpty := decide (k.vk = VK_BACK) && !s.HasEngineBuffer
  if backOnEmpty ∧ s.commitUndoState = .ready ∧ s.WithinUndoWindow k then
    ({ s with commitUndoState := .primed }.cacheResult k false, false)
  else
    let s := if backOnEmpty ∧ s.commitUndoState = .primed then s.ResetCommitUndo else s
    let (s, wantKey) :=
      if ¬wantKey ∧ backOnEmpty then s.PrepareBackspaceRevive k else (s, wantKey)
    let s := s.cacheResult k wantKey
    if ¬wantKey ∧ s.HasEngineBuffer then (s.Commit k, false) else (s, wantKey)

/-- `OnTestKeyDown` from the punctuation keys on. -/
def testTyping (s : TextService) (k : KeyInput) : TextService × Bool :=
  if IsPunctuationKey k.vk ∧ s.HasEngineBuffer ∧ ¬s.IsEngineDigitKey k ∧ k.char ≠ '\x00' then
    ({ s.cacheResult k true with lastPunctChar := k.char }, true)
  else
    let (s, wantKey) := s.WantKey k
    s.testWanted k (wantKey && !s.dismissesSuggestion k)

/-- C++ `OnTestKeyDown` -/
def OnTestKeyDown (s : TextService) (k : KeyInput) : TextService × Bool :=
  let s := { s.CheckConfigEvent with lastPunctChar := '\x00' }.CheckContextBlocked k
  if s.contextBlocked then (s, false)
  else if s.HasEngineBuffer ∧ s.dismissesSuggestion k then ((s.Commit k).cacheResult k false, false)
  else
    let s := if k.vk ≠ VK_BACK ∧ k.vk ≠ VK_ESCAPE then s.ResetCommitUndo else s
    let s := s.resync k
    if k.modifiers then (if s.HasEngineBuffer then s.Commit k else s, false)
    else
      let (s, restored) := s.escRestoreRaw k
      if restored then (s, true) else s.testTyping k

/-- What the test phase has found, or `WantKey` where it did not come. -/
def cachedWantKey (s : TextService) (k : KeyInput) : TextService × Bool :=
  if k.vk = s.lastTestedVk then (s, s.lastWantKeyResult)
  else
    let (s, wantKey) := s.WantKey k
    (s, wantKey && !s.dismissesSuggestion k)

/-- `OnKeyDown` from the punctuation keys on. -/
def keyTyping (s : TextService) (k : KeyInput) : TextService × Bool :=
  let ch := if k.vk = s.lastTestedVk ∧ s.lastPunctChar ≠ '\x00' then s.lastPunctChar else k.char
  if IsPunctuationKey k.vk ∧ s.HasEngineBuffer ∧ ¬s.IsEngineDigitKey k ∧ ch ≠ '\x00' then
    ((s.CommitWithChar k ch).clearCache, true)
  else
    let (s, wantKey) := s.cachedWantKey k
    let s := s.clearCache
    if ¬wantKey then (if s.HasEngineBuffer then s.Commit k else s, false) else s.HandleKey k

/-- C++ `OnKeyDown` -/
def OnKeyDown (s : TextService) (k : KeyInput) : TextService × Bool :=
  let s := s.CheckConfigEvent
  if k.modifiers then (s, false)
  else if s.HasEngineBuffer ∧ s.dismissesSuggestion k then ((s.Commit k).clearCache, false)
  else
    let (s, restored) := s.escRestoreRaw k
    if restored then (s, true) else s.keyTyping k

end TextService

/-- A callback of the host. -/
inductive Callback where
  | testKeyDown (k : KeyInput)
  | keyDown (k : KeyInput)

/-- The host's text around the composition. -/
def TextService.surround (s : TextService) (k : KeyInput) : TextService :=
  { s with before := k.before, after := k.after }

/-- One callback. -/
def callbackStep (s : TextService) : Callback → TextService
  | .testKeyDown k => ((s.surround k).OnTestKeyDown k).1
  | .keyDown k => ((s.surround k).OnKeyDown k).1

end NextKey
