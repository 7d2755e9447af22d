import NextKey.Hook.AlphaKey
import NextKey.Hook.DigitLedWord
import NextKey.Macro.Delivery

/-!
# The undo of a commit

Model of `core/CommitState.h`, of `core/CommitUndoExemption.h` and of what
`app/system/HookEngine.cpp` does with them: `HandleBackspace`, `CommitComposition`,
`ReplayCommittedChars` and `HandleCommitUndoFsm`, in Vietnamese mode and for the Unicode code table.
The keys are the ones that type or erase one character before the caret, without Ctrl, Alt or Win:
letters, Backspace and the commit triggers with a character.

Every edit that the hook asks for is made, as `press_eq` shows of the output paths, and a key that
is injected again is a key that passes. No commit is auto-restored: it leaves the text that is on
the screen.
-/

namespace NextKey

/-- A key that types or erases a character before the caret. -/
inductive HookKey where
  | letter (vkCode : Nat) (isLetter : isLetterVk vkCode)
  | back
  /-- A commit trigger, what `VkToMacroChar` makes of it, and what it types. -/
  | trigger (vkCode : Nat) (macroChar : UInt16) (typed : Char) (printable : 0x20 ≤ macroChar.toNat)

namespace HookKey

def vkCode : HookKey → Nat
  | letter vkCode _ | trigger vkCode _ _ _ => vkCode
  | back => VK_BACK

/-- C++ `VkToMacroChar` -/
def macroChar : HookKey → UInt16
  | letter vkCode _ => UInt16.ofNat (vkCode + 0x20)
  | back => 0x08
  | trigger _ macroChar _ _ => macroChar

end HookKey

/-- A press of a key, with what Windows, the anchor and the dispatcher say when it comes. -/
structure HookKeyDown where
  key : HookKey
  shift : Bool := false
  capsLock : Bool := false
  anchor : Option (Bool × Bool) := none
  /-- The commit is older than `kReadyTimeoutMs`. -/
  readyExpired : Bool := false
  /-- Injected events are in flight and younger than the settle budget. -/
  synthGuard : Bool := false

/-- C++ `kBackspaceMarker` -/
def kBackspaceMarker : Char := '\x08'

/-- C++ `CommitState::kMaxStack` -/
def kMaxStack : Nat := 3

/-- C++ `CommitState::Entry` -/
structure CommitEntry where
  history : List Char
  text : List Char
  /-- What `PeekRaw` says when the word is committed. -/
  rawInput : List Char
  extraLeadingTriggers : Nat

/-- C++ `CommitState::State` -/
inductive CommitPhase where
  | idle
  | ready
  | primed
  deriving DecidableEq, Repr

/-- C++ `CommitState`; the top of the stack comes first -/
structure CommitState where
  phase : CommitPhase := .idle
  stack : List CommitEntry := []
  pushedToStack : Bool := false
  pendingTriggerCount : Nat := 0
  leadingTriggersForCurrentWord : Nat := 0
  inputHistory : List Char := []

namespace CommitState

variable (st : CommitState)

def SetIdle : CommitState := { st with phase := .idle }
def SetReady : CommitState := { st with phase := .ready }
def SetPrimed : CommitState := { st with phase := .primed }
def AppendHistory (c : Char) : CommitState := { st with inputHistory := st.inputHistory ++ [c] }
def PopStackTop : CommitState := { st with stack := st.stack.tail }

/-- C++ `IncrementPendingTriggers`, on a `uint8_t` -/
def IncrementPendingTriggers : CommitState :=
  { st with pendingTriggerCount := min 0xFF (st.pendingTriggerCount + 1) }

def DecrementPendingTriggers : CommitState :=
  { st with pendingTriggerCount := st.pendingTriggerCount - 1 }

/-- C++ `PushEntry` -/
def PushEntry (e : CommitEntry) : CommitState := { st with stack := (e :: st.stack).take kMaxStack }

/-- C++ `Cancel` -/
def Cancel : CommitState :=
  { st with phase := .idle, pendingTriggerCount := 0, leadingTriggersForCurrentWord := 0, stack := [] }

end CommitState

/-- The settings of the hook. -/
structure HookConfig where
  config : TypingConfig
  autoCaps : Bool := false
  macroTable : List (WString × WString)
  autoCapsMacro : Bool := false
  macroTriggerSpace : Bool := true
  mapper : CaseMapper

/-- The fields of `HookEngine` that typing writes, and the text before the caret. -/
structure HookTyping extends Composing where
  commitState : CommitState := {}
  rawMacroBuffer : WString := []
  macroCrossCommit : Bool := false
  tempMacroOff : Bool := false
  tempEngineOff : Bool := false
  digitLedWord : Bool := false

/-- C++ `HookEngine::KeyOutcome` -/
inductive KeyOutcome where
  | eat
  | pass
  | fallthrough
  deriving DecidableEq, Repr

section Locale

variable [WideLocale]

namespace HookTyping

variable (env : HookConfig) (st : HookTyping) (k : HookKeyDown)

/-- C++ `ClearWordState` -/
def ClearWordState : HookTyping :=
  { st with
    engine := {}
    previousComposition := []
    commitState := { st.commitState with inputHistory := [] }
    rawMacroBuffer := []
    macroCrossCommit := false
    tempMacroOff := false
    digitLedWord := false }

/-- C++ `CancelCommitUndo` -/
def CancelCommitUndo : HookTyping := { st with commitState := st.commitState.Cancel }

/-- C++ `SetCommitUndoReady` -/
def SetCommitUndoReady : HookTyping :=
  { st with
    commitState := { st.commitState with
      pendingTriggerCount := st.commitState.leadingTriggersForCurrentWord
      leadingTriggersForCurrentWord := 0 }.SetReady }

/-- The settings behind a letter key. -/
def typingContext : TypingContext where
  config := env.config
  autoCaps := env.autoCaps
  anchor := k.anchor

/-- C++ `HandleAlphaKey`: every output path leaves the new composition on the screen -/
def HandleAlphaKey (vkCode : Nat) : HookTyping :=
  let letter := originalCh vkCode k.shift k.capsLock
  let pushed := (pushLetter (typingContext env k) st.toComposing letter).1
  { st with
    toComposing := pushed.editTo pushed.engine.peek
    commitState := st.commitState.AppendHistory
      (autoCapitalize (typingContext env k) st.toComposing letter).1 }

/-- `HandleVniDigitKey`, and the same lines for the brackets and the custom keys. -/
def pushKey (ch : Char) : HookTyping :=
  let engine := st.engine.pushChar env.config ch
  { st with
    toComposing := { st.toComposing with engine }.editTo engine.peek
    commitState := st.commitState.AppendHistory ch }

/-- C++ `HandleBackspace` -/
def HandleBackspace : HookTyping :=
  let engine := st.engine.backspace env.config
  let st := { st with engine, commitState := st.commitState.AppendHistory kBackspaceMarker }
  if 0 < engine.count then { st with toComposing := st.toComposing.editTo engine.peek }
  else
    let st :=
      { st with screen := st.screen.rdrop st.previousComposition.length, previousComposition := [] }
    if st.commitState.stack ≠ [] then st.SetCommitUndoReady else st

/-- The entry that `CommitComposition` pushes. -/
def commitEntry : CommitEntry where
  history := st.commitState.inputHistory
  text := st.previousComposition
  rawInput := st.engine.peekRaw
  extraLeadingTriggers := st.commitState.leadingTriggersForCurrentWord

/-- C++ `CommitComposition` without an auto-restore -/
def CommitComposition : HookTyping :=
  let commitState := { st.commitState with pushedToStack := false }
  let commitState :=
    if ¬st.engine.qc.hasActive ∧ st.commitState.inputHistory ≠ [] then
      { { commitState with leadingTriggersForCurrentWord := 0 }.PushEntry st.commitEntry with
        pushedToStack := true }
    else commitState
  { st with commitState }.ClearWordState

/-- One keystroke of `ReplayCommittedChars`. -/
def replayChar (engine : EngineState) (ch : Char) : EngineState :=
  if ch = kBackspaceMarker then engine.backspace env.config else engine.pushChar env.config ch

/-- C++ `ReplayCommittedChars` -/
def ReplayCommittedChars : HookTyping :=
  match st.commitState.stack with
  | [] => { st with commitState := st.commitState.SetIdle }
  | entry :: _ =>
    { st with
      engine := entry.history.foldl (replayChar env) st.engine
      previousComposition := entry.text
      commitState := { st.commitState.PopStackTop with
        inputHistory := entry.history
        leadingTriggersForCurrentWord := entry.extraLeadingTriggers }.SetIdle }

/-- C++ `IsCommitUndoExemptAction` -/
def IsCommitUndoExemptAction (action : TypingAction) : Bool :=
  action.isTone || action.isTelexModifier || action.isVniModifier || action == .hornOrInsertU ||
    action == .hornOrInsertUNoStart || action == .undoAllMarks

/-- The letters `s`, `f`, `r`, `x`, `j`, `z`, `a`, `e`, `o`, `w` and `d`. -/
def telexModifierLetters : List Nat :=
  [0x53, 0x46, 0x52, 0x58, 0x4A, 0x5A, 0x41, 0x45, 0x4F, 0x57, 0x44]

/-- C++ `IsCommitUndoExemptKey`, for other keys than Escape -/
def IsCommitUndoExemptKey (vkCode : Nat) (method : InputMethod)
    (shiftHeld isCustomModifier : Bool) : Bool :=
  let isTelexModifierLetter := (method == .telex || method == .simpleTelex || method == .combined) &&
    telexModifierLetters.contains vkCode
  let isVniModifierDigit := (method == .vni || method == .combined) && isDigitVk vkCode && !shiftHeld
  let isUserDefinedModifier := method == .userDefined && isCustomModifier
  isTelexModifierLetter || isVniModifierDigit || isUserDefinedModifier

/-- `isCommitUndoExempt` for a key. -/
def isCommitUndoExempt : Bool :=
  IsCommitUndoExemptKey k.key.vkCode env.config.inputMethod k.shift
    (IsCommitUndoExemptAction (env.config.customAction (Char.ofNat k.key.macroChar.toNat)))

/-- A key after the Backspace that erased the trigger. -/
def primedKey : HookTyping × KeyOutcome :=
  let exempt := isCommitUndoExempt env k
  if k.synthGuard ∧ ¬exempt then (st.CancelCommitUndo, .fallthrough)
  else
    match k.key with
    | .letter vkCode _ =>
      if exempt then ((st.ReplayCommittedChars env).HandleAlphaKey env k vkCode, .eat)
      else ({ st with commitState := st.commitState.PopStackTop.SetIdle }, .fallthrough)
    | .back => ((st.ReplayCommittedChars env).HandleBackspace env, .eat)
    | .trigger vkCode _ _ _ =>
      if env.config.inputMethod.hasDigitKeys ∧ isDigitVk vkCode ∧ ¬k.shift then
        let st := st.ReplayCommittedChars env
        if st.engine.count = 0 then ({ st with commitState := st.commitState.SetIdle }, .pass)
        else (st.pushKey env (Char.ofNat vkCode), .eat)
      else if exempt then (st, .fallthrough)
      else ({ st with commitState := st.commitState.SetIdle }, .fallthrough)

/-- A key after a commit that does not undo it. -/
def readyKey : HookTyping :=
  if st.commitState.phase = .ready then
    match k.key, decide (st.engine.count = 0) with
    | .trigger _ _ _ _, true => { st with commitState := st.commitState.IncrementPendingTriggers }
    | _, _ =>
      { st with
        commitState := { st.commitState with
          leadingTriggersForCurrentWord := st.commitState.pendingTriggerCount
          pendingTriggerCount := 0 }.SetIdle }
  else st

/-- A commit that is too old is forgotten. -/
def expireReady : HookTyping :=
  if st.commitState.phase = .ready ∧ k.readyExpired then st.CancelCommitUndo else st

/-- C++ `HandleCommitUndoFsm` -/
def HandleCommitUndoFsm : HookTyping × KeyOutcome :=
  let st := st.expireReady k
  match st.commitState.phase, k.key, decide (st.engine.count = 0) with
  | .ready, .back, true =>
    if 0 < st.commitState.pendingTriggerCount then
      ({ st with commitState := st.commitState.DecrementPendingTriggers }, .pass)
    else
      ({ st with
          commitState := st.commitState.SetPrimed
          macroCrossCommit := false
          rawMacroBuffer := [] }, .pass)
  | .primed, _, true => st.primedKey env k
  | _, _, _ => (st.readyKey k, .fallthrough)

variable {env st k}

omit [WideLocale] in
/-- What is ready expires. -/
lemma expireReady_eq : ∃ commitState, st.expireReady k = { st with commitState } ∧
    (commitState.phase = .primed → st.commitState.phase = .primed) := by
  unfold expireReady
  split
  · exact ⟨_, rfl, fun h => by cases h⟩
  · exact ⟨_, rfl, id⟩

omit [WideLocale] in
/-- A key while the undo is ready. -/
lemma readyKey_eq : ∃ commitState, st.readyKey k = { st with commitState } := by
  unfold readyKey
  split
  · split
    · exact ⟨_, rfl⟩
    · exact ⟨_, rfl⟩
  · exact ⟨_, rfl⟩

/-- A replay leaves the buffer of the macros. -/
lemma ReplayCommittedChars_buffer :
    (st.ReplayCommittedChars env).rawMacroBuffer = st.rawMacroBuffer := by
  unfold ReplayCommittedChars
  split <;> rfl

/-- So does Backspace. -/
lemma HandleBackspace_buffer : (st.HandleBackspace env).rawMacroBuffer = st.rawMacroBuffer := by
  unfold HandleBackspace
  dsimp only
  split
  · rfl
  · split <;> rfl

/-- A key after the Backspace that erased the trigger does not touch the macro buffer. -/
lemma primedKey_cases :
    (st.primedKey env k).2 = .fallthrough ∧
        (∃ commitState, (st.primedKey env k).1 = { st with commitState }) ∨
      (st.primedKey env k).2 ≠ .fallthrough ∧
        (st.primedKey env k).1.rawMacroBuffer = st.rawMacroBuffer := by
  unfold primedKey
  dsimp only
  split
  · exact .inl ⟨rfl, _, rfl⟩
  · split
    · split
      · exact .inr ⟨by simp, ReplayCommittedChars_buffer⟩
      · exact .inl ⟨rfl, _, rfl⟩
    · exact .inr ⟨by simp, HandleBackspace_buffer.trans ReplayCommittedChars_buffer⟩
    · split
      · split
        · exact .inr ⟨by simp, ReplayCommittedChars_buffer⟩
        · exact .inr ⟨by simp, ReplayCommittedChars_buffer⟩
      · split
        · exact .inl ⟨rfl, _, rfl⟩
        · exact .inl ⟨rfl, _, rfl⟩

/-- The undo of a commit leaves a key alone, or lets a Backspace pass, or replays a committed word. -/
lemma HandleCommitUndoFsm_cases :
    ((st.HandleCommitUndoFsm env k).2 = .fallthrough ∧
        ∃ commitState, (st.HandleCommitUndoFsm env k).1 = { st with commitState }) ∨
      ((st.HandleCommitUndoFsm env k).2 = .pass ∧ k.key = .back ∧
        ((∃ commitState, (st.HandleCommitUndoFsm env k).1 = { st with commitState }) ∨
          (st.HandleCommitUndoFsm env k).1.rawMacroBuffer = [])) ∨
      ((st.HandleCommitUndoFsm env k).2 ≠ .fallthrough ∧
        (st.commitState.phase = .primed ∧ st.engine.count = 0) ∧
          (st.HandleCommitUndoFsm env k).1.rawMacroBuffer = st.rawMacroBuffer) := by
  obtain ⟨commitState, hexpire, hprimed⟩ := @expireReady_eq st k
  unfold HandleCommitUndoFsm
  rw [hexpire]
  dsimp only
  split
  · next hback hcount =>
    split
    · exact .inr (.inl ⟨rfl, hback, .inl ⟨_, rfl⟩⟩)
    · exact .inr (.inl ⟨rfl, hback, .inr rfl⟩)
  · next hphase hcount =>
    rcases @primedKey_cases _ env { st with commitState } k with ⟨hfall, _, hsame⟩ | ⟨htaken, hbuffer⟩
    · exact .inl ⟨hfall, _, hsame⟩
    · exact .inr (.inr ⟨htaken, ⟨hprimed hphase, of_decide_eq_true hcount⟩, hbuffer⟩)
  · obtain ⟨_, hsame⟩ := @readyKey_eq { st with commitState } k
    exact .inl ⟨rfl, _, hsame⟩

/-- A key that the undo of a commit leaves alone. -/
lemma HandleCommitUndoFsm_fallthrough (h : (st.HandleCommitUndoFsm env k).2 = .fallthrough) :
    ∃ commitState, (st.HandleCommitUndoFsm env k).1 = { st with commitState } := by
  rcases @HandleCommitUndoFsm_cases _ env st k with ⟨-, hsame⟩ | ⟨hpass, -⟩ | ⟨htaken, -⟩
  · exact hsame
  · rw [hpass] at h
    cases h
  · exact absurd h htaken

/-- A letter key is what the output paths make of it, whichever of them is taken. -/
theorem HandleAlphaKey_eq_press {front : List Char} {vkCode : Nat} (dispatcher : OutputDispatcher)
    (hvk : isLetterVk vkCode) (hengine : st.engine.Reachable) (h : st.toComposing.Agrees front)
    (hshort : st.engine.peek.length ≤ 60)
    (hnew : (st.HandleAlphaKey env k vkCode).engine.peek.length ≤ 60) :
    (st.HandleAlphaKey env k vkCode).toComposing =
      st.toComposing.press
        { typingContext env k with vietnameseMode := true, hasTarget := true, dispatcher }
        vkCode k.shift k.capsLock := by
  have hpushed := @Composing.Agrees.pushLetter _ (typingContext env k) st.toComposing front h
    (originalCh vkCode k.shift k.capsLock)
  have hedit := @Composing.editTo_eq (pushLetter (typingContext env k) st.toComposing
    (originalCh vkCode k.shift k.capsLock)).1 front (st.HandleAlphaKey env k vkCode).engine.peek
    (hpushed.2.trans (congrArg (front ++ ·) hpushed.1.symm))
  have hengineKey : (st.toComposing.press
      { typingContext env k with vietnameseMode := true, hasTarget := true, dispatcher } vkCode k.shift
        k.capsLock).engine = (st.HandleAlphaKey env k vkCode).engine := outputLetter_engine
  rw [press_eq hvk hengine h hshort (hengineKey ▸ hnew) rfl rfl]
  exact hedit

end HookTyping

end Locale

end NextKey
