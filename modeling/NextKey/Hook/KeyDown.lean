import NextKey.Hook.CommitUndo

/-!
# A key goes down

Model of `ProcessKeyDown`, `HandleMacro`, `HandlePreDispatch` and `DispatchKeyAction` in
`app/system/HookEngine.cpp`, of `core/MacroPrefix.h` and of `core/AutoCapStateTransition.h`, for the
keys of `HookKey` with macros on. No hotkey is among the keys. A key that the hook passes on reaches
the window, and so does the trigger that the synchronous channel types itself. An expansion is
delivered whole.
-/

namespace NextKey

def VK_OEM_1 : Nat := 0xBA
def VK_OEM_PERIOD : Nat := 0xBE
def VK_OEM_2 : Nat := 0xBF
def VK_OEM_3 : Nat := 0xC0
def VK_OEM_4 : Nat := 0xDB
def VK_OEM_6 : Nat := 0xDD
def VK_OEM_8 : Nat := 0xDF

/-- C++ `IsOemPunctVk` -/
def IsOemPunctVk (vkCode : Nat) : Bool :=
  decide (VK_OEM_1 ≤ vkCode ∧ vkCode ≤ VK_OEM_3) || decide (VK_OEM_4 ≤ vkCode ∧ vkCode ≤ VK_OEM_8)

/-- C++ `ComputeAutoCapStateTransition`, without Ctrl, Alt and Win -/
def ComputeAutoCapStateTransition (current : AutoCapState) (vkCode : Nat) (shift : Bool) :
    AutoCapState :=
  if vkCode = VK_OEM_PERIOD ∨ vkCode = VK_OEM_2 ∧ shift ∨ vkCode = 0x31 ∧ shift then .afterPunct
  else if vkCode = VK_SPACE ∧ (current = .afterPunct ∨ current = .readyToCapitalize) then
    .readyToCapitalize
  else if vkCode = VK_RETURN then .readyToCapitalize
  else if isLetterVk vkCode ∧ current = .readyToCapitalize then current
  else .idle

/-- A string of `wchar_t` units. -/
def wide (text : List Char) : WString := text.map fun c => UInt16.ofNat c.toNat

/-- The characters of `wchar_t` units. -/
def narrow (text : WString) : List Char := text.map fun c => Char.ofNat c.toNat

/-- `L' '` -/
def blank : UInt16 := 0x20

section Ctype

variable [WideCtype]

/-- C++ `IsSpaceMacroPrefix` -/
def IsSpaceMacroPrefix (candidate : WString) (spaceKeys : List WString) : Bool :=
  candidate ≠ [] && spaceKeys.any fun key =>
    decide (candidate.length ≤ key.length) &&
      if key.any WideCtype.iswupper then key.take candidate.length == candidate
      else key.take candidate.length == candidate.map WideCtype.towlower

/-- C++ `spaceMacroKeys`: the keys with a space -/
def HookConfig.spaceMacroKeys (env : HookConfig) : List WString :=
  (env.macroTable.map Prod.fst).filter (·.contains blank)

/-- C++ `IsMacroTrigger`, for a commit trigger with a character -/
def HookConfig.IsMacroTrigger (env : HookConfig) (vkCode : Nat) : Bool :=
  if vkCode = VK_SPACE then env.macroTriggerSpace else true

namespace HookTyping

variable [WideLocale] (env : HookConfig) (st : HookTyping) (k : HookKeyDown)

/-- What a key adds to the buffer. -/
def trackedChar (k : HookKeyDown) : WString :=
  match k.key with
  | .letter vkCode _ => wide [originalCh vkCode k.shift k.capsLock]
  | .back => []
  | .trigger _ macroChar _ _ => if blank < macroChar then [macroChar] else []

/-- The tracking in `HandleMacro`. -/
def track : HookTyping :=
  if env.macroTable ≠ [] then { st with rawMacroBuffer := st.rawMacroBuffer ++ trackedChar k } else st

/-- What `TryExpandMacro` reads. -/
def macroState : MacroState where
  rawMacroBuffer := st.rawMacroBuffer
  previousComposition := wide st.previousComposition
  previousEncodedWidths := []
  macroTable := env.macroTable
  macroCrossCommit := st.macroCrossCommit
  currentCodeTable := .Unicode
  autoCapsMacro := env.autoCapsMacro

/-- The plan of `TryExpandMacro` when it is called and finds a macro. -/
def expansion : Option Macro.MacroPlan :=
  match k.key with
  | .trigger vkCode macroChar _ _ =>
    if env.macroTable ≠ [] ∧ ¬st.tempMacroOff ∧ env.IsMacroTrigger vkCode ∧ st.rawMacroBuffer ≠ [] then
      let plan := (st.macroState env).plan macroChar env.mapper
      if plan.matched then some plan else none
    else none
  | .letter _ _ | .back => none

/-- What `TryExpandMacro` does with a plan. -/
def deliver (plan : Macro.MacroPlan) : HookTyping :=
  { st with
    screen := st.screen.rdrop plan.bsCount ++
      narrow (renderedExpansion .Unicode plan.expansion) }.ClearWordState.CancelCommitUndo

/-- C++ `HandleMacro` -/
def HandleMacro : HookTyping × KeyOutcome :=
  let st := st.track env k
  match st.expansion env k with
  | some plan => (st.deliver plan, if plan.isPartOfMacro then .eat else .pass)
  | none => (st, .fallthrough)

/-- C++ `HandlePreDispatch`: the state machine of the auto-capitalization -/
def HandlePreDispatch : HookTyping :=
  if env.autoCaps then
    { st with autoCapState := ComputeAutoCapStateTransition st.autoCapState k.key.vkCode k.shift }
  else st

/-- The character that the engine takes from a commit trigger, in steps 6b to 6d. -/
def engineChar (vkCode : Nat) (macroChar : UInt16) : Option Char :=
  if env.config.inputMethod = .telex ∧ vkCode = VK_OEM_4 ∧ ¬k.shift then some '['
  else if env.config.inputMethod = .telex ∧ vkCode = VK_OEM_6 ∧ ¬k.shift then some ']'
  else if env.config.inputMethod.hasDigitKeys ∧ isDigitVk vkCode ∧ 0 < st.engine.count ∧ ¬k.shift then
    some (Char.ofNat vkCode)
  else if env.config.inputMethod = .userDefined ∧ IsOemPunctVk vkCode then
    let action := env.config.customAction (Char.ofNat macroChar.toNat)
    if action ≠ .none ∧ (0 < st.engine.count ∨ action.isInsertType) then
      some (Char.ofNat macroChar.toNat)
    else none
  else none

/-- The buffer that step 8 keeps across the commit. -/
def savedMacroBuffer (macroChar : UInt16) : WString :=
  if env.macroTable ≠ [] ∧ ¬st.tempMacroOff ∧ st.rawMacroBuffer ≠ [] then
    if blank < macroChar then st.rawMacroBuffer
    else if macroChar = blank ∧
        IsSpaceMacroPrefix (st.rawMacroBuffer ++ [blank]) env.spaceMacroKeys then
      st.rawMacroBuffer ++ [blank]
    else []
  else []

/-- Step 8: a commit trigger behind a word. -/
def commitKey (macroChar : UInt16) : HookTyping :=
  let saved := st.savedMacroBuffer env macroChar
  let st := st.CommitComposition
  let st := if saved ≠ [] then { st with rawMacroBuffer := saved, macroCrossCommit := true } else st
  if st.commitState.pushedToStack then st.SetCommitUndoReady else st

/-- Steps 7 and 7b: a Backspace. -/
def backKey : HookTyping × KeyOutcome :=
  if 0 < st.engine.count then
    ({ st with rawMacroBuffer := st.rawMacroBuffer.dropLast }.HandleBackspace env, .eat)
  else if st.macroCrossCommit ∧ st.rawMacroBuffer ≠ [] then
    ({ st with
        rawMacroBuffer := st.rawMacroBuffer.dropLast
        macroCrossCommit := decide (st.rawMacroBuffer.dropLast ≠ []) }, .pass)
  else (st, .pass)

/-- Step 4b: the engine is off for the current word. -/
def bypassedKey : HookTyping :=
  match k.key with
  | .trigger _ _ _ _ => { st with tempEngineOff := false, digitLedWord := false }
  | .back =>
    if st.engine.count = 0 then { st with tempEngineOff := false, digitLedWord := false } else st
  | .letter _ _ => st

/-- Step 5b. -/
def digitLed : DigitLedDecision :=
  DecideDigitLed k.key.vkCode k.shift (st.engine.count == 0) env.config.inputMethod st.digitLedWord

/-- Steps 6 to 8. -/
def composeKey : HookTyping × KeyOutcome :=
  match k.key with
  | .letter vkCode _ => (st.HandleAlphaKey env k vkCode, .eat)
  | .back => st.backKey env
  | .trigger vkCode macroChar _ _ =>
    match st.engineChar env k vkCode macroChar with
    | some ch => (st.pushKey env ch, .eat)
    | none => if 0 < st.engine.count then (st.commitKey env macroChar, .pass) else (st, .pass)

/-- C++ `DispatchKeyAction` -/
def DispatchKeyAction : HookTyping × KeyOutcome :=
  if st.tempEngineOff then (st.bypassedKey k, .pass)
  else
    match st.digitLed env k with
    | .arm => ({ st with digitLedWord := true }, .pass)
    | .bypass => (st, .pass)
    | .reset => ({ st with digitLedWord := false }, .pass)
    | .proceed => st.composeKey env k

/-- A key that reaches the window. -/
def landed : List Char :=
  match k.key with
  | .letter vkCode _ => st.screen ++ [originalCh vkCode k.shift k.capsLock]
  | .back => st.screen.dropLast
  | .trigger _ _ typed _ => st.screen ++ [typed]

/-- The next stage, when the one before leaves the key to it. -/
def andThen (result : HookTyping × KeyOutcome) (next : HookTyping → HookTyping × KeyOutcome) :
    HookTyping × KeyOutcome :=
  if result.2 = .fallthrough then next result.1 else result

/-- The stages of `ProcessKeyDown`. -/
def stages : HookTyping × KeyOutcome :=
  andThen (andThen (st.HandleCommitUndoFsm env k) fun st => st.HandleMacro env k) fun st =>
    (st.HandlePreDispatch env k).DispatchKeyAction env k

/-- A key that is not eaten reaches the window. -/
def settle (k : HookKeyDown) (result : HookTyping × KeyOutcome) : HookTyping :=
  if result.2 = .eat then result.1 else { result.1 with screen := result.1.landed k }

/-- C++ `ProcessKeyDown`, and the key when it is not eaten -/
def ProcessKeyDown : HookTyping := settle k (st.stages env k)

/-- The plan that the key finds, when it finds one. -/
def found : Option Macro.MacroPlan :=
  let result := st.HandleCommitUndoFsm env k
  if result.2 = .fallthrough then (result.1.track env k).expansion env k else none

variable {env st k}

omit [WideCtype] in
/-- To settle a key leaves the buffer of the macros. -/
lemma settle_buffer (result : HookTyping × KeyOutcome) :
    (settle k result).rawMacroBuffer = result.1.rawMacroBuffer := by
  unfold settle
  split <;> rfl

/-- The undo of a commit has the key. -/
lemma ProcessKeyDown_of_undo (h : (st.HandleCommitUndoFsm env k).2 ≠ .fallthrough) :
    st.ProcessKeyDown env k = settle k (st.HandleCommitUndoFsm env k) := by
  have hstage : andThen (st.HandleCommitUndoFsm env k) (fun st => st.HandleMacro env k) =
      st.HandleCommitUndoFsm env k := if_neg h
  unfold ProcessKeyDown stages
  rw [hstage]
  exact congrArg (settle k) (if_neg h)

/-- An expansion has the key, and leaves nothing in the buffer. -/
lemma ProcessKeyDown_of_found {plan} (h : st.found env k = some plan) :
    (st.ProcessKeyDown env k).rawMacroBuffer = [] := by
  unfold found at h
  dsimp only at h
  split at h
  · next hfall =>
    unfold ProcessKeyDown stages
    rw [settle_buffer]
    have hstage : andThen (st.HandleCommitUndoFsm env k) (fun st => st.HandleMacro env k) =
        (((st.HandleCommitUndoFsm env k).1.track env k).deliver plan,
          if plan.isPartOfMacro then .eat else .pass) := by
      rw [andThen, if_pos hfall]
      simp only [HandleMacro, h]
    rw [hstage, andThen, if_neg]
    · rfl
    · split <;> simp
  · cases h

/-- The action of the key is reached, with the key in the buffer. -/
lemma ProcessKeyDown_of_action (htable : env.macroTable ≠ [])
    (hfall : (st.HandleCommitUndoFsm env k).2 = .fallthrough) (hfound : st.found env k = none) :
    ∃ commitState, st.ProcessKeyDown env k = settle k (({ st.HandlePreDispatch env k with
      commitState, rawMacroBuffer := st.rawMacroBuffer ++ trackedChar k } :
        HookTyping).DispatchKeyAction
        env k) := by
  obtain ⟨commitState, hsame⟩ := HandleCommitUndoFsm_fallthrough hfall
  refine ⟨commitState, ?_⟩
  have hplan : ((st.HandleCommitUndoFsm env k).1.track env k).expansion env k = none := by
    unfold found at hfound
    rwa [if_pos hfall] at hfound
  have hstage : andThen (st.HandleCommitUndoFsm env k) (fun st => st.HandleMacro env k) =
      ((st.HandleCommitUndoFsm env k).1.track env k, .fallthrough) := by
    rw [andThen, if_pos hfall]
    simp only [HandleMacro, hplan]
  unfold ProcessKeyDown stages
  rw [hstage, andThen, if_pos rfl, hsame, track, if_pos htable]
  congr 2
  unfold HandlePreDispatch
  split <;> rfl

end HookTyping

end Ctype

end NextKey
