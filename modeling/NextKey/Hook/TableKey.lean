import NextKey.Hook.ScreenAgreement

/-!
# A key in any code table

Model of `ProcessKeyDown` in `app/system/HookEngine.cpp` in Vietnamese mode with macros on, for the keys
of `HookKey`, every code table and with the automatic restore of a commit. No hotkey is among the keys.
What the edits make of the screen and of the encoded widths comes with each key: no branch of the hook
reads either of them.
-/

namespace NextKey

/-- The settings of the hook and the code table of the app. -/
structure TableConfig extends HookConfig where
  codeTable : CodeTable

/-- A key, the encoded widths of the composition that it finds, and what the window shows after it. -/
structure TableKey extends HookKeyDown where
  previousEncodedWidths : List Nat := []
  shown : List Char := []

section Ctype

variable [WideCtype] [WideLocale]

namespace TableConfig

variable (env : TableConfig) (st : HookTyping) (k : TableKey)

/-- What `TryExpandMacro` reads, when `HandleMacro` calls it. -/
def tried : Option MacroState :=
  match k.key with
  | .trigger vkCode _ _ _ =>
    if env.macroTable ≠ [] ∧ ¬st.tempMacroOff ∧ env.IsMacroTrigger vkCode ∧ st.rawMacroBuffer ≠ [] then
      some { st.macroState env.toHookConfig with
        previousEncodedWidths := k.previousEncodedWidths
        currentCodeTable := env.codeTable }
    else none
  | .letter _ _ | .back => none

/-- C++ `HandleMacro` -/
def HandleMacro : HookTyping × KeyOutcome :=
  let st := st.track env.toHookConfig k.toHookKeyDown
  match env.tried st k with
  | some macroState =>
    let plan := macroState.plan k.key.macroChar env.mapper
    if plan.matched then
      (st.ClearWordState.CancelCommitUndo, if plan.isPartOfMacro then .eat else .pass)
    else (st, .fallthrough)
  | none => (st, .fallthrough)

/-- The automatic restore of `CommitComposition`. -/
def autoRestore : HookTyping := ({ toHookTyping := st } : WordTyping).autoRestore env.toHookConfig

/-- Steps 6 to 8. -/
def composeKey : HookTyping × KeyOutcome :=
  match k.key with
  | .trigger vkCode macroChar _ _ =>
    match st.engineChar env.toHookConfig k.toHookKeyDown vkCode macroChar with
    | some ch => (st.pushKey env.toHookConfig ch, .eat)
    | none =>
      if 0 < st.engine.count then ((env.autoRestore st).commitKey env.toHookConfig macroChar, .pass)
      else (st, .pass)
  | .letter _ _ | .back => st.composeKey env.toHookConfig k.toHookKeyDown

/-- C++ `DispatchKeyAction` -/
def DispatchKeyAction : HookTyping × KeyOutcome :=
  if st.tempEngineOff then (st.bypassedKey k.toHookKeyDown, .pass)
  else
    match st.digitLed env.toHookConfig k.toHookKeyDown with
    | .arm => ({ st with digitLedWord := true }, .pass)
    | .bypass => (st, .pass)
    | .reset => ({ st with digitLedWord := false }, .pass)
    | .proceed => env.composeKey st k

/-- The stages of `ProcessKeyDown`. -/
def stages : HookTyping × KeyOutcome :=
  HookTyping.andThen
    (HookTyping.andThen (st.HandleCommitUndoFsm env.toHookConfig k.toHookKeyDown)
      fun st => env.HandleMacro st k)
    fun st => env.DispatchKeyAction (st.HandlePreDispatch env.toHookConfig k.toHookKeyDown) k

/-- C++ `ProcessKeyDown`, and what the window shows when it is through with the key -/
def ProcessKeyDown : HookTyping := { (env.stages st k).1 with screen := k.shown }

/-- What `TryExpandMacro` reads, when the key gets there. -/
def lookup : Option MacroState :=
  let result := st.HandleCommitUndoFsm env.toHookConfig k.toHookKeyDown
  if result.2 = .fallthrough then
    env.tried (result.1.track env.toHookConfig k.toHookKeyDown) k
  else none

/-- The keys of the macro table. -/
def macroKeys : List WString := env.macroTable.map Prod.fst

end TableConfig

variable {env : TableConfig} {st : HookTyping} {k : TableKey}

/-- A state but for its screen. -/
def unseen (result : HookTyping × KeyOutcome) : HookTyping × KeyOutcome :=
  ({ result.1 with screen := [] }, result.2)

omit [WideLocale] in
/-- What is found decides whether a plan matches and keeps the trigger. -/
lemma Plan_congr {inp inp' : Macro.PlanInputs} {mapper : CaseMapper} (h : inp.search = inp'.search) :
    (Macro.Plan inp mapper).matched = (Macro.Plan inp' mapper).matched ∧
      (Macro.Plan inp mapper).isPartOfMacro = (Macro.Plan inp' mapper).isPartOfMacro := by
  unfold Macro.Plan
  rw [h]
  cases inp'.search with
  | none => exact ⟨rfl, rfl⟩
  | some found => exact ⟨rfl, rfl⟩

namespace TableConfig

omit [WideLocale] in
/-- When `TryExpandMacro` is not called there is no plan. -/
lemma expansion_of_tried_none (h : env.tried st k = none) :
    st.expansion env.toHookConfig k.toHookKeyDown = none := by
  unfold tried at h
  unfold HookTyping.expansion
  cases hkey : k.key with
  | letter vkCode hvk => rfl
  | back => rfl
  | trigger vkCode macroChar typed printable =>
    rw [hkey] at h
    exact if_neg fun hcalled =>
      absurd ((if_pos hcalled).symm.trans h) (Option.some_ne_none _)

omit [WideLocale] in
/-- The code table and the widths do not matter to what is found. -/
lemma expansion_of_tried {macroState : MacroState} (h : env.tried st k = some macroState) :
    ∃ plan : Macro.MacroPlan, plan.matched = (macroState.plan k.key.macroChar env.mapper).matched ∧
      plan.isPartOfMacro = (macroState.plan k.key.macroChar env.mapper).isPartOfMacro ∧
      st.expansion env.toHookConfig k.toHookKeyDown = if plan.matched then some plan else none := by
  unfold tried at h
  unfold HookTyping.expansion
  cases hkey : k.key with
  | letter vkCode hvk =>
    rw [hkey] at h
    cases h
  | back =>
    rw [hkey] at h
    cases h
  | trigger vkCode macroChar typed printable =>
    rw [hkey] at h
    by_cases hcalled : env.macroTable ≠ [] ∧ ¬st.tempMacroOff ∧ env.IsMacroTrigger vkCode ∧
      st.rawMacroBuffer ≠ []
    · have hread := Option.some.inj ((if_pos hcalled).symm.trans h)
      subst hread
      obtain ⟨hmatched, hpart⟩ := @Plan_congr _
        ((st.macroState env.toHookConfig).planInputs macroChar)
        (({ st.macroState env.toHookConfig with
          previousEncodedWidths := k.previousEncodedWidths
          currentCodeTable := env.codeTable } : MacroState).planInputs macroChar) env.mapper rfl
      exact ⟨(st.macroState env.toHookConfig).plan macroChar env.mapper, hmatched, hpart,
        if_pos hcalled⟩
    · exact absurd ((if_neg hcalled).symm.trans h) (Option.some_ne_none _).symm

/-- A key that expands nothing leaves the state as it was tracked, and an expansion differs on the screen
alone. -/
lemma HandleMacro_cases :
    env.HandleMacro st k = st.HandleMacro env.toHookConfig k.toHookKeyDown ∧
        ((env.HandleMacro st k).2 = .fallthrough →
          (env.HandleMacro st k).1 = st.track env.toHookConfig k.toHookKeyDown) ∨
      (env.HandleMacro st k).2 ≠ .fallthrough ∧
        unseen (env.HandleMacro st k) = unseen (st.HandleMacro env.toHookConfig k.toHookKeyDown) := by
  unfold HandleMacro HookTyping.HandleMacro
  dsimp only
  generalize st.track env.toHookConfig k.toHookKeyDown = tracked
  cases htried : env.tried tracked k with
  | none =>
    rw [expansion_of_tried_none htried]
    exact .inl ⟨rfl, fun _ => rfl⟩
  | some macroState =>
    obtain ⟨plan, hmatched, hpart, hexpansion⟩ := expansion_of_tried htried
    rw [hexpansion]
    dsimp only
    rw [← hmatched, ← hpart]
    split
    · refine .inr ⟨?_, rfl⟩
      split <;> simp
    · exact .inl ⟨rfl, fun _ => rfl⟩

/-- A commit that restores nothing. -/
lemma DispatchKeyAction_eq (h : env.autoRestore st = st) :
    env.DispatchKeyAction st k = st.DispatchKeyAction env.toHookConfig k.toHookKeyDown := by
  have hcompose : env.composeKey st k = st.composeKey env.toHookConfig k.toHookKeyDown := by
    unfold composeKey HookTyping.composeKey
    rw [h]
    cases k.key with
    | letter vkCode hvk => rfl
    | back => rfl
    | trigger vkCode macroChar typed printable => rfl
  unfold DispatchKeyAction HookTyping.DispatchKeyAction
  generalize env.composeKey st k = composed at hcompose ⊢
  subst hcompose
  cases st.digitLed env.toHookConfig k.toHookKeyDown with
  | arm => rfl
  | bypass => rfl
  | reset => rfl
  | proceed => rfl

omit [WideCtype] in
/-- What is composed says whether a commit restores. -/
lemma autoRestore_congr {mid : HookTyping} (h : env.autoRestore st = st)
    (hengine : mid.engine = st.engine) (hprevious : mid.previousComposition = st.previousComposition) :
    env.autoRestore mid = mid := by
  unfold autoRestore WordTyping.autoRestore at h ⊢
  dsimp only at h ⊢
  rw [hengine, hprevious]
  split
  · next hrestore =>
    rw [if_pos hrestore] at h
    exact absurd (congrArg (fun st => st.previousComposition) h) hrestore.2
  · rfl

/-- Without a restore a key does what it does in the Unicode code table, but for the screen. -/
theorem ProcessKeyDown_eq (h : env.autoRestore st = st) : env.ProcessKeyDown st k =
    { st.ProcessKeyDown env.toHookConfig k.toHookKeyDown with screen := k.shown } := by
  have hstages : unseen (env.stages st k) = unseen (st.stages env.toHookConfig k.toHookKeyDown) := by
    unfold stages HookTyping.stages HookTyping.andThen
    dsimp only
    by_cases hfall : (st.HandleCommitUndoFsm env.toHookConfig k.toHookKeyDown).2 = .fallthrough
    · obtain ⟨commitState, hundo⟩ := HookTyping.HandleCommitUndoFsm_fallthrough hfall
      rw [if_pos hfall, if_pos hfall, hundo]
      rcases @HandleMacro_cases _ _ env { st with commitState } k with
        ⟨hsame, htracked⟩ | ⟨htaken, hunseen⟩
      · rw [← hsame]
        split
        · next hleft =>
          rw [htracked hleft]
          obtain ⟨autoCapState, hpre⟩ := @HookTyping.HandlePreDispatch_eq env.toHookConfig
            (({ st with commitState } : HookTyping).track env.toHookConfig k.toHookKeyDown)
            k.toHookKeyDown
          rw [hpre, DispatchKeyAction_eq]
          unfold HookTyping.track
          split
          · exact autoRestore_congr h rfl rfl
          · exact autoRestore_congr h rfl rfl
        · rfl
      · have htaken' : (({ st with commitState } : HookTyping).HandleMacro env.toHookConfig
            k.toHookKeyDown).2 ≠ .fallthrough :=
          fun hnot => htaken ((congrArg Prod.snd hunseen).trans hnot)
        rw [if_neg htaken, if_neg htaken', hunseen]
    · rw [if_neg hfall, if_neg hfall, if_neg hfall, if_neg hfall]
  have hscreen (result : HookTyping × KeyOutcome) : ({ result.1 with screen := k.shown } : HookTyping) =
      { (unseen result).1 with screen := k.shown } := rfl
  rw [ProcessKeyDown, hscreen, hstages]
  unfold HookTyping.ProcessKeyDown HookTyping.settle
  split
  · rfl
  · rfl

end TableConfig

namespace HookTyping

variable {env : HookConfig} {k : HookKeyDown}

omit [WideCtype] [WideLocale] in
/-- Only a Backspace primes the undo of a commit. -/
lemma readyKey_primed (h : (st.readyKey k).commitState.phase = .primed) :
    st.commitState.phase = .primed := by
  unfold readyKey at h
  split at h
  · split at h
    · exact h
    · cases h
  · exact h

omit [WideCtype] in
/-- The undo of a commit leaves a key alone that is no Backspace and does not follow one. -/
lemma HandleCommitUndoFsm_unprimed (hprimed : st.commitState.phase ≠ .primed) (hback : k.key ≠ .back) :
    ∃ commitState, commitState.phase ≠ .primed ∧
      st.HandleCommitUndoFsm env k = ({ st with commitState }, .fallthrough) := by
  obtain ⟨commitState, hexpire, hstill⟩ := @expireReady_eq st k
  unfold HandleCommitUndoFsm
  rw [hexpire]
  dsimp only
  split
  · next hkey _ => exact absurd hkey hback
  · next hphase _ => exact absurd (hstill hphase) hprimed
  · obtain ⟨readyState, hready⟩ := @readyKey_eq { st with commitState } k
    refine ⟨readyState, fun hphase => hprimed (hstill ?_), by rw [hready]⟩
    exact @readyKey_primed { st with commitState } k (by rw [hready]; exact hphase)

end HookTyping

namespace TableConfig

/-- A key whose lookup does not match leaves the state as it was tracked. -/
lemma HandleMacro_unmatched
    (h : ∀ macroState, env.tried (st.track env.toHookConfig k.toHookKeyDown) k = some macroState →
      (macroState.plan k.key.macroChar env.mapper).matched = false) :
    env.HandleMacro st k = (st.track env.toHookConfig k.toHookKeyDown, .fallthrough) := by
  unfold HandleMacro
  dsimp only
  split
  · next macroState htried => rw [h macroState htried, if_neg Bool.false_ne_true]
  · rfl

/-- A key that the undo of a commit and the macros leave alone is dispatched. -/
lemma ProcessKeyDown_of_action (htable : env.macroTable ≠ [])
    (hprimed : st.commitState.phase ≠ .primed) (hback : k.key ≠ .back)
    (hunmatched : ∀ macroState, env.lookup st k = some macroState →
      (macroState.plan k.key.macroChar env.mapper).matched = false) :
    ∃ commitState autoCapState, commitState.phase ≠ .primed ∧
      env.ProcessKeyDown st k =
        { (env.DispatchKeyAction
            { st with
              commitState, autoCapState
              rawMacroBuffer := st.rawMacroBuffer ++ HookTyping.trackedChar k.toHookKeyDown }
            k).1 with screen := k.shown } := by
  obtain ⟨commitState, hphase, hundo⟩ :=
    @HookTyping.HandleCommitUndoFsm_unprimed _ st env.toHookConfig k.toHookKeyDown hprimed hback
  have hpassed : env.HandleMacro { st with commitState } k =
      (({ st with commitState } : HookTyping).track env.toHookConfig k.toHookKeyDown,
        .fallthrough) := by
    unfold lookup at hunmatched
    rw [hundo, if_pos rfl] at hunmatched
    exact HandleMacro_unmatched hunmatched
  have htrack : ({ st with commitState } : HookTyping).track env.toHookConfig k.toHookKeyDown =
      { st with
        commitState
        rawMacroBuffer := st.rawMacroBuffer ++ HookTyping.trackedChar k.toHookKeyDown } := if_pos htable
  have hstages : env.stages st k =
      env.DispatchKeyAction (({ st with
        commitState
        rawMacroBuffer := st.rawMacroBuffer ++ HookTyping.trackedChar k.toHookKeyDown } :
          HookTyping).HandlePreDispatch env.toHookConfig k.toHookKeyDown) k := by
    unfold stages
    rw [hundo]
    show HookTyping.andThen (env.HandleMacro { st with commitState } k) _ = _
    rw [hpassed, htrack]
    rfl
  obtain ⟨autoCapState, hpre⟩ := @HookTyping.HandlePreDispatch_eq env.toHookConfig
    { st with
      commitState
      rawMacroBuffer := st.rawMacroBuffer ++ HookTyping.trackedChar k.toHookKeyDown }
    k.toHookKeyDown
  refine ⟨commitState, autoCapState, hphase, ?_⟩
  rw [ProcessKeyDown, hstages, hpre]

end TableConfig

end Ctype

end NextKey
