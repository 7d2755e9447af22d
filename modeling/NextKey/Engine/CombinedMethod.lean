import Mathlib.Data.List.Induction
import Mathlib.Data.List.Infix
import NextKey.Engine.AutoRestore

/-!
# The combined method

`InputMethod::Combined` of `core/config/TypingConfig.h` takes the letters of Telex and the digits of VNI.
Where `TypingEngine` looks at the input method, it asks for the Telex modes, for the VNI modes, or for one
method: simple Telex, user-defined, and, in `FinalizeRegularChar` alone, full Telex.

On keys that are no digits the combined method does what Telex does, up to the `w` that only full Telex
takes back (`combined_run`): in the combined method `what` begins with `ư`.
-/

namespace NextKey

open EngineState

/-- The same configuration with the combined method. -/
def TypingConfig.combined (cfg : TypingConfig) : TypingConfig := { cfg with inputMethod := .combined }

namespace EngineState

variable [WideLocale] {st : EngineState} {states : List CharState} {cfg : TypingConfig} {c lower : Char}
  {action : TypingAction} {isUpper : Bool}

/-- The target of the tone does not ask for the method. -/
@[simp]
lemma relocateToneToTarget_combined :
    relocateToneToTarget cfg.combined states = relocateToneToTarget cfg states := rfl

/-- Nor does the completion of `ươ`. -/
@[simp]
lemma applyAutoUO_combined : applyAutoUO cfg.combined states = applyAutoUO cfg states := rfl

/-- Nor does the spell check. -/
@[simp]
lemma updateSpellState_combined : st.updateSpellState cfg.combined = st.updateSpellState cfg := rfl

omit [WideLocale] in
/-- Nor does the bias of a foreign initial. -/
@[simp]
lemma checkZwjfInitialBias_combined {prot : EnglishProtectionState} :
    checkZwjfInitialBias states cfg.combined prot = checkZwjfInitialBias states cfg prot := rfl

/-- Nor does the stroke. -/
@[simp]
lemma handleStrokeD_combined : handleStrokeD cfg.combined st c = handleStrokeD cfg st c := rfl

/-- Nor does a vowel typed twice. -/
@[simp]
lemma adjacentCircumflex_combined {targetBase : Char} :
    adjacentCircumflex cfg.combined st targetBase c = adjacentCircumflex cfg st targetBase c := rfl

/-- Nor does a circumflex further back. -/
@[simp]
lemma freeCircumflex_combined {targetBase : Char} :
    freeCircumflex cfg.combined st targetBase c = freeCircumflex cfg st targetBase c := rfl

/-- Nor does the rejection of a horn. -/
@[simp]
lemma hornRejects_combined {target : Nat} {mod : Modifier} {clearIdx : Option Nat} :
    hornRejects cfg.combined states target mod clearIdx = hornRejects cfg states target mod clearIdx := rfl

/-- Nor do the circumflex and the breve of VNI. -/
@[simp]
lemma processVniVowelModifier_combined {mod : Modifier} :
    processVniVowelModifier cfg.combined st mod c = processVniVowelModifier cfg st mod c := rfl

/-- Nor does the horn of VNI. -/
@[simp]
lemma handleVniHorn_combined : handleVniHorn cfg.combined st c = handleVniHorn cfg st c := rfl

/-- Nor does the blocking of a mark. -/
@[simp]
lemma modifierBlocked_combined {checkRaw : Bool} :
    modifierBlocked cfg.combined st lower checkRaw = modifierBlocked cfg st lower checkRaw := rfl

/-- Nor does the look at what a mark would recover or escape. -/
@[simp]
lemma wouldModifierRecoverOrEscape_combined :
    wouldModifierRecoverOrEscape cfg.combined st action c lower =
      wouldModifierRecoverOrEscape cfg st action c lower := rfl

/-- Nor does what follows a mark. -/
@[simp]
lemma afterModifier_combined : afterModifier cfg.combined st = afterModifier cfg st := rfl

/-- Nor does a quick consonant at the end. -/
@[simp]
lemma handleQuickEndConsonant_combined :
    handleQuickEndConsonant cfg.combined st lower = handleQuickEndConsonant cfg st lower := rfl

omit [WideLocale] in
/-- The combined method is one of the Telex modes. -/
lemma isTelexMode_combined (htelex : cfg.inputMethod = .telex) :
    cfg.combined.isTelexMode = cfg.isTelexMode := by
  rw [TypingConfig.isTelexMode, TypingConfig.isTelexMode, htelex]
  rfl

/-- The bias is computed as in Telex. -/
lemma recalcBias_combined (htelex : cfg.inputMethod = .telex) :
    st.recalcBias cfg.combined = st.recalcBias cfg := by
  unfold recalcBias
  rw [isTelexMode_combined htelex]
  rfl

/-- The tone keys are those of Telex. -/
lemma handleToneFsm_combined (htelex : cfg.inputMethod = .telex) :
    handleToneFsm cfg.combined st action c lower isUpper = handleToneFsm cfg st action c lower isUpper := by
  have hafter {st : EngineState} : afterTone cfg.combined st = afterTone cfg st := by
    unfold afterTone
    rw [recalcBias_combined htelex]
    rfl
  unfold handleToneFsm
  simp only [hafter]
  rfl

/-- The brackets insert as in Telex. -/
lemma handleHornInsert_combined (htelex : cfg.inputMethod = .telex) :
    handleHornInsert cfg.combined st action c = handleHornInsert cfg st action c := by
  have hsimple : cfg.inputMethod ≠ .simpleTelex := by simp [htelex]
  have hcombined : cfg.combined.inputMethod ≠ .simpleTelex := nofun
  rw [handleHornInsert, handleHornInsert, if_neg hsimple, if_neg hcombined]

/-- The circumflex is that of Telex. -/
lemma handleAdjacentCircumflex_combined (htelex : cfg.inputMethod = .telex) :
    handleAdjacentCircumflex cfg.combined st action c = handleAdjacentCircumflex cfg st action c := by
  have huser : cfg.inputMethod ≠ .userDefined := by simp [htelex]
  have hcombined : cfg.combined.inputMethod ≠ .userDefined := nofun
  unfold handleAdjacentCircumflex
  rw [if_neg huser, if_neg hcombined]
  simp only [adjacentCircumflex_combined, freeCircumflex_combined]

/-- A `w` types `ư` as in Telex. -/
lemma hornSynthetic_combined (htelex : cfg.inputMethod = .telex) :
    hornSynthetic cfg.combined st c = hornSynthetic cfg st c := by
  have hsimple : cfg.inputMethod ≠ .simpleTelex := by simp [htelex]
  have hcombined : cfg.combined.inputMethod ≠ .simpleTelex := nofun
  unfold hornSynthetic
  simp only [hsimple, hcombined, false_or]

/-- The horn of a single vowel is that of Telex. -/
lemma hornStandalone_combined {scan : HornScan} (htelex : cfg.inputMethod = .telex) :
    hornStandalone cfg.combined st c scan = hornStandalone cfg st c scan := by
  unfold hornStandalone
  simp only [hornRejects_combined, hornSynthetic_combined htelex]
  rfl

/-- A `w` does what it does in Telex. -/
lemma handleHornW_combined (htelex : cfg.inputMethod = .telex) :
    handleHornW cfg.combined st c = handleHornW cfg st c := by
  have hsimple : cfg.inputMethod ≠ .simpleTelex := by simp [htelex]
  have hcombined : cfg.combined.inputMethod ≠ .simpleTelex := nofun
  unfold handleHornW hornOutcome
  simp only [hsimple, hcombined, false_and, if_false, hornStandalone_combined htelex]

/-- So does a key that sets a horn or inserts `ư`. -/
lemma handleHornOrInsertU_combined (htelex : cfg.inputMethod = .telex) :
    handleHornOrInsertU cfg.combined st action c = handleHornOrInsertU cfg st action c := by
  unfold handleHornOrInsertU
  simp only [handleHornW_combined htelex, handleHornInsert_combined htelex]

/-- A key with a mark does what it does in Telex. -/
lemma processModifier_combined (htelex : cfg.inputMethod = .telex) :
    processModifier cfg.combined st action c = processModifier cfg st action c := by
  unfold processModifier
  simp only [handleHornInsert_combined htelex, handleHornW_combined htelex,
    handleAdjacentCircumflex_combined htelex, handleHornOrInsertU_combined htelex,
    handleStrokeD_combined, processVniVowelModifier_combined, handleVniHorn_combined]

/-- A mark is tried as in Telex. -/
lemma tryModifier_combined {checkRaw checkSpell : Bool} (htelex : cfg.inputMethod = .telex) :
    tryModifier cfg.combined st action c lower checkRaw checkSpell =
      tryModifier cfg st action c lower checkRaw checkSpell := by
  have hopen : modifierOpen cfg.combined st action c lower checkRaw checkSpell =
      modifierOpen cfg st action c lower checkRaw checkSpell := rfl
  unfold tryModifier
  rw [hopen, processModifier_combined htelex]
  rfl

/-- An action that no digit has. -/
lemma handleModifierAction_combined (htelex : cfg.inputMethod = .telex) (hvni : ¬action.isVniModifier) :
    handleModifierAction cfg.combined st action c lower = handleModifierAction cfg st action c lower := by
  have huser : (cfg.inputMethod == .userDefined) = false := by simp [htelex]
  have hcombined : (cfg.combined.inputMethod == .userDefined) = false := rfl
  unfold handleModifierAction
  simp only [huser, hcombined, hvni, isTelexMode_combined htelex, tryModifier_combined htelex,
    Bool.false_eq_true, and_false, if_false]

/-- A key that is no digit, in either case. -/
def NoDigit (c : Char) : Prop := isDigitKey c = false ∧ isDigitKey (towlower c) = false

instance NoDigit.decidable : Decidable (NoDigit c) := inferInstanceAs (Decidable (_ ∧ _))

omit [WideLocale] in
/-- In VNI only digits have an action. -/
lemma classifyVni_of_noDigit (h : isDigitKey lower = false) : classifyVni lower = .none := by
  unfold classifyVni
  split <;> first | rfl | exact absurd h (by decide)

/-- A key that is no digit is classified as in Telex. -/
lemma classify_combined (htelex : cfg.inputMethod = .telex) (hc : NoDigit c) :
    classify cfg.combined st c (towlower c) = classify cfg st c (towlower c) := by
  have hdigits {cfg : TypingConfig} : isVniDigitSequence cfg st c = false := by
    simp [isVniDigitSequence, hc.1]
  have huser : cfg.inputMethod ≠ .userDefined := by simp [htelex]
  have hcombined : cfg.combined.inputMethod ≠ .userDefined := nofun
  have hkey {isTelex isVni : Bool} : classifyKey (towlower c) isTelex isVni =
      if isTelex ∧ classifyTelex (towlower c) ≠ .none then classifyTelex (towlower c) else .none := by
    unfold classifyKey
    rw [classifyVni_of_noDigit hc.2, ite_self]
  unfold classify
  rw [hdigits, hdigits, if_neg huser, if_neg hcombined, hkey, hkey, isTelexMode_combined htelex]

/-- In Telex no key has a mark of VNI. -/
lemma not_isVniModifier_classify (htelex : cfg.inputMethod = .telex) (hc : NoDigit c) :
    ¬(classify cfg st c (towlower c)).isVniModifier := by
  have huser : cfg.inputMethod ≠ .userDefined := by simp [htelex]
  have hletter : ¬(classifyTelex (towlower c)).isVniModifier := by
    generalize towlower c = lower
    unfold classifyTelex
    split <;> decide
  unfold classify
  rw [if_neg huser, classifyKey, classifyVni_of_noDigit hc.2, ite_self]
  split
  · decide
  · rw [if_neg (by simp)]
    split
    · exact hletter
    · decide

/-- Only of a raw input in `wh` or `wr` a `w` is taken back, -/
lemma revertSyntheticW_kept (h : isHardEnglishRawStart st.rawInput = false) :
    revertSyntheticW cfg st = st := by
  unfold revertSyntheticW
  simp [h]

/-- and only in full Telex. -/
lemma finalizeRegularChar_combined (htelex : cfg.inputMethod = .telex)
    (hraw : isHardEnglishRawStart st.rawInput = false) :
    st.finalizeRegularChar cfg.combined = st.finalizeRegularChar cfg := by
  unfold finalizeRegularChar
  dsimp only
  rw [isTelexMode_combined htelex, revertSyntheticW_kept, revertSyntheticW_kept]
  · rfl
  · exact hraw
  · exact hraw

/-- A regular character, when no `w` is taken back. -/
lemma appendRegular_combined (htelex : cfg.inputMethod = .telex)
    (hraw : isHardEnglishRawStart (appendRegular cfg st lower isUpper).rawInput = false) :
    appendRegular cfg.combined st lower isUpper = appendRegular cfg st lower isUpper := by
  unfold appendRegular at hraw ⊢
  rw [handleQuickEndConsonant_combined]
  cases hquick : handleQuickEndConsonant cfg st lower with
  | some st' => rfl
  | none =>
    rw [hquick] at hraw
    refine finalizeRegularChar_combined htelex ?_
    rwa [finalizeRegularChar_rawInput.1] at hraw

/-- A key that may set a mark, when no `w` is taken back. -/
lemma dispatchModifier_combined (htelex : cfg.inputMethod = .telex) (hvni : ¬action.isVniModifier)
    (hraw : isHardEnglishRawStart (dispatchModifier cfg st action c lower isUpper).rawInput = false) :
    dispatchModifier cfg.combined st action c lower isUpper =
      dispatchModifier cfg st action c lower isUpper := by
  unfold dispatchModifier at hraw ⊢
  rw [handleModifierAction_combined htelex hvni]
  split at hraw
  · next hconsumed => rw [if_pos hconsumed, if_pos hconsumed]
  · next hpassed => rw [if_neg hpassed, if_neg hpassed, appendRegular_combined htelex hraw]

/-- Every action, when no `w` is taken back. -/
lemma dispatch_combined (htelex : cfg.inputMethod = .telex) (hvni : ¬action.isVniModifier)
    (hraw : isHardEnglishRawStart (dispatch cfg st action c lower isUpper).rawInput = false) :
    dispatch cfg.combined st action c lower isUpper = dispatch cfg st action c lower isUpper := by
  rw [dispatch_eq] at hraw
  rw [dispatch_eq, dispatch_eq, handleToneFsm_combined htelex]
  split at hraw
  · next htone =>
    rw [if_pos htone, if_pos htone]
    split at hraw
    · next htoned => rw [if_pos htoned, if_pos htoned]
    · next hpassed =>
      rw [if_neg hpassed, if_neg hpassed]
      exact dispatchModifier_combined htelex hvni hraw
  · next htone =>
    rw [if_neg htone, if_neg htone]
    exact dispatchModifier_combined htelex hvni hraw

/-- A quick consonant, when no `w` is taken back. -/
lemma quickConsonantExpand_combined (htelex : cfg.inputMethod = .telex)
    (hraw : ∀ st', quickConsonantExpand cfg st lower isUpper = some st' →
      isHardEnglishRawStart st'.rawInput = false) :
    quickConsonantExpand cfg.combined st lower isUpper = quickConsonantExpand cfg st lower isUpper := by
  unfold quickConsonantExpand at hraw ⊢
  dsimp only at hraw ⊢
  split
  · rfl
  · next hne =>
    rw [if_neg hne] at hraw
    split
    · next hlast =>
      rw [if_pos hlast] at hraw
      split
      · next replacement hreplacement =>
        refine congrArg some (finalizeRegularChar_combined htelex ?_)
        have hfinal := hraw _ (by rw [hreplacement])
        rwa [finalizeRegularChar_rawInput.1] at hfinal
      · rfl
    · rfl

/-- A quick start, when no `w` is taken back. -/
lemma handleQuickStartConsonant_combined (htelex : cfg.inputMethod = .telex)
    (hraw : (handleQuickStartConsonant cfg st c lower isUpper).2 = true →
      isHardEnglishRawStart (handleQuickStartConsonant cfg st c lower isUpper).1.rawInput = false) :
    handleQuickStartConsonant cfg.combined st c lower isUpper =
      handleQuickStartConsonant cfg st c lower isUpper := by
  have hstart : (if cfg.combined.quickStartConsonant ∧ st.states = [] then quickStartPair lower else none) =
      if cfg.quickStartConsonant ∧ st.states = [] then quickStartPair lower else none := rfl
  unfold handleQuickStartConsonant at hraw ⊢
  dsimp only at hraw ⊢
  rw [hstart]
  cases hpair : if cfg.quickStartConsonant ∧ st.states = [] then quickStartPair lower else none with
  | some pair => rfl
  | none =>
    rw [hpair] at hraw
    dsimp only at hraw ⊢
    split
    · next hopen =>
      rw [if_pos (show cfg.quickConsonant ∧ _ from hopen)] at hraw ⊢
      rw [quickConsonantExpand_combined htelex fun st' hexpand => ?_]
      rw [hexpand] at hraw
      exact hraw rfl
    · next hshut => rw [if_neg (show ¬(cfg.quickConsonant ∧ _) from hshut)]

/-- A key that is no digit. -/
lemma pushChar_combined (htelex : cfg.inputMethod = .telex) (hc : NoDigit c)
    (hraw : isHardEnglishRawStart (st.pushChar cfg c).rawInput = false) :
    st.pushChar cfg.combined c = st.pushChar cfg c := by
  unfold pushChar at hraw ⊢
  dsimp only at hraw ⊢
  rw [handleQuickStartConsonant_combined htelex fun hveto => by rwa [if_pos hveto] at hraw]
  split at hraw
  · next hveto => rw [if_pos hveto, if_pos hveto]
  · next hveto =>
    rw [if_neg hveto, if_neg hveto, classify_combined htelex hc]
    exact dispatch_combined htelex (not_isVniModifier_classify htelex hc) hraw

/-- Backspace does not ask for the method. -/
lemma backspace_combined (htelex : cfg.inputMethod = .telex) :
    st.backspace cfg.combined = st.backspace cfg := by
  have hundo {st : EngineState} : undoQuickConsonant cfg.combined st = undoQuickConsonant cfg st := by
    unfold undoQuickConsonant
    simp only [updateSpellState_combined, recalcBias_combined htelex]
  have hpop {st : EngineState} : popChar cfg.combined st = popChar cfg st := by
    unfold popChar
    simp only [updateSpellState_combined, recalcBias_combined htelex]
  unfold backspace
  simp only [hundo, hpop, updateSpellState_combined]

/-- Telex and the combined method make the same of the same keys, as long as these are no digits and no raw
    input begins with a cluster that is taken for English, on which full Telex takes a leading `w` back. -/
theorem combined_run {events : List EngineEvent} (htelex : cfg.inputMethod = .telex)
    (hkeys : ∀ c, .push c ∈ events → NoDigit c)
    (hraw : ∀ before, before <+: events → isHardEnglishRawStart (run cfg {} before).rawInput = false) :
    run cfg.combined {} events = run cfg {} events := by
  induction events using List.reverseRecOn with
  | nil => rfl
  | append_singleton events e ih =>
    have hbefore := ih (fun c hc => hkeys c (List.mem_append_left _ hc))
      fun before h => hraw before (h.trans (List.prefix_append _ _))
    have hrun {cfg : TypingConfig} : run cfg {} (events ++ [e]) = (run cfg {} events).step cfg e :=
      Machine.run_append
    have hlast := hraw _ List.prefix_rfl
    rw [hrun] at hlast
    rw [hrun, hrun, hbefore]
    cases e with
    | push c => exact pushChar_combined htelex (hkeys c (by simp)) hlast
    | back => exact backspace_combined htelex

end EngineState

section Ascii

attribute [local instance] WideLocale.ascii

open EngineState

/-- The keys of `ước`, in Telex. -/
def uocKeys : List EngineEvent := [.push 'w', .push 'o', .push 's', .push 'k', .back, .push 'c']

/-- `ước` with a key taken back on the way. -/
theorem combined_run_uoc :
    run ({} : TypingConfig).combined {} uocKeys = run ({} : TypingConfig) {} uocKeys := by
  refine combined_run rfl ?_ ?_
  · intro c hc
    simp only [uocKeys, List.mem_cons, EngineEvent.push.injEq, List.not_mem_nil, or_false, reduceCtorEq,
      false_or] at hc
    obtain rfl | rfl | rfl | rfl | rfl := hc <;> decide
  · intro before hbefore
    have hinits : ∀ before ∈ uocKeys.inits,
        isHardEnglishRawStart (run ({} : TypingConfig) {} before).rawInput = false := by decide +kernel
    exact hinits before ((List.mem_inits _ _).2 hbefore)

/-- The combined method keeps the `ư` of `wh`. -/
example : (run ({} : TypingConfig) {} [.push 'w', .push 'h']).peek = ['w', 'h'] ∧
    (run ({} : TypingConfig).combined {} [.push 'w', .push 'h']).peek = ['ư', 'h'] := by decide +kernel

end Ascii

end NextKey
