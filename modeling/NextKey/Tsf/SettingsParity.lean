import NextKey.Hook.LiveConfig
import NextKey.Tsf.EngineController

/-!
# The settings of the two clients

The shared state is decoded twice: by `EngineController::ApplySharedState` in the TSF DLL and by
`HookEngine::QuickSyncFromSharedState` in the application. Both use `DecodeFeatureFlags`, and both cast
the byte of the input method; but `ApplySharedState` takes the bytes behind `SimpleTelex` for invalid,
though `Combined` and `UserDefined` have been added there.

What the shared state does not carry, the TSF DLL never reads: the hook alone has spell exclusions and a
custom key map.
-/

namespace NextKey

open EngineState

/-- The value of the C++ enumeration. -/
def InputMethod.code : InputMethod → BitVec 8
  | .telex => 0
  | .vni => 1
  | .simpleTelex => 2
  | .combined => 3
  | .userDefined => 4

/-- `static_cast` of the value of an enumerator -/
def InputMethod.ofCode (code : BitVec 8) : InputMethod :=
  match code.toNat with
  | 0 => .telex
  | 1 => .vni
  | 2 => .simpleTelex
  | 3 => .combined
  | _ => .userDefined

/-- A method is read as it was stored. -/
lemma InputMethod.ofCode_code (method : InputMethod) : ofCode method.code = method := by
  cases method <;> rfl

/-- The fields of `TypingConfig` that the engine reads and only the TOML has. -/
structure LocalSettings where
  spellExclusions : List (List Char) := []
  customKeyMap : Fin 128 → TypingAction := fun _ => .none

/-- The config the hook creates its engine with. -/
def hookTypingConfig (cfg : SyncedConfig LocalSettings) : TypingConfig where
  inputMethod := .ofCode cfg.inputMethod
  spellCheckEnabled := cfg.spellCheckEnabled
  modernOrtho := cfg.features.modernOrtho
  allowZwjf := cfg.features.allowZwjf
  autoRestoreEnabled := cfg.features.autoRestoreEnabled
  quickConsonant := cfg.features.quickConsonant
  quickStartConsonant := cfg.features.quickStartConsonant
  quickEndConsonant := cfg.features.quickEndConsonant
  allowEnglishBypass := cfg.features.allowEnglishBypass
  spellExclusions := cfg.rest.spellExclusions
  customKeyMap := cfg.rest.customKeyMap

/-- The input method, the spell check and the decoded feature flags of the two clients are the same. -/
structure ReadsAlike (tsf : TsfConfig) (hook : SyncedConfig LocalSettings) : Prop where
  inputMethod : tsf.inputMethod = (hookTypingConfig hook).inputMethod
  spellCheckEnabled : tsf.spellCheckEnabled = hook.spellCheckEnabled
  modernOrtho : tsf.modernOrtho = hook.features.modernOrtho
  allowZwjf : tsf.allowZwjf = hook.features.allowZwjf
  autoRestoreEnabled : tsf.autoRestoreEnabled = hook.features.autoRestoreEnabled
  quickConsonant : tsf.quickConsonant = hook.features.quickConsonant
  quickStartConsonant : tsf.quickStartConsonant = hook.features.quickStartConsonant
  quickEndConsonant : tsf.quickEndConsonant = hook.features.quickEndConsonant
  allowEnglishBypass : tsf.allowEnglishBypass = hook.features.allowEnglishBypass
  autoCaps : tsf.autoCaps = hook.features.autoCaps
  escRestoreRawEnabled : tsf.escRestoreRawEnabled = hook.features.escRestoreRawEnabled
  suggestKeepChars : tsf.suggestKeepChars = hook.features.suggestKeepChars

/-- The input methods that `ApplySharedState` takes for valid. -/
def InputMethod.Decoded (method : InputMethod) : Prop :=
  method = .telex ∨ method = .vni ∨ method = .simpleTelex

section Locale

variable [WideLocale]

/-- The configs are the same but for the custom key map, which neither uses. -/
structure SameButKeyMap (cfg cfg' : TypingConfig) : Prop where
  eq : cfg' = { cfg with customKeyMap := cfg'.customKeyMap }
  unused : cfg.inputMethod ≠ .userDefined

namespace SameButKeyMap

variable {cfg cfg' : TypingConfig} (h : SameButKeyMap cfg cfg') {st : EngineState}
include h

omit [WideLocale] in
/-- A key is classified alike. -/
lemma classify {keyChar lower : Char} :
    EngineState.classify cfg' st keyChar lower = EngineState.classify cfg st keyChar lower := by
  rw [h.eq]
  unfold EngineState.classify
  simp only [h.unused, if_false]
  rfl

/-- A key is pushed alike. -/
lemma pushChar (c : Char) : st.pushChar cfg' c = st.pushChar cfg c := by
  have hquick : handleQuickStartConsonant cfg' = handleQuickStartConsonant cfg := by
    rw [h.eq]
    rfl
  have hdispatch : dispatch cfg' = dispatch cfg := by
    rw [h.eq]
    rfl
  unfold EngineState.pushChar
  rw [hquick, hdispatch]
  simp only [h.classify]

/-- Backspace does the same. -/
lemma backspace : st.backspace cfg' = st.backspace cfg := by
  rw [h.eq]
  rfl

/-- So does every event. -/
lemma step : EngineState.step cfg' = EngineState.step cfg := by
  funext st e
  cases e with
  | push c => exact h.pushChar c
  | back => exact h.backspace

/-- And every run. -/
lemma run (events : List EngineEvent) : st.run cfg' events = st.run cfg events := by
  unfold EngineState.run
  rw [h.step]

end SameButKeyMap

omit [WideLocale] in
/-- The TSF DLL decodes three input methods. -/
lemma ApplySharedState_inputMethod {s : TextService} {state : SharedState} :
    (s.ApplySharedState state).config.inputMethod = match (state .inputMethod).toNat with
      | 1 => .vni
      | 2 => .simpleTelex
      | _ => .telex := rfl

/-- A published shared state is read alike just when its input method is one that `ApplySharedState`
takes for valid. Then the engines of both clients show the same composition for every sequence of keys,
when the hook has no spell exclusions that the TSF DLL has not. -/
theorem readsAlike_iff (s : TextService) (e : SyncEngine LocalSettings) (state : SharedState)
    (method : InputMethod) (published : state .inputMethod = method.code) :
    let tsf := (s.ApplySharedState state).config
    let hook := (e.applyState state).config
    (ReadsAlike tsf hook ↔ method.Decoded) ∧
      (method.Decoded → hook.rest.spellExclusions = tsf.spellExclusions →
        ∀ events, (EngineState.run (hookTypingConfig hook) {} events).peek =
          (EngineState.run tsf.toTypingConfig {} events).peek) := by
  intro tsf hook
  have hhook : (hookTypingConfig hook).inputMethod = method := by
    change InputMethod.ofCode (state .inputMethod) = method
    rw [published, InputMethod.ofCode_code]
  have htsf : tsf.inputMethod = method ↔ method.Decoded := by
    rw [ApplySharedState_inputMethod, published]
    cases method with
    | telex => exact iff_of_true rfl (.inl rfl)
    | vni => exact iff_of_true rfl (.inr (.inl rfl))
    | simpleTelex => exact iff_of_true rfl (.inr (.inr rfl))
    | combined => exact iff_of_false (by decide) (by simp [InputMethod.Decoded])
    | userDefined => exact iff_of_false (by decide) (by simp [InputMethod.Decoded])
  refine ⟨⟨fun h => htsf.1 (h.inputMethod.trans hhook), fun decoded => ?_⟩,
    fun decoded hexclusions events => ?_⟩
  · exact
      { inputMethod := (htsf.2 decoded).trans hhook.symm
        spellCheckEnabled := rfl
        modernOrtho := rfl
        allowZwjf := rfl
        autoRestoreEnabled := rfl
        quickConsonant := rfl
        quickStartConsonant := rfl
        quickEndConsonant := rfl
        allowEnglishBypass := rfl
        autoCaps := rfl
        escRestoreRawEnabled := rfl
        suggestKeepChars := rfl }
  · have hsame : SameButKeyMap tsf.toTypingConfig (hookTypingConfig hook) := by
      constructor
      · rw [TypingConfig.mk.injEq]
        exact ⟨hhook.trans (htsf.2 decoded).symm, rfl, rfl, rfl, rfl, rfl, rfl, rfl, rfl, hexclusions,
          rfl⟩
      · rw [htsf.2 decoded]
        obtain rfl | rfl | rfl := decoded <;> decide
    rw [hsame.run events]

end Locale

section Ascii

attribute [local instance] WideLocale.ascii

/-- The defaults with another input method. -/
def methodState (method : InputMethod) : SharedState :=
  Function.update SharedState.InitDefaults .inputMethod method.code

/-- A hook that has read an empty TOML. -/
def freshHook : SyncEngine LocalSettings where
  lastEpoch := 0
  lastConfigGeneration := 0
  last := SharedState.InitDefaults.syncField
  config := { SharedState.InitDefaults.synced with rest := {} }
  currentCodeTable := 0
  globalCodeTable := 0
  claimed := SharedState.InitDefaults

/-- Both clients decode VNI, and `a6` is composed alike. -/
theorem readsAlike_iff_vni :
    let tsf := (({} : TextService).ApplySharedState (methodState .vni)).config
    let hook := (freshHook.applyState (methodState .vni)).config
    ReadsAlike tsf hook ∧
      (EngineState.run (hookTypingConfig hook) {} [.push 'a', .push '6']).peek =
        (EngineState.run tsf.toTypingConfig {} [.push 'a', .push '6']).peek := by
  have hboth := readsAlike_iff {} freshHook (methodState .vni) .vni rfl
  exact ⟨hboth.1.2 (.inr (.inl rfl)), hboth.2 (.inr (.inl rfl)) rfl _⟩

/-- `Combined` is Telex in the TSF DLL: there `a6` stays, and the hook composes `â`. -/
theorem not_readsAlike_combined :
    let tsf := (({} : TextService).ApplySharedState (methodState .combined)).config
    let hook := (freshHook.applyState (methodState .combined)).config
    tsf.inputMethod = .telex ∧ (hookTypingConfig hook).inputMethod = .combined ∧
      (EngineState.run tsf.toTypingConfig {} [.push 'a', .push '6']).peek = ['a', '6'] ∧
      (EngineState.run (hookTypingConfig hook) {} [.push 'a', .push '6']).peek = ['â'] :=
  ⟨rfl, rfl, by decide +kernel, by decide +kernel⟩

end Ascii

end NextKey
