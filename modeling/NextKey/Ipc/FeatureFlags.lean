import NextKey.Config.Sections
import NextKey.Hook.ConfigSync
import NextKey.Ipc.ConfigReload
import NextKey.Ipc.MappedState
import NextKey.Lib.BitFlags

/-!
# The codec of the feature flags

Model of `EncodeFeatureFlags` and `DecodeFeatureFlags` of `core/ipc/SharedState.h` on whole
configurations. Eighteen switches are packed into the three bytes of `featureFlags` and
`extFeatureFlags`, and each is read back by its flag (`featureFlags_roundTrip`).
-/

namespace NextKey

namespace FeatureFlags

def MODERN_ORTHO : BitVec 32 := 0x0001
def AUTO_CAPS : BitVec 32 := 0x0002
def ALLOW_ZWJF : BitVec 32 := 0x0004
def AUTO_RESTORE : BitVec 32 := 0x0008
def CJK_AUTO_SWITCH : BitVec 32 := 0x0010
def ESC_RESTORE_RAW : BitVec 32 := 0x0020
def BEEP_ON_SWITCH : BitVec 32 := 0x0080
def MACRO_ENABLED : BitVec 32 := 0x0100
def MACRO_IN_ENGLISH : BitVec 32 := 0x0200
def QUICK_CONSONANT : BitVec 32 := 0x0400
def QUICK_START_CONSONANT : BitVec 32 := 0x0800
def QUICK_END_CONSONANT : BitVec 32 := 0x1000
def SMART_SWITCH : BitVec 32 := 0x4000
def EXCLUDE_APPS : BitVec 32 := 0x8000
def AUTO_CAPS_MACRO : BitVec 32 := 0x00010000
def ALLOW_ENGLISH_BYPASS : BitVec 32 := 0x00020000
def DEBUG_LOG_ENABLED : BitVec 32 := 0x00040000
def SUGGEST_KEEP_CHARS : BitVec 32 := 0x00080000

end FeatureFlags

/-- C++ `TypingConfig` with all its fields. -/
structure FullTypingConfig extends StoredTypingConfig where
  perfHistogramEnabled : Bool := false

namespace FullTypingConfig

/-- The switches that the feature flags carry. -/
def switches (config : FullTypingConfig) : FeatureSwitches where
  modernOrtho := config.modernOrtho
  autoCaps := config.autoCaps
  allowZwjf := config.allowZwjf
  autoRestoreEnabled := config.autoRestoreEnabled
  cjkAutoSwitch := config.cjkAutoSwitch
  escRestoreRawEnabled := config.escRestoreRawEnabled
  beepOnSwitch := config.beepOnSwitch
  macroEnabled := config.macroEnabled
  macroInEnglish := config.macroInEnglish
  quickConsonant := config.quickConsonant
  quickStartConsonant := config.quickStartConsonant
  quickEndConsonant := config.quickEndConsonant
  smartSwitch := config.smartSwitch
  excludeApps := config.excludeApps
  autoCapsMacro := config.autoCapsMacro
  allowEnglishBypass := config.allowEnglishBypass
  debugLogEnabled := config.debugLogEnabled
  suggestKeepChars := config.suggestKeepChars

/-- The assignments of `DecodeFeatureFlags`. -/
def setSwitches (config : FullTypingConfig) (s : FeatureSwitches) : FullTypingConfig :=
  { config with
    modernOrtho := s.modernOrtho
    autoCaps := s.autoCaps
    allowZwjf := s.allowZwjf
    autoRestoreEnabled := s.autoRestoreEnabled
    cjkAutoSwitch := s.cjkAutoSwitch
    escRestoreRawEnabled := s.escRestoreRawEnabled
    beepOnSwitch := s.beepOnSwitch
    macroEnabled := s.macroEnabled
    macroInEnglish := s.macroInEnglish
    quickConsonant := s.quickConsonant
    quickStartConsonant := s.quickStartConsonant
    quickEndConsonant := s.quickEndConsonant
    smartSwitch := s.smartSwitch
    excludeApps := s.excludeApps
    autoCapsMacro := s.autoCapsMacro
    allowEnglishBypass := s.allowEnglishBypass
    debugLogEnabled := s.debugLogEnabled
    suggestKeepChars := s.suggestKeepChars }

/-- C++ `DecodeFeatureFlags`, into a configuration -/
def decodeFeatureFlags (config : FullTypingConfig) (flags : BitVec 32) : FullTypingConfig :=
  config.setSwitches (DecodeFeatureFlags flags)

end FullTypingConfig

/-- The switches in the order of `EncodeFeatureFlags`, each with its flag. -/
def FeatureSwitches.options (s : FeatureSwitches) : List (BitVec 32 × Bool) :=
  [(FeatureFlags.MODERN_ORTHO, s.modernOrtho), (FeatureFlags.AUTO_CAPS, s.autoCaps),
    (FeatureFlags.ALLOW_ZWJF, s.allowZwjf), (FeatureFlags.AUTO_RESTORE, s.autoRestoreEnabled),
    (FeatureFlags.CJK_AUTO_SWITCH, s.cjkAutoSwitch),
    (FeatureFlags.ESC_RESTORE_RAW, s.escRestoreRawEnabled),
    (FeatureFlags.BEEP_ON_SWITCH, s.beepOnSwitch), (FeatureFlags.MACRO_ENABLED, s.macroEnabled),
    (FeatureFlags.MACRO_IN_ENGLISH, s.macroInEnglish),
    (FeatureFlags.QUICK_CONSONANT, s.quickConsonant),
    (FeatureFlags.QUICK_START_CONSONANT, s.quickStartConsonant),
    (FeatureFlags.QUICK_END_CONSONANT, s.quickEndConsonant),
    (FeatureFlags.SMART_SWITCH, s.smartSwitch), (FeatureFlags.EXCLUDE_APPS, s.excludeApps),
    (FeatureFlags.AUTO_CAPS_MACRO, s.autoCapsMacro),
    (FeatureFlags.ALLOW_ENGLISH_BYPASS, s.allowEnglishBypass),
    (FeatureFlags.DEBUG_LOG_ENABLED, s.debugLogEnabled),
    (FeatureFlags.SUGGEST_KEEP_CHARS, s.suggestKeepChars)]

/-- C++ `EncodeFeatureFlags` -/
def EncodeFeatureFlags (config : FullTypingConfig) : BitVec 32 :=
  BitFlags.encode config.switches.options

namespace MappedState

/-- C++ `SetFeatureFlags` -/
def SetFeatureFlags (m : MappedState) (ff : BitVec 32) : MappedState :=
  { m with fields := m.fields.SetFeatureFlags ff }

/-- C++ `GetFeatureFlags` -/
def GetFeatureFlags (m : MappedState) : BitVec 32 := m.fields.GetFeatureFlags

end MappedState

/-- The bytes of the feature flags. -/
def SharedField.isFeatureByte : SharedField → Bool
  | .featureFlags _ | .extFeatureFlags => true
  | _ => false

/-- The bits that have room in the three bytes. -/
def featureMask : BitVec 32 := 0x00FFFFFF

/-- The flags are got as they were set. -/
lemma GetFeatureFlags_SetFeatureFlags {st : SharedState} {ff : BitVec 32} :
    (st.SetFeatureFlags ff).GetFeatureFlags = ff &&& featureMask := by
  have hmask : featureMask = (BitVec.allOnes 24).setWidth 32 := by decide
  show (ff.setWidth 8).setWidth 32 ||| ((ff >>> 8).setWidth 8).setWidth 32 <<< 8 |||
    ((ff >>> 16).setWidth 8).setWidth 32 <<< 16 = ff &&& featureMask
  rw [hmask]
  refine BitVec.eq_of_getLsbD_eq fun i hi => ?_
  simp only [BitVec.getLsbD_or, BitVec.getLsbD_and, BitVec.getLsbD_setWidth, BitVec.getLsbD_shiftLeft,
    BitVec.getLsbD_ushiftRight, BitVec.getLsbD_allOnes, hi, decide_true, Bool.true_and]
  -- the byte that bit `i` is in
  obtain h | h | h | h : i < 8 ∨ 8 ≤ i ∧ i < 16 ∨ 16 ≤ i ∧ i < 24 ∨ 24 ≤ i := by omega
  · simp [show i < 16 by omega, show i < 24 by omega, h]
  · obtain ⟨hle, hlt⟩ := h
    simp [show ¬i < 8 by omega, show i - 8 < 8 by omega, show i < 24 by omega, hlt, hle,
      show i - 8 < 32 by omega]
  · obtain ⟨hle, hlt⟩ := h
    simp [show ¬i < 8 by omega, show ¬i - 8 < 8 by omega, show i - 16 < 8 by omega, hlt, hle,
      show ¬i < 16 by omega, show i - 16 < 32 by omega]
  · simp [show ¬i < 8 by omega, show ¬i - 8 < 8 by omega, show ¬i - 16 < 8 by omega,
      show ¬i < 24 by omega]

/-- The other fields stay. -/
lemma SetFeatureFlags_other {st : SharedState} {ff : BitVec 32} {f : SharedField}
    (hf : f.isFeatureByte = false) : st.SetFeatureFlags ff f = st f := by
  cases f with
  | featureFlags k => cases hf
  | extFeatureFlags => cases hf
  | _ => rfl

/-- The flags in the order of `EncodeFeatureFlags`. -/
def switchFlags : List (BitVec 32) :=
  [0x0001, 0x0002, 0x0004, 0x0008, 0x0010, 0x0020, 0x0080, 0x0100, 0x0200, 0x0400, 0x0800, 0x1000,
    0x4000, 0x8000, 0x00010000, 0x00020000, 0x00040000, 0x00080000]

/-- The flags of the options. -/
lemma options_flags (s : FeatureSwitches) : s.options.map Prod.fst = switchFlags := rfl

/-- Each flag has a bit of its own in the three bytes. -/
lemma switchFlags_apart : switchFlags.Pairwise (· &&& · = 0#32) ∧
    ∀ flag ∈ switchFlags, featureMask &&& flag = flag ∧ flag ≠ 0#32 := by
  constructor
  · simp [switchFlags]
  · simp [switchFlags, featureMask]

/-- Each switch is read back. -/
lemma DecodeFeatureFlags_encode (s : FeatureSwitches) :
    DecodeFeatureFlags (BitFlags.encode s.options &&& featureMask) = s := by
  have hread : ∀ option ∈ s.options,
      (BitFlags.encode s.options &&& featureMask &&& option.1 != 0#32) = option.2 := by
    rintro ⟨flag, on⟩ hmem
    have hflag : flag ∈ switchFlags := @List.mem_map_of_mem _ _ _ _ Prod.fst hmem
    obtain ⟨hmask, hne⟩ := switchFlags_apart.2 flag hflag
    exact BitFlags.encode_and_ne_zero (options_flags s ▸ switchFlags_apart.1) hmem hmask hne
  generalize BitFlags.encode s.options &&& featureMask = flags at hread ⊢
  simp only [FeatureSwitches.options, List.forall_mem_cons] at hread
  obtain ⟨h1, h2, h3, h4, h5, h6, h7, h8, h9, h10, h11, h12, h13, h14, h15, h16, h17, h18, -⟩ := hread
  cases s
  simp only [DecodeFeatureFlags, FeatureSwitches.mk.injEq]
  exact ⟨h1, h2, h3, h4, h5, h6, h7, h8, h9, h10, h11, h12, h13, h14, h15, h16, h17, h18⟩

/-- The switches of a configuration are published in the feature flags and reach any other
    configuration that decodes them. Nothing else of the configuration and of the shared state
    changes. -/
theorem featureFlags_roundTrip (cfg other : FullTypingConfig) (m : MappedState) :
    let published := m.SetFeatureFlags (EncodeFeatureFlags cfg)
    let decoded := other.decodeFeatureFlags published.GetFeatureFlags
    decoded.switches = cfg.switches ∧ decoded.setSwitches other.switches = other ∧
      published.contextAnchor = m.contextAnchor ∧
      ∀ f : SharedField, f.isFeatureByte = false → published.fields f = m.fields f := by
  intro published decoded
  have hflags : published.GetFeatureFlags = BitFlags.encode cfg.switches.options &&& featureMask :=
    GetFeatureFlags_SetFeatureFlags
  refine ⟨?_, rfl, rfl, fun f hf => SetFeatureFlags_other hf⟩
  show DecodeFeatureFlags published.GetFeatureFlags = cfg.switches
  rw [hflags, DecodeFeatureFlags_encode]

end NextKey
