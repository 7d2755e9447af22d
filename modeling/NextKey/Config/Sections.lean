import NextKey.Config.WideStrings
import NextKey.Engine.Config
import NextKey.Lib.Toml
import NextKey.Output.CodeTableConverter

/-!
# The sections of the config file

What each saver of `core/config/ConfigManager.cpp` writes into its own sections: the configurations it
takes, the hotkey registry of `core/hotkey/HotkeyRegistry.cpp`, and the TOML tables it builds from them.
A map is the list of its entries in the order in which it is walked. `utf8` is `WideToUtf8`.
-/

namespace NextKey

/-- C++ `TypingConfig`, with the fields that the engine does not read. -/
structure StoredTypingConfig extends TypingConfig where
  codeTable : CodeTable := .Unicode
  beepOnSwitch : Bool := false
  smartSwitch : Bool := false
  excludeApps : Bool := false
  tsfApps : Bool := false
  optimizeLevel : BitVec 8 := 0
  autoCaps : Bool := false
  cjkAutoSwitch : Bool := false
  macroEnabled : Bool := false
  macroInEnglish : Bool := false
  escRestoreRawEnabled : Bool := false
  autoCapsMacro : Bool := false
  suggestKeepChars : Bool := false
  debugLogEnabled : Bool := false
  macroTriggerSpace : Bool := true
  macroTriggerEnter : Bool := true
  macroTriggerTab : Bool := true
  macroTriggerDir : Bool := true

/-- C++ `UIConfig` -/
structure UIConfig where
  showAdvanced : Bool := false
  backgroundOpacity : BitVec 8 := 80
  pinned : Bool := false

/-- C++ `HotkeyConfig` -/
structure HotkeyConfig where
  ctrl : Bool := false
  shift : Bool := false
  alt : Bool := false
  win : Bool := false
  vk : BitVec 32 := 0

/-- C++ `AppOverrideEntry` -/
structure AppOverrideEntry where
  inputMethod : BitVec 8 := -1
  encodingOverride : BitVec 8 := -1
  sendMethod : BitVec 8 := -1

/-- C++ `SystemConfig` -/
structure SystemConfig where
  runAtStartup : Bool := false
  runAsAdmin : Bool := false
  showOnStartup : Bool := true
  desktopShortcut : Bool := false
  forceLightTheme : Bool := false
  language : BitVec 8 := 0
  iconStyle : BitVec 8 := 0
  customColorV : BitVec 32 := 0
  customColorE : BitVec 32 := 0
  showFloatingIcon : Bool := false
  floatingIconX : BitVec 32 := BitVec.intMin 32
  floatingIconY : BitVec 32 := BitVec.intMin 32
  startupMode : BitVec 8 := 0
  autoCheckUpdate : Bool := true
  watchdogEnabled : Bool := false

/-- C++ `ConvertConfig` -/
structure ConvertConfig where
  allCaps : Bool := false
  allLower : Bool := false
  capsFirst : Bool := false
  capsEach : Bool := false
  removeMark : Bool := false
  alertDone : Bool := false
  autoPaste : Bool := false
  sequential : Bool := false
  enableLog : Bool := false
  sourceEncoding : BitVec 8 := 0
  destEncoding : BitVec 8 := 0
  hotkey : HotkeyConfig := {}

/-- C++ `Intent` -/
inductive Intent where
  | CancelComposition
  | SkipMacro
  | ToggleEnabled
  deriving DecidableEq, Repr

/-- C++ `kAllIntents` -/
def kAllIntents : List Intent := [.CancelComposition, .SkipMacro, .ToggleEnabled]

/-- C++ `Trigger` -/
structure Trigger where
  vk : BitVec 32 := 0
  mods : BitVec 32 := 0
  doubleTap : Bool := false

/-- C++ `HotkeyRegistry` -/
structure HotkeyRegistry where
  triggers : Intent → Option (List Trigger) := fun _ => none
  enabled : Intent → Option Bool := fun _ => none

/-- C++ `IntentToString` -/
def IntentToString : Intent → String
  | .CancelComposition => "cancel-composition"
  | .SkipMacro => "skip-macro"
  | .ToggleEnabled => "toggle-enabled"

/-- C++ `IntentStateKey` -/
def IntentStateKey : Intent → String
  | .CancelComposition => "cancel_composition"
  | .SkipMacro => "skip_macro"
  | .ToggleEnabled => "toggle_enabled"

/-- C++ `IsModifierKey` -/
def IsModifierKey (vk : BitVec 32) : Bool :=
  vk == 0x10 || vk == 0x11 || vk == 0x12 || vk == 0x5B || vk == 0x5C

/-- What one trigger says to an event of its key. -/
def Trigger.fires (t : Trigger) (mods : BitVec 32) (isDoubleTap keyUp : Bool) : Bool :=
  if t.doubleTap then isDoubleTap && mods == t.mods
  else if IsModifierKey t.vk then keyUp && !isDoubleTap && mods == t.mods
  else !keyUp && !isDoubleTap && mods == t.mods

namespace HotkeyRegistry

/-- C++ `HotkeyRegistry::IsEnabled` -/
def IsEnabled (registry : HotkeyRegistry) (intent : Intent) : Bool :=
  (registry.enabled intent).getD true

/-- C++ `HotkeyRegistry::Matches` -/
def Matches (registry : HotkeyRegistry) (intent : Intent) (vk mods : BitVec 32)
    (isDoubleTap keyUp : Bool) : Bool :=
  registry.IsEnabled intent &&
    ((registry.triggers intent).getD []).any fun t => t.vk == vk && t.fires mods isDoubleTap keyUp

/-- C++ `HotkeyRegistry::Save` -/
def Save (registry : HotkeyRegistry) : List TomlNode :=
  kAllIntents.flatMap fun intent =>
    ((registry.triggers intent).getD []).map fun t =>
      let trig := (TomlTable.empty.insertOrAssign "vk" (.integer t.vk.toNat)).insertOrAssign "mods"
        (.integer t.mods.toNat)
      let trig := if t.doubleTap then trig.insertOrAssign "double_tap" (.boolean true) else trig
      .table ((TomlTable.empty.insertOrAssign "intent" (.text (IntentToString intent))).insertOrAssign
        "trigger" (.table trig))

/-- C++ `HotkeyRegistry::SaveEnabled` -/
def SaveEnabled (registry : HotkeyRegistry) : TomlTable :=
  kAllIntents.foldl
    (fun state intent =>
      state.insertOrAssign (IntentStateKey intent) (.boolean (registry.IsEnabled intent)))
    .empty

end HotkeyRegistry

/-- `static_cast<int64_t>` of a code table -/
def CodeTable.toInt : CodeTable → Int
  | .Unicode => 0
  | .TCVN3 => 1
  | .VNIWindows => 2
  | .UnicodeCompound => 3
  | .VietnameseLocale => 4

/-- `methodStr` -/
def InputMethod.methodStr : InputMethod → String
  | .vni => "vni"
  | .simpleTelex => "simple_telex"
  | .combined => "combined"
  | .userDefined => "user_defined"
  | .telex => "telex"

/-- C++ `TypingActionToString` -/
def TypingActionToString : TypingAction → String
  | .none => "None"
  | .clearTone => "ClearTone"
  | .toneAcute => "ToneAcute"
  | .toneGrave => "ToneGrave"
  | .toneHook => "ToneHook"
  | .toneTilde => "ToneTilde"
  | .toneDot => "ToneDot"
  | .circumflexA => "CircumflexA"
  | .circumflexE => "CircumflexE"
  | .circumflexO => "CircumflexO"
  | .hornW => "HornW"
  | .hornInsertO => "HornInsertO"
  | .hornInsertU => "HornInsertU"
  | .strokeD => "StrokeD"
  | .vniCircumflex => "VniCircumflex"
  | .vniHorn => "VniHorn"
  | .vniBreve => "VniBreve"
  | .vniStroke => "VniStroke"
  | .hornOrInsertU => "HornOrInsertU"
  | .hornOrInsertUNoStart => "HornOrInsertUNoStart"
  | .undoAllMarks => "UndoAllMarks"
  | .insertABreve => "InsertABreve"
  | .insertABreveUpper => "InsertABreveUpper"
  | .insertACircumflex => "InsertACircumflex"
  | .insertACircumflexUpper => "InsertACircumflexUpper"
  | .insertDStroke => "InsertDStroke"
  | .insertDStrokeUpper => "InsertDStrokeUpper"
  | .insertECircumflex => "InsertECircumflex"
  | .insertECircumflexUpper => "InsertECircumflexUpper"
  | .insertOCircumflex => "InsertOCircumflex"
  | .insertOCircumflexUpper => "InsertOCircumflexUpper"
  | .insertOHorn => "InsertOHorn"
  | .insertOHornUpper => "InsertOHornUpper"
  | .insertUHorn => "InsertUHorn"
  | .insertUHornUpper => "InsertUHornUpper"

/-- A table with these entries, each inserted behind the ones before it. -/
def tableOf (entries : List (String × TomlNode)) : TomlTable :=
  entries.foldl (fun t entry => t.insertOrAssign entry.1 entry.2) .empty

/-- `[input]` -/
def inputTable (config : StoredTypingConfig) : TomlTable :=
  tableOf [("method", .text config.inputMethod.methodStr),
    ("code_table", .integer config.codeTable.toInt)]

/-- There is a key of code 0. -/
lemma neZero_keyCodes : NeZero 128 := ⟨by decide⟩

attribute [local instance] neZero_keyCodes

/-- C++ `SaveCustomKeyMap`: the key of code 0 is the empty string -/
def SaveCustomKeyMap (config : StoredTypingConfig) : TomlTable :=
  tableOf <| (List.finRange 128).filterMap fun i =>
    let action := config.customKeyMap i
    if action = .none then none
    else
      some (if i = 0 then "" else String.singleton (Char.ofNat i),
        .text (TypingActionToString action))

/-- `[features]` -/
def featuresTable (config : StoredTypingConfig) : TomlTable :=
  tableOf [("spell_check", .boolean config.spellCheckEnabled),
    ("beep_on_switch", .boolean config.beepOnSwitch),
    ("smart_switch", .boolean config.smartSwitch),
    ("exclude_apps", .boolean config.excludeApps),
    ("tsf_apps", .boolean config.tsfApps),
    ("optimize_level", .integer config.optimizeLevel.toNat),
    ("modern_ortho", .boolean config.modernOrtho),
    ("auto_caps", .boolean config.autoCaps),
    ("allow_zwjf", .boolean config.allowZwjf),
    ("auto_restore", .boolean config.autoRestoreEnabled),
    ("cjk_auto_switch", .boolean config.cjkAutoSwitch),
    ("macro_enabled", .boolean config.macroEnabled),
    ("macro_in_english", .boolean config.macroInEnglish),
    ("quick_consonant", .boolean config.quickConsonant),
    ("quick_start_consonant", .boolean config.quickStartConsonant),
    ("quick_end_consonant", .boolean config.quickEndConsonant),
    ("esc_restore_raw", .boolean config.escRestoreRawEnabled),
    ("auto_caps_macro", .boolean config.autoCapsMacro),
    ("allow_english_bypass", .boolean config.allowEnglishBypass),
    ("suggest_keep_chars", .boolean config.suggestKeepChars),
    ("debug_log", .boolean config.debugLogEnabled),
    ("macro_trigger_space", .boolean config.macroTriggerSpace),
    ("macro_trigger_enter", .boolean config.macroTriggerEnter),
    ("macro_trigger_tab", .boolean config.macroTriggerTab),
    ("macro_trigger_dir", .boolean config.macroTriggerDir),
    ("spell_exclusions", .array <|
      (config.spellExclusions.filter fun excl => decide (2 ≤ (Utf16.encode excl).length)).map
        fun excl => .text (WideToUtf8 (Utf16.encode excl)))]

/-- `[ui]` -/
def uiTable (config : UIConfig) : TomlTable :=
  tableOf [("show_advanced", .boolean config.showAdvanced),
    ("background_opacity", .integer config.backgroundOpacity.toNat),
    ("pinned", .boolean config.pinned)]

/-- `[hotkey]`, and `[convert.hotkey]` -/
def hotkeyTable (config : HotkeyConfig) : TomlTable :=
  tableOf [("ctrl", .boolean config.ctrl),
    ("shift", .boolean config.shift),
    ("alt", .boolean config.alt),
    ("win", .boolean config.win),
    ("vk", .integer config.vk.toNat)]

/-- `[macros]` -/
def macrosTable (utf8 : WString → String) (macros : List (WString × WString)) : TomlTable :=
  tableOf (macros.map fun entry => (utf8 entry.1, .text (utf8 entry.2)))

/-- `[app_overrides]` -/
def appOverridesTable (utf8 : WString → String) (entries : List (WString × AppOverrideEntry)) :
    TomlTable :=
  tableOf <| entries.map fun (exe, e) => (utf8 exe, .table <| tableOf
    [("input_method", .integer e.inputMethod.toInt), ("encoding", .integer e.encodingOverride.toInt),
      ("send_method", .integer e.sendMethod.toInt)])

/-- `[system]` -/
def systemTable (config : SystemConfig) : TomlTable :=
  tableOf [("run_at_startup", .boolean config.runAtStartup),
    ("run_as_admin", .boolean config.runAsAdmin),
    ("show_on_startup", .boolean config.showOnStartup),
    ("desktop_shortcut", .boolean config.desktopShortcut),
    ("language", .integer config.language.toNat),
    ("icon_style", .integer config.iconStyle.toNat),
    ("custom_color_v", .integer config.customColorV.toNat),
    ("custom_color_e", .integer config.customColorE.toNat),
    ("show_floating_icon", .boolean config.showFloatingIcon),
    ("floating_icon_x", .integer config.floatingIconX.toInt),
    ("floating_icon_y", .integer config.floatingIconY.toInt),
    ("auto_check_update", .boolean config.autoCheckUpdate),
    ("startup_mode", .integer config.startupMode.toNat),
    ("force_light_theme", .boolean config.forceLightTheme),
    ("watchdog_enabled", .boolean config.watchdogEnabled)]

/-- `[convert]` -/
def convertTable (config : ConvertConfig) : TomlTable :=
  tableOf [("all_caps", .boolean config.allCaps),
    ("all_lower", .boolean config.allLower),
    ("caps_first", .boolean config.capsFirst),
    ("caps_each", .boolean config.capsEach),
    ("remove_mark", .boolean config.removeMark),
    ("alert_done", .boolean config.alertDone),
    ("auto_paste", .boolean config.autoPaste),
    ("sequential", .boolean config.sequential),
    ("enable_log", .boolean config.enableLog),
    ("source_encoding", .integer config.sourceEncoding.toNat),
    ("dest_encoding", .integer config.destEncoding.toNat),
    ("hotkey", .table (hotkeyTable config.hotkey))]

end NextKey
