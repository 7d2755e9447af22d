import NextKey.Config.SectionSaves

/-!
# Loading the typing configuration and the hotkeys

Model of `LoadFromFile`, `LoadCustomKeyMap` and `LoadHotkeyRegistry` of `core/config/ConfigManager.cpp`
and of `Load` and `LoadEnabled` of `core/hotkey/HotkeyRegistry.cpp`. A value is read as the TOML library
reads it: `value_or` takes an integer for a flag and a flag or a whole number for an integer, while
`get_as` takes the exact type. What the written form of a float stands for as an integer is a
parameter. The cache of parsed files is left out, and so is the gate of the latency histogram, which no
saver writes.
-/

namespace NextKey

namespace TomlRead

/-- `node.value<bool>()` -/
def flag : TomlNode → Option Bool
  | ⟨.boolean value, _⟩ => some value
  | ⟨.integer value, _⟩ => some (value != 0)
  | _ => none

/-- `node.value<int>()` -/
def int (whole : String → Option Int) (node : TomlNode) : Option Int :=
  let fits (value : Int) := if -2147483648 ≤ value ∧ value ≤ 2147483647 then some value else none
  match node.value with
  | .integer value => fits value
  | .boolean value => some (if value then 1 else 0)
  | .other written => (whole written).bind fits
  | _ => none

/-- `node.value<std::string>()` and `node.as_string()` -/
def text : TomlNode → Option String
  | ⟨.text value, _⟩ => some value
  | _ => none

/-- `node.as_array()` -/
def array : TomlNode → Option (List TomlNode)
  | ⟨.array items, h⟩ => some (items.pmap TomlNode.mk (TomlValue.itemsWellFormed_iff.1 h))
  | _ => none

/-- `get_as<int64_t>` -/
def exactInteger : TomlNode → Option Int
  | ⟨.integer value, _⟩ => some value
  | _ => none

/-- `get_as<bool>` -/
def exactBoolean : TomlNode → Option Bool
  | ⟨.boolean value, _⟩ => some value
  | _ => none

/-- An array is one. -/
@[simp] lemma array_array {items : List TomlNode} : array (.array items) = some items := by
  simp only [array, TomlNode.array, Option.some.injEq, List.pmap_map]
  exact List.pmap_eq_self.2 fun _ _ => rfl

end TomlRead

/-- `methodStr` to the method -/
def InputMethod.ofMethodStr : String → InputMethod
  | "vni" => .vni
  | "simple_telex" => .simpleTelex
  | "combined" => .combined
  | "user_defined" => .userDefined
  | _ => .telex

/-- `static_cast<CodeTable>` of a value in range -/
def CodeTable.ofInt? : Int → Option CodeTable
  | 0 => some .Unicode
  | 1 => some .TCVN3
  | 2 => some .VNIWindows
  | 3 => some .UnicodeCompound
  | 4 => some .VietnameseLocale
  | _ => none

/-- C++ `StringToTypingAction` -/
def StringToTypingAction : String → TypingAction
  | "ClearTone" => .clearTone
  | "ToneAcute" => .toneAcute
  | "ToneGrave" => .toneGrave
  | "ToneHook" => .toneHook
  | "ToneTilde" => .toneTilde
  | "ToneDot" => .toneDot
  | "CircumflexA" => .circumflexA
  | "CircumflexE" => .circumflexE
  | "CircumflexO" => .circumflexO
  | "HornW" => .hornW
  | "HornInsertO" => .hornInsertO
  | "HornInsertU" => .hornInsertU
  | "StrokeD" => .strokeD
  | "VniCircumflex" => .vniCircumflex
  | "VniHorn" => .vniHorn
  | "VniBreve" => .vniBreve
  | "VniStroke" => .vniStroke
  | "HornOrInsertU" => .hornOrInsertU
  | "HornOrInsertUNoStart" => .hornOrInsertUNoStart
  | "UndoAllMarks" => .undoAllMarks
  | "InsertABreve" => .insertABreve
  | "InsertABreveUpper" => .insertABreveUpper
  | "InsertACircumflex" => .insertACircumflex
  | "InsertACircumflexUpper" => .insertACircumflexUpper
  | "InsertDStroke" => .insertDStroke
  | "InsertDStrokeUpper" => .insertDStrokeUpper
  | "InsertECircumflex" => .insertECircumflex
  | "InsertECircumflexUpper" => .insertECircumflexUpper
  | "InsertOCircumflex" => .insertOCircumflex
  | "InsertOCircumflexUpper" => .insertOCircumflexUpper
  | "InsertOHorn" => .insertOHorn
  | "InsertOHornUpper" => .insertOHornUpper
  | "InsertUHorn" => .insertUHorn
  | "InsertUHornUpper" => .insertUHornUpper
  | _ => .none

/-- C++ `LoadCustomKeyMap`: the first byte of a key that is not ASCII is no index. -/
def LoadCustomKeyMap (km : TomlTable) (config : StoredTypingConfig) : StoredTypingConfig :=
  km.fields.foldl (fun config field =>
    match field.1.toList, field.2 with
    | k :: _, .text actionStr =>
      if k.toNat < 128 then
        { config with customKeyMap := fun i =>
            if i.val = k.toNat then StringToTypingAction actionStr else config.customKeyMap i }
      else config
    | _, _ => config) config

section Load
variable [WideLocale] (whole : String → Option Int)

/-- `[input]` -/
def loadInput (input : TomlTable) (config : StoredTypingConfig) : StoredTypingConfig :=
  let config := match input.get "method" with
    | some method =>
      { config with inputMethod := .ofMethodStr ((TomlRead.text method).getD "telex") }
    | none => config
  match input.get "code_table" with
  | some ct =>
    { config with codeTable :=
        (CodeTable.ofInt? ((TomlRead.int whole ct).getD 0)).getD config.codeTable }
  | none => config

/-- An entry of `spell_exclusions`, whose size is counted in units. -/
def loadExclusion (str : String) : Option (List Char) :=
  let wide := Utf8ToWide str
  if 2 ≤ wide.length then some ((Utf16.decode wide).map towlower) else none

/-- `[features]` -/
def loadFeatures (features : TomlTable) (config : StoredTypingConfig) : StoredTypingConfig :=
  let flag (key : String) (default : Bool) :=
    ((features.get key).bind TomlRead.flag).getD default
  let optimizeLevel := ((features.get "optimize_level").bind (TomlRead.int whole)).getD 0
  let exclusions := ((features.get "spell_exclusions").bind TomlRead.array).getD []
  { config with
    spellCheckEnabled := flag "spell_check" true
    beepOnSwitch := flag "beep_on_switch" false
    smartSwitch := flag "smart_switch" false
    excludeApps := flag "exclude_apps" false
    tsfApps := flag "tsf_apps" false
    optimizeLevel := BitVec.ofInt 8 optimizeLevel
    modernOrtho := flag "modern_ortho" true
    autoCaps := flag "auto_caps" false
    allowZwjf := flag "allow_zwjf" false
    autoRestoreEnabled := flag "auto_restore" true
    cjkAutoSwitch := flag "cjk_auto_switch" false
    macroEnabled := flag "macro_enabled" false
    macroInEnglish := flag "macro_in_english" false
    quickConsonant := flag "quick_consonant" false
    quickStartConsonant := flag "quick_start_consonant" false
    quickEndConsonant := flag "quick_end_consonant" false
    escRestoreRawEnabled := flag "esc_restore_raw" false
    autoCapsMacro := flag "auto_caps_macro" false
    allowEnglishBypass := flag "allow_english_bypass" false
    suggestKeepChars := flag "suggest_keep_chars" false
    debugLogEnabled := flag "debug_log" false
    macroTriggerSpace := flag "macro_trigger_space" true
    macroTriggerEnter := flag "macro_trigger_enter" true
    macroTriggerTab := flag "macro_trigger_tab" true
    macroTriggerDir := flag "macro_trigger_dir" true
    spellExclusions := (exclusions.filterMap TomlRead.text).filterMap loadExclusion }

/-- A section that is a table. -/
def section? (table : TomlTable) (name : String) : Option TomlTable :=
  (table.get name).bind TomlNode.asTable

/-- What `LoadFromFile` makes of a parsed file. -/
def typingConfigOf (table : TomlTable) : StoredTypingConfig :=
  let config : StoredTypingConfig := {}
  let config := ((section? table "input").map fun input => loadInput whole input config).getD config
  let config :=
    ((section? table "UserDefinedKeyMap").map fun km => LoadCustomKeyMap km config).getD config
  ((section? table "features").map fun features => loadFeatures whole features config).getD config

/-- C++ `kMaxConfigFileSizeBytes` -/
def kMaxConfigFileSizeBytes : Nat := 5 * 1024 * 1024

variable {Content : Type*} (format : TomlFormat Content) (fileSize : Content → Nat)

/-- C++ `ConfigManager::LoadFromFile` -/
def LoadFromFile (readable : Bool) (disk : Disk Content) : Option StoredTypingConfig :=
  match disk.config with
  | none => none
  | some content =>
    if kMaxConfigFileSizeBytes < fileSize content then none
    else if readable then (format.parse content).map (typingConfigOf whole)
    else none

end Load

/-- C++ `ParseIntent` -/
def ParseIntent : String → Option Intent
  | "cancel-composition" => some .CancelComposition
  | "skip-macro" => some .SkipMacro
  | "toggle-enabled" => some .ToggleEnabled
  | _ => none

/-- One row of `[[hotkeys]]`; `none` when it is skipped. -/
def loadRow (node : TomlNode) : Option (Intent × Trigger) := do
  let row ← node.asTable
  let intentNode ← row.get "intent"
  let triggerNode ← row.get "trigger"
  let intentStr ← TomlRead.text intentNode
  let triggerTbl ← triggerNode.asTable
  let intent ← ParseIntent intentStr
  let vk := BitVec.ofInt 32 (← (triggerTbl.get "vk").bind TomlRead.exactInteger)
  if vk = 0 then none
  else
    some (intent, { vk := vk
                    mods := (((triggerTbl.get "mods").bind TomlRead.exactInteger).map
                      (BitVec.ofInt 32)).getD 0
                    doubleTap := ((triggerTbl.get "double_tap").bind TomlRead.exactBoolean).getD false })

namespace HotkeyRegistry

/-- C++ `HotkeyRegistry::AddTrigger` -/
def AddTrigger (registry : HotkeyRegistry) (intent : Intent) (trigger : Trigger) : HotkeyRegistry :=
  { registry with triggers := fun i =>
      if i = intent then some ((registry.triggers i).getD [] ++ [trigger]) else registry.triggers i }

/-- C++ `HotkeyRegistry::Load` -/
def Load (registry : HotkeyRegistry) (cfg : List TomlNode) : HotkeyRegistry :=
  (cfg.filterMap loadRow).foldl (fun registry row => registry.AddTrigger row.1 row.2)
    { registry with triggers := fun _ => none }

/-- C++ `HotkeyRegistry::LoadEnabled` -/
def LoadEnabled (registry : HotkeyRegistry) (tbl : TomlTable) : HotkeyRegistry :=
  { registry with enabled := fun intent =>
      (tbl.get (IntentStateKey intent)).bind TomlRead.exactBoolean }

end HotkeyRegistry

section RoundTrip
variable {registry : HotkeyRegistry} {intent : Intent}

/-- The row `Save` writes for a trigger. -/
def savedRow (intent : Intent) (t : Trigger) : TomlNode :=
  let trig := (TomlTable.empty.insertOrAssign "vk" (.integer t.vk.toNat)).insertOrAssign "mods"
    (.integer t.mods.toNat)
  let trig := if t.doubleTap then trig.insertOrAssign "double_tap" (.boolean true) else trig
  .table ((TomlTable.empty.insertOrAssign "intent" (.text (IntentToString intent))).insertOrAssign
    "trigger" (.table trig))

/-- What is saved of a registry, intent by intent. -/
lemma save_eq : registry.Save =
    kAllIntents.flatMap fun intent => ((registry.triggers intent).getD []).map (savedRow intent) := rfl

/-- An intent is read as it was written. -/
lemma parseIntent_intentToString : ParseIntent (IntentToString intent) = some intent := by
  cases intent <;> rfl

/-- A saved row is read back, unless its key is 0. -/
lemma loadRow_savedRow {t : Trigger} :
    loadRow (savedRow intent t) = if t.vk = 0 then none else some (intent, t) := by
  obtain ⟨vk, mods, doubleTap⟩ := t
  have hvk : BitVec.ofInt 32 (vk.toNat : Int) = vk := by simp
  have hmods : BitVec.ofInt 32 (mods.toNat : Int) = mods := by simp
  have hintent : "intent" ≠ "trigger" := by decide
  have hkey : "vk" ≠ "mods" := by decide
  have hkey' : "vk" ≠ "double_tap" := by decide
  have hmods' : "mods" ≠ "double_tap" := by decide
  have htap : "double_tap" ≠ "mods" := by decide
  have htap' : "double_tap" ≠ "vk" := by decide
  simp only [loadRow, savedRow, TomlNode.asTable_table, TomlTable.get_insertOrAssign,
    TomlTable.get_insertOrAssign_of_ne hintent, TomlRead.text, TomlNode.text, Option.bind_eq_bind,
    Option.bind_some, parseIntent_intentToString]
  cases doubleTap with
  | false =>
    simp only [Bool.false_eq_true, if_false, TomlTable.get_insertOrAssign,
      TomlTable.get_insertOrAssign_of_ne hkey, TomlTable.get_insertOrAssign_of_ne htap,
      TomlTable.get_insertOrAssign_of_ne htap', TomlTable.get_empty, TomlNode.integer,
      TomlRead.exactInteger, Option.bind_some, Option.bind_none, Option.map_some, Option.getD_some,
      Option.getD_none, hvk, hmods]
  | true =>
    simp only [if_true, TomlTable.get_insertOrAssign, TomlTable.get_insertOrAssign_of_ne hkey,
      TomlTable.get_insertOrAssign_of_ne hkey', TomlTable.get_insertOrAssign_of_ne hmods',
      TomlNode.integer, TomlNode.boolean, TomlRead.exactInteger, TomlRead.exactBoolean,
      Option.bind_some, Option.map_some, Option.getD_some, hvk, hmods]

/-- The triggers of an intent behind more rows. -/
lemma triggers_foldl {rows : List (Intent × Trigger)} :
    ((rows.foldl (fun registry row => registry.AddTrigger row.1 row.2) registry).triggers
      intent).getD [] =
        (registry.triggers intent).getD [] ++ (rows.filter (·.1 == intent)).map (·.2) := by
  induction rows generalizing registry with
  | nil => simp
  | cons row rows ih =>
    rw [List.foldl_cons, ih]
    by_cases hrow : row.1 = intent
    · simp [HotkeyRegistry.AddTrigger, hrow]
    · simp [HotkeyRegistry.AddTrigger, hrow, Ne.symm hrow]

/-- The triggers of an intent behind a list of rows. -/
lemma triggers_load {cfg : List TomlNode} : ((registry.Load cfg).triggers intent).getD [] =
    ((cfg.filterMap loadRow).filter (·.1 == intent)).map (·.2) := by
  rw [HotkeyRegistry.Load, triggers_foldl, Option.getD_none, List.nil_append]

/-- The rows of one intent are read back without those of key 0. -/
lemma filterMap_savedRow {ts : List Trigger} : (ts.map (savedRow intent)).filterMap loadRow =
    (ts.filter (·.vk != 0)).map fun t => (intent, t) := by
  induction ts with
  | nil => rfl
  | cons t ts ih =>
    rw [List.map_cons, List.filterMap_cons, loadRow_savedRow, ih]
    by_cases hvk : t.vk = 0
    · rw [if_pos hvk, List.filter_cons_of_neg (by simpa using hvk)]
    · rw [if_neg hvk, List.filter_cons_of_pos (by simpa using hvk), List.map_cons]

/-- A saved registry is read back without the triggers of key 0. -/
lemma triggers_load_save {other : HotkeyRegistry} :
    ((other.Load registry.Save).triggers intent).getD [] =
      ((registry.triggers intent).getD []).filter (·.vk != 0) := by
  have hother : ∀ {i : Intent} {ts : List Trigger}, i ≠ intent →
      ((ts.map fun t => (i, t)).filter (·.1 == intent)) = [] := by
    intro i ts hi
    refine List.filter_eq_nil_iff.2 fun row hrow => ?_
    obtain ⟨t, -, rfl⟩ := List.mem_map.1 hrow
    simpa using hi
  have hsame : ∀ {ts : List Trigger},
      (((ts.map fun t => (intent, t)).filter (·.1 == intent)).map (·.2)) = ts := by
    intro ts
    rw [List.filter_eq_self.2 fun row hrow => ?_]
    · simp
    · obtain ⟨t, -, rfl⟩ := List.mem_map.1 hrow
      simp
  rw [triggers_load, save_eq]
  simp only [kAllIntents, List.flatMap_cons, List.flatMap_nil, List.append_nil,
    List.filterMap_append, filterMap_savedRow, List.filter_append, List.map_append]
  cases intent with
  | CancelComposition => rw [hsame, hother (by decide), hother (by decide)]; simp
  | SkipMacro => rw [hsame, hother (by decide), hother (by decide)]; simp
  | ToggleEnabled => rw [hsame, hother (by decide), hother (by decide)]; simp

/-- The flags are read back. -/
lemma isEnabled_loadEnabled_saveEnabled {other : HotkeyRegistry} :
    (other.LoadEnabled registry.SaveEnabled).IsEnabled intent = registry.IsEnabled intent := by
  have hget : registry.SaveEnabled.get (IntentStateKey intent) =
      some (.boolean (registry.IsEnabled intent)) := by
    simp only [HotkeyRegistry.SaveEnabled, kAllIntents, List.foldl_cons, List.foldl_nil]
    cases intent with
    | CancelComposition =>
      rw [TomlTable.get_insertOrAssign_of_ne (by decide),
        TomlTable.get_insertOrAssign_of_ne (by decide), TomlTable.get_insertOrAssign]
    | SkipMacro =>
      rw [TomlTable.get_insertOrAssign_of_ne (by decide), TomlTable.get_insertOrAssign]
    | ToggleEnabled => rw [TomlTable.get_insertOrAssign]
  show ((registry.SaveEnabled.get (IntentStateKey intent)).bind TomlRead.exactBoolean).getD true = _
  rw [hget]
  rfl

/-- A registry that is saved and loaded fires on the same events, those of key 0 aside. -/
theorem matches_load_save {other : HotkeyRegistry} {vk mods : BitVec 32} {isDoubleTap keyUp : Bool}
    (hvk : vk ≠ 0) :
    ((other.Load registry.Save).LoadEnabled registry.SaveEnabled).Matches intent vk mods isDoubleTap
      keyUp = registry.Matches intent vk mods isDoubleTap keyUp := by
  have htriggers : (((other.Load registry.Save).LoadEnabled registry.SaveEnabled).triggers
      intent).getD [] = ((registry.triggers intent).getD []).filter (·.vk != 0) := triggers_load_save
  unfold HotkeyRegistry.Matches
  rw [isEnabled_loadEnabled_saveEnabled, htriggers, List.any_filter]
  congr 1
  refine congrArg _ (funext fun t => ?_)
  -- a trigger of key 0 does not match the key
  by_cases hkey : t.vk = vk
  · have hne : (t.vk != 0) = true := by simpa [hkey] using hvk
    rw [hne, Bool.true_and]
  · rw [beq_false_of_ne hkey, Bool.false_and, Bool.and_false]

end RoundTrip

/-- What `LoadHotkeyRegistry` makes of a parsed file. -/
def hotkeyRegistryOf (table : TomlTable) : HotkeyRegistry :=
  let registry : HotkeyRegistry := {}
  let registry := (((table.get "hotkeys").bind TomlRead.array).map registry.Load).getD registry
  ((section? table "hotkey_state").map registry.LoadEnabled).getD registry

/-- C++ `ConfigManager::LoadHotkeyRegistry` -/
def LoadHotkeyRegistry {Content : Type*} (format : TomlFormat Content) (readable : Bool)
    (disk : Disk Content) : Option HotkeyRegistry :=
  match disk.config with
  | some content => if readable then (format.parse content).map hotkeyRegistryOf else none
  | none => none

/-- The features that a saved configuration leaves in the file. -/
lemma features_mergeTypingConfig {config : StoredTypingConfig} {tbl : TomlTable} :
    (section? (mergeTypingConfig config tbl) "features") = some (featuresTable config) := by
  rw [section?, mergeTypingConfig, TomlTable.get_insertOrAssign, Option.bind_some,
    TomlNode.asTable_table]

/-- What a saved registry is when the file is loaded. -/
lemma hotkeyRegistryOf_mergeHotkeyRegistry (registry : HotkeyRegistry) (tbl : TomlTable) :
    hotkeyRegistryOf (mergeHotkeyRegistry registry tbl) =
      (HotkeyRegistry.Load {} registry.Save).LoadEnabled registry.SaveEnabled := by
  have hhotkeys : ((mergeHotkeyRegistry registry tbl).get "hotkeys").bind TomlRead.array =
      some registry.Save := by
    rw [mergeHotkeyRegistry, TomlTable.get_insertOrAssign_of_ne (by decide),
      TomlTable.get_insertOrAssign_of_ne (by decide), TomlTable.get_insertOrAssign, Option.bind_some,
      TomlRead.array_array]
  have hstate : section? (mergeHotkeyRegistry registry tbl) "hotkey_state" =
      some registry.SaveEnabled := by
    rw [section?, mergeHotkeyRegistry, TomlTable.get_insertOrAssign_of_ne (by decide),
      TomlTable.get_insertOrAssign]
    rfl
  unfold hotkeyRegistryOf
  rw [hhotkeys, hstate]
  rfl

end NextKey
