import Mathlib.Algebra.Order.BigOperators.Group.List
import Mathlib.Data.List.Induction
import NextKey.Config.Loading

/-!
# What is saved is loaded again

Round trips of the hotkey registry, of the custom key map as a file of its own and of the typing
configuration, over a TOML library that parses what it prints. Loading a key map goes over the keys of
the file and leaves the others, so a file is merged into the map it is loaded over; both dialogs load
it over an empty one. A key map is imported through the cache of parsed files, and its export leaves the
cache alone. The size of a file is checked when it is loaded, but not when it is saved.
-/

namespace NextKey

section Tables

variable {entries : List (String × TomlNode)} {key : String}

/-- A table has the last entry of a key. -/
lemma get_tableOf : (tableOf entries).get key = entries.reverse.lookup key := by
  unfold tableOf
  induction entries using List.reverseRecOn with
  | nil => rfl
  | append_singleton entries entry ih =>
    rw [List.foldl_append, List.foldl_cons, List.foldl_nil, List.reverse_append, List.reverse_singleton,
      List.singleton_append, List.lookup_cons]
    by_cases h : key = entry.1
    · rw [h, TomlTable.get_insertOrAssign, beq_self_eq_true]
    · rw [TomlTable.get_insertOrAssign_of_ne h, ih, beq_false_of_ne h]

/-- The fields of a table are entries. -/
lemma mem_fields_tableOf {field : String × TomlValue} (h : field ∈ (tableOf entries).fields) :
    ∃ entry ∈ entries, field = (entry.1, entry.2.value) := by
  unfold tableOf at h
  induction entries using List.reverseRecOn with
  | nil => cases h
  | append_singleton entries entry ih =>
    rw [List.foldl_append, List.foldl_cons, List.foldl_nil] at h
    obtain rfl | h := TomlFields.mem_insertOrAssign h
    · exact ⟨entry, List.mem_append_right _ (List.mem_singleton_self _), rfl⟩
    · obtain ⟨found, hfound, rfl⟩ := ih h
      exact ⟨found, List.mem_append_left _ hfound, rfl⟩

/-- A key that a table has is a key of its fields. -/
lemma mem_fields_of_get {t : TomlTable} {node : TomlNode} (h : t.get key = some node) :
    (key, node.value) ∈ t.fields := by
  rw [TomlTable.get, Option.pmap_eq_some_iff] at h
  obtain ⟨value, -, hvalue, rfl⟩ := h
  exact TomlFields.mem_of_lookup hvalue

end Tables

namespace HotkeyRegistry

/-- C++ `HotkeyRegistry::TriggersFor` -/
def TriggersFor (registry : HotkeyRegistry) (intent : Intent) : List Trigger :=
  (registry.triggers intent).getD []

/-- Every bound hotkey has a key. -/
def Bound (registry : HotkeyRegistry) : Prop :=
  ∀ intent, ∀ t ∈ registry.TriggersFor intent, t.vk ≠ 0

/-- The same hotkeys in the same order, and the same flags. -/
def SameAs (registry other : HotkeyRegistry) : Prop :=
  ∀ intent, registry.TriggersFor intent = other.TriggersFor intent ∧
    registry.IsEnabled intent = other.IsEnabled intent

end HotkeyRegistry

section Saving

variable {Content : Type*} {format : TomlFormat Content} {utf8 : WString → String} {call : SaveCall}
  {outcome : IoOutcome Content} {disk : Disk Content}

/-- What a save leaves in the file that returns true. -/
lemma SaveCall.config_save (h : (call.save format utf8 outcome disk).2 = true) :
    (call.save format utf8 outcome disk).1.config =
      some (format.print (call.merge utf8 (LoadExistingToml format outcome.readable disk))) := by
  have hwrite : outcome.write = .renamed := by
    by_contra hwrite
    rw [(save_of_not_renamed hwrite).1] at h
    cases h
  rw [SaveCall.save, hwrite]
  rfl

/-- Loading what was saved gives the registry again. -/
lemma HotkeyRegistry.sameAs_load_save {registry : HotkeyRegistry} (hbound : registry.Bound) :
    ((HotkeyRegistry.Load {} registry.Save).LoadEnabled registry.SaveEnabled).SameAs registry := by
  intro intent
  refine ⟨?_, isEnabled_loadEnabled_saveEnabled⟩
  have hkeys : (registry.TriggersFor intent).filter (·.vk != 0) = registry.TriggersFor intent := by
    apply List.filter_eq_self.2
    intro t ht
    exact bne_iff_ne.2 (hbound intent t ht)
  exact triggers_load_save.trans hkeys

/-- A registry whose hotkeys have keys is loaded as it was saved, and so from the file, whatever the
    file had before. -/
theorem hotkeyRegistry_roundTrip (format : TomlFormat Content) (utf8 : WString → String)
    {registry : HotkeyRegistry} (hbound : registry.Bound) :
    ((HotkeyRegistry.Load {} registry.Save).LoadEnabled registry.SaveEnabled).SameAs registry ∧
      ∀ outcome disk,
        let result := (SaveCall.SaveHotkeyRegistry registry).save format utf8 outcome disk
        result.2 = true →
          ∃ loaded, LoadHotkeyRegistry format true result.1 = some loaded ∧
            loaded.SameAs registry := by
  refine ⟨HotkeyRegistry.sameAs_load_save hbound, ?_⟩
  intro outcome disk result hsaved
  refine ⟨_, ?_, HotkeyRegistry.sameAs_load_save hbound⟩
  rw [LoadHotkeyRegistry, SaveCall.config_save hsaved]
  show (format.parse (format.print _)).map _ = _
  rw [format.parse_print, Option.map_some, SaveCall.merge, hotkeyRegistryOf_mergeHotkeyRegistry]

/-- Esc cancels the composition, and skipping macros is switched off without a hotkey. -/
theorem hotkeyRegistry_roundTrip_esc :
    let registry : HotkeyRegistry :=
      ({ enabled := fun intent => if intent = .SkipMacro then some false else none } :
        HotkeyRegistry).AddTrigger .CancelComposition { vk := 0x1B }
    let result := (SaveCall.SaveHotkeyRegistry registry).save SaveCall.sketchFormat (fun _ => "")
      ⟨true, .renamed⟩ SaveCall.brokenMacros
    ∃ loaded, LoadHotkeyRegistry SaveCall.sketchFormat true result.1 = some loaded ∧
      loaded.SameAs registry := by
  intro registry result
  have hbound : registry.Bound := by
    intro intent t ht
    cases intent with
    | CancelComposition =>
      obtain rfl := List.mem_singleton.1 ht
      decide
    | SkipMacro => cases ht
    | ToggleEnabled => cases ht
  exact (hotkeyRegistry_roundTrip SaveCall.sketchFormat (fun _ => "") hbound).2 _ _ rfl

end Saving

section KeyMap

attribute [local instance] neZero_keyCodes

/-- The name a key is saved under. -/
def keyName (i : Fin 128) : String :=
  if i = 0 then "" else String.singleton (Char.ofNat i)

/-- A map that is loaded over another: a key that it leaves unmapped keeps its action, and so does the
    key of code 0, whose name is empty. -/
def overlay (loaded prior : Fin 128 → TypingAction) : Fin 128 → TypingAction :=
  fun i => if i = 0 ∨ loaded i = .none then prior i else loaded i

variable {config saved : StoredTypingConfig} {i j : Fin 128}

/-- An action is read as it was written. -/
lemma stringToTypingAction_typingActionToString (action : TypingAction) :
    StringToTypingAction (TypingActionToString action) = action := by
  cases action <;> rfl

/-- The code of a key. -/
lemma toNat_charOfNat (i : Fin 128) : (Char.ofNat i).toNat = i := by
  have hall : ∀ i : Fin 128, (Char.ofNat i).toNat = i := by decide
  exact hall i

/-- The name of a key is its character. -/
lemma keyName_of_ne (h : i ≠ 0) : keyName i = String.singleton (Char.ofNat i) := if_neg h

/-- The key 0 has no name. -/
lemma keyName_zero : keyName 0 = "" := rfl

/-- The name tells the key. -/
lemma keyName_injective (h : keyName i = keyName j) : i = j := by
  have hempty : ∀ c : Char, String.singleton c ≠ "" := by
    intro c hc
    have hlist := congrArg String.toList hc
    rw [String.toList_singleton] at hlist
    cases hlist
  by_cases hi : i = 0 <;> by_cases hj : j = 0
  · rw [hi, hj]
  · rw [hi, keyName_zero, keyName_of_ne hj] at h
    exact absurd h.symm (hempty _)
  · rw [hj, keyName_zero, keyName_of_ne hi] at h
    exact absurd h (hempty _)
  · rw [keyName_of_ne hi, keyName_of_ne hj] at h
    have hchar := congrArg Char.toNat (String.singleton_inj.1 h)
    rw [toNat_charOfNat, toNat_charOfNat] at hchar
    exact Fin.ext hchar

/-- Only the key map is loaded. -/
lemma LoadCustomKeyMap_eq (km : TomlTable) (config : StoredTypingConfig) :
    LoadCustomKeyMap km config =
      { config with customKeyMap := (LoadCustomKeyMap km config).customKeyMap } := by
  unfold LoadCustomKeyMap
  induction km.fields generalizing config with
  | nil => rfl
  | cons field fields ih =>
    rw [List.foldl_cons, ih]
    split
    · split <;> rfl
    · rfl

/-- A table of actions under the names of their keys is loaded under these keys. -/
lemma customKeyMap_LoadCustomKeyMap {km : TomlTable} {loaded : Fin 128 → TypingAction}
    (hkm : ∀ field ∈ km.fields, ∃ i, field = (keyName i, .text (TypingActionToString (loaded i)))) :
    (LoadCustomKeyMap km config).customKeyMap j =
      if j ≠ 0 ∧ keyName j ∈ km.fields.map (·.1) then loaded j else config.customKeyMap j := by
  unfold LoadCustomKeyMap
  generalize km.fields = fields at hkm
  induction fields generalizing config with
  | nil =>
    rw [if_neg fun h => List.not_mem_nil h.2]
    rfl
  | cons field fields ih =>
    obtain ⟨i, rfl⟩ := hkm field (.head _)
    rw [List.foldl_cons, ih fun field hfield => hkm field (.tail _ hfield)]
    have hname : keyName j ∈ (keyName i :: fields.map (·.1)) ↔
        j = i ∨ keyName j ∈ fields.map (·.1) := by
      rw [List.mem_cons]
      exact or_congr_left ⟨keyName_injective, congrArg _⟩
    simp only [List.map_cons, hname]
    by_cases hi : i = 0
    · -- the key without a name is skipped
      subst hi
      rw [keyName_zero]
      simp only [String.toList_empty]
      congr 1
      exact propext (and_congr_right fun hj => (or_iff_right hj).symm)
    · rw [keyName_of_ne hi, String.toList_singleton]
      simp only [toNat_charOfNat, Fin.isLt, if_true, stringToTypingAction_typingActionToString,
        ← Fin.ext_iff]
      by_cases hj : j = i
      · subst hj
        simp only [ne_eq, hi, not_false_eq_true, true_and, true_or, if_true, ite_self]
      · simp only [hj, false_or, if_false]

/-- The entries of a saved key map. -/
lemma SaveCustomKeyMap_eq : SaveCustomKeyMap saved =
    tableOf ((List.finRange 128).filterMap fun i =>
      if saved.customKeyMap i = .none then none
      else some (keyName i, .text (TypingActionToString (saved.customKeyMap i)))) := rfl

/-- Every entry of a saved key map names a key that is mapped, and its action. -/
lemma fields_SaveCustomKeyMap {field : String × TomlValue}
    (h : field ∈ (SaveCustomKeyMap saved).fields) :
    ∃ i, saved.customKeyMap i ≠ .none ∧
      field = (keyName i, .text (TypingActionToString (saved.customKeyMap i))) := by
  rw [SaveCustomKeyMap_eq] at h
  obtain ⟨entry, hentry, rfl⟩ := mem_fields_tableOf h
  obtain ⟨i, -, hi⟩ := List.mem_filterMap.1 hentry
  split_ifs at hi with hnone
  exact ⟨i, hnone, by rw [← Option.some.inj hi]; rfl⟩

/-- A saved key map has the keys that are mapped. -/
lemma keyName_mem_SaveCustomKeyMap :
    keyName i ∈ (SaveCustomKeyMap saved).fields.map (·.1) ↔ saved.customKeyMap i ≠ .none := by
  constructor
  · intro h
    obtain ⟨field, hfield, hname⟩ := List.mem_map.1 h
    obtain ⟨j, hj, rfl⟩ := fields_SaveCustomKeyMap hfield
    rwa [← keyName_injective hname]
  · intro h
    have hentry : (keyName i, TomlNode.text (TypingActionToString (saved.customKeyMap i))) ∈
        (List.finRange 128).filterMap fun i =>
          if saved.customKeyMap i = .none then none
          else some (keyName i, .text (TypingActionToString (saved.customKeyMap i))) :=
      List.mem_filterMap.2 ⟨i, List.mem_finRange i, if_neg h⟩
    have hget : (SaveCustomKeyMap saved).get (keyName i) ≠ none := by
      rw [SaveCustomKeyMap_eq, get_tableOf, ne_eq, List.lookup_eq_none_iff]
      intro hnone
      have hne := hnone _ (List.mem_reverse.2 hentry)
      exact absurd hne (by simp)
    obtain ⟨node, hnode⟩ := Option.ne_none_iff_exists'.1 hget
    exact List.mem_map.2 ⟨_, mem_fields_of_get hnode, rfl⟩

/-- A saved key map is loaded over the map that is there. -/
lemma LoadCustomKeyMap_SaveCustomKeyMap : LoadCustomKeyMap (SaveCustomKeyMap saved) config =
    { config with customKeyMap := overlay saved.customKeyMap config.customKeyMap } := by
  have hmap : (LoadCustomKeyMap (SaveCustomKeyMap saved) config).customKeyMap =
      overlay saved.customKeyMap config.customKeyMap := by
    funext j
    rw [customKeyMap_LoadCustomKeyMap fun field hfield =>
      (fields_SaveCustomKeyMap hfield).imp fun _ => And.right, overlay]
    simp only [keyName_mem_SaveCustomKeyMap]
    by_cases hj : j = 0
    · rw [if_neg (fun h => h.1 hj), if_pos (.inl hj)]
    · by_cases hnone : saved.customKeyMap j = .none
      · rw [if_neg (fun h => h.2 hnone), if_pos (.inr hnone)]
      · rw [if_pos ⟨hj, hnone⟩, if_neg (not_or.2 ⟨hj, hnone⟩)]
  rw [LoadCustomKeyMap_eq, hmap]

end KeyMap

section Typing

variable {whole : String → Option Int} {config base : StoredTypingConfig} {tbl : TomlTable}

/-- A method is read as it was written. -/
lemma ofMethodStr_methodStr (method : InputMethod) :
    InputMethod.ofMethodStr method.methodStr = method := by
  cases method <;> rfl

/-- So is a code table. -/
lemma ofInt?_toInt (table : CodeTable) : CodeTable.ofInt? table.toInt = some table := by
  cases table <;> rfl

/-- An `int` fits. -/
lemma int_integer {value : Int} (h : -2147483648 ≤ value ∧ value ≤ 2147483647) :
    TomlRead.int whole (.integer value) = some value := if_pos h

/-- The section of the input is read as it was written. -/
lemma loadInput_inputTable : loadInput whole (inputTable config) base =
    { base with inputMethod := config.inputMethod, codeTable := config.codeTable } := by
  have htable : -2147483648 ≤ config.codeTable.toInt ∧ config.codeTable.toInt ≤ 2147483647 := by
    cases config.codeTable <;> decide
  have hmethod : (inputTable config).get "method" = some (.text config.inputMethod.methodStr) :=
    get_tableOf
  have hct : (inputTable config).get "code_table" = some (.integer config.codeTable.toInt) :=
    get_tableOf
  unfold loadInput
  rw [hmethod, hct]
  simp only [TomlRead.text, TomlNode.text, Option.getD_some, ofMethodStr_methodStr, int_integer htable,
    ofInt?_toInt]

/-- An optimization level is a byte. -/
lemma optimizeLevel_ofInt (level : BitVec 8) :
    BitVec.ofInt 8 ((TomlRead.int whole (.integer level.toNat)).getD 0) = level := by
  rw [int_integer ⟨by omega, by omega⟩, Option.getD_some]
  exact BitVec.eq_of_toInt_eq (by simp)

variable [WideLocale]

/-- The exclusions that are saved and loaded: those of two units or more, up to their NUL, in lowercase. -/
def loadedExclusions (exclusions : List (List Char)) : List (List Char) :=
  ((exclusions.filter fun excl => decide (2 ≤ (Utf16.encode excl).length)).map fun excl =>
    WideToUtf8 (Utf16.encode excl)).filterMap loadExclusion

/-- A configuration as it is loaded after it was saved. -/
def StoredTypingConfig.reloaded (config : StoredTypingConfig) : StoredTypingConfig :=
  { config with
    spellExclusions := loadedExclusions config.spellExclusions
    customKeyMap := overlay config.customKeyMap fun _ => .none }

/-- The declared ranges: exclusions are lowercase and have two units or more and no NUL, and the key of
    code 0 is not used. -/
structure StoredTypingConfig.InRange (config : StoredTypingConfig) : Prop where
  length : ∀ excl ∈ config.spellExclusions, 2 ≤ (Utf16.encode excl).length
  noNul : ∀ excl ∈ config.spellExclusions, '\x00' ∉ excl
  lowercase : ∀ excl ∈ config.spellExclusions, excl.map towlower = excl
  keyZero : config.customKeyMap 0 = .none

/-- In range nothing changes. -/
lemma StoredTypingConfig.InRange.reloaded_eq (h : config.InRange) : config.reloaded = config := by
  have hload : ∀ excl ∈ config.spellExclusions,
      (loadExclusion ∘ fun excl => WideToUtf8 (Utf16.encode excl)) excl = some excl := by
    intro excl hexcl
    have hvalid : ValidWide (Utf16.encode excl) := ⟨excl, h.noNul excl hexcl, rfl⟩
    rw [Function.comp_apply, loadExclusion, hvalid.utf8ToWide_wideToUtf8, if_pos (h.length excl hexcl),
      Utf16.decode_encode, h.lowercase excl hexcl]
  have hexclusions : loadedExclusions config.spellExclusions = config.spellExclusions := by
    rw [loadedExclusions, List.filter_eq_self.2 fun excl hexcl => decide_eq_true (h.length excl hexcl),
      List.filterMap_map, List.filterMap_congr hload, List.filterMap_some]
  have hkeys : overlay config.customKeyMap (fun _ => .none) = config.customKeyMap := by
    funext i
    rw [overlay]
    split_ifs with hi
    · obtain rfl | hi := hi
      · exact h.keyZero.symm
      · exact hi.symm
    · rfl
  rw [StoredTypingConfig.reloaded, hexclusions, hkeys]

omit [WideLocale] in
/-- The texts of an array are read as they are. -/
lemma filterMap_text {strs : List String} : (strs.map TomlNode.text).filterMap TomlRead.text = strs := by
  induction strs with
  | nil => rfl
  | cons str strs ih =>
    have hread : TomlRead.text (TomlNode.text str) = some str := rfl
    rw [List.map_cons, List.filterMap_cons, hread, ih]

/-- The saved features are loaded again. -/
lemma loadFeatures_featuresTable : loadFeatures whole (featuresTable config) base =
    { config with
      inputMethod := base.inputMethod
      codeTable := base.codeTable
      customKeyMap := base.customKeyMap
      spellExclusions := loadedExclusions config.spellExclusions } := by
  have hlevel : (featuresTable config).get "optimize_level" =
      some (.integer config.optimizeLevel.toNat) := get_tableOf
  have hexclusions : (featuresTable config).get "spell_exclusions" = some (.array
      (((config.spellExclusions.filter fun excl => decide (2 ≤ (Utf16.encode excl).length)).map
        fun excl => WideToUtf8 (Utf16.encode excl)).map TomlNode.text)) := by
    rw [List.map_map]
    exact get_tableOf
  have hloaded : ((config.spellExclusions.filter fun excl => decide (2 ≤ (Utf16.encode excl).length)).map
      fun excl => WideToUtf8 (Utf16.encode excl)).filterMap loadExclusion =
        loadedExclusions config.spellExclusions := rfl
  unfold loadFeatures
  rw [hlevel, hexclusions]
  simp only [Option.bind_some, TomlRead.array_array, Option.getD_some, filterMap_text,
    optimizeLevel_ofInt, hloaded]
  -- the flags
  simp only [featuresTable, TomlNode.boolean, get_tableOf, List.reverse_cons, List.reverse_nil,
    List.nil_append, List.cons_append, List.lookup_cons, String.reduceBEq, BEq.rfl, Option.bind_some,
    TomlRead.flag, Option.getD_some]

omit [WideLocale] in
/-- A map without keys changes nothing. -/
lemma isEmpty_SaveCustomKeyMap (h : (SaveCustomKeyMap config).isEmpty) :
    overlay config.customKeyMap base.customKeyMap = base.customKeyMap := by
  funext i
  have hnone : config.customKeyMap i = .none := by
    by_contra hi
    have hmem := keyName_mem_SaveCustomKeyMap.2 hi
    rw [List.isEmpty_iff.1 h] at hmem
    cases hmem
  exact if_pos (.inr hnone)

/-- What is loaded from a document that a configuration was saved into. -/
lemma typingConfigOf_mergeTypingConfig :
    typingConfigOf whole (mergeTypingConfig config tbl) = config.reloaded := by
  have hinput : section? (mergeTypingConfig config tbl) "input" = some (inputTable config) := by
    rw [section?, mergeTypingConfig, TomlTable.get_insertOrAssign_of_ne (by decide)]
    split
    · rw [TomlTable.get_erase_of_ne (by decide), TomlTable.get_insertOrAssign, Option.bind_some,
        TomlNode.asTable_table]
    · rw [TomlTable.get_insertOrAssign_of_ne (by decide), TomlTable.get_insertOrAssign,
        Option.bind_some, TomlNode.asTable_table]
  have hfeatures := @features_mergeTypingConfig config tbl
  have hkeymap : ∀ base : StoredTypingConfig,
      ((section? (mergeTypingConfig config tbl) "UserDefinedKeyMap").map fun km =>
        LoadCustomKeyMap km base).getD base =
          { base with customKeyMap := overlay config.customKeyMap base.customKeyMap } := by
    intro base
    rw [section?, mergeTypingConfig, TomlTable.get_insertOrAssign_of_ne (by decide)]
    split
    · next hempty =>
      rw [TomlTable.get_erase, isEmpty_SaveCustomKeyMap hempty]
      rfl
    · rw [TomlTable.get_insertOrAssign, Option.bind_some, TomlNode.asTable_table, Option.map_some,
        Option.getD_some, LoadCustomKeyMap_SaveCustomKeyMap]
  unfold typingConfigOf
  simp only [hinput, hfeatures, hkeymap, Option.map_some, Option.getD_some, loadInput_inputTable,
    loadFeatures_featuresTable, StoredTypingConfig.reloaded]

end Typing

section TypingFile

variable [WideLocale] {Content : Type*} (format : TomlFormat Content) (utf8 : WString → String)
  (whole : String → Option Int) (fileSize : Content → Nat)

/-- A configuration in range that was saved is loaded again, whatever the file had, unless the file has
    become too large to be loaded. -/
theorem loadFromFile_saveToFile {config : StoredTypingConfig} (hrange : config.InRange)
    {outcome : IoOutcome Content} {disk : Disk Content}
    (hsaved : ((SaveCall.SaveToFile config).save format utf8 outcome disk).2 = true) :
    ∃ content, ((SaveCall.SaveToFile config).save format utf8 outcome disk).1.config = some content ∧
      LoadFromFile whole format fileSize true
          ((SaveCall.SaveToFile config).save format utf8 outcome disk).1 =
        if kMaxConfigFileSizeBytes < fileSize content then none else some config := by
  refine ⟨_, SaveCall.config_save hsaved, ?_⟩
  rw [LoadFromFile, SaveCall.config_save hsaved]
  dsimp only
  split_ifs with hsize hreadable
  · rfl
  · rw [format.parse_print, Option.map_some, SaveCall.merge, typingConfigOf_mergeTypingConfig,
      hrange.reloaded_eq]
  · exact absurd rfl hreadable

end TypingFile

section Large

attribute [local instance] WideLocale.ascii

/-- The defaults are in range. -/
lemma inRange_default : StoredTypingConfig.InRange {} where
  length _ h := absurd h List.not_mem_nil
  noNul _ h := absurd h List.not_mem_nil
  lowercase _ h := absurd h List.not_mem_nil
  keyZero := rfl

/-- The defaults are loaded again from a file that had a syntax error. -/
theorem loadFromFile_saveToFile_default :
    ∃ content, ((SaveCall.SaveToFile {}).save SaveCall.sketchFormat (fun _ => "") ⟨true, .renamed⟩
        SaveCall.brokenMacros).1.config = some content ∧
      LoadFromFile (fun _ => none) SaveCall.sketchFormat (fun _ => 0) true
          ((SaveCall.SaveToFile {}).save SaveCall.sketchFormat (fun _ => "") ⟨true, .renamed⟩
            SaveCall.brokenMacros).1 =
        if kMaxConfigFileSizeBytes < 0 then none else some {} :=
  loadFromFile_saveToFile SaveCall.sketchFormat (fun _ => "") (fun _ => none) (fun _ => 0)
    inRange_default rfl

/-- Documents as they are. -/
def plainFormat : TomlFormat TomlTable where
  parse := some
  print := id
  sections := TomlTable.get
  parse_print _ := rfl
  sections_of_parse h := by rw [Option.some.inj h]

/-- The characters of the texts at the top level; the printed document has more. -/
def textSize (tbl : TomlTable) : Nat :=
  (tbl.fields.map fun field => match field.2 with | .text value => value.length | _ => 0).sum

/-- A file with a note of six million characters. -/
def longNote : Disk TomlTable :=
  { config := some (TomlTable.empty.insertOrAssign "note"
      (.text (String.ofList (List.replicate 6000000 'x')))) }

/-- A configuration is saved next to the note, and cannot be loaded. -/
theorem not_loadFromFile_longNote :
    ¬∀ (config : StoredTypingConfig) (outcome : IoOutcome TomlTable) (disk : Disk TomlTable),
      config.InRange →
      ((SaveCall.SaveToFile config).save plainFormat (fun _ => "") outcome disk).2 = true →
      LoadFromFile (fun _ => none) plainFormat textSize true
        ((SaveCall.SaveToFile config).save plainFormat (fun _ => "") outcome disk).1 =
          some config := by
  intro h
  have hloaded := h {} ⟨true, .renamed⟩ longNote inRange_default rfl
  have hnote : (mergeTypingConfig {} (LoadExistingToml plainFormat true longNote)).get "note" =
      some (.text (String.ofList (List.replicate 6000000 'x'))) := by
    rw [mergeTypingConfig, TomlTable.get_insertOrAssign_of_ne (by decide)]
    split
    · rw [TomlTable.get_erase_of_ne (by decide), TomlTable.get_insertOrAssign_of_ne (by decide)]
      exact TomlTable.get_insertOrAssign
    · rw [TomlTable.get_insertOrAssign_of_ne (by decide),
        TomlTable.get_insertOrAssign_of_ne (by decide)]
      exact TomlTable.get_insertOrAssign
  have hsize : kMaxConfigFileSizeBytes <
      textSize (mergeTypingConfig {} (LoadExistingToml plainFormat true longNote)) := by
    have hlength : 6000000 ≤
        textSize (mergeTypingConfig {} (LoadExistingToml plainFormat true longNote)) := by
      refine le_trans ?_ (List.single_le_sum (fun _ _ => Nat.zero_le _) _
        (List.mem_map_of_mem (mem_fields_of_get hnote)))
      simp only [TomlNode.text, String.length_ofList, List.length_replicate, le_refl]
    exact lt_of_lt_of_le (by decide) hlength
  rw [LoadFromFile, SaveCall.config_save rfl] at hloaded
  have hnone := (if_pos hsize).symm.trans hloaded
  cases hnone

end Large

/-- How an export goes. -/
inductive ExportOutcome (Content : Type*) where
  | notOpened
  /-- The stream fails, with something written. -/
  | writeFailed (written : Content)
  | written

section KeyMapFile

variable {Content : Type*} (format : TomlFormat Content)

/-- What the cache of parsed files has for a path: a modification time, and the table that was parsed, if
    it could be. -/
structure CachedTable where
  mtime : Nat
  table : Option TomlTable

/-- The file at a path, with its modification time, and what the cache has for the path. -/
structure CachedFile (Content : Type*) where
  file : Option (Content × Nat) := none
  entry : Option CachedTable := none

namespace CachedFile

/-- C++ `toml::parse_file`, of a file that can be read or not -/
def parseFile (readable : Bool) (path : CachedFile Content) : Option TomlTable :=
  if readable then path.file.bind fun file => format.parse file.1 else none

/-- C++ `TomlFileCache::Load` -/
def Load (readable : Bool) (path : CachedFile Content) : CachedFile Content × Option TomlTable :=
  match path.file with
  | none => ({ path with entry := none }, none)
  | some (_, mtime) =>
    match path.entry.filter fun entry => entry.mtime == mtime with
    | some entry => (path, entry.table)
    | none =>
      let parsed := path.parseFile format readable
      ({ path with entry := some { mtime, table := parsed } }, parsed)

/-- C++ `ParseTomlCached` -/
def ParseTomlCached (readable : Bool) (path : CachedFile Content) :
    CachedFile Content × Option TomlTable :=
  match path.Load format readable with
  | (loaded, some tbl) => (loaded, some tbl)
  | (loaded, none) => (loaded, loaded.parseFile format readable)

/-- The cache has no table that was parsed at this time. -/
def Uncached (path : CachedFile Content) (mtime : Nat) : Prop :=
  ∀ entry ∈ path.entry, entry.mtime = mtime → entry.table = none

end CachedFile

/-- C++ `ExportCustomKeyMap`, over what the file had; the file that is written has this modification
    time. A stream that fails goes unnoticed, and so does the cache. -/
def ExportCustomKeyMap (outcome : ExportOutcome Content) (mtime : Nat) (path : CachedFile Content)
    (config : StoredTypingConfig) : CachedFile Content × Bool :=
  match outcome with
  | .notOpened => (path, false)
  | .writeFailed written => ({ path with file := some (written, mtime) }, true)
  | .written => ({ path with file := some (format.print (SaveCustomKeyMap config), mtime) }, true)

/-- C++ `ImportCustomKeyMap`, of a file that can be read or not -/
def ImportCustomKeyMap (readable : Bool) (path : CachedFile Content) (config : StoredTypingConfig) :
    CachedFile Content × StoredTypingConfig × Bool :=
  match path.ParseTomlCached format readable with
  | (loaded, some tbl) => (loaded, LoadCustomKeyMap tbl config, true)
  | (loaded, none) => (loaded, config, false)

/-- The dialog of the key map, and the config file. -/
structure KeyMapDialog (Content : Type*) where
  keyMap : Fin 128 → TypingAction
  disk : Disk Content

variable [WideLocale] (utf8 : WString → String) (whole : String → Option Int)
  (fileSize : Content → Nat)

namespace KeyMapDialog

/-- C++ `persistAndSignal`, and `SaveData` of the classic dialog -/
def persistAndSignal (outcome : IoOutcome Content) (dialog : KeyMapDialog Content) :
    KeyMapDialog Content :=
  let config := (LoadFromFile whole format fileSize outcome.readable dialog.disk).getD {}
  let call : SaveCall := .SaveToFile { config with customKeyMap := dialog.keyMap }
  { dialog with disk := (call.save format utf8 outcome dialog.disk).1 }

/-- C++ `importKeyMap`, and `ImportFromFile` of the classic dialog -/
def importKeyMap (outcome : IoOutcome Content) (readable : Bool) (path : CachedFile Content)
    (dialog : KeyMapDialog Content) : KeyMapDialog Content :=
  match ImportCustomKeyMap format readable path {} with
  | (_, imported, true) =>
    { dialog with keyMap := imported.customKeyMap }.persistAndSignal format utf8 whole fileSize outcome
  | (_, _, false) => dialog

/-- The keys a map has in the dialog, and in the config file once it is replaced. -/
def Shows (outcome : IoOutcome Content) (dialog : KeyMapDialog Content)
    (keyMap : Fin 128 → TypingAction) : Prop :=
  (∀ i ≠ 0, dialog.keyMap i = keyMap i) ∧
    (outcome.write = .renamed → ∃ tbl, dialog.disk.config.bind format.parse = some tbl ∧
      ∀ i ≠ 0, (typingConfigOf whole tbl).customKeyMap i = keyMap i)

end KeyMapDialog

variable {format}

omit [WideLocale] in
/-- An exported map that the cache has nothing of is imported over the one that is there. -/
lemma importCustomKeyMap_export {m prior : StoredTypingConfig} {path : CachedFile Content} {mtime : Nat}
    (huncached : path.Uncached mtime) :
    ∃ loaded, ImportCustomKeyMap format true (ExportCustomKeyMap format .written mtime path m).1 prior =
      (loaded, { prior with customKeyMap := overlay m.customKeyMap prior.customKeyMap }, true) := by
  let exported : CachedFile Content :=
    { path with file := some (format.print (SaveCustomKeyMap m), mtime) }
  have hparse : ∀ entry, { exported with entry := entry }.parseFile format true =
      some (SaveCustomKeyMap m) := by
    intro entry
    exact format.parse_print _
  have htable : (exported.ParseTomlCached format true).2 = some (SaveCustomKeyMap m) := by
    unfold CachedFile.ParseTomlCached CachedFile.Load
    dsimp only [exported]
    cases hentry : path.entry.filter fun entry => entry.mtime == mtime with
    | none => rw [hparse]
    | some entry =>
      -- a file that could not be parsed before is parsed again
      obtain ⟨hsome, htime⟩ := Option.filter_eq_some_iff.1 hentry
      dsimp only
      rw [huncached entry hsome (beq_iff_eq.1 htime)]
      exact hparse path.entry
  obtain ⟨loaded, hloaded⟩ : ∃ loaded, exported.ParseTomlCached format true =
      (loaded, some (SaveCustomKeyMap m)) := ⟨_, Prod.ext rfl htable⟩
  refine ⟨loaded, ?_⟩
  show ImportCustomKeyMap format true exported prior = _
  rw [ImportCustomKeyMap, hloaded, ← LoadCustomKeyMap_SaveCustomKeyMap]

omit [WideLocale] in
/-- Over an empty map a map is itself. -/
lemma overlay_none {keyMap : Fin 128 → TypingAction} {i : Fin 128} (hi : i ≠ 0) :
    overlay keyMap (fun _ => .none) i = keyMap i := by
  rw [overlay]
  split_ifs with h
  · exact (h.resolve_left hi).symm
  · rfl

namespace KeyMapDialog

variable {outcome : IoOutcome Content} {dialog : KeyMapDialog Content}

/-- The map of the dialog is the map in the file once it is replaced. -/
lemma customKeyMap_persistAndSignal (hwrite : outcome.write = .renamed) :
    ∃ tbl, (dialog.persistAndSignal format utf8 whole fileSize outcome).disk.config.bind format.parse =
        some tbl ∧
      (typingConfigOf whole tbl).customKeyMap = overlay dialog.keyMap fun _ => .none := by
  let config : StoredTypingConfig :=
    { (LoadFromFile whole format fileSize outcome.readable dialog.disk).getD {} with
      customKeyMap := dialog.keyMap }
  have hsaved : ((SaveCall.SaveToFile config).save format utf8 outcome dialog.disk).2 = true := by
    rw [SaveCall.save, hwrite]
    rfl
  refine ⟨mergeTypingConfig config (LoadExistingToml format outcome.readable dialog.disk), ?_, ?_⟩
  · show ((SaveCall.SaveToFile config).save format utf8 outcome dialog.disk).1.config.bind _ = _
    rw [SaveCall.config_save hsaved, Option.bind_some, format.parse_print, SaveCall.merge]
  · rw [typingConfigOf_mergeTypingConfig]
    rfl

/-- The dialog imports over an empty map. -/
lemma shows_importKeyMap {m : StoredTypingConfig} {path : CachedFile Content} {mtime : Nat}
    (huncached : path.Uncached mtime) :
    (dialog.importKeyMap format utf8 whole fileSize outcome true
      (ExportCustomKeyMap format .written mtime path m).1).Shows format whole outcome m.customKeyMap := by
  obtain ⟨loaded, himported⟩ := @importCustomKeyMap_export Content format m {} path mtime huncached
  rw [importKeyMap, himported]
  refine ⟨fun i hi => overlay_none hi, fun hwrite => ?_⟩
  obtain ⟨tbl, htbl, hkeys⟩ := customKeyMap_persistAndSignal utf8 whole fileSize hwrite
  refine ⟨tbl, htbl, fun i hi => ?_⟩
  rw [hkeys, overlay_none hi]
  exact overlay_none hi

end KeyMapDialog

variable (format)

/-- An exported map is imported over the one that is there, unless the cache has a table for the time of
    its file: a key that it leaves unmapped keeps its action, so it comes out as it was exported just when
    the keys it leaves unmapped were unmapped. The dialogs import over an empty map, and show and save it
    as it was exported. -/
theorem importCustomKeyMap_exported (m prior : StoredTypingConfig) {path : CachedFile Content}
    {mtime : Nat} (huncached : path.Uncached mtime) :
    let exported := (ExportCustomKeyMap format .written mtime path m).1
    let result := (ImportCustomKeyMap format true exported prior).2
    result = ({ prior with customKeyMap := fun i =>
        if i = 0 ∨ m.customKeyMap i = .none then prior.customKeyMap i else m.customKeyMap i }, true) ∧
      ((∀ i ≠ 0, result.1.customKeyMap i = m.customKeyMap i) ↔
        ∀ i ≠ 0, m.customKeyMap i = .none → prior.customKeyMap i = .none) ∧
      ∀ (outcome : IoOutcome Content) (dialog : KeyMapDialog Content),
        (dialog.importKeyMap format utf8 whole fileSize outcome true exported).Shows format whole outcome
          m.customKeyMap := by
  intro exported result
  have hresult : result =
      ({ prior with customKeyMap := overlay m.customKeyMap prior.customKeyMap }, true) := by
    obtain ⟨loaded, himported⟩ := @importCustomKeyMap_export Content format m prior path mtime huncached
    exact congrArg Prod.snd himported
  refine ⟨hresult, ?_, fun outcome dialog => ?_⟩
  · rw [hresult]
    refine forall₂_congr fun i hi => ?_
    show overlay _ _ i = _ ↔ _
    rw [overlay]
    by_cases hnone : m.customKeyMap i = .none
    · rw [if_pos (.inr hnone), hnone]
      exact ⟨fun hprior _ => hprior, fun hprior => hprior rfl⟩
    · rw [if_neg (not_or.2 ⟨hi, hnone⟩)]
      exact iff_of_true rfl fun h => absurd h hnone
  · exact KeyMapDialog.shows_importKeyMap utf8 whole fileSize huncached

omit [WideLocale] in
/-- An empty map is imported, and the keys that were mapped stay mapped. -/
theorem not_importCustomKeyMap_empty :
    ¬∀ (m prior : StoredTypingConfig) (mtime : Nat), ∀ i ≠ 0,
      (ImportCustomKeyMap SaveCall.sketchFormat true
        (ExportCustomKeyMap SaveCall.sketchFormat .written mtime {} m).1 prior).2.1.customKeyMap i =
          m.customKeyMap i := by
  intro h
  have hkey := h {} { customKeyMap := fun _ => .hornW } 0 1 (by decide)
  have huncached : (({} : CachedFile SaveCall.SketchFile)).Uncached 0 := by
    intro entry hentry
    cases hentry
  obtain ⟨loaded, himported⟩ := @importCustomKeyMap_export _ SaveCall.sketchFormat {}
    { customKeyMap := fun _ => .hornW } {} 0 huncached
  rw [himported] at hkey
  cases hkey

end KeyMapFile

section Export

attribute [local instance] WideLocale.ascii

/-- An empty map that was exported before, and imported. -/
def olderExport : CachedFile SaveCall.SketchFile where
  file := some (.sound .empty, 1)
  entry := some { mtime := 1, table := some .empty }

/-- A horn on the key of `a` is exported over the older map at a later time, and imported. -/
theorem importCustomKeyMap_exported_older :
    (ImportCustomKeyMap SaveCall.sketchFormat true
      (ExportCustomKeyMap SaveCall.sketchFormat .written 2 olderExport
        { customKeyMap := fun i => if i = 97 then .hornW else .none }).1 {}).2.1.customKeyMap 97 =
          .hornW := by
  have huncached : olderExport.Uncached 2 := by
    intro entry hentry htime
    obtain rfl := Option.some.inj hentry
    exact absurd htime (by decide)
  have himported := (importCustomKeyMap_exported SaveCall.sketchFormat (fun _ => "") (fun _ => none)
    (fun _ => 0) { customKeyMap := fun i => if i = 97 then .hornW else .none } {} huncached).1
  rw [himported]
  rfl

end Export

end NextKey
