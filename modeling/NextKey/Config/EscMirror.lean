import NextKey.Config.Loading
import NextKey.Lib.Machine

/-!
# The mirror of the Esc hotkey

`[features].esc_restore_raw` mirrors whether Esc alone cancels the composition, for the hosts that only
see the typing configuration. `SaveHotkeyRegistry` writes the registry and recomputes the mirror;
`SaveToFile` writes the mirror as it was when the configuration was loaded. So the mirror lasts as long
as no configuration is saved that is older than the registry in the file.
-/

namespace NextKey

/-- The config file, and the configurations that have been loaded from it. -/
structure ConfigSession (Content : Type*) where
  disk : Disk Content
  loaded : List StoredTypingConfig := []

/-- A call that reads or writes the config file. -/
inductive ConfigCall where
  | LoadFromFile
  | SaveToFile (config : StoredTypingConfig)
  | LoadHotkeyRegistry
  | SaveHotkeyRegistry (registry : HotkeyRegistry)

/-- The file is read, and the write ends with the renaming. -/
def IoOutcome.success (Content : Type*) : IoOutcome Content := ⟨true, .renamed⟩

section Session
variable [WideLocale] {Content : Type*} (format : TomlFormat Content) (utf8 : WString → String)
  (whole : String → Option Int) (fileSize : Content → Nat)

namespace ConfigSession

/-- A save that succeeds. -/
def save (s : ConfigSession Content) (call : SaveCall) : ConfigSession Content :=
  { s with disk := (call.save format utf8 (.success Content) s.disk).1 }

/-- One call; the registry that `LoadHotkeyRegistry` returns is its caller's. -/
def step (s : ConfigSession Content) : ConfigCall → ConfigSession Content
  | .LoadFromFile =>
    match NextKey.LoadFromFile whole format fileSize true s.disk with
    | some config => { s with loaded := config :: s.loaded }
    | none => s
  | .SaveToFile config => s.save format utf8 (.SaveToFile config)
  | .LoadHotkeyRegistry => s
  | .SaveHotkeyRegistry registry => s.save format utf8 (.SaveHotkeyRegistry registry)

/-- A run of calls. -/
abbrev run : ConfigSession Content → List ConfigCall → ConfigSession Content :=
  Machine.run (step format utf8 whole fileSize)

/-- A configuration that is saved was loaded before, with options changed since: none of the dialogs
    changes `escRestoreRawEnabled`. -/
def Given (s : ConfigSession Content) : ConfigCall → Prop
  | .SaveToFile config =>
    ∃ loaded ∈ s.loaded, config.escRestoreRawEnabled = loaded.escRestoreRawEnabled
  | _ => True

/-- Esc alone cancels the composition, by the registry in the file. -/
def escCancels (s : ConfigSession Content) : Bool :=
  ((LoadHotkeyRegistry format true s.disk).map escIsCancelTrigger).getD false

/-- The file parses, and its `esc_restore_raw` says whether Esc alone cancels the composition. -/
def EscMirrored (s : ConfigSession Content) : Prop :=
  ∃ tbl, s.disk.config.bind format.parse = some tbl ∧
    (typingConfigOf whole tbl).escRestoreRawEnabled = escIsCancelTrigger (hotkeyRegistryOf tbl)

/-- A configuration that is saved agrees with the registry in the file. -/
def Current (s : ConfigSession Content) : ConfigCall → Prop
  | .SaveToFile config => config.escRestoreRawEnabled = s.escCancels format
  | _ => True

end ConfigSession

variable {whole}

omit [WideLocale] in
/-- The key map does not touch the option. -/
lemma escRestoreRaw_loadCustomKeyMap {km : TomlTable} {config : StoredTypingConfig} :
    (LoadCustomKeyMap km config).escRestoreRawEnabled = config.escRestoreRawEnabled := by
  unfold LoadCustomKeyMap
  induction km.fields generalizing config with
  | nil => rfl
  | cons field fields ih =>
    rw [List.foldl_cons, ih]
    split
    · split <;> rfl
    · rfl

omit [WideLocale] in
/-- The option is read from the section of the input. -/
lemma escRestoreRaw_loadInput {input : TomlTable} {config : StoredTypingConfig} :
    (loadInput whole input config).escRestoreRawEnabled = config.escRestoreRawEnabled := by
  unfold loadInput
  dsimp only
  split <;> split <;> rfl

/-- The mirror `LoadFromFile` reads. -/
lemma escRestoreRaw_typingConfigOf {tbl : TomlTable} :
    (typingConfigOf whole tbl).escRestoreRawEnabled =
      (((section? tbl "features").bind (·.get "esc_restore_raw")).bind TomlRead.flag).getD false := by
  unfold typingConfigOf
  dsimp only
  cases section? tbl "features" with
  | some features => rfl
  | none =>
    cases section? tbl "UserDefinedKeyMap" with
    | some km =>
      rw [Option.map_none, Option.getD_none, Option.map_some, Option.getD_some,
        escRestoreRaw_loadCustomKeyMap]
      cases section? tbl "input" with
      | some input => exact escRestoreRaw_loadInput
      | none => rfl
    | none =>
      cases section? tbl "input" with
      | some input => exact escRestoreRaw_loadInput
      | none => rfl

/-- The mirror a configuration leaves. -/
lemma escRestoreRaw_mergeTypingConfig {config : StoredTypingConfig} {tbl : TomlTable} :
    (typingConfigOf whole (mergeTypingConfig config tbl)).escRestoreRawEnabled =
      config.escRestoreRawEnabled := by
  have hmirror : (featuresTable config).get "esc_restore_raw" =
      some (.boolean config.escRestoreRawEnabled) := by
    rw [featuresTable, tableOf]
    simp only [List.foldl_cons, List.foldl_nil]
    -- the entries behind it
    repeat rw [TomlTable.get_insertOrAssign_of_ne (by decide)]
    rw [TomlTable.get_insertOrAssign]
  rw [escRestoreRaw_typingConfigOf, features_mergeTypingConfig, Option.bind_some, hmirror]
  rfl

omit [WideLocale] in
/-- A configuration leaves the registry. -/
lemma hotkeyRegistryOf_mergeTypingConfig {config : StoredTypingConfig} {tbl : TomlTable} :
    hotkeyRegistryOf (mergeTypingConfig config tbl) = hotkeyRegistryOf tbl := by
  have hget : ∀ {name : String}, name ≠ "features" → name ≠ "UserDefinedKeyMap" → name ≠ "input" →
      (mergeTypingConfig config tbl).get name = tbl.get name := by
    intro name hfeatures hkeymap hinput
    rw [mergeTypingConfig, TomlTable.get_insertOrAssign_of_ne hfeatures]
    split
    · rw [TomlTable.get_erase_of_ne hkeymap, TomlTable.get_insertOrAssign_of_ne hinput]
    · rw [TomlTable.get_insertOrAssign_of_ne hkeymap, TomlTable.get_insertOrAssign_of_ne hinput]
  unfold hotkeyRegistryOf section?
  rw [hget (by decide) (by decide) (by decide), hget (by decide) (by decide) (by decide)]

/-- The mirror a registry leaves. -/
lemma escRestoreRaw_mergeHotkeyRegistry {registry : HotkeyRegistry} {tbl : TomlTable} :
    (typingConfigOf whole (mergeHotkeyRegistry registry tbl)).escRestoreRawEnabled =
      escIsCancelTrigger registry := by
  rw [escRestoreRaw_typingConfigOf, section?, mergeHotkeyRegistry, TomlTable.get_insertOrAssign,
    Option.bind_some, TomlNode.asTable_table, Option.bind_some, TomlTable.get_insertOrAssign]
  rfl

omit [WideLocale] in
/-- A registry that is saved is found again. -/
lemma escIsCancelTrigger_mergeHotkeyRegistry {registry : HotkeyRegistry} {tbl : TomlTable} :
    escIsCancelTrigger (hotkeyRegistryOf (mergeHotkeyRegistry registry tbl)) =
      escIsCancelTrigger registry := by
  rw [hotkeyRegistryOf_mergeHotkeyRegistry]
  exact matches_load_save (by decide)

namespace ConfigSession

variable {format utf8 fileSize} {s : ConfigSession Content}

omit [WideLocale] in
/-- What a save leaves in the file. -/
lemma parse_save {call : SaveCall} : (s.save format utf8 call).disk.config.bind format.parse =
    some (call.merge utf8 (LoadExistingToml format true s.disk)) := by
  show (some (format.print _)).bind format.parse = _
  rw [Option.bind_some, format.parse_print]
  rfl

omit [WideLocale] in
/-- Whether Esc cancels, in a file that is parsed. -/
lemma escCancels_eq {tbl : TomlTable} (h : s.disk.config.bind format.parse = some tbl) :
    s.escCancels format = escIsCancelTrigger (hotkeyRegistryOf tbl) := by
  obtain ⟨content, hcontent, hparse⟩ := Option.bind_eq_some_iff.1 h
  rw [escCancels, LoadHotkeyRegistry, hcontent]
  simp [hparse]

omit [WideLocale] in
/-- The table of a file that is parsed. -/
lemma loadExistingToml_eq {tbl : TomlTable} (h : s.disk.config.bind format.parse = some tbl) :
    LoadExistingToml format true s.disk = tbl := by
  obtain ⟨content, hcontent, hparse⟩ := Option.bind_eq_some_iff.1 h
  rw [LoadExistingToml, hcontent]
  simp [hparse]

/-- To load does not write. -/
lemma step_loadFromFile_disk :
    (s.step format utf8 whole fileSize .LoadFromFile).disk = s.disk := by
  simp only [step]
  split <;> rfl

omit [WideLocale] in
/-- A registry that is saved decides at once what Esc does. -/
lemma escCancels_saveHotkeyRegistry {registry : HotkeyRegistry} :
    (s.save format utf8 (.SaveHotkeyRegistry registry)).escCancels format =
      escIsCancelTrigger registry := by
  rw [escCancels_eq parse_save, SaveCall.merge, escIsCancelTrigger_mergeHotkeyRegistry]

/-- A registry that is saved sets the mirror. -/
lemma saveHotkeyRegistry_mirrored {registry : HotkeyRegistry} :
    (s.save format utf8 (.SaveHotkeyRegistry registry)).EscMirrored format whole := by
  refine ⟨_, parse_save, ?_⟩
  rw [SaveCall.merge, escRestoreRaw_mergeHotkeyRegistry, escIsCancelTrigger_mergeHotkeyRegistry]

/-- A configuration that is saved replaces the mirror and leaves the registry. -/
lemma saveToFile_mirrored {config : StoredTypingConfig} (hs : s.EscMirrored format whole) :
    (s.save format utf8 (.SaveToFile config)).EscMirrored format whole ↔
      config.escRestoreRawEnabled = s.escCancels format := by
  obtain ⟨tbl, htbl, -⟩ := hs
  have hparse := @parse_save Content format utf8 s (.SaveToFile config)
  rw [loadExistingToml_eq htbl, SaveCall.merge] at hparse
  rw [escCancels_eq htbl]
  constructor
  · rintro ⟨tbl', htbl', hmirror⟩
    obtain rfl : mergeTypingConfig config tbl = tbl' := Option.some.inj (hparse.symm.trans htbl')
    rwa [escRestoreRaw_mergeTypingConfig, hotkeyRegistryOf_mergeTypingConfig] at hmirror
  · intro h
    refine ⟨_, hparse, ?_⟩
    rwa [escRestoreRaw_mergeTypingConfig, hotkeyRegistryOf_mergeTypingConfig]

/-- What a call makes of a file whose mirror is right. -/
lemma step_mirrored (hs : s.EscMirrored format whole) (call : ConfigCall) :
    (s.step format utf8 whole fileSize call).EscMirrored format whole ↔ s.Current format call := by
  cases call with
  | LoadFromFile =>
    refine iff_of_true ?_ trivial
    rw [EscMirrored, step_loadFromFile_disk]
    exact hs
  | SaveToFile config => exact saveToFile_mirrored hs
  | LoadHotkeyRegistry => exact iff_of_true hs trivial
  | SaveHotkeyRegistry registry => exact iff_of_true saveHotkeyRegistry_mirrored trivial

/-- The mirror is right all along a run just when no configuration is saved that disagrees with the
    registry in the file. -/
theorem escMirrored_iff_current {calls : List ConfigCall} (hs : s.EscMirrored format whole) :
    (∀ cs, cs <+: calls → (s.run format utf8 whole fileSize cs).EscMirrored format whole) ↔
      Machine.Guarded (step format utf8 whole fileSize) (Current format) s calls := by
  refine Machine.forall_prefix_iff hs id ?_ ?_
  · intro s call hs hcurrent
    exact (step_mirrored hs call).2 hcurrent
  · intro s call hs hstale
    exact (step_mirrored hs call).not.2 hstale

/-- A configuration that is loaded from a file whose mirror is right has what the registry says. -/
lemma loadFromFile_current (hs : s.EscMirrored format whole)
    (hsize : ∀ content, fileSize content ≤ kMaxConfigFileSizeBytes) :
    ∃ loaded ∈ (s.step format utf8 whole fileSize .LoadFromFile).loaded,
      loaded.escRestoreRawEnabled = s.escCancels format := by
  obtain ⟨tbl, htbl, hmirror⟩ := hs
  obtain ⟨content, hcontent, hparse⟩ := Option.bind_eq_some_iff.1 htbl
  have hload : NextKey.LoadFromFile whole format fileSize true s.disk =
      some (typingConfigOf whole tbl) := by
    rw [NextKey.LoadFromFile, hcontent]
    dsimp only
    rw [if_neg (Nat.not_lt.2 (hsize content)), if_pos rfl, hparse]
    rfl
  refine ⟨typingConfigOf whole tbl, ?_, ?_⟩
  · rw [step, hload]
    exact List.mem_cons_self
  · rw [escCancels_eq htbl, hmirror]

end ConfigSession

end Session

section Ascii

attribute [local instance] WideLocale.ascii

namespace ConfigSession

/-- Esc alone cancels the composition, or would if the intent were enabled. -/
def escRegistry (enabled : Bool) : HotkeyRegistry :=
  (({ enabled := fun _ => some enabled } : HotkeyRegistry).AddTrigger .CancelComposition
    { vk := 0x1B })

/-- A file with nothing but the registry. -/
def escFile : ConfigSession SaveCall.SketchFile :=
  save SaveCall.sketchFormat (fun _ => "") { disk := {} } (.SaveHotkeyRegistry (escRegistry true))

/-- The file of the example mirrors the option. -/
lemma escFile_mirrored : escFile.EscMirrored SaveCall.sketchFormat fun _ => none :=
  saveHotkeyRegistry_mirrored

/-- In it Esc cancels. -/
lemma escFile_escCancels : escFile.escCancels SaveCall.sketchFormat = true :=
  escCancels_saveHotkeyRegistry

/-- A configuration that is saved at once agrees with the registry. -/
theorem escMirrored_settings :
    (escFile.run SaveCall.sketchFormat (fun _ => "") (fun _ => none) (fun _ => 0)
      [.LoadFromFile, .SaveToFile { escRestoreRawEnabled := true }]).EscMirrored
      SaveCall.sketchFormat fun _ => none := by
  refine (escMirrored_iff_current escFile_mirrored).2 ?_ _ (List.prefix_refl _)
  refine ⟨trivial, ?_, trivial⟩
  show true = escCancels _ _
  rw [escCancels, step_loadFromFile_disk]
  exact escFile_escCancels.symm

/-- The settings dialog opens, Esc is switched off in the hotkeys dialog, the settings are saved. -/
def staleSettings : List ConfigCall :=
  [.LoadFromFile, .SaveHotkeyRegistry (escRegistry false), .SaveToFile { escRestoreRawEnabled := true }]

/-- The mirror says that Esc restores the raw keys, and the registry that it does not. -/
theorem not_escMirrored_stale :
    ¬∀ (s : ConfigSession SaveCall.SketchFile) (calls : List ConfigCall),
      s.EscMirrored SaveCall.sketchFormat (fun _ => none) →
      Machine.Guarded (step SaveCall.sketchFormat (fun _ => "") (fun _ => none) fun _ => 0) Given s
        calls →
      (s.run SaveCall.sketchFormat (fun _ => "") (fun _ => none) (fun _ => 0) calls).EscMirrored
        SaveCall.sketchFormat fun _ => none := by
  intro h
  have hgiven : Machine.Guarded (step SaveCall.sketchFormat (fun _ => "") (fun _ => none) fun _ => 0)
      Given escFile staleSettings := by
    have hload : ∃ loaded ∈ (step SaveCall.sketchFormat (fun _ => "") (fun _ => none) (fun _ => 0)
        escFile .LoadFromFile).loaded,
        loaded.escRestoreRawEnabled = escFile.escCancels SaveCall.sketchFormat :=
      loadFromFile_current escFile_mirrored fun _ => Nat.zero_le _
    obtain ⟨loaded, hloaded, hmirror⟩ := hload
    exact ⟨trivial, trivial, ⟨loaded, hloaded, (hmirror.trans escFile_escCancels).symm⟩, trivial⟩
  have hrun := h escFile staleSettings escFile_mirrored hgiven
  have hcurrent := (saveToFile_mirrored saveHotkeyRegistry_mirrored).1 hrun
  rw [escCancels_saveHotkeyRegistry] at hcurrent
  exact absurd hcurrent (by decide)

end ConfigSession

end Ascii

end NextKey
