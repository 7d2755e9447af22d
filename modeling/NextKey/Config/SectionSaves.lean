import NextKey.Config.Sections

/-!
# Saving one section

Model of `LoadExistingToml`, `WriteToml` and the savers of `core/config/ConfigManager.cpp`: each parses
the config file, replaces its own sections and writes the whole document back through a temporary file.
A file that cannot be read or parsed counts as an empty document, so the write that follows loses
whatever the file had in the sections of the others.

Reading, and each step of the write, goes as an `IoOutcome` says. The lock of the file and the cache of
parsed files are left out.
-/

namespace NextKey

/-- How the write of a document ends. -/
inductive WriteOutcome (Content : Type*) where
  /-- An exception on the way. -/
  | threw
  /-- The temporary file cannot be opened. -/
  | notOpened
  /-- The stream fails, with something written. -/
  | writeFailed (written : Content)
  /-- The temporary file is complete and cannot be renamed. -/
  | renameFailed
  | renamed

/-- How a save goes: whether the config file can be read, and how the write ends. -/
structure IoOutcome (Content : Type*) where
  readable : Bool
  write : WriteOutcome Content

/-- The config file and the temporary file. -/
structure Disk (Content : Type*) where
  config : Option Content := none
  temp : Option Content := none

variable {Content : Type*} (format : TomlFormat Content)

/-- C++ `LoadExistingToml` -/
def LoadExistingToml (readable : Bool) (disk : Disk Content) : TomlTable :=
  match disk.config with
  | some content => if readable then (format.parse content).getD .empty else .empty
  | none => .empty

/-- C++ `WriteToml` -/
def WriteToml (outcome : WriteOutcome Content) (disk : Disk Content) (tbl : TomlTable) :
    Disk Content × Bool :=
  match outcome with
  | .threw | .notOpened => (disk, false)
  | .writeFailed written => ({ disk with temp := some written }, false)
  | .renameFailed => ({ disk with temp := none }, false)
  | .renamed => (⟨some (format.print tbl), none⟩, true)

/-- What `SaveToFile` does to the document. -/
def mergeTypingConfig (config : StoredTypingConfig) (tbl : TomlTable) : TomlTable :=
  let tbl := tbl.insertOrAssign "input" (.table (inputTable config))
  let km := SaveCustomKeyMap config
  let tbl :=
    if km.isEmpty then tbl.erase "UserDefinedKeyMap"
    else tbl.insertOrAssign "UserDefinedKeyMap" (.table km)
  tbl.insertOrAssign "features" (.table (featuresTable config))

/-- `escIsCancelTrigger`: Esc alone cancels the composition. -/
def escIsCancelTrigger (registry : HotkeyRegistry) : Bool :=
  registry.Matches .CancelComposition 0x1B 0 false false

/-- What `SaveHotkeyRegistry` does to the document. -/
def mergeHotkeyRegistry (registry : HotkeyRegistry) (tbl : TomlTable) : TomlTable :=
  let tbl := tbl.insertOrAssign "hotkeys" (.array registry.Save)
  let tbl := tbl.insertOrAssign "hotkey_state" (.table registry.SaveEnabled)
  let features := ((tbl.get "features").bind TomlNode.asTable).getD .empty
  tbl.insertOrAssign "features"
    (.table (features.insertOrAssign "esc_restore_raw" (.boolean (escIsCancelTrigger registry))))

/-- A saver with the configuration it is called with. -/
inductive SaveCall where
  | SaveToFile (config : StoredTypingConfig)
  | SaveUIConfig (config : UIConfig)
  | SaveHotkeyConfig (config : HotkeyConfig)
  | SaveHotkeyRegistry (registry : HotkeyRegistry)
  | SaveMacros (macros : List (WString × WString))
  | SaveAppOverrides (entries : List (WString × AppOverrideEntry))
  | SaveSystemConfig (config : SystemConfig)
  | SaveConvertConfig (config : ConvertConfig)

namespace SaveCall

variable (utf8 : WString → String)

/-- What a saver does to the document between the read and the write. -/
def merge : SaveCall → TomlTable → TomlTable
  | .SaveToFile config, tbl => mergeTypingConfig config tbl
  | .SaveUIConfig config, tbl => tbl.insertOrAssign "ui" (.table (uiTable config))
  | .SaveHotkeyConfig config, tbl => tbl.insertOrAssign "hotkey" (.table (hotkeyTable config))
  | .SaveHotkeyRegistry registry, tbl => mergeHotkeyRegistry registry tbl
  | .SaveMacros macros, tbl => tbl.insertOrAssign "macros" (.table (macrosTable utf8 macros))
  | .SaveAppOverrides entries, tbl =>
    tbl.insertOrAssign "app_overrides" (.table (appOverridesTable utf8 entries))
  | .SaveSystemConfig config, tbl => tbl.insertOrAssign "system" (.table (systemTable config))
  | .SaveConvertConfig config, tbl => tbl.insertOrAssign "convert" (.table (convertTable config))

/-- The call: what it leaves on the disk and returns. -/
def save (call : SaveCall) (outcome : IoOutcome Content) (disk : Disk Content) :
    Disk Content × Bool :=
  WriteToml format outcome.write disk (call.merge utf8 (LoadExistingToml format outcome.readable disk))

/-- The sections that a saver owns. -/
def owned : SaveCall → List String
  | .SaveToFile _ => ["input", "UserDefinedKeyMap", "features"]
  | .SaveUIConfig _ => ["ui"]
  | .SaveHotkeyConfig _ => ["hotkey"]
  | .SaveHotkeyRegistry _ => ["hotkeys", "hotkey_state"]
  | .SaveMacros _ => ["macros"]
  | .SaveAppOverrides _ => ["app_overrides"]
  | .SaveSystemConfig _ => ["system"]
  | .SaveConvertConfig _ => ["convert"]

/-- What a section has that the saver does not own: nothing of its own sections, everything of another;
    of the features the hotkey registry owns `esc_restore_raw`, and a `features` that is no table is no
    section. -/
def notOwned (call : SaveCall) (name : String) (node : TomlNode) : Option TomlNode :=
  if name ∈ call.owned then none
  else match call with
    | .SaveHotkeyRegistry _ =>
      if name = "features" then
        node.asTable.bind fun features =>
          let rest := features.erase "esc_restore_raw"
          if rest.isEmpty then none else some (.table rest)
      else some node
    | _ => some node

/-- What the config file has under a name that the saver does not own. -/
def others (call : SaveCall) (disk : Disk Content) (name : String) : Option TomlNode :=
  disk.config.bind fun content => (format.sections content name).bind (call.notOwned name)

/-- The call fails and leaves the file as it was, or leaves what it does not own. -/
def KeepsOthers (call : SaveCall) (outcome : IoOutcome Content) (disk : Disk Content) : Prop :=
  let result := call.save format utf8 outcome disk
  (result.2 = false ∧ result.1.config = disk.config) ∨
    ∀ name node, call.others format disk name = some node →
      call.others format result.1 name = some node

/-- The config file is there, can be read and parses. -/
def Parses (outcome : IoOutcome Content) (disk : Disk Content) : Prop :=
  outcome.readable = true ∧ ∃ content ∈ disk.config, (format.parse content).isSome

/-- The file is not replaced, or it could be read and parsed, or it has nothing to lose. -/
def SafeToSave (call : SaveCall) (outcome : IoOutcome Content) (disk : Disk Content) : Prop :=
  outcome.write ≠ .renamed ∨ Parses format outcome disk ∨ ∀ name, call.others format disk name = none

/-- What a save owns is not left to others. -/
lemma notOwned_of_owned {call : SaveCall} {name : String} (h : name ∈ call.owned) (node : TomlNode) :
    call.notOwned name node = none := by
  unfold notOwned
  rw [if_pos h]

/-- The hotkeys own no feature. -/
lemma notOwned_features (registry : HotkeyRegistry) (node : TomlNode) :
    (SaveHotkeyRegistry registry).notOwned "features" node = node.asTable.bind fun features =>
      let rest := features.erase "esc_restore_raw"
      if rest.isEmpty then none else some (.table rest) := by
  unfold notOwned
  have hother : "features" ∉ (SaveHotkeyRegistry registry).owned := by
    rw [owned]
    decide
  rw [if_neg hother]
  rfl

/-- Of the features the hotkey registry changes `esc_restore_raw` only. -/
lemma notOwned_mergeHotkeyRegistry (registry : HotkeyRegistry) (tbl : TomlTable) {name : String}
    (hhotkeys : name ≠ "hotkeys") (hstate : name ≠ "hotkey_state") :
    ((mergeHotkeyRegistry registry tbl).get name).bind ((SaveHotkeyRegistry registry).notOwned name) =
      (tbl.get name).bind ((SaveHotkeyRegistry registry).notOwned name) := by
  simp only [mergeHotkeyRegistry]
  rw [TomlTable.get_insertOrAssign_of_ne (by decide : "features" ≠ "hotkey_state"),
    TomlTable.get_insertOrAssign_of_ne (by decide : "features" ≠ "hotkeys")]
  by_cases hfeatures : name = "features"
  · subst hfeatures
    rw [TomlTable.get_insertOrAssign, Option.bind_some, notOwned_features, TomlNode.asTable_table,
      Option.bind_some, TomlTable.erase_insertOrAssign]
    cases hget : tbl.get "features" with
    | none => rfl
    | some node =>
      rw [Option.bind_some, Option.bind_some, notOwned_features]
      cases htable : node.asTable with
      | none => rfl
      | some features => rfl
  · rw [TomlTable.get_insertOrAssign_of_ne hfeatures, TomlTable.get_insertOrAssign_of_ne hstate,
      TomlTable.get_insertOrAssign_of_ne hhotkeys]

/-- A merge keeps what the saver does not own. -/
lemma notOwned_merge (call : SaveCall) (tbl : TomlTable) (name : String) :
    ((call.merge utf8 tbl).get name).bind (call.notOwned name) =
      (tbl.get name).bind (call.notOwned name) := by
  by_cases howned : name ∈ call.owned
  · -- nothing on either side
    have hnone : call.notOwned name = fun _ => none := funext (notOwned_of_owned howned)
    rw [hnone, Option.bind_fun_none, Option.bind_fun_none]
  cases call with
  | SaveToFile config =>
    simp only [owned, List.mem_cons, List.not_mem_nil, or_false, not_or] at howned
    obtain ⟨hinput, hkeymap, hfeatures⟩ := howned
    simp only [merge, mergeTypingConfig]
    rw [TomlTable.get_insertOrAssign_of_ne hfeatures]
    split
    · rw [TomlTable.get_erase_of_ne hkeymap, TomlTable.get_insertOrAssign_of_ne hinput]
    · rw [TomlTable.get_insertOrAssign_of_ne hkeymap, TomlTable.get_insertOrAssign_of_ne hinput]
  | SaveHotkeyRegistry registry =>
    simp only [owned, List.mem_cons, List.not_mem_nil, or_false, not_or] at howned
    exact notOwned_mergeHotkeyRegistry registry tbl howned.1 howned.2
  | SaveUIConfig config =>
    rw [merge, TomlTable.get_insertOrAssign_of_ne (by simpa [owned] using howned)]
  | SaveHotkeyConfig config =>
    rw [merge, TomlTable.get_insertOrAssign_of_ne (by simpa [owned] using howned)]
  | SaveMacros macros =>
    rw [merge, TomlTable.get_insertOrAssign_of_ne (by simpa [owned] using howned)]
  | SaveAppOverrides entries =>
    rw [merge, TomlTable.get_insertOrAssign_of_ne (by simpa [owned] using howned)]
  | SaveSystemConfig config =>
    rw [merge, TomlTable.get_insertOrAssign_of_ne (by simpa [owned] using howned)]
  | SaveConvertConfig config =>
    rw [merge, TomlTable.get_insertOrAssign_of_ne (by simpa [owned] using howned)]

variable {format utf8}

/-- A save that replaces the file leaves what the read found. -/
lemma others_save {call : SaveCall} {outcome : IoOutcome Content} {disk : Disk Content}
    (hwrite : outcome.write = .renamed) (name : String) :
    call.others format (call.save format utf8 outcome disk).1 name =
      ((LoadExistingToml format outcome.readable disk).get name).bind (call.notOwned name) := by
  rw [save, hwrite]
  simp only [WriteToml, others, Option.bind_some, format.sections_print]
  exact notOwned_merge utf8 call _ name

/-- A file that is parsed is loaded. -/
lemma load_of_parses {outcome : IoOutcome Content} {disk : Disk Content}
    (h : Parses format outcome disk) (call : SaveCall) (name : String) :
    ((LoadExistingToml format outcome.readable disk).get name).bind (call.notOwned name) =
      call.others format disk name := by
  obtain ⟨hreadable, content, hcontent, hparse⟩ := h
  obtain ⟨tbl, hparse⟩ := Option.isSome_iff_exists.1 hparse
  rw [LoadExistingToml, others, Option.mem_def.1 hcontent]
  simp only [hreadable, if_true, hparse, Option.getD_some, Option.bind_some,
    format.sections_of_parse hparse]

/-- Any other is loaded as empty. -/
lemma load_of_not_parses {outcome : IoOutcome Content} {disk : Disk Content}
    (h : ¬Parses format outcome disk) : LoadExistingToml format outcome.readable disk = .empty := by
  unfold LoadExistingToml
  cases hconfig : disk.config with
  | none => rfl
  | some content =>
    by_cases hreadable : outcome.readable = true
    · have hparse : format.parse content = none := by
        by_contra hparse
        exact h ⟨hreadable, content, hconfig, Option.isSome_iff_ne_none.2 hparse⟩
      simp only [hreadable, if_true, hparse, Option.getD_none]
    · simp only [hreadable, Bool.false_eq_true, if_false]

/-- A save that does not replace the file fails. -/
lemma save_of_not_renamed {call : SaveCall} {outcome : IoOutcome Content} {disk : Disk Content}
    (h : outcome.write ≠ .renamed) :
    (call.save format utf8 outcome disk).2 = false ∧
      (call.save format utf8 outcome disk).1.config = disk.config := by
  unfold save
  cases hwrite : outcome.write with
  | threw => exact ⟨rfl, rfl⟩
  | notOpened => exact ⟨rfl, rfl⟩
  | writeFailed written => exact ⟨rfl, rfl⟩
  | renameFailed => exact ⟨rfl, rfl⟩
  | renamed => exact absurd hwrite h

/-- A save keeps what it does not own exactly when it is safe: of a file that it replaces without having
    parsed it, nothing is left. -/
theorem keepsOthers_iff (format : TomlFormat Content) (utf8 : WString → String) (call : SaveCall)
    (outcome : IoOutcome Content) (disk : Disk Content) :
    call.KeepsOthers format utf8 outcome disk ↔ call.SafeToSave format outcome disk := by
  by_cases hwrite : outcome.write = .renamed
  · have hreturns : (call.save format utf8 outcome disk).2 = true := by
      rw [save, hwrite]
      rfl
    simp only [KeepsOthers, SafeToSave, hreturns, others_save hwrite, hwrite, Bool.true_eq_false,
      false_and, false_or, ne_eq, not_true_eq_false]
    by_cases hparses : Parses format outcome disk
    · simp only [load_of_parses hparses, hparses, imp_self, implies_true, true_or]
    · simp only [load_of_not_parses hparses, hparses, TomlTable.get_empty, Option.bind_none, false_or]
      constructor
      · intro h name
        by_contra hsome
        obtain ⟨node, hnode⟩ := Option.ne_none_iff_exists'.1 hsome
        cases h name node hnode
      · intro h name node hnode
        rw [h name] at hnode
        cases hnode
  · exact iff_of_true (.inl (save_of_not_renamed hwrite)) (.inl hwrite)

/-- A file is sound, or has a syntax error next to its sections. -/
inductive SketchFile where
  | sound (tbl : TomlTable)
  | broken (tbl : TomlTable)

def sketchFormat : TomlFormat SketchFile where
  parse
    | .sound tbl => some tbl
    | .broken _ => none
  print := .sound
  sections
    | .sound tbl => tbl.get
    | .broken tbl => tbl.get
  parse_print _ := rfl
  sections_of_parse := by
    rintro (tbl | tbl) t h
    · rw [← Option.some.inj h]
    · cases h

/-- The user has macros, and left a syntax error. -/
def brokenMacros : Disk SketchFile :=
  { config := some (.broken (TomlTable.empty.insertOrAssign "macros" (.table .empty))) }

/-- Saving the UI section loses the macros. -/
theorem not_keepsOthers_broken :
    ¬∀ (call : SaveCall) (outcome : IoOutcome SketchFile) (disk : Disk SketchFile),
      call.KeepsOthers sketchFormat (fun _ => "") outcome disk := by
  intro h
  have hsafe := h (.SaveUIConfig {}) ⟨true, .renamed⟩ brokenMacros
  obtain ⟨hfalse, -⟩ | hkeeps := hsafe
  · cases hfalse
  · have hmacros := hkeeps "macros" (.table .empty) rfl
    cases hmacros

end SaveCall
end NextKey
