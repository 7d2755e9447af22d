import NextKey.Config.Persistence
import NextKey.Lib.EntryMap

/-!
# Macros and app overrides are loaded again

Model of `LoadMacros` and `LoadAppOverrides` of `core/config/ConfigManager.cpp`. The loaders have limits
that the savers do not: a macro with a key or a value of too many bytes is skipped, and the app overrides
end with the 256th key of their table. The cache of parsed files is left out.
-/

namespace NextKey

/-- C++ `kMaxMacroKeyLen` -/
def kMaxMacroKeyLen : Nat := 32

/-- C++ `kMaxMacroValueLen` -/
def kMaxMacroValueLen : Nat := 20480

/-- C++ `kMaxPerAppEntries` -/
def kMaxPerAppEntries : Nat := 256

/-- An entry of `[macros]`, unless it is no string or too long. -/
def loadMacro (entry : String × TomlNode) : Option (WString × WString) :=
  match TomlRead.text entry.2 with
  | some str =>
    if kMaxMacroKeyLen < entry.1.utf8ByteSize ∨ kMaxMacroValueLen < str.utf8ByteSize then none
    else some (Utf8ToWide entry.1, Utf8ToWide str)
  | none => none

/-- What `LoadMacros` makes of a parsed file. -/
def macrosOf (table : TomlTable) : EntryMap WString WString :=
  let fields := ((section? table "macros").map TomlTable.entries).getD []
  EntryMap.ofEntries (fields.filterMap loadMacro)

/-- An entry of `[app_overrides]`, unless it is no table. -/
def loadAppOverride (whole : String → Option Int) (entry : String × TomlNode) :
    Option (WString × AppOverrideEntry) :=
  entry.2.asTable.map fun fields =>
    let value (key : String) : BitVec 8 :=
      BitVec.ofInt 8 (((fields.get key).bind (TomlRead.int whole)).getD (-1))
    (Utf8ToWide entry.1, ⟨value "input_method", value "encoding", value "send_method"⟩)

/-- What `LoadAppOverrides` makes of a parsed file. -/
def appOverridesOf (whole : String → Option Int) (table : TomlTable) :
    EntryMap WString AppOverrideEntry :=
  let fields := ((section? table "app_overrides").map TomlTable.entries).getD []
  EntryMap.ofEntries ((fields.take kMaxPerAppEntries).filterMap (loadAppOverride whole))

section Load
variable {Content : Type*} (format : TomlFormat Content) (whole : String → Option Int)
  (fileSize : Content → Nat)

/-- C++ `ConfigManager::LoadMacros` -/
def LoadMacros (readable : Bool) (disk : Disk Content) : EntryMap WString WString :=
  match disk.config with
  | none => EntryMap.ofEntries []
  | some content =>
    if kMaxConfigFileSizeBytes < fileSize content then EntryMap.ofEntries []
    else if readable then ((format.parse content).map macrosOf).getD (EntryMap.ofEntries [])
    else EntryMap.ofEntries []

/-- C++ `ConfigManager::LoadAppOverrides` -/
def LoadAppOverrides (readable : Bool) (disk : Disk Content) : EntryMap WString AppOverrideEntry :=
  match disk.config with
  | none => EntryMap.ofEntries []
  | some content =>
    if readable then ((format.parse content).map (appOverridesOf whole)).getD (EntryMap.ofEntries [])
    else EntryMap.ofEntries []

end Load

section Tables

variable {entries : List (String × TomlNode)} {key : String}

/-- A table has one field for each of its entries when their keys are distinct. -/
lemma fields_tableOf_perm (h : (entries.map (·.1)).Nodup) :
    (tableOf entries).fields.Perm (entries.map fun entry => (entry.1, entry.2.value)) := by
  unfold tableOf
  induction entries using List.reverseRecOn with
  | nil => exact .refl _
  | append_singleton entries last ih =>
    rw [List.map_append, List.nodup_append] at h
    obtain ⟨hentries, -, hdistinct⟩ := h
    have hfields := ih hentries
    rw [List.foldl_append, List.foldl_cons, List.foldl_nil, List.map_append]
    refine (TomlFields.insertOrAssign_perm ?_).trans (((List.Perm.cons _ hfields)).trans ?_)
    · intro hkey
      have hkey' : last.1 ∈ entries.map (·.1) := by
        have hmem := (hfields.map (·.1)).mem_iff.1 hkey
        rwa [List.map_map] at hmem
      exact hdistinct last.1 hkey' last.1 (List.mem_singleton_self _) rfl
    · exact @List.perm_append_comm _ [_] _

/-- A table holds its entries, in some order. -/
lemma entries_tableOf_perm (h : (entries.map (·.1)).Nodup) : (tableOf entries).entries.Perm entries := by
  have hinj : Function.Injective fun entry : String × TomlNode => (entry.1, entry.2.value) := by
    rintro ⟨key, node⟩ ⟨key', node'⟩ heq
    obtain ⟨hkey, hnode⟩ := Prod.mk.inj heq
    exact Prod.ext hkey (TomlNode.ext hnode)
  rw [← List.map_perm_map_iff hinj, TomlTable.map_entries]
  exact fields_tableOf_perm h

end Tables

/-- Names that are distinct are stored under distinct keys. -/
lemma wideToUtf8_nodup {β : Type*} {entries : List (WString × β)} (h : (entries.map (·.1)).Nodup)
    (hvalid : ∀ entry ∈ entries, ValidWide entry.1) :
    (entries.map fun entry => WideToUtf8 entry.1).Nodup := by
  have hmap : (entries.map fun entry => WideToUtf8 entry.1) = (entries.map (·.1)).map WideToUtf8 := by
    rw [List.map_map]
    rfl
  rw [hmap]
  refine List.Nodup.map_on ?_ h
  rintro _ hname _ hname' heq
  obtain ⟨entry, hentry, rfl⟩ := List.mem_map.1 hname
  obtain ⟨entry', hentry', rfl⟩ := List.mem_map.1 hname'
  exact (hvalid entry hentry).wideToUtf8_injective (hvalid entry' hentry') heq

section Macros

variable {macros : List (WString × WString)} {entry : WString × WString} {tbl : TomlTable}

/-- The entries that the loader takes. -/
def macroFits (entry : WString × WString) : Bool :=
  decide ((WideToUtf8 entry.1).utf8ByteSize ≤ kMaxMacroKeyLen) &&
    decide ((WideToUtf8 entry.2).utf8ByteSize ≤ kMaxMacroValueLen)

/-- A macro is loaded as it was saved. -/
lemma loadMacro_saved (hkey : ValidWide entry.1) (hvalue : ValidWide entry.2) :
    loadMacro (WideToUtf8 entry.1, .text (WideToUtf8 entry.2)) =
      if macroFits entry then some entry else none := by
  have htext : TomlRead.text (.text (WideToUtf8 entry.2)) = some (WideToUtf8 entry.2) := rfl
  unfold loadMacro macroFits
  simp only [htext, hkey.utf8ToWide_wideToUtf8, hvalue.utf8ToWide_wideToUtf8]
  by_cases hlong : kMaxMacroKeyLen < (WideToUtf8 entry.1).utf8ByteSize ∨
      kMaxMacroValueLen < (WideToUtf8 entry.2).utf8ByteSize
  · rw [if_pos hlong, if_neg]
    simp only [Bool.and_eq_true, decide_eq_true_eq]
    omega
  · rw [if_neg hlong, if_pos]
    simp only [Bool.and_eq_true, decide_eq_true_eq]
    omega

/-- What is loaded from a saved document: the macros that are not too long. -/
lemma macrosOf_merge (hkeys : (macros.map (·.1)).Nodup)
    (hvalid : ∀ entry ∈ macros, ValidWide entry.1 ∧ ValidWide entry.2) :
    macrosOf ((SaveCall.SaveMacros macros).merge WideToUtf8 tbl) =
      EntryMap.ofEntries (macros.filter macroFits) := by
  have hsection : section? ((SaveCall.SaveMacros macros).merge WideToUtf8 tbl) "macros" =
      some (macrosTable WideToUtf8 macros) := by
    rw [section?, SaveCall.merge, TomlTable.get_insertOrAssign, Option.bind_some,
      TomlNode.asTable_table]
  have hperm : (macrosTable WideToUtf8 macros).entries.Perm
      (macros.map fun entry => (WideToUtf8 entry.1, .text (WideToUtf8 entry.2))) := by
    apply entries_tableOf_perm
    rw [List.map_map]
    exact wideToUtf8_nodup hkeys fun entry hentry => (hvalid entry hentry).1
  have hloaded : (macros.map fun entry => (WideToUtf8 entry.1,
      TomlNode.text (WideToUtf8 entry.2))).filterMap loadMacro = macros.filter macroFits := by
    rw [List.filterMap_map, ← List.filterMap_eq_filter]
    refine List.filterMap_congr fun entry hentry => ?_
    obtain ⟨hkey, hvalue⟩ := hvalid entry hentry
    rw [Function.comp_apply, loadMacro_saved hkey hvalue]
    rfl
  unfold macrosOf
  rw [hsection, Option.map_some, Option.getD_some]
  symm
  apply EntryMap.ofEntries_perm
  · rw [← hloaded]
    exact (hperm.filterMap loadMacro).symm
  · exact hkeys.sublist (List.filter_sublist.map _)

end Macros

section AppOverrides

variable {entries : List (WString × AppOverrideEntry)} {tbl : TomlTable} {whole : String → Option Int}

/-- The fields that are saved for an app. -/
def overrideFields (e : AppOverrideEntry) : TomlTable :=
  tableOf [("input_method", .integer e.inputMethod.toInt), ("encoding", .integer e.encodingOverride.toInt),
    ("send_method", .integer e.sendMethod.toInt)]

/-- The table that is saved for an app, under its name. -/
def savedOverride (entry : WString × AppOverrideEntry) : String × TomlNode :=
  (WideToUtf8 entry.1, .table (overrideFields entry.2))

/-- A byte is read back. -/
lemma int8_ofInt (value : BitVec 8) :
    BitVec.ofInt 8 ((TomlRead.int whole (.integer value.toInt)).getD (-1)) = value := by
  have hle := value.toInt_lt
  have hge := value.le_toInt
  rw [int_integer ⟨by omega, by omega⟩, Option.getD_some]
  exact BitVec.eq_of_toInt_eq (by simp)

/-- So is an override. -/
lemma loadAppOverride_saved {entry : WString × AppOverrideEntry} (h : ValidWide entry.1) :
    loadAppOverride whole (savedOverride entry) = some entry := by
  have hmethod : (overrideFields entry.2).get "input_method" =
      some (.integer entry.2.inputMethod.toInt) := get_tableOf
  have hencoding : (overrideFields entry.2).get "encoding" =
      some (.integer entry.2.encodingOverride.toInt) := get_tableOf
  have hsend : (overrideFields entry.2).get "send_method" =
      some (.integer entry.2.sendMethod.toInt) := get_tableOf
  unfold loadAppOverride savedOverride
  simp only [TomlNode.asTable_table, Option.map_some, hmethod, hencoding, hsend, Option.bind_some,
    int8_ofInt, h.utf8ToWide_wideToUtf8]

/-- The entries with the smallest names, as many as the loader takes. -/
def firstOverrides (entries : List (WString × AppOverrideEntry)) : List (WString × AppOverrideEntry) :=
  entries.filter fun entry => decide (entries.countP (fun other =>
    decide (WideToUtf8 other.1 < WideToUtf8 entry.1)) < kMaxPerAppEntries)

/-- Up to the limit these are all of the entries. -/
lemma firstOverrides_eq_self (h : entries.length ≤ kMaxPerAppEntries) :
    firstOverrides entries = entries := by
  refine List.filter_eq_self.2 fun entry hentry => decide_eq_true ?_
  refine Nat.lt_of_lt_of_le ?_ h
  refine lt_of_le_of_ne List.countP_le_length fun hall => ?_
  exact lt_irrefl _ (of_decide_eq_true (List.countP_eq_length.1 hall entry hentry))

/-- The fields that the loader takes of a saved table are those of the first entries. -/
lemma take_entries_perm (hkeys : (entries.map (·.1)).Nodup)
    (hvalid : ∀ entry ∈ entries, ValidWide entry.1) :
    ((appOverridesTable WideToUtf8 entries).entries.take kMaxPerAppEntries).Perm
      ((firstOverrides entries).map savedOverride) := by
  have hperm : (appOverridesTable WideToUtf8 entries).entries.Perm (entries.map savedOverride) := by
    apply entries_tableOf_perm
    rw [List.map_map]
    exact wideToUtf8_nodup hkeys hvalid
  rw [List.take_eq_filter_of_ascending (TomlTable.entries_ascend _)]
  refine (hperm.filter _).trans (.of_eq ?_)
  rw [List.filter_map, firstOverrides]
  refine congrArg (List.map savedOverride) (List.filter_congr fun entry _ => ?_)
  rw [Function.comp_apply, hperm.countP_eq, List.countP_map]
  rfl

/-- No more overrides are loaded than the limit. -/
lemma length_firstOverrides_le (hkeys : (entries.map (·.1)).Nodup)
    (hvalid : ∀ entry ∈ entries, ValidWide entry.1) :
    (firstOverrides entries).length ≤ kMaxPerAppEntries := by
  have hlength := (take_entries_perm hkeys hvalid).length_eq
  rw [List.length_map] at hlength
  rw [← hlength]
  exact List.length_take_le _ _

/-- What is loaded from a saved document: the first overrides. -/
lemma appOverridesOf_merge (hkeys : (entries.map (·.1)).Nodup)
    (hvalid : ∀ entry ∈ entries, ValidWide entry.1) :
    appOverridesOf whole ((SaveCall.SaveAppOverrides entries).merge WideToUtf8 tbl) =
      EntryMap.ofEntries (firstOverrides entries) := by
  have hsection : section? ((SaveCall.SaveAppOverrides entries).merge WideToUtf8 tbl) "app_overrides" =
      some (appOverridesTable WideToUtf8 entries) := by
    rw [section?, SaveCall.merge, TomlTable.get_insertOrAssign, Option.bind_some,
      TomlNode.asTable_table]
  have hfirst : ∀ entry ∈ firstOverrides entries, ValidWide entry.1 := fun entry hentry =>
    hvalid entry (List.mem_of_mem_filter hentry)
  have hloaded : ((firstOverrides entries).map savedOverride).filterMap (loadAppOverride whole) =
      firstOverrides entries := by
    rw [List.filterMap_map]
    have hsome := List.filterMap_congr (g := some) fun entry hentry =>
      @loadAppOverride_saved whole entry (hfirst entry hentry)
    exact hsome.trans List.filterMap_some
  unfold appOverridesOf
  rw [hsection, Option.map_some, Option.getD_some]
  symm
  apply EntryMap.ofEntries_perm
  · rw [← hloaded]
    exact ((take_entries_perm hkeys hvalid).filterMap _).symm
  · exact hkeys.sublist (List.filter_sublist.map _)

end AppOverrides

section RoundTrip

variable {Content : Type*} (format : TomlFormat Content) (whole : String → Option Int)
  (fileSize : Content → Nat) {macros : List (WString × WString)}
  {entries : List (WString × AppOverrideEntry)} {outcome : IoOutcome Content} {disk : Disk Content}

/-- The file that a save has left is small enough to be loaded. -/
def BelowGuard (disk : Disk Content) : Prop :=
  ∀ content ∈ disk.config, fileSize content ≤ kMaxConfigFileSizeBytes

/-- The macros that are loaded after a save. -/
lemma loadMacros_saveMacros (hkeys : (macros.map (·.1)).Nodup)
    (hvalid : ∀ entry ∈ macros, ValidWide entry.1 ∧ ValidWide entry.2)
    (hsaved : ((SaveCall.SaveMacros macros).save format WideToUtf8 outcome disk).2 = true)
    (hsize : BelowGuard fileSize ((SaveCall.SaveMacros macros).save format WideToUtf8 outcome disk).1) :
    LoadMacros format fileSize true
        ((SaveCall.SaveMacros macros).save format WideToUtf8 outcome disk).1 =
      EntryMap.ofEntries (macros.filter macroFits) := by
  have hconfig := SaveCall.config_save hsaved
  have hsmall := hsize _ (Option.mem_def.2 hconfig)
  unfold LoadMacros
  rw [hconfig]
  dsimp only
  rw [if_neg (Nat.not_lt.2 hsmall), if_pos rfl, format.parse_print, Option.map_some, Option.getD_some,
    macrosOf_merge hkeys hvalid]

/-- The overrides that are loaded after a save. -/
lemma loadAppOverrides_saveAppOverrides (hkeys : (entries.map (·.1)).Nodup)
    (hvalid : ∀ entry ∈ entries, ValidWide entry.1)
    (hsaved : ((SaveCall.SaveAppOverrides entries).save format WideToUtf8 outcome disk).2 = true) :
    LoadAppOverrides format whole true
        ((SaveCall.SaveAppOverrides entries).save format WideToUtf8 outcome disk).1 =
      EntryMap.ofEntries (firstOverrides entries) := by
  have hconfig := SaveCall.config_save hsaved
  unfold LoadAppOverrides
  rw [hconfig]
  dsimp only
  rw [if_pos rfl, format.parse_print, Option.map_some, Option.getD_some,
    appOverridesOf_merge hkeys hvalid]

/-- Macros and app overrides of valid names that were saved are loaded again. The loader takes a macro
    whose key has up to 32 bytes and whose value has up to 20480, and none of whose key or value has more
    characters than that; of the app overrides it takes those with the 256 smallest names. -/
theorem listSettings_load_save :
    (∀ (macros : List (WString × WString)) (outcome : IoOutcome Content) (disk : Disk Content),
      (macros.map (·.1)).Nodup → (∀ entry ∈ macros, ValidWide entry.1 ∧ ValidWide entry.2) →
      let result := (SaveCall.SaveMacros macros).save format WideToUtf8 outcome disk
      result.2 = true → BelowGuard fileSize result.1 →
        let loaded := LoadMacros format fileSize true result.1
        (∀ entry : WString × WString, loaded entry.1 = some entry.2 → entry ∈ macros) ∧
        (∀ entry ∈ macros, (WideToUtf8 entry.1).utf8ByteSize ≤ kMaxMacroKeyLen →
          (WideToUtf8 entry.2).utf8ByteSize ≤ kMaxMacroValueLen → loaded entry.1 = some entry.2) ∧
        ∀ entry ∈ macros, kMaxMacroKeyLen < entry.1.length ∨ kMaxMacroValueLen < entry.2.length →
          loaded entry.1 = none) ∧
    ∀ (entries : List (WString × AppOverrideEntry)) (outcome : IoOutcome Content) (disk : Disk Content),
      (entries.map (·.1)).Nodup → (∀ entry ∈ entries, ValidWide entry.1) →
      let result := (SaveCall.SaveAppOverrides entries).save format WideToUtf8 outcome disk
      result.2 = true →
        let loaded := LoadAppOverrides format whole true result.1
        loaded = EntryMap.ofEntries (firstOverrides entries) ∧
        (entries.length ≤ kMaxPerAppEntries → loaded = EntryMap.ofEntries entries) := by
  constructor
  · intro macros outcome disk hkeys hvalid result hsaved hsize loaded
    have hloaded : loaded = EntryMap.ofEntries (macros.filter macroFits) :=
      loadMacros_saveMacros format fileSize hkeys hvalid hsaved hsize
    have hfits : ((macros.filter macroFits).map (·.1)).Nodup :=
      hkeys.sublist (List.filter_sublist.map _)
    rw [hloaded]
    refine ⟨fun entry h => ?_, fun entry hentry hkey hvalue => ?_, fun entry hentry hlong => ?_⟩
    · exact List.mem_of_mem_filter ((EntryMap.ofEntries_eq_some hfits).1 h)
    · refine (EntryMap.ofEntries_eq_some hfits).2 (List.mem_filter.2 ⟨hentry, ?_⟩)
      rw [macroFits, decide_eq_true hkey, decide_eq_true hvalue]
      rfl
    · rw [EntryMap.ofEntries_eq_none hfits]
      intro hmem
      obtain ⟨other, hother, hname⟩ := List.mem_map.1 hmem
      obtain ⟨hother, hshort⟩ := List.mem_filter.1 hother
      obtain rfl : other = entry := List.inj_on_of_nodup_map hkeys hother hentry hname
      obtain ⟨hkey, hvalue⟩ := hvalid other hentry
      have hkey' := hkey.length_le
      have hvalue' := hvalue.length_le
      rw [macroFits, Bool.and_eq_true, decide_eq_true_eq, decide_eq_true_eq] at hshort
      omega
  · intro entries outcome disk hkeys hvalid result hsaved loaded
    have hloaded : loaded = EntryMap.ofEntries (firstOverrides entries) :=
      loadAppOverrides_saveAppOverrides format whole hkeys hvalid hsaved
    refine ⟨hloaded, fun hfew => ?_⟩
    rw [hloaded, firstOverrides_eq_self hfew]

end RoundTrip

/-- One macro and the overrides of one app. -/
theorem listSettings_load_save_vn :
    let macros : List (WString × WString) := [([118, 110], [86, 0x1EC7, 116])]
    let entries : List (WString × AppOverrideEntry) := [([97, 46, 101], { inputMethod := 1 })]
    LoadMacros plainFormat (fun _ => 0) true
        ((SaveCall.SaveMacros macros).save plainFormat WideToUtf8 ⟨true, .renamed⟩ {}).1 [118, 110] =
      some [86, 0x1EC7, 116] ∧
    LoadAppOverrides plainFormat (fun _ => none) true
        ((SaveCall.SaveAppOverrides entries).save plainFormat WideToUtf8 ⟨true, .renamed⟩ {}).1 =
      EntryMap.ofEntries entries := by
  intro macros entries
  have hvn : ValidWide [118, 110] := ⟨['v', 'n'], by decide, by decide⟩
  have hviet : ValidWide [86, 0x1EC7, 116] := ⟨['V', 'ệ', 't'], by decide, by decide⟩
  have hexe : ValidWide [97, 46, 101] := ⟨['a', '.', 'e'], by decide, by decide⟩
  have hall := listSettings_load_save plainFormat (fun _ => none) fun _ => 0
  constructor
  · refine (hall.1 macros ⟨true, .renamed⟩ {} (by decide) ?_ rfl ?_).2.1 ([118, 110], [86, 0x1EC7, 116])
      (.head _) (by decide) (by decide)
    · intro entry hentry
      obtain rfl := List.mem_singleton.1 hentry
      exact ⟨hvn, hviet⟩
    · intro _ _
      exact Nat.zero_le _
  · refine (hall.2 entries ⟨true, .renamed⟩ {} (by decide) ?_ rfl).2 (by decide)
    intro entry hentry
    obtain rfl := List.mem_singleton.1 hentry
    exact hexe

/-- The macros that are loaded from a new file in which they were saved. -/
def reloadedMacros (macros : List (WString × WString)) : EntryMap WString WString :=
  LoadMacros plainFormat (fun _ => 0) true
    ((SaveCall.SaveMacros macros).save plainFormat WideToUtf8 ⟨true, .renamed⟩ {}).1

/-- The overrides of 257 apps. -/
def manyOverrides : List (WString × AppOverrideEntry) :=
  (List.range 257).map fun i => ([UInt16.ofNat (i + 1)], {})

/-- The example has different names. -/
lemma manyOverrides_nodup : (manyOverrides.map (·.1)).Nodup := by
  rw [manyOverrides, List.map_map]
  refine List.Nodup.map_on ?_ List.nodup_range
  intro i hi j hj heq
  rw [List.mem_range] at hi hj
  have hunit := congrArg UInt16.toNat (List.singleton_inj.1 heq)
  rw [Utf16.toNat_ofNat (by omega), Utf16.toNat_ofNat (by omega)] at hunit
  exact Nat.succ_injective hunit

/-- And valid ones. -/
lemma manyOverrides_valid : ∀ entry ∈ manyOverrides, ValidWide entry.1 := by
  intro entry hentry
  obtain ⟨i, hi, rfl⟩ := List.mem_map.1 hentry
  rw [List.mem_range] at hi
  have hchar : (Char.ofNat (i + 1)).toNat = i + 1 := by
    rw [Char.ofNat, dif_pos (.inl (by omega))]
    rfl
  refine ⟨[Char.ofNat (i + 1)], fun hnul => ?_, ?_⟩
  · have hzero := congrArg Char.toNat (List.mem_singleton.1 hnul)
    rw [hchar] at hzero
    cases hzero
  · rw [Utf16.encode, List.flatMap_singleton, Utf16.encodeChar, hchar, if_pos (by omega)]

/-- A macro whose key has 33 letters is lost, a key ends at a NUL, and one of 257 apps is left out. -/
theorem not_listSettings_load_save :
    reloadedMacros [(List.replicate 33 97, [98])] ≠ EntryMap.ofEntries [(List.replicate 33 97, [98])] ∧
    reloadedMacros [([97, 0, 98], [98])] ≠ EntryMap.ofEntries [([97, 0, 98], [98])] ∧
    LoadAppOverrides plainFormat (fun _ => none) true
        ((SaveCall.SaveAppOverrides manyOverrides).save plainFormat WideToUtf8 ⟨true, .renamed⟩ {}).1 ≠
      EntryMap.ofEntries manyOverrides := by
  refine ⟨fun h => ?_, fun h => ?_, fun h => ?_⟩
  · have hkey := congrFun h (List.replicate 33 97)
    revert hkey
    decide
  · have hkey := congrFun h [97, 0, 98]
    revert hkey
    decide
  · -- the loader has 256 of them at most
    rw [loadAppOverrides_saveAppOverrides plainFormat _ manyOverrides_nodup manyOverrides_valid rfl] at h
    have hfirst : ((firstOverrides manyOverrides).map (·.1)).Nodup :=
      manyOverrides_nodup.sublist (List.filter_sublist.map _)
    have hsubset : manyOverrides ⊆ firstOverrides manyOverrides := by
      intro entry hentry
      have hvalue := (EntryMap.ofEntries_eq_some manyOverrides_nodup).2 hentry
      rw [← h] at hvalue
      exact (EntryMap.ofEntries_eq_some hfirst).1 hvalue
    have hlength := (List.subperm_of_subset manyOverrides_nodup.of_map hsubset).length_le
    have hmost := length_firstOverrides_le manyOverrides_nodup manyOverrides_valid
    rw [manyOverrides, List.length_map, List.length_range] at hlength
    exact absurd (hlength.trans hmost) (by decide)

end NextKey
