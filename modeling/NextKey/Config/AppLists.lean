import NextKey.Config.ListSettings
import NextKey.Lib.Machine

/-!
# The lists of apps in the config file

Model of the savers and loaders of `core/config/ConfigManager.cpp` for the four lists of apps: the
excluded apps and the apps locked to Vietnamese, which share the section `[excluded_apps]`, the TSF apps,
and the modes that smart switch remembers. Every saver writes the whole file, so it may disturb the lists
of the others; it does not. Whatever is saved in whatever order, and whichever saves fail, each list is
loaded as it was saved last, up to the limit of the loaders (`appLists_run`).

The lock of the file and the cache of parsed files are left out.
-/

namespace NextKey

/-- C++ `kMaxAppListEntries` -/
def kMaxAppListEntries : Nat := 1000

/-- The strings of an array, added to a list up to the limit. -/
def pushApps (apps : List WString) : List TomlNode → List WString
  | [] => apps
  | item :: items =>
    if kMaxAppListEntries ≤ apps.length then apps
    else match TomlRead.text item with
      | some str => pushApps (apps ++ [Utf8ToWide str]) items
      | none => pushApps apps items

/-- The strings of the former array `soft`, without those that are in the list. -/
def mergeApps (apps : List WString) : List TomlNode → List WString
  | [] => apps
  | item :: items =>
    if kMaxAppListEntries ≤ apps.length then apps
    else match TomlRead.text item with
      | some str =>
        if Utf8ToWide str ∈ apps then mergeApps apps items
        else mergeApps (apps ++ [Utf8ToWide str]) items
      | none => mergeApps apps items

/-- An array under a key of a section. -/
def listItems (fields : TomlTable) (key : String) : List TomlNode :=
  ((fields.get key).bind TomlRead.array).getD []

/-- What `LoadAllExcludedApps` makes of a parsed file. -/
def allExcludedAppsOf (table : TomlTable) : List WString :=
  match section? table "excluded_apps" with
  | some fields => mergeApps (pushApps [] (listItems fields "list")) (listItems fields "soft")
  | none => []

/-- What `LoadForcedVnApps` makes of a parsed file. -/
def forcedVnAppsOf (table : TomlTable) : List WString :=
  match section? table "excluded_apps" with
  | some fields => pushApps [] (listItems fields "force_vn")
  | none => []

/-- What `LoadTsfApps` makes of a parsed file. -/
def tsfAppsOf (table : TomlTable) : List WString :=
  match section? table "tsf_apps" with
  | some fields => pushApps [] (listItems fields "list")
  | none => []

section Modes
variable [WideCtype]

/-- A name in lower case. -/
def lowerName (s : WString) : WString := s.map WideCtype.towlower

/-- `emplace`, which keeps what is there. -/
def emplaceMode (apps : List (WString × Bool)) (key : WString) (isVietnamese : Bool) :
    List (WString × Bool) :=
  if key = [] ∨ key ∈ apps.map (·.1) then apps else apps ++ [(key, isVietnamese)]

/-- The mode that a string names. -/
def modeOf? (str : String) : Option Bool :=
  if str = "english" then some false else if str = "vietnamese" then some true else none

/-- The entries of `[smart_switch.apps]`, added to a map up to the limit. -/
def pushModes (apps : List (WString × Bool)) : List (String × TomlNode) → List (WString × Bool)
  | [] => apps
  | entry :: entries =>
    if kMaxAppListEntries ≤ apps.length then apps
    else match (TomlRead.text entry.2).bind modeOf? with
      | some isVietnamese =>
        pushModes (emplaceMode apps (lowerName (Utf8ToWide entry.1)) isVietnamese) entries
      | none => pushModes apps entries

/-- The apps of the former array `english_mode_apps`. -/
def pushEnglishApps (apps : List (WString × Bool)) : List TomlNode → List (WString × Bool)
  | [] => apps
  | item :: items =>
    if kMaxAppListEntries ≤ apps.length then apps
    else match TomlRead.text item with
      | some str => pushEnglishApps (emplaceMode apps (lowerName (Utf8ToWide str)) false) items
      | none => pushEnglishApps apps items

/-- What `LoadSmartSwitchApps` makes of a parsed file. -/
def smartSwitchAppsOf (table : TomlTable) : List (WString × Bool) :=
  match section? table "smart_switch" with
  | some smart =>
    match section? smart "apps" with
    | some apps => pushModes [] apps.entries
    | none => pushEnglishApps [] (listItems smart "english_mode_apps")
  | none => []

end Modes

/-- A call of a saver. -/
inductive AppListCall where
  | SaveExcludedApps (apps : List WString)
  | SaveForcedVnApps (apps : List WString)
  | SaveTsfApps (apps : List WString)
  | SaveSmartSwitchApps (apps : List (WString × Bool))

/-- An array of names. -/
def namesArray (apps : List WString) : TomlNode := .array (apps.map fun app => .text (WideToUtf8 app))

/-- `[smart_switch.apps]` -/
def modesTable (apps : List (WString × Bool)) : TomlTable :=
  tableOf (apps.map fun app =>
    (WideToUtf8 app.1, .text (if app.2 then "vietnamese" else "english")))

namespace AppListCall

/-- What a saver does to the document between the read and the write. -/
def merge : AppListCall → TomlTable → TomlTable
  | .SaveExcludedApps apps, tbl =>
    match section? tbl "excluded_apps" with
    | some fields =>
      tbl.insertOrAssign "excluded_apps"
        (.table ((fields.insertOrAssign "list" (namesArray apps)).erase "soft"))
    | none => tbl.insertOrAssign "excluded_apps" (.table (tableOf [("list", namesArray apps)]))
  | .SaveForcedVnApps apps, tbl =>
    match section? tbl "excluded_apps" with
    | some fields =>
      tbl.insertOrAssign "excluded_apps" (.table (fields.insertOrAssign "force_vn" (namesArray apps)))
    | none => tbl.insertOrAssign "excluded_apps" (.table (tableOf [("force_vn", namesArray apps)]))
  | .SaveTsfApps apps, tbl =>
    tbl.insertOrAssign "tsf_apps" (.table (tableOf [("list", namesArray apps)]))
  | .SaveSmartSwitchApps apps, tbl =>
    tbl.insertOrAssign "smart_switch" (.table (tableOf [("apps", .table (modesTable apps))]))

variable {Content : Type*} (format : TomlFormat Content)

/-- The call: what it leaves on the disk and returns. -/
def save (call : AppListCall) (outcome : IoOutcome Content) (disk : Disk Content) :
    Disk Content × Bool :=
  WriteToml format outcome.write disk (call.merge (LoadExistingToml format outcome.readable disk))

end AppListCall

section Load
variable [WideCtype] {Content : Type*} (format : TomlFormat Content) (readable : Bool)
  (disk : Disk Content)

/-- A loader, which catches whatever keeps the file from being parsed. -/
def loadList {α : Type*} (of : TomlTable → List α) : List α :=
  match disk.config with
  | some content => if readable then ((format.parse content).map of).getD [] else []
  | none => []

/-- C++ `ConfigManager::LoadAllExcludedApps` -/
def LoadAllExcludedApps : List WString := loadList format readable disk allExcludedAppsOf

/-- C++ `ConfigManager::LoadForcedVnApps` -/
def LoadForcedVnApps : List WString := loadList format readable disk forcedVnAppsOf

/-- C++ `ConfigManager::LoadTsfApps` -/
def LoadTsfApps : List WString := loadList format readable disk tsfAppsOf

/-- C++ `ConfigManager::LoadSmartSwitchApps` -/
def LoadSmartSwitchApps : List (WString × Bool) := loadList format readable disk smartSwitchAppsOf

end Load

/-- The four lists as they are loaded. -/
@[ext]
structure AppLists where
  excluded : List WString
  forcedVn : List WString
  tsf : List WString
  smartSwitch : EntryMap WString Bool

/-- The lists of a document. -/
def appListsOf [WideCtype] (table : TomlTable) : AppLists where
  excluded := allExcludedAppsOf table
  forcedVn := forcedVnAppsOf table
  tsf := tsfAppsOf table
  smartSwitch := EntryMap.ofEntries (smartSwitchAppsOf table)

/-- The lists that the loaders return. -/
def loadAppLists [WideCtype] {Content : Type*} (format : TomlFormat Content) (disk : Disk Content) :
    AppLists where
  excluded := LoadAllExcludedApps format true disk
  forcedVn := LoadForcedVnApps format true disk
  tsf := LoadTsfApps format true disk
  smartSwitch := EntryMap.ofEntries (LoadSmartSwitchApps format true disk)

/-- One list is replaced. -/
def AppLists.assign (lists : AppLists) : AppListCall → AppLists
  | .SaveExcludedApps apps => { lists with excluded := apps.take kMaxAppListEntries }
  | .SaveForcedVnApps apps => { lists with forcedVn := apps.take kMaxAppListEntries }
  | .SaveTsfApps apps => { lists with tsf := apps.take kMaxAppListEntries }
  | .SaveSmartSwitchApps apps => { lists with smartSwitch := EntryMap.ofEntries apps }

/-- The names are valid; the modes are those of a map, which keeps at most `kMaxAppListEntries` apps under
their names in lower case. -/
def AppListCall.Fits [WideCtype] : AppListCall → Prop
  | .SaveExcludedApps apps | .SaveForcedVnApps apps | .SaveTsfApps apps => ∀ app ∈ apps, ValidWide app
  | .SaveSmartSwitchApps apps =>
    (apps.map (·.1)).Nodup ∧ apps.length ≤ kMaxAppListEntries ∧
      ∀ app ∈ apps, ValidWide app.1 ∧ app.1 ≠ [] ∧ lowerName app.1 = app.1

section Saved

variable {apps before : List WString}

/-- The apps that were saved are pushed while there is room. -/
lemma pushApps_saved (h : ∀ app ∈ apps, ValidWide app) :
    pushApps before (apps.map fun app => .text (WideToUtf8 app)) =
      before ++ apps.take (kMaxAppListEntries - before.length) := by
  induction apps generalizing before with
  | nil => simp [pushApps]
  | cons app apps ih =>
    obtain ⟨happ, happs⟩ := List.forall_mem_cons.1 h
    have htext : TomlRead.text (.text (WideToUtf8 app)) = some (WideToUtf8 app) := rfl
    rw [List.map_cons, pushApps]
    split
    · next hfull => simp [Nat.sub_eq_zero_of_le hfull]
    · next hroom =>
      simp only [htext, happ.utf8ToWide_wideToUtf8]
      rw [ih happs, List.length_append, List.length_singleton, List.append_assoc, List.singleton_append,
        ← List.take_succ_cons, Nat.sub_add_eq, Nat.sub_add_cancel (by omega)]

/-- The items of a list that was saved. -/
lemma listItems_of_get {fields : TomlTable} {key : String}
    (h : fields.get key = some (namesArray apps)) :
    listItems fields key = apps.map fun app => .text (WideToUtf8 app) := by
  rw [listItems, h, Option.bind_some, namesArray, TomlRead.array_array, Option.getD_some]

/-- A list that was saved is loaded up to the limit. -/
lemma pushApps_namesArray {fields : TomlTable} {key : String} (h : ∀ app ∈ apps, ValidWide app)
    (hget : fields.get key = some (namesArray apps)) :
    pushApps [] (listItems fields key) = apps.take kMaxAppListEntries := by
  rw [listItems_of_get hget, pushApps_saved h, List.nil_append, List.length_nil, Nat.sub_zero]

/-- There are no items where there is no list. -/
lemma listItems_of_none {fields : TomlTable} {key : String} (h : fields.get key = none) :
    listItems fields key = [] := by
  rw [listItems, h]
  rfl

end Saved

section SavedModes

variable [WideCtype] {apps before : List (WString × Bool)}

/-- An entry of the saved modes. -/
def loadMode (entry : String × TomlNode) : Option (WString × Bool) :=
  ((TomlRead.text entry.2).bind modeOf?).map fun isVietnamese =>
    (lowerName (Utf8ToWide entry.1), isVietnamese)

/-- Entries of distinct names, and not too many, are added as they are. -/
lemma pushModes_eq {entries : List (String × TomlNode)}
    (hnodup : ((before ++ entries.filterMap loadMode).map (·.1)).Nodup)
    (hlength : (before ++ entries.filterMap loadMode).length ≤ kMaxAppListEntries)
    (hnames : ∀ app ∈ entries.filterMap loadMode, app.1 ≠ []) :
    pushModes before entries = before ++ entries.filterMap loadMode := by
  induction entries generalizing before with
  | nil => simp [pushModes]
  | cons entry entries ih =>
    rw [pushModes]
    cases hmode : (TomlRead.text entry.2).bind modeOf? with
    | none =>
      have hnone : loadMode entry = none := by rw [loadMode, hmode]; rfl
      rw [List.filterMap_cons_none hnone] at hnodup hlength hnames ⊢
      split
      · next hfull =>
        rw [List.length_append] at hlength
        rw [List.eq_nil_of_length_eq_zero (by omega : (entries.filterMap loadMode).length = 0),
          List.append_nil]
      · exact ih hnodup hlength hnames
    | some isVietnamese =>
      have hsome : loadMode entry = some (lowerName (Utf8ToWide entry.1), isVietnamese) := by
        rw [loadMode, hmode]
        rfl
      rw [List.filterMap_cons_some hsome] at hnodup hlength hnames ⊢
      obtain ⟨hname, hnames⟩ := List.forall_mem_cons.1 hnames
      have hnew : lowerName (Utf8ToWide entry.1) ∉ before.map (·.1) := by
        rw [List.map_append, List.nodup_append] at hnodup
        exact fun hmem => hnodup.2.2 _ hmem _ List.mem_cons_self rfl
      have hemplace : emplaceMode before (lowerName (Utf8ToWide entry.1)) isVietnamese =
          before ++ [(lowerName (Utf8ToWide entry.1), isVietnamese)] :=
        if_neg (not_or.2 ⟨hname, hnew⟩)
      rw [List.length_append, List.length_cons] at hlength
      rw [if_neg (by omega)]
      dsimp only
      rw [hemplace, @ih (before ++ [_]), List.append_assoc, List.singleton_append]
      · rwa [List.append_assoc, List.singleton_append]
      · rw [List.append_assoc, List.singleton_append, List.length_append, List.length_cons]
        exact hlength
      · exact hnames

/-- The mode of an app that was saved. -/
lemma loadMode_saved {app : WString × Bool} (hvalid : ValidWide app.1)
    (hlower : lowerName app.1 = app.1) :
    loadMode (WideToUtf8 app.1, .text (if app.2 then "vietnamese" else "english")) = some app := by
  obtain ⟨exe, mode⟩ := app
  rw [loadMode, hvalid.utf8ToWide_wideToUtf8, hlower]
  cases mode <;> rfl

/-- What is loaded of the modes that were saved. -/
lemma smartSwitchAppsOf_saved {table smart : TomlTable}
    (hsmart : section? table "smart_switch" = some smart)
    (happs : section? smart "apps" = some (modesTable apps))
    (hfits : (AppListCall.SaveSmartSwitchApps apps).Fits) :
    EntryMap.ofEntries (smartSwitchAppsOf table) = EntryMap.ofEntries apps := by
  obtain ⟨hnodup, hlength, hvalid⟩ := hfits
  have hperm : (modesTable apps).entries.Perm (apps.map fun app =>
      (WideToUtf8 app.1, .text (if app.2 then "vietnamese" else "english"))) := by
    apply entries_tableOf_perm
    rw [List.map_map]
    exact wideToUtf8_nodup hnodup fun app happ => (hvalid app happ).1
  have hloaded : ((modesTable apps).entries.filterMap loadMode).Perm apps := by
    refine (hperm.filterMap loadMode).trans (.of_eq ?_)
    rw [List.filterMap_map]
    have hsome := List.filterMap_congr (g := some) fun app happ =>
      loadMode_saved (hvalid app happ).1 (hvalid app happ).2.2
    exact hsome.trans List.filterMap_some
  have hkeys : (((modesTable apps).entries.filterMap loadMode).map (·.1)).Nodup :=
    (hloaded.map _).nodup_iff.2 hnodup
  have hpush : smartSwitchAppsOf table = (modesTable apps).entries.filterMap loadMode := by
    unfold smartSwitchAppsOf
    rw [hsmart]
    dsimp only
    rw [happs]
    refine @pushModes_eq _ [] _ hkeys (hloaded.length_eq.trans_le hlength) fun app happ => ?_
    exact (hvalid app (hloaded.mem_iff.1 happ)).2.1
  rw [hpush]
  exact EntryMap.ofEntries_perm hloaded hkeys

end SavedModes

section Assign

variable {tbl fields : TomlTable} {name : String}

/-- The section that was assigned. -/
lemma section?_insertOrAssign : section? (tbl.insertOrAssign name (.table fields)) name = some fields := by
  rw [section?, TomlTable.get_insertOrAssign, Option.bind_some, TomlNode.asTable_table]

/-- The other sections. -/
lemma section?_insertOrAssign_of_ne {other : String} {node : TomlNode} (h : other ≠ name) : section?
    (tbl.insertOrAssign name node) other = section? tbl other := by
  rw [section?, TomlTable.get_insertOrAssign_of_ne h, ← section?]

/-- The one field of a table. -/
lemma get_tableOf_single {node : TomlNode} : (tableOf [(name, node)]).get name = some node := by
  simp [get_tableOf]

/-- A table of one field has no other. -/
lemma get_tableOf_single_of_ne {other : String} {node : TomlNode} (h : other ≠ name) :
    (tableOf [(name, node)]).get other = none := by
  simp [get_tableOf, List.lookup_cons, beq_false_of_ne h]

/-- The excluded apps, from their section. -/
lemma allExcludedAppsOf_of_section (h : section? tbl "excluded_apps" = some fields) :
    allExcludedAppsOf tbl =
      mergeApps (pushApps [] (listItems fields "list")) (listItems fields "soft") := by
  simp only [allExcludedAppsOf, h]

/-- The forced apps, from the same section. -/
lemma forcedVnAppsOf_of_section (h : section? tbl "excluded_apps" = some fields) :
    forcedVnAppsOf tbl = pushApps [] (listItems fields "force_vn") := by
  simp only [forcedVnAppsOf, h]

/-- The TSF apps, from their section. -/
lemma tsfAppsOf_of_section (h : section? tbl "tsf_apps" = some fields) :
    tsfAppsOf tbl = pushApps [] (listItems fields "list") := by
  simp only [tsfAppsOf, h]

/-- A saver of another section. -/
lemma excludedApps_congr {tbl' : TomlTable}
    (h : section? tbl' "excluded_apps" = section? tbl "excluded_apps") :
    allExcludedAppsOf tbl' = allExcludedAppsOf tbl ∧ forcedVnAppsOf tbl' = forcedVnAppsOf tbl := by
  simp only [allExcludedAppsOf, forcedVnAppsOf, h, and_self]

/-- The TSF apps depend on their section alone. -/
lemma tsfAppsOf_congr {tbl' : TomlTable} (h : section? tbl' "tsf_apps" = section? tbl "tsf_apps") :
    tsfAppsOf tbl' = tsfAppsOf tbl := by
  simp only [tsfAppsOf, h]

variable [WideCtype]

/-- So do the modes. -/
lemma smartSwitchAppsOf_congr {tbl' : TomlTable}
    (h : section? tbl' "smart_switch" = section? tbl "smart_switch") :
    smartSwitchAppsOf tbl' = smartSwitchAppsOf tbl := by
  simp only [smartSwitchAppsOf, h]

/-- The saved list of excluded apps; the former array `soft` is gone. -/
lemma appListsOf_SaveExcludedApps {apps : List WString} (h : ∀ app ∈ apps, ValidWide app) :
    appListsOf ((AppListCall.SaveExcludedApps apps).merge tbl) =
      { appListsOf tbl with excluded := apps.take kMaxAppListEntries } := by
  have hloaded : ∀ {fields' : TomlTable}, fields'.get "list" = some (namesArray apps) →
      fields'.get "soft" = none →
      mergeApps (pushApps [] (listItems fields' "list")) (listItems fields' "soft") =
        apps.take kMaxAppListEntries := by
    intro fields' hlist hsoft
    rw [pushApps_namesArray h hlist, listItems_of_none hsoft, mergeApps]
  simp only [AppListCall.merge]
  cases hsection : section? tbl "excluded_apps" with
  | some fields =>
    refine AppLists.ext ?_ ?_ ?_ ?_
    · refine (allExcludedAppsOf_of_section section?_insertOrAssign).trans (hloaded ?_ ?_)
      · rw [TomlTable.get_erase_of_ne (by decide), TomlTable.get_insertOrAssign]
      · exact TomlTable.get_erase
    · refine (forcedVnAppsOf_of_section section?_insertOrAssign).trans ?_
      refine Eq.trans ?_ (forcedVnAppsOf_of_section hsection).symm
      rw [listItems, TomlTable.get_erase_of_ne (by decide), TomlTable.get_insertOrAssign_of_ne (by decide),
        ← listItems]
    · exact tsfAppsOf_congr (section?_insertOrAssign_of_ne (by decide))
    · exact congrArg EntryMap.ofEntries (smartSwitchAppsOf_congr (section?_insertOrAssign_of_ne (by decide)))
  | none =>
    refine AppLists.ext ?_ ?_ ?_ ?_
    · refine (allExcludedAppsOf_of_section section?_insertOrAssign).trans (hloaded ?_ ?_)
      · exact get_tableOf_single
      · exact get_tableOf_single_of_ne (by decide)
    · refine (forcedVnAppsOf_of_section section?_insertOrAssign).trans ?_
      rw [listItems_of_none (get_tableOf_single_of_ne (by decide))]
      simp only [appListsOf, forcedVnAppsOf, hsection, pushApps]
    · exact tsfAppsOf_congr (section?_insertOrAssign_of_ne (by decide))
    · exact congrArg EntryMap.ofEntries (smartSwitchAppsOf_congr (section?_insertOrAssign_of_ne (by decide)))

/-- A save of the forced apps. -/
lemma appListsOf_SaveForcedVnApps {apps : List WString} (h : ∀ app ∈ apps, ValidWide app) :
    appListsOf ((AppListCall.SaveForcedVnApps apps).merge tbl) =
      { appListsOf tbl with forcedVn := apps.take kMaxAppListEntries } := by
  simp only [AppListCall.merge]
  cases hsection : section? tbl "excluded_apps" with
  | some fields =>
    refine AppLists.ext ?_ ?_ ?_ ?_
    · refine (allExcludedAppsOf_of_section section?_insertOrAssign).trans ?_
      refine Eq.trans ?_ (allExcludedAppsOf_of_section hsection).symm
      rw [listItems, listItems, TomlTable.get_insertOrAssign_of_ne (by decide),
        TomlTable.get_insertOrAssign_of_ne (by decide), ← listItems, ← listItems]
    · refine (forcedVnAppsOf_of_section section?_insertOrAssign).trans ?_
      exact pushApps_namesArray h TomlTable.get_insertOrAssign
    · exact tsfAppsOf_congr (section?_insertOrAssign_of_ne (by decide))
    · exact congrArg EntryMap.ofEntries (smartSwitchAppsOf_congr (section?_insertOrAssign_of_ne (by decide)))
  | none =>
    refine AppLists.ext ?_ ?_ ?_ ?_
    · refine (allExcludedAppsOf_of_section section?_insertOrAssign).trans ?_
      rw [listItems_of_none (get_tableOf_single_of_ne (by decide)),
        listItems_of_none (get_tableOf_single_of_ne (by decide))]
      simp only [appListsOf, allExcludedAppsOf, hsection, pushApps, mergeApps]
    · refine (forcedVnAppsOf_of_section section?_insertOrAssign).trans ?_
      exact pushApps_namesArray h get_tableOf_single
    · exact tsfAppsOf_congr (section?_insertOrAssign_of_ne (by decide))
    · exact congrArg EntryMap.ofEntries (smartSwitchAppsOf_congr (section?_insertOrAssign_of_ne (by decide)))

/-- A save replaces its list in the document and leaves the others. -/
lemma appListsOf_merge {call : AppListCall} (hfits : call.Fits) :
    appListsOf (call.merge tbl) = (appListsOf tbl).assign call := by
  cases call with
  | SaveExcludedApps apps => exact appListsOf_SaveExcludedApps hfits
  | SaveForcedVnApps apps => exact appListsOf_SaveForcedVnApps hfits
  | SaveTsfApps apps =>
    have hother := @excludedApps_congr tbl ((AppListCall.SaveTsfApps apps).merge tbl)
      (section?_insertOrAssign_of_ne (by decide))
    refine AppLists.ext hother.1 hother.2 ?_ ?_
    · refine (tsfAppsOf_of_section section?_insertOrAssign).trans ?_
      exact pushApps_namesArray hfits get_tableOf_single
    · exact congrArg EntryMap.ofEntries (smartSwitchAppsOf_congr (section?_insertOrAssign_of_ne (by decide)))
  | SaveSmartSwitchApps apps =>
    have hother := @excludedApps_congr tbl ((AppListCall.SaveSmartSwitchApps apps).merge tbl)
      (section?_insertOrAssign_of_ne (by decide))
    refine AppLists.ext hother.1 hother.2 (tsfAppsOf_congr (section?_insertOrAssign_of_ne (by decide))) ?_
    refine smartSwitchAppsOf_saved section?_insertOrAssign ?_ hfits
    rw [section?, get_tableOf_single, Option.bind_some, TomlNode.asTable_table]

end Assign

section Runs

variable [WideCtype] {Content : Type*} {format : TomlFormat Content} {disk : Disk Content}

/-- A save of a file that can be read, with how its write ends. -/
def saveList (format : TomlFormat Content) (disk : Disk Content)
    (saved : AppListCall × WriteOutcome Content) : Disk Content :=
  (saved.1.save format ⟨true, saved.2⟩ disk).1

/-- What a save does to the lists: nothing unless the file is replaced. -/
def AppLists.save (lists : AppLists) (saved : AppListCall × WriteOutcome Content) : AppLists :=
  match saved.2 with
  | .renamed => lists.assign saved.1
  | _ => lists

/-- The loaders read the lists of the document. -/
lemma loadAppLists_eq : loadAppLists format disk = appListsOf (LoadExistingToml format true disk) := by
  have hlist : ∀ {α : Type} (of : TomlTable → List α), of .empty = [] →
      loadList format true disk of = of (LoadExistingToml format true disk) := by
    intro α of hempty
    unfold loadList LoadExistingToml
    cases disk.config with
    | none => exact hempty.symm
    | some content =>
      simp only [if_true]
      cases format.parse content with
      | none => exact hempty.symm
      | some table => rfl
  refine AppLists.ext (hlist _ rfl) (hlist _ rfl) (hlist _ rfl) ?_
  exact congrArg EntryMap.ofEntries (hlist smartSwitchAppsOf rfl)

/-- What one save does to what is loaded. -/
lemma loadAppLists_save {saved : AppListCall × WriteOutcome Content} (hfits : saved.1.Fits) :
    loadAppLists format (saveList format disk saved) = (loadAppLists format disk).save saved := by
  obtain ⟨call, outcome⟩ := saved
  have hsame : (saveList format disk (call, outcome)).config = disk.config →
      loadAppLists format (saveList format disk (call, outcome)) = loadAppLists format disk := by
    intro hconfig
    simp only [loadAppLists, LoadAllExcludedApps, LoadForcedVnApps, LoadTsfApps, LoadSmartSwitchApps,
      loadList, hconfig]
  cases outcome with
  | threw => exact hsame rfl
  | notOpened => exact hsame rfl
  | writeFailed written => exact hsame rfl
  | renameFailed => exact hsame rfl
  | renamed =>
    have hload : LoadExistingToml format true (saveList format disk (call, .renamed)) =
        call.merge (LoadExistingToml format true disk) := by
      simp only [saveList, AppListCall.save, WriteToml, LoadExistingToml, if_true, format.parse_print,
        Option.getD_some]
    rw [loadAppLists_eq, hload, appListsOf_merge hfits, ← loadAppLists_eq]
    rfl

end Runs

/-- After any saves of the lists of apps, in any order and with any of them failing, each list is loaded
as its last save that did not fail had it, or else as it was before. -/
theorem appLists_run [WideCtype] {Content : Type*} {format : TomlFormat Content} {disk : Disk Content}
    {saves : List (AppListCall × WriteOutcome Content)} (hfits : ∀ saved ∈ saves, saved.1.Fits) :
    loadAppLists format (Machine.run (saveList format) disk saves) =
      Machine.run AppLists.save (loadAppLists format disk) saves := by
  induction saves generalizing disk with
  | nil => rfl
  | cons saved saves ih =>
    obtain ⟨hsaved, hsaves⟩ := List.forall_mem_cons.1 hfits
    rw [Machine.run_cons, Machine.run_cons, ih hsaves, loadAppLists_save hsaved]

section Examples

attribute [local instance] WideCtype.ascii

/-- Three saves, the second of which fails. -/
def threeSaves : List (AppListCall × WriteOutcome TomlTable) :=
  [(.SaveSmartSwitchApps [([97], true)], .renamed), (.SaveTsfApps [[98]], .renameFailed),
    (.SaveForcedVnApps [[99]], .renamed)]

/-- The three lists after the three saves. -/
theorem appLists_run_three :
    loadAppLists plainFormat (Machine.run (saveList plainFormat) {} threeSaves) =
      ⟨[], [[99]], [], EntryMap.ofEntries [([97], true)]⟩ := by
  have ha : ValidWide [97] := ⟨['a'], by decide, by decide⟩
  have hb : ValidWide [98] := ⟨['b'], by decide, by decide⟩
  have hc : ValidWide [99] := ⟨['c'], by decide, by decide⟩
  refine appLists_run fun saved hsaved => ?_
  simp only [threeSaves, List.mem_cons, List.not_mem_nil, or_false] at hsaved
  obtain rfl | rfl | rfl := hsaved
  · refine ⟨by decide, by decide, fun app happ => ?_⟩
    obtain rfl := List.mem_singleton.1 happ
    exact ⟨ha, nofun, by decide⟩
  · exact List.forall_mem_singleton.2 hb
  · exact List.forall_mem_singleton.2 hc

end Examples

end NextKey
