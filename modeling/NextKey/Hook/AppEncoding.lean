import NextKey.Hook.LiveConfig

/-!
# Encodings of single apps

The code table of the app with the focus is its encoding override in the published `ConfigSnapshot`,
or the global one. A focus and `ReloadFromToml` follow this, but `QuickSyncFromSharedState` stores
the shared code table whatever the app, and when macros are switched it publishes a new snapshot and
leaves the code table.

The code table is the one of the app just when no such call meets an override that says otherwise
(`appEncoding_iff`).
-/

namespace NextKey

/-- What only the TOML has of `TypingConfig`. -/
structure TomlOnly where
  tsfApps : Bool
  deriving DecidableEq, Repr

/-- What the functions read of the TOML. -/
structure AppToml where
  config : SyncedConfig TomlOnly
  appEncodingOverrides : List (String × BitVec 8) := []
  appInputMethodOverrides : List (String × BitVec 8) := []
  excludedApps : List String := []
  tsfApps : List String := []
  macros : List (String × String) := []
  deriving DecidableEq, Repr

/-- What the functions read of the published `ConfigSnapshot`. -/
structure AppSnapshot where
  macroTable : List (String × String) := []
  excludedAppSet : List String := []
  tsfAppSet : List String := []
  appEncodingOverrides : List (String × BitVec 8) := []
  appInputMethodOverrides : List (String × BitVec 8) := []
  deriving DecidableEq, Repr

/-- C++ `ConfigSnapshotBuilder::BuildFromToml` -/
def BuildFromToml (toml : AppToml) (excludeAppsEnabled tsfAppsEnabled macroEnabled : Bool) :
    AppSnapshot where
  macroTable := if macroEnabled then toml.macros else []
  excludedAppSet := if excludeAppsEnabled then toml.excludedApps else []
  tsfAppSet := if tsfAppsEnabled then toml.tsfApps else []
  appEncodingOverrides := toml.appEncodingOverrides
  appInputMethodOverrides := toml.appInputMethodOverrides

/-- The shared state, the TOML and the engine with its snapshot. -/
structure AppEngine where
  shared : SharedState
  toml : AppToml
  engine : SyncEngine TomlOnly
  snap : AppSnapshot
  activeExe : String := ""
  isExcludedApp : Bool := false

namespace AppEngine

/-- What `Read` returns, if it is valid. -/
def read (s : AppEngine) : Option SharedState := if s.shared.IsValid then some s.shared else none

/-- C++ `RebuildSnapshotFromToml` -/
def RebuildSnapshotFromToml (s : AppEngine) : AppEngine :=
  let cfg := s.engine.config
  { s with
    isExcludedApp := cfg.features.excludeApps && s.isExcludedApp
    snap := BuildFromToml s.toml cfg.features.excludeApps cfg.rest.tsfApps cfg.features.macroEnabled }

/-- A config is published and the snapshot is rebuilt with it. -/
def republish (s : AppEngine) (cfg : SyncedConfig TomlOnly) : AppEngine :=
  RebuildSnapshotFromToml { s with engine := { s.engine with config := cfg } }

/-- Whether the app with the focus is excluded, once the snapshot has been rebuilt. -/
def newExcluded (s : AppEngine) : Bool :=
  if s.engine.config.features.excludeApps && s.activeExe ≠ "" then
    s.snap.excludedAppSet.contains s.activeExe
  else s.isExcludedApp

/-- Whether the app with the focus is a TSF app, once the snapshot has been rebuilt. -/
def newTsfApp (s : AppEngine) : Bool :=
  s.engine.config.rest.tsfApps && !s.newExcluded && s.activeExe ≠ "" &&
    s.snap.tsfAppSet.contains s.activeExe

/-- The encoding a reload sets for the app with the focus, once the snapshot has been rebuilt. -/
def newEncoding (s : AppEngine) : AppEncoding :=
  if s.activeExe ≠ "" ∧ s.newExcluded = false ∧ s.newTsfApp = false then
    match s.snap.appEncodingOverrides.lookup s.activeExe with
    | some codeTable => .override codeTable
    | none => .global
  else .skipped

/-- The state of a reload after it has published the config and the snapshot. -/
def reloaded (s : AppEngine) : AppEngine := s.republish (overrideConfig s.toml.config s.read)

/-- What a call or a reload reads. -/
def env (s : AppEngine) : SyncEnv TomlOnly where
  epoch := s.shared .epoch
  state := s.read
  toml := { config := s.toml.config, appEncoding := s.reloaded.newEncoding }

/-- C++ `ReloadFromToml` -/
def ReloadFromToml (s : AppEngine) : AppEngine :=
  { s.reloaded with
    engine := s.engine.ReloadFromToml s.env
    isExcludedApp := s.reloaded.newExcluded }

/-- The TOML is reloaded when its generation has changed. -/
def reloadIfNew (s : AppEngine) (state : SharedState) : AppEngine :=
  if state .configGeneration = s.engine.lastConfigGeneration then s
  else ReloadFromToml
    { s with engine := { s.engine with lastConfigGeneration := state .configGeneration } }

/-- The snapshot is rebuilt when macros have been switched. -/
def syncMacros (s : AppEngine) : AppEngine :=
  if s.engine.config.features.macroEnabled ≠ !s.snap.macroTable.isEmpty then
    s.RebuildSnapshotFromToml
  else s

/-- C++ `QuickSyncFromSharedState` on the worker thread -/
def QuickSyncFromSharedState (s : AppEngine) : AppEngine :=
  if s.engine.upToDate s.env.epoch then s
  else match s.read with
    | none => s
    | some state =>
      let s := reloadIfNew { s with engine := s.engine.claim state } state
      if s.engine.Seen state then s
      else syncMacros { s with engine := s.engine.applyState state }

/-- C++ `FocusOwner::Classify`: whether the app is excluded -/
def isExcluded (s : AppEngine) (exeName : String) : Bool :=
  s.engine.config.features.excludeApps && s.snap.excludedAppSet.contains exeName

/-- C++ `FocusOwner::Classify`: whether the app is a TSF app -/
def isTsf (s : AppEngine) (exeName : String) : Bool :=
  !s.isExcluded exeName && s.engine.config.rest.tsfApps && s.snap.tsfAppSet.contains exeName

/-- C++ `FocusOwner::Classify`: the code table of the app -/
def targetCodeTable (s : AppEngine) (exeName : String) : BitVec 8 :=
  if s.isExcluded exeName || s.isTsf exeName then s.engine.globalCodeTable
  else (s.snap.appEncodingOverrides.lookup exeName).getD s.engine.globalCodeTable

/-- A real app gets the focus (the encoding part of `ApplyFocusOnHookThread`). -/
def ApplyFocusOnHookThread (s : AppEngine) (exeName : String) (pid currentProcessId : BitVec 32) :
    AppEngine :=
  let s' :=
    { s with activeExe :=
        if exeName ≠ "" ∧ pid ≠ 0 ∧ pid ≠ currentProcessId then exeName else s.activeExe }
  let cfg := s.engine.config
  let noOverrides := s.snap.appEncodingOverrides.isEmpty && s.snap.appInputMethodOverrides.isEmpty
  if !cfg.features.smartSwitch && !cfg.features.excludeApps && !cfg.rest.tsfApps && noOverrides then s'
  else if exeName = "" then s'
  else
    let s' := { s' with isExcludedApp := s.isExcluded exeName }
    if s.isExcluded exeName || s.isTsf exeName then s'
    else { s' with engine := { s.engine with currentCodeTable := s.targetCodeTable exeName } }

/-- The encoding override of the app with the focus. -/
def override (s : AppEngine) : Option (BitVec 8) :=
  if s.activeExe = "" then none else s.snap.appEncodingOverrides.lookup s.activeExe

/-- The code table is the one of the app with the focus. -/
def Encoded (s : AppEngine) : Prop :=
  s.engine.currentCodeTable = s.override.getD s.engine.globalCodeTable

instance {s : AppEngine} : Decidable s.Encoded := inferInstanceAs (Decidable (_ = _))

/-- The encoding override the TOML has for the app with the focus. -/
def tomlOverride (s : AppEngine) : Option (BitVec 8) :=
  if s.activeExe = "" then none else s.toml.appEncodingOverrides.lookup s.activeExe

/-- The snapshot a call is going to claim, if a field has changed. -/
def settingsChange (s : AppEngine) : Option SharedState :=
  if s.engine.upToDate (s.shared .epoch) then none
  else match s.read with
    | some state => if s.engine.Seen state then none else some state
    | none => none

/-- A call reloads the TOML for a snapshot. -/
def reloads (s : AppEngine) (state : SharedState) : Prop :=
  state .configGeneration ≠ s.engine.lastConfigGeneration

/-- The macros of the published snapshot are not switched as a snapshot of the shared state says. -/
def switchesMacros (s : AppEngine) (state : SharedState) : Prop :=
  state.synced.features.macroEnabled ≠ !s.snap.macroTable.isEmpty

instance {s : AppEngine} {state} : Decidable (s.reloads state) := inferInstanceAs (Decidable (_ ≠ _))

instance {s : AppEngine} {state} : Decidable (s.switchesMacros state) :=
  inferInstanceAs (Decidable (_ ≠ _))

/-- The override for the app with the focus, after a call for a snapshot with a field that has
changed. -/
def overrideAfter (s : AppEngine) (state : SharedState) : Option (BitVec 8) :=
  if s.reloads state ∨ s.switchesMacros state then s.tomlOverride else s.override

end AppEngine

/-- The shared state or the TOML is written, a real app gets the focus, or the worker thread calls
    `QuickSyncFromSharedState` or runs a deferred `ReloadFromToml`. -/
inductive AppEvent where
  | publish (state : SharedState)
  | saveToml (toml : AppToml)
  | focus (exeName : String) (pid : BitVec 32)
  | QuickSync
  | Reload

/-- One event. -/
def AppEngine.step (currentProcessId : BitVec 32) (s : AppEngine) : AppEvent → AppEngine
  | .publish state => { s with shared := Function.update state .epoch (s.shared .epoch + 2) }
  | .saveToml toml => { s with toml := toml }
  | .focus exeName pid => s.ApplyFocusOnHookThread exeName pid currentProcessId
  | .QuickSync => s.QuickSyncFromSharedState
  | .Reload => match s.read with
    | some state => AppEngine.ReloadFromToml
      { s with engine := { s.engine with lastConfigGeneration := state .configGeneration } }
    | none => s

/-- The apps that get the focus are real ones, neither excluded nor TSF, and no reload makes them so. -/
def RealApps (currentProcessId : BitVec 32) (s : AppEngine) : AppEvent → Prop
  | .focus exeName pid =>
    exeName ≠ "" ∧ pid ≠ 0 ∧ pid ≠ currentProcessId ∧ s.isExcluded exeName = false ∧
      s.isTsf exeName = false
  | .QuickSync | .Reload =>
    s.activeExe ≠ "" → s.reloaded.newExcluded = false ∧ s.reloaded.newTsfApp = false
  | .publish _ | .saveToml _ => True

/-- A call that finds a field changed leaves no override for the app with the focus but the new code
table, and drops no override that was the new code table already when the global one is not. -/
def SettingsFit (s : AppEngine) : AppEvent → Prop
  | .QuickSync => ∀ state ∈ s.settingsChange,
    (∀ codeTable ∈ s.overrideAfter state, codeTable = state .codeTable) ∧
      (s.overrideAfter state = none → ¬s.reloads state → s.override = some (state .codeTable) →
        s.engine.globalCodeTable = state .codeTable)
  | _ => True

instance {currentProcessId s} : ∀ e, Decidable (RealApps currentProcessId s e)
  | .focus _ _ => inferInstanceAs (Decidable (_ ∧ _ ∧ _ ∧ _ ∧ _))
  | .QuickSync | .Reload => inferInstanceAs (Decidable (_ → _ ∧ _))
  | .publish _ | .saveToml _ => inferInstanceAs (Decidable True)

instance {s} : ∀ e, Decidable (SettingsFit s e)
  | .QuickSync => inferInstanceAs (Decidable (∀ state ∈ s.settingsChange,
    (∀ codeTable ∈ s.overrideAfter state, codeTable = state .codeTable) ∧
      (s.overrideAfter state = none → ¬s.reloads state → s.override = some (state .codeTable) →
        s.engine.globalCodeTable = state .codeTable)))
  | .publish _ | .saveToml _ | .focus _ _ | .Reload => inferInstanceAs (Decidable True)

namespace AppEngine

variable {s : AppEngine} {state : SharedState}

/-- The config follows the shared state as without overrides. -/
lemma QuickSyncFromSharedState_engine :
    s.QuickSyncFromSharedState.engine = s.engine.QuickSyncFromSharedState s.env := by
  have henv : s.env.state = s.read := rfl
  simp only [QuickSyncFromSharedState, SyncEngine.QuickSyncFromSharedState, henv]
  split
  · rfl
  cases s.read with
  | none => rfl
  | some state =>
    dsimp only
    have hreload : (reloadIfNew { s with engine := s.engine.claim state } state).engine =
        SyncEngine.reloadIfNew s.env state (s.engine.claim state) := by
      simp only [reloadIfNew, SyncEngine.reloadIfNew]
      split <;> rfl
    have hsync : ∀ t : AppEngine, t.syncMacros.engine = t.engine := by
      intro t
      simp only [syncMacros]
      split <;> rfl
    rw [hreload]
    split
    · exact hreload
    · rw [hsync]

/-- A reload sets the code table of the app with the focus. -/
lemma ReloadFromToml_encoded
    (hreal : s.activeExe ≠ "" → s.reloaded.newExcluded = false ∧ s.reloaded.newTsfApp = false) :
    s.ReloadFromToml.Encoded := by
  have hencoding : s.env.toml.appEncoding = s.reloaded.newEncoding := rfl
  have hoverride : s.ReloadFromToml.override = s.tomlOverride := rfl
  rw [Encoded, hoverride]
  simp only [ReloadFromToml, SyncEngine.ReloadFromToml, hencoding, tomlOverride]
  by_cases hexe : s.activeExe = ""
  · have hskipped : s.reloaded.newEncoding = .skipped := if_neg fun h => h.1 hexe
    rw [hskipped, if_pos hexe]
    rfl
  · obtain ⟨hexcluded, htsf⟩ := hreal hexe
    have hlookup : s.reloaded.newEncoding =
        match s.toml.appEncodingOverrides.lookup s.activeExe with
        | some codeTable => .override codeTable
        | none => .global := if_pos ⟨hexe, hexcluded, htsf⟩
    rw [hlookup, if_neg hexe]
    cases s.toml.appEncodingOverrides.lookup s.activeExe <;> rfl

/-- A focus sets the code table of the app. -/
lemma ApplyFocusOnHookThread_encoded {exeName pid currentProcessId} (h : s.Encoded)
    (hreal : RealApps currentProcessId s (.focus exeName pid)) :
    (s.ApplyFocusOnHookThread exeName pid currentProcessId).Encoded := by
  obtain ⟨hexe, hpid, hown, hexcluded, htsf⟩ := hreal
  have hactive : (if exeName ≠ "" ∧ pid ≠ 0 ∧ pid ≠ currentProcessId then exeName else s.activeExe) =
    exeName := if_pos ⟨hexe, hpid, hown⟩
  simp only [ApplyFocusOnHookThread, hactive, hexcluded, htsf, Bool.or_self, Bool.false_eq_true,
    if_false, if_neg hexe]
  split
  · next hshort =>
    -- nothing is tracked, and no app has an override
    have hnone : s.snap.appEncodingOverrides = [] := by
      simp only [Bool.and_eq_true, List.isEmpty_iff] at hshort
      exact hshort.2.1
    have hoverride : s.override = none := by
      rw [override, hnone]
      split <;> rfl
    rw [Encoded, hoverride] at h
    rw [Encoded, override, hnone, if_neg hexe]
    exact h
  · rw [Encoded, override, if_neg hexe, targetCodeTable, hexcluded, htsf]
    rfl

/-- A claim and a reload leave the fields last seen. -/
lemma reloadIfNew_seen :
    (reloadIfNew { s with engine := s.engine.claim state } state).engine.Seen state ↔
      s.engine.Seen state := by
  simp only [reloadIfNew]
  split
  · exact Iff.rfl
  · exact Iff.rfl

/-- A call without a change of the settings reloads at most. -/
lemma QuickSyncFromSharedState_unchanged (h : s.Encoded) (hchange : s.settingsChange = none)
    (hreal : s.activeExe ≠ "" → s.reloaded.newExcluded = false ∧ s.reloaded.newTsfApp = false) :
    s.QuickSyncFromSharedState.Encoded := by
  simp only [settingsChange] at hchange
  have henv : s.env.epoch = s.shared .epoch := rfl
  simp only [QuickSyncFromSharedState, henv]
  split at hchange
  · next hknown => rwa [if_pos hknown]
  next hnew =>
  rw [if_neg hnew]
  split at hchange
  · next state hread =>
    split at hchange
    · next hseen =>
      rw [hread]
      dsimp only
      rw [if_pos (reloadIfNew_seen.2 hseen)]
      simp only [reloadIfNew]
      split
      · exact h
      · exact ReloadFromToml_encoded hreal
    · cases hchange
  · next hread => rwa [hread]

/-- A call with a change of the settings. -/
lemma QuickSyncFromSharedState_changed (hchange : s.settingsChange = some state) :
    s.QuickSyncFromSharedState =
      syncMacros { reloadIfNew { s with engine := s.engine.claim state } state with
        engine := (reloadIfNew { s with engine := s.engine.claim state } state).engine.applyState
          state } := by
  simp only [settingsChange] at hchange
  have henv : s.env.epoch = s.shared .epoch := rfl
  simp only [QuickSyncFromSharedState, henv]
  split at hchange
  · cases hchange
  next hnew =>
  rw [if_neg hnew]
  split at hchange
  · next state' hread =>
    split at hchange
    · cases hchange
    · next hseen =>
      cases hchange
      rw [hread]
      dsimp only
      rw [if_neg (mt reloadIfNew_seen.1 hseen)]
  · cases hchange

/-- A code table is the override or else the global one. -/
lemma eq_getD_iff {codeTable globalTable : BitVec 8} {o : Option (BitVec 8)} :
    codeTable = o.getD globalTable ↔ (∀ c ∈ o, c = codeTable) ∧
      (o = none → globalTable = codeTable) := by
  cases o with
  | none => exact ⟨fun h => ⟨nofun, fun _ => h.symm⟩, fun h => (h.2 rfl).symm⟩
  | some c =>
    constructor
    · intro h
      refine ⟨fun c' hc' => ?_, nofun⟩
      cases hc'
      exact h.symm
    · intro h
      exact (h.1 c rfl).symm

/-- The global code table is the new one, unless the current one was the new one already. -/
lemma globalAfter_iff {currentTable globalTable codeTable : BitVec 8} :
    (if currentTable != codeTable then codeTable else globalTable) = codeTable ↔
      (currentTable = codeTable → globalTable = codeTable) := by
  by_cases h : currentTable = codeTable
  · simp [h]
  · simp [h]

/-- The config follows a snapshot and the macros are switched. -/
lemma syncMacros_encoded_iff {t : AppEngine} :
    (syncMacros { t with engine := t.engine.applyState state }).Encoded ↔
      (∀ codeTable ∈ if t.switchesMacros state then t.tomlOverride else t.override,
        codeTable = state .codeTable) ∧
      ((if t.switchesMacros state then t.tomlOverride else t.override) = none →
        t.engine.currentCodeTable = state .codeTable →
          t.engine.globalCodeTable = state .codeTable) := by
  rw [← @globalAfter_iff t.engine.currentCodeTable, ← eq_getD_iff]
  by_cases hmacros : t.switchesMacros state
  · have hsync : syncMacros { t with engine := t.engine.applyState state } =
      RebuildSnapshotFromToml { t with engine := t.engine.applyState state } := if_pos hmacros
    rw [hsync, if_pos hmacros]
    exact Iff.rfl
  · have hsync : syncMacros { t with engine := t.engine.applyState state } =
      { t with engine := t.engine.applyState state } := if_neg hmacros
    rw [hsync, if_neg hmacros]
    exact Iff.rfl

/-- A change of the settings keeps the code table of the app with the focus just when it fits the
override. -/
lemma changed_encoded_iff (h : s.Encoded) (hchange : s.settingsChange = some state)
    (hreal : s.activeExe ≠ "" → s.reloaded.newExcluded = false ∧ s.reloaded.newTsfApp = false) :
    s.QuickSyncFromSharedState.Encoded ↔
      (∀ codeTable ∈ s.overrideAfter state, codeTable = state .codeTable) ∧
        (s.overrideAfter state = none → ¬s.reloads state → s.override = some (state .codeTable) →
          s.engine.globalCodeTable = state .codeTable) := by
  rw [QuickSyncFromSharedState_changed hchange, syncMacros_encoded_iff]
  by_cases hreloads : s.reloads state
  · -- the reload has published the overrides of the TOML
    have hreload : reloadIfNew { s with engine := s.engine.claim state } state = _ := if_neg hreloads
    have hencoded : (reloadIfNew { s with engine := s.engine.claim state } state).Encoded := by
      rw [hreload]
      exact ReloadFromToml_encoded hreal
    have hafter : s.overrideAfter state = s.tomlOverride := if_pos (.inl hreloads)
    have hoverrides : (reloadIfNew { s with engine := s.engine.claim state } state).override =
        s.tomlOverride ∧
      (reloadIfNew { s with engine := s.engine.claim state } state).tomlOverride = s.tomlOverride := by
      rw [hreload]
      exact ⟨rfl, rfl⟩
    generalize reloadIfNew { s with engine := s.engine.claim state } state = t at hencoded hoverrides
    rw [hoverrides.1, hoverrides.2, ite_self, hafter]
    rw [Encoded, hoverrides.1] at hencoded
    refine and_congr_right fun _ => ⟨fun _ _ hnot => absurd hreloads hnot, fun _ hnone hcurrent => ?_⟩
    rw [hnone] at hencoded
    exact hencoded.symm.trans hcurrent
  · have hkept : reloadIfNew { s with engine := s.engine.claim state } state =
      { s with engine := s.engine.claim state } := if_pos (not_not.1 hreloads)
    rw [hkept]
    have hafter : s.overrideAfter state =
        if s.switchesMacros state then s.tomlOverride else s.override := by
      simp only [overrideAfter, hreloads, false_or]
    rw [hafter]
    refine and_congr Iff.rfl (forall_congr' fun hnone => ?_)
    have hcurrent : s.engine.currentCodeTable = s.override.getD s.engine.globalCodeTable := h
    show (s.engine.currentCodeTable = _ → _) ↔ (¬_ → s.override = _ → _)
    rw [hcurrent]
    cases s.override with
    | none => exact ⟨fun _ _ => nofun, fun _ hglobal => hglobal⟩
    | some codeTable =>
      exact ⟨fun hglobal _ hsame => hglobal (Option.some.inj hsame),
        fun hglobal hsame => hglobal hreloads (congrArg some hsame)⟩

end AppEngine

section
variable {currentProcessId : BitVec 32} {s : AppEngine} {e : AppEvent}

/-- Every event that fits keeps the code table of the app with the focus. -/
lemma AppEngine.Encoded.step (h : s.Encoded) (hreal : RealApps currentProcessId s e)
    (hok : SettingsFit s e) :
    (s.step currentProcessId e).Encoded := by
  cases e with
  | publish | saveToml => exact h
  | focus exeName pid => exact AppEngine.ApplyFocusOnHookThread_encoded h hreal
  | QuickSync =>
    cases hchange : s.settingsChange with
    | none => exact AppEngine.QuickSyncFromSharedState_unchanged h hchange hreal
    | some state => exact (AppEngine.changed_encoded_iff h hchange hreal).2 (hok state hchange)
  | Reload =>
    simp only [AppEngine.step]
    split
    · exact AppEngine.ReloadFromToml_encoded hreal
    · exact h

/-- A change of the settings that does not fit breaks it. -/
lemma AppEngine.Encoded.breaks (h : s.Encoded) (hreal : RealApps currentProcessId s e)
    (hnot : ¬SettingsFit s e) : ¬(s.step currentProcessId e).Encoded := by
  cases e with
  | publish | saveToml | focus | Reload => exact absurd trivial hnot
  | QuickSync =>
    intro hencoded
    refine hnot fun state hchange => ?_
    exact (AppEngine.changed_encoded_iff h hchange hreal).1 hencoded

end

/-- The code table is the one of the app with the focus, all along a run, just when every change of the
    settings fits the override of that app. -/
theorem appEncoding_iff {currentProcessId : BitVec 32} {s : AppEngine} {events : List AppEvent}
    (hstart : s.Encoded)
    (hreal : Machine.Guarded (AppEngine.step currentProcessId) (RealApps currentProcessId) s events) :
    (∀ es, es <+: events → (Machine.run (AppEngine.step currentProcessId) s es).Encoded) ↔
      Machine.Guarded (AppEngine.step currentProcessId) SettingsFit s events :=
  Machine.forall_prefix_iff_guarded hstart hreal id AppEngine.Encoded.step AppEngine.Encoded.breaks

/-- One app has an encoding of its own. -/
def legacyToml : AppToml where
  config := { SharedState.InitDefaults.synced with rest := { tsfApps := false } }
  appEncodingOverrides := [("legacy.exe", 1)]

/-- The engine follows the default state. -/
def legacyStart : AppEngine where
  shared := SharedState.InitDefaults
  toml := legacyToml
  engine :=
    { lastEpoch := 0
      lastConfigGeneration := 0
      last := SharedState.InitDefaults.syncField
      config := legacyToml.config
      currentCodeTable := 0
      globalCodeTable := 0
      claimed := SharedState.InitDefaults }
  snap := BuildFromToml legacyToml true false false

/-- The spell check is switched on while the app with its own encoding has the focus. -/
def legacySettings : List AppEvent := [.focus "legacy.exe" 10, .publish spellChecked, .QuickSync]

/-- Two apps with old tables. -/
theorem appEncoding_iff_legacy :
    (∀ es, es <+: legacySettings → (Machine.run (AppEngine.step 1) legacyStart es).Encoded) ↔
      Machine.Guarded (AppEngine.step 1) SettingsFit legacyStart legacySettings :=
  appEncoding_iff (by decide) (by decide)

/-- A change of another setting takes the encoding from the app. -/
theorem appEncoding_lost :
    ¬∀ events, Machine.Guarded (AppEngine.step 1) (RealApps 1) legacyStart events →
      (Machine.run (AppEngine.step 1) legacyStart events).Encoded := by
  intro h
  have hencoded := h legacySettings (by decide)
  revert hencoded
  decide

end NextKey
