import Mathlib.Logic.Function.Basic
import Mathlib.Tactic.ByContra
import NextKey.Ipc.SharedStateManager
import NextKey.Lib.Machine

/-!
# Following the shared state

Model of `HookEngine::QuickSyncFromSharedState` and of the part of `HookEngine::ReloadFromToml` that
publishes the config. Calls on several threads read a snapshot of the shared state and claim it by a
compare-and-swap on `lastEpoch_`. Every access to an atomic of the engine is a step, so the calls
interleave in any order; `Read` of the shared state is one step. What the functions do to the
hotkey, the macros, the per-app sets and the injector is left out, for it does not touch the config.

The claims are in order, but the publishes that follow are not: a call that claimed an older
snapshot can publish it over a newer one (`older_config_published`). When the calls do not overlap
from the claim on, the config in force is the one of the last snapshot claimed (`config_of_serial`).
-/

namespace NextKey

/-- The switches of `TypingConfig` that the feature flags carry. -/
structure FeatureSwitches where
  modernOrtho : Bool
  autoCaps : Bool
  allowZwjf : Bool
  autoRestoreEnabled : Bool
  cjkAutoSwitch : Bool
  escRestoreRawEnabled : Bool
  beepOnSwitch : Bool
  macroEnabled : Bool
  macroInEnglish : Bool
  quickConsonant : Bool
  quickStartConsonant : Bool
  quickEndConsonant : Bool
  smartSwitch : Bool
  excludeApps : Bool
  autoCapsMacro : Bool
  allowEnglishBypass : Bool
  debugLogEnabled : Bool
  suggestKeepChars : Bool
  deriving DecidableEq, Repr

/-- C++ `DecodeFeatureFlags` -/
def DecodeFeatureFlags (flags : BitVec 32) : FeatureSwitches where
  modernOrtho := flags &&& 0x0001 != 0
  autoCaps := flags &&& 0x0002 != 0
  allowZwjf := flags &&& 0x0004 != 0
  autoRestoreEnabled := flags &&& 0x0008 != 0
  cjkAutoSwitch := flags &&& 0x0010 != 0
  escRestoreRawEnabled := flags &&& 0x0020 != 0
  beepOnSwitch := flags &&& 0x0080 != 0
  macroEnabled := flags &&& 0x0100 != 0
  macroInEnglish := flags &&& 0x0200 != 0
  quickConsonant := flags &&& 0x0400 != 0
  quickStartConsonant := flags &&& 0x0800 != 0
  quickEndConsonant := flags &&& 0x1000 != 0
  smartSwitch := flags &&& 0x4000 != 0
  excludeApps := flags &&& 0x8000 != 0
  autoCapsMacro := flags &&& 0x00010000 != 0
  allowEnglishBypass := flags &&& 0x00020000 != 0
  debugLogEnabled := flags &&& 0x00040000 != 0
  suggestKeepChars := flags &&& 0x00080000 != 0

/-- C++ `GetFeatureFlags` -/
def SharedState.GetFeatureFlags (st : SharedState) : BitVec 32 :=
  (st (.featureFlags 0)).setWidth 32 ||| (st (.featureFlags 1)).setWidth 32 <<< 8 |||
    (st .extFeatureFlags).setWidth 32 <<< 16

/-- The fields of the shared state that a call compares with what it last saw. -/
inductive SyncField where
  | featureFlags
  | spellCheck
  | inputMethod
  | codeTable
  deriving DecidableEq, Repr

abbrev SyncField.width : SyncField → Nat
  | .featureFlags => 32
  | _ => 8

/-- In the order in which a call compares and stores them. -/
def SyncField.all : List SyncField := [.featureFlags, .spellCheck, .inputMethod, .codeTable]

def SharedState.syncField (st : SharedState) : (f : SyncField) → BitVec f.width
  | .featureFlags => st.GetFeatureFlags
  | .spellCheck => st .spellCheck
  | .inputMethod => st .inputMethod
  | .codeTable => st .codeTable

/-- The fields of `TypingConfig` that the shared state carries. -/
structure SyncedFields where
  features : FeatureSwitches
  spellCheckEnabled : Bool
  inputMethod : BitVec 8
  codeTable : BitVec 8
  deriving DecidableEq, Repr

/-- `TypingConfig`, with fields `ρ` that only the TOML has. -/
structure SyncedConfig (ρ : Type) extends SyncedFields where
  rest : ρ
  deriving DecidableEq, Repr

/-- What a snapshot says about the config. -/
def SharedState.synced (st : SharedState) : SyncedFields where
  features := DecodeFeatureFlags st.GetFeatureFlags
  spellCheckEnabled := st .spellCheck != 0
  inputMethod := st .inputMethod
  codeTable := st .codeTable

/-- The encoding of the app with the focus: none is set for an unknown, excluded or TSF app. -/
inductive AppEncoding where
  | skipped
  | global
  | override (codeTable : BitVec 8)
  deriving DecidableEq, Repr

/-- What a reload reads from the TOML. -/
structure Toml (ρ : Type) where
  config : SyncedConfig ρ
  appEncoding : AppEncoding
  deriving DecidableEq, Repr

/-- The atomics of the engine. -/
structure SyncEngine (ρ : Type) where
  lastEpoch : BitVec 32
  lastConfigGeneration : BitVec 8
  last : (f : SyncField) → BitVec f.width
  config : SyncedConfig ρ
  currentCodeTable : BitVec 8
  globalCodeTable : BitVec 8
  /-- The snapshot claimed last. -/
  claimed : SharedState

/-- Where a thread stands in `QuickSyncFromSharedState`; from `checkGeneration` on it has claimed the
    snapshot `state`. -/
inductive QuickSync (ρ : Type) where
  | idle
  | readEpoch
  | loadEpoch (epoch : BitVec 32)
  | readEpochAgain
  | loadEpochAgain (epoch : BitVec 32)
  | read (seenEpoch : BitVec 32)
  | claim (seenEpoch : BitVec 32) (state : SharedState)
  | checkGeneration (state : SharedState)
  | storeGeneration (state : SharedState)
  | loadToml (state : SharedState)
  | readAgain (state : SharedState) (cfg : SyncedConfig ρ)
  | reloadConfig (state : SharedState) (cfg : SyncedConfig ρ)
  | reloadCodeTable (state : SharedState) (cfg : SyncedConfig ρ)
  | reloadGlobal (state : SharedState) (cfg : SyncedConfig ρ)
  | reencode (state : SharedState)
  | storeEncoding (state : SharedState) (codeTable : BitVec 8)
  | compare (state : SharedState) (rest : List SyncField)
  | storeLast (state : SharedState) (rest : List SyncField)
  | loadConfig (state : SharedState)
  | compareCodeTable (state : SharedState) (cfg : SyncedConfig ρ)
  | storeConfig (state : SharedState) (cfg : SyncedConfig ρ) (codeTableChanged : Bool)
  | storeCodeTable (state : SharedState) (cfg : SyncedConfig ρ)
  | storeGlobal (state : SharedState) (cfg : SyncedConfig ρ)

/-- The snapshot a call has claimed. -/
def QuickSync.snapshot {ρ : Type} : QuickSync ρ → Option SharedState
  | .checkGeneration state | .storeGeneration state | .loadToml state | .readAgain state _
  | .reloadConfig state _ | .reloadCodeTable state _ | .reloadGlobal state _ | .reencode state
  | .storeEncoding state _ | .compare state _ | .storeLast state _ | .loadConfig state
  | .compareCodeTable state _ | .storeConfig state _ _ | .storeCodeTable state _
  | .storeGlobal state _ => some state
  | _ => none

/-- What a step of a call may read outside the engine. -/
structure SyncEnv (ρ : Type) where
  /-- What `ReadEpoch` returns. -/
  epoch : BitVec 32
  /-- What `Read` returns, if it is valid. -/
  state : Option SharedState
  toml : Toml ρ

/-- The epoch has been processed and no write is in progress. -/
def SyncEngine.upToDate {ρ : Type} (e : SyncEngine ρ) (epoch : BitVec 32) : Prop :=
  epoch = e.lastEpoch ∧ Seqlock.odd epoch = false

instance {ρ : Type} {e : SyncEngine ρ} {epoch} : Decidable (e.upToDate epoch) :=
  inferInstanceAs (Decidable (_ ∧ _))

/-- The config of the TOML with the fields that the shared state carries live. -/
def overrideConfig {ρ : Type} (cfg : SyncedConfig ρ) : Option SharedState → SyncedConfig ρ
  | some state =>
    { cfg with
      inputMethod := state .inputMethod
      spellCheckEnabled := state .spellCheck != 0
      features := DecodeFeatureFlags state.GetFeatureFlags }
  | none => cfg

/-- One step of a call, on the hook thread or on another. -/
def QuickSync.step {ρ : Type} (onHook : Bool) (env : SyncEnv ρ) (e : SyncEngine ρ) :
    QuickSync ρ → SyncEngine ρ × QuickSync ρ
  | .idle => (e, .idle)
  | .readEpoch => (e, .loadEpoch env.epoch)
  | .loadEpoch epoch =>
    -- the hook thread only signals the worker
    (e, if e.upToDate epoch ∨ onHook then .idle else .readEpochAgain)
  | .readEpochAgain => (e, .loadEpochAgain env.epoch)
  | .loadEpochAgain epoch => (e, if e.upToDate epoch then .idle else .read e.lastEpoch)
  | .read seenEpoch =>
    (e, match env.state with
      | some state => .claim seenEpoch state
      | none => .idle)
  | .claim seenEpoch state =>
    if e.lastEpoch = seenEpoch then
      ({ e with lastEpoch := state .epoch, claimed := state }, .checkGeneration state)
    else (e, .idle)
  | .checkGeneration state =>
    (e, if state .configGeneration = e.lastConfigGeneration then .compare state SyncField.all
      else .storeGeneration state)
  | .storeGeneration state =>
    ({ e with lastConfigGeneration := state .configGeneration }, .loadToml state)
  | .loadToml state => (e, .readAgain state env.toml.config)
  | .readAgain state cfg => (e, .reloadConfig state (overrideConfig cfg env.state))
  | .reloadConfig state cfg => ({ e with config := cfg }, .reloadCodeTable state cfg)
  | .reloadCodeTable state cfg =>
    ({ e with currentCodeTable := cfg.codeTable }, .reloadGlobal state cfg)
  | .reloadGlobal state cfg => ({ e with globalCodeTable := cfg.codeTable }, .reencode state)
  | .reencode state =>
    (e, match env.toml.appEncoding with
      | .skipped => .compare state SyncField.all
      | .global => .storeEncoding state e.globalCodeTable
      | .override codeTable => .storeEncoding state codeTable)
  | .storeEncoding state codeTable =>
    ({ e with currentCodeTable := codeTable }, .compare state SyncField.all)
  | .compare _ [] => (e, .idle)
  | .compare state (f :: rest) =>
    (e, if state.syncField f = e.last f then .compare state rest else .storeLast state SyncField.all)
  | .storeLast state (f :: rest) =>
    ({ e with last := Function.update e.last f (state.syncField f) }, .storeLast state rest)
  | .storeLast state [] => (e, .loadConfig state)
  | .loadConfig state => (e, .compareCodeTable state { e.config with toSyncedFields := state.synced })
  | .compareCodeTable state cfg => (e, .storeConfig state cfg (e.currentCodeTable != cfg.codeTable))
  | .storeConfig state cfg codeTableChanged =>
    ({ e with config := cfg }, if codeTableChanged then .storeCodeTable state cfg else .idle)
  | .storeCodeTable state cfg => ({ e with currentCodeTable := cfg.codeTable }, .storeGlobal state cfg)
  | .storeGlobal _ cfg => ({ e with globalCodeTable := cfg.codeTable }, .idle)

/-- Shared memory, the TOML, the engine and the threads `π` that call. -/
structure ConfigSync (ρ π : Type) where
  /-- The state written last. -/
  shared : SharedState
  /-- A `Write` is in progress. -/
  writing : Bool
  toml : Toml ρ
  engine : SyncEngine ρ
  call : π → QuickSync ρ

/-- A process writes the shared state or the TOML; a thread calls `QuickSyncFromSharedState` or
takes its next step, and a `Read` in it can find no consistent state (`torn`). -/
inductive SyncEvent (ρ π : Type) where
  | beginWrite
  | endWrite (state : SharedState)
  | saveToml (toml : Toml ρ)
  | QuickSync (p : π)
  | step (p : π) (torn : Bool)

namespace ConfigSync

variable {ρ π : Type}

/-- What a step may read now. -/
def env (s : ConfigSync ρ π) (torn : Bool) : SyncEnv ρ where
  epoch := if s.writing then s.shared .epoch + 1 else s.shared .epoch
  state := if s.writing ∨ torn ∨ ¬s.shared.IsValid then none else some s.shared
  toml := s.toml

variable [DecidableEq π]

/-- One event; what is not where the event expects it leaves the state alone. -/
def step (onHook : π → Bool) (s : ConfigSync ρ π) : SyncEvent ρ π → ConfigSync ρ π
  | .beginWrite => { s with writing := true }
  | .endWrite state =>
    if s.writing then
      { s with shared := Function.update state .epoch (s.shared .epoch + 2), writing := false }
    else s
  | .saveToml toml => { s with toml := toml }
  | .QuickSync p =>
    match s.call p with
    | .idle => { s with call := Function.update s.call p .readEpoch }
    | _ => s
  | .step p torn =>
    let next := (s.call p).step (onHook p) (s.env torn) s.engine
    { s with engine := next.1, call := Function.update s.call p next.2 }

end ConfigSync

/-- An interleaving of the steps of all threads. -/
def configSyncRun {ρ π : Type} [DecidableEq π] (onHook : π → Bool) (s : ConfigSync ρ π)
    (events : List (SyncEvent ρ π)) : ConfigSync ρ π :=
  Machine.run (ConfigSync.step onHook) s events

namespace SyncEngine

variable {ρ : Type}

/-- The fields last seen are those of a snapshot. -/
def Seen (e : SyncEngine ρ) (state : SharedState) : Prop := ∀ f, e.last f = state.syncField f

/-- The published config and code table are derived from a snapshot. -/
structure Published (e : SyncEngine ρ) (state : SharedState) : Prop where
  config : e.config.toSyncedFields = state.synced
  currentCodeTable : e.currentCodeTable = state .codeTable

/-- A snapshot is in force. -/
structure InForce (e : SyncEngine ρ) (state : SharedState) : Prop where
  seen : e.Seen state
  published : e.Published state

end SyncEngine

/-- Two snapshots with the same fields say the same about the config. -/
lemma synced_eq {st st' : SharedState} (h : ∀ f, st.syncField f = st'.syncField f) :
    st.synced = st'.synced := by
  have hflags : st.GetFeatureFlags = st'.GetFeatureFlags := h .featureFlags
  have hspell : st .spellCheck = st' .spellCheck := h .spellCheck
  have hmethod : st .inputMethod = st' .inputMethod := h .inputMethod
  have htable : st .codeTable = st' .codeTable := h .codeTable
  simp only [SharedState.synced, hflags, hspell, hmethod, htable]

/-- What was in force before stays derived from a snapshot with the fields last seen. -/
lemma SyncEngine.InForce.of_seen {ρ : Type} {e : SyncEngine ρ} {old state : SharedState}
    (h : e.InForce old) (hseen : e.Seen state) : e.Published state := by
  have hfields : ∀ f, old.syncField f = state.syncField f := fun f => (h.seen f).symm.trans (hseen f)
  have htable : old .codeTable = state .codeTable := hfields .codeTable
  exact ⟨h.published.config.trans (synced_eq hfields), h.published.currentCodeTable.trans htable⟩

/-- What a reload reads again, or else the TOML, has the fields of a snapshot. -/
def Carries {ρ : Type} (state : SharedState) (cfg : SyncedConfig ρ) : Option SharedState → Prop
  | some state' => ∀ f ∈ SyncField.all, f ≠ .codeTable → state'.syncField f = state.syncField f
  | none => cfg.toSyncedFields = state.synced

instance {ρ : Type} {state} {cfg : SyncedConfig ρ} : ∀ read, Decidable (Carries state cfg read)
  | some state' => inferInstanceAs
    (Decidable (∀ f ∈ SyncField.all, f ≠ .codeTable → state'.syncField f = state.syncField f))
  | none => inferInstanceAs (Decidable (cfg.toSyncedFields = state.synced))

/-- The encoding of the app is the code table of a snapshot, unless it follows the global one. -/
def AppEncoding.Fits (state : SharedState) : AppEncoding → Prop
  | .override codeTable => codeTable = state .codeTable
  | _ => True

instance {state} : ∀ encoding : AppEncoding, Decidable (encoding.Fits state)
  | .override _ => inferInstanceAs (Decidable (_ = _))
  | .skipped | .global => inferInstanceAs (Decidable True)

/-- A step of a reload finds the fields of the snapshot. -/
def QuickSync.Fits {ρ : Type} (env : SyncEnv ρ) : QuickSync ρ → Prop
  | .loadToml state => env.toml.config.codeTable = state .codeTable
  | .readAgain state cfg => Carries state cfg env.state
  | .reencode state => env.toml.appEncoding.Fits state
  | _ => True

instance {ρ : Type} {env : SyncEnv ρ} : ∀ c : QuickSync ρ, Decidable (c.Fits env)
  | .loadToml _ => inferInstanceAs (Decidable (_ = _))
  | .readAgain state cfg => inferInstanceAs (Decidable (Carries state cfg env.state))
  | .reencode state => inferInstanceAs (Decidable (env.toml.appEncoding.Fits state))
  | .idle | .readEpoch | .loadEpoch _ | .readEpochAgain | .loadEpochAgain _ | .read _ | .claim _ _
  | .checkGeneration _ | .storeGeneration _ | .reloadConfig _ _ | .reloadCodeTable _ _
  | .reloadGlobal _ _ | .storeEncoding _ _ | .compare _ _ | .storeLast _ _ | .loadConfig _
  | .compareCodeTable _ _ | .storeConfig _ _ _ | .storeCodeTable _ _ | .storeGlobal _ _ =>
    inferInstanceAs (Decidable True)

instance {ρ : Type} {e : SyncEngine ρ} {state} : Decidable (e.Seen state) :=
  decidable_of_iff (∀ f ∈ SyncField.all, e.last f = state.syncField f)
    ⟨fun h f => h f (by cases f <;> decide), fun h f _ => h f⟩

/-- A call has claimed a snapshot whose fields are those last seen. -/
def QuickSync.withoutNews {ρ : Type} (e : SyncEngine ρ) (c : QuickSync ρ) : Prop :=
  ∃ state ∈ c.snapshot, e.Seen state

instance {ρ : Type} {e : SyncEngine ρ} {c : QuickSync ρ} : Decidable (c.withoutNews e) :=
  inferInstanceAs (Decidable (∃ state ∈ c.snapshot, e.Seen state))

/-- The next step claims a snapshot. -/
def QuickSync.claims {ρ : Type} (e : SyncEngine ρ) : QuickSync ρ → Bool
  | .claim seenEpoch _ => e.lastEpoch = seenEpoch
  | _ => false

/-- A snapshot is claimed only while no other call is past its claim, and a reload for a snapshot
without news finds its fields in the TOML and in what it reads again. -/
def InTurn {ρ π : Type} (s : ConfigSync ρ π) : SyncEvent ρ π → Prop
  | .step p torn =>
    ((s.call p).claims s.engine → ∀ q, (s.call q).snapshot = none) ∧
      ((s.call p).withoutNews s.engine → (s.call p).Fits (s.env torn))
  | _ => True

instance {ρ : Type} {s : ConfigSync ρ Bool} : ∀ e, Decidable (InTurn s e)
  | .step p torn => inferInstanceAs (Decidable
    (((s.call p).claims s.engine → ∀ q, (s.call q).snapshot = none) ∧
      ((s.call p).withoutNews s.engine → (s.call p).Fits (s.env torn))))
  | .beginWrite | .endWrite _ | .saveToml _ | .QuickSync _ => inferInstanceAs (Decidable True)

/-- Where a call that has claimed a snapshot stands: without news the old config has to fit. -/
def SyncEngine.Underway {ρ : Type} (e : SyncEngine ρ) : QuickSync ρ → Prop
  | .checkGeneration state | .storeGeneration state | .loadToml state =>
    e.Seen state → e.Published state
  | .readAgain state cfg => e.Seen state → cfg.codeTable = state .codeTable
  | .reloadConfig state cfg => e.Seen state → cfg.toSyncedFields = state.synced
  | .reloadCodeTable state cfg =>
    e.Seen state → e.config.toSyncedFields = state.synced ∧ cfg.toSyncedFields = state.synced
  | .reloadGlobal state cfg => e.Seen state → e.Published state ∧ cfg.toSyncedFields = state.synced
  | .reencode state => e.Seen state → e.Published state ∧ e.globalCodeTable = state .codeTable
  | .storeEncoding state codeTable => e.Seen state → e.Published state ∧ codeTable = state .codeTable
  | .compare state rest =>
    (∀ f ∉ rest, e.last f = state.syncField f) ∧ (e.Seen state → e.Published state)
  | .storeLast state rest => ∀ f ∉ rest, e.last f = state.syncField f
  | .loadConfig state => e.Seen state
  | .compareCodeTable state cfg => e.Seen state ∧ cfg.toSyncedFields = state.synced
  | .storeConfig state cfg codeTableChanged =>
    e.Seen state ∧ cfg.toSyncedFields = state.synced ∧
      (codeTableChanged = false → e.currentCodeTable = state .codeTable)
  | .storeCodeTable state cfg =>
    e.Seen state ∧ e.config.toSyncedFields = state.synced ∧ cfg.toSyncedFields = state.synced
  | .storeGlobal state _ => e.InForce state
  | _ => True

/-- A call that has claimed a snapshot goes on, or leaves it in force. -/
structure Continues {ρ : Type} (e : SyncEngine ρ) (state : SharedState)
    (next : SyncEngine ρ × QuickSync ρ) : Prop where
  lastEpoch : next.1.lastEpoch = e.lastEpoch
  claimed : next.1.claimed = e.claimed
  underway : next.1.Underway next.2
  snapshot : next.2.snapshot = some state ∨ next.2.snapshot = none ∧ next.1.InForce state

section
variable {ρ π : Type} {e : SyncEngine ρ} {state : SharedState} {env : SyncEnv ρ} {onHook : Bool}

/-- What was synchronized has the code table. -/
lemma codeTable_of_synced {cfg : SyncedFields} (h : cfg = state.synced) :
    cfg.codeTable = state .codeTable := by
  rw [h]
  rfl

/-- Every field is compared. -/
lemma mem_all (f : SyncField) : f ∈ SyncField.all := by
  cases f <;> decide

/-- The comparison begins with every field. -/
lemma Underway.compareAll (h : e.Seen state → e.Published state) :
    e.Underway (.compare state SyncField.all) :=
  ⟨fun f hf => absurd (mem_all f) hf, h⟩

/-- The reload takes the fields of a snapshot with the same fields. -/
lemma overrideConfig_synced {cfg : SyncedConfig ρ} {state' : SharedState}
    (htable : cfg.codeTable = state .codeTable)
    (h : Carries state cfg (some state')) :
    (overrideConfig cfg (some state')).toSyncedFields = state.synced := by
  have hflags : state'.GetFeatureFlags = state.GetFeatureFlags := h .featureFlags (by decide) nofun
  have hspell : state' .spellCheck = state .spellCheck := h .spellCheck (by decide) nofun
  have hmethod : state' .inputMethod = state .inputMethod := h .inputMethod (by decide) nofun
  simp only [overrideConfig, SharedState.synced, hflags, hspell, hmethod, htable]

/-- A step of a call that has claimed a snapshot. -/
lemma Continues.step {c : QuickSync ρ} (hstate : c.snapshot = some state) (hunder : e.Underway c)
    (hfits : c.withoutNews e → c.Fits env) : Continues e state (c.step onHook env e) := by
  cases c with
  | idle | readEpoch | loadEpoch | readEpochAgain | loadEpochAgain | read | claim => cases hstate
  | checkGeneration st =>
    cases hstate
    dsimp only [QuickSync.step]
    split
    · exact ⟨rfl, rfl, Underway.compareAll hunder, .inl rfl⟩
    · exact ⟨rfl, rfl, hunder, .inl rfl⟩
  | storeGeneration st =>
    cases hstate
    refine ⟨rfl, rfl, fun hseen => ?_, .inl rfl⟩
    obtain ⟨hconfig, htable⟩ := hunder hseen
    exact ⟨hconfig, htable⟩
  | loadToml st =>
    cases hstate
    exact ⟨rfl, rfl, fun hseen => hfits ⟨state, rfl, hseen⟩, .inl rfl⟩
  | readAgain st cfg =>
    cases hstate
    refine ⟨rfl, rfl, fun hseen => ?_, .inl rfl⟩
    have hagrees : Carries state cfg env.state := hfits ⟨state, rfl, hseen⟩
    cases hread : env.state with
    | some state' =>
      rw [hread] at hagrees
      exact overrideConfig_synced (hunder hseen) hagrees
    | none =>
      rw [hread] at hagrees
      exact hagrees
  | reloadConfig st cfg =>
    cases hstate
    exact ⟨rfl, rfl, fun hseen => ⟨hunder hseen, hunder hseen⟩, .inl rfl⟩
  | reloadCodeTable st cfg =>
    cases hstate
    refine ⟨rfl, rfl, fun hseen => ?_, .inl rfl⟩
    obtain ⟨hconfig, hcfg⟩ := hunder hseen
    exact ⟨⟨hconfig, codeTable_of_synced hcfg⟩, hcfg⟩
  | reloadGlobal st cfg =>
    cases hstate
    refine ⟨rfl, rfl, fun hseen => ?_, .inl rfl⟩
    obtain ⟨hpublished, hcfg⟩ := hunder hseen
    exact ⟨⟨hpublished.config, hpublished.currentCodeTable⟩, codeTable_of_synced hcfg⟩
  | reencode st =>
    cases hstate
    dsimp only [QuickSync.step]
    split
    · exact ⟨rfl, rfl, Underway.compareAll fun hseen => (hunder hseen).1, .inl rfl⟩
    · exact ⟨rfl, rfl, hunder, .inl rfl⟩
    · next codeTable hencoding =>
      refine ⟨rfl, rfl, fun hseen => ⟨(hunder hseen).1, ?_⟩, .inl rfl⟩
      have happ : env.toml.appEncoding.Fits state := hfits ⟨state, rfl, hseen⟩
      rw [hencoding] at happ
      exact happ
  | storeEncoding st codeTable =>
    cases hstate
    refine ⟨rfl, rfl, Underway.compareAll fun hseen => ?_, .inl rfl⟩
    obtain ⟨hpublished, htable⟩ := hunder hseen
    exact ⟨hpublished.config, htable⟩
  | compare st rest =>
    cases hstate
    obtain ⟨hcompared, hpublished⟩ := hunder
    cases rest with
    | nil =>
      have hseen : e.Seen state := fun f => hcompared f List.not_mem_nil
      exact ⟨rfl, rfl, trivial, .inr ⟨rfl, hseen, hpublished hseen⟩⟩
    | cons f rest =>
      dsimp only [QuickSync.step]
      split
      · next hf =>
        refine ⟨rfl, rfl, ⟨fun g hg => ?_, hpublished⟩, .inl rfl⟩
        by_cases hgf : g = f
        · rw [hgf, hf]
        · exact hcompared g (by simp [hgf, hg])
      · exact ⟨rfl, rfl, fun g hg => absurd (mem_all g) hg, .inl rfl⟩
  | storeLast st rest =>
    cases hstate
    cases rest with
    | nil => exact ⟨rfl, rfl, fun f => hunder f List.not_mem_nil, .inl rfl⟩
    | cons f rest =>
      refine ⟨rfl, rfl, fun g hg => ?_, .inl rfl⟩
      dsimp only [QuickSync.step]
      by_cases hgf : g = f
      · subst hgf
        rw [Function.update_self]
      · rw [Function.update_of_ne hgf]
        exact hunder g (by simp [hgf, hg])
  | loadConfig st =>
    cases hstate
    exact ⟨rfl, rfl, ⟨hunder, rfl⟩, .inl rfl⟩
  | compareCodeTable st cfg =>
    cases hstate
    obtain ⟨hseen, hcfg⟩ := hunder
    refine ⟨rfl, rfl, ⟨hseen, hcfg, fun hsame => ?_⟩, .inl rfl⟩
    have htable : e.currentCodeTable = cfg.codeTable := by simpa using hsame
    exact htable.trans (codeTable_of_synced hcfg)
  | storeConfig st cfg codeTableChanged =>
    cases hstate
    obtain ⟨hseen, hcfg, htable⟩ := hunder
    dsimp only [QuickSync.step]
    cases codeTableChanged with
    | true => exact ⟨rfl, rfl, ⟨hseen, hcfg, hcfg⟩, .inl rfl⟩
    | false => exact ⟨rfl, rfl, trivial, .inr ⟨rfl, hseen, ⟨hcfg, htable rfl⟩⟩⟩
  | storeCodeTable st cfg =>
    cases hstate
    obtain ⟨hseen, hconfig, hcfg⟩ := hunder
    exact ⟨rfl, rfl, ⟨hseen, ⟨hconfig, codeTable_of_synced hcfg⟩⟩, .inl rfl⟩
  | storeGlobal st cfg =>
    cases hstate
    exact ⟨rfl, rfl, trivial, .inr ⟨rfl, hunder.seen, ⟨hunder.published.config,
      hunder.published.currentCodeTable⟩⟩⟩

/-- A call that has claimed nothing claims a snapshot or leaves the engine alone. -/
lemma step_unclaimed {c : QuickSync ρ} (hnone : c.snapshot = none) :
    (∃ seenEpoch state, c = .claim seenEpoch state ∧ e.lastEpoch = seenEpoch ∧
      c.step onHook env e =
        ({ e with lastEpoch := state .epoch, claimed := state }, .checkGeneration state)) ∨
    (c.step onHook env e).1 = e ∧ (c.step onHook env e).2.snapshot = none := by
  cases c with
  | idle | readEpoch | readEpochAgain => exact .inr ⟨rfl, rfl⟩
  | loadEpoch epoch | loadEpochAgain epoch =>
    refine .inr ⟨rfl, ?_⟩
    dsimp only [QuickSync.step]
    split <;> rfl
  | read seenEpoch =>
    refine .inr ⟨rfl, ?_⟩
    dsimp only [QuickSync.step]
    split <;> rfl
  | claim seenEpoch state =>
    dsimp only [QuickSync.step]
    split
    · next hepoch => exact .inl ⟨seenEpoch, state, rfl, hepoch, rfl⟩
    · exact .inr ⟨rfl, rfl⟩
  | _ => cases hnone

/-- A call that has claimed nothing needs nothing. -/
lemma underway_unclaimed {c : QuickSync ρ} (hnone : c.snapshot = none) : e.Underway c := by
  cases c with
  | idle | readEpoch | loadEpoch | readEpochAgain | loadEpochAgain | read | claim => exact trivial
  | _ => cases hnone

end

/-- What holds in every state of a run in turn: at most one call is past its claim, and when none is the
    last snapshot claimed is in force. -/
structure SyncInv {ρ π : Type} (s : ConfigSync ρ π) : Prop where
  epoch : s.engine.claimed .epoch = s.engine.lastEpoch
  claimed : ∀ p state, (s.call p).snapshot = some state → s.engine.claimed = state
  alone : ∀ p q, (s.call p).snapshot ≠ none → (s.call q).snapshot ≠ none → p = q
  underway : ∀ p, s.engine.Underway (s.call p)
  atRest : (∀ p, (s.call p).snapshot = none) → s.engine.InForce s.engine.claimed

section
variable {ρ π : Type} {s : ConfigSync ρ π} {onHook : π → Bool} {p : π}

/-- No call is past its claim. -/
lemma SyncInv.start (hidle : ∀ p, s.call p = .idle)
    (hepoch : s.engine.claimed .epoch = s.engine.lastEpoch)
    (hforce : s.engine.InForce s.engine.claimed) : SyncInv s where
  epoch := hepoch
  claimed p state hp := by
    rw [hidle p] at hp
    cases hp
  alone p q hp _ := absurd (by rw [hidle p]; rfl) hp
  underway p := by
    rw [hidle p]
    trivial
  atRest _ := hforce

variable [DecidableEq π]

/-- A call that has claimed nothing moves on. -/
lemma SyncInv.unclaimed {c : QuickSync ρ} (hinv : SyncInv s) (hp : (s.call p).snapshot = none)
    (hc : c.snapshot = none) : SyncInv { s with call := Function.update s.call p c } := by
  have hsame : ∀ q, (Function.update s.call p c q).snapshot = (s.call q).snapshot := by
    intro q
    by_cases hq : q = p
    · subst hq
      rw [Function.update_self, hc, hp]
    · rw [Function.update_of_ne hq]
  refine ⟨hinv.epoch, fun q state hq => ?_, fun q r hq hr => ?_, fun q => ?_, fun hnone => ?_⟩
  · exact hinv.claimed q state ((hsame q).symm.trans hq)
  · exact hinv.alone q r (fun h => hq ((hsame q).trans h)) fun h => hr ((hsame r).trans h)
  · dsimp only
    by_cases hq : q = p
    · subst hq
      rw [Function.update_self]
      exact underway_unclaimed hc
    · rw [Function.update_of_ne hq]
      exact hinv.underway q
  · exact hinv.atRest fun q => (hsame q).symm.trans (hnone q)

/-- A call claims a snapshot while no other is past its claim. -/
lemma SyncInv.claim {state : SharedState} (hinv : SyncInv s)
    (hnone : ∀ q, (s.call q).snapshot = none) :
    SyncInv { s with
      engine := { s.engine with lastEpoch := state .epoch, claimed := state }
      call := Function.update s.call p (.checkGeneration state) } := by
  have hforce := hinv.atRest hnone
  have hother : ∀ q, (Function.update s.call p (.checkGeneration state) q).snapshot ≠ none → q = p := by
    intro q hq
    by_contra hqp
    rw [Function.update_of_ne hqp] at hq
    exact hq (hnone q)
  refine ⟨rfl, fun q state' hq => ?_, fun q r hq hr => ?_, fun q => ?_, fun hall => ?_⟩
  · have hqp := hother q (by rw [hq]; nofun)
    dsimp only at hq
    rw [hqp, Function.update_self] at hq
    cases hq
    rfl
  · exact (hother q hq).trans (hother r hr).symm
  · dsimp only
    by_cases hq : q = p
    · subst hq
      rw [Function.update_self]
      intro hseen
      obtain ⟨hconfig, htable⟩ := hforce.of_seen hseen
      exact ⟨hconfig, htable⟩
    · rw [Function.update_of_ne hq]
      exact underway_unclaimed (hnone q)
  · have hp := hall p
    dsimp only at hp
    rw [Function.update_self] at hp
    cases hp

/-- A call past its claim takes a step. -/
lemma SyncInv.continues {state : SharedState} {next : SyncEngine ρ × QuickSync ρ} (hinv : SyncInv s)
    (hp : (s.call p).snapshot = some state) (hnext : Continues s.engine state next) :
    SyncInv { s with engine := next.1, call := Function.update s.call p next.2 } := by
  have hclaimed := hinv.claimed p state hp
  have hothers : ∀ q, q ≠ p → (s.call q).snapshot = none := by
    intro q hq
    by_contra hsome
    exact hq (hinv.alone q p hsome (by rw [hp]; nofun))
  have hother : ∀ q, (Function.update s.call p next.2 q).snapshot ≠ none → q = p := by
    intro q hq
    by_contra hqp
    rw [Function.update_of_ne hqp] at hq
    exact hq (hothers q hqp)
  refine ⟨?_, fun q state' hq => ?_, fun q r hq hr => ?_, fun q => ?_, fun hall => ?_⟩
  · dsimp only
    rw [hnext.claimed, hnext.lastEpoch]
    exact hinv.epoch
  · have hqp := hother q (by rw [hq]; nofun)
    dsimp only at hq ⊢
    rw [hqp, Function.update_self] at hq
    rw [hnext.claimed, hclaimed]
    obtain hsome | ⟨hnone, -⟩ := hnext.snapshot
    · rw [hsome] at hq
      cases hq
      rfl
    · rw [hnone] at hq
      cases hq
  · exact (hother q hq).trans (hother r hr).symm
  · dsimp only
    by_cases hq : q = p
    · subst hq
      rw [Function.update_self]
      exact hnext.underway
    · rw [Function.update_of_ne hq]
      exact underway_unclaimed (hothers q hq)
  · have hdone := hall p
    dsimp only at hdone ⊢
    rw [Function.update_self] at hdone
    rw [hnext.claimed, hclaimed]
    obtain hsome | ⟨-, hforce⟩ := hnext.snapshot
    · rw [hsome] at hdone
      cases hdone
    · exact hforce

/-- Every event in turn keeps the invariant. -/
lemma SyncInv.step {e} (hinv : SyncInv s) (hok : InTurn s e) : SyncInv (s.step onHook e) := by
  cases e with
  | beginWrite => exact ⟨hinv.epoch, hinv.claimed, hinv.alone, hinv.underway, hinv.atRest⟩
  | endWrite state =>
    dsimp only [ConfigSync.step]
    split
    · exact ⟨hinv.epoch, hinv.claimed, hinv.alone, hinv.underway, hinv.atRest⟩
    · exact hinv
  | saveToml toml => exact ⟨hinv.epoch, hinv.claimed, hinv.alone, hinv.underway, hinv.atRest⟩
  | QuickSync p =>
    dsimp only [ConfigSync.step]
    split
    · next hp => exact hinv.unclaimed (by rw [hp]; rfl) rfl
    · exact hinv
  | step p torn =>
    obtain ⟨hturn, hfits⟩ := hok
    dsimp only [ConfigSync.step]
    cases hp : (s.call p).snapshot with
    | none =>
      obtain ⟨seenEpoch, state, hclaim, hepoch, hnext⟩ | ⟨hengine, hnone⟩ :=
        @step_unclaimed ρ s.engine (s.env torn) (onHook p) _ hp
      · rw [hnext]
        exact hinv.claim (hturn (by rw [hclaim]; exact decide_eq_true hepoch))
      · rw [hengine]
        exact hinv.unclaimed hp hnone
    | some state => exact hinv.continues hp (Continues.step hp (hinv.underway p) hfits)

end

/-- In a run in turn, once no call is past its claim, the published config and code table are
derived from the snapshot claimed last, whose epoch is `lastEpoch`. -/
theorem config_of_serial {ρ π : Type} [DecidableEq π] {onHook : π → Bool} {s : ConfigSync ρ π}
    {events : List (SyncEvent ρ π)} (hidle : ∀ p, s.call p = .idle)
    (hepoch : s.engine.claimed .epoch = s.engine.lastEpoch)
    (hforce : s.engine.InForce s.engine.claimed)
    (hguard : Machine.Guarded (ConfigSync.step onHook) InTurn s events)
    (hdone : ∀ p, (configSyncRun onHook s events).call p = .idle) :
    (configSyncRun onHook s events).engine.claimed .epoch =
        (configSyncRun onHook s events).engine.lastEpoch ∧
      (configSyncRun onHook s events).engine.Published
        (configSyncRun onHook s events).engine.claimed := by
  have hinv : SyncInv (configSyncRun onHook s events) :=
    hguard.invariant (SyncInv.start hidle hepoch hforce) fun hinv hok => hinv.step hok
  have hrest := hinv.atRest fun p => by rw [hdone p]; rfl
  exact ⟨hinv.epoch, hrest.published⟩

/-- A process writes the shared state. -/
def writeShared (state : SharedState) : List (SyncEvent Unit Bool) := [.beginWrite, .endWrite state]

/-- A thread calls and takes some steps. -/
def callSteps (p : Bool) (n : Nat) : List (SyncEvent Unit Bool) :=
  .QuickSync p :: List.replicate n (.step p false)

/-- The default state with the spell check on. -/
def spellChecked : SharedState := Function.update SharedState.InitDefaults .spellCheck 1

/-- The engine follows the default state. -/
def syncedStart : ConfigSync Unit Bool where
  shared := SharedState.InitDefaults
  writing := false
  toml := { config := { SharedState.InitDefaults.synced with rest := () }, appEncoding := .global }
  engine :=
    { lastEpoch := 0
      lastConfigGeneration := 0
      last := SharedState.InitDefaults.syncField
      config := { SharedState.InitDefaults.synced with rest := () }
      currentCodeTable := 0
      globalCodeTable := 0
      claimed := SharedState.InitDefaults }
  call _ := .idle

/-- One publication and one synchronization. -/
theorem config_of_serial_once :
    (configSyncRun (fun _ => false) syncedStart
      (writeShared spellChecked ++ callSteps false 17)).engine.claimed .epoch =
      (configSyncRun (fun _ => false) syncedStart
        (writeShared spellChecked ++ callSteps false 17)).engine.lastEpoch ∧
    (configSyncRun (fun _ => false) syncedStart
      (writeShared spellChecked ++ callSteps false 17)).engine.Published
        (configSyncRun (fun _ => false) syncedStart
          (writeShared spellChecked ++ callSteps false 17)).engine.claimed :=
  config_of_serial (fun _ => rfl) rfl ⟨fun _ => rfl, rfl, rfl⟩ (by decide)
    (fun p => by cases p <;> rfl)

/-- One call claims the older snapshot and stands before its publish, another claims the newer one and
    publishes it, and then the first goes on. -/
def overlappingPublishes : List (SyncEvent Unit Bool) :=
  writeShared spellChecked ++ callSteps false 16 ++ writeShared SharedState.InitDefaults ++
    callSteps true 17 ++ [.step false false]

/-- An older snapshot overwrites a newer one. -/
theorem older_config_published :
    ¬∀ events : List (SyncEvent Unit Bool),
      (∀ p, (configSyncRun (fun _ => false) syncedStart events).call p = .idle) →
      (configSyncRun (fun _ => false) syncedStart events).engine.Published
        (configSyncRun (fun _ => false) syncedStart events).engine.claimed := by
  intro h
  have hpublished := h overlappingPublishes (fun p => by cases p <;> rfl)
  have hspell := congrArg SyncedFields.spellCheckEnabled hpublished.config
  revert hspell
  decide

end NextKey
