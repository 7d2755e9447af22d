import NextKey.Ipc.WriteEpoch

/-!
# Reloading the config after a save

Model of two savers and the engine on the shared state. A saver writes its TOML, reads the shared
state, increments the configuration generation and writes the state back (`SignalConfigChange` in
`app/helpers/AppHelpers.h`, `ApplyConfigChange` in `app/main.cpp`). The engine's tick compares the
epoch and then the generation with those it last saw and reloads the TOML
(`HookEngine::QuickSyncFromSharedState`, and the deferred reload in `HookEngine::OnTickPoll`). Every
load and store of a field of the shared state is a step.

The TOML is the list of the savers whose write it has, and the config in force the list it had when the
last reload started.
-/

namespace NextKey

/-- What `ApplyConfigChange` writes to the shared state; the flags are those of `EncodeFeatureFlags`. -/
structure SavedConfig where
  inputMethod : BitVec 8
  spellCheckEnabled : Bool
  codeTable : BitVec 8
  featureFlags : BitVec 32
  perfHistogramEnabled : Bool
  deriving DecidableEq, Repr

/-- The two kinds of savers. -/
inductive ConfigChange where
  | SignalConfigChange
  | ApplyConfigChange (config : SavedConfig)
  deriving DecidableEq, Repr

namespace SharedState

/-- C++ `SetFeatureFlags` -/
def SetFeatureFlags (st : SharedState) (ff : BitVec 32) : SharedState
  | .featureFlags 0 => ff.setWidth 8
  | .featureFlags 1 => (ff >>> 8).setWidth 8
  | .extFeatureFlags => (ff >>> 16).setWidth 8
  | f => st f

/-- `state.configGeneration++` -/
def bumpGeneration (st : SharedState) : SharedState :=
  Function.update st .configGeneration (st .configGeneration + 1)

/-- The fields of the config, without its switches. -/
def setConfig (st : SharedState) (config : SavedConfig) : SharedState
  | .inputMethod => config.inputMethod
  | .spellCheck => if config.spellCheckEnabled then 1 else 0
  | .codeTable => config.codeTable
  | .diagFlags => if config.perfHistogramEnabled then 0x01 else 0
  | f => st f

end SharedState

/-- What a saver makes of the state it read. -/
def ConfigChange.edit : ConfigChange → SharedState → SharedState
  | .SignalConfigChange, st => st.bumpGeneration
  | .ApplyConfigChange config, st =>
    ((st.setConfig config).SetFeatureFlags config.featureFlags).bumpGeneration

/-- The processes that share the state. -/
inductive ConfigProcess where
  | saver (b : Bool)
  | engine
  deriving DecidableEq, Repr

/-- Where a saver stands: before its TOML, before its `Read`, in it, in its `Write` or after it, or done
    without a `Write` because its `Read` failed. -/
inductive Saver where
  | saving
  | saved
  | reading
  | writing (state : SharedState)
  | skipped

/-- Where the engine stands in a tick. -/
inductive EngineTick where
  | idle
  | fastEpoch
  | slowEpoch
  | reading (seenEpoch : BitVec 32)
  | claim (seenEpoch : BitVec 32) (state : SharedState)
  | checking (state : SharedState)
  | draining
  | reloading

/-- The shared state, the savers, the TOML and the engine. -/
structure ConfigReload where
  shared : Shared ConfigProcess
  saver : Bool → Saver
  toml : List Bool
  tick : EngineTick
  lastEpoch : BitVec 32
  lastConfigGeneration : BitVec 8
  pendingConfigReload : Bool
  config : List Bool

/-- A saver takes its next step; the engine begins `QuickSyncFromSharedState` or the deferred part of
    `OnTickPoll`, has a reload deferred, or takes its next step. -/
inductive ReloadEvent where
  | saver (b : Bool)
  | quickSync
  | tickPoll
  | deferReload
  | engine
  deriving DecidableEq, Repr

namespace ConfigReload

/-- The call of a process on the shared state has returned. -/
def returned (s : ConfigReload) (p : ConfigProcess) : Bool :=
  match s.shared.call p with
  | .idle => true
  | _ => false

/-- One step of a saver. -/
def stepSaver (change : Bool → ConfigChange) (s : ConfigReload) (b : Bool) : ConfigReload :=
  match s.saver b with
  | .saving => { s with toml := b :: s.toml, saver := Function.update s.saver b .saved }
  | .saved =>
    { s with shared := s.shared.step (.Read (.saver b)), saver := Function.update s.saver b .reading }
  | .reading =>
    if s.returned (.saver b) then
      let state := s.shared.result (.saver b)
      if state.IsValid then
        { s with
          shared := s.shared.step (.Write (.saver b) ((change b).edit state))
          saver := Function.update s.saver b (.writing ((change b).edit state)) }
      else { s with saver := Function.update s.saver b .skipped }
    else { s with shared := s.shared.step (.step (.saver b)) }
  | .writing _ => { s with shared := s.shared.step (.step (.saver b)) }
  | .skipped => s

/-- The epoch read last is the one last seen and even. -/
def upToDate (s : ConfigReload) : Prop :=
  s.shared.epochSeen .engine = s.lastEpoch ∧ Seqlock.odd (s.shared.epochSeen .engine) = false

instance {s : ConfigReload} : Decidable s.upToDate := inferInstanceAs (Decidable (_ ∧ _))

/-- What the engine does when its call on the shared state has returned, or has none to make. -/
def advance (s : ConfigReload) : ConfigReload :=
  match s.tick with
  | .idle => s
  | .fastEpoch =>
    if s.upToDate then { s with tick := .idle }
    else { s with shared := s.shared.step (.ReadEpoch .engine), tick := .slowEpoch }
  | .slowEpoch =>
    if s.upToDate then { s with tick := .idle }
    else { s with shared := s.shared.step (.Read .engine), tick := .reading s.lastEpoch }
  | .reading seenEpoch =>
    if (s.shared.result .engine).IsValid then
      { s with tick := .claim seenEpoch (s.shared.result .engine) }
    else { s with tick := .idle }
  | .claim seenEpoch state =>
    if s.lastEpoch = seenEpoch then { s with lastEpoch := state .epoch, tick := .checking state }
    else { s with tick := .idle }
  | .checking state =>
    if state .configGeneration = s.lastConfigGeneration then { s with tick := .idle }
    else { s with lastConfigGeneration := state .configGeneration, tick := .reloading }
  | .draining =>
    if (s.shared.result .engine).IsValid then
      { s with
        lastConfigGeneration := (s.shared.result .engine) .configGeneration
        tick := .reloading }
    else { s with tick := .idle }
  | .reloading => { s with config := s.toml, tick := .idle }

/-- One step of the engine. -/
def stepEngine (s : ConfigReload) : ConfigReload :=
  if s.returned .engine then s.advance else { s with shared := s.shared.step (.step .engine) }

/-- One event. -/
def step (change : Bool → ConfigChange) (s : ConfigReload) : ReloadEvent → ConfigReload
  | .saver b => s.stepSaver change b
  | .quickSync =>
    match s.tick with
    | .idle => { s with shared := s.shared.step (.ReadEpoch .engine), tick := .fastEpoch }
    | _ => s
  | .tickPoll =>
    match s.tick, s.pendingConfigReload with
    | .idle, true =>
      { s with
        shared := s.shared.step (.Read .engine)
        pendingConfigReload := false
        tick := .draining }
    | _, _ => s
  | .deferReload => { s with pendingConfigReload := true }
  | .engine => s.stepEngine

/-- Before any save: the engine last saw some epoch and some generation. -/
def init (first : SharedState) (lastEpoch : BitVec 32) (lastConfigGeneration : BitVec 8)
    (pending : Bool) : ConfigReload where
  shared := Shared.init first
  saver _ := .saving
  toml := []
  tick := .idle
  lastEpoch := lastEpoch
  lastConfigGeneration := lastConfigGeneration
  pendingConfigReload := pending
  config := []

/-- A saver is done. -/
def SaverDone (s : ConfigReload) (b : Bool) : Prop :=
  match s.saver b with
  | .writing _ => s.returned (.saver b)
  | .skipped => True
  | _ => False

end ConfigReload

/-- An interleaving of the steps of the savers and the engine. -/
def reloadRun (change : Bool → ConfigChange) (s : ConfigReload) (events : List ReloadEvent) :
    ConfigReload :=
  Machine.run (ConfigReload.step change) s events

end NextKey
