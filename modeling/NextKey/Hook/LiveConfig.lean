import Mathlib.Logic.Relation
import NextKey.Hook.ConfigSync

/-!
# The shared state as the config bus

A call of `QuickSyncFromSharedState` on the worker thread that no other call and no write
interrupts, as one function (`quickSync_alone`). A reload takes the code table from the TOML, which
may be stale, and the call returns before it looks at the shared one when no field has changed since
it last looked.

The published config is derived from the snapshot claimed last just when no such reload finds
another code table in the TOML (`config_published_iff`).
-/

namespace NextKey

namespace SyncEngine

variable {ρ : Type}

/-- The part of `ReloadFromToml` that publishes the config. -/
def ReloadFromToml (env : SyncEnv ρ) (e : SyncEngine ρ) : SyncEngine ρ :=
  let config := overrideConfig env.toml.config env.state
  { e with
    config := config
    currentCodeTable := match env.toml.appEncoding with
      | .skipped | .global => config.codeTable
      | .override codeTable => codeTable
    globalCodeTable := config.codeTable }

/-- The config follows a snapshot with a field that has changed. -/
def applyState (state : SharedState) (e : SyncEngine ρ) : SyncEngine ρ :=
  { e with
    last := state.syncField
    config := { e.config with toSyncedFields := state.synced }
    currentCodeTable := state .codeTable
    globalCodeTable :=
      if e.currentCodeTable != state .codeTable then state .codeTable else e.globalCodeTable }

/-- A snapshot is claimed. -/
def claim (state : SharedState) (e : SyncEngine ρ) : SyncEngine ρ :=
  { e with lastEpoch := state .epoch, claimed := state }

/-- The TOML is reloaded when its generation has changed. -/
def reloadIfNew (env : SyncEnv ρ) (state : SharedState) (e : SyncEngine ρ) : SyncEngine ρ :=
  if state .configGeneration = e.lastConfigGeneration then e
  else ReloadFromToml env { e with lastConfigGeneration := state .configGeneration }

/-- C++ `QuickSyncFromSharedState` on the worker thread -/
def QuickSyncFromSharedState (env : SyncEnv ρ) (e : SyncEngine ρ) : SyncEngine ρ :=
  if e.upToDate env.epoch then e
  else match env.state with
    | none => e
    | some state =>
      let e := reloadIfNew env state (e.claim state)
      if e.Seen state then e else e.applyState state

end SyncEngine

section
variable {ρ : Type} {env : SyncEnv ρ} {e : SyncEngine ρ} {state : SharedState}

/-- A call takes one step. -/
def CallStep (env : SyncEnv ρ) (x y : SyncEngine ρ × QuickSync ρ) : Prop :=
  y = x.2.step false env x.1

/-- A call takes some steps. -/
abbrev CallSteps (env : SyncEnv ρ) := Relation.ReflTransGen (@CallStep ρ env)

/-- The fields are stored one by one. -/
lemma storeLast_steps : CallSteps env (e, .storeLast state SyncField.all)
    ({ e with last := state.syncField }, .loadConfig state) := by
  have hlast : Function.update (Function.update (Function.update (Function.update e.last .featureFlags
      (state.syncField .featureFlags)) .spellCheck (state.syncField .spellCheck)) .inputMethod
      (state.syncField .inputMethod)) .codeTable (state.syncField .codeTable) = state.syncField := by
    funext f
    cases f <;> rfl
  rw [← hlast]
  exact .head rfl (.head rfl (.head rfl (.head rfl (.single rfl))))

/-- The config follows the snapshot. -/
lemma applyState_steps :
    CallSteps env (e, .storeLast state SyncField.all) (e.applyState state, .idle) := by
  refine storeLast_steps.trans (.head rfl (.head rfl ?_))
  have htable : state.synced.codeTable = state .codeTable := rfl
  cases hchanged : e.currentCodeTable != state .codeTable with
  | true =>
    refine .head rfl ?_
    simp only [QuickSync.step, htable, hchanged, if_true]
    refine .head rfl (.single ?_)
    simp only [CallStep, QuickSync.step, SyncEngine.applyState, hchanged, if_true, htable]
  | false =>
    refine .single ?_
    have hsame : e.currentCodeTable = state .codeTable := by simpa using hchanged
    simp only [CallStep, QuickSync.step, SyncEngine.applyState, htable, hchanged, Bool.false_eq_true,
      if_false]
    rw [← hsame]

/-- The fields are compared one by one. -/
lemma compare_steps {rest} (hrest : ∀ f ∉ rest, e.last f = state.syncField f) :
    CallSteps env (e, .compare state rest) (if e.Seen state then e else e.applyState state, .idle) := by
  induction rest with
  | nil =>
    have hseen : e.Seen state := fun f => hrest f List.not_mem_nil
    rw [if_pos hseen]
    exact .single rfl
  | cons f rest ih =>
    by_cases hf : state.syncField f = e.last f
    · have hnext : (QuickSync.compare state (f :: rest)).step false env e =
          (e, .compare state rest) := by
        simp only [QuickSync.step, hf, if_true]
      refine .head hnext.symm (ih fun g hg => ?_)
      by_cases hgf : g = f
      · rw [hgf, hf]
      · exact hrest g (by simp [hgf, hg])
    · have hnext : (QuickSync.compare state (f :: rest)).step false env e =
          (e, .storeLast state SyncField.all) := by
        simp only [QuickSync.step, hf, if_false]
      have hnews : ¬e.Seen state := fun hseen => hf (hseen f).symm
      rw [if_neg hnews]
      exact .head hnext.symm applyState_steps

/-- The TOML is reloaded. -/
lemma reload_steps : CallSteps env (e, .loadToml state)
    (e.ReloadFromToml env, .compare state SyncField.all) := by
  refine .head rfl (.head rfl (.head rfl (.head rfl (.head rfl ?_))))
  cases hencoding : env.toml.appEncoding with
  | skipped =>
    refine .single ?_
    simp only [CallStep, QuickSync.step, SyncEngine.ReloadFromToml, hencoding]
  | global | override =>
    refine .head rfl ?_
    simp only [QuickSync.step, hencoding]
    refine .single ?_
    simp only [CallStep, QuickSync.step, SyncEngine.ReloadFromToml, hencoding]

/-- A call that is not interrupted. -/
lemma quickSync_alone : CallSteps env (e, .readEpoch) (e.QuickSyncFromSharedState env, .idle) := by
  rw [SyncEngine.QuickSyncFromSharedState]
  by_cases hknown : e.upToDate env.epoch
  · rw [if_pos hknown]
    refine .head rfl (.single ?_)
    simp only [CallStep, QuickSync.step, hknown, true_or, if_true]
  rw [if_neg hknown]
  have hload : (QuickSync.loadEpoch env.epoch).step false env e = (e, .readEpochAgain) := by
    simp only [QuickSync.step, hknown, Bool.false_eq_true, or_self, if_false]
  have hloadAgain : (QuickSync.loadEpochAgain env.epoch).step false env e = (e, .read e.lastEpoch) := by
    simp only [QuickSync.step, hknown, if_false]
  refine .head rfl (.head hload.symm (.head rfl (.head hloadAgain.symm ?_)))
  cases hstate : env.state with
  | none =>
    refine .single ?_
    simp only [CallStep, QuickSync.step, hstate]
  | some state =>
    have hread : (QuickSync.read e.lastEpoch).step false env e = (e, .claim e.lastEpoch state) := by
      simp only [QuickSync.step, hstate]
    have hclaim : (QuickSync.claim e.lastEpoch state).step false env e =
        (e.claim state, .checkGeneration state) := by
      simp only [QuickSync.step, SyncEngine.claim, if_true]
    have hcompare : ∀ e' : SyncEngine ρ, CallSteps env (e', .compare state SyncField.all)
        (if e'.Seen state then e' else e'.applyState state, .idle) := fun e' =>
      compare_steps fun f hf => absurd (mem_all f) hf
    refine .head hread.symm (.head hclaim.symm (.trans ?_ (hcompare _)))
    rw [SyncEngine.reloadIfNew]
    split
    · next hsame =>
      refine .single ?_
      simp only [CallStep, QuickSync.step, hsame, if_true]
    · next hnew =>
      have hcheck : (QuickSync.checkGeneration state).step false env (e.claim state) =
          (e.claim state, .storeGeneration state) := by
        simp only [QuickSync.step, hnew, if_false]
      exact .head hcheck.symm (.head rfl reload_steps)

end

/-- The shared state, the TOML and the engine. -/
structure LiveConfig (ρ : Type) where
  shared : SharedState
  toml : Toml ρ
  engine : SyncEngine ρ

/-- A process publishes a state or saves the TOML, or the worker thread calls
`QuickSyncFromSharedState`. -/
inductive LiveEvent (ρ : Type) where
  | publish (state : SharedState)
  | saveToml (toml : Toml ρ)
  | QuickSync

namespace LiveConfig

variable {ρ : Type}

/-- What a call reads. -/
def env (s : LiveConfig ρ) : SyncEnv ρ where
  epoch := s.shared .epoch
  state := if s.shared.IsValid then some s.shared else none
  toml := s.toml

/-- One event. -/
def step (s : LiveConfig ρ) : LiveEvent ρ → LiveConfig ρ
  | .publish state => { s with shared := Function.update state .epoch (s.shared .epoch + 2) }
  | .saveToml toml => { s with toml := toml }
  | .QuickSync => { s with engine := s.engine.QuickSyncFromSharedState s.env }

end LiveConfig

/-- The app with the focus has no encoding of its own. -/
def Toml.NoOverride {ρ : Type} (toml : Toml ρ) : Prop :=
  match toml.appEncoding with
  | .override _ => False
  | _ => True

/-- No TOML is saved with an encoding for the app. -/
def LiveEvent.NoOverride {ρ : Type} : LiveEvent ρ → Prop
  | .saveToml toml => toml.NoOverride
  | _ => True

/-- A call that reloads the TOML when no field has changed finds the shared code table there. -/
def TomlFresh {ρ : Type} (s : LiveConfig ρ) : LiveEvent ρ → Prop
  | .QuickSync =>
    ¬s.engine.upToDate (s.shared .epoch) → s.shared.IsValid →
      s.shared .configGeneration ≠ s.engine.lastConfigGeneration → s.engine.Seen s.shared →
        s.toml.config.codeTable = s.shared .codeTable
  | _ => True

instance {ρ : Type} {s : LiveConfig ρ} : ∀ e, Decidable (TomlFresh s e)
  | .QuickSync => inferInstanceAs (Decidable (_ → _ → _ → _ → _))
  | .publish _ | .saveToml _ => inferInstanceAs (Decidable True)

section
variable {ρ : Type} {env : SyncEnv ρ} {e : SyncEngine ρ} {state : SharedState}

/-- A reload publishes the snapshot's fields just when the TOML has its code table. -/
lemma reload_published_iff (hstate : env.state = some state) (hno : env.toml.NoOverride) :
    (e.ReloadFromToml env).Published state ↔ env.toml.config.codeTable = state .codeTable := by
  have hcurrent : (e.ReloadFromToml env).currentCodeTable = env.toml.config.codeTable := by
    simp only [Toml.NoOverride] at hno
    simp only [SyncEngine.ReloadFromToml, hstate]
    split
    · rfl
    · rfl
    · next hencoding =>
      rw [hencoding] at hno
      exact hno.elim
  constructor
  · intro hpublished
    exact hcurrent.symm.trans hpublished.currentCodeTable
  · intro htable
    refine ⟨?_, hcurrent.trans htable⟩
    simp only [SyncEngine.ReloadFromToml, hstate, overrideConfig, SharedState.synced, htable]

/-- A snapshot with a field that has changed is in force. -/
lemma applyState_inForce : (e.applyState state).InForce state := ⟨fun _ => rfl, rfl, rfl⟩

/-- A reload does not look at the fields last seen. -/
lemma reloadIfNew_last : (SyncEngine.reloadIfNew env state e).last = e.last := by
  simp only [SyncEngine.reloadIfNew]
  split <;> rfl

/-- A reload does not change what was claimed. -/
lemma reloadIfNew_claimed : (SyncEngine.reloadIfNew env state e).claimed = e.claimed := by
  simp only [SyncEngine.reloadIfNew]
  split <;> rfl

/-- A claimed snapshot is in force after the call, unless a reload with no news finds another code
table. -/
lemma quickSync_published_iff {old} (hold : e.InForce old) (hnew : ¬e.upToDate env.epoch)
    (hstate : env.state = some state) (hno : env.toml.NoOverride) :
    (e.QuickSyncFromSharedState env).claimed = state ∧
      (e.QuickSyncFromSharedState env).Seen state ∧
      ((e.QuickSyncFromSharedState env).Published state ↔
        (state .configGeneration ≠ e.lastConfigGeneration → e.Seen state →
          env.toml.config.codeTable = state .codeTable)) := by
  have hseen_iff : (SyncEngine.reloadIfNew env state (e.claim state)).Seen state ↔ e.Seen state := by
    simp only [SyncEngine.Seen, reloadIfNew_last]
    rfl
  simp only [SyncEngine.QuickSyncFromSharedState, if_neg hnew, hstate]
  by_cases hseen : e.Seen state
  · rw [if_pos (hseen_iff.2 hseen)]
    refine ⟨reloadIfNew_claimed, hseen_iff.2 hseen, ?_⟩
    have hkept : e.Published state := hold.of_seen hseen
    by_cases hgen : state .configGeneration = e.lastConfigGeneration
    · have hsame : SyncEngine.reloadIfNew env state (e.claim state) = e.claim state := if_pos hgen
      rw [hsame]
      exact iff_of_true ⟨hkept.config, hkept.currentCodeTable⟩ fun h => absurd hgen h
    · have hreload : SyncEngine.reloadIfNew env state (e.claim state) = _ := if_neg hgen
      rw [hreload, reload_published_iff hstate hno]
      exact ⟨fun h _ _ => h, fun h => h hgen hseen⟩
  · rw [if_neg fun h => hseen (hseen_iff.1 h)]
    exact ⟨reloadIfNew_claimed, applyState_inForce.seen,
      iff_of_true applyState_inForce.published fun _ h => absurd h hseen⟩

end

/-- What holds while the TOML is fresh. -/
structure LiveInv {ρ : Type} (s : LiveConfig ρ) : Prop where
  inForce : s.engine.InForce s.engine.claimed
  noOverride : s.toml.NoOverride

section
variable {ρ : Type} {s : LiveConfig ρ} {e : LiveEvent ρ}

/-- A call that claims nothing leaves the engine alone. -/
lemma quickSync_idle (h : s.engine.upToDate (s.shared .epoch) ∨ ¬s.shared.IsValid) :
    s.engine.QuickSyncFromSharedState s.env = s.engine := by
  rw [SyncEngine.QuickSyncFromSharedState]
  by_cases hknown : s.engine.upToDate (s.shared .epoch)
  · exact if_pos hknown
  · have hread : s.env.state = none := if_neg (h.resolve_left hknown)
    rw [hread]
    exact if_neg hknown

/-- The call keeps the snapshot in force just when the TOML is fresh. -/
lemma LiveInv.published_iff (h : LiveInv s) :
    (s.step .QuickSync).engine.Published (s.step .QuickSync).engine.claimed ↔
      TomlFresh s .QuickSync := by
  by_cases hidle : s.engine.upToDate (s.shared .epoch) ∨ ¬s.shared.IsValid
  · have hsame : (s.step .QuickSync).engine = s.engine := quickSync_idle hidle
    rw [hsame]
    refine iff_of_true h.inForce.published fun hnew hvalid => ?_
    exact absurd hidle (not_or.2 ⟨hnew, not_not.2 hvalid⟩)
  · obtain ⟨hnew, hvalid⟩ := not_or.1 hidle
    have hvalid' : s.shared.IsValid := not_not.1 hvalid
    have hstate : s.env.state = some s.shared := if_pos hvalid'
    obtain ⟨hclaimed, -, hiff⟩ := quickSync_published_iff h.inForce hnew hstate h.noOverride
    have hclaimed' : (s.step .QuickSync).engine.claimed = s.shared := hclaimed
    rw [hclaimed']
    exact hiff.trans ⟨fun hfresh _ _ => hfresh, fun hfresh => hfresh hnew hvalid'⟩

/-- The fields last seen are those of the snapshot claimed last. -/
lemma LiveInv.seen (h : LiveInv s) :
    (s.step .QuickSync).engine.Seen (s.step .QuickSync).engine.claimed := by
  by_cases hidle : s.engine.upToDate (s.shared .epoch) ∨ ¬s.shared.IsValid
  · have hsame : (s.step .QuickSync).engine = s.engine := quickSync_idle hidle
    rw [hsame]
    exact h.inForce.seen
  · obtain ⟨hnew, hvalid⟩ := not_or.1 hidle
    have hstate : s.env.state = some s.shared := if_pos (not_not.1 hvalid)
    obtain ⟨hclaimed, hseen, -⟩ := quickSync_published_iff h.inForce hnew hstate h.noOverride
    have hclaimed' : (s.step .QuickSync).engine.claimed = s.shared := hclaimed
    rw [hclaimed']
    exact hseen

/-- What every event preserves. -/
lemma LiveInv.step (h : LiveInv s) (he : e.NoOverride) (hok : TomlFresh s e) : LiveInv (s.step e) := by
  cases e with
  | publish state => exact ⟨h.inForce, h.noOverride⟩
  | saveToml toml => exact ⟨h.inForce, he⟩
  | QuickSync => exact ⟨⟨h.seen, h.published_iff.2 hok⟩, h.noOverride⟩

/-- The first event that fails the condition breaks it. -/
lemma LiveInv.breaks (h : LiveInv s) (hnot : ¬TomlFresh s e) :
    ¬(s.step e).engine.Published (s.step e).engine.claimed := by
  cases e with
  | publish | saveToml => exact absurd trivial hnot
  | QuickSync => exact fun hpublished => hnot (h.published_iff.1 hpublished)

end

/-- The published config is derived from the snapshot claimed last, all along a run, just when no reload
    without news finds another code table in the TOML. -/
theorem config_published_iff {ρ : Type} {s : LiveConfig ρ} {events : List (LiveEvent ρ)}
    (hforce : s.engine.InForce s.engine.claimed) (htoml : s.toml.NoOverride)
    (hevents : ∀ e ∈ events, e.NoOverride) :
    (∀ es, es <+: events → (Machine.run LiveConfig.step s es).engine.Published
      (Machine.run LiveConfig.step s es).engine.claimed) ↔
    Machine.Guarded LiveConfig.step TomlFresh s events := by
  have hdomain : Machine.Guarded LiveConfig.step (fun _ e => e.NoOverride) s events :=
    Machine.guarded_of_forall fun e he _ => hevents e he
  exact @Machine.forall_prefix_iff_guarded _ _ LiveConfig.step _ TomlFresh LiveInv
    (fun s => s.engine.Published s.engine.claimed) s events ⟨hforce, htoml⟩ hdomain
    (fun h => h.inForce.published) (fun h he hok => h.step he hok) (fun h _ hnot => h.breaks hnot)

/-- The engine follows the default state, which the TOML agrees with. -/
def liveStart : LiveConfig Unit where
  shared := SharedState.InitDefaults
  toml := syncedStart.toml
  engine := syncedStart.engine

/-- The default state with another code table. -/
def otherTable : SharedState := Function.update SharedState.InitDefaults .codeTable 1

/-- The other code table is published, then the settings are saved to the TOML without it. -/
def staleToml : List (LiveEvent Unit) :=
  [.publish otherTable, .QuickSync, .publish (Function.update otherTable .configGeneration 1),
    .QuickSync]

/-- A file that is older than the publication. -/
theorem config_published_iff_staleToml :
    (∀ es, es <+: staleToml → (Machine.run LiveConfig.step liveStart es).engine.Published
      (Machine.run LiveConfig.step liveStart es).engine.claimed) ↔
    Machine.Guarded LiveConfig.step TomlFresh liveStart staleToml :=
  config_published_iff ⟨fun _ => rfl, rfl, rfl⟩ trivial (by simp [staleToml, LiveEvent.NoOverride])

/-- A reload brings back a stale code table. -/
theorem stale_codeTable :
    ¬∀ events : List (LiveEvent Unit), (∀ e ∈ events, e.NoOverride) →
      (Machine.run LiveConfig.step liveStart events).engine.Published
        (Machine.run LiveConfig.step liveStart events).engine.claimed := by
  intro h
  have hpublished := h staleToml (by simp [staleToml, LiveEvent.NoOverride])
  have htable := hpublished.currentCodeTable
  revert htable
  decide

end NextKey
