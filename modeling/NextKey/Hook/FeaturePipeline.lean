import NextKey.Engine.RuleRegistry
import NextKey.Hook.KeyDown

/-!
# The feature pipeline

Model of `core/pipeline/Coordinator.cpp` with the gates and features that the constructor of
`HookEngine` registers, of `OutputChannel`, and of the two places where `app/system/HookEngine.cpp`
goes through them: step 2d of `ProcessKeyDown` and `DispatchCoordinator`. The features hand the work to
their executors, which are parameters here; the intents that no feature emits are left out.

In any run, and in whatever order gates and features are registered, the pipeline does what a fixed
chain of the executors does, and no intent outlives its call (`pipelineRun_eq`).
-/

namespace NextKey

open PluginRegistry (Plugin Registry Gate registerAll)

/-- C++ `Pipeline::Stage` -/
inductive PipelineStage where
  | preEngine
  | engine
  | postEngine
  deriving DecidableEq, Repr

/-- The flow-control tags of C++ `Pipeline::Intent` -/
inductive FlowIntent where
  | consumeKey
  | passThrough
  deriving DecidableEq, Repr

/-- C++ `MacroOutcome` -/
inductive MacroOutcome where
  | eat
  | pass
  | fallthrough
  | noOp
  deriving DecidableEq, Repr

/-- What the hook engine does for its features, for keys `κ` in states `σ`, and what its gates
    read. -/
structure Executors (κ σ : Type*) where
  HandleCommitUndo : κ → σ → σ × KeyOutcome
  HandleMacro : κ → σ → σ × MacroOutcome
  /-- The flag says whether the key is eaten. -/
  TryEscRestore : κ → σ → σ × Bool
  ExecuteReplace : κ → σ → σ
  vietnameseMode : σ → Bool
  isEnglishWord : σ → Bool
  isToneEscaped : σ → Bool

/-- A state with the batch of the output channel. -/
structure Channelled (σ : Type*) where
  engine : σ
  batch : List FlowIntent := []

variable {κ σ : Type*}

/-- C++ `IFeature` -/
abbrev Feature (κ σ : Type*) := Plugin PipelineStage κ (Channelled σ)

/-- C++ `OutputChannel::Emit` -/
def Channelled.emit (s : Channelled σ) (intent : FlowIntent) : Channelled σ :=
  { s with batch := s.batch ++ [intent] }

section Features

variable (exec : Executors κ σ)

/-- C++ `EnglishBiasGate` -/
def englishBiasGate : Gate κ (Channelled σ) where
  mask := gateMaskFor .englishBias
  isRaised _ s := !exec.vietnameseMode s.engine

/-- C++ `SpellCheckGate` -/
def spellCheckGate : Gate κ (Channelled σ) where
  mask := gateMaskFor .spellCheck
  isRaised _ s := exec.isEnglishWord s.engine

/-- C++ `ToneEscapeGate` -/
def toneEscapeGate : Gate κ (Channelled σ) where
  mask := gateMaskFor .toneEscape
  isRaised _ s := exec.isToneEscaped s.engine

/-- C++ `BackwardEditFeature` -/
def backwardEditFeature : Feature κ σ where
  bucket := .postEngine
  priority := 10
  requires := gateMaskFor .englishBias
  act k s := ({ s with engine := exec.ExecuteReplace k s.engine }, .handled)

/-- C++ `CommitUndoFeature` -/
def commitUndoFeature : Feature κ σ where
  bucket := .preEngine
  priority := 20
  requires := 0
  act k s :=
    let result := exec.HandleCommitUndo k s.engine
    let s := { s with engine := result.1 }
    match result.2 with
    | .eat => (s.emit .consumeKey, .handled)
    | .pass => (s.emit .passThrough, .veto)
    | .fallthrough => (s, .pass)

/-- C++ `MacroFeature` -/
def macroFeature : Feature κ σ where
  bucket := .preEngine
  priority := 30
  requires := 0
  act k s :=
    let result := exec.HandleMacro k s.engine
    let s := { s with engine := result.1 }
    match result.2 with
    | .eat => (s.emit .consumeKey, .handled)
    | .pass => (s.emit .passThrough, .veto)
    | .fallthrough | .noOp => (s, .pass)

/-- C++ `EscRestoreRawFeature` -/
def escRestoreRawFeature : Feature κ σ where
  bucket := .preEngine
  priority := 40
  requires := 0
  act k s :=
    let result := exec.TryEscRestore k s.engine
    let s := { s with engine := result.1 }
    if result.2 then (s.emit .consumeKey, .handled) else (s, .pass)

/-- The gates that the constructor of `HookEngine` registers. -/
def hookGates : List (Gate κ (Channelled σ)) :=
  [englishBiasGate exec, spellCheckGate exec, toneEscapeGate exec]

/-- The features that the constructor of `HookEngine` registers. -/
def hookFeatures : List (Feature κ σ) :=
  [backwardEditFeature exec, commitUndoFeature exec, escRestoreRawFeature exec, macroFeature exec]

end Features

/-- C++ `Coordinator` -/
structure Coordinator (κ σ : Type*) where
  features : Registry PipelineStage κ (Channelled σ)
  gates : List (Gate κ (Channelled σ))

namespace Coordinator

/-- C++ `Coordinator::HandleKeyAtStage` -/
def HandleKeyAtStage (c : Coordinator κ σ) (stage : PipelineStage) (k : κ) (s : Channelled σ) :
    Channelled σ :=
  (PluginRegistry.dispatch (PluginRegistry.raised c.gates k s) k (c.features stage) s).1

/-- The loop of step 2d over the batch. -/
def outcomeOf : List FlowIntent → KeyOutcome
  | [] => .fallthrough
  | .consumeKey :: _ => .eat
  | .passThrough :: _ => .pass

/-- What the hook engine does between two drains of the channel. -/
inductive Call (κ σ : Type*) where
  /-- Step 2d of `ProcessKeyDown`. -/
  | preEngine (k : κ)
  /-- `DispatchCoordinator` -/
  | replace (k : κ)
  /-- Everything else leaves the channel alone. -/
  | other (f : σ → σ)

/-- One call: the state, and the outcomes of the keys so far. Both places drain the channel. -/
def step (c : Coordinator κ σ) : Channelled σ × List KeyOutcome → Call κ σ →
    Channelled σ × List KeyOutcome
  | (s, outcomes), .preEngine k =>
    let s := c.HandleKeyAtStage .preEngine k s
    ({ s with batch := [] }, outcomeOf s.batch :: outcomes)
  | (s, outcomes), .replace k =>
    ({ c.HandleKeyAtStage .postEngine k s with batch := [] }, outcomes)
  | (s, outcomes), .other f => ({ s with engine := f s.engine }, outcomes)

end Coordinator

namespace Executors

variable (exec : Executors κ σ)

/-- The macros, and the raw input when they leave the key. -/
def expandOrRestore (k : κ) (s : σ) : σ × KeyOutcome :=
  let expanded := exec.HandleMacro k s
  match expanded.2 with
  | .eat => (expanded.1, .eat)
  | .pass => (expanded.1, .pass)
  | .fallthrough | .noOp =>
    let restored := exec.TryEscRestore k expanded.1
    (restored.1, if restored.2 then .eat else .fallthrough)

/-- Step 2d without the pipeline: the undo of a commit, the macros, the raw input. -/
def preEngine (k : κ) (s : σ) : σ × KeyOutcome :=
  let undone := exec.HandleCommitUndo k s
  if undone.2 ≠ .fallthrough then undone else exec.expandOrRestore k undone.1

/-- `DispatchCoordinator` without the pipeline. -/
def replace (k : κ) (s : σ) : σ := if exec.vietnameseMode s then exec.ExecuteReplace k s else s

/-- One call, without the pipeline. -/
def step : σ × List KeyOutcome → Coordinator.Call κ σ → σ × List KeyOutcome
  | (s, outcomes), .preEngine k => ((exec.preEngine k s).1, (exec.preEngine k s).2 :: outcomes)
  | (s, outcomes), .replace k => (exec.replace k s, outcomes)
  | (s, outcomes), .other f => (f s, outcomes)

variable {exec} {k : κ} {s : σ}

/-- The order in which a stage goes through its features. -/
def featuresAt (exec : Executors κ σ) : PipelineStage → List (Feature κ σ)
  | .preEngine => [commitUndoFeature exec, macroFeature exec, escRestoreRawFeature exec]
  | .engine => []
  | .postEngine => [backwardEditFeature exec]

/-- The coordinator of the hook engine, with the registrations in any order. -/
structure Registered (exec : Executors κ σ) (c : Coordinator κ σ) : Prop where
  features : ∃ features, features.Perm (hookFeatures exec) ∧ c.features = registerAll features
  gates : c.gates.Perm (hookGates exec)

/-- The features of a stage. -/
lemma Registered.features_eq {c : Coordinator κ σ} (h : Registered exec c) (stage : PipelineStage) :
    c.features stage = exec.featuresAt stage := by
  obtain ⟨features, hperm, hfeatures⟩ := h.features
  rw [hfeatures]
  have hsorted : (hookFeatures exec).filter (·.bucket = stage) = (match stage with
      | .preEngine => [commitUndoFeature exec, escRestoreRawFeature exec, macroFeature exec]
      | .engine => []
      | .postEngine => [backwardEditFeature exec]) := by
    cases stage <;> rfl
  refine PluginRegistry.registerAll_eq ((hperm.filter _).trans ?_) ?_
  · rw [hsorted]
    cases stage with
    | preEngine => exact (List.Perm.swap _ _ _).cons _
    | engine => exact .refl _
    | postEngine => exact .refl _
  · cases stage <;>
      simp [featuresAt, commitUndoFeature, macroFeature, escRestoreRawFeature]

/-- The intent that stands for an outcome. -/
def intentsOf : KeyOutcome → List FlowIntent
  | .eat => [.consumeKey]
  | .pass => [.passThrough]
  | .fallthrough => []

/-- The raw input comes last. -/
lemma dispatch_escRestoreRawFeature {mask : BitVec 32} :
    (PluginRegistry.dispatch mask k [escRestoreRawFeature exec] { engine := s }).1 =
      { engine := (exec.TryEscRestore k s).1
        batch := intentsOf (if (exec.TryEscRestore k s).2 then .eat else .fallthrough) } := by
  cases heaten : (exec.TryEscRestore k s).2 with
  | true =>
    have hact : (escRestoreRawFeature exec).act k { engine := s } =
        ({ engine := (exec.TryEscRestore k s).1, batch := [.consumeKey] }, .handled) := by
      simp [escRestoreRawFeature, heaten, Channelled.emit]
    rw [PluginRegistry.dispatch_of_stop BitVec.zero_and hact nofun]
    rfl
  | false =>
    have hact : (escRestoreRawFeature exec).act k { engine := s } =
        ({ engine := (exec.TryEscRestore k s).1 }, .pass) := by
      simp [escRestoreRawFeature, heaten]
    rw [PluginRegistry.dispatch_of_pass BitVec.zero_and hact]
    rfl

/-- The macros, and the raw input behind them. -/
lemma dispatch_macroFeature {mask : BitVec 32} :
    (PluginRegistry.dispatch mask k [macroFeature exec, escRestoreRawFeature exec]
        { engine := s }).1 =
      { engine := (exec.expandOrRestore k s).1
        batch := intentsOf (exec.expandOrRestore k s).2 } := by
  have hpass (h : (macroFeature exec).act k { engine := s } =
      ({ engine := (exec.HandleMacro k s).1 }, .pass)) :
      (PluginRegistry.dispatch mask k [macroFeature exec, escRestoreRawFeature exec]
        { engine := s }).1 = (PluginRegistry.dispatch mask k [escRestoreRawFeature exec]
        { engine := (exec.HandleMacro k s).1 }).1 :=
    congrArg Prod.fst (PluginRegistry.dispatch_of_pass BitVec.zero_and h)
  have hstop {intent : FlowIntent} (result : PluginRegistry.Result) (hresult : result ≠ .pass)
      (h : (macroFeature exec).act k { engine := s } =
        ({ engine := (exec.HandleMacro k s).1, batch := [intent] }, result)) :
      (PluginRegistry.dispatch mask k [macroFeature exec, escRestoreRawFeature exec]
        { engine := s }).1 = { engine := (exec.HandleMacro k s).1, batch := [intent] } :=
    congrArg Prod.fst (PluginRegistry.dispatch_of_stop BitVec.zero_and h hresult)
  unfold expandOrRestore
  dsimp only
  cases hmacro : (exec.HandleMacro k s).2 with
  | eat => exact hstop .handled nofun (by simp [macroFeature, hmacro, Channelled.emit])
  | pass => exact hstop .veto nofun (by simp [macroFeature, hmacro, Channelled.emit])
  | fallthrough =>
    rw [hpass (by simp [macroFeature, hmacro])]
    exact dispatch_escRestoreRawFeature
  | noOp =>
    rw [hpass (by simp [macroFeature, hmacro])]
    exact dispatch_escRestoreRawFeature

/-- The features of the first stage need no gate, and one of them at most emits an intent. -/
lemma dispatch_preEngine {mask : BitVec 32} :
    (PluginRegistry.dispatch mask k (exec.featuresAt .preEngine) { engine := s }).1 =
      { engine := (exec.preEngine k s).1, batch := intentsOf (exec.preEngine k s).2 } := by
  unfold featuresAt preEngine
  dsimp only
  cases hundo : (exec.HandleCommitUndo k s).2 with
  | eat =>
    have hact : (commitUndoFeature exec).act k { engine := s } =
        ({ engine := (exec.HandleCommitUndo k s).1, batch := [.consumeKey] }, .handled) := by
      simp [commitUndoFeature, hundo, Channelled.emit]
    rw [PluginRegistry.dispatch_of_stop BitVec.zero_and hact nofun, if_pos nofun, hundo]
    rfl
  | pass =>
    have hact : (commitUndoFeature exec).act k { engine := s } =
        ({ engine := (exec.HandleCommitUndo k s).1, batch := [.passThrough] }, .veto) := by
      simp [commitUndoFeature, hundo, Channelled.emit]
    rw [PluginRegistry.dispatch_of_stop BitVec.zero_and hact nofun, if_pos nofun, hundo]
    rfl
  | fallthrough =>
    have hact : (commitUndoFeature exec).act k { engine := s } =
        ({ engine := (exec.HandleCommitUndo k s).1 }, .pass) := by
      simp [commitUndoFeature, hundo]
    rw [PluginRegistry.dispatch_of_pass BitVec.zero_and hact, if_neg (not_not.2 rfl)]
    exact dispatch_macroFeature

/-- The one gate that a feature asks for. -/
lemma englishBias_raised {batch : List FlowIntent} :
    gateMaskFor .englishBias &&& PluginRegistry.raised (hookGates exec) k { engine := s, batch } = 0 ↔
      exec.vietnameseMode s = true := by
  simp only [PluginRegistry.raised, hookGates, List.foldl, englishBiasGate, spellCheckGate,
    toneEscapeGate]
  cases exec.vietnameseMode s <;> cases exec.isEnglishWord s <;> cases exec.isToneEscaped s <;> decide

/-- The stage behind the engine. -/
lemma dispatch_postEngine :
    (PluginRegistry.dispatch (PluginRegistry.raised (hookGates exec) k { engine := s }) k
      (exec.featuresAt .postEngine) { engine := s }).1 = { engine := exec.replace k s } := by
  unfold featuresAt replace
  by_cases hmode : exec.vietnameseMode s = true
  · have hact : (backwardEditFeature exec).act k { engine := s } =
        ({ engine := exec.ExecuteReplace k s }, .handled) := rfl
    rw [PluginRegistry.dispatch_of_stop (englishBias_raised.2 hmode) hact nofun, if_pos hmode]
  · rw [PluginRegistry.dispatch_of_gated (englishBias_raised.not.2 hmode), if_neg hmode]
    rfl

/-- One call of the coordinator. -/
lemma Registered.step_eq {c : Coordinator κ σ} (h : Registered exec c) (outcomes : List KeyOutcome)
    (call : Coordinator.Call κ σ) :
    c.step ({ engine := s }, outcomes) call =
      ({ engine := (exec.step (s, outcomes) call).1 }, (exec.step (s, outcomes) call).2) := by
  cases call with
  | preEngine k =>
    have hstage : c.HandleKeyAtStage .preEngine k { engine := s } =
        { engine := (exec.preEngine k s).1, batch := intentsOf (exec.preEngine k s).2 } := by
      rw [Coordinator.HandleKeyAtStage, h.features_eq, dispatch_preEngine]
    have houtcome : Coordinator.outcomeOf (intentsOf (exec.preEngine k s).2) =
        (exec.preEngine k s).2 := by
      cases (exec.preEngine k s).2 <;> rfl
    simp only [Coordinator.step, Executors.step, hstage, houtcome]
  | replace k =>
    have hstage : c.HandleKeyAtStage .postEngine k { engine := s } = { engine := exec.replace k s } := by
      rw [Coordinator.HandleKeyAtStage, h.features_eq, PluginRegistry.raised_perm h.gates,
        dispatch_postEngine]
    simp only [Coordinator.step, Executors.step, hstage]
  | other f => rfl

end Executors

/-- The pipeline does what the chain of the executors does, and leaves no intent in the channel. -/
theorem pipelineRun_eq {exec : Executors κ σ} {c : Coordinator κ σ} (h : exec.Registered c)
    (outcomes : List KeyOutcome) (s : σ) (calls : List (Coordinator.Call κ σ)) :
    Machine.run c.step ({ engine := s }, outcomes) calls =
      ({ engine := (Machine.run exec.step (s, outcomes) calls).1 },
        (Machine.run exec.step (s, outcomes) calls).2) := by
  induction calls generalizing s outcomes with
  | nil => rfl
  | cons call calls ih =>
    rw [Machine.run_cons, Machine.run_cons, h.step_eq]
    exact ih _ _

/-- A key for both stages: what `ProcessKeyDown` handles, and what `DispatchCoordinator` shows. -/
structure PipelineKey where
  down : HookKeyDown
  rendered : List Char
  reinjectVk : Option Nat

section Locale

variable [WideLocale]

namespace HookTyping

/-- The hook engine as the executor of its features; no key of the model cancels the composition. -/
def executors [WideCtype] (env : HookConfig) (context : HookContext) (typed : Nat → List Char) :
    Executors PipelineKey HookTyping where
  HandleCommitUndo k st := st.HandleCommitUndoFsm env k.down
  HandleMacro k st :=
    let result := st.HandleMacro env k.down
    (result.1, match result.2 with
      | .eat => .eat
      | .pass => .pass
      | .fallthrough => .fallthrough)
  TryEscRestore _ st := (st, false)
  ExecuteReplace k st :=
    { st with
      toComposing := ReplaceComposition context typed st.toComposing k.rendered k.reinjectVk }
  vietnameseMode _ := context.vietnameseMode
  isEnglishWord st := st.engine.isEnglishWord
  isToneEscaped st := st.engine.escape ≠ .none

variable {env : HookConfig} {context : HookContext} {typed : Nat → List Char} {st : HookTyping}

/-- The first stages of `ProcessKeyDown` are the chain behind the pipeline. -/
lemma stages_eq [WideCtype] {k : PipelineKey} :
    st.stages env k.down = andThen ((executors env context typed).preEngine k st)
      fun st => (st.HandlePreDispatch env k.down).DispatchKeyAction env k.down := by
  unfold stages
  congr 1
  unfold Executors.preEngine Executors.expandOrRestore executors andThen
  dsimp only
  by_cases hundo : (st.HandleCommitUndoFsm env k.down).2 = .fallthrough
  · rw [if_pos hundo, if_neg (not_not.2 hundo)]
    cases hmacro : ((st.HandleCommitUndoFsm env k.down).1.HandleMacro env k.down).2 <;>
      exact Prod.ext rfl hmacro
  · rw [if_neg hundo, if_pos hundo]

/-- `DispatchCoordinator` is the last stage. -/
lemma replace_eq [WideCtype] {k : PipelineKey} :
    (((executors env context typed).replace k st).toComposing) =
      DispatchCoordinator context typed st.toComposing k.rendered k.reinjectVk := by
  unfold Executors.replace DispatchCoordinator
  exact apply_ite toComposing _ _ _

end HookTyping

end Locale

section Ascii

attribute [local instance] WideLocale.ascii WideCtype.ascii

/-- Telex without macros, in a window of the clipboard. -/
def clipboardExecutors : Executors PipelineKey HookTyping :=
  HookTyping.executors { config := {}, macroTable := [], mapper := .ascii } ansiContext fun _ => ['a']

/-- The key A is a letter. -/
lemma isLetterVk_letter : isLetterVk 0x41 := rfl

/-- The letter A: its first stage, the engine, and its last stage. -/
def letterCalls : List (Coordinator.Call PipelineKey HookTyping) :=
  let k : PipelineKey :=
    { down := { key := .letter 0x41 isLetterVk_letter }, rendered := ['a'], reinjectVk := none }
  [.preEngine k, .other fun st => { st with engine := st.engine.pushChar {} 'a' }, .replace k]

/-- The features and gates as the constructor registers them. -/
theorem pipelineRun_letter :
    Machine.run (Coordinator.step
        { features := registerAll (hookFeatures clipboardExecutors)
          gates := hookGates clipboardExecutors })
        ({ engine := { toComposing := typedA } }, []) letterCalls =
      ({ engine := (Machine.run clipboardExecutors.step ({ toComposing := typedA }, []) letterCalls).1 },
        (Machine.run clipboardExecutors.step ({ toComposing := typedA }, []) letterCalls).2) :=
  pipelineRun_eq ⟨⟨_, .refl _, rfl⟩, .refl _⟩ [] _ letterCalls

end Ascii

end NextKey
