import NextKey.Engine.Emptied
import NextKey.Macro.Erasure

/-!
# The history of a word

The keys of the word that is being composed are recorded, and the undo of a commit types the record into
the engine again. Model of the other places in `app/system/HookEngine.cpp` that write the engine or its
history: `TryEscRestoreRaw`, `HandleGhostChar`, `ResetComposition` and `ApplyConfigOnHookThread`.
Everything else that the hook does leaves both alone, and may happen at any time.

The record replays to the word unless the engine was reset without it: by Escape, by a change of the
configuration behind an erased word, or when a committed word is replayed into an engine that an erased
word has left something in.
-/

namespace NextKey

open EngineState

section Locale

variable [WideLocale]

namespace EngineState

variable {cfg : TypingConfig} {st st' : EngineState}

/-- Two engines that are the same, or both as good as reset. -/
def Alike (cfg : TypingConfig) (st st' : EngineState) : Prop :=
  st = st' ∨ AlmostReset cfg st ∧ AlmostReset cfg st'

omit [WideLocale] in
/-- A fresh engine is as good as reset. -/
lemma AlmostReset.init : AlmostReset cfg {} := ⟨false, false, rfl, .inl rfl⟩

/-- Engines that are alike stay so. -/
lemma Alike.step (e : EngineEvent) (h : Alike cfg st st') :
    Alike cfg (st.step cfg e) (st'.step cfg e) := by
  obtain rfl | ⟨ha, ha'⟩ := h
  · exact .inl rfl
  · cases e with
    | push c => exact .inl (ha.pushChar.trans ha'.pushChar.symm)
    | back =>
      have hback {st : EngineState} (ha : AlmostReset cfg st) : st.step cfg .back = st := by
        obtain ⟨_, _, rfl, -⟩ := ha
        rfl
      rw [hback ha, hback ha']
      exact .inr ⟨ha, ha'⟩

/-- Engines that are alike show the same. -/
lemma Alike.observe (h : Alike cfg st st') : st.observe cfg = st'.observe cfg := by
  obtain rfl | ⟨ha, ha'⟩ := h
  · rfl
  · exact (ha.obsEq []).trans (ha'.obsEq []).symm

end EngineState

namespace HookTyping

variable (env : HookConfig) (st : HookTyping)

/-- The keystrokes of the history, typed into a fresh engine. -/
def replayHistory : EngineState := st.commitState.inputHistory.foldl (replayChar env) {}

/-- C++ `TryEscRestoreRaw`; the commit may be older than `kCommitUndoTimeoutMs` -/
def TryEscRestoreRaw (expired : Bool) : HookTyping × KeyOutcome :=
  if 0 < st.engine.count then
    let raw := st.engine.peekRaw
    if raw = [] then (st, .fallthrough)
    else
      ({ st with
          screen := st.screen.rdrop st.engine.count ++ raw
          engine := {}
          rawMacroBuffer := []
          tempMacroOff := false }, .eat)
  else if st.commitState.phase = .primed then
    match st.commitState.stack with
    | [] => (st, .fallthrough)
    | top :: _ =>
      if expired then (st.CancelCommitUndo, .fallthrough)
      else if top.rawInput = [] then (st, .fallthrough)
      else
        ({ st with
            screen := st.screen.rdrop top.text.length ++ top.rawInput
            rawMacroBuffer := []
            tempMacroOff := false }.CancelCommitUndo, .eat)
  else (st, .fallthrough)

/-- C++ `HandleGhostChar`, in a Chromium-class app; the window has the character already -/
def HandleGhostChar (ch : Char) : HookTyping :=
  if AsciiKey ch then
    let engine := st.engine.pushChar env.config ch
    { st with
      engine
      previousComposition := engine.peek
      commitState := st.commitState.AppendHistory ch }
  else st

/-- C++ `ResetComposition` -/
def ResetComposition : HookTyping := { st.ClearWordState.CancelCommitUndo with autoCapState := .idle }

/-- The history replays to an engine like the one that composes. -/
def Recorded : Prop := Alike env.config st.engine (st.replayHistory env)

variable {env st}

/-- A character of the history is replayed as a key or as Backspace. -/
lemma replayChar_eq (engine : EngineState) (ch : Char) :
    replayChar env engine ch =
      engine.step env.config (if ch = kBackspaceMarker then .back else .push ch) := by
  unfold replayChar
  split <;> rfl

/-- A history takes engines that are alike to such. -/
lemma alike_foldl {engine engine' : EngineState} (h : Alike env.config engine engine')
    (history : List Char) :
    Alike env.config (history.foldl (replayChar env) engine)
      (history.foldl (replayChar env) engine') := by
  induction history generalizing engine engine' with
  | nil => exact h
  | cons ch rest ih =>
    apply ih
    rw [replayChar_eq, replayChar_eq]
    exact h.step _

/-- Neither the engine nor the history is written. -/
lemma Recorded.keep {st' : HookTyping} (h : st.Recorded env) (hengine : st'.engine = st.engine)
    (hhistory : st'.commitState.inputHistory = st.commitState.inputHistory) : st'.Recorded env := by
  unfold Recorded replayHistory at h ⊢
  rwa [hengine, hhistory]

/-- A keystroke goes to both. -/
lemma Recorded.append {st' : HookTyping} (h : st.Recorded env) {ch : Char}
    (hengine : st'.engine = replayChar env st.engine ch)
    (hhistory : st'.commitState.inputHistory = st.commitState.inputHistory ++ [ch]) :
    st'.Recorded env := by
  unfold Recorded replayHistory at h ⊢
  rw [hengine, hhistory, List.foldl_append, List.foldl_cons, List.foldl_nil, replayChar_eq,
    replayChar_eq]
  exact h.step _

/-- No upper case is the marker. -/
lemma towupper_ne_marker {c : Char} (hc : AsciiKey c) (h : c ≠ kBackspaceMarker) :
    towupper c ≠ kBackspaceMarker := by
  rw [WideLocale.towupper_ascii c hc.2]
  exact AsciiKey.forall (P := fun c => c ≠ kBackspaceMarker → c.toUpper ≠ kBackspaceMarker)
    (by decide +kernel) hc h

/-- No lower case is the marker. -/
lemma towlower_ne_marker {c : Char} (hc : AsciiKey c) (h : c ≠ kBackspaceMarker) :
    towlower c ≠ kBackspaceMarker := by
  rw [WideLocale.towlower_ascii c hc.2]
  exact AsciiKey.forall (P := fun c => c ≠ kBackspaceMarker → c.toLower ≠ kBackspaceMarker)
    (by decide +kernel) hc h

omit [WideLocale] in
/-- A character code from the blank on. -/
lemma ofNat_ne_marker {n : Nat} (h : 0x20 ≤ n) : Char.ofNat n ≠ kBackspaceMarker := by
  intro heq
  have hcode := congrArg Char.toNat heq
  by_cases hvalid : n.isValidChar
  · rw [Char.ofNat, dif_pos hvalid] at hcode
    change n = 8 at hcode
    omega
  · rw [Char.ofNat, dif_neg hvalid] at hcode
    change 0 = 8 at hcode
    omega

omit [WideLocale] in
/-- No digit is the marker. -/
lemma digit_ne_marker {vkCode : Nat} (h : isDigitVk vkCode) : Char.ofNat vkCode ≠ kBackspaceMarker :=
  ofNat_ne_marker (by have := (of_decide_eq_true h).1; omega)

/-- No letter key is the marker. -/
lemma originalCh_ne_marker {vkCode : Nat} {shift capsLock : Bool} (hvk : isLetterVk vkCode) :
    originalCh vkCode shift capsLock ≠ kBackspaceMarker := by
  have hcode : Char.ofNat vkCode ≠ kBackspaceMarker :=
    ofNat_ne_marker (by have := (of_decide_eq_true hvk).1; omega)
  unfold originalCh
  split
  · exact hcode
  · exact towlower_ne_marker (letterVk_ascii hvk) hcode

/-- No capitalized letter is the marker. -/
lemma autoCapitalize_ne_marker {context : TypingContext} {composing : Composing} {letter : Char}
    (hc : AsciiKey letter) (h : letter ≠ kBackspaceMarker) :
    (autoCapitalize context composing letter).1 ≠ kBackspaceMarker := by
  unfold autoCapitalize
  split
  · exact iteInduction (motive := (· ≠ kBackspaceMarker)) (fun _ => towupper_ne_marker hc h)
      fun _ => h
  · exact h

/-- What is not the marker is replayed as a key. -/
lemma replayChar_push {engine : EngineState} {ch : Char} (h : ch ≠ kBackspaceMarker) :
    replayChar env engine ch = engine.pushChar env.config ch := if_neg h

variable {k : HookKeyDown}

/-- A letter is recorded. -/
lemma Recorded.HandleAlphaKey (h : st.Recorded env) {vkCode : Nat} (hvk : isLetterVk vkCode) :
    (st.HandleAlphaKey env k vkCode).Recorded env :=
  h.append (replayChar_push
    (autoCapitalize_ne_marker (originalCh_ascii hvk) (originalCh_ne_marker hvk))).symm rfl

/-- A key that is pushed is recorded. -/
lemma Recorded.pushKey (h : st.Recorded env) {ch : Char} (hch : ch ≠ kBackspaceMarker) :
    (st.pushKey env ch).Recorded env := h.append (replayChar_push hch).symm rfl

/-- A ghost character is recorded. -/
lemma Recorded.HandleGhostChar (h : st.Recorded env) {ch : Char} (hch : ch ≠ kBackspaceMarker) :
    (st.HandleGhostChar env ch).Recorded env := by
  unfold HookTyping.HandleGhostChar
  split
  · exact h.append (replayChar_push hch).symm rfl
  · exact h

/-- A Backspace is recorded. -/
lemma Recorded.HandleBackspace (h : st.Recorded env) : (st.HandleBackspace env).Recorded env := by
  have happend (st' : HookTyping) (hengine : st'.engine = st.engine.backspace env.config)
      (hhistory : st'.commitState.inputHistory = st.commitState.inputHistory ++ [kBackspaceMarker]) :
      st'.Recorded env := h.append (hengine.trans (if_pos rfl).symm) hhistory
  unfold HookTyping.HandleBackspace
  dsimp only
  split
  · exact happend _ rfl rfl
  · split
    · exact happend _ rfl rfl
    · exact happend _ rfl rfl

/-- The undo of a commit will replay a word. -/
def Replays (env : HookConfig) (st : HookTyping) (k : HookKeyDown) : Prop :=
  st.commitState.phase = .primed ∧ st.engine.count = 0 ∧ st.commitState.stack ≠ [] ∧
    (st.HandleCommitUndoFsm env k).2 ≠ .fallthrough

/-- A committed word that is replayed into an engine as good as reset is recorded. -/
lemma Recorded.ReplayCommittedChars (h : st.Recorded env)
    (hreset : st.commitState.stack ≠ [] → AlmostReset env.config st.engine) :
    (st.ReplayCommittedChars env).Recorded env := by
  unfold HookTyping.ReplayCommittedChars
  cases hstack : st.commitState.stack with
  | nil => exact h.keep rfl rfl
  | cons entry rest =>
    rw [hstack] at hreset
    exact alike_foldl (.inr ⟨hreset (by simp), .init⟩) entry.history

/-- So is what a primed undo replays. -/
lemma Recorded.primedKey (h : st.Recorded env)
    (hreset : (st.primedKey env k).2 ≠ .fallthrough → st.commitState.stack ≠ [] →
      AlmostReset env.config st.engine) :
    (st.primedKey env k).1.Recorded env := by
  unfold HookTyping.primedKey at hreset ⊢
  dsimp only at hreset ⊢
  split
  · exact h.keep rfl rfl
  · next hguard =>
    rw [if_neg hguard] at hreset
    cases hkey : k.key with
    | letter vkCode hvk =>
      rw [hkey] at hreset
      dsimp only at hreset ⊢
      split
      · next hexempt =>
        rw [if_pos hexempt] at hreset
        exact (h.ReplayCommittedChars (hreset (by simp))).HandleAlphaKey hvk
      · exact h.keep rfl rfl
    | back =>
      rw [hkey] at hreset
      exact (h.ReplayCommittedChars (hreset (by simp))).HandleBackspace
    | trigger vkCode macroChar typed printable =>
      rw [hkey] at hreset
      dsimp only at hreset ⊢
      split
      · next hdigit =>
        rw [if_pos hdigit] at hreset
        have hreplayed := h.ReplayCommittedChars (hreset (by split <;> simp))
        split
        · exact hreplayed.keep rfl rfl
        · exact hreplayed.pushKey (digit_ne_marker hdigit.2.1)
      · split
        · exact h
        · exact h.keep rfl rfl

/-- So is what the undo replays. -/
lemma Recorded.HandleCommitUndoFsm (h : st.Recorded env)
    (hreset : st.Replays env k → AlmostReset env.config st.engine) :
    (st.HandleCommitUndoFsm env k).1.Recorded env := by
  have hexpire : (st.expireReady k).Recorded env := by
    unfold expireReady
    split
    · exact h.keep rfl rfl
    · exact h
  have hready : ((st.expireReady k).readyKey k).Recorded env := by
    unfold readyKey
    split
    · split
      · exact hexpire.keep rfl rfl
      · exact hexpire.keep rfl rfl
    · exact hexpire
  unfold HookTyping.HandleCommitUndoFsm
  dsimp only
  split
  · split
    · exact hexpire.keep rfl rfl
    · exact hexpire.keep rfl rfl
  · next hphase hcount =>
    -- a commit that is still primed is not too old
    have hsame : st.expireReady k = st := by
      unfold expireReady at hphase ⊢
      split at hphase
      · cases hphase
      · next hfresh => exact if_neg hfresh
    have hfsm : st.HandleCommitUndoFsm env k = st.primedKey env k := by
      unfold HookTyping.HandleCommitUndoFsm
      rw [hsame] at hphase hcount ⊢
      simp only [hphase, hcount]
    rw [hsame] at hphase hcount ⊢
    refine h.primedKey fun htaken hstack => hreset ⟨hphase, of_decide_eq_true hcount, hstack, ?_⟩
    rw [hfsm]
    exact htaken
  · exact hready

omit [WideLocale] in
/-- The engine takes no Backspace character from a trigger. -/
lemma engineChar_ne_marker {vkCode : Nat} {macroChar : UInt16} {ch : Char}
    (hprintable : 0x20 ≤ macroChar.toNat) (h : st.engineChar env k vkCode macroChar = some ch) :
    ch ≠ kBackspaceMarker := by
  unfold engineChar at h
  split at h
  · cases h
    decide
  · split at h
    · cases h
      decide
    · split at h
      · next hdigit =>
        cases h
        exact digit_ne_marker hdigit.2.1
      · split at h
        · dsimp only at h
          split at h
          · cases h
            exact ofNat_ne_marker hprintable
          · cases h
        · cases h

/-- The Backspace key is recorded. -/
lemma Recorded.backKey (h : st.Recorded env) : (st.backKey env).1.Recorded env := by
  unfold HookTyping.backKey
  split
  · have hbuffer :
        ({ st with rawMacroBuffer := st.rawMacroBuffer.dropLast } : HookTyping).Recorded env :=
      h.keep rfl rfl
    exact hbuffer.HandleBackspace
  · split
    · exact h.keep rfl rfl
    · exact h

/-- One after the other. -/
lemma Recorded.andThen {result : HookTyping × KeyOutcome}
    {next : HookTyping → HookTyping × KeyOutcome} (h : result.1.Recorded env)
    (hnext : ∀ st' : HookTyping, st'.Recorded env → (next st').1.Recorded env) :
    (HookTyping.andThen result next).1.Recorded env := by
  unfold HookTyping.andThen
  split
  · exact hnext _ h
  · exact h

/-- A commit whose raw text is restored is forgotten, and a live word is not restored. -/
lemma Recorded.TryEscRestoreRaw (h : st.Recorded env) (expired : Bool)
    (hlive : 0 < st.engine.count → st.engine.peekRaw = []) :
    (st.TryEscRestoreRaw expired).1.Recorded env := by
  unfold HookTyping.TryEscRestoreRaw
  dsimp only
  split
  · next hcount =>
    rw [if_pos (hlive hcount)]
    exact h
  · split
    · split
      · exact h
      · split
        · exact h.keep rfl rfl
        · split
          · exact h
          · exact h.keep rfl rfl
    · exact h

variable [WideCtype]

/-- A macro leaves the record true. -/
lemma Recorded.HandleMacro (h : st.Recorded env) : (st.HandleMacro env k).1.Recorded env := by
  have htrack : (st.track env k).Recorded env := by
    unfold track
    split
    · exact h.keep rfl rfl
    · exact h
  unfold HookTyping.HandleMacro
  dsimp only
  split
  · exact .inl rfl
  · exact htrack

/-- A commit begins the record anew. -/
lemma recorded_commitKey (macroChar : UInt16) : (st.commitKey env macroChar).Recorded env := by
  have hcommitted : st.CommitComposition.Recorded env := .inl rfl
  have hready (st' : HookTyping) (h : st'.Recorded env) :
      (if st'.commitState.pushedToStack then st'.SetCommitUndoReady else st').Recorded env := by
    split
    · exact h.keep rfl rfl
    · exact h
  apply hready
  split
  · exact hcommitted.keep rfl rfl
  · exact hcommitted

/-- A key that composes is recorded. -/
lemma Recorded.composeKey (h : st.Recorded env) : (st.composeKey env k).1.Recorded env := by
  unfold HookTyping.composeKey
  cases hkey : k.key with
  | letter vkCode hvk => exact h.HandleAlphaKey hvk
  | back => exact h.backKey
  | trigger vkCode macroChar typed printable =>
    dsimp only
    cases hch : st.engineChar env k vkCode macroChar with
    | some ch => exact h.pushKey (engineChar_ne_marker printable hch)
    | none =>
      dsimp only
      split
      · exact recorded_commitKey macroChar
      · exact h

/-- Every key that is dispatched is recorded. -/
lemma Recorded.DispatchKeyAction (h : st.Recorded env) :
    (st.DispatchKeyAction env k).1.Recorded env := by
  unfold HookTyping.DispatchKeyAction
  split
  · show (st.bypassedKey k).Recorded env
    unfold bypassedKey
    split
    · exact h.keep rfl rfl
    · split
      · exact h.keep rfl rfl
      · exact h
    · exact h
  · split
    · exact h.keep rfl rfl
    · exact h
    · exact h.keep rfl rfl
    · exact h.composeKey

/-- A key. -/
theorem Recorded.ProcessKeyDown (h : st.Recorded env)
    (hreset : st.Replays env k → AlmostReset env.config st.engine) :
    (st.ProcessKeyDown env k).Recorded env := by
  have hstages : (st.stages env k).1.Recorded env := by
    refine ((h.HandleCommitUndoFsm hreset).andThen fun st' h' => h'.HandleMacro).andThen
      fun st' h' => ?_
    obtain ⟨autoCapState, hpre⟩ := @HandlePreDispatch_eq env st' k
    have hsame : (st'.HandlePreDispatch env k).Recorded env := by
      rw [hpre]
      exact h'.keep rfl rfl
    exact hsame.DispatchKeyAction
  unfold HookTyping.ProcessKeyDown settle
  split
  · exact hstages
  · exact hstages.keep rfl rfl

end HookTyping

variable [WideCtype]

/-- The settings and the fields of the hook. -/
structure Hook where
  config : HookConfig
  typing : HookTyping

/-- What happens to the hook. -/
inductive HookEvent where
  | key (k : HookKeyDown)
  | cancelComposition (expired : Bool)
  | ghostChar (ch : Char)
  /-- A key that types nothing, or a switch of the mode, behind a word. -/
  | commitComposition
  /-- A click, a shortcut, another window, the end of an expansion. -/
  | resetComposition
  | applyConfig (config : HookConfig)
  /-- Whatever does not write the engine, its settings and its history. -/
  | other (hook : Hook)

namespace Hook

/-- The hook when it starts. -/
def start (config : HookConfig) : Hook where
  config
  typing := { engine := {}, previousComposition := [], autoCapState := .idle, screen := [] }

/-- One event. -/
def step (hook : Hook) : HookEvent → Hook
  | .key k => { hook with typing := hook.typing.ProcessKeyDown hook.config k }
  | .cancelComposition expired => { hook with typing := (hook.typing.TryEscRestoreRaw expired).1 }
  | .ghostChar ch => { hook with typing := hook.typing.HandleGhostChar hook.config ch }
  | .commitComposition =>
    if 0 < hook.typing.engine.count then { hook with typing := hook.typing.CommitComposition }
    else hook
  | .resetComposition => { hook with typing := hook.typing.ResetComposition }
  -- `DrainHookCommands` waits until nothing is composed.
  | .applyConfig config =>
    if hook.typing.engine.count = 0 then { config, typing := { hook.typing with engine := {} } }
    else hook
  | .other after =>
    { config := { after.config with config := hook.config.config }
      typing := { after.typing with
        engine := hook.typing.engine
        commitState := { after.typing.commitState with
          inputHistory := hook.typing.commitState.inputHistory } } }

/-- The history, typed into a fresh engine, shows what the engine shows. -/
def HistoryReplays (hook : Hook) : Prop :=
  0 < hook.typing.engine.count →
    (hook.typing.replayHistory hook.config).peek = hook.typing.engine.peek ∧
      (hook.typing.replayHistory hook.config).peekRaw = hook.typing.engine.peekRaw ∧
      (hook.typing.replayHistory hook.config).count = hook.typing.engine.count

/-- The engine and its history stay together. -/
def KeepsRecord (hook : Hook) : HookEvent → Prop
  | .key k => hook.typing.Replays hook.config k → AlmostReset hook.config.config hook.typing.engine
  | .cancelComposition _ => 0 < hook.typing.engine.count → hook.typing.engine.peekRaw = []
  | .ghostChar ch => ch ≠ kBackspaceMarker
  | .applyConfig config =>
    hook.typing.engine.count = 0 → AlmostReset config.config (hook.typing.replayHistory config)
  | .commitComposition | .resetComposition | .other _ => True

/-- What every event preserves. -/
lemma recorded_step {hook : Hook} {event : HookEvent} (h : hook.typing.Recorded hook.config)
    (ok : hook.KeepsRecord event) : (hook.step event).typing.Recorded (hook.step event).config := by
  cases event with
  | key k => exact h.ProcessKeyDown ok
  | cancelComposition expired => exact h.TryEscRestoreRaw expired ok
  | ghostChar ch => exact h.HandleGhostChar ok
  | commitComposition =>
    unfold step
    dsimp only
    split
    · exact .inl rfl
    · exact h
  | resetComposition => exact .inl rfl
  | applyConfig config =>
    unfold step
    dsimp only
    split
    · next hcount => exact .inr ⟨.init, ok hcount⟩
    · exact h
  | other after => exact h

/-- In every run whose events keep the record the history replays to the word that is composed. -/
theorem historyReplays_run (config : HookConfig) {events : List HookEvent}
    (ok : Machine.Guarded step KeepsRecord (start config) events) :
    (Machine.run step (start config) events).HistoryReplays := by
  intro _
  have hrecorded : (Machine.run step (start config) events).typing.Recorded
      (Machine.run step (start config) events).config :=
    @Machine.Guarded.invariant _ _ step KeepsRecord (fun hook => hook.typing.Recorded hook.config) _ _
      ok (.inl rfl) recorded_step
  have hsame := hrecorded.observe
  exact ⟨(congrArg Prod.fst hsame).symm, (congrArg (·.2.1) hsame).symm,
    (congrArg (·.2.2.1) hsame).symm⟩

end Hook

end Locale

section Ascii

attribute [local instance] WideLocale.ascii WideCtype.ascii

open HookTyping

/-- Telex without macros. -/
def telexHook : HookConfig where
  config := {}
  macroTable := []
  mapper := .ascii

def backKeyDown : HookKeyDown where
  key := .back

/-- The keys `a`, Space, Backspace and `s`: the last one undoes the commit. -/
theorem Hook.historyReplays_run_as :
    (Machine.run Hook.step (Hook.start telexHook)
      [.key (letterKey 0x41 rfl), .key spaceKey, .key backKeyDown,
        .key (letterKey 0x53 rfl)]).HistoryReplays := by
  refine Hook.historyReplays_run telexHook ⟨?_, ?_, ?_, ?_, trivial⟩
  · exact fun h => absurd h.1 (by decide +kernel)
  · exact fun h => absurd h.1 (by decide +kernel)
  · exact fun h => absurd h.1 (by decide +kernel)
  · exact fun _ => ⟨false, false, by decide +kernel, .inl rfl⟩

/-- Behind `as`, restored by Escape, and `b` the history replays to `áb`. -/
theorem Hook.not_historyReplays_asb :
    ¬(Machine.run Hook.step (Hook.start telexHook)
      [.key (letterKey 0x41 rfl), .key (letterKey 0x53 rfl), .cancelComposition false,
        .key (letterKey 0x42 rfl)]).HistoryReplays := by
  intro h
  have hpeek := (h (by decide +kernel)).1
  revert hpeek
  decide +kernel

end Ascii

end NextKey
