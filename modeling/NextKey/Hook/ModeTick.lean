import Mathlib.Logic.Function.Iterate
import NextKey.Hook.ModeDisplay

/-!
# Toggles and ticks

The hook thread toggles the mode and then publishes it as `VIETNAMESE_MODE` in the shared state,
while the worker thread's `OnTickPoll` reads the flags and stores the mode they say. Every access to
the mode and every access to the flags is a step. A tick that has read the flags before the toggle
publishes takes the toggle back (`toggle_lost`).

When no tick finds flags that differ from the mode, and publishes no mode but the current one, no
toggle is lost (`toggles_kept`).
-/

namespace NextKey

/-- Where the hook thread stands in `ApplyToggleVNOnHookThread`, in an app that is neither excluded
nor locked to Vietnamese. -/
inductive ToggleStage where
  | idle
  | load
  | store (newMode : Bool)
  | notify
  | callback (displayMode : Bool)
  deriving DecidableEq, Repr

/-- Where the worker thread stands in `OnTickPoll`. -/
inductive TickStage where
  | idle
  | read
  | exchange (curFlags : BitVec 32)
  | compareMode (curFlags prevFlags : BitVec 32)
  | store (curFlags prevFlags : BitVec 32)
  | notify (curFlags prevFlags : BitVec 32)
  | callback (curFlags prevFlags : BitVec 32) (displayMode : Bool)
  | compareTip (curFlags prevFlags : BitVec 32)
  | notifyTip
  | callbackTip (displayMode : Bool)
  deriving DecidableEq, Repr

/-- Storing the mode. -/
def ModeDisplay.setMode (s : ModeDisplay) (mode : Bool) : ModeDisplay :=
  { s with focus := { s.focus with vietnameseMode := mode } }

/-- One step of a toggle. -/
def ToggleStage.step (s : ModeDisplay) : ToggleStage → ModeDisplay × ToggleStage
  | .idle => (s, .idle)
  | .load => (s, .store (!s.focus.vietnameseMode))
  | .store newMode => (s.setMode newMode, .notify)
  | .notify => (s, .callback s.displayMode)
  | .callback displayMode => (s.modeChangeCallback displayMode, .idle)

/-- One step of a tick. -/
def TickStage.step (s : ModeDisplay) : TickStage → ModeDisplay × TickStage
  | .idle => (s, .idle)
  | .read => (s, .exchange s.flags)
  | .exchange curFlags => ({ s with lastFlags := curFlags }, .compareMode curFlags s.lastFlags)
  | .compareMode curFlags prevFlags =>
    (s, if hasFlag curFlags SharedFlags.VIETNAMESE_MODE ≠ s.focus.vietnameseMode then
        .store curFlags prevFlags
      else .compareTip curFlags prevFlags)
  | .store curFlags prevFlags =>
    (s.setMode (hasFlag curFlags SharedFlags.VIETNAMESE_MODE), .notify curFlags prevFlags)
  | .notify curFlags prevFlags => (s, .callback curFlags prevFlags s.displayMode)
  | .callback curFlags prevFlags displayMode =>
    (s.modeChangeCallback displayMode, .compareTip curFlags prevFlags)
  | .compareTip curFlags prevFlags =>
    (s,
      if hasFlag prevFlags SharedFlags.TSF_TIP_ACTIVE ≠
          hasFlag curFlags SharedFlags.TSF_TIP_ACTIVE then
        .notifyTip
      else .idle)
  | .notifyTip => (s, .callbackTip s.displayMode)
  | .callbackTip displayMode => (s.modeChangeCallback displayMode, .idle)

/-- The mode, its display and the two threads. -/
structure ModeThreads where
  display : ModeDisplay
  hook : ToggleStage := .idle
  worker : TickStage := .idle
  /-- The toggles begun. -/
  toggles : Nat := 0
  deriving DecidableEq, Repr

/-- A thread begins a toggle or a tick or takes its next step, or the text service becomes active or
    inactive. -/
inductive ThreadEvent where
  | toggle
  | tick
  | hook
  | worker
  | setTipActive (active : Bool)
  deriving DecidableEq, Repr

namespace ModeThreads

/-- One event; a thread that is busy begins nothing. -/
def step (s : ModeThreads) : ThreadEvent → ModeThreads
  | .toggle =>
    match s.hook with
    | .idle => { s with hook := .load, toggles := s.toggles + 1 }
    | _ => s
  | .tick =>
    match s.worker with
    | .idle => { s with worker := .read }
    | _ => s
  | .hook =>
    let next := s.hook.step s.display
    { s with display := next.1, hook := next.2 }
  | .worker =>
    let next := s.worker.step s.display
    { s with display := next.1, worker := next.2 }
  | .setTipActive active =>
    { s with display.flags :=
      (FlagOp.SetOrClearFlag SharedFlags.TSF_TIP_ACTIVE active).apply s.display.flags }

end ModeThreads

/-- The flags a tick has read say the mode, and it publishes the mode. -/
def TickStage.Current (mode : Bool) : TickStage → Prop
  | .compareMode curFlags _ => hasFlag curFlags SharedFlags.VIETNAMESE_MODE = mode
  | .callbackTip displayMode => displayMode = mode
  | _ => True

instance {mode} : ∀ c : TickStage, Decidable (c.Current mode)
  | .compareMode _ _ | .callbackTip _ => inferInstanceAs (Decidable (_ = _))
  | .idle | .read | .exchange _ | .store _ _ | .notify _ _ | .callback _ _ _ | .compareTip _ _
  | .notifyTip => inferInstanceAs (Decidable True)

/-- A tick takes a step only when the mode is still what it has read. -/
def TickCurrent (s : ModeThreads) : ThreadEvent → Prop
  | .worker => s.worker.Current s.display.focus.vietnameseMode
  | _ => True

instance {s : ModeThreads} : ∀ e, Decidable (TickCurrent s e)
  | .worker => inferInstanceAs (Decidable (s.worker.Current _))
  | .toggle | .tick | .hook | .setTipActive _ => inferInstanceAs (Decidable True)

/-- The mode is not masked and no app is locked to Vietnamese. -/
structure Unmasked (f : FocusState) : Prop where
  notExcluded : f.isExcludedApp = false
  notTsf : f.isTsfApp = false
  notForced : f.isForcedVnApp = false

section
variable {s : ModeDisplay} {cfg : FocusConfig} {fgPid : BitVec 32}

/-- Unmasked, the mode is shown as it is. -/
lemma displayMode_unmasked (h : Unmasked s.focus) : s.displayMode = s.focus.vietnameseMode := by
  rw [ModeDisplay.displayMode_eq h.notForced, ModeDisplay.masks, h.notExcluded, h.notTsf]
  exact Bool.and_true _

/-- A tick that is not interrupted. -/
lemma tick_alone {hook toggles} :
    Machine.run ModeThreads.step { display := s, hook := hook, toggles := toggles }
      (.tick :: List.replicate 9 .worker) =
        { display := s.OnTickPoll, hook := hook, toggles := toggles } := by
  by_cases hmode : hasFlag s.flags SharedFlags.VIETNAMESE_MODE = s.focus.vietnameseMode
  all_goals
    by_cases htip : hasFlag s.lastFlags SharedFlags.TSF_TIP_ACTIVE =
      hasFlag s.flags SharedFlags.TSF_TIP_ACTIVE
    all_goals
      simp [List.replicate, ModeThreads.step, TickStage.step, ModeDisplay.OnTickPoll,
        ModeDisplay.NotifyModeChange, ModeDisplay.setMode, hmode, htip]

/-- A toggle that is not interrupted. -/
lemma toggle_alone {worker toggles} (h : Unmasked s.focus) :
    (Machine.run ModeThreads.step { display := s, worker := worker, toggles := toggles }
      (.toggle :: List.replicate 4 .hook)).display.focus.vietnameseMode =
        (ApplyToggleVNOnHookThread cfg fgPid s.focus).vietnameseMode := by
  simp [List.replicate, ModeThreads.step, ToggleStage.step, ModeDisplay.setMode,
    ModeDisplay.modeChangeCallback, ApplyToggleVNOnHookThread, h.notExcluded, h.notForced]

end

/-- Where a toggle under way stands, when the flags say `shown`: the mode to store is the other one,
and from the store on the flags may be old. -/
def ToggleStage.Underway (mode shown : Bool) : ToggleStage → Prop
  | .idle | .load => shown = mode
  | .store newMode => newMode = (!mode) ∧ shown = mode
  | .notify => True
  | .callback displayMode => displayMode = mode

/-- The toggles begun that are not stored yet. -/
def ToggleStage.pending : ToggleStage → Nat
  | .load | .store _ => 1
  | _ => 0

/-- A tick does not change the mode. -/
def TickStage.reads : TickStage → Prop
  | .store _ _ | .notify _ _ | .callback _ _ _ => False
  | _ => True

/-- What holds while every tick is current, when the mode was `initial` before any toggle. -/
structure ThreadsInv (initial : Bool) (s : ModeThreads) : Prop where
  unmasked : Unmasked s.display.focus
  hook : s.hook.Underway s.display.focus.vietnameseMode s.display.shown
  worker : s.worker.reads
  mode : not^[s.hook.pending] s.display.focus.vietnameseMode = not^[s.toggles] initial

section
variable {initial : Bool} {s : ModeThreads} {e : ThreadEvent}

/-- The callback shows what it is given. -/
lemma shown_callback {d : ModeDisplay} {vietnamese} :
    (d.modeChangeCallback vietnamese).shown = vietnamese :=
  @hasFlag_SetOrClearFlag d.flags 0 0 vietnamese (by decide)

/-- The hook thread takes a step. -/
lemma ThreadsInv.hookStep (h : ThreadsInv initial s) : ThreadsInv initial (s.step .hook) := by
  obtain ⟨d, hook, worker, toggles⟩ := s
  have hunder := h.hook
  have hmode := h.mode
  cases hook with
  | idle => exact h
  | load => exact { h with hook := ⟨rfl, hunder⟩ }
  | store newMode =>
    have hnew : newMode = !d.focus.vietnameseMode := hunder.1
    subst hnew
    exact { h with
      unmasked := ⟨h.unmasked.notExcluded, h.unmasked.notTsf, h.unmasked.notForced⟩
      hook := trivial
      mode := hmode }
  | notify => exact { h with hook := displayMode_unmasked h.unmasked, mode := hmode }
  | callback displayMode => exact { h with hook := shown_callback.trans hunder, mode := hmode }

/-- The worker thread takes a step. -/
lemma ThreadsInv.workerStep (h : ThreadsInv initial s) (hok : TickCurrent s .worker) :
    ThreadsInv initial (s.step .worker) := by
  obtain ⟨d, hook, worker, toggles⟩ := s
  cases worker with
  | idle => exact h
  | read => exact { h with worker := trivial }
  | exchange curFlags => exact { h with worker := trivial }
  | compareMode curFlags prevFlags =>
    have hsame : hasFlag curFlags SharedFlags.VIETNAMESE_MODE = d.focus.vietnameseMode := hok
    have hnext : (TickStage.compareMode curFlags prevFlags).step d =
        (d, .compareTip curFlags prevFlags) := by
      simp [TickStage.step, hsame]
    simp only [ModeThreads.step, hnext]
    exact { h with worker := trivial }
  | store | notify | callback => exact h.worker.elim
  | compareTip curFlags prevFlags =>
    refine { h with worker := ?_ }
    simp only [ModeThreads.step, TickStage.step]
    split <;> trivial
  | notifyTip => exact { h with worker := trivial }
  | callbackTip displayMode =>
    have hsame : displayMode = d.focus.vietnameseMode := hok
    refine { h with hook := ?_, worker := trivial }
    have hunder := h.hook
    have hshown : (d.modeChangeCallback displayMode).shown = d.focus.vietnameseMode :=
      shown_callback.trans hsame
    cases hook with
    | idle | load => exact hshown
    | store newMode => exact ⟨hunder.1, hshown⟩
    | notify => trivial
    | callback => exact hunder

/-- Every event keeps the invariant. -/
lemma ThreadsInv.step (h : ThreadsInv initial s) (hok : TickCurrent s e) :
    ThreadsInv initial (s.step e) := by
  cases e with
  | hook => exact h.hookStep
  | worker => exact h.workerStep hok
  | toggle =>
    obtain ⟨d, hook, worker, toggles⟩ := s
    cases hook with
    | idle =>
      refine { h with hook := h.hook, mode := ?_ }
      have hmode : d.focus.vietnameseMode = not^[toggles] initial := h.mode
      show not d.focus.vietnameseMode = not^[toggles + 1] initial
      rw [Function.iterate_succ_apply', hmode]
    | load | store | notify | callback => exact h
  | tick =>
    obtain ⟨d, hook, worker, toggles⟩ := s
    cases worker with
    | idle => exact { h with worker := trivial }
    | read | exchange | compareMode | store | notify | callback | compareTip | notifyTip |
      callbackTip => exact h
  | setTipActive active =>
    have hkept : (s.step (.setTipActive active)).display.shown = s.display.shown :=
      @hasFlag_SetOrClearFlag s.display.flags 8 0 active (by decide)
    exact { h with hook := hkept ▸ h.hook }

end

/-- In an interleaving whose ticks are all current, whenever the hook thread is idle the mode has
been toggled once for each toggle, and it is the one in the shared state. -/
theorem toggles_kept {s : ModeDisplay} {events : List ThreadEvent} (hunmasked : Unmasked s.focus)
    (hshown : hasFlag s.flags SharedFlags.VIETNAMESE_MODE = s.focus.vietnameseMode)
    (hguard : Machine.Guarded ModeThreads.step TickCurrent { display := s } events)
    (hhook : (Machine.run ModeThreads.step { display := s } events).hook = .idle) :
    (Machine.run ModeThreads.step { display := s } events).display.focus.vietnameseMode =
        not^[(Machine.run ModeThreads.step { display := s } events).toggles] s.focus.vietnameseMode ∧
      hasFlag (Machine.run ModeThreads.step { display := s } events).display.flags
          SharedFlags.VIETNAMESE_MODE =
        (Machine.run ModeThreads.step { display := s } events).display.focus.vietnameseMode := by
  have hstart : ThreadsInv s.focus.vietnameseMode { display := s } := ⟨hunmasked, hshown, trivial, rfl⟩
  have hinv := hguard.invariant hstart fun h hok => h.step hok
  generalize Machine.run ModeThreads.step { display := s } events = t at hinv hhook
  have hmode := hinv.mode
  have hunder := hinv.hook
  rw [hhook] at hmode hunder
  exact ⟨hmode, hunder⟩

/-- A whole toggle or tick of a thread. -/
def aloneSteps : ThreadEvent → List ThreadEvent
  | .toggle => .toggle :: List.replicate 4 .hook
  | .tick => .tick :: List.replicate 9 .worker
  | e => [e]

/-- Two toggles and a tick, one after the other. -/
def inTurn : List ThreadEvent := aloneSteps .toggle ++ aloneSteps .tick ++ aloneSteps .toggle

/-- A toggle and a tick in turn. -/
theorem toggles_kept_inTurn :
    (Machine.run ModeThreads.step { display := displayStart } inTurn).display.focus.vietnameseMode =
        not^[2] true ∧
      hasFlag (Machine.run ModeThreads.step { display := displayStart } inTurn).display.flags
          SharedFlags.VIETNAMESE_MODE =
        (Machine.run ModeThreads.step
          { display := displayStart } inTurn).display.focus.vietnameseMode :=
  @toggles_kept displayStart inTurn ⟨rfl, rfl, rfl⟩ rfl (by decide) rfl

/-- The tick reads the flags when the toggle has stored the mode and not yet published it. -/
def overlappedTick : List ThreadEvent :=
  [.toggle, .hook, .hook] ++ aloneSteps .tick ++ [.hook, .hook]

/-- A tick takes a toggle back. -/
theorem toggle_lost :
    ¬∀ events : List ThreadEvent,
      (Machine.run ModeThreads.step { display := displayStart } events).hook = .idle →
      (Machine.run ModeThreads.step { display := displayStart } events).worker = .idle →
      (Machine.run ModeThreads.step { display := displayStart } events).display.focus.vietnameseMode =
          not^[(Machine.run ModeThreads.step { display := displayStart } events).toggles] true ∧
        hasFlag (Machine.run ModeThreads.step { display := displayStart } events).display.flags
            SharedFlags.VIETNAMESE_MODE =
          (Machine.run ModeThreads.step
            { display := displayStart } events).display.focus.vietnameseMode := by
  intro h
  have hmode := (h overlappedTick rfl rfl).1
  revert hmode
  decide

end NextKey
