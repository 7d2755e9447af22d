import NextKey.Hook.Focus
import NextKey.Ipc.SharedStateManager

/-!
# The displayed mode

`HookEngine::NotifyModeChange` shows English in an excluded app, and in a TSF app whose text service
is not the active one, whatever the typing mode is. The callback of `main.cpp` stores the displayed
mode as `VIETNAMESE_MODE` in the shared state, and `OnTickPoll` takes that flag for the typing mode.
The flags `TSF_ACTIVE` and `TSF_READONLY` that a focus sets are left out, and the shared state is
valid.

The typing mode never changes without a toggle just when no tick finds Vietnamese mode displayed as
English (`mode_kept_iff`).
-/

namespace NextKey

namespace SharedFlags

def VIETNAMESE_MODE : BitVec 32 := 0x0001
def TSF_TIP_ACTIVE : BitVec 32 := 0x0100

end SharedFlags

/-- `(flags & flagBit) != 0` -/
def hasFlag (flags flagBit : BitVec 32) : Bool := flags &&& flagBit != 0

/-- The focus state, the flags of the shared state, and the flags that the last tick has read. -/
structure ModeDisplay where
  focus : FocusState
  flags : BitVec 32
  lastFlags : BitVec 32 := 0
  deriving DecidableEq, Repr

namespace ModeDisplay

/-- The mode that `NotifyModeChange` shows. -/
def displayMode (s : ModeDisplay) : Bool :=
  let displayMode := s.focus.isForcedVnApp || (!s.focus.isExcludedApp && s.focus.vietnameseMode)
  if displayMode && s.focus.isTsfApp && !hasFlag s.flags SharedFlags.TSF_TIP_ACTIVE then false
  else displayMode

/-- The mode-change callback. -/
def modeChangeCallback (s : ModeDisplay) (vietnamese : Bool) : ModeDisplay :=
  { s with flags := (FlagOp.SetOrClearFlag SharedFlags.VIETNAMESE_MODE vietnamese).apply s.flags }

/-- C++ `NotifyModeChange` -/
def NotifyModeChange (s : ModeDisplay) : ModeDisplay := s.modeChangeCallback s.displayMode

/-- C++ `OnLayoutChanged`: entering a CJK layout in English mode changes nothing that is shown -/
def OnLayoutChanged (cfg : FocusConfig) (s : ModeDisplay) (isCompatibleNow : Bool) : ModeDisplay :=
  let s' := { s with focus := NextKey.OnLayoutChanged cfg s.focus isCompatibleNow }
  if s'.focus.layoutSuppressed = s.focus.layoutSuppressed then s'
  else if s'.focus.layoutSuppressed && !s.focus.vietnameseMode then s'
  else s'.NotifyModeChange

/-- The mode of an app that is not excluded, shown when it changes. -/
def resolveMode (cfg : FocusConfig) (s : ModeDisplay) (cls : FocusClassification) : ModeDisplay :=
  let s' := { s with focus := NextKey.resolveMode cfg s.focus cls }
  if s'.focus.vietnameseMode = s.focus.vietnameseMode then s' else s'.NotifyModeChange

/-- An app gets the focus (C++ `ApplyFocusOnHookThread`). -/
def ApplyFocusOnHookThread (cfg : FocusConfig) (cls : FocusClassification) (s : ModeDisplay) :
    ModeDisplay :=
  let s := { s with focus :=
    if cls.exeName ≠ "" ∧ cls.pid ≠ 0 ∧ cls.pid ≠ cfg.currentProcessId then
      { s.focus with activeExe := cls.exeName }
    else s.focus }
  if cls.skipAppTracking then s
  else if !cfg.smartSwitch && !cfg.excludeApps && !cfg.tsfApps && cfg.noOverrides then s
  else if cls.exeName = "" then s
  else
    let wasExcluded := s.focus.isExcludedApp
    let wasLocked := wasExcluded || s.focus.isForcedVnApp
    let s := { s with focus :=
      { saveMode cfg s.focus with
        lastRealExe := cls.exeName
        isExcludedApp := cls.isExcluded
        isTsfApp := cls.isTsf
        isForcedVnApp := cls.isForcedVietnamese
        forcedVnPid := if cls.isForcedVietnamese then cls.pid else s.focus.forcedVnPid } }
    if cls.isExcluded then
      let s := { s with focus := { s.focus with excludedPid := cls.pid } }
      if wasExcluded then s else s.NotifyModeChange
    else
      let s := s.resolveMode cfg cls
      if wasLocked then
        let wasSuppressed := s.focus.layoutSuppressed
        let s := s.OnLayoutChanged cfg s.focus.cachedIsCompatLayout
        if wasSuppressed = s.focus.layoutSuppressed then s.NotifyModeChange else s
      else s

/-- The flags part of `OnTickPoll`. -/
def OnTickPoll (s : ModeDisplay) : ModeDisplay :=
  let curFlags := s.flags
  let prevFlags := s.lastFlags
  let s := { s with lastFlags := curFlags }
  let sharedVn := hasFlag curFlags SharedFlags.VIETNAMESE_MODE
  let s :=
    if sharedVn ≠ s.focus.vietnameseMode then
      NotifyModeChange { s with focus := { s.focus with vietnameseMode := sharedVn } }
    else s
  if hasFlag prevFlags SharedFlags.TSF_TIP_ACTIVE ≠ hasFlag curFlags SharedFlags.TSF_TIP_ACTIVE then
    s.NotifyModeChange
  else s

end ModeDisplay

/-- An app gets the focus, a tick comes, or the text service becomes active or inactive. -/
inductive DisplayEvent where
  | focus (cls : FocusClassification)
  | tick
  | setTipActive (active : Bool)
  deriving DecidableEq, Repr

/-- One event. -/
def displayStep (cfg : FocusConfig) (s : ModeDisplay) : DisplayEvent → ModeDisplay
  | .focus cls => s.ApplyFocusOnHookThread cfg cls
  | .tick => s.OnTickPoll
  | .setTipActive active =>
    { s with flags := (FlagOp.SetOrClearFlag SharedFlags.TSF_TIP_ACTIVE active).apply s.flags }

/-- Whether the display shows English whatever the mode is. -/
def ModeDisplay.masks (s : ModeDisplay) : Bool :=
  s.focus.isExcludedApp ||
    (s.focus.isTsfApp && !hasFlag s.flags SharedFlags.TSF_TIP_ACTIVE)

/-- Whether an event notifies of the mode, when the mode does not change: an excluded app is entered
or left, or a tick sees that the text service became active or inactive. -/
def notifies (s s' : ModeDisplay) : DisplayEvent → Bool
  | .focus _ => s'.focus.isExcludedApp != s.focus.isExcludedApp
  | .tick =>
    hasFlag s.lastFlags SharedFlags.TSF_TIP_ACTIVE != hasFlag s.flags SharedFlags.TSF_TIP_ACTIVE
  | .setTipActive _ => false

/-- The state and whether the last notification was masked. -/
def maskedStep (cfg : FocusConfig) : ModeDisplay × Bool → DisplayEvent → ModeDisplay × Bool
  | (s, masked), e =>
    let s' := displayStep cfg s e
    (s', if notifies s s' e then s'.masks else masked)

/-- A tick in Vietnamese mode comes when the last notification was not masked. -/
def TickUnmasked : ModeDisplay × Bool → DisplayEvent → Prop
  | (s, masked), .tick => s.focus.vietnameseMode → masked = false
  | _, _ => True

instance : ∀ s e, Decidable (TickUnmasked s e)
  | (_, _), .tick => inferInstanceAs (Decidable (_ → _))
  | _, .focus _ | _, .setTipActive _ => inferInstanceAs (Decidable True)

/-- A flag is a bit. -/
lemma hasFlag_twoPow {flags : BitVec 32} {i : Nat} (hi : i < 32) :
    hasFlag flags (BitVec.twoPow 32 i) = flags.getLsbD i := by
  rw [hasFlag, BitVec.and_twoPow]
  cases flags.getLsbD i with
  | false => rfl
  | true =>
    have hne : BitVec.twoPow 32 i ≠ 0#32 := by
      intro hzero
      have hbit := congrArg (·.getLsbD i) hzero
      simp [hi] at hbit
    simp [hne]

/-- Setting or clearing a flag leaves the others alone. -/
lemma hasFlag_SetOrClearFlag {flags : BitVec 32} {i j : Nat} {set} (hj : j < 32) :
    hasFlag ((FlagOp.SetOrClearFlag (BitVec.twoPow 32 i) set).apply flags) (BitVec.twoPow 32 j) =
      if i = j then set else hasFlag flags (BitVec.twoPow 32 j) := by
  rw [hasFlag_twoPow hj, hasFlag_twoPow hj]
  cases set with
  | false =>
    simp only [FlagOp.apply, BitVec.getLsbD_and, BitVec.getLsbD_not, BitVec.getLsbD_twoPow, hj]
    split
    · next h => simp [h, hj]
    · next h => simp [h]
  | true =>
    simp only [FlagOp.apply, BitVec.getLsbD_or, BitVec.getLsbD_twoPow]
    split
    · next h => simp [h, hj]
    · next h => simp [h]

namespace ModeDisplay

variable {cfg : FocusConfig} {s : ModeDisplay} {cls : FocusClassification}

/-- The mode that is shown. -/
def shown (s : ModeDisplay) : Bool := hasFlag s.flags SharedFlags.VIETNAMESE_MODE

/-- The text service is active. -/
def tipActive (s : ModeDisplay) : Bool := hasFlag s.flags SharedFlags.TSF_TIP_ACTIVE

/-- A notification leaves the focus. -/
@[simp] lemma NotifyModeChange_focus : s.NotifyModeChange.focus = s.focus := rfl

/-- And the flags. -/
@[simp] lemma NotifyModeChange_lastFlags : s.NotifyModeChange.lastFlags = s.lastFlags := rfl

/-- It shows the mode. -/
@[simp] lemma NotifyModeChange_shown : s.NotifyModeChange.shown = s.displayMode :=
  @hasFlag_SetOrClearFlag s.flags 0 0 s.displayMode (by decide)

/-- It leaves the text service. -/
@[simp] lemma NotifyModeChange_tipActive : s.NotifyModeChange.tipActive = s.tipActive :=
  @hasFlag_SetOrClearFlag s.flags 0 8 s.displayMode (by decide)

/-- The display masks Vietnamese mode or shows the mode. -/
lemma displayMode_eq (h : s.focus.isForcedVnApp = false) :
    s.displayMode = (s.focus.vietnameseMode && !s.masks) := by
  simp only [displayMode, masks, h, Bool.false_or]
  cases s.focus.isExcludedApp <;> cases s.focus.vietnameseMode <;> cases s.focus.isTsfApp <;>
    cases hasFlag s.flags SharedFlags.TSF_TIP_ACTIVE <;> rfl

/-- What a layout does to the focus. -/
@[simp] lemma OnLayoutChanged_focus {compatible} : (s.OnLayoutChanged cfg compatible).focus =
    NextKey.OnLayoutChanged cfg s.focus compatible := by
  simp only [OnLayoutChanged]
  repeat' split
  all_goals rfl

/-- What a classification does to the focus. -/
@[simp] lemma resolveMode_focus :
    (s.resolveMode cfg cls).focus = NextKey.resolveMode cfg s.focus cls := by
  simp only [resolveMode]
  split <;> rfl

/-- The notifications leave the focus state alone. -/
lemma ApplyFocusOnHookThread_focus :
    (s.ApplyFocusOnHookThread cfg cls).focus = NextKey.ApplyFocusOnHookThread cfg cls s.focus := by
  simp only [ApplyFocusOnHookThread, NextKey.ApplyFocusOnHookThread]
  generalize (if cls.exeName ≠ "" ∧ cls.pid ≠ 0 ∧ cls.pid ≠ cfg.currentProcessId then
    { s.focus with activeExe := cls.exeName } else s.focus) = f
  repeat' split
  all_goals simp

/-- No app is locked to Vietnamese and the layout is not a CJK one. -/
structure Plain (f : FocusState) : Prop where
  notForced : f.isForcedVnApp = false
  compatible : f.cachedIsCompatLayout = true
  notSuppressed : f.layoutSuppressed = false

/-- Without a CJK layout there is nothing to switch. -/
lemma OnLayoutChanged_plain (h : Plain s.focus) :
    s.OnLayoutChanged cfg s.focus.cachedIsCompatLayout = s := by
  have hfocus : NextKey.OnLayoutChanged cfg s.focus s.focus.cachedIsCompatLayout = s.focus := by
    simp [NextKey.OnLayoutChanged, h.compatible, h.notSuppressed]
  simp [OnLayoutChanged, hfocus]

/-- Without smart switch an app keeps the mode. -/
lemma resolveMode_plain (hsmart : cfg.smartSwitch = false) (hcls : cls.isForcedVietnamese = false) :
    s.resolveMode cfg cls = s := by
  have hfocus : NextKey.resolveMode cfg s.focus cls = s.focus := by
    simp [NextKey.resolveMode, hsmart, hcls]
  simp [resolveMode, hfocus]

/-- A focus keeps the mode, and it notifies when an excluded app is entered or left. -/
lemma focus_cases (hplain : Plain s.focus) (hsmart : cfg.smartSwitch = false)
    (hcls : cls.isForcedVietnamese = false) :
    ∃ f, f.vietnameseMode = s.focus.vietnameseMode ∧ Plain f ∧
      s.ApplyFocusOnHookThread cfg cls =
        if f.isExcludedApp != s.focus.isExcludedApp then { s with focus := f }.NotifyModeChange
        else { s with focus := f } := by
  simp only [ApplyFocusOnHookThread, resolveMode_plain hsmart hcls]
  have hactive : ∃ f, f = (if cls.exeName ≠ "" ∧ cls.pid ≠ 0 ∧ cls.pid ≠ cfg.currentProcessId then
      { s.focus with activeExe := cls.exeName } else s.focus) ∧ Plain f ∧
      f.vietnameseMode = s.focus.vietnameseMode ∧ f.isExcludedApp = s.focus.isExcludedApp := by
    refine ⟨_, rfl, ?_⟩
    split
    · exact ⟨⟨hplain.notForced, hplain.compatible, hplain.notSuppressed⟩, rfl, rfl⟩
    · exact ⟨hplain, rfl, rfl⟩
  obtain ⟨f, hf, hplainf, hmode, hexcluded⟩ := hactive
  rw [← hf]
  have hsame : (f.isExcludedApp != s.focus.isExcludedApp) = false := by simp [hexcluded]
  split
  · exact ⟨f, hmode, hplainf, by rw [hsame]; rfl⟩
  split
  · exact ⟨f, hmode, hplainf, by rw [hsame]; rfl⟩
  split
  · exact ⟨f, hmode, hplainf, by rw [hsame]; rfl⟩
  have hsave : saveMode cfg f = f := by simp [saveMode, hsmart]
  rw [hsave, hplainf.notForced, hexcluded, Bool.or_false]
  split
  · next hin =>
    refine ⟨{ f with
      lastRealExe := cls.exeName
      isExcludedApp := cls.isExcluded
      isTsfApp := cls.isTsf
      isForcedVnApp := cls.isForcedVietnamese
      forcedVnPid := if cls.isForcedVietnamese then cls.pid else f.forcedVnPid
      excludedPid := cls.pid }, hmode, ⟨hcls, hplainf.compatible, hplainf.notSuppressed⟩, ?_⟩
    dsimp only
    rw [hin]
    cases s.focus.isExcludedApp <;> rfl
  · next hout =>
    have hout' : cls.isExcluded = false := eq_false_of_ne_true hout
    refine ⟨{ f with
      lastRealExe := cls.exeName
      isExcludedApp := cls.isExcluded
      isTsfApp := cls.isTsf
      isForcedVnApp := cls.isForcedVietnamese
      forcedVnPid := if cls.isForcedVietnamese then cls.pid else f.forcedVnPid },
      hmode, ⟨hcls, hplainf.compatible, hplainf.notSuppressed⟩, ?_⟩
    rw [OnLayoutChanged_plain]
    · dsimp only
      rw [hout', if_pos (rfl : f.layoutSuppressed = f.layoutSuppressed)]
      cases s.focus.isExcludedApp <;> rfl
    · exact ⟨hcls, hplainf.compatible, hplainf.notSuppressed⟩

/-- A tick keeps the mode that is shown. -/
lemma OnTickPoll_of_shown (h : s.shown = s.focus.vietnameseMode) :
    s.OnTickPoll =
      if hasFlag s.lastFlags SharedFlags.TSF_TIP_ACTIVE != s.tipActive then
        { s with lastFlags := s.flags }.NotifyModeChange
      else { s with lastFlags := s.flags } := by
  have hshown : hasFlag s.flags SharedFlags.VIETNAMESE_MODE = s.focus.vietnameseMode := h
  simp only [OnTickPoll, hshown, ne_eq, not_true_eq_false, if_false, tipActive, bne_iff_ne]

/-- A tick takes the shown mode. -/
lemma OnTickPoll_vietnameseMode : s.OnTickPoll.focus.vietnameseMode = s.shown := by
  simp only [OnTickPoll]
  have hmode : (if hasFlag s.flags SharedFlags.VIETNAMESE_MODE ≠ s.focus.vietnameseMode then
      NotifyModeChange { s with
        lastFlags := s.flags
        focus := { s.focus with vietnameseMode := hasFlag s.flags SharedFlags.VIETNAMESE_MODE } }
      else { s with lastFlags := s.flags }).focus.vietnameseMode = s.shown := by
    split
    · rfl
    · next h => exact (not_not.1 h).symm
  split
  · exact hmode
  · exact hmode

end ModeDisplay

section
variable {cfg : FocusConfig} {s : ModeDisplay} {masked mode : Bool} {e : DisplayEvent}

/-- No classification locks an app to Vietnamese. -/
def DisplayEvent.notForced : DisplayEvent → Prop
  | .focus cls => cls.isForcedVietnamese = false
  | _ => True

instance : ∀ e : DisplayEvent, Decidable e.notForced
  | .focus cls => inferInstanceAs (Decidable (cls.isForcedVietnamese = false))
  | .tick | .setTipActive _ => inferInstanceAs (Decidable True)

/-- What holds while the mode is `mode`. -/
structure DisplayInv (mode : Bool) (s : ModeDisplay × Bool) : Prop where
  plain : ModeDisplay.Plain s.1.focus
  vietnameseMode : s.1.focus.vietnameseMode = mode
  shown : s.1.shown = (mode && !s.2)

/-- A notification shows the mode unless it is masked. -/
lemma DisplayInv.notify (h : DisplayInv mode (s, masked)) :
    DisplayInv mode (s.NotifyModeChange, s.NotifyModeChange.masks) := by
  have hmasks : s.NotifyModeChange.masks = s.masks := by
    have htip : hasFlag s.NotifyModeChange.flags SharedFlags.TSF_TIP_ACTIVE =
      hasFlag s.flags SharedFlags.TSF_TIP_ACTIVE := ModeDisplay.NotifyModeChange_tipActive
    simp [ModeDisplay.masks, htip]
  refine ⟨h.plain, h.vietnameseMode, ?_⟩
  have hmode : s.focus.vietnameseMode = mode := h.vietnameseMode
  rw [hmasks, ModeDisplay.NotifyModeChange_shown, ModeDisplay.displayMode_eq h.plain.notForced, hmode]

/-- What every event preserves. -/
lemma DisplayInv.step {t : ModeDisplay × Bool} (h : DisplayInv mode t)
    (hsmart : cfg.smartSwitch = false)
    (he : e.notForced) (hok : TickUnmasked t e) : DisplayInv mode (maskedStep cfg t e) := by
  obtain ⟨s, masked⟩ := t
  cases e with
  | focus cls =>
    obtain ⟨f, hmode, hplain, hfocus⟩ := @ModeDisplay.focus_cases cfg s cls h.plain hsmart he
    have hf : DisplayInv mode ({ s with focus := f }, masked) :=
      ⟨hplain, hmode.trans h.vietnameseMode, h.shown⟩
    cases hnotify : f.isExcludedApp != s.focus.isExcludedApp with
    | false =>
      simp only [maskedStep, displayStep, notifies, hfocus, hnotify, Bool.false_eq_true, if_false]
      exact hf
    | true =>
      simp only [maskedStep, displayStep, notifies, hfocus, hnotify, ModeDisplay.NotifyModeChange_focus,
        if_true]
      exact hf.notify
  | tick =>
    have hshown : s.shown = s.focus.vietnameseMode := by
      have hmode : s.focus.vietnameseMode = mode := h.vietnameseMode
      rw [h.shown, hmode]
      cases hm : mode with
      | false => rfl
      | true =>
        have hunmasked : masked = false := hok (hmode.trans hm)
        rw [hunmasked]
        rfl
    have hread : DisplayInv mode ({ s with lastFlags := s.flags }, masked) :=
      ⟨h.plain, h.vietnameseMode, h.shown⟩
    have htick := ModeDisplay.OnTickPoll_of_shown hshown
    cases hnotify : hasFlag s.lastFlags SharedFlags.TSF_TIP_ACTIVE !=
        hasFlag s.flags SharedFlags.TSF_TIP_ACTIVE with
    | false =>
      simp only [ModeDisplay.tipActive, hnotify, Bool.false_eq_true, if_false] at htick
      simp only [maskedStep, displayStep, notifies, htick, hnotify, Bool.false_eq_true, if_false]
      exact hread
    | true =>
      simp only [ModeDisplay.tipActive, hnotify, if_true] at htick
      simp only [maskedStep, displayStep, notifies, htick, hnotify, if_true]
      exact hread.notify
  | setTipActive active =>
    refine ⟨h.plain, h.vietnameseMode, ?_⟩
    have hkept : (displayStep cfg s (.setTipActive active)).shown = s.shown :=
      @hasFlag_SetOrClearFlag s.flags 8 0 active (by decide)
    exact hkept.trans h.shown

/-- A tick that finds Vietnamese mode displayed as English changes the mode. -/
lemma DisplayInv.breaks {t : ModeDisplay × Bool} (h : DisplayInv mode t) (hnot : ¬TickUnmasked t e) :
    (maskedStep cfg t e).1.focus.vietnameseMode ≠ mode := by
  obtain ⟨s, masked⟩ := t
  cases e with
  | focus cls => exact absurd trivial hnot
  | setTipActive active => exact absurd trivial hnot
  | tick =>
    simp only [TickUnmasked, Classical.not_imp] at hnot
    obtain ⟨hmode, hmasked⟩ := hnot
    have htaken : (displayStep cfg s .tick).focus.vietnameseMode = s.shown :=
      ModeDisplay.OnTickPoll_vietnameseMode
    have hshown := h.shown
    dsimp only at hshown
    rw [eq_true_of_ne_false hmasked, Bool.not_true, Bool.and_false] at hshown
    intro hkept
    have hfalse : false = mode := hshown.symm.trans (htaken.symm.trans hkept)
    rw [← hfalse] at h
    exact absurd (hmode.symm.trans h.vietnameseMode) nofun

/-- The masks only watch the run. -/
lemma maskedStep_run {events} :
    (Machine.run (maskedStep cfg) (s, masked) events).1 = Machine.run (displayStep cfg) s events := by
  induction events generalizing s masked with
  | nil => rfl
  | cons e events ih => exact ih

end

/-- The mode stays what it was, all along a run, just when no tick in Vietnamese mode comes after a
    notification that was masked. -/
theorem mode_kept_iff {cfg : FocusConfig} {s : ModeDisplay} {events : List DisplayEvent}
    (hsmart : cfg.smartSwitch = false) (hplain : ModeDisplay.Plain s.focus)
    (hshown : hasFlag s.flags SharedFlags.VIETNAMESE_MODE = s.focus.vietnameseMode)
    (hevents : ∀ e ∈ events, e.notForced) :
    (∀ es, es <+: events →
      (Machine.run (displayStep cfg) s es).focus.vietnameseMode = s.focus.vietnameseMode) ↔
    Machine.Guarded (maskedStep cfg) TickUnmasked (s, false) events := by
  have hstart : DisplayInv s.focus.vietnameseMode (s, false) :=
    ⟨hplain, rfl, hshown.trans (Bool.and_true _).symm⟩
  have hdomain : Machine.Guarded (maskedStep cfg) (fun _ e => e.notForced) (s, false) events :=
    Machine.guarded_of_forall fun e he _ => hevents e he
  have hiff := @Machine.forall_prefix_iff_guarded _ _ (maskedStep cfg)
    (fun _ e => e.notForced) TickUnmasked
    (DisplayInv s.focus.vietnameseMode) (fun t => t.1.focus.vietnameseMode = s.focus.vietnameseMode)
    (s, false) events hstart hdomain DisplayInv.vietnameseMode
    (fun h he hok => h.step hsmart he hok) (fun h _ hnot => h.breaks hnot)
  simp only [maskedStep_run] at hiff
  exact hiff

/-- One app is excluded. -/
def gameExcluded : FocusConfig where
  excludeApps := true
  excludedAppSet := ["game.exe"]

/-- To an excluded app and back. -/
def gameAndBack : List DisplayEvent :=
  [.focus (Classify gameExcluded "notepad.exe" 10), .tick, .focus (Classify gameExcluded "game.exe" 11),
    .focus (Classify gameExcluded "notepad.exe" 10), .tick]

/-- The engine starts in Vietnamese mode. -/
def displayStart : ModeDisplay where
  focus := { vietnameseMode := true }
  flags := SharedFlags.VIETNAMESE_MODE

/-- A game and back. -/
theorem mode_kept_iff_gameAndBack :
    (∀ es, es <+: gameAndBack →
      (Machine.run (displayStep gameExcluded) displayStart es).focus.vietnameseMode = true) ↔
    Machine.Guarded (maskedStep gameExcluded) TickUnmasked (displayStart, false) gameAndBack :=
  mode_kept_iff rfl ⟨rfl, rfl, rfl⟩ rfl (by decide)

/-- A tick in an excluded app turns the mode to English. -/
theorem mode_lost :
    ¬∀ events : List DisplayEvent, (∀ e ∈ events, e.notForced) →
      (Machine.run (displayStep gameExcluded) displayStart events).focus.vietnameseMode = true := by
  intro h
  have hmode := h [.focus (Classify gameExcluded "game.exe" 11), .tick,
    .focus (Classify gameExcluded "notepad.exe" 10)] (by decide)
  revert hmode
  decide

end NextKey
