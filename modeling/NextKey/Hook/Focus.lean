import Mathlib.Tactic.Lemma
import NextKey.Lib.Machine

/-!
# Focus changes and the typing mode

Model of the mode tracking in `HookEngine::ApplyFocusOnHookThread` and
`HookEngine::ApplyToggleVNOnHookThread`, with the per-app classification of `FocusOwner::Classify`, the
decisions `DecidePerAppMode` and `DecideCjkSwitch`, and `OnLayoutChanged`. The keyboard layout stays
the same, so `CheckLayoutChange` has nothing to do. The parts of `ApplyFocusOnHookThread` that reset the
composition or set up the output are left out.

There is one typing mode for all apps. Smart switch remembers a mode for each app, and an app that is
locked to Vietnamese overwrites the one mode when it gets the focus.
-/

namespace NextKey

/-- Per-app lock (C++ `PerAppMode`). -/
inductive PerAppMode where
  | None
  | ForceEnglish
  | ForceVietnamese
  deriving DecidableEq, Repr

/-- C++ `DecidePerAppMode` -/
def DecidePerAppMode (inExcludedSet inForcedVietnameseSet : Bool) : PerAppMode :=
  if inExcludedSet then .ForceEnglish
  else if inForcedVietnameseSet then .ForceVietnamese
  else .None

/-- What the functions read of `TypingConfig` and `ConfigSnapshot`. -/
structure FocusConfig where
  smartSwitch : Bool := false
  excludeApps : Bool := false
  tsfApps : Bool := false
  cjkAutoSwitch : Bool := false
  excludedAppSet : List String := []
  forcedVietnameseAppSet : List String := []
  tsfAppSet : List String := []
  /-- `appEncodingOverrides` and `appInputMethodOverrides` are empty. -/
  noOverrides : Bool := true
  /-- `GetCurrentProcessId()` -/
  currentProcessId : BitVec 32 := 1
  deriving Repr

/-- The lock of an app under a configuration. -/
def FocusConfig.perAppMode (cfg : FocusConfig) (exeName : String) : PerAppMode :=
  if cfg.excludeApps then
    DecidePerAppMode (cfg.excludedAppSet.contains exeName) (cfg.forcedVietnameseAppSet.contains exeName)
  else .None

/-- What the hook thread gets to know of a focused window. -/
structure FocusClassification where
  pid : BitVec 32
  exeName : String
  isExcluded : Bool
  isForcedVietnamese : Bool
  isTsf : Bool
  skipAppTracking : Bool
  deriving DecidableEq, Repr

/-- The classification of a real app (C++ `FocusOwner::Classify`). -/
def Classify (cfg : FocusConfig) (exeName : String) (pid : BitVec 32) : FocusClassification where
  pid := pid
  exeName := exeName
  isExcluded := exeName ≠ "" ∧ cfg.perAppMode exeName = .ForceEnglish
  isForcedVietnamese := exeName ≠ "" ∧ cfg.perAppMode exeName = .ForceVietnamese
  isTsf := exeName ≠ "" ∧ cfg.perAppMode exeName ≠ .ForceEnglish ∧ cfg.tsfApps ∧
    cfg.tsfAppSet.contains exeName
  skipAppTracking := false

/-- The modes remembered per app (C++ `appModeMap_`). -/
abbrev AppModes := List (String × Bool)

/-- `map[exe] = mode` -/
def AppModes.assign : AppModes → String → Bool → AppModes
  | [], exe, mode => [(exe, mode)]
  | (exe', mode') :: map, exe, mode =>
    if exe' = exe then (exe, mode) :: map else (exe', mode') :: assign map exe mode

def kMaxSmartSwitchEntries : Nat := 200

/-- What the functions keep between calls. -/
structure FocusState where
  vietnameseMode : Bool
  isExcludedApp : Bool := false
  isTsfApp : Bool := false
  isForcedVnApp : Bool := false
  excludedPid : BitVec 32 := 0
  forcedVnPid : BitVec 32 := 0
  activeExe : String := ""
  lastRealExe : String := ""
  appModeMap : AppModes := []
  cachedIsCompatLayout : Bool := true
  layoutSuppressed : Bool := false
  modeBeforeCjk : Bool := true
  deriving DecidableEq, Repr

/-- C++ `OnLayoutChanged` with `DecideCjkSwitch` -/
def OnLayoutChanged (cfg : FocusConfig) (s : FocusState) (isCompatibleNow : Bool) : FocusState :=
  if !cfg.cjkAutoSwitch then s
  else if s.isExcludedApp || s.isForcedVnApp then s
  else if !isCompatibleNow && !s.layoutSuppressed then
    -- entering CJK
    { s with layoutSuppressed := true, modeBeforeCjk := s.vietnameseMode, vietnameseMode := false }
  else if isCompatibleNow && s.layoutSuppressed then
    -- leaving CJK
    { s with layoutSuppressed := false, vietnameseMode := s.modeBeforeCjk }
  else s

/-- Smart switch remembers the mode of the previous real app. -/
def saveMode (cfg : FocusConfig) (s : FocusState) : FocusState :=
  if cfg.smartSwitch && s.lastRealExe ≠ "" && !s.isExcludedApp && !s.isForcedVnApp then
    let map := if kMaxSmartSwitchEntries ≤ s.appModeMap.length then [] else s.appModeMap
    { s with appModeMap := AppModes.assign map s.lastRealExe s.vietnameseMode }
  else s

/-- The mode of an app that is not excluded: forced, or remembered by smart switch. -/
def resolveMode (cfg : FocusConfig) (s : FocusState) (cls : FocusClassification) : FocusState :=
  if cls.isForcedVietnamese then { s with vietnameseMode := true }
  else if cfg.smartSwitch then
    match s.appModeMap.lookup cls.exeName with
    | some mode => { s with vietnameseMode := mode }
    | none => s
  else s

/-- An app gets the focus (C++ `ApplyFocusOnHookThread`). -/
def ApplyFocusOnHookThread (cfg : FocusConfig) (cls : FocusClassification) (s : FocusState) :
    FocusState :=
  let s :=
    if cls.exeName ≠ "" ∧ cls.pid ≠ 0 ∧ cls.pid ≠ cfg.currentProcessId then
      { s with activeExe := cls.exeName }
    else s
  if cls.skipAppTracking then s
  else if !cfg.smartSwitch && !cfg.excludeApps && !cfg.tsfApps && cfg.noOverrides then s
  else if cls.exeName = "" then s
  else
    let wasLocked := s.isExcludedApp || s.isForcedVnApp
    let s :=
      { saveMode cfg s with
        lastRealExe := cls.exeName
        isExcludedApp := cls.isExcluded
        isTsfApp := cls.isTsf
        isForcedVnApp := cls.isForcedVietnamese
        forcedVnPid := if cls.isForcedVietnamese then cls.pid else s.forcedVnPid }
    if cls.isExcluded then { s with excludedPid := cls.pid }
    else
      let s := resolveMode cfg s cls
      if wasLocked then OnLayoutChanged cfg s s.cachedIsCompatLayout else s

/-- The mode is toggled while the foreground window is of process `fgPid`
    (C++ `ApplyToggleVNOnHookThread`). -/
def ApplyToggleVNOnHookThread (cfg : FocusConfig) (fgPid : BitVec 32) (s : FocusState) : FocusState :=
  if cfg.excludeApps && s.isExcludedApp then
    if fgPid = s.excludedPid ∧ s.excludedPid ≠ 0 then s
    else { s with isExcludedApp := false, vietnameseMode := true }
  else if cfg.excludeApps && s.isForcedVnApp && fgPid = s.forcedVnPid && s.forcedVnPid ≠ 0 then s
  else
    let newMode := !s.vietnameseMode
    { s with
      isForcedVnApp := if cfg.excludeApps then false else s.isForcedVnApp
      vietnameseMode := newMode
      appModeMap :=
        if cfg.smartSwitch && s.activeExe ≠ "" then AppModes.assign s.appModeMap s.activeExe newMode
        else s.appModeMap }

/-- A real app gets the focus, or the mode is toggled. -/
inductive FocusEvent where
  | focus (exeName : String) (pid : BitVec 32)
  | toggle (fgPid : BitVec 32)
  deriving DecidableEq, Repr

/-- One event. -/
def focusStep (cfg : FocusConfig) (s : FocusState) : FocusEvent → FocusState
  | .focus exeName pid => ApplyFocusOnHookThread cfg (Classify cfg exeName pid) s
  | .toggle fgPid => ApplyToggleVNOnHookThread cfg fgPid s

end NextKey
