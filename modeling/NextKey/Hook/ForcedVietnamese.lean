import Mathlib.Tactic.ByContra
import NextKey.Hook.Focus

/-!
# Leaving apps locked to Vietnamese

An app that is locked to Vietnamese forces the mode while it has the focus, and the user's choice for
other apps is meant to stay as it was. The run with every visit to such an app is compared with the run
without them, at each focus on an app that is not locked.

The two runs differ in the mode from a visit that forces it until something sets the mode again.
Smart switch does, for an app whose mode is remembered (`modes_withoutForced`). Every other app
inherits the forced mode (`mode_leaks`).
-/

namespace NextKey

/-- The app is locked to Vietnamese. -/
def FocusConfig.forcesVietnamese (cfg : FocusConfig) (exeName : String) : Prop :=
  cfg.perAppMode exeName = .ForceVietnamese

instance {cfg : FocusConfig} {exeName} : Decidable (cfg.forcesVietnamese exeName) :=
  inferInstanceAs (Decidable (_ = _))

/-- The app is neither excluded nor locked to Vietnamese. -/
def FocusConfig.unlocked (cfg : FocusConfig) (exeName : String) : Prop :=
  cfg.perAppMode exeName = .None

instance {cfg : FocusConfig} {exeName} : Decidable (cfg.unlocked exeName) :=
  inferInstanceAs (Decidable (_ = _))

/-- The modes in force after each focus on an app that is not locked. -/
def modes (cfg : FocusConfig) (s : FocusState) : List FocusEvent → List Bool
  | [] => []
  | .focus exeName pid :: events =>
    let s := focusStep cfg s (.focus exeName pid)
    if cfg.unlocked exeName then s.vietnameseMode :: modes cfg s events else modes cfg s events
  | .toggle fgPid :: events => modes cfg (focusStep cfg s (.toggle fgPid)) events

/-- The events without the visits to apps locked to Vietnamese: a visit goes on to the next focus. -/
def withoutForced (cfg : FocusConfig) (visiting : Bool) : List FocusEvent → List FocusEvent
  | [] => []
  | .focus exeName pid :: events =>
    if cfg.forcesVietnamese exeName then withoutForced cfg true events
    else .focus exeName pid :: withoutForced cfg false events
  | .toggle fgPid :: events =>
    if visiting then withoutForced cfg visiting events
    else .toggle fgPid :: withoutForced cfg visiting events

/-- The toggle comes while the excluded app has lost the focus, and only sets the mode. -/
def FocusState.staleExcluded (cfg : FocusConfig) (s : FocusState) (fgPid : BitVec 32) : Prop :=
  cfg.excludeApps ∧ s.isExcludedApp ∧ ¬(fgPid = s.excludedPid ∧ s.excludedPid ≠ 0)

instance {cfg : FocusConfig} {s : FocusState} {fgPid} : Decidable (s.staleExcluded cfg fgPid) :=
  inferInstanceAs (Decidable (_ ∧ _ ∧ _))

/-- The state and whether a visit has changed the mode and nothing has set it since. -/
def forcedStep (cfg : FocusConfig) : FocusState × Bool → FocusEvent → FocusState × Bool
  | (s, forced), .focus exeName pid =>
    (focusStep cfg s (.focus exeName pid),
      if cfg.forcesVietnamese exeName then forced || !s.vietnameseMode
      else if cfg.unlocked exeName then false
      else forced)
  | (s, forced), .toggle fgPid =>
    (focusStep cfg s (.toggle fgPid), if s.staleExcluded cfg fgPid then false else forced)

/-- An app that is not locked finds a remembered mode when the mode was forced, and toggles act neither
    in a visit nor on the remembered mode of an app locked to Vietnamese. -/
def Restored (cfg : FocusConfig) : FocusState × Bool → FocusEvent → Prop
  | (s, forced), .focus exeName _ =>
    exeName ≠ "" ∧ (cfg.unlocked exeName → forced →
      cfg.smartSwitch ∧ (s.appModeMap.lookup exeName).isSome)
  | (s, _), .toggle fgPid =>
    (s.isForcedVnApp → fgPid = s.forcedVnPid ∧ s.forcedVnPid ≠ 0) ∧
      (cfg.smartSwitch → s.isForcedVnApp = false → ¬cfg.forcesVietnamese s.activeExe)

instance {cfg : FocusConfig} : ∀ s e, Decidable (Restored cfg s e)
  | (_, _), .focus exeName _ => inferInstanceAs (Decidable (exeName ≠ "" ∧ (_ → _ → _)))
  | (_, _), .toggle _ => inferInstanceAs (Decidable ((_ → _) ∧ (_ → _ → _)))

/-- No change of the keyboard layout is waiting for a lock to clear. -/
def FocusState.layoutSettled (cfg : FocusConfig) (s : FocusState) : Prop :=
  cfg.cjkAutoSwitch → s.cachedIsCompatLayout = !s.layoutSuppressed

instance {cfg : FocusConfig} {s : FocusState} : Decidable (s.layoutSettled cfg) :=
  inferInstanceAs (Decidable (_ → _))

section
variable {cfg : FocusConfig} {s : FocusState} {exeName : String} {pid fgPid : BitVec 32}

/-- The app that toggles are remembered for, after a focus. -/
def activeAfter (cfg : FocusConfig) (s : FocusState) (exeName : String) (pid : BitVec 32) : String :=
  if pid ≠ 0 ∧ pid ≠ cfg.currentProcessId then exeName else s.activeExe

/-- The mode is saved for the app that is left. -/
lemma saveMode_active {exe} : saveMode cfg { s with activeExe := exe } =
    { s with activeExe := exe, appModeMap := (saveMode cfg s).appModeMap } := by
  simp only [saveMode]
  split <;> rfl

/-- A locked app has nothing to remember. -/
lemma saveMode_locked (h : s.isExcludedApp ∨ s.isForcedVnApp) : saveMode cfg s = s := by
  obtain h | h := h
  all_goals simp [saveMode, h]

/-- The layout has nothing to do when it is settled. -/
lemma OnLayoutChanged_settled (h : s.layoutSettled cfg) :
    OnLayoutChanged cfg s s.cachedIsCompatLayout = s := by
  cases hcjk : cfg.cjkAutoSwitch with
  | false => simp [OnLayoutChanged, hcjk]
  | true =>
    have hcompat := h hcjk
    cases hsup : s.layoutSuppressed
    all_goals simp [OnLayoutChanged, hcompat, hsup]

/-- An app is forced only when apps are excluded at all. -/
lemma FocusConfig.forcesVietnamese.excludeApps (h : cfg.forcesVietnamese exeName) :
    cfg.excludeApps := by
  cases hexclude : cfg.excludeApps with
  | true => rfl
  | false => simp [FocusConfig.forcesVietnamese, FocusConfig.perAppMode, hexclude] at h

/-- A forced app is classified as forced. -/
lemma Classify_forces (hexe : exeName ≠ "") (h : cfg.forcesVietnamese exeName) :
    (Classify cfg exeName pid).isForcedVietnamese = true ∧
      (Classify cfg exeName pid).isExcluded = false := by
  simp only [FocusConfig.forcesVietnamese] at h
  simp [Classify, hexe, h]

/-- An excluded app is classified as excluded. -/
lemma Classify_excludes (hexe : exeName ≠ "") (h : cfg.perAppMode exeName = .ForceEnglish) :
    (Classify cfg exeName pid).isForcedVietnamese = false ∧
      (Classify cfg exeName pid).isExcluded = true := by
  simp [Classify, hexe, h]

/-- Any other app is neither. -/
lemma Classify_unlocked (h : cfg.unlocked exeName) :
    (Classify cfg exeName pid).isForcedVietnamese = false ∧
      (Classify cfg exeName pid).isExcluded = false := by
  simp only [FocusConfig.unlocked] at h
  simp [Classify, h]

/-- An app is excluded only with the feature on. -/
lemma excludeApps_of_excluded (h : cfg.perAppMode exeName = .ForceEnglish) : cfg.excludeApps := by
  cases hexclude : cfg.excludeApps with
  | true => rfl
  | false => simp [FocusConfig.perAppMode, hexclude] at h

/-- Some feature needs to know the app that has the focus. -/
def FocusConfig.tracksApps (cfg : FocusConfig) : Bool :=
  cfg.smartSwitch || cfg.excludeApps || cfg.tsfApps || !cfg.noOverrides

/-- The app with the focus has become known and its mode is not resolved yet. -/
def focused (cfg : FocusConfig) (s : FocusState) (cls : FocusClassification) : FocusState :=
  { s with
    isExcludedApp := cls.isExcluded
    isTsfApp := cls.isTsf
    isForcedVnApp := cls.isForcedVietnamese
    forcedVnPid := if cls.isForcedVietnamese then cls.pid else s.forcedVnPid
    activeExe := activeAfter cfg s cls.exeName cls.pid
    lastRealExe := cls.exeName
    appModeMap := (saveMode cfg s).appModeMap }

/-- A focus with settled layout. -/
lemma ApplyFocusOnHookThread_eq {cls : FocusClassification} (hskip : cls.skipAppTracking = false)
    (htracks : cfg.tracksApps) (hexe : cls.exeName ≠ "") (hlayout : s.layoutSettled cfg) :
    ApplyFocusOnHookThread cfg cls s =
      if cls.isExcluded then { focused cfg s cls with excludedPid := cls.pid }
      else resolveMode cfg (focused cfg s cls) cls := by
  have hresolve : ∀ t : FocusState, t.layoutSettled cfg →
      (resolveMode cfg t cls).layoutSettled cfg := by
    intro t ht
    simp only [resolveMode]
    split
    · exact ht
    · split
      · split
        · exact ht
        · exact ht
      · exact ht
  have hlayout' : (resolveMode cfg (focused cfg s cls) cls).layoutSettled cfg := hresolve _ hlayout
  have hactive : (if cls.exeName ≠ "" ∧ cls.pid ≠ 0 ∧ cls.pid ≠ cfg.currentProcessId then
      { s with activeExe := cls.exeName } else s) =
        { s with activeExe := activeAfter cfg s cls.exeName cls.pid } := by
    simp only [activeAfter, ne_eq, hexe, not_false_eq_true, true_and]
    split <;> rfl
  have hshort : (!cfg.smartSwitch && !cfg.excludeApps && !cfg.tsfApps && cfg.noOverrides) = false := by
    have hnot : (!cfg.tracksApps) = false := by rw [htracks]; rfl
    simpa only [FocusConfig.tracksApps, Bool.not_or, Bool.not_not] using hnot
  simp only [ApplyFocusOnHookThread, hactive, hskip, Bool.false_eq_true, if_false, hshort, hexe,
    saveMode_active]
  split
  · rfl
  · split
    · exact OnLayoutChanged_settled hlayout'
    · rfl

/-- No feature needs to know the app. -/
lemma focusStep_untracked (htracks : cfg.tracksApps = false) (hexe : exeName ≠ "") :
    focusStep cfg s (.focus exeName pid) = { s with activeExe := activeAfter cfg s exeName pid } := by
  have hshort : (!cfg.smartSwitch && !cfg.excludeApps && !cfg.tsfApps && cfg.noOverrides) = true := by
    have hnot : (!cfg.tracksApps) = true := by rw [htracks]; rfl
    simpa only [FocusConfig.tracksApps, Bool.not_or, Bool.not_not] using hnot
  simp only [focusStep, ApplyFocusOnHookThread, Classify, hshort, activeAfter, ne_eq, hexe,
    not_false_eq_true, true_and, Bool.false_eq_true, if_false, if_true]
  split <;> rfl

/-- An app locked to Vietnamese gets the focus. -/
lemma focusStep_forces (hexe : exeName ≠ "") (h : cfg.forcesVietnamese exeName)
    (hlayout : s.layoutSettled cfg) : focusStep cfg s (.focus exeName pid) =
      { focused cfg s (Classify cfg exeName pid) with vietnameseMode := true } := by
  have htracks : cfg.tracksApps := by simp [FocusConfig.tracksApps, h.excludeApps]
  obtain ⟨hforces, hexcluded⟩ := @Classify_forces cfg exeName pid hexe h
  rw [focusStep, ApplyFocusOnHookThread_eq rfl htracks hexe hlayout, hexcluded]
  simp only [resolveMode, hforces, Bool.false_eq_true, if_false, if_true]

/-- An excluded app gets the focus. -/
lemma focusStep_excludes (hexe : exeName ≠ "") (h : cfg.perAppMode exeName = .ForceEnglish)
    (hlayout : s.layoutSettled cfg) : focusStep cfg s (.focus exeName pid) =
      { focused cfg s (Classify cfg exeName pid) with excludedPid := pid } := by
  have htracks : cfg.tracksApps := by simp [FocusConfig.tracksApps, excludeApps_of_excluded h]
  obtain ⟨-, hexcluded⟩ := @Classify_excludes cfg exeName pid hexe h
  rw [focusStep, ApplyFocusOnHookThread_eq rfl htracks hexe hlayout, hexcluded]
  rfl

/-- An app that is not locked gets the focus. -/
lemma focusStep_unlocked (hexe : exeName ≠ "") (h : cfg.unlocked exeName)
    (htracks : cfg.tracksApps) (hlayout : s.layoutSettled cfg) :
    focusStep cfg s (.focus exeName pid) =
      { focused cfg s (Classify cfg exeName pid) with
        vietnameseMode :=
          if cfg.smartSwitch then
            ((saveMode cfg s).appModeMap.lookup exeName).getD s.vietnameseMode
          else s.vietnameseMode } := by
  obtain ⟨hforces, hexcluded⟩ := @Classify_unlocked cfg exeName pid h
  rw [focusStep, ApplyFocusOnHookThread_eq rfl htracks hexe hlayout, hexcluded]
  simp only [resolveMode, hforces, Bool.false_eq_true, if_false]
  split
  · have hname : (Classify cfg exeName pid).exeName = exeName := rfl
    have hmap : (focused cfg s (Classify cfg exeName pid)).appModeMap =
        (saveMode cfg s).appModeMap := rfl
    rw [hname, hmap]
    cases (saveMode cfg s).appModeMap.lookup exeName <;> rfl
  · rfl

end

/-- The run with the visits is in one. -/
structure InVisit (cfg : FocusConfig) (r d : FocusState) : Prop where
  locked : r.isForcedVnApp = true
  notExcluded : r.isExcludedApp = false
  excludeApps : cfg.excludeApps = true
  mode : r.vietnameseMode = true
  /-- The mode of the app before the visit is saved on entering it. -/
  saved : r.appModeMap = (saveMode cfg d).appModeMap

/-- Both runs are in the same app. -/
structure SameApp (cfg : FocusConfig) (r d : FocusState) (forced : Bool) : Prop where
  notLocked : r.isForcedVnApp = false
  isExcludedApp : r.isExcludedApp = d.isExcludedApp
  lastRealExe : r.lastRealExe = d.lastRealExe
  appModeMap : r.appModeMap = d.appModeMap
  /-- A forced mode lasts in excluded apps. -/
  excluded : forced → r.isExcludedApp = true ∧ cfg.excludeApps = true

/-- A state `r` of the run with the visits and the state `d` of the run without, when the mode is
    `forced` or not. -/
structure Twin (cfg : FocusConfig) (r d : FocusState) (forced : Bool) : Prop where
  settled : r.layoutSettled cfg
  settled' : d.layoutSettled cfg
  notLocked : d.isForcedVnApp = false
  excludedPid : r.excludedPid = d.excludedPid
  activeExe : r.activeExe = d.activeExe ∨ cfg.forcesVietnamese r.activeExe
  mode : if forced then r.vietnameseMode = true ∧ d.vietnameseMode = false
    else r.vietnameseMode = d.vietnameseMode
  place : InVisit cfg r d ∨ SameApp cfg r d forced

section
variable {cfg : FocusConfig} {r d : FocusState} {forced : Bool} {exeName : String}
  {pid fgPid : BitVec 32}

/-- The next focus saves the same modes in both runs. -/
lemma Twin.saved (h : Twin cfg r d forced) :
    (saveMode cfg r).appModeMap = (saveMode cfg d).appModeMap := by
  obtain hvisit | hsame := h.place
  · rw [saveMode_locked (.inr hvisit.locked), hvisit.saved]
  · cases forced with
    | true =>
      have hexcluded := (hsame.excluded rfl).1
      rw [saveMode_locked (.inl hexcluded), saveMode_locked (.inl (hsame.isExcludedApp ▸ hexcluded))]
      exact hsame.appModeMap
    | false =>
      have hmode : r.vietnameseMode = d.vietnameseMode := h.mode
      simp only [saveMode, hsame.lastRealExe, hsame.isExcludedApp, hsame.notLocked, h.notLocked,
        hsame.appModeMap, hmode]
      split <;> simp [hsame.appModeMap]

/-- Both runs go to the same app. -/
lemma Twin.activeAfter (h : Twin cfg r d forced) :
    activeAfter cfg r exeName pid = activeAfter cfg d exeName pid ∨
      cfg.forcesVietnamese (activeAfter cfg r exeName pid) := by
  simp only [NextKey.activeAfter]
  split
  · exact .inl rfl
  · exact h.activeExe

/-- Only the run with the visits goes to the app. -/
lemma Twin.visit (h : Twin cfg r d forced) (hexe : exeName ≠ "")
    (hforces : cfg.forcesVietnamese exeName) :
    Twin cfg (focusStep cfg r (.focus exeName pid)) d (forced || !r.vietnameseMode) := by
  rw [focusStep_forces hexe hforces h.settled]
  obtain ⟨hforced, hexcluded⟩ := @Classify_forces cfg exeName pid hexe hforces
  refine ⟨h.settled, h.settled', h.notLocked, h.excludedPid, ?_, ?_, ?_⟩
  · dsimp only [focused, NextKey.activeAfter]
    split
    · exact .inr hforces
    · exact h.activeExe
  · have hmode := h.mode
    cases forced with
    | true => exact ⟨rfl, hmode.2⟩
    | false =>
      have hmode' : r.vietnameseMode = d.vietnameseMode := hmode
      rw [hmode']
      cases d.vietnameseMode
      · exact ⟨rfl, rfl⟩
      · exact rfl
  · exact .inl ⟨hforced, hexcluded, hforces.excludeApps, rfl, h.saved⟩

/-- Both runs go to an excluded app. -/
lemma Twin.exclude (h : Twin cfg r d forced) (hexe : exeName ≠ "")
    (hmode : cfg.perAppMode exeName = .ForceEnglish) :
    Twin cfg (focusStep cfg r (.focus exeName pid)) (focusStep cfg d (.focus exeName pid)) forced := by
  rw [focusStep_excludes hexe hmode h.settled, focusStep_excludes hexe hmode h.settled']
  obtain ⟨hforced, hexcluded⟩ := @Classify_excludes cfg exeName pid hexe hmode
  exact ⟨h.settled, h.settled', hforced, rfl, h.activeAfter, h.mode,
    .inr ⟨hforced, rfl, rfl, h.saved, fun _ => ⟨hexcluded, excludeApps_of_excluded hmode⟩⟩⟩

/-- Both runs go to an app that is not locked. -/
lemma Twin.unlocked (h : Twin cfg r d forced) (hexe : exeName ≠ "") (hunlocked : cfg.unlocked exeName)
    (hrestored : forced → cfg.smartSwitch ∧ (r.appModeMap.lookup exeName).isSome) :
    Twin cfg (focusStep cfg r (.focus exeName pid)) (focusStep cfg d (.focus exeName pid)) false := by
  cases htracks : cfg.tracksApps with
  | false =>
    have hexclude : cfg.excludeApps = false := by
      simp only [FocusConfig.tracksApps, Bool.or_eq_false_iff] at htracks
      exact htracks.1.1.2
    rw [focusStep_untracked htracks hexe, focusStep_untracked htracks hexe]
    obtain hvisit | hsame := h.place
    · exact absurd hvisit.excludeApps (by simp [hexclude])
    · cases forced with
      | true => exact absurd (hsame.excluded rfl).2 (by simp [hexclude])
      | false =>
        exact ⟨h.settled, h.settled', h.notLocked, h.excludedPid, h.activeAfter, h.mode,
          .inr ⟨hsame.notLocked, hsame.isExcludedApp, hsame.lastRealExe, hsame.appModeMap, nofun⟩⟩
  | true =>
    rw [focusStep_unlocked hexe hunlocked htracks h.settled,
      focusStep_unlocked hexe hunlocked htracks h.settled']
    obtain ⟨hforced, -⟩ := @Classify_unlocked cfg exeName pid hunlocked
    refine ⟨h.settled, h.settled', hforced, h.excludedPid, h.activeAfter, ?_,
      .inr ⟨hforced, rfl, rfl, h.saved, nofun⟩⟩
    dsimp only
    rw [h.saved]
    cases forced with
    | false =>
      have hmode : r.vietnameseMode = d.vietnameseMode := h.mode
      rw [hmode]
      rfl
    | true =>
      obtain ⟨hsmart, hsome⟩ := hrestored rfl
      have hlocked : r.isExcludedApp = true ∨ r.isForcedVnApp = true := by
        obtain hvisit | hsame := h.place
        · exact .inr hvisit.locked
        · exact .inl (hsame.excluded rfl).1
      rw [← h.saved, saveMode_locked hlocked]
      obtain ⟨mode, hlookup⟩ := Option.isSome_iff_exists.1 hsome
      simp [hsmart, hlookup]

/-- In a visit, the toggle is blocked. -/
lemma toggle_inVisit (h : InVisit cfg r d) (hpid : fgPid = r.forcedVnPid ∧ r.forcedVnPid ≠ 0) :
    focusStep cfg r (.toggle fgPid) = r := by
  simp only [focusStep, ApplyToggleVNOnHookThread, h.notExcluded, h.locked, h.excludeApps, hpid.1,
    Bool.and_false, Bool.false_eq_true, if_false, Bool.true_and, decide_true]
  exact if_pos (decide_eq_true hpid.2)

/-- In an excluded app, the toggle is blocked. -/
lemma toggle_excluded {s : FocusState} (hgate : (cfg.excludeApps && s.isExcludedApp) = true)
    (hpid : fgPid = s.excludedPid ∧ s.excludedPid ≠ 0) : focusStep cfg s (.toggle fgPid) = s := by
  rw [focusStep, ApplyToggleVNOnHookThread, if_pos hgate, if_pos hpid]

/-- After an excluded app, the toggle sets the mode. -/
lemma toggle_staleExcluded {s : FocusState} (h : s.staleExcluded cfg fgPid) :
    focusStep cfg s (.toggle fgPid) = { s with isExcludedApp := false, vietnameseMode := true } := by
  have hgate : (cfg.excludeApps && s.isExcludedApp) = true := by rw [h.1, h.2.1]; rfl
  rw [focusStep, ApplyToggleVNOnHookThread, if_pos hgate, if_neg h.2.2]

/-- In an app that is not locked, the mode is toggled. -/
lemma toggle_unlocked {s : FocusState} (hforced : s.isForcedVnApp = false)
    (hgate : (cfg.excludeApps && s.isExcludedApp) = false) :
    focusStep cfg s (.toggle fgPid) =
      { s with
        vietnameseMode := !s.vietnameseMode
        appModeMap :=
          if cfg.smartSwitch && s.activeExe ≠ "" then
            AppModes.assign s.appModeMap s.activeExe (!s.vietnameseMode)
          else s.appModeMap } := by
  simp only [focusStep, ApplyToggleVNOnHookThread, hgate, hforced, Bool.and_false, Bool.false_and,
    Bool.false_eq_true, if_false, ite_self]

/-- The mode is toggled in both runs. -/
lemma Twin.toggle (h : Twin cfg r d forced) (hsame : SameApp cfg r d forced)
    (hactive : cfg.smartSwitch → ¬cfg.forcesVietnamese r.activeExe) :
    Twin cfg (focusStep cfg r (.toggle fgPid)) (focusStep cfg d (.toggle fgPid))
      (if r.staleExcluded cfg fgPid then false else forced) := by
  have hstale_iff : r.staleExcluded cfg fgPid ↔ d.staleExcluded cfg fgPid := by
    simp only [FocusState.staleExcluded, hsame.isExcludedApp, h.excludedPid]
  by_cases hstale : r.staleExcluded cfg fgPid
  · rw [if_pos hstale, toggle_staleExcluded hstale, toggle_staleExcluded (hstale_iff.1 hstale)]
    exact ⟨h.settled, h.settled', h.notLocked, h.excludedPid, h.activeExe, rfl,
      .inr ⟨hsame.notLocked, rfl, hsame.lastRealExe, hsame.appModeMap, nofun⟩⟩
  rw [if_neg hstale]
  cases hgate : cfg.excludeApps && r.isExcludedApp with
  | true =>
    have hpid : fgPid = r.excludedPid ∧ r.excludedPid ≠ 0 := by
      by_contra hpid
      obtain ⟨hexclude, hexcluded⟩ := Bool.and_eq_true_iff.1 hgate
      exact hstale ⟨hexclude, hexcluded, hpid⟩
    have hgate' : (cfg.excludeApps && d.isExcludedApp) = true := hsame.isExcludedApp ▸ hgate
    rw [toggle_excluded hgate hpid, toggle_excluded hgate' (h.excludedPid ▸ hpid)]
    exact h
  | false =>
    have hgate' : (cfg.excludeApps && d.isExcludedApp) = false := hsame.isExcludedApp ▸ hgate
    rw [toggle_unlocked hsame.notLocked hgate, toggle_unlocked h.notLocked hgate']
    have hforced : forced = false := by
      cases hforced : forced with
      | false => rfl
      | true =>
        obtain ⟨hexcluded, hexclude⟩ := hsame.excluded hforced
        rw [hexclude, hexcluded] at hgate
        cases hgate
    subst hforced
    have hmode : r.vietnameseMode = d.vietnameseMode := h.mode
    have hmode' : (!r.vietnameseMode) = !d.vietnameseMode := congrArg _ hmode
    refine ⟨h.settled, h.settled', h.notLocked, h.excludedPid, h.activeExe, hmode',
      .inr ⟨hsame.notLocked, hsame.isExcludedApp, hsame.lastRealExe, ?_, nofun⟩⟩
    dsimp only
    cases hsmart : cfg.smartSwitch with
    | false => exact hsame.appModeMap
    | true => rw [h.activeExe.resolve_right (hactive hsmart), hsame.appModeMap, hmode]

/-- The state the run without the visits goes to. -/
def twinStep (cfg : FocusConfig) (r d : FocusState) : FocusEvent → FocusState
  | .focus exeName pid =>
    if cfg.forcesVietnamese exeName then d else focusStep cfg d (.focus exeName pid)
  | .toggle fgPid => if r.isForcedVnApp then d else focusStep cfg d (.toggle fgPid)

/-- Every event keeps the two runs related. -/
lemma Twin.step {e} (h : Twin cfg r d forced) (hok : Restored cfg (r, forced) e) :
    Twin cfg (forcedStep cfg (r, forced) e).1 (twinStep cfg r d e)
      (forcedStep cfg (r, forced) e).2 := by
  cases e with
  | focus exeName pid =>
    obtain ⟨hexe, hrestored⟩ := hok
    simp only [forcedStep, twinStep]
    cases hmode : cfg.perAppMode exeName with
    | None =>
      have hforces : ¬cfg.forcesVietnamese exeName := by simp [FocusConfig.forcesVietnamese, hmode]
      have hunlocked : cfg.unlocked exeName := hmode
      rw [if_neg hforces, if_neg hforces, if_pos hunlocked]
      exact h.unlocked hexe hmode (hrestored hmode)
    | ForceEnglish =>
      have hforces : ¬cfg.forcesVietnamese exeName := by simp [FocusConfig.forcesVietnamese, hmode]
      have hunlocked : ¬cfg.unlocked exeName := by simp [FocusConfig.unlocked, hmode]
      rw [if_neg hforces, if_neg hforces, if_neg hunlocked]
      exact h.exclude hexe hmode
    | ForceVietnamese =>
      have hforces : cfg.forcesVietnamese exeName := hmode
      rw [if_pos hforces, if_pos hforces]
      exact h.visit hexe hmode
  | toggle fgPid =>
    obtain ⟨hblocked, hactive⟩ := hok
    simp only [forcedStep, twinStep]
    obtain hvisit | hsame := h.place
    · have hfresh : ¬r.staleExcluded cfg fgPid := by
        rintro ⟨-, hexcluded, -⟩
        rw [hvisit.notExcluded] at hexcluded
        cases hexcluded
      rw [if_neg hfresh, if_pos hvisit.locked, toggle_inVisit hvisit (hblocked hvisit.locked)]
      exact h
    · rw [hsame.notLocked, if_neg nofun]
      exact h.toggle hsame fun hsmart => hactive hsmart hsame.notLocked

/-- Every focus decides whether there is a visit. -/
lemma Twin.focus_isForcedVnApp (h : Twin cfg r d forced) (hexe : exeName ≠ "") :
    (focusStep cfg r (.focus exeName pid)).isForcedVnApp = decide (cfg.forcesVietnamese exeName) := by
  cases hmode : cfg.perAppMode exeName with
  | None =>
    have hforces : ¬cfg.forcesVietnamese exeName := by simp [FocusConfig.forcesVietnamese, hmode]
    rw [decide_eq_false hforces]
    cases htracks : cfg.tracksApps with
    | true =>
      rw [focusStep_unlocked hexe hmode htracks h.settled]
      exact (@Classify_unlocked cfg exeName pid hmode).1
    | false =>
      rw [focusStep_untracked htracks hexe]
      obtain hvisit | hsame := h.place
      · simp [FocusConfig.tracksApps, hvisit.excludeApps] at htracks
      · exact hsame.notLocked
  | ForceEnglish =>
    have hforces : ¬cfg.forcesVietnamese exeName := by simp [FocusConfig.forcesVietnamese, hmode]
    rw [decide_eq_false hforces, focusStep_excludes hexe hmode h.settled]
    exact (@Classify_excludes cfg exeName pid hexe hmode).1
  | ForceVietnamese =>
    have hforces : cfg.forcesVietnamese exeName := hmode
    rw [decide_eq_true hforces, focusStep_forces hexe hforces h.settled]
    exact (@Classify_forces cfg exeName pid hexe hforces).1

/-- No toggle ends a visit. -/
lemma Twin.toggle_isForcedVnApp (h : Twin cfg r d forced)
    (hok : Restored cfg (r, forced) (.toggle fgPid)) :
    (focusStep cfg r (.toggle fgPid)).isForcedVnApp = r.isForcedVnApp := by
  obtain hvisit | hsame := h.place
  · rw [toggle_inVisit hvisit (hok.1 hvisit.locked)]
  · have htoggled : (focusStep cfg r (.toggle fgPid)).isForcedVnApp = false := by
      simp only [focusStep, ApplyToggleVNOnHookThread, hsame.notLocked]
      repeat' split
      all_goals simp [hsame.notLocked]
    rw [htoggled, hsame.notLocked]

/-- Related runs have the same modes in apps that are not locked. -/
lemma Twin.modes {events} (h : Twin cfg r d forced)
    (hguard : Machine.Guarded (forcedStep cfg) (Restored cfg) (r, forced) events) :
    modes cfg r events = modes cfg d (withoutForced cfg r.isForcedVnApp events) := by
  induction events generalizing r d forced with
  | nil => rfl
  | cons e events ih =>
    obtain ⟨hok, hrest⟩ := hguard
    have hstep := h.step hok
    have hrest' := ih hstep hrest
    cases e with
    | focus exeName pid =>
      obtain ⟨hexe, -⟩ := hok
      have hvisit : (focusStep cfg r (.focus exeName pid)).isForcedVnApp = _ :=
        h.focus_isForcedVnApp hexe
      simp only [NextKey.modes, withoutForced]
      simp only [forcedStep, twinStep] at hrest' hstep
      rw [hvisit] at hrest'
      by_cases hforces : cfg.forcesVietnamese exeName
      · have hunlocked : ¬cfg.unlocked exeName := by
          intro hunlocked
          simp only [FocusConfig.forcesVietnamese] at hforces
          rw [FocusConfig.unlocked, hforces] at hunlocked
          cases hunlocked
        rw [if_neg hunlocked, if_pos hforces, hrest', if_pos hforces, decide_eq_true hforces]
      · rw [if_neg hforces, NextKey.modes, hrest', if_neg hforces, decide_eq_false hforces]
        by_cases hunlocked : cfg.unlocked exeName
        · rw [if_neg hforces, if_neg hforces, if_pos hunlocked] at hstep
          have hmode : (focusStep cfg r (.focus exeName pid)).vietnameseMode =
            (focusStep cfg d (.focus exeName pid)).vietnameseMode := hstep.mode
          rw [if_pos hunlocked, if_pos hunlocked, hmode]
        · rw [if_neg hunlocked, if_neg hunlocked]
    | toggle fgPid =>
      have hvisit := h.toggle_isForcedVnApp hok
      simp only [NextKey.modes, withoutForced]
      simp only [forcedStep, twinStep] at hrest'
      rw [hvisit] at hrest'
      rw [hrest']
      cases hlocked : r.isForcedVnApp with
      | true => rw [if_pos rfl, if_pos rfl]
      | false => rw [if_neg nofun, if_neg nofun, NextKey.modes]

end

/-- When every app that is not locked finds a remembered mode after a visit that changed the mode,
and no toggle acts in a visit, the modes there are those of the run without the visits. -/
theorem modes_withoutForced {cfg : FocusConfig} {s : FocusState} {events : List FocusEvent}
    (hstart : s.isForcedVnApp = false) (hlayout : s.layoutSettled cfg)
    (hguard : Machine.Guarded (forcedStep cfg) (Restored cfg) (s, false) events) :
    modes cfg s events = modes cfg s (withoutForced cfg false events) := by
  have htwin : Twin cfg s s false := ⟨hlayout, hlayout, hstart, rfl, .inl rfl, rfl,
    .inr ⟨hstart, rfl, rfl, rfl, nofun⟩⟩
  have hmodes := htwin.modes hguard
  rwa [hstart] at hmodes

/-- One app locked to Vietnamese. -/
def chatLocked (smartSwitch : Bool) : FocusConfig where
  smartSwitch := smartSwitch
  excludeApps := true
  forcedVietnameseAppSet := ["zalo.exe"]

/-- From one app to the locked one, a blocked toggle there, and back. -/
def chatAndBack : List FocusEvent :=
  [.focus "notepad.exe" 10, .focus "zalo.exe" 11, .toggle 11, .focus "notepad.exe" 10]

/-- A forced app and back. -/
theorem modes_withoutForced_chatAndBack :
    modes (chatLocked true) { vietnameseMode := false } chatAndBack =
      modes (chatLocked true) { vietnameseMode := false }
        (withoutForced (chatLocked true) false chatAndBack) :=
  modes_withoutForced rfl (by decide) (by decide)

/-- Without smart switch the app gets the forced mode, and with it an app not seen before does. -/
theorem mode_leaks :
    (¬∀ events, modes (chatLocked false) { vietnameseMode := false } events =
      modes (chatLocked false) { vietnameseMode := false }
        (withoutForced (chatLocked false) false events)) ∧
    ¬∀ events, modes (chatLocked true) { vietnameseMode := false } events =
      modes (chatLocked true) { vietnameseMode := false }
        (withoutForced (chatLocked true) false events) := by
  constructor
  · intro h
    have hmodes := h chatAndBack
    revert hmodes
    decide
  · intro h
    have hmodes := h [.focus "zalo.exe" 11, .focus "notepad.exe" 10]
    revert hmodes
    decide

end NextKey
