import Mathlib.Data.Finset.Card
import NextKey.Hook.CjkFocus

/-!
# The memory of smart switch

Smart switch keeps a mode for each app in `appModeMap`. It is written under two names: a focus
stores the mode for `lastRealExe`, the last app that got the focus with a window of its own, and a
toggle stores it for `activeExe`, whose window may be a helper (a dock panel, a tray icon) that the
focus path skips. A focus reads it under the name of the new app.

With room for every app, a focus restores what was stored last: the mode in force when the app was last
left, or the mode that a later toggle set while a window of the app was in front (`focus_restores`).
-/

namespace NextKey

/-- A real app gets the focus, a helper window gets it, or the mode is toggled. -/
inductive SwitchEvent where
  | real (exeName : String) (pid : BitVec 32)
  | helper (exeName : String) (pid : BitVec 32)
  | toggle (fgPid : BitVec 32)
  deriving DecidableEq, Repr

/-- The focus state, with what has happened in each app. -/
structure SwitchRun where
  focus : FocusState
  /-- The mode in force when the app was last left. -/
  left : String → Option Bool
  /-- The mode set by the last toggle since then with a window of the app in front. -/
  toggledSince : String → Option Bool

namespace SwitchRun

/-- The engine starts with nothing remembered. -/
def start (mode : Bool) : SwitchRun where
  focus := { vietnameseMode := mode }
  left _ := none
  toggledSince _ := none

/-- The last real app is left. -/
def leave (s : SwitchRun) : SwitchRun :=
  if s.focus.lastRealExe = "" then s
  else { s with
    left := Function.update s.left s.focus.lastRealExe (some s.focus.vietnameseMode)
    toggledSince := Function.update s.toggledSince s.focus.lastRealExe none }

/-- The mode last in force in an app, as far as it is known. -/
def lastMode (s : SwitchRun) (exeName : String) : Option Bool :=
  (s.toggledSince exeName).or (s.left exeName)

end SwitchRun

/-- One event. -/
def switchStep (cfg : FocusConfig) (s : SwitchRun) : SwitchEvent → SwitchRun
  | .real exeName pid => { s.leave with focus := focusStep cfg s.focus (.focus exeName pid) }
  | .helper exeName pid =>
    { s with
      focus := ApplyFocusOnHookThread cfg
        { Classify cfg exeName pid with skipAppTracking := true } s.focus }
  | .toggle fgPid =>
    let focus := focusStep cfg s.focus (.toggle fgPid)
    { s with
      focus := focus
      toggledSince :=
        if s.focus.activeExe = "" then s.toggledSince
        else Function.update s.toggledSince s.focus.activeExe (some focus.vietnameseMode) }

/-- A real app has a name, is not locked and is one of the apps; so is a helper window with a name. -/
def Among (cfg : FocusConfig) (apps : Finset String) : SwitchEvent → Prop
  | .real exeName _ => exeName ≠ "" ∧ cfg.unlocked exeName ∧ exeName ∈ apps
  | .helper exeName _ => exeName ≠ "" → exeName ∈ apps
  | .toggle _ => True

instance {cfg : FocusConfig} {apps : Finset String} : DecidablePred (Among cfg apps)
  | .real exeName _ => inferInstanceAs (Decidable (exeName ≠ "" ∧ cfg.unlocked exeName ∧ _))
  | .helper exeName _ => inferInstanceAs (Decidable (exeName ≠ "" → _))
  | .toggle _ => inferInstanceAs (Decidable True)

/-- The names in the map are different apps. -/
def AppModes.Within (map : AppModes) (apps : Finset String) : Prop :=
  (map.map Prod.fst).Nodup ∧ ∀ entry ∈ map, entry.1 ∈ apps

/-- An entry is the new one or an old one. -/
lemma AppModes.mem_assign {map : AppModes} {exeName mode} {entry : String × Bool}
    (h : entry ∈ map.assign exeName mode) : entry.1 = exeName ∨ entry ∈ map := by
  induction map with
  | nil => exact .inl (congrArg Prod.fst (List.mem_singleton.1 h))
  | cons first map ih =>
    rw [AppModes.assign] at h
    split at h
    · obtain rfl | h := List.mem_cons.1 h
      · exact .inl rfl
      · exact .inr (.tail _ h)
    · obtain rfl | h := List.mem_cons.1 h
      · exact .inr (.head _)
      · exact (ih h).imp_right (.tail _)

/-- The map stays within the apps. -/
lemma AppModes.Within.assign {map : AppModes} {apps exeName mode} (h : map.Within apps)
    (hexe : exeName ∈ apps) : (map.assign exeName mode).Within apps := by
  refine ⟨?_, fun entry hentry => ?_⟩
  · obtain ⟨hnodup, -⟩ := h
    induction map with
    | nil => exact List.nodup_singleton _
    | cons first map ih =>
      obtain ⟨hfirst, hmap⟩ := List.nodup_cons.1 hnodup
      rw [AppModes.assign]
      split
      · next hsame => exact List.nodup_cons.2 ⟨hsame ▸ hfirst, hmap⟩
      · next hother =>
        refine List.nodup_cons.2 ⟨fun hmem => ?_, ih hmap⟩
        obtain ⟨entry, hentry, hname⟩ := List.mem_map.1 hmem
        obtain hnew | hold := AppModes.mem_assign hentry
        · exact hother (hname.symm.trans hnew)
        · exact hfirst (List.mem_map.2 ⟨entry, hold, hname⟩)
  · obtain hnew | hold := AppModes.mem_assign hentry
    · exact hnew ▸ hexe
    · exact h.2 entry hold

/-- There is room for every app. -/
lemma AppModes.Within.length_lt {map : AppModes} {apps} (h : map.Within apps)
    (hfew : apps.card < kMaxSmartSwitchEntries) : map.length < kMaxSmartSwitchEntries := by
  have hsubset : (map.map Prod.fst).toFinset ⊆ apps := by
    intro name hname
    obtain ⟨entry, hentry, rfl⟩ := List.mem_map.1 (List.mem_toFinset.1 hname)
    exact h.2 entry hentry
  have hcard := Finset.card_le_card hsubset
  rw [List.toFinset_card_of_nodup h.1, List.length_map] at hcard
  exact hcard.trans_lt hfew

/-- What holds all along a run. -/
structure SwitchInv (apps : Finset String) (s : SwitchRun) : Prop where
  notExcluded : s.focus.isExcludedApp = false
  notForced : s.focus.isForcedVnApp = false
  settled : s.focus.cachedIsCompatLayout = !s.focus.layoutSuppressed
  active : s.focus.activeExe ≠ "" → s.focus.activeExe ∈ apps
  lastReal : s.focus.lastRealExe ≠ "" → s.focus.lastRealExe ∈ apps
  within : s.focus.appModeMap.Within apps
  remembered : ∀ exeName, s.focus.appModeMap.lookup exeName = s.lastMode exeName

section
variable {cfg : FocusConfig} {apps : Finset String} {s : SwitchRun} {exeName : String}
  {pid fgPid : BitVec 32}

/-- At the start. -/
lemma SwitchInv.start {mode} : SwitchInv apps (.start mode) where
  notExcluded := rfl
  notForced := rfl
  settled := rfl
  active h := absurd rfl h
  lastReal h := absurd rfl h
  within := ⟨List.nodup_nil, fun _ h => nomatch h⟩
  remembered _ := rfl

/-- Leaving an app fixes the mode last in force there. -/
lemma SwitchRun.leave_lastMode : s.leave.lastMode exeName =
    if s.focus.lastRealExe ≠ "" ∧ exeName = s.focus.lastRealExe then some s.focus.vietnameseMode
    else s.lastMode exeName := by
  unfold SwitchRun.leave
  by_cases hlast : s.focus.lastRealExe = ""
  · simp [hlast]
  · by_cases hexe : exeName = s.focus.lastRealExe
    · subst hexe
      simp [hlast, SwitchRun.lastMode]
    · simp [hlast, hexe, SwitchRun.lastMode]

/-- What a focus saves is the mode of the app that is left. -/
lemma SwitchInv.saved (h : SwitchInv apps s) (hsmart : cfg.smartSwitch)
    (hfew : apps.card < kMaxSmartSwitchEntries) :
    (saveMode cfg s.focus).appModeMap.lookup exeName = s.leave.lastMode exeName ∧
      (saveMode cfg s.focus).appModeMap.Within apps := by
  rw [SwitchRun.leave_lastMode]
  have hroom := h.within.length_lt hfew
  by_cases hlast : s.focus.lastRealExe = ""
  · rw [saveMode_first hlast, if_neg fun hleft => hleft.1 hlast]
    exact ⟨h.remembered exeName, h.within⟩
  · constructor
    · rw [saveMode_lookup hsmart h.notExcluded h.notForced hlast, h.remembered,
        if_neg (not_le.2 hroom)]
      exact if_congr (by simp [hlast]) rfl rfl
    · simp only [saveMode, hsmart, h.notExcluded, h.notForced, Bool.not_false, Bool.and_true, ne_eq,
        hlast, not_false_eq_true, decide_true, if_true, if_neg (not_le.2 hroom)]
      exact h.within.assign (h.lastReal hlast)

/-- A helper window only moves `activeExe`. -/
lemma switchStep_helper : switchStep cfg s (.helper exeName pid) =
    { s with
      focus :=
        if exeName ≠ "" ∧ pid ≠ 0 ∧ pid ≠ cfg.currentProcessId then
          { s.focus with activeExe := exeName }
        else s.focus } := rfl

/-- A real app gets the focus. -/
lemma SwitchInv.focus_real (h : SwitchInv apps s) (hsmart : cfg.smartSwitch)
    (hfew : apps.card < kMaxSmartSwitchEntries) (hexe : exeName ≠ "")
    (hunlocked : cfg.unlocked exeName) :
    (switchStep cfg s (.real exeName pid)).focus =
      { focused cfg s.focus (Classify cfg exeName pid) with
        vietnameseMode := (s.leave.lastMode exeName).getD s.focus.vietnameseMode } := by
  have htracks : cfg.tracksApps := by simp [FocusConfig.tracksApps, hsmart]
  have hlayout : s.focus.layoutSettled cfg := fun _ => h.settled
  have hfocus := @focusStep_unlocked cfg _ exeName pid hexe hunlocked htracks hlayout
  rw [if_pos hsmart, (h.saved hsmart hfew).1] at hfocus
  exact hfocus

/-- The focus of a real app. -/
lemma SwitchInv.real (h : SwitchInv apps s) (hsmart : cfg.smartSwitch)
    (hfew : apps.card < kMaxSmartSwitchEntries) (he : Among cfg apps (.real exeName pid)) :
    SwitchInv apps (switchStep cfg s (.real exeName pid)) := by
  obtain ⟨hexe, hunlocked, hamong⟩ := he
  have hfocus := @SwitchInv.focus_real cfg apps s exeName pid h hsmart hfew hexe hunlocked
  obtain ⟨hforced, hexcluded⟩ := @Classify_unlocked cfg exeName pid hunlocked
  refine ⟨?_, ?_, ?_, ?_, ?_, ?_, fun other => ?_⟩
  all_goals rw [hfocus]
  · exact hexcluded
  · exact hforced
  · exact h.settled
  · show activeAfter cfg s.focus exeName pid ≠ "" → activeAfter cfg s.focus exeName pid ∈ apps
    unfold activeAfter
    split
    · exact fun _ => hamong
    · exact h.active
  · exact fun _ => hamong
  · exact (@SwitchInv.saved cfg apps s exeName h hsmart hfew).2
  · exact (h.saved hsmart hfew).1

/-- A toggle writes the mode under the app whose window is in front, of a real app or a helper. -/
lemma SwitchInv.toggle (h : SwitchInv apps s) (hsmart : cfg.smartSwitch) :
    SwitchInv apps (switchStep cfg s (.toggle fgPid)) := by
  have hgate : (cfg.excludeApps && s.focus.isExcludedApp) = false := by
    rw [h.notExcluded, Bool.and_false]
  have hfocus := @toggle_unlocked cfg fgPid s.focus h.notForced hgate
  refine ⟨?_, ?_, ?_, ?_, ?_, ?_, fun other => ?_⟩
  all_goals simp only [switchStep, hfocus]
  · exact h.notExcluded
  · exact h.notForced
  · exact h.settled
  · exact h.active
  · exact h.lastReal
  · split
    · next hactive =>
      simp only [Bool.and_eq_true, decide_eq_true_eq] at hactive
      exact h.within.assign (h.active hactive.2)
    · exact h.within
  · by_cases hactive : s.focus.activeExe = ""
    · simp only [hactive, ne_eq, not_true_eq_false, decide_false, Bool.and_false, Bool.false_eq_true,
        if_false, if_true]
      exact h.remembered other
    · simp only [hsmart, ne_eq, hactive, not_false_eq_true, decide_true, Bool.and_self, if_true,
        if_false, AppModes.lookup_assign, h.remembered, SwitchRun.lastMode]
      by_cases hother : other = s.focus.activeExe
      · subst hother
        simp
      · simp [hother]

/-- What every event preserves. -/
lemma SwitchInv.step {e} (h : SwitchInv apps s) (hsmart : cfg.smartSwitch)
    (hfew : apps.card < kMaxSmartSwitchEntries) (he : Among cfg apps e) :
    SwitchInv apps (switchStep cfg s e) := by
  cases e with
  | real exeName pid => exact h.real hsmart hfew he
  | helper exeName pid =>
    rw [switchStep_helper]
    split
    · exact ⟨h.notExcluded, h.notForced, h.settled, he, h.lastReal, h.within, h.remembered⟩
    · exact h
  | toggle fgPid => exact h.toggle hsmart

/-- What holds while an app has not got the focus. -/
structure Unvisited (exeName : String) (s : SwitchRun) : Prop where
  left : s.left exeName = none
  notLast : s.focus.lastRealExe ≠ exeName

/-- An app that was not visited was not left. -/
lemma Unvisited.leave (h : Unvisited exeName s) : s.leave.left exeName = none := by
  unfold SwitchRun.leave
  split
  · exact h.left
  · exact (Function.update_of_ne h.notLast.symm _ s.left).trans h.left

/-- Nor is it by an event of another app. -/
lemma Unvisited.step {e} (h : Unvisited exeName s) (hinv : SwitchInv apps s) (hsmart : cfg.smartSwitch)
    (hfew : apps.card < kMaxSmartSwitchEntries) (he : Among cfg apps e)
    (hother : ∀ pid, e ≠ .real exeName pid) : Unvisited exeName (switchStep cfg s e) := by
  cases e with
  | real other pid =>
    obtain ⟨hexe, hunlocked, -⟩ := he
    refine ⟨h.leave, ?_⟩
    rw [@SwitchInv.focus_real cfg apps s other pid hinv hsmart hfew hexe hunlocked]
    rintro rfl
    exact hother pid rfl
  | helper other pid =>
    refine ⟨h.left, ?_⟩
    rw [switchStep_helper]
    split
    · exact h.notLast
    · exact h.notLast
  | toggle fgPid =>
    have hgate : (cfg.excludeApps && s.focus.isExcludedApp) = false := by
      rw [hinv.notExcluded, Bool.and_false]
    refine ⟨h.left, ?_⟩
    simp only [switchStep, @toggle_unlocked cfg fgPid s.focus hinv.notForced hgate]
    exact h.notLast

end

/-- A focus restores the mode that was in force when the app was last left or, if the mode was
toggled since then with a window of the app in front, the mode set by the last such toggle.
Otherwise, as for an app that never got the focus, it leaves the mode. -/
theorem focus_restores {cfg : FocusConfig} {apps : Finset String} {mode : Bool}
    {before : List SwitchEvent} {exeName : String} {pid : BitVec 32} (hsmart : cfg.smartSwitch)
    (hfew : apps.card < kMaxSmartSwitchEntries)
    (hamong : ∀ e ∈ before ++ [.real exeName pid], Among cfg apps e) :
    let s := Machine.run (switchStep cfg) (.start mode) before
    let restored := (switchStep cfg s (.real exeName pid)).focus.vietnameseMode
    restored = ((s.leave.toggledSince exeName).or (s.leave.left exeName)).getD s.focus.vietnameseMode ∧
      ((∀ pid', SwitchEvent.real exeName pid' ∉ before) → s.leave.left exeName = none) := by
  have hbefore : Machine.Guarded (switchStep cfg) (fun _ e => Among cfg apps e) (.start mode) before :=
    Machine.guarded_of_forall fun e he _ => hamong e (List.mem_append_left _ he)
  have hinv := hbefore.invariant SwitchInv.start fun {s i} h he => h.step hsmart hfew he
  obtain ⟨hexe, hunlocked, -⟩ := hamong (.real exeName pid) (List.mem_append_right _ (.head _))
  refine ⟨?_, fun hnever => ?_⟩
  · rw [@SwitchInv.focus_real cfg apps _ exeName pid hinv hsmart hfew hexe hunlocked]
    rfl
  · have hothers : Machine.Guarded (switchStep cfg)
        (fun _ e => Among cfg apps e ∧ ∀ pid', e ≠ .real exeName pid') (.start mode) before :=
      Machine.guarded_of_forall fun e he _ =>
        ⟨hamong e (List.mem_append_left _ he), fun pid' heq => hnever pid' (heq ▸ he)⟩
    have hunvisited := @Machine.Guarded.invariant _ _ _ _
      (fun s => SwitchInv apps s ∧ Unvisited exeName s) _ _ hothers
      ⟨SwitchInv.start, rfl, hexe.symm⟩ fun {s i} h he =>
        ⟨h.1.step hsmart hfew he.1, h.2.step h.1 hsmart hfew he.1 he.2⟩
    exact hunvisited.2.leave

/-- Only smart switch is on. -/
def smartOnly : FocusConfig where
  smartSwitch := true

/-- Writing in one app, then in another. -/
def twoApps : List SwitchEvent := [.real "notepad.exe" 10, .toggle 10, .real "chat.exe" 11, .toggle 11]

/-- Two apps, one in each mode. -/
theorem focus_restores_twoApps :
    let s := Machine.run (switchStep smartOnly) (.start true) twoApps
    let restored := (switchStep smartOnly s (.real "notepad.exe" 10)).focus.vietnameseMode
    restored = ((s.leave.toggledSince "notepad.exe").or (s.leave.left "notepad.exe")).getD
        s.focus.vietnameseMode ∧
      ((∀ pid', SwitchEvent.real "notepad.exe" pid' ∉ twoApps) → s.leave.left "notepad.exe" = none) :=
  @focus_restores smartOnly {"notepad.exe", "chat.exe"} true twoApps "notepad.exe" 10 rfl (by decide)
    (by decide)

/-- Behind the other app, the mode is toggled over a panel of the first. -/
def panelToggle : List SwitchEvent :=
  [.real "notepad.exe" 10, .real "chat.exe" 11, .helper "notepad.exe" 10, .toggle 10]

/-- The first app was left in Vietnamese mode and is found in English mode. -/
theorem not_focus_restores_left :
    ¬∀ (cfg : FocusConfig) (apps : Finset String) (mode : Bool) (before : List SwitchEvent)
      (exeName : String) (pid : BitVec 32), cfg.smartSwitch → apps.card < kMaxSmartSwitchEntries →
      (∀ e ∈ before ++ [.real exeName pid], Among cfg apps e) →
      let s := Machine.run (switchStep cfg) (.start mode) before
      let restored := (switchStep cfg s (.real exeName pid)).focus.vietnameseMode
      (∀ m, s.leave.left exeName = some m → restored = m) ∧
        ((∀ pid', SwitchEvent.real exeName pid' ∉ before) → restored = s.focus.vietnameseMode) := by
  intro h
  have hrestored := (h smartOnly {"notepad.exe", "chat.exe"} true panelToggle "notepad.exe" 10 rfl
    (by decide) (by decide)).1 true (by decide)
  revert hrestored
  decide

end NextKey
