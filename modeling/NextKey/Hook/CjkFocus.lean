import Mathlib.Logic.Function.Basic
import NextKey.Hook.ForcedVietnamese

/-!
# Smart switch and CJK layouts

`HookEngine::ApplyFocusOnHookThread` checks the keyboard layout of the new window before smart
switch remembers the mode of the app that loses the focus. Entering an app with a CJK layout has
then already set the mode to English, and English is remembered for the app before.

The modes remembered for apps with a compatible layout are those that were in force there just when
no CJK layout is entered from such an app in Vietnamese mode (`remembered_iff`).
-/

namespace NextKey

/-- C++ `CheckLayoutChange`, for a window whose layout is `compatible` -/
def CheckLayoutChange (cfg : FocusConfig) (compatible : Bool) (s : FocusState) : FocusState :=
  if compatible ≠ s.cachedIsCompatLayout then
    OnLayoutChanged cfg { s with cachedIsCompatLayout := compatible } compatible
  else s

/-- A real app gets the focus. -/
structure RealFocus where
  exeName : String
  pid : BitVec 32
  deriving DecidableEq, Repr

/-- The focus state and the mode last in force in each app. -/
structure LayoutRun where
  focus : FocusState
  inForce : String → Option Bool

/-- The engine starts with some modes remembered from before. -/
def LayoutRun.start (mode : Bool) (map : AppModes) : LayoutRun where
  focus := { vietnameseMode := mode, appModeMap := map }
  inForce _ := none

/-- C++ `ApplyFocusOnHookThread`, where each app has its own keyboard layout -/
def layoutStep (cfg : FocusConfig) (compatible : String → Bool) (s : LayoutRun) (e : RealFocus) :
    LayoutRun :=
  let focus :=
    focusStep cfg (CheckLayoutChange cfg (compatible e.exeName) s.focus) (.focus e.exeName e.pid)
  { focus := focus, inForce := Function.update s.inForce e.exeName (some focus.vietnameseMode) }

/-- The mode remembered for an app with a compatible layout is the one last in force there. -/
def Remembered (compatible : String → Bool) (s : LayoutRun) : Prop :=
  ∀ exeName, compatible exeName → ∀ mode, s.inForce exeName = some mode →
    ∀ saved, s.focus.appModeMap.lookup exeName = some saved → saved = mode

/-- A CJK layout is entered from an app with a compatible layout only in English mode. -/
def EntersCjkInEnglish (compatible : String → Bool) (s : LayoutRun) (e : RealFocus) : Prop :=
  s.focus.lastRealExe ≠ "" → compatible s.focus.lastRealExe → compatible e.exeName = false →
    s.focus.vietnameseMode = false

instance {compatible : String → Bool} {s e} : Decidable (EntersCjkInEnglish compatible s e) :=
  inferInstanceAs (Decidable (_ → _ → _ → _))

/-- Looking up in a map with one entry more. -/
lemma AppModes.lookup_cons {map : AppModes} {exeName mode exe} :
    List.lookup exe ((exeName, mode) :: map) = if exe = exeName then some mode else map.lookup exe := by
  rw [List.lookup_cons]
  split
  · next h => rw [if_pos (beq_iff_eq.1 h)]
  · next h => rw [if_neg (beq_eq_false_iff_ne.1 h)]

/-- Looking up what was assigned. -/
lemma AppModes.lookup_assign {map : AppModes} {exeName mode exe} :
    (map.assign exeName mode).lookup exe = if exe = exeName then some mode else map.lookup exe := by
  induction map with
  | nil => exact AppModes.lookup_cons
  | cons entry map ih =>
    obtain ⟨exe', mode'⟩ := entry
    rw [AppModes.assign]
    split
    · next hsame =>
      subst hsame
      rw [AppModes.lookup_cons, AppModes.lookup_cons]
      split <;> rfl
    · next hother =>
      rw [AppModes.lookup_cons, AppModes.lookup_cons, ih]
      split
      · next hexe =>
        subst hexe
        rw [if_neg hother]
      · rfl

section
variable {cfg : FocusConfig} {compatible : String → Bool} {s : LayoutRun} {e : RealFocus}

/-- What holds after every focus. -/
structure LayoutInv (compatible : String → Bool) (s : LayoutRun) : Prop where
  notExcluded : s.focus.isExcludedApp = false
  notForced : s.focus.isForcedVnApp = false
  suppressed : s.focus.layoutSuppressed = !s.focus.cachedIsCompatLayout
  layout : s.focus.lastRealExe ≠ "" → s.focus.cachedIsCompatLayout = compatible s.focus.lastRealExe
  inForce : s.focus.lastRealExe ≠ "" → s.inForce s.focus.lastRealExe = some s.focus.vietnameseMode
  remembered : Remembered compatible s

/-- At the start. -/
lemma LayoutInv.start {mode map} : LayoutInv compatible (.start mode map) where
  notExcluded := rfl
  notForced := rfl
  suppressed := rfl
  layout h := absurd rfl h
  inForce h := absurd rfl h
  remembered _ _ _ h := nomatch h

/-- The mode after the layout check. -/
def modeAfterCheck (s : FocusState) (compatible : Bool) : Bool :=
  if compatible = s.cachedIsCompatLayout then s.vietnameseMode
  else if compatible then s.modeBeforeCjk
  else false

/-- The layout check of an app that is not locked. -/
lemma CheckLayoutChange_eq {t : FocusState} {now} (hcjk : cfg.cjkAutoSwitch)
    (hexcluded : t.isExcludedApp = false) (hforced : t.isForcedVnApp = false)
    (hsuppressed : t.layoutSuppressed = !t.cachedIsCompatLayout) :
    CheckLayoutChange cfg now t =
      { t with
        cachedIsCompatLayout := now
        layoutSuppressed := !now
        modeBeforeCjk :=
          if now = false ∧ t.cachedIsCompatLayout then t.vietnameseMode else t.modeBeforeCjk
        vietnameseMode := modeAfterCheck t now } := by
  obtain ⟨mode, excluded, tsf, forced, excludedPid, forcedPid, active, last, map, cached, sup,
      before⟩ := t
  dsimp only at hexcluded hforced hsuppressed
  subst hexcluded hforced hsuppressed
  cases now <;> cases cached <;> simp [CheckLayoutChange, OnLayoutChanged, modeAfterCheck, hcjk]

/-- Smart switch remembers the mode of the app that loses the focus. -/
lemma saveMode_lookup {t : FocusState} {exeName} (hsmart : cfg.smartSwitch)
    (hexcluded : t.isExcludedApp = false) (hforced : t.isForcedVnApp = false)
    (hlast : t.lastRealExe ≠ "") :
    (saveMode cfg t).appModeMap.lookup exeName =
      if exeName = t.lastRealExe then some t.vietnameseMode
      else if kMaxSmartSwitchEntries ≤ t.appModeMap.length then none
      else t.appModeMap.lookup exeName := by
  simp only [saveMode, hsmart, hexcluded, hforced, Bool.not_false, Bool.and_true, ne_eq, hlast,
    not_false_eq_true, decide_true, if_true, AppModes.lookup_assign]
  split
  · rfl
  · split <;> rfl

/-- Before the first app there is nothing to remember. -/
lemma saveMode_first {t : FocusState} (hlast : t.lastRealExe = "") : saveMode cfg t = t := by
  simp [saveMode, hlast]

/-- A real app that is not locked gets the focus. -/
lemma layoutStep_focus (hinv : LayoutInv compatible s) (hsmart : cfg.smartSwitch)
    (hcjk : cfg.cjkAutoSwitch)
    (hexe : e.exeName ≠ "") (hunlocked : cfg.unlocked e.exeName) :
    ∃ t, t = CheckLayoutChange cfg (compatible e.exeName) s.focus ∧
      (layoutStep cfg compatible s e).focus =
        { focused cfg t (Classify cfg e.exeName e.pid) with
          vietnameseMode := ((saveMode cfg t).appModeMap.lookup e.exeName).getD t.vietnameseMode } := by
  have hcheck := @CheckLayoutChange_eq cfg s.focus (compatible e.exeName) hcjk hinv.notExcluded
    hinv.notForced hinv.suppressed
  have hsettled : (CheckLayoutChange cfg (compatible e.exeName) s.focus).layoutSettled cfg := by
    rw [hcheck]
    intro _
    exact (Bool.not_not _).symm
  have htracks : cfg.tracksApps := by simp [FocusConfig.tracksApps, hsmart]
  refine ⟨_, rfl, ?_⟩
  have hfocus := @focusStep_unlocked cfg _ e.exeName e.pid hexe hunlocked htracks hsettled
  rw [if_pos hsmart] at hfocus
  exact hfocus

/-- What is remembered after a focus. -/
lemma layoutStep_lookup {exeName} (hinv : LayoutInv compatible s) (hsmart : cfg.smartSwitch)
    (hcjk : cfg.cjkAutoSwitch) (hexe : e.exeName ≠ "") (hunlocked : cfg.unlocked e.exeName)
    (hlast : s.focus.lastRealExe ≠ "") :
    (layoutStep cfg compatible s e).focus.appModeMap.lookup exeName =
      if exeName = s.focus.lastRealExe then some (modeAfterCheck s.focus (compatible e.exeName))
      else if kMaxSmartSwitchEntries ≤ s.focus.appModeMap.length then none
      else s.focus.appModeMap.lookup exeName := by
  obtain ⟨t, ht, hfocus⟩ := layoutStep_focus hinv hsmart hcjk hexe hunlocked
  rw [CheckLayoutChange_eq hcjk hinv.notExcluded hinv.notForced hinv.suppressed] at ht
  subst ht
  rw [hfocus]
  exact saveMode_lookup hsmart hinv.notExcluded hinv.notForced hlast

/-- The mode in force after a focus is the remembered one, if there is one. -/
lemma layoutStep_restored {saved} (hinv : LayoutInv compatible s) (hsmart : cfg.smartSwitch)
    (hcjk : cfg.cjkAutoSwitch) (hexe : e.exeName ≠ "") (hunlocked : cfg.unlocked e.exeName)
    (hsaved : (layoutStep cfg compatible s e).focus.appModeMap.lookup e.exeName = some saved) :
    (layoutStep cfg compatible s e).focus.vietnameseMode = saved := by
  obtain ⟨t, -, hfocus⟩ := layoutStep_focus hinv hsmart hcjk hexe hunlocked
  rw [hfocus] at hsaved ⊢
  have hsaved' : (saveMode cfg t).appModeMap.lookup e.exeName = some saved := hsaved
  dsimp only
  rw [hsaved']
  rfl

/-- In an app with a compatible layout the layout check keeps the mode, unless a CJK layout is
entered in Vietnamese mode. -/
lemma modeAfterCheck_eq_iff (hinv : LayoutInv compatible s) (hlast : s.focus.lastRealExe ≠ "")
    (hcompat : compatible s.focus.lastRealExe) :
    modeAfterCheck s.focus (compatible e.exeName) = s.focus.vietnameseMode ↔
      (compatible e.exeName = false → s.focus.vietnameseMode = false) := by
  have hcached : s.focus.cachedIsCompatLayout = true := (hinv.layout hlast).trans hcompat
  rw [modeAfterCheck, hcached]
  cases compatible e.exeName with
  | false => cases s.focus.vietnameseMode <;> simp
  | true => simp

/-- The mode after a focus is in force in the app. -/
lemma layoutStep_inForce : (layoutStep cfg compatible s e).inForce e.exeName =
    some (layoutStep cfg compatible s e).focus.vietnameseMode :=
  Function.update_self _ _ s.inForce

/-- A focus leaves what was in force in the other apps. -/
lemma layoutStep_inForce_of_ne {exeName} (h : exeName ≠ e.exeName) :
    (layoutStep cfg compatible s e).inForce exeName = s.inForce exeName :=
  Function.update_of_ne h _ s.inForce

/-- What every event preserves. -/
lemma LayoutInv.step (hinv : LayoutInv compatible s) (hsmart : cfg.smartSwitch)
    (hcjk : cfg.cjkAutoSwitch)
    (hexe : e.exeName ≠ "") (hunlocked : cfg.unlocked e.exeName)
    (hok : EntersCjkInEnglish compatible s e) :
    LayoutInv compatible (layoutStep cfg compatible s e) := by
  obtain ⟨t, ht, hfocus⟩ := layoutStep_focus hinv hsmart hcjk hexe hunlocked
  rw [CheckLayoutChange_eq hcjk hinv.notExcluded hinv.notForced hinv.suppressed] at ht
  obtain ⟨hforced, hexcluded⟩ := @Classify_unlocked cfg e.exeName e.pid hunlocked
  have hlast' : (layoutStep cfg compatible s e).focus.lastRealExe = e.exeName := by
    rw [hfocus]
    rfl
  refine ⟨?_, ?_, ?_, fun _ => ?_, fun _ => ?_, ?_⟩
  · rw [hfocus]
    exact hexcluded
  · rw [hfocus]
    exact hforced
  · rw [hfocus, ht]
    rfl
  · rw [hlast', hfocus, ht]
    rfl
  · rw [hlast']
    exact layoutStep_inForce
  · intro exeName hcompat mode hmode saved hsaved
    by_cases hsame : exeName = e.exeName
    · subst hsame
      have hrestored := layoutStep_restored hinv hsmart hcjk hexe hunlocked hsaved
      rw [← hrestored]
      exact Option.some.inj (layoutStep_inForce.symm.trans hmode)
    have hbefore : s.inForce exeName = some mode := (layoutStep_inForce_of_ne hsame).symm.trans hmode
    by_cases hlast : s.focus.lastRealExe = ""
    · have hmap : (layoutStep cfg compatible s e).focus.appModeMap = s.focus.appModeMap := by
        rw [hfocus, ht]
        show (saveMode cfg _).appModeMap = s.focus.appModeMap
        rw [saveMode_first]
        exact hlast
      rw [hmap] at hsaved
      exact hinv.remembered exeName hcompat mode hbefore saved hsaved
    rw [layoutStep_lookup hinv hsmart hcjk hexe hunlocked hlast] at hsaved
    split at hsaved
    · next hleft =>
      -- the app that loses the focus
      subst hleft
      have hkept := (@modeAfterCheck_eq_iff compatible s e hinv hlast hcompat).2 (hok hlast hcompat)
      rw [hinv.inForce hlast] at hbefore
      rw [hkept] at hsaved
      exact Option.some.inj (hsaved.symm.trans hbefore)
    · split at hsaved
      · cases hsaved
      · exact hinv.remembered exeName hcompat mode hbefore saved hsaved

/-- Entering a CJK layout in Vietnamese mode makes smart switch remember English. -/
lemma LayoutInv.breaks (hinv : LayoutInv compatible s) (hsmart : cfg.smartSwitch)
    (hcjk : cfg.cjkAutoSwitch)
    (hexe : e.exeName ≠ "") (hunlocked : cfg.unlocked e.exeName)
    (hnot : ¬EntersCjkInEnglish compatible s e) :
    ¬Remembered compatible (layoutStep cfg compatible s e) := by
  intro hremembered
  simp only [EntersCjkInEnglish, Classical.not_imp] at hnot
  obtain ⟨hlast, hcompat, hentered, hmode⟩ := hnot
  have hother : s.focus.lastRealExe ≠ e.exeName := by
    intro hsame
    rw [hsame, hentered] at hcompat
    cases hcompat
  have hsaved := @layoutStep_lookup cfg compatible s e s.focus.lastRealExe hinv hsmart hcjk hexe
    hunlocked
    hlast
  rw [if_pos rfl] at hsaved
  have hinForce : (layoutStep cfg compatible s e).inForce s.focus.lastRealExe =
      some s.focus.vietnameseMode :=
    (layoutStep_inForce_of_ne hother).trans (hinv.inForce hlast)
  have hkept := hremembered _ hcompat _ hinForce _ hsaved
  exact hmode ((modeAfterCheck_eq_iff hinv hlast hcompat).1 hkept hentered)

end

/-- The modes remembered for apps with a compatible layout are those last in force there, all along
a run, just when no CJK layout is entered from such an app in Vietnamese mode. -/
theorem remembered_iff {cfg : FocusConfig} {compatible : String → Bool} {mode : Bool} {map : AppModes}
    {events : List RealFocus} (hsmart : cfg.smartSwitch) (hcjk : cfg.cjkAutoSwitch)
    (hreal : ∀ e ∈ events, e.exeName ≠ "" ∧ cfg.unlocked e.exeName) :
    (∀ es, es <+: events →
      Remembered compatible (Machine.run (layoutStep cfg compatible) (.start mode map) es)) ↔
    Machine.Guarded (layoutStep cfg compatible) (EntersCjkInEnglish compatible)
      (.start mode map) events := by
  have hdomain : Machine.Guarded (layoutStep cfg compatible)
      (fun _ e => e.exeName ≠ "" ∧ cfg.unlocked e.exeName) (.start mode map) events :=
    Machine.guarded_of_forall fun e he _ => hreal e he
  apply Machine.forall_prefix_iff_guarded LayoutInv.start hdomain LayoutInv.remembered
  · intro s e hinv he hok
    exact hinv.step hsmart hcjk he.1 he.2 hok
  · intro s e hinv he hnot
    exact hinv.breaks hsmart hcjk he.1 he.2 hnot

/-- Smart switch and the CJK switch are on. -/
def smartCjk : FocusConfig where
  smartSwitch := true
  cjkAutoSwitch := true

/-- One app has a Japanese layout. -/
def japanesePad (exeName : String) : Bool := exeName ≠ "sakura.exe"

/-- From one app to the one with the Japanese layout and back. -/
def japaneseAndBack : List RealFocus := [⟨"notepad.exe", 10⟩, ⟨"sakura.exe", 11⟩, ⟨"notepad.exe", 10⟩]

/-- A Japanese layout and back. -/
theorem remembered_iff_japaneseAndBack :
    (∀ es, es <+: japaneseAndBack →
      Remembered japanesePad (Machine.run (layoutStep smartCjk japanesePad) (.start false []) es)) ↔
    Machine.Guarded (layoutStep smartCjk japanesePad) (EntersCjkInEnglish japanesePad) (.start false [])
      japaneseAndBack :=
  remembered_iff rfl rfl (by decide)

/-- English is remembered for an app that was in Vietnamese mode. -/
theorem english_remembered :
    ¬∀ events : List RealFocus, (∀ e ∈ events, e.exeName ≠ "" ∧ smartCjk.unlocked e.exeName) →
      Remembered japanesePad (Machine.run (layoutStep smartCjk japanesePad)
        (.start true []) events) := by
  intro h
  have hsaved := h (japaneseAndBack.take 2) (by decide) "notepad.exe" rfl true (by decide) false
    (by decide)
  cases hsaved

end NextKey
