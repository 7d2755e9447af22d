import NextKey.Hook.HotkeyManager
import NextKey.Lib.Since

/-!
# Taps of the modifier keys

Model of `TrackModifier`, of the modifier keys in `RunTopGuards` and `ProcessKeyUp`, and of the reset in
`ApplyFocusOnHookThread`, in `app/system/HookEngine.cpp`: which modifiers are down, whether another key
went down, whether a second modifier has joined, and the taps of each modifier. The release of a modifier
asks the hotkey registry for the intents that are bound to it, single or as the second tap of two. What
the intents do, and the check of the keyboard layout, are left out; so are keys in an app of the text
service, which the hook does not look at.

What fires at a release is determined by the keys since the hold began (`release_fires_iff`).
-/

namespace NextKey

open Machine

namespace ModifierKind

/-- C++ `CanonicalModifierVk` of the keys of a kind -/
def canonicalVk : ModifierKind → BitVec 32
  | .ctrl => 0x11
  | .shift => 0x10
  | .alt => 0x12
  | .win => 0x5B

/-- C++ `kModCtrl`, `kModShift`, `kModAlt` and `kModWin` -/
def mask : ModifierKind → BitVec 32
  | .ctrl => 0x01
  | .shift => 0x02
  | .alt => 0x04
  | .win => 0x08

end ModifierKind

/-- C++ `ComputeModMask` -/
def ComputeModMask (held : ModifierKind → Bool) : BitVec 32 :=
  let bit (k : ModifierKind) : BitVec 32 := if held k then k.mask else 0
  bit .ctrl ||| bit .shift ||| bit .alt ||| bit .win

/-- Whether any modifier is held. -/
def anyHeld (held : ModifierKind → Bool) : Bool := held .ctrl || held .shift || held .alt || held .win

/-- CapsLock, NumLock and ScrollLock. -/
def isToggleKey (vk : BitVec 32) : Bool := vk == 0x14 || vk == 0x90 || vk == 0x91

/-- C++ `kDoubleTapTimeoutMs` -/
def kDoubleTapTimeoutMs : BitVec 32 := 400

/-- The modifiers, as the hook thread tracks them. -/
structure ModifierTaps where
  /-- `modCtrlDown_`, `modShiftDown_`, `modAltDown_` and `modWinDown_` -/
  down : ModifierKind → Bool := fun _ => false
  otherKeyPressed : Bool := false
  modComboSeen : Bool := false
  modTapCount : ModifierKind → Nat := fun _ => 0
  modTapLastTs : ModifierKind → BitVec 32 := fun _ => 0

/-- What the tracking sees. -/
inductive TapEvent where
  /-- A key goes down, in an excluded app or not. -/
  | keyDown (vk : BitVec 32) (excluded : Bool)
  | keyUp (vk now : BitVec 32)
  /-- The focus changes, with the keys that are physically down. -/
  | focusChanged (physical : ModifierKind → Bool)

namespace TapEvent

/-- A key goes down that is neither a modifier nor a toggle key. -/
def mainKey : TapEvent → Bool
  | .keyDown vk _ => (modifierOf vk).isNone && !isToggleKey vk
  | _ => false

/-- The modifier that is pressed. -/
def pressOf : TapEvent → Option ModifierKind
  | .keyDown vk _ => modifierOf vk
  | _ => none

/-- The modifier that is released, and when. -/
def releaseOf : TapEvent → Option (ModifierKind × BitVec 32)
  | .keyUp vk now => (modifierOf vk).map (·, now)
  | _ => none

def isFocusChange : TapEvent → Bool
  | .focusChanged _ => true
  | _ => false

end TapEvent

namespace ModifierTaps

variable (s : ModifierTaps) (k : ModifierKind) (now : BitVec 32)

/-- C++ `HookEngine::TrackModifier` -/
def TrackModifier (isDown : Bool) : ModifierTaps :=
  if isDown then
    if s.down k then s
    else
      { s with
        down := Function.update s.down k true
        otherKeyPressed := false
        modComboSeen := s.modComboSeen || anyHeld s.down }
  else
    let down := Function.update s.down k false
    { s with down, modComboSeen := s.modComboSeen && anyHeld down }

/-- `otherMods`: the other modifiers that are down at a release -/
def otherMods : BitVec 32 := ComputeModMask fun j => j != k && s.down j

def cleanRelease : Bool := !s.otherKeyPressed && !(s.modComboSeen && s.otherMods k == 0)

def isDoubleTap : Bool :=
  s.modTapCount k == 1 && decide (now - s.modTapLastTs k < kDoubleTapTimeoutMs)

/-- The intents that a release fires, in turn; SkipMacro only behind its gate, with macros loaded and
    nothing composed. -/
def releaseIntents (registry : HotkeyRegistry) (macroGate : Bool) : List Intent :=
  if s.cleanRelease k then
    kAllIntents.filter fun intent => (intent != .SkipMacro || macroGate) &&
      registry.Matches intent k.canonicalVk (s.otherMods k) (s.isDoubleTap k now) true
  else []

/-- What a release does to the taps. -/
def countTap : ModifierTaps :=
  if s.cleanRelease k then
    if s.isDoubleTap k now then { s with modTapCount := Function.update s.modTapCount k 0 }
    else
      { s with
        modTapCount := Function.update s.modTapCount k 1
        modTapLastTs := Function.update s.modTapLastTs k now }
  else { s with modTapCount := Function.update s.modTapCount k 0 }

/-- One event. -/
def step : TapEvent → ModifierTaps
  | .keyDown vk excluded =>
    match modifierOf vk with
    | some k => s.TrackModifier k true
    | none =>
      if isToggleKey vk then s
      else if excluded then { s with otherKeyPressed := true }
      else { s with otherKeyPressed := true, modTapCount := fun _ => 0 }
  | .keyUp vk now =>
    match modifierOf vk with
    | some k => (s.countTap k now).TrackModifier k false
    | none => s
  | .focusChanged physical =>
    { s with
      down := fun k => s.down k && physical k
      otherKeyPressed := false
      modComboSeen := false }

end ModifierTaps

/-- A run from the start. -/
abbrev tapRun (events : List TapEvent) : ModifierTaps := run ModifierTaps.step {} events

namespace ModifierTaps

/-- A modifier goes down that was up. -/
def Presses (s : ModifierTaps) (e : TapEvent) (k : ModifierKind) : Prop :=
  e.pressOf = some k ∧ s.down k = false

/-- A hold begins, or the focus changes, which makes the tracking begin anew. -/
def Opens (s : ModifierTaps) (e : TapEvent) : Prop :=
  ((∃ k, s.Presses e k) ∧ ∀ j, s.down j = false) ∨ e.isFocusChange = true

/-- No other key goes down, and no second modifier joins. -/
def Quiet (s : ModifierTaps) (e : TapEvent) : Prop :=
  e.mainKey = false ∧ ∀ k, s.Presses e k → ∀ j, s.down j = false

/-- Nothing but one modifier since the hold began. -/
def Alone (events : List TapEvent) : Prop := Since step Opens Quiet {} events

/-- No modifier goes down that was up, and the focus stays. -/
def Joins (s : ModifierTaps) (e : TapEvent) : Prop :=
  (∀ k, ¬s.Presses e k) ∧ e.isFocusChange = false

/-- Another key went down after the last modifier. -/
def KeySince (events : List TapEvent) : Prop :=
  Since step (fun _ e => e.mainKey = true) Joins {} events

/-- A clean release that is not the second tap of two. -/
def TapsAt (k : ModifierKind) (t : BitVec 32) (s : ModifierTaps) (e : TapEvent) : Prop :=
  e.releaseOf = some (k, t) ∧ s.cleanRelease k = true ∧ s.isDoubleTap k t = false

/-- No key outside an excluded app goes down, and the modifier is not released. -/
def KeepsTap (k : ModifierKind) (_ : ModifierTaps) (e : TapEvent) : Prop :=
  (∀ vk, e = .keyDown vk false → e.mainKey = false) ∧ ∀ t, e.releaseOf ≠ some (k, t)

/-- A tap of the modifier shortly before, with nothing in between. -/
def FollowsTap (k : ModifierKind) (now : BitVec 32) (events : List TapEvent) : Prop :=
  ∃ t, Since step (TapsAt k t) (KeepsTap k) {} events ∧ now - t < kDoubleTapTimeoutMs

section Tracking

variable {s : ModifierTaps} {e : TapEvent} {events : List TapEvent} {k : ModifierKind} {t now : BitVec 32}
  {held : ModifierKind → Bool}

/-- Some modifier is held. -/
lemma anyHeld_eq_true : anyHeld held = true ↔ ∃ k, held k = true := by
  simp only [anyHeld, Bool.or_eq_true]
  constructor
  · rintro (((h | h) | h) | h) <;> exact ⟨_, h⟩
  · rintro ⟨k, h⟩
    cases k <;> simp [h]

/-- The mask is 0 when none is held. -/
lemma ComputeModMask_eq_zero : ComputeModMask held = 0 ↔ ∀ k, held k = false := by
  have hbit (k : ModifierKind) : (if held k then k.mask else 0#32) = 0#32 ↔ held k = false := by
    cases held k <;> cases k <;> decide
  simp only [ComputeModMask, BitVec.ofNat_eq_ofNat, BitVec.or_eq_zero_iff, hbit]
  constructor
  · rintro ⟨⟨⟨hctrl, hshift⟩, halt⟩, hwin⟩ (_ | _ | _ | _) <;> assumption
  · exact fun h => ⟨⟨⟨h _, h _⟩, h _⟩, h _⟩

/-- Only the taps are counted. -/
lemma countTap_eq : ∃ count last, s.countTap k t = { s with modTapCount := count, modTapLastTs := last } := by
  unfold countTap
  split
  · split <;> exact ⟨_, _, rfl⟩
  · exact ⟨_, _, rfl⟩

/-- A modifier that was up goes down. -/
lemma TrackModifier_press (h : s.down k = false) :
    s.TrackModifier k true =
      { s with
        down := Function.update s.down k true
        otherKeyPressed := false
        modComboSeen := s.modComboSeen || anyHeld s.down } := by
  rw [TrackModifier, if_pos rfl, if_neg (by simp [h])]

/-- The repeats of a modifier that is down. -/
lemma TrackModifier_held (h : s.down k = true) : s.TrackModifier k true = s := by
  rw [TrackModifier, if_pos rfl, if_pos h]

/-- Another key in one event. -/
lemma otherKeyPressed_step :
    (s.step e).otherKeyPressed = true ↔ e.mainKey = true ∨ s.otherKeyPressed = true ∧ s.Joins e := by
  cases e with
  | keyDown vk excluded =>
    cases hvk : modifierOf vk with
    | some j =>
      have hstep : s.step (.keyDown vk excluded) = s.TrackModifier j true := by simp only [step, hvk]
      cases hdown : s.down j with
      | true => simp [hstep, TrackModifier_held hdown, TapEvent.mainKey, Joins, Presses, TapEvent.pressOf,
          TapEvent.isFocusChange, hvk, hdown]
      | false => simp [hstep, TrackModifier_press hdown, TapEvent.mainKey, Joins, Presses,
          TapEvent.pressOf, hvk, hdown]
    | none =>
      cases htoggle : isToggleKey vk with
      | true => simp [step, TapEvent.mainKey, Joins, Presses, TapEvent.pressOf, TapEvent.isFocusChange,
          hvk, htoggle]
      | false => cases excluded <;> simp [step, TapEvent.mainKey, hvk, htoggle]
  | keyUp vk now =>
    cases hvk : modifierOf vk with
    | some j =>
      obtain ⟨count, last, hcount⟩ := @countTap_eq s j now
      simp [step, hvk, hcount, TrackModifier, TapEvent.mainKey, Joins, Presses, TapEvent.pressOf,
        TapEvent.isFocusChange]
    | none => simp [step, hvk, TapEvent.mainKey, Joins, Presses, TapEvent.pressOf, TapEvent.isFocusChange]
  | focusChanged physical => simp [step, TapEvent.mainKey, Joins, TapEvent.isFocusChange]

/-- Another key went down after the last modifier. -/
lemma otherKeyPressed_iff : (tapRun events).otherKeyPressed = true ↔ KeySince events :=
  iff_since (P := fun s : ModifierTaps => s.otherKeyPressed = true) (by simp) fun _ _ =>
    otherKeyPressed_step

/-- The tracking counts no taps. -/
lemma TrackModifier_taps {b : Bool} : (s.TrackModifier k b).modTapCount = s.modTapCount ∧
    (s.TrackModifier k b).modTapLastTs = s.modTapLastTs := by
  unfold TrackModifier
  split
  · split <;> exact ⟨rfl, rfl⟩
  · exact ⟨rfl, rfl⟩

/-- A modifier is waiting for its second tap since a time. -/
def Tapped (s : ModifierTaps) (k : ModifierKind) (t : BitVec 32) : Prop :=
  s.modTapCount k = 1 ∧ s.modTapLastTs k = t

/-- The tap of a release. -/
lemma countTap_tapped {j : ModifierKind} :
    (s.countTap j now).Tapped k t ↔
      if k = j then now = t ∧ s.cleanRelease j = true ∧ s.isDoubleTap j now = false else s.Tapped k t := by
  unfold countTap Tapped
  by_cases hk : k = j
  · subst hk
    cases s.cleanRelease k <;> cases s.isDoubleTap k now <;> simp
  · cases s.cleanRelease j <;> cases s.isDoubleTap j now <;> simp [hk]

/-- The tracking leaves the taps. -/
lemma tapped_TrackModifier {j : ModifierKind} {b : Bool} :
    (s.TrackModifier j b).Tapped k t ↔ s.Tapped k t := by
  rw [Tapped, Tapped, TrackModifier_taps.1, TrackModifier_taps.2]

/-- A tap in one event. -/
lemma tapped_step : (s.step e).Tapped k t ↔ TapsAt k t s e ∨ s.Tapped k t ∧ KeepsTap k s e := by
  cases e with
  | keyDown vk excluded =>
    have hno : ¬TapsAt k t s (.keyDown vk excluded) := fun h => by simp [TapsAt, TapEvent.releaseOf] at h
    have hkeeps : KeepsTap k s (.keyDown vk excluded) ↔
        (excluded = false → TapEvent.mainKey (.keyDown vk excluded) = false) := by
      simp [KeepsTap, TapEvent.releaseOf]
    rw [or_iff_right hno, hkeeps]
    cases hvk : modifierOf vk with
    | some j =>
      have hstep : s.step (.keyDown vk excluded) = s.TrackModifier j true := by simp only [step, hvk]
      rw [hstep, tapped_TrackModifier]
      exact (and_iff_left fun _ => by simp [TapEvent.mainKey, hvk]).symm
    | none =>
      cases htoggle : isToggleKey vk with
      | true => simp [step, TapEvent.mainKey, hvk, htoggle]
      | false => cases excluded <;> simp [step, TapEvent.mainKey, Tapped, hvk, htoggle]
  | keyUp vk now =>
    cases hvk : modifierOf vk with
    | some j =>
      have hstep : s.step (.keyUp vk now) = (s.countTap j now).TrackModifier j false := by
        simp only [step, hvk]
      have hkeeps : KeepsTap k s (.keyUp vk now) ↔ j ≠ k := by
        simp [KeepsTap, TapEvent.releaseOf, hvk]
      have htaps : TapsAt k t s (.keyUp vk now) ↔
          j = k ∧ now = t ∧ s.cleanRelease k = true ∧ s.isDoubleTap k t = false := by
        simp [TapsAt, TapEvent.releaseOf, hvk, and_assoc]
      rw [hstep, tapped_TrackModifier, countTap_tapped, hkeeps, htaps]
      by_cases hk : k = j
      · subst hk
        rw [if_pos rfl]
        simp only [true_and, ne_eq, not_true_eq_false, and_false, or_false]
        exact and_congr_right fun h => by rw [h]
      · simp [hk, Ne.symm hk]
    | none => simp [step, TapsAt, KeepsTap, TapEvent.releaseOf, hvk]
  | focusChanged physical => simp [step, TapsAt, KeepsTap, TapEvent.releaseOf, Tapped]

/-- A tap is waiting since it was made. -/
lemma followsTap_iff : (tapRun events).Tapped k t ↔ Since step (TapsAt k t) (KeepsTap k) {} events :=
  iff_since (P := fun s : ModifierTaps => s.Tapped k t) (by simp [Tapped]) fun _ _ => tapped_step

/-- The second tap of two, at a clean release. -/
lemma isDoubleTap_iff : (tapRun events).isDoubleTap k now = true ↔ FollowsTap k now events := by
  unfold FollowsTap isDoubleTap
  simp only [← followsTap_iff, Tapped, Bool.and_eq_true, beq_iff_eq, decide_eq_true_eq]
  exact ⟨fun h => ⟨_, ⟨h.1, rfl⟩, h.2⟩, fun ⟨_, ⟨hcount, hlast⟩, hlt⟩ => ⟨hcount, hlast ▸ hlt⟩⟩

/-- A second modifier has joined only while one is down. -/
def ComboHeld (s : ModifierTaps) : Prop := s.modComboSeen = true → ∃ k, s.down k = true

/-- What every event preserves. -/
lemma ComboHeld.step (h : s.ComboHeld) : (s.step e).ComboHeld := by
  cases e with
  | keyDown vk excluded =>
    cases hvk : modifierOf vk with
    | some j =>
      have hstep : s.step (.keyDown vk excluded) = s.TrackModifier j true := by
        simp only [ModifierTaps.step, hvk]
      rw [hstep]
      cases hj : s.down j with
      | true => rwa [TrackModifier_held hj]
      | false =>
        rw [TrackModifier_press hj]
        exact fun _ => ⟨j, Function.update_self ..⟩
    | none =>
      simp only [ModifierTaps.step, hvk]
      split
      · exact h
      · split <;> exact h
  | keyUp vk now =>
    cases hvk : modifierOf vk with
    | some j =>
      obtain ⟨count, last, hcount⟩ := @countTap_eq s j now
      simp only [ModifierTaps.step, hvk, hcount, TrackModifier, Bool.false_eq_true, if_false]
      intro hcombo
      exact anyHeld_eq_true.1 ((Bool.and_eq_true _ _).mp hcombo).2
    | none => simpa only [ModifierTaps.step, hvk] using h
  | focusChanged physical => exact fun hcombo => by simp [ModifierTaps.step] at hcombo

/-- One event, while a modifier is down behind it. -/
lemma alone_step {P : Prop} (hcombo : s.ComboHeld) (hdown : ∃ k, (s.step e).down k = true)
    (ih : (∃ k, s.down k = true) → (s.otherKeyPressed = false ∧ s.modComboSeen = false ↔ P)) :
    (s.step e).otherKeyPressed = false ∧ (s.step e).modComboSeen = false ↔
      Opens s e ∨ P ∧ Quiet s e := by
  -- an event without a part in the hold
  have hpasses (hsame : (s.step e).otherKeyPressed = s.otherKeyPressed ∧
      (s.step e).modComboSeen = s.modComboSeen) (hheld : ∃ k, s.down k = true)
      (hpress : ∀ k, ¬s.Presses e k) (hfocus : e.isFocusChange = false) (hkey : e.mainKey = false) :
      (s.step e).otherKeyPressed = false ∧ (s.step e).modComboSeen = false ↔
        Opens s e ∨ P ∧ Quiet s e := by
    have hopens : ¬Opens s e := by
      rintro (⟨⟨k, hk⟩, -⟩ | h)
      · exact hpress k hk
      · exact absurd (hfocus.symm.trans h) (by simp)
    have hquiet : Quiet s e := ⟨hkey, fun k hk => absurd hk (hpress k)⟩
    rw [or_iff_right hopens, and_iff_left hquiet, hsame.1, hsame.2]
    exact ih hheld
  cases e with
  | keyDown vk excluded =>
    cases hvk : modifierOf vk with
    | some j =>
      have hstep : s.step (.keyDown vk excluded) = s.TrackModifier j true := by simp only [step, hvk]
      have hkey : TapEvent.mainKey (.keyDown vk excluded) = false := by simp [TapEvent.mainKey, hvk]
      cases hj : s.down j with
      | true =>
        refine hpasses ?_ ⟨j, hj⟩ (fun k hk => ?_) rfl hkey
        · rw [hstep, TrackModifier_held hj]
          exact ⟨rfl, rfl⟩
        · obtain rfl : j = k := Option.some.inj (hvk.symm.trans hk.1)
          exact absurd (hj.symm.trans hk.2) (by simp)
      | false =>
        have hpress : s.Presses (.keyDown vk excluded) j := ⟨hvk, hj⟩
        rw [hstep, TrackModifier_press hj]
        by_cases hnone : ∀ i, s.down i = false
        · refine iff_of_true ⟨rfl, ?_⟩ (.inl (.inl ⟨⟨j, hpress⟩, hnone⟩))
          refine Bool.or_eq_false_iff.2 ⟨Bool.eq_false_iff.2 fun h => ?_, Bool.eq_false_iff.2 fun h => ?_⟩
          · obtain ⟨i, hi⟩ := hcombo h
            exact absurd ((hnone i).symm.trans hi) (by simp)
          · obtain ⟨i, hi⟩ := anyHeld_eq_true.1 h
            exact absurd ((hnone i).symm.trans hi) (by simp)
        · refine iff_of_false (fun h => ?_) ?_
          · refine hnone fun i => Bool.eq_false_iff.2 fun hi => ?_
            exact absurd (anyHeld_eq_true.2 ⟨i, hi⟩) (by simp [(Bool.or_eq_false_iff.1 h.2).2])
          · rintro ((⟨-, h⟩ | h) | ⟨-, -, h⟩)
            · exact hnone h
            · cases h
            · exact hnone (h j hpress)
    | none =>
      have hpress (k : ModifierKind) : ¬s.Presses (.keyDown vk excluded) k := fun hk => by
        simp [Presses, TapEvent.pressOf, hvk] at hk
      cases htoggle : isToggleKey vk with
      | true =>
        have hstep : s.step (.keyDown vk excluded) = s := by simp [step, hvk, htoggle]
        rw [hstep] at hdown
        exact hpasses (by rw [hstep]; exact ⟨rfl, rfl⟩) hdown hpress rfl
          (by simp [TapEvent.mainKey, htoggle])
      | false =>
        have hkey : TapEvent.mainKey (.keyDown vk excluded) = true := by
          simp [TapEvent.mainKey, hvk, htoggle]
        refine iff_of_false (fun h => ?_) ?_
        · exact absurd (h.1.symm.trans (otherKeyPressed_step.2 (.inl hkey))) (by simp)
        · rintro ((⟨⟨k, hk⟩, -⟩ | h) | ⟨-, h, -⟩)
          · exact hpress k hk
          · cases h
          · exact absurd (hkey.symm.trans h) (by simp)
  | keyUp vk now =>
    have hpress (k : ModifierKind) : ¬s.Presses (.keyUp vk now) k := fun hk => by
      simp [Presses, TapEvent.pressOf] at hk
    cases hvk : modifierOf vk with
    | some j =>
      obtain ⟨count, last, hcount⟩ := @countTap_eq s j now
      have hstep : s.step (.keyUp vk now) = { s with
          modTapCount := count
          modTapLastTs := last
          down := Function.update s.down j false
          modComboSeen := s.modComboSeen && anyHeld (Function.update s.down j false) } := by
        simp only [step, hvk, hcount]
        rfl
      rw [hstep] at hdown
      have hheld : anyHeld (Function.update s.down j false) = true := anyHeld_eq_true.2 hdown
      obtain ⟨k, hk⟩ := hdown
      refine hpasses ?_ ⟨k, ?_⟩ hpress rfl rfl
      · rw [hstep]
        exact ⟨rfl, by simp [hheld]⟩
      · dsimp only at hk
        rw [Function.update_apply] at hk
        split at hk
        · cases hk
        · exact hk
    | none =>
      have hstep : s.step (.keyUp vk now) = s := by simp only [step, hvk]
      rw [hstep] at hdown
      exact hpasses (by rw [hstep]; exact ⟨rfl, rfl⟩) hdown hpress rfl rfl
  | focusChanged physical => exact iff_of_true ⟨rfl, rfl⟩ (.inl (.inr rfl))

/-- Nothing but one modifier since the hold began. -/
lemma alone_iff (hdown : ∃ k, (tapRun events).down k = true) :
    (tapRun events).otherKeyPressed = false ∧ (tapRun events).modComboSeen = false ↔ Alone events := by
  induction events using List.reverseRecOn with
  | nil =>
    obtain ⟨k, hk⟩ := hdown
    cases hk
  | append_singleton events e ih =>
    have hrun : tapRun (events ++ [e]) = (tapRun events).step e := run_append
    have hcombo : (tapRun events).ComboHeld := run_invariant nofun fun h => h.step
    rw [Alone, since_concat, hrun]
    rw [hrun] at hdown
    exact alone_step hcombo hdown ih

end Tracking

/-- What fires at the release of a modifier. While other modifiers are down: no other key went down after
the last modifier. While none is: since the hold began, or the focus changed, no other key went down and
no second modifier joined. In either case the intent is bound to the modifiers that are down, as a double
tap when the release follows a tap of the same modifier shortly, and else as a single one. -/
theorem release_fires_iff {events : List TapEvent} {k : ModifierKind} {now : BitVec 32}
    {registry : HotkeyRegistry} {macroGate : Bool} {intent : Intent}
    (hdown : (tapRun events).down k = true) :
    intent ∈ (tapRun events).releaseIntents k now registry macroGate ↔
      ((∃ j, j ≠ k ∧ (tapRun events).down j = true) → ¬KeySince events) ∧
      ((∀ j, j ≠ k → (tapRun events).down j = false) → Alone events) ∧
      (intent = .SkipMacro → macroGate = true) ∧
      ∃ double, (double = true ↔ FollowsTap k now events) ∧
        registry.Matches intent k.canonicalVk ((tapRun events).otherMods k) double true = true := by
  have hmods : ((tapRun events).otherMods k == 0) = true ↔
      ∀ j, j ≠ k → (tapRun events).down j = false := by
    rw [beq_iff_eq, otherMods, ComputeModMask_eq_zero]
    exact forall_congr' fun j => by by_cases hj : j = k <;> simp [hj]
  have hclean : (tapRun events).cleanRelease k = true ↔
      ((∃ j, j ≠ k ∧ (tapRun events).down j = true) → ¬KeySince events) ∧
        ((∀ j, j ≠ k → (tapRun events).down j = false) → Alone events) := by
    rw [← otherKeyPressed_iff, ← alone_iff ⟨k, hdown⟩, ← hmods, cleanRelease]
    cases hlone : (tapRun events).otherMods k == 0 with
    | true =>
      have hnone : ¬∃ j, j ≠ k ∧ (tapRun events).down j = true := by
        rintro ⟨j, hj, hheld⟩
        exact absurd ((hmods.1 hlone j hj).symm.trans hheld) (by simp)
      simp [hnone]
    | false =>
      have hsome : ∃ j, j ≠ k ∧ (tapRun events).down j = true := by
        by_contra hnone
        refine absurd (hlone.symm.trans (hmods.2 fun j hj => ?_)) (by simp)
        exact Bool.eq_false_iff.2 fun hheld => hnone ⟨j, hj, hheld⟩
      simp [hsome]
  have hall : intent ∈ kAllIntents := by cases intent <;> decide
  have hgate : (intent != .SkipMacro || macroGate) = true ↔ (intent = .SkipMacro → macroGate = true) := by
    by_cases hskip : intent = .SkipMacro <;> simp [hskip]
  unfold releaseIntents
  split
  · next hfires =>
    rw [List.mem_filter, Bool.and_eq_true, hgate]
    refine ⟨fun ⟨_, hgated, hmatches⟩ => ?_, fun ⟨_, _, hgated, double, hdouble, hmatches⟩ => ?_⟩
    · exact ⟨(hclean.1 hfires).1, (hclean.1 hfires).2, hgated, _, isDoubleTap_iff, hmatches⟩
    · have hsame : (tapRun events).isDoubleTap k now = double :=
        Bool.eq_iff_iff.2 (isDoubleTap_iff.trans hdouble.symm)
      exact ⟨hall, hgated, hsame ▸ hmatches⟩
  · next hdirty =>
    refine iff_of_false List.not_mem_nil fun ⟨hjoined, halone, _⟩ => ?_
    exact hdirty (hclean.2 ⟨hjoined, halone⟩)

section Examples

/-- Ctrl alone, bound to ToggleEnabled. -/
def ctrlAlone : HotkeyRegistry where
  triggers intent := if intent = .ToggleEnabled then some [{ vk := 0x11 }] else none

/-- Ctrl+W, which closes the window: the focus changes with Ctrl down. -/
def ctrlW : List TapEvent :=
  [.keyDown 0xA2 false, .keyDown 0x57 false, .focusChanged (· == .ctrl)]

/-- The release of Ctrl is taken for a tap. -/
theorem release_fires_ctrlW :
    .ToggleEnabled ∈ (tapRun ctrlW).releaseIntents .ctrl 0 ctrlAlone false := by
  refine (@release_fires_iff ctrlW .ctrl 0 ctrlAlone false .ToggleEnabled rfl).2
    ⟨?_, fun _ => ?_, by decide, false, ?_, by decide⟩
  · rintro ⟨j, hj, hdown⟩
    cases j <;> first | exact absurd rfl hj | exact absurd hdown (by decide)
  · exact ⟨[.keyDown 0xA2 false, .keyDown 0x57 false], _, [], rfl, .inr rfl, trivial⟩
  · rw [← isDoubleTap_iff]
    decide

end Examples

end ModifierTaps

end NextKey
