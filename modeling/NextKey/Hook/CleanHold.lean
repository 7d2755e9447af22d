import NextKey.Hook.HotkeyManager

/-!
# Modifiers that are held alone

Runs of the hotkey manager beside the modifier keys that are held. A modifier-only hotkey is to fire when
a modifier is released and no other key went down while the modifiers were held. The manager has one
flag for that, and clears it whenever a modifier goes down: with Ctrl held, C is forgotten when Shift
follows.
-/

namespace NextKey

/-- The manager, and the modifier keys that are held, with whether another key went down since. -/
structure HoldSession where
  manager : HotkeyManager
  held : BitVec 32 → Option Bool := fun _ => none

namespace HoldSession

/-- What an event of the keyboard does to the modifier keys that are held. -/
def holdStep (held : BitVec 32 → Option Bool) (e : KeyboardEvent) : BitVec 32 → Option Bool :=
  match modifierOf e.vk with
  | none => if e.isDown then fun k => (held k).map fun _ => true else held
  | some _ => fun k =>
    if k = e.vk then if e.isDown then some ((held k).getD false) else none else held k

/-- One event. -/
def step (s : HoldSession) : HotkeyInput → HoldSession
  | .key e =>
    { manager := (s.manager.LowLevelKeyboardProc e).1
      held := if e.own then s.held else holdStep s.held e }
  | .UpdateHotkey slot config => { s with manager := s.manager.UpdateHotkey slot config }
  | .ReconcileModifiers physical => { s with manager := s.manager.ReconcileModifiers physical }

/-- No other key went down since a modifier key that is held. -/
def Clean (s : HoldSession) : Prop := ∀ k, s.held k ≠ some true

/-- A slot fires at the release of a modifier only when no other key went down since the first of the
    modifiers that are held. -/
def FiresClean (s : HoldSession) : HotkeyInput → Prop
  | .key e =>
    e.own = false → modifierOf e.vk ≠ none → e.isDown = false →
      (s.manager.LowLevelKeyboardProc e).2.fired ≠ [] → s.Clean
  | _ => True

/-- The flag is cleared only when no other key went down since a modifier that is held. -/
def ClearsClean (s : HoldSession) : HotkeyInput → Prop
  | .key e =>
    e.own = false → e.isDown = true →
      (∃ kind, modifierOf e.vk = some kind ∧ s.manager.modDown kind = false) → s.Clean
  | .UpdateHotkey _ _ => True
  | .ReconcileModifiers _ => s.Clean

/-- The flag is set when another key went down since a modifier that is held. -/
def Remembered (s : HoldSession) : Prop := s.manager.otherKeyPressed = false → s.Clean

section Step

variable {s : HoldSession}

/-- A hold that is clean stays so. -/
lemma clean_holdStep {held : BitVec 32 → Option Bool} {e : KeyboardEvent}
    (hclean : ∀ k, held k ≠ some true) (h : modifierOf e.vk = none → e.isDown = false) :
    ∀ k, holdStep held e k ≠ some true := by
  intro k
  unfold holdStep
  cases hkind : modifierOf e.vk with
  | none =>
    rw [h hkind]
    exact hclean k
  | some kind =>
    dsimp only
    split_ifs
    · cases hk : held k with
      | none => simp
      | some other =>
        cases other with
        | false => simp
        | true => exact absurd hk (hclean k)
    · simp
    · exact hclean k

/-- What a step keeps. -/
lemma step_remembered {input : HotkeyInput} (hs : s.Remembered) (hclears : s.ClearsClean input) :
    (s.step input).Remembered := by
  cases input with
  | key e =>
    cases hown : e.own with
    | true =>
      rw [step, HotkeyManager.LowLevelKeyboardProc_of_own hown, hown]
      exact hs
    | false =>
      intro hflag
      rw [step, hown] at hflag ⊢
      change (s.manager.LowLevelKeyboardProc e).1.otherKeyPressed = false at hflag
      rw [HotkeyManager.otherKeyPressed_LowLevelKeyboardProc hown] at hflag
      obtain ⟨hother, hbefore⟩ := HotkeyManager.otherKeyPressed_track hflag
      refine clean_holdStep ?_ hother
      obtain hclear | ⟨hdown, htransition⟩ := hbefore
      · exact hs hclear
      · exact hclears hown hdown htransition
  | UpdateHotkey slot config => exact hs
  | ReconcileModifiers physical => exact fun _ => hclears

/-- What is remembered keeps a slot from firing. -/
lemma firesClean_of_remembered {input : HotkeyInput} (hs : s.Remembered) : s.FiresClean input := by
  cases input with
  | key e =>
    intro hown hmodifier hup hfired
    exact hs (HotkeyManager.otherKeyPressed_of_fired hown hmodifier hfired)
  | UpdateHotkey slot config => trivial
  | ReconcileModifiers physical => trivial

end Step

/-- In a run that clears the flag only when no other key went down since a modifier that is held, a
    modifier-only hotkey fires only on a clean hold. -/
theorem firesClean_of_clearsClean {manager : HotkeyManager} {inputs : List HotkeyInput}
    (hrun : Machine.Guarded step ClearsClean { manager := manager } inputs) :
    Machine.Guarded step FiresClean { manager := manager } inputs := by
  have hstart : Remembered { manager := manager } := fun _ k hk => by cases hk
  refine hrun.imp hstart ?_ ?_
  · intro s input hs hclears
    exact step_remembered hs hclears
  · intro s input hs _
    exact firesClean_of_remembered hs

/-- Ctrl and Shift switch the language. -/
def ctrlShift : HotkeyManager :=
  { slots := [{ config := { ctrl := true, shift := true } }] }

/-- Ctrl and Shift are pressed and released. -/
theorem firesClean_ctrlShift :
    Machine.Guarded step FiresClean { manager := ctrlShift }
      [.key ⟨0xA2, true, false⟩, .key ⟨0xA0, true, false⟩, .key ⟨0xA0, false, false⟩,
        .key ⟨0xA2, false, false⟩] := by
  refine firesClean_of_clearsClean ⟨?_, ?_, ?_, ?_, trivial⟩
  · intro _ _ _ k hk
    cases hk
  · intro _ _ _ k hk
    change (if k = 0xA2 then some false else none) = some true at hk
    split_ifs at hk
    cases hk
  · intro _ hdown
    cases hdown
  · intro _ hdown
    cases hdown

/-- Ctrl and C copy, and Shift switches the language behind them. -/
theorem not_firesClean_copy :
    ¬∀ (manager : HotkeyManager) (events : List KeyboardEvent),
      Machine.Guarded step FiresClean { manager := manager } (events.map .key) := by
  intro h
  obtain ⟨-, -, -, -, hrelease, -⟩ := h ctrlShift
    [⟨0xA2, true, false⟩, ⟨0x43, true, false⟩, ⟨0x43, false, false⟩, ⟨0xA0, true, false⟩,
      ⟨0xA0, false, false⟩]
  exact hrelease rfl (by decide) rfl (List.cons_ne_nil 0 []) 0xA2 rfl

end HoldSession

end NextKey
