import NextKey.Config.Sections
import NextKey.Lib.Machine

/-!
# The hotkey manager

Model of `app/system/HotkeyManager.cpp`: the slots with their bindings and the state of each, the
tracking of the modifiers, and the hook procedure, which eats the keys of combinations and lets
everything else pass. How a slot that fires is dispatched is left out, and so is the dummy key that is
injected behind a combination with Alt or Win: it comes back as an event of the program's own.
-/

namespace NextKey

/-- C++ `HotkeyConfig::HasAny` -/
def HotkeyConfig.HasAny (config : HotkeyConfig) : Bool :=
  config.ctrl || config.shift || config.alt || config.win || config.vk != 0

/-- C++ `HotkeyConfig::ModifiersMatch` -/
def HotkeyConfig.ModifiersMatch (config : HotkeyConfig) (c s a w : Bool) : Bool :=
  config.ctrl == c && config.shift == s && config.alt == a && config.win == w

/-- A key event at the low-level hook; `own` is the tag of the program's own events. -/
structure KeyboardEvent where
  vk : BitVec 32
  isDown : Bool
  own : Bool := false

/-- The kinds of modifier keys. -/
inductive ModifierKind where
  | ctrl
  | shift
  | alt
  | win
  deriving DecidableEq, Repr

/-- `isCtrl`, `isShift`, `isAlt` and `isWin`: the modifier that a key is, on either side -/
def modifierOf (vk : BitVec 32) : Option ModifierKind :=
  if vk = 0xA2 ∨ vk = 0xA3 then some .ctrl
  else if vk = 0xA0 ∨ vk = 0xA1 then some .shift
  else if vk = 0xA4 ∨ vk = 0xA5 then some .alt
  else if vk = 0x5B ∨ vk = 0x5C then some .win
  else none

/-- C++ `SlotBinding` with its `SlotState` -/
structure HotkeySlot where
  config : HotkeyConfig
  comboKeyDown : Bool := false

/-- C++ `HotkeyManager` -/
structure HotkeyManager where
  slots : List HotkeySlot := []
  /-- `modCtrlDown_`, `modShiftDown_`, `modAltDown_` and `modWinDown_` -/
  modDown : ModifierKind → Bool := fun _ => false
  otherKeyPressed : Bool := false

/-- What the hook procedure does with an event. -/
structure HookResult where
  eaten : Bool := false
  /-- The slots that fire. -/
  fired : List Nat := []

/-- What happens in a run. -/
inductive HotkeyInput where
  | key (e : KeyboardEvent)
  | UpdateHotkey (slot : Nat) (config : HotkeyConfig)
  | ReconcileModifiers (physical : ModifierKind → Bool)

namespace HotkeyManager

/-- Whether a configuration asks for just the modifiers that are down. -/
def modifiersMatch (config : HotkeyConfig) (modDown : ModifierKind → Bool) : Bool :=
  config.ModifiersMatch (modDown .ctrl) (modDown .shift) (modDown .alt) (modDown .win)

/-- The tracking of modifiers: what an event does to them, and to `otherKeyPressed`. -/
def track (m : HotkeyManager) (e : KeyboardEvent) : HotkeyManager :=
  match modifierOf e.vk with
  | some kind =>
    if e.isDown then
      if m.modDown kind then m
      else
        { m with
          modDown := fun k => if k = kind then true else m.modDown k
          otherKeyPressed := false }
    else { m with modDown := fun k => if k = kind then false else m.modDown k }
  | none => if e.isDown then { m with otherKeyPressed := true } else m

/-- What a slot does with an event of its key. -/
inductive SlotAct where
  | next
  | eat
  | fire

/-- What becomes of the event when slot `i` has acted. -/
def SlotAct.result (i : Nat) : SlotAct → HookResult
  | .next => {}
  | .eat => { eaten := true }
  | .fire => { eaten := true, fired := [i] }

/-- The body of the loop over the slots, for an event that is no modifier's. -/
def slotStep (modDown : ModifierKind → Bool) (e : KeyboardEvent) (slot : HotkeySlot) :
    HotkeySlot × SlotAct :=
  if slot.config.vk = 0 then (slot, .next)
  else if e.vk ≠ slot.config.vk then (slot, .next)
  else if e.isDown then
    if slot.comboKeyDown then (slot, .eat)
    else if modifiersMatch slot.config modDown then ({ slot with comboKeyDown := true }, .fire)
    else (slot, .next)
  else if slot.comboKeyDown then ({ slot with comboKeyDown := false }, .eat)
  else (slot, .next)

/-- The loop over the slots from number `i` on: the slots behind it, and what becomes of the event. -/
def comboLoop (modDown : ModifierKind → Bool) (e : KeyboardEvent) :
    Nat → List HotkeySlot → List HotkeySlot × HookResult
  | _, [] => ([], {})
  | i, slot :: slots =>
    match slotStep modDown e slot with
    | (slot, .next) =>
      let (slots, result) := comboLoop modDown e (i + 1) slots
      (slot :: slots, result)
    | (slot, act) => (slot :: slots, act.result i)

/-- The modifier-only hotkeys that fire when a modifier is released; `before` is the state before the
    event. -/
def modifierOnly (before : HotkeyManager) : List Nat :=
  before.slots.zipIdx.filterMap fun (slot, i) =>
    if slot.config.vk = 0 ∧ slot.config.HasAny ∧ modifiersMatch slot.config before.modDown ∧
        ¬before.otherKeyPressed then some i
    else none

/-- C++ `LowLevelKeyboardProc` of an event for which the hook is asked -/
def LowLevelKeyboardProc (m : HotkeyManager) (e : KeyboardEvent) : HotkeyManager × HookResult :=
  if e.own then (m, {})
  else
    let tracked := m.track e
    match modifierOf e.vk with
    | none =>
      let (slots, result) := comboLoop tracked.modDown e 0 tracked.slots
      ({ tracked with slots := slots }, result)
    | some _ => (tracked, { fired := if e.isDown then [] else modifierOnly m })

/-- C++ `UpdateHotkey`: the state of the slot stays -/
def UpdateHotkey (m : HotkeyManager) (slot : Nat) (config : HotkeyConfig) : HotkeyManager :=
  { m with slots := m.slots.modify slot fun s => { s with config := config } }

/-- C++ `ReconcileModifiers`; `held` is what `GetAsyncKeyState` says of each modifier. -/
def ReconcileModifiers (m : HotkeyManager) (held : ModifierKind → Bool) : HotkeyManager :=
  { m with
    modDown := fun k => m.modDown k && held k
    otherKeyPressed := false }

section Loop

variable {modDown : ModifierKind → Bool} {e : KeyboardEvent} {i : Nat} {slot : HotkeySlot}
  {slots before after : List HotkeySlot}

/-- A slot whose combination ends with the key of an event. -/
def BoundTo (e : KeyboardEvent) (slot : HotkeySlot) : Prop :=
  slot.config.vk ≠ 0 ∧ e.vk = slot.config.vk

/-- An event of another key leaves a slot. -/
lemma slotStep_of_not_bound (h : ¬BoundTo e slot) : slotStep modDown e slot = (slot, .next) := by
  unfold slotStep
  by_cases hzero : slot.config.vk = 0
  · rw [if_pos hzero]
  · have hne : e.vk ≠ slot.config.vk := fun heq => h ⟨hzero, heq⟩
    rw [if_neg hzero, if_pos hne]

/-- What an event of its key does to a slot. -/
lemma slotStep_of_bound (h : BoundTo e slot) : slotStep modDown e slot =
    if e.isDown then
      if slot.comboKeyDown then (slot, .eat)
      else if modifiersMatch slot.config modDown then ({ slot with comboKeyDown := true }, .fire)
      else (slot, .next)
    else if slot.comboKeyDown then ({ slot with comboKeyDown := false }, .eat)
    else (slot, .next) := by
  rw [slotStep, if_neg h.1, if_neg (not_not.2 h.2)]

/-- An event of a key that no slot is bound to passes. -/
lemma comboLoop_of_not_bound (h : ∀ slot ∈ slots, ¬BoundTo e slot) :
    comboLoop modDown e i slots = (slots, {}) := by
  induction slots generalizing i with
  | nil => rfl
  | cons slot slots ih =>
    rw [comboLoop, slotStep_of_not_bound (h slot (.head _))]
    dsimp only
    rw [ih fun other hother => h other (.tail _ hother)]

/-- An event of a key that one slot is bound to is for that slot. -/
lemma comboLoop_of_bound (hbefore : ∀ other ∈ before, ¬BoundTo e other)
    (hafter : ∀ other ∈ after, ¬BoundTo e other) :
    comboLoop modDown e i (before ++ slot :: after) =
      (before ++ (slotStep modDown e slot).1 :: after,
        (slotStep modDown e slot).2.result (i + before.length)) := by
  induction before generalizing i with
  | nil =>
    rw [List.nil_append, comboLoop]
    obtain ⟨slot', act⟩ := slotStep modDown e slot
    cases act with
    | next =>
      dsimp only
      rw [comboLoop_of_not_bound hafter]
      rfl
    | eat => rfl
    | fire => rfl
  | cons other before ih =>
    rw [List.cons_append, comboLoop, slotStep_of_not_bound (hbefore other (.head _))]
    dsimp only
    rw [ih fun slot hslot => hbefore slot (.tail _ hslot), List.length_cons, Nat.add_assoc,
      Nat.add_comm 1]
    rfl

end Loop

section Track

variable {m : HotkeyManager} {e : KeyboardEvent}

/-- Tracking the modifiers leaves the slots. -/
lemma track_slots : (m.track e).slots = m.slots := by
  unfold track
  split
  · split_ifs <;> rfl
  · split_ifs <;> rfl

/-- Other keys do not change the modifiers. -/
lemma track_modDown_of_other (h : modifierOf e.vk = none) : (m.track e).modDown = m.modDown := by
  rw [track, h]
  dsimp only
  split_ifs <;> rfl

/-- The hook procedure at the key of one slot. -/
lemma LowLevelKeyboardProc_of_bound {slot : HotkeySlot} {before after : List HotkeySlot}
    (hown : e.own = false) (hother : modifierOf e.vk = none)
    (hslots : m.slots = before ++ slot :: after) (hbefore : ∀ other ∈ before, ¬BoundTo e other)
    (hafter : ∀ other ∈ after, ¬BoundTo e other) :
    (m.LowLevelKeyboardProc e).1.slots = before ++ (slotStep m.modDown e slot).1 :: after ∧
      (m.LowLevelKeyboardProc e).2 = (slotStep m.modDown e slot).2.result before.length := by
  have hloop := @comboLoop_of_bound m.modDown e 0 slot before after hbefore hafter
  rw [Nat.zero_add] at hloop
  rw [LowLevelKeyboardProc, if_neg (Bool.eq_false_iff.1 hown), hother]
  dsimp only
  rw [track_slots, track_modDown_of_other hother, hslots, hloop]
  exact ⟨rfl, rfl⟩

/-- The hook procedure at a key of no slot. -/
lemma LowLevelKeyboardProc_of_not_bound (hown : e.own = false)
    (h : modifierOf e.vk ≠ none ∨ ∀ slot ∈ m.slots, ¬BoundTo e slot) :
    (m.LowLevelKeyboardProc e).1.slots = m.slots ∧
      (m.LowLevelKeyboardProc e).2.eaten = false := by
  rw [LowLevelKeyboardProc, if_neg (Bool.eq_false_iff.1 hown)]
  dsimp only
  cases hkind : modifierOf e.vk with
  | some kind => exact ⟨track_slots, rfl⟩
  | none =>
    dsimp only
    rw [track_slots, comboLoop_of_not_bound (h.resolve_left (not_not.2 hkind))]
    exact ⟨rfl, rfl⟩

/-- The program's own events are passed on. -/
lemma LowLevelKeyboardProc_of_own (hown : e.own = true) : m.LowLevelKeyboardProc e = (m, {}) :=
  if_pos hown

/-- What an event does to the record of other keys. -/
lemma otherKeyPressed_LowLevelKeyboardProc (hown : e.own = false) :
    (m.LowLevelKeyboardProc e).1.otherKeyPressed = (m.track e).otherKeyPressed := by
  rw [LowLevelKeyboardProc, if_neg (Bool.eq_false_iff.1 hown)]
  dsimp only
  cases modifierOf e.vk <;> rfl

/-- The flag that is not set behind an event was not set, or is cleared by a modifier that goes down; and
    the event is not the down of another key. -/
lemma otherKeyPressed_track (h : (m.track e).otherKeyPressed = false) :
    (modifierOf e.vk = none → e.isDown = false) ∧
      (m.otherKeyPressed = false ∨
        e.isDown = true ∧ ∃ kind, modifierOf e.vk = some kind ∧ m.modDown kind = false) := by
  unfold track at h
  cases hkind : modifierOf e.vk with
  | none =>
    rw [hkind] at h
    dsimp only at h
    split_ifs at h with hdown
    exact ⟨fun _ => Bool.eq_false_iff.2 hdown, .inl h⟩
  | some kind =>
    refine ⟨fun hnone => absurd hnone (by simp), ?_⟩
    rw [hkind] at h
    dsimp only at h
    split_ifs at h with hdown hheld
    · exact .inl h
    · exact .inr ⟨hdown, kind, rfl, Bool.eq_false_iff.2 hheld⟩
    · exact .inl h

/-- A slot fires at the release of a modifier only while the flag is not set. -/
lemma otherKeyPressed_of_fired (hown : e.own = false) (hmodifier : modifierOf e.vk ≠ none)
    (hfired : (m.LowLevelKeyboardProc e).2.fired ≠ []) : m.otherKeyPressed = false := by
  obtain ⟨kind, hkind⟩ := Option.ne_none_iff_exists'.1 hmodifier
  rw [LowLevelKeyboardProc, if_neg (Bool.eq_false_iff.1 hown), hkind] at hfired
  dsimp only at hfired
  split_ifs at hfired with hdown
  · exact absurd rfl hfired
  · obtain ⟨i, hi⟩ := List.exists_mem_of_ne_nil _ hfired
    obtain ⟨⟨slot, j⟩, -, hfires⟩ := List.mem_filterMap.1 hi
    dsimp only at hfires
    split_ifs at hfires with hclean
    exact Bool.eq_false_iff.2 hclean.2.2.2

end Track

end HotkeyManager

end NextKey
