import NextKey.Hook.HotkeyManager

/-!
# The downs and ups of combination keys

Runs of the hotkey manager beside the keys that are held. The manager remembers for each slot that it ate
a down, not of which key, and so pairs a down with its up only while the slot keeps its key: a slot that
is bound to another key in between leaves the up to the application and eats the first down of the other
key. An auto-repeat whose first down passed fires when the modifiers match by then, and its up is eaten.
-/

namespace NextKey

/-- The manager, and the keys that are held, with whether their first down was eaten. -/
structure HotkeySession where
  manager : HotkeyManager
  held : BitVec 32 → Option Bool := fun _ => none

namespace HotkeySession

/-- One event: the manager moves, and a key is held from its first down to its up. -/
def step (s : HotkeySession) : HotkeyInput → HotkeySession
  | .key e =>
    let (manager, result) := s.manager.LowLevelKeyboardProc e
    if e.own then { s with manager := manager }
    else
      { manager := manager
        held := fun k =>
          if k = e.vk then
            if e.isDown then some ((s.held k).getD result.eaten) else none
          else s.held k }
  | .UpdateHotkey slot config => { s with manager := s.manager.UpdateHotkey slot config }
  | .ReconcileModifiers physical => { s with manager := s.manager.ReconcileModifiers physical }

/-- A fresh manager with these hotkeys, and no key held. -/
def start (configs : List HotkeyConfig) : HotkeySession :=
  { manager := { slots := configs.map fun config => { config := config } } }

/-- A first down is eaten only if it fires a slot, and an up just when the first down was eaten. -/
def Paired (s : HotkeySession) : HotkeyInput → Prop
  | .key e =>
    let result := (s.manager.LowLevelKeyboardProc e).2
    e.own = false →
      match s.held e.vk, e.isDown with
      | none, true => result.eaten = true → result.fired ≠ []
      | some eaten, false => result.eaten = eaten
      | _, _ => True
  | _ => True

/-- No two slots are bound to the same key. -/
def DistinctKeys (slots : List HotkeySlot) : Prop :=
  slots.Pairwise fun a b => a.config.vk ≠ 0 → a.config.vk ≠ b.config.vk

/-- A binding that is changed leaves the keys distinct. -/
def KeepsDistinct (s : HotkeySession) : HotkeyInput → Prop
  | .UpdateHotkey slot config => DistinctKeys (s.manager.UpdateHotkey slot config).slots
  | _ => True

/-- The key of a slot that waits for its up is not changed, and no auto-repeat of a key whose first down
    passed finds its combination complete. -/
def Steady (s : HotkeySession) : HotkeyInput → Prop
  | .key e =>
    e.own = false → e.isDown = true → s.held e.vk = some false → modifierOf e.vk = none →
      ∀ slot ∈ s.manager.slots, HotkeyManager.BoundTo e slot →
        HotkeyManager.modifiersMatch slot.config s.manager.modDown = false
  | .UpdateHotkey slot config =>
    ∀ old ∈ s.manager.slots[slot]?, old.comboKeyDown = true → config.vk = old.config.vk
  | .ReconcileModifiers _ => True

/-- The slots that wait for an up are those whose keys are held and eaten. -/
structure Agree (slots : List HotkeySlot) (held : BitVec 32 → Option Bool) : Prop where
  distinct : DistinctKeys slots
  waiting : ∀ slot ∈ slots, slot.comboKeyDown = true →
    slot.config.vk ≠ 0 ∧ modifierOf slot.config.vk = none ∧ held slot.config.vk = some true
  eaten : ∀ k, held k = some true → ∃ slot ∈ slots, slot.comboKeyDown = true ∧ slot.config.vk = k

section Agree

variable {slots before after : List HotkeySlot} {slot : HotkeySlot} {held : BitVec 32 → Option Bool}
  {k : BitVec 32} {v : Option Bool} {e : KeyboardEvent}

/-- The keys of the slots differ. -/
lemma distinctKeys_iff : DistinctKeys slots ↔
    (slots.map fun slot => slot.config.vk).Pairwise fun a b => a ≠ 0 → a ≠ b := by
  rw [List.pairwise_map]
  exact Iff.rfl

/-- Of distinct keys only one slot has the key of an event. -/
lemma not_bound_of_distinct (h : DistinctKeys (before ++ slot :: after))
    (hslot : HotkeyManager.BoundTo e slot) :
    (∀ other ∈ before, ¬HotkeyManager.BoundTo e other) ∧
      ∀ other ∈ after, ¬HotkeyManager.BoundTo e other := by
  obtain ⟨-, htail, hcross⟩ := List.pairwise_append.1 h
  constructor
  · rintro other hother ⟨hzero, hkey⟩
    exact hcross other hother slot (.head _) hzero (hkey.symm.trans hslot.2)
  · rintro other hother ⟨-, hkey⟩
    exact (List.pairwise_cons.1 htail).1 other hother hslot.1 (hslot.2.symm.trans hkey)

/-- A key that no slot waits for is held or not. -/
lemma Agree.pass (h : Agree slots held)
    (hnone : ∀ slot ∈ slots, slot.comboKeyDown = true → slot.config.vk ≠ k) (hv : v ≠ some true) :
    Agree slots fun j => if j = k then v else held j where
  distinct := h.distinct
  waiting slot hslot hdown := by
    obtain ⟨hzero, hother, hheld⟩ := h.waiting slot hslot hdown
    refine ⟨hzero, hother, ?_⟩
    rw [if_neg (hnone slot hslot hdown)]
    exact hheld
  eaten j hj := by
    split_ifs at hj with heq
    · exact absurd hj hv
    · exact h.eaten j hj

/-- A slot waits for the up of its key from now on just when its key is held and eaten from now on. -/
lemma Agree.update (h : Agree (before ++ slot :: after) held) {down : Bool}
    (hslot : HotkeyManager.BoundTo e slot) (hother : modifierOf e.vk = none)
    (hv : v = some true ↔ down = true) :
    Agree (before ++ { slot with comboKeyDown := down } :: after)
      fun j => if j = e.vk then v else held j := by
  obtain ⟨hbefore, hafter⟩ := not_bound_of_distinct h.distinct hslot
  have hrest : ∀ other, other ∈ before ∨ other ∈ after → other.comboKeyDown = true →
      other.config.vk ≠ 0 ∧ modifierOf other.config.vk = none ∧
        (if other.config.vk = e.vk then v else held other.config.vk) = some true := by
    intro other hmem hdown
    have hold : other ∈ before ++ slot :: after :=
      List.mem_append.2 (hmem.imp_right (List.mem_cons_of_mem _))
    obtain ⟨hzero, hmod, hheld⟩ := h.waiting other hold hdown
    have hnot : ¬HotkeyManager.BoundTo e other := hmem.elim (hbefore other) (hafter other)
    have hne : other.config.vk ≠ e.vk := fun heq => hnot ⟨hzero, heq.symm⟩
    refine ⟨hzero, hmod, ?_⟩
    rw [if_neg hne]
    exact hheld
  refine ⟨?_, ?_, ?_⟩
  · -- the keys are the same as before
    have hkeys := distinctKeys_iff.1 h.distinct
    rw [List.map_append, List.map_cons] at hkeys
    rw [distinctKeys_iff, List.map_append, List.map_cons]
    exact hkeys
  · intro other hmem hdown
    rcases List.mem_append.1 hmem with hbef | htail
    · exact hrest other (.inl hbef) hdown
    · obtain rfl | haft := List.mem_cons.1 htail
      · refine ⟨hslot.1, hslot.2 ▸ hother, ?_⟩
        dsimp only
        rw [if_pos hslot.2.symm]
        exact hv.2 hdown
      · exact hrest other (.inr haft) hdown
  · intro j hj
    split_ifs at hj with heq
    · subst heq
      exact ⟨_, List.mem_append_right _ (.head _), hv.1 hj, hslot.2.symm⟩
    · obtain ⟨other, hmem, hdown, hkey⟩ := h.eaten j hj
      rcases List.mem_append.1 hmem with hbef | htail
      · exact ⟨other, List.mem_append_left _ hbef, hdown, hkey⟩
      · obtain rfl | haft := List.mem_cons.1 htail
        · exact absurd (hkey.symm.trans hslot.2.symm) heq
        · exact ⟨other, List.mem_append_right _ (.tail _ haft), hdown, hkey⟩

end Agree

section Step

variable {s : HotkeySession} {e : KeyboardEvent}

/-- What the hook procedure does with an event of the keyboard. -/
lemma step_key (hown : e.own = false) : s.step (.key e) =
    { manager := (s.manager.LowLevelKeyboardProc e).1
      held := fun k =>
        if k = e.vk then
          if e.isDown then some ((s.held e.vk).getD (s.manager.LowLevelKeyboardProc e).2.eaten) else none
        else s.held k } := by
  rw [step]
  dsimp only
  rw [if_neg (Bool.eq_false_iff.1 hown)]
  congr 1
  funext k
  split_ifs with heq
  · rw [heq]
  · rfl
  · rfl

/-- A key whose down was not eaten is up or was let pass. -/
lemma not_held_eaten {down : Option Bool} (h : down ≠ some true) : down = none ∨ down = some false := by
  cases down with
  | none => exact .inl rfl
  | some eaten =>
    cases eaten with
    | false => exact .inr rfl
    | true => exact absurd rfl h

/-- An event that passes, and whose key no slot waits for, is paired and leaves the slots that wait. -/
lemma agree_of_pass (hs : Agree s.manager.slots s.held) (hown : e.own = false)
    (hslots : (s.manager.LowLevelKeyboardProc e).1.slots = s.manager.slots)
    (heaten : (s.manager.LowLevelKeyboardProc e).2.eaten = false)
    (hnone : ∀ slot ∈ s.manager.slots, slot.comboKeyDown = true → slot.config.vk ≠ e.vk) :
    Agree (s.step (.key e)).manager.slots (s.step (.key e)).held ∧ s.Paired (.key e) := by
  have hheld : s.held e.vk ≠ some true := by
    intro heq
    obtain ⟨slot, hslot, hdown, hkey⟩ := hs.eaten e.vk heq
    exact hnone slot hslot hdown hkey
  have hpassed := not_held_eaten hheld
  constructor
  · rw [step_key hown]
    dsimp only
    rw [hslots]
    refine hs.pass hnone ?_
    rw [heaten]
    obtain hk | hk := hpassed <;> rw [hk] <;> cases e.isDown <;> simp
  · intro _
    rw [heaten]
    obtain hk | hk := hpassed <;> rw [hk] <;> cases e.isDown <;> simp

/-- An event of a key that a slot is bound to. -/
lemma agree_of_bound (hs : Agree s.manager.slots s.held) (hsteady : s.Steady (.key e))
    (hown : e.own = false) (hother : modifierOf e.vk = none) {slot : HotkeySlot}
    (hslot : slot ∈ s.manager.slots) (hbound : HotkeyManager.BoundTo e slot) :
    Agree (s.step (.key e)).manager.slots (s.step (.key e)).held ∧ s.Paired (.key e) := by
  obtain ⟨before, after, hslots⟩ := List.append_of_mem hslot
  rw [hslots] at hs
  obtain ⟨hbefore, hafter⟩ := not_bound_of_distinct hs.distinct hbound
  -- the slot waits just when its key is held and was eaten
  have hwaits : slot.comboKeyDown = true ↔ s.held e.vk = some true := by
    constructor
    · intro hdown
      rw [hbound.2]
      exact (hs.waiting slot (List.mem_append_right _ (.head _)) hdown).2.2
    · intro hheld
      obtain ⟨other, hmem, hdown, hkey⟩ := hs.eaten e.vk hheld
      rcases List.mem_append.1 hmem with hbef | htail
      · exact absurd ⟨hkey ▸ hbound.2 ▸ hbound.1, hkey.symm⟩ (hbefore other hbef)
      · obtain rfl | haft := List.mem_cons.1 htail
        · exact hdown
        · exact absurd ⟨hkey ▸ hbound.2 ▸ hbound.1, hkey.symm⟩ (hafter other haft)
  obtain ⟨hproc, hresult⟩ :=
    HotkeyManager.LowLevelKeyboardProc_of_bound hown hother hslots hbefore hafter
  rw [HotkeyManager.slotStep_of_bound hbound] at hproc hresult
  -- what the slots and the held keys agree on behind the event
  have hupdate : ∀ {down : Bool} {v : Option Bool}, (v = some true ↔ down = true) →
      Agree (before ++ { slot with comboKeyDown := down } :: after)
        fun k => if k = e.vk then v else s.held k := hs.update hbound hother
  have hsame : ∀ {down : Bool}, slot.comboKeyDown = down →
      { slot with comboKeyDown := down } = slot := by
    rintro down rfl
    rfl
  rw [step_key hown]
  dsimp only [Paired]
  rw [hproc, hresult]
  cases hdown : slot.comboKeyDown with
  | true =>
    rw [if_pos rfl, if_pos rfl, hwaits.1 hdown]
    cases e.isDown with
    | true =>
      -- an auto-repeat is eaten
      rw [if_pos rfl, if_pos rfl]
      refine ⟨?_, fun _ => trivial⟩
      rw [← hsame hdown]
      exact hupdate (by simp)
    | false =>
      rw [if_neg Bool.false_ne_true, if_neg Bool.false_ne_true]
      exact ⟨hupdate (by simp), fun _ => rfl⟩
  | false =>
    have hnot : s.held e.vk ≠ some true := by
      rw [ne_eq, ← hwaits, hdown]
      exact Bool.false_ne_true
    have hpassed := not_held_eaten hnot
    rw [if_neg Bool.false_ne_true, if_neg Bool.false_ne_true]
    cases hkind : e.isDown with
    | true =>
      rw [if_pos rfl, if_pos rfl]
      cases hmatch : HotkeyManager.modifiersMatch slot.config s.manager.modDown with
      | true =>
        -- the combination is complete, and this is no auto-repeat
        have hfirst : s.held e.vk = none := by
          refine hpassed.resolve_right fun hrepeat => ?_
          rw [hsteady hown hkind hrepeat hother slot hslot hbound] at hmatch
          cases hmatch
        rw [if_pos rfl, hfirst]
        exact ⟨hupdate (by simp [HotkeyManager.SlotAct.result]), fun _ _ => List.cons_ne_nil _ _⟩
      | false =>
        rw [if_neg Bool.false_ne_true]
        constructor
        · rw [← hsame hdown]
          obtain hk | hk := hpassed <;> rw [hk] <;>
            exact hupdate (by simp [HotkeyManager.SlotAct.result])
        · intro _
          obtain hk | hk := hpassed
          · rw [hk]
            intro heaten
            cases heaten
          · rw [hk]
            trivial
    | false =>
      rw [if_neg Bool.false_ne_true, if_neg Bool.false_ne_true]
      constructor
      · rw [← hsame hdown]
        exact hupdate (by simp)
      · intro _
        obtain hk | hk := hpassed
        · rw [hk]
          trivial
        · rw [hk]
          rfl

/-- A slot that waits keeps its key when it is bound to the same key or another slot is rebound. -/
lemma Agree.updateHotkey (hs : Agree s.manager.slots s.held) {index : Nat} {config : HotkeyConfig}
    (hdistinct : DistinctKeys (s.manager.UpdateHotkey index config).slots)
    (hsteady : s.Steady (.UpdateHotkey index config)) :
    Agree (s.manager.UpdateHotkey index config).slots s.held := by
  have hget : ∀ j, (s.manager.UpdateHotkey index config).slots[j]? =
      s.manager.slots[j]?.map fun slot => if index = j then { slot with config := config } else slot := by
    intro j
    rw [HotkeyManager.UpdateHotkey, List.getElem?_modify]
    split_ifs <;> rfl
  have hkey : ∀ (j : Nat) (slot : HotkeySlot), s.manager.slots[j]? = some slot →
      slot.comboKeyDown = true →
        (if index = j then { slot with config := config } else slot).config.vk = slot.config.vk := by
    intro j slot hj hdown
    split_ifs with hindex
    · exact hsteady slot (hindex ▸ hj) hdown
    · rfl
  have hflag : ∀ (j : Nat) (slot : HotkeySlot),
      (if index = j then { slot with config := config } else slot).comboKeyDown =
        slot.comboKeyDown := by
    intro j slot
    split_ifs <;> rfl
  refine ⟨hdistinct, ?_, ?_⟩
  · intro slot' hslot' hdown
    obtain ⟨j, hj⟩ := List.mem_iff_getElem?.1 hslot'
    rw [hget] at hj
    obtain ⟨slot, hslot, rfl⟩ := Option.map_eq_some_iff.1 hj
    rw [hflag] at hdown
    rw [hkey j slot hslot hdown]
    exact hs.waiting slot (List.mem_of_getElem? hslot) hdown
  · intro k hk
    obtain ⟨slot, hslot, hdown, rfl⟩ := hs.eaten k hk
    obtain ⟨j, hj⟩ := List.mem_iff_getElem?.1 hslot
    have hj' := hget j
    rw [hj, Option.map_some] at hj'
    exact ⟨_, List.mem_of_getElem? hj', (hflag j slot).trans hdown, hkey j slot hj hdown⟩

/-- What a step keeps. -/
lemma step_agree {input : HotkeyInput} (hs : Agree s.manager.slots s.held)
    (hdistinct : s.KeepsDistinct input) (hsteady : s.Steady input) :
    Agree (s.step input).manager.slots (s.step input).held ∧ s.Paired input := by
  cases input with
  | key e =>
    cases hown : e.own with
    | true =>
      refine ⟨?_, fun hfalse => absurd (hfalse.symm.trans hown) Bool.false_ne_true⟩
      rw [step, HotkeyManager.LowLevelKeyboardProc, if_pos hown]
      dsimp only
      rw [if_pos hown]
      exact hs
    | false =>
      by_cases hpass : modifierOf e.vk ≠ none ∨
          ∀ slot ∈ s.manager.slots, ¬HotkeyManager.BoundTo e slot
      · obtain ⟨hslots, heaten⟩ := HotkeyManager.LowLevelKeyboardProc_of_not_bound hown hpass
        refine agree_of_pass hs hown hslots heaten fun slot hslot hdown hkey => ?_
        obtain ⟨hzero, hother, -⟩ := hs.waiting slot hslot hdown
        rw [hkey] at hother
        exact (hpass.resolve_left (not_not.2 hother)) slot hslot ⟨hzero, hkey.symm⟩
      · simp only [not_or, not_not, not_forall] at hpass
        obtain ⟨hother, slot, hslot, hbound⟩ := hpass
        exact agree_of_bound hs hsteady hown hother hslot hbound
  | UpdateHotkey index config =>
    exact ⟨hs.updateHotkey hdistinct hsteady, trivial⟩
  | ReconcileModifiers physical => exact ⟨hs, trivial⟩

end Step

/-- The manager agrees with the keyboard. -/
def Consistent (s : HotkeySession) : Prop := Agree s.manager.slots s.held

/-- At the start no combination is held. -/
lemma consistent_start {configs : List HotkeyConfig}
    (hdistinct : DistinctKeys (start configs).manager.slots) : (start configs).Consistent where
  distinct := hdistinct
  waiting slot hslot hdown := by
    obtain ⟨config, -, rfl⟩ := List.mem_map.1 hslot
    cases hdown
  eaten k hk := by cases hk

/-- In a run that rebinds no slot while it waits for an up, and completes no combination behind the first
    down of its key, downs and ups are paired. -/
theorem paired_of_steady {configs : List HotkeyConfig} {inputs : List HotkeyInput}
    (hdistinct : DistinctKeys (start configs).manager.slots)
    (hrun : Machine.Guarded step (fun s input => s.KeepsDistinct input ∧ s.Steady input)
      (start configs) inputs) :
    Machine.Guarded step Paired (start configs) inputs := by
  refine hrun.imp (consistent_start hdistinct) ?_ ?_
  · intro s input hs hok
    exact (step_agree hs hok.1 hok.2).1
  · intro s input hs hok
    exact (step_agree hs hok.1 hok.2).2

/-- Ctrl and Z. -/
def ctrlZ : HotkeyConfig := { ctrl := true, vk := 0x5A }

/-- Ctrl and X. -/
def ctrlX : HotkeyConfig := { ctrl := true, vk := 0x58 }

/-- A combination is pressed and released, and bound to another key behind it. -/
theorem paired_ctrlZ :
    Machine.Guarded step Paired (start [ctrlZ])
      [.key ⟨0xA2, true, false⟩, .key ⟨0x5A, true, false⟩, .key ⟨0x5A, true, false⟩,
        .key ⟨0x5A, false, false⟩, .UpdateHotkey 0 ctrlX] := by
  have hdistinct : DistinctKeys (start [ctrlZ]).manager.slots := List.pairwise_singleton _ _
  refine paired_of_steady hdistinct ⟨⟨trivial, ?_⟩, ⟨trivial, ?_⟩, ⟨trivial, ?_⟩, ⟨trivial, ?_⟩,
    ⟨List.pairwise_singleton _ _, ?_⟩, trivial⟩
  · intro _ _ hfirst
    cases hfirst
  · intro _ _ hfirst
    cases hfirst
  · intro _ _ heaten
    cases heaten
  · intro _ hup
    cases hup
  · intro slot hslot hdown
    cases hslot
    cases hdown

/-- The combination is bound to another key before it is released: the release is not eaten. -/
theorem not_paired_rebound :
    ¬∀ (configs : List HotkeyConfig) (inputs : List HotkeyInput),
      DistinctKeys (start configs).manager.slots →
      Machine.Guarded step KeepsDistinct (start configs) inputs →
      Machine.Guarded step Paired (start configs) inputs := by
  intro h
  obtain ⟨-, -, -, hup, -⟩ := h [ctrlZ]
    [.key ⟨0xA2, true, false⟩, .key ⟨0x5A, true, false⟩, .UpdateHotkey 0 ctrlX,
      .key ⟨0x5A, false, false⟩] (List.pairwise_singleton _ _)
    ⟨trivial, trivial, List.pairwise_singleton _ _, trivial, trivial⟩
  have heaten : false = true := hup rfl
  cases heaten

end HotkeySession

end NextKey
