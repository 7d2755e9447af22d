import NextKey.Lib.Since
import NextKey.Output.Dispatcher

/-!
# Formula cells

Model of `core/FormulaSegmentDecision.h`, of `UpdateFormulaSegment`, `SetFormulaSegment` and the reset
in `ResetComposition` in `app/system/HookEngine.cpp`, of the injector that the focus change puts in, and
of `Create` in `app/output/OutputInjectorFactory.cpp`. In a spreadsheet an unshifted "=" that comes
first in a cell opens a formula, and while it is open the injector in use sends no bait.

The bait is determined by the events before (`emitBait_iff`): the state machine, the copy of its flag
that saves stores, and the flag of an injector that a focus change replaces never disagree with them.
-/

namespace NextKey

open Machine

/-- C++ `WindowClassification` -/
structure WindowClassification where
  isRichEditD2DPT : Bool := false
  isElectron : Bool := false
  isConsole : Bool := false
  isChromium : Bool := false
  useClipboard : Bool := false
  forcedSplitSleepMs : Nat := 0
  forceEmReplaceSel : Bool := false

/-- An injector of SendInput as it is constructed. -/
def SendInputInjector.make (channel : SendInputChannel) (needsBaitCharPrefix : Bool) :
    SendInputInjector where
  channel := channel
  needsBaitCharPrefix := needsBaitCharPrefix
  suggestKeepChars := false
  suppressBait := false

/-- C++ `Output::Create` -/
def Create (c : WindowClassification) : Injector :=
  if c.forceEmReplaceSel then .richEdit true
  else if c.useClipboard then .clipboard
  else if 0 < c.forcedSplitSleepMs then
    .sendInput (.make (.split c.forcedSplitSleepMs c.isElectron) c.isChromium)
  else if c.isRichEditD2DPT then .richEdit false
  else if c.isElectron then .sendInput (.make (.split 6 true) c.isChromium)
  else if c.isConsole then .sendInput (.make (.split 5 false) false)
  else .sendInput (.make .win32 c.isChromium)

namespace Injector

def SetSuggestKeepChars (enabled : Bool) : Injector → Injector
  | .sendInput inj => .sendInput { inj with suggestKeepChars := enabled }
  | .richEdit forced => .richEdit forced
  | .clipboard => .clipboard

def SetSuppressBait (enabled : Bool) : Injector → Injector
  | .sendInput inj => .sendInput { inj with suppressBait := enabled }
  | .richEdit forced => .richEdit forced
  | .clipboard => .clipboard

end Injector

/-- C++ `FormulaSegmentState` -/
structure FormulaSegmentState where
  atSegmentStart : Bool := true
  inFormula : Bool := false
  deriving DecidableEq

/-- C++ `FormulaKeyKind` -/
inductive FormulaKeyKind where
  | boundary
  | navigate
  | passive
  | equalsStart
  | otherContent
  deriving DecidableEq

/-- C++ `NextFormulaSegmentState` -/
def NextFormulaSegmentState (s : FormulaSegmentState) : FormulaKeyKind → FormulaSegmentState
  | .boundary => { atSegmentStart := true, inFormula := false }
  | .navigate =>
    if s.inFormula then { atSegmentStart := false, inFormula := true }
    else { atSegmentStart := true, inFormula := false }
  | .passive => s
  | .equalsStart =>
    if s.atSegmentStart then { atSegmentStart := false, inFormula := true }
    else { atSegmentStart := false, inFormula := s.inFormula }
  | .otherContent =>
    if s.atSegmentStart then { atSegmentStart := false, inFormula := false }
    else { atSegmentStart := false, inFormula := s.inFormula }

/-- The classification in C++ `UpdateFormulaSegment`; the passive keys are Shift, Ctrl, Alt, the two
    Windows keys, CapsLock, Backspace and Delete, and the last is `VK_OEM_PLUS`. -/
def formulaKeyKind (atSegmentStart : Bool) (vk : Nat) (shift : Bool) : FormulaKeyKind :=
  if vk ∈ [VK_RETURN, VK_TAB, VK_ESCAPE, VK_PRIOR, VK_NEXT] then .boundary
  else if VK_LEFT ≤ vk ∧ vk ≤ VK_DOWN ∨ vk = VK_HOME ∨ vk = VK_END then .navigate
  else if vk ∈ [0x10, 0x11, 0x12, 0x5B, 0x5C, 0x14, VK_BACK, VK_DELETE] then .passive
  else if atSegmentStart ∧ vk = 0xBB ∧ !shift then .equalsStart
  else .otherContent

/-- What the hook thread tracks. -/
structure FormulaTracking where
  formulaState : FormulaSegmentState := {}
  hostIsFormulaCapable : Bool := false
  baitSuppressed : Bool := false
  injector : Injector := Create {}

/-- What happens on the hook thread. -/
inductive FormulaEvent where
  /-- A key goes down, with Shift held or not. -/
  | keyDown (vk : Nat) (shift : Bool)
  /-- `ResetComposition` -/
  | reset
  /-- `ApplyFocusOnHookThread`, with `localFormulaHost` and the setting for suggestions -/
  | focus (c : WindowClassification) (localFormulaHost suggestKeepChars : Bool)
  | ApplyConfig (suggestKeepChars : Bool)

namespace FormulaTracking

variable (s : FormulaTracking)

/-- C++ `SetFormulaSegment` -/
def SetFormulaSegment (on : Bool) : FormulaTracking :=
  if s.baitSuppressed = on then s
  else { s with baitSuppressed := on, injector := s.injector.SetSuppressBait on }

/-- C++ `UpdateFormulaSegment` -/
def UpdateFormulaSegment (vk : Nat) (shift : Bool) : FormulaTracking :=
  if s.hostIsFormulaCapable then
    let formulaState :=
      NextFormulaSegmentState s.formulaState (formulaKeyKind s.formulaState.atSegmentStart vk shift)
    { s with formulaState }.SetFormulaSegment formulaState.inFormula
  else s

/-- The part of C++ `ResetComposition` -/
def ResetComposition : FormulaTracking := { s with formulaState := {} }.SetFormulaSegment false

/-- One event. -/
def step : FormulaEvent → FormulaTracking
  | .keyDown vk shift => s.UpdateFormulaSegment vk shift
  | .reset => s.ResetComposition
  | .focus c localFormulaHost suggestKeepChars =>
    { s.ResetComposition with
      hostIsFormulaCapable := localFormulaHost
      injector := ((Create c).SetSuggestKeepChars suggestKeepChars).SetSuppressBait
        s.ResetComposition.baitSuppressed }
  | .ApplyConfig suggestKeepChars =>
    { s with injector := s.injector.SetSuggestKeepChars suggestKeepChars }

end FormulaTracking

/-- A run from the start of the hook. -/
abbrev formulaRun (events : List FormulaEvent) : FormulaTracking :=
  run FormulaTracking.step {} events

namespace FormulaEvent

/-- The kind of a key that comes first in a cell. -/
def kind : FormulaEvent → Option FormulaKeyKind
  | .keyDown vk shift => some (formulaKeyKind true vk shift)
  | .reset | .focus _ _ _ | .ApplyConfig _ => none

/-- The cell is left, or may have been. -/
def leaves : FormulaEvent → Bool
  | .keyDown vk shift => formulaKeyKind true vk shift == .boundary
  | .reset | .focus _ _ _ => true
  | .ApplyConfig _ => false

/-- A cell begins, unless a formula goes on. -/
def begins (e : FormulaEvent) : Bool := e.leaves || e.kind == some .navigate

/-- Nothing is entered. -/
def passes : FormulaEvent → Bool
  | .keyDown vk shift => formulaKeyKind true vk shift == .passive
  | .ApplyConfig _ => true
  | .reset | .focus _ _ _ => false

/-- An unshifted "=". -/
def equals (e : FormulaEvent) : Bool := e.kind == some .equalsStart

def isFocus : FormulaEvent → Bool
  | .focus _ _ _ => true
  | .keyDown _ _ | .reset | .ApplyConfig _ => false

/-- The focus comes to a spreadsheet. -/
def toSpreadsheet : FormulaEvent → Bool
  | .focus _ localFormulaHost _ => localFormulaHost
  | .keyDown _ _ | .reset | .ApplyConfig _ => false

end FormulaEvent

variable {events : List FormulaEvent}

/-- The focus is on a spreadsheet. -/
def InSpreadsheet (events : List FormulaEvent) : Prop :=
  Since history (fun _ e => e.toSpreadsheet = true) (fun _ e => e.isFocus = false) [] events

/-- Nothing has been entered in the cell. -/
def FreshCell (events : List FormulaEvent) : Prop :=
  Since history (fun _ e => e.begins = true) (fun _ e => e.passes = true) [] events

/-- The cell holds a formula: in a spreadsheet, an "=" came first, and the cell has not been left. -/
def InFormula (events : List FormulaEvent) : Prop :=
  Since history (fun before e => (InSpreadsheet before ∧ FreshCell before) ∧ e.equals = true)
    (fun _ e => e.leaves = false) [] events

/-- Whether the host is a spreadsheet, after one more event. -/
lemma inSpreadsheet_concat {e : FormulaEvent} : InSpreadsheet (events ++ [e]) ↔
    e.toSpreadsheet = true ∨ InSpreadsheet events ∧ e.isFocus = false := since_concat

/-- Whether the cell is fresh, after one more event. -/
lemma freshCell_concat {e : FormulaEvent} : FreshCell (events ++ [e]) ↔
    e.begins = true ∨ FreshCell events ∧ e.passes = true := since_concat

/-- Whether the cell is a formula, after one more event. -/
lemma inFormula_concat {e : FormulaEvent} : InFormula (events ++ [e]) ↔
    (InSpreadsheet events ∧ FreshCell events) ∧ e.equals = true ∨
      InFormula events ∧ e.leaves = false := by
  rw [InFormula, since_concat, run_history]
  rfl

/-- The kind of a key depends on the state only for an "=" that does not come first. -/
lemma formulaKeyKind_eq {atSegmentStart : Bool} {vk : Nat} {shift : Bool} :
    formulaKeyKind atSegmentStart vk shift =
      if formulaKeyKind true vk shift = .equalsStart ∧ atSegmentStart = false then .otherContent
      else formulaKeyKind true vk shift := by
  cases atSegmentStart with
  | true => simp
  | false =>
    unfold formulaKeyKind
    split
    · simp
    · split
      · simp
      · split
        · simp
        · rw [if_neg (by simp)]
          split <;> simp

/-- The state of a segment in a spreadsheet, when `fresh` tells whether nothing has been entered and
    `formula` whether there is a formula. -/
structure SegmentTracks (st : FormulaSegmentState) (fresh formula : Prop) : Prop where
  fresh_of_start : st.atSegmentStart = true → fresh
  of_fresh : fresh → st.atSegmentStart = true ∨ st.inFormula = true
  inFormula_iff : st.inFormula = true ↔ formula
  exclusive : st.atSegmentStart = true → st.inFormula = false

/-- One key. -/
lemma SegmentTracks.next {st : FormulaSegmentState} {fresh formula : Prop}
    (h : SegmentTracks st fresh formula) (vk : Nat) (shift : Bool) :
    SegmentTracks (NextFormulaSegmentState st (formulaKeyKind st.atSegmentStart vk shift))
      ((FormulaEvent.keyDown vk shift).begins = true ∨
        fresh ∧ (FormulaEvent.keyDown vk shift).passes = true)
      (fresh ∧ (FormulaEvent.keyDown vk shift).equals = true ∨
        formula ∧ (FormulaEvent.keyDown vk shift).leaves = false) := by
  rw [formulaKeyKind_eq]
  dsimp only [FormulaEvent.begins, FormulaEvent.passes, FormulaEvent.equals, FormulaEvent.leaves,
    FormulaEvent.kind]
  have hformula := h.inFormula_iff
  generalize formulaKeyKind true vk shift = k
  cases k with
  | boundary =>
    exact ⟨fun _ => .inl rfl, fun _ => .inl rfl, by simp [NextFormulaSegmentState], fun _ => rfl⟩
  | navigate =>
    cases hin : st.inFormula with
    | true =>
      rw [hin] at hformula
      exact ⟨fun _ => .inl rfl, fun _ => .inr (by simp [NextFormulaSegmentState, hin]),
        by simpa [NextFormulaSegmentState, hin] using hformula, by simp [NextFormulaSegmentState, hin]⟩
    | false =>
      rw [hin] at hformula
      exact ⟨fun _ => .inl rfl, fun _ => .inl (by simp [NextFormulaSegmentState, hin]),
        by simpa [NextFormulaSegmentState, hin] using hformula, by simp [NextFormulaSegmentState, hin]⟩
  | passive =>
    exact ⟨fun hstart => .inr ⟨h.fresh_of_start hstart, rfl⟩,
      by simpa [NextFormulaSegmentState] using h.of_fresh,
      by simpa [NextFormulaSegmentState] using hformula, h.exclusive⟩
  | equalsStart =>
    cases hstart : st.atSegmentStart with
    | true =>
      have hfresh := h.fresh_of_start hstart
      refine ⟨?_, ?_, ?_, ?_⟩ <;> simp [NextFormulaSegmentState, hstart, hfresh]
    | false =>
      have hfresh : fresh → formula := fun hfresh =>
        hformula.1 ((h.of_fresh hfresh).resolve_left (by simp [hstart]))
      refine ⟨?_, ?_, ?_, ?_⟩ <;> simp [NextFormulaSegmentState, hstart, hformula]
      exact hfresh
  | otherContent =>
    cases hstart : st.atSegmentStart with
    | true =>
      have hnot : ¬formula := by
        rw [← hformula, h.exclusive hstart]
        exact Bool.false_ne_true
      refine ⟨?_, ?_, ?_, ?_⟩ <;> simp [NextFormulaSegmentState, hstart, hnot]
    | false => refine ⟨?_, ?_, ?_, ?_⟩ <;> simp [NextFormulaSegmentState, hstart, hformula]

namespace FormulaTracking

variable {s : FormulaTracking} {on : Bool}

/-- The flag of an injector that has one. -/
def Suppresses (injector : Injector) (on : Bool) : Prop :=
  ∀ inj, injector = .sendInput inj → inj.suppressBait = on

/-- The state, its copy and the flag of the injector after a list of events. -/
structure FormulaInv (s : FormulaTracking) (events : List FormulaEvent) : Prop where
  host_iff : s.hostIsFormulaCapable = true ↔ InSpreadsheet events
  tracks : s.hostIsFormulaCapable = true →
    SegmentTracks s.formulaState (FreshCell events) (InFormula events)
  idle : s.hostIsFormulaCapable = false → s.formulaState = {} ∧ ¬InFormula events
  bait : s.baitSuppressed = s.formulaState.inFormula
  injector : Suppresses s.injector s.baitSuppressed

/-- An injector does what it was told. -/
lemma suppresses_set {injector : Injector} : Suppresses (injector.SetSuppressBait on) on := by
  rintro inj hinj
  cases injector with
  | sendInput inj' =>
    cases hinj
    rfl
  | richEdit forced | clipboard => cases hinj

/-- Another setting does not matter. -/
lemma Suppresses.setSuggestKeepChars {injector : Injector} {enabled : Bool}
    (h : Suppresses injector on) : Suppresses (injector.SetSuggestKeepChars enabled) on := by
  rintro inj hinj
  cases injector with
  | sendInput inj' =>
    cases hinj
    exact h inj' rfl
  | richEdit forced | clipboard => cases hinj

/-- A store is saved only when it would change nothing. -/
lemma suppresses_SetFormulaSegment (h : Suppresses s.injector s.baitSuppressed) :
    (s.SetFormulaSegment on).baitSuppressed = on ∧ Suppresses (s.SetFormulaSegment on).injector on := by
  unfold SetFormulaSegment
  split
  · next hsame => exact ⟨hsame, hsame ▸ h⟩
  · exact ⟨rfl, suppresses_set⟩

/-- To tell the injector does not change the state. -/
@[simp] lemma formulaState_SetFormulaSegment :
    (s.SetFormulaSegment on).formulaState = s.formulaState := by
  unfold SetFormulaSegment
  split <;> rfl

/-- Nor the host. -/
@[simp] lemma host_SetFormulaSegment :
    (s.SetFormulaSegment on).hostIsFormulaCapable = s.hostIsFormulaCapable := by
  unfold SetFormulaSegment
  split <;> rfl

/-- A cell in which nothing has been entered. -/
lemma tracks_fresh {fresh formula : Prop} (hfresh : fresh) (hformula : ¬formula) :
    SegmentTracks {} fresh formula :=
  ⟨fun _ => hfresh, fun _ => .inl rfl, by simp [hformula], fun _ => rfl⟩

/-- A key goes down. -/
lemma FormulaInv.keyDown {vk : Nat} {shift : Bool} (h : s.FormulaInv events) :
    (s.step (.keyDown vk shift)).FormulaInv (events ++ [.keyDown vk shift]) := by
  have hhost : InSpreadsheet (events ++ [.keyDown vk shift]) ↔ InSpreadsheet events := by
    simp [inSpreadsheet_concat, FormulaEvent.toSpreadsheet, FormulaEvent.isFocus]
  simp only [step, UpdateFormulaSegment]
  split
  · next hcapable =>
    have hin := h.host_iff.1 hcapable
    have htracks := (h.tracks hcapable).next vk shift
    generalize NextFormulaSegmentState s.formulaState
      (formulaKeyKind s.formulaState.atSegmentStart vk shift) = st at htracks ⊢
    obtain ⟨hbait, hinjector⟩ :=
      @suppresses_SetFormulaSegment { s with formulaState := st } st.inFormula h.injector
    refine ⟨?_, fun _ => ?_, fun hnot => ?_, ?_, ?_⟩
    · rw [host_SetFormulaSegment, hhost]
      exact h.host_iff
    · rw [formulaState_SetFormulaSegment, freshCell_concat, inFormula_concat]
      simpa only [hin, true_and] using htracks
    · rw [host_SetFormulaSegment] at hnot
      exact absurd (hnot.symm.trans hcapable) Bool.false_ne_true
    · rw [hbait, formulaState_SetFormulaSegment]
    · rw [hbait]
      exact hinjector
  · next hcapable =>
    have hnot : ¬InSpreadsheet events := fun hin => hcapable (h.host_iff.2 hin)
    obtain ⟨hstate, hformula⟩ := h.idle (Bool.eq_false_iff.2 hcapable)
    refine ⟨h.host_iff.trans hhost.symm, fun hcap => absurd hcap hcapable, fun _ => ⟨hstate, ?_⟩,
      h.bait, h.injector⟩
    rw [inFormula_concat]
    rintro (⟨⟨hin, -⟩, -⟩ | ⟨hf, -⟩)
    · exact hnot hin
    · exact hformula hf

/-- A reset leaves the cell. -/
lemma not_inFormula_of_leaves {e : FormulaEvent} (hleaves : e.leaves = true)
    (hequals : e.equals = false) : ¬InFormula (events ++ [e]) := by
  simp [inFormula_concat, hleaves, hequals]

/-- Who leaves a cell comes to a fresh one. -/
lemma freshCell_of_leaves {e : FormulaEvent} (hleaves : e.leaves = true) :
    FreshCell (events ++ [e]) := by
  simp [freshCell_concat, FormulaEvent.begins, hleaves]

/-- What a reset does. -/
lemma ResetComposition_spec (h : s.FormulaInv events) :
    s.ResetComposition.formulaState = {} ∧ s.ResetComposition.baitSuppressed = false ∧
      Suppresses s.ResetComposition.injector false ∧
      s.ResetComposition.hostIsFormulaCapable = s.hostIsFormulaCapable := by
  obtain ⟨hbait, hinjector⟩ :=
    @suppresses_SetFormulaSegment { s with formulaState := {} } false h.injector
  exact ⟨formulaState_SetFormulaSegment, hbait, hinjector, host_SetFormulaSegment⟩

/-- A reset. -/
lemma FormulaInv.reset (h : s.FormulaInv events) : (s.step .reset).FormulaInv (events ++ [.reset]) := by
  obtain ⟨hstate, hbait, hinjector, hhost⟩ := ResetComposition_spec h
  have hnot : ¬InFormula (events ++ [.reset]) := not_inFormula_of_leaves rfl rfl
  refine ⟨?_, fun _ => ?_, fun _ => ⟨hstate, hnot⟩, hbait.trans (hstate ▸ rfl), hbait ▸ hinjector⟩
  · rw [inSpreadsheet_concat]
    simpa [FormulaEvent.toSpreadsheet, FormulaEvent.isFocus, step, hhost] using h.host_iff
  · show SegmentTracks s.ResetComposition.formulaState _ _
    rw [hstate]
    exact tracks_fresh (freshCell_of_leaves rfl) hnot

/-- The focus changes. -/
lemma FormulaInv.focus {c : WindowClassification} {localFormulaHost suggestKeepChars : Bool}
    (h : s.FormulaInv events) : (s.step (.focus c localFormulaHost suggestKeepChars)).FormulaInv
      (events ++ [.focus c localFormulaHost suggestKeepChars]) := by
  obtain ⟨hstate, hbait, -, -⟩ := ResetComposition_spec h
  have hnot : ¬InFormula (events ++ [.focus c localFormulaHost suggestKeepChars]) :=
    not_inFormula_of_leaves rfl rfl
  refine ⟨?_, fun _ => ?_, fun _ => ⟨hstate, hnot⟩, hbait.trans (hstate ▸ rfl), suppresses_set⟩
  · rw [inSpreadsheet_concat]
    simp [FormulaEvent.toSpreadsheet, FormulaEvent.isFocus, step]
  · show SegmentTracks s.ResetComposition.formulaState _ _
    rw [hstate]
    exact tracks_fresh (freshCell_of_leaves rfl) hnot

/-- The settings change. -/
lemma FormulaInv.ApplyConfig {suggestKeepChars : Bool} (h : s.FormulaInv events) :
    (s.step (.ApplyConfig suggestKeepChars)).FormulaInv
      (events ++ [.ApplyConfig suggestKeepChars]) := by
  have hhost : InSpreadsheet (events ++ [.ApplyConfig suggestKeepChars]) ↔ InSpreadsheet events := by
    simp [inSpreadsheet_concat, FormulaEvent.toSpreadsheet, FormulaEvent.isFocus]
  have hfresh : FreshCell (events ++ [.ApplyConfig suggestKeepChars]) ↔ FreshCell events := by
    simp [freshCell_concat, FormulaEvent.begins, FormulaEvent.leaves, FormulaEvent.kind,
      FormulaEvent.passes]
  have hformula : InFormula (events ++ [.ApplyConfig suggestKeepChars]) ↔ InFormula events := by
    simp [inFormula_concat, FormulaEvent.equals, FormulaEvent.leaves, FormulaEvent.kind]
  refine ⟨h.host_iff.trans hhost.symm, fun hcapable => ?_, fun hnot => ?_, h.bait,
    h.injector.setSuggestKeepChars⟩
  · rw [hfresh, hformula]
    exact h.tracks hcapable
  · rw [hformula]
    exact h.idle hnot

/-- The invariant of a run, by induction from its end: one case for each event. -/
lemma formulaInv_run : (formulaRun events).FormulaInv events := by
  induction events using List.reverseRecOn with
  | nil =>
    have hnone : ¬InSpreadsheet [] := not_since_nil
    refine ⟨iff_of_false Bool.false_ne_true hnone, nofun, fun _ => ⟨rfl, not_since_nil⟩, rfl, ?_⟩
    rintro inj hinj
    cases hinj
    rfl
  | append_singleton events e ih =>
    have hrun : formulaRun (events ++ [e]) = (formulaRun events).step e := run_append
    rw [hrun]
    cases e with
    | keyDown vk shift => exact ih.keyDown
    | reset => exact ih.reset
    | focus c localFormulaHost suggestKeepChars => exact ih.focus
    | ApplyConfig suggestKeepChars => exact ih.ApplyConfig

/-- The invariant tells when the bait is suppressed. -/
lemma FormulaInv.bait_iff (h : s.FormulaInv events) : s.baitSuppressed = true ↔ InFormula events := by
  rw [h.bait]
  cases hhost : s.hostIsFormulaCapable with
  | true => exact (h.tracks hhost).inFormula_iff
  | false =>
    obtain ⟨hstate, hnot⟩ := h.idle hhost
    rw [hstate]
    exact iff_of_false Bool.false_ne_true hnot

/-- When the bait is sent. -/
lemma ShouldEmitBait_iff {α : Type*} {needsBaitCharPrefix suggestKeepChars suppressBait : Bool}
    {bsCount : Nat} {text : List α} :
    ShouldEmitBait needsBaitCharPrefix bsCount text suggestKeepChars suppressBait = true ↔
      needsBaitCharPrefix = true ∧ bsCount ≠ 0 ∧ ¬(suggestKeepChars = true ∧ text = []) ∧
        ¬suppressBait = true := by
  unfold ShouldEmitBait
  cases needsBaitCharPrefix with
  | false => simp
  | true => cases suppressBait <;> cases suggestKeepChars <;> simp

/-- The injector in use sends the bait just when its channel needs one, something is deleted, the
setting for suggestions does not keep it back, and the cell does not hold a formula. -/
theorem emitBait_iff {α : Type*} {events : List FormulaEvent} {inj : SendInputInjector}
    (hinj : (formulaRun events).injector = .sendInput inj) (bsCount : Nat) (text : List α) :
    inj.emitBait bsCount text = true ↔
      inj.needsBaitCharPrefix = true ∧ bsCount ≠ 0 ∧ ¬(inj.suggestKeepChars = true ∧ text = []) ∧
        ¬InFormula events := by
  have hinv : (formulaRun events).FormulaInv events := formulaInv_run
  rw [← hinv.bait_iff, ← hinv.injector inj hinj]
  exact ShouldEmitBait_iff

/-- A spreadsheet comes to the front, and "=" is typed. -/
def spreadsheetRun : List FormulaEvent :=
  [.focus { isChromium := true } true false, .keyDown 0xBB false]

/-- A formula in a spreadsheet. -/
theorem emitBait_iff_spreadsheetRun : InFormula spreadsheetRun := by
  have hiff := @emitBait_iff UInt16 spreadsheetRun
    { channel := .win32, needsBaitCharPrefix := true, suggestKeepChars := false, suppressBait := true }
    rfl 1 [0xE1]
  by_contra hnot
  exact Bool.false_ne_true (hiff.2 ⟨rfl, by decide, by simp, hnot⟩)

end FormulaTracking

end NextKey
