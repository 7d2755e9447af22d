import Mathlib.Algebra.Group.Nat.Defs
import NextKey.Tsf.UndoPhases

/-!
# The commit undo restores what was committed

Model of a host that calls `OnTestKeyDown` for every key, and of what its own handling of a key that is
not eaten does to the document. The session behind `TryRestoreLastCommitRaw` replaces a number of
characters without reading them. They are the committed body in every run in which the Backspace that
arms the restore finds nothing selected and comes after no Backspace that was too late
(`restores_body`). A Backspace that is too late leaves the undo ready, and `GetTickCount` wraps around,
so that the next one can be in time again (`stale_restore`).
-/

namespace NextKey

def VK_CONTROL : Nat := 0x11
def VK_MENU : Nat := 0x12
def VK_LWIN : Nat := 0x5B
def VK_RWIN : Nat := 0x5C

/-- A key that the user presses, and what the host has when it comes. -/
structure KeyPress where
  vk : Nat
  shift : Bool := false
  capsLock : Bool := false
  /-- What `VkToChar` finds in the two phases. -/
  char : Char := '\x00'
  downChar : Char := '\x00'
  inputScopeBlocked : Bool := false
  /-- The host has text selected, such as a suggestion after the caret. -/
  selection : Bool := false
  /-- The time in milliseconds since the last key, and from the test phase to the key phase. -/
  elapsed : Nat := 0
  downElapsed : Nat := 0
  /-- The shared state that the two phases find. -/
  shared : Option SharedState := none
  downShared : Option SharedState := none
  /-- The host calls `OnKeyDown` too. -/
  keyDown : Bool := true
  /-- What the host makes of the text before the caret, the composition and the text after it when it
      handles the key itself. -/
  edited : List Char × Option (List Char) × List Char := ([], none, [])

/-- What the user does; the keys that are released may be modifier keys. -/
inductive HostEvent where
  | press (p : KeyPress)
  | release (ctrl alt win : Bool)

/-- The text service in a host, the modifier keys that are down and the time. -/
structure Host where
  service : TextService
  ctrl : Bool := false
  alt : Bool := false
  win : Bool := false
  now : Nat := 0
  /-- Since the last key other than Backspace and Escape, a Backspace has come too late to arm the
      restore. -/
  stale : Bool := false

/-- The key when the key phase comes. -/
def KeyInput.later (k : KeyInput) (char : Char) (tick : BitVec 32) : KeyInput :=
  { k with char := char, tick := tick }

/-- The shared state has become another. -/
def TextService.share (s : TextService) (shared : Option SharedState) : TextService :=
  { s with shared := shared }

section Locale
variable [WideLocale]

namespace Host

/-- A modifier key is down. -/
def modifiers (h : Host) : Bool := h.ctrl || h.alt || h.win

/-- A key goes down. -/
def hold (h : Host) (vk : Nat) : Host :=
  { h with
    ctrl := h.ctrl || vk == VK_CONTROL
    alt := h.alt || vk == VK_MENU
    win := h.win || vk == VK_LWIN || vk == VK_RWIN }

/-- The key as the test phase finds it; the focus stays in one context. -/
def testKey (h : Host) (context : Nat) (p : KeyPress) : KeyInput :=
  { vk := p.vk
    shift := p.shift
    ctrl := (h.hold p.vk).ctrl
    alt := (h.hold p.vk).alt
    win := (h.hold p.vk).win
    capsLock := p.capsLock
    char := p.char
    context := context
    inputScopeBlocked := p.inputScopeBlocked
    selection := p.selection
    tick := BitVec.ofNat 32 (h.now + p.elapsed) }

/-- The key as `OnKeyDown` finds it. -/
def downKey (h : Host) (context : Nat) (p : KeyPress) : KeyInput :=
  (h.testKey context p).later p.downChar (BitVec.ofNat 32 (h.now + p.elapsed + p.downElapsed))

/-- The service when the test phase begins. -/
def testService (h : Host) (p : KeyPress) : TextService := h.service.share p.shared

/-- The service when `OnKeyDown` begins. -/
def downService (h : Host) (context : Nat) (p : KeyPress) : TextService :=
  ((h.testService p).OnTestKeyDown (h.testKey context p)).1.share p.downShared

/-- The callbacks of a key, and whether it is eaten. -/
def callbacks (h : Host) (context : Nat) (p : KeyPress) : TextService × Bool :=
  if p.keyDown then (h.downService context p).OnKeyDown (h.downKey context p)
  else (h.testService p).OnTestKeyDown (h.testKey context p)

/-- The host handles a key: Escape leaves the document as it is, Backspace deletes the selection or the
    character before the caret, and other keys do what they like. -/
def handle (s : TextService) (p : KeyPress) (modifiers : Bool) : TextService :=
  if p.vk = VK_ESCAPE then s
  else if p.vk = VK_BACK ∧ ¬modifiers ∧ s.composition = none then
    if p.selection then s else { s with before := s.before.dropLast }
  else { s with before := p.edited.1, composition := p.edited.2.1, after := p.edited.2.2 }

/-- A Backspace comes too late to arm the restore. -/
def late (h : Host) (context : Nat) (p : KeyPress) : Bool :=
  p.vk == VK_BACK && decide (h.service.commitUndoState = .ready) &&
    !h.service.WithinUndoWindow (h.testKey context p)

/-- One event. -/
def step (context : Nat) (h : Host) : HostEvent → Host
  | .press p =>
    { h.hold p.vk with
      service :=
        if (h.callbacks context p).2 then (h.callbacks context p).1
        else handle (h.callbacks context p).1 p (h.hold p.vk).modifiers
      now := h.now + p.elapsed + p.downElapsed
      stale := h.late context p || h.stale && (p.vk == VK_BACK || p.vk == VK_ESCAPE) }
  | .release ctrl alt win =>
    { h with ctrl := h.ctrl && ctrl, alt := h.alt && alt, win := h.win && win }

/-- A Backspace that is in time to arm the restore finds nothing selected, and no Backspace before it
    was too late. -/
def InTurn (context : Nat) (h : Host) : HostEvent → Prop
  | .press p =>
    p.vk = VK_BACK → h.service.commitUndoState = .ready →
      h.service.WithinUndoWindow (h.testKey context p) = true → p.selection = false ∧ h.stale = false
  | .release .. => True

/-- The states in which the callbacks of a key call `TryRestoreLastCommitRaw`. -/
def restoreCalls (context : Nat) (h : Host) : HostEvent → List TextService
  | .press p =>
    ((h.testService p).testRestoreCall (h.testKey context p)).toList ++
      if p.keyDown then ((h.downService context p).keyRestoreCall (h.downKey context p)).toList else []
  | .release .. => []

end Host

namespace TextService

/-- The committed text stands before the caret, without its trailing character once the undo is
    armed. -/
def Waits (s : TextService) : Prop :=
  s.commitUndoState = .ready ∧ s.AtCommit s.lastCommit.text ∨
    s.commitUndoState = .primed ∧ s.AtCommit s.lastCommit.text.dropLast

/-- What holds of the undo between two events. -/
inductive UndoSound (context : Nat) (stale modifiers : Bool) (s : TextService) : Prop where
  | idle (state : s.commitUndoState = .idle)
  | void (lastContext : s.lastContext = some context) (state : s.commitUndoState = .ready)
      (why : s.contextBlocked = true ∨ stale = true)
  | waits (lastContext : s.lastContext = some context) (opened : s.contextBlocked = false)
      (up : modifiers = false) (waits : s.Waits)

/-- What holds of the undo after the test phase of a key. -/
inductive Tested (context : Nat) (stale : Bool) (k : KeyInput) (r : TextService × Bool) : Prop where
  | idle (lastContext : r.1.lastContext = some context) (state : r.1.commitUndoState = .idle)
      (prepared : r.1.contextBlocked = false → k.modifiers = false → r.1.Prepared k)
  | void (lastContext : r.1.lastContext = some context) (state : r.1.commitUndoState = .ready)
      (why : r.1.contextBlocked = true ∨ stale = true)
  | escape (lastContext : r.1.lastContext = some context) (opened : r.1.contextBlocked = false)
      (up : k.modifiers = false) (vk : k.vk = VK_ESCAPE) (eaten : r.2 = false) (left : r.1.Left k)
      (waits : r.1.Waits)
  | armed (lastContext : r.1.lastContext = some context) (opened : r.1.contextBlocked = false)
      (up : k.modifiers = false) (vk : k.vk = VK_BACK) (selection : k.selection = false)
      (eaten : r.2 = false) (left : r.1.Left k) (state : r.1.commitUndoState = .primed)
      (atCommit : r.1.AtCommit r.1.lastCommit.text)

variable {s s' : TextService} {k : KeyInput} {context : Nat} {stale : Bool}

/-- The undo waits as before. -/
lemma Waits.of_same (h : s.Waits) (hstate : s'.commitUndoState = s.commitUndoState)
    (hcommit : s'.lastCommit = s.lastCommit) (hat : ∀ {text}, s.AtCommit text → s'.AtCommit text) :
    s'.Waits := by
  obtain ⟨hready, h⟩ | ⟨hprimed, h⟩ := h
  · exact .inl ⟨hstate.trans hready, by rw [hcommit]; exact hat h⟩
  · exact .inr ⟨hstate.trans hprimed, by rw [hcommit]; exact hat h⟩

/-- While it waits, the caret is behind a commit. -/
lemma Waits.atCommit (h : s.Waits) : ∃ text, s.AtCommit text := by
  obtain ⟨-, h⟩ | ⟨-, h⟩ := h
  · exact ⟨_, h⟩
  · exact ⟨_, h⟩

/-- An undo that is given up in the test phase. -/
lemma Tested.of_idle (hcontext : k.context = context)
    (hkept : UndoKept (s.testContext k) (s.OnTestKeyDown k).1)
    (hidle : (s.OnTestKeyDown k).1.commitUndoState = .idle) :
    Tested context stale k (s.OnTestKeyDown k) := by
  refine .idle ?_ hidle fun hopen hmods => OnTestKeyDown_prepared ?_ hmods
  · rw [hkept.lastContext, testContext_lastContext, hcontext]
  · rw [← hkept.contextBlocked, hopen]

/-- An undo that was ready is given up or stays ready. -/
lemma Tested.of_kept (hcontext : k.context = context)
    (hkept : UndoKept (s.testContext k) (s.OnTestKeyDown k).1)
    (hready : s.commitUndoState = .ready)
    (why : (s.testContext k).contextBlocked = true ∨ stale = true) :
    Tested context stale k (s.OnTestKeyDown k) := by
  obtain hidle | ⟨hstate, -⟩ := hkept.undo
  · exact .of_idle hcontext hkept hidle
  · refine .void ?_ ?_ ?_
    · rw [hkept.lastContext, testContext_lastContext, hcontext]
    · rw [hstate, testContext_undo.1, hready]
    · rwa [hkept.contextBlocked]

/-- While an undo waits, the test phase of Escape calls `TryRestoreLastCommitRaw` or leaves the key to
    the host. -/
lemma Waits.test_escape (h : s.Waits) (hcontext : k.context = context)
    (hopen : (s.testContext k).contextBlocked = false) (hmods : k.modifiers = false)
    (hesc : k.vk = VK_ESCAPE) : Tested context stale k (s.OnTestKeyDown k) := by
  have hback : k.vk ≠ VK_BACK := by
    rw [hesc]
    decide
  have hkept : UndoKept (s.testContext k) (s.OnTestKeyDown k).1 :=
    OnTestKeyDown_undoKept fun harms => hback harms.1
  cases hcall : s.testRestoreCall k with
  | none =>
    obtain ⟨text, hat⟩ := h.atCommit
    have htest : s.OnTestKeyDown k =
        (((s.testContext k).WantKey k).1.cacheResult k false, false) := by
      rw [OnTestKeyDown_atCommit hat (.inr hesc) hopen hmods hcall]
      exact testTyping_escape (testContext_atCommit hat) hesc
    have hundo := @WantKey_undo _ (s.testContext k) k
    simp only [TextService.undo, Prod.mk.injEq] at hundo
    refine .escape ?_ ?_ hmods hesc ?_ ?_ ?_
    · rw [hkept.lastContext, testContext_lastContext, hcontext]
    · rw [hkept.contextBlocked, hopen]
    · rw [htest]
    · rw [htest]
      exact ⟨rfl, rfl⟩
    · rw [htest]
      refine h.of_same (hundo.1.trans testContext_undo.1) (hundo.2.1.trans testContext_undo.2) ?_
      intro text hat
      exact (WantKey_atCommit (testContext_atCommit hat)).of_eq (.inl rfl) rfl rfl rfl
  | some s₀ =>
    refine .of_idle hcontext hkept ?_
    have hprimed : s₀.commitUndoState = .primed := by
      unfold testRestoreCall at hcall
      split_ifs at hcall with _ _ _ hcalls
      cases hcall
      exact (callsRestore_eq.1 hcalls).2.2.2.1
    have hidle := TryRestoreLastCommitRaw_idle (k := k) hprimed
    rw [OnTestKeyDown_restores hcall]
    split
    · exact hidle
    · exact (testTyping_undoKept fun harms => hback harms.1).idle hidle

/-- A Backspace in time arms the restore and is left to the host. -/
lemma AtCommit.test_armed (h : s.AtCommit s.lastCommit.text) (hcontext : k.context = context)
    (hopen : (s.testContext k).contextBlocked = false) (hmods : k.modifiers = false)
    (hback : k.vk = VK_BACK) (hready : s.commitUndoState = .ready)
    (hwindow : s.WithinUndoWindow k = true) (hselection : k.selection = false) :
    Tested context stale k (s.OnTestKeyDown k) := by
  have hat := testContext_atCommit (k := k) h
  have hcall : s.testRestoreCall k = none := by
    have hcalls : (s.testHead k).callsRestore k = false := by
      simp [callsRestore, hback, VK_BACK, VK_ESCAPE]
    simp [testRestoreCall, hcalls]
  have hundo := @WantKey_undo _ (s.testContext k) k
  simp only [TextService.undo, Prod.mk.injEq] at hundo
  obtain ⟨hstate, hcommit, hwanted, hblocked⟩ := hundo
  have hwait : ((s.testContext k).WantKey k).1.AtCommit s.lastCommit.text := WantKey_atCommit hat
  have hcommit' : ((s.testContext k).WantKey k).1.lastCommit = s.lastCommit :=
    hcommit.trans testContext_undo.2
  have harms : ((s.testContext k).WantKey k).1.armsRestore k := by
    refine ⟨hback, hwait.buffer, (hstate.trans testContext_undo.1).trans hready, ?_⟩
    rw [WithinUndoWindow, hstate, hcommit', testContext_undo.1]
    exact hwindow
  rw [OnTestKeyDown_atCommit h (.inl hback) hopen hmods hcall, testTyping_atCommit hat (.inl hback),
    testWanted_armed harms]
  refine .armed ?_ ?_ hmods hback hselection rfl ⟨rfl, rfl⟩ rfl ?_
  · exact hwanted.trans (testContext_lastContext.trans (by rw [hcontext]))
  · exact hblocked.trans hopen
  · have hwait' : ((s.testContext k).WantKey k).1.AtCommit
        ((s.testContext k).WantKey k).1.lastCommit.text := by
      rw [hcommit']
      exact hwait
    exact ⟨hwait'.buffer, hwait'.composition, hwait'.trailing, hwait'.before⟩

/-- A second Backspace gives the undo up. -/
lemma AtCommit.test_second {text} (h : s.AtCommit text) (hcontext : k.context = context)
    (hopen : (s.testContext k).contextBlocked = false) (hmods : k.modifiers = false)
    (hback : k.vk = VK_BACK) (hprimed : s.commitUndoState = .primed) :
    Tested context stale k (s.OnTestKeyDown k) := by
  have hat := testContext_atCommit (k := k) h
  have hkept : UndoKept (s.testContext k) (s.OnTestKeyDown k).1 := by
    refine OnTestKeyDown_undoKept fun harms => ?_
    rw [hprimed] at harms
    exact absurd harms.2.1 (by decide)
  have hcall : s.testRestoreCall k = none := by
    have hcalls : (s.testHead k).callsRestore k = false := by
      simp [callsRestore, hback, VK_BACK, VK_ESCAPE]
    simp [testRestoreCall, hcalls]
  have hundo := @WantKey_undo _ (s.testContext k) k
  simp only [TextService.undo, Prod.mk.injEq] at hundo
  refine .of_idle hcontext hkept ?_
  rw [OnTestKeyDown_atCommit h (.inl hback) hopen hmods hcall, testTyping_atCommit hat (.inl hback)]
  refine testWanted_primed hback (WantKey_atCommit hat).buffer ?_
  rw [hundo.1, testContext_undo.1, hprimed]

/-- The test phase keeps the undo sound, if a Backspace comes in turn. -/
lemma UndoSound.test {stale stale' modifiers : Bool} (h : UndoSound context stale modifiers s)
    (hcontext : k.context = context)
    (hmods : k.vk = VK_BACK ∨ k.vk = VK_ESCAPE → k.modifiers = modifiers)
    (hturn : k.vk = VK_BACK → s.commitUndoState = .ready → s.WithinUndoWindow k = true →
      k.selection = false ∧ stale = false)
    (hstale : (k.vk = VK_BACK ∧ s.commitUndoState = .ready ∧ s.WithinUndoWindow k = false ∨
      stale = true ∧ (k.vk = VK_BACK ∨ k.vk = VK_ESCAPE)) → stale' = true) :
    Tested context stale' k (s.OnTestKeyDown k) := by
  cases h with
  | idle hidle =>
    have hkept : UndoKept (s.testContext k) (s.OnTestKeyDown k).1 := by
      refine OnTestKeyDown_undoKept fun harms => ?_
      rw [hidle] at harms
      exact absurd harms.2.1 (by decide)
    exact .of_idle hcontext hkept (hkept.idle (testContext_undo.1.trans hidle))
  | void hlast hready why =>
    have hblocked : (s.testContext k).contextBlocked = s.contextBlocked :=
      testContext_contextBlocked (by rw [hlast, hcontext])
    cases hb : s.contextBlocked with
    | true =>
      have htest : s.OnTestKeyDown k = (s.testContext k, false) := by
        rw [OnTestKeyDown_eq, if_pos (hblocked.trans hb)]
      refine .of_kept hcontext ?_ hready (.inl (hblocked.trans hb))
      rw [htest]
      exact .of_undo rfl
    | false =>
      have hold : stale = true := why.resolve_left (by simp [hb])
      by_cases hkey : k.vk = VK_BACK ∨ k.vk = VK_ESCAPE
      · refine .of_kept hcontext (OnTestKeyDown_undoKept ?_) hready (.inr (hstale (.inr ⟨hold, hkey⟩)))
        rintro ⟨hback, -, hwindow⟩
        have hfresh := (hturn hback hready hwindow).2
        rw [hold] at hfresh
        cases hfresh
      · have hother : k.vk ≠ VK_BACK ∧ k.vk ≠ VK_ESCAPE := not_or.1 hkey
        exact .of_idle hcontext (OnTestKeyDown_undoKept fun harms => hother.1 harms.1)
          (OnTestKeyDown_idle (hblocked.trans hb) hother)
  | waits hlast hopen hup hwaits =>
    have hopen' : (s.testContext k).contextBlocked = false :=
      (testContext_contextBlocked (by rw [hlast, hcontext])).trans hopen
    by_cases hback : k.vk = VK_BACK
    · have hk : k.modifiers = false := (hmods (.inl hback)).trans hup
      obtain ⟨hready, hat⟩ | ⟨hprimed, hat⟩ := hwaits
      · cases hwindow : s.WithinUndoWindow k with
        | true =>
          exact hat.test_armed hcontext hopen' hk hback hready hwindow (hturn hback hready hwindow).1
        | false =>
          refine .of_kept hcontext (OnTestKeyDown_undoKept ?_) hready
            (.inr (hstale (.inl ⟨hback, hready, hwindow⟩)))
          rintro ⟨-, -, hintime⟩
          rw [hwindow] at hintime
          cases hintime
      · exact hat.test_second hcontext hopen' hk hback hprimed
    · by_cases hesc : k.vk = VK_ESCAPE
      · exact hwaits.test_escape hcontext hopen' ((hmods (.inr hesc)).trans hup) hesc
      · exact .of_idle hcontext (OnTestKeyDown_undoKept fun harms => hback harms.1)
          (OnTestKeyDown_idle hopen' ⟨hback, hesc⟩)

/-- What holds of the undo after the callbacks of a key. -/
inductive Pressed (context : Nat) (stale : Bool) (k : KeyInput) (r : TextService × Bool) : Prop where
  | idle (state : r.1.commitUndoState = .idle)
  | void (lastContext : r.1.lastContext = some context) (state : r.1.commitUndoState = .ready)
      (why : r.1.contextBlocked = true ∨ stale = true)
  | waits (lastContext : r.1.lastContext = some context) (opened : r.1.contextBlocked = false)
      (up : k.modifiers = false) (waits : r.1.Waits) (kept : r.2 = true ∨ k.vk = VK_ESCAPE)
  | armed (lastContext : r.1.lastContext = some context) (opened : r.1.contextBlocked = false)
      (up : k.modifiers = false) (vk : k.vk = VK_BACK) (selection : k.selection = false)
      (eaten : r.2 = false) (state : r.1.commitUndoState = .primed)
      (atCommit : r.1.AtCommit r.1.lastCommit.text)

/-- A host that does not call `OnKeyDown`. -/
lemma Tested.pressed {r} (h : Tested context stale k r) : Pressed context stale k r := by
  cases h with
  | idle _ hidle _ => exact .idle hidle
  | void hlast hready why => exact .void hlast hready why
  | escape hlast hopen hup hesc _ _ hwaits => exact .waits hlast hopen hup hwaits (.inr hesc)
  | armed hlast hopen hup hback hselection heaten _ hprimed hat =>
    exact .armed hlast hopen hup hback hselection heaten hprimed hat

/-- Where `OnKeyDown` begins a commit undo. -/
lemma Begins.pressed {r} (h : s.Begins k r) (hlast : s.lastContext = some context)
    (hmods : k.modifiers = false) (hprepared : s.contextBlocked = false → s.Prepared k) :
    Pressed context stale k r := by
  have hlast' : r.1.lastContext = some context := h.lastContext.trans hlast
  cases hb : s.contextBlocked with
  | true =>
    cases hstate : r.1.commitUndoState with
    | idle => exact .idle hstate
    | ready => exact .void hlast' hstate (.inl (h.contextBlocked.trans hb))
    | primed => exact absurd hstate h.not_primed
  | false =>
    obtain hidle | hready := h.atCommit (hprepared hb)
    · exact .idle hidle
    · exact .waits hlast' (h.contextBlocked.trans hb) hmods (.inl hready) (.inl h.eaten)

/-- The restore in the key phase is tried once. -/
lemma keyRestoreCall_pressed {s₀ : TextService} (hcall : s.keyRestoreCall k = some s₀)
    (hlast : s.lastContext = some context) : Pressed context stale k (s.OnKeyDown k) := by
  have hrestores := OnKeyDown_restores hcall
  unfold keyRestoreCall at hcall
  split_ifs at hcall with hmods _ hcalls
  cases hcall
  obtain ⟨hesc, -, hbuf, hprimed, -⟩ := callsRestore_eq.1 hcalls
  have hidle := TryRestoreLastCommitRaw_idle (k := k) hprimed
  have hkept := CheckConfigEvent_undoKept.trans
    (@TryRestoreLastCommitRaw_undoKept s.CheckConfigEvent k)
  have hengine := @TryRestoreLastCommitRaw_engine s.CheckConfigEvent k
  rw [hrestores]
  generalize s.CheckConfigEvent.TryRestoreLastCommitRaw k = restored at hidle hkept hengine
  obtain ⟨s₁, done⟩ := restored
  dsimp only at hidle hkept hengine ⊢
  split
  · exact .idle hidle
  · obtain hkept' | hbegins := @keyTyping_begins _ s₁ k
    · exact .idle (hkept'.idle hidle)
    · refine hbegins.pressed (hkept.lastContext.trans hlast) (by simpa using hmods) fun _ => ⟨?_, ?_⟩
      · intro hbuf'
        rw [HasEngineBuffer, hengine, ← HasEngineBuffer, hbuf] at hbuf'
        cases hbuf'
      · intro hspace
        rw [hesc] at hspace
        exact absurd hspace (by decide)

/-- A publication does not move the caret. -/
lemma AtCommit.share {text shared} (h : s.AtCommit text) : (s.share shared).AtCommit text :=
  ⟨h.buffer, h.composition, h.trailing, h.before⟩

/-- Nor does it end the waiting. -/
lemma Waits.share {shared} (h : s.Waits) : (s.share shared).Waits := h.of_same rfl rfl .share

/-- While an undo waits, the key phase of Escape does what the test phase does. -/
lemma Waits.keyDown (h : s.Waits) (hlast : s.lastContext = some context)
    (hopen : s.contextBlocked = false) (hmods : k.modifiers = false) (hesc : k.vk = VK_ESCAPE)
    (hleft : s.Left k) : Pressed context stale k (s.OnKeyDown k) := by
  obtain ⟨text, hat⟩ := h.atCommit
  cases hcall : s.keyRestoreCall k with
  | none =>
    obtain ⟨-, hundo, -⟩ := OnKeyDown_left hat hleft hcall
    simp only [TextService.undo, Prod.mk.injEq] at hundo
    obtain ⟨hstate, hcommit, hcontext, hblocked⟩ := hundo
    refine .waits (hcontext.trans hlast) (hblocked.trans hopen) hmods ?_ (.inr hesc)
    exact h.of_same hstate hcommit fun hat => (OnKeyDown_left hat hleft hcall).2.2
  | some s₀ => exact keyRestoreCall_pressed hcall hlast

/-- The key phase keeps the undo sound, whatever the shared state has become. -/
lemma Tested.keyDown {r shared char tick} (h : Tested context stale k r) :
    Pressed context stale (k.later char tick) ((r.1.share shared).OnKeyDown (k.later char tick)) := by
  have hleft : r.1.Left k → (r.1.share shared).Left (k.later char tick) := fun h => ⟨h.vk, h.want⟩
  cases h with
  | idle hlast hidle hprep =>
    obtain hkept | ⟨hup, hbegins⟩ := @OnKeyDown_begins _ (r.1.share shared) (k.later char tick)
    · exact .idle (hkept.idle hidle)
    · refine hbegins.pressed hlast hup fun hopen => ?_
      obtain ⟨hattached, hspace⟩ := hprep hopen hup
      exact ⟨hattached, hspace⟩
  | void hlast hready why =>
    obtain hkept | ⟨hup, hbegins⟩ := @OnKeyDown_begins _ (r.1.share shared) (k.later char tick)
    · obtain hidle | ⟨hsame, -⟩ := hkept.undo
      · exact .idle hidle
      · refine .void (hkept.lastContext.trans hlast) (hsame.trans hready) ?_
        rw [hkept.contextBlocked]
        exact why
    · cases hnow : ((r.1.share shared).OnKeyDown (k.later char tick)).1.commitUndoState with
      | idle => exact .idle hnow
      | ready =>
        refine .void (hbegins.lastContext.trans hlast) hnow ?_
        rw [hbegins.contextBlocked]
        exact why
      | primed => exact absurd hnow hbegins.not_primed
  | escape hlast hopen hup hesc heaten hl hwaits =>
    exact hwaits.share.keyDown hlast hopen hup hesc (hleft hl)
  | armed hlast hopen hup hback hselection heaten hl hprimed hwait =>
    have hcall : (r.1.share shared).keyRestoreCall (k.later char tick) = none := by
      have hcalls : (r.1.share shared).CheckConfigEvent.callsRestore (k.later char tick) = false := by
        simp [callsRestore, KeyInput.later, hback, VK_BACK, VK_ESCAPE]
      simp [TextService.keyRestoreCall, hcalls]
    obtain ⟨huneaten, hundo, hwait'⟩ := OnKeyDown_left hwait.share (hleft hl) hcall
    simp only [TextService.undo, Prod.mk.injEq] at hundo
    obtain ⟨hstate, hcommit, hcontext, hblocked⟩ := hundo
    refine .armed (hcontext.trans hlast) (hblocked.trans hopen) hup hback hselection huneaten
      (hstate.trans hprimed) ?_
    rw [hcommit]
    exact hwait'

/-- The characters before the caret are the committed body. -/
def FindsBody (s : TextService) : Prop := s.lastCommit.body <:+ s.caretText

/-- Behind a commit its text is found. -/
lemma AtCommit.findsBody (h : s.AtCommit s.lastCommit.text.dropLast) : s.FindsBody := by
  have hcaret : s.caretText = s.before := by simp [caretText, h.composition]
  have hbody : s.lastCommit.body = s.lastCommit.text.dropLast := by simp [LastCommit.body, h.trailing]
  rw [FindsBody, hcaret, hbody]
  exact h.before

/-- So it is while a primed undo waits. -/
lemma Waits.findsBody (h : s.Waits) (hprimed : s.commitUndoState = .primed) : s.FindsBody := by
  obtain ⟨hready, -⟩ | ⟨-, hat⟩ := h
  · rw [hprimed] at hready
    cases hready
  · exact hat.findsBody

/-- A restoring that the test calls for finds its text. -/
lemma UndoSound.testRestoreCall {modifiers s₀} (h : UndoSound context stale modifiers s)
    (hcall : s.testRestoreCall k = some s₀) : s₀.FindsBody := by
  unfold TextService.testRestoreCall at hcall
  split_ifs at hcall with _ _ _ hcalls
  cases hcall
  obtain ⟨hesc, -, -, hprimed, -⟩ := callsRestore_eq.1 hcalls
  have hkept : UndoKept (s.testContext k) (s.testHead k) := testHead_undoKept
  have hstart : s.commitUndoState = .primed := by
    by_contra hnot
    exact hkept.not_primed (by rwa [testContext_undo.1]) hprimed
  cases h with
  | idle hidle =>
    rw [hidle] at hstart
    cases hstart
  | void _ hready _ =>
    rw [hready] at hstart
    cases hstart
  | waits _ _ _ hwaits =>
    obtain ⟨text, hat⟩ := hwaits.atCommit
    rw [testHead_atCommit hat (.inr hesc)]
    have hcontext : (s.testContext k).Waits :=
      hwaits.of_same testContext_undo.1 testContext_undo.2 testContext_atCommit
    exact hcontext.findsBody (testContext_undo.1.trans hstart)

/-- So does one that the key calls for. -/
lemma Tested.keyRestoreCall {r shared char tick s₀} (h : Tested context stale k r)
    (hcall : (r.1.share shared).keyRestoreCall (k.later char tick) = some s₀) : s₀.FindsBody := by
  unfold TextService.keyRestoreCall at hcall
  split_ifs at hcall with _ _ hcalls
  cases hcall
  obtain ⟨hesc, -, -, hprimed, -⟩ := callsRestore_eq.1 hcalls
  have hundo := @CheckConfigEvent_undo (r.1.share shared)
  simp only [TextService.undo, Prod.mk.injEq] at hundo
  have hstart : r.1.commitUndoState = .primed := hundo.1.symm.trans hprimed
  cases h with
  | idle _ hidle _ =>
    rw [hidle] at hstart
    cases hstart
  | void _ hready _ =>
    rw [hready] at hstart
    cases hstart
  | escape _ _ _ _ _ _ hwaits =>
    exact (hwaits.share.of_same hundo.1 hundo.2.1 CheckConfigEvent_atCommit).findsBody hprimed
  | armed _ _ _ hback _ _ _ _ _ =>
    have hclash : VK_BACK = VK_ESCAPE := hback.symm.trans hesc
    exact absurd hclash (by decide)

end TextService

namespace Host
open TextService

variable {context : Nat} {h : Host} {p : KeyPress}

/-- The invariant of a run. -/
def Sound (context : Nat) (h : Host) : Prop := UndoSound context h.stale h.modifiers h.service

omit [WideLocale] in
/-- Backspace and Esc are no modifiers. -/
lemma hold_modifiers (hkey : p.vk = VK_BACK ∨ p.vk = VK_ESCAPE) :
    (h.hold p.vk).modifiers = h.modifiers := by
  obtain hback | hesc := hkey
  · simp [hold, modifiers, hback, VK_BACK, VK_CONTROL, VK_MENU, VK_LWIN, VK_RWIN]
  · simp [hold, modifiers, hesc, VK_ESCAPE, VK_CONTROL, VK_MENU, VK_LWIN, VK_RWIN]

/-- The test of a key is sound. -/
lemma Sound.testService (hs : h.Sound context) :
    UndoSound context h.stale h.modifiers (h.testService p) := by
  cases hs with
  | idle hidle => exact .idle hidle
  | void hlast hready why => exact .void hlast hready why
  | waits hlast hopen hup hwaits => exact .waits hlast hopen hup hwaits.share

/-- A key that was tested is in its turn. -/
lemma Sound.tested (hs : h.Sound context) (turn : h.InTurn context (.press p)) :
    Tested context (h.step context (.press p)).stale (h.testKey context p)
      ((h.testService p).OnTestKeyDown (h.testKey context p)) := by
  refine hs.testService.test rfl (fun hkey => hold_modifiers hkey) turn ?_
  rintro (⟨hback, hready, hwindow⟩ | ⟨hold, hkey⟩)
  · have hlate : h.late context p = true := by
      have hwindow' : h.service.WithinUndoWindow (h.testKey context p) = false := hwindow
      have hready' : h.service.commitUndoState = .ready := hready
      have hback' : p.vk = VK_BACK := hback
      simp [late, hback', hready', hwindow']
    simp [step, hlate]
  · have hkey' : p.vk = VK_BACK ∨ p.vk = VK_ESCAPE := hkey
    simp [step, hold, hkey']

omit [WideLocale] in
/-- A text without its last character, behind the caret moved back. -/
lemma dropLast_suffix {text before : List Char} (h : text <:+ before) :
    text.dropLast <:+ before.dropLast := by
  obtain ⟨front, rfl⟩ := h
  by_cases hempty : text = []
  · rw [hempty]
    exact List.nil_suffix
  · rw [List.dropLast_append_of_ne_nil hempty]
    exact List.suffix_append front text.dropLast

/-- The callbacks of a key keep the undo sound, with what the host does to the document after them. -/
lemma Sound.press (hs : h.Sound context) (turn : h.InTurn context (.press p)) :
    (h.step context (.press p)).Sound context := by
  have htested := hs.tested turn
  have hpressed : ∃ k : KeyInput, k.vk = p.vk ∧ k.modifiers = (h.hold p.vk).modifiers ∧
      k.selection = p.selection ∧
      Pressed context (h.step context (.press p)).stale k (h.callbacks context p) := by
    unfold callbacks
    split
    · exact ⟨h.downKey context p, rfl, rfl, rfl, htested.keyDown⟩
    · exact ⟨h.testKey context p, rfl, rfl, rfl, htested.pressed⟩
  obtain ⟨k, hvk, hmods, hselection, hpressed⟩ := hpressed
  show UndoSound context (h.step context (.press p)).stale (h.hold p.vk).modifiers
    (if (h.callbacks context p).2 then (h.callbacks context p).1
      else handle (h.callbacks context p).1 p (h.hold p.vk).modifiers)
  generalize h.callbacks context p = r at hpressed ⊢
  generalize (h.step context (.press p)).stale = stale at hpressed ⊢
  rw [← hmods]
  have hfields : (handle r.1 p k.modifiers).commitUndoState = r.1.commitUndoState ∧
      (handle r.1 p k.modifiers).lastCommit = r.1.lastCommit ∧
      (handle r.1 p k.modifiers).lastContext = r.1.lastContext ∧
      (handle r.1 p k.modifiers).contextBlocked = r.1.contextBlocked := by
    unfold handle
    split
    · exact ⟨rfl, rfl, rfl, rfl⟩
    · split
      · split <;> exact ⟨rfl, rfl, rfl, rfl⟩
      · exact ⟨rfl, rfl, rfl, rfl⟩
  obtain ⟨hstate, hcommit, hlast', hblocked⟩ := hfields
  cases hpressed with
  | idle hidle =>
    split
    · exact .idle hidle
    · exact .idle (hstate.trans hidle)
  | void hlast hready why =>
    split
    · exact .void hlast hready why
    · exact .void (hlast'.trans hlast) (hstate.trans hready) (by rwa [hblocked])
  | waits hlast hopen hup hwaits kept =>
    split
    · exact .waits hlast hopen hup hwaits
    · next huneaten =>
      have hesc : p.vk = VK_ESCAPE := hvk.symm.trans (kept.resolve_left huneaten)
      have hleft : handle r.1 p k.modifiers = r.1 := if_pos hesc
      rw [hleft]
      exact .waits hlast hopen hup hwaits
  | armed hlast hopen hup hback hsel heaten hprimed hat =>
    rw [if_neg (by simp [heaten])]
    have hback' : p.vk = VK_BACK := hvk.symm.trans hback
    have hdeleted : handle r.1 p k.modifiers = { r.1 with before := r.1.before.dropLast } := by
      unfold handle
      rw [if_neg (by rw [hback']; decide), if_pos ⟨hback', by simp [hup], hat.composition⟩,
        if_neg (by rw [← hselection, hsel]; decide)]
    rw [hdeleted]
    refine .waits hlast hopen hup (.inr ⟨hprimed, hat.buffer, hat.composition, hat.trailing, ?_⟩)
    exact dropLast_suffix hat.before

/-- One event keeps the undo sound. -/
lemma Sound.step {e} (hs : h.Sound context) (turn : h.InTurn context e) :
    (h.step context e).Sound context := by
  cases e with
  | press p => exact hs.press turn
  | release ctrl alt win =>
    cases hs with
    | idle hidle => exact .idle hidle
    | void hlast hready why => exact .void hlast hready why
    | waits hlast hopen hup hwaits =>
      refine .waits hlast hopen ?_ hwaits
      simp only [modifiers, Bool.or_eq_false_iff] at hup
      obtain ⟨⟨hctrl, halt⟩, hwin⟩ := hup
      simp [Host.step, modifiers, hctrl, halt, hwin]

/-- Every restoring of an event finds its text. -/
lemma Sound.restoreCalls {e s₀} (hs : h.Sound context) (turn : h.InTurn context e)
    (hcall : s₀ ∈ h.restoreCalls context e) : s₀.FindsBody := by
  cases e with
  | press p =>
    obtain htest | hdown := List.mem_append.1 hcall
    · have hservice : UndoSound context h.stale h.modifiers (h.testService p) := hs.testService
      exact hservice.testRestoreCall (Option.mem_toList.1 htest)
    · split at hdown
      · exact (hs.tested turn).keyRestoreCall (Option.mem_toList.1 hdown)
      · cases hdown
  | release ctrl alt win => cases hcall

end Host

open Host TextService in
/-- In every run in which the Backspaces come in turn, from any state without a commit undo, the
    characters before the caret are the committed body whenever `TryRestoreLastCommitRaw` is called. -/
theorem restores_body {context : Nat} {h : Host} (idle : h.service.commitUndoState = .idle)
    {events : List HostEvent}
    (turn : Machine.Guarded (Host.step context) (Host.InTurn context) h events)
    {es e} (hes : es ++ [e] <+: events) {s₀}
    (hcall : s₀ ∈ (Machine.run (Host.step context) h es).restoreCalls context e) :
    s₀.FindsBody := by
  obtain ⟨rest, rfl⟩ := hes
  have hguarded : Machine.Guarded (Host.step context) (Host.InTurn context) h (es ++ [e]) := turn.left
  obtain ⟨hrun, hlast, -⟩ := Machine.guarded_append.1 hguarded
  have hsound : (Machine.run (Host.step context) h es).Sound context :=
    hrun.invariant (.idle idle) fun hs turn => hs.step turn
  exact hsound.restoreCalls hlast hcall

instance {context h e} : Decidable (Host.InTurn context h e) :=
  match e with
  | .press _ => inferInstanceAs (Decidable (_ → _ → _ → _ ∧ _))
  | .release .. => inferInstanceAs (Decidable True)

instance {s : TextService} : Decidable s.FindsBody := inferInstanceAs (Decidable (_ <:+ _))

/-- The shared state with the restore switched on. -/
def undoDefaults : SharedState
  | .featureFlags 0 => 0x25
  | f => tsfDefaults f

/-- A key, some milliseconds after the last. -/
def undoPress (vk elapsed : Nat) : HostEvent :=
  .press { vk := vk, elapsed := elapsed, shared := some undoDefaults, downShared := some undoDefaults }

/-- A text in a host. -/
def undoHost (text : List Char) : Host :=
  { service := { TextService.create (some undoDefaults) with before := text } }

end Locale

section Ascii
attribute [local instance] WideLocale.ascii

/-- `as`, Space, Backspace and Escape restore `as`. -/
theorem restores_body_as :
    let es := [undoPress 0x41 0, undoPress 0x53 90, undoPress VK_SPACE 90, undoPress VK_BACK 300]
    let h := Machine.run (Host.step 0) (undoHost ['x', ' ']) es
    h.service.before = ['x', ' ', 'á'] ∧
      (h.restoreCalls 0 (undoPress VK_ESCAPE 300)).length = 1 ∧
      (∀ s₀ ∈ h.restoreCalls 0 (undoPress VK_ESCAPE 300), s₀.FindsBody) ∧
      (h.step 0 (undoPress VK_ESCAPE 300)).service.before = ['x', ' ', 'a', 's'] := by
  refine ⟨by decide +kernel, by decide +kernel, fun s₀ hcall => ?_, by decide +kernel⟩
  exact restores_body rfl (by decide +kernel) (List.prefix_refl _) hcall

/-- After `as` and Space, a Backspace comes two seconds later and deletes the space; the next one comes
    when `GetTickCount` has wrapped around, is in time and deletes the `á`; Escape then replaces the
    character before it. -/
theorem stale_restore :
    let es := [undoPress 0x41 0, undoPress 0x53 90, undoPress VK_SPACE 90, undoPress VK_BACK 2000,
      undoPress VK_BACK (2 ^ 32 - 1000)]
    let h := Machine.run (Host.step 0) (undoHost ['x', ' ']) es
    h.service.before = ['x', ' '] ∧
      (∃ s₀ ∈ h.restoreCalls 0 (undoPress VK_ESCAPE 300),
        s₀.lastCommit.body = ['á'] ∧ ¬s₀.FindsBody) ∧
      (h.step 0 (undoPress VK_ESCAPE 300)).service.before = ['x', 'a', 's'] := by
  decide +kernel

end Ascii

end NextKey
