import NextKey.Tsf.Publication

/-!
# What the callbacks do to the commit undo

Of all that `OnTestKeyDown` and `OnKeyDown` call, only `CommitWithChar` begins a commit undo, and only a
Backspace in the test phase arms it; everything else leaves it as it is or gives it up
(`OnTestKeyDown_undoKept`, `OnKeyDown_undoKept`).
-/

namespace NextKey

variable [WideLocale]

namespace TextService

/-- The commit undo is left as it is, or given up. -/
structure UndoKept (s s' : TextService) : Prop where
  lastContext : s'.lastContext = s.lastContext
  contextBlocked : s'.contextBlocked = s.contextBlocked
  undo : s'.commitUndoState = .idle ∨
    s'.commitUndoState = s.commitUndoState ∧ s'.lastCommit = s.lastCommit

variable {s s' s'' : TextService} {k : KeyInput}

/-- The fields that the commit undo reads. -/
def undo (s : TextService) : CommitUndoState × LastCommit × Option Nat × Bool :=
  (s.commitUndoState, s.lastCommit, s.lastContext, s.contextBlocked)

omit [WideLocale] in
/-- The undo has not changed. -/
lemma UndoKept.of_undo (h : s'.undo = s.undo) : UndoKept s s' := by
  simp only [TextService.undo, Prod.mk.injEq] at h
  obtain ⟨hstate, hcommit, hcontext, hblocked⟩ := h
  exact ⟨hcontext, hblocked, .inr ⟨hstate, hcommit⟩⟩

omit [WideLocale] in
/-- One after the other. -/
lemma UndoKept.trans (h : UndoKept s s') (h' : UndoKept s' s'') : UndoKept s s'' := by
  refine ⟨h'.lastContext.trans h.lastContext, h'.contextBlocked.trans h.contextBlocked, ?_⟩
  obtain hidle | ⟨hstate, hcommit⟩ := h'.undo
  · exact .inl hidle
  · rw [hstate, hcommit]
    exact h.undo

omit [WideLocale] in
/-- An idle undo stays idle. -/
lemma UndoKept.idle (h : UndoKept s s') (hidle : s.commitUndoState = .idle) :
    s'.commitUndoState = .idle := by
  obtain h | ⟨hstate, -⟩ := h.undo
  · exact h
  · exact hstate.trans hidle

omit [WideLocale] in
/-- An undo that is not primed is not primed by it. -/
lemma UndoKept.not_primed (h : UndoKept s s') (hs : s.commitUndoState ≠ .primed) :
    s'.commitUndoState ≠ .primed := by
  obtain hidle | ⟨hstate, -⟩ := h.undo
  · rw [hidle]
    decide
  · rwa [hstate]

omit [WideLocale] in
/-- A reset leaves the undo idle. -/
lemma ResetCommitUndo_idle : s.ResetCommitUndo.commitUndoState = .idle := by
  unfold ResetCommitUndo
  split
  · assumption
  · rfl

omit [WideLocale] in
/-- A reset keeps the undo or drops it. -/
lemma ResetCommitUndo_undoKept : UndoKept s s.ResetCommitUndo := by
  refine ⟨?_, ?_, .inl ResetCommitUndo_idle⟩
  · unfold ResetCommitUndo
    split <;> rfl
  · unfold ResetCommitUndo
    split <;> rfl

omit [WideLocale] in
/-- The session of a commit does not touch the undo. -/
lemma CommitEditSession_undoKept {text} : UndoKept s (s.CommitEditSession text) := by
  unfold CommitEditSession
  split <;> exact .of_undo rfl

omit [WideLocale] in
/-- A commit without a trailing character gives the commit undo up. -/
lemma RecordCommitSnapshot_undoKept {text raw} :
    UndoKept s (s.RecordCommitSnapshot k text raw false) := by
  unfold RecordCommitSnapshot
  split <;> exact ⟨rfl, rfl, .inl rfl⟩

omit [WideLocale] in
/-- A commit without a trailing key leaves the undo idle. -/
lemma RecordCommitSnapshot_idle {text raw} :
    (s.RecordCommitSnapshot k text raw false).commitUndoState = .idle := by
  unfold RecordCommitSnapshot
  split <;> rfl

/-- A plain commit leaves the undo idle. -/
lemma Commit_idle : (s.Commit k).commitUndoState = .idle := RecordCommitSnapshot_idle

/-- A plain commit drops the undo. -/
lemma Commit_undoKept : UndoKept s (s.Commit k) := by
  refine UndoKept.trans ?_ RecordCommitSnapshot_undoKept
  obtain ⟨h₁, h₂, h₃⟩ := @CommitEditSession_undoKept s
    (s.engine.commit s.config.toTypingConfig).2
  exact ⟨h₁, h₂, h₃⟩

omit [WideLocale] in
/-- A commit of the raw keys drops the undo. -/
lemma CommitRawAndEnd_undoKept (h : s.CommitRawAndEnd = some s') : UndoKept s s' := by
  unfold CommitRawAndEnd at h
  dsimp only at h
  split at h
  · cases h
  · cases h
    obtain ⟨h₁, h₂, h₃⟩ := @CommitEditSession_undoKept s s.engine.peekRaw
    exact ⟨h₁, h₂, h₃⟩

omit [WideLocale] in
/-- The session that restores a commit does not prime it again. -/
lemma EscRestoreLastCommitSession_undoKept {body raw} :
    UndoKept s (s.EscRestoreLastCommitSession body raw) := by
  unfold EscRestoreLastCommitSession
  split_ifs
  · exact .of_undo rfl
  · exact .of_undo rfl
  · split <;> exact .of_undo rfl

omit [WideLocale] in
/-- Nor does the restoring. -/
lemma TryRestoreLastCommitRaw_undoKept : UndoKept s (s.TryRestoreLastCommitRaw k).1 := by
  unfold TryRestoreLastCommitRaw
  split
  · exact .of_undo rfl
  · split
    · exact ResetCommitUndo_undoKept
    · split
      · exact ResetCommitUndo_undoKept
      · exact EscRestoreLastCommitSession_undoKept.trans ResetCommitUndo_undoKept

omit [WideLocale] in
/-- The session that restores a commit leaves the engine alone. -/
lemma EscRestoreLastCommitSession_engine {body raw} :
    (s.EscRestoreLastCommitSession body raw).engine = s.engine := by
  unfold EscRestoreLastCommitSession
  split_ifs
  · rfl
  · rfl
  · split <;> rfl

omit [WideLocale] in
/-- So does the restoring. -/
lemma TryRestoreLastCommitRaw_engine : (s.TryRestoreLastCommitRaw k).1.engine = s.engine := by
  unfold TryRestoreLastCommitRaw
  split
  · rfl
  · split
    · exact ResetCommitUndo_sameWord.engine
    · split
      · exact ResetCommitUndo_sameWord.engine
      · exact ResetCommitUndo_sameWord.engine.trans EscRestoreLastCommitSession_engine

/-- To ask for a typing key does not touch the undo. -/
lemma wantTypingKey_undo : (s.wantTypingKey k).1.undo = s.undo := by
  unfold wantTypingKey
  dsimp only
  split
  · rfl
  · rfl
  · rfl
  · split_ifs <;> rfl

/-- To ask for a key does not touch the undo. -/
lemma WantKey_undo : (s.WantKey k).1.undo = s.undo := by
  unfold WantKey
  split
  · rfl
  · dsimp only
    split_ifs
    case neg => exact @wantTypingKey_undo _ { s with tsfActive := _, vietnameseMode := _ } k
    all_goals rfl

/-- To ask for a key keeps the undo. -/
lemma WantKey_undoKept : UndoKept s (s.WantKey k).1 := .of_undo WantKey_undo

/-- The preparation of a revival keeps the undo. -/
lemma PrepareBackspaceRevive_undoKept : UndoKept s (s.PrepareBackspaceRevive k).1 := by
  unfold PrepareBackspaceRevive
  dsimp only
  split_ifs <;> exact .of_undo rfl

/-- A revival keeps the undo. -/
lemma reviveSession_undoKept {word key} : UndoKept s (s.reviveSession word key) := by
  unfold reviveSession
  dsimp only
  split_ifs <;> exact .of_undo rfl

omit [WideLocale] in
/-- An update of the composition keeps the undo. -/
lemma UpdateCompositionEditSession_undoKept {text} :
    UndoKept s (s.UpdateCompositionEditSession text) := by
  unfold UpdateCompositionEditSession
  split <;> exact .of_undo rfl

omit [WideLocale] in
/-- The start of a composition keeps the undo. -/
lemma StartCompositionEditSession_undoKept {text} :
    UndoKept s (s.StartCompositionEditSession text) := by
  unfold StartCompositionEditSession
  split <;> exact .of_undo rfl

/-- Backspace keeps the undo. -/
lemma ProcessBackspace_undoKept : UndoKept s s.ProcessBackspace := by
  unfold ProcessBackspace
  dsimp only
  have hback : UndoKept s { s with engine := s.engine.backspace s.config.toTypingConfig } :=
    .of_undo rfl
  split
  · exact hback.trans UpdateCompositionEditSession_undoKept
  · exact hback.trans CommitEditSession_undoKept

/-- A letter keeps the undo. -/
lemma pushLetter_undoKept {ch} : UndoKept s (s.pushLetter ch).1 := by
  unfold pushLetter
  dsimp only
  have hpush : UndoKept s { s with engine := s.engine.pushChar s.config.toTypingConfig ch } :=
    .of_undo rfl
  split
  · have hstart := hpush.trans (@StartCompositionEditSession_undoKept _
      (s.engine.pushChar s.config.toTypingConfig ch).peek)
    split
    · obtain ⟨h₁, h₂, h₃⟩ := hstart
      exact ⟨h₁, h₂, h₃⟩
    · exact hstart
  · exact hpush.trans UpdateCompositionEditSession_undoKept

/-- A revival with a letter keeps the undo. -/
lemma ReviveAndTypeEditSession_undoKept {word ch} :
    UndoKept s (s.ReviveAndTypeEditSession word ch) := reviveSession_undoKept

/-- The handling of a letter keeps the undo. -/
lemma handleLetter_undoKept : UndoKept s (s.handleLetter k).1 := by
  unfold handleLetter
  dsimp only
  split
  · split
    · exact ReviveAndTypeEditSession_undoKept
    · exact pushLetter_undoKept
  · exact pushLetter_undoKept

/-- The handling of a digit keeps the undo. -/
lemma handleDigit_undoKept : UndoKept s (s.handleDigit k).1 := by
  unfold handleDigit
  dsimp only
  have hpush : UndoKept s
      { s with engine := s.engine.pushChar s.config.toTypingConfig (Char.ofNat k.vk) } := .of_undo rfl
  split
  · exact hpush.trans UpdateCompositionEditSession_undoKept
  · exact hpush

/-- Of the keys of `HandleKey`, only the space commits with a trailing character. -/
lemma HandleKey_undoKept (hspace : k.vk ≠ VK_SPACE) : UndoKept s (s.HandleKey k).1 := by
  unfold HandleKey
  rw [if_neg hspace]
  split
  · split
    · next word _ =>
      obtain ⟨h₁, h₂, h₃⟩ := @reviveSession_undoKept _ s word fun engine =>
        engine.backspace s.config.toTypingConfig
      exact ⟨h₁, h₂, h₃⟩
    · exact ProcessBackspace_undoKept
  · split
    · exact handleLetter_undoKept
    · split
      · exact handleDigit_undoKept
      · exact .of_undo rfl

omit [WideLocale] in
/-- A look at the configuration keeps the undo. -/
lemma CheckConfigEvent_undoKept : UndoKept s s.CheckConfigEvent := by
  unfold CheckConfigEvent
  split
  · exact .of_undo rfl
  · split_ifs <;> exact .of_undo rfl

/-- The resynchronization keeps the undo. -/
lemma resync_undoKept : UndoKept s (s.resync k) := by
  unfold resync
  split
  · exact .of_undo rfl
  · split
    · exact Commit_undoKept
    · exact .of_undo rfl

/-- Esc keeps the undo. -/
lemma escRestoreRaw_undoKept : UndoKept s (s.escRestoreRaw k).1 := by
  unfold escRestoreRaw
  split
  · split
    · split
      · next h => exact CommitRawAndEnd_undoKept h
      · exact .of_undo rfl
    · split
      · exact TryRestoreLastCommitRaw_undoKept
      · exact .of_undo rfl
  · exact .of_undo rfl

/-- A Backspace behind the trailing character of a commit, in time, arms the restore. -/
def armsRestore (s : TextService) (k : KeyInput) : Prop :=
  k.vk = VK_BACK ∧ s.HasEngineBuffer = false ∧ s.commitUndoState = .ready ∧ s.WithinUndoWindow k = true

/-- The test primes the undo when the key arms it. -/
lemma testWanted_armed {wantKey} (h : s.armsRestore k) :
    s.testWanted k wantKey = ({ s with commitUndoState := .primed }.cacheResult k false, false) := by
  obtain ⟨hback, hbuf, hready, hwindow⟩ := h
  unfold testWanted
  dsimp only
  rw [if_pos ⟨by simp [hback, hbuf], hready, hwindow⟩]

/-- Else the test keeps it. -/
lemma testWanted_undoKept {wantKey} (h : ¬s.armsRestore k) :
    UndoKept s (s.testWanted k wantKey).1 := by
  have finish : ∀ {s₁ : TextService} {wantKey : Bool}, UndoKept s s₁ →
      UndoKept s (if ¬wantKey = true ∧ (s₁.cacheResult k wantKey).HasEngineBuffer = true then
        ((s₁.cacheResult k wantKey).Commit k, false) else
          (s₁.cacheResult k wantKey, wantKey)).1 := by
    intro s₁ wantKey hs
    have hcached : UndoKept s (s₁.cacheResult k wantKey) := hs.trans (.of_undo rfl)
    split
    · exact hcached.trans Commit_undoKept
    · exact hcached
  unfold testWanted
  dsimp only
  split
  · next hback =>
    simp only [Bool.and_eq_true, decide_eq_true_eq, Bool.not_eq_true'] at hback
    exact absurd ⟨hback.1.1, hback.1.2, hback.2.1, hback.2.2⟩ h
  · have hreset : UndoKept s
        (if (decide (k.vk = VK_BACK) && !s.HasEngineBuffer) = true ∧ s.commitUndoState = .primed then
          s.ResetCommitUndo else s) := by
      split
      · exact ResetCommitUndo_undoKept
      · exact .of_undo rfl
    apply finish
    split
    · exact hreset.trans PrepareBackspaceRevive_undoKept
    · exact hreset

/-- The answer for a key other than Backspace. -/
lemma testWanted_of_ne_back {wantKey} (hback : k.vk ≠ VK_BACK) :
    s.testWanted k wantKey =
      if ¬wantKey = true ∧ s.HasEngineBuffer = true then ((s.cacheResult k wantKey).Commit k, false)
      else (s.cacheResult k wantKey, wantKey) := by
  unfold testWanted
  simp only [hback, decide_false, Bool.false_and, Bool.false_eq_true, false_and, and_false, if_false]
  rfl

/-- The test of a typing key keeps it. -/
lemma testTyping_undoKept (h : ¬(s.WantKey k).1.armsRestore k) : UndoKept s (s.testTyping k).1 := by
  unfold testTyping
  split
  · exact .of_undo rfl
  · exact WantKey_undoKept.trans (testWanted_undoKept h)

/-- The answer of the test is used without it. -/
lemma cachedWantKey_undoKept : UndoKept s (s.cachedWantKey k).1 := by
  unfold cachedWantKey
  split
  · exact .of_undo rfl
  · exact WantKey_undoKept

/-- The Escape branch calls `TryRestoreLastCommitRaw`. -/
def callsRestore (s : TextService) (k : KeyInput) : Bool :=
  k.vk == VK_ESCAPE && s.config.escRestoreRawEnabled && !s.HasEngineBuffer &&
    decide (s.commitUndoState = .primed) && s.WithinUndoWindow k

/-- When Esc calls for the restoring. -/
lemma callsRestore_eq : s.callsRestore k = true ↔
    k.vk = VK_ESCAPE ∧ s.config.escRestoreRawEnabled = true ∧ s.HasEngineBuffer = false ∧
      s.commitUndoState = .primed ∧ s.WithinUndoWindow k = true := by
  simp [callsRestore, and_assoc]

/-- Esc restores when it calls for it. -/
lemma escRestoreRaw_of_callsRestore (h : s.callsRestore k = true) :
    s.escRestoreRaw k = s.TryRestoreLastCommitRaw k := by
  obtain ⟨hesc, henabled, hbuf, hprimed, hwindow⟩ := callsRestore_eq.1 h
  unfold escRestoreRaw
  rw [if_pos ⟨hesc, henabled⟩, hbuf, if_neg Bool.false_ne_true, if_pos ⟨hprimed, hwindow⟩]

/-- Without a buffer the Escape branch does nothing else. -/
lemma escRestoreRaw_of_not_callsRestore (hbuf : s.HasEngineBuffer = false)
    (h : s.callsRestore k = false) : s.escRestoreRaw k = (s, false) := by
  unfold escRestoreRaw
  rw [hbuf]
  split
  · next hesc =>
    rw [if_neg Bool.false_ne_true, if_neg]
    intro hprimed
    rw [callsRestore_eq.2 ⟨hesc.1, hesc.2, hbuf, hprimed⟩] at h
    cases h
  · rfl

/-- The state of `OnTestKeyDown` after the checks at its head. -/
def testContext (s : TextService) (k : KeyInput) : TextService :=
  { s.CheckConfigEvent with lastPunctChar := '\x00' }.CheckContextBlocked k

/-- The state in which `OnTestKeyDown` looks at the modifiers and comes to the Escape branch. -/
def testHead (s : TextService) (k : KeyInput) : TextService :=
  (if k.vk ≠ VK_BACK ∧ k.vk ≠ VK_ESCAPE then (s.testContext k).ResetCommitUndo
    else s.testContext k).resync k

/-- The state in which `OnTestKeyDown` calls `TryRestoreLastCommitRaw`. -/
def testRestoreCall (s : TextService) (k : KeyInput) : Option TextService :=
  if (s.testContext k).contextBlocked then none
  else if (s.testContext k).HasEngineBuffer ∧ (s.testContext k).dismissesSuggestion k then none
  else if k.modifiers then none
  else if (s.testHead k).callsRestore k then some (s.testHead k)
  else none

/-- The state in which `OnKeyDown` calls `TryRestoreLastCommitRaw`. -/
def keyRestoreCall (s : TextService) (k : KeyInput) : Option TextService :=
  if k.modifiers then none
  else if s.CheckConfigEvent.HasEngineBuffer ∧ s.CheckConfigEvent.dismissesSuggestion k then none
  else if s.CheckConfigEvent.callsRestore k then some s.CheckConfigEvent
  else none

/-- The test of a key, by its parts. -/
lemma OnTestKeyDown_eq : s.OnTestKeyDown k =
    if (s.testContext k).contextBlocked then (s.testContext k, false)
    else if (s.testContext k).HasEngineBuffer ∧ (s.testContext k).dismissesSuggestion k then
      (((s.testContext k).Commit k).cacheResult k false, false)
    else if k.modifiers then
      (if (s.testHead k).HasEngineBuffer then (s.testHead k).Commit k else s.testHead k, false)
    else if ((s.testHead k).escRestoreRaw k).2 then (((s.testHead k).escRestoreRaw k).1, true)
    else ((s.testHead k).escRestoreRaw k).1.testTyping k := rfl

/-- A key, by its parts. -/
lemma OnKeyDown_eq : s.OnKeyDown k =
    if k.modifiers then (s.CheckConfigEvent, false)
    else if s.CheckConfigEvent.HasEngineBuffer ∧ s.CheckConfigEvent.dismissesSuggestion k then
      ((s.CheckConfigEvent.Commit k).clearCache, false)
    else if (s.CheckConfigEvent.escRestoreRaw k).2 then ((s.CheckConfigEvent.escRestoreRaw k).1, true)
    else (s.CheckConfigEvent.escRestoreRaw k).1.keyTyping k := rfl

/-- What `testRestoreCall` says of `OnTestKeyDown`. -/
lemma OnTestKeyDown_restores {s₀ : TextService} (h : s.testRestoreCall k = some s₀) :
    s.OnTestKeyDown k =
      if (s₀.TryRestoreLastCommitRaw k).2 then ((s₀.TryRestoreLastCommitRaw k).1, true)
      else (s₀.TryRestoreLastCommitRaw k).1.testTyping k := by
  unfold testRestoreCall at h
  split_ifs at h with hblocked hdismiss hmods hcalls
  cases h
  rw [OnTestKeyDown_eq, if_neg hblocked, if_neg hdismiss, if_neg hmods,
    escRestoreRaw_of_callsRestore hcalls]

/-- What `keyRestoreCall` says of `OnKeyDown`. -/
lemma OnKeyDown_restores {s₀ : TextService} (h : s.keyRestoreCall k = some s₀) :
    s.OnKeyDown k =
      if (s₀.TryRestoreLastCommitRaw k).2 then ((s₀.TryRestoreLastCommitRaw k).1, true)
      else (s₀.TryRestoreLastCommitRaw k).1.keyTyping k := by
  unfold keyRestoreCall at h
  split_ifs at h with hmods hdismiss hcalls
  cases h
  rw [OnKeyDown_eq, if_neg hmods, if_neg hdismiss, escRestoreRaw_of_callsRestore hcalls]

/-- The text of the engine has a composition to go to. -/
def Attached (s : TextService) : Prop := s.HasEngineBuffer = true → s.IsComposing = true

/-- An empty engine needs no composition. -/
lemma attached_of_empty (h : s.engine = {}) : s.Attached := by
  intro hbuf
  rw [HasEngineBuffer, h] at hbuf
  exact absurd hbuf (by decide)

/-- The word stays attached as long as engine and composition are the same. -/
lemma Attached.of_eq (h : s.Attached) (hengine : s'.engine = s.engine)
    (hcomp : s'.composition = s.composition) : s'.Attached := by
  intro hbuf
  rw [IsComposing, hcomp]
  refine h ?_
  rwa [HasEngineBuffer, ← hengine]

/-- The resynchronization leaves the word attached. -/
lemma resync_attached : (s.resync k).Attached := by
  unfold resync
  split
  · exact attached_of_empty rfl
  · next hreset =>
    split
    · exact attached_of_empty Commit_ended.engine
    · intro hbuf
      by_contra hcomp
      exact hreset ⟨hcomp, hbuf⟩

/-- So does Esc. -/
lemma escRestoreRaw_attached (h : s.Attached) : (s.escRestoreRaw k).1.Attached := by
  unfold escRestoreRaw
  split
  · split
    · split
      · next hraw => exact attached_of_empty (CommitRawAndEnd_ended hraw).engine
      · exact h
    · next hbuf =>
      split
      · intro hbuf'
        refine absurd ?_ hbuf
        rwa [HasEngineBuffer, TryRestoreLastCommitRaw_engine] at hbuf'
      · exact h
  · exact h

/-- The preparation of a revival changes no word. -/
lemma PrepareBackspaceRevive_word :
    (s.PrepareBackspaceRevive k).1.engine = s.engine ∧
      (s.PrepareBackspaceRevive k).1.composition = s.composition := by
  unfold PrepareBackspaceRevive
  dsimp only
  split_ifs <;> exact ⟨rfl, rfl⟩

/-- The test of a key that is wanted leaves the word attached. -/
lemma testWanted_attached {wantKey} (h : s.Attached) : (s.testWanted k wantKey).1.Attached := by
  have finish : ∀ {s₁ : TextService} {wantKey : Bool}, s₁.Attached →
      (if ¬wantKey = true ∧ (s₁.cacheResult k wantKey).HasEngineBuffer = true then
        ((s₁.cacheResult k wantKey).Commit k, false) else
          (s₁.cacheResult k wantKey, wantKey)).1.Attached := by
    intro s₁ wantKey hs
    split
    · exact attached_of_empty Commit_ended.engine
    · exact hs
  unfold testWanted
  dsimp only
  split
  · exact h
  · have hreset : Attached
        (if (decide (k.vk = VK_BACK) && !s.HasEngineBuffer) = true ∧ s.commitUndoState = .primed then
          s.ResetCommitUndo else s) := by
      split
      · exact h.of_eq ResetCommitUndo_sameWord.engine ResetCommitUndo_sameWord.composition
      · exact h
    apply finish
    split
    · exact hreset.of_eq PrepareBackspaceRevive_word.1 PrepareBackspaceRevive_word.2
    · exact hreset

/-- So does the test of a typing key. -/
lemma testTyping_attached (h : s.Attached) : (s.testTyping k).1.Attached := by
  unfold testTyping
  split
  · exact h
  · exact testWanted_attached (h.of_eq WantKey_sameWord.engine WantKey_sameWord.composition)

/-- In a context that is not blocked, the test phase leaves the engine attached. -/
lemma OnTestKeyDown_attached (hopen : (s.testContext k).contextBlocked = false) :
    (s.OnTestKeyDown k).1.Attached := by
  rw [OnTestKeyDown_eq, if_neg (by simp [hopen])]
  split
  · exact attached_of_empty Commit_ended.engine
  · have hhead : (s.testHead k).Attached := resync_attached
    split
    · split
      · exact attached_of_empty Commit_ended.engine
      · exact hhead
    · split
      · exact escRestoreRaw_attached hhead
      · exact testTyping_attached (escRestoreRaw_attached hhead)

end TextService

end NextKey
