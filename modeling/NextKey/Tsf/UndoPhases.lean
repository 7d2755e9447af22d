import NextKey.Tsf.UndoKept

/-!
# The commit undo through the two phases of a key

While nothing is being typed, the text of the last commit stands before the caret (`AtCommit`). The
test phase and the key phase of a Backspace or an Escape then do nothing but move the undo on
(`OnTestKeyDown_atCommit`, `OnKeyDown_left`); any other key gives it up (`OnTestKeyDown_idle`), and
after it `OnKeyDown` may begin the next one (`OnKeyDown_begins`).
-/

namespace NextKey

/-- The text that the commit undo replaces (in `TryRestoreLastCommitRaw`). -/
def LastCommit.body (c : LastCommit) : List Char :=
  if c.hasTrailingChar then c.text.dropLast else c.text

section Locale
variable [WideLocale]

namespace TextService

/-- Nothing is being typed, and a text that ends a commit with a trailing character stands before the
    caret. -/
structure AtCommit (s : TextService) (text : List Char) : Prop where
  buffer : s.HasEngineBuffer = false
  composition : s.composition = none
  trailing : s.lastCommit.hasTrailingChar = true
  before : text <:+ s.before

/-- `OnKeyDown` finds a composition for what it commits. -/
structure Prepared (s : TextService) (k : KeyInput) : Prop where
  attached : s.Attached
  space : k.vk = VK_SPACE → k.vk = s.lastTestedVk → s.lastWantKeyResult = true → s.IsComposing = true

/-- `OnKeyDown` has committed with a trailing character. -/
structure Begins (s : TextService) (k : KeyInput) (r : TextService × Bool) : Prop where
  eaten : r.2 = true
  lastContext : r.1.lastContext = s.lastContext
  contextBlocked : r.1.contextBlocked = s.contextBlocked
  not_primed : r.1.commitUndoState ≠ .primed
  atCommit : s.Prepared k → r.1.commitUndoState = .idle ∨
    r.1.commitUndoState = .ready ∧ r.1.AtCommit r.1.lastCommit.text

variable {s s' : TextService} {k : KeyInput}

omit [WideLocale] in
/-- A commit leaves its text before the caret. -/
lemma CommitEditSession_before {text} (hcomp : s.IsComposing = true) :
    (s.CommitEditSession text).before = s.before ++ text := by
  unfold CommitEditSession
  rw [if_pos hcomp]
  obtain ⟨shown, hshown⟩ := Option.isSome_iff_exists.1 hcomp
  simp [EndComposition, SetCompositionText, caretText, hshown]

omit [WideLocale] in
/-- A commit with a trailing character makes the undo ready, if it records anything. -/
lemma RecordCommitSnapshot_trailing {text raw} :
    (s.RecordCommitSnapshot k text raw true).commitUndoState = .idle ∨
      (s.RecordCommitSnapshot k text raw true).commitUndoState = .ready ∧
        (s.RecordCommitSnapshot k text raw true).lastCommit = ⟨text, raw, true, k.tick⟩ := by
  unfold RecordCommitSnapshot
  split
  · exact .inl rfl
  · exact .inr ⟨rfl, rfl⟩

omit [WideLocale] in
/-- To record a commit touches neither the document nor the word. -/
lemma RecordCommitSnapshot_rest {text raw trailing} :
    (s.RecordCommitSnapshot k text raw trailing).before = s.before ∧
      (s.RecordCommitSnapshot k text raw trailing).lastContext = s.lastContext ∧
      (s.RecordCommitSnapshot k text raw trailing).contextBlocked = s.contextBlocked := by
  unfold RecordCommitSnapshot
  split <;> exact ⟨rfl, rfl, rfl⟩

/-- A commit with a character, by its parts. -/
lemma CommitWithChar_eq {ch} (hch : ch ≠ '\x00') :
    s.CommitWithChar k ch =
      { s.CommitEditSession ((s.engine.commit s.config.toTypingConfig).2 ++ [ch]) with
        engine := {}, digitLedWord := false }.RecordCommitSnapshot k
          ((s.engine.commit s.config.toTypingConfig).2 ++ [ch]) s.engine.peekRaw true := by
  have htrailing : (ch != '\x00') = true := by simpa using hch
  simp only [CommitWithChar, hch, ne_eq, not_false_eq_true, if_true, htrailing]

/-- A commit with a character does not look at the context. -/
lemma CommitWithChar_frame {ch} :
    (s.CommitWithChar k ch).lastContext = s.lastContext ∧
      (s.CommitWithChar k ch).contextBlocked = s.contextBlocked := by
  unfold CommitWithChar
  extract_lets raw committed text s₁
  have hframe : UndoKept s s₁ := CommitEditSession_undoKept
  obtain ⟨-, hcontext, hblocked⟩ := @RecordCommitSnapshot_rest
    { s₁ with engine := {}, digitLedWord := false } k text raw (ch != '\x00')
  exact ⟨hcontext.trans hframe.lastContext, hblocked.trans hframe.contextBlocked⟩

/-- `CommitWithChar` makes the undo ready, with the text of the commit before the caret, or idle. -/
lemma CommitWithChar_ready {ch} (hch : ch ≠ '\x00') :
    (s.CommitWithChar k ch).commitUndoState = .idle ∨
      (s.CommitWithChar k ch).commitUndoState = .ready ∧
        (s.IsComposing = true →
          (s.CommitWithChar k ch).AtCommit (s.CommitWithChar k ch).lastCommit.text) := by
  have hended : Ended s (s.CommitWithChar k ch) := CommitWithChar_ended
  have heq := CommitWithChar_eq (s := s) (k := k) hch
  generalize (s.engine.commit s.config.toTypingConfig).2 ++ [ch] = text at heq
  obtain hidle | ⟨hready, hlast⟩ := @RecordCommitSnapshot_trailing
    { s.CommitEditSession text with engine := {}, digitLedWord := false } k text s.engine.peekRaw
  · exact .inl (by rw [heq, hidle])
  · refine .inr ⟨by rw [heq, hready], fun hcomp => ⟨?_, hended.composition, ?_, ?_⟩⟩
    · rw [HasEngineBuffer, hended.engine]
      rfl
    · rw [heq, hlast]
    · rw [heq, hlast, RecordCommitSnapshot_rest.1]
      show text <:+ (s.CommitEditSession text).before
      rw [CommitEditSession_before hcomp]
      exact List.suffix_append s.before text

/-- A commit does not touch the answer of the test. -/
lemma Commit_lastWantKeyResult : (s.Commit k).lastWantKeyResult = s.lastWantKeyResult := by
  unfold Commit RecordCommitSnapshot CommitEditSession
  dsimp only
  split <;> split <;> rfl

/-- What the test has prepared stays so while the word does. -/
lemma Prepared.of_eq (h : s.Prepared k) (hengine : s'.engine = s.engine ∨ s'.engine = {})
    (hcomp : s'.composition = s.composition) (hvk : s'.lastTestedVk = s.lastTestedVk)
    (hwant : s'.lastWantKeyResult = s.lastWantKeyResult) : s'.Prepared k := by
  constructor
  · obtain hengine | hengine := hengine
    · exact h.attached.of_eq hengine hcomp
    · exact attached_of_empty hengine
  · rw [IsComposing, hcomp, hvk, hwant]
    exact h.space

omit [WideLocale] in
/-- A look at the configuration keeps the engine or makes it anew. -/
lemma CheckConfigEvent_engine :
    s.CheckConfigEvent.engine = s.engine ∨ s.CheckConfigEvent.engine = {} := by
  unfold CheckConfigEvent
  split
  · exact .inl rfl
  · split
    · exact .inl rfl
    · split
      · exact .inl rfl
      · exact .inr rfl

/-- A look at the configuration leaves what the test has prepared. -/
lemma CheckConfigEvent_prepared (h : s.Prepared k) : s.CheckConfigEvent.Prepared k := by
  have hdoc : SameDocument s s.CheckConfigEvent := CheckConfigEvent_sameDocument
  exact h.of_eq CheckConfigEvent_engine hdoc.composition hdoc.lastTestedVk hdoc.lastWantKeyResult

/-- What begins an undo after a step that keeps it begins it before. -/
lemma Begins.of_kept {r} (hkept : UndoKept s s') (hprepared : s.Prepared k → s'.Prepared k)
    (h : s'.Begins k r) : s.Begins k r :=
  ⟨h.eaten, h.lastContext.trans hkept.lastContext, h.contextBlocked.trans hkept.contextBlocked,
    h.not_primed, fun hs => h.atCommit (hprepared hs)⟩

/-- The space is wanted when there is a composition to commit. -/
lemma cachedWantKey_space (hs : s.Prepared k) (hspace : k.vk = VK_SPACE)
    (hwant : (s.cachedWantKey k).2 = true) : s.IsComposing = true := by
  unfold cachedWantKey at hwant
  split at hwant
  · next hcached => exact hs.space hspace hcached hwant
  · dsimp only at hwant
    rw [Bool.and_eq_true] at hwant
    obtain ⟨-, hletter | hbuf⟩ := WantKey_true hwant.1
    · rw [hspace] at hletter
      exact absurd hletter (by decide)
    · exact hs.attached hbuf

omit [WideLocale] in
/-- To drop the answer of the test keeps the undo. -/
lemma clearCache_undoKept : UndoKept s s.clearCache := .of_undo rfl

/-- `OnKeyDown` has committed with a trailing character. -/
lemma CommitWithChar_begins {ch} (hch : ch ≠ '\x00') (hkept : UndoKept s s')
    (hcomp : s.Prepared k → s'.IsComposing = true) : s.Begins k (s'.CommitWithChar k ch, true) := by
  obtain ⟨hcontext, hblocked⟩ := @CommitWithChar_frame _ s' k ch
  refine ⟨rfl, hcontext.trans hkept.lastContext, hblocked.trans hkept.contextBlocked, ?_, ?_⟩
  · obtain hidle | ⟨hready, -⟩ := CommitWithChar_ready (s := s') (k := k) hch
    · simp [hidle]
    · simp [hready]
  · intro hprepared
    obtain hidle | ⟨hready, hat⟩ := CommitWithChar_ready (s := s') (k := k) hch
    · exact .inl hidle
    · exact .inr ⟨hready, hat (hcomp hprepared)⟩

/-- An undo begins also when the answer is dropped after it. -/
lemma Begins.clearCache {r} (h : s.Begins k r) : s.Begins k (r.1.clearCache, r.2) := by
  refine ⟨h.eaten, h.lastContext, h.contextBlocked, h.not_primed, fun hprepared => ?_⟩
  obtain hidle | ⟨hready, hat⟩ := h.atCommit hprepared
  · exact .inl hidle
  · exact .inr ⟨hready, hat.buffer, hat.composition, hat.trailing, hat.before⟩

/-- A typing key keeps the undo or begins one. -/
lemma keyTyping_begins : UndoKept s (s.keyTyping k).1 ∨ s.Begins k (s.keyTyping k) := by
  unfold keyTyping
  extract_lets ch
  have hspaceKey := @cachedWantKey_space _ s k
  have hkept := @cachedWantKey_undoKept _ s k
  have hsame := @cachedWantKey_sameWord _ s k
  generalize s.cachedWantKey k = cached at hspaceKey hkept hsame
  obtain ⟨s₁, wantKey⟩ := cached
  dsimp only at hspaceKey hkept hsame ⊢
  have hcleared : UndoKept s s₁.clearCache := hkept.trans clearCache_undoKept
  split
  · next hpunct =>
    have hbegins : s.Begins k (s.CommitWithChar k ch, true) :=
      CommitWithChar_begins hpunct.2.2.2 (.of_undo rfl) fun hs => hs.attached hpunct.2.1
    exact .inr hbegins.clearCache
  · split
    · split
      · exact .inl (hcleared.trans Commit_undoKept)
      · exact .inl hcleared
    · next hwant =>
      by_cases hspace : k.vk = VK_SPACE
      · right
        have hkey : s₁.clearCache.HandleKey k = (s₁.clearCache.CommitWithChar k ' ', true) := by
          unfold HandleKey
          rw [if_neg (by rw [hspace]; decide), if_pos hspace]
        rw [hkey]
        refine CommitWithChar_begins (by decide) hcleared fun hs => ?_
        have hcomp := hspaceKey hs hspace (not_not.1 hwant)
        rwa [IsComposing, ← hsame.composition] at hcomp
      · exact .inl (hcleared.trans (HandleKey_undoKept hspace))

/-- When the Escape branch restores nothing, at most the undo has been given up. -/
lemma escRestoreRaw_false (h : (s.escRestoreRaw k).2 = false) :
    (s.escRestoreRaw k).1 = s ∨ (s.escRestoreRaw k).1 = s.ResetCommitUndo := by
  unfold escRestoreRaw at h ⊢
  split
  · next hesc =>
    rw [if_pos hesc] at h
    split
    · next hbuf =>
      rw [if_pos hbuf] at h
      split
      · next hraw =>
        rw [hraw] at h
        cases h
      · exact .inl rfl
    · next hbuf =>
      rw [if_neg hbuf] at h
      split
      · next hprimed =>
        rw [if_pos hprimed] at h
        unfold TryRestoreLastCommitRaw at h ⊢
        rw [if_neg (by simp [hprimed.1])] at h ⊢
        rw [if_neg (by simp [hprimed.2])] at h ⊢
        split
        · exact .inr rfl
        · next htext =>
          rw [if_neg htext] at h
          cases h
      · exact .inl rfl
  · exact .inl rfl

/-- A reset of the undo leaves what the test has prepared. -/
lemma ResetCommitUndo_prepared (h : s.Prepared k) : s.ResetCommitUndo.Prepared k := by
  unfold ResetCommitUndo
  split <;> exact h.of_eq (.inl rfl) rfl rfl rfl

/-- `OnKeyDown` begins a commit undo, or leaves it as it is or gives it up. -/
lemma OnKeyDown_begins : UndoKept s (s.OnKeyDown k).1 ∨
    k.modifiers = false ∧ s.Begins k (s.OnKeyDown k) := by
  have hconfig : UndoKept s s.CheckConfigEvent := CheckConfigEvent_undoKept
  rw [OnKeyDown_eq]
  split
  · exact .inl hconfig
  · next hmods =>
    split
    · exact .inl ((hconfig.trans Commit_undoKept).trans clearCache_undoKept)
    · have hesc : UndoKept s (s.CheckConfigEvent.escRestoreRaw k).1 :=
        hconfig.trans escRestoreRaw_undoKept
      split
      · exact .inl hesc
      · next hrestored =>
        have hprepared : s.Prepared k → (s.CheckConfigEvent.escRestoreRaw k).1.Prepared k := by
          intro hs
          have hchecked : s.CheckConfigEvent.Prepared k := CheckConfigEvent_prepared hs
          obtain hsame | hreset := escRestoreRaw_false (by simpa using hrestored)
          · rwa [hsame]
          · rw [hreset]
            exact ResetCommitUndo_prepared hchecked
        obtain hkept | hbegins := @keyTyping_begins _ (s.CheckConfigEvent.escRestoreRaw k).1 k
        · exact .inl (hesc.trans hkept)
        · exact .inr ⟨by simpa using hmods, hbegins.of_kept hesc hprepared⟩

omit [WideLocale] in
/-- A look at the configuration does not touch the undo. -/
lemma CheckConfigEvent_undo : s.CheckConfigEvent.undo = s.undo := by
  unfold CheckConfigEvent
  split
  · rfl
  · split_ifs <;> rfl

omit [WideLocale] in
/-- Nor the text before the caret. -/
lemma CheckConfigEvent_before : s.CheckConfigEvent.before = s.before := by
  unfold CheckConfigEvent
  split
  · rfl
  · split_ifs <;> rfl

/-- The caret stays behind the commit while nothing is typed. -/
lemma AtCommit.of_eq {text} (h : s.AtCommit text) (hengine : s'.engine = s.engine ∨ s'.engine = {})
    (hcomp : s'.composition = s.composition) (hbefore : s'.before = s.before)
    (hundo : s'.undo = s.undo) : s'.AtCommit text := by
  simp only [TextService.undo, Prod.mk.injEq] at hundo
  refine ⟨?_, hcomp.trans h.composition, by rw [hundo.2.1, h.trailing], by rw [hbefore]; exact h.before⟩
  obtain hengine | hengine := hengine
  · rw [HasEngineBuffer, hengine]
    exact h.buffer
  · rw [HasEngineBuffer, hengine]
    rfl

/-- So it does when the configuration is looked at. -/
lemma CheckConfigEvent_atCommit {text} (h : s.AtCommit text) : s.CheckConfigEvent.AtCommit text :=
  h.of_eq CheckConfigEvent_engine CheckConfigEvent_sameDocument.composition CheckConfigEvent_before
    CheckConfigEvent_undo

/-- A key that is not wanted finds nothing to do when nothing is being typed. -/
lemma keyTyping_quiet (hbuf : s.HasEngineBuffer = false) (hvk : k.vk = s.lastTestedVk)
    (hwant : s.lastWantKeyResult = false) : s.keyTyping k = (s.clearCache, false) := by
  have hcached : s.cachedWantKey k = (s, false) := by rw [cachedWantKey, if_pos hvk, hwant]
  have hbuf' : s.clearCache.HasEngineBuffer = false := hbuf
  unfold keyTyping
  extract_lets ch
  rw [if_neg (by simp [hbuf]), hcached]
  dsimp only
  rw [if_pos Bool.false_ne_true, if_neg (by simp [hbuf'])]

/-- The service waits for the host to handle the key that the test phase has left to it. -/
structure Left (s : TextService) (k : KeyInput) : Prop where
  vk : k.vk = s.lastTestedVk
  want : s.lastWantKeyResult = false

/-- `OnKeyDown` restores, or leaves the key to the host as the test phase did. -/
lemma OnKeyDown_left {text} (h : s.AtCommit text) (hleft : s.Left k)
    (hcall : s.keyRestoreCall k = none) :
    (s.OnKeyDown k).2 = false ∧ (s.OnKeyDown k).1.undo = s.undo ∧ (s.OnKeyDown k).1.AtCommit text := by
  have hchecked : s.CheckConfigEvent.AtCommit text := CheckConfigEvent_atCommit h
  have hdoc : SameDocument s s.CheckConfigEvent := CheckConfigEvent_sameDocument
  unfold keyRestoreCall at hcall
  rw [OnKeyDown_eq]
  split
  · exact ⟨rfl, CheckConfigEvent_undo, hchecked⟩
  · next hmods =>
    rw [if_neg hmods, if_neg (by simp [hchecked.buffer])] at hcall
    rw [if_neg (by simp [hchecked.buffer])]
    have hcalls : s.CheckConfigEvent.callsRestore k = false := by
      by_contra h
      rw [if_pos (by simpa using h)] at hcall
      cases hcall
    rw [escRestoreRaw_of_not_callsRestore hchecked.buffer hcalls, if_neg Bool.false_ne_true,
      keyTyping_quiet hchecked.buffer (hleft.vk.trans hdoc.lastTestedVk.symm)
        (hdoc.lastWantKeyResult.trans hleft.want)]
    exact ⟨rfl, CheckConfigEvent_undo, hchecked.of_eq (.inl rfl) rfl rfl rfl⟩

omit [WideLocale] in
/-- The restore is tried once. -/
lemma TryRestoreLastCommitRaw_idle (h : s.commitUndoState = .primed) :
    (s.TryRestoreLastCommitRaw k).1.commitUndoState = .idle := by
  unfold TryRestoreLastCommitRaw
  rw [if_neg (by simp [h])]
  split
  · exact ResetCommitUndo_idle
  · split <;> exact ResetCommitUndo_idle

omit [WideLocale] in
/-- The test of the context does not touch the undo. -/
lemma testContext_undo : (s.testContext k).commitUndoState = s.commitUndoState ∧
    (s.testContext k).lastCommit = s.lastCommit := by
  have hundo : s.CheckConfigEvent.undo = s.undo := CheckConfigEvent_undo
  simp only [TextService.undo, Prod.mk.injEq] at hundo
  unfold testContext CheckContextBlocked
  split <;> exact ⟨hundo.1, hundo.2.1⟩

omit [WideLocale] in
/-- The test of the context remembers it. -/
lemma testContext_lastContext : (s.testContext k).lastContext = some k.context := by
  unfold testContext CheckContextBlocked
  split
  · next h => exact h
  · rfl

omit [WideLocale] in
/-- A context that has been checked is not checked again. -/
lemma testContext_contextBlocked (h : s.lastContext = some k.context) :
    (s.testContext k).contextBlocked = s.contextBlocked := by
  have hdoc : SameDocument s s.CheckConfigEvent := CheckConfigEvent_sameDocument
  unfold testContext CheckContextBlocked
  rw [if_pos (hdoc.lastContext.trans h)]
  exact hdoc.contextBlocked

/-- The test of the context leaves the caret behind the commit. -/
lemma testContext_atCommit {text} (h : s.AtCommit text) : (s.testContext k).AtCommit text := by
  have hchecked : s.CheckConfigEvent.AtCommit text := CheckConfigEvent_atCommit h
  unfold testContext CheckContextBlocked
  split <;> exact ⟨hchecked.buffer, hchecked.composition, hchecked.trailing, hchecked.before⟩

omit [WideLocale] in
/-- The test of the context does not change the window of the undo. -/
lemma testContext_window :
    (s.testContext k).WithinUndoWindow k = s.WithinUndoWindow k := by
  obtain ⟨hstate, hcommit⟩ := @testContext_undo s k
  rw [WithinUndoWindow, WithinUndoWindow, hstate, hcommit]

omit [WideLocale] in
/-- An undo that is ready has been ready with the same commit. -/
lemma UndoKept.ready (h : UndoKept s s') (hready : s'.commitUndoState = .ready) :
    s.commitUndoState = .ready ∧ s'.WithinUndoWindow k = s.WithinUndoWindow k := by
  obtain hidle | ⟨hstate, hcommit⟩ := h.undo
  · rw [hready] at hidle
    cases hidle
  · exact ⟨hstate.symm.trans hready, by rw [WithinUndoWindow, WithinUndoWindow, hstate, hcommit]⟩

/-- The head of the test keeps the undo. -/
lemma testHead_undoKept : UndoKept (s.testContext k) (s.testHead k) := by
  unfold testHead
  split
  · exact ResetCommitUndo_undoKept.trans resync_undoKept
  · exact resync_undoKept

/-- Where no Backspace arms the restore, the test phase leaves the undo as it is or gives it up. -/
lemma OnTestKeyDown_undoKept
    (h : ¬(k.vk = VK_BACK ∧ s.commitUndoState = .ready ∧ s.WithinUndoWindow k = true)) :
    UndoKept (s.testContext k) (s.OnTestKeyDown k).1 := by
  rw [OnTestKeyDown_eq]
  split
  · exact .of_undo rfl
  · split
    · exact Commit_undoKept.trans (.of_undo rfl)
    · split
      · split
        · exact testHead_undoKept.trans Commit_undoKept
        · exact testHead_undoKept
      · have hesc : UndoKept (s.testContext k) ((s.testHead k).escRestoreRaw k).1 :=
          testHead_undoKept.trans escRestoreRaw_undoKept
        split
        · exact hesc
        · refine hesc.trans (testTyping_undoKept ?_)
          rintro ⟨hback, -, hready, hwindow⟩
          obtain ⟨hready', hwindow'⟩ := (hesc.trans WantKey_undoKept).ready (k := k) hready
          have hstate : s.commitUndoState = .ready := testContext_undo.1.symm.trans hready'
          refine h ⟨hback, hstate, ?_⟩
          rw [← testContext_window, ← hwindow', hwindow]

/-- A key other than Backspace and Escape gives the undo up. -/
lemma OnTestKeyDown_idle (hopen : (s.testContext k).contextBlocked = false)
    (hkey : k.vk ≠ VK_BACK ∧ k.vk ≠ VK_ESCAPE) : (s.OnTestKeyDown k).1.commitUndoState = .idle := by
  have hhead : (s.testHead k).commitUndoState = .idle := by
    unfold testHead
    rw [if_pos hkey]
    exact resync_undoKept.idle ResetCommitUndo_idle
  rw [OnTestKeyDown_eq, if_neg (by simp [hopen])]
  split
  · exact Commit_idle
  · split
    · split
      · exact Commit_idle
      · exact hhead
    · have hesc := (@escRestoreRaw_undoKept _ _ k).idle hhead
      split
      · exact hesc
      · exact (testTyping_undoKept fun harms => hkey.1 harms.1).idle hesc

/-- With nothing being typed, a Backspace or an Escape without modifiers gets to the Escape branch. -/
lemma testHead_atCommit {text} (h : s.AtCommit text) (hkey : k.vk = VK_BACK ∨ k.vk = VK_ESCAPE) :
    s.testHead k = s.testContext k := by
  have hat : (s.testContext k).AtCommit text := testContext_atCommit h
  have hnone : ¬(k.vk ≠ VK_BACK ∧ k.vk ≠ VK_ESCAPE) := by
    rintro ⟨hback, hesc⟩
    exact hkey.elim hback hesc
  unfold testHead resync
  rw [if_neg hnone, if_neg (by simp [hat.buffer]), if_neg (by simp [IsComposing, hat.composition])]

/-- The test of Backspace or Esc behind a commit. -/
lemma OnTestKeyDown_atCommit {text} (h : s.AtCommit text) (hkey : k.vk = VK_BACK ∨ k.vk = VK_ESCAPE)
    (hopen : (s.testContext k).contextBlocked = false) (hmods : k.modifiers = false)
    (hcall : s.testRestoreCall k = none) : s.OnTestKeyDown k = (s.testContext k).testTyping k := by
  have hat : (s.testContext k).AtCommit text := testContext_atCommit h
  have hcalls : (s.testContext k).callsRestore k = false := by
    unfold testRestoreCall at hcall
    rw [if_neg (by simp [hopen]), if_neg (by simp [hat.buffer]), if_neg (by simp [hmods]),
      testHead_atCommit h hkey] at hcall
    by_contra hcalls
    rw [if_pos (by simpa using hcalls)] at hcall
    cases hcall
  rw [OnTestKeyDown_eq, if_neg (by simp [hopen]), if_neg (by simp [hat.buffer]),
    if_neg (by simp [hmods]), testHead_atCommit h hkey,
    escRestoreRaw_of_not_callsRestore hat.buffer hcalls, if_neg Bool.false_ne_true]

/-- To ask for a typing key leaves the document. -/
lemma wantTypingKey_before : (s.wantTypingKey k).1.before = s.before := by
  unfold wantTypingKey
  dsimp only
  split
  · rfl
  · rfl
  · rfl
  · split_ifs <;> rfl

/-- To ask for a key leaves the document. -/
lemma WantKey_before : (s.WantKey k).1.before = s.before := by
  unfold WantKey
  split
  · rfl
  · dsimp only
    split_ifs
    case neg => exact @wantTypingKey_before _ { s with tsfActive := _, vietnameseMode := _ } k
    all_goals rfl

/-- To ask for a key leaves the caret behind the commit. -/
lemma WantKey_atCommit {text} (h : s.AtCommit text) : (s.WantKey k).1.AtCommit text :=
  h.of_eq (.inl WantKey_sameWord.engine) WantKey_sameWord.composition WantKey_before WantKey_undo

/-- A key without a character of its own is not wanted when nothing is being typed. -/
lemma WantKey_false (hbuf : s.HasEngineBuffer = false) (hkey : k.vk = VK_BACK ∨ k.vk = VK_ESCAPE) :
    (s.WantKey k).2 = false := by
  by_contra hwant
  obtain ⟨-, hletter | hbuf'⟩ := WantKey_true (by simpa using hwant)
  · obtain hback | hesc := hkey
    · rw [hback] at hletter
      exact absurd hletter (by decide)
    · rw [hesc] at hletter
      exact absurd hletter (by decide)
  · rw [hbuf] at hbuf'
    cases hbuf'

/-- The test of Backspace or Esc as a typing key behind a commit. -/
lemma testTyping_atCommit {text} (h : s.AtCommit text) (hkey : k.vk = VK_BACK ∨ k.vk = VK_ESCAPE) :
    s.testTyping k = (s.WantKey k).1.testWanted k false := by
  unfold testTyping
  rw [if_neg (by simp [h.buffer])]
  have hwant := WantKey_false h.buffer hkey
  generalize s.WantKey k = wanted at hwant
  obtain ⟨s₁, wantKey⟩ := wanted
  dsimp only at hwant ⊢
  rw [hwant, Bool.false_and]

/-- Escape is left to the host. -/
lemma testTyping_escape {text} (h : s.AtCommit text) (hesc : k.vk = VK_ESCAPE) :
    s.testTyping k = ((s.WantKey k).1.cacheResult k false, false) := by
  have hbuf : ((s.WantKey k).1.cacheResult k false).HasEngineBuffer = false :=
    (WantKey_atCommit h).buffer
  rw [testTyping_atCommit h (.inr hesc), testWanted_of_ne_back (by rw [hesc]; decide), if_neg]
  rintro ⟨-, hbuf'⟩
  rw [hasEngineBuffer_eq] at hbuf'
  rw [HasEngineBuffer, decide_eq_false_iff_not] at hbuf
  exact hbuf hbuf'

/-- A second Backspace gives the undo up. -/
lemma testWanted_primed (hback : k.vk = VK_BACK) (hbuf : s.HasEngineBuffer = false)
    (hprimed : s.commitUndoState = .primed) {wantKey} :
    (s.testWanted k wantKey).1.commitUndoState = .idle := by
  have hreset : (if (decide (k.vk = VK_BACK) && !s.HasEngineBuffer) = true ∧
      s.commitUndoState = .primed then s.ResetCommitUndo else s) = s.ResetCommitUndo :=
    if_pos ⟨by simp [hback, hbuf], hprimed⟩
  have hidle : s.ResetCommitUndo.commitUndoState = .idle := ResetCommitUndo_idle
  unfold testWanted
  dsimp only
  rw [if_neg (by simp [hprimed]), hreset]
  split
  · split
    · exact Commit_idle
    · exact (@PrepareBackspaceRevive_undoKept _ _ k).idle hidle
  · split
    · exact Commit_idle
    · exact hidle

/-- The test phase of the space leaves a composition to a key that it wants. -/
lemma OnTestKeyDown_prepared (hopen : (s.testContext k).contextBlocked = false)
    (hmods : k.modifiers = false) : (s.OnTestKeyDown k).1.Prepared k := by
  have hattached : (s.OnTestKeyDown k).1.Attached := OnTestKeyDown_attached hopen
  refine ⟨hattached, ?_⟩
  rintro hspace -
  have hback : k.vk ≠ VK_BACK := by
    rw [hspace]
    decide
  have hesc : k.vk ≠ VK_ESCAPE := by
    rw [hspace]
    decide
  have hdismiss : (s.testContext k).dismissesSuggestion k = false := by
    simp [dismissesSuggestion, hback]
  have hescape : (s.testHead k).escRestoreRaw k = (s.testHead k, false) := by
    rw [escRestoreRaw, if_neg fun h => hesc h.1]
  have hpunct : IsPunctuationKey k.vk = false := by
    rw [hspace]
    decide
  have htest : s.OnTestKeyDown k = (s.testHead k).testTyping k := by
    rw [OnTestKeyDown_eq, if_neg (by simp [hopen]), if_neg (by simp [hdismiss]),
      if_neg (by simp [hmods]), hescape, if_neg Bool.false_ne_true]
  rw [htest] at hattached ⊢
  unfold testTyping at hattached ⊢
  rw [if_neg (by simp [hpunct])] at hattached ⊢
  have hwanted := @WantKey_true _ (s.testHead k) k
  have hword := @WantKey_sameWord _ (s.testHead k) k
  generalize (s.testHead k).WantKey k = wanted at hattached hwanted hword ⊢
  obtain ⟨s₁, wantKey⟩ := wanted
  dsimp only at hattached hwanted hword ⊢
  rw [testWanted_of_ne_back hback] at hattached ⊢
  split
  · next hnot =>
    intro hwant
    rw [Commit_lastWantKeyResult] at hwant
    exact absurd hwant hnot.1
  · next hnot =>
    rw [if_neg hnot] at hattached
    intro hwant
    have hwant' : (wantKey && !s₁.dismissesSuggestion k) = true := hwant
    rw [Bool.and_eq_true] at hwant'
    obtain ⟨-, hletter | hbuf⟩ := hwanted hwant'.1
    · rw [hspace] at hletter
      exact absurd hletter (by decide)
    · apply hattached
      rwa [← hword.hasEngineBuffer] at hbuf

end TextService

end Locale

end NextKey
